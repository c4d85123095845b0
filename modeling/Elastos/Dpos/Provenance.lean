import Elastos.Dpos.StateActions

/-! Where the actions of a block come from. Before the commit a frame only gets new
cells, deposit outputs and arbiters, so every action is read off a frame with the maps
of the state before the block. -/
set_option autoImplicit false
namespace Elastos.Dpos
open Go Common Config Elastos.Core Elastos.Types List

/-- A frame with more cells and other deposit outputs and arbiters. -/
def Extends (frame later : StateKeyFrame) : Prop :=
  ∃ cells outputs arbiters, later = { frame with
    producers := frame.producers ++ cells
    depositOutputs := outputs
    preBlockArbiters := arbiters }

namespace Extends

theorem refl (frame : StateKeyFrame) : Extends frame frame :=
  ⟨[], frame.depositOutputs, frame.preBlockArbiters, by simp⟩

theorem trans {first second third : StateKeyFrame} (left : Extends first second)
    (right : Extends second third) : Extends first third := by
  obtain ⟨cells, outputs, arbiters, rfl⟩ := left
  obtain ⟨cells', outputs', arbiters', rfl⟩ := right
  exact ⟨cells ++ cells', outputs', arbiters', by simp⟩

variable {frame later : StateKeyFrame} {position : Nat}

section
variable (ext : Extends frame later)
include ext

theorem list (list : ProducerList) : later.list list = frame.list list := by
  obtain ⟨cells, outputs, arbiters, rfl⟩ := ext
  cases list <;> rfl

theorem nodeOwnerKeys : later.nodeOwnerKeys = frame.nodeOwnerKeys := by
  obtain ⟨cells, outputs, arbiters, rfl⟩ := ext
  rfl

theorem getProducerRef (publicKey : Bytes) : later.getProducerRef publicKey = frame.getProducerRef publicKey := by
  obtain ⟨cells, outputs, arbiters, rfl⟩ := ext
  rfl

theorem votes : later.votes = frame.votes := by
  obtain ⟨cells, outputs, arbiters, rfl⟩ := ext
  rfl

theorem length_le : frame.producers.length ≤ later.producers.length := by
  obtain ⟨cells, outputs, arbiters, rfl⟩ := ext
  simp

theorem producer? (old : position < frame.producers.length) : later.producer? position = frame.producer? position := by
  obtain ⟨cells, outputs, arbiters, rfl⟩ := ext
  exact getElem?_append_left old

theorem producer?_some {producer : Producer} (found : frame.producer? position = some producer) :
    later.producer? position = some producer := by
  have old : position < frame.producers.length := (List.getElem?_eq_some_iff.1 found).1
  rw [ext.producer? old, found]

end

theorem foldl {ι : Type} {write : StateKeyFrame → ι → StateKeyFrame}
    (each : ∀ frame item, Extends frame (write frame item)) (items : List ι)
    (frame : StateKeyFrame) : Extends frame (items.foldl write frame) := by
  induction items generalizing frame with
  | nil => exact refl frame
  | cons item items ih => exact (each frame item).trans (ih _)

end Extends

variable {ι : Type} {write : StateKeyFrame → ι → StateKeyFrame} {actions : StateKeyFrame → ι → List Action}

theorem mem_collect {action : Action}
    (each : ∀ frame item, Extends frame (write frame item)) {items : List ι}
    {frame : StateKeyFrame} (member : action ∈ collect write actions frame items) :
    ∃ item ∈ items, ∃ current, Extends frame current ∧ action ∈ actions current item ∧
      Extends (write current item) (items.foldl write frame) := by
  induction items generalizing frame with
  | nil => simp [collect] at member
  | cons head tail ih =>
    rw [collect, mem_append] at member
    rcases member with now | later
    · exact ⟨head, by simp, frame, Extends.refl frame, now, Extends.foldl each tail _⟩
    · obtain ⟨item, itemMember, current, ext, found, final⟩ := ih later
      exact ⟨item, mem_cons_of_mem _ itemMember, current, (each frame head).trans ext, found, final⟩

theorem collect_of_mem (each : ∀ frame item, Extends frame (write frame item)) {items : List ι}
    {frame : StateKeyFrame} {item : ι} (member : item ∈ items) : ∃ current, Extends frame current ∧
      ∀ action ∈ actions current item, action ∈ collect write actions frame items := by
  induction items generalizing frame with
  | nil => simp at member
  | cons head tail ih =>
    rcases mem_cons.1 member with rfl | member
    · exact ⟨frame, Extends.refl frame, fun action found =>
        mem_append_left _ found⟩
    · obtain ⟨current, ext, all⟩ := ih member
      exact ⟨current, (each frame head).trans ext, fun action found =>
        mem_append_right _ (all action found)⟩

namespace StateKeyFrame
variable {funcs : StateFuncs} {params : Params} {height : UInt32}

section
variable (frame : StateKeyFrame)
include frame

theorem registerWrites_extends (tx : Transaction) : Extends frame (frame.registerWrites funcs height tx) := by
  unfold registerWrites
  split
  · split
    · exact ⟨_, frame.depositOutputs, frame.preBlockArbiters, rfl⟩
    · exact Extends.refl frame
  · exact Extends.refl frame

theorem depositWrites_extends (entry : OutPoint × Output) : Extends frame (frame.depositWrites funcs entry) := by
  unfold depositWrites
  split
  · exact ⟨[], _, frame.preBlockArbiters, by simp; rfl⟩
  · exact Extends.refl frame

theorem typeWrites_extends (tx : Transaction) : Extends frame (frame.typeWrites funcs height tx) := by
  unfold typeWrites
  split
  · exact registerWrites_extends frame tx
  · exact Extends.foldl depositWrites_extends _ frame
  · exact Extends.foldl depositWrites_extends _ frame
  · exact Extends.refl frame

variable (txs : List Transaction)

theorem txsWrites_extends : Extends frame (frame.txsWrites funcs height txs) :=
  Extends.foldl typeWrites_extends txs frame

theorem repeatWrites_extends : Extends frame (frame.repeatWrites funcs params height txs) := by
  unfold repeatWrites
  split
  · exact txsWrites_extends frame txs
  · exact Extends.refl frame

theorem confirmWrites_extends (confirm : Option Confirm) :
    Extends frame (frame.confirmWrites funcs params height confirm) := by
  unfold confirmWrites
  split
  · exact Extends.refl frame
  · split
    · exact Extends.refl frame
    · exact ⟨[], frame.depositOutputs, _, by simp; rfl⟩

theorem blockWrites_extends (confirm : Option Confirm) :
    Extends frame (frame.blockWrites funcs params height txs confirm) :=
  ((txsWrites_extends frame txs).trans (repeatWrites_extends _ txs)).trans (confirmWrites_extends _ confirm)

end

section Asked

/-- What a transaction asks for by its type, read off the frame that it is processed on. -/
inductive Asked (funcs : StateFuncs) (frame : StateKeyFrame) (tx : Transaction) : Action → Prop
  | enter {info : ProducerInfo} {programHash : Uint168} (kind : tx.txType = .registerProducer)
      (payload : tx.payload = .producerInfo info)
      (found : publicKeyToDepositProgramHash funcs.prim info.ownerPublicKey = .ok programHash) :
      Asked funcs frame tx (.enter info frame.producers.length programHash (State.depositsOf funcs.prim tx programHash))
  | changeInfo {info : ProducerInfo} {producer : Producer} (kind : tx.txType = .updateProducer)
      (payload : tx.payload = .producerInfo info)
      (found : frame.getProducer info.ownerPublicKey = some producer) :
      Asked funcs frame tx (.changeInfo producer.info info)
  | cancel {payload : ProcessProducer} {position : Nat} {isPending : Bool}
      (kind : tx.txType = .cancelProducer) (canceled : tx.payload = .processProducer payload)
      (found : frame.getProducerRef payload.ownerPublicKey = some position) :
      Asked funcs frame tx (.cancel payload.ownerPublicKey position isPending)
  | request {payload : ActivateProducer} {position : Nat} (kind : tx.txType = .activateProducer)
      (activates : tx.payload = .activateProducer payload)
      (found : frame.getProducerRef payload.nodePublicKey = some position) :
      Asked funcs frame tx (.requestActivation position)
  | cast (kind : tx.txType = .transferAsset) (op : OutPoint) : Asked funcs frame tx (.recordVote op)
  | credit (kind : tx.txType = .transferAsset) (position : Nat) (amount : Fixed64) :
      Asked funcs frame tx (.addVotes position amount)
  | deposit (position : Nat) (amount : Fixed64) : Asked funcs frame tx (.addDeposit position amount)
  | returnDeposit {publicKey : Bytes} {position : Nat} (amount : Fixed64)
      (found : frame.getProducerRef publicKey = some position) : Asked funcs frame tx (.returnToOwner position amount)
  | punishActive {key : Bytes} {position : Nat}
      (found : (frame.list .activity).lookup key = some position) : Asked funcs frame tx (.punishActive key position)
  | punishCanceled {key : Bytes} {position : Nat}
      (found : (frame.list .canceled).lookup key = some position) : Asked funcs frame tx (.punishCanceled key position)
  | emergency {key : Bytes} {position : Nat} (list : ProducerList)
      (found : (frame.list list).lookup key = some position) : Asked funcs frame tx (.emergencyInactive key position)
  | special (hash : Uint256) : Asked funcs frame tx (.recordSpecialHash hash)
  | version (startHeight endHeight oldStart oldEnd : UInt32) :
      Asked funcs frame tx (.setVersion startHeight endHeight oldStart oldEnd)

variable {frame : StateKeyFrame} {tx : Transaction} {action : Action}

/-- A transaction asks for all of the actions. -/
abbrev Asks (funcs : StateFuncs) (frame : StateKeyFrame) (tx : Transaction) (actions : List Action) : Prop :=
  ∀ action ∈ actions, Asked funcs frame tx action

theorem specialActions_asked (payload : Payload) : Asks funcs frame tx (specialActions funcs payload) :=
  forall_mem_map.2 fun hash _ => .special hash

theorem punishActions_asked (publicKey : Bytes) : Asks funcs frame tx (frame.punishActions publicKey) := by
  unfold punishActions
  split
  · exact forall_mem_nil _
  split
  case h_1 active => exact forall_mem_singleton.2 (.punishActive active)
  split
  case h_1 canceled => exact forall_mem_singleton.2 (.punishCanceled canceled)
  · exact forall_mem_nil _

theorem emergencyActions_asked (nodeKey : Bytes) : Asks funcs frame tx (frame.emergencyActions nodeKey) := by
  unfold emergencyActions
  split
  · exact forall_mem_nil _
  · exact forall_mem_map.2 (forall_mem_append.2
      ⟨fun _ active => .emergency .activity (Option.mem_toList.1 active),
        fun _ inactive => .emergency .inactive (Option.mem_toList.1 inactive)⟩)

theorem mem_depositActions {entries : List (OutPoint × Output)}
    (member : action ∈ collect (depositWrites funcs) (depositActions funcs) frame entries) :
    ∃ position amount, action = .addDeposit position amount := by
  obtain ⟨entry, _, current, _, found, _⟩ := mem_collect depositWrites_extends member
  obtain ⟨position, _, rfl⟩ := mem_map.1 found
  exact ⟨position, _, rfl⟩

theorem depositActions_asked (entries : List (OutPoint × Output)) :
    Asks funcs frame tx (collect (depositWrites funcs) (depositActions funcs) frame entries) := by
  intro action member
  obtain ⟨position, amount, rfl⟩ := mem_depositActions member
  exact .deposit position amount

theorem voteActions_asked (kind : tx.txType = .transferAsset) : Asks funcs frame tx (frame.voteActions funcs tx) := by
  unfold voteActions
  split
  case isFalse => exact forall_mem_nil _
  refine forall_mem_flatMap.2 fun entry _ => ?_
  unfold castActions
  split
  · split
    · split
      · exact forall_mem_cons.2 ⟨.cast kind _, forall_mem_map.2 fun _ _ => .credit kind _ _⟩
      · exact forall_mem_nil _
    · exact forall_mem_nil _
  · exact forall_mem_nil _

theorem returnActions_asked (amount : Fixed64) (program : Program) :
    Asks funcs frame tx (frame.returnActions amount program) := by
  unfold returnActions
  split
  · refine forall_mem_flatMap.2 fun position reached => ?_
    split
    · exact forall_mem_singleton.2 (.returnDeposit amount (Option.mem_toList.1 reached))
    · exact forall_mem_nil _
  · exact forall_mem_nil _

theorem typeActions_asked : Asks funcs frame tx (frame.typeActions funcs tx) := by
  unfold typeActions
  cases kind : tx.txType with
  | registerProducer =>
    dsimp only [registerActions]
    split
    case h_1 payload =>
      split
      case h_1 found => exact forall_mem_singleton.2 (.enter kind payload found)
      · exact forall_mem_nil _
    · exact forall_mem_nil _
  | updateProducer =>
    dsimp only
    cases payload : tx.payload with
    | producerInfo info =>
      exact forall_mem_map.2 fun producer found => .changeInfo kind payload (Option.mem_toList.1 found)
    | _ => exact forall_mem_nil _
  | cancelProducer =>
    dsimp only
    cases payload : tx.payload with
    | processProducer process =>
      exact forall_mem_flatMap.2 fun position reached => forall_mem_map.2 fun producer _ =>
        .cancel kind payload (Option.mem_toList.1 reached)
    | _ => exact forall_mem_nil _
  | activateProducer =>
    dsimp only
    cases payload : tx.payload with
    | activateProducer => exact forall_mem_map.2 fun position found => .request kind payload (Option.mem_toList.1 found)
    | _ => exact forall_mem_nil _
  | transferAsset => exact forall_mem_append.2 ⟨voteActions_asked kind, depositActions_asked _⟩
  | illegalProposalEvidence | illegalVoteEvidence | illegalBlockEvidence | illegalSidechainEvidence =>
    exact forall_mem_append.2 ⟨forall_mem_flatMap.2 fun publicKey _ => punishActions_asked publicKey,
      specialActions_asked _⟩
  | inactiveArbitrators =>
    dsimp only
    cases tx.payload with
    | inactiveArbitrators =>
      exact forall_mem_append.2 ⟨forall_mem_flatMap.2 fun nodeKey _ => emergencyActions_asked nodeKey,
        specialActions_asked _⟩
    | _ => exact forall_mem_nil _
  | returnDepositCoin =>
    exact forall_mem_append.2 ⟨forall_mem_flatMap.2 fun program _ => returnActions_asked _ program,
      depositActions_asked _⟩
  | updateVersion =>
    dsimp only
    cases tx.payload with
    | updateVersion => exact forall_mem_singleton.2 (.version _ _ _ _)
    | _ => exact forall_mem_nil _
  | _ => exact forall_mem_nil _

theorem mem_cancelVoteActions (member : action ∈ frame.cancelVoteActions funcs tx) :
    ∃ position amount, action = .subtractVotes position amount := by
  unfold cancelVoteActions at member
  split at member
  · split at member
    · obtain ⟨input, _, uncast⟩ := mem_flatMap.1 member
      unfold uncastActions at uncast
      split at uncast
      · split at uncast
        · obtain ⟨vote, _, rfl⟩ := mem_map.1 uncast
          exact ⟨_, _, rfl⟩
        · simp at uncast
      · simp at uncast
    · simp at member
  · simp at member

theorem mem_activations (member : action ∈ frame.activations funcs params height) :
    ∃ source key position, source ≠ .activity ∧
      (frame.list source).lookup key = some position ∧ action = .activate source key position := by
  have due : ∀ {source : ProducerList} {due : Producer → Bool}, source ≠ .activity →
      action ∈ (funcs.runtime.iterate (GoMap.pairs (frame.list source))).flatMap
        (frame.dueActions source due) → ∃ source key position, source ≠ .activity ∧
        (frame.list source).lookup key = some position ∧ action = .activate source key position := by
    intro source due notActive found
    obtain ⟨entry, listed, isDue⟩ := mem_flatMap.1 found
    unfold dueActions at isDue
    split at isDue
    · exact ⟨source, entry.1, entry.2, notActive, GoMap.mem_pairs_iff.1
        ((funcs.runtime.iterate_perm _).mem_iff.1 listed), mem_singleton.1 isDue⟩
    · simp at isDue
  rcases mem_append.1 member with pending | member
  · exact due (by decide) pending
  rcases mem_append.1 member with inactive | illegal
  · exact due (by decide) inactive
  · split at illegal
    · exact due (by decide) illegal
    · simp at illegal

theorem mem_confirmActions {confirm : Option Confirm}
    (member : action ∈ frame.confirmActions funcs params height confirm) :
    ∃ key position needReset producer, (frame.list .activity).lookup key = some position ∧
      frame.producer? position = some producer ∧
      action = .countInactivity key position needReset producer.inactiveCountingHeight := by
  unfold confirmActions at member
  split at member
  · simp at member
  split at member
  · simp at member
  obtain ⟨entry, _, counted⟩ := mem_flatMap.1 member
  obtain ⟨position, active, inCell⟩ := mem_flatMap.1 counted
  obtain ⟨producer, cell, rfl⟩ := mem_map.1 inCell
  exact ⟨_, position, _, producer, Option.mem_toList.1 active, Option.mem_toList.1 cell, rfl⟩

theorem mem_initActions (member : action ∈ frame.initActions funcs params height) :
    height = params.crVotingStartHeight ∧ ∃ position amount, action = .setDeposit position amount := by
  unfold initActions at member
  split at member
  · rename_i starts
    obtain ⟨position, _, asset⟩ := mem_flatMap.1 member
    unfold assetActions at asset
    split at asset
    · simp at asset
    dsimp only at asset
    split at asset
    · exact ⟨starts, position, _, mem_singleton.1 asset⟩
    · simp at asset
  · simp at member

/-- Where an action comes from that a block asks for before its confirm is counted. -/
inductive Origin (funcs : StateFuncs) (height : UInt32) (base final : StateKeyFrame)
    (txs : List Transaction) : Action → Prop
  | init (position : Nat) (amount : Fixed64) : Origin funcs height base final txs (.setDeposit position amount)
  | typed {frame : StateKeyFrame} {tx : Transaction} {action : Action} (included : tx ∈ txs)
      (before : Extends base frame) (after : Extends (frame.typeWrites funcs height tx) final)
      (member : action ∈ frame.typeActions funcs tx) : Origin funcs height base final txs action
  | uncast (position : Nat) (amount : Fixed64) : Origin funcs height base final txs (.subtractVotes position amount)
  | due {source : ProducerList} {key : Bytes} {position : Nat} (notActive : source ≠ .activity)
      (found : (base.list source).lookup key = some position) :
      Origin funcs height base final txs (.activate source key position)

variable {base final : StateKeyFrame} {txs : List Transaction}

theorem txsActions_origin (before : Extends base frame) (after : Extends (frame.txsWrites funcs height txs) final)
    (member : action ∈ frame.txsActions funcs params height txs) : Origin funcs height base final txs action := by
  rcases mem_append.1 member with inTx | activated
  · obtain ⟨tx, included, current, ext, found, rest⟩ := mem_collect typeWrites_extends inTx
    rcases mem_append.1 found with typed | uncast
    · exact .typed included (before.trans ext) (rest.trans after) typed
    · obtain ⟨position, amount, rfl⟩ := mem_cancelVoteActions uncast
      exact .uncast position amount
  · obtain ⟨source, key, position, notActive, found, rfl⟩ := mem_activations activated
    rw [(before.trans (txsWrites_extends frame txs)).list] at found
    exact .due notActive found

theorem unconfirmed_origin (confirm : Option Confirm)
    (member : action ∈ base.initActions funcs params height ++ base.txsActions funcs params height txs ++
      (base.txsWrites funcs height txs).repeatActions funcs params height txs) :
    Origin funcs height base (base.blockWrites funcs params height txs confirm) txs action := by
  have second : Extends (base.txsWrites funcs height txs)
      ((base.txsWrites funcs height txs).repeatWrites funcs params height txs) :=
    repeatWrites_extends _ txs
  have third : Extends ((base.txsWrites funcs height txs).repeatWrites funcs params height txs)
      (base.blockWrites funcs params height txs confirm) := confirmWrites_extends _ confirm
  simp only [mem_append] at member
  rcases member with (initial | processed) | repeated
  · obtain ⟨_, position, amount, rfl⟩ := mem_initActions initial
    exact .init position amount
  · exact txsActions_origin (.refl base) (second.trans third) processed
  unfold repeatActions at repeated
  unfold repeatWrites at third
  split at repeated
  · rename_i statistics
    rw [if_pos statistics] at third
    exact txsActions_origin (txsWrites_extends base txs) third repeated
  · simp at repeated

end Asked

theorem blockActions_of_tx {base : StateKeyFrame} {txs : List Transaction}
    {confirm : Option Confirm} {tx : Transaction} (included : tx ∈ txs) :
    ∃ frame, Extends base frame ∧ ∀ action ∈ frame.txActions funcs height tx,
      action ∈ base.blockActions funcs params height txs confirm := by
  have collected : ∃ current, Extends base current ∧ ∀ action ∈ current.txActions funcs height tx,
        action ∈ collect (typeWrites funcs height) (txActions funcs height) base txs :=
    collect_of_mem typeWrites_extends included
  obtain ⟨frame, ext, all⟩ := collected
  refine ⟨frame, ext, fun action member => ?_⟩
  simp only [blockActions, txsActions, mem_append]
  exact .inl (.inl (.inr (.inl (all action member))))

end StateKeyFrame
end Elastos.Dpos
