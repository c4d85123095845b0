import Elastos.Dpos.Housing
import Elastos.Utils.Unspent

/-! What a block does to the votes of the producers, which follow the ballots that name their owner keys. -/
set_option autoImplicit false
namespace Elastos.Dpos
open Common Config Crypto Elastos.Types Utils StateKeyFrame Dpos.Action List Go Elastos.Core State
namespace Action

def voteChange (place : Nat) : Action → Int
  | .addVotes position amount => if position = place then amount.toInt else 0
  | .subtractVotes position amount => if position = place then -amount.toInt else 0
  | _ => 0

end Action

namespace StateKeyFrame

def votesAt (frame : StateKeyFrame) (place : Nat) : Option Fixed64 :=
  (frame.producer? place).map (·.votes)

section Execution
variable {params : Params} {height : UInt32} {frame after : StateKeyFrame} {position : Nat}
  {update : Producer → Producer}

theorem votesAt_modify (change : Nat → Int) (wrote : after.producers = frame.producers.modify position update)
    (here : ∀ producer, (update producer).votes = producer.votes + Int64.ofInt (change position))
    (away : ∀ place, place ≠ position → change place = 0) (place : Nat) :
    after.votesAt place = (frame.votesAt place).map (· + Int64.ofInt (change place)) := by
  have same : after.producer? place = (frame.updateProducer position update).producer? place :=
    congrArg (fun cells : List Producer => cells[place]?) wrote
  rw [votesAt, same, producer?_updateProducer, votesAt, Option.map_map]
  split
  · rename_i there
    simp only [Option.map_map, Function.comp_def, here, there]
  · rename_i other
    simp [away place other, Function.comp_def]

theorem votesAt_keep (wrote : after.producers = frame.producers.modify position update)
    (keeps : ∀ producer, (update producer).votes = producer.votes) : after.votesAt = frame.votesAt := by
  funext place
  rw [votesAt_modify (fun _ => 0) wrote (fun producer => by simp [keeps]) (fun _ _ => rfl)]
  simp

theorem updateProducerInfo_votesAt (origin info : ProducerInfo) :
    (State.updateProducerInfo origin info frame).votesAt = frame.votesAt := by
  unfold State.updateProducerInfo
  cases frame.getProducerRef origin.ownerPublicKey with
  | none => split <;> split <;> rfl
  | some position => split <;> split <;> exact votesAt_keep rfl fun _ => rfl

theorem votesAt_execute (action : Action) (place : Nat) : ((action.change params height).execute frame).votesAt place =
      (frame.votesAt place).map (· + Int64.ofInt (action.voteChange place)) := by
  have still : ∀ {after : StateKeyFrame}, after.votesAt = frame.votesAt →
      after.votesAt place = (frame.votesAt place).map (· + Int64.ofInt 0) := by
    intro after same
    simp [same]
  cases action with
  | enter | recordVote | recordSpecialHash | setVersion => exact still rfl
  | changeInfo origin info => exact still (updateProducerInfo_votesAt origin info)
  | activate source => cases source <;> exact still (votesAt_keep rfl fun _ => rfl)
  | countInactivity =>
    exact still (tryUpdateInactivity_elim (motive := fun after => after.votesAt = _) rfl
      (fun _ same => .trans (votesAt_keep rfl fun _ => rfl) same)
      fun same => .trans (votesAt_keep rfl fun _ => rfl) same)
  | addVotes position amount =>
    refine votesAt_modify (fun place => (Action.addVotes position amount).voteChange place) rfl
      (fun producer => ?_) (fun place other => if_neg (Ne.symm other)) place
    simp [Action.voteChange]
  | subtractVotes position amount =>
    refine votesAt_modify (fun place => (Action.subtractVotes position amount).voteChange place) rfl
      (fun producer => ?_) (fun place other => if_neg (Ne.symm other)) place
    simp [Action.voteChange, Int64.sub_eq_add_neg]
  | _ => exact still (votesAt_keep rfl fun _ => rfl)

end Execution
end StateKeyFrame

def total (change : Action → Int) (actions : List Action) : Int :=
  (actions.map change).sum

section Totals
variable {change : Action → Int} {actions : List Action} {ι : Type}

@[simp] theorem total_nil : total change [] = 0 := rfl

@[simp] theorem total_cons (action : Action) (rest : List Action) :
    total change (action :: rest) = change action + total change rest :=
  sum_cons

@[simp] theorem total_append (left right : List Action) :
    total change (left ++ right) = total change left + total change right := by
  simp [total]

theorem total_eq_zero (still : ∀ action ∈ actions, change action = 0) : total change actions = 0 := by
  refine sum_eq_zero fun amount member => ?_
  obtain ⟨action, actionMember, rfl⟩ := mem_map.1 member
  exact still action actionMember

theorem total_flatMap (items : List ι) (each : ι → List Action) :
    total change (items.flatMap each) = (items.map fun item => total change (each item)).sum := by
  induction items with
  | nil => rfl
  | cons item rest ih => rw [flatMap_cons, total_append, ih, map_cons, sum_cons]

/-- A loop whose rounds add up to the same on all frames with the maps of the state before
the block. -/
theorem total_collect {write : StateKeyFrame → ι → StateKeyFrame}
    {each : StateKeyFrame → ι → List Action} {base frame : StateKeyFrame} {value : ι → Int}
    (writes : ∀ frame item, Extends frame (write frame item)) (ext : Extends base frame)
    {items : List ι} (rounds : ∀ item ∈ items, ∀ current, Extends base current →
      total change (each current item) = value item) :
    total change (collect write each frame items) = (items.map value).sum := by
  induction items generalizing frame with
  | nil => rfl
  | cons item rest ih =>
    rw [collect, total_append, map_cons, sum_cons, rounds item (by simp) frame ext,
      ih (ext.trans (writes frame item)) fun other member =>
        rounds other (mem_cons_of_mem _ member)]

end Totals

namespace StateKeyFrame

theorem votesAt_executeAll {params : Params} {height : UInt32} (frame : StateKeyFrame)
    (place : Nat) (actions : List Action) :
    (executeAll (actions.map (Action.change params height)) frame).votesAt place = (frame.votesAt place).map
        (· + Int64.ofInt (total (Action.voteChange place) actions)) := by
  induction actions generalizing frame with
  | nil => simp [votesAt, Function.comp_def]
  | cons action rest ih =>
    rw [map_cons, executeAll_cons, ih, votesAt_execute, total_cons, Int64.ofInt_add]
    simp only [Option.map_map, Function.comp_def, Int64.add_assoc]

variable {funcs : StateFuncs} {params : Params} {height : UInt32} {base frame : StateKeyFrame}
  {tx : Transaction} {action : Action}

section Ballots

def isBallot (output : Output) : Bool :=
  match output.payload with
  | .vote vote => output.outputType = .vote ∧ State.countsVotes vote
  | _ => false

variable (prim : Primitives)

/-- Outputs have types since version 9 of the transactions. -/
def ballots (tx : Transaction) : List (OutPoint × Output) :=
  if txVersion09 ≤ tx.version then
    (Cr.outputPoints prim tx).filter fun entry => isBallot entry.2
  else []

def delegated (frame : StateKeyFrame) (place : Nat) (output : Output) : Int :=
  ((frame.delegations output).map fun vote => if vote.1 = place then vote.2.toInt else 0).sum

theorem castActions_eq (entry : OutPoint × Output) : frame.castActions entry = if isBallot entry.2 then
      .recordVote entry.1 :: (frame.delegations entry.2).map fun vote => .addVotes vote.1 vote.2
    else [] := by
  unfold castActions isBallot
  by_cases isVote : entry.2.outputType = .vote <;>
    cases payload : entry.2.payload <;> simp [isVote]

theorem delegations_extends (ext : Extends base frame) (output : Output) :
    frame.delegations output = base.delegations output := by
  unfold delegations
  simp only [ext.getProducerRef]

variable (place : Nat) (votes : List (Nat × Fixed64)) {txs : List Transaction}

theorem total_addVotes : total (Action.voteChange place) (votes.map fun vote => .addVotes vote.1 vote.2) =
      (votes.map fun vote => if vote.1 = place then vote.2.toInt else 0).sum := by
  simp only [total, map_map]
  rfl

theorem total_subtractVotes : total (Action.voteChange place) (votes.map fun vote => .subtractVotes vote.1 vote.2) =
      -(votes.map fun vote => if vote.1 = place then vote.2.toInt else 0).sum := by
  induction votes with
  | nil => rfl
  | cons vote rest ih =>
    rw [map_cons, total_cons, ih, map_cons, sum_cons, Action.voteChange]
    split <;> omega

theorem total_castActions (ext : Extends base frame) (place : Nat) (entry : OutPoint × Output) :
    total (Action.voteChange place) (frame.castActions entry) =
      if isBallot entry.2 then base.delegated place entry.2 else 0 := by
  rw [castActions_eq]
  split
  · rw [total_cons, total_addVotes, delegations_extends ext]
    exact Int.zero_add _
  · rfl

theorem total_voteActions (ext : Extends base frame) (place : Nat) (tx : Transaction) :
    total (Action.voteChange place) (frame.voteActions funcs tx) =
      weigh (base.delegated place) (ballots funcs.prim tx) := by
  unfold voteActions ballots
  split
  · rw [total_flatMap, weigh_filter]
    simp only [total_castActions ext]
  · rfl

/-- The out points in the state are those of the ballots that have been cast. -/
structure Recorded (frame : StateKeyFrame) (cast : List (OutPoint × Output)) : Prop where
  recorded : ∀ op, (frame.votes.lookup op).isSome ↔ op ∈ cast.map Prod.fst
  unique : (cast.map Prod.fst).Nodup

/-- The ballots that a transaction spends can be found. -/
def Referred (funcs : StateFuncs) (cast : List (OutPoint × Output)) (tx : Transaction) : Prop :=
  ∀ input ∈ tx.inputs, input.previous ∈ cast.map Prod.fst → ∃ references output,
    funcs.getTxReference tx = .ok references ∧ references.find? (fun entry => entry.1 = input) = some (input, output) ∧
      (input.previous, output) ∈ cast

def uncast (weight : Output → Int) (cast : List (OutPoint × Output)) (tx : Transaction) : Int :=
  (tx.inputs.map fun input =>
    weigh weight (cast.filter fun entry => entry.1 = input.previous)).sum

variable {cast : List (OutPoint × Output)}

theorem total_uncastActions (ext : Extends base frame) (recorded : base.Recorded cast)
    {references : List (Input × Output)} (found : funcs.getTxReference tx = .ok references)
    (referred : Referred funcs cast tx) (place : Nat) {input : Input} (member : input ∈ tx.inputs) :
    total (Action.voteChange place) (frame.uncastActions references input) =
      -weigh (base.delegated place) (cast.filter fun entry => entry.1 = input.previous) := by
  unfold uncastActions
  rw [ext.votes]
  split
  · rename_i voted
    obtain ⟨other, output, sameReferences, spends, isCast⟩ := referred input member ((recorded.recorded _).1 voted)
    rw [found, Except.ok.injEq] at sameReferences
    subst sameReferences
    rw [spends]
    simp only
    rw [total_subtractVotes, delegations_extends ext, weigh_filter_eq recorded.unique isCast]
    rfl
  · rename_i notVoted
    have absent : input.previous ∉ cast.map Prod.fst := fun isCast => notVoted ((recorded.recorded _).2 isCast)
    rw [weigh_filter_absent absent]
    rfl

theorem total_cancelVoteActions (ext : Extends base frame) (recorded : base.Recorded cast)
    (referred : Referred funcs cast tx) (place : Nat) :
    total (Action.voteChange place) (frame.cancelVoteActions funcs tx) = -uncast (base.delegated place) cast tx := by
  unfold cancelVoteActions
  split
  · rename_i some
    obtain ⟨input, member, voted⟩ := any_eq_true.1 some
    rw [ext.votes] at voted
    obtain ⟨references, _, found, _⟩ := referred input member ((recorded.recorded _).1 voted)
    rw [found]
    simp only
    rw [total_flatMap, uncast, map_congr_left fun input member =>
      total_uncastActions ext recorded found referred place member]
    rw [sum_neg, map_map]
    rfl
  · rename_i none
    rw [uncast, sum_eq_zero, total_nil]
    · rfl
    · intro amount amountMember
      obtain ⟨input, member, rfl⟩ := mem_map.1 amountMember
      refine weigh_filter_absent fun isCast => none (any_eq_true.2 ⟨input, member, ?_⟩)
      rw [ext.votes]
      exact (recorded.recorded _).2 isCast

/-- The ballots that are entered are those of ordinary transfers. -/
def castBy (txs : List Transaction) : List (OutPoint × Output) :=
  txs.flatMap fun tx => if tx.txType = .transferAsset then ballots prim tx else []

theorem castBy_cons (tx : Transaction) (txs : List Transaction) :
    castBy prim (tx :: txs) = castBy prim [tx] ++ castBy prim txs := by
  simp [castBy]

theorem total_typeActions (ext : Extends base frame) (place : Nat) (tx : Transaction) :
    total (Action.voteChange place) (frame.typeActions funcs tx) =
      weigh (base.delegated place) (castBy funcs.prim [tx]) := by
  rw [castBy, flatMap_singleton]
  by_cases isAsset : tx.txType = .transferAsset
  · have deposits : total (Action.voteChange place) (collect (depositWrites funcs)
        (depositActions funcs) frame (Cr.outputPoints funcs.prim tx)) = 0 := by
      refine total_eq_zero fun action member => ?_
      obtain ⟨position, amount, rfl⟩ := mem_depositActions member
      rfl
    simp only [typeActions, isAsset, if_true]
    rw [total_append, total_voteActions ext, deposits, Int.add_zero]
  · rw [if_neg isAsset, weigh_nil]
    refine total_eq_zero fun action member => ?_
    cases typeActions_asked _ member with
    | credit kind => exact absurd kind isAsset
    | _ => rfl

theorem total_txsActions (ext : Extends base frame) (recorded : base.Recorded cast)
    (referred : ∀ tx ∈ txs, Referred funcs cast tx) (place : Nat) :
    total (Action.voteChange place) (frame.txsActions funcs params height txs) =
      weigh (base.delegated place) (castBy funcs.prim txs) - (txs.map (uncast (base.delegated place) cast)).sum := by
  have rounds : ∀ tx ∈ txs, ∀ current, Extends base current →
      total (Action.voteChange place) (current.txActions funcs height tx) =
        weigh (base.delegated place) (castBy funcs.prim [tx]) - uncast (base.delegated place) cast tx := by
    intro tx member current extCurrent
    rw [txActions, total_append, total_typeActions extCurrent,
      total_cancelVoteActions (extCurrent.trans (typeWrites_extends current tx)) recorded (referred tx member)]
    exact Int.sub_eq_add_neg.symm
  have activated : total (Action.voteChange place)
      ((frame.txsWrites funcs height txs).activations funcs params height) = 0 := by
    refine total_eq_zero fun action member => ?_
    obtain ⟨_, _, _, _, _, rfl⟩ := mem_activations member
    rfl
  rw [txsActions, total_append, activated, Int.add_zero, total_collect typeWrites_extends ext rounds]
  clear rounds activated referred
  induction txs with
  | nil => rfl
  | cons tx rest ih =>
    rw [castBy_cons, weigh_append]
    simp only [map_cons, sum_cons, ih]
    omega

/-- The block at `VoteStatisticsHeight` is processed twice, so it should not be about votes. -/
def VotesOnce (params : Params) (height : UInt32) (prim : Primitives)
    (cast : List (OutPoint × Output)) (txs : List Transaction) : Prop :=
  height = params.voteStatisticsHeight →
    castBy prim txs = [] ∧ ∀ tx ∈ txs, ∀ input ∈ tx.inputs, input.previous ∉ cast.map Prod.fst

theorem total_blockActions (recorded : base.Recorded cast) (referred : ∀ tx ∈ txs, Referred funcs cast tx)
    (once : VotesOnce params height funcs.prim cast txs) (confirm : Option Confirm) (place : Nat) :
    total (Action.voteChange place) (base.blockActions funcs params height txs confirm) =
      weigh (base.delegated place) (castBy funcs.prim txs) - (txs.map (uncast (base.delegated place) cast)).sum := by
  have init : total (Action.voteChange place) (base.initActions funcs params height) = 0 := by
    refine total_eq_zero fun action member => ?_
    obtain ⟨_, position, amount, rfl⟩ := mem_initActions member
    rfl
  have confirmed : ∀ frame : StateKeyFrame, total (Action.voteChange place)
      (frame.confirmActions funcs params height confirm) = 0 := by
    refine fun frame => total_eq_zero fun action member => ?_
    obtain ⟨_, _, _, _, _, _, rfl⟩ := mem_confirmActions member
    rfl
  have repeated : total (Action.voteChange place)
      ((base.txsWrites funcs height txs).repeatActions funcs params height txs) = 0 := by
    unfold repeatActions
    split
    · rename_i statistics
      obtain ⟨noBallot, unspent⟩ := once statistics
      rw [total_txsActions (txsWrites_extends base txs) recorded referred, noBallot, weigh_nil, sum_eq_zero]
      · rfl
      · intro amount amountMember
        obtain ⟨tx, member, rfl⟩ := mem_map.1 amountMember
        refine sum_eq_zero fun amount inputMember => ?_
        obtain ⟨input, spends, rfl⟩ := mem_map.1 inputMember
        exact weigh_filter_absent (unspent tx member input spends)
    · rfl
  rw [blockActions]
  simp only [total_append, init, repeated, confirmed, Int.zero_add, Int.add_zero]
  exact total_txsActions (Extends.refl base) recorded referred place

end Ballots
end StateKeyFrame

def inputsOf (txs : List Transaction) : List OutPoint :=
  txs.flatMap fun tx => tx.inputs.map Input.previous

def delegateVotes (output : Output) : List (Bytes × Fixed64) :=
  match output.payload with
  | .vote vote =>
    vote.contents.flatMap fun content =>
      if content.voteType = .delegate then
        content.candidateVotes.map fun votes =>
          (votes.candidate, State.delegateAmount output vote votes)
      else []
  | _ => []

def credited (key : Bytes) (output : Output) : Int :=
  ((delegateVotes output).map fun vote => if vote.1 = key then vote.2.toInt else 0).sum

theorem credited_eq_zero {key : Bytes} {output : Output}
    (absent : ∀ vote ∈ delegateVotes output, vote.1 ≠ key) : credited key output = 0 := by
  refine sum_eq_zero fun amount member => ?_
  obtain ⟨vote, voteMember, rfl⟩ := mem_map.1 member
  exact if_neg (absent vote voteMember)

theorem credited_nonneg {key : Bytes} {output : Output}
    (nonneg : ∀ vote ∈ delegateVotes output, 0 ≤ vote.2.toInt) : 0 ≤ credited key output := by
  refine sum_nonneg fun amount member => ?_
  obtain ⟨vote, voteMember, rfl⟩ := mem_map.1 member
  split
  · exact nonneg vote voteMember
  · exact Int.le_refl 0

namespace StateKeyFrame
variable {funcs : StateFuncs} {params : Params} {height : UInt32} {base frame : StateKeyFrame}
  {output : Output} {key : Bytes} {place : Nat}

theorem delegations_eq (frame : StateKeyFrame) (output : Output) :
    frame.delegations output = (delegateVotes output).flatMap fun vote =>
      (frame.getProducerRef vote.1).toList.map fun position => (position, vote.2) := by
  unfold delegations delegateVotes
  cases output.payload with
  | vote vote =>
    simp only [flatMap_assoc]
    refine flatMap_congr fun content _ => ?_
    by_cases isDelegate : content.voteType = .delegate
    · simp [isDelegate, flatMap_map]
    · simp [isDelegate]
  | _ => rfl

theorem Settled.getProducerRef (settled : base.Settled) (located : Located base key place) :
    base.getProducerRef key = some place := by
  have own := getProducerKey_of_own fun owner named => settled.own key owner place named located
  rw [StateKeyFrame.getProducerRef, own, settled.homed.getProducerByOwnerPublicKey located]

def Knows (frame : StateKeyFrame) (output : Output) : Prop :=
  ∀ vote ∈ delegateVotes output, ∃ position, Located frame vote.1 position

theorem delegated_eq_credited (settled : base.Settled) (located : Located base key place)
    (knows : base.Knows output) : base.delegated place output = credited key output := by
  unfold delegated credited
  rw [delegations_eq]
  have each : ∀ vote ∈ delegateVotes output,
      (base.getProducerRef vote.1).toList.map (fun position => (position, vote.2)) =
        [((base.getProducerRef vote.1).getD 0, vote.2)] ∧
      ((base.getProducerRef vote.1).getD 0 = place ↔ vote.1 = key) := by
    intro vote member
    obtain ⟨position, found⟩ := knows vote member
    rw [settled.getProducerRef found]
    refine ⟨rfl, fun same => ?_, fun same => ?_⟩
    · cases same
      exact settled.homed.key_eq found located
    · rw [same] at found
      exact settled.homed.unique key position place found located
  rw [flatMap_congr fun vote member => (each vote member).1, ← map_eq_flatMap, map_map]
  refine congrArg List.sum (map_congr_left fun vote member => ?_)
  simp only [Function.comp_apply, (each vote member).2]

theorem delegated_eq_zero (homed : base.Homed) (isNew : base.producers.length ≤ place) :
    base.delegated place output = 0 := by
  unfold delegated
  rw [delegations_eq]
  refine sum_eq_zero fun amount member => ?_
  obtain ⟨⟨position, votes⟩, given, rfl⟩ := mem_map.1 member
  obtain ⟨vote, _, found⟩ := mem_flatMap.1 given
  obtain ⟨position, reached, same⟩ := mem_map.1 found
  cases same
  obtain ⟨located, _⟩ := homed.getProducerRef (Option.mem_toList.1 reached)
  have old := homed.position_lt located
  exact if_neg (by simp only; omega)

section Recording
variable {op : OutPoint} {action : Action} {txs : List Transaction} {confirm : Option Confirm}

theorem votes_execute (action : Action) : ((action.change params height).execute frame).votes =
      match action with
      | .recordVote op => frame.votes.insert op ()
      | _ => frame.votes := by
  cases action with
  | changeInfo origin update =>
    change (updateProducerInfo origin update frame).votes = _
    unfold updateProducerInfo
    split <;> split <;> split <;> rfl
  | activate source => cases source <;> rfl
  | countInactivity => exact tryUpdateInactivity_elim (motive := fun after => after.votes = _) rfl (fun _ => id) id
  | _ => rfl

theorem voted_executeAll (actions : List Action) (frame : StateKeyFrame) :
    ((executeAll (actions.map (Action.change params height)) frame).votes.lookup op).isSome ↔
      (frame.votes.lookup op).isSome ∨ .recordVote op ∈ actions := by
  induction actions generalizing frame with
  | nil => simp
  | cons action rest ih =>
    rw [map_cons, executeAll_cons, ih, votes_execute, mem_cons]
    cases action with
    | recordVote other =>
      rw [GoMap.lookup_insert_eq]
      by_cases same : op = other
      · simp [same]
      · simp [same]
    | _ => simp

theorem recordVote_mem_castActions {entry : OutPoint × Output} :
    .recordVote op ∈ frame.castActions entry ↔ isBallot entry.2 = true ∧ op = entry.1 := by
  rw [castActions_eq]
  split
  · rename_i ballot
    simp [ballot]
  · rename_i ballot
    simp [ballot]

theorem recordVote_mem_typeActions {tx : Transaction} :
    .recordVote op ∈ frame.typeActions funcs tx ↔ op ∈ (castBy funcs.prim [tx]).map Prod.fst := by
  rw [castBy, flatMap_singleton]
  by_cases isAsset : tx.txType = .transferAsset
  · have deposited : .recordVote op ∉ collect (depositWrites funcs) (depositActions funcs) frame
        (Cr.outputPoints funcs.prim tx) := by
      intro member
      obtain ⟨_, _, same⟩ := mem_depositActions member
      cases same
    simp only [typeActions, isAsset, mem_append, deposited, or_false, if_true]
    unfold voteActions ballots
    split
    · simp only [mem_flatMap, recordVote_mem_castActions, mem_map, mem_filter]
      constructor
      · rintro ⟨entry, member, ballot, rfl⟩
        exact ⟨entry, ⟨member, ballot⟩, rfl⟩
      · rintro ⟨entry, ⟨member, ballot⟩, rfl⟩
        exact ⟨entry, member, ballot, rfl⟩
    · simp
  · rw [if_neg isAsset]
    simp only [map_nil, not_mem_nil, iff_false]
    intro member
    cases typeActions_asked _ member with
    | cast kind => exact isAsset kind

theorem recordVote_mem_blockActions : .recordVote op ∈ base.blockActions funcs params height txs confirm ↔
      op ∈ (castBy funcs.prim txs).map Prod.fst := by
  constructor
  · intro member
    rcases mem_append.1 member with unconfirmed | confirmed
    · cases unconfirmed_origin confirm unconfirmed with
      | typed included _ _ typed =>
        obtain ⟨entry, cast, rfl⟩ := mem_map.1 (recordVote_mem_typeActions.1 typed)
        refine mem_map_of_mem (mem_flatMap.2 ⟨_, included, ?_⟩)
        simpa [castBy] using cast
    · obtain ⟨_, _, _, _, _, _, same⟩ := mem_confirmActions confirmed
      cases same
  · intro isCast
    obtain ⟨entry, member, rfl⟩ := mem_map.1 isCast
    obtain ⟨tx, included, cast⟩ := mem_flatMap.1 member
    have asked : ∃ frame, Extends base frame ∧ ∀ action ∈ frame.txActions funcs height tx,
          action ∈ base.blockActions funcs params height txs confirm :=
      blockActions_of_tx included
    obtain ⟨current, _, all⟩ := asked
    refine all _ (mem_append_left _ (recordVote_mem_typeActions.2 ?_))
    refine mem_map_of_mem ?_
    simpa [castBy] using cast

end Recording

section NewCells
variable (funcs : StateFuncs) (height : UInt32) (txs : List Transaction)

def NewCell (producer : Producer) : Prop :=
  ∃ tx ∈ txs, ∃ info programHash, tx.txType = .registerProducer ∧ tx.payload = .producerInfo info ∧
    publicKeyToDepositProgramHash funcs.prim info.ownerPublicKey = .ok programHash ∧
    producer = State.newProducer info height
      (wrappedSum ((State.depositsOf funcs.prim tx programHash).map Prod.snd)) programHash

/-- The cells that were added are those of registrations. -/
def NewCells (base frame : StateKeyFrame) : Prop :=
  ∃ cells, frame.producers = base.producers ++ cells ∧ ∀ cell ∈ cells, NewCell funcs height txs cell

variable {funcs height txs}

theorem NewCells.keep {later : StateKeyFrame} (cells : NewCells funcs height txs base frame)
    (same : later.producers = frame.producers) : NewCells funcs height txs base later := by
  obtain ⟨added, shape, new⟩ := cells
  exact ⟨added, same.trans shape, new⟩

theorem depositWrites_producers (frame : StateKeyFrame) (entries : List (OutPoint × Output)) :
    (entries.foldl (depositWrites funcs) frame).producers = frame.producers := by
  induction entries generalizing frame with
  | nil => rfl
  | cons entry rest ih =>
    rw [foldl_cons, ih]
    unfold depositWrites
    split <;> rfl

theorem NewCells.typeWrites {tx : Transaction} (cells : NewCells funcs height txs base frame)
    (included : tx ∈ txs) : NewCells funcs height txs base (frame.typeWrites funcs height tx) := by
  cases kind : tx.txType with
  | registerProducer =>
    simp only [StateKeyFrame.typeWrites, kind, registerWrites]
    split
    · rename_i info payload
      split
      · rename_i programHash found
        obtain ⟨added, shape, new⟩ := cells
        refine ⟨added ++ [_], by rw [shape, append_assoc], fun cell member => ?_⟩
        rcases mem_append.1 member with earlier | now
        · exact new cell earlier
        · exact ⟨tx, included, info, programHash, kind, payload, found, mem_singleton.1 now⟩
      · exact cells
    · exact cells
  | transferAsset | returnDepositCoin =>
    simp only [StateKeyFrame.typeWrites, kind]
    exact cells.keep (depositWrites_producers frame _)
  | _ =>
    simp only [StateKeyFrame.typeWrites, kind]
    exact cells

theorem NewCells.txsWrites {some : List Transaction} (cells : NewCells funcs height txs base frame)
    (included : ∀ tx ∈ some, tx ∈ txs) : NewCells funcs height txs base (frame.txsWrites funcs height some) := by
  unfold StateKeyFrame.txsWrites
  induction some generalizing frame with
  | nil => exact cells
  | cons tx rest ih =>
    exact ih (cells.typeWrites (included tx (by simp))) fun other member => included other (mem_cons_of_mem _ member)

variable (base : StateKeyFrame) (confirm : Option Confirm)

theorem blockWrites_newCells :
    NewCells funcs height txs base (base.blockWrites funcs params height txs confirm) := by
  have start : NewCells funcs height txs base base := ⟨[], by simp, by simp⟩
  have first := start.txsWrites fun tx member => member
  have second : NewCells funcs height txs base
      ((base.txsWrites funcs height txs).repeatWrites funcs params height txs) := by
    unfold repeatWrites
    split
    · exact first.txsWrites fun tx member => member
    · exact first
  refine second.keep ?_
  unfold blockWrites confirmWrites
  split
  · rfl
  · split <;> rfl

theorem votesAt_isSome {actions : List Action}
    (homed : (executeAll (actions.map (Action.change params height)) frame).Homed)
    (located : Located (executeAll (actions.map (Action.change params height)) frame) key place) :
    (frame.votesAt place).isSome = true := by
  obtain ⟨producer, cell, _⟩ := homed.cell key place located
  have votes : (executeAll (actions.map (Action.change params height)) frame).votesAt place =
      (frame.votesAt place).map _ := votesAt_executeAll frame place actions
  rw [votesAt, cell, Option.map_some] at votes
  rw [← Option.isSome_map, ← votes]
  rfl

theorem blockWrites_votesAt (isNew : base.producers.length ≤ place)
    (present : ((base.blockWrites funcs params height txs confirm).votesAt place).isSome = true) :
    (base.blockWrites funcs params height txs confirm).votesAt place = some 0 := by
  obtain ⟨added, shape, new⟩ : NewCells funcs height txs base
    (base.blockWrites funcs params height txs confirm) := blockWrites_newCells base confirm
  rw [votesAt, producer?, shape, getElem?_append_right isNew] at present ⊢
  cases cell : added[place - base.producers.length]? with
  | none => rw [cell] at present; cases present
  | some producer =>
    obtain ⟨_, _, _, _, _, _, _, rfl⟩ := new producer (mem_of_getElem? cell)
    rfl

end NewCells

section Block

theorem sum_uncast (weight : Output → Int) (cast : List (OutPoint × Output))
    {txs : List Transaction} (once : (inputsOf txs).Nodup) : (txs.map (uncast weight cast)).sum =
      weigh weight (cast.filter fun entry => entry.1 ∈ inputsOf txs) := by
  rw [weigh_filter_mem once]
  clear once
  induction txs with
  | nil => rfl
  | cons tx rest ih =>
    rw [map_cons, sum_cons, ih, uncast, inputsOf, inputsOf, flatMap_cons, map_append, sum_append, map_map]
    rfl

/-- The votes of every producer are those of the unspent ballots that name its key. -/
structure Tallied (frame : StateKeyFrame) (cast : List (OutPoint × Output)) (spent : List OutPoint) : Prop where
  settled : frame.Settled
  recorded : frame.Recorded cast
  knows : ∀ entry ∈ cast, frame.Knows entry.2
  counted : ∀ key position, Located frame key position →
    frame.votesAt position = some (Int64.ofInt (weigh (credited key) (unspent cast spent)))

/-- What the ballots of a block have to be like. -/
structure FreshBallots (base : StateKeyFrame) (cast : List (OutPoint × Output))
    (spent : List OutPoint) (prim : Primitives) (txs : List Transaction) : Prop where
  knows : ∀ entry ∈ castBy prim txs, base.Knows entry.2
  new : ∀ entry ∈ castBy prim txs, entry.1 ∉ spent ∧ entry.1 ∉ inputsOf txs
  unique : ((cast ++ castBy prim txs).map Prod.fst).Nodup
  inputs : (inputsOf txs).Nodup
  unspent : ∀ entry ∈ cast, entry.1 ∈ inputsOf txs → entry.1 ∉ spent

variable {cast : List (OutPoint × Output)} {spent : List OutPoint} {txs : List Transaction}

theorem Tallied.block (tallied : base.Tallied cast spent) (fits : Fits base txs)
    (apart : base.KeysApart txs) (referred : ∀ tx ∈ txs, Referred funcs cast tx)
    (once : VotesOnce params height funcs.prim cast txs)
    (fresh : FreshBallots base cast spent funcs.prim txs) (confirm : Option Confirm) :
    (executeAll ((base.blockActions funcs params height txs confirm).map (Action.change params height))
      (base.blockWrites funcs params height txs confirm)).Tallied
        (cast ++ castBy funcs.prim txs) (spent ++ inputsOf txs) := by
  obtain ⟨settled, kept, origin, _⟩ := block_settled funcs params height confirm tallied.settled fits apart
  have ext : Extends base (base.blockWrites funcs params height txs confirm) := blockWrites_extends base txs confirm
  have homed := tallied.settled.homed
  have knowsAll : ∀ entry ∈ cast ++ castBy funcs.prim txs, base.Knows entry.2 := by
    intro entry member
    rcases mem_append.1 member with earlier | now
    · exact tallied.knows entry earlier
    · exact fresh.knows entry now
  refine ⟨settled, ⟨fun op => ?_, fresh.unique⟩, fun entry member vote isVote => ?_, fun key position located => ?_⟩
  · rw [voted_executeAll, ext.votes, tallied.recorded.recorded, recordVote_mem_blockActions, map_append, mem_append]
  · obtain ⟨position, located⟩ := knowsAll entry member vote isVote
    exact ⟨position, kept _ _ located⟩
  · rw [votesAt_executeAll, total_blockActions tallied.recorded referred once, sum_uncast _ _ fresh.inputs,
      weigh_unspent_append (fun entry member => fresh.new entry member) fresh.unspent]
    rcases origin key position located with before | ⟨absent, isNew⟩
    · -- A producer that was registered before the block.
      have same : ∀ {entries : List (OutPoint × Output)}, (∀ entry ∈ entries, entry ∈ cast ++ castBy funcs.prim txs) →
          weigh (base.delegated position) entries = weigh (credited key) entries :=
        fun among => weigh_congr fun entry member =>
          delegated_eq_credited tallied.settled before (knowsAll entry (among entry member))
      rw [same fun entry member => mem_append_right _ member,
        same fun entry member => mem_append_left _ (mem_filter.1 member).1]
      have old : (base.blockWrites funcs params height txs confirm).votesAt position = base.votesAt position := by
        rw [votesAt, ext.producer? (homed.position_lt before), votesAt]
      rw [old, tallied.counted key position before, Option.map_some, ← Int64.ofInt_add, Int.add_sub_assoc]
    · -- A producer that the block registers.
      have unnamed : ∀ {entries : List (OutPoint × Output)},
          (∀ entry ∈ entries, entry ∈ cast ++ castBy funcs.prim txs) → weigh (credited key) entries = 0 := by
        refine fun among => weigh_eq_zero fun entry member => credited_eq_zero ?_
        rintro vote isVote rfl
        obtain ⟨place, list, found⟩ := knowsAll entry (among entry member) vote isVote
        rw [absent list] at found
        cases found
      have untouched : ∀ entries : List (OutPoint × Output), weigh (base.delegated position) entries = 0 :=
        fun entries => weigh_eq_zero fun entry _ => delegated_eq_zero homed isNew
      have noneLeft : weigh (credited key) (unspent cast spent) = 0 :=
        unnamed fun entry member => mem_append_left _ (mem_filter.1 member).1
      rw [untouched, untouched, noneLeft, unnamed fun entry member =>
          mem_append_right _ member, unnamed fun entry member => mem_append_left _ (mem_filter.1 member).1,
        blockWrites_votesAt base confirm isNew (votesAt_isSome settled.homed located)]
      rfl

end Block
end StateKeyFrame
end Elastos.Dpos
