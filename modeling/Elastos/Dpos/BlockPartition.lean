import Elastos.Dpos.Partition
import Elastos.Dpos.StateRefinement

/-! The actions of a block whose transactions fit the state before it are sound, so the
block keeps the partition of the producers if its moves are chained. -/
set_option autoImplicit false
namespace Elastos.Dpos
open Go Common Config Elastos.Core Elastos.Types Utils GoMap State List

def infosOf (txType : TxType) (txs : List Transaction) : List ProducerInfo :=
  txs.filterMap fun tx =>
    if tx.txType = txType then
      match tx.payload with
      | .producerInfo info => some info
      | _ => none
    else none

theorem mem_infosOf {txType : TxType} {txs : List Transaction} {info : ProducerInfo} :
    info ∈ infosOf txType txs ↔ ∃ tx ∈ txs, tx.txType = txType ∧ tx.payload = .producerInfo info := by
  unfold infosOf
  rw [mem_filterMap]
  refine exists_congr fun tx => and_congr_right fun _ => ?_
  split
  · rename_i isType
    split
    · rename_i other payload
      simp [isType, payload]
    · rename_i other
      simp only [reduceCtorEq, isType, true_and, false_iff]
      exact other info
  · rename_i notType
    simp [notType]

def Updated (txs : List Transaction) (key : Bytes) : Prop :=
  ∃ info ∈ infosOf .updateProducer txs, info.ownerPublicKey = key

/-- An update names the owner key of the producer that it reaches, also when it runs:
no registration or update of the block makes that key the node key of another producer. -/
def UpdatesOwn (base : StateKeyFrame) (txs : List Transaction) : Prop :=
  ∀ info ∈ infosOf .updateProducer txs, base.getProducerKey info.ownerPublicKey = info.ownerPublicKey ∧
    ∀ other ∈ infosOf .registerProducer txs ++ infosOf .updateProducer txs,
      other.nodePublicKey = info.ownerPublicKey → other.ownerPublicKey = info.ownerPublicKey

instance (base : StateKeyFrame) (txs : List Transaction) : Decidable (UpdatesOwn base txs) :=
  inferInstanceAs (Decidable (∀ info ∈ _, _ ∧ ∀ other ∈ _, _ → _))

/-- What the checks of the transactions establish. -/
structure Fits (base : StateKeyFrame) (txs : List Transaction) : Prop where
  registers : ∀ info ∈ infosOf .registerProducer txs, ∀ list, (base.list list).lookup info.ownerPublicKey = none
  cancels : ∀ tx ∈ txs, tx.txType = .cancelProducer → ∀ payload, tx.payload = .processProducer payload → ∀ position,
      base.getProducerRef payload.ownerPublicKey = some position → Located base payload.ownerPublicKey position

/-- The infos of a block respect a set of owner keys: no producer gets the key of another
owner in the set as its node key, and updates are made under own keys that belong to it. -/
structure Guards (base : StateKeyFrame) (txs : List Transaction) (guarded admitted : Bytes → Prop) : Prop where
  registers : ∀ info ∈ infosOf .registerProducer txs, admitted info.ownerPublicKey
  nodes : ∀ info ∈ infosOf .registerProducer txs ++ infosOf .updateProducer txs,
    guarded info.nodePublicKey → info.ownerPublicKey = info.nodePublicKey
  updates : ∀ info ∈ infosOf .updateProducer txs, guarded info.ownerPublicKey ∧
    base.getProducerKey info.ownerPublicKey = info.ownerPublicKey

theorem UpdatesOwn.guards {base : StateKeyFrame} {txs : List Transaction}
    (own : UpdatesOwn base txs) : Guards base txs (Updated txs) fun _ => True where
  registers _ _ := trivial
  nodes := by
    rintro info member ⟨update, updates, owner⟩
    rw [← owner]
    exact (own update updates).2 info member owner.symm
  updates info updates := ⟨⟨info, updates, rfl⟩, (own info updates).1⟩

namespace StateKeyFrame
variable {funcs : StateFuncs} {params : Params} {height : UInt32} {base frame final : StateKeyFrame}
  {txs : List Transaction} {tx : Transaction} {confirm : Option Confirm} {action : Action}
  {guarded admitted : Bytes → Prop} {counting : Prop} {publicKey : Bytes}

/-- The cell that a key leads to belongs to the owner key behind it. -/
theorem Homed.getProducerRef (homed : base.Homed) {position : Nat}
    (found : base.getProducerRef publicKey = some position) : Located base (base.getProducerKey publicKey) position ∧
      ∃ producer, base.producer? position = some producer ∧
        producer.info.ownerPublicKey = base.getProducerKey publicKey := by
  have located := getProducerByOwnerPublicKey_located found
  exact ⟨located, homed.cell _ _ located⟩

theorem enter_sound {info : ProducerInfo} {programHash : Uint168} (fits : Fits base txs)
    (guards : Guards base txs guarded admitted) (included : tx ∈ txs)
    (isRegister : tx.txType = .registerProducer) (payload : tx.payload = .producerInfo info)
    (found : publicKeyToDepositProgramHash funcs.prim info.ownerPublicKey = .ok programHash)
    (before : Extends base frame) (after : Extends (frame.typeWrites funcs height tx) final) :
    (Action.enter info frame.producers.length programHash
      (depositsOf funcs.prim tx programHash)).Sound base final guarded admitted counting := by
  have registers := mem_infosOf.2 ⟨tx, included, isRegister, payload⟩
  refine ⟨fits.registers info registers, before.length_le, ?_,
    guards.nodes info (mem_append_left _ registers), guards.registers info registers⟩
  have cell : (frame.typeWrites funcs height tx).producer? frame.producers.length = some (newProducer info height
        (wrappedSum ((depositsOf funcs.prim tx programHash).map Prod.snd)) programHash) := by
    simp [typeWrites, isRegister, registerWrites, payload, found, producer?]
  simp [face, after.producer?_some cell, newProducer]

theorem changeInfo_sound {info : ProducerInfo} {producer : Producer} (homed : base.Homed)
    (guards : Guards base txs guarded admitted) (included : tx ∈ txs)
    (isUpdate : tx.txType = .updateProducer) (payload : tx.payload = .producerInfo info)
    (before : Extends base frame) (found : frame.getProducer info.ownerPublicKey = some producer) :
    (Action.changeInfo producer.info info).Sound base final guarded admitted counting := by
  rw [getProducer, before.getProducerRef, Option.bind_eq_some_iff] at found
  obtain ⟨position, reached, cell⟩ := found
  have updates := mem_infosOf.2 ⟨tx, included, isUpdate, payload⟩
  obtain ⟨isGuarded, ownKey⟩ := guards.updates info updates
  obtain ⟨located, origin, originCell, owner⟩ := homed.getProducerRef reached
  rw [ownKey] at located owner
  cases (before.producer?_some originCell).symm.trans cell
  exact ⟨⟨position, located⟩, owner, isGuarded, guards.nodes info (mem_append_right _ updates)⟩

theorem located_of_list {list : ProducerList} {key : Bytes} {position : Nat}
    (before : Extends base frame) (found : (frame.list list).lookup key = some position) : Located base key position :=
  ⟨list, (congrArg _ (before.list list)).symm.trans found⟩

theorem typeActions_sound (homed : base.Homed) (fits : Fits base txs)
    (guards : Guards base txs guarded admitted) (included : tx ∈ txs) (before : Extends base frame)
    (after : Extends (frame.typeWrites funcs height tx) final)
    (member : action ∈ frame.typeActions funcs tx) : action.Sound base final guarded admitted counting := by
  cases typeActions_asked _ member with
  | enter kind payload found =>
    exact enter_sound fits guards included kind payload found before after
  | changeInfo kind payload found =>
    exact changeInfo_sound homed guards included kind payload before found
  | cancel kind canceled found =>
    rw [before.getProducerRef] at found
    exact fits.cancels tx included kind _ canceled _ found
  | returnDeposit amount found =>
    rw [before.getProducerRef] at found
    obtain ⟨located, producer, cell, owner⟩ := homed.getProducerRef found
    exact ⟨producer, cell, owner ▸ located⟩
  | punishActive found | punishCanceled found | emergency _ found =>
    exact located_of_list before found
  | _ => trivial

theorem confirmActions_sound (before : Extends base frame)
    (member : action ∈ frame.confirmActions funcs params height confirm) :
    action.Sound base final guarded admitted True := by
  obtain ⟨key, position, _, producer, active, _, rfl⟩ := mem_confirmActions member
  exact ⟨trivial, located_of_list before active⟩

theorem uncounted (sound : action.Sound base final guarded admitted False) : action.counted = none := by
  cases action with
  | countInactivity => exact sound.1.elim
  | _ => rfl

section Block
variable (funcs params height)

section Sound
variable (homed : base.Homed) (fits : Fits base txs) (guards : Guards base txs guarded admitted)
include homed fits guards

theorem unconfirmed_sound (confirm : Option Confirm)
    (member : action ∈ base.initActions funcs params height ++ base.txsActions funcs params height txs ++
      (base.txsWrites funcs height txs).repeatActions funcs params height txs) :
    action.Sound base (base.blockWrites funcs params height txs confirm) guarded admitted counting := by
  cases unconfirmed_origin confirm member with
  | typed included before after typed =>
    exact typeActions_sound homed fits guards included before after typed
  | due notActive found => exact ⟨notActive, _, found⟩
  | _ => trivial

theorem blockActions_sound : ∀ action ∈ base.blockActions funcs params height txs confirm,
      action.Sound base (base.blockWrites funcs params height txs confirm) guarded admitted True := by
  intro action member
  rcases mem_append.1 member with unconfirmed | counted
  · exact unconfirmed_sound funcs params height homed fits guards confirm unconfirmed
  · exact confirmActions_sound ((txsWrites_extends base txs).trans (repeatWrites_extends _ txs)) counted

theorem blockActions_countIn : ∀ action ∈ base.blockActions funcs params height txs confirm,
      action.CountIn (base.blockWrites funcs params height txs confirm) := by
  intro action member
  rcases mem_append.1 member with unconfirmed | counted
  · have none := uncounted (unconfirmed_sound funcs params height homed fits guards confirm unconfirmed)
    cases action with
    | countInactivity => cases none
    | _ => trivial
  · have after : Extends ((base.txsWrites funcs height txs).repeatWrites funcs params height txs)
        (base.blockWrites funcs params height txs confirm) := confirmWrites_extends _ confirm
    obtain ⟨key, position, _, producer, _, cell, rfl⟩ := mem_confirmActions counted
    simp [Action.CountIn, after.producer?_some cell]

end Sound

variable (partitioned : base.Partitioned) (fits : Fits base txs) (own : UpdatesOwn base txs)
include partitioned fits own
omit fits own in
theorem confirmActions_countedOnce (before : Extends base frame) :
    ((frame.confirmActions funcs params height confirm).filterMap Action.counted).Nodup := by
  unfold confirmActions
  split
  · simp
  split
  · simp
  rename_i confirm _
  have keys := ((funcs.runtime.iterate_perm (GoMap.pairs (changingArbiters frame
    funcs.getArbiters confirm.proposal.sponsor))).map Prod.fst).nodup_iff.2 (pairs_keys_nodup _)
  have same : ∀ entries : List (Bytes × Bool), (entries.flatMap frame.countActions).filterMap Action.counted =
        (entries.map Prod.fst).filterMap fun key =>
          (frame.activityProducers.lookup key).filter fun position =>
            (frame.producer? position).isSome := by
    intro entries
    induction entries with
    | nil => rfl
    | cons entry entries ih =>
      rw [flatMap_cons, filterMap_append, ih, map_cons]
      cases active : frame.activityProducers.lookup entry.1 with
      | none => simp [countActions, active]
      | some position =>
        cases cell : frame.producer? position with
        | none => simp [countActions, active, cell]
        | some producer =>
          rw [filterMap_cons_some (b := position)]
          · simp [countActions, active, cell, Action.counted]
          · simp [active, cell]
  rw [same]
  refine keys.filterMap fun key other position found otherFound => ?_
  simp only [Option.mem_def, Option.filter_eq_some_iff] at found otherFound
  have located : (base.list .activity).lookup key = some position := by
    rw [← before.list]
    exact found.1
  have otherLocated : (base.list .activity).lookup other = some position := by
    rw [← before.list]
    exact otherFound.1
  exact (partitioned.filed key _ position located).key_eq (partitioned.filed other _ position otherLocated)

theorem blockActions_countedOnce :
    ((base.blockActions funcs params height txs confirm).filterMap Action.counted).Nodup := by
  have none := filterMap_eq_nil_iff.2 fun action member =>
      uncounted (unconfirmed_sound funcs params height partitioned.homed fits own.guards confirm member)
  rw [blockActions, filterMap_append, none, nil_append]
  exact confirmActions_countedOnce funcs params height partitioned
    ((txsWrites_extends base txs).trans (repeatWrites_extends _ txs))

omit fits in
theorem midway_start (chained : MovesChained params height base (base.blockActions funcs params height txs confirm)) :
    Midway params height base (base.blockWrites funcs params height txs confirm) (Updated txs)
      (fun key => ∃ info position programHash deposits, .enter info position programHash deposits ∈
          base.blockActions funcs params height txs confirm ∧ info.ownerPublicKey = key)
      (base.blockActions funcs params height txs confirm)
      (base.blockWrites funcs params height txs confirm) := by
  have ext : Extends base (base.blockWrites funcs params height txs confirm) := blockWrites_extends base txs confirm
  constructor
  case old =>
    rintro key position ⟨list, found⟩
    have filed := partitioned.filed key list position found
    refine ⟨list, ⟨?_, fun other away => ?_, ?_⟩, ?_⟩
    · rw [ext.list, found]
    · rw [ext.list, filed.only other away]
    · obtain ⟨info, state, face, rest⟩ := filed.face
      obtain ⟨producer, cell, same⟩ := Option.map_eq_some_iff.1 face
      exact ⟨info, state, Option.map_eq_some_iff.2 ⟨producer, ext.producer?_some cell, same⟩, rest⟩
    · exact chained list (key, position) (mem_pairs_iff.2 found)
  case new =>
    intro key fresh
    exact .inl ⟨fun list => by rw [ext.list, fresh list], id⟩
  case cells => exact fun _ _ => rfl
  case named =>
    intro node key found
    rw [ext.nodeOwnerKeys] at found
    obtain ⟨list, position, located⟩ := partitioned.named node key found
    exact ⟨position, list, by rw [ext.list, located]⟩
  case guard =>
    rintro node key ⟨info, updates, rfl⟩ found
    rw [ext.nodeOwnerKeys] at found
    have ownKey := (own info updates).1
    simpa [getProducerKey, found] using ownKey

/-- A block whose moves are chained keeps the partition and the registered keys. -/
theorem block_partitioned
    (chained : MovesChained params height base (base.blockActions funcs params height txs confirm)) :
    let after := executeAll ((base.blockActions funcs params height txs confirm).map (Action.change params height))
      (base.blockWrites funcs params height txs confirm)
    after.Partitioned ∧ (∀ key position, Located base key position → ∃ place, Located after key place) ∧
      ∀ info position programHash deposits, .enter info position programHash deposits ∈
          base.blockActions funcs params height txs confirm → ∃ place, Located after info.ownerPublicKey place := by
  intro after
  have ended := (midway_start funcs params height partitioned own chained).run partitioned
    (blockActions_sound funcs params height partitioned.homed fits own.guards)
    (blockActions_countIn funcs params height partitioned.homed fits own.guards)
    (blockActions_countedOnce funcs params height partitioned fits own)
  refine ⟨⟨fun key list position found => ?_, fun node key found => ?_⟩, ?_, ?_⟩
  · by_cases known : ∃ place, Located base key place
    · obtain ⟨place, located⟩ := known
      obtain ⟨where_, filed, _⟩ := ended.old key place located
      obtain ⟨rfl, rfl⟩ := filed.list_eq found
      exact filed
    have fresh : ∀ list, (base.list list).lookup key = none := by
      intro list
      cases absent : (base.list list).lookup key with
      | none => rfl
      | some place => exact absurd ⟨place, list, absent⟩ known
    rcases ended.new key fresh with ⟨absent, _⟩ | ⟨place, _, filed⟩
    · rw [absent list] at found
      cases found
    · obtain ⟨rfl, rfl⟩ := filed.list_eq found
      exact filed
  · obtain ⟨position, list, located⟩ := ended.named node key found
    exact ⟨list, position, located⟩
  · intro key position located
    obtain ⟨list, filed, _⟩ := ended.old key position located
    exact ⟨position, list, filed.here⟩
  · intro info position programHash deposits member
    have fresh := (blockActions_sound funcs params height partitioned.homed fits own.guards _ member).1
    rcases ended.new info.ownerPublicKey fresh with ⟨_, waits⟩ | ⟨place, _, filed⟩
    · obtain ⟨_, _, _, _, impossible, _⟩ :=
        waits ⟨info, position, programHash, deposits, member, rfl⟩
      simp at impossible
    · exact ⟨place, .pending, filed.here⟩

end Block
end StateKeyFrame
end Elastos.Dpos
