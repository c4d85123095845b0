import Elastos.Dpos.Filing
import Elastos.Dpos.Provenance

/-! A block keeps every producer in one map if each of its moves takes the producer
from the map in which the moves before it have left the producer. -/
set_option autoImplicit false
namespace Elastos.Dpos
open Go Common Config Elastos.Types Utils GoMap StateKeyFrame State List

structure Move where
  key : Bytes
  source : ProducerList
  target : ProducerList

/-- A producer that has been counted inactive since a height is set inactive. -/
def inactivityDue (params : Params) (height startHeight : UInt32) : Prop :=
  params.maxInactiveRounds ≤ height - (if startHeight = 0 then height else startHeight)

instance (params : Params) (height startHeight : UInt32) : Decidable (inactivityDue params height startHeight) :=
  inferInstanceAs (Decidable (_ ≤ _))

variable (params : Params) (height : UInt32) (base : StateKeyFrame)

/-- The move that an action makes. A refund is only right for a canceled producer,
which it leaves where it is. -/
def Action.moves : Action → List Move
  | .cancel key _ isPending => [⟨key, if isPending then .pending else .activity, .canceled⟩]
  | .returnToOwner position _ =>
    (base.producer? position).toList.map fun producer =>
      ⟨producer.info.ownerPublicKey, .canceled, .canceled⟩
  | .punishActive key _ => [⟨key, .activity, .illegal⟩]
  | .punishCanceled key _ => [⟨key, .canceled, .illegal⟩]
  | .emergencyInactive key _ => [⟨key, .activity, .inactive⟩]
  | .activate source key _ => [⟨key, source, .activity⟩]
  | .countInactivity key _ needReset startHeight =>
    if needReset = false ∧ inactivityDue params height startHeight then
      [⟨key, .activity, .inactive⟩]
    else []
  | _ => []

/-- Moves of one producer, each from where the last one ended. A move to the map that
the producer is in does no harm. -/
def Chained : ProducerList → List Move → Prop
  | _, [] => True
  | current, move :: rest =>
    (current = move.source ∨ current = move.target) ∧ Chained move.target rest

instance : (current : ProducerList) → (moves : List Move) → Decidable (Chained current moves)
  | _, [] => inferInstanceAs (Decidable True)
  | _, move :: rest => @instDecidableAnd _ _ _ (instDecidableChained move.target rest)

def movesOf (key : Bytes)
    (actions : List Action) : List Move :=
  (actions.flatMap (Action.moves params height base)).filter fun move => move.key = key

def MovesChained (actions : List Action) : Prop :=
  ∀ list : ProducerList, ∀ entry ∈ GoMap.pairs (base.list list),
    Chained list (movesOf params height base entry.1 actions)

theorem movesChained_iff {params : Params} {height : UInt32} {base : StateKeyFrame} {actions : List Action} :
    (∀ list ∈ [ProducerList.pending, .activity, .inactive, .canceled, .illegal],
      ∀ entry ∈ GoMap.pairs (base.list list), Chained list (movesOf params height base entry.1 actions)) ↔
      MovesChained params height base actions := by
  constructor
  · intro each list
    exact each list (by cases list <;> simp)
  · exact fun all list _ => all list

instance (params : Params) (height : UInt32) (base : StateKeyFrame) (actions : List Action) :
    Decidable (MovesChained params height base actions) :=
  decidable_of_iff _ movesChained_iff

section Execution

/- A block is executed on `base` with the writes already made in `final`. The owner keys
of its updates are guarded, and those of its registrations are admitted and entering. Only
the confirm of a block is counting. -/
variable (params : Params) (height : UInt32) (base final : StateKeyFrame)
  (guarded admitted entering : Bytes → Prop) (counting : Prop)

def Action.Sound : Action → Prop
  | .enter info position _ _ =>
    (∀ list, (base.list list).lookup info.ownerPublicKey = none) ∧ base.producers.length ≤ position ∧
      final.face position = some (info, .pending) ∧
      (guarded info.nodePublicKey → info.ownerPublicKey = info.nodePublicKey) ∧ admitted info.ownerPublicKey
  | .changeInfo origin update =>
    (∃ position, Located base update.ownerPublicKey position) ∧
      origin.ownerPublicKey = update.ownerPublicKey ∧ guarded update.ownerPublicKey ∧
      (guarded update.nodePublicKey → update.ownerPublicKey = update.nodePublicKey)
  | .cancel key position _ => Located base key position
  | .returnToOwner position _ => ∃ producer, base.producer? position = some producer ∧
      Located base producer.info.ownerPublicKey position
  | .punishActive key position => Located base key position
  | .punishCanceled key position => Located base key position
  | .emergencyInactive key position => Located base key position
  | .activate source key position => source ≠ .activity ∧ Located base key position
  | .countInactivity key position _ _ => counting ∧ Located base key position
  | _ => True

structure Midway (remaining : List Action) (frame : StateKeyFrame) : Prop where
  old : ∀ key position, Located base key position → ∃ list, frame.Filed key list position ∧
      Chained list (movesOf params height base key remaining)
  new : ∀ key, (∀ list, (base.list list).lookup key = none) → ((∀ list, (frame.list list).lookup key = none) ∧
      (entering key → ∃ info position programHash deposits,
        .enter info position programHash deposits ∈ remaining ∧ info.ownerPublicKey = key)) ∨
    ∃ position, base.producers.length ≤ position ∧ frame.Filed key .pending position
  cells : ∀ position, base.producers.length ≤ position → frame.face position = final.face position
  named : ∀ node key, frame.nodeOwnerKeys.lookup node = some key → ∃ position, Located frame key position
  guard : ∀ node key, guarded node → frame.nodeOwnerKeys.lookup node = some key → key = node

variable {params height base final guarded admitted entering counting} {action : Action} {rest : List Action}
  {frame after : StateKeyFrame}

theorem movesOf_cons (key : Bytes) : movesOf params height base key (action :: rest) =
      ((action.moves params height base).filter fun move => move.key = key) ++ movesOf params height base key rest := by
  simp [movesOf]

theorem movesOf_cons_nil (still : action.moves params height base = []) (key : Bytes) :
    movesOf params height base key (action :: rest) = movesOf params height base key rest := by
  simp [movesOf_cons, still]

/-- A registration waits behind an action that is not one. -/
theorem entering_rest {key : Bytes} (notEnter : ∀ info position programHash deposits,
      action ≠ .enter info position programHash deposits)
    (waits : entering key → ∃ info position programHash deposits,
      .enter info position programHash deposits ∈ action :: rest ∧ info.ownerPublicKey = key) :
    entering key → ∃ info position programHash deposits,
      .enter info position programHash deposits ∈ rest ∧ info.ownerPublicKey = key := by
  intro isEntering
  obtain ⟨info, position, programHash, deposits, member, owner⟩ := waits isEntering
  refine ⟨info, position, programHash, deposits, ?_, owner⟩
  rcases mem_cons.1 member with same | member
  · exact absurd same.symm (notEnter info position programHash deposits)
  · exact member

/-- Every node key belongs to a producer. -/
abbrev Named (frame : StateKeyFrame) : Prop :=
  ∀ node key, frame.nodeOwnerKeys.lookup node = some key → ∃ position, Located frame key position

/-- A guarded key belongs to no other producer. -/
abbrev Guarding (guarded : Bytes → Prop) (frame : StateKeyFrame) : Prop :=
  ∀ node key, guarded node → frame.nodeOwnerKeys.lookup node = some key → key = node

theorem named_keep (named : Named frame) (lists : ∀ list, after.list list = frame.list list)
    (names : after.nodeOwnerKeys = frame.nodeOwnerKeys) : Named after := by
  intro node key found
  obtain ⟨position, list, located⟩ := named node key (names ▸ found)
  exact ⟨position, list, by rw [lists, located]⟩

theorem named_shift {key : Bytes} {position : Nat} {source target : ProducerList} {status : ProducerState}
    (named : Named frame) (shifts : Shifts frame after key position source target status) : Named after := by
  intro node other found
  rw [shifts.names] at found
  by_cases same : other = key
  · exact ⟨position, target, by simp [shifts.lookup, same]⟩
  · obtain ⟨place, list, otherFound⟩ := named node other found
    exact ⟨place, list, by simp [shifts.lookup, same, otherFound]⟩

section Enter
variable (frame : StateKeyFrame) (info : ProducerInfo) (position : Nat) (programHash : Uint168)
  (deposits : List (OutPoint × Fixed64))

/-- Only the pending map gets an entry. -/
theorem enterProducer_lookup {list : ProducerList} {other : Bytes}
    (apart : other ≠ info.ownerPublicKey ∨ list ≠ .pending) :
    (((enterProducer info position programHash deposits).execute frame).list list).lookup other =
      (frame.list list).lookup other := by
  cases list with
  | pending => exact AList.lookup_insert_ne (apart.resolve_right fun away => away rfl)
  | activity | inactive | canceled | illegal => rfl

theorem enterProducer_entered : (((enterProducer info position programHash deposits).execute frame).list
      .pending).lookup info.ownerPublicKey = some position :=
  AList.lookup_insert _

theorem enterProducer_names (node : Bytes) :
    ((enterProducer info position programHash deposits).execute frame).nodeOwnerKeys.lookup node =
      if node = info.nodePublicKey then some info.ownerPublicKey
      else frame.nodeOwnerKeys.lookup node :=
  lookup_insert_eq _ _ _ _

variable {frame info}

theorem named_enter (named : Named frame) :
    Named ((enterProducer info position programHash deposits).execute frame) := by
  intro node key found
  by_cases same : key = info.ownerPublicKey
  · exact ⟨position, .pending, same ▸ enterProducer_entered ..⟩
  rw [enterProducer_names] at found
  split at found
  · cases found
    exact absurd rfl same
  · obtain ⟨place, list, located⟩ := named node key found
    exact ⟨place, list, by rw [enterProducer_lookup _ _ _ _ _ (.inl same), located]⟩

theorem guarding_enter (guard : Guarding guarded frame)
    (own : guarded info.nodePublicKey → info.ownerPublicKey = info.nodePublicKey) :
    Guarding guarded ((enterProducer info position programHash deposits).execute frame) := by
  intro node key isGuarded found
  rw [enterProducer_names] at found
  split at found
  · rename_i sameNode
    cases found
    rw [sameNode] at isGuarded ⊢
    exact own isGuarded
  · exact guard node key isGuarded found

end Enter

namespace Midway

theorem keep (midway : Midway params height base final guarded entering (action :: rest) frame)
    (notEnter : ∀ info position programHash deposits, action ≠ .enter info position programHash deposits)
    (still : action.moves params height base = []) (keeps : KeepsFiling frame after) :
    Midway params height base final guarded entering rest after where
  old key position located := by
    obtain ⟨list, filed, chained⟩ := midway.old key position located
    rw [movesOf_cons_nil still] at chained
    exact ⟨list, filed.keep keeps, chained⟩
  new key fresh := by
    rcases midway.new key fresh with ⟨absent, waits⟩ | ⟨position, isNew, filed⟩
    · exact .inl ⟨fun list => by rw [keeps.list, absent list], entering_rest notEnter waits⟩
    · exact .inr ⟨position, isNew, filed.keep keeps⟩
  cells position isNew := by rw [keeps.face, midway.cells position isNew]
  named := named_keep midway.named keeps.list keeps.names
  guard node key isGuarded found := midway.guard node key isGuarded (keeps.names ▸ found)

variable {key : Bytes} {position : Nat} {source target : ProducerList}
  {status : ProducerState}

section
variable (midway : Midway params height base final guarded entering (action :: rest) frame)
  (partitioned : base.Partitioned)
  (notEnter : ∀ info position programHash deposits, action ≠ .enter info position programHash deposits)

include midway partitioned notEnter

theorem shift (moves : action.moves params height base = [⟨key, source, target⟩])
    (located : Located base key position) (holds : target.Holds status)
    (shifts : Shifts frame after key position source target status) :
    Midway params height base final guarded entering rest after := by
  have oldCell := partitioned.homed.position_lt located
  obtain ⟨list, filed, chained⟩ := midway.old key position located
  rw [movesOf_cons, moves, filter_cons_of_pos (by simp)] at chained
  constructor
  case old =>
    intro other place otherLocated
    by_cases same : other = key
    · subst same
      have samePlace := partitioned.homed.unique _ _ _ otherLocated located
      subst samePlace
      exact ⟨target, filed.shift shifts holds chained.1, chained.2⟩
    · obtain ⟨otherList, otherFiled, otherChained⟩ := midway.old other place otherLocated
      rw [movesOf_cons, moves, filter_cons_of_neg (by simp [Ne.symm same])] at otherChained
      refine ⟨otherList, otherFiled.shift_other shifts same ?_, otherChained⟩
      rintro rfl
      exact same (otherFiled.key_eq filed)
  case new =>
    intro other fresh
    have different : other ≠ key := by
      rintro rfl
      exact located.not_fresh fresh
    rcases midway.new other fresh with ⟨absent, waits⟩ | ⟨place, isNew, otherFiled⟩
    · refine .inl ⟨fun list => ?_, entering_rest notEnter waits⟩
      simp [shifts.lookup, different, absent list]
    · exact .inr ⟨place, isNew, otherFiled.shift_other shifts different (by omega)⟩
  case cells =>
    intro place isNew
    rw [shifts.face, if_neg (by omega), midway.cells place isNew]
  case named => exact named_shift midway.named shifts
  case guard => exact fun node other isGuarded found =>
    midway.guard node other isGuarded (shifts.names ▸ found)

theorem mark (moves : action.moves params height base = [⟨key, .canceled, .canceled⟩])
    (located : Located base key position) (lists : ∀ list, after.list list = frame.list list)
    (names : after.nodeOwnerKeys = frame.nodeOwnerKeys) (face : ∀ other, after.face other =
      if other = position then (frame.face other).map fun face => (face.1, .returned)
      else frame.face other) : Midway params height base final guarded entering rest after := by
  obtain ⟨list, filed, chained⟩ := midway.old key position located
  rw [movesOf_cons, moves, filter_cons_of_pos (by simp)] at chained
  have canceled : list = .canceled := by simpa using chained.1
  subst canceled
  have shifts : Shifts frame after key position .canceled .canceled .returned := by
    refine ⟨fun list other => ?_, names, face⟩
    rw [lists]
    by_cases moved : other = key ∧ list = .canceled
    · rw [if_pos moved, moved.1, moved.2, filed.here]
    · rw [if_neg moved, if_neg moved]
  exact midway.shift partitioned notEnter moves located (.inr rfl) shifts

end

theorem enter {info : ProducerInfo} {programHash : Uint168} {deposits : List (OutPoint × Fixed64)}
    (midway : Midway params height base final guarded entering
      (.enter info position programHash deposits :: rest) frame)
    (sound : (Action.enter info position programHash deposits).Sound base final guarded admitted counting) :
    Midway params height base final guarded entering rest
      ((State.enterProducer info position programHash deposits).execute frame) := by
  obtain ⟨fresh, isNew, face, guardedNode, _⟩ := sound
  constructor
  case old =>
    intro key place located
    obtain ⟨list, filed, chained⟩ := midway.old key place located
    have different : key ≠ info.ownerPublicKey := by
      rintro rfl
      exact located.not_fresh fresh
    refine ⟨list, ⟨?_, fun other away => ?_, filed.face⟩, by rwa [movesOf_cons_nil rfl] at chained⟩
    · rw [enterProducer_lookup _ _ _ _ _ (.inl different), filed.here]
    · rw [enterProducer_lookup _ _ _ _ _ (.inl different), filed.only other away]
  case new =>
    intro key keyFresh
    by_cases same : key = info.ownerPublicKey
    · subst same
      refine .inr ⟨position, isNew, enterProducer_entered .., fun other away => ?_, info, .pending, ?_, rfl, rfl⟩
      · rw [enterProducer_lookup _ _ _ _ _ (.inr away)]
        rcases midway.new _ keyFresh with ⟨absent, _⟩ | ⟨_, _, filed⟩
        · exact absent other
        · exact filed.only other away
      · exact (midway.cells position isNew).trans face
    · rcases midway.new key keyFresh with ⟨absent, waits⟩ | ⟨place, placeNew, filed⟩
      · refine .inl ⟨fun list => by
          rw [enterProducer_lookup _ _ _ _ _ (.inl same), absent list], ?_⟩
        intro isEntering
        obtain ⟨info', position', programHash', deposits', member, owner⟩ := waits isEntering
        rcases mem_cons.1 member with head | member
        · cases head
          exact absurd owner.symm same
        · exact ⟨info', position', programHash', deposits', member, owner⟩
      · refine .inr ⟨place, placeNew, ?_, fun other away => ?_, filed.face⟩
        · rw [enterProducer_lookup _ _ _ _ _ (.inl same), filed.here]
        · rw [enterProducer_lookup _ _ _ _ _ (.inl same), filed.only other away]
  case cells => exact midway.cells
  case named => exact named_enter _ _ _ midway.named
  case guard => exact guarding_enter _ _ _ midway.guard guardedNode

end Midway

/-- An update of a producer that is found under its owner key. -/
structure Rewrites (frame after : StateKeyFrame) (position : Nat) (origin update : ProducerInfo) : Prop where
  list : ∀ list, after.list list = frame.list list
  names : ∀ node key, after.nodeOwnerKeys.lookup node = some key → frame.nodeOwnerKeys.lookup node = some key ∨
      node = update.nodePublicKey ∧ key = origin.ownerPublicKey
  face : ∀ other, after.face other =
    if other = position then (frame.face other).map fun face => (update, face.2)
    else frame.face other

theorem updateProducerInfo_rewrites {origin update : ProducerInfo} {position : Nat}
    (found : frame.getProducerRef origin.ownerPublicKey = some position) :
    Rewrites frame (State.updateProducerInfo origin update frame) position origin update := by
  simp only [updateProducerInfo, found]
  constructor
  case list =>
    intro list
    split <;> split <;> cases list <;> rfl
  case names =>
    intro node key lookup
    have names : (if origin.nodePublicKey ≠ update.nodePublicKey then
        (frame.nodeOwnerKeys.erase origin.nodePublicKey).insert update.nodePublicKey origin.ownerPublicKey
        else frame.nodeOwnerKeys).lookup node = some key := by
      split at lookup <;> split at lookup <;> simp_all <;> exact lookup
    split at names
    · rw [lookup_insert_eq] at names
      split at names
      · rename_i sameNode
        cases names
        exact .inr ⟨sameNode, rfl⟩
      · rw [lookup_erase_eq] at names
        split at names
        · cases names
        · exact .inl names
    · exact .inl names
  case face =>
    intro other
    split <;> split <;>
      (rw [face_updateProducer]; simp [StateKeyFrame.face, producer?, Option.map_map, Function.comp_def])

section
variable {position : Nat} {origin update : ProducerInfo} (rewrites : Rewrites frame after position origin update)
include rewrites

theorem named_rewrite (named : Named frame) (here : Located frame origin.ownerPublicKey position) : Named after := by
  intro node key lookup
  rcases rewrites.names node key lookup with before | ⟨_, rfl⟩
  · obtain ⟨place, list, found⟩ := named node key before
    exact ⟨place, list, by rw [rewrites.list, found]⟩
  · obtain ⟨list, found⟩ := here
    exact ⟨position, list, by rw [rewrites.list, found]⟩

theorem guarding_rewrite (guard : Guarding guarded frame)
    (own : guarded update.nodePublicKey → origin.ownerPublicKey = update.nodePublicKey) : Guarding guarded after := by
  intro node key isGuarded lookup
  rcases rewrites.names node key lookup with before | ⟨rfl, rfl⟩
  · exact guard node key isGuarded before
  · exact own isGuarded

end

theorem Midway.changeInfo {origin update : ProducerInfo} (partitioned : base.Partitioned)
    (midway : Midway params height base final guarded entering (.changeInfo origin update :: rest) frame)
    (sound : (Action.changeInfo origin update).Sound base final guarded admitted counting) :
    Midway params height base final guarded entering rest (State.updateProducerInfo origin update frame) := by
  obtain ⟨⟨position, located⟩, sameOwner, guardedOwner, guardedNode⟩ := sound
  obtain ⟨list, filed, _⟩ := midway.old _ position located
  have oldCell : position < base.producers.length := partitioned.homed.position_lt located
  -- The owner key is not the node key of another producer when the update runs.
  have ownKey := getProducerKey_of_own fun key => midway.guard _ key guardedOwner
  have found : frame.getProducerRef origin.ownerPublicKey = some position := by
    rw [getProducerRef, sameOwner, ownKey, filed.getProducerByOwnerPublicKey]
  have rewrites : Rewrites frame (updateProducerInfo origin update frame) position origin
    update := updateProducerInfo_rewrites found
  constructor
  case old =>
    intro key place keyLocated
    obtain ⟨keyList, keyFiled, chained⟩ := midway.old key place keyLocated
    rw [movesOf_cons_nil rfl] at chained
    refine ⟨keyList, ⟨?_, fun other away => ?_, ?_⟩, chained⟩
    · rw [rewrites.list, keyFiled.here]
    · rw [rewrites.list, keyFiled.only other away]
    · obtain ⟨info, state, face, owner, holds⟩ := keyFiled.face
      by_cases same : place = position
      · subst same
        exact ⟨update, state, by simp [rewrites.face, face], (keyFiled.key_eq filed).symm, holds⟩
      · exact ⟨info, state, by simp [rewrites.face, same, face], owner, holds⟩
  case new =>
    intro key fresh
    rcases midway.new key fresh with ⟨absent, waits⟩ | ⟨place, isNew, keyFiled⟩
    · exact .inl ⟨fun list => by rw [rewrites.list, absent list], entering_rest (by simp) waits⟩
    refine .inr ⟨place, isNew, by rw [rewrites.list, keyFiled.here],
      fun other away => by rw [rewrites.list, keyFiled.only other away], ?_⟩
    rw [rewrites.face, if_neg (by omega)]
    exact keyFiled.face
  case cells =>
    intro place isNew
    rw [rewrites.face, if_neg (by omega), midway.cells place isNew]
  case named => exact named_rewrite rewrites midway.named ⟨list, by rw [sameOwner, filed.here]⟩
  case guard => exact guarding_rewrite rewrites midway.guard fun isGuarded => sameOwner.trans (guardedNode isGuarded)

/-- The count of a producer, as an action found it. -/
def Action.CountIn (frame : StateKeyFrame) : Action → Prop
  | .countInactivity _ position _ startHeight =>
    (frame.producer? position).map (·.inactiveCountingHeight) = some startHeight
  | _ => True

variable {key : Bytes} {position place : Nat} {startHeight : UInt32}

section
variable (count : (frame.producer? position).map (·.inactiveCountingHeight) = some startHeight)
include count

theorem tryUpdateInactivity_shifts (due : inactivityDue params height startHeight) :
    Shifts frame (State.tryUpdateInactivity params key position false height frame) key position
      .activity .inactive .inactive := by
  obtain ⟨producer, cell, rfl⟩ := Option.map_eq_some_iff.1 count
  have counting : KeepsFiling frame (frame.updateProducer position fun producer =>
      { producer with
        inactiveCountingHeight :=
          if producer.inactiveCountingHeight = 0 then height
          else producer.inactiveCountingHeight }) :=
    updateProducer_keepsFiling frame position (fun _ => rfl) fun _ => rfl
  unfold inactivityDue at due
  simp only [tryUpdateInactivity, Bool.false_eq_true, if_false,
    producer?_updateProducer, cell, if_true, Option.map_some, if_pos due]
  refine Shifts.keeps counting (setInactiveProducer_shifts _ params height false) ?_
  exact updateProducer_keepsFiling _ position (fun _ => rfl) fun _ => rfl

theorem tryUpdateInactivity_keeps {needReset : Bool}
    (notDue : ¬ (needReset = false ∧ inactivityDue params height startHeight)) : KeepsFiling frame
      (State.tryUpdateInactivity params key position needReset height frame) := by
  cases needReset with
  | true => exact updateProducer_keepsFiling frame position (fun _ => rfl) fun _ => rfl
  | false =>
    obtain ⟨producer, cell, rfl⟩ := Option.map_eq_some_iff.1 count
    have early : ¬ inactivityDue params height producer.inactiveCountingHeight := fun due => notDue ⟨rfl, due⟩
    unfold inactivityDue at early
    simp only [tryUpdateInactivity, Bool.false_eq_true, if_false,
      producer?_updateProducer, cell, if_true, Option.map_some, if_neg early]
    exact updateProducer_keepsFiling frame position (fun _ => rfl) fun _ => rfl

end

theorem Midway.step (partitioned : base.Partitioned)
    (midway : Midway params height base final guarded entering (action :: rest) frame)
    (sound : action.Sound base final guarded admitted counting) (count : action.CountIn frame) :
    Midway params height base final guarded entering rest ((action.change params height).execute frame) := by
  cases action with
  | enter info position programHash deposits => exact midway.enter sound
  | changeInfo origin update => exact midway.changeInfo partitioned sound
  | cancel key position isPending =>
    exact midway.shift partitioned (fun _ _ _ _ => nofun) rfl sound (.inl rfl) (cancel_shifts frame isPending)
  | requestActivation position | addVotes position amount | subtractVotes position amount
  | setDeposit position amount | addDeposit position amount =>
    exact midway.keep (fun _ _ _ _ => nofun) rfl (updateProducer_keepsFiling frame position (fun _ => rfl) fun _ => rfl)
  | recordVote op | recordSpecialHash hash | setVersion startHeight endHeight oldStart oldEnd =>
    exact midway.keep (fun _ _ _ _ => nofun) rfl ⟨fun list => by cases list <;> rfl, rfl, fun _ => rfl⟩
  | returnToOwner position amount =>
    obtain ⟨producer, cell, located⟩ := sound
    refine midway.mark partitioned (fun _ _ _ _ => nofun) ?_ located
      (fun list => by cases list <;> rfl) rfl fun other =>
        frame.face_updateProducer_state position other _ (fun _ => rfl) fun _ => rfl
    simp [Action.moves, cell]
  | punishActive key position =>
    exact midway.shift partitioned (fun _ _ _ _ => nofun) rfl sound rfl (punishActive_shifts frame)
  | punishCanceled key position =>
    exact midway.shift partitioned (fun _ _ _ _ => nofun) rfl sound rfl (punishCanceled_shifts frame)
  | emergencyInactive key position =>
    exact midway.shift partitioned (fun _ _ _ _ => nofun) rfl sound rfl (emergencyInactive_shifts frame)
  | activate source key position =>
    exact midway.shift partitioned (fun _ _ _ _ => nofun) rfl sound.2 rfl (activateFrom_shifts frame sound.1 _)
  | countInactivity key position needReset startHeight =>
    by_cases due : needReset = false ∧ inactivityDue params height startHeight
    · obtain ⟨rfl, isDue⟩ := due
      exact midway.shift partitioned (fun _ _ _ _ => nofun) (if_pos ⟨rfl, isDue⟩) sound.2 rfl
        (tryUpdateInactivity_shifts count isDue)
    · exact midway.keep (fun _ _ _ _ => nofun) (if_neg due) (tryUpdateInactivity_keeps count due)

theorem tryUpdateInactivity_elim {motive : StateKeyFrame → Prop} {needReset : Bool} (start : motive frame)
    (counts : ∀ {middle : StateKeyFrame} (count : Producer → UInt32), motive middle → motive
      (middle.updateProducer position fun producer => { producer with inactiveCountingHeight := count producer }))
    (sets : ∀ {middle}, motive middle → motive (setInactiveProducer params key position height false middle)) :
    motive (tryUpdateInactivity params key position needReset height frame) := by
  unfold tryUpdateInactivity
  dsimp only
  split
  · exact counts _ start
  split
  · split
    · exact counts _ (sets (counts _ start))
    · exact counts _ start
  · exact counts _ start

def Action.counted : Action → Option Nat
  | .countInactivity _ position _ _ => some position
  | _ => none

theorem field_updateProducer {β : Type} (field : Producer → β) {update : Producer → Producer}
    (same : place ≠ position ∨ ∀ producer, field (update producer) = field producer) :
    ((frame.updateProducer position update).producer? place).map field = (frame.producer? place).map field := by
  rw [producer?_updateProducer]
  split
  · rename_i here
    rw [Option.map_map]
    congr 1
    funext producer
    exact same.resolve_left (· here) producer
  · rfl

/-- An action leaves the counts of the producers that it does not count. -/
theorem count_execute (notCounted : action.counted ≠ some place) :
    (((action.change params height).execute frame).producer? place).map
        (·.inactiveCountingHeight) = (frame.producer? place).map (·.inactiveCountingHeight) := by
  cases action with
  | enter | recordVote | recordSpecialHash | setVersion => rfl
  | changeInfo origin update =>
    change ((updateProducerInfo origin update frame).producer? place).map _ = _
    unfold updateProducerInfo
    split <;> split <;> split <;>
      first | exact field_updateProducer _ (.inr fun _ => rfl) | rfl
  | cancel | requestActivation | addVotes | subtractVotes | setDeposit | addDeposit
  | returnToOwner | punishActive | punishCanceled | emergencyInactive =>
    exact field_updateProducer _ (.inr fun _ => rfl)
  | activate source key position =>
    have counted : (((frame.updateProducer position fun producer =>
        { producer with state := .active }).producer? place).map
          (·.inactiveCountingHeight)) = _ := field_updateProducer _ (.inr fun _ => rfl)
    rw [← counted]
    cases source <;> rfl
  | countInactivity key position needReset startHeight =>
    have away : place ≠ position := fun same => notCounted (by rw [same]; rfl)
    exact tryUpdateInactivity_elim (motive := fun after => (after.producer? place).map _ = _) rfl
      (fun _ same => (field_updateProducer _ (.inl away)).trans same)
      fun same => (field_updateProducer _ (.inl away)).trans same

theorem Midway.run (partitioned : base.Partitioned) {actions : List Action}
    (midway : Midway params height base final guarded entering actions frame)
    (sound : ∀ action ∈ actions, action.Sound base final guarded admitted counting)
    (counts : ∀ action ∈ actions, action.CountIn frame) (once : (actions.filterMap Action.counted).Nodup) :
    Midway params height base final guarded entering []
      (executeAll (actions.map (Action.change params height)) frame) := by
  induction actions generalizing frame with
  | nil => exact midway
  | cons action rest ih =>
    have stepped := midway.step partitioned (sound action (by simp)) (counts action (by simp))
    refine ih stepped (fun other member => sound other (mem_cons_of_mem _ member)) ?_ ?_
    · intro other member
      have before := counts other (mem_cons_of_mem _ member)
      cases other with
      | countInactivity key position needReset startHeight =>
        refine (count_execute fun counted => ?_).trans before
        rw [filterMap_cons_some counted, nodup_cons] at once
        exact once.1 (mem_filterMap.2 ⟨_, member, rfl⟩)
      | _ => trivial
    · rw [filterMap_cons] at once
      split at once
      · exact once
      · exact once.of_cons

end Execution
end Elastos.Dpos
