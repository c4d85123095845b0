import Elastos.Dpos.StateProcess

/-! Where the maps file a producer and how a change moves it. -/
set_option autoImplicit false
namespace Elastos.Dpos
open Go Common Config Elastos.Types StateKeyFrame Utils

/-- The states that belong to a map. A producer whose deposit was returned stays among
the canceled ones. -/
def ProducerList.Holds : ProducerList → ProducerState → Prop
  | .pending, state => state = .pending
  | .activity, state => state = .active
  | .inactive, state => state = .inactive
  | .canceled, state => state = .canceled ∨ state = .returned
  | .illegal, state => state = .illegal

instance (list : ProducerList) (state : ProducerState) : Decidable (list.Holds state) := by
  cases list <;> unfold ProducerList.Holds <;> infer_instance

namespace StateKeyFrame

def face (frame : StateKeyFrame) (position : Nat) : Option (ProducerInfo × ProducerState) :=
  (frame.producer? position).map fun producer => (producer.info, producer.state)

/-- A key is in one map only, and its producer is in a state that belongs to the map. -/
structure Filed (frame : StateKeyFrame) (key : Bytes) (list : ProducerList) (position : Nat) : Prop where
  here : (frame.list list).lookup key = some position
  only : ∀ other, other ≠ list → (frame.list other).lookup key = none
  face : ∃ info state, frame.face position = some (info, state) ∧ info.ownerPublicKey = key ∧ list.Holds state

/-- Every key of the maps is filed, and node keys lead to such keys. -/
structure Partitioned (frame : StateKeyFrame) : Prop where
  filed : ∀ key list position, (frame.list list).lookup key = some position → frame.Filed key list position
  named : ∀ node key, frame.nodeOwnerKeys.lookup node = some key →
    ∃ list position, (frame.list list).lookup key = some position

end StateKeyFrame

def Located (frame : StateKeyFrame) (key : Bytes) (position : Nat) : Prop :=
  ∃ list, (frame.list list).lookup key = some position

/-- A key has one cell, which is that of the producer it owns, however many maps it is in.
Node keys lead to such keys. -/
structure StateKeyFrame.Homed (frame : StateKeyFrame) : Prop where
  cell : ∀ key position, Located frame key position →
    ∃ producer, frame.producer? position = some producer ∧ producer.info.ownerPublicKey = key
  unique : ∀ key position place, Located frame key position → Located frame key place → position = place
  named : ∀ node key, frame.nodeOwnerKeys.lookup node = some key → ∃ position, Located frame key position

namespace StateKeyFrame
variable (frame : StateKeyFrame) (position other : Nat)
include frame position other

theorem producer?_updateProducer (update : Producer → Producer) :
    (frame.updateProducer position update).producer? other =
      if other = position then (frame.producer? other).map update
      else frame.producer? other := by
  simp only [producer?, updateProducer, List.getElem?_modify]
  by_cases same : other = position
  · simp [same]
  · simp [same, Ne.symm same]

theorem face_updateProducer (update : Producer → Producer) : (frame.updateProducer position update).face other =
      if other = position then
        (frame.producer? other).map fun producer =>
          ((update producer).info, (update producer).state)
      else frame.face other := by
  simp only [face, producer?_updateProducer]
  split
  · rw [Option.map_map]
    rfl
  · rfl

theorem face_updateProducer_same {update : Producer → Producer}
    (info : ∀ producer, (update producer).info = producer.info)
    (state : ∀ producer, (update producer).state = producer.state) :
    (frame.updateProducer position update).face other = frame.face other := by
  rw [face_updateProducer]
  simp only [info, state, ite_self, face]

theorem face_updateProducer_state {update : Producer → Producer} (status : ProducerState)
    (info : ∀ producer, (update producer).info = producer.info) (state : ∀ producer, (update producer).state = status) :
    (frame.updateProducer position update).face other =
      if other = position then (frame.face other).map fun face => (face.1, status)
      else frame.face other := by
  rw [face_updateProducer]
  simp only [info, state, face, Option.map_map, Function.comp_def]

end StateKeyFrame

structure KeepsFiling (frame after : StateKeyFrame) : Prop where
  list : ∀ list, after.list list = frame.list list
  names : after.nodeOwnerKeys = frame.nodeOwnerKeys
  face : ∀ position, after.face position = frame.face position

structure Shifts (frame after : StateKeyFrame) (key : Bytes) (position : Nat)
    (source target : ProducerList) (status : ProducerState) : Prop where
  lookup : ∀ list other, (after.list list).lookup other =
    if other = key ∧ list = target then some position
    else if other = key ∧ list = source then none
    else (frame.list list).lookup other
  names : after.nodeOwnerKeys = frame.nodeOwnerKeys
  face : ∀ other, after.face other =
    if other = position then (frame.face other).map fun face => (face.1, status)
    else frame.face other

/-- An insertion into one map, a removal from another and a write to the cell. -/
theorem shifts_of_moved {frame moved : StateKeyFrame} {key : Bytes} {position : Nat}
    {source target : ProducerList} {status : ProducerState} (update : Producer → Producer)
    (face : ∀ other, moved.face other = (frame.updateProducer position update).face other)
    (apart : source ≠ target := by decide)
    (inserted : moved.list target = (frame.list target).insert key position := by rfl)
    (erased : moved.list source = (frame.list source).erase key := by rfl)
    (others : ∀ list, list ≠ target → list ≠ source → moved.list list = frame.list list := by
      intro list _ _; cases list <;> trivial)
    (names : moved.nodeOwnerKeys = frame.nodeOwnerKeys := by rfl)
    (info : ∀ producer, (update producer).info = producer.info := by intro; rfl)
    (state : ∀ producer, (update producer).state = status := by intro; rfl) :
    Shifts frame moved key position source target status where
  lookup list other := by
    by_cases isTarget : list = target
    · subst isTarget
      rw [inserted, GoMap.lookup_insert_eq]
      simp [Ne.symm apart]
    by_cases isSource : list = source
    · subst isSource
      rw [erased, GoMap.lookup_erase_eq]
      simp [isTarget]
    · rw [others list isTarget isSource]
      simp [isTarget, isSource]
  names := names
  face other := by
    rw [face, frame.face_updateProducer_state position other status info state]

theorem Shifts.keeps {first second third fourth : StateKeyFrame} {key : Bytes}
    {position : Nat} {source target : ProducerList} {status : ProducerState}
    (before : KeepsFiling first second) (shifts : Shifts second third key position source target status)
    (after : KeepsFiling third fourth) : Shifts first fourth key position source target status where
  lookup list other := by rw [after.list, shifts.lookup, before.list]
  names := by rw [after.names, shifts.names, before.names]
  face other := by rw [after.face, shifts.face, before.face]

theorem updateProducer_keepsFiling (frame : StateKeyFrame) (position : Nat)
    {update : Producer → Producer} (info : ∀ producer, (update producer).info = producer.info)
    (state : ∀ producer, (update producer).state = producer.state) :
    KeepsFiling frame (frame.updateProducer position update) where
  list list := by cases list <;> rfl
  names := rfl
  face other := frame.face_updateProducer_same position other info state

namespace StateKeyFrame.Filed
variable {frame after : StateKeyFrame} {key other : Bytes} {list source target list' : ProducerList}
  {position place : Nat} {status : ProducerState} (filed : frame.Filed key list position)

include filed

theorem key_eq (filed' : frame.Filed other list' position) : key = other := by
  obtain ⟨info, _, found, rfl, _⟩ := filed.face
  obtain ⟨info', _, found', rfl, _⟩ := filed'.face
  rw [found, Option.some.injEq, Prod.mk.injEq] at found'
  rw [found'.1]

theorem list_eq
    (found : (frame.list list').lookup key = some place) : list' = list ∧ place = position := by
  by_cases same : list' = list
  · subst same
    rw [filed.here, Option.some.injEq] at found
    exact ⟨rfl, found.symm⟩
  · rw [filed.only list' same] at found
    cases found

theorem keep (keeps : KeepsFiling frame after) :
    after.Filed key list position where
  here := by rw [keeps.list, filed.here]
  only other different := by rw [keeps.list, filed.only other different]
  face := by rw [keeps.face]; exact filed.face

theorem shift_other (shifts : Shifts frame after other place source target status) (notKey : key ≠ other)
    (notPlace : position ≠ place) :
    after.Filed key list position where
  here := by simp [shifts.lookup, notKey, filed.here]
  only list different := by simp [shifts.lookup, notKey, filed.only list different]
  face := by simpa [shifts.face, notPlace] using filed.face

theorem shift (shifts : Shifts frame after key position source target status)
    (holds : target.Holds status)
    (fits : list = source ∨ list = target) : after.Filed key target position where
  here := by simp [shifts.lookup]
  only other different := by
    rw [shifts.lookup, if_neg (by simp [different])]
    split
    · rfl
    rename_i notSource
    refine filed.only other ?_
    rintro rfl
    rcases fits with rfl | rfl
    · exact notSource ⟨rfl, rfl⟩
    · exact different rfl
  face := by
    obtain ⟨info, state, found, owner, _⟩ := filed.face
    exact ⟨info, status, by simp [shifts.face, found], owner, holds⟩

end StateKeyFrame.Filed

section Partitioned
variable {frame : StateKeyFrame} {key : Bytes} {position : Nat}

theorem StateKeyFrame.Partitioned.homed (partitioned : frame.Partitioned) : frame.Homed where
  cell := by
    rintro key position ⟨list, found⟩
    obtain ⟨info, state, face, owner, _⟩ := (partitioned.filed key list position found).face
    obtain ⟨producer, cell, same⟩ := Option.map_eq_some_iff.1 face
    cases same
    exact ⟨producer, cell, owner⟩
  unique := by
    rintro key position place ⟨list, found⟩ ⟨list', found'⟩
    exact ((partitioned.filed key list' place found').list_eq found).2
  named node key found := by
    obtain ⟨list, position, located⟩ := partitioned.named node key found
    exact ⟨position, list, located⟩

theorem StateKeyFrame.Homed.position_lt (homed : frame.Homed)
    (located : Located frame key position) : position < frame.producers.length := by
  obtain ⟨producer, cell, _⟩ := homed.cell key position located
  exact (List.getElem?_eq_some_iff.1 cell).1

theorem StateKeyFrame.Homed.key_eq {other : Bytes} (homed : frame.Homed)
    (located : Located frame key position) (located' : Located frame other position) : key = other := by
  obtain ⟨producer, cell, rfl⟩ := homed.cell key position located
  obtain ⟨producer', cell', rfl⟩ := homed.cell other position located'
  rw [cell, Option.some.injEq] at cell'
  rw [cell']

end Partitioned

variable {frame : StateKeyFrame} {key : Bytes}

theorem Located.not_fresh {position : Nat} (located : Located frame key position)
    (fresh : ∀ list, (frame.list list).lookup key = none) : False := by
  obtain ⟨list, found⟩ := located
  rw [fresh list] at found
  cases found

/-- An owner key that is not the node key of another producer leads to itself. -/
theorem getProducerKey_of_own (own : ∀ owner, frame.nodeOwnerKeys.lookup key = some owner → owner = key) :
    frame.getProducerKey key = key := by
  unfold getProducerKey
  cases diverted : frame.nodeOwnerKeys.lookup key with
  | none => rfl
  | some owner => exact own owner diverted

theorem getProducerByOwnerPublicKey_located {position : Nat}
    (found : frame.getProducerByOwnerPublicKey key = some position) : Located frame key position := by
  simp only [getProducerByOwnerPublicKey, Option.or_eq_some_iff] at found
  rcases found with active | ⟨_, canceled | ⟨_, illegal | ⟨_, pending | ⟨_, inactive⟩⟩⟩⟩
  · exact ⟨.activity, active⟩
  · exact ⟨.canceled, canceled⟩
  · exact ⟨.illegal, illegal⟩
  · exact ⟨.pending, pending⟩
  · exact ⟨.inactive, inactive⟩

theorem getProducerByOwnerPublicKey_eq_none (absent : frame.getProducerByOwnerPublicKey key = none)
    (list : ProducerList) : (frame.list list).lookup key = none := by
  simp only [getProducerByOwnerPublicKey, Option.or_eq_none_iff] at absent
  obtain ⟨active, canceled, illegal, pending, inactive⟩ := absent
  cases list with
  | pending => exact pending
  | activity => exact active
  | inactive => exact inactive
  | canceled => exact canceled
  | illegal => exact illegal

/-- The search finds the cell of a key that has only one. -/
theorem getProducerByOwnerPublicKey_of_unique {position : Nat} (located : Located frame key position)
    (unique : ∀ place, Located frame key place → place = position) :
    frame.getProducerByOwnerPublicKey key = some position := by
  cases found : frame.getProducerByOwnerPublicKey key with
  | none => exact (located.not_fresh (getProducerByOwnerPublicKey_eq_none found)).elim
  | some place => rw [unique place (getProducerByOwnerPublicKey_located found)]

theorem StateKeyFrame.Homed.getProducerByOwnerPublicKey {frame : StateKeyFrame}
    (homed : frame.Homed) {key : Bytes} {position : Nat} (located : Located frame key position) :
    frame.getProducerByOwnerPublicKey key = some position :=
  getProducerByOwnerPublicKey_of_unique located fun place other =>
    homed.unique key place position other located

theorem StateKeyFrame.Filed.getProducerByOwnerPublicKey {list : ProducerList} {position : Nat}
    (filed : frame.Filed key list position) : frame.getProducerByOwnerPublicKey key = some position :=
  getProducerByOwnerPublicKey_of_unique ⟨list, filed.here⟩ fun _ ⟨_, found⟩ =>
    (filed.list_eq found).2

namespace State
variable {params : Params} {height : UInt32} {key : Bytes} {position : Nat}
  (frame : StateKeyFrame)

theorem cancel_shifts (isPending : Bool) :
    Shifts frame ((cancel key position isPending height).execute frame) key position
      (if isPending then .pending else .activity) .canceled .canceled := by
  cases isPending with
  | true | false => exact shifts_of_moved _ fun _ => rfl

theorem punishActive_shifts : Shifts frame ((punishActive key position height).execute frame) key position .activity
      .illegal .illegal :=
  shifts_of_moved _ fun _ => rfl

theorem punishCanceled_shifts : Shifts frame ((punishCanceled key position height).execute frame) key position .canceled
      .illegal .illegal :=
  shifts_of_moved _ fun _ => rfl

theorem setInactiveProducer_shifts (params : Params) (height : UInt32) (emergency : Bool) :
    Shifts frame (setInactiveProducer params key position height emergency frame) key position
      .activity .inactive .inactive :=
  shifts_of_moved _ fun _ => rfl

theorem emergencyInactive_shifts :
    Shifts frame ((emergencyInactive params key position height).execute frame) key position
      .activity .inactive .inactive := by
  have shifts : Shifts frame (setInactiveProducer params key position height true frame) key
      position .activity .inactive .inactive := setInactiveProducer_shifts frame params height true
  exact ⟨shifts.lookup, rfl, shifts.face⟩

theorem activateFrom_shifts {source : ProducerList} (apart : source ≠ .activity) (previous : ProducerState) :
    Shifts frame ((activateFrom source previous key position).execute frame) key position source .activity .active := by
  cases source with
  | activity => exact absurd rfl apart
  | _ => exact shifts_of_moved (fun producer => { producer with state := .active }) fun _ => rfl

end State

end Elastos.Dpos
