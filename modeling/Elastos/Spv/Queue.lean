import Elastos.Common.Serialize
import Elastos.Go.Runtime

/-! The notification queue of `SPV/interface/store` and its index by height.
Keys and values are byte strings of fixed parts, so the parts stand for them. -/
set_option autoImplicit false
namespace Elastos.Spv
open Go Common List Function

/-- The notify id and the transaction id, which a key ends in. -/
abbrev QueKey := Uint256 × Uint256

/-- The four bytes of a height, alone or with the eight bytes of a time. -/
structure QueValue where
  height : UInt32
  lastNotify : Option Int64
  deriving DecidableEq

structure QueItem where
  key : QueKey
  height : UInt32
  lastNotify : Int64

/-- The buckets `BKTQue` and `BKTQueIdx`. -/
structure QueStore where
  que : GoMap QueKey QueValue
  queIdx : List (UInt32 × QueKey)

/-- What the methods do to the buckets together, either at once or in a batch. -/
inductive QueWrite where
  | put (key : QueKey) (value : QueValue)
  | delete (key : QueKey) (read : QueValue)

namespace QueStore

def getAll (store : QueStore) : List QueItem :=
  (GoMap.pairs store.que).map fun entry => ⟨entry.1, entry.2.height, entry.2.lastNotify.getD 0⟩

/-- The index key is made of the height for a put and of the whole value that
was read for a delete, which is no key of the index when it has a time. -/
def write (store : QueStore) : QueWrite → QueStore
  | .put key value => ⟨store.que.insert key value, store.queIdx.insert (value.height, key)⟩
  | .delete key ⟨height, none⟩ => ⟨store.que.erase key, store.queIdx.filter (· ≠ (height, key))⟩
  | .delete key ⟨_, some _⟩ => ⟨store.que.erase key, store.queIdx⟩

/-- Nothing is deleted when the item is not there: `Del` returns the error of the lookup. -/
def del (store : QueStore) (key : QueKey) : List QueWrite :=
  (store.que.lookup key).toList.map (.delete key)

def delAll (store : QueStore) (height : UInt32) : List QueWrite :=
  (store.queIdx.filter (·.1 = height)).map fun entry => .delete entry.2 ⟨height, none⟩

end QueStore

structure QueState where
  store : QueStore
  batches : Nat → List QueWrite

def QueState.empty : QueState := ⟨⟨∅, []⟩, fun _ => []⟩

inductive QueCall where
  | put (item : QueItem)
  | del (key : QueKey)
  | batchPut (batch : Nat) (item : QueItem)
  | batchDel (batch : Nat) (key : QueKey)
  | batchDelAll (batch : Nat) (height : UInt32)
  | commit (batch : Nat)

namespace QueCall

def written (state : QueState) : QueCall → List QueWrite
  | put item => [.put item.key ⟨item.height, some item.lastNotify⟩]
  | del key => state.store.del key
  | commit batch => state.batches batch
  | _ => []

def deferred (state : QueState) : QueCall → Nat × List QueWrite
  | batchPut batch item => (batch, [.put item.key ⟨item.height, none⟩])
  | batchDel batch key => (batch, state.store.del key)
  | batchDelAll batch height => (batch, state.store.delAll height)
  | _ => (0, [])

/-- `Commit` does not empty the batch. -/
def step (call : QueCall) (state : QueState) : QueState :=
  let (batch, writes) := call.deferred state
  { store := (call.written state).foldl QueStore.write state.store
    batches := update state.batches batch (state.batches batch ++ writes) }

end QueCall

namespace QueStore

def Indexed (store : QueStore) : Prop :=
  ∀ height key, (height, key) ∈ store.queIdx ↔ ∃ item ∈ store.getAll, item.height = height ∧ item.key = key

/-- An item that is put is not queued at another height, and one that is deleted
is stored without a time, at the height that was read. -/
def Fits (store : QueStore) : QueWrite → Prop
  | .put key value => ∀ stored ∈ store.que.lookup key, stored.height = value.height
  | .delete key read => ∀ stored ∈ store.que.lookup key, read = ⟨stored.height, none⟩

instance (store : QueStore) : DecidablePred store.Fits
  | .put .. => inferInstanceAs (Decidable (∀ stored ∈ _, _))
  | .delete .. => inferInstanceAs (Decidable (∀ stored ∈ _, _))

def FitsAll (store : QueStore) : List QueWrite → Prop
  | [] => True
  | write :: rest => store.Fits write ∧ (store.write write).FitsAll rest

instance FitsAll.decide (store : QueStore) : (writes : List QueWrite) → Decidable (store.FitsAll writes)
  | [] => .isTrue trivial
  | write :: rest =>
    haveI := FitsAll.decide (store.write write) rest
    inferInstanceAs (Decidable (_ ∧ _))

variable {store : QueStore} {writes : List QueWrite}

theorem indexed_iff : store.Indexed ↔ ∀ height key, (height, key) ∈ store.queIdx ↔
    ∃ value, store.que.lookup key = some value ∧ value.height = height := by
  have listed : ∀ height key, (∃ item ∈ store.getAll, item.height = height ∧ item.key = key) ↔
      ∃ value, store.que.lookup key = some value ∧ value.height = height := by
    intro height key
    constructor
    · rintro ⟨_, member, rfl, rfl⟩
      obtain ⟨entry, stored, rfl⟩ := mem_map.1 member
      exact ⟨entry.2, GoMap.mem_pairs_iff.1 stored, rfl⟩
    · rintro ⟨value, stored, rfl⟩
      exact ⟨_, mem_map_of_mem (GoMap.mem_pairs_iff.2 stored), rfl, rfl⟩
  simp only [Indexed, listed]

theorem Indexed.write (indexed : store.Indexed) {write : QueWrite} (fits : store.Fits write) :
    (store.write write).Indexed := by
  rw [indexed_iff] at indexed ⊢
  intro height key
  cases write with
  | put other value =>
    simp only [QueStore.write, GoMap.lookup_insert_eq, mem_insert_iff, indexed, Prod.mk.injEq]
    simp only [Fits, Option.mem_def] at fits
    grind
  | delete other read =>
    obtain ⟨readHeight, _ | time⟩ := read
    · simp only [QueStore.write, GoMap.lookup_erase_eq, mem_filter, indexed, decide_eq_true_eq, ne_eq, Prod.mk.injEq]
      simp only [Fits, Option.mem_def] at fits
      grind
    · simp only [QueStore.write, GoMap.lookup_erase_eq, indexed]
      simp only [Fits, Option.mem_def] at fits
      grind

theorem Indexed.writeAll (indexed : store.Indexed) (fits : store.FitsAll writes) :
    (writes.foldl QueStore.write store).Indexed := by
  induction writes generalizing store with
  | nil => exact indexed
  | cons write rest ih => exact ih (indexed.write fits.1) fits.2

/-- Items are queued by the other keys only, and those of the index are deleted. -/
theorem Indexed.delAll (indexed : store.Indexed) (height : UInt32) (key : QueKey) (value : QueValue) :
    ((store.delAll height).foldl QueStore.write store).que.lookup key = some value ↔
      store.que.lookup key = some value ∧ value.height ≠ height := by
  have erased : ∀ (entries : List (UInt32 × QueKey)) (store : QueStore),
      ((entries.map fun entry => .delete entry.2 ⟨height, none⟩).foldl QueStore.write store).que.lookup key =
        if key ∈ entries.map Prod.snd then none else store.que.lookup key := by
    intro entries
    induction entries with
    | nil => simp
    | cons entry rest ih =>
      intro store
      rw [map_cons, foldl_cons, ih]
      simp only [QueStore.write, GoMap.lookup_erase_eq, map_cons, mem_cons]
      grind
  rw [QueStore.delAll, erased]
  have queued := indexed_iff.1 indexed height key
  have member : key ∈ (store.queIdx.filter (·.1 = height)).map Prod.snd ↔ (height, key) ∈ store.queIdx := by simp
  grind

end QueStore

/-- The states that calls lead to whose writes fit when they reach the buckets. -/
inductive QueReached : QueState → Prop where
  | empty : QueReached .empty
  | step {state : QueState} (reached : QueReached state) (call : QueCall)
      (fits : state.store.FitsAll (call.written state)) : QueReached (call.step state)

theorem queReached_indexed {state : QueState} (reached : QueReached state) :
    state.store.Indexed ∧ ∀ height key value,
      ((state.store.delAll height).foldl QueStore.write state.store).que.lookup key = some value ↔
        state.store.que.lookup key = some value ∧ value.height ≠ height := by
  have indexed : state.store.Indexed := by
    induction reached with
    | empty => simp [QueState.empty, QueStore.Indexed, QueStore.getAll, GoMap.pairs]
    | step _ call fits ih => exact ih.writeAll fits
  exact ⟨indexed, indexed.delAll⟩

def smallItem : QueItem := ⟨(default, default), 1, 0⟩

/-- Other items by the last byte of their transaction ids. -/
def itemAt (last : UInt8) (height : UInt32) : QueItem := ⟨(default, .ofBytes 32 [last]), height, 0⟩

/-- Four items at three heights. One is deleted by its key and two by their height, in one batch. -/
def smallCalls : List QueCall :=
  [.put smallItem, .batchPut 0 (itemAt 1 1), .batchPut 0 (itemAt 2 2), .batchPut 0 (itemAt 3 3), .commit 0,
    .batchDel 1 (itemAt 2 2).key, .batchDelAll 1 1, .commit 1]

def smallState : QueState := smallCalls.foldl (fun state call => call.step state) .empty

theorem queReached_small : smallState.store.getAll.map QueItem.key = [(itemAt 3 3).key] ∧ smallState.store.Indexed ∧
    ∀ height key value, ((smallState.store.delAll height).foldl QueStore.write smallState.store).que.lookup key =
      some value ↔ smallState.store.que.lookup key = some value ∧ value.height ≠ height :=
  have put := (QueReached.empty.step (.put smallItem) (by decide)).step (.batchPut 0 (itemAt 1 1)) trivial
  have stored := ((put.step (.batchPut 0 (itemAt 2 2)) trivial).step (.batchPut 0 (itemAt 3 3)) trivial).step
    (.commit 0) (by decide +kernel)
  have deleted := ((stored.step (.batchDel 1 (itemAt 2 2).key) trivial).step (.batchDelAll 1 1) trivial).step
    (.commit 1) (by decide +kernel)
  ⟨by decide +kernel, queReached_indexed deleted⟩

/-- `Del` looks for an index key with the time in it, which is not there. -/
theorem del_unindexed : ¬ ((QueCall.del smallItem.key).step ((QueCall.put smallItem).step .empty)).store.Indexed := by
  intro indexed
  obtain ⟨item, member, _⟩ := (indexed 1 smallItem.key).1 (by decide +kernel)
  exact absurd member not_mem_nil

end Elastos.Spv
