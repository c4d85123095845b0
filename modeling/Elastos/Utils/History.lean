import Elastos.Go.Outcome

/-! The change log of `utils/history.go`. The closures of the source act on one shared state; here a
change is a pair of state transformers and every method takes and returns the tracked state. -/
set_option autoImplicit false
namespace Elastos.Utils
open Go Outcome List
universe u
variable {σ : Type u}

structure Change (σ : Type u) where
  execute : σ → σ
  rollback : σ → σ

variable (changes : List (Change σ)) (state : σ)

def executeAll : σ :=
  changes.foldl (fun current change => change.execute current) state

@[simp] theorem executeAll_nil (state : σ) : executeAll [] state = state := rfl

@[simp] theorem executeAll_cons (change : Change σ) (rest : List (Change σ)) (state : σ) :
    executeAll (change :: rest) state = executeAll rest (change.execute state) := rfl

theorem executeAll_append (left right : List (Change σ)) (state : σ) :
    executeAll (left ++ right) state = executeAll right (executeAll left state) :=
  List.foldl_append

/-- Run the rollback functions, also in the order of the list. -/
def rollbackAll : σ :=
  changes.foldl (fun current change => change.rollback current) state

structure HeightChanges (σ : Type u) where
  height : UInt32
  changes : List (Change σ)

namespace HeightChanges
variable (entry : HeightChanges σ)

def append (change : Change σ) : HeightChanges σ :=
  { entry with changes := entry.changes ++ [change] }

def commit (state : σ) : σ :=
  executeAll entry.changes state

def rollback (state : σ) : σ :=
  rollbackAll entry.changes state

variable (entries : List (HeightChanges σ)) (state : σ)

def commitEach : σ :=
  entries.foldl (fun current entry => entry.commit current) state

/-- Roll entries back from the newest to the oldest. -/
def rollbackEach : σ :=
  entries.foldr (fun entry current => entry.rollback current) state

end HeightChanges

structure History (σ : Type u) where
  capacity : Int
  height : UInt32
  changes : List (HeightChanges σ)
  cachedChanges : Option (HeightChanges σ)
  tempChanges : List (Change σ)
  seekHeight : UInt32

/-- `make` panics when the capacity is negative. -/
def newHistory (capacity : Int) : Outcome String (History σ) :=
  if capacity < 0 then
    .crash "makeslice: cap out of range"
  else
    .ok {
      capacity
      height := 0
      changes := []
      cachedChanges := none
      tempChanges := []
      seekHeight := 0 }

namespace History
variable (history : History σ) (height : UInt32)

/-- The cached entry that a change of a given height is added to. -/
def cacheFor : Outcome String (HeightChanges σ) :=
  match history.cachedChanges with
  | some entry => .ok entry
  | none =>
    if history.height ≠ 0 ∧ height < history.height then
      .crash ("state history failed, expect larger than " ++
        toString (history.height - 1) ++ " got " ++ toString height)
    else
      .ok { height, changes := [] }

def append (change : Change σ) (state : σ) : Outcome String (History σ × σ) :=
  if height = 0 then
    .ok ({ history with tempChanges := history.tempChanges ++ [change] }, state)
  else do
    let state := rollbackAll history.tempChanges state
    let entry ← history.cacheFor height
    if height ≠ entry.height then
      .crash "previous changes not committed or cleared, wrong usage"
    else
      .ok ({ history with
        tempChanges := []
        cachedChanges := some (entry.append change) }, state)

/-- The entries kept by a commit before the new one is added. Slicing off the
oldest entry of an empty list panics. -/
def makeRoom (history : History σ) : Outcome String (List (HeightChanges σ)) :=
  if history.capacity ≤ history.changes.length then
    match history.changes with
    | [] => .crash "slice bounds out of range"
    | _ :: retained => .ok retained
  else
    .ok history.changes

/-- The newest `count` entries, or none of them when there are fewer. The loops
of the source start at a negative index in the second case and do not run. -/
def newest (history : History σ) (count : Nat) : List (HeightChanges σ) :=
  if count ≤ history.changes.length then
    history.changes.drop (history.changes.length - count)
  else
    []

def commit (state : σ) : Outcome String (History σ × σ) :=
  if history.tempChanges.isEmpty then do
    let seek := (history.height - history.seekHeight).toNat
    let state := HeightChanges.commitEach (history.newest seek) state
    let retained ← history.makeRoom
    let entry := history.cachedChanges.getD { height, changes := [] }
    .ok ({ history with
      height
      seekHeight := height
      changes := retained ++ [entry]
      cachedChanges := none }, entry.commit state)
  else
    .ok (history, executeAll history.tempChanges state)

def seekTo (state : σ) : Outcome String (History σ × σ) :=
  let limitHeight := history.height - UInt32.ofNat history.changes.length
  if height < limitHeight then
    .fail ("seek to " ++ toString height ++ " overflow history capacity," ++
      " at most seek to " ++ toString limitHeight)
  else if height ≤ history.seekHeight then
    let seek := history.seekHeight.toNat - height.toNat
    if seek ≤ history.changes.length then
      .ok ({ history with seekHeight := height }, HeightChanges.rollbackEach (history.newest seek) state)
    else
      .crash "index out of range"
  else
    let seek := height.toNat - history.seekHeight.toNat
    .ok ({ history with seekHeight := height }, HeightChanges.commitEach (history.newest seek) state)

/-- One round of the loop of `RollbackTo`, which runs from the newest entry to
the oldest. Rolling an entry back also cuts off every entry after it. -/
def rollbackEntry (height : UInt32) (entry : HeightChanges σ)
    (current : List (HeightChanges σ) × σ) : List (HeightChanges σ) × σ :=
  if height < entry.height then
    ([], entry.rollback current.2)
  else
    (entry :: current.1, current.2)

/-- `RollbackTo` always returns a nil error. The seek height is left alone. -/
def rollbackTo (state : σ) : History σ × σ :=
  if history.height ≤ height then
    (history, state)
  else
    let state := rollbackAll history.tempChanges state
    let (changes, state) :=
      history.changes.foldr (rollbackEntry height) ([], state)
    ({ history with tempChanges := [], changes, height }, state)

end History

variable {σ : Type u}

theorem executeAll_invariant {invariant : σ → Prop} {changes : List (Change σ)}
    (each : ∀ change ∈ changes, ∀ state, invariant state → invariant (change.execute state))
    {state : σ} (initial : invariant state) : invariant (executeAll changes state) := by
  induction changes generalizing state with
  | nil => exact initial
  | cons head tail ih =>
    refine ih (fun change member => each change (mem_cons_of_mem _ member)) ?_
    exact each head (by simp) state initial

namespace History

/-- Nothing waits and the state is at the best height. -/
structure Idle (history : History σ) : Prop where
  atBest : history.seekHeight = history.height
  noTemp : history.tempChanges = []
  noCached : history.cachedChanges = none

/-- The changes that wait for the commit of a height. Those of height zero are the
temporary ones. -/
structure Pending (history : History σ) (height : UInt32) (changes : List (Change σ)) : Prop where
  atBest : history.seekHeight = history.height
  temp : history.tempChanges = if height = 0 then changes else []
  cached : history.cachedChanges.elim [] HeightChanges.changes =
    if height = 0 then [] else changes
  cachedHeight : ∀ entry ∈ history.cachedChanges, entry.height = height

theorem Idle.pending {history : History σ} (idle : Idle history) (height : UInt32) : Pending history height [] where
  atBest := idle.atBest
  temp := by simp [idle.noTemp]
  cached := by simp [idle.noCached]
  cachedHeight := by simp [idle.noCached]

variable {history next : History σ} {height : UInt32} {changes : List (Change σ)}
  {change : Change σ} {state result : σ}

theorem Pending.append (pending : Pending history height changes)
    (appended : history.append height change state = .ok (next, result)) :
    Pending next height (changes ++ [change]) ∧ result = state := by
  unfold History.append at appended
  split at appended
  · rename_i isTemp
    cases appended
    have temp := pending.temp
    have cached := pending.cached
    simp only [isTemp, if_true] at temp cached
    exact ⟨⟨pending.atBest, by simp [isTemp, temp], by simp [isTemp, cached], pending.cachedHeight⟩, rfl⟩
  rename_i notTemp
  have noTemp : history.tempChanges = [] := by simpa [notTemp] using pending.temp
  have cached := pending.cached
  simp only [notTemp, if_false] at cached
  simp only [noTemp, bind_eq_ok] at appended
  obtain ⟨entry, found, appended⟩ := appended
  -- The entry is the cached one, or a new one without changes.
  have entryChanges : entry.changes = changes := by
    unfold cacheFor at found
    split at found
    · rename_i isCached
      simp only [Except.ok.injEq] at found
      simpa [isCached, found] using cached
    · rename_i notCached
      split at found
      · simp at found
      · simp only [Except.ok.injEq] at found
        simpa [notCached, ← found] using cached
  split at appended
  · simp at appended
  rename_i sameHeight
  cases appended
  refine ⟨⟨pending.atBest, by simp [notTemp], ?_, ?_⟩, rfl⟩
  · simp [notTemp, HeightChanges.append, entryChanges]
  · simpa [HeightChanges.append] using (not_not.1 sameHeight).symm

/-- Committing runs the waiting changes in order. Nothing waits afterwards, unless
they were temporary. -/
theorem Pending.commit {target : UInt32} (pending : Pending history height changes)
    (committed : history.commit target state = .ok (next, result)) :
    result = executeAll changes state ∧ (height ≠ 0 → Idle next) := by
  unfold History.commit at committed
  split at committed
  · rename_i noTemp
    have noSeek : history.newest 0 = [] := by simp [newest]
    simp only [pending.atBest, UInt32.sub_self, UInt32.toNat_zero, noSeek,
      bind_eq_ok, Except.ok.injEq, Prod.mk.injEq] at committed
    obtain ⟨retained, _, rfl, rfl⟩ := committed
    have temp := pending.temp
    rw [List.isEmpty_iff.1 noTemp] at temp
    have allChanges : (history.cachedChanges.getD { height := target, changes := [] }).changes = changes := by
      have cached := pending.cached
      have same : (if height = 0 then [] else changes) = changes := by
        split
        · rename_i isTemp
          simpa [isTemp] using temp
        · rfl
      rw [same] at cached
      cases isCached : history.cachedChanges with
      | none => simpa [isCached] using cached
      | some entry => simpa [isCached] using cached
    refine ⟨?_, fun _ => ⟨rfl, by simpa using noTemp, rfl⟩⟩
    simp [HeightChanges.commit, HeightChanges.commitEach, allChanges]
  · rename_i someTemp
    cases committed
    have temp := pending.temp
    by_cases isTemp : height = 0
    · simp only [isTemp, if_true] at temp
      exact ⟨by rw [temp], fun notTemp => absurd isTemp notTemp⟩
    · simp [isTemp] at temp
      simp [temp] at someTemp

end History
end Elastos.Utils
