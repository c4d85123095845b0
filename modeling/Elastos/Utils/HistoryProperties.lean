import Elastos.Utils.History

/-! Rollback of a history that was filled round by round: the changes of one
height are appended, then committed. `RollbackTo` walks the heights backwards
but runs the rollback functions of one height in the order in which they were
appended, so it is exact when these functions commute. -/
set_option autoImplicit false
namespace Elastos.Utils
open Go List HeightChanges
universe u
variable {σ : Type u}

@[simp] theorem rollbackAll_nil (state : σ) : rollbackAll ([] : List (Change σ)) state = state := rfl

@[simp] theorem rollbackAll_append (left right : List (Change σ)) (state : σ) :
    rollbackAll (left ++ right) state = rollbackAll right (rollbackAll left state) :=
  foldl_append

namespace HeightChanges
variable (entry : HeightChanges σ) (rest : List (HeightChanges σ)) (state : σ)

@[simp] theorem commitEach_nil : commitEach ([] : List (HeightChanges σ)) state = state := rfl

@[simp] theorem commitEach_cons : commitEach (entry :: rest) state = commitEach rest (entry.commit state) :=
  rfl

@[simp] theorem commitEach_append (left right : List (HeightChanges σ)) (state : σ) :
    commitEach (left ++ right) state = commitEach right (commitEach left state) :=
  foldl_append

@[simp] theorem rollbackEach_nil : rollbackEach ([] : List (HeightChanges σ)) state = state := rfl

@[simp] theorem rollbackEach_cons : rollbackEach (entry :: rest) state = entry.rollback (rollbackEach rest state) :=
  rfl

variable (entry : HeightChanges σ) (state : σ)

/-- Undo the changes of one height in reverse order of their execution. -/
def rollbackReversed : σ :=
  rollbackAll entry.changes.reverse state

/-- The order in which the rollback functions run after a commit on `state`
makes no difference. -/
def OrderIrrelevant : Prop :=
  entry.rollback (entry.commit state) = entry.rollbackReversed (entry.commit state)

end HeightChanges

/-- Each rollback function undoes its execute function in the state in which
that execute function runs. -/
def Undoes : List (Change σ) → σ → Prop
  | [], _ => True
  | change :: rest, state =>
    change.rollback (change.execute state) = state ∧ Undoes rest (change.execute state)

theorem rollbackAll_reverse_executeAll (changes : List (Change σ)) (state : σ)
    (undoes : Undoes changes state) : rollbackAll changes.reverse (executeAll changes state) = state := by
  induction changes generalizing state with
  | nil => rfl
  | cons change rest ih =>
    rw [reverse_cons, rollbackAll_append, executeAll_cons, ih _ undoes.2]
    exact undoes.1

/-- The rollback functions of the changes commute. -/
def Commuting (changes : List (Change σ)) : Prop :=
  ∀ first ∈ changes, ∀ second ∈ changes, ∀ state,
    second.rollback (first.rollback state) = first.rollback (second.rollback state)

theorem commuting_singleton (change : Change σ) : Commuting [change] := by
  simp [Commuting]

theorem Commuting.orderIrrelevant {entry : HeightChanges σ} (commuting : Commuting entry.changes) (state : σ) :
    entry.OrderIrrelevant state := by
  have sameFold := @Perm.foldl_eq' _ _ (fun current change => Change.rollback change current) _ _
    (reverse_perm entry.changes)
  exact (sameFold (by simpa [Commuting] using commuting) (entry.commit state)).symm

/-- `Undoes` at every round of a run. -/
def RoundsUndo : List (HeightChanges σ) → σ → Prop
  | [], _ => True
  | entry :: rest, state =>
    Undoes entry.changes state ∧ RoundsUndo rest (entry.commit state)

private theorem roundsUndo_append (before after : List (HeightChanges σ))
    (state : σ) (undoes : RoundsUndo (before ++ after) state) :
    RoundsUndo after (commitEach before state) := by
  induction before generalizing state with
  | nil => exact undoes
  | cons entry rest ih => exact ih _ undoes.2

/-- Undoing in reverse order restores the state before a committed round. -/
theorem RoundsUndo.rollbackReversed_commit {before after : List (HeightChanges σ)}
    {entry : HeightChanges σ} {state : σ} (undoes : RoundsUndo (before ++ entry :: after) state) :
    entry.rollbackReversed (entry.commit (commitEach before state)) = commitEach before state :=
  rollbackAll_reverse_executeAll _ _ (roundsUndo_append before _ state undoes).1

theorem RoundsUndo.rollback_commit {before after : List (HeightChanges σ)} {entry : HeightChanges σ} {state : σ}
    (undoes : RoundsUndo (before ++ entry :: after) state) (commuting : Commuting entry.changes) :
    entry.rollback (entry.commit (commitEach before state)) = commitEach before state :=
  (commuting.orderIrrelevant _).trans undoes.rollbackReversed_commit

inductive Call (σ : Type u) where
  | append (height : UInt32) (change : Change σ)
  | commit (height : UInt32)

def Call.apply (call : Call σ) (current : History σ × σ) : Outcome String (History σ × σ) :=
  match call with
  | .append height change => current.1.append height change current.2
  | .commit height => current.1.commit height current.2

def runCalls : List (Call σ) → History σ × σ → Outcome String (History σ × σ)
  | [], current => .ok current
  | call :: rest, current => call.apply current >>= runCalls rest

theorem runCalls_append (left right : List (Call σ)) (current : History σ × σ) :
    runCalls (left ++ right) current = runCalls left current >>= runCalls right := by
  induction left generalizing current with
  | nil => rfl
  | cons call rest ih =>
    simp only [cons_append, runCalls]
    cases call.apply current with
    | error fault => rfl
    | ok next => exact ih next

/-- Calls of `Append` and `Commit` at strictly increasing non-zero heights:
complete rounds, then possibly a round that is not committed yet. -/
structure Script (σ : Type u) where
  rounds : List (HeightChanges σ)
  pending : Option (HeightChanges σ)
  ordered : ((rounds ++ pending.toList).map (·.height)).Pairwise (· < ·)
  nonzero : ∀ entry ∈ rounds ++ pending.toList, entry.height ≠ 0

namespace Script

def appendCalls (entry : HeightChanges σ) : List (Call σ) :=
  entry.changes.map (Call.append entry.height)

def roundCalls (entry : HeightChanges σ) : List (Call σ) :=
  appendCalls entry ++ [.commit entry.height]

variable (script : Script σ)

def calls : List (Call σ) :=
  script.rounds.flatMap roundCalls ++ script.pending.toList.flatMap appendCalls

def run (capacity : Int) (initial : σ) : Outcome String (History σ × σ) := do
  let history ← newHistory capacity
  runCalls script.calls (history, initial)

/-- The state right after the last commit at or below a height. -/
def stateAt (initial : σ) (height : UInt32) : σ :=
  commitEach
    (script.rounds.takeWhile fun entry => entry.height ≤ height) initial

/-- `RollbackTo` restores the state of every height from the one before the
oldest retained entry on. -/
def RollbackExact (capacity : Int) (initial : σ) : Prop :=
  ∃ history state, script.run capacity initial = .ok (history, state) ∧ ∀ height : UInt32,
      (∀ oldest ∈ history.changes.head?, oldest.height.toNat ≤ height.toNat + 1) →
      (history.rollbackTo height state).2 = script.stateAt initial height

end Script

/-- A history that has committed some rounds, of which it retains the newest. -/
def settled (capacity : Nat) (rounds : List (HeightChanges σ)) (temp : List (Change σ)) : History σ where
  capacity := capacity
  height := (rounds.getLast?.map (·.height)).getD 0
  changes := rounds.drop (rounds.length - capacity)
  cachedChanges := none
  tempChanges := temp
  seekHeight := (rounds.getLast?.map (·.height)).getD 0

namespace History
variable {history : History σ} {height : UInt32} {capacity : Nat} {rounds : List (HeightChanges σ)}
  {entry : HeightChanges σ} {added : List (Change σ)}

theorem append_cached (nonzero : height ≠ 0) (cache : history.cacheFor height = .ok ⟨height, added⟩)
    (change : Change σ) (state : σ) : history.append height change state =
      .ok ({ history with tempChanges := [], cachedChanges := some ⟨height, added ++ [change]⟩ },
        rollbackAll history.tempChanges state) := by
  simp only [append, nonzero, if_false, cache, bind, Except.bind, ne_eq, not_true_eq_false]
  rfl

section
variable (someCapacity : 0 < capacity) (sameCapacity : history.capacity = capacity)
  (retained : history.changes = rounds.drop (rounds.length - capacity))
include someCapacity sameCapacity retained

/-- A commit retains the newest rounds that leave room for one more. -/
theorem makeRoom_retained :
    history.makeRoom = .ok (rounds.drop (rounds.length + 1 - capacity)) := by
  unfold makeRoom
  simp only [sameCapacity, retained, length_drop]
  split
  · rename_i full
    have enough : capacity ≤ rounds.length := by omega
    cases kept : rounds.drop (rounds.length - capacity) with
    | nil =>
      have := congrArg List.length kept
      simp only [length_drop, length_nil] at this
      omega
    | cons entry rest =>
      have tail : rest = (rounds.drop (rounds.length - capacity)).tail := by
        rw [kept, tail_cons]
      have count : rounds.length - capacity + 1 = rounds.length + 1 - capacity := by omega
      rw [tail, tail_drop, count]
  · rename_i notFull
    have none : rounds.length - capacity = 0 := by omega
    have stillNone : rounds.length + 1 - capacity = 0 := by omega
    rw [none, stillNone]

theorem commit_retained (noTemp : history.tempChanges = [])
    (content : history.cachedChanges.getD ⟨height, []⟩ = entry) (state : σ) : history.commit height state =
      .ok ({ history with
          height
          seekHeight := height
          changes := (rounds ++ [entry]).drop ((rounds ++ [entry]).length - capacity)
          cachedChanges := none },
        entry.commit (commitEach (history.newest (history.height - history.seekHeight).toNat) state)) := by
  have room := makeRoom_retained someCapacity sameCapacity retained
  have kept : (rounds ++ [entry]).drop (rounds.length + 1 - capacity) =
      rounds.drop (rounds.length + 1 - capacity) ++ [entry] :=
    drop_append_of_le_length (by omega)
  rw [length_append, length_singleton, kept]
  simp only [commit, noTemp, isEmpty_nil, if_true, room, bind, Except.bind, content]

end

end History

namespace Script

theorem runCalls_appends_cached {history : History σ} {height : UInt32}
    {added : List (Change σ)} (waiting : List (Change σ)) (state : σ)
    (nonzero : height ≠ 0) (noTemp : history.tempChanges = []) (cached : history.cachedChanges = some ⟨height, added⟩) :
    runCalls (waiting.map (Call.append height)) (history, state) =
      .ok ({ history with cachedChanges := some ⟨height, added ++ waiting⟩ }, state) := by
  induction waiting generalizing history added with
  | nil =>
    rw [append_nil, ← cached]
    rfl
  | cons change rest ih =>
    have cache : history.cacheFor height = .ok ⟨height, added⟩ := by rw [History.cacheFor, cached]
    have step := history.append_cached nonzero cache change state
    simp only [map_cons, runCalls, Call.apply]
    rw [step]
    have later := @ih { history with tempChanges := [], cachedChanges := some ⟨height, added ++ [change]⟩ }
      (added ++ [change]) rfl rfl
    simpa [bind, Except.bind, noTemp] using later

section Settled
variable {capacity : Nat} {rounds : List (HeightChanges σ)} {temp : List (Change σ)}
  {entry : HeightChanges σ} {state : σ}

theorem settled_height_le (above : ∀ earlier ∈ rounds, earlier.height ≤ entry.height) :
    (settled capacity rounds temp).height ≤ entry.height := by
  cases last : rounds.getLast? with
  | none => simp [settled, last]
  | some earlier =>
    have smaller := above earlier (mem_of_getLast? last)
    simpa [settled, last] using smaller

/-- The first change of a block takes the temporary changes back. -/
theorem appendCalls_settled (nonzero : entry.height ≠ 0) (above : ∀ earlier ∈ rounds, earlier.height ≤ entry.height)
    (someChange : temp ≠ [] → entry.changes ≠ []) : ∃ cached : Option (HeightChanges σ),
      cached.getD ⟨entry.height, []⟩ = entry ∧ runCalls (appendCalls entry) (settled capacity rounds temp, state) =
        .ok ({ settled capacity rounds [] with cachedChanges := cached }, rollbackAll temp state) := by
  obtain ⟨height, changes⟩ := entry
  cases changes with
  | nil =>
    have noTemp : temp = [] := by
      by_contra waiting
      exact someChange waiting rfl
    subst noTemp
    exact ⟨none, rfl, rfl⟩
  | cons change rest =>
    have notBelow : ¬ height < (settled capacity rounds temp).height := UInt32.not_lt.2 (settled_height_le above)
    have cache : (settled capacity rounds temp).cacheFor height = .ok ⟨height, []⟩ := by
      unfold History.cacheFor
      simp only [notBelow, and_false, if_false]
      rfl
    have first := History.append_cached nonzero cache change state
    refine ⟨some ⟨height, change :: rest⟩, rfl, ?_⟩
    simp only [appendCalls, map_cons, runCalls, Call.apply]
    rw [first]
    exact @runCalls_appends_cached _ { settled capacity rounds [] with
      cachedChanges := some ⟨height, [change]⟩ } height [change] rest _ nonzero rfl rfl

theorem roundCalls_settled (someCapacity : 0 < capacity) (nonzero : entry.height ≠ 0)
    (above : ∀ earlier ∈ rounds, earlier.height ≤ entry.height) (someChange : temp ≠ [] → entry.changes ≠ []) :
    runCalls (roundCalls entry) (settled capacity rounds temp, state) =
      .ok (settled capacity (rounds ++ [entry]) [], entry.commit (rollbackAll temp state)) := by
  obtain ⟨cached, content, appended⟩ : ∃ cached, _ ∧ runCalls _ (settled capacity rounds temp, state) = _ :=
    appendCalls_settled nonzero above someChange
  rw [roundCalls, runCalls_append, appended]
  change (Call.commit entry.height).apply _ >>= _ = _
  have committed := @History.commit_retained _ { settled capacity rounds [] with cachedChanges := cached }
    entry.height _ _ _ someCapacity rfl rfl rfl content (rollbackAll temp state)
  rw [Call.apply, committed]
  simp [settled, History.newest, bind, Except.bind, runCalls]

end Settled

variable (before : List (HeightChanges σ)) (script : Script σ) (capacity : Nat) (initial : σ)
  (cached : Option (HeightChanges σ)) (height : UInt32) (rounds kept undone : List (HeightChanges σ))

private def recorded (rounds : List (HeightChanges σ)) (cached : Option (HeightChanges σ)) : History σ :=
  { settled capacity rounds [] with cachedChanges := cached }

private theorem runCalls_rounds (earlier rounds : List (HeightChanges σ)) (state : σ)
    (ordered : ((earlier ++ rounds).map (·.height)).Pairwise (· ≤ ·))
    (nonzero : ∀ entry ∈ rounds, entry.height ≠ 0) (room : rounds ≠ [] → 0 < capacity) :
    runCalls (rounds.flatMap roundCalls) (settled capacity earlier [], state) =
      .ok (settled capacity (earlier ++ rounds) [], commitEach rounds state) := by
  induction rounds generalizing earlier state with
  | nil => simp [runCalls]
  | cons entry rest ih =>
    have above : ∀ previous ∈ earlier, previous.height ≤ entry.height := by
      intro previous member
      simp only [map_append, map_cons, pairwise_append] at ordered
      exact ordered.2.2 _ (mem_map_of_mem member) _ (by simp)
    have some := room (by simp)
    have step : runCalls _ (settled capacity earlier [], state) = _ :=
      roundCalls_settled some (nonzero entry (by simp)) above (by simp)
    have split : earlier ++ entry :: rest = (earlier ++ [entry]) ++ rest := by simp
    rw [flatMap_cons, runCalls_append, step]
    rw [split] at ordered ⊢
    exact ih (earlier ++ [entry]) (entry.commit state) ordered
      (fun later member => nonzero later (mem_cons_of_mem _ member)) fun _ => some

private theorem newHistory_settled : (newHistory capacity : Outcome String (History σ)) = .ok
    (settled capacity [] []) := by
  simp [newHistory, settled]

private theorem run_eq_recorded (room : script.rounds ≠ [] → 0 < capacity) :
    ∃ cached, script.run capacity initial = .ok (recorded capacity script.rounds cached,
        commitEach script.rounds initial) := by
  have ordered := script.ordered
  rw [map_append, pairwise_append] at ordered
  have committed := runCalls_rounds capacity [] script.rounds initial
    (ordered.1.imp UInt32.le_of_lt) (fun entry member => script.nonzero entry (mem_append_left _ member)) room
  rw [run, newHistory_settled]
  change ∃ cached, runCalls script.calls (settled capacity [] [], initial) = _
  rw [calls, runCalls_append, committed]
  cases waiting : script.pending with
  | none => exact ⟨none, by simp [recorded, settled, runCalls, bind, Except.bind]⟩
  | some entry =>
    have nonzero := script.nonzero entry (by simp [waiting])
    have above : ∀ earlier ∈ script.rounds, earlier.height ≤ entry.height := by
      intro earlier member
      exact UInt32.le_of_lt (ordered.2.2 _ (mem_map_of_mem member) _ (by simp [waiting]))
    obtain ⟨cached, -, appended⟩ : ∃ cached, _ ∧ runCalls _ (settled capacity script.rounds [],
        commitEach script.rounds initial) = _ := appendCalls_settled nonzero above (by simp)
    exact ⟨cached, by simpa [recorded, bind, Except.bind] using appended⟩

section
variable {height : UInt32} {kept undone : List (HeightChanges σ)} (above : ∀ entry ∈ undone, height < entry.height)
include above

private theorem foldr_rollbackEntry (below : ∀ entry ∈ kept, entry.height ≤ height) (state : σ) :
    (kept ++ undone).foldr (History.rollbackEntry height) ([], state) = (kept, rollbackEach undone state) := by
  have cut : undone.foldr (History.rollbackEntry height) ([], state) = ([], rollbackEach undone state) := by
    induction undone with
    | nil => rfl
    | cons entry rest ih =>
      rw [foldr_cons, ih fun later member =>
        above later (mem_cons_of_mem _ member)]
      simp [History.rollbackEntry, above entry (by simp)]
  rw [foldr_append, cut]
  induction kept with
  | nil => rfl
  | cons entry rest ih =>
    rw [foldr_cons, ih fun later member =>
      below later (mem_cons_of_mem _ member)]
    simp [History.rollbackEntry, UInt32.not_lt.2 (below entry (by simp))]

/-- Only the entries that are still there matter. -/
private theorem rollbackTo_recorded (cached : Option (HeightChanges σ)) (state : σ)
    (below : ∀ entry ∈ kept.drop ((kept ++ undone).length - capacity), entry.height ≤ height)
    (retained : undone.length ≤ capacity) :
    ((recorded capacity (kept ++ undone) cached).rollbackTo height state).2 = rollbackEach undone state := by
  by_cases reached : (recorded capacity (kept ++ undone) cached).height ≤ height
  · have nothing : undone = [] := by
      rcases eq_nil_or_concat' undone with empty | ⟨rest, entry, rfl⟩
      · exact empty
      have last := above entry (by simp)
      have same : (recorded capacity (kept ++ (rest ++ [entry])) cached).height = entry.height := by
        simp [recorded, settled, ← append_assoc]
      exact absurd (same ▸ reached) (UInt32.not_le.2 last)
    subst nothing
    rw [History.rollbackTo, if_pos reached]
    rfl
  · have changes : (recorded capacity (kept ++ undone) cached).changes =
        kept.drop ((kept ++ undone).length - capacity) ++ undone :=
      drop_append_of_le_length (by rw [length_append]; omega)
    rw [History.rollbackTo, if_neg reached, changes]
    simp only [recorded, settled, rollbackAll_nil, foldr_rollbackEntry above below]

variable (below : ∀ entry ∈ kept, entry.height ≤ height)
include below

theorem takeWhile_eq_of_split : (kept ++ undone).takeWhile (·.height ≤ height) = kept := by
  rw [takeWhile_append_of_pos (by simpa using below)]
  cases undone with
  | nil => simp
  | cons entry rest =>
    simp [UInt32.not_le.2 (above entry (by simp))]

private theorem rollbackTo_split (split : rounds = kept ++ undone) (retained : undone.length ≤ capacity) :
    ((recorded capacity rounds cached).rollbackTo height (commitEach rounds initial)).2 =
        rollbackEach undone (commitEach (kept ++ undone) initial) ∧
      commitEach (rounds.takeWhile fun entry => entry.height ≤ height) initial = commitEach kept initial := by
  rw [split, takeWhile_eq_of_split above below]
  exact ⟨rollbackTo_recorded capacity above cached _ (fun entry member => below entry (mem_of_mem_drop member))
    retained, rfl⟩

end

private theorem above_of_mem_dropWhile (ordered : (rounds.map (·.height)).Pairwise (· ≤ ·)) :
    ∀ entry ∈ rounds.dropWhile (·.height ≤ height), height < entry.height := by
  induction rounds with
  | nil => simp
  | cons entry rest ih =>
    rw [map_cons, pairwise_cons] at ordered
    by_cases low : entry.height ≤ height
    · rw [dropWhile_cons_of_pos (by simpa using low)]
      exact ih ordered.2
    rw [dropWhile_cons_of_neg (by simpa using low)]
    have high := UInt32.not_le.1 low
    intro later member
    rcases mem_cons.1 member with rfl | member
    · exact high
    · exact UInt32.lt_of_lt_of_le high (ordered.1 _ (mem_map_of_mem member))

theorem rollbackEach_commitEach (initial : σ) (exact : ∀ first entry rest, undone = first ++ entry :: rest →
      entry.rollback (entry.commit (commitEach (before ++ first) initial)) =
        commitEach (before ++ first) initial) : rollbackEach undone
        (commitEach (before ++ undone) initial) = commitEach before initial := by
  induction undone generalizing before with
  | nil => simp
  | cons entry rest ih =>
    have later := ih (before ++ [entry]) fun first current remaining split => by
      have shifted := exact (entry :: first) current remaining (by simp [split])
      simpa using shifted
    have here := exact [] entry rest rfl
    rw [rollbackEach_cons]
    have regroup : before ++ entry :: rest = before ++ [entry] ++ rest := by simp
    rw [regroup, later]
    simpa using here

private theorem heights_around (before after : List (HeightChanges σ)) (entry : HeightChanges σ)
    (split : script.rounds = before ++ entry :: after) : (∀ earlier ∈ before, earlier.height < entry.height) ∧
      (∀ later ∈ after, entry.height < later.height) ∧ entry.height ≠ 0 := by
  have ordered := script.ordered
  rw [map_append, pairwise_append, split, map_append, pairwise_append, map_cons, pairwise_cons] at ordered
  obtain ⟨⟨-, ⟨later, -⟩, earlier⟩, -⟩ := ordered
  refine ⟨?_, ?_, script.nonzero entry (by simp [split])⟩
  · intro previous member
    exact earlier _ (mem_map_of_mem member) _ (by simp)
  · intro next member
    exact later _ (mem_map_of_mem member)

/-- Exact rollback at the entry's height and at the height before it pins down
what the entry's own rollback does. -/
private theorem rollback_commit_of_exact (fits : script.rounds.length ≤ capacity)
    (exact : ∀ height : UInt32, (∀ oldest ∈ script.rounds.head?,
        oldest.height.toNat ≤ height.toNat + 1) → ((recorded capacity script.rounds cached).rollbackTo height
          (commitEach script.rounds initial)).2 =
        script.stateAt initial height) (before after : List (HeightChanges σ))
    (entry : HeightChanges σ) (split : script.rounds = before ++ entry :: after) :
    entry.rollback (entry.commit (commitEach before initial)) = commitEach before initial := by
  obtain ⟨earlier, later, nonzero⟩ := heights_around script before after entry split
  have retained : (entry :: after).length ≤ capacity := by
    rw [split, length_append] at fits
    omega
  have positive : 0 < entry.height.toNat := Nat.pos_of_ne_zero fun zero => nonzero (UInt32.toNat_inj.1 zero)
  have oldestLe : ∀ oldest ∈ script.rounds.head?, oldest.height.toNat ≤ entry.height.toNat := by
    intro oldest member
    rw [split] at member
    cases before with
    | nil => rw [← Option.some.inj member]
    | cons first rest =>
      rw [← Option.some.inj member]
      exact (UInt32.lt_iff_toNat_lt.1 (earlier first mem_cons_self)).le
  have previousHeight : (entry.height - 1).toNat = entry.height.toNat - 1 :=
    UInt32.toNat_sub_of_le _ _ (UInt32.le_iff_toNat_le.2 positive)
  have here := exact entry.height fun oldest member => by
    have := oldestLe oldest member
    omega
  have previous := exact (entry.height - 1) fun oldest member => by
    have := oldestLe oldest member
    omega
  have below : ∀ other : UInt32, other ≤ entry.height - 1 ↔ other < entry.height := by
    intro other
    rw [UInt32.le_iff_toNat_le, UInt32.lt_iff_toNat_lt, previousHeight]
    omega
  have above : ∀ other : UInt32, entry.height - 1 < other ↔ entry.height ≤ other := by
    intro other
    rw [← UInt32.not_le, below, UInt32.not_lt]
  obtain ⟨hereRun, hereState⟩ := rollbackTo_split capacity initial cached script.rounds later
    (forall_mem_append.2 ⟨fun current member => UInt32.le_of_lt (earlier current member), by simp⟩)
    (show script.rounds = before ++ [entry] ++ after by simpa using split) (Nat.le_of_succ_le retained)
  obtain ⟨previousRun, previousState⟩ := rollbackTo_split capacity initial cached script.rounds
    (forall_mem_cons.2 ⟨(above _).2 (UInt32.le_refl _),
      fun current member => (above _).2 (UInt32.le_of_lt (later current member))⟩)
    (fun current member => (below _).2 (earlier current member)) split retained
  rw [stateAt, hereRun, hereState] at here
  rw [stateAt, previousRun, previousState, rollbackEach_cons] at previous
  have regroup : before ++ entry :: after = before ++ [entry] ++ after := by simp
  rw [regroup, here] at previous
  simpa using previous

/-- The rounds at or below a height. -/
def roundsTo : List (HeightChanges σ) := rounds.takeWhile (·.height ≤ height)

/-- The rounds above it. -/
def roundsAbove : List (HeightChanges σ) := rounds.dropWhile (·.height ≤ height)

section Exact
variable {rounds} (undoes : RoundsUndo (roundsAbove height rounds) (commitEach (roundsTo height rounds) initial))
  (commuting : ∀ entry ∈ roundsAbove height rounds, Commuting entry.changes)
  (ordered : (rounds.map (·.height)).Pairwise (· ≤ ·))
include undoes commuting ordered

/-- The rounds above the height whose entries were dropped keep their effect. -/
private theorem rollbackTo_dropped : ((recorded capacity rounds cached).rollbackTo height
      (commitEach rounds initial)).2 = commitEach ((roundsAbove height rounds).take
        ((roundsAbove height rounds).length - capacity)) (commitEach (roundsTo height rounds) initial) := by
  have whole : rounds = roundsTo height rounds ++ roundsAbove height rounds := takeWhile_append_dropWhile.symm
  have above : ∀ entry ∈ roundsAbove height rounds, _ := above_of_mem_dropWhile height rounds ordered
  have below : ∀ entry ∈ roundsTo height rounds, entry.height ≤ height := by
    intro entry member
    simpa using mem_takeWhile_imp member
  generalize roundsTo height rounds = kept, roundsAbove height rounds = undone at *
  subst whole
  have parts := take_append_drop (undone.length - capacity) undone
  have count : (undone.drop (undone.length - capacity)).length ≤ capacity := by
    rw [length_drop]
    omega
  have lost : (undone.take (undone.length - capacity)).length = undone.length - capacity := by
    rw [length_take]
    omega
  generalize undone.take (undone.length - capacity) = dropped, undone.drop (undone.length - capacity) = retained at *
  subst parts
  -- Either nothing was dropped, or everything up to the dropped rounds was.
  have stillThere : ∀ entry ∈ (kept ++ dropped).drop ((kept ++ dropped ++ retained).length - capacity),
      entry.height ≤ height := by
    intro entry member
    rcases Nat.eq_zero_or_pos dropped.length with none | some
    · rw [length_eq_zero_iff.1 none, append_nil] at member
      exact below entry (mem_of_mem_drop member)
    · rw [drop_eq_nil_of_le (by simp only [length_append] at lost ⊢; omega)] at member
      exact absurd member not_mem_nil
  have run := rollbackTo_recorded capacity (fun entry member => above entry (mem_append_right _ member)) cached
    (commitEach (kept ++ dropped ++ retained) initial) stillThere count
  rw [append_assoc] at run
  rw [run, commitEach_append]
  refine rollbackEach_commitEach dropped retained _ fun first entry rest split => ?_
  rw [split, ← append_assoc] at undoes commuting
  exact undoes.rollback_commit (commuting entry (by simp))

/-- A rollback is exact if and only if the rounds above the target height that were dropped
at capacity left the state as it was, in particular if there are none. -/
theorem rollbackTo_exact_iff (nonzero : ∀ entry ∈ rounds, entry.height ≠ 0) (room : 0 < capacity) :
    ∃ history state, (newHistory capacity >>= fun fresh => runCalls (rounds.flatMap roundCalls) (fresh, initial)) =
        .ok (history, state) ∧
      ((history.rollbackTo height state).2 = commitEach (roundsTo height rounds) initial ↔
        commitEach ((roundsAbove height rounds).take ((roundsAbove height rounds).length - capacity))
          (commitEach (roundsTo height rounds) initial) = commitEach (roundsTo height rounds) initial) := by
  rw [newHistory_settled]
  refine ⟨_, _, runCalls_rounds capacity [] rounds initial ordered nonzero fun _ => room, ?_⟩
  have rolled := rollbackTo_dropped capacity initial none height undoes commuting ordered
  exact Eq.congr_left rolled

end Exact

/-- For a run whose rollback functions undo their execute functions, `RollbackTo`
is exact if the rollback functions of each height commute. At a height of two changes
they must commute on the state after its commit. -/
theorem rollbackExact_commuting (script : Script σ) (capacity : Int)
    (initial : σ) (fits : (script.rounds.length : Int) ≤ capacity) (undoes : RoundsUndo script.rounds initial) :
    ((∀ entry ∈ script.rounds, Commuting entry.changes) → script.RollbackExact capacity initial) ∧
      (script.RollbackExact capacity initial → ∀ before entry after first second,
        script.rounds = before ++ entry :: after → entry.changes = [first, second] →
        second.rollback (first.rollback (entry.commit (commitEach before initial))) =
          first.rollback (second.rollback (entry.commit (commitEach before initial)))) := by
  obtain ⟨capacity, rfl⟩ := Int.eq_ofNat_of_zero_le (Int.le_trans (Int.natCast_nonneg _) fits)
  replace fits := Int.ofNat_le.1 fits
  obtain ⟨cached, ran⟩ := run_eq_recorded script capacity initial fun some => (length_pos_iff.2 some).trans_le fits
  constructor
  · intro commuting
    refine ⟨_, _, ran, fun height _ => ?_⟩
    have ordered := script.ordered
    rw [map_append, pairwise_append] at ordered
    have whole : roundsTo height script.rounds ++ roundsAbove height script.rounds = script.rounds :=
      takeWhile_append_dropWhile
    have fewer := congrArg List.length whole
    rw [length_append] at fewer
    rw [← whole] at undoes
    have rolled := rollbackTo_dropped capacity initial cached height (roundsUndo_append _ _ initial undoes)
      (fun entry member => commuting entry (whole ▸ mem_append_right _ member)) (ordered.1.imp UInt32.le_of_lt)
    rw [rolled, Nat.sub_eq_zero_of_le (by omega), take_zero, commitEach_nil]
    rfl
  · rintro ⟨history, state, result, exact⟩ before entry after first second split pair
    rw [ran] at result
    cases result
    rw [show (recorded capacity script.rounds cached).changes = script.rounds by
      simp [recorded, settled, Nat.sub_eq_zero_of_le fits]] at exact
    have restored := rollback_commit_of_exact script capacity initial cached fits exact before after entry split
    rw [split] at undoes
    have sameState := restored.trans undoes.rollbackReversed_commit.symm
    simpa [rollbackReversed, HeightChanges.rollback, pair, rollbackAll] using sameState

/-- Two changes at height 1 that add to a counter, and one at height 3. -/
def additions : Script Nat where
  rounds := [⟨1, [⟨(· + 5), (· - 5)⟩, ⟨(· + 2), (· - 2)⟩]⟩, ⟨3, [⟨(· + 7), (· - 7)⟩]⟩]
  pending := none
  ordered := by decide
  nonzero := by decide

theorem additions_undo : RoundsUndo additions.rounds 0 := ⟨⟨rfl, rfl, trivial⟩, ⟨rfl, trivial⟩, trivial⟩

theorem additions_commute : ∀ entry ∈ additions.rounds, Commuting entry.changes := by
  simp [additions, Commuting, Nat.sub_right_comm]

theorem additions_rollbackExact : (additions.rounds.length : Int) ≤ 2 ∧ RoundsUndo additions.rounds 0 ∧
      (∀ entry ∈ additions.rounds, Commuting entry.changes) ∧ additions.RollbackExact 2 0 :=
  ⟨by decide, additions_undo, additions_commute,
    (rollbackExact_commuting additions 2 0 (by decide) additions_undo).1 additions_commute⟩

/-- A counter that is set twice at height 1; the second change depends on the
first. -/
def dependentWrites : Script Nat where
  rounds := [⟨1, [⟨fun _ => 1, fun _ => 0⟩, ⟨fun _ => 2, fun _ => 1⟩]⟩]
  pending := none
  ordered := by decide
  nonzero := by decide

/-- Then two changes at height 3 that commute. -/
def dependentAdditions : List (HeightChanges Nat) :=
  dependentWrites.rounds ++ [⟨3, [⟨(· + 5), (· - 5)⟩, ⟨(· + 2), (· - 2)⟩]⟩]

/-- The changes of the target height may depend on each other. -/
theorem dependentAdditions_exact : ∃ history state, (newHistory 1 >>= fun fresh => runCalls
        (dependentAdditions.flatMap roundCalls) (fresh, 0)) = .ok (history, state) ∧
      (history.rollbackTo 1 state).2 = 2 := by
  obtain ⟨history, state, ran, exact⟩ := @rollbackTo_exact_iff _ 1 0 1 dependentAdditions ⟨⟨rfl, rfl, trivial⟩, trivial⟩
    (by simp [roundsAbove, dependentAdditions, dependentWrites, Commuting, Nat.sub_right_comm])
    (by decide) (by decide) (by decide)
  exact ⟨history, state, ran, exact.2 rfl⟩

/-- A counter that is set once at each of the heights 1, 3 and 5. -/
def threeWrites : List (HeightChanges Nat) :=
  [⟨1, [⟨fun _ => 5, fun _ => 0⟩]⟩, ⟨3, [⟨fun _ => 7, fun _ => 5⟩]⟩, ⟨5, [⟨fun _ => 9, fun _ => 7⟩]⟩]

/-- The entry of height 3 is lost, so that height 1 is not restored. -/
theorem threeWrites_overfull : RoundsUndo threeWrites 0 ∧ (∀ entry ∈ threeWrites, Commuting entry.changes) ∧
    ∃ history state, (newHistory 1 >>= fun fresh => runCalls (threeWrites.flatMap roundCalls) (fresh, 0)) =
        .ok (history, state) ∧
      (history.rollbackTo 1 state).2 ≠ commitEach (roundsTo 1 threeWrites) 0 :=
  ⟨⟨⟨rfl, trivial⟩, ⟨rfl, trivial⟩, ⟨rfl, trivial⟩, trivial⟩, by simp [threeWrites, Commuting], _, _, rfl, by decide⟩

theorem dependentWrites_not_rollbackExact : (dependentWrites.rounds.length : Int) ≤ 10 ∧
      RoundsUndo dependentWrites.rounds 0 ∧ ¬ dependentWrites.RollbackExact 10 0 := by
  refine ⟨by decide, ⟨⟨rfl, rfl, trivial⟩, trivial⟩, ?_⟩
  rintro ⟨history, state, ran, exact⟩
  have recordedRun : dependentWrites.run 10 0 = .ok (_, 2) := rfl
  rw [recordedRun] at ran
  cases ran
  have bound : ∀ oldest ∈ dependentWrites.rounds.head?, oldest.height.toNat ≤ (0 : UInt32).toNat + 1 := by
    simp [dependentWrites]
  have restored := exact 0 bound
  exact absurd restored (by decide)

end Script
end Elastos.Utils
