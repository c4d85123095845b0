import Elastos.Utils.HistoryProperties

/-! Seeking in a history whose rounds are committed at consecutive heights. `SeekTo`
counts the entries to move over from the newest one, wherever the state has been
sought to before, so it finds the right ones only on a move that starts or ends at
the best height. -/
set_option autoImplicit false
namespace Elastos.Utils
open Go HeightChanges UInt32 List
universe u
variable {σ : Type u}

/-- A call in a run at consecutive heights. -/
inductive SeekCall (σ : Type u) where
  | append (change : Change σ)
  | commit
  | seekTo (height : UInt32)

/-- What the calls of a run amount to: the committed rounds, the changes appended
since, and the height that was sought last. -/
structure Progress (σ : Type u) where
  rounds : List (HeightChanges σ)
  pending : List (Change σ)
  sought : UInt32

namespace Progress

def initial : Progress σ where
  rounds := []
  pending := []
  sought := 0

variable (progress : Progress σ)

def best : UInt32 :=
  (progress.rounds.getLast?.map (·.height)).getD 0

variable (first : UInt32) (progress : Progress σ)

/-- The height that changes are appended for. The first one is given. -/
def next : UInt32 :=
  if progress.rounds.isEmpty then first else progress.best + 1

def after : SeekCall σ → Progress σ
  | .append change => { progress with pending := progress.pending ++ [change] }
  | .commit => {
      rounds := progress.rounds ++ [⟨progress.next first, progress.pending⟩]
      pending := []
      sought := progress.next first }
  | .seekTo height => { progress with sought := height }

def afterAll (calls : List (SeekCall σ)) : Progress σ :=
  calls.foldl (after first) progress

/-- The state right after the last commit at or below a height. -/
def stateAt (initial : σ) (height : UInt32) : σ :=
  commitEach
    (progress.rounds.takeWhile fun entry => entry.height ≤ height) initial

/-- The heights that a history with this capacity still reaches. -/
def Reaches (capacity : Nat) (height : UInt32) : Prop :=
  progress.best.toNat ≤ height.toNat + min progress.rounds.length capacity ∧ height ≤ progress.best

/-- A move from the best height, to the best height, or to where the state is. -/
def Anchored (height : UInt32) : Prop :=
  progress.sought = progress.best ∨ height = progress.best ∨ height = progress.sought

end Progress

namespace SeekCall

def apply (height : UInt32) (call : SeekCall σ) (current : History σ × σ) : Outcome String (History σ × σ) :=
  match call with
  | .append change => current.1.append height change current.2
  | .commit => current.1.commit height current.2
  | .seekTo target => current.1.seekTo target current.2

def runAll (first : UInt32) : List (SeekCall σ) → Progress σ → History σ × σ → Outcome String (History σ × σ)
  | [], _, current => .ok current
  | call :: rest, progress, current => do
    let following ← call.apply (progress.next first) current
    runAll first rest (progress.after first call) following

def run (capacity : Nat) (first : UInt32) (initial : σ) (calls : List (SeekCall σ)) :
    Outcome String (History σ × σ) := do
  let history ← newHistory capacity
  runAll first calls .initial (history, initial)

def isSeek : SeekCall σ → Bool
  | .seekTo _ => true
  | _ => false

/-- Every target satisfies a condition at the time of its call. -/
def Targets (first : UInt32) (allowed : Progress σ → UInt32 → Prop) : Progress σ → List (SeekCall σ) → Prop
  | _, [] => True
  | progress, call :: rest =>
    (∀ target, call = .seekTo target → allowed progress target) ∧ Targets first allowed (progress.after first call) rest

end SeekCall

namespace Progress
variable {first height : UInt32} {progress : Progress σ} {capacity : Nat} {initial : σ}

/-- The rounds follow each other from the first height on, without wrapping. -/
structure Consecutive (first : UInt32) (progress : Progress σ) : Prop where
  positive : 0 < first.toNat
  heights : ∀ index entry, progress.rounds[index]? = some entry → entry.height.toNat = first.toNat + index
  fits : first.toNat + progress.rounds.length ≤ size

theorem best_eq_zero (empty : progress.rounds = []) : progress.best = 0 := by
  simp [best, empty]

section
variable (consecutive : progress.Consecutive first)
include consecutive

theorem Consecutive.best_toNat (nonempty : progress.rounds ≠ []) :
    progress.best.toNat + 1 = first.toNat + progress.rounds.length := by
  have positive := length_pos_iff.2 nonempty
  have last := getElem?_eq_getElem (Nat.sub_lt positive Nat.one_pos)
  have height := consecutive.heights _ _ last
  rw [best, getLast?_eq_getElem?, last, Option.map_some, Option.getD_some, height]
  omega

theorem Consecutive.best_bounds : progress.rounds.length ≤ progress.best.toNat ∧
    progress.best.toNat < first.toNat + progress.rounds.length := by
  have positive := consecutive.positive
  by_cases empty : progress.rounds = []
  · simpa [best_eq_zero empty, empty] using positive
  · have best := consecutive.best_toNat empty
    omega

theorem Consecutive.next_toNat (room : first.toNat + progress.rounds.length < UInt32.size) :
    (progress.next first).toNat = first.toNat + progress.rounds.length := by
  by_cases empty : progress.rounds = []
  · simp [next, empty]
  have best := consecutive.best_toNat empty
  rw [next, if_neg (by simpa using empty), UInt32.toNat_add, toNat_one, best, Nat.mod_eq_of_lt room]

theorem Consecutive.takeWhile_eq (reaches : progress.Reaches capacity height) :
    progress.rounds.takeWhile (·.height ≤ height) = progress.rounds.take
        (progress.rounds.length - (progress.best.toNat - height.toNat)) := by
  obtain ⟨low, high⟩ := reaches
  by_cases empty : progress.rounds = []
  · simp [empty]
  have best := consecutive.best_toNat empty
  have positive := consecutive.positive
  have above := le_iff_toNat_le.1 high
  generalize count : progress.rounds.length - (progress.best.toNat - height.toNat) = kept
  have whole := @Script.takeWhile_eq_of_split _ height (progress.rounds.take kept) (progress.rounds.drop kept)
    (fun entry member => ?_) fun entry member => ?_
  · rwa [take_append_drop] at whole
  · obtain ⟨index, found⟩ := getElem?_of_mem member
    rw [getElem?_drop] at found
    have isAbove := consecutive.heights _ _ found
    exact lt_iff_toNat_lt.2 (by omega)
  · obtain ⟨index, found⟩ := getElem?_of_mem member
    rw [getElem?_take] at found
    split at found
    · rename_i bound
      have isBelow := consecutive.heights _ _ found
      exact le_iff_toNat_le.2 (by omega)
    · cases found

end

def history (capacity : Nat) (first : UInt32) (progress : Progress σ) : History σ where
  capacity := capacity
  height := progress.best
  changes := progress.rounds.drop (progress.rounds.length - capacity)
  cachedChanges :=
    if progress.pending.isEmpty then none else some ⟨progress.next first, progress.pending⟩
  tempChanges := []
  seekHeight := progress.sought

/-- The history and the state that a run has come to. -/
def current (capacity : Nat) (first : UInt32) (initial : σ) (progress : Progress σ) : History σ × σ :=
  (progress.history capacity first, progress.stateAt initial progress.sought)

theorem length_history (capacity : Nat) (first : UInt32) (progress : Progress σ) :
    (progress.history capacity first).changes.length = min progress.rounds.length capacity := by
  simp only [history, length_drop]
  omega

theorem newest_history (reaches : progress.Reaches capacity height) :
    (progress.history capacity first).newest (progress.best.toNat - height.toNat) = progress.rounds.drop
        (progress.rounds.length - (progress.best.toNat - height.toNat)) := by
  have low := reaches.1
  have retained := progress.length_history capacity first
  rw [History.newest, retained, if_pos (by omega)]
  simp only [history, drop_drop]
  congr 1
  omega

theorem append_history (consecutive : progress.Consecutive first)
    (room : first.toNat + progress.rounds.length < size) (change : Change σ) (state : σ) :
    (progress.history capacity first).append (progress.next first) change state =
      .ok ((progress.after first (.append change)).history capacity first, state) := by
  have nextHeight := consecutive.next_toNat room
  have positive := consecutive.positive
  have nonzero : progress.next first ≠ 0 := by
    intro zero
    rw [zero] at nextHeight
    simp only [UInt32.toNat_zero] at nextHeight
    omega
  have notBelow : ¬ progress.next first < progress.best := by
    have bounds := consecutive.best_bounds
    rw [UInt32.lt_iff_toNat_lt]
    omega
  have cache : (progress.history capacity first).cacheFor (progress.next first) =
      .ok ⟨progress.next first, progress.pending⟩ := by
    unfold History.cacheFor history
    by_cases empty : progress.pending = []
    · simp [empty, notBelow]
    · simp [empty]
  rw [History.append_cached nonzero cache]
  simp [history, after, best]
  rfl

theorem Consecutive.commit_newest (consecutive : progress.Consecutive first)
    (reaches : progress.Reaches capacity height) :
    commitEach ((progress.history capacity first).newest (progress.best.toNat - height.toNat))
      (progress.stateAt initial height) = commitEach progress.rounds initial := by
  rw [newest_history reaches, stateAt, consecutive.takeWhile_eq reaches, ← commitEach_append, take_append_drop]

/-- Rolling back each round restores the state that it was committed on. -/
def Restores (progress : Progress σ) (initial : σ) : Prop :=
  ∀ before entry after, progress.rounds = before ++ entry :: after →
    entry.rollback (entry.commit (commitEach before initial)) = commitEach before initial

section
variable (consecutive : progress.Consecutive first)
include consecutive

theorem Consecutive.stateAt_best : progress.stateAt initial progress.best = commitEach progress.rounds initial := by
  have reaches : progress.Reaches progress.rounds.length progress.best := ⟨by omega, UInt32.le_refl _⟩
  rw [stateAt, consecutive.takeWhile_eq reaches, Nat.sub_self, Nat.sub_zero, take_length]

theorem Consecutive.rollback_newest (restores : progress.Restores initial)
    (reaches : progress.Reaches capacity height) : rollbackEach
        ((progress.history capacity first).newest (progress.best.toNat - height.toNat))
        (progress.stateAt initial progress.best) = progress.stateAt initial height := by
  rw [consecutive.stateAt_best, newest_history reaches, stateAt, consecutive.takeWhile_eq reaches]
  generalize progress.rounds.length - (progress.best.toNat - height.toNat) = kept
  have undone := Script.rollbackEach_commitEach (progress.rounds.take kept)
    (progress.rounds.drop kept) initial fun before entry after parts => by
      refine restores _ entry after ?_
      rw [append_assoc, ← parts, take_append_drop]
  rwa [take_append_drop] at undone

theorem Consecutive.limit_le (reaches : progress.Reaches capacity height) :
    progress.best - UInt32.ofNat (progress.history capacity first).changes.length ≤ height := by
  have low := reaches.1
  have positive := consecutive.positive
  have fits := consecutive.fits
  have retained := progress.length_history capacity first
  have enough := (Nat.min_le_left _ capacity).trans consecutive.best_bounds.1
  have count : (ofNat (min progress.rounds.length capacity)).toNat = min progress.rounds.length capacity :=
    toNat_ofNat_of_lt' (by omega)
  rw [retained, UInt32.le_iff_toNat_le, UInt32.toNat_sub_of_le _ _ (by
    rw [le_iff_toNat_le, count]; exact enough), count]
  omega

theorem seekTo_history (restores : progress.Restores initial) {target : UInt32}
    (reachesSought : progress.Reaches capacity progress.sought)
    (reaches : progress.Reaches capacity target) (anchored : progress.Anchored target) :
    (progress.history capacity first).seekTo target (progress.stateAt initial progress.sought) =
      .ok ((progress.after first (.seekTo target)).history capacity first, progress.stateAt initial target) := by
  have notBelow := UInt32.not_lt.2 (consecutive.limit_le reaches)
  have retained := progress.length_history capacity first
  have low := reaches.1
  have highest := le_iff_toNat_le.1 reaches.2
  have soughtHighest := le_iff_toNat_le.1 reachesSought.2
  have height : (progress.history capacity first).height = progress.best := rfl
  have seekHeight : (progress.history capacity first).seekHeight = progress.sought := rfl
  have nothing : (progress.history capacity first).newest 0 = [] := by
    simp [History.newest]
  unfold History.seekTo
  simp only [height, if_neg notBelow, seekHeight]
  by_cases backward : target ≤ progress.sought
  · have isBackward := le_iff_toNat_le.1 backward
    rw [if_pos backward, retained, if_pos (by omega)]
    rcases anchored with fromBest | toBest | stays
    · rw [fromBest, consecutive.rollback_newest restores reaches]
      rfl
    · have atBest := UInt32.le_antisymm reachesSought.2 (toBest ▸ backward)
      rw [atBest, consecutive.rollback_newest restores reaches]
      rfl
    · rw [stays, Nat.sub_self, nothing]
      rfl
  · have toBest : target = progress.best := by
      rcases anchored with fromBest | toBest | stays
      · exact absurd (fromBest ▸ reaches.2) backward
      · exact toBest
      · exact absurd (stays ▸ UInt32.le_refl _) backward
    rw [if_neg backward]
    subst toBest
    rw [consecutive.commit_newest reachesSought, ← consecutive.stateAt_best]
    rfl

end

/-- What holds between the calls of a run. -/
structure Sound (capacity : Nat) (first : UInt32) (progress : Progress σ) : Prop where
  consecutive : progress.Consecutive first
  reaches : progress.Reaches capacity progress.sought

theorem sound_initial (positive : 0 < first.toNat) : (Progress.initial : Progress σ).Sound capacity first where
  consecutive := {
    positive
    heights := by simp [Progress.initial]
    fits := by simpa [Progress.initial] using Nat.le_of_lt first.toNat_lt }
  reaches := by simp [Progress.initial, Reaches, best]

theorem Sound.commit (sound : progress.Sound capacity first) (someCapacity : 0 < capacity)
    (room : first.toNat + progress.rounds.length < size) :
    (progress.after first .commit).Sound capacity first := by
  have nextHeight := sound.consecutive.next_toNat room
  have best : (progress.after first .commit).best = progress.next first := by
    simp [after, Progress.best]
  refine ⟨⟨sound.consecutive.positive, ?_, ?_⟩, ?_, ?_⟩
  · intro index entry found
    simp only [after] at found
    rw [getElem?_append, getElem?_singleton] at found
    split at found
    · exact sound.consecutive.heights index entry found
    split at found
    · cases found
      rw [nextHeight]
      omega
    · cases found
  · simp only [after, length_append, length_cons, length_nil]
    omega
  · rw [best]
    simp only [after]
    omega
  · rw [best]
    exact UInt32.le_refl _

/-- A call whose target is reached and anchored leaves the state of the height that was sought last. -/
theorem Sound.step (sound : progress.Sound capacity first) (someCapacity : 0 < capacity)
    (room : first.toNat + progress.rounds.length < size) (restores : progress.Restores initial) (call : SeekCall σ)
    (reaches : ∀ target, call = .seekTo target → progress.Reaches capacity target)
    (anchored : ∀ target, call = .seekTo target → progress.Anchored target) :
    call.apply (progress.next first) (progress.current capacity first initial) =
      .ok ((progress.after first call).current capacity first initial) ∧
      (progress.after first call).Sound capacity first := by
  cases call with
  | append change =>
    exact ⟨append_history sound.consecutive room change _, { sound.consecutive with }, sound.reaches⟩
  | seekTo target =>
    have reaches := reaches target rfl
    exact ⟨seekTo_history sound.consecutive restores sound.reaches reaches (anchored target rfl),
      { sound.consecutive with }, reaches⟩
  | commit =>
    have soundNext := sound.commit someCapacity room
    refine ⟨?_, soundNext⟩
    have behind := UInt32.toNat_sub_of_le _ _ sound.reaches.2
    have entry : (progress.history capacity first).cachedChanges.getD
        ⟨progress.next first, []⟩ = ⟨progress.next first, progress.pending⟩ := by
      by_cases empty : progress.pending = []
      · simp [history, empty]
      · simp [history, empty]
    have committed := @History.commit_retained _ (progress.history capacity first) _ _ _ _
      someCapacity rfl rfl rfl entry (progress.stateAt initial progress.sought)
    have atBest : (progress.after first .commit).stateAt initial (progress.after first .commit).sought =
        commitEach (progress.after first .commit).rounds initial := by
      rw [← soundNext.consecutive.stateAt_best]
      simp [after, best]
    rw [SeekCall.apply, current, committed, current, atBest]
    change Except.ok (_, HeightChanges.commit _ (commitEach
      ((progress.history capacity first).newest (progress.best - progress.sought).toNat) _)) = _
    rw [behind, sound.consecutive.commit_newest sound.reaches]
    simp [history, after, best]

theorem rounds_afterAll (progress : Progress σ) (calls : List (SeekCall σ)) :
    ∃ more, (progress.afterAll first calls).rounds = progress.rounds ++ more := by
  induction calls generalizing progress with
  | nil => exact ⟨[], by simp [afterAll]⟩
  | cons call rest ih =>
    obtain ⟨more, grown⟩ := ih (progress.after first call)
    cases call with
    | append change => exact ⟨more, grown⟩
    | seekTo target => exact ⟨more, grown⟩
    | commit =>
      refine ⟨⟨progress.next first, progress.pending⟩ :: more, ?_⟩
      rw [append_cons]
      exact grown

theorem Restores.of_prefix {longer : Progress σ} {more : List (HeightChanges σ)}
    (restores : longer.Restores initial) (grown : longer.rounds = progress.rounds ++ more) :
    progress.Restores initial := by
  intro before entry after split
  refine restores before entry (after ++ more) ?_
  rw [grown, split, append_assoc, cons_append]

end Progress

namespace SeekCall
open Progress
variable {first : UInt32} {capacity : Nat} {initial : σ} (calls : List (SeekCall σ))

/-- The calls of a run in which all targets are reached and anchored. -/
theorem runAll_eq (someCapacity : 0 < capacity) (calls : List (SeekCall σ)) {progress : Progress σ}
    (sound : progress.Sound capacity first) (restores : (progress.afterAll first calls).Restores initial)
    (room : first.toNat + (progress.afterAll first calls).rounds.length < size)
    (reached : Targets first (·.Reaches capacity) progress calls)
    (anchored : Targets first Progress.Anchored progress calls) :
    runAll first calls progress (progress.current capacity first initial) =
      .ok ((progress.afterAll first calls).current capacity first initial) ∧
      (progress.afterAll first calls).Sound capacity first := by
  induction calls generalizing progress with
  | nil => exact ⟨rfl, sound⟩
  | cons call rest ih =>
    obtain ⟨more, grown⟩ := rounds_afterAll progress (call :: rest)
    have roomNow : first.toNat + progress.rounds.length < size := by
      rw [grown, length_append] at room
      omega
    obtain ⟨applied, soundNext⟩ := sound.step someCapacity roomNow (restores.of_prefix grown) call reached.1 anchored.1
    rw [runAll, applied]
    exact ih soundNext restores room reached.2 anchored.2

theorem runAll_append (more : List (SeekCall σ)) (progress : Progress σ) (current : History σ × σ) :
    runAll first (calls ++ more) progress current =
      runAll first calls progress current >>= runAll first more (progress.afterAll first calls) := by
  induction calls generalizing progress current with
  | nil => rfl
  | cons call rest ih =>
    simp only [cons_append, runAll]
    cases call.apply (progress.next first) current with
    | error fault => rfl
    | ok following => exact ih _ following

/-- Without its seeks a run commits the same rounds. -/
theorem rounds_filter {progress other : Progress σ} (sameRounds : progress.rounds = other.rounds)
    (samePending : progress.pending = other.pending) : (progress.afterAll first calls).rounds =
        (other.afterAll first (calls.filter fun call => !call.isSeek)).rounds ∧
      (progress.afterAll first calls).pending =
        (other.afterAll first (calls.filter fun call => !call.isSeek)).pending := by
  induction calls generalizing progress other with
  | nil => exact ⟨sameRounds, samePending⟩
  | cons call rest ih =>
    have sameNext : progress.next first = other.next first := by
      simp [Progress.next, best, sameRounds]
    cases call with
    | append change => exact ih sameRounds (by simp [Progress.after, samePending])
    | commit => exact ih (by simp [Progress.after, sameRounds, samePending, sameNext]) rfl
    | seekTo target => exact ih sameRounds samePending

theorem targets_filter {allowed : Progress σ → UInt32 → Prop} {progress : Progress σ} :
    Targets first allowed progress (calls.filter fun call => !call.isSeek) := by
  induction calls generalizing progress with
  | nil => exact trivial
  | cons call rest ih =>
    cases call with
    | append change => exact ⟨by simp, ih⟩
    | commit => exact ⟨by simp, ih⟩
    | seekTo target => exact ih

theorem runAll_commit_eq (someCapacity : 0 < capacity) {calls : List (SeekCall σ)}
    {progress : Progress σ} (sound : progress.Sound capacity first)
    (restores : (progress.afterAll first calls).Restores initial)
    (room : first.toNat + (progress.afterAll first calls).rounds.length < size)
    (reached : Targets first (·.Reaches capacity) progress calls)
    (anchored : Targets first Progress.Anchored progress calls) :
    runAll first (calls ++ [.commit]) progress (progress.current capacity first initial) =
      .ok (((progress.afterAll first calls).after first .commit).current capacity first initial) := by
  obtain ⟨ran, soundAfter⟩ := runAll_eq someCapacity calls sound restores room reached anchored
  have committed := (soundAfter.step someCapacity room restores .commit (by simp) (by simp)).1
  rw [runAll_append, ran]
  change (SeekCall.commit.apply _ _ >>= _) = _
  rw [committed]
  rfl

/-- The state is the one of the height that was sought last, and once the next height
is committed state and history are as if nothing had been sought. -/
def SeekExact (capacity : Nat) (first : UInt32) (initial : σ) (calls : List (SeekCall σ)) : Prop :=
  (∃ history, run capacity first initial calls = .ok (history, (Progress.initial.afterAll first calls).stateAt initial
      (Progress.initial.afterAll first calls).sought)) ∧
  ∃ history state, run capacity first initial (calls ++ [.commit]) = .ok (history, state) ∧
    run capacity first initial ((calls.filter fun call => !call.isSeek) ++ [.commit]) = .ok (history, state)

theorem run_eq_runAll (capacity : Nat) (calls : List (SeekCall σ)) : run capacity first initial calls =
      runAll first calls .initial (Progress.initial.current capacity first initial) := by
  have fresh : (newHistory (capacity : Int) : Outcome String (History σ)) =
      .ok ((Progress.initial : Progress σ).history capacity first) := by
    simp [newHistory, Progress.initial, Progress.history, best]
  rw [run, fresh]
  rfl

/-- Seeking is exact in every run whose moves start or end at the best height, when
the order in which the changes of one height are undone does not matter. -/
theorem seekExact_of_anchored (someCapacity : 0 < capacity) (positive : first ≠ 0) {calls : List (SeekCall σ)}
    (room : first.toNat + (Progress.initial.afterAll first calls).rounds.length < size)
    (reached : Targets first (fun progress => progress.Reaches capacity) .initial calls)
    (undoes : RoundsUndo (Progress.initial.afterAll first calls).rounds initial) (irrelevant : ∀ before entry after,
      (Progress.initial.afterAll first calls).rounds = before ++ entry :: after →
        entry.OrderIrrelevant (commitEach before initial))
    (anchored : Targets first Progress.Anchored .initial calls) : SeekExact capacity first initial calls := by
  have restores : (Progress.initial.afterAll first calls).Restores initial := by
    intro before entry after split
    rw [split] at undoes
    rw [irrelevant before entry after split, undoes.rollbackReversed_commit]
  have nonzero : 0 < first.toNat := by
    rw [Nat.pos_iff_ne_zero]
    exact fun zero => positive (UInt32.toNat_inj.1 zero)
  have sound : (Progress.initial : Progress σ).Sound capacity first := sound_initial nonzero
  have sought := (runAll_eq someCapacity calls sound restores room reached anchored).1
  have committed := runAll_commit_eq someCapacity sound restores room reached anchored
  -- Leaving the seeks out changes neither the rounds nor what is pending.
  obtain ⟨sameRounds, samePending⟩ : (Progress.initial.afterAll first calls).rounds = _ ∧
        (Progress.initial.afterAll first calls).pending = _ :=
    rounds_filter calls rfl rfl
  have sameCommit : (Progress.initial.afterAll first calls).after first .commit =
      (Progress.initial.afterAll first (calls.filter fun call => !call.isSeek)).after
        first .commit := by
    simp [Progress.after, Progress.next, best, sameRounds, samePending]
  have restoresFiltered : (Progress.initial.afterAll first
      (calls.filter fun call => !call.isSeek)).Restores initial := by
    intro before entry after split
    exact restores before entry after (sameRounds.trans split)
  have unsought := runAll_commit_eq someCapacity sound restoresFiltered
    (by rw [← sameRounds]; exact room) (targets_filter calls) (targets_filter calls)
  rw [← sameCommit] at unsought
  rw [← run_eq_runAll] at sought committed unsought
  exact ⟨⟨_, sought⟩, _, _, committed, unsought⟩

/-- A counter that is set to each of the heights 1, 2 and 3. -/
def counting : List (SeekCall Nat) :=
  [.append ⟨fun _ => 1, fun _ => 0⟩, .commit, .append ⟨fun _ => 2, fun _ => 1⟩, .commit,
    .append ⟨fun _ => 3, fun _ => 2⟩, .commit]

theorem counting_undoes (more : List (SeekCall Nat)) (seeks : (Progress.initial.afterAll 1 (counting ++ more)).rounds =
      (Progress.initial.afterAll 1 counting).rounds) :
    RoundsUndo (Progress.initial.afterAll 1 (counting ++ more)).rounds 0 ∧ ∀ before entry after,
        (Progress.initial.afterAll 1 (counting ++ more)).rounds = before ++ entry :: after →
          entry.OrderIrrelevant (commitEach before 0) := by
  rw [seeks]
  refine ⟨⟨⟨rfl, trivial⟩, ⟨rfl, trivial⟩, ⟨rfl, trivial⟩, trivial⟩, ?_⟩
  intro before entry after split
  have single : ∃ change, entry.changes = [change] := by
    have member : entry ∈ (Progress.initial.afterAll 1 counting).rounds := by
      rw [split]
      simp
    simp only [counting, Progress.afterAll, Progress.after, Progress.initial,
      foldl_cons, foldl_nil, nil_append, cons_append, mem_cons,
      not_mem_nil, or_false] at member
    rcases member with rfl | rfl | rfl <;> exact ⟨_, rfl⟩
  obtain ⟨change, isSingle⟩ := single
  exact Commuting.orderIrrelevant (isSingle ▸ commuting_singleton change) _

theorem counting_seekExact : SeekExact 10 1 0 (counting ++ [.seekTo 1, .seekTo 3, .seekTo 2]) := by
  obtain ⟨undoes, irrelevant⟩ := counting_undoes [.seekTo 1, .seekTo 3, .seekTo 2] rfl
  refine seekExact_of_anchored (by decide) (by decide) (by decide) ?_ undoes irrelevant ?_
  · simp [Targets, counting, Progress.Reaches, Progress.best, Progress.after, Progress.initial, Progress.next]
  · simp [Targets, counting, Progress.Anchored, Progress.best, Progress.after, Progress.initial, Progress.next]

/-- From height 2 a move back to height 1 undoes the round of height 3. -/
theorem counting_not_seekExact : Targets 1 (fun progress => progress.Reaches 10) .initial
        (counting ++ [.seekTo 2, .seekTo 1]) ∧
      RoundsUndo (Progress.initial.afterAll 1 (counting ++ [.seekTo 2, .seekTo 1])).rounds 0 ∧
      ¬ SeekExact 10 1 0 (counting ++ [.seekTo 2, .seekTo 1]) := by
  refine ⟨?_, (counting_undoes [.seekTo 2, .seekTo 1] rfl).1, ?_⟩
  · simp [Targets, counting, Progress.Reaches, Progress.best, Progress.after, Progress.initial, Progress.next]
  · rintro ⟨⟨history, ran⟩, _⟩
    have reached : run 10 1 0 (counting ++ [.seekTo 2, .seekTo 1]) = .ok (_, 2) := rfl
    rw [reached] at ran
    have wrong : (2 : Nat) = 1 := congrArg Prod.snd (Except.ok.inj ran)
    exact absurd wrong (by decide)

end SeekCall
end Elastos.Utils
