import Elastos.Utils.HistorySeek

/-! Blocks and special payloads that arrive at one history. The changes of a special
payload are temporary: the commit that follows runs them, and the first change of the
next block takes them back. -/
set_option autoImplicit false
namespace Elastos.Utils
open Go List
universe u
variable {σ : Type u}

/-- The changes of a special payload are numbered, so that their executions can be
counted. -/
inductive Arrival (σ : Type u) where
  | block (entry : HeightChanges σ)
  | special (height : UInt32) (changes : List (Nat × Change σ))

namespace Arrival

def calls : Arrival σ → List (Call σ)
  | .block entry => Script.roundCalls entry
  | .special height changes =>
    (changes.map fun change => Call.append 0 change.2) ++ [.commit height]

def toBlock? : Arrival σ → Option (HeightChanges σ)
  | .block entry => some entry
  | .special _ _ => none

def numbers : Arrival σ → List Nat
  | .block _ => []
  | .special _ changes => changes.map Prod.fst

def runAll (arrivals : List (Arrival σ)) (current : History σ × σ) : Outcome String (History σ × σ) :=
  runCalls (arrivals.flatMap calls) current

end Arrival

/-- Blocks at increasing non-zero heights, with special payloads between them. -/
structure Feed (σ : Type u) where
  arrivals : List (Arrival σ)
  ordered : ((arrivals.filterMap Arrival.toBlock?).map (·.height)).Pairwise (· < ·)
  nonzero : ∀ entry ∈ arrivals.filterMap Arrival.toBlock?, entry.height ≠ 0
  nonempty : ∀ height changes, .special height changes ∈ arrivals → changes ≠ []
  distinct : (arrivals.flatMap Arrival.numbers).Nodup

namespace Change

def silent (change : Change σ) : Change (σ × List Nat) where
  execute current := (change.execute current.1, current.2)
  rollback current := (change.rollback current.1, current.2)

def logged (change : Change σ) (number : Nat) : Change (σ × List Nat) where
  execute current := (change.execute current.1, current.2 ++ [number])
  rollback current := (change.rollback current.1, current.2)

end Change

namespace Arrival

/-- The same arrival on a state with a log of the executed temporary changes. -/
def observed : Arrival σ → Arrival (σ × List Nat)
  | .block entry => .block ⟨entry.height, entry.changes.map Change.silent⟩
  | .special height changes => .special height
      (changes.map fun change => (change.1, change.2.logged change.1))

/-- At most one special payload comes before each block, and a block that follows one
has a change. -/
def Separated : Bool → List (Arrival σ) → Prop
  | _, [] => True
  | waiting, .block entry :: rest =>
    (waiting = true → entry.changes ≠ []) ∧ Separated false rest
  | waiting, .special _ _ :: rest => waiting = false ∧ Separated true rest

/-- Each rollback function of a special payload undoes its execute function, and the
order in which they run does not matter. -/
def Undone (initial : σ) (arrivals : List (Arrival σ)) : Prop :=
  ∀ before height changes after, arrivals = before ++ .special height changes :: after → Undoes (changes.map Prod.snd)
        (HeightChanges.commitEach (before.filterMap toBlock?) initial) ∧
      HeightChanges.OrderIrrelevant ⟨0, changes.map Prod.snd⟩
        (HeightChanges.commitEach (before.filterMap toBlock?) initial)

end Arrival

namespace Feed

def run (capacity : Nat) (initial : σ) (arrivals : List (Arrival σ)) : Outcome String (History σ × σ) := do
  let history ← newHistory capacity
  Arrival.runAll arrivals (history, initial)

variable (feed : Feed σ) (capacity : Nat) (initial : σ)

/-- Every temporary change runs exactly once. -/
def ExecutedOnce : Prop :=
  ∃ history state log, run capacity (initial, []) (feed.arrivals.map Arrival.observed) = .ok (history, state, log) ∧
    ∀ number ∈ feed.arrivals.flatMap Arrival.numbers, log.count number = 1

/-- After each block, state and history are as if no special payload had arrived. -/
def Transparent : Prop :=
  ∀ before entry after, feed.arrivals = before ++ .block entry :: after → ∃ history state,
      run capacity initial (before ++ [.block entry]) = .ok (history, state) ∧ run capacity initial
          (((before ++ [.block entry]).filterMap Arrival.toBlock?).map .block) = .ok (history, state)

end Feed

namespace Arrival
variable {capacity : Nat} {rounds : List (HeightChanges σ)} {temp : List (Change σ)}
  {state : σ} (changes : List (Nat × Change σ))
  (arrivals : List (Arrival σ))

/-- The state with temporary changes that wait to be taken back, after some arrivals. -/
def effect : List (Change σ) → List (Arrival σ) → σ → σ
  | _, [], state => state
  | temp, .block entry :: rest, state =>
    effect [] rest (entry.commit (rollbackAll temp state))
  | _, .special _ changes :: rest, state =>
    effect (changes.map Prod.snd) rest (executeAll (changes.map Prod.snd) state)

def waitingAfter : List (Change σ) → List (Arrival σ) → List (Change σ)
  | temp, [] => temp
  | _, .block _ :: rest => waitingAfter [] rest
  | _, .special _ changes :: rest => waitingAfter (changes.map Prod.snd) rest

theorem special_settled {height : UInt32} {changes : List (Nat × Change σ)} (nonempty : changes ≠ []) :
    runCalls (calls (.special height changes)) (settled capacity rounds [], state) =
      .ok (settled capacity rounds (changes.map Prod.snd), executeAll (changes.map Prod.snd) state) := by
  have appended (waiting added : List (Change σ)) :
      runCalls (waiting.map (Call.append 0)) (settled capacity rounds added, state) =
        .ok (settled capacity rounds (added ++ waiting), state) := by
    induction waiting generalizing added with
    | nil => simp [runCalls]
    | cons change rest ih =>
      have step := ih (added ++ [change])
      rw [append_assoc] at step
      exact step
  have mapped : (changes.map fun change => Call.append 0 change.2) = (changes.map Prod.snd).map (Call.append 0) := by
    rw [map_map]
    rfl
  have someTemp : (settled capacity rounds (changes.map Prod.snd)).tempChanges.isEmpty = false := by
    simpa [settled] using nonempty
  rw [calls, runCalls_append, mapped, appended, nil_append]
  change (Call.commit height).apply _ >>= _ = _
  simp only [Call.apply, History.commit, someTemp, Bool.false_eq_true, if_false]
  rfl

theorem runAll_settled (someCapacity : 0 < capacity)
    (ordered : ((rounds ++ arrivals.filterMap toBlock?).map (·.height)).Pairwise (· < ·))
    (nonzero : ∀ entry ∈ arrivals.filterMap toBlock?, entry.height ≠ 0)
    (nonempty : ∀ height changes, .special height changes ∈ arrivals → changes ≠ [])
    (separated : Separated (!temp.isEmpty) arrivals) : runAll arrivals (settled capacity rounds temp, state) =
      .ok (settled capacity (rounds ++ arrivals.filterMap toBlock?)
        (waitingAfter temp arrivals), effect temp arrivals state) := by
  induction arrivals generalizing rounds temp state with
  | nil => simp [runAll, runCalls, effect, waitingAfter]
  | cons arrival rest ih =>
    cases arrival with
    | block entry =>
      have split : rounds ++ (Arrival.block entry :: rest).filterMap toBlock? =
          (rounds ++ [entry]) ++ rest.filterMap toBlock? := by
        simp [toBlock?]
      rw [split] at ordered ⊢
      have above : ∀ earlier ∈ rounds, earlier.height ≤ entry.height := by
        intro earlier member
        rw [append_assoc, map_append, pairwise_append] at ordered
        exact UInt32.le_of_lt (ordered.2.2 _ (mem_map_of_mem member) _ (by simp))
      have someChange : temp ≠ [] → entry.changes ≠ [] := fun waiting => separated.1 (by simpa using waiting)
      have entryNonzero := nonzero entry (by simp [toBlock?])
      have step := @Script.roundCalls_settled _ capacity rounds temp entry state someCapacity
        entryNonzero above someChange
      rw [runAll, flatMap_cons, runCalls_append, calls, step]
      refine ih ordered (fun other member => nonzero other ?_)
        (fun height changes member => nonempty height changes ?_) separated.2
      · simp [toBlock?, member]
      · exact mem_cons_of_mem _ member
    | special height changes =>
      have noTemp : temp = [] := by simpa using separated.1
      subst noTemp
      have someChanges := nonempty height changes (by simp)
      have step := @special_settled _ capacity rounds state height changes someChanges
      rw [runAll, flatMap_cons, runCalls_append, step]
      refine ih ordered nonzero (fun other changes member =>
        nonempty other changes (mem_cons_of_mem _ member)) ?_
      have waits : (changes.map Prod.snd).isEmpty = false := by simpa using someChanges
      rw [waits]
      exact separated.2

theorem waitingAfter_append (before after : List (Arrival σ)) :
    waitingAfter temp (before ++ after) = waitingAfter (waitingAfter temp before) after := by
  induction before generalizing temp with
  | nil => rfl
  | cons arrival rest ih =>
    cases arrival with
    | block | special => exact ih

/-- Taking the waiting changes back gives the state that the blocks alone produce. -/
theorem rollback_effect {clean : σ} (restored : rollbackAll temp state = clean)
    (undone : Undone clean arrivals) (separated : Separated (!temp.isEmpty) arrivals)
    (nonempty : ∀ height changes, .special height changes ∈ arrivals → changes ≠ []) :
    rollbackAll (waitingAfter temp arrivals) (effect temp arrivals state) =
      HeightChanges.commitEach (arrivals.filterMap toBlock?) clean := by
  induction arrivals generalizing temp state clean with
  | nil => exact restored
  | cons arrival rest ih =>
    have nonemptyRest : ∀ height changes, .special height changes ∈ rest → changes ≠ [] :=
      fun height changes member => nonempty height changes (mem_cons_of_mem _ member)
    cases arrival with
    | block entry =>
      rw [effect, restored]
      refine ih rfl (fun before height changes after split => ?_) separated.2 nonemptyRest
      exact undone (.block entry :: before) height changes after (by rw [split]; rfl)
    | special height changes =>
      have noTemp : temp = [] := by simpa using separated.1
      subst noTemp
      obtain rfl : state = clean := restored
      obtain ⟨undoes, irrelevant⟩ := undone [] height changes rest rfl
      have takenBack := irrelevant.trans (rollbackAll_reverse_executeAll _ _ undoes)
      have waits : (changes.map Prod.snd).isEmpty = false := by
        simpa using nonempty height changes (by simp)
      refine ih takenBack (fun before other others after split => ?_) (by rw [waits]; exact separated.2) nonemptyRest
      exact undone (.special height changes :: before) other others after (by rw [split]; rfl)

theorem rollbackAll_log {changes : List (Change (σ × List Nat))}
    (keep : ∀ change ∈ changes, ∀ current, (change.rollback current).2 = current.2)
    (current : σ × List Nat) : (rollbackAll changes current).2 = current.2 := by
  induction changes generalizing current with
  | nil => rfl
  | cons change rest ih =>
    have later := ih (fun other member => keep other (mem_cons_of_mem _ member)) (change.rollback current)
    exact later.trans (keep change (by simp) current)

theorem executeAll_silent (changes : List (Change σ)) (current : σ × List Nat) :
    (executeAll (changes.map Change.silent) current).2 = current.2 := by
  induction changes generalizing current with
  | nil => rfl
  | cons change rest ih => exact ih (change.silent.execute current)

theorem executeAll_logged (current : σ × List Nat) :
    (executeAll (changes.map fun change => change.2.logged change.1) current).2 =
      current.2 ++ changes.map Prod.fst := by
  induction changes generalizing current with
  | nil => simp
  | cons change rest ih =>
    rw [map_cons, executeAll_cons, ih]
    simp [Change.logged]

theorem observed_special : (changes.map fun change => (change.1, change.2.logged change.1)).map Prod.snd =
      changes.map fun change => change.2.logged change.1 := by
  rw [map_map]
  rfl

theorem effect_observed {temp : List (Change (σ × List Nat))} {current : σ × List Nat}
    (keep : ∀ change ∈ temp, ∀ state, (change.rollback state).2 = state.2) :
    (effect temp (arrivals.map observed) current).2 = current.2 ++ arrivals.flatMap numbers := by
  induction arrivals generalizing temp current with
  | nil => simp [effect]
  | cons arrival rest ih =>
    cases arrival with
    | block entry =>
      rw [map_cons, observed, effect, ih (by simp), HeightChanges.commit, executeAll_silent, rollbackAll_log keep]
      rfl
    | special height changes =>
      have keepLogged : ∀ change ∈ changes.map fun change => change.2.logged change.1,
          ∀ state : σ × List Nat, (change.rollback state).2 = state.2 := by
        intro change member state
        obtain ⟨original, _, rfl⟩ := mem_map.1 member
        rfl
      rw [map_cons, observed, effect, observed_special, ih keepLogged, executeAll_logged, append_assoc]
      rfl

theorem toBlock?_observed : ((arrivals.map observed).filterMap toBlock?).map (·.height) =
      (arrivals.filterMap toBlock?).map (·.height) := by
  induction arrivals with
  | nil => rfl
  | cons arrival rest ih =>
    cases arrival with
    | block entry => exact congrArg (entry.height :: ·) ih
    | special height changes => exact ih

theorem Separated.observed {arrivals : List (Arrival σ)} {waiting : Bool}
    (separated : Separated waiting arrivals) : Separated waiting (arrivals.map Arrival.observed) := by
  induction arrivals generalizing waiting with
  | nil => exact trivial
  | cons arrival rest ih =>
    cases arrival with
    | block entry =>
      refine ⟨fun waits => ?_, ih separated.2⟩
      simpa using separated.1 waits
    | special height changes => exact ⟨separated.1, ih separated.2⟩

theorem Separated.of_append {before after : List (Arrival σ)} {waiting : Bool}
    (separated : Separated waiting (before ++ after)) : Separated waiting before := by
  induction before generalizing waiting with
  | nil => exact trivial
  | cons arrival rest ih =>
    cases arrival with
    | block | special => exact ⟨separated.1, ih separated.2⟩

theorem separated_blocks (entries : List (HeightChanges σ)) : Separated false (entries.map Arrival.block) := by
  induction entries with
  | nil => exact trivial
  | cons entry rest ih => exact ⟨by simp, ih⟩

end Arrival

namespace Feed
open Arrival
variable {capacity : Nat} {initial : σ}

theorem run_eq_runAll (arrivals : List (Arrival σ)) :
    run capacity initial arrivals = runAll arrivals (settled capacity [] [], initial) := by
  have fresh : (newHistory (capacity : Int) : Outcome String (History σ)) = .ok (settled capacity [] []) := by
    simp [newHistory, settled]
  rw [run, fresh]
  rfl

theorem run_ending_with_block (someCapacity : 0 < capacity) {before : List (Arrival σ)} {entry : HeightChanges σ}
    (ordered : (((before ++ [Arrival.block entry]).filterMap toBlock?).map (·.height)).Pairwise (· < ·))
    (nonzero : ∀ other ∈ (before ++ [Arrival.block entry]).filterMap toBlock?, other.height ≠ 0)
    (nonempty : ∀ height changes, .special height changes ∈ before ++ [Arrival.block entry] → changes ≠ [])
    (separated : Separated false (before ++ [Arrival.block entry]))
    (undone : Undone initial (before ++ [Arrival.block entry])) :
    run capacity initial (before ++ [Arrival.block entry]) =
      .ok (settled capacity ((before ++ [Arrival.block entry]).filterMap toBlock?) [],
        HeightChanges.commitEach ((before ++ [Arrival.block entry]).filterMap toBlock?) initial) := by
  have ran : runAll _ (settled capacity [] [], initial) = _ :=
    runAll_settled _ someCapacity ordered nonzero nonempty separated
  have restored : rollbackAll _ (effect [] (before ++ [Arrival.block entry]) initial) = _ :=
    rollback_effect _ rfl undone separated nonempty
  have nothing : waitingAfter [] (before ++ [Arrival.block entry]) = [] :=
    waitingAfter_append before [Arrival.block entry]
  rw [nothing, rollbackAll_nil, rollbackAll_nil] at restored
  rw [run_eq_runAll, ran, nothing, restored, nil_append]

/-- With separated special payloads, whose changes may be undone in any order, every
temporary change runs once and is gone after the next block. -/
theorem specialPayloads_vanish (feed : Feed σ) (someCapacity : 0 < capacity)
    (separated : Separated false feed.arrivals) (undone : Undone initial feed.arrivals) :
    feed.ExecutedOnce capacity initial ∧ feed.Transparent capacity initial := by
  constructor
  · have observedNonzero : ∀ entry ∈ (feed.arrivals.map observed).filterMap toBlock?, entry.height ≠ 0 := by
      intro entry member
      have height := mem_map_of_mem (f := (·.height)) member
      rw [toBlock?_observed] at height
      obtain ⟨original, originalMember, same⟩ := mem_map.1 height
      exact same ▸ feed.nonzero original originalMember
    have observedNonempty : ∀ height changes, .special height changes ∈ feed.arrivals.map observed → changes ≠ [] := by
      intro height changes member
      obtain ⟨arrival, arrivalMember, same⟩ := mem_map.1 member
      cases arrival with
      | block entry => cases same
      | special original originals =>
        cases same
        simpa using feed.nonempty _ originals arrivalMember
    have ran : runAll _ (settled capacity [] [], (initial, [])) = _ :=
      runAll_settled (feed.arrivals.map observed) someCapacity
        (by rw [nil_append, toBlock?_observed]; exact feed.ordered) observedNonzero
        observedNonempty separated.observed
    have log : (effect [] (feed.arrivals.map observed) (initial, [])).2 = _ := effect_observed feed.arrivals (by simp)
    rw [nil_append] at log
    rw [← run_eq_runAll] at ran
    refine ⟨_, _, _, ran, fun number member => ?_⟩
    rw [log]
    exact count_eq_one_of_mem feed.distinct member
  · intro before entry after split
    have whole : feed.arrivals = (before ++ [Arrival.block entry]) ++ after := by simp [split]
    have ordered := feed.ordered
    have nonzero := feed.nonzero
    have nonempty := feed.nonempty
    rw [whole] at ordered nonzero nonempty separated undone
    rw [filterMap_append, map_append, pairwise_append] at ordered
    rw [filterMap_append] at nonzero
    have blocksNonzero : ∀ other ∈ (before ++ [Arrival.block entry]).filterMap toBlock?,
        other.height ≠ 0 := fun other member => nonzero other (mem_append_left _ member)
    have undonePart : Undone initial (before ++ [Arrival.block entry]) := by
      intro earlier height changes later parts
      exact undone earlier height changes (later ++ after) (by rw [parts]; simp)
    have ran := run_ending_with_block someCapacity ordered.1 blocksNonzero
      (fun height changes member => nonempty height changes (mem_append_left _ member))
      separated.of_append undonePart
    -- The blocks alone are such a run too.
    have blocksOnly : ((before ++ [Arrival.block entry]).filterMap toBlock?).map Arrival.block =
        (before.filterMap toBlock?).map Arrival.block ++ [Arrival.block entry] := by
      simp [toBlock?]
    have sameBlocks : ((before.filterMap toBlock?).map Arrival.block ++
        [Arrival.block entry]).filterMap toBlock? = (before ++ [Arrival.block entry]).filterMap toBlock? := by
      rw [← blocksOnly, filterMap_map]
      exact filterMap_some
    have noSpecial : ∀ height changes, Arrival.special height changes ∉
        (before.filterMap toBlock?).map Arrival.block ++ [Arrival.block entry] := by
      simp
    have clean := @run_ending_with_block _ capacity initial someCapacity
      ((before.filterMap toBlock?).map Arrival.block) entry
      (by rw [sameBlocks]; exact ordered.1) (by rw [sameBlocks]; exact blocksNonzero)
      (fun height changes member => absurd member (noSpecial height changes))
      (by rw [← blocksOnly]; exact separated_blocks _)
      (fun earlier height changes later parts =>
        absurd (by rw [parts]; simp) (noSpecial height changes))
    rw [sameBlocks] at clean
    exact ⟨_, _, ran, by rw [blocksOnly]; exact clean⟩

def punctual : Feed Nat where
  arrivals := [.special 0 [(0, ⟨fun _ => 7, fun _ => 0⟩)], .block ⟨1, [⟨fun _ => 1, fun _ => 0⟩]⟩,
    .special 1 [(1, ⟨fun _ => 8, fun _ => 1⟩)], .block ⟨2, [⟨fun _ => 2, fun _ => 1⟩]⟩]
  ordered := by decide
  nonzero := by decide
  nonempty height changes member := by
    simp only [List.mem_cons, Arrival.special.injEq, List.not_mem_nil, reduceCtorEq, or_false, false_or] at member
    rcases member with ⟨_, rfl⟩ | ⟨_, rfl⟩ <;> simp
  distinct := by decide

theorem punctual_vanishes : punctual.ExecutedOnce 10 0 ∧ punctual.Transparent 10 0 := by
  refine specialPayloads_vanish punctual (by decide) ⟨rfl, by simp, rfl, by simp, trivial⟩ ?_
  intro before height changes after split
  rcases before with _ | ⟨first, _ | ⟨second, _ | ⟨third, _ | ⟨fourth, rest⟩⟩⟩⟩
  · cases split
    exact ⟨⟨rfl, trivial⟩, rfl⟩
  · cases split
  · cases split
    exact ⟨⟨rfl, trivial⟩, rfl⟩
  · cases split
  · simp [punctual] at split

/-- Two special payloads arrive between two blocks. -/
def crowded : Feed Nat where
  arrivals := [.block ⟨1, [⟨fun _ => 1, fun _ => 0⟩]⟩,
    .special 1 [(0, ⟨(· + 10), (· - 10)⟩)], .special 1 [(1, ⟨(· + 100), (· - 100)⟩)], .block ⟨2, [⟨(· + 1), (· - 1)⟩]⟩]
  ordered := by decide
  nonzero := by decide
  nonempty height changes member := by
    simp only [List.mem_cons, Arrival.special.injEq, List.not_mem_nil, reduceCtorEq, or_false, false_or] at member
    rcases member with ⟨_, rfl⟩ | ⟨_, rfl⟩ <;> simp
  distinct := by decide

theorem crowded_lingers : ¬ crowded.ExecutedOnce 10 0 ∧ ¬ crowded.Transparent 10 0 := by
  constructor
  · rintro ⟨history, state, log, ran, once⟩
    have result : run 10 (0, []) (crowded.arrivals.map Arrival.observed) = .ok (_, _, [0, 0, 1]) := rfl
    rw [result] at ran
    cases ran
    exact absurd (once 0 (by decide)) (by decide)
  · intro transparent
    obtain ⟨history, state, ran, clean⟩ := transparent
      [.block ⟨1, [⟨fun _ => 1, fun _ => 0⟩]⟩, .special 1 [(0, ⟨(· + 10), (· - 10)⟩)],
        .special 1 [(1, ⟨(· + 100), (· - 100)⟩)]] ⟨2, [⟨(· + 1), (· - 1)⟩]⟩ [] rfl
    have dirty := congrArg Prod.snd (Except.ok.inj ran)
    have expected := congrArg Prod.snd (Except.ok.inj clean)
    exact absurd (dirty.trans expected.symm) (by decide)

end Feed
end Elastos.Utils
