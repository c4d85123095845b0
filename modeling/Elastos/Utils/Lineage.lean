import Mathlib

/-! Chains of parent pointers. `Line parent item line` says that following the
pointers from `item` ends, and that `line` lists what is met on the way. -/
set_option autoImplicit false
namespace Elastos.Utils
open List
variable {ι : Type}

inductive Line (parent : ι → Option ι) : ι → List ι → Prop where
  | root {item} : parent item = none → Line parent item [item]
  | step {item next rest} : parent item = some next → Line parent next rest → Line parent item (item :: rest)

namespace Line
variable {parent parent' : ι → Option ι} {item other : ι} {line line' front back : List ι}

theorem head (walk : Line parent item line) : ∃ rest, line = item :: rest := by
  cases walk with
  | root _ => exact ⟨[], rfl⟩
  | step _ _ => exact ⟨_, rfl⟩

theorem last (walk : Line parent item line) : ∃ front other, line = front ++ [other] := by
  obtain ⟨rest, equal⟩ := walk.head
  exact ⟨_, _, (dropLast_append_getLast (by simp [equal])).symm⟩

theorem unique (walk : Line parent item line) (walk' : Line parent item line') : line = line' := by
  induction walk generalizing line' with
  | root none =>
    cases walk' with
    | root _ => rfl
    | step some _ => rw [none] at some; cases some
  | step some _ ih =>
    cases walk' with
    | root none => rw [none] at some; cases some
    | step some' rest' =>
      rw [some] at some'
      cases some'
      rw [ih rest']

theorem tail {first : ι} (walk : Line parent item (first :: line)) (more : line ≠ []) :
    ∃ next, parent item = some next ∧ Line parent next line := by
  generalize whole : first :: line = both at walk
  cases walk with
  | root _ =>
    cases whole
    exact absurd rfl more
  | step some inner =>
    cases whole
    exact ⟨_, some, inner⟩

theorem suffix (walk : Line parent item (front ++ other :: back)) : Line parent other (other :: back) := by
  induction front generalizing item with
  | nil =>
    obtain ⟨rest, equal⟩ := walk.head
    cases equal
    exact walk
  | cons first front ih =>
    obtain ⟨next, -, inner⟩ := walk.tail (by simp)
    exact ih inner

theorem of_mem (walk : Line parent item line) (member : other ∈ line) :
    ∃ front back, line = front ++ other :: back ∧ Line parent other (other :: back) := by
  obtain ⟨front, back, rfl⟩ := append_of_mem member
  exact ⟨front, back, rfl, walk.suffix⟩

theorem linked {next : ι} (walk : Line parent item (front ++ other :: next :: back)) : parent other = some next := by
  cases walk.suffix with
  | step some inner =>
    obtain ⟨rest, equal⟩ := inner.head
    cases equal
    exact some

theorem last_root (walk : Line parent item (front ++ [other])) : parent other = none := by
  cases walk.suffix with
  | root none => exact none
  | step _ inner =>
    obtain ⟨rest, equal⟩ := inner.head
    cases equal

/-- An item that came back would come back for ever. -/
theorem nodup (walk : Line parent item line) : line.Nodup := by
  induction walk with
  | root _ => simp
  | @step item next rest some inner ih =>
    refine nodup_cons.2 ⟨fun again => ?_, ih⟩
    obtain ⟨front, back, equal, walkAgain⟩ := inner.of_mem again
    have same := walkAgain.unique (.step some inner)
    have lengths := congrArg List.length same
    rw [equal] at lengths
    simp only [length_cons, length_append] at lengths
    omega

theorem congr (walk : Line parent item line)
    (same : ∀ member ∈ line, parent' member = parent member) : Line parent' item line := by
  induction walk with
  | root none => exact .root (by rw [same _ (by simp), none])
  | step some _ ih =>
    refine .step (by rw [same _ (by simp), some]) (ih fun member inRest => ?_)
    exact same member (mem_cons_of_mem _ inRest)

/-- Cutting the pointer of one item ends the lines through it there. -/
theorem cut (walk : Line parent item (front ++ other :: back))
    (same : ∀ member ∈ front, parent' member = parent member) (none : parent' other = none) :
    Line parent' item (front ++ [other]) := by
  induction front generalizing item with
  | nil =>
    obtain ⟨rest, equal⟩ := walk.head
    cases equal
    exact .root none
  | cons first front ih =>
    obtain ⟨next, some, inner⟩ := walk.tail (by simp)
    obtain ⟨rest, equal⟩ := walk.head
    cases equal
    refine .step (by rw [same _ (by simp), some]) (ih inner fun member inFront => ?_)
    exact same member (mem_cons_of_mem _ inFront)

/-- Two lines that meet have a fork: from there on they are one, and before it
nothing of the second lies on the first. -/
theorem fork {main : List ι} {best : ι} (mainWalk : Line parent best main)
    (walk : Line parent item line) (meets : ∃ member ∈ line, member ∈ main) :
    ∃ detach attach point rest, main = detach ++ point :: rest ∧
      line = attach ++ point :: rest ∧ ∀ member ∈ attach, member ∉ main := by
  classical
  induction walk with
  | @root item none =>
    obtain ⟨member, inLine, inMain⟩ := meets
    cases mem_singleton.1 inLine
    obtain ⟨detach, rest, equal, pointWalk⟩ := mainWalk.of_mem inMain
    have same := pointWalk.unique (.root none)
    cases same
    exact ⟨detach, [], _, [], equal, rfl, by simp⟩
  | @step item next rest some inner ih =>
    by_cases inMain : item ∈ main
    · obtain ⟨detach, rest', equal, pointWalk⟩ := mainWalk.of_mem inMain
      have same := pointWalk.unique (.step some inner)
      cases same
      exact ⟨detach, [], item, rest, equal, rfl, by simp⟩
    obtain ⟨member, inLine, memberMain⟩ := meets
    have inRest : member ∈ rest := by
      rcases mem_cons.1 inLine with rfl | inRest
      · exact absurd memberMain inMain
      · exact inRest
    obtain ⟨detach, attach, point, rest', mainEq, restEq, apart⟩ := ih ⟨member, inRest, memberMain⟩
    refine ⟨detach, item :: attach, point, rest', mainEq, by rw [restEq]; rfl, ?_⟩
    intro other inAttach
    rcases mem_cons.1 inAttach with rfl | inAttach
    · exact inMain
    · exact apart other inAttach

end Line
end Elastos.Utils
