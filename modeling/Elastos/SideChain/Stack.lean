import Elastos.Go.Outcome

/-! The random access stack of `SideChain/vm/utils`. Its slice has the top at
the end, while an index counts from the top. -/
set_option autoImplicit false
namespace Elastos.SideChain
open Go List

/-- What a cell of type `interface{}` holds: a value, or a slice that `Insert` has stored as a whole. -/
inductive Cell (α : Type) where
  | value (item : α)
  | slice (cells : List (Cell α))

variable {α : Type}

abbrev RandomAccessStack (α : Type) := List (Cell α)

namespace RandomAccessStack

/-- The elements below the new one are appended as one cell. -/
def insert (element : RandomAccessStack α) (index : Nat) (t : Cell α) : RandomAccessStack α :=
  if element.length < index then element
  else if index = 0 then element ++ [t]
  else [.slice (element.take (element.length - index))] ++ [t] ++ element.drop (element.length - index)

def peek (element : RandomAccessStack α) (index : Nat) : Option (Cell α) :=
  if element.length ≤ index then none else element[element.length - index - 1]?

def remove (element : RandomAccessStack α) (index : Nat) : RandomAccessStack α × Option (Cell α) :=
  if element.length ≤ index then (element, none)
  else (element.take (element.length - index - 1) ++ element.drop (element.length - index),
    element[element.length - index - 1]?)

/-- The index counts from the bottom here and in `swap`. -/
def set (element : RandomAccessStack α) (index : Nat) (t : Cell α) : RandomAccessStack α :=
  if element.length ≤ index then element else List.set element index t

def push (element : RandomAccessStack α) (t : Cell α) : RandomAccessStack α := element.insert 0 t

def pop (element : RandomAccessStack α) : RandomAccessStack α × Option (Cell α) := element.remove 0

def swap (element : RandomAccessStack α) (i j : Nat) : Outcome String (RandomAccessStack α) :=
  match element[i]?, element[j]? with
  | some first, some second => .ok ((List.set element i second).set j first)
  | _, _ => .crash "index out of range"

end RandomAccessStack

inductive Call (α : Type) where
  | push (t : Cell α)
  | pop
  | insert (index : Nat) (t : Cell α)
  | remove (index : Nat)
  | peek (index : Nat)
  | set (index : Nat) (t : Cell α)
  | swap (i j : Nat)

namespace Call

/-- The stack after a call, and what the call returns. -/
def run (stack : RandomAccessStack α) : Call α → Outcome String (RandomAccessStack α × Option (Cell α))
  | push t => .ok (stack.push t, none)
  | pop => .ok stack.pop
  | insert index t => .ok (stack.insert index t, none)
  | remove index => .ok (stack.remove index)
  | peek index => .ok (stack, stack.peek index)
  | set index t => .ok (stack.set index t, none)
  | swap i j => do .ok (← stack.swap i j, none)

def exchange (list : List (Cell α)) (i j : Nat) : List (Cell α) :=
  match list[i]?, list[j]? with
  | some first, some second => (list.set i second).set j first
  | _, _ => list

/-- What a call is meant to do to the list of the elements from the top down. -/
def onList (list : List (Cell α)) : Call α → List (Cell α) × Option (Cell α)
  | push t => (t :: list, none)
  | pop => (list.eraseIdx 0, list[0]?)
  | insert index t => (list.insertIdx index t, none)
  | remove index => (list.eraseIdx index, list[index]?)
  | peek index => (list, list[index]?)
  | set index t => (list.set index t, none)
  | swap i j => (exchange list i j, none)

def InRange (list : List (Cell α)) : Call α → Prop
  | push _ => True
  | pop => 0 < list.length
  | insert index _ => index ≤ list.length
  | remove index | peek index | set index _ => index < list.length
  | swap i j => i < list.length ∧ j < list.length

/-- Nothing is inserted below the top, and an index that counts from the bottom means the same elements. -/
def Mirrored (list : List (Cell α)) : Call α → Prop
  | insert index _ => index = 0
  | set index t => index + index + 1 = list.length ∨
      list[index]? = some t ∧ list[list.length - 1 - index]? = some t
  | swap i j => i + j + 1 = list.length ∨
      list[i]? = list[j]? ∧ list[list.length - 1 - i]? = list[list.length - 1 - j]?
  | _ => True

/-- A property of every call of a sequence, where it is made on the list that the calls before it leave. -/
def Along (property : List (Cell α) → Call α → Prop) : List (Call α) → List (Cell α) → Prop
  | [], _ => True
  | call :: rest, list => property list call ∧ Along property rest (call.onList list).1

/-- Every call of a sequence does to the stack what it is meant to do to the list, and returns the same. -/
def Follow : List (Call α) → RandomAccessStack α → Prop
  | [], _ => True
  | call :: rest, stack => ∃ next, call.run stack = .ok (next, (call.onList stack.reverse).2) ∧
      next.reverse = (call.onList stack.reverse).1 ∧ Follow rest next

section Mirror
variable {list : List (Cell α)} {i j : Nat} {t : Cell α}

theorem Cell.ne_slice (cell : Cell α) : Cell.slice [cell] ≠ cell := by
  intro same
  have sizes := congrArg sizeOf same
  simp only [Cell.slice.sizeOf_spec, cons.sizeOf_spec, nil.sizeOf_spec] at sizes
  omega

theorem insert_mirrored (inside : i ≤ list.length) :
    (RandomAccessStack.insert list.reverse i t).reverse = list.insertIdx i t ↔ i = 0 := by
  constructor
  · intro same
    by_contra below
    rw [RandomAccessStack.insert, if_neg (by simpa using inside), if_neg below] at same
    have lengths := congrArg length same
    simp [length_insertIdx, inside] at lengths
    -- The lists are equally long only where the bottom element would be the slice of itself alone.
    obtain ⟨above, bottom, rfl⟩ := (eq_nil_or_concat list).resolve_left (by rintro rfl; simp at lengths)
    obtain rfl : i = above.length := by
      simp at inside lengths
      omega
    have last := congrArg (·[above.length + 1]?) same
    exact Cell.ne_slice bottom (by simpa [getElem?_insertIdx] using last)
  · rintro rfl
    simp [RandomAccessStack.insert]

theorem set_mirrored (inside : i < list.length) : (List.set list.reverse i t).reverse = list.set i t ↔
    Mirrored list (.set i t) := by
  rw [Mirrored]
  constructor
  · intro same
    have here := congrArg (·[i]?) same
    have there := congrArg (·[list.length - 1 - i]?) same
    grind
  · intro mirrored
    apply ext_getElem?
    grind

theorem swap_mirrored (insideI : i < list.length) (insideJ : j < list.length) :
    (∃ next, RandomAccessStack.swap list.reverse i j = .ok next ∧ next.reverse = exchange list i j) ↔
      Mirrored list (.swap i j) := by
  have belowI : list.length - 1 - i < list.length := by omega
  have belowJ : list.length - 1 - j < list.length := by omega
  simp only [RandomAccessStack.swap, exchange, Mirrored, getElem?_reverse insideI, getElem?_reverse insideJ,
    getElem?_eq_getElem, insideI, insideJ, belowI, belowJ, Except.ok.injEq, exists_eq_left']
  constructor
  · intro same
    have hereI := congrArg (·[i]?) same
    have thereI := congrArg (·[list.length - 1 - i]?) same
    have hereJ := congrArg (·[j]?) same
    have thereJ := congrArg (·[list.length - 1 - j]?) same
    grind
  · intro mirrored
    apply ext_getElem?
    grind

theorem peek_mirrored (inside : i < list.length) : RandomAccessStack.peek list.reverse i = list[i]? := by
  rw [RandomAccessStack.peek, if_neg (by simpa using inside), length_reverse, getElem?_reverse (by omega)]
  congr 1
  omega

theorem remove_mirrored (inside : i < list.length) :
    RandomAccessStack.remove list.reverse i = ((list.eraseIdx i).reverse, list[i]?) := by
  have shown := peek_mirrored inside
  rw [RandomAccessStack.peek, if_neg (by simpa using inside)] at shown
  rw [RandomAccessStack.remove, if_neg (by simpa using inside), shown, length_reverse, take_reverse, drop_reverse,
    eraseIdx_eq_take_drop_succ, reverse_append]
  grind

theorem run_mirrored (call : Call α) (inRange : call.InRange list) :
    (∃ next, call.run list.reverse = .ok (next, (call.onList list).2) ∧ next.reverse = (call.onList list).1) ↔
      call.Mirrored list := by
  cases call with
  | push t => simp [run, onList, Mirrored, RandomAccessStack.push, RandomAccessStack.insert]
  | pop => simp [run, onList, Mirrored, RandomAccessStack.pop, remove_mirrored inRange]
  | insert index t => simpa [run, onList, Mirrored] using insert_mirrored inRange
  | remove index => simp [run, onList, Mirrored, remove_mirrored inRange]
  | peek index => simp [run, onList, Mirrored, peek_mirrored inRange]
  | set index t => simpa [run, onList, RandomAccessStack.set, Nat.not_le.2 inRange] using set_mirrored inRange
  | swap i j => simpa [run, onList, Outcome.bind_eq_ok] using swap_mirrored inRange.1 inRange.2

end Mirror

/-- The calls act on the elements from the top down exactly when each means the same from both ends. -/
theorem follow_iff_mirrored {calls : List (Call α)} {stack : RandomAccessStack α}
    (inRange : Along InRange calls stack.reverse) :
    Follow calls stack ↔ Along Mirrored calls stack.reverse := by
  induction calls generalizing stack with
  | nil => exact Iff.rfl
  | cons call rest ih =>
    have step := run_mirrored call inRange.1
    rw [reverse_reverse] at step
    constructor
    · rintro ⟨next, ran, mirror, follow⟩
      refine ⟨step.1 ⟨next, ran, mirror⟩, ?_⟩
      rw [← mirror]
      exact (ih (mirror ▸ inRange.2)).1 follow
    · rintro ⟨mirrored, along⟩
      obtain ⟨next, ran, mirror⟩ := step.2 mirrored
      exact ⟨next, ran, mirror, (ih (mirror ▸ inRange.2)).2 (mirror ▸ along)⟩

theorem follow_pushes : Follow [.push (.value 1), .push (.value 2), .swap 0 1, .remove 1] [] :=
  (follow_iff_mirrored (by simp [Along, InRange, onList, exchange])).2 (by simp [Along, Mirrored, onList])

theorem insert_unfollowed : Along InRange [.push (.value 1), .push (.value 2), .insert 1 (.value 3)] [] ∧
    ¬ Follow [.push (.value 1), .push (.value 2), .insert 1 (.value 3)] [] := by
  simp [Along, InRange, Follow, run, onList, RandomAccessStack.push, RandomAccessStack.insert]

end Call
end Elastos.SideChain
