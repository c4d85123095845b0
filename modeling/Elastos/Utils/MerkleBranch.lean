import Mathlib

/-! Branches of a binary hash tree, listed from the leaf to the root. Nothing is assumed of
the hash function; where a result needs it to be free of collisions, it says on which
inputs. -/
set_option autoImplicit false
namespace Elastos.Utils
open List
universe u v
variable {δ : Type u} {β : Type v}

/-- How digests are hashed, and how two of them are put together for it. -/
structure TreeHash (δ : Type u) (β : Type v) where
  hash : β → δ
  join : δ → δ → β
  join_inj : ∀ {left right left' right'}, join left right = join left' right' →
    left = left' ∧ right = right'

namespace TreeHash
variable (tree : TreeHash δ β)

/-- What is hashed one level above a node, which is the right child or the left one. -/
def preimage (right : Bool) (node sibling : δ) : β :=
  if right then tree.join sibling node else tree.join node sibling

/-- The root above a leaf, along a branch of sides and siblings. -/
def rootOf (leaf : δ) : List (Bool × δ) → δ
  | [] => leaf
  | (right, sibling) :: rest => rootOf (tree.hash (tree.preimage right leaf sibling)) rest

def hashed (leaf : δ) : List (Bool × δ) → List β
  | [] => []
  | (right, sibling) :: rest =>
    tree.preimage right leaf sibling ::
      hashed (tree.hash (tree.preimage right leaf sibling)) rest

/-- Different inputs among the listed ones have different digests. -/
def CollisionFree (inputs : List β) : Prop :=
  ∀ left ∈ inputs, ∀ right ∈ inputs, tree.hash left = tree.hash right → left = right

instance [DecidableEq δ] [DecidableEq β] (inputs : List β) : Decidable (tree.CollisionFree inputs) :=
  inferInstanceAs (Decidable (∀ left ∈ inputs, ∀ right ∈ inputs, _ → _))

variable {tree} {leaf leaf' : δ} {branch branch' lower upper : List (Bool × δ)}
  {inputs inputs' : List β}

theorem CollisionFree.mono (free : tree.CollisionFree inputs') (within : inputs ⊆ inputs') :
    tree.CollisionFree inputs :=
  fun left leftMember right rightMember =>
    free left (within leftMember) right (within rightMember)

theorem preimage_inj {right : Bool} {node sibling node' sibling' : δ}
    (same : tree.preimage right node sibling = tree.preimage right node' sibling') : node = node' := by
  cases right with
  | true => exact (tree.join_inj same).2
  | false => exact (tree.join_inj same).1

theorem rootOf_append : tree.rootOf leaf (lower ++ upper) = tree.rootOf (tree.rootOf leaf lower) upper := by
  induction lower generalizing leaf with
  | nil => rfl
  | cons entry rest ih => exact ih

theorem hashed_append : tree.hashed leaf (lower ++ upper) =
      tree.hashed leaf lower ++ tree.hashed (tree.rootOf leaf lower) upper := by
  induction lower generalizing leaf with
  | nil => rfl
  | cons entry rest ih => exact congrArg _ ih

/-- Above the leaf itself every node is the digest of something hashed on the way. -/
theorem rootOf_hashed (leaf : δ) (climbed : branch ≠ []) :
    ∃ right node sibling, tree.preimage right node sibling ∈ tree.hashed leaf branch ∧
      tree.rootOf leaf branch = tree.hash (tree.preimage right node sibling) := by
  induction branch generalizing leaf with
  | nil => exact absurd rfl climbed
  | cons entry rest ih =>
    obtain ⟨right, sibling⟩ := entry
    cases rest with
    | nil => exact ⟨right, leaf, sibling, by simp [hashed], rfl⟩
    | cons next rest =>
      obtain ⟨right', node', sibling', member, equal⟩ := ih (tree.hash (tree.preimage right leaf sibling)) (by simp)
      exact ⟨right', node', sibling', mem_cons_of_mem _ member, equal⟩

/-- Two branches that take the same sides to the same root start from the same leaf. -/
theorem leaf_unique (sides : branch.map Prod.fst = branch'.map Prod.fst)
    (free : tree.CollisionFree (tree.hashed leaf branch ++ tree.hashed leaf' branch'))
    (same : tree.rootOf leaf branch = tree.rootOf leaf' branch') : leaf = leaf' := by
  induction branch generalizing leaf leaf' branch' with
  | nil =>
    cases branch' with
    | nil => exact same
    | cons entry' rest' => simp at sides
  | cons entry rest ih =>
    cases branch' with
    | nil => simp at sides
    | cons entry' rest' =>
      obtain ⟨right, sibling⟩ := entry
      obtain ⟨right', sibling'⟩ := entry'
      simp only [map_cons, List.cons.injEq] at sides
      obtain ⟨rfl, sides⟩ := sides
      have above := ih sides (free.mono fun input member => by
        simp only [hashed, mem_append, mem_cons] at member ⊢
        tauto) same
      refine preimage_inj (free _ ?_ _ ?_ above)
      · simp [hashed]
      · simp [hashed]

/-- When one branch ends where the other is still climbing, the leaf of the shorter one is
a node of the longer one. -/
theorem leaf_of_suffix (sides : branch.map Prod.fst <:+ branch'.map Prod.fst)
    (free : tree.CollisionFree (tree.hashed leaf branch ++ tree.hashed leaf' branch'))
    (same : tree.rootOf leaf branch = tree.rootOf leaf' branch') :
    ∃ lower upper, branch' = lower ++ upper ∧ leaf = tree.rootOf leaf' lower := by
  obtain ⟨front, split⟩ := sides
  obtain ⟨lower, upper, rfl, -, upperSides⟩ := map_eq_append_iff.1 split.symm
  rw [rootOf_append] at same
  refine ⟨lower, upper, rfl, leaf_unique upperSides.symm (free.mono fun input member => ?_) same⟩
  rw [hashed_append]
  simp only [mem_append] at member ⊢
  tauto

/-- The levels of a tree over some nodes: each node of a level is the digest of two nodes below
it, and each node below has a part in one above. All that is hashed is listed. -/
inductive Tower (tree : TreeHash δ β) (inputs : List β) : List δ → δ → Prop where
  | top {root : δ} : Tower tree inputs [root] root
  | up {nodes upper : List δ} {root : δ}
      (below : ∀ node ∈ upper, ∃ left ∈ nodes, ∃ right ∈ nodes,
        tree.join left right ∈ inputs ∧ node = tree.hash (tree.join left right))
      (above : ∀ node ∈ nodes, ∃ right sibling, tree.preimage right node sibling ∈ inputs ∧
        tree.hash (tree.preimage right node sibling) ∈ upper)
      (rest : Tower tree inputs upper root) : Tower tree inputs nodes root

variable {nodes : List δ} {root : δ}

section
variable (tower : tree.Tower inputs nodes root)
include tower

theorem Tower.mono (within : inputs ⊆ inputs') :
    tree.Tower inputs' nodes root := by
  induction tower with
  | top => exact .top
  | up below above _ ih =>
    refine .up (fun node member => ?_) (fun node member => ?_) ih
    · obtain ⟨left, inLeft, right, inRight, listed, equal⟩ := below node member
      exact ⟨left, inLeft, right, inRight, within listed, equal⟩
    · obtain ⟨right, sibling, listed, upper⟩ := above node member
      exact ⟨right, sibling, within listed, upper⟩

/-- A branch to the root of a tree passes through one of its leaves, or it starts above them. -/
theorem Tower.descend (free : tree.CollisionFree (inputs ++ tree.hashed leaf branch))
    (same : tree.rootOf leaf branch = root) :
    (∃ lower upper, branch = lower ++ upper ∧ tree.rootOf leaf lower ∈ nodes) ∨
      ∃ left right, tree.join left right ∈ inputs ∧ leaf = tree.hash (tree.join left right) := by
  induction tower with
  | top => exact .inl ⟨branch, [], by simp, by simp [same]⟩
  | @up nodes _ _ below _ _ ih =>
    obtain ⟨lower, upper, rfl, member⟩ | inner := ih same
    · obtain ⟨left, inLeft, right, inRight, listed, equal⟩ := below _ member
      obtain rfl | ⟨front, ⟨side, sibling⟩, rfl⟩ := eq_nil_or_concat' lower
      · exact .inr ⟨left, right, listed, equal⟩
      rw [rootOf_append] at equal
      have joined : tree.preimage side (tree.rootOf leaf front) sibling = tree.join left right := by
        refine free _ (mem_append_right _ ?_) _ (mem_append_left _ listed) equal
        rw [append_assoc, hashed_append]
        simp [hashed]
      refine .inl ⟨front, (side, sibling) :: upper, by simp, ?_⟩
      cases side with
      | true => exact (tree.join_inj joined).2 ▸ inRight
      | false => exact (tree.join_inj joined).1 ▸ inLeft
    · exact .inr inner

/-- Every leaf of a tree has a branch to its root. -/
theorem Tower.exists_branch {node : δ} (member : node ∈ nodes) :
    ∃ branch, tree.rootOf node branch = root ∧ tree.hashed node branch ⊆ inputs := by
  induction tower generalizing node with
  | top =>
    rw [mem_singleton.1 member]
    exact ⟨[], rfl, by simp [hashed]⟩
  | up _ above _ ih =>
    obtain ⟨right, sibling, listed, upper⟩ := above node member
    obtain ⟨rest, same, within⟩ := ih upper
    exact ⟨(right, sibling) :: rest, same, cons_subset.2 ⟨listed, within⟩⟩

end

end TreeHash
end Elastos.Utils
