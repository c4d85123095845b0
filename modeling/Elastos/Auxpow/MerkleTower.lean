import Elastos.Auxpow.AuxPowProperties

/-! The levels of a Merkle tree over a list of hashes. Every leaf has a branch up to the root that
`computeRoot` gives. -/
set_option autoImplicit false
namespace Elastos.Types.Merkle
open Common Crypto List

/-- The nodes that are paired on the way up, the last one with itself if it is left. -/
def pairs : List Uint256 → List (Uint256 × Uint256)
  | [] => []
  | [last] => [(last, last)]
  | left :: right :: rest => (left, right) :: pairs rest

def joined (prim : Primitives) : Nat → List Uint256 → List Bytes
  | 0, _ => []
  | steps + 1, nodes =>
    if nodes.length ≤ 1 then []
    else (pairs nodes).map (fun pair => pair.1.bytes ++ pair.2.bytes) ++ joined prim steps (levelUp prim nodes)

variable {prim : Primitives} {nodes : List Uint256}

theorem levelUp_eq (nodes : List Uint256) :
    levelUp prim nodes = (pairs nodes).map fun pair => computeParent prim pair.1 pair.2 := by
  induction nodes using pairs.induct with
  | case1 => rfl
  | case2 => rfl
  | case3 left right rest ih => rw [levelUp, pairs, map_cons, ih]

theorem pairs_length (nodes : List Uint256) : (pairs nodes).length = (nodes.length + 1) / 2 := by
  induction nodes using pairs.induct with
  | case1 => rfl
  | case2 => simp [pairs]
  | case3 left right rest ih =>
    simp only [pairs, List.length_cons, ih]
    omega

theorem mem_of_pairs {pair : Uint256 × Uint256} (member : pair ∈ pairs nodes) : pair.1 ∈ nodes ∧ pair.2 ∈ nodes := by
  induction nodes using pairs.induct with
  | case1 => cases member
  | case2 => simp_all [pairs]
  | case3 left right rest ih =>
    obtain rfl | member := mem_cons.1 member
    · simp
    · simp [ih member]

theorem exists_pair {node : Uint256} (member : node ∈ nodes) : ∃ pair ∈ pairs nodes, pair.1 = node ∨ pair.2 = node := by
  induction nodes using pairs.induct with
  | case1 => cases member
  | case2 => simp_all [pairs]
  | case3 left right rest ih =>
    rw [mem_cons, mem_cons] at member
    obtain rfl | rfl | member := member
    · exact ⟨(node, right), mem_cons_self, .inl rfl⟩
    · exact ⟨(left, node), mem_cons_self, .inr rfl⟩
    · obtain ⟨pair, inside, either⟩ := ih member
      exact ⟨pair, mem_cons_of_mem _ inside, either⟩

theorem single_tower (some : nodes ≠ []) (few : nodes.length ≤ 1) (inputs : List Bytes) :
    (Auxpow.treeHash prim).Tower inputs nodes (nodes.headD default) := by
  obtain ⟨root, rfl⟩ : ∃ root, nodes = [root] := length_eq_one_iff.1 (Nat.le_antisymm few (length_pos_iff.2 some))
  exact .top

theorem climb_tower (steps : Nat) (some : nodes ≠ []) (enough : nodes.length ≤ steps + 1) :
    (Auxpow.treeHash prim).Tower (joined prim steps nodes) nodes (climb prim steps nodes) := by
  induction steps generalizing nodes with
  | zero => exact single_tower some enough _
  | succ steps ih =>
    rw [joined, climb]
    split
    case isTrue few => exact single_tower some few _
    case isFalse more =>
      have count : (levelUp prim nodes).length = (nodes.length + 1) / 2 := by
        rw [levelUp_eq, length_map, pairs_length]
      have rest := @ih (levelUp prim nodes) (length_pos_iff.1 (by omega)) (by omega)
      refine .up (fun node member => ?_) (fun node member => ?_) (rest.mono (subset_append_right _ _))
      · rw [levelUp_eq] at member
        obtain ⟨pair, inside, rfl⟩ := mem_map.1 member
        obtain ⟨left, right⟩ := mem_of_pairs inside
        exact ⟨pair.1, left, pair.2, right, mem_append_left _ (mem_map.2 ⟨pair, inside, rfl⟩), rfl⟩
      · obtain ⟨pair, inside, either⟩ := exists_pair member
        have listed : pair.1.bytes ++ pair.2.bytes ∈ (pairs nodes).map (fun pair => pair.1.bytes ++ pair.2.bytes) ++
              joined prim steps (levelUp prim nodes) :=
          mem_append_left _ (mem_map.2 ⟨pair, inside, rfl⟩)
        have upper : computeParent prim pair.1 pair.2 ∈ levelUp prim nodes := by
          rw [levelUp_eq]
          exact mem_map.2 ⟨pair, inside, rfl⟩
        obtain rfl | rfl := either
        · exact ⟨false, pair.2, listed, upper⟩
        · exact ⟨true, pair.1, listed, upper⟩

/-- The tree over the transactions of a block. -/
theorem computeRoot_tower {hashes : List Uint256} {root : Uint256} (computed : computeRoot prim hashes = .ok root) :
    (Auxpow.treeHash prim).Tower (joined prim hashes.length hashes) hashes root := by
  unfold computeRoot at computed
  split at computed
  case h_1 => cases computed
  case h_2 =>
    cases computed
    exact .top
  case h_3 some _ =>
    cases computed
    exact climb_tower _ some (Nat.le_succ _)

end Elastos.Types.Merkle
