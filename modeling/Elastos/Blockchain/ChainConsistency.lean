import Elastos.Blockchain.ChainReach

/-! The views of the main chain agree: the best node and its ancestors, the list of
nodes by height, the flags, and the branches found from them. -/
set_option autoImplicit false
namespace Elastos.Blockchain.Chain
open Common Elastos.Types Utils

/-- The main chain, from `best` down to its oldest node in memory, is what the list of
nodes and the flags of the index say. A branch that leaves it in memory is found with
its two ends: down from the best node to the fork, and up from the fork to the node. -/
structure Consistent (tree : BlockTree) (best : Nat) (path : List Nat) : Prop where
  tip : tree.bestChain = some best
  walk : Line tree.parentOf best path
  length : tree.nodes.length = tree.heightOf best + 1
  descends : ∀ position id, path[position]? = some id → tree.heightOf id + position = tree.heightOf best
  placed : ∀ id ∈ path, tree.nodes[tree.heightOf id]? = some (some id)
  flagged : ∀ hash id, tree.index.lookup hash = some id →
    ((tree.node id).inMainChain = true ↔ ∃ member ∈ path, (tree.node member).hash = hash)
  forks : ∀ hash id line, tree.index.lookup hash = some id → Line tree.parentOf id line →
    (∃ member ∈ line, ∃ main ∈ path, (tree.node member).hash = (tree.node main).hash) →
    ∃ detach attach fork fork' rest rest', path = detach ++ fork :: rest ∧
      line = attach ++ fork' :: rest' ∧ (tree.node fork).hash = (tree.node fork').hash ∧
      (∀ member ∈ attach, ∀ main ∈ path, (tree.node member).hash ≠ (tree.node main).hash) ∧
      tree.getReorganizeNodes id = (detach, attach.reverse)

section Consistency
variable {σ : Type} {backend : Backend σ} {chain : Chain σ} {path : List Nat}

theorem mem_of_hash (loaded : chain.root ≠ none ∧
      ∀ id ∈ path, chain.index.lookup (chain.node id).hash = some id) {id main : Nat}
    (found : chain.index.lookup (chain.node id).hash = some id) (inPath : main ∈ path)
    (same : (chain.node id).hash = (chain.node main).hash) : id ∈ path := by
  have held := loaded.2 main inPath
  rw [← same, found] at held
  cases held
  exact inPath

theorem Sound.forks (sound : Sound backend chain path) {hash : Uint256} {id : Nat}
    {line : List Nat} (found : chain.index.lookup hash = some id) (walk : Line chain.parentOf id line)
    (meets : ∃ member ∈ line, ∃ main ∈ path, (chain.node member).hash = (chain.node main).hash) :
    ∃ detach attach fork fork' rest rest', path = detach ++ fork :: rest ∧
      line = attach ++ fork' :: rest' ∧ (chain.node fork).hash = (chain.node fork').hash ∧
      (∀ member ∈ attach, ∀ main ∈ path, (chain.node member).hash ≠ (chain.node main).hash) ∧
      chain.getReorganizeNodes id = (detach, attach.reverse) := by
  have indexed := sound.family.line_indexed walk found (sound.main.indexed hash id found).2
  rcases sound.main.held with loaded | ⟨genesis, unloaded⟩
  · obtain ⟨member, inLine, main, inPath, same⟩ := meets
    have onPath := mem_of_hash loaded (indexed member inLine) inPath same
    obtain ⟨detach, attach, point, rest, nodes, pathEq, lineEq, apart⟩ :=
      sound.main.reorganizeNodes_of_meets sound.family loaded found walk ⟨member, inLine, onPath⟩
    refine ⟨detach, attach, point, point, rest, rest, pathEq, lineEq, rfl,
      fun other inAttach main' inPath' same' => ?_, nodes⟩
    exact apart other inAttach (mem_of_hash loaded (indexed other (by rw [lineEq]; simp [inAttach])) inPath' same')
  · -- the genesis node at the tip has a twin in the index
    obtain ⟨sameHash, orphaned, -⟩ := unloaded.twin hash id found
    have alone := walk.unique (.root orphaned)
    refine ⟨[], [], genesis, id, [], [], by rw [unloaded.alone]; rfl, by rw [alone]; rfl, ?_,
      by simp, sound.main.reorganizeNodes_of_unloaded unloaded found⟩
    rw [(sound.main.indexed hash id found).2, sameHash]

theorem Sound.consistent (sound : Sound backend chain path) : ∃ best, Consistent chain.toBlockTree best path := by
  obtain ⟨best, tip, walk⟩ := sound.main.tip
  have length := sound.main.length_tip tip
  refine ⟨best, tip, walk, length, fun position id found => ?_, sound.main.placed,
    fun hash id found => ⟨sound.main.marked hash id found, ?_⟩,
    fun hash id line found walk meets => sound.forks found walk meets⟩
  · have depth := sound.main.depth position id found
    omega
  · rintro ⟨member, inPath, same⟩
    rcases sound.main.held with loaded | ⟨genesis, unloaded⟩
    · have held := loaded.2 member inPath
      rw [same, found] at held
      cases held
      exact sound.main.flagged id inPath
    · exact (unloaded.twin hash id found).2.2.2.1

/-- The block hangs on blocks in memory. -/
def Hanging (backend : Backend σ) (call : Call σ) : Prop :=
  Remembered backend call.chain call.block

/-- The branch of a block that the chain is told to reorganize to leaves the main chain
in memory. -/
def Rejoins (backend : Backend σ) (chain : Chain σ) (block : Block) : Prop :=
  ∀ id ∈ chain.index.lookup (block.hash backend.prim), chain.Anchored id

/-- In every state of every run in which blocks hang on blocks in memory, whether they
are accepted or rejected, the views of the main chain agree. -/
theorem consistent_along {writes : List Bool} {ledger : σ}
    (reached : Reaches backend (Hanging backend) (Rejoins backend) (create backend writes [] ledger) chain) :
    ∃ best path, Consistent chain.toBlockTree best path := by
  have lasting : Lasting backend (Hanging backend) (Rejoins backend) fun _ => True :=
    ⟨fun _ hanging => hanging, fun _ _ _ _ _ => trivial, fun _ _ _ _ _ => trivial,
      fun rejoins => rejoins, fun _ _ _ _ => trivial⟩
  obtain ⟨⟨path, sound⟩, -⟩ := Reaches.kept lasting reached
    ⟨⟨[0], create_sound backend writes ledger⟩, create_waiting backend writes ledger, trivial⟩
  obtain ⟨best, consistent⟩ := sound.consistent
  exact ⟨best, path, consistent⟩

/-- What the height index, the block store and the pool of orphans say of each other. An
orphan that the chain has taken in has a parent that the chain has taken in. -/
structure StoresAgree (backend : Backend σ) (chain : Chain σ) : Prop where
  heights : ∀ hash height, chain.heights.lookup hash = some height ↔ chain.hashAt height.toNat = some hash
  backed : ∀ hash height, chain.heights.lookup hash = some height →
    ∃ entry, chain.stored.lookup hash = some entry ∧ entry.1.hash backend.prim = hash
  orphans : ∀ key orphan, chain.Waits key orphan → orphan.block.previous = key ∧
    chain.orphans.lookup (orphan.block.hash backend.prim) = some orphan ∧
    (chain.Known (orphan.block.hash backend.prim) → chain.Known key)

/-- The stores agree in every state of every run in which blocks hang on blocks in memory. -/
theorem stores_agree {writes : List Bool} {ledger : σ}
    (reached : Reaches backend (Hanging backend) (Rejoins backend) (create backend writes [] ledger) chain) :
    StoresAgree backend chain := by
  have lasting : Lasting backend (Hanging backend) (Rejoins backend) fun _ => True :=
    ⟨fun _ hanging => hanging, fun _ _ _ _ _ => trivial, fun _ _ _ _ _ => trivial,
      fun rejoins => rejoins, fun _ _ _ _ => trivial⟩
  obtain ⟨⟨path, sound⟩, waiting, -⟩ := Reaches.kept lasting reached
    ⟨⟨[0], create_sound backend writes ledger⟩, create_waiting backend writes ledger, trivial⟩
  refine ⟨sound.recorded, fun hash height found => ?_, fun key orphan waits => ?_⟩
  · have backed := sound.backed hash height found
    cases stored : chain.stored.lookup hash with
    | none => simp [stored] at backed
    | some entry => exact ⟨entry, rfl, sound.keyed hash entry stored⟩
  · obtain ⟨parent, listed⟩ := waiting.filed key orphan waits
    exact ⟨parent, listed, fun known => ((waiting.unknown key orphan waits).resolve_left (not_not.2 known)).1⟩

end Consistency

section Small

open SmallTree

instance (call : Call Unit) : Decidable (Hanging backend call) :=
  inferInstanceAs (Decidable (Remembered backend call.chain call.block))

theorem consistent_along_small : ∃ chain, Reaches backend (Hanging backend) (Rejoins backend)
      (create backend [] [] ()) chain ∧ chain.nodes.length = 3 ∧
    ∃ best path, Consistent chain.toBlockTree best path := by
  -- the second of two quick blocks takes three blocks off the main chain
  obtain ⟨chain, reached, length⟩ := reaches_of (Hanging backend) (Rejoins backend)
    (chainOf genesisBlock [] [240, 480, 720] ++ chainOf genesisBlock [] [10, 20]) (create backend [] [] ())
    (·.nodes.length = 3) (by decide +kernel)
  exact ⟨chain, reached, length, consistent_along reached⟩

/-- The list of nodes is one longer than the main chain when the index could not be
written. -/
theorem unflushed_inconsistent : ¬ ∀ {flushes : List Bool} {chain : Chain Unit},
    Reaches backend (fun _ => True) (fun _ _ => True) (create backend [] flushes ()) chain →
    ∃ best path, Consistent chain.toBlockTree best path := by
  intro consistent
  obtain ⟨chain, reached, best, tip, differs⟩ := reaches_of (fun _ => True) (fun _ _ => True)
    (chainOf genesisBlock [] [240]) (create backend [] [false] ())
    (fun chain => ∃ best ∈ chain.bestChain, chain.nodes.length ≠ chain.heightOf best + 1) (by decide +kernel)
  obtain ⟨best', path, agrees⟩ := consistent reached
  cases tip.symm.trans agrees.tip
  exact differs agrees.length

theorem stores_agree_small : ∃ chain, Reaches backend (Hanging backend) (Rejoins backend)
      (create backend [] [] ()) chain ∧ chain.hashAt 2 ≠ none ∧ chain.orphans.keys ≠ [] ∧
        StoresAgree backend chain := by
  obtain ⟨chain, reached, tall, waiting⟩ := reaches_of (Hanging backend) (Rejoins backend)
    ((chainOf genesisBlock [] [240, 480, 720, 960]).eraseIdx 2) (create backend [] [] ())
    (fun chain => chain.hashAt 2 ≠ none ∧ chain.orphans.keys ≠ []) (by decide +kernel)
  exact ⟨chain, reached, tall, waiting, stores_agree reached⟩

end Small
end Elastos.Blockchain.Chain
