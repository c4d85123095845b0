import Elastos.Blockchain.ChainNewNode

/-! Accepting a block: it extends the main chain, waits on a side chain, or the main
chain is reorganized to it. -/
set_option autoImplicit false
namespace Elastos.Blockchain
open Go Go.Method Common Elastos.Types Utils BlockTree
namespace BlockTree
variable {tree tree' : BlockTree}

section
variable (same : SameShape tree tree')
include same

theorem climb_congr (stops : Nat → Bool) (bound id : Nat) : tree'.climb stops bound id = tree.climb stops bound id := by
  induction bound generalizing id with
  | zero => rfl
  | succ bound ih =>
    have parent : (tree'.node id).parent = (tree.node id).parent := same.parent id
    rw [climb, climb, parent]
    simp only [ih]

theorem attachNodes_congr (flags : ∀ id, (tree'.node id).inMainChain = (tree.node id).inMainChain)
    (bound id : Nat) (attach : List Nat) : tree'.attachNodes bound id attach = tree.attachNodes bound id attach := by
  simp only [attachNodes_eq, climb_congr same, flags]

theorem detachNodes_congr (hash : Uint256) (bound : Nat) (tip : Option Nat) :
    tree'.detachNodes hash bound tip = tree.detachNodes hash bound tip := by
  cases tip with
  | none => cases bound <;> rfl
  | some id => simp only [detachNodes_eq, climb_congr same, same.hash]

/-- Finding the fork of a branch does not look at the index. -/
theorem getReorganizeNodes_congr (flags : ∀ id, (tree'.node id).inMainChain = (tree.node id).inMainChain)
    (bestChain : tree'.bestChain = tree.bestChain) (id : Nat) :
    tree'.getReorganizeNodes id = tree.getReorganizeNodes id := by
  simp only [getReorganizeNodes, same.cells, attachNodes_congr same flags, detachNodes_congr same, same.hash, bestChain]

/-- The fork of a branch from the main chain is in memory. -/
def Anchored (tree : BlockTree) (id : Nat) : Prop :=
  (tree.node (tree.attachNodes tree.cells.length id []).1).inMainChain = true

end

instance (id : Nat) : Decidable (tree.Anchored id) := by
  unfold Anchored
  infer_instance

theorem MainChain.meets_of_anchored {path line : List Nat} (main : tree.MainChain path)
    (family : tree.Family) (loaded : tree.root ≠ none ∧ ∀ id ∈ path, tree.index.lookup (tree.node id).hash = some id)
    {hash : Uint256} {id : Nat} (found : tree.index.lookup hash = some id)
    (walk : Line tree.parentOf id line) (anchored : tree.Anchored id) : ∃ member ∈ line, member ∈ path := by
  by_contra apart
  have apart' := fun member inLine =>
    main.unflagged_of_apart family loaded found walk inLine fun inPath => apart ⟨member, inLine, inPath⟩
  obtain ⟨front, last, rfl⟩ := walk.last
  have bound := main.rooted.line_length walk (main.indexed hash id found).1
  rw [List.length_append] at bound
  rw [Anchored, attachNodes_eq, climb_line walk (by omega) (fun member inFront => apart' member (by simp [inFront]))
    (.inr rfl), apart' last (by simp)] at anchored
  cases anchored

end BlockTree

namespace Chain
variable {σ : Type} {backend : Backend σ} {chain after made : Chain σ} {path keep : List Nat}

/-- A block that makes the chain reorganize: its branch has more work than the main
chain, which it does not extend, and leaves it at most so far down as is allowed. -/
def TakesOver (backend : Backend σ) (block : Block) (made : Chain σ) (id : Nat) : Prop :=
  ∃ best ∈ made.bestChain, ∃ parent ∈ made.parentOf id, (made.node parent).hash ≠ (made.node best).hash ∧
    (made.node best).workSum < (made.node id).workSum ∧
    ¬ forbidsReorganize backend block.height (made.getReorganizeNodes id).1

instance (block : Block) (id : Nat) : Decidable (TakesOver backend block made id) := by
  unfold TakesOver
  infer_instance

section Branch

def withSide (made : Chain σ) (id parent : Nat) (block : Block) (confirm : Option Confirm) : Chain σ :=
  { made with
    toBlockTree := ((made.toBlockTree.addNode id).setInMainChain id false).addChild parent id
    blockCache := made.blockCache.insert (made.node id).hash block
    confirmCache := made.confirmCache.insert (made.node id).hash confirm }

theorem addSideBlock_run (id parent : Nat) (block : Block) (confirm : Option Confirm) :
    addSideBlock id parent block confirm made = (.ok (), made.withSide id parent block confirm) := rfl

theorem addSideBlock_ensures {id parent : Nat} {block : Block} {confirm : Option Confirm} {failed : Chain σ → Prop} :
    Ensures (· = made) (addSideBlock id parent block confirm)
      (fun _ state => state = made.withSide id parent block confirm) failed := by
  rintro state rfl
  rw [addSideBlock_run]

variable {id parent : Nat} {block : Block} {confirm : Option Confirm}

theorem withSide_shape : BlockTree.SameShape made.toBlockTree (made.withSide id parent block confirm).toBlockTree := by
  have added : BlockTree.SameShape made.toBlockTree (made.toBlockTree.addNode id) := .of_cells rfl
  have unflagged := added.trans (.setInMainChain id false)
  exact unflagged.trans (.addChild parent id)

theorem withSide_field {β : Type} (field : ChainNode → β)
    (flag : ∀ node, field { node with inMainChain := false } = field node)
    (children : ∀ node more, field { node with children := more } = field node) (other : Nat) :
    field ((made.withSide id parent block confirm).node other) = field (made.node other) := by
  have first := ((made.toBlockTree.addNode id).setInMainChain id false).field_modifyNode field
    (fun node => children node (node.children ++ [id])) parent other
  exact first.trans ((made.toBlockTree.addNode id).field_modifyNode field flag id other)

theorem withSide_work (other : Nat) :
    ((made.withSide id parent block confirm).node other).workSum = (made.node other).workSum :=
  withSide_field ChainNode.workSum (fun _ => rfl) (fun _ _ => rfl) other

theorem withSide_flag (unflagged : (made.node id).inMainChain = false) (other : Nat) :
    ((made.withSide id parent block confirm).node other).inMainChain = (made.node other).inMainChain := by
  refine (field_modifyNode _ ChainNode.inMainChain (by intro; rfl) parent other).trans ?_
  refine ((made.toBlockTree.addNode id).flag_setInMainChain id false other).trans ?_
  split
  · rename_i here
    rw [← here.1, unflagged]
  · rfl

theorem withSide_children (start : parent < made.cells.length) (other : Nat) :
    ((made.withSide id parent block confirm).node other).children =
      if other = parent then (made.node other).children ++ [id]
      else (made.node other).children := by
  have kept : ∀ other, (((made.toBlockTree.addNode id).setInMainChain id false).node
      other).children = (made.node other).children :=
    (made.toBlockTree.addNode id).field_modifyNode ChainNode.children (by intro; rfl) id
  have start' : parent < ((made.toBlockTree.addNode id).setInMainChain id false).cells.length := by
    rw [setInMainChain, cells_modifyNode]
    exact start
  rw [← kept]
  exact children_addChild _ start' other

theorem withSide_index (hash : Uint256) : (made.withSide id parent block confirm).index.lookup hash =
      if hash = (made.node id).hash then some id else made.index.lookup hash :=
  GoMap.lookup_insert_eq ..

/-- A new block on a parent in memory that is not the tip goes to a side chain. -/
theorem Sound.withSide (sound : Sound backend made keep) (start : id < made.cells.length)
    (pointer : made.parentOf id = some parent) (loaded : made.root ≠ none ∧
      ∀ id ∈ keep, made.index.lookup (made.node id).hash = some id)
    (known : made.index.lookup (made.node parent).hash = some parent)
    (unflagged : (made.node id).inMainChain = false) (own : (made.node id).hash = block.hash backend.prim)
    (fresh : ¬ made.Known (block.hash backend.prim)) : Sound backend (made.withSide id parent block confirm) keep := by
  rw [← own] at fresh
  have absent := Option.not_isSome_iff_eq_none.1 (not_or.1 fresh).1
  have shape := @withSide_shape _ made id parent block confirm
  have view : ∀ height, (made.withSide id parent block confirm).hashAt height =
      made.hashAt height := fun height => hashAt_congr rfl shape.hash
  refine ⟨⟨sound.main.addSide loaded parent start unflagged absent, sound.flushing,
    fun none => absurd none loaded.1, sound.keyed, ?_, ?_, sound.backed, ?_⟩, ?_⟩
  · intro hash other found
    change (made.blockCache.insert (made.node id).hash block).lookup hash = _ at found
    rw [GoMap.lookup_insert_eq] at found
    split at found
    · rename_i here
      cases found
      rw [← own, here]
    · exact sound.cached hash other found
  · intro hash height
    rw [view]
    exact sound.recorded hash height
  · intro height hash other found indexed
    rw [view] at found
    rw [withSide_index] at indexed
    split at indexed
    · rename_i here
      obtain ⟨node, placed, same⟩ := hashAt_eq_some.1 found
      have recorded := sound.recorded_of_placed placed
      rw [same, here] at recorded
      exact absurd (.inr (by rw [recorded]; rfl)) fresh
    · obtain ⟨member, inPath, same⟩ := sound.visible height hash other found indexed
      exact ⟨member, inPath, by rw [shape.hash, same]⟩
  · exact sound.family.of_insert shape.parent shape.hash
      (withSide_children (sound.main.indexed _ _ known).1) withSide_index pointer known absent

theorem withSide_known (own : (made.node id).hash = block.hash backend.prim) (hash : Uint256) :
    (made.withSide id parent block confirm).Known hash ↔ made.Known hash ∨ hash = block.hash backend.prim := by
  rw [Known, withSide_index, own]
  by_cases same : hash = block.hash backend.prim
  · simp [same]
  · rw [if_neg same]
    simp only [same, or_false]
    exact Iff.rfl

end Branch

section Extend
variable {id parent : Nat}

def withChild (chain : Chain σ) (parent id : Nat) : Chain σ :=
  { chain with toBlockTree := chain.toBlockTree.addChild parent id }

theorem Charted.withChild (charted : Charted backend chain path) (parent id : Nat) :
    Charted backend (chain.withChild parent id) path := by
  have shape : BlockTree.SameShape chain.toBlockTree (chain.withChild parent id).toBlockTree := .addChild parent id
  have view : ∀ height, (chain.withChild parent id).hashAt height = chain.hashAt height :=
    fun height => hashAt_congr rfl shape.hash
  refine { charted with
    main := charted.main.addChild parent id
    genesis none := ?_
    recorded hash height := ?_
    visible height hash other found indexed := ?_ }
  · obtain ⟨stored, best, tip, same, work⟩ := charted.genesis none
    refine ⟨stored, best, tip, (shape.hash best).trans same, Eq.trans ?_ work⟩
    exact chain.toBlockTree.field_modifyNode ChainNode.workSum (by intro; rfl) parent best
  · rw [view]
    exact charted.recorded hash height
  · rw [view] at found
    obtain ⟨member, inPath, same⟩ := charted.visible height hash other found indexed
    exact ⟨member, inPath, (shape.hash member).trans same⟩

structure Extended (made after : Chain σ) (keep : List Nat) (id : Nat) (path : List Nat) : Prop where
  line : ∃ line, path = id :: line ∧ line.map (fun member => (made.node member).hash) =
      keep.map (fun member => (made.node member).hash) ∧
    ((∀ member ∈ keep, made.index.lookup (made.node member).hash = some member) → line = keep)
  moved : BlockTree.SameShape made.toBlockTree after.toBlockTree
  work : ∀ other, (after.node other).workSum = (made.node other).workSum
  index : ∀ hash, after.index.lookup hash =
    if hash = (made.node id).hash then some id else made.index.lookup hash
  view : ∀ height, after.hashAt height =
    if height = made.nodes.length then some (made.node id).hash else made.hashAt height
  tip : after.bestChain = some id
  pool : after.pool = made.pool

theorem Sound.extend (sound : Sound backend made keep) {best : Nat} {previous : Uint256}
    (start : id < made.cells.length) (pointer : made.parentOf id = some parent)
    (unflagged : (made.node id).inMainChain = false) (tip : made.bestChain = some best)
    (follows : (made.node parent).hash = (made.node best).hash)
    (known : made.index.lookup (made.node parent).hash = some parent) (fresh : ¬ made.Known (made.node id).hash)
    (connected : Connected backend.prim made after (made.node id).hash previous id) :
    ∃ path, Sound backend (after.withChild parent id) path ∧ Extended made (after.withChild parent id) keep id path ∧
      ∀ hash, (after.withChild parent id).Known hash ↔ made.Known hash ∨ hash = (made.node id).hash := by
  have absent := Option.not_isSome_iff_eq_none.1 (not_or.1 fresh).1
  have unrecorded := Option.not_isSome_iff_eq_none.1 (not_or.1 fresh).2
  obtain ⟨line, charted, moved, hashes, walk, index, heights, -, view⟩ :=
    sound.toCharted.connect start pointer unflagged tip follows known
      (fun other found => by rw [absent] at found; cases found) unrecorded connected
  have shape := moved.shape.trans (.addChild parent id)
  have start' : parent < after.cells.length := by
    rw [moved.shape.cells]
    exact (sound.main.indexed _ _ known).1
  have children : ∀ other, ((after.withChild parent id).node other).children =
      if other = parent then (made.node other).children ++ [id]
      else (made.node other).children := by
    intro other
    rw [← moved.children]
    exact children_addChild _ start' other
  have family := sound.family.of_insert shape.parent shape.hash children index pointer known absent
  have charted' := charted.withChild parent id
  refine ⟨id :: line, ⟨charted', family⟩, ⟨⟨line, rfl, hashes, fun held => ?_⟩, shape, ?_, index,
    ?_, ?_, moved.pool⟩, ?_⟩
  · have own := held best (sound.main.tip_mem tip)
    rw [← follows, known] at own
    cases own
    exact walk.unique (sound.main.tip_line tip)
  · intro other
    rw [← moved.work]
    exact after.toBlockTree.field_modifyNode ChainNode.workSum (by intro; rfl) parent other
  · intro height
    rw [← view]
    exact hashAt_congr rfl (BlockTree.SameShape.addChild parent id).hash
  · obtain ⟨best', rest, equal, found⟩ := charted'.main.head
    cases equal
    exact found
  · intro hash
    change (after.index.lookup hash).isSome ∨ (after.heights.lookup hash).isSome ↔ _
    rw [index, heights]
    by_cases same : hash = (made.node id).hash
    · simp [same]
    · rw [if_neg same, if_neg same]
      simp only [same, or_false]
      exact Iff.rfl

end Extend

section Verdict

structure Sided (made after : Chain σ) (id : Nat) : Prop where
  shape : BlockTree.SameShape made.toBlockTree after.toBlockTree
  work : ∀ other, (after.node other).workSum = (made.node other).workSum
  index : ∀ hash, after.index.lookup hash =
    if hash = (made.node id).hash then some id else made.index.lookup hash
  view : ∀ height, after.hashAt height = made.hashAt height
  tip : after.bestChain = made.bestChain

structure Reorganized (made after : Chain σ) (keep : List Nat) (id : Nat) (path : List Nat) : Prop where
  branches : ∃ detach attach point rest, keep = detach ++ point :: rest ∧
    path = attach ++ point :: rest ∧ Line made.parentOf id path ∧
    made.getReorganizeNodes id = (detach, attach.reverse) ∧
    ∀ height ≤ made.heightOf point, after.hashAt height = made.hashAt height
  shape : BlockTree.SameShape made.toBlockTree after.toBlockTree
  work : ∀ other, (after.node other).workSum = (made.node other).workSum
  index : ∀ hash, after.index.lookup hash =
    if hash = (made.node id).hash then some id else made.index.lookup hash

/-- What becomes of a block that is accepted, from the chain that has its node. -/
inductive Verdict (backend : Backend σ) (block : Block) (id : Nat) (made : Chain σ)
    (keep : List Nat) : Chain σ → List Nat → Prop
  | extended {after : Chain σ} {path : List Nat} (extended : Extended made after keep id path)
      (work : ∀ best ∈ made.bestChain, (made.node best).workSum ≤ (made.node id).workSum) :
      Verdict backend block id made keep after path
  | aside {after : Chain σ} (sided : Sided made after id)
      (lighter : ∀ best ∈ made.bestChain, (made.node best).workSum < (made.node id).workSum →
        irreversibleHeight < (after.getReorganizeNodes id).1.length) : Verdict backend block id made keep after keep
  | reorganized {after : Chain σ} {path : List Nat} (takesOver : TakesOver backend block made id)
      (reorganized : Reorganized made after keep id path) : Verdict backend block id made keep after path

/-- Which blocks are known afterwards, and that the orphans wait as before. -/
structure Learned (backend : Backend σ) (block : Block) (before after : Chain σ) : Prop where
  keeps : ∀ hash, before.Known hash → after.Known hash
  adds : ∀ hash, after.Known hash → before.Known hash ∨ hash = block.hash backend.prim
  pool : after.pool = before.pool

/-- An error leaves the tree as it was, unless it stopped a reorganization. -/
def Failed (backend : Backend σ) (block : Block) (id : Nat) (made : Chain σ) (keep : List Nat)
    (after : Chain σ) : Prop :=
  ∃ path, Sound backend after path ∧ Learned backend block made after ∧
    (after.toBlockTree = made.toBlockTree ∧ path = keep ∨ TakesOver backend block made id)

def Passed (backend : Backend σ) (block : Block) (id : Nat) (made : Chain σ) (keep : List Nat)
    (after : Chain σ) : Prop :=
  ∃ path, Sound backend after path ∧ Learned backend block made after ∧ Verdict backend block id made keep after path

variable {block : Block} {id parent best : Nat} {confirm : Option Confirm}

theorem Learned.of_known {before : Chain σ}
    (known : ∀ hash, after.Known hash ↔ before.Known hash ∨ hash = block.hash backend.prim)
    (pool : after.pool = before.pool) : Learned backend block before after :=
  ⟨fun hash old => (known hash).2 (.inl old), fun hash new => (known hash).1 new, pool⟩

theorem Learned.shift {before between : Chain σ} {low : Nat} (learned : Learned backend block before between)
    (shifted : Shifted low between after) : Learned backend block before after :=
  ⟨fun hash old => (shifted.known hash).2 (learned.keeps hash old),
    fun hash new => learned.adds hash ((shifted.known hash).1 new), shifted.pool.trans learned.pool⟩

section
variable (sound : Sound backend made keep) (tip : made.bestChain = some best)
  (known : made.index.lookup (made.node parent).hash = some parent)

include sound tip known

/-- The parent of a block that follows the tip is the tip or its twin. -/
theorem Sound.work_follows (follows : (made.node parent).hash = (made.node best).hash) :
    (made.node parent).workSum = (made.node best).workSum := by
  have inPath := sound.main.tip_mem tip
  rcases sound.main.held with ⟨-, held⟩ | ⟨genesis, unloaded⟩
  · have own := held best inPath
    rw [← follows, known] at own
    cases own
    rfl
  · cases List.mem_singleton.1 (unloaded.alone ▸ inPath)
    exact (unloaded.twin _ _ known).2.2.2.2

/-- Only the genesis block is in an index without the main chain. -/
theorem Sound.loaded_of_aside (aside : (made.node parent).hash ≠ (made.node best).hash) :
    made.root ≠ none ∧ ∀ id ∈ keep, made.index.lookup (made.node id).hash = some id := by
  rcases sound.main.held with loaded | ⟨genesis, unloaded⟩
  · exact loaded
  · cases List.mem_singleton.1 (unloaded.alone ▸ sound.main.tip_mem tip)
    exact absurd (unloaded.twin _ _ known).1 aside

variable (new : NodeOf backend block id made) (pointer : made.parentOf id = some parent)
  (fresh : ¬ made.Known (block.hash backend.prim))

include new pointer fresh

theorem extend_ensures (follows : (made.node parent).hash = (made.node best).hash) :
    Ensures (· = made) (connectBestChain.extend backend id block confirm (some parent))
      (fun _ => Passed backend block id made keep) (Failed backend block id made keep) := by
  rintro state rfl
  unfold connectBestChain.extend
  match run : connectBlock backend id block confirm state with
  | (.ok checked, after) =>
    have connected := (connectBlock_ensures backend id block confirm).of_returned (Quiet.refl state) run
    rw [← new.hash] at connected fresh
    obtain ⟨path, sound', extended, known'⟩ := sound.extend (by have := new.last; omega)
      pointer new.unflagged tip follows known fresh connected
    rw [new.hash] at known'
    refine ⟨path, sound', .of_known known' extended.pool, .extended extended fun tip' found => ?_⟩
    cases tip.symm.trans found
    obtain ⟨parent', -, pointer', -, work, -⟩ := new.parent
    cases pointer.symm.trans pointer'
    rw [work, sound.work_follows tip known follows]
    exact Nat.le_add_right _ _
  | (.error (.error reason), after) =>
    have failed := (connectBlock_ensures backend id block confirm).of_failed (Quiet.refl state) run
    rcases failed with quiet | broken
    · have quiet' := quiet.setLedger (backend.rollbackState block.height after.ledger)
      have same : Learned backend block state state := ⟨fun _ old => old, fun _ old => .inl old, rfl⟩
      exact ⟨keep, sound.of_quiet quiet', same.shift (.of_quiet 0 quiet'), .inl ⟨quiet'.tree, rfl⟩⟩
    · cases sound.flushing false broken
  | (.error (.panic text), after) => exact trivial

theorem branch_ensures (aside : (made.node parent).hash ≠ (made.node best).hash)
    (anchored : TakesOver backend block made id → made.Anchored id) :
    Ensures (· = made) (connectBestChain.branch backend id block confirm best parent)
      (fun _ => Passed backend block id made keep) (Failed backend block id made keep) := by
  have start : id < made.cells.length := by have := new.last; omega
  have loaded := sound.loaded_of_aside tip known aside
  have sound' : Sound backend (made.withSide id parent block confirm) keep :=
    sound.withSide start pointer loaded known new.unflagged new.hash fresh
  have shape := @withSide_shape _ made id parent block confirm
  have sided : Sided made (made.withSide id parent block confirm) id :=
    ⟨shape, withSide_work, withSide_index, fun height => hashAt_congr rfl shape.hash, rfl⟩
  have learned : Learned backend block made (made.withSide id parent block confirm) :=
    .of_known (withSide_known new.hash) rfl
  have forks := getReorganizeNodes_congr shape (withSide_flag new.unflagged) rfl id
  refine .bind addSideBlock_ensures fun _ => .bind_this fun side equal => ?_
  subst equal
  refine .ite (fun light => .pure _ fun state equal => ?_) fun heavy => ?_
  · rw [withSide_work, withSide_work] at light
    rw [equal]
    refine ⟨keep, sound', learned, .aside sided fun tip' found heavier => ?_⟩
    cases tip.symm.trans found
    omega
  · rw [withSide_work, withSide_work, Nat.not_le] at heavy
    rw [forks]
    refine .ite (fun forbidden => .pure _ fun state equal => ?_) fun allowed => ?_
    · rw [equal]
      exact ⟨keep, sound', learned, .aside sided fun _ _ _ => by rw [forks]; exact forbidden.2⟩
    · have takesOver : TakesOver backend block made id :=
        ⟨best, tip, parent, pointer, aside, heavy, allowed⟩
      have found : (made.withSide id parent block confirm).index.lookup (made.node id).hash = some id := by
        rw [withSide_index, if_pos rfl]
      obtain ⟨line, walk⟩ := sound'.main.rooted.walks id (by rw [shape.cells]; exact start)
      have anchored' : (made.withSide id parent block confirm).toBlockTree.Anchored id := by
        rw [BlockTree.Anchored, shape.cells, attachNodes_congr shape (withSide_flag new.unflagged),
          withSide_flag new.unflagged]
        exact anchored takesOver
      have loaded' := sound'.loaded_of_child found (by rw [shape.parent]; exact pointer)
      have meets := sound'.main.meets_of_anchored sound'.family loaded' found walk anchored'
      obtain ⟨detach, attach, point, rest, nodes, rfl, rfl, -⟩ :=
        sound'.main.reorganizeNodes_of_meets sound'.family loaded' found walk meets
      change Ensures _ (reorganizeChain backend (made.getReorganizeNodes id).1 (made.getReorganizeNodes id).2 >>= _) _ _
      rw [← forks, nodes]
      have indexed := sound'.family.line_indexed walk found
        (show ((made.withSide id parent block confirm).node id).hash = _ from shape.hash id)
      have walk' : Line (made.withSide id parent block confirm).parentOf id
          (attach.reverse.reverse ++ point :: rest) := by
        rwa [List.reverse_reverse]
      have reorganizes := reorganizeChain_ensures sound' walk' fun member inside =>
        indexed member (by simp at inside; simp [inside])
      rw [List.reverse_reverse] at reorganizes
      have widened := Ensures.imp reorganizes (fun _ after holds => holds)
        (fun after (stopped : Stopped backend _ _ after) =>
          show Failed backend block id made (detach ++ point :: rest) after from by
            obtain ⟨path, sound'', shifted⟩ := stopped
            exact ⟨path, sound'', learned.shift shifted, .inr takesOver⟩)
      refine .bind widened fun _ => .pure _ fun after ⟨sound'', shifted⟩ => ?_
      refine ⟨_, sound'', learned.shift shifted, .reorganized takesOver ?_⟩
      refine ⟨⟨detach, attach, point, rest, rfl, rfl, by rwa [← shape.parentOf], by rw [← forks, nodes],
        fun height below => ?_⟩, shape.trans shifted.shape, fun other => ?_, fun hash => ?_⟩
      · rw [shifted.view height (by rw [shape.heightOf]; omega), sided.view]
      · rw [shifted.work, withSide_work]
      · rw [shifted.index, withSide_index]

end

theorem connectBestChain_split (tip : made.bestChain = some best)
    (pointer : made.parentOf id = some parent) : connectBestChain backend id block confirm made =
      if (made.node parent).hash = (made.node best).hash then
        connectBestChain.extend backend id block confirm (some parent) made
      else connectBestChain.branch backend id block confirm best parent made := by
  have pointer' : (made.node id).parent = some parent := pointer
  unfold connectBestChain
  rw [tip, pointer']

theorem connectBestChain_ensures (sound : Sound backend made keep) (new : NodeOf backend block id made)
    (kept : (made.index.lookup block.previous).isSome) (anchored : TakesOver backend block made id → made.Anchored id)
    (fresh : ¬ made.Known (block.hash backend.prim)) :
    Ensures (· = made) (connectBestChain backend id block confirm)
      (fun _ => Passed backend block id made keep)
      (Failed backend block id made keep) := by
  obtain ⟨best, rest, -, tip⟩ := sound.main.head
  obtain ⟨parent, -, pointer, named, -, only⟩ := new.parent
  have known : made.index.lookup (made.node parent).hash = some parent := by
    obtain ⟨other, found⟩ := Option.isSome_iff_exists.1 kept
    rw [named, found, only other found]
  rintro state rfl
  rw [connectBestChain_split tip pointer]
  by_cases follows : (state.node parent).hash = (state.node best).hash
  · rw [if_pos follows]
    exact extend_ensures sound tip known new pointer fresh follows state rfl
  · rw [if_neg follows]
    exact branch_ensures sound tip known new pointer fresh follows anchored state rfl

theorem connectBestChain_crash (tip : made.bestChain = some best)
    (orphaned : made.parentOf id = none) : connectBestChain backend id block confirm made =
      Method.crash "nil pointer dereference" made := by
  have orphaned' : (made.node id).parent = none := orphaned
  unfold connectBestChain
  rw [tip, orphaned']

end Verdict

section Accept
variable {block : Block} {confirm : Option Confirm}

/-- The chain with the node of a block, if it can be made. -/
def candidate (backend : Backend σ) (block : Block) (chain : Chain σ) : Option (Nat × Chain σ) :=
  match newNode backend block chain with
  | (.ok id, made) => some (id, made)
  | (.error _, _) => none

/-- Everything that the block hangs on is in memory: its parent, also after old nodes
were dropped, and the fork of its branch if the chain is reorganized to it. -/
@[mk_iff] structure Remembered (backend : Backend σ) (chain : Chain σ) (block : Block) : Prop where
  parent : ParentKnown backend chain block
  kept : ∀ found ∈ candidate backend block chain, (found.2.index.lookup block.previous).isSome ∧
      (TakesOver backend block found.2 found.1 → found.2.Anchored found.1)

instance (chain : Chain σ) (block : Block) : Decidable (Remembered backend chain block) :=
  decidable_of_iff' _ (remembered_iff backend chain block)

def Accepted (backend : Backend σ) (block : Block) (chain : Chain σ) (path : List Nat) (after : Chain σ) : Prop :=
  ∃ id made keep, candidate backend block chain = some (id, made) ∧
    Sound backend made keep ∧ Refreshed chain path made keep ∧ NodeOf backend block id made ∧
    Passed backend block id made keep after

def Rejected (backend : Backend σ) (block : Block) (chain : Chain σ) (path : List Nat) (after : Chain σ) : Prop :=
  (Sound backend after path ∧ Refreshed chain path after path) ∨
  ∃ id made keep, candidate backend block chain = some (id, made) ∧
    Sound backend made keep ∧ Refreshed chain path made keep ∧ NodeOf backend block id made ∧
    Failed backend block id made keep after

theorem Sound.setLedger (sound : Sound backend chain path) (ledger : σ) : Sound backend { chain with ledger } path :=
  ⟨{ sound.toCharted with }, sound.family⟩

theorem Passed.setLedger {id : Nat} (passed : Passed backend block id made keep after)
    (ledger : σ) : Passed backend block id made keep { after with ledger } := by
  obtain ⟨path, sound, learned, verdict⟩ := passed
  refine ⟨path, sound.setLedger ledger, { learned with }, ?_⟩
  cases verdict with
  | extended extended work => exact .extended { extended with } work
  | aside sided lighter => exact .aside { sided with } lighter
  | reorganized takesOver reorganized => exact .reorganized takesOver { reorganized with }

/-- Accepting a new block whose surroundings are in memory. -/
theorem maybeAcceptBlock_ensures (sound : Sound backend chain path)
    (remembered : Remembered backend chain block) (fresh : ¬ chain.Known (block.hash backend.prim)) :
    Ensures (· = chain) (maybeAcceptBlock backend block confirm)
      (fun _ => Accepted backend block chain path)
      (Rejected backend block chain path) := by
  have makes := newNode_ensures sound remembered.parent
  refine .bind_run (fun id made run => ?_) fun reason after run => ?_
  · have found : candidate backend block chain = some (id, made) := by
      rw [candidate, run]
    rcases makes.of_returned rfl run with ⟨orphaned, tip⟩ | ⟨keep, soundMade, refreshed, new⟩
    · obtain ⟨best, rest, -, bestChain⟩ := sound.main.head
      refine .bind_run (fun value after again => ?_) fun reason after again => ?_
      all_goals cases (connectBestChain_crash (tip.trans bestChain) orphaned).symm.trans again
    obtain ⟨kept, anchored⟩ := remembered.kept _ found
    have fresh' : ¬ made.Known (block.hash backend.prim) := by
      rw [refreshed.known]
      exact fresh
    have connects : Ensures (· = made)
        (connectBestChain backend id block confirm) (fun _ => Passed backend block id made keep)
        (Rejected backend block chain path) :=
      (connectBestChain_ensures soundMade new kept anchored fresh').imp (fun _ _ passed => passed)
        fun _ failed => .inr ⟨id, made, keep, found, soundMade, refreshed, new, failed⟩
    refine .bind connects fun ⟨connected, inMainChain, reorganized⟩ => ?_
    have settles : Ensures (Passed backend block id made keep)
        (Method.when (inMainChain = true ∧ reorganized = false) (Method.update fun chain =>
          { chain with ledger := backend.onBlockSaved connected confirm chain.ledger }) :
            Method (Chain σ) BlockError Unit)
        (fun _ => Passed backend block id made keep)
        (Rejected backend block chain path) := by
      refine .ite (fun _ => .update fun after passed => ?_) fun _ => .pure () fun _ passed => passed
      exact passed.setLedger _
    refine .bind settles fun _ => .pure _ fun after passed => ?_
    exact ⟨id, made, keep, found, soundMade, refreshed, new, passed⟩
  · exact .inl (makes.of_failed rfl run)

/-- The blocks of the branch pass their checks one after the other, and the store takes
them. -/
def BranchPasses (backend : Backend σ) (block : Block) (confirm : Option Confirm) (made : Chain σ) (id : Nat) : Prop :=
  ∀ parent ∈ made.parentOf id, (reorganizeChain backend (made.getReorganizeNodes id).1 (made.getReorganizeNodes id).2
      (made.withSide id parent block confirm)).1.isOk = true

instance (id : Nat) : Decidable (BranchPasses backend block confirm made id) := by
  unfold BranchPasses
  infer_instance

theorem candidate_eq_some {id : Nat} (found : candidate backend block chain = some (id, made)) :
    newNode backend block chain = (.ok id, made) := by
  unfold candidate at found
  split at found
  · rename_i run
    cases found
    exact run
  · cases found

/-- What remains to be done for a block that takes over is the reorganization. -/
theorem connectBestChain_takesOver {id : Nat} (unflagged : (made.node id).inMainChain = false)
    (takesOver : TakesOver backend block made id) :
    ∃ parent ∈ made.parentOf id, connectBestChain backend id block confirm made =
      (reorganizeChain backend (made.getReorganizeNodes id).1 (made.getReorganizeNodes id).2 >>=
        fun _ => pure (block, true, true)) (made.withSide id parent block confirm) := by
  obtain ⟨best, tip, parent, pointer, aside, heavier, allowed⟩ := takesOver
  refine ⟨parent, pointer, ?_⟩
  have forks : (made.withSide id parent block confirm).getReorganizeNodes id = made.getReorganizeNodes id :=
    getReorganizeNodes_congr withSide_shape (withSide_flag unflagged) rfl id
  have heavy : ¬ ((made.withSide id parent block confirm).node id).workSum ≤
      ((made.withSide id parent block confirm).node best).workSum := by
    rw [withSide_work, withSide_work]
    omega
  rw [connectBestChain_split tip pointer, if_neg aside, connectBestChain.branch,
    bind_returned (addSideBlock_run id parent block confirm)]
  change (if _ ≤ _ then _ else if forbidsReorganize _ _ (getReorganizeNodes _ id).1 then _ else
    reorganizeChain _ (getReorganizeNodes _ id).1 (getReorganizeNodes _ id).2 >>= _ :
      Method (Chain σ) BlockError _) _ = _
  rw [if_neg heavy, forks, if_neg allowed]

/-- A reorganization to a branch that passes is not an error. -/
theorem maybeAcceptBlock_isOk {id : Nat} (found : candidate backend block chain = some (id, made))
    (unflagged : (made.node id).inMainChain = false) (takesOver : TakesOver backend block made id)
    (passes : BranchPasses backend block confirm made id) :
    (maybeAcceptBlock backend block confirm chain).1.isOk = true := by
  obtain ⟨parent, pointer, run⟩ := connectBestChain_takesOver unflagged takesOver
  have passed := passes parent pointer
  match reorganizes : reorganizeChain backend (made.getReorganizeNodes id).1
      (made.getReorganizeNodes id).2 (made.withSide id parent block confirm) with
  | (.ok _, after) =>
    rw [bind_returned reorganizes] at run
    rw [maybeAcceptBlock, bind_returned (candidate_eq_some found), bind_returned run]
    rfl
  | (.error _, after) =>
    rw [reorganizes] at passed
    cases passed

end Accept
end Chain
end Elastos.Blockchain
