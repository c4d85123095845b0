import Elastos.Blockchain.ChainSteps

/-! The chain as a whole: the main chain in the tree, its view and the heights in the
store describe the same blocks, and connecting and disconnecting blocks keeps it so. -/
set_option autoImplicit false
namespace Elastos.Blockchain
open Go Go.Method Common Elastos.Types Utils GoMap BlockTree List
namespace BlockTree

def hashAt (tree : BlockTree) (height : Nat) : Option Uint256 :=
  tree.nodes[height]?.join.map fun id => (tree.node id).hash

variable {tree : BlockTree} {path : List Nat} {height id : Nat}

theorem hashAt_eq_some {hash : Uint256} : tree.hashAt height = some hash ↔
      ∃ id, tree.nodes[height]? = some (some id) ∧ (tree.node id).hash = hash := by
  simp [hashAt, Option.join_eq_some_iff]

theorem hashAt_of_placed (placed : tree.nodes[height]? = some (some id)) :
    tree.hashAt height = some (tree.node id).hash :=
  hashAt_eq_some.2 ⟨id, placed, rfl⟩

theorem hashAt_of_beyond (beyond : tree.nodes.length ≤ height) : tree.hashAt height = none := by
  simp [hashAt, beyond]

theorem hashAt_congr {tree' : BlockTree} (nodes : tree'.nodes[height]? = tree.nodes[height]?)
    (hash : ∀ id, (tree'.node id).hash = (tree.node id).hash) : tree'.hashAt height = tree.hashAt height := by
  simp only [hashAt, nodes, hash]

theorem connected_shape (id : Nat) (previous : Uint256) (nodes : List (Option Nat)) :
    SameShape tree (tree.connected id previous nodes) :=
  (SameShape.setInMainChain id true).trans (.of_cells rfl)

theorem disconnected_shape (best next : Nat) : SameShape tree (tree.disconnected best next) :=
  (SameShape.setInMainChain best false).trans (.of_cells rfl)

theorem MainChain.parent_tip {best next : Nat} {rest : List Nat}
    (main : tree.MainChain (best :: next :: rest)) : tree.parentOf best = some next := by
  obtain ⟨tip, -, walk⟩ := main.tip
  have walk' : Line tree.parentOf tip ([] ++ best :: next :: rest) := walk
  exact walk'.linked

theorem MainChain.hashAt_connected (main : tree.MainChain path) {previous : Uint256}
    {nodes : List (Option Nat)} {line : List Nat} (main' : (tree.connected id previous nodes).MainChain (id :: line))
    (hashes : line.map (fun member => (tree.node member).hash) =
      path.map (fun member => (tree.node member).hash)) (top : tree.heightOf id = tree.nodes.length)
    (others : ∀ height < tree.nodes.length, (∀ member ∈ line, tree.heightOf member ≠ height) →
      nodes[height]? = tree.nodes[height]?) (height : Nat) : (tree.connected id previous nodes).hashAt height =
      if height = tree.nodes.length then some (tree.node id).hash else tree.hashAt height := by
  have shape : SameShape tree (tree.connected id previous nodes) := connected_shape id previous nodes
  have placed : ∀ member ∈ id :: line, nodes[tree.heightOf member]? = some (some member) := by
    intro member inside
    rw [← shape.heightOf]
    exact main'.placed member inside
  have depth : ∀ (position : Nat) member, (id :: line)[position]? = some member →
      tree.heightOf member + position + 1 = nodes.length := by
    intro position member found
    rw [← shape.heightOf]
    exact main'.depth position member found
  have length : nodes.length = tree.nodes.length + 1 := by
    have first := depth 0 id rfl
    omega
  rcases lt_trichotomy height tree.nodes.length with less | rfl | more
  · rw [if_neg (by omega)]
    by_cases covered : ∃ member ∈ line, tree.heightOf member = height
    · -- the same block stands there in the view before, up to the twin of a genesis node
      obtain ⟨member, inLine, rfl⟩ := covered
      obtain ⟨position, found⟩ := getElem?_of_mem inLine
      have sameHash := congrArg (fun list => list[position]?) hashes
      simp only [getElem?_map, found, Option.map_some] at sameHash
      obtain ⟨old, oldFound, oldHash⟩ := Option.map_eq_some_iff.1 sameHash.symm
      have newDepth := depth (position + 1) member (by simpa using found)
      have oldDepth := main.depth position old oldFound
      have sameHeight : tree.heightOf old = tree.heightOf member := by omega
      have oldPlaced := main.placed old (mem_of_getElem? oldFound)
      rw [sameHeight] at oldPlaced
      have newPlaced := placed member (mem_cons_of_mem _ inLine)
      rw [hashAt_of_placed oldPlaced, oldHash, hashAt_of_placed newPlaced, shape.hash member]
    · refine hashAt_congr (others height less fun member inLine here => ?_) shape.hash
      exact covered ⟨member, inLine, here⟩
  · have newPlaced : (tree.connected id previous nodes).nodes[tree.nodes.length]? = some (some id) := by
      rw [← top]
      exact placed id (by simp)
    rw [if_pos rfl, hashAt_of_placed newPlaced, shape.hash id]
  · have beyond : (tree.connected id previous nodes).nodes.length ≤ height := by
      change nodes.length ≤ height
      omega
    rw [if_neg (by omega), hashAt_of_beyond beyond, hashAt_of_beyond (by omega)]

theorem hashAt_disconnected (best next height : Nat) : (tree.disconnected best next).hashAt height =
      if height + 1 = tree.nodes.length then none else tree.hashAt height := by
  by_cases last : height + 1 = tree.nodes.length
  · rw [if_pos last]
    refine hashAt_of_beyond (show tree.nodes.dropLast.length ≤ height from ?_)
    rw [length_dropLast]
    omega
  · rw [if_neg last]
    refine hashAt_congr (show tree.nodes.dropLast[height]? = tree.nodes[height]? from ?_)
      (disconnected_shape best next).hash
    rw [getElem?_dropLast]
    split
    · rfl
    · rw [getElem?_eq_none (by omega)]

end BlockTree

namespace Chain
variable {σ : Type} (backend : Backend σ)

/-- The main chain in the tree is the one that the view and the store have. A block
that is in the view and in the index is on the path, and blocks are stored and cached
under their own hashes. -/
structure Charted (chain : Chain σ) (path : List Nat) : Prop where
  main : chain.toBlockTree.MainChain path
  flushing : ∀ answer ∈ chain.flushes, answer = true
  genesis : chain.root = none → (∃ confirm, chain.stored.lookup (backend.genesisBlock.hash backend.prim) =
      some (backend.genesisBlock, confirm)) ∧ ∃ best ∈ chain.bestChain,
      (chain.node best).hash = backend.genesisBlock.hash backend.prim ∧
      (chain.node best).workSum = calcWork backend.genesisBlock.bits
  keyed : ∀ hash entry, chain.stored.lookup hash = some entry → entry.1.hash backend.prim = hash
  cached : ∀ hash block, chain.blockCache.lookup hash = some block → block.hash backend.prim = hash
  recorded : ∀ hash height, chain.heights.lookup hash = some height ↔ chain.hashAt height.toNat = some hash
  backed : ∀ hash height, chain.heights.lookup hash = some height → (chain.stored.lookup hash).isSome
  visible : ∀ height hash id, chain.hashAt height = some hash →
    chain.index.lookup hash = some id → ∃ member ∈ path, (chain.node member).hash = hash

/-- A chart together with the lists of children. -/
structure Sound (chain : Chain σ) (path : List Nat) : Prop extends
    Charted backend chain path where
  family : chain.toBlockTree.Family

def Known (chain : Chain σ) (hash : Uint256) : Prop :=
  (chain.index.lookup hash).isSome ∨ (chain.heights.lookup hash).isSome

/-- What moving the tip of the main chain leaves as it was. -/
structure Moved (before after : Chain σ) : Prop where
  shape : BlockTree.SameShape before.toBlockTree after.toBlockTree
  work : ∀ id, (after.node id).workSum = (before.node id).workSum
  children : ∀ id, (after.node id).children = (before.node id).children
  root : after.root = before.root
  pool : after.pool = before.pool

variable {backend} {chain after : Chain σ} {path : List Nat}

theorem Moved.of_cells {id : Nat} {flag : Bool}
    (cells : after.cells = (chain.toBlockTree.setInMainChain id flag).cells) (root : after.root = chain.root)
    (pool : after.pool = chain.pool) : Moved chain after := by
  have nodes : ∀ other, after.node other = (chain.toBlockTree.setInMainChain id flag).node other := fun other => by
    rw [node, cells, node]
  refine ⟨(SameShape.setInMainChain id flag).trans (.of_cells cells), fun other => ?_, fun other => ?_, root, pool⟩
  · rw [nodes]
    exact chain.toBlockTree.field_modifyNode ChainNode.workSum (by intro; rfl) id other
  · rw [nodes]
    exact chain.toBlockTree.field_modifyNode ChainNode.children (by intro; rfl) id other

namespace Charted

section
variable (charted : Charted backend chain path)
include charted

theorem recorded_of_placed {height id : Nat} (placed : chain.nodes[height]? = some (some id)) :
    chain.heights.lookup (chain.node id).hash = some (chain.node id).height := by
  refine (charted.recorded _ _).2 ?_
  have here := (charted.main.entries height id placed).1
  rw [show (chain.node id).height.toNat = height from here]
  exact hashAt_of_placed placed

theorem hashAt_inj {left right : Nat} {hash : Uint256} (first : chain.hashAt left = some hash)
    (second : chain.hashAt right = some hash) :
    left = right := by
  obtain ⟨id, placed, rfl⟩ := hashAt_eq_some.1 first
  obtain ⟨other, placed', same⟩ := hashAt_eq_some.1 second
  have found := charted.recorded_of_placed placed
  have found' := charted.recorded_of_placed placed'
  rw [same, found] at found'
  rw [← (charted.main.entries left id placed).1, ← (charted.main.entries right other placed').1,
    BlockTree.heightOf, BlockTree.heightOf, Option.some.inj found']

theorem unrecorded (loaded : chain.root ≠ none ∧
      ∀ id ∈ path, chain.index.lookup (chain.node id).hash = some id) {hash : Uint256} {id : Nat}
    (found : chain.index.lookup hash = some id) (aside : id ∉ path) : chain.heights.lookup hash = none := by
  cases recorded : chain.heights.lookup hash with
  | none => rfl
  | some height =>
    obtain ⟨member, inPath, same⟩ := charted.visible _ hash id ((charted.recorded _ _).1 recorded) found
    have held := loaded.2 member inPath
    rw [same, found] at held
    cases held
    exact absurd inPath aside

theorem backed_beside (beside : Beside backend.prim chain after) {hash : Uint256} {height : UInt32}
    (found : chain.heights.lookup hash = some height) : (after.stored.lookup hash).isSome := by
  obtain ⟨entry, stored⟩ := Option.isSome_iff_exists.1 (charted.backed hash height found)
  rw [beside.stored hash entry stored]
  rfl

theorem of_quiet (quiet : Quiet backend.prim chain after) : Charted backend after path where
  main := by
    rw [quiet.tree]
    exact charted.main
  flushing := by
    rw [quiet.flushes]
    exact charted.flushing
  genesis := by
    rw [quiet.tree]
    intro unloaded
    obtain ⟨⟨confirm, stored⟩, best⟩ := charted.genesis unloaded
    exact ⟨⟨confirm, quiet.beside.stored _ _ stored⟩, best⟩
  keyed hash entry found :=
    (quiet.beside.keyed hash entry found).elim (charted.keyed hash entry) id
  cached := by
    rw [quiet.blockCache]
    exact charted.cached
  recorded := by
    rw [quiet.heights, quiet.tree]
    exact charted.recorded
  backed hash height found := by
    rw [quiet.heights] at found
    exact charted.backed_beside quiet.beside found
  visible := by
    rw [quiet.tree]
    exact charted.visible

end

theorem connect (charted : Charted backend chain path) {id parent best : Nat}
    {previous : Uint256} (start : id < chain.cells.length) (pointer : chain.parentOf id = some parent)
    (unflagged : (chain.node id).inMainChain = false) (tip : chain.bestChain = some best)
    (follows : (chain.node parent).hash = (chain.node best).hash)
    (known : chain.index.lookup (chain.node parent).hash = some parent)
    (fresh : ∀ other, chain.index.lookup (chain.node id).hash = some other → other = id)
    (unrecorded : chain.heights.lookup (chain.node id).hash = none)
    (connected : Connected backend.prim chain after (chain.node id).hash previous id) :
    ∃ line, Charted backend after (id :: line) ∧ Moved chain after ∧
      line.map (fun member => (chain.node member).hash) = path.map (fun member => (chain.node member).hash) ∧
      Line chain.parentOf parent line ∧ (∀ hash, after.index.lookup hash =
        if hash = (chain.node id).hash then some id else chain.index.lookup hash) ∧ (∀ hash, after.heights.lookup hash =
        if hash = (chain.node id).hash then some (chain.node id).height
        else chain.heights.lookup hash) ∧ chain.heightOf id = chain.nodes.length ∧ ∀ height, after.hashAt height =
        if height = chain.nodes.length then some (chain.node id).hash
        else chain.hashAt height := by
  obtain ⟨tree', run, equal⟩ := connected.tree
  obtain ⟨nodes, line, rfl, main, hashes, walk, top, others⟩ :=
    @BlockTree.MainChain.connect _ _ _ _ _ charted.main _ previous start pointer unflagged tip follows known fresh run
  have moved : Moved chain after := .of_cells (by rw [equal]; rfl) (by rw [equal]; rfl) connected.beside.pool
  have index : ∀ hash, after.index.lookup hash =
      if hash = (chain.node id).hash then some id else chain.index.lookup hash := by
    intro hash
    rw [equal]
    change (chain.index.insert ((chain.toBlockTree.setInMainChain id true).node id).hash id).lookup hash = _
    rw [(BlockTree.SameShape.setInMainChain id true).hash, lookup_insert_eq]
  have heights : ∀ hash, after.heights.lookup hash =
      if hash = (chain.node id).hash then some (chain.node id).height
      else chain.heights.lookup hash := by
    intro hash
    rw [connected.heights, lookup_insert_eq]
  have view : ∀ height, after.hashAt height =
      if height = chain.nodes.length then some (chain.node id).hash
      else chain.hashAt height := by
    intro height
    rw [equal]
    exact charted.main.hashAt_connected main hashes top others height
  refine ⟨line, ⟨by rw [equal]; exact main, ?_, ?_, ?_, ?_, ?_, ?_, ?_⟩, moved, hashes, walk, index, heights, top, view⟩
  · intro answer inside
    exact charted.flushing answer (connected.flushes answer inside)
  · -- a block can only follow a parent in the index, so the genesis block is loaded
    intro unloaded
    exfalso
    rw [moved.root] at unloaded
    rcases charted.main.held with ⟨loaded, -⟩ | ⟨genesis, held⟩
    · exact loaded unloaded
    · rw [(held.empty unloaded).1] at known
      cases known
  · intro hash entry found
    exact (connected.beside.keyed hash entry found).elim (charted.keyed hash entry) fun own => own
  · rw [connected.blockCache]
    exact charted.cached
  · intro hash height
    have old := charted.recorded hash height
    have same : (chain.node id).height = height ↔ height.toNat = chain.nodes.length := by
      rw [← UInt32.toNat_inj, ← top]
      exact eq_comm
    rw [heights, view]
    by_cases here : hash = (chain.node id).hash <;> by_cases last : height.toNat = chain.nodes.length
    · simp [here, last, same]
    · simp [here, last, same, ← charted.recorded, unrecorded]
    · simp [here, last, old, hashAt_of_beyond, Ne.symm here]
    · simp [here, last, old]
  · intro hash height found
    rw [heights] at found
    split at found
    · rename_i here
      rw [here]
      exact connected.here
    · exact charted.backed_beside connected.beside found
  · intro height hash other found indexed
    rw [index] at indexed
    by_cases here : hash = (chain.node id).hash
    · exact ⟨id, by simp, by rw [moved.shape.hash, here]⟩
    rw [if_neg here] at indexed
    rw [view] at found
    split at found
    · exact absurd (Option.some.inj found).symm here
    obtain ⟨member, inPath, same⟩ := charted.visible height hash other found indexed
    have inHashes : hash ∈ line.map fun member => (chain.node member).hash := by
      rw [hashes, ← same]
      exact mem_map_of_mem inPath
    obtain ⟨twin, inLine, sameTwin⟩ := mem_map.1 inHashes
    exact ⟨twin, mem_cons_of_mem _ inLine, by rw [moved.shape.hash, sameTwin]⟩

theorem disconnect {best next : Nat} {rest : List Nat}
    (charted : Charted backend chain (best :: next :: rest)) {block : Block}
    (own : block.hash backend.prim = (chain.node best).hash)
    (disconnected : Disconnected backend.prim chain after (chain.node best).hash best block) :
    Charted backend after (next :: rest) ∧ Moved chain after ∧
      (∀ hash, after.index.lookup hash = chain.index.lookup hash) ∧ (∀ hash, after.heights.lookup hash =
        if hash = (chain.node best).hash then none else chain.heights.lookup hash) ∧ ∀ height, after.hashAt height =
        if height + 1 = chain.nodes.length then none else chain.hashAt height := by
  have pointer := charted.main.parent_tip
  obtain ⟨tree', run, tree⟩ := disconnected.tree
  rw [pointer] at run tree
  have stripped := charted.main.tip_dropLast run
  have equal : after.toBlockTree = chain.toBlockTree.disconnected best next := by
    rw [tree, stripped]
    rfl
  have moved : Moved chain after := .of_cells (by rw [equal]; rfl) (by rw [equal]; rfl) disconnected.beside.pool
  have view : ∀ height, after.hashAt height =
      if height + 1 = chain.nodes.length then none else chain.hashAt height := by
    intro height
    rw [equal]
    exact hashAt_disconnected best next height
  have heights : ∀ hash, after.heights.lookup hash =
      if hash = (chain.node best).hash then none else chain.heights.lookup hash := by
    intro hash
    rw [disconnected.heights, lookup_erase_eq]
  have placed := charted.main.placed best (by simp)
  have last := charted.main.depth 0 best rfl
  have atTip := hashAt_of_placed placed
  refine ⟨⟨by rw [equal]; exact charted.main.disconnect, ?_, ?_, ?_, ?_, ?_, ?_, ?_⟩,
    moved, fun hash => by rw [equal]; rfl, heights, view⟩
  · rw [disconnected.flushes]
    exact charted.flushing
  · intro unloaded
    rw [equal] at unloaded
    exact absurd unloaded (charted.main.loaded (by simp)).1
  · intro hash entry found
    exact (disconnected.beside.keyed hash entry found).elim (charted.keyed hash entry) fun own => own
  · intro hash other found
    rw [disconnected.blockCache, lookup_insert_eq] at found
    split at found
    · rename_i here
      cases found
      rw [own, here]
    · exact charted.cached hash other found
  · intro hash height
    have old := charted.recorded hash height
    rw [heights, view]
    by_cases here : hash = (chain.node best).hash <;> by_cases top : height.toNat + 1 = chain.nodes.length
    · simp [here, top]
    · rw [if_pos here, if_neg top]
      refine iff_of_false nofun fun found => top ?_
      rw [here] at found
      rw [charted.hashAt_inj found atTip]
      exact last
    · have same : height.toNat = chain.heightOf best := by omega
      rw [if_neg here, if_pos top, old, same, atTip]
      exact iff_of_false (fun equal => here (Option.some.inj equal).symm) nofun
    · rw [if_neg here, if_neg top, old]
  · intro hash height found
    rw [heights] at found
    split at found
    · cases found
    · exact charted.backed_beside disconnected.beside found
  · intro height hash other found indexed
    rw [view] at found
    split at found
    · cases found
    rename_i lower
    rw [equal] at indexed
    obtain ⟨member, inPath, same⟩ := charted.visible height hash other found indexed
    rcases mem_cons.1 inPath with rfl | inRest
    · rw [← same] at found
      exact absurd (by rw [charted.hashAt_inj found atTip]; exact last) lower
    · exact ⟨member, inRest, by rw [moved.shape.hash, same]⟩

end Charted

/-- What a reorganization leaves as it was, with the view below a height. -/
structure Shifted (low : Nat) (before after : Chain σ) : Prop extends Moved before after where
  index : ∀ hash, after.index.lookup hash = before.index.lookup hash
  view : ∀ height < low, after.hashAt height = before.hashAt height
  known : ∀ hash, after.Known hash ↔ before.Known hash

namespace Moved

theorem refl (chain : Chain σ) : Moved chain chain :=
  ⟨.of_cells rfl, fun _ => rfl, fun _ => rfl, rfl, rfl⟩

theorem trans {between : Chain σ} (first : Moved chain between) (second : Moved between after) : Moved chain after where
  shape := first.shape.trans second.shape
  work id := (second.work id).trans (first.work id)
  children id := (second.children id).trans (first.children id)
  root := second.root.trans first.root
  pool := second.pool.trans first.pool

theorem of_quiet (quiet : Quiet backend.prim chain after) : Moved chain after where
  shape := by
    rw [quiet.tree]
    exact .of_cells rfl
  work _ := by rw [quiet.tree]
  children _ := by rw [quiet.tree]
  root := by rw [quiet.tree]
  pool := quiet.beside.pool

end Moved

namespace Shifted
variable {low : Nat}

theorem refl (low : Nat) (chain : Chain σ) : Shifted low chain chain :=
  ⟨.refl chain, fun _ => rfl, fun _ _ => rfl, fun _ => Iff.rfl⟩

theorem trans {between : Chain σ} (first : Shifted low chain between)
    (second : Shifted low between after) : Shifted low chain after where
  toMoved := first.toMoved.trans second.toMoved
  index hash := (second.index hash).trans (first.index hash)
  view height below := (second.view height below).trans (first.view height below)
  known hash := (second.known hash).trans (first.known hash)

theorem lower (shifted : Shifted low chain after) : Shifted 0 chain after :=
  { shifted with view _ impossible := absurd impossible (Nat.not_lt_zero _) }

theorem of_quiet (low : Nat) (quiet : Quiet backend.prim chain after) : Shifted low chain after where
  toMoved := .of_quiet quiet
  index _ := by rw [quiet.tree]
  view _ _ := by rw [quiet.tree]
  known _ := by rw [Known, quiet.tree, quiet.heights, Known]

/-- A block of the index comes to the main chain or leaves it. -/
theorem of_moved (moved : Moved chain after) (index : ∀ hash, after.index.lookup hash = chain.index.lookup hash)
    {hash : Uint256} {id : Nat} (found : chain.index.lookup hash = some id) (heights : ∀ other, other ≠ hash →
      after.heights.lookup other = chain.heights.lookup other)
    (view : ∀ height < low, after.hashAt height = chain.hashAt height) : Shifted low chain after where
  toMoved := moved
  index := index
  view := view
  known other := by
    rw [Known, Known, index]
    by_cases same : other = hash
    · rw [same, found]
      simp
    · rw [heights other same]

end Shifted

namespace Sound

theorem of_quiet (sound : Sound backend chain path) (quiet : Quiet backend.prim chain after) :
    Sound backend after path :=
  ⟨sound.toCharted.of_quiet quiet, by rw [quiet.tree]; exact sound.family⟩

theorem of_shifted {low : Nat} (sound : Sound backend chain path) {path' : List Nat}
    (charted : Charted backend after path') (shifted : Shifted low chain after) : Sound backend after path' :=
  ⟨charted, sound.family.of_same shifted.shape.parent shifted.shape.hash shifted.children shifted.index⟩

/-- A node of the index with a parent is not the twin of a genesis node, so the main
chain is in the index. -/
theorem loaded_of_child (sound : Sound backend chain path) {hash : Uint256} {id parent : Nat}
    (found : chain.index.lookup hash = some id) (pointer : chain.parentOf id = some parent) :
    chain.root ≠ none ∧ ∀ id ∈ path, chain.index.lookup (chain.node id).hash = some id := by
  rcases sound.main.held with loaded | ⟨genesis, unloaded⟩
  · exact loaded
  · obtain ⟨-, orphaned, -⟩ := unloaded.twin hash id found
    rw [pointer] at orphaned
    cases orphaned

end Sound

theorem attachBlock_ensures {low id best : Nat} (sound : Sound backend chain path)
    (tip : chain.bestChain = some best) (pointer : chain.parentOf id = some best)
    (found : chain.index.lookup (chain.node id).hash = some id) (aside : id ∉ path)
    (bound : low ≤ chain.nodes.length) : Ensures (· = chain) (attachBlock backend id)
      (fun _ after => Sound backend after (id :: path) ∧ Shifted low chain after ∧ low ≤ after.nodes.length)
      (fun after => Sound backend after path ∧ Shifted low chain after) := by
  have loaded := sound.loaded_of_child found pointer
  have known := loaded.2 best (sound.main.tip_mem tip)
  have unflagged : (chain.node id).inMainChain = false := by
    cases flag : (chain.node id).inMainChain with
    | false => rfl
    | true => exact absurd (sound.main.mem_of_flagged loaded found flag) aside
  refine .bind_this fun state equal => ?_
  subst equal
  cases cached : state.blockCache.lookup (state.node id).hash with
  | none => exact .crash _
  | some block =>
    have own := sound.cached _ _ cached
    have connects := Ensures.weaken (connectBlock_ensures backend id block
        ((state.confirmCache.lookup (state.node id).hash).getD none))
      (fun other (equal : other = state) => by rw [equal]; exact Quiet.refl state)
      (fun _ _ holds => holds)
      (fun after (failed : Quiet backend.prim state after ∨ false ∈ state.flushes) =>
        show Sound backend after path ∧ Shifted low state after from by
          rcases failed with quiet | broken
          · exact ⟨sound.of_quiet quiet, .of_quiet low quiet⟩
          · cases sound.flushing false broken)
    refine .bind connects fun checked => .update fun after connected => ?_
    rw [own] at connected
    obtain ⟨line, charted, moved, -, walk, index, heights, top, view⟩ :=
      sound.toCharted.connect (sound.main.indexed _ _ found).1 pointer unflagged tip rfl known
        (fun other again => by rw [found] at again; cases again; rfl)
        (sound.unrecorded loaded found aside) connected
    cases walk.unique (sound.main.tip_line tip)
    have indexSame : ∀ hash, after.index.lookup hash = state.index.lookup hash := by
      intro hash
      rw [index]
      split
      · rename_i here
        rw [here, found]
      · rfl
    have shifted : Shifted low state after := by
      refine .of_moved moved indexSame found (fun other different => ?_) fun height below => ?_
      · rw [heights, if_neg different]
      · rw [view, if_neg (by omega)]
    have longer : low ≤ after.nodes.length := by
      have depth := charted.main.depth 0 id rfl
      rw [moved.shape.heightOf] at depth
      omega
    refine ⟨sound.of_shifted { charted with cached := fun hash block kept => ?_ }
      (show Shifted low state _ from { shifted with }), { shifted with }, longer⟩
    rw [lookup_erase_eq] at kept
    split at kept
    · cases kept
    · exact charted.cached hash block kept

theorem detachBlock_ensures {low best next : Nat} {rest : List Nat}
    (sound : Sound backend chain (best :: next :: rest)) (bound : low < chain.nodes.length) :
    Ensures (· = chain) (detachBlock backend best)
      (fun _ after => Sound backend after (next :: rest) ∧ Shifted low chain after)
      (fun after => Sound backend after (best :: next :: rest) ∧ Shifted low chain after) := by
  have failing : ∀ after, Quiet backend.prim chain after →
      Sound backend after (best :: next :: rest) ∧ Shifted low chain after := by
    intro after quiet
    exact ⟨sound.of_quiet quiet, .of_quiet low quiet⟩
  have pointer := sound.main.parent_tip
  have found := (sound.main.loaded (by simp)).2 best (by simp)
  refine .bind_this fun state equal => ?_
  subst equal
  have read : Ensures (· = state) (getBlock (state.node best).hash)
      (fun entry after => Quiet backend.prim state after ∧ state.stored.lookup (state.node best).hash = some entry)
      (fun after => Sound backend after (best :: next :: rest) ∧ Shifted low state after) := by
    refine .bind_this fun other same => ?_
    subst same
    refine .lift (fun entry after stored same => ?_) fun after same => ?_
    · rw [same]
      refine ⟨Quiet.refl other, ?_⟩
      cases entry' : other.stored.lookup (other.node best).hash with
      | none => rw [entry'] at stored; cases stored
      | some kept => rw [entry'] at stored; cases stored; rfl
    · rw [same]
      exact failing other (Quiet.refl other)
  refine .bind read fun ⟨block, confirm⟩ => .of_fact fun stored => ?_
  have own := sound.keyed _ _ stored
  refine .bind (rollbackLedger_ensures backend block) fun _ => ?_
  refine .imp (disconnectBlock_ensures backend pointer block confirm) (fun _ after disconnected => ?_) failing
  rw [own] at disconnected
  obtain ⟨charted, moved, index, heights, view⟩ := sound.toCharted.disconnect own disconnected
  have shifted : Shifted low state after := by
    refine .of_moved moved index found (fun other different => ?_) fun height below => ?_
    · rw [heights, if_neg different]
    · rw [view, if_neg (by omega)]
  exact ⟨sound.of_shifted charted shifted, shifted⟩

end Chain
end Elastos.Blockchain
