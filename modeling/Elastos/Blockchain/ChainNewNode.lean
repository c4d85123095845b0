import Elastos.Blockchain.ChainSound

/-! The two larger methods that keep a chain sound: the reorganization to a branch,
and the making of the node for a block, which may load the genesis block and drop old
nodes from memory. -/
set_option autoImplicit false
namespace Elastos.Blockchain.Chain
open Go Go.Method Elastos.Types Utils List BlockTree
variable {σ : Type} {backend : Backend σ} {chain after : Chain σ} {path : List Nat}

section Reorganize

/-- The loop that detaches blocks, while `items` are still to come. -/
structure Detaching (backend : Backend σ) (start : Chain σ) (point : Nat) (rest items : List Nat)
    (state : Chain σ) : Prop where
  sound : Sound backend state (items ++ point :: rest)
  shifted : Shifted (start.heightOf point + 1) start state

/-- The loop that attaches blocks up to the main chain `goal`, while `items` are still
to come. -/
structure Attaching (backend : Backend σ) (start : Chain σ) (low : Nat) (goal items : List Nat)
    (state : Chain σ) : Prop where
  sound : ∃ path, goal = items.reverse ++ path ∧ Sound backend state path
  shifted : Shifted low start state
  bound : low ≤ state.nodes.length
  found : ∀ id ∈ items, start.index.lookup (start.node id).hash = some id

def Stopped (backend : Backend σ) (start : Chain σ) (low : Nat) (state : Chain σ) : Prop :=
  ∃ path, Sound backend state path ∧ Shifted low start state

theorem Detaching.step {point item : Nat} {rest items : List Nat} {start : Chain σ} :
    Ensures (Detaching backend start point rest (item :: items)) (detachBlock backend item)
      (fun _ => Detaching backend start point rest items)
      (Stopped backend start (start.heightOf point + 1)) := by
  rintro state ⟨sound, shifted⟩
  -- the point is below the node that is detached
  have depth : state.heightOf point + (item :: items).length + 1 = state.nodes.length := by
    refine sound.main.depth _ point ?_
    rw [getElem?_append_right le_rfl, Nat.sub_self]
    rfl
  rw [shifted.shape.heightOf, length_cons] at depth
  obtain ⟨next, more, split⟩ : ∃ next more, items ++ point :: rest = next :: more := by
    cases items with
    | nil => exact ⟨point, rest, rfl⟩
    | cons next more => exact ⟨next, more ++ point :: rest, rfl⟩
  rw [cons_append, split] at sound
  have detached := detachBlock_ensures sound (show start.heightOf point + 1 < state.nodes.length by omega)
  refine Ensures.imp detached (fun _ after holds => ?_) (fun after holds => ?_) state rfl
  · exact ⟨by rw [split]; exact holds.1, shifted.trans holds.2⟩
  · exact ⟨_, holds.1, shifted.trans holds.2⟩

theorem Attaching.step {low tip item : Nat} {goal items : List Nat} {start : Chain σ}
    (walk : Line start.parentOf tip goal) :
    Ensures (Attaching backend start low goal (item :: items)) (attachBlock backend item)
      (fun _ => Attaching backend start low goal items) (Stopped backend start low) := by
  rintro state ⟨⟨path, split, sound⟩, shifted, bound, found⟩
  obtain ⟨best, rest, first, bestChain⟩ := sound.main.head
  have walk' : Line start.parentOf tip (items.reverse ++ item :: best :: rest) := by
    rw [split, reverse_cons, append_assoc, first] at walk
    exact walk
  have pointer : state.parentOf item = some best := by
    rw [shifted.shape.parent]
    exact walk'.linked
  have here : state.index.lookup (state.node item).hash = some item := by
    rw [shifted.index, shifted.shape.hash]
    exact found item (by simp)
  have aside : item ∉ path := by
    rw [first]
    exact (nodup_cons.1 (nodup_append.1 walk'.nodup).2.1).1
  refine (attachBlock_ensures sound bestChain pointer here aside bound).imp (fun _ after holds => ?_)
    (fun after holds => ?_) state rfl
  · refine ⟨⟨item :: path, ?_, holds.1⟩, shifted.trans holds.2.1, holds.2.2,
      fun id inside => found id (mem_cons_of_mem _ inside)⟩
    rw [split, reverse_cons, append_assoc]
    rfl
  · exact ⟨_, holds.1, shifted.trans holds.2⟩

theorem reorganizeChain_ensures {point tip : Nat} {rest detach attach : List Nat}
    (sound : Sound backend chain (detach ++ point :: rest))
    (walk : Line chain.parentOf tip (attach.reverse ++ point :: rest))
    (found : ∀ id ∈ attach, chain.index.lookup (chain.node id).hash = some id) :
    Ensures (· = chain) (reorganizeChain backend detach attach)
      (fun _ after => Sound backend after (attach.reverse ++ point :: rest) ∧
        Shifted (chain.heightOf point + 1) chain after)
      (Stopped backend chain (chain.heightOf point + 1)) := by
  refine .bind_this fun state equal => ?_
  subst equal
  refine .bind_require (fun _ => ?_) fun after _ equal => ?_
  · have detaches := Ensures.forM (@Detaching.step _ backend point · rest · state) detach
    have attaches := Ensures.forM (@Attaching.step _ backend (state.heightOf point + 1) tip · _ · state walk) attach
    have before := Ensures.weaken detaches
      (fun other (equal : other = state) => by rw [equal]; exact ⟨sound, .refl _ state⟩)
      (fun _ _ holds => holds) (fun _ stopped => stopped)
    refine .bind before fun _ => .weaken attaches (fun after holds => ?_)
      (fun _ after holds => ?_) (fun _ stopped => stopped)
    · have depth := holds.sound.main.depth 0 point rfl
      rw [holds.shifted.shape.heightOf] at depth
      exact ⟨⟨point :: rest, rfl, holds.sound⟩, holds.shifted, by omega, found⟩
    · obtain ⟨path, equal, sound'⟩ := holds.sound
      rw [equal]
      exact ⟨sound', holds.shifted⟩
  · rw [equal]
    exact ⟨_, sound, .refl _ _⟩

end Reorganize

section NewNode

/-- What making the node of a block leaves as it was: nodes may be loaded, dropped
from memory or added, and the main chain keeps its newest ones. -/
structure Refreshed (before : Chain σ) (path : List Nat) (after : Chain σ) (keep : List Nat) : Prop where
  split : ∃ dropped, path = keep ++ dropped ∧ (dropped ≠ [] → keep.length = minMemoryNodes)
  cells : before.cells.length ≤ after.cells.length
  content : ∀ id < before.cells.length, after.node id = { before.node id with
    parent := (after.node id).parent
    children := (after.node id).children }
  walk : ∀ id < before.cells.length, ∀ line, Line before.parentOf id line →
    ∃ front back, line = front ++ back ∧ Line after.parentOf id front
  index : ∀ hash id, after.index.lookup hash = some id → before.index.lookup hash = some id ∨
      ∃ best ∈ after.bestChain, (after.node id).workSum = (after.node best).workSum
  nodes : after.nodes = before.nodes
  bestChain : after.bestChain = before.bestChain
  known : ∀ hash, after.Known hash ↔ before.Known hash
  pool : after.pool = before.pool

namespace Refreshed
variable {before between : Chain σ} {middle keep : List Nat}

theorem refl (chain : Chain σ) (path : List Nat) : Refreshed chain path chain path where
  split := ⟨[], by simp, fun some => absurd rfl some⟩
  cells := le_rfl
  content _ _ := rfl
  walk _ _ line walk := ⟨line, [], by simp, walk⟩
  index _ _ found := .inl found
  nodes := rfl
  bestChain := rfl
  known _ := Iff.rfl
  pool := rfl

theorem trans (sound : Sound backend between middle) (first : Refreshed before path between middle)
    (second : Refreshed between middle after keep) : Refreshed before path after keep where
  split := by
    obtain ⟨dropped, rfl, enough⟩ := first.split
    obtain ⟨dropped', rfl, enough'⟩ := second.split
    refine ⟨dropped' ++ dropped, by simp, fun some => ?_⟩
    cases dropped' with
    | nil => simpa using enough (by simpa using some)
    | cons _ _ => exact enough' (by simp)
  cells := first.cells.trans second.cells
  content id inside := by
    rw [second.content id (lt_of_lt_of_le inside first.cells), first.content id inside]
  walk id inside line walk := by
    obtain ⟨front, back, rfl, walk'⟩ := first.walk id inside line walk
    obtain ⟨front', back', rfl, walk''⟩ := second.walk id (lt_of_lt_of_le inside first.cells) front walk'
    exact ⟨front', back' ++ back, by simp, walk''⟩
  index hash id found := by
    rcases second.index hash id found with found' | twin
    · rcases first.index hash id found' with old | ⟨best, tip, same⟩
      · exact .inl old
      have start := (sound.main.indexed hash id found').1
      have start' := sound.main.allocated best (sound.main.tip_mem tip)
      refine .inr ⟨best, by rw [second.bestChain]; exact tip, ?_⟩
      rw [second.content id start, second.content best start']
      exact same
    · exact .inr twin
  nodes := second.nodes.trans first.nodes
  bestChain := second.bestChain.trans first.bestChain
  known hash := (second.known hash).trans (first.known hash)
  pool := second.pool.trans first.pool

theorem hash (refreshed : Refreshed before path after keep) {id : Nat}
    (inside : id < before.cells.length) : (after.node id).hash = (before.node id).hash := by
  rw [refreshed.content id inside]

theorem workSum (refreshed : Refreshed before path after keep) {id : Nat}
    (inside : id < before.cells.length) : (after.node id).workSum = (before.node id).workSum := by
  rw [refreshed.content id inside]

theorem hashAt (sound : Sound backend before path) (refreshed : Refreshed before path after keep) (height : Nat) :
    after.hashAt height = before.hashAt height := by
  rw [BlockTree.hashAt, refreshed.nodes, BlockTree.hashAt]
  cases entry : before.nodes[height]? with
  | none => rfl
  | some slot =>
    cases slot with
    | none => rfl
    | some id =>
      have start := (sound.main.entries height id entry).2.2
      exact congrArg some (refreshed.hash start)

variable {tree : BlockTree}

/-- Nodes were added, and those that were there are as they were. -/
theorem of_old (sound : Sound backend chain path) (cells : chain.cells.length ≤ tree.cells.length)
    (old : ∀ id < chain.cells.length, tree.node id = chain.node id)
    (index : ∀ hash id, tree.index.lookup hash = some id → chain.index.lookup hash = some id ∨
      ∃ best ∈ tree.bestChain, (tree.node id).workSum = (tree.node best).workSum)
    (nodes : tree.nodes = chain.nodes) (bestChain : tree.bestChain = chain.bestChain)
    (known : ∀ hash, Known { chain with toBlockTree := tree } hash ↔ chain.Known hash) :
    Refreshed chain path { chain with toBlockTree := tree } path := by
  refine ⟨⟨[], by simp, fun some => absurd rfl some⟩, cells, fun id inside => ?_, fun id inside line walk => ?_,
    index, nodes, bestChain, known, rfl⟩
  · change tree.node id = _
    rw [old id inside]
  · refine ⟨line, [], by simp, walk.congr fun member inLine => ?_⟩
    have inside' := sound.main.rooted.line_allocated walk inside member inLine
    change (tree.node member).parent = _
    rw [old member inside', parentOf]

theorem sound (sound : Sound backend chain path)
    (refreshed : Refreshed chain path { chain with toBlockTree := tree } keep)
    (main : tree.MainChain keep) (family : tree.Family) (root : tree.root = none → chain.root = none)
    (visible : ∀ height hash id, chain.hashAt height = some hash → tree.index.lookup hash = some id →
      ∃ member ∈ keep, (tree.node member).hash = hash) : Sound backend { chain with toBlockTree := tree } keep := by
  have view := refreshed.hashAt sound
  refine ⟨⟨main, sound.flushing, fun none => ?_, sound.keyed, sound.cached, fun hash height => ?_, sound.backed,
    fun height hash id found => visible height hash id ((view height).symm.trans found)⟩, family⟩
  · obtain ⟨stored, best, tip, same, work⟩ := sound.genesis (root none)
    have start := sound.main.allocated best (sound.main.tip_mem tip)
    exact ⟨stored, best, refreshed.bestChain.trans tip, (refreshed.hash start).trans same,
      (refreshed.workSum start).trans work⟩
  · rw [view]
    exact sound.recorded hash height

end Refreshed

section
variable (sound : Sound backend chain path)
include sound

theorem loadHeader_ensures (unloaded : chain.root = none) :
    Ensures (· = chain) (loadHeader (backend.genesisBlock.hash backend.prim))
      (fun parent after => Sound backend after path ∧ Refreshed chain path after path ∧
        after.index.lookup (backend.genesisBlock.hash backend.prim) = some parent)
      (fun _ => False) := by
  rintro state rfl
  obtain ⟨⟨confirm, stored⟩, best, tip, sameHash, sameWork⟩ := sound.genesis unloaded
  obtain ⟨genesis, held⟩ : ∃ genesis, state.toBlockTree.Unloaded path genesis := by
    rcases sound.main.held with ⟨loaded, -⟩ | unloaded'
    · exact absurd unloaded loaded
    · exact unloaded'
  have inPath := sound.main.tip_mem tip
  cases mem_singleton.1 (held.alone ▸ inPath)
  have start := sound.main.allocated best inPath
  obtain ⟨tree, run, main, family, root, cells, nodes, bestChain, old, twin⟩ :=
    sound.main.loadGenesis sound.family held unloaded
      (show backend.genesisBlock.toHeader.height = 0 from backend.genesisBlock_height)
      sameWork.symm
  rw [sameHash] at run twin
  have whole : loadHeader (backend.genesisBlock.hash backend.prim) state =
      (.ok state.cells.length, { state with toBlockTree := tree }) := by
    have read : getBlock (backend.genesisBlock.hash backend.prim) state =
        (.ok (backend.genesisBlock, confirm), state) := by
      change Method.lift (Outcome.ofOption _ (state.stored.lookup _)) state = _
      rw [stored]
      rfl
    rw [loadHeader, Method.bind_returned read]
    change onTree _ state = _
    rw [onTree, Method.part, run]
  rw [whole]
  have held' : tree.Unloaded path best := by
    rcases main.held with ⟨-, indexed⟩ | ⟨genesis, held'⟩
    · have own := indexed best inPath
      rw [old best start, sameHash, twin] at own
      cases own
      exact absurd start (lt_irrefl _)
    · cases mem_singleton.1 (held'.alone ▸ inPath)
      exact held'
  have recorded : (state.heights.lookup (state.node best).hash).isSome := by
    rw [sound.recorded_of_placed (sound.main.placed best inPath)]
    rfl
  have refreshed : Refreshed state path { state with toBlockTree := tree } path := by
    refine .of_old sound (by omega) old (fun hash id found => .inr ⟨best, bestChain.trans tip,
      (held'.twin hash id found).2.2.2.2⟩) nodes bestChain fun hash => ?_
    change (tree.index.lookup hash).isSome ∨ _ ↔ _
    simp only [Known, (held.empty unloaded).1, Option.isSome_none, Bool.false_eq_true, false_or]
    refine ⟨fun either => either.elim (fun inIndex => ?_) id, .inr⟩
    obtain ⟨id, found⟩ := Option.isSome_iff_exists.1 inIndex
    rw [(held'.twin hash id found).1, old best start]
    exact recorded
  exact ⟨refreshed.sound sound main family (fun none => absurd none root)
    fun _ hash id _ found => main.marked hash id found (held'.twin hash id found).2.2.2.1, refreshed, twin⟩

/-- Pruning never fails, and only takes nodes out of the index. -/
theorem pruneBlockNodes_run :
    ∃ after keep, pruneBlockNodes chain = (.ok (), after) ∧ Sound backend after keep ∧
      Refreshed chain path after keep ∧ after.cells.length = chain.cells.length ∧
      ∀ hash id, after.index.lookup hash = some id → chain.index.lookup hash = some id := by
  obtain ⟨tree, keep, dropped, run, split, enough, pruned, main, family, root⟩ := sound.main.prune sound.family
  have whole : pruneBlockNodes chain = (.ok (), { chain with toBlockTree := tree }) := by
    rw [pruneBlockNodes, onTree, Method.part, run]
  have refreshed : Refreshed chain path { chain with toBlockTree := tree } keep := by
    refine ⟨⟨dropped, split, enough⟩, pruned.cells.ge, fun id _ => pruned.content id,
      fun id _ line walk => pruned.line walk, ?_, pruned.nodes, pruned.bestChain, ?_, rfl⟩
    · intro hash id found
      exact .inl ((pruned.index hash id).1 found).1
    · intro hash
      change (tree.index.lookup hash).isSome ∨ _ ↔ _
      refine ⟨Or.imp_left fun inIndex => ?_, fun either => either.elim (fun inIndex => ?_) .inr⟩
      · obtain ⟨id, found⟩ := Option.isSome_iff_exists.1 inIndex
        rw [((pruned.index hash id).1 found).1]
        rfl
      · obtain ⟨id, found⟩ := Option.isSome_iff_exists.1 inIndex
        by_cases gone : ∃ old ∈ dropped, (chain.node old).hash = hash
        · -- what is dropped is still recorded in the store
          obtain ⟨old, inDropped, rfl⟩ := gone
          have placed := sound.main.placed old (by rw [split]; simp [inDropped])
          refine .inr ?_
          change (chain.heights.lookup _).isSome
          rw [sound.recorded_of_placed placed]
          rfl
        · have kept := (pruned.index hash id).2 ⟨found, fun old inDropped same => gone ⟨old, inDropped, same⟩⟩
          rw [kept]
          exact .inl rfl
  refine ⟨_, keep, whole, refreshed.sound sound main family root.1 fun height hash id found indexed => ?_, refreshed,
    pruned.cells, fun hash id found => ((pruned.index hash id).1 found).1⟩
  obtain ⟨indexed', away⟩ := (pruned.index hash id).1 indexed
  obtain ⟨member, inPath, same⟩ := sound.visible height hash id found indexed'
  rw [split] at inPath
  rcases mem_append.1 inPath with inKeep | inDropped
  · exact ⟨member, inKeep, (pruned.hash member).trans same⟩
  · exact absurd same (away member inDropped)

/-- A node without children is added that hangs on a node of the tree or on nothing. -/
theorem allocate_sound {node : ChainNode} (childless : node.children = [])
    (pointer : ∀ parent, node.parent = some parent → parent < chain.cells.length ∧
      node.parentHash = (chain.node parent).hash ∧ node.height = (chain.node parent).height + 1) :
    Sound backend { chain with toBlockTree := chain.toBlockTree.allocate node } path ∧
      Refreshed chain path { chain with toBlockTree := chain.toBlockTree.allocate node } path := by
  have refreshed : Refreshed chain path { chain with toBlockTree := chain.toBlockTree.allocate node } path :=
    .of_old sound (by simp) (fun id inside => chain.toBlockTree.node_allocate_old node inside)
      (fun _ _ found => .inl found) rfl rfl fun _ => Iff.rfl
  refine ⟨refreshed.sound sound (sound.main.allocate pointer) (sound.family.allocate sound.main childless)
    (fun none => none) fun height hash id found indexed => ?_, refreshed⟩
  obtain ⟨member, inPath, same⟩ := sound.visible height hash id found indexed
  exact ⟨member, inPath, (refreshed.hash (sound.main.allocated member inPath)).trans same⟩

end

def childNode (backend : Backend σ) (block : Block) (parent : Nat) (height : UInt32) (work : Nat) : ChainNode :=
  { newBlockNode block.toHeader (block.hash backend.prim) with
    parent := some parent
    height
    workSum := work + calcWork block.bits }

structure NodeOf (backend : Backend σ) (block : Block) (id : Nat) (made : Chain σ) : Prop where
  last : made.cells.length = id + 1
  hash : (made.node id).hash = block.hash backend.prim
  height : (made.node id).height = block.height
  unflagged : (made.node id).inMainChain = false
  parent : ∃ parent < id, made.parentOf id = some parent ∧ (made.node parent).hash = block.previous ∧
    (made.node id).workSum = (made.node parent).workSum + calcWork block.bits ∧
    ∀ other, made.index.lookup block.previous = some other → other = parent

/-- The parent of a block is in memory, or it is the genesis block and the first block
has not come yet. -/
def ParentKnown (backend : Backend σ) (chain : Chain σ) (block : Block) : Prop :=
  (chain.index.lookup block.previous).isSome ∨
    chain.root = none ∧ block.previous = backend.genesisBlock.hash backend.prim

instance (block : Block) : Decidable (ParentKnown backend chain block) := by
  unfold ParentKnown
  infer_instance

theorem getPrevNodeFromBlock_ensures (sound : Sound backend chain path) {block : Block}
    (known : ParentKnown backend chain block) : Ensures (· = chain) (getPrevNodeFromBlock block)
      (fun prevNode after => (Sound backend after path ∧ Refreshed chain path after path) ∧
        ∀ parent ∈ prevNode, after.index.lookup block.previous = some parent)
      (fun after => Sound backend after path ∧ Refreshed chain path after path) := by
  refine .bind_this fun state equal => ?_
  subst equal
  refine .ite (fun _ => .pure none ?_) fun _ => ?_
  · rintro other rfl
    exact ⟨⟨sound, .refl other path⟩, fun parent absent => (by cases absent)⟩
  · cases found : state.index.lookup block.previous with
    | some parent =>
      refine .pure (some parent) ?_
      rintro other rfl
      refine ⟨⟨sound, .refl other path⟩, fun named same => ?_⟩
      cases same
      exact found
    | none =>
      obtain ⟨unloaded, genesis⟩ : state.root = none ∧ block.previous = backend.genesisBlock.hash backend.prim := by
        rcases known with inIndex | first
        · rw [found] at inIndex
          cases inIndex
        · exact first
      rw [genesis]
      have loads := Ensures.imp (loadHeader_ensures sound unloaded)
        (fun _ _ holds => holds) (fun after impossible =>
          show Sound backend after path ∧ Refreshed state path after path from
            impossible.elim)
      refine .bind loads fun parent => .pure (some parent) ?_
      rintro after ⟨sound', refreshed, twin⟩
      refine ⟨⟨sound', refreshed⟩, fun named same => ?_⟩
      cases same
      exact twin

theorem newNode_ensures (sound : Sound backend chain path) {block : Block}
    (known : ParentKnown backend chain block) : Ensures (· = chain) (newNode backend block)
      (fun id made => made.parentOf id = none ∧ made.bestChain = chain.bestChain ∨
        ∃ keep, Sound backend made keep ∧ Refreshed chain path made keep ∧ NodeOf backend block id made)
      (fun after => Sound backend after path ∧ Refreshed chain path after path) := by
  refine .bind (getPrevNodeFromBlock_ensures sound known) fun prevNode => ?_
  refine .bind_this fun loaded ⟨⟨soundLoaded, refreshed⟩, found⟩ => ?_
  refine .bind_require (fun height => ?_) fun after _ equal => ?_
  · obtain ⟨pruned, keep, run, soundPruned, refreshed', cells, shrinks⟩ :=
      pruneBlockNodes_run soundLoaded
    have prunes : Ensures (· = loaded) pruneBlockNodes
        (fun _ state => state = pruned)
        (fun after => Sound backend after path ∧ Refreshed chain path after path) := by
      rintro state rfl
      rw [run]
    refine .bind prunes fun _ => .bind_this fun state equal => ?_
    subst equal
    intro other same
    subst same
    cases prevNode with
    | none =>
      refine Or.inl ⟨?_, refreshed'.bestChain.trans refreshed.bestChain⟩
      change ((other.toBlockTree.allocate _).node other.cells.length).parent = none
      rw [node_allocate_new]
      rfl
    | some parent =>
      have indexed := found parent rfl
      obtain ⟨start, named⟩ := soundLoaded.main.indexed _ _ indexed
      have start' : parent < other.cells.length := by omega
      have content := refreshed'.content parent start
      obtain ⟨soundMade, allocated⟩ := allocate_sound soundPruned
        (show (childNode backend block parent ((loaded.node parent).height + 1)
          (other.node parent).workSum).children = [] from rfl)
        (by
          rintro _ ⟨⟩
          refine ⟨start', ?_, ?_⟩
          · rw [refreshed'.hash start, named]
            rfl
          · rw [content]
            rfl)
      have new := other.toBlockTree.node_allocate_new (childNode backend block parent
        ((loaded.node parent).height + 1) (other.node parent).workSum)
      refine Or.inr ⟨keep, soundMade, (refreshed.trans soundLoaded refreshed').trans soundPruned allocated, ?_⟩
      refine ⟨?_, ?_, ?_, ?_, parent, start', ?_, ?_, ?_, ?_⟩
      · exact other.toBlockTree.cells_allocate _
      · exact congrArg ChainNode.hash new
      · exact (congrArg ChainNode.height new).trans height.symm
      · exact congrArg ChainNode.inMainChain new
      · exact congrArg ChainNode.parent new
      · exact (allocated.hash start').trans ((refreshed'.hash start).trans named)
      · refine (congrArg ChainNode.workSum new).trans ?_
        exact congrArg (· + calcWork block.bits) (allocated.workSum start').symm
      · intro other again
        have again' := shrinks _ _ again
        rw [indexed] at again'
        cases again'
        rfl
  · rw [equal]
    exact ⟨soundLoaded, refreshed⟩

end NewNode
end Elastos.Blockchain.Chain
