import Elastos.Blockchain.BlockTree
import Elastos.Utils.Lineage

/-! The invariant of the block index: the main chain is a line of parents from its
tip to the oldest node in memory, the view and the flags describe that line, and
the searches of the tree find the forks from it. -/
set_option autoImplicit false
namespace Elastos.Blockchain.BlockTree
open Go Common Utils GoMap List BlockTree

section Cells
variable {β : Type} (tree : BlockTree) (node : ChainNode)

@[simp] theorem node_allocate_old {id : Nat} (old : id < tree.cells.length) :
    (tree.allocate node).node id = tree.node id := by
  simp [BlockTree.node, allocate, getElem?_append_left old]

@[simp] theorem node_allocate_new : (tree.allocate node).node tree.cells.length = node := by
  simp [BlockTree.node, allocate]

theorem node_of_le {id : Nat} (beyond : tree.cells.length ≤ id) : tree.node id = default := by
  simp [node, beyond]

theorem node_modifyNode (id other : Nat) (change : ChainNode → ChainNode) : (tree.modifyNode id change).node other =
      if id = other ∧ other < tree.cells.length then change (tree.node other)
      else tree.node other := by
  simp only [node, modifyNode, getD_eq_getElem?_getD, getElem?_modify]
  by_cases inside : other < tree.cells.length
  · by_cases same : id = other <;> simp [same, inside]
  · simp [inside]

theorem field_modifyNode (field : ChainNode → β) {change : ChainNode → ChainNode}
    (keeps : ∀ node, field (change node) = field node) (id other : Nat) :
    field ((tree.modifyNode id change).node other) = field (tree.node other) := by
  rw [node_modifyNode]
  split
  · exact keeps _
  · rfl

theorem flag_setInMainChain (id : Nat) (flag : Bool) (other : Nat) :
    ((tree.setInMainChain id flag).node other).inMainChain =
      if id = other ∧ other < tree.cells.length then flag else (tree.node other).inMainChain := by
  rw [setInMainChain, node_modifyNode]
  split <;> rfl

@[simp] theorem cells_modifyNode (id : Nat) (change : ChainNode → ChainNode) :
    (tree.modifyNode id change).cells.length = tree.cells.length := by
  simp [modifyNode]

@[simp] theorem cells_allocate : (tree.allocate node).cells.length = tree.cells.length + 1 := by
  simp [allocate]

end Cells

def parentOf (tree : BlockTree) (id : Nat) : Option Nat := (tree.node id).parent

def heightOf (tree : BlockTree) (id : Nat) : Nat := (tree.node id).height.toNat

/-- The nodes of every branch hang together: pointers lead to nodes, following them
ends, and a node is one higher than the node whose hash it names. -/
structure Rooted (tree : BlockTree) : Prop where
  allocated : ∀ id parent, tree.parentOf id = some parent → parent < tree.cells.length
  walks : ∀ id < tree.cells.length, ∃ line, Line tree.parentOf id line
  named : ∀ id parent, tree.parentOf id = some parent → (tree.node id).parentHash = (tree.node parent).hash ∧
      (tree.node id).height = (tree.node parent).height + 1

/-- A chain that has not connected a block yet. Its genesis node is not in the
index; the index is empty or holds another node of the genesis block. -/
structure Unloaded (tree : BlockTree) (path : List Nat) (genesis : Nat) : Prop where
  alone : path = [genesis]
  lowest : tree.heightOf genesis = 0
  empty : tree.root = none → (∀ hash, tree.index.lookup hash = none) ∧ ∀ hash, tree.depNodes.lookup hash = none
  twin : ∀ hash id, tree.index.lookup hash = some id → hash = (tree.node genesis).hash ∧
    tree.parentOf id = none ∧ tree.heightOf id = 0 ∧ (tree.node id).inMainChain = true ∧
      (tree.node id).workSum = (tree.node genesis).workSum

/-- The main chain, from its tip to its oldest node in memory. -/
structure MainChain (tree : BlockTree) (path : List Nat) : Prop where
  rooted : tree.Rooted
  tip : ∃ best, tree.bestChain = some best ∧ Line tree.parentOf best path
  allocated : ∀ id ∈ path, id < tree.cells.length
  depth : ∀ position id, path[position]? = some id → tree.heightOf id + position + 1 = tree.nodes.length
  placed : ∀ id ∈ path, tree.nodes[tree.heightOf id]? = some (some id)
  entries : ∀ height id, tree.nodes[height]? = some (some id) →
    tree.heightOf id = height ∧ (tree.node id).inMainChain = true ∧ id < tree.cells.length
  flagged : ∀ id ∈ path, (tree.node id).inMainChain = true
  indexed : ∀ hash id, tree.index.lookup hash = some id → id < tree.cells.length ∧ (tree.node id).hash = hash
  marked : ∀ hash id, tree.index.lookup hash = some id →
    (tree.node id).inMainChain = true → ∃ main ∈ path, (tree.node main).hash = hash
  held : (tree.root ≠ none ∧ ∀ id ∈ path, tree.index.lookup (tree.node id).hash = some id) ∨
    ∃ genesis, tree.Unloaded path genesis

/-- The lists of children and the pointers to parents agree on the nodes of the
index, and lead from the index into the index. -/
structure Family (tree : BlockTree) : Prop where
  ofChild : ∀ parent child, child ∈ (tree.node parent).children → tree.parentOf child = some parent
  ofParent : ∀ hash id parent, tree.index.lookup hash = some id →
    tree.parentOf id = some parent → id ∈ (tree.node parent).children
  ofIndex : ∀ hash id parent, tree.index.lookup hash = some id →
    tree.parentOf id = some parent → tree.index.lookup (tree.node parent).hash = some parent

section View
variable {tree : BlockTree} {path : List Nat}

theorem fillNodes_none (bound : Nat) (nodes : List (Option Nat)) : tree.fillNodes bound none nodes = .ok nodes := by
  cases bound <;> rfl

theorem fillNodes_cases {bound id : Nat} {nodes nodes' : List (Option Nat)}
    (filled : tree.fillNodes (bound + 1) (some id) nodes = .ok nodes') : tree.heightOf id < nodes.length ∧
      (nodes[tree.heightOf id]? = some (some id) ∧ nodes' = nodes ∨
        nodes[tree.heightOf id]? ≠ some (some id) ∧ tree.fillNodes bound (tree.parentOf id)
            (nodes.set (tree.heightOf id) (some id)) = .ok nodes') := by
  unfold fillNodes at filled
  simp only [show (tree.node id).height.toNat = tree.heightOf id from rfl] at filled
  cases entry : nodes[tree.heightOf id]? with
  | none => rw [entry] at filled; simp at filled
  | some found =>
    rw [entry] at filled
    simp only at filled
    refine ⟨(List.getElem?_eq_some_iff.1 entry).1, ?_⟩
    by_cases same : found = some id
    · rw [if_pos same] at filled
      exact .inl ⟨by rw [same], by cases filled; rfl⟩
    · rw [if_neg same] at filled
      exact .inr ⟨by simpa using same, filled⟩

/-- The walk of `setTip` puts every node of its line into the view. It may stop at the
first one that is there, since those below it are there as well. -/
theorem fillNodes_line {id bound top : Nat} {trail : List Nat} {nodes nodes' : List (Option Nat)}
    (walk : Line tree.parentOf id trail) (enough : trail.length ≤ bound)
    (heights : ∀ (position : Nat) member, trail[position]? = some member → tree.heightOf member + position = top)
    (closed : ∀ front member back, trail = front ++ member :: back → nodes[tree.heightOf member]? = some (some member) →
      ∀ lower ∈ back, nodes[tree.heightOf lower]? = some (some lower))
    (filled : tree.fillNodes bound (some id) nodes = .ok nodes') : nodes'.length = nodes.length ∧
      (∀ member ∈ trail, nodes'[tree.heightOf member]? = some (some member)) ∧
      ∀ height, (∀ member ∈ trail, tree.heightOf member ≠ height) → nodes'[height]? = nodes[height]? := by
  induction walk generalizing bound top nodes with
  | @root id none =>
    obtain _ | bound := bound
    · simp at enough
    obtain ⟨inside, ⟨there, rfl⟩ | ⟨missing, rest⟩⟩ := fillNodes_cases filled
    · exact ⟨rfl, by simpa using there, fun _ _ => rfl⟩
    rw [none, fillNodes_none] at rest
    cases rest
    refine ⟨by simp, by simp [getElem?_set, inside], fun height away => ?_⟩
    rw [getElem?_set, if_neg (away id (by simp))]
  | @step id next rest some inner ih =>
    obtain _ | bound := bound
    · simp at enough
    obtain ⟨inside, ⟨there, rfl⟩ | ⟨missing, continued⟩⟩ := fillNodes_cases filled
    · refine ⟨rfl, fun member inLine => ?_, fun _ _ => rfl⟩
      rcases mem_cons.1 inLine with rfl | inRest
      · exact there
      · exact closed [] id rest rfl there member inRest
    rw [some] at continued
    have topHere : tree.heightOf id = top := by simpa using heights 0 id rfl
    have below : ∀ (position : Nat) member, rest[position]? = Option.some member →
        tree.heightOf member + position = top - 1 := by
      intro position member found
      have whole := heights (position + 1) member (by simpa using found)
      omega
    have apart : ∀ member ∈ rest, tree.heightOf id ≠ tree.heightOf member := by
      intro member inRest
      obtain ⟨position, found⟩ := getElem?_of_mem inRest
      have whole := heights (position + 1) member (by simpa using found)
      omega
    obtain ⟨sameLength, placed, others⟩ := ih (by simp at enough; omega) below
      (by
        intro front member back split there lower inBack
        have memberIn : member ∈ rest := by rw [split]; simp
        have lowerIn : lower ∈ rest := by rw [split]; simp [inBack]
        rw [getElem?_set, if_neg (apart _ memberIn)] at there
        rw [getElem?_set, if_neg (apart _ lowerIn)]
        exact closed (id :: front) member back (by rw [split]; rfl) there lower inBack)
      continued
    refine ⟨by rw [sameLength]; simp, fun member inLine => ?_, fun height away => ?_⟩
    · rcases mem_cons.1 inLine with rfl | inRest
      · rw [others _ fun member inRest => (apart member inRest).symm, getElem?_set, if_pos rfl, if_pos inside]
      · exact placed member inRest
    · rw [others _ fun member inRest => away member (mem_cons_of_mem _ inRest),
        getElem?_set, if_neg (away id (by simp))]

end View

namespace Rooted
variable {tree : BlockTree} {id : Nat} {line : List Nat}

theorem line_allocated (rooted : tree.Rooted) (walk : Line tree.parentOf id line)
    (start : id < tree.cells.length) (member : Nat) (inLine : member ∈ line) : member < tree.cells.length := by
  induction walk with
  | root _ => rwa [mem_singleton.1 inLine]
  | step some _ ih =>
    rcases mem_cons.1 inLine with rfl | inRest
    · exact start
    · exact ih (rooted.allocated _ _ some) inRest

/-- The cells bound the length of a line, so the walks of the tree see all of it. -/
theorem line_length (rooted : tree.Rooted) (walk : Line tree.parentOf id line)
    (start : id < tree.cells.length) : line.length ≤ tree.cells.length := by
  have contained : line ⊆ range tree.cells.length := fun member inLine =>
    mem_range.2 (rooted.line_allocated walk start member inLine)
  have bound := (subperm_of_subset walk.nodup contained).length_le
  rwa [length_range] at bound

end Rooted

/-! The ways in which the tree changes. -/

/-- Trees whose nodes have the same hashes, heights and parents. -/
structure SameShape (tree tree' : BlockTree) : Prop where
  cells : tree'.cells.length = tree.cells.length
  parent : ∀ id, tree'.parentOf id = tree.parentOf id
  hash : ∀ id, (tree'.node id).hash = (tree.node id).hash
  parentHash : ∀ id, (tree'.node id).parentHash = (tree.node id).parentHash
  height : ∀ id, (tree'.node id).height = (tree.node id).height

namespace SameShape
variable {tree tree' : BlockTree}

section
variable (same : SameShape tree tree')
include same

theorem heightOf (id : Nat) : tree'.heightOf id = tree.heightOf id := by
  rw [BlockTree.heightOf, same.height, BlockTree.heightOf]

theorem parentOf : tree'.parentOf = tree.parentOf :=
  funext same.parent

theorem rooted (rooted : tree.Rooted) : tree'.Rooted := by
  constructor
  · intro id parent some
    rw [same.cells]
    exact rooted.allocated id parent (by rw [← same.parent, some])
  · intro id inside
    rw [same.parentOf]
    exact rooted.walks id (by rw [← same.cells]; exact inside)
  · intro id parent some
    rw [same.parentHash, same.hash, same.height, same.height]
    exact rooted.named id parent (by rw [← same.parent, some])

end

theorem of_cells (same : tree'.cells = tree.cells) : SameShape tree tree' := by
  have nodes : ∀ id, tree'.node id = tree.node id := fun id => by rw [node, same, node]
  constructor <;> simp [same, nodes, BlockTree.parentOf]

theorem trans {tree'' : BlockTree} (first : SameShape tree tree')
    (second : SameShape tree' tree'') : SameShape tree tree'' where
  cells := second.cells.trans first.cells
  parent id := (second.parent id).trans (first.parent id)
  hash id := (second.hash id).trans (first.hash id)
  parentHash id := (second.parentHash id).trans (first.parentHash id)
  height id := (second.height id).trans (first.height id)

theorem modifyNode {change : ChainNode → ChainNode} (id : Nat)
    (parent : ∀ node, (change node).parent = node.parent) (hash : ∀ node, (change node).hash = node.hash)
    (parentHash : ∀ node, (change node).parentHash = node.parentHash)
    (height : ∀ node, (change node).height = node.height) : SameShape tree (tree.modifyNode id change) where
  cells := by simp
  parent := tree.field_modifyNode ChainNode.parent parent id
  hash := tree.field_modifyNode ChainNode.hash hash id
  parentHash := tree.field_modifyNode ChainNode.parentHash parentHash id
  height := tree.field_modifyNode ChainNode.height height id

theorem setInMainChain (id : Nat) (flag : Bool) : SameShape tree (tree.setInMainChain id flag) :=
  .modifyNode id (fun _ => rfl) (fun _ => rfl) (fun _ => rfl) fun _ => rfl

theorem addChild (parent child : Nat) : SameShape tree (tree.addChild parent child) :=
  .modifyNode parent (fun _ => rfl) (fun _ => rfl) (fun _ => rfl) fun _ => rfl

end SameShape

namespace MainChain
variable {tree : BlockTree} {path : List Nat}
variable (main : tree.MainChain path)
include main

theorem nodup : path.Nodup := by
  obtain ⟨best, -, walk⟩ := main.tip
  exact walk.nodup

/-- Only a chain of the genesis block alone may not be in the index. -/
theorem loaded (long : path.length ≠ 1) :
    tree.root ≠ none ∧ ∀ id ∈ path, tree.index.lookup (tree.node id).hash = some id := by
  rcases main.held with loaded | ⟨genesis, unloaded⟩
  · exact loaded
  · exact absurd (congrArg List.length unloaded.alone) long

theorem hash_inj {left right : Nat} (leftIn : left ∈ path) (rightIn : right ∈ path)
    (same : (tree.node left).hash = (tree.node right).hash) :
    left = right := by
  rcases main.held with ⟨-, held⟩ | ⟨genesis, unloaded⟩
  · have first := held left leftIn
    rw [same, held right rightIn] at first
    exact (Option.some.inj first).symm
  · rw [unloaded.alone] at leftIn rightIn
    rw [mem_singleton.1 leftIn, mem_singleton.1 rightIn]

/-- A node of the index is on the main chain when it is flagged, up to the twin of
a genesis node. -/
theorem mem_of_flagged (loaded : tree.root ≠ none ∧
      ∀ id ∈ path, tree.index.lookup (tree.node id).hash = some id) {hash : Uint256} {id : Nat}
    (found : tree.index.lookup hash = some id) (flag : (tree.node id).inMainChain = true) : id ∈ path := by
  obtain ⟨member, inPath, same⟩ := main.marked hash id found flag
  have held := loaded.2 member inPath
  rw [same, found] at held
  cases held
  exact inPath

theorem head : ∃ best rest, path = best :: rest ∧ tree.bestChain = some best := by
  obtain ⟨best, found, walk⟩ := main.tip
  obtain ⟨rest, equal⟩ := walk.head
  exact ⟨best, rest, equal, found⟩

section Tip
variable {best : Nat} (found : tree.bestChain = some best)
include found

theorem tip_line : Line tree.parentOf best path := by
  obtain ⟨_, found', walk⟩ := main.tip
  cases found.symm.trans found'
  exact walk

theorem tip_mem : best ∈ path := by
  obtain ⟨rest, equal⟩ := (main.tip_line found).head
  simp [equal]

theorem length_tip : tree.nodes.length = tree.heightOf best + 1 := by
  obtain ⟨rest, equal⟩ := (main.tip_line found).head
  have depth := main.depth 0 best (by rw [equal]; rfl)
  omega

end Tip

/-- The main chain stays, as far as it is kept in memory, when its nodes do. -/
theorem of_old {tree' : BlockTree} {keep : List Nat} (part : keep <+: path) (rooted : tree'.Rooted)
    (cells : tree.cells.length ≤ tree'.cells.length)
    (tip : ∃ best, tree'.bestChain = some best ∧ Line tree'.parentOf best keep)
    (content : ∀ id < tree.cells.length, (tree'.node id).hash = (tree.node id).hash ∧
      (tree'.node id).height = (tree.node id).height ∧ (tree'.node id).inMainChain = (tree.node id).inMainChain)
    (nodes : tree'.nodes = tree.nodes)
    (indexed : ∀ hash id, tree'.index.lookup hash = some id → id < tree.cells.length ∧ (tree.node id).hash = hash)
    (marked : ∀ hash id, tree'.index.lookup hash = some id →
      (tree.node id).inMainChain = true → ∃ main ∈ keep, (tree.node main).hash = hash)
    (held : (tree'.root ≠ none ∧ ∀ id ∈ keep, tree'.index.lookup (tree.node id).hash = some id) ∨
      ∃ genesis, tree'.Unloaded keep genesis) : tree'.MainChain keep := by
  have start : ∀ id ∈ keep, id < tree.cells.length := fun id inside => main.allocated id (part.subset inside)
  have heights : ∀ id < tree.cells.length, tree'.heightOf id = tree.heightOf id :=
    fun id inside => congrArg UInt32.toNat (content id inside).2.1
  refine ⟨rooted, tip, fun id inside => (start id inside).trans_le cells, ?_, ?_, ?_, ?_, ?_, ?_, ?_⟩
  · intro position id found
    rw [heights id (start id (mem_of_getElem? found)), nodes]
    obtain ⟨dropped, rfl⟩ := part
    exact main.depth position id (by rw [List.getElem?_append_left (List.getElem?_eq_some_iff.1 found).1, found])
  · intro id inside
    rw [heights id (start id inside), nodes]
    exact main.placed id (part.subset inside)
  · intro height id found
    obtain ⟨here, flag, start⟩ := main.entries height id (by rw [← nodes, found])
    rw [heights id start, (content id start).2.2]
    exact ⟨here, flag, start.trans_le cells⟩
  · intro id inside
    rw [(content id (start id inside)).2.2]
    exact main.flagged id (part.subset inside)
  · intro hash id found
    obtain ⟨start, equal⟩ := indexed hash id found
    exact ⟨start.trans_le cells, (content id start).1.trans equal⟩
  · intro hash id found flag
    rw [(content id (indexed hash id found).1).2.2] at flag
    obtain ⟨member, inside, equal⟩ := marked hash id found flag
    exact ⟨member, inside, (content member (start member inside)).1.trans equal⟩
  · rcases held with ⟨loaded, held⟩ | unloaded
    · refine .inl ⟨loaded, fun id inside => ?_⟩
      rw [(content id (start id inside)).1]
      exact held id inside
    · exact .inr unloaded

theorem addChild (parent child : Nat) : (tree.addChild parent child).MainChain path := by
  have same : SameShape tree (tree.addChild parent child) := .addChild parent child
  have flags : ∀ id, ((tree.addChild parent child).node id).inMainChain = (tree.node id).inMainChain :=
    tree.field_modifyNode ChainNode.inMainChain (by intro; rfl) parent
  have work : ∀ id, ((tree.addChild parent child).node id).workSum = (tree.node id).workSum :=
    tree.field_modifyNode ChainNode.workSum (by intro; rfl) parent
  refine main.of_old prefix_rfl (same.rooted main.rooted) same.cells.ge (by rw [same.parentOf]; exact main.tip)
    (fun id _ => ⟨same.hash id, same.height id, flags id⟩) rfl main.indexed main.marked ?_
  rcases main.held with loaded | ⟨genesis, unloaded⟩
  · exact .inl loaded
  refine .inr ⟨genesis, unloaded.alone, ?_, unloaded.empty, ?_⟩
  · rw [same.heightOf, unloaded.lowest]
  · intro hash id found
    rw [same.hash, same.parent, same.heightOf, flags, work, work]
    exact unloaded.twin hash id found

theorem addSide (loaded : tree.root ≠ none ∧
      ∀ id ∈ path, tree.index.lookup (tree.node id).hash = some id) {id : Nat} (parent : Nat)
    (start : id < tree.cells.length) (unflagged : (tree.node id).inMainChain = false)
    (fresh : tree.index.lookup (tree.node id).hash = none) :
    (((tree.addNode id).setInMainChain id false).addChild parent id).MainChain path := by
  have added : SameShape tree (tree.addNode id) := .of_cells rfl
  have same := added.trans (.setInMainChain id false)
  have lookupOf : ∀ hash, ((tree.addNode id).setInMainChain id false).index.lookup hash =
      if hash = (tree.node id).hash then some id else tree.index.lookup hash := fun _ => lookup_insert_eq ..
  refine MainChain.addChild (main.of_old prefix_rfl (same.rooted main.rooted) same.cells.ge
    (by rw [same.parentOf]; exact main.tip) (fun id _ => ⟨same.hash id, same.height id, ?_⟩) rfl ?_ ?_ ?_) _ _
  · refine (tree.flag_setInMainChain _ false id).trans ?_
    split
    · rename_i here
      rw [← here.1, unflagged]
    · rfl
  · intro hash other found
    rw [lookupOf] at found
    split at found
    · rename_i here
      cases found
      exact ⟨start, here.symm⟩
    · exact main.indexed hash other found
  · intro hash other found flag
    rw [lookupOf] at found
    split at found
    · cases found
      rw [unflagged] at flag
      cases flag
    · exact main.marked hash other found flag
  · refine .inl ⟨loaded.1, fun member inPath => ?_⟩
    rw [lookupOf, if_neg, loaded.2 member inPath]
    intro here
    rw [← here, loaded.2 member inPath] at fresh
    cases fresh

/-- The node of a new block is not reachable from the nodes that were there. -/
theorem allocate {node : ChainNode} (pointer : ∀ parent, node.parent = some parent → parent < tree.cells.length ∧
      node.parentHash = (tree.node parent).hash ∧ node.height = (tree.node parent).height + 1) :
    (tree.allocate node).MainChain path := by
  have old : ∀ id < tree.cells.length, (tree.allocate node).node id = tree.node id :=
    fun id inside => tree.node_allocate_old node inside
  have oldParent : ∀ id < tree.cells.length, (tree.allocate node).parentOf id = tree.parentOf id := by
    intro id inside
    rw [parentOf, old id inside, parentOf]
  have walkOld : ∀ {id line}, Line tree.parentOf id line → id < tree.cells.length →
      Line (tree.allocate node).parentOf id line := by
    intro id line walk start
    exact walk.congr fun member inLine =>
      oldParent member (main.rooted.line_allocated walk start member inLine)
  have cases_ : ∀ id, id < tree.cells.length ∨ (id = tree.cells.length ∧ (tree.allocate node).node id = node) ∨
      (tree.allocate node).node id = default := by
    intro id
    rcases lt_trichotomy id tree.cells.length with less | rfl | more
    · exact .inl less
    · exact .inr (.inl ⟨rfl, tree.node_allocate_new node⟩)
    · exact .inr (.inr ((tree.allocate node).node_of_le (by simp; omega)))
  have rooted : (tree.allocate node).Rooted := by
    constructor
    · intro id target some
      rw [cells_allocate]
      rcases cases_ id with old' | ⟨-, new⟩ | beyond
      · rw [oldParent id old'] at some
        exact Nat.lt_succ_of_lt (main.rooted.allocated id target some)
      · rw [parentOf, new] at some
        exact Nat.lt_succ_of_lt (pointer target some).1
      · rw [parentOf, beyond] at some
        cases some
    · intro id start
      rw [cells_allocate] at start
      rcases Nat.lt_succ_iff_lt_or_eq.1 start with old' | rfl
      · obtain ⟨line, walk⟩ := main.rooted.walks id old'
        exact ⟨line, walkOld walk old'⟩
      have new : (tree.allocate node).parentOf tree.cells.length = node.parent := by
        rw [parentOf, node_allocate_new]
      cases some : node.parent with
      | none => exact ⟨[tree.cells.length], .root (by rw [new, some])⟩
      | some parent =>
        have inside := (pointer parent some).1
        obtain ⟨line, walk⟩ := main.rooted.walks parent inside
        exact ⟨tree.cells.length :: line, .step (by rw [new, some]) (walkOld walk inside)⟩
    · intro id target some
      rcases cases_ id with old' | ⟨-, new⟩ | beyond
      · rw [oldParent id old'] at some
        rw [old id old', old target (main.rooted.allocated id target some)]
        exact main.rooted.named id target some
      · rw [parentOf, new] at some
        obtain ⟨inside, named⟩ := pointer target some
        rw [new, old target inside]
        exact named
      · rw [parentOf, beyond] at some
        cases some
  refine main.of_old prefix_rfl rooted (by simp) ?_ (fun id inside => ?_) rfl main.indexed main.marked ?_
  · obtain ⟨best, found, walk⟩ := main.tip
    exact ⟨best, found, walkOld walk (main.allocated best (main.tip_mem found))⟩
  · rw [old id inside]
    exact ⟨rfl, rfl, rfl⟩
  · rcases main.held with loaded | ⟨genesis, unloaded⟩
    · exact .inl loaded
    have start := main.allocated genesis (by rw [unloaded.alone]; simp)
    refine .inr ⟨genesis, unloaded.alone, ?_, unloaded.empty, fun hash id found => ?_⟩
    · rw [heightOf, old genesis start]
      exact unloaded.lowest
    · have inside := (main.indexed hash id found).1
      rw [old genesis start, oldParent id inside, heightOf, old id inside]
      exact unloaded.twin hash id found

end MainChain
end Elastos.Blockchain.BlockTree
