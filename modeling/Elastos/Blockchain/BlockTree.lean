import Elastos.Blockchain.Validation

/-! The block index: the nodes of all branches in memory, the view of the main
chain and the methods that load, prune and search them. Nodes are reached through
pointers in the source; here they live in a list of cells and a pointer is a
position in it. -/
set_option autoImplicit false
namespace Elastos.Blockchain
open Go Common Elastos.Types Method

def minMemoryNodes : Nat := 20160
def irreversibleHeight : Nat := 6

def compactToBig (compact : UInt32) : Int :=
  let mantissa := (compact &&& 0x007fffff).toNat
  let exponent := (compact >>> 24).toNat
  let magnitude :=
    if exponent ≤ 3 then mantissa / 2 ^ (8 * (3 - exponent))
    else mantissa * 2 ^ (8 * (exponent - 3))
  if compact &&& 0x00800000 ≠ 0 then -magnitude else magnitude

def calcWork (bits : UInt32) : Nat :=
  let difficulty := compactToBig bits
  if difficulty ≤ 0 then 0 else 2 ^ 256 / (difficulty.toNat + 1)

structure ChainNode where
  hash : Uint256
  parentHash : Uint256
  height : UInt32
  bits : UInt32
  timestamp : UInt32
  workSum : Nat
  inMainChain : Bool
  parent : Option Nat
  children : List Nat
  deriving Inhabited

def newBlockNode (header : Header) (hash : Uint256) : ChainNode where
  hash := hash
  parentHash := header.previous
  height := header.height
  bits := header.bits
  timestamp := header.timestamp
  workSum := calcWork header.bits
  inMainChain := false
  parent := none
  children := []

structure BlockTree where
  cells : List ChainNode
  index : GoMap Uint256 Nat
  nodes : List (Option Nat)
  depNodes : GoMap Uint256 (List Nat)
  root : Option Nat
  bestChain : Option Nat

namespace BlockTree
variable (tree : BlockTree)
variable (id : Nat)

def node : ChainNode := tree.cells.getD id default

def modifyNode (change : ChainNode → ChainNode) : BlockTree :=
  { tree with cells := tree.cells.modify id change }

def allocate (node : ChainNode) : BlockTree :=
  { tree with cells := tree.cells ++ [node] }

def addChild (parent child : Nat) : BlockTree :=
  tree.modifyNode parent fun node => { node with children := node.children ++ [child] }

def setParent (child : Nat) (parent : Option Nat) : BlockTree :=
  tree.modifyNode child fun node => { node with parent }

def setInMainChain (inMainChain : Bool) : BlockTree :=
  tree.modifyNode id fun node => { node with inMainChain }

def addWork (id work : Nat) : BlockTree :=
  tree.modifyNode id fun node => { node with workSum := node.workSum + work }

def addNode : BlockTree :=
  { tree with index := tree.index.insert (tree.node id).hash id }

def addDependent (previous : Uint256) (id : Nat) : BlockTree :=
  { tree with depNodes :=
      tree.depNodes.insert previous ((tree.depNodes.lookup previous).getD [] ++ [id]) }

/-- The number of cells bounds the depth of the tree. -/
def addChildrenWork (work : Nat) : Nat → BlockTree → Nat → BlockTree
  | 0, tree, _ => tree
  | depth + 1, tree, id =>
    (tree.node id).children.foldl (fun tree child =>
      addChildrenWork work depth (tree.addWork child work) child) tree

def adopt (id work : Nat) (tree : BlockTree) (child : Nat) : BlockTree :=
  let linked := ((tree.setParent child (some id)).addChild id child).addWork child work
  { addChildrenWork work linked.cells.length linked child with root := some id }

def loadBlockNode (header : Header) (hash : Uint256) : Method BlockTree BlockError Nat := do
  let tree ← Method.this
  let id := tree.cells.length
  let node := { newBlockNode header hash with inMainChain := true }
  match tree.index.lookup header.previous, tree.depNodes.lookup hash, tree.root with
  | some parent, _, _ =>
    update fun tree => (tree.allocate { node with
      workSum := (tree.node parent).workSum + node.workSum
      parent := some parent }).addChild parent id
  | none, some children, _ =>
    update fun tree => children.foldl (adopt id node.workSum) (tree.allocate node)
  | none, none, some _ =>
    fail (.text "LoadBlockNode: attempt to insert orphan block")
  | none, none, none =>
    update fun tree => { tree.allocate node with root := some id }
  update fun tree => (tree.addNode id).addDependent header.previous id
  pure id

def removeChildNode (children : List Nat) (id : Nat) : List Nat :=
  children.eraseP fun child => (tree.node child).hash = (tree.node id).hash

def removeDependent : BlockTree :=
  let previous := (tree.node id).parentHash
  match tree.depNodes.lookup previous with
  | none => tree
  | some children =>
    match tree.removeChildNode children id with
    | [] => { tree with depNodes := tree.depNodes.erase previous }
    | rest => { tree with depNodes := tree.depNodes.insert previous rest }

def removeBlockNode : Method BlockTree BlockError Unit := do
  let tree ← Method.this
  require ((tree.node id).parent = none)
    (.text "RemoveBlockNode must be called with a  node at the front of the chain")
  update fun tree =>
    { tree with index := tree.index.erase (tree.node id).hash }
  update fun tree =>
    (tree.node id).children.foldl (fun tree child => tree.setParent child none) tree
  update fun tree => tree.modifyNode id fun node => { node with children := [] }
  update fun tree => tree.removeDependent id

def ancestor (tree : BlockTree) : Nat → Option Nat → Option Nat
  | 0, id => id
  | _ + 1, none => none
  | distance + 1, some id => tree.ancestor distance (tree.node id).parent

/-- The nodes from one to the oldest in memory, of which the cells bound the number. -/
def lineage (tree : BlockTree) : Nat → Option Nat → List Nat
  | 0, _ => []
  | _ + 1, none => []
  | bound + 1, some id => id :: tree.lineage bound (tree.node id).parent

def pruneBlockNodes : Method BlockTree BlockError Unit := do
  let tree ← Method.this
  match tree.ancestor (minMemoryNodes - 1) tree.bestChain with
  | none => pure ()
  | some newRoot =>
    match (tree.node newRoot).parent with
    | none => pure ()
    | some oldest => do
      (tree.lineage tree.cells.length (some oldest)).reverse.forM removeBlockNode
      update fun tree => { tree with root := some newRoot }

/-- From a node to the first of its ancestors that is on the main chain or has no
parent, and what lies before it. -/
def attachNodes (tree : BlockTree) : Nat → Nat → List Nat → Nat × List Nat
  | 0, ancestor, attach => (ancestor, attach)
  | bound + 1, ancestor, attach =>
    match (tree.node ancestor).parent with
    | none => (ancestor, attach)
    | some parent =>
      if (tree.node ancestor).inMainChain then (ancestor, attach)
      else tree.attachNodes bound parent (ancestor :: attach)

/-- From the end of the main chain down to a hash. -/
def detachNodes (tree : BlockTree) (hash : Uint256) : Nat → Option Nat → List Nat
  | 0, _ => []
  | _ + 1, none => []
  | bound + 1, some id =>
    match (tree.node id).parent with
    | none => []
    | some parent =>
      if (tree.node id).hash = hash then []
      else id :: tree.detachNodes hash bound (some parent)

def getReorganizeNodes : List Nat × List Nat :=
  let (ancestor, attach) := tree.attachNodes tree.cells.length id []
  (tree.detachNodes (tree.node ancestor).hash tree.cells.length tree.bestChain, attach)

/-- Walk back from the new tip until the view already holds the node. -/
def fillNodes (tree : BlockTree) : Nat → Option Nat → List (Option Nat) → Outcome BlockError (List (Option Nat))
  | 0, _, nodes => .ok nodes
  | _ + 1, none, nodes => .ok nodes
  | bound + 1, some id, nodes =>
    let height := (tree.node id).height.toNat
    match nodes[height]? with
    | none => .crash "index out of range"
    | some entry =>
      if entry = some id then .ok nodes
      else tree.fillNodes bound (tree.node id).parent (nodes.set height (some id))

def setTip (tip : Option Nat) : Method BlockTree BlockError Unit := do
  let tree ← Method.this
  match tip with
  | none => update fun tree => { tree with nodes := [] }
  | some id => do
    let needed := ((tree.node id).height + 1).toNat
    let resized := tree.nodes.take needed ++ List.replicate (needed - tree.nodes.length) none
    let nodes ← lift (tree.fillNodes (tree.cells.length + 1) tip resized)
    update fun tree => { tree with nodes }

end BlockTree
end Elastos.Blockchain
