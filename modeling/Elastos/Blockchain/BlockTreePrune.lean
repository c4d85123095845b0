import Elastos.Blockchain.BlockTreeTip

/-! Nodes that are dropped from memory, the genesis node that is loaded, and the two sides of the fork
that `getReorganizeNodes` finds. -/
set_option autoImplicit false
namespace Elastos.Blockchain.BlockTree
open Go Elastos.Types Utils List Common

def removed (tree : BlockTree) (id : Nat) : BlockTree :=
  let erased := { tree with index := tree.index.erase (tree.node id).hash }
  let unlinked := (erased.node id).children.foldl
    (fun tree child => tree.setParent child none) erased
  (unlinked.modifyNode id fun node => { node with children := [] }).removeDependent id

variable {id : Nat}
variable {tree : BlockTree}

theorem removeBlockNode_run (oldest : tree.parentOf id = none) :
    removeBlockNode id tree = (.ok (), tree.removed id) := by
  have passed : (tree.node id).parent = none := oldest
  simp only [removeBlockNode, Method.this, Method.require, Method.lift, Method.update, bind,
    Outcome.require, passed, if_true]
  rfl

section Removed
variable (tree : BlockTree)

theorem removeDependent_eq (id : Nat) : ∃ depNodes, tree.removeDependent id = { tree with depNodes } := by
  unfold removeDependent
  simp only
  split
  · exact ⟨tree.depNodes, rfl⟩
  · split
    · exact ⟨_, rfl⟩
    · exact ⟨_, rfl⟩

theorem node_setParent_none (child other : Nat) : (tree.setParent child none).node other =
      if other = child then { tree.node other with parent := none } else tree.node other := by
  rw [setParent, node_modifyNode]
  by_cases same : other = child
  · subst same
    by_cases inside : other < tree.cells.length
    · rw [if_pos ⟨rfl, inside⟩, if_pos rfl]
    · rw [if_neg fun here => inside here.2, if_pos rfl, tree.node_of_le (by omega)]
      rfl
  · rw [if_neg fun here => same here.1.symm, if_neg same]

theorem unlink_eq (children : List Nat) : ∃ cells, children.foldl (fun tree child => tree.setParent child none) tree =
        { tree with cells } ∧ cells.length = tree.cells.length ∧ ∀ other, ({ tree with cells }).node other =
        if other ∈ children then { tree.node other with parent := none }
        else tree.node other := by
  induction children generalizing tree with
  | nil => exact ⟨tree.cells, rfl, rfl, fun other => by simp [BlockTree.node]⟩
  | cons child children ih =>
    obtain ⟨cells, equal, length, nodes⟩ := ih (tree.setParent child none)
    refine ⟨cells, ?_, ?_, fun other => ?_⟩
    · rw [foldl_cons, equal]
      rfl
    · rw [length]
      exact tree.cells_modifyNode child _
    · have known := nodes other
      change ({ tree with cells }).node other = _ at known
      rw [known, node_setParent_none]
      by_cases here : other = child <;> by_cases there : other ∈ children <;>
        simp [here, there]

theorem removed_spec (id : Nat) (start : id < tree.cells.length) (notOwn : id ∉ (tree.node id).children) :
    (tree.removed id).cells.length = tree.cells.length ∧
      (tree.removed id).index = tree.index.erase (tree.node id).hash ∧ (tree.removed id).nodes = tree.nodes ∧
      (tree.removed id).bestChain = tree.bestChain ∧ (tree.removed id).root = tree.root ∧
      (∀ other, (tree.removed id).node other = { tree.node other with
          parent := if other ∈ (tree.node id).children then none else tree.parentOf other
          children := if other = id then [] else (tree.node other).children }) := by
  let erased : BlockTree := { tree with index := tree.index.erase (tree.node id).hash }
  obtain ⟨cells, unlinked, length, nodes⟩ := unlink_eq erased (tree.node id).children
  obtain ⟨depNodes, final⟩ := removeDependent_eq
    (({ erased with cells }).modifyNode id fun node => { node with children := [] }) id
  have equal : tree.removed id =
      { ({ erased with cells }).modifyNode id fun node => { node with children := [] } with depNodes } := by
    rw [← final, ← unlinked]
    rfl
  rw [equal]
  refine ⟨(cells_modifyNode _ id _).trans length, rfl, rfl, rfl, rfl, fun other => ?_⟩
  change (({ erased with cells }).modifyNode id _).node other = _
  rw [node_modifyNode, nodes]
  change (if id = other ∧ other < cells.length then _ else _) = _
  by_cases here : id = other
  · subst here
    rw [if_pos ⟨rfl, by rw [length]; exact start⟩, if_neg notOwn, if_neg notOwn, if_pos rfl]
    rfl
  have apart : other ≠ id := Ne.symm here
  by_cases child : other ∈ (tree.node id).children <;>
    simp only [here, apart, child, false_and, if_true, if_false] <;> rfl

end Removed

/-- What dropping nodes from memory leaves as it was. `dropped` are the nodes. -/
structure Pruned (tree tree' : BlockTree) (dropped : List Nat) : Prop where
  cells : tree'.cells.length = tree.cells.length
  nodes : tree'.nodes = tree.nodes
  bestChain : tree'.bestChain = tree.bestChain
  content : ∀ id, tree'.node id = { tree.node id with
    parent := (tree'.node id).parent
    children := (tree'.node id).children }
  index : ∀ hash id, tree'.index.lookup hash = some id ↔
    tree.index.lookup hash = some id ∧ ∀ old ∈ dropped, (tree.node old).hash ≠ hash
  parent : ∀ id parent, tree'.parentOf id = some parent → tree.parentOf id = some parent
  kept : ∀ id parent, tree.parentOf id = some parent → parent ∉ dropped → tree'.parentOf id = some parent

namespace Pruned
variable {tree tree' : BlockTree} {dropped : List Nat}

section
variable (pruned : Pruned tree tree' dropped)
include pruned
variable (id : Nat)

theorem hash : (tree'.node id).hash = (tree.node id).hash := by
  rw [pruned.content]

theorem parentHash : (tree'.node id).parentHash = (tree.node id).parentHash := by
  rw [pruned.content]

theorem height : (tree'.node id).height = (tree.node id).height := by
  rw [pruned.content]

theorem inMainChain : (tree'.node id).inMainChain = (tree.node id).inMainChain := by
  rw [pruned.content]

theorem workSum : (tree'.node id).workSum = (tree.node id).workSum := by
  rw [pruned.content]

end

theorem refl (tree : BlockTree) : Pruned tree tree [] where
  cells := rfl
  nodes := rfl
  bestChain := rfl
  content _ := rfl
  index := by simp
  parent _ _ some := some
  kept _ _ some _ := some

theorem trans {tree'' : BlockTree} {later : List Nat} (first : Pruned tree tree' dropped)
    (second : Pruned tree' tree'' later) : Pruned tree tree'' (dropped ++ later) where
  cells := second.cells.trans first.cells
  nodes := second.nodes.trans first.nodes
  bestChain := second.bestChain.trans first.bestChain
  content id := by
    rw [second.content, first.content]
  index hash id := by
    rw [second.index, first.index, and_assoc]
    refine and_congr_right fun _ => ?_
    constructor
    · rintro ⟨apart, apart'⟩ old inside
      rcases mem_append.1 inside with inside | inside
      · exact apart old inside
      · rw [← first.hash]
        exact apart' old inside
    · intro apart
      refine ⟨fun old inside => apart old (mem_append_left _ inside), fun old inside => ?_⟩
      rw [first.hash]
      exact apart old (mem_append_right _ inside)
  parent id parent some := first.parent id parent (second.parent id parent some)
  kept id parent some away := by
    rw [mem_append, not_or] at away
    exact second.kept id parent (first.kept id parent some away.1) away.2

theorem line (pruned : Pruned tree tree' dropped) {line : List Nat} (walk : Line tree.parentOf id line) :
    ∃ front back, line = front ++ back ∧ Line tree'.parentOf id front := by
  induction walk with
  | @root id none =>
    refine ⟨[id], [], rfl, .root ?_⟩
    cases some : tree'.parentOf id with
    | none => rfl
    | some parent => rw [pruned.parent id parent some] at none; cases none
  | @step id next rest some inner ih =>
    cases some' : tree'.parentOf id with
    | none => exact ⟨[id], rest, rfl, .root some'⟩
    | some parent =>
      have same := pruned.parent id parent some'
      rw [some] at same
      cases same
      obtain ⟨front, back, equal, walk⟩ := ih
      exact ⟨id :: front, back, by rw [equal]; rfl, .step some' walk⟩

theorem rooted (pruned : Pruned tree tree' dropped) (rooted : tree.Rooted) : tree'.Rooted := by
  constructor
  · intro id parent some
    rw [pruned.cells]
    exact rooted.allocated id parent (pruned.parent id parent some)
  · intro id start
    rw [pruned.cells] at start
    obtain ⟨line, walk⟩ := rooted.walks id start
    obtain ⟨front, -, -, walk'⟩ := pruned.line walk
    exact ⟨front, walk'⟩
  · intro id parent some
    rw [pruned.parentHash, pruned.hash, pruned.height, pruned.height]
    exact rooted.named id parent (pruned.parent id parent some)

end Pruned

namespace MainChain
variable {tree : BlockTree} {path : List Nat}

theorem of_pruned {tree' : BlockTree} {keep dropped : List Nat} {best : Nat}
    (main : tree.MainChain (keep ++ dropped)) (loaded : tree.root ≠ none ∧
      ∀ id ∈ keep ++ dropped, tree.index.lookup (tree.node id).hash = some id)
    (pruned : Pruned tree tree' dropped) (tip : tree.bestChain = some best)
    (walk : Line tree'.parentOf best keep) (root : tree'.root ≠ none) : tree'.MainChain keep := by
  refine main.of_old (prefix_append _ _) (pruned.rooted main.rooted) pruned.cells.ge
    ⟨best, by rw [pruned.bestChain, tip], walk⟩
    (fun id _ => ⟨pruned.hash id, pruned.height id, pruned.inMainChain id⟩) pruned.nodes ?_ ?_ (.inl ⟨root, ?_⟩)
  · exact fun hash id found => main.indexed hash id ((pruned.index hash id).1 found).1
  · intro hash id found flag
    obtain ⟨known, apart⟩ := (pruned.index hash id).1 found
    have same := (main.indexed hash id known).2
    rcases mem_append.1 (main.mem_of_flagged loaded known flag) with inside | inside
    · exact ⟨id, inside, same⟩
    · exact absurd same (apart id inside)
  · intro id inside
    rw [pruned.index]
    refine ⟨loaded.2 id (mem_append_left _ inside), fun old dropped' same => ?_⟩
    have equal := main.hash_inj (mem_append_right _ dropped') (mem_append_left _ inside) same
    subst equal
    exact (nodup_append.1 main.nodup).2.2 old inside old dropped' rfl

theorem removeOldest {front : List Nat} {next oldest : Nat}
    (main : tree.MainChain (front ++ [next, oldest])) (family : tree.Family) :
    removeBlockNode oldest tree = (.ok (), tree.removed oldest) ∧ Pruned tree (tree.removed oldest) [oldest] ∧
      (tree.removed oldest).MainChain (front ++ [next]) ∧ (tree.removed oldest).Family ∧
      (tree.removed oldest).root = tree.root := by
  obtain ⟨best, tip, walk⟩ := main.tip
  have walk' : Line tree.parentOf best ((front ++ [next]) ++ [oldest]) := by
    simpa using walk
  have noParent := walk'.last_root
  have start := main.allocated oldest (by simp)
  have pointer := walk.linked
  have loaded := main.loaded (by simp)
  have nextChild := family.ofParent _ next oldest (loaded.2 next (by simp)) pointer
  have notOwn : oldest ∉ (tree.node oldest).children := by
    intro own
    have loop := family.ofChild oldest oldest own
    rw [noParent] at loop
    cases loop
  obtain ⟨cells, index, nodes, bestChain, root, content⟩ := tree.removed_spec oldest start notOwn
  have parentOf' : ∀ id, (tree.removed oldest).parentOf id =
      if id ∈ (tree.node oldest).children then none else tree.parentOf id := by
    intro id
    rw [parentOf, content]
  have children' : ∀ id, ((tree.removed oldest).node id).children =
      if id = oldest then [] else (tree.node id).children := by
    intro id
    rw [content]
  have lookup' : ∀ hash id, (tree.removed oldest).index.lookup hash = some id ↔
      tree.index.lookup hash = some id ∧ (tree.node oldest).hash ≠ hash := by
    intro hash id
    rw [index, GoMap.lookup_erase_eq]
    by_cases same : hash = (tree.node oldest).hash
    · simp [same]
    · simp [same, Ne.symm same]
  have pruned : Pruned tree (tree.removed oldest) [oldest] := by
    refine ⟨cells, nodes, bestChain, ?_, ?_, ?_, ?_⟩
    · intro id
      rw [content]
    · intro hash id
      rw [lookup']
      simp
    · intro id parent some
      rw [parentOf'] at some
      split at some
      · cases some
      · exact some
    · intro id parent some away
      rw [parentOf', if_neg, some]
      intro child
      rw [family.ofChild oldest id child] at some
      cases some
      simp at away
  refine ⟨removeBlockNode_run noParent, pruned, ?_, ?_, root⟩
  · have split : front ++ [next, oldest] = (front ++ [next]) ++ [oldest] := by simp
    rw [split] at main loaded
    refine main.of_pruned loaded pruned tip ?_ (by rw [root]; exact loaded.1)
    refine Line.cut walk (fun member inside => ?_) ?_
    · -- only the last but one has the oldest as its parent
      rw [parentOf', if_neg]
      intro child
      obtain ⟨first, second, rfl⟩ := append_of_mem inside
      have whole : Line tree.parentOf best (first ++ member :: (second ++ [next, oldest])) := by
        simpa using walk
      obtain ⟨after, rest, equal, inPath⟩ : ∃ after rest, second ++ [next, oldest] = after :: rest ∧
          after ∈ second ++ [next] := by
        cases second <;> simp
      rw [equal] at whole
      cases (family.ofChild oldest member child).symm.trans whole.linked
      exact (nodup_append.1 main.nodup).2.2 oldest (by simp at inPath ⊢; tauto) oldest (by simp) rfl
    · rw [parentOf', if_pos nextChild]
  · constructor
    · intro parent child inside
      rw [children'] at inside
      split at inside
      · cases inside
      rename_i apart
      have known := family.ofChild parent child inside
      rw [parentOf', if_neg, known]
      intro other
      rw [family.ofChild oldest child other] at known
      cases known
      exact apart rfl
    · intro hash id parent found some
      rw [parentOf'] at some
      split at some
      · cases some
      rename_i apart
      have inside := family.ofParent hash id parent ((lookup' hash id).1 found).1 some
      rw [children', if_neg]
      · exact inside
      · rintro rfl
        exact apart inside
    · intro hash id parent found some
      have some' := pruned.parent id parent some
      have found' := ((lookup' hash id).1 found).1
      have known := family.ofIndex hash id parent found' some'
      rw [pruned.hash, lookup']
      refine ⟨known, fun same => ?_⟩
      rw [← same, loaded.2 oldest (by simp)] at known
      cases known
      rw [parentOf', if_pos (family.ofParent hash id oldest found' some')] at some
      cases some

end MainChain

theorem ancestor_line {trail : List Nat} (walk : Line tree.parentOf id trail) (distance : Nat) :
    tree.ancestor distance (some id) = trail[distance]? := by
  induction walk generalizing distance with
  | @root id none =>
    cases distance with
    | zero => rfl
    | succ distance =>
      change tree.ancestor distance (tree.parentOf id) = _
      rw [none]
      cases distance <;> rfl
  | @step id next rest some inner ih =>
    cases distance with
    | zero => rfl
    | succ distance =>
      change tree.ancestor distance (tree.parentOf id) = _
      rw [some, ih]
      rfl

theorem lineage_line {line : List Nat} (walk : Line tree.parentOf id line) (bound : Nat)
    (enough : line.length ≤ bound) : tree.lineage bound (some id) = line := by
  induction walk generalizing bound with
  | @root id none =>
    obtain _ | bound := bound
    · simp at enough
    change id :: tree.lineage bound (tree.parentOf id) = _
    rw [none]
    cases bound <;> rfl
  | @step id next rest some inner ih =>
    obtain _ | bound := bound
    · simp at enough
    change id :: tree.lineage bound (tree.parentOf id) = _
    rw [some, ih bound (by simp at enough; omega)]

/-- Dropping the oldest nodes of the main chain one after the other, the oldest first. -/
theorem MainChain.removeAll {keep : List Nat} (more : keep ≠ []) (items : List Nat)
    (main : tree.MainChain (keep ++ items.reverse)) (family : tree.Family) :
    ∃ after, items.forM removeBlockNode tree = (.ok (), after) ∧
      Pruned tree after items ∧ after.MainChain keep ∧ after.Family ∧ after.root = tree.root := by
  induction items generalizing tree with
  | nil => exact ⟨tree, rfl, .refl tree, by simpa using main, family, rfl⟩
  | cons oldest items ih =>
    obtain ⟨front, next, equal⟩ : ∃ front next, keep ++ items.reverse = front ++ [next] :=
      ⟨_, _, (dropLast_append_getLast (by simp [more])).symm⟩
    have split : keep ++ (oldest :: items).reverse = front ++ [next, oldest] := by
      rw [reverse_cons, ← append_assoc, equal]
      simp
    rw [split] at main
    obtain ⟨run, pruned, main', family', root⟩ := main.removeOldest family
    rw [← equal] at main'
    obtain ⟨after, runs, pruned', final⟩ := ih main' family'
    refine ⟨after, ?_, pruned.trans pruned', final.1, final.2.1, final.2.2.trans root⟩
    change (removeBlockNode oldest >>= fun _ => items.forM removeBlockNode) tree = _
    rw [Method.bind_returned run]
    exact runs

theorem Pruned.congr_mem {tree tree' : BlockTree} {dropped dropped' : List Nat}
    (pruned : Pruned tree tree' dropped) (same : ∀ id, id ∈ dropped ↔ id ∈ dropped') : Pruned tree tree' dropped' where
  __ := pruned
  index hash id := by
    simp only [pruned.index, same]
  kept id parent some away := by
    exact pruned.kept id parent some (by rw [same]; exact away)

/-- Pruning leaves the newest nodes of the main chain, and never fails. -/
theorem MainChain.prune {path : List Nat} (main : tree.MainChain path) (family : tree.Family) :
    ∃ after keep dropped, pruneBlockNodes tree = (.ok (), after) ∧ path = keep ++ dropped ∧
      (dropped ≠ [] → keep.length = minMemoryNodes) ∧ Pruned tree after dropped ∧
      after.MainChain keep ∧ after.Family ∧ (after.root = none ↔ tree.root = none) := by
  obtain ⟨best, tip, walk⟩ := main.tip
  simp only [pruneBlockNodes, Method.this, bind, tip]
  rw [ancestor_line walk]
  cases found : path[minMemoryNodes - 1]? with
  | none => exact ⟨tree, path, [], rfl, by simp, by simp, .refl tree, main, family, Iff.rfl⟩
  | some newRoot =>
    simp only
    cases pointer : (tree.node newRoot).parent with
    | none => exact ⟨tree, path, [], rfl, by simp, by simp, .refl tree, main, family, Iff.rfl⟩
    | some oldest =>
      simp only
      obtain ⟨inside, equal⟩ := List.getElem?_eq_some_iff.1 found
      have split : path = path.take (minMemoryNodes - 1) ++ newRoot :: path.drop (minMemoryNodes - 1 + 1) := by
        rw [← equal, getElem_cons_drop, take_append_drop]
      rw [split] at walk
      have below : Line tree.parentOf oldest (path.drop (minMemoryNodes - 1 + 1)) := by
        generalize path.drop (minMemoryNodes - 1 + 1) = back at walk
        cases walk.suffix with
        | root none => cases pointer.symm.trans none
        | step some inner =>
          cases pointer.symm.trans some
          exact inner
      have start := main.rooted.allocated newRoot oldest pointer
      rw [lineage_line below _ (main.rooted.line_length below start)]
      have parts : path = path.take minMemoryNodes ++ (path.drop minMemoryNodes).reverse.reverse := by simp
      have whole := main
      rw [parts] at whole
      obtain ⟨after, run, pruned, main', family', root⟩ := MainChain.removeAll
        (by
          intro none
          have length := congrArg List.length none
          rw [length_take, length_nil] at length
          unfold minMemoryNodes at length inside
          omega) _ whole family
      refine ⟨{ after with root := some newRoot }, path.take minMemoryNodes,
        path.drop minMemoryNodes, ?_, by simp, ?_, ?_, ?_, ?_, ?_⟩
      · rw [show minMemoryNodes - 1 + 1 = minMemoryNodes from rfl]
        exact (Method.bind_returned run).trans rfl
      · intro _
        rw [length_take]
        unfold minMemoryNodes at inside ⊢
        omega
      · have same : Pruned tree after (path.drop minMemoryNodes) :=
          pruned.congr_mem (by simp)
        exact { same with }
      · refine main'.of_old prefix_rfl { main'.rooted with } le_rfl
          main'.tip (fun _ _ => ⟨rfl, rfl, rfl⟩) rfl main'.indexed main'.marked (.inl ⟨by simp, ?_⟩)
        refine (main'.loaded ?_).2
        rw [length_take]
        unfold minMemoryNodes at inside ⊢
        omega
      · exact { family' with }
      · refine ⟨fun none => (by cases none), fun none => absurd none (main.loaded ?_).1⟩
        unfold minMemoryNodes at inside
        omega

/-- The genesis node that the first block loads is another node than the one at the
tip. -/
theorem MainChain.loadGenesis {path : List Nat} {genesis : Nat}
    {header : Header} (main : tree.MainChain path) (family : tree.Family)
    (unloaded : tree.Unloaded path genesis) (none : tree.root = none) (height : header.height = 0)
    (work : calcWork header.bits = (tree.node genesis).workSum) :
    ∃ after, loadBlockNode header (tree.node genesis).hash tree =
        (.ok tree.cells.length, after) ∧ after.MainChain path ∧ after.Family ∧
      after.root ≠ Option.none ∧ after.cells.length = tree.cells.length + 1 ∧
      after.nodes = tree.nodes ∧ after.bestChain = tree.bestChain ∧
      (∀ id < tree.cells.length, after.node id = tree.node id) ∧
      after.index.lookup (tree.node genesis).hash = some tree.cells.length := by
  obtain ⟨noIndex, noDependents⟩ := unloaded.empty none
  obtain ⟨node, nodeEq⟩ : ∃ node, node = { newBlockNode header (tree.node genesis).hash with
    inMainChain := true } := ⟨_, rfl⟩
  let after := (({ tree.allocate node with root := some tree.cells.length }).addNode
    tree.cells.length).addDependent header.previous tree.cells.length
  have run : loadBlockNode header (tree.node genesis).hash tree = (.ok tree.cells.length, after) := by
    simp only [loadBlockNode, Method.this, Method.update, bind, noIndex, noDependents, none, nodeEq, after]
    rfl
  have old : ∀ id < tree.cells.length, after.node id = tree.node id := fun _ => tree.node_allocate_old node
  have new : after.node tree.cells.length = node := tree.node_allocate_new node
  have lookup : ∀ hash id, after.index.lookup hash = some id ↔
      hash = (tree.node genesis).hash ∧ id = tree.cells.length := by
    intro hash id
    change (tree.index.insert ((tree.allocate node).node tree.cells.length).hash
      tree.cells.length).lookup hash = some id ↔ _
    rw [node_allocate_new, GoMap.lookup_insert_eq, noIndex, nodeEq]
    change (if hash = (tree.node genesis).hash then _ else _) = _ ↔ _
    split
    · rename_i here
      simp [here, eq_comm]
    · rename_i apart
      simp [apart]
  have noParent : after.parentOf tree.cells.length = Option.none := by
    rw [parentOf, new, nodeEq]
    rfl
  have rootless : ∀ {hash id parent}, after.index.lookup hash = some id → after.parentOf id ≠ some parent := by
    intro hash id parent found
    simp [((lookup hash id).1 found).2, noParent]
  have start := main.allocated genesis (by rw [unloaded.alone]; simp)
  have main' : (tree.allocate node).MainChain path := by
    refine main.allocate fun parent pointer => ?_
    rw [nodeEq] at pointer
    cases pointer
  have same : SameShape (tree.allocate node) after := .of_cells rfl
  refine ⟨after, run, ?_, ⟨?_, ?_, ?_⟩, Option.some_ne_none _, cells_allocate .., rfl, rfl, old, ?_⟩
  · refine main'.of_old prefix_rfl (same.rooted main'.rooted) same.cells.ge
      (by rw [same.parentOf]; exact main'.tip) (fun _ _ => ⟨rfl, rfl, rfl⟩) rfl ?_ ?_ (.inr ?_)
    · intro hash id found
      obtain ⟨rfl, rfl⟩ := (lookup hash id).1 found
      rw [cells_allocate, node_allocate_new, nodeEq]
      exact ⟨Nat.lt_succ_self _, rfl⟩
    · intro hash id found _
      obtain ⟨rfl, -⟩ := (lookup hash id).1 found
      exact ⟨genesis, by rw [unloaded.alone]; simp, by rw [tree.node_allocate_old node start]⟩
    · refine ⟨genesis, unloaded.alone, ?_, ?_, ?_⟩
      · rw [heightOf, old genesis start]
        exact unloaded.lowest
      · intro none
        cases none
      · intro hash id found
        obtain ⟨rfl, rfl⟩ := (lookup hash id).1 found
        rw [old genesis start, noParent, heightOf, new, nodeEq]
        refine ⟨rfl, rfl, ?_, rfl, work⟩
        change header.height.toNat = 0
        rw [height]
        rfl
  · exact (family.allocate main (by rw [nodeEq]; rfl)).ofChild
  · exact fun hash id parent found some => absurd some (rootless found)
  · exact fun hash id parent found some => absurd some (rootless found)
  · exact (lookup _ _).2 ⟨rfl, rfl⟩

variable {tree : BlockTree} {path rest : List Nat} {point : Nat}

/-- The nodes from one up to the first that stops a walk, and that one. -/
def climb (tree : BlockTree) (stops : Nat → Bool) : Nat → Nat → List Nat × Nat
  | 0, id => ([], id)
  | bound + 1, id =>
    match (tree.node id).parent with
    | none => ([], id)
    | some parent =>
      if stops id then ([], id)
      else (id :: (climb tree stops bound parent).1, (climb tree stops bound parent).2)

theorem attachNodes_eq (bound id : Nat) (acc : List Nat) : tree.attachNodes bound id acc =
    ((tree.climb (tree.node · |>.inMainChain) bound id).2,
      (tree.climb (tree.node · |>.inMainChain) bound id).1.reverse ++ acc) := by
  induction bound generalizing id acc with
  | zero => rfl
  | succ bound ih =>
    unfold attachNodes climb
    cases (tree.node id).parent with
    | none => rfl
    | some parent => cases (tree.node id).inMainChain <;> simp [ih]

theorem detachNodes_eq (hash : Uint256) (bound id : Nat) : tree.detachNodes hash bound (some id) =
    (tree.climb (fun id => (tree.node id).hash = hash) bound id).1 := by
  induction bound generalizing id with
  | zero => rfl
  | succ bound ih =>
    unfold detachNodes climb
    cases (tree.node id).parent with
    | none => rfl
    | some parent => by_cases same : (tree.node id).hash = hash <;> simp [same, ih]

theorem climb_line {stops : Nat → Bool} {passed : List Nat} {id bound : Nat}
    (walk : Line tree.parentOf id (passed ++ point :: rest)) (enough : passed.length ≤ bound)
    (passes : ∀ member ∈ passed, stops member = false) (stop : stops point = true ∨ rest = []) :
    tree.climb stops bound id = (passed, point) := by
  induction passed generalizing id bound with
  | nil =>
    obtain ⟨_, equal⟩ := walk.head
    cases equal
    cases bound with
    | zero => rfl
    | succ bound =>
      unfold climb
      cases pointer : (tree.node point).parent with
      | none => rfl
      | some parent =>
        rcases stop with stop | rfl
        · simp [stop]
        · rw [← parentOf, (show Line tree.parentOf point ([] ++ [point]) from walk).last_root] at pointer
          cases pointer
  | cons first passed ih =>
    obtain ⟨_, equal⟩ := walk.head
    cases equal
    obtain _ | bound := bound
    · simp at enough
    obtain ⟨next, pointer, inner⟩ := walk.tail (by simp)
    unfold climb
    rw [← parentOf, pointer]
    simp [passes first (by simp), ih inner (Nat.le_of_succ_le_succ enough)
      fun member inside => passes member (mem_cons_of_mem _ inside)]

namespace Family

theorem line_indexed (family : tree.Family) {id : Nat} {line : List Nat} {hash : Uint256}
    (walk : Line tree.parentOf id line) (found : tree.index.lookup hash = some id) (same : (tree.node id).hash = hash)
    (member : Nat) (inside : member ∈ line) : tree.index.lookup (tree.node member).hash = some member := by
  induction walk generalizing hash with
  | root _ => rwa [mem_singleton.1 inside, same]
  | step some _ ih =>
    rcases mem_cons.1 inside with rfl | inside
    · rwa [same]
    · exact ih (family.ofIndex _ _ _ found some) rfl inside

end Family

namespace MainChain
variable {hash : Uint256} {id : Nat} {line : List Nat}

/-- What is found when the way up from a node ends at one place and the way down the main chain at another. -/
theorem reorganizeNodes_line (main : tree.MainChain path) (start : id < tree.cells.length)
    {attach detach rest' : List Nat} {last : Nat} (walk : Line tree.parentOf id (attach ++ point :: rest))
    (pathEq : path = detach ++ last :: rest') (unflagged : ∀ member ∈ attach, (tree.node member).inMainChain = false)
    (stop : (tree.node point).inMainChain = true ∨ rest = [])
    (apart : ∀ member ∈ detach, (tree.node member).hash ≠ (tree.node point).hash)
    (ends : (tree.node last).hash = (tree.node point).hash ∨ rest' = []) :
    tree.getReorganizeNodes id = (detach, attach.reverse) := by
  obtain ⟨best, tip, mainWalk⟩ := main.tip
  have lineLength := main.rooted.line_length walk start
  have pathLength := main.rooted.line_length mainWalk (main.allocated best (main.tip_mem tip))
  rw [pathEq] at mainWalk pathLength
  rw [length_append, length_cons] at lineLength pathLength
  rw [getReorganizeNodes, attachNodes_eq, climb_line walk (by omega) unflagged stop, tip]
  dsimp only
  rw [detachNodes_eq, climb_line mainWalk (by omega) (by simpa using apart) (by simpa using ends), append_nil]

section
variable (main : tree.MainChain path) (family : tree.Family)
  (loaded : tree.root ≠ none ∧ ∀ id ∈ path, tree.index.lookup (tree.node id).hash = some id)
  (found : tree.index.lookup hash = some id) (walk : Line tree.parentOf id line)

include main family loaded found walk

theorem unflagged_of_apart {member : Nat} (inside : member ∈ line) (apart : member ∉ path) :
    (tree.node member).inMainChain = false := by
  cases flag : (tree.node member).inMainChain with
  | false => rfl
  | true =>
    have known := family.line_indexed walk found (main.indexed hash id found).2 member inside
    exact absurd (main.mem_of_flagged loaded known flag) apart

/-- The fork of a branch that leaves the main chain at a node in memory. -/
theorem reorganizeNodes_of_meets (meets : ∃ member ∈ line, member ∈ path) :
    ∃ detach attach point rest, tree.getReorganizeNodes id = (detach, attach.reverse) ∧
      path = detach ++ point :: rest ∧ line = attach ++ point :: rest ∧ ∀ member ∈ attach, member ∉ path := by
  obtain ⟨best, tip, mainWalk⟩ := main.tip
  obtain ⟨detach, attach, point, rest, pathEq, lineEq, apart⟩ := mainWalk.fork walk meets
  refine ⟨detach, attach, point, rest, ?_, pathEq, lineEq, apart⟩
  have pointIn : point ∈ path := by rw [pathEq]; simp
  have nodup := main.nodup
  rw [pathEq] at nodup
  refine main.reorganizeNodes_line (main.indexed hash id found).1 (lineEq ▸ walk) pathEq (fun member inside =>
    main.unflagged_of_apart family loaded found walk (by rw [lineEq]; simp [inside]) (apart member inside))
    (.inl (main.flagged point pointIn)) (fun member inside equal => ?_) (.inl rfl)
  have same := main.hash_inj (by rw [pathEq]; simp [inside]) pointIn equal
  subst same
  exact (nodup_append.1 nodup).2.2 member inside member (by simp) rfl

/-- A branch whose fork was dropped from memory: everything but the oldest node would
be taken off the main chain. -/
theorem reorganizeNodes_of_apart (apart : ∀ member ∈ line, member ∉ path) :
    (tree.getReorganizeNodes id).1 = path.dropLast := by
  obtain ⟨start, same⟩ := main.indexed hash id found
  obtain ⟨best, tip, mainWalk⟩ := main.tip
  obtain ⟨attach, oldest, lineEq⟩ := walk.last
  obtain ⟨detach, last, pathEq⟩ := mainWalk.last
  have oldestKnown := family.line_indexed walk found same oldest (by rw [lineEq]; simp)
  rw [main.reorganizeNodes_line start (lineEq ▸ walk) pathEq (fun member inside => ?_) (.inr rfl)
    (fun member inside equal => ?_) (.inr rfl), pathEq]
  · simp
  · have inLine : member ∈ line := by rw [lineEq]; simp [inside]
    exact main.unflagged_of_apart family loaded found walk inLine (apart member inLine)
  · have inPath : member ∈ path := by rw [pathEq]; simp [inside]
    have known := loaded.2 member inPath
    rw [equal, oldestKnown] at known
    cases known
    exact apart oldest (by rw [lineEq]; simp) inPath

end

theorem reorganizeNodes_of_unloaded (main : tree.MainChain path) {genesis : Nat}
    (unloaded : tree.Unloaded path genesis) (found : tree.index.lookup hash = some id) :
    tree.getReorganizeNodes id = ([], []) :=
  @reorganizeNodes_line _ _ [] _ _ main (main.indexed hash id found).1 [] [] [] _
    (.root (unloaded.twin hash id found).2.1) unloaded.alone (by simp) (.inr rfl) (by simp) (.inr rfl)

end MainChain
end Elastos.Blockchain.BlockTree
