import Elastos.Blockchain.BlockTreeView

/-! Blocks that are put on the main chain and taken off it. -/
set_option autoImplicit false
namespace Elastos.Blockchain.BlockTree
open Go Common Utils List

/-- The view before `setTip` fills it. -/
abbrev resized (tree : BlockTree) (id : Nat) : List (Option Nat) :=
  tree.nodes.take ((tree.node id).height + 1).toNat ++
    replicate (((tree.node id).height + 1).toNat - tree.nodes.length) none

theorem setTip_eq (tree : BlockTree) (id : Nat) : setTip (some id) tree =
    match tree.fillNodes (tree.cells.length + 1) (some id) (tree.resized id) with
    | .ok nodes => (.ok (), { tree with nodes })
    | .error fault => (.error fault, tree) := by
  simp only [setTip, Method.this, Method.lift, Method.update, bind, resized]
  cases tree.fillNodes (tree.cells.length + 1) (some id) (tree.resized id) <;> rfl

theorem setTip_some {tree after : BlockTree} {id : Nat} (run : setTip (some id) tree = (.ok (), after)) :
    ∃ nodes, tree.fillNodes (tree.cells.length + 1) (some id) (tree.resized id) = .ok nodes ∧
      after = { tree with nodes } := by
  rw [setTip_eq] at run
  split at run
  · rename_i nodes filled
    cases run
    exact ⟨nodes, filled, rfl⟩
  · cases run

variable (tree : BlockTree)

theorem fillNodes_ne_failed (bound : Nat) (tip : Option Nat) (nodes : List (Option Nat)) (reason : BlockError) :
    tree.fillNodes bound tip nodes ≠ .error (.error reason) := by
  intro failed
  induction bound generalizing tip nodes with
  | zero => cases failed
  | succ bound ih =>
    cases tip with
    | none => cases failed
    | some id =>
      unfold fillNodes at failed
      simp only at failed
      split at failed
      · cases failed
      · split at failed
        · cases failed
        · exact ih _ _ failed

theorem setTip_ne_failed (tip : Option Nat) (tree after : BlockTree) (reason : BlockError) :
    setTip tip tree ≠ (.error (.error reason), after) := by
  intro run
  cases tip with
  | none => cases run
  | some id =>
    rw [setTip_eq] at run
    split at run
    · cases run
    · rename_i fault filled
      cases run
      exact fillNodes_ne_failed tree _ _ _ _ filled

def connected (id : Nat) (previous : Uint256) (nodes : List (Option Nat)) : BlockTree :=
  { (({ tree.setInMainChain id true with nodes }).addNode id).addDependent previous id with
    bestChain := some id }

def disconnected (best next : Nat) : BlockTree :=
  { tree.setInMainChain best false with
    nodes := tree.nodes.dropLast
    bestChain := some next }

/-- The nodes below a block that follows the tip: the main chain, or the twin of a
genesis node that is not in the index. -/
structure Below (path : List Nat) (parent : Nat) (trail : List Nat) : Prop where
  walk : Line tree.parentOf parent trail
  depth : ∀ (position : Nat) member, trail[position]? = some member →
    tree.heightOf member + position + 1 = tree.nodes.length
  placed : ∀ front member back, trail = front ++ member :: back →
    ∀ lower ∈ back, tree.nodes[tree.heightOf lower]? = some (some lower)
  listed : ∀ member ∈ trail, (tree.node member).inMainChain = true ∧
    tree.index.lookup (tree.node member).hash = some member
  hashes : trail.map (fun member => (tree.node member).hash) = path.map fun member => (tree.node member).hash

namespace MainChain
variable {tree after : BlockTree} {path rest : List Nat} {best next parent : Nat}

theorem below (main : tree.MainChain path) (tip : tree.bestChain = some best)
    (follows : (tree.node parent).hash = (tree.node best).hash)
    (known : tree.index.lookup (tree.node parent).hash = some parent) :
    (∃ trail, tree.Below path parent trail) ∧ tree.root ≠ none := by
  have inPath := main.tip_mem tip
  rcases main.held with ⟨loaded, held⟩ | ⟨genesis, unloaded⟩
  · have same := held best inPath
    rw [← follows, known] at same
    cases same
    refine ⟨⟨path, main.tip_line tip, main.depth, fun front member back split lower inBack => ?_,
      fun member inPath => ⟨main.flagged member inPath, held member inPath⟩, rfl⟩, loaded⟩
    exact main.placed lower (by rw [split]; simp [inBack])
  have alone := unloaded.alone
  subst alone
  cases mem_singleton.1 inPath
  obtain ⟨-, noParent, lowest, flag, -⟩ := unloaded.twin _ parent known
  refine ⟨⟨[parent], .root noParent, fun position member found => ?_,
    fun front member back split lower inBack => ?_, fun member inLine => ?_, ?_⟩, fun none => ?_⟩
  · cases position with
    | zero =>
      cases found
      rw [main.length_tip tip, unloaded.lowest, lowest]
    | succ position => simp at found
  · cases front with
    | nil =>
      cases split
      cases inBack
    | cons first front => simp at split
  · rw [mem_singleton.1 inLine]
    exact ⟨flag, known⟩
  · simp [follows]
  · rw [(unloaded.empty none).1] at known
    cases known

/-- The view after `setTip` of a block that follows the tip. The height of the block
does not wrap around: the view cannot be made for one that does. -/
theorem tip_nodes (main : tree.MainChain path) {id : Nat} {trail : List Nat}
    (start : id < tree.cells.length) (pointer : tree.parentOf id = some parent)
    (unflagged : (tree.node id).inMainChain = false) (below : tree.Below path parent trail)
    (run : setTip (some id) (tree.setInMainChain id true) = (.ok (), after)) :
    ∃ nodes, after = { tree.setInMainChain id true with nodes } ∧
      tree.heightOf id = tree.nodes.length ∧ nodes.length = tree.nodes.length + 1 ∧
      (∀ member ∈ id :: trail, nodes[tree.heightOf member]? = some (some member)) ∧
      ∀ height < tree.nodes.length, (∀ member ∈ trail, tree.heightOf member ≠ height) →
        nodes[height]? = tree.nodes[height]? := by
  have same : SameShape tree (tree.setInMainChain id true) := .setInMainChain id true
  obtain ⟨nodes, filled, rfl⟩ := setTip_some run
  rw [resized, same.height, same.cells] at filled
  change (tree.setInMainChain id true).fillNodes (tree.cells.length + 1) (some id) (tree.resized id) = _ at filled
  refine ⟨nodes, rfl, ?_⟩
  have walk := below.walk
  obtain ⟨first, rfl⟩ := walk.head
  have parentDepth := below.depth 0 parent rfl
  have step := (main.rooted.named id parent pointer).2
  have idHeight : tree.heightOf id = (tree.heightOf parent + 1) % 2 ^ 32 := by
    rw [heightOf, step, UInt32.toNat_add]
    rfl
  have needed : ((tree.node id).height + 1).toNat = (tree.heightOf id + 1) % 2 ^ 32 := by
    rw [UInt32.toNat_add]
    rfl
  have parentBound : tree.heightOf parent < 2 ^ 32 := (tree.node parent).height.toNat_lt
  obtain ⟨inside, round⟩ := fillNodes_cases filled
  rw [same.heightOf] at inside round
  rw [same.parent, pointer] at round
  -- a height that wraps around leaves no room for the parent
  have room : tree.heightOf id = tree.nodes.length := by
    by_contra wraps
    have wrapped : tree.heightOf id = 0 ∧ tree.nodes.length = 2 ^ 32 := by omega
    rw [resized, needed, wrapped.1, wrapped.2] at inside round
    have single : tree.nodes.take ((0 + 1) % 2 ^ 32) ++
        replicate ((0 + 1) % 2 ^ 32 - 2 ^ 32) (none : Option Nat) = tree.nodes.take 1 := by simp
    rw [single] at round
    rcases round with ⟨there, -⟩ | ⟨-, continued⟩
    · have entry : tree.nodes[0]? = some (some id) := by simpa using there
      have flag := (main.entries 0 id entry).2.1
      rw [unflagged] at flag
      cases flag
    · obtain ⟨bound, equal⟩ : ∃ bound, tree.cells.length = bound + 1 :=
        ⟨tree.cells.length - 1, by omega⟩
      rw [equal] at continued
      have inside' := (fillNodes_cases continued).1
      rw [same.heightOf] at inside'
      simp only [length_set, length_take, wrapped.2] at inside'
      omega
  have fits : (tree.heightOf id + 1) % 2 ^ 32 = tree.nodes.length + 1 := by
    by_contra wraps
    have zero : (tree.heightOf id + 1) % 2 ^ 32 = 0 := by omega
    rw [resized, needed, zero] at inside
    simp at inside
  have longer : tree.resized id = tree.nodes ++ [none] := by
    rw [resized, needed, fits, take_of_length_le (by omega)]
    simp
  rw [longer] at filled
  have walk' : Line (tree.setInMainChain id true).parentOf id (id :: parent :: first) := by
    rw [same.parentOf]
    exact .step pointer walk
  have enough : (id :: parent :: first).length ≤ tree.cells.length + 1 := by
    have bound := main.rooted.line_length (.step pointer walk) start
    omega
  obtain ⟨sameLength, placed, others⟩ := fillNodes_line walk' enough
    (by
      intro position member found
      rw [same.heightOf]
      cases position with
      | zero =>
        cases found
        rfl
      | succ position =>
        have known := below.depth position member (by simpa using found)
        change tree.heightOf member + (position + 1) = tree.heightOf id
        omega)
    (by
      intro front member back split there other inBack
      rw [same.heightOf] at there ⊢
      cases front with
      | nil =>
        cases split
        rw [room, getElem?_append_right (le_refl _)] at there
        simp at there
      | cons head front =>
        have inLine : parent :: first = front ++ member :: back := (cons.inj split).2
        have known := below.placed front member back inLine other inBack
        rw [List.getElem?_append_left (List.getElem?_eq_some_iff.1 known).1]
        exact known)
    filled
  refine ⟨room, by simpa using sameLength, fun member inLine => ?_, fun height less away => ?_⟩
  · have known := placed member inLine
    rwa [same.heightOf] at known
  · rw [others height, getElem?_append_left less]
    intro member inLine
    rw [same.heightOf]
    rcases mem_cons.1 inLine with rfl | inRest
    · omega
    · exact away member inRest

theorem connect (main : tree.MainChain path) {id : Nat} {previous : Uint256} (start : id < tree.cells.length)
    (pointer : tree.parentOf id = some parent)
    (unflagged : (tree.node id).inMainChain = false) (tip : tree.bestChain = some best)
    (follows : (tree.node parent).hash = (tree.node best).hash)
    (known : tree.index.lookup (tree.node parent).hash = some parent)
    (fresh : ∀ other, tree.index.lookup (tree.node id).hash = some other → other = id)
    (run : setTip (some id) (tree.setInMainChain id true) = (.ok (), after)) :
    ∃ nodes line, after = { tree.setInMainChain id true with nodes } ∧
      (tree.connected id previous nodes).MainChain (id :: line) ∧
      line.map (fun member => (tree.node member).hash) = path.map (fun member => (tree.node member).hash) ∧
      Line tree.parentOf parent line ∧ tree.heightOf id = tree.nodes.length ∧
      ∀ height < tree.nodes.length, (∀ member ∈ line, tree.heightOf member ≠ height) →
        nodes[height]? = tree.nodes[height]? := by
  obtain ⟨⟨line, below⟩, loaded⟩ := main.below tip follows known
  obtain ⟨nodes, rfl, room, length, placed, others⟩ := main.tip_nodes start pointer unflagged below run
  obtain ⟨walk, depth, -, inLine, hashes⟩ := below
  refine ⟨nodes, line, rfl, ?_, hashes, walk, room, others⟩
  have marked_ : SameShape tree (tree.setInMainChain id true) := .setInMainChain id true
  have same : SameShape tree (tree.connected id previous nodes) := marked_.trans (.of_cells rfl)
  have flagsOf : ∀ other, ((tree.connected id previous nodes).node other).inMainChain =
      if id = other ∧ other < tree.cells.length then true
      else (tree.node other).inMainChain :=
    tree.flag_setInMainChain id true
  have flagId : ((tree.connected id previous nodes).node id).inMainChain = true := by
    rw [flagsOf, if_pos ⟨rfl, start⟩]
  have flagKept : ∀ other, (tree.node other).inMainChain = true →
      ((tree.connected id previous nodes).node other).inMainChain = true := by
    intro other flag
    rw [flagsOf]
    split
    · rfl
    · exact flag
  have lookupOf : ∀ hash, (tree.connected id previous nodes).index.lookup hash =
      if hash = (tree.node id).hash then some id else tree.index.lookup hash := by
    intro hash
    change (tree.index.insert ((tree.setInMainChain id true).node id).hash id).lookup hash = _
    rw [GoMap.lookup_insert_eq, marked_.hash]
  have allocated : ∀ member ∈ id :: line, member < tree.cells.length :=
    main.rooted.line_allocated (.step pointer walk) start
  refine ⟨same.rooted main.rooted, ⟨id, rfl, ?_⟩, ?_, ?_, ?_, ?_, ?_, ?_, ?_, .inl ⟨loaded, ?_⟩⟩
  · rw [same.parentOf]
    exact .step pointer walk
  · intro member inside
    rw [same.cells]
    exact allocated member inside
  · intro position member found
    rw [same.heightOf]
    change tree.heightOf member + position + 1 = nodes.length
    cases position with
    | zero =>
      cases found
      omega
    | succ position =>
      have known := depth position member (by simpa using found)
      omega
  · intro member inside
    rw [same.heightOf]
    exact placed member inside
  · intro height member found
    change nodes[height]? = some (some member) at found
    rw [same.heightOf, same.cells]
    by_cases onLine : ∃ other ∈ id :: line, tree.heightOf other = height
    · obtain ⟨other, inside, rfl⟩ := onLine
      rw [placed other inside] at found
      obtain rfl : other = member := by simpa using found
      refine ⟨rfl, ?_, allocated other inside⟩
      rcases mem_cons.1 inside with rfl | inside
      · exact flagId
      · exact flagKept other (inLine other inside).1
    · have less : height < tree.nodes.length := by
        have bound := (List.getElem?_eq_some_iff.1 found).1
        have apart : tree.heightOf id ≠ height := fun here => onLine ⟨id, by simp, here⟩
        omega
      rw [others height less fun other inside here =>
        onLine ⟨other, mem_cons_of_mem _ inside, here⟩] at found
      obtain ⟨here, flag, inside⟩ := main.entries height member found
      exact ⟨here, flagKept member flag, inside⟩
  · intro member inside
    rcases mem_cons.1 inside with rfl | inside
    · exact flagId
    · exact flagKept member (inLine member inside).1
  · intro hash other found
    rw [lookupOf] at found
    rw [same.cells, same.hash]
    split at found
    · rename_i here
      cases found
      exact ⟨start, here.symm⟩
    · exact main.indexed hash other found
  · intro hash other found flag
    rw [lookupOf] at found
    split at found
    · rename_i here
      cases found
      exact ⟨id, by simp, by rw [same.hash, here]⟩
    rename_i apart
    rw [flagsOf] at flag
    split at flag
    · rename_i here
      obtain ⟨rfl, -⟩ := here
      exact absurd (main.indexed hash id found).2.symm apart
    obtain ⟨member, inPath, equal⟩ := main.marked hash other found flag
    have listed : hash ∈ line.map fun member => (tree.node member).hash := by
      rw [hashes]
      exact mem_map.2 ⟨member, inPath, equal⟩
    obtain ⟨lower, inside, equal⟩ := mem_map.1 listed
    exact ⟨lower, mem_cons_of_mem _ inside, by rw [same.hash, equal]⟩
  · intro member inside
    rw [lookupOf, same.hash]
    rcases mem_cons.1 inside with rfl | inside
    · rw [if_pos rfl]
    split
    · rename_i here
      have found := (inLine member inside).2
      rw [here] at found
      rw [fresh member found]
    · exact (inLine member inside).2

variable (main : tree.MainChain (best :: next :: rest))
include main

theorem tip_dropLast (run : setTip (some next) (tree.setInMainChain best false) = (.ok (), after)) :
    after = { tree.setInMainChain best false with nodes := tree.nodes.dropLast } := by
  have same : SameShape tree (tree.setInMainChain best false) := .setInMainChain best false
  have bestDepth := main.depth 0 best rfl
  have nextDepth := main.depth 1 next rfl
  obtain ⟨nodes, filled, rfl⟩ := setTip_some run
  rw [resized, same.height, same.cells] at filled
  have bound : tree.heightOf best < 2 ^ 32 := (tree.node best).height.toNat_lt
  have needed : ((tree.node next).height + 1).toNat = tree.nodes.length - 1 := by
    rw [UInt32.toNat_add]
    change (tree.heightOf next + 1) % 2 ^ 32 = tree.nodes.length - 1
    omega
  have shorter : tree.resized next = tree.nodes.dropLast := by
    rw [resized, needed, dropLast_eq_take]
    simp
  change (tree.setInMainChain best false).fillNodes _ _ (tree.resized next) = _ at filled
  rw [shorter] at filled
  have there : tree.nodes.dropLast[tree.heightOf next]? = some (some next) := by
    rw [getElem?_dropLast, if_pos (by omega)]
    exact main.placed next (by simp)
  obtain ⟨-, ⟨-, rfl⟩ | ⟨missing, -⟩⟩ := fillNodes_cases filled
  · rfl
  · rw [same.heightOf] at missing
    exact absurd there missing

theorem disconnect : (tree.disconnected best next).MainChain (next :: rest) := by
  obtain ⟨loaded, held⟩ := main.loaded (by simp)
  obtain ⟨first, tip, walk⟩ := main.tip
  have marked_ : SameShape tree (tree.setInMainChain best false) := .setInMainChain best false
  have same : SameShape tree (tree.disconnected best next) := marked_.trans (.of_cells rfl)
  have flagsOf : ∀ other, other ≠ best → ((tree.disconnected best next).node other).inMainChain =
        (tree.node other).inMainChain := by
    intro other apart
    exact (tree.flag_setInMainChain best false other).trans (if_neg fun here => apart here.1.symm)
  have apart : ∀ member ∈ next :: rest, member ≠ best := by
    rintro member inside rfl
    exact (nodup_cons.1 main.nodup).1 inside
  have bestDepth := main.depth 0 best rfl
  refine ⟨same.rooted main.rooted, ⟨next, rfl, ?_⟩, ?_, ?_, ?_, ?_, ?_, ?_, ?_, .inl ⟨loaded, ?_⟩⟩
  · rw [same.parentOf]
    exact Line.suffix (show Line tree.parentOf first ([best] ++ next :: rest) from walk)
  · intro member inside
    rw [same.cells]
    exact main.allocated member (mem_cons_of_mem _ inside)
  · intro position member found
    have depth := main.depth (position + 1) member found
    rw [same.heightOf]
    change _ = tree.nodes.dropLast.length
    rw [length_dropLast]
    omega
  · intro member inside
    obtain ⟨position, found⟩ := getElem?_of_mem inside
    have depth := main.depth (position + 1) member found
    rw [same.heightOf]
    change tree.nodes.dropLast[_]? = _
    rw [getElem?_dropLast, if_pos (by omega)]
    exact main.placed member (mem_cons_of_mem _ inside)
  · intro height member found
    change tree.nodes.dropLast[_]? = _ at found
    rw [getElem?_dropLast] at found
    split at found
    · rename_i less
      obtain ⟨here, flag, inside⟩ := main.entries height member found
      rw [same.heightOf, same.cells, flagsOf member]
      · exact ⟨here, flag, inside⟩
      · rintro rfl
        omega
    · cases found
  · intro member inside
    rw [flagsOf member (apart member inside)]
    exact main.flagged member (mem_cons_of_mem _ inside)
  · intro hash other found
    rw [same.cells, same.hash]
    exact main.indexed hash other found
  · intro hash other found flag
    have notBest : other ≠ best := by
      rintro rfl
      cases flag.symm.trans ((tree.flag_setInMainChain other false other).trans
        (if_pos ⟨rfl, (main.indexed hash other found).1⟩))
    rw [flagsOf other notBest] at flag
    have inPath := main.mem_of_flagged ⟨loaded, held⟩ found flag
    refine ⟨other, (mem_cons.1 inPath).resolve_left notBest, ?_⟩
    rw [same.hash]
    exact (main.indexed hash other found).2
  · intro member inside
    rw [same.hash]
    exact held member (mem_cons_of_mem _ inside)

end MainChain

namespace Family
variable {tree tree' : BlockTree}

theorem of_same (family : tree.Family) (parent : ∀ id, tree'.parentOf id = tree.parentOf id)
    (hash : ∀ id, (tree'.node id).hash = (tree.node id).hash)
    (children : ∀ id, (tree'.node id).children = (tree.node id).children)
    (index : ∀ hash, tree'.index.lookup hash = tree.index.lookup hash) : tree'.Family := by
  constructor
  · intro parentId child inside
    rw [children] at inside
    rw [parent]
    exact family.ofChild parentId child inside
  · intro key id parentId found some
    rw [index] at found
    rw [parent] at some
    rw [children]
    exact family.ofParent key id parentId found some
  · intro key id parentId found some
    rw [index] at found
    rw [parent] at some
    rw [hash, index]
    exact family.ofIndex key id parentId found some

theorem of_insert (family : tree.Family) {id parent : Nat} (parents : ∀ id, tree'.parentOf id = tree.parentOf id)
    (hash : ∀ id, (tree'.node id).hash = (tree.node id).hash) (children : ∀ other, (tree'.node other).children =
      if other = parent then (tree.node other).children ++ [id] else (tree.node other).children)
    (index : ∀ hash, tree'.index.lookup hash =
      if hash = (tree.node id).hash then some id else tree.index.lookup hash)
    (pointer : tree.parentOf id = some parent) (known : tree.index.lookup (tree.node parent).hash = some parent)
    (fresh : tree.index.lookup (tree.node id).hash = none) : tree'.Family := by
  have grows : ∀ other, ∀ child ∈ (tree.node other).children, child ∈ (tree'.node other).children := by
    intro other child inside
    rw [children]
    split
    · exact mem_append_left _ inside
    · exact inside
  have stays : ∀ other, tree.index.lookup (tree.node other).hash = some other →
      tree'.index.lookup (tree'.node other).hash = some other := by
    intro other found
    rw [hash, index, if_neg, found]
    intro same
    rw [same, fresh] at found
    cases found
  constructor
  · intro parentId child inside
    rw [parents]
    rw [children] at inside
    split at inside
    · rename_i here
      rcases mem_append.1 inside with inside | inside
      · exact family.ofChild parentId child inside
      · rw [mem_singleton.1 inside, here]
        exact pointer
    · exact family.ofChild parentId child inside
  · intro key other parentId found some
    rw [index] at found
    rw [parents] at some
    split at found
    · cases found
      rw [pointer] at some
      cases some
      rw [children, if_pos rfl]
      simp
    · exact grows parentId other (family.ofParent key other parentId found some)
  · intro key other parentId found some
    rw [index] at found
    rw [parents] at some
    split at found
    · cases found
      rw [pointer] at some
      cases some
      exact stays parent known
    · exact stays parentId (family.ofIndex key other parentId found some)

theorem allocate (family : tree.Family) {path : List Nat} (main : tree.MainChain path)
    {node : ChainNode} (childless : node.children = []) : (tree.allocate node).Family := by
  have parentOld : ∀ id < tree.cells.length, (tree.allocate node).parentOf id = tree.parentOf id := by
    intro id inside
    rw [parentOf, tree.node_allocate_old node inside, parentOf]
  constructor
  · intro parent child inside
    rcases Nat.lt_trichotomy parent tree.cells.length with less | rfl | more
    · rw [tree.node_allocate_old node less] at inside
      have known := family.ofChild parent child inside
      have start : child < tree.cells.length := by
        by_contra beyond
        rw [parentOf, tree.node_of_le (by omega)] at known
        cases known
      rw [parentOld child start]
      exact known
    · rw [node_allocate_new, childless] at inside
      cases inside
    · rw [(tree.allocate node).node_of_le (by rw [cells_allocate]; omega)] at inside
      cases inside
  · intro hash id parent found some
    rw [parentOld id (main.indexed hash id found).1] at some
    rw [tree.node_allocate_old node (main.rooted.allocated id parent some)]
    exact family.ofParent hash id parent found some
  · intro hash id parent found some
    rw [parentOld id (main.indexed hash id found).1] at some
    rw [tree.node_allocate_old node (main.rooted.allocated id parent some)]
    exact family.ofIndex hash id parent found some

end Family

theorem children_addChild {parent child : Nat}
    (start : parent < tree.cells.length) (other : Nat) : ((tree.addChild parent child).node other).children =
      if other = parent then (tree.node other).children ++ [child]
      else (tree.node other).children := by
  rw [addChild, node_modifyNode]
  by_cases here : parent = other
  · subst here
    rw [if_pos ⟨rfl, start⟩, if_pos rfl]
  · rw [if_neg fun same => here same.1, if_neg fun same => here same.symm]

end Elastos.Blockchain.BlockTree
