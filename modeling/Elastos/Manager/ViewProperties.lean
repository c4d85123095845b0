import Elastos.Manager.Duty

/-! The view of an arbiter and its cache of blocks, along any sequence of calls on them. -/
set_option autoImplicit false
namespace Elastos.Manager
open Go Go.Method Common Crypto Elastos.Types List Node

/-- A call on the view, with the time at which it is made. -/
inductive ViewCall where
  | changeView (now : Int)
  | tryChangeView (now : Int)

def ViewCall.now : ViewCall → Int
  | changeView now => now
  | tryChangeView now => now

/-- No proposal that came early is processed in the view with the given offset. -/
def Node.NoneFor (offset : UInt32) (node : Node) : Prop :=
  node.isRunning → ∀ proposal ∈ GoMap.values node.precociousProposals, proposal.viewOffset ≠ offset

section Early
variable {node after : Node} {offset : UInt32}

theorem Node.NoneFor.clean (none : node.NoneFor offset) : (node.cleanProposals true).NoneFor offset :=
  fun running proposal listed => none running proposal (Setup.fromView_subset listed)

end Early

namespace Setup

/-- One node is some views ahead of another one, counted as a `uint32` and on the clock. -/
structure Ahead (setup : Setup) (views : Int) (node after : Node) : Prop where
  offset : after.viewOffset = node.viewOffset + UInt32.ofInt views
  start : after.viewStartTime = node.viewStartTime + views * setup.signTolerance

variable {setup : Setup} {node middle after : Node} {last now : Int}

theorem Ahead.refl : setup.Ahead 0 node node := ⟨(UInt32.add_zero _).symm, by simp⟩

theorem Ahead.trans {views others : Int} (first : setup.Ahead views node middle)
    (second : setup.Ahead others middle after) : setup.Ahead (views + others) node after where
  offset := by rw [second.offset, first.offset, UInt32.ofInt_add, UInt32.add_assoc]
  start := by rw [second.start, first.start, Int.add_mul, Int.add_assoc]

/-- The time that has passed in a view when the clock is read next. -/
def elapsed (setup : Setup) (node : Node) : Int := setup.clock node.readings - node.viewStartTime

section Rejected
variable {setup : Setup} {change : Act Unit}

section
variable (node : Node) (several : ¬ node.surroundings.arbitrators.hasArbitersMajorityCount 1)
include several

end

end Rejected
end Setup

namespace Node

def addValue (key : Uint256) (block : Block) (node : Node) : Node :=
  { node with
    consensusBlocks := node.consensusBlocks.insert key block
    consensusBlockList := node.consensusBlockList ++ [key] }

/-- `Reset` without a block. -/
def clearBlocks (node : Node) : Node := { node with consensusBlocks := ∅, consensusBlockList := [] }

def getFirstArrivedBlockHash (node : Node) : Option Uint256 := node.consensusBlockList.head?

/-- A block is higher than all the cached ones, so that a `Reset` with it keeps none of them. -/
def Clears (node : Node) (block : Block) : Prop :=
  ∀ cached ∈ GoMap.values node.consensusBlocks, cached.height < block.height

end Node

section Small

open SmallNode

/-- A manager that has just been started. -/
def started : Node := ((setup fun _ => 0).startUp (surroundings [1, 2] 0)).toOption.get rfl

def late : Setup := setup fun _ => started.viewStartTime + 7000000000

def early : Setup := setup fun _ => started.viewStartTime + 4000000000

end Small

/-- The caches that calls with the given keys lead to, each key used once and each block that
is handed to `Reset` an allowed one. -/
inductive Cached (prim : Primitives) (runtime : Runtime) (allowed : Node → Block → Prop) :
    List Uint256 → Node → Prop where
  | empty {node : Node} (blocks : node.consensusBlocks = ∅) (list : node.consensusBlockList = []) :
      Cached prim runtime allowed [] node
  | addValue {keys : List Uint256} {node : Node} (before : Cached prim runtime allowed keys node) (key : Uint256)
      (block : Block) (fresh : key ∉ keys) : Cached prim runtime allowed (keys ++ [key]) (node.addValue key block)
  | clear {keys : List Uint256} {node : Node} (before : Cached prim runtime allowed keys node) :
      Cached prim runtime allowed keys node.clearBlocks
  | reset {keys : List Uint256} {node : Node} (before : Cached prim runtime allowed keys node) (block : Block)
      (met : allowed node block) : Cached prim runtime allowed keys (node.resetBlocks prim runtime block)

section Cache
variable {prim : Primitives} {runtime : Runtime} {keys : List Uint256} {node : Node} {block : Block}

theorem resetBlocks_eq_clearBlocks (clears : node.Clears block) :
    node.resetBlocks prim runtime block = node.clearBlocks := by
  have kept : ((runtime.iterate (GoMap.values node.consensusBlocks)).filter
      fun cached => ¬ cached.height < block.height) = [] := by
    refine filter_eq_nil_iff.2 fun cached member => ?_
    simpa using clears cached ((runtime.iterate_perm _).mem_iff.1 member)
  simp only [resetBlocks, kept]
  rfl

/-- The newest entry of the map comes first in it and last in the list. -/
theorem Cached.listed (cached : Cached prim runtime Node.Clears keys node) :
    node.consensusBlockList = node.consensusBlocks.keys.reverse ∧ node.consensusBlockList.Sublist keys := by
  induction cached with
  | empty blocks list => simp [blocks, list]
  | clear before ih => simp [clearBlocks]
  | reset before block met ih =>
    rw [resetBlocks_eq_clearBlocks met]
    simp [clearBlocks]
  | addValue before key block fresh ih =>
    obtain ⟨same, ordered⟩ := ih
    have absent := fun member => fresh (ordered.subset member)
    rw [same, mem_reverse] at absent
    refine ⟨?_, ordered.append (Sublist.refl _)⟩
    simp [Node.addValue, AList.keys_insert, erase_of_not_mem absent, same]

/-- As long as no `Reset` keeps a block, the list has the keys of the map in order of arrival. -/
theorem cache_inOrder (cached : Cached prim runtime Node.Clears keys node) :
    node.consensusBlockList.Nodup ∧ (∀ key, key ∈ node.consensusBlockList ↔ key ∈ node.consensusBlocks) ∧
      node.consensusBlockList.Sublist keys ∧ ∀ key ∈ node.consensusBlocks, ∃ first ∈ node.getFirstArrivedBlockHash,
        first ∈ node.consensusBlocks ∧ (first = key ∨ [first, key].Sublist keys) := by
  obtain ⟨same, ordered⟩ := cached.listed
  have keyed : ∀ key, key ∈ node.consensusBlockList ↔ key ∈ node.consensusBlocks := by
    intro key
    rw [same, mem_reverse, AList.mem_keys]
  refine ⟨same ▸ nodup_reverse.2 node.consensusBlocks.keys_nodup, keyed, ordered, fun key held => ?_⟩
  have member := (keyed key).2 held
  rw [getFirstArrivedBlockHash]
  obtain ⟨first, rest, list⟩ := exists_cons_of_ne_nil (ne_nil_of_mem member)
  rw [list] at member ordered ⊢
  refine ⟨first, rfl, (keyed first).1 (list ▸ mem_cons_self), ?_⟩
  obtain rfl | later := mem_cons.1 member
  · exact .inl rfl
  · exact .inr (((singleton_sublist.2 later).cons_cons first).trans ordered)

end Cache

section SmallCache

open SmallNode

def hashOf (height nonce : UInt32) : Uint256 := (block height nonce).hash Stand.primitives

/-- Two blocks are added, then dropped for a higher one, and two more are added. -/
def refilled : Node :=
  ((((started.addValue (hashOf 1 0) (block 1 0)).addValue (hashOf 2 0) (block 2 0)).resetBlocks Stand.primitives
    Runtime.insertion (block 3 0)).addValue (hashOf 4 0) (block 4 0)).addValue (hashOf 3 1) (block 3 1)

theorem cache_inOrder_small :
    let keys := [hashOf 1 0, hashOf 2 0, hashOf 4 0, hashOf 3 1]
    refilled.consensusBlockList = [hashOf 4 0, hashOf 3 1] ∧ refilled.consensusBlockList.Nodup ∧
      (∀ key, key ∈ refilled.consensusBlockList ↔ key ∈ refilled.consensusBlocks) ∧
      refilled.consensusBlockList.Sublist keys ∧
      ∀ key ∈ refilled.consensusBlocks, ∃ first ∈ refilled.getFirstArrivedBlockHash,
        first ∈ refilled.consensusBlocks ∧ (first = key ∨ [first, key].Sublist keys) :=
  have empty : Cached Stand.primitives Runtime.insertion Node.Clears [] started := .empty rfl rfl
  have filled := (empty.addValue (hashOf 1 0) (block 1 0) not_mem_nil).addValue (hashOf 2 0) (block 2 0)
    (by decide +kernel)
  have dropped := filled.reset (block 3 0) (by unfold Clears; decide +kernel)
  ⟨by decide +kernel, cache_inOrder ((dropped.addValue (hashOf 4 0) (block 4 0) (by decide +kernel)).addValue
    (hashOf 3 1) (block 3 1) (by decide +kernel))⟩

/-- A block that stays in the cache is listed a second time. -/
theorem cache_repeated : ∃ keys node, Cached Stand.primitives Runtime.insertion (fun _ _ => True) keys node ∧
    ¬ node.consensusBlockList.Nodup :=
  have empty : Cached _ _ _ [] started := .empty rfl rfl
  ⟨_, _, (empty.addValue ((block 1 0).hash Stand.primitives) (block 1 0) not_mem_nil).reset (block 1 0) trivial,
    by decide +kernel⟩

end SmallCache
end Elastos.Manager
