import Elastos.Blockchain.BlockTreePrune
import Elastos.Blockchain.ChainProcess

/-! What the methods that connect and disconnect a block do to the chain. -/
set_option autoImplicit false
namespace Elastos.Blockchain
open Go Go.Method Common Crypto Elastos.Types BlockTree

/-- The context check does not touch the header of a block. -/
theorem BlockChain.checkBlockContext_header {chain : BlockChain} {block checked : Block}
    {prevNode : Option BlockNode} (passed : chain.checkBlockContext block prevNode = .ok checked) :
    checked.toHeader = block.toHeader := by
  unfold BlockChain.checkBlockContext at passed
  cases prevNode with
  | none =>
    cases passed
    rfl
  | some node =>
    simp only [Outcome.bind_eq_ok, Except.ok.injEq] at passed
    obtain ⟨_, _, _, _, _, _, _, _, _, _, _, _, transactions, _, rfl⟩ := passed
    rfl

namespace Chain
variable {σ : Type}

def pool (chain : Chain σ) : GoMap Uint256 OrphanBlock × GoMap Uint256 (List OrphanBlock) × Option OrphanBlock :=
  (chain.orphans, chain.prevOrphans, chain.oldestOrphan)

/-- The orphans are the same, and what was stored is, with blocks under their own
hashes. -/
structure Beside (prim : Primitives) (before after : Chain σ) : Prop where
  pool : after.pool = before.pool
  stored : ∀ hash entry, before.stored.lookup hash = some entry → after.stored.lookup hash = some entry
  keyed : ∀ hash entry, after.stored.lookup hash = some entry →
    before.stored.lookup hash = some entry ∨ entry.1.hash prim = hash

/-- Nothing has changed but the ledger, the blocks that are stored and how often the
store was asked, besides the tree and the heights. -/
structure Stepped (prim : Primitives) (before after : Chain σ) (tree : BlockTree)
    (heights : GoMap Uint256 UInt32) : Prop where
  beside : Beside prim before after
  tree : after.toBlockTree = tree
  blockCache : after.blockCache = before.blockCache
  flushes : after.flushes = before.flushes
  heights : after.heights = heights

/-- The tree and the heights are the same too. -/
abbrev Quiet (prim : Primitives) (before after : Chain σ) : Prop :=
  Stepped prim before after before.toBlockTree before.heights

variable {prim : Primitives} {before after : Chain σ} {tree : BlockTree} {heights : GoMap Uint256 UInt32}

theorem Beside.refl (chain : Chain σ) : Beside prim chain chain :=
  ⟨rfl, fun _ _ found => found, fun _ _ found => .inl found⟩

theorem Quiet.refl (chain : Chain σ) : Quiet prim chain chain :=
  ⟨.refl chain, rfl, rfl, rfl, rfl⟩

theorem Stepped.setLedger (stepped : Stepped prim before after tree heights) (ledger : σ) :
    Stepped prim before { after with ledger } tree heights :=
  { stepped with beside := { stepped.beside with } }

theorem Stepped.setWrites (stepped : Stepped prim before after tree heights) (writes : List Bool) :
    Stepped prim before { after with writes } tree heights :=
  { stepped with beside := { stepped.beside with } }

section Store
variable {invariant : Chain σ → Prop} {hash : Uint256} {block : Block}

theorem write_keeps_of (closed : ∀ chain writes, invariant chain → invariant { chain with writes }) :
    Keeps invariant (write : Method (Chain σ) BlockError Unit) := by
  intro chain holds
  unfold write
  cases chain.writes with
  | nil => exact holds
  | cons answer rest =>
    cases answer with
    | true => exact closed chain rest holds
    | false => exact closed chain rest holds

theorem write_keeps : Keeps (Quiet prim before) (write : Method (Chain σ) BlockError Unit) :=
  write_keeps_of fun _ writes quiet => quiet.setWrites writes

theorem storeBlock_ensures (own : block.hash prim = hash) (confirm : Option Confirm) :
    Ensures (Quiet prim before) (storeBlock hash block confirm)
      (fun _ after => Quiet prim before after ∧ (after.stored.lookup hash).isSome)
      (Quiet prim before) := by
  refine Ensures.bind write_keeps fun _ => Ensures.update fun chain quiet => ?_
  cases found : chain.stored.lookup hash with
  | some entry => exact ⟨quiet, by rw [found]; rfl⟩
  | none =>
    refine ⟨⟨⟨quiet.beside.pool, fun key entry known => ?_,
      fun key entry known => ?_⟩, quiet.tree, quiet.blockCache, quiet.flushes, quiet.heights⟩, by simp⟩
    · have known' := quiet.beside.stored key entry known
      rw [GoMap.lookup_insert_eq, if_neg, known']
      rintro rfl
      rw [found] at known'
      cases known'
    · rw [GoMap.lookup_insert_eq] at known
      split at known
      · rename_i here
        cases known
        exact .inr (by rw [own, here])
      · exact quiet.beside.keyed key entry known

/-- A block was added to the main chain in the store. -/
def Saved (prim : Primitives) (before after : Chain σ) (hash : Uint256) (id : Nat) (tree : BlockTree) : Prop :=
  Stepped prim before after tree (before.heights.insert hash (before.node id).height) ∧
    (after.stored.lookup hash).isSome

theorem saveBlock_ensures (own : block.hash prim = hash) (id : Nat) (confirm : Option Confirm) :
    Ensures (Quiet prim before) (saveBlock hash block id confirm)
      (fun _ after => Saved prim before after hash id before.toBlockTree)
      (Quiet prim before) := by
  refine Ensures.bind Keeps.this fun chain => Ensures.bind (Keeps.require _ _) fun _ => ?_
  refine Ensures.bind (storeBlock_ensures own confirm) fun _ => ?_
  have written : Keeps (fun after => Quiet prim before after ∧ (after.stored.lookup hash).isSome) write :=
    write_keeps_of fun _ writes ⟨quiet, here⟩ => ⟨quiet.setWrites writes, here⟩
  refine .bind (written.imp (fun _ _ holds => holds) fun _ holds => holds.1) fun _ =>
    .update fun chain ⟨quiet, here⟩ => ?_
  refine ⟨{ quiet with beside := { quiet.beside with }, heights := ?_ }, here⟩
  change chain.heights.insert hash (chain.toBlockTree.node id).height = _
  rw [quiet.heights, quiet.tree]

theorem getBlock_keeps (hash : Uint256) : Keeps invariant (getBlock hash) :=
  Keeps.bind Keeps.this fun _ => Keeps.lift _

theorem rollbackBlock_ensures (hash : Uint256) (block : Block) (id : Nat) :
    Ensures (Quiet prim before) (rollbackBlock hash block id)
      (fun _ after => Stepped prim before after before.toBlockTree (before.heights.erase hash))
      (Quiet prim before) := by
  refine Ensures.bind (getBlock_keeps hash) fun _ => Ensures.bind Keeps.this fun chain => ?_
  cases (chain.node id).parent with
  | none => exact .crash _
  | some parent =>
    refine .bind (getBlock_keeps _) fun _ => .bind write_keeps fun _ => ?_
    refine .update fun chain quiet => ?_
    refine { quiet with beside := { quiet.beside with }, heights := ?_ }
    change chain.heights.erase hash = _
    rw [quiet.heights]

end Store

section Tree
variable {failed : Chain σ → Prop} {hash : Uint256} {id : Nat}

theorem onTree_update (change : BlockTree → BlockTree) : Ensures (fun after => Saved prim before after hash id tree)
      (onTree (Method.update change))
      (fun _ after => Saved prim before after hash id (change tree)) failed := by
  intro chain ⟨saved, here⟩
  refine ⟨{ saved with beside := { saved.beside with }, tree := ?_ }, here⟩
  change change chain.toBlockTree = change tree
  rw [saved.tree]

theorem onTree_setTip_run (chain : Chain σ) (tip : Option Nat) :
    Ensures (· = chain) (onTree (setTip tip))
      (fun _ after => ∃ tree', setTip tip chain.toBlockTree = (.ok (), tree') ∧
        after = { chain with toBlockTree := tree' }) failed := by
  rintro state rfl
  unfold onTree Method.part
  match run : setTip tip state.toBlockTree with
  | (.ok _, tree') => exact ⟨tree', rfl, rfl⟩
  | (.error (.error reason), tree') =>
    exact absurd run (setTip_ne_failed tip _ tree' reason)
  | (.error (.panic text), tree') => exact trivial

theorem onTree_setTip (tip : Option Nat) :
    Ensures (fun after => Saved prim before after hash id tree) (onTree (setTip tip))
      (fun _ after => ∃ tree', setTip tip tree = (.ok (), tree') ∧ Saved prim before after hash id tree') failed := by
  intro chain ⟨saved, here⟩
  have ensured : Ensures (· = chain) (onTree (setTip tip))
      (fun _ after => ∃ tree', setTip tip tree = (.ok (), tree') ∧ Saved prim before after hash id tree') failed := by
    refine .imp (onTree_setTip_run chain tip) ?_ fun _ holds => holds
    rintro _ after ⟨tree', run, rfl⟩
    rw [saved.tree] at run
    exact ⟨tree', run, { saved with beside := { saved.beside with }, tree := rfl }, here⟩
  exact ensured chain rfl

end Tree

structure Connected (prim : Primitives) (before after : Chain σ) (hash previous : Uint256) (id : Nat) : Prop where
  beside : Beside prim before after
  tree : ∃ tree', setTip (some id) (before.toBlockTree.setInMainChain id true) = (.ok (), tree') ∧
    after.toBlockTree = { (tree'.addNode id).addDependent previous id with bestChain := some id }
  blockCache : after.blockCache = before.blockCache
  flushes : ∀ answer ∈ after.flushes, answer ∈ before.flushes
  heights : after.heights = before.heights.insert hash (before.node id).height
  here : (after.stored.lookup hash).isSome

structure Disconnected (prim : Primitives) (before after : Chain σ) (hash : Uint256) (id : Nat)
    (block : Block) : Prop where
  beside : Beside prim before after
  tree : ∃ tree', setTip (before.parentOf id)
      (before.toBlockTree.setInMainChain id false) = (.ok (), tree') ∧
    after.toBlockTree = { tree' with bestChain := before.parentOf id }
  blockCache : after.blockCache = before.blockCache.insert (before.node id).hash block
  flushes : after.flushes = before.flushes
  heights : after.heights = before.heights.erase hash

section Connect
variable (backend : Backend σ) (block : Block) {hash : Uint256}

theorem preProcessSpecialTx_keeps : Keeps (Quiet prim before) (preProcessSpecialTx backend block) := by
  refine .bind .this fun chain => .bind (.lift _) fun _ => ?_
  refine .forM _ fun payload => .mapError (.part ?_)
  intro chain ledger quiet
  exact quiet.setLedger ledger

theorem checkBlockWithConfirmation_keeps (confirm : Option Confirm) :
    Keeps (Quiet prim before) (checkBlockWithConfirmation backend block confirm) := by
  unfold checkBlockWithConfirmation
  cases confirm with
  | none => exact .crash _
  | some confirm =>
    refine .bind (.require _ _) fun _ => .bind .this fun chain => ?_
    cases confirmContextCheck (backend.view chain).arbitrators confirm with
    | ok _ => exact .pure ()
    | error fault =>
      cases fault with
      | panic text => exact .crash _
      | error reason =>
        refine .bind (.update ?_) fun _ => .fail _
        intro chain quiet
        exact quiet.setLedger _

theorem flushToDB_ensures {id : Nat} : Ensures (fun after => Saved prim before after hash id tree) flushToDB
      (fun _ after => Beside prim before after ∧ after.toBlockTree = tree ∧
        after.blockCache = before.blockCache ∧ (∀ answer ∈ after.flushes, answer ∈ before.flushes) ∧
        after.heights = before.heights.insert hash (before.node id).height ∧ (after.stored.lookup hash).isSome)
      (fun _ => false ∈ before.flushes) := by
  intro chain ⟨saved, here⟩
  have same := saved.flushes
  unfold flushToDB
  cases flushes : chain.flushes with
  | nil => exact ⟨saved.beside, saved.tree, saved.blockCache, by rw [flushes]; simp, saved.heights, here⟩
  | cons answer rest =>
    rw [flushes] at same
    cases answer with
    | true =>
      refine ⟨{ saved.beside with }, saved.tree, saved.blockCache, fun answer inside => ?_, saved.heights, here⟩
      rw [← same]
      exact List.mem_cons_of_mem _ inside
    | false =>
      change false ∈ before.flushes
      rw [← same]
      simp

/-- Connecting a block either fails and changes nothing in the tree, or connects it,
as long as the index can be written. -/
theorem connectBlock_ensures (id : Nat) (block : Block) (confirm : Option Confirm) :
    Ensures (Quiet backend.prim before) (connectBlock backend id block confirm) (fun _ after =>
        Connected backend.prim before after (block.hash backend.prim) block.previous id)
      (fun after => Quiet backend.prim before after ∨ false ∈ before.flushes) := by
  have quietly : ∀ {α : Type} {method : Method (Chain σ) BlockError α} {returned : α → Chain σ → Prop},
      Ensures (Quiet backend.prim before) method returned (Quiet backend.prim before) →
        Ensures (Quiet backend.prim before) method returned
          (fun after => Quiet backend.prim before after ∨ false ∈ before.flushes) :=
    fun ensures => ensures.imp (fun _ _ holds => holds) fun _ => .inl
  refine .bind (quietly (preProcessSpecialTx_keeps backend block)) fun _ => ?_
  refine .bind (quietly Keeps.this) fun chain => ?_
  refine .bind_lift (fun checked context => ?_) fun _ quiet => .inl quiet
  have own : checked.hash backend.prim = block.hash backend.prim := by
    rw [Block.hash, BlockChain.checkBlockContext_header context, Block.hash]
  refine .bind (quietly (Keeps.when _ (checkBlockWithConfirmation_keeps backend checked confirm))) fun _ => ?_
  refine .bind (quietly Keeps.this) fun _ => .bind (quietly (Keeps.require _ _)) fun _ => ?_
  refine .bind (quietly ((storeBlock_ensures own confirm).imp (fun _ _ holds => holds.1) fun _ quiet => quiet))
    fun _ => .bind (quietly (saveBlock_ensures own id confirm)) fun _ => ?_
  refine .bind (onTree_update _) fun _ => .bind (onTree_setTip _) fun _ => ?_
  refine .of_exists fun tree' => ?_
  intro chain ⟨tip, saved⟩
  revert chain
  refine Ensures.bind (onTree_update _) fun _ => ?_
  have flushed := Ensures.weaken flushToDB_ensures
    (fun after (saved : Saved backend.prim before after (block.hash backend.prim) id
      (tree'.addNode id)) => saved) (fun _ _ holds => holds)
    fun after holds => Or.inr (a := Quiet backend.prim before after) holds
  refine .bind flushed fun _ => ?_
  intro chain ⟨beside, tree, blockCache, flushes, heights, here⟩
  refine ⟨{ beside with }, ⟨tree', tip, ?_⟩, blockCache, flushes, heights, here⟩
  rw [← tree]

theorem rollbackLedger_ensures {failed : Chain σ → Prop} :
    Ensures (fun after => Stepped prim before after tree heights) (rollbackLedger backend block)
      (fun _ after => Stepped prim before after tree heights) failed :=
  .ite (fun _ => .update fun _ stepped => stepped.setLedger _) fun _ => .pure _ fun _ stepped => stepped

theorem disconnectBlock_ensures {id parent : Nat} (pointer : before.parentOf id = some parent)
    (block : Block) (confirm : Option Confirm) :
    Ensures (Quiet backend.prim before) (disconnectBlock backend id block confirm)
      (fun _ after => Disconnected backend.prim before after (block.hash backend.prim) id block)
      (Quiet backend.prim before) := by
  refine .bind_this fun chain quiet => .bind_require (fun passed => ?_) ?_
  · have linked : Ensures (· = chain) (getPrevNodeFromNode backend id)
        (fun _ => Quiet backend.prim before) (Quiet backend.prim before) := by
      refine .bind_this fun chain' equal => ?_
      have some : (chain'.node id).parent = some parent := by
        rw [equal, quiet.tree]
        exact pointer
      rw [some]
      exact .pure _ fun state equal' => by rw [equal', equal]; exact quiet
    refine .bind linked fun _ => ?_
    refine .bind (rollbackBlock_ensures _ block id) fun _ => ?_
    refine .bind (rollbackLedger_ensures backend block) fun _ => ?_
    intro chain dropped
    let marked := { chain with toBlockTree := chain.toBlockTree.setInMainChain id false }
    let cached := { marked with
      blockCache := marked.blockCache.insert (marked.node id).hash block
      confirmCache := marked.confirmCache.insert (marked.node id).hash confirm }
    have same : BlockTree.SameShape before.toBlockTree marked.toBlockTree := by
      change BlockTree.SameShape _ (chain.toBlockTree.setInMainChain id false)
      rw [dropped.tree]
      exact .setInMainChain id false
    have final : Ensures (· = cached) (onTree (setTip (marked.node id).parent) >>= fun _ =>
          onTree (Method.update fun tree =>
            { tree with bestChain := (marked.node id).parent }))
        (fun _ after => Disconnected backend.prim before after (block.hash backend.prim) id block)
        (Quiet backend.prim before) := by
      refine .bind (onTree_setTip_run cached _) fun _ => ?_
      rintro state ⟨tree', run, rfl⟩
      have parent : (marked.node id).parent = before.parentOf id := same.parent id
      have hash : (marked.node id).hash = (before.node id).hash := same.hash id
      have start : cached.toBlockTree = before.toBlockTree.setInMainChain id false := by
        change chain.toBlockTree.setInMainChain id false = _
        rw [dropped.tree]
      rw [parent, start] at run
      refine ⟨{ dropped.beside with }, ⟨tree', run, ?_⟩, ?_, dropped.flushes, dropped.heights⟩
      · change { tree' with bestChain := (marked.node id).parent } = _
        rw [parent]
      · change chain.blockCache.insert (marked.node id).hash block = _
        rw [hash, dropped.blockCache]
    exact final cached rfl
  · rintro state - rfl
    exact quiet

end Connect
end Chain
end Elastos.Blockchain
