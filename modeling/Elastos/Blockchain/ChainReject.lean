import Elastos.Blockchain.ChainReach

/-! What a rejected block leaves behind. -/
set_option autoImplicit false
namespace Elastos.Blockchain
open Go Go.Method Common Elastos.Types Utils
namespace BlockTree

def SameView (tree tree' : BlockTree) : Prop :=
  tree'.nodes = tree.nodes ∧ tree'.bestChain = tree.bestChain

namespace SameView
variable {tree tree' : BlockTree}

theorem refl (tree : BlockTree) : SameView tree tree := ⟨rfl, rfl⟩

theorem trans {tree'' : BlockTree} (first : SameView tree tree') (second : SameView tree' tree'') :
    SameView tree tree'' :=
  ⟨second.1.trans first.1, second.2.trans first.2⟩

theorem foldl {α : Type} {change : BlockTree → α → BlockTree}
    (step : ∀ tree item, SameView tree (change tree item)) (items : List α) (tree : BlockTree) :
    SameView tree (items.foldl change tree) := by
  induction items generalizing tree with
  | nil => exact .refl tree
  | cons item rest ih => exact (step tree item).trans (ih _)

theorem addChildrenWork (work depth : Nat) (tree : BlockTree) (id : Nat) :
    SameView tree (addChildrenWork work depth tree id) := by
  induction depth generalizing tree id with
  | zero => exact .refl tree
  | succ depth ih =>
    refine SameView.foldl (fun tree child => ?_) _ tree
    exact SameView.trans ⟨rfl, rfl⟩ (ih (tree.addWork child work) child)

theorem adopt (id work : Nat) (tree : BlockTree) (child : Nat) : SameView tree (adopt id work tree child) := by
  have linked : SameView tree (((tree.setParent child (some id)).addChild id child).addWork child work) := ⟨rfl, rfl⟩
  exact linked.trans (addChildrenWork work _ _ child)

theorem removeDependent (tree : BlockTree) (id : Nat) : SameView tree (tree.removeDependent id) := by
  obtain ⟨depNodes, equal⟩ := @removeDependent_eq tree id
  rw [equal]
  exact ⟨rfl, rfl⟩

theorem loadBlockNode_keeps (header : Header) (hash : Uint256) : Keeps (SameView tree) (loadBlockNode header hash) := by
  refine .bind .this fun loaded => ?_
  have indexes : Keeps (SameView tree) (do
      Method.update fun tree =>
        (tree.addNode loaded.cells.length).addDependent header.previous loaded.cells.length
      pure loaded.cells.length : Method BlockTree BlockError Nat) :=
    .bind (.update fun _ same => same.trans ⟨rfl, rfl⟩) fun _ => .pure _
  cases loaded.index.lookup header.previous with
  | some parent =>
    refine .bind (.update fun other same => same.trans ⟨rfl, rfl⟩) fun _ => indexes
  | none =>
    cases loaded.depNodes.lookup hash with
    | some children =>
      refine .bind (.update fun other same => same.trans ?_) fun _ => indexes
      exact SameView.trans ⟨rfl, rfl⟩ (SameView.foldl (adopt _ _) _ _)
    | none =>
      cases loaded.root with
      | some root => exact .bind (.fail _) fun _ => indexes
      | none =>
        refine .bind (.update fun other same => same.trans ⟨rfl, rfl⟩) fun _ => indexes

theorem removeBlockNode_keeps (id : Nat) : Keeps (SameView tree) (removeBlockNode id) := by
  refine .bind .this fun _ => .bind (.require _ _) fun _ => ?_
  refine .bind (.update fun _ same => same.trans ⟨rfl, rfl⟩) fun _ => ?_
  refine .bind (.update fun other same => same.trans ?_) fun _ => ?_
  · exact SameView.foldl (fun tree child =>
      (⟨rfl, rfl⟩ : SameView tree (tree.setParent child none))) _ other
  refine .bind (.update fun _ same => same.trans ⟨rfl, rfl⟩) fun _ => ?_
  exact .update fun other same => same.trans (removeDependent other id)

theorem pruneBlockNodes_keeps : Keeps (SameView tree) pruneBlockNodes := by
  refine .bind .this fun pruned => ?_
  cases pruned.ancestor (minMemoryNodes - 1) pruned.bestChain with
  | none => exact .pure ()
  | some newRoot =>
    dsimp only
    cases (pruned.node newRoot).parent with
    | none => exact .pure ()
    | some oldest =>
      refine .bind (.forM _ removeBlockNode_keeps) fun _ => ?_
      exact .update fun _ same => same.trans ⟨rfl, rfl⟩

end SameView
end BlockTree

namespace Chain

section Reject
variable {σ : Type} {backend : Backend σ} {chain after made : Chain σ} {block : Block}
  {call : Call σ} {id : Nat} {calls : List (Call σ)}

structure Untouched (before after : Chain σ) : Prop where
  bestChain : after.bestChain = before.bestChain
  nodes : after.nodes = before.nodes
  heights : after.heights = before.heights
  ledger : after.ledger = before.ledger

def outline (chain : Chain σ) : Option Nat × List (Option Nat) × GoMap Uint256 UInt32 × σ × List Bool :=
  (chain.bestChain, chain.nodes, chain.heights, chain.ledger, chain.flushes)

/-- Nothing was touched and the store still answers in the same way about the index. -/
def Unmoved (before after : Chain σ) : Prop := after.outline = before.outline

section
variable (unmoved : Unmoved chain after)
include unmoved

theorem Unmoved.ledger : after.ledger = chain.ledger :=
  congrArg (·.2.2.2.1) unmoved

theorem Unmoved.flushes : after.flushes = chain.flushes :=
  congrArg (·.2.2.2.2) unmoved

theorem Unmoved.untouched : Untouched chain after :=
  ⟨congrArg (·.1) unmoved, congrArg (·.2.1) unmoved, congrArg (·.2.2.1) unmoved, unmoved.ledger⟩

end

theorem onTree_keeps {α : Type} {method : Method BlockTree BlockError α}
    (keeps : ∀ tree, Keeps (BlockTree.SameView tree) method) : Keeps (Unmoved chain) (onTree method) := by
  intro state unmoved
  have inner := keeps state.toBlockTree state.toBlockTree (.refl _)
  unfold onTree Method.part
  match run : method state.toBlockTree with
  | (.ok _, tree) | (.error (.error _), tree) =>
    rw [run] at inner
    change (tree.bestChain, tree.nodes, _) = _
    rw [inner.1, inner.2]
    exact unmoved
  | (.error (.panic text), tree) => exact trivial

theorem newNode_keeps (block : Block) : Keeps (Unmoved chain) (newNode backend block) := by
  have loads : Keeps (Unmoved chain) (getPrevNodeFromBlock block) := by
    refine .bind .this fun state => .ite (.pure _) ?_
    cases state.index.lookup block.previous with
    | some id => exact .pure _
    | none =>
      refine .bind (.bind (getBlock_keeps _) fun entry => ?_) fun _ => .pure _
      exact onTree_keeps fun tree => BlockTree.SameView.loadBlockNode_keeps _ _
  refine .bind loads fun prevNode => .bind .this fun _ => ?_
  refine .bind (.require _ _) fun _ => ?_
  refine .bind (onTree_keeps fun tree => BlockTree.SameView.pruneBlockNodes_keeps) fun _ => ?_
  refine .bind .this fun _ => .bind (onTree_keeps fun tree => ?_) fun _ =>
    .pure _
  exact .update fun _ same => same.trans ⟨rfl, rfl⟩

theorem write_unmoved : Keeps (Unmoved chain) (write : Method (Chain σ) BlockError Unit) :=
  write_keeps_of fun _ _ unmoved => unmoved

theorem storeBlock_unmoved (hash : Uint256) (block : Block) (confirm : Option Confirm) :
    Keeps (Unmoved chain) (storeBlock hash block confirm) := by
  refine .bind write_unmoved fun _ => .update fun state unmoved => ?_
  cases state.stored.lookup hash with
  | some _ | none => exact unmoved

theorem setLedger_unmoved {state : Chain σ} {change : σ → σ} (unmoved : Unmoved chain state)
    (same : change chain.ledger = chain.ledger) : Unmoved chain { state with ledger := change state.ledger } := by
  change (_, _, _, change state.ledger, _) = _
  rw [unmoved.ledger, same, ← unmoved.ledger]
  exact unmoved

section Connect
variable (backend : Backend σ) (id : Nat) (block : Block) (confirm : Option Confirm) (chain : Chain σ)

def contextCheck : Outcome BlockError Block :=
  (backend.view chain).checkBlockContext block ((chain.node id).parent.map (backend.previous chain.toBlockTree))

/-- The part of `connectBlock` that checks a block and saves it. -/
def saveConnected : Method (Chain σ) BlockError Block := do
  preProcessSpecialTx backend block
  let chain ← Method.this
  let checked ← lift (contextCheck backend id block chain)
  when (backend.params.crcOnlyDPOSHeight ≤ block.height)
    (checkBlockWithConfirmation backend checked confirm)
  let chain ← Method.this
  require (∀ best ∈ chain.bestChain, block.previous = (chain.node best).hash)
    (.text "connectBlock must be called with a block that extends the main chain")
  storeBlock (block.hash backend.prim) checked confirm
  saveBlock (block.hash backend.prim) checked id confirm
  pure checked

/-- Only the confirm of the block is refused. -/
def Unconfirmed : Prop :=
  (contextCheck backend id block chain).isOk = true ∧ backend.params.crcOnlyDPOSHeight ≤ block.height ∧
    ∃ given ∈ confirm, block.hash backend.prim = given.proposal.blockHash ∧
      (confirmContextCheck (backend.view chain).arbitrators given).isOk = false

instance : Decidable (Unconfirmed backend id block confirm chain) := by
  unfold Unconfirmed
  infer_instance

/-- A block that the chain can fail to connect without a trace: evidence that is applied
before the checks is refused or absent, rolling the ledger back from a refused confirm changes
nothing, and the index can be written if it comes to that. -/
@[mk_iff] structure Harmless : Prop where
  plain : (block.transactions.forM (backend.view chain).checkSpecialTx).isOk = true →
    payloadsOf block .illegalBlockEvidence = [] ∧ payloadsOf block .inactiveArbitrators = []
  confirmed : Unconfirmed backend id block confirm chain →
    backend.onRollbackTo (block.height - 1) chain.ledger = chain.ledger
  flushed : (saveConnected backend id block confirm chain).1.isOk = true → chain.flushes.head? ≠ some false

instance [DecidableEq σ] : Decidable (Harmless backend id block confirm chain) :=
  decidable_of_iff' _ (harmless_iff backend id block confirm chain)

end Connect

theorem setTip_flushes (id : Nat) : Ensures (·.flushes = chain.flushes) (onTree (BlockTree.setTip (some id)))
      (fun _ after => after.flushes = chain.flushes) (Unmoved chain) := by
  intro state same
  have run : Ensures _ _ _ (Unmoved chain) := onTree_setTip_run state (some id)
  refine Ensures.imp run (fun _ after holds => ?_) (fun _ unmoved => unmoved) state rfl
  obtain ⟨tree, -, rfl⟩ := holds
  exact same

theorem flushToDB_unmoved (first : chain.flushes.head? ≠ some false) :
    Ensures (·.flushes = chain.flushes) flushToDB (fun _ _ => True) (Unmoved chain) := by
  intro state same
  rw [← same] at first
  unfold flushToDB
  cases answers : state.flushes with
  | nil => exact trivial
  | cons answer rest =>
    rw [answers] at first
    cases answer with
    | true => exact trivial
    | false => exact absurd rfl first

variable {confirm : Option Confirm}

section
variable (harmless : Harmless backend id block confirm chain)
include harmless

theorem preProcessSpecialTx_unmoved :
    Ensures (· = chain) (preProcessSpecialTx backend block) (fun _ after => after = chain) (· = chain) := by
  refine .bind_this fun state equal => ?_
  subst equal
  refine .bind_lift (fun _ special => ?_) fun _ equal => equal
  have passed : (block.transactions.forM (backend.view state).checkSpecialTx).isOk = true := by
    cases checks : block.transactions.forM (backend.view state).checkSpecialTx with
    | ok _ => rfl
    | error fault =>
      rw [checks] at special
      cases fault <;> cases special
  rw [(harmless.plain passed).1, (harmless.plain passed).2]
  exact .pure () fun _ equal => equal

theorem checkBlockWithConfirmation_unmoved {checked : Block}
    (context : contextCheck backend id block chain = .ok checked)
    (due : backend.params.crcOnlyDPOSHeight ≤ block.height) :
    Ensures (· = chain) (checkBlockWithConfirmation backend checked confirm)
      (fun _ after => after = chain) (Unmoved chain) := by
  have header : checked.toHeader = block.toHeader := BlockChain.checkBlockContext_header context
  unfold checkBlockWithConfirmation
  cases confirm with
  | none => exact .crash _
  | some given =>
    refine .bind_require (fun own => .bind_this fun state equal => ?_) fun _ _ equal => equal ▸ rfl
    subst equal
    cases checks : confirmContextCheck (backend.view state).arbitrators given with
    | ok _ => exact .pure () fun _ equal => equal
    | error fault =>
      cases fault with
      | panic text => exact .crash _
      | error reason =>
        refine Ensures.bind_update (fun other equal => ?_) (Ensures.fail _ fun _ unmoved => unmoved)
        subst equal
        refine setLedger_unmoved rfl ?_
        rw [show checked.height = block.height from congrArg Header.height header]
        refine harmless.confirmed ⟨by rw [context]; rfl, due, given, rfl, ?_, by rw [checks]; rfl⟩
        rw [← own, Block.hash, Block.hash, header]

theorem saveConnected_unmoved : Ensures (· = chain) (saveConnected backend id block confirm)
      (fun _ after => after.flushes = chain.flushes) (Unmoved chain) := by
  have same : ∀ state, state = chain → Unmoved chain state := by
    rintro state rfl
    rfl
  refine .bind ((preProcessSpecialTx_unmoved harmless).imp (fun _ _ equal => equal) same) fun _ => ?_
  refine .bind_this fun state equal => ?_
  subst equal
  refine .bind_lift (fun checked context => ?_) same
  have confirms : Ensures (· = state) (when (backend.params.crcOnlyDPOSHeight ≤ block.height)
      (checkBlockWithConfirmation backend checked confirm)) (fun _ => Unmoved state) (Unmoved state) :=
    .ite (fun due => (checkBlockWithConfirmation_unmoved harmless context due).imp (fun _ => same) fun _ kept => kept)
      fun _ => .pure () same
  refine .bind confirms fun _ => ?_
  refine .bind Keeps.this fun _ => .bind (Keeps.require _ _) fun _ => ?_
  refine .bind (storeBlock_unmoved _ checked confirm) fun _ => ?_
  have saves : Ensures (Unmoved state) (saveBlock (block.hash backend.prim) checked id confirm)
      (fun _ after => after.flushes = state.flushes) (Unmoved state) := by
    refine .bind Keeps.this fun _ => .bind (Keeps.require _ _) fun _ => ?_
    refine .bind (storeBlock_unmoved _ checked confirm) fun _ => ?_
    exact .bind write_unmoved fun _ => .update fun _ unmoved => unmoved.flushes
  exact .bind saves fun _ => .pure checked fun _ kept => kept

/-- A block is connected or leaves no trace. -/
theorem connectBlock_unmoved :
    Ensures (· = chain) (connectBlock backend id block confirm) (fun _ _ => True) (Unmoved chain) := by
  have equal : connectBlock backend id block confirm = (do
      let checked ← saveConnected backend id block confirm
      onTree (update fun tree => tree.setInMainChain id true)
      onTree (BlockTree.setTip (some id))
      onTree (update fun tree => tree.addNode id)
      flushToDB
      onTree (update fun tree => { tree.addDependent block.previous id with bestChain := some id })
      pure checked) := by
    simp only [saveConnected, contextCheck, connectBlock, bind_assoc, pure_bind]
  rw [equal]
  refine .bind_run (fun checked saved run => ?_) fun reason after run =>
    (saveConnected_unmoved harmless).of_failed rfl run
  -- once the block is saved, nothing but the write of the index can fail
  have kept : saved.flushes = chain.flushes := (saveConnected_unmoved harmless).of_returned rfl run
  have flushes := flushToDB_unmoved (harmless.flushed (by rw [run]; rfl))
  have updates : ∀ change : BlockTree → BlockTree,
      Ensures (·.flushes = chain.flushes) (onTree (Method.update change))
        (fun _ after => after.flushes = chain.flushes) (Unmoved chain) :=
    fun change state same => same
  have rests : Ensures (·.flushes = chain.flushes) (do
      onTree (update fun tree => tree.setInMainChain id true)
      onTree (BlockTree.setTip (some id))
      onTree (update fun tree => tree.addNode id)
      flushToDB
      onTree (update fun tree => { tree.addDependent block.previous id with bestChain := some id })
      pure checked) (fun _ _ => True) (Unmoved chain) :=
    .bind (updates _) fun _ => .bind (setTip_flushes id) fun _ => .bind (updates _) fun _ =>
      .bind flushes fun _ _ _ => trivial
  rintro other rfl
  exact rests other kept

end

section Reorganize
variable (backend : Backend σ)

/-- Rolling the ledger back to the block before one of the main chain changes nothing. -/
def Settled (block : Block) (chain : Chain σ) : Prop :=
  backend.params.voteStartHeight ≤ block.height - 1 →
    backend.onRollbackTo (block.height - 1) chain.ledger = chain.ledger

instance [DecidableEq σ] (block : Block) (chain : Chain σ) : Decidable (Settled backend block chain) := by
  unfold Settled
  infer_instance

/-- The first block that would be detached, or attached where there is none to detach, is
refused without a trace. -/
def StopsAtOnce (detach attach : List Nat) (chain : Chain σ) : Prop :=
  (∀ first ∈ detach.head?, (detachBlock backend first chain).1.isOk = false ∧
    ∀ entry ∈ chain.stored.lookup (chain.node first).hash, Settled backend entry.1 chain) ∧
  (detach = [] → ∀ first ∈ attach.head?, (attachBlock backend first chain).1.isOk = false ∧
    ∀ block ∈ chain.blockCache.lookup (chain.node first).hash, Harmless backend first block
      ((chain.confirmCache.lookup (chain.node first).hash).getD none) chain)

instance [DecidableEq σ] (detach attach : List Nat) (chain : Chain σ) :
    Decidable (StopsAtOnce backend detach attach chain) := by
  unfold StopsAtOnce
  infer_instance

variable {backend}

theorem rollbackLedger_unmoved (settled : Settled backend block chain) :
    Keeps (Unmoved chain) (rollbackLedger backend block) :=
  Ensures.ite (fun due => .update fun _ unmoved => setLedger_unmoved unmoved (settled due)) fun _ => Keeps.pure ()

/-- A block is taken off the main chain or leaves no trace. -/
theorem detachBlock_unmoved (settled : ∀ entry ∈ chain.stored.lookup (chain.node id).hash,
      Settled backend entry.1 chain) :
    Ensures (· = chain) (detachBlock backend id) (fun _ _ => True) (Unmoved chain) := by
  refine .bind_this fun state equal => ?_
  subst equal
  have gets : Ensures (· = state) (getBlock (state.node id).hash)
      (fun entry after => Settled backend entry.1 state ∧ Unmoved state after) (Unmoved state) := by
    refine .bind_this fun other equal => ?_
    subst equal
    refine .lift (fun entry after found equal => ⟨settled entry (by simpa using found), equal ▸ rfl⟩) ?_
    rintro after rfl
    rfl
  refine .bind gets fun entry => ?_
  rintro other ⟨rolls, unmoved⟩
  have removes : Ensures (Unmoved state) (rollbackBlock (entry.1.hash backend.prim) entry.1 id)
      (fun _ _ => True) (Unmoved state) := by
    refine .bind (getBlock_keeps _) fun _ => .bind Keeps.this fun here => ?_
    cases (here.node id).parent with
    | none => exact .crash _
    | some parent =>
      exact .bind (getBlock_keeps _) fun _ => .bind write_unmoved fun _ => .update fun _ _ => trivial
  have previous : Keeps (Unmoved state) (getPrevNodeFromNode backend id) := by
    refine .bind .this fun here => ?_
    cases (here.node id).parent with
    | some parent => exact .pure _
    | none =>
      refine .ite (.pure _) (.bind (.bind (getBlock_keeps _) fun entry => ?_) fun _ => .pure _)
      exact onTree_keeps fun tree => BlockTree.SameView.loadBlockNode_keeps _ _
  have disconnects : Ensures (Unmoved state) (disconnectBlock backend id entry.1 entry.2)
      (fun _ _ => True) (Unmoved state) := by
    refine .bind Keeps.this fun _ => .bind (Keeps.require _ _) fun _ => .bind previous fun _ => ?_
    refine .bind removes fun _ => ?_
    -- the block is off the store and nothing fails any more
    have updates (change : BlockTree → BlockTree) : Ensures (fun _ => True) (onTree (Method.update change))
        (fun _ _ => True) (Unmoved state) := fun _ _ => trivial
    have tips (tip : Option Nat) : Ensures (fun _ => True) (onTree (BlockTree.setTip tip)) (fun _ _ => True)
        (Unmoved state) := fun here _ =>
      (onTree_setTip_run here tip).imp (fun _ _ _ => trivial) (fun _ kept => kept) here rfl
    have rolls : Ensures (fun _ => True) (rollbackLedger backend entry.1) (fun _ _ => True) (Unmoved state) :=
      .ite (fun _ => .update fun _ _ => trivial) fun _ => .pure () fun _ _ => trivial
    refine .bind rolls fun _ => .bind (updates _) fun _ => .bind_this fun _ _ => ?_
    exact .bind_update (fun _ _ => trivial) (.bind (tips _) fun _ => updates _)
  exact Ensures.bind (rollbackLedger_unmoved rolls) (fun _ => disconnects) other unmoved

theorem attachBlock_unmoved (harmless : ∀ block ∈ chain.blockCache.lookup (chain.node id).hash,
      Harmless backend id block ((chain.confirmCache.lookup (chain.node id).hash).getD none) chain) :
    Ensures (· = chain) (attachBlock backend id) (fun _ _ => True) (Unmoved chain) := by
  refine .bind_this fun state equal => ?_
  subst equal
  cases cached : state.blockCache.lookup (state.node id).hash with
  | none => exact .crash _
  | some block => exact .bind (connectBlock_unmoved (harmless block cached)) fun _ => .update fun _ _ => trivial

theorem reorganizeChain_stops {detach attach : List Nat} (stops : StopsAtOnce backend detach attach chain) :
    Ensures (· = chain) (reorganizeChain backend detach attach) (fun _ _ => True) (Unmoved chain) := by
  have never {step : Method (Chain σ) BlockError Unit} (refused : (step chain).1.isOk = false)
      (ensures : Ensures (· = chain) step (fun _ _ => True) (Unmoved chain)) :
      Ensures (· = chain) step (fun _ _ => False) (Unmoved chain) := by
    rintro state rfl
    have result := ensures state rfl
    match run : step state with
    | (.ok _, after) =>
      rw [run] at refused
      cases refused
    | (.error (.error _), after) | (.error (.panic _), after) =>
      rw [run] at result
      exact result
  refine .bind_this fun state equal => ?_
  subst equal
  refine .bind_require (fun _ => ?_) fun _ _ equal => equal ▸ rfl
  cases detach with
  | cons first rest =>
    obtain ⟨refused, settled⟩ := stops.1 first rfl
    have detaches : Ensures (· = state) ((first :: rest).forM (detachBlock backend)) (fun _ _ => False)
        (Unmoved state) :=
      .bind (never refused (detachBlock_unmoved settled)) fun _ _ impossible => impossible.elim
    exact .bind detaches fun _ _ impossible => impossible.elim
  | nil =>
    cases attach with
    | nil => exact fun _ _ => trivial
    | cons first rest =>
      obtain ⟨refused, harmless⟩ := stops.2 rfl first rfl
      have attaches : Ensures (· = state) ((first :: rest).forM (attachBlock backend)) (fun _ _ => True)
          (Unmoved state) :=
        .bind (never refused (attachBlock_unmoved harmless)) fun _ _ impossible => impossible.elim
      exact attaches

end Reorganize

def Continues (made : Chain σ) (id : Nat) : Prop :=
  ∀ best ∈ made.bestChain, ∃ parent ∈ made.parentOf id, (made.node parent).hash = (made.node best).hash

instance (id : Nat) : Decidable (Continues made id) := by
  unfold Continues
  infer_instance

def Aside (backend : Backend σ) (call : Call σ) : Prop :=
  ∀ found ∈ candidate backend call.block call.chain,
    ¬ Continues found.2 found.1 ∧ ¬ TakesOver backend call.block found.2 found.1

/-- A block of the branch that the chain would be reorganized to is not in the cache. -/
def BranchMissing (block : Block) (confirm : Option Confirm) (made : Chain σ) (id : Nat) : Prop :=
  ∃ parent ∈ made.parentOf id, ∃ node ∈ (made.getReorganizeNodes id).2,
    (made.withSide id parent block confirm).blockCache.lookup
      ((made.withSide id parent block confirm).node node).hash = none

def BranchStops (backend : Backend σ) (block : Block) (confirm : Option Confirm) (made : Chain σ) (id : Nat) : Prop :=
  ∃ parent ∈ made.parentOf id, StopsAtOnce backend (made.getReorganizeNodes id).1 (made.getReorganizeNodes id).2
    (made.withSide id parent block confirm)

/-- The block can be rejected without a trace: one that continues the main chain is
harmless, and the branch of one that takes over passes, is not even there or stops at once. -/
def Erasable (backend : Backend σ) (call : Call σ) : Prop :=
  ∀ found ∈ candidate backend call.block call.chain,
    (Continues found.2 found.1 → Harmless backend found.1 call.block call.confirm found.2 ∧
      backend.rollbackState call.block.height call.chain.ledger = call.chain.ledger) ∧
    (TakesOver backend call.block found.2 found.1 → BranchPasses backend call.block call.confirm found.2 found.1 ∨
      BranchMissing call.block call.confirm found.2 found.1 ∨
      BranchStops backend call.block call.confirm found.2 found.1)

theorem newNode_unflagged (block : Block) : Ensures (fun _ => True) (newNode backend block)
      (fun id made => (made.node id).inMainChain = false) (fun _ => True) := by
  have any : ∀ {α : Type} (method : Method (Chain σ) BlockError α),
      Ensures (fun _ => True) method (fun _ _ => True) (fun _ => True) := by
    intro α method state _
    match method state with
    | (.ok _, _) | (.error (.error _), _) | (.error (.panic _), _) => exact trivial
  refine .bind (any _) fun prevNode => .bind (any _) fun _ => ?_
  refine .bind (any _) fun _ => .bind (any _) fun _ => ?_
  refine .bind_this fun state _ => ?_
  rintro other rfl
  change ((other.toBlockTree.allocate _).node other.cells.length).inMainChain = false
  rw [BlockTree.node_allocate_new]
  cases prevNode <;> rfl

theorem extend_unmoved (harmless : Harmless backend id block confirm made)
    (settled : backend.rollbackState block.height chain.ledger = chain.ledger) (unmoved : Unmoved chain made)
    (parent : Option Nat) : Ensures (· = made) (connectBestChain.extend backend id block confirm parent)
      (fun _ _ => True) (Unmoved chain) := by
  rintro state rfl
  have connects := connectBlock_unmoved harmless state rfl
  unfold connectBestChain.extend
  match run : connectBlock backend id block confirm state with
  | (.ok _, after) => cases parent <;> exact trivial
  | (.error (.error reason), after) =>
    rw [run] at connects
    exact setLedger_unmoved (connects.trans unmoved) settled
  | (.error (.panic text), after) => exact trivial

theorem branch_unmoved {best parent : Nat} {confirm : Option Confirm}
    (unflagged : (made.node id).inMainChain = false) (tip : made.bestChain = some best)
    (pointer : made.parentOf id = some parent) (apart : (made.node parent).hash ≠ (made.node best).hash)
    (light : ¬ TakesOver backend block made id) (unmoved : Unmoved chain made) : Ensures (· = made)
      (connectBestChain.branch backend id block confirm best parent)
      (fun value state => value.2.1 = false ∧ Unmoved chain state) (Unmoved chain) := by
  have sided : Unmoved chain (made.withSide id parent block confirm) := unmoved
  have forks : (made.withSide id parent block confirm).getReorganizeNodes id = made.getReorganizeNodes id :=
    BlockTree.getReorganizeNodes_congr withSide_shape (withSide_flag unflagged) rfl id
  refine .bind addSideBlock_ensures fun _ => .bind_this fun side equal => ?_
  subst equal
  have done : ∀ state, state = made.withSide id parent block confirm → false = false ∧ Unmoved chain state := by
    rintro state rfl
    exact ⟨rfl, sided⟩
  refine .ite (fun _ => .pure _ done) fun heavy => ?_
  rw [withSide_work, withSide_work, Nat.not_le] at heavy
  rw [forks]
  refine .ite (fun _ => .pure _ done) fun allowed => ?_
  exact absurd ⟨best, tip, parent, pointer, apart, heavy, allowed⟩ light

/-- A block that neither continues the main chain nor takes over. -/
theorem connectBestChain_aside (unflagged : (made.node id).inMainChain = false) (aside : ¬ Continues made id)
    (light : ¬ TakesOver backend block made id) (unmoved : Unmoved chain made) :
    Ensures (· = made) (connectBestChain backend id block confirm)
      (fun value state => value.2.1 = false ∧ Unmoved chain state) (Unmoved chain) := by
  cases tip : made.bestChain with
  | none => exact absurd (fun best found => by rw [tip] at found; cases found) aside
  | some best =>
    cases pointer : made.parentOf id with
    | none =>
      rintro state rfl
      rw [connectBestChain_crash tip pointer]
      exact trivial
    | some parent =>
      have apart : (made.node parent).hash ≠ (made.node best).hash := by
        intro same
        refine aside fun best' found => ⟨parent, pointer, ?_⟩
        cases tip.symm.trans found
        exact same
      rintro state rfl
      rw [connectBestChain_split tip pointer, if_neg apart]
      exact branch_unmoved unflagged tip pointer apart light unmoved state rfl

theorem accept_aside (aside : Aside backend call) : Ensures (· = call.chain)
      (maybeAcceptBlock backend call.block call.confirm) (fun _ => Unmoved call.chain)
      (Unmoved call.chain) := by
  refine .bind_run (fun id made run => ?_) fun reason after run => ?_
  · have unmoved : Unmoved call.chain made :=
      (newNode_keeps call.block).of_returned rfl run
    have unflagged := (newNode_unflagged call.block).of_returned trivial run
    obtain ⟨apart, light⟩ := aside (id, made) (by rw [candidate, run]; rfl)
    refine .bind (connectBestChain_aside unflagged apart light unmoved) ?_
    rintro ⟨connected, _, reorganized⟩ state ⟨rfl, unmoved'⟩
    exact unmoved'
  · exact (newNode_keeps call.block).of_failed rfl run

/-- A block that continues the main chain, if there is one. -/
theorem connectBestChain_continues (continues : Continues made id) (harmless : Harmless backend id block confirm made)
    (settled : backend.rollbackState block.height chain.ledger = chain.ledger) (unmoved : Unmoved chain made) :
    Ensures (· = made) (connectBestChain backend id block confirm)
      (fun _ _ => True) (Unmoved chain) := by
  rintro state rfl
  cases tip : state.bestChain with
  | none =>
    have first : connectBestChain backend id block confirm state =
        connectBestChain.extend backend id block confirm (state.node id).parent state := by
      unfold connectBestChain
      rw [tip]
    rw [first]
    exact extend_unmoved harmless settled unmoved _ state rfl
  | some best =>
    obtain ⟨parent, pointer, follows⟩ := continues best tip
    rw [connectBestChain_split tip pointer, if_pos follows]
    exact extend_unmoved harmless settled unmoved _ state rfl

/-- A block that takes over, when its branch passes, is not there or stops at once. -/
theorem connectBestChain_overtakes (unflagged : (made.node id).inMainChain = false)
    (takesOver : TakesOver backend block made id) (passes : BranchPasses backend block confirm made id ∨
      BranchMissing block confirm made id ∨ BranchStops backend block confirm made id)
    (unmoved : Unmoved chain made) : Ensures (· = made) (connectBestChain backend id block confirm)
      (fun _ _ => True) (Unmoved chain) := by
  rintro state rfl
  obtain ⟨parent, pointer, equal⟩ := connectBestChain_takesOver unflagged takesOver
  rw [equal]
  have reorganizes : Ensures (· = state.withSide id parent block confirm)
      (reorganizeChain backend (state.getReorganizeNodes id).1 (state.getReorganizeNodes id).2)
      (fun _ _ => True) (Unmoved chain) := by
    rcases passes with passes | missing | ⟨parent', pointer', stops⟩
    · rintro other rfl
      have passed := passes parent pointer
      match run : reorganizeChain backend (state.getReorganizeNodes id).1
          (state.getReorganizeNodes id).2 (state.withSide id parent block confirm) with
      | (.ok _, after) => exact trivial
      | (.error _, after) =>
        rw [run] at passed
        cases passed
    · obtain ⟨parent', pointer', node, inside, absent⟩ := missing
      cases pointer.symm.trans pointer'
      refine .bind_this fun other equal => ?_
      subst equal
      refine .bind_require (fun whole => ?_) fun other _ equal => ?_
      · have present := whole node inside
        rw [absent] at present
        cases present
      · subst equal
        exact unmoved
    · cases pointer.symm.trans pointer'
      exact (reorganizeChain_stops stops).imp (fun _ _ _ => trivial) fun _ kept => kept.trans unmoved
  exact Ensures.bind reorganizes (fun _ _ _ => trivial) _ rfl

theorem accept_erasable (erasable : Erasable backend call) : Ensures (· = call.chain)
      (maybeAcceptBlock backend call.block call.confirm) (fun _ _ => True)
      (Unmoved call.chain) := by
  refine .bind_run (fun id made run => ?_) fun reason after run => ?_
  · have unmoved : Unmoved call.chain made :=
      (newNode_keeps call.block).of_returned rfl run
    have unflagged := (newNode_unflagged call.block).of_returned trivial run
    have found : candidate backend call.block call.chain = some (id, made) := by
      rw [candidate, run]
    obtain ⟨harmless, passes⟩ := erasable (id, made) found
    have connects : Ensures (· = made)
        (connectBestChain backend id call.block call.confirm) (fun _ _ => True)
        (Unmoved call.chain) := by
      by_cases continues : Continues made id
      · exact connectBestChain_continues continues (harmless continues).1 (harmless continues).2 unmoved
      by_cases takesOver : TakesOver backend call.block made id
      · exact connectBestChain_overtakes unflagged takesOver (passes takesOver) unmoved
      · exact (connectBestChain_aside unflagged continues takesOver unmoved).imp (fun _ _ _ => trivial)
          fun _ kept => kept
    refine .bind connects ?_
    rintro ⟨connected, inMainChain, reorganized⟩ state -
    cases inMainChain <;> cases reorganized <;> exact trivial
  · exact (newNode_keeps call.block).of_failed rfl run

/-- Every block of a call but the last goes to a side chain, and the last one can be
rejected without a trace. -/
def Revocable (backend : Backend σ) (calls : List (Call σ)) : Prop :=
  (∀ call ∈ calls.dropLast, Aside backend call) ∧ ∀ call ∈ calls.getLast?, Erasable backend call

theorem Revocable.tail (revocable : Revocable backend (call :: calls)) :
    Revocable backend calls ∧ (calls ≠ [] → Aside backend call) := by
  cases calls with
  | nil => exact ⟨⟨by simp, by simp⟩, fun some => absurd rfl some⟩
  | cons next rest =>
    refine ⟨⟨fun other inside => revocable.1 other ?_, fun other last => revocable.2 other ?_⟩,
      fun _ => revocable.1 call (by simp)⟩
    · rw [List.dropLast_cons_cons]
      exact List.mem_cons_of_mem _ inside
    · rw [List.getLast?_cons_cons]
      exact last

/-- The calls that come after one that was accepted: if there are any and the last one
fails, the first went to a side chain. -/
theorem Revocable.after_accepted {value : Bool} (revocable : Revocable backend (call :: calls))
    (run : maybeAcceptBlock backend call.block call.confirm call.chain = (.ok value, after))
    {next final : Chain σ} (same : Unmoved after next) (failed : calls ≠ [] ∧ Unmoved next final) :
    Unmoved call.chain final := by
  have first : Unmoved call.chain after := (accept_aside (revocable.tail.2 failed.1)).of_returned rfl run
  exact failed.2.trans (same.trans first)

theorem processOrphansIn_unmoved (rounds : Nat) {queue : List Uint256}
    (revocable : Revocable backend (releases backend rounds queue chain)) :
    Ensures (· = chain) (processOrphansIn backend rounds queue) (fun _ _ => True)
      (fun final => releases backend rounds queue chain ≠ [] ∧ Unmoved chain final) := by
  induction rounds generalizing queue chain with
  | zero => exact fun _ _ => trivial
  | succ rounds ih =>
    cases queue with
    | nil => exact fun _ _ => trivial
    | cons hash queue =>
      refine .bind_this fun state equal => ?_
      subst equal
      cases list : (state.prevOrphans.lookup hash).getD [] with
      | nil =>
        simp only [releases, list] at revocable ⊢
        exact ih revocable
      | cons orphan others =>
        simp only [releases, list] at revocable ⊢
        refine .bind_run (fun value after run => ?_) fun reason after run => ?_
        · rw [run] at revocable
          refine .bind_update ?_ (.imp (ih revocable.tail.1) (fun _ _ _ => trivial) fun final failed =>
              ⟨by simp, revocable.after_accepted run rfl failed⟩)
          rintro other rfl
          rfl
        · rw [run] at revocable
          exact ⟨by simp, (accept_erasable (revocable.2 _ rfl)).of_failed rfl run⟩

theorem addOrphanBlock_returns (now : Nat) (block : Block) :
    Ensures (fun _ => True) (addOrphanBlock backend now block) (fun _ _ => True) (fun _ => False) := by
  refine .bind_update (fun _ _ => trivial) (.bind_this fun state _ => ?_ : Ensures (fun _ => True) _ _ _)
  refine .bind (show Ensures (· = state) _ (fun _ _ => True)
    (fun _ => False) from ?_) fun _ => .update fun _ _ => trivial
  refine .ite (fun _ => ?_) fun _ => .pure () fun _ _ => trivial
  cases state.oldestOrphan with
  | none => exact .crash _
  | some oldest => exact .update fun _ _ => trivial

/-- A rejected block leaves no trace on the main chain and in the ledger, if the blocks
that were accepted before it in the same call went to side chains and it can itself be
rejected without one. -/
theorem rejected_untouched {now : Nat} {block : Block} {confirm : Option Confirm}
    {reason : BlockError} (revocable : Revocable backend (acceptances backend block confirm chain))
    (run : processBlock backend now block confirm chain = (.error (.error reason), after)) : Untouched chain after := by
  have ensures : Ensures (· = chain) (processBlock backend now block confirm)
      (fun _ _ => True) (Unmoved chain) := by
    have same : ∀ state, state = chain → Unmoved chain state := by
      rintro state rfl
      rfl
    refine .bind_this fun state equal => ?_
    subst equal
    refine .bind_lift (fun exists_ found => ?_) same
    refine .bind_require (fun absent => ?_) fun state _ => same state
    subst absent
    refine .ite (fun _ _ _ => trivial) fun noOrphan => ?_
    have absent : state.orphans.lookup (block.hash backend.prim) = none := by
      simpa using noOrphan
    refine .bind_lift (fun _ sane => ?_) same
    refine .bind_lift (fun answer parent => ?_) same
    refine .ite (fun no => ?_) fun yes => ?_
    · have adds : Ensures (· = state) (addOrphanBlock backend now block)
          (fun _ _ => True) (Unmoved state) :=
        .weaken (addOrphanBlock_returns now block) (fun _ _ => trivial)
          (fun _ _ _ => trivial) fun _ impossible => impossible.elim
      exact .bind adds fun _ _ _ => trivial
    · have admitted : admits backend block state = true := by
        have there : answer = true := by simpa using yes
        simp [admits, found, absent, sane, parent, there, Except.isOk, Except.toBool]
      rw [acceptances, if_pos admitted] at revocable
      refine .bind_run (fun inMainChain after accepted => ?_) fun reason after failed => ?_
      · rw [accepted] at revocable
        have releases' : Ensures (· = after)
            (processOrphans backend (block.hash backend.prim)) (fun _ _ => True)
            (Unmoved state) := by
          refine .bind_this fun other equal => ?_
          subst equal
          exact .imp (processOrphansIn_unmoved _ revocable.tail.1) (fun _ _ _ => trivial) fun final failed =>
              revocable.after_accepted accepted rfl failed
        exact .bind releases' fun _ _ _ => trivial
      · rw [failed] at revocable
        exact (accept_erasable (revocable.2 _ rfl)).of_failed rfl failed
  exact (ensures.of_failed rfl run).untouched

end Reject

section Small

open SmallTree

instance (block : Block) (confirm : Option Confirm) (made : Chain Unit) (id : Nat) :
    Decidable (BranchMissing block confirm made id) := by
  unfold BranchMissing
  infer_instance

instance (block : Block) (confirm : Option Confirm) (made : Chain Unit) (id : Nat) :
    Decidable (BranchStops backend block confirm made id) := by
  unfold BranchStops
  infer_instance

instance (call : Call Unit) : Decidable (Aside backend call) := by
  unfold Aside
  infer_instance

instance (call : Call Unit) : Decidable (Erasable backend call) := by
  unfold Erasable
  infer_instance

instance (calls : List (Call Unit)) : Decidable (Revocable backend calls) := by
  unfold Revocable
  infer_instance

def unconfirmed (block : Block) : Option Confirm := some { confirmOf block with votes := [] }

def rejects (block : Block) (confirm : Option Confirm) (chain : Chain Unit) : Option (Chain Unit) :=
  match processBlock backend 0 block confirm chain with
  | (.error (.error _), after) => some after
  | _ => none

theorem rejects_eq_some {block : Block} {confirm : Option Confirm} {chain after : Chain Unit}
    (rejected : rejects block confirm chain = some after) :
    ∃ reason, processBlock backend 0 block confirm chain = (.error (.error reason), after) := by
  unfold rejects at rejected
  match run : processBlock backend 0 block confirm chain with
  | (.error (.error reason), final) =>
    rw [run] at rejected
    cases rejected
    exact ⟨reason, rfl⟩
  | (.ok _, final) | (.error (.panic _), final) =>
    rw [run] at rejected
    cases rejected

def slowBlocks : List Block := chainOf genesisBlock [] [240, 480, 720]

def quickBranch : List Block := chainOf genesisBlock [] [10, 20, 30]

/-- The chain after some blocks, whether they are accepted or not. -/
def receive (given : List (Block × Option Confirm)) : Chain Unit :=
  given.foldl (fun chain item => (processBlock backend 0 item.1 item.2 chain).2) (create backend [] [] ())

def confirmed (blocks : List Block) : List (Block × Option Confirm) :=
  blocks.map fun block => (block, some (confirmOf block))

/-- A block of a side branch, with an orphan of a wrong height that waits for it. -/
def releasing : Chain Unit :=
  receive (confirmed slowBlocks ++ [({ quickBranch.getD 1 genesisBlock with height := 7 }, none)])

/-- A branch that has failed at its first block, which had no votes. -/
def stranded : Chain Unit :=
  receive (confirmed slowBlocks ++ [(quickBranch.getD 0 genesisBlock, unconfirmed (quickBranch.getD 0 genesisBlock)),
    (quickBranch.getD 1 genesisBlock, some (confirmOf (quickBranch.getD 1 genesisBlock)))])

def NoTrace (chain : Chain Unit) (block : Block) (confirm : Option Confirm) : Prop :=
  ∃ reason after, processBlock backend 0 block confirm chain = (.error (.error reason), after) ∧ Untouched chain after

/-- A block without votes on the tip, a side block whose orphan is rejected, and a block that
takes over where nothing has to be detached. -/
theorem rejected_untouched_small :
    NoTrace (receive (confirmed (slowBlocks.take 2))) (slowBlocks.getD 2 genesisBlock)
        (unconfirmed (slowBlocks.getD 2 genesisBlock)) ∧
      NoTrace releasing (quickBranch.getD 0 genesisBlock) (some (confirmOf (quickBranch.getD 0 genesisBlock))) ∧
      NoTrace stranded (quickBranch.getD 2 genesisBlock) (some (confirmOf (quickBranch.getD 2 genesisBlock))) := by
  have applies {chain : Chain Unit} {block : Block} {confirm : Option Confirm}
      (meets : decide (Revocable backend (acceptances backend block confirm chain) ∧
        (rejects block confirm chain).isSome = true) = true) : NoTrace chain block confirm := by
    obtain ⟨revocable, run⟩ := of_decide_eq_true meets
    obtain ⟨after, rejected⟩ := Option.isSome_iff_exists.1 run
    obtain ⟨reason, failed⟩ := rejects_eq_some rejected
    exact ⟨reason, after, failed, rejected_untouched revocable failed⟩
  exact ⟨applies (by decide +kernel), applies (by decide +kernel), applies (by decide +kernel)⟩

/-- Three blocks are taken off the main chain before a heavier one without votes is
rejected. -/
theorem rejected_detached : ¬ ∀ {chain after : Chain Unit} {block : Block}
    {confirm : Option Confirm} {reason : BlockError},
    Reaches backend (fun _ => True) (fun _ _ => True) (create backend [] [] ()) chain →
    processBlock backend 0 block confirm chain = (.error (.error reason), after) → Untouched chain after := by
  intro untouched
  obtain ⟨chain, reached, after, rejected, differs⟩ := reaches_of (fun _ => True) (fun _ _ => True)
    (slowBlocks ++ quickBranch.take 1) (create backend [] [] ())
    (fun chain => ∃ after ∈ rejects (quickBranch.getD 1 genesisBlock)
      (unconfirmed (quickBranch.getD 1 genesisBlock)) chain, after.bestChain ≠ chain.bestChain)
    (by decide +kernel)
  obtain ⟨reason, failed⟩ := rejects_eq_some rejected
  exact differs (untouched reached failed).bestChain

end Small
end Chain
end Elastos.Blockchain
