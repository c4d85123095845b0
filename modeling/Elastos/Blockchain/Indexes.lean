import Elastos.Blockchain.Utxo

/-! The indexes of the block store that the validators ask, and chains of blocks that are checked
against the indexes of the blocks before them. -/
set_option autoImplicit false
namespace Elastos.Blockchain
open Go Common Crypto Elastos.Types Outcome GoMap List Config

/-- `transactions` is the transaction index with the block heights, `unspents` the unspent
index. -/
structure Indexes where
  transactions : GoMap Uint256 (Transaction × UInt32)
  unspents : GoMap Uint256 (List UInt16)

namespace Indexes

def create : Indexes := { transactions := ∅, unspents := ∅ }

variable (indexes : Indexes) (hash : Uint256)

def fetchTx : Outcome String Transaction :=
  Outcome.ofOption "transaction not found" ((indexes.transactions.lookup hash).map Prod.fst)

/-- A missing entry is an empty one. -/
def fetchUnspent : Outcome String (List UInt16) :=
  .ok ((indexes.unspents.lookup hash).getD [])

/-- The first occurrence makes room for the last entry. -/
def takeIndex (index : UInt16) (values : List UInt16) : List UInt16 :=
  match values.idxOf? index, values.getLast? with
  | some position, some last => (values.set position last).dropLast
  | _, _ => values

section Connect
variable (prim : Primitives) (stored : GoMap Uint256 (List UInt16))
variable (unspents : GoMap Uint256 (List UInt16))

def spendInput (input : Input) : GoMap Uint256 (List UInt16) :=
  let hash := input.previous.txID
  let values := (unspents.lookup hash).getD ((stored.lookup hash).getD [])
  unspents.insert hash (takeIndex input.previous.index values)

def addOutputs (tx : Transaction) : GoMap Uint256 (List UInt16) :=
  if tx.outputs = [] then unspents
  else
    let hash := tx.hash prim
    unspents.insert hash ((unspents.lookup hash).getD [] ++ (List.range tx.outputs.length).map UInt16.ofNat)

/-- Assets that are registered do not enter the index. -/
def connectTx (tx : Transaction) : GoMap Uint256 (List UInt16) :=
  if tx.txType = .registerAsset then unspents
  else
    let entered := addOutputs prim unspents tx
    if tx.isCoinBaseTx then entered else tx.inputs.foldl (spendInput stored) entered

/-- Write an entry back. An empty one is removed, which fails when there is none. -/
def writeEntry (stored : GoMap Uint256 (List UInt16)) (entry : Uint256 × List UInt16) :
    Outcome String (GoMap Uint256 (List UInt16)) :=
  if entry.2 = [] then do
    .require (stored.lookup entry.1 ≠ none) "can't remove non-existent unspent item from the unspent index"
    .ok (stored.erase entry.1)
  else .ok (stored.insert entry.1 entry.2)

end Connect

def connectBlock (prim : Primitives) (runtime : Runtime) (indexes : Indexes) (block : Block) :
    Outcome String Indexes := do
  let unspents := block.transactions.foldl (connectTx prim indexes.unspents) ∅
  let written ← (runtime.iterate (GoMap.pairs unspents)).foldlM writeEntry indexes.unspents
  .ok {
    transactions := block.transactions.foldl
      (fun txs tx => txs.insert (tx.hash prim) (tx, block.height)) indexes.transactions
    unspents := written }

section Entries
variable {prim : Primitives} {stored unspents : GoMap Uint256 (List UInt16)}
  {txs : List Transaction} {hash : Uint256} {runtime : Runtime} {block : Block}

/-- Entries with outputs are of transactions of the block or were in the store. -/
def FromBlock (prim : Primitives) (stored : GoMap Uint256 (List UInt16))
    (txs : List Transaction) (unspents : GoMap Uint256 (List UInt16)) : Prop :=
  ∀ hash values, unspents.lookup hash = some values → values ≠ [] →
    hash ∈ txs.map (Transaction.hash prim) ∨ (stored.lookup hash).isSome = true

theorem FromBlock.spendInput (known : FromBlock prim stored txs unspents) (input : Input) :
    FromBlock prim stored txs (spendInput stored unspents input) := by
  intro hash values found some
  rw [Indexes.spendInput, lookup_insert_eq] at found
  split at found
  · rename_i same
    subst same
    cases found
    cases entry : unspents.lookup input.previous.txID with
    | some old =>
      refine known _ old entry fun none => some ?_
      rw [entry, none]
      rfl
    | none =>
      cases inStore : stored.lookup input.previous.txID with
      | some old => exact .inr rfl
      | none =>
        rw [entry, inStore] at some
        exact absurd rfl some
  · exact known hash values found some

theorem FromBlock.connectTx {tx : Transaction} (known : FromBlock prim stored txs unspents) :
    FromBlock prim stored (txs ++ [tx]) (connectTx prim stored unspents tx) := by
  have wider : FromBlock prim stored (txs ++ [tx]) unspents := by
    intro hash values found some
    rcases known hash values found some with inBlock | inStore
    · exact .inl (by rw [map_append]; exact mem_append_left _ inBlock)
    · exact .inr inStore
  have entered : FromBlock prim stored (txs ++ [tx]) (addOutputs prim unspents tx) := by
    unfold addOutputs
    split
    · exact wider
    intro hash values found some
    rw [lookup_insert_eq] at found
    split at found
    · rename_i same
      exact .inl (by simp [same])
    · exact wider hash values found some
  have spent : ∀ (inputs : List Input) (unspents : GoMap Uint256 (List UInt16)),
      FromBlock prim stored (txs ++ [tx]) unspents →
      FromBlock prim stored (txs ++ [tx]) (inputs.foldl (Indexes.spendInput stored) unspents) := by
    intro inputs
    induction inputs with
    | nil => exact fun _ known => known
    | cons input rest ih => exact fun _ known => ih _ (known.spendInput input)
  unfold Indexes.connectTx
  split
  · exact wider
  · split
    · exact entered
    · exact spent _ _ entered

theorem fromBlock_connect (txs : List Transaction) :
    FromBlock prim stored txs (txs.foldl (connectTx prim stored) ∅) := by
  induction txs using List.reverseRecOn with
  | nil =>
    intro hash values found
    cases found
  | append_singleton txs tx ih =>
    rw [foldl_append]
    exact ih.connectTx

theorem writeEntry_keys {entries : List (Uint256 × List UInt16)} {before after : GoMap Uint256 (List UInt16)}
    (written : entries.foldlM writeEntry before = .ok after) (found : (after.lookup hash).isSome = true) :
    (before.lookup hash).isSome = true ∨ ∃ values, (hash, values) ∈ entries ∧ values ≠ [] := by
  induction entries generalizing before with
  | nil =>
    cases written
    exact .inl found
  | cons entry rest ih =>
    rw [foldlM_cons, bind_eq_ok] at written
    obtain ⟨next, wrote, written⟩ := written
    rcases ih written with inNext | ⟨values, member, some⟩
    · unfold writeEntry at wrote
      split at wrote
      · simp only [then_eq_ok, Except.ok.injEq] at wrote
        obtain ⟨_, rfl⟩ := wrote
        rw [lookup_erase_eq] at inNext
        split at inNext
        · cases inNext
        · exact .inl inNext
      · rename_i some
        cases wrote
        rw [lookup_insert_eq] at inNext
        split at inNext
        · rename_i same
          refine .inr ⟨entry.2, ?_, some⟩
          rw [same]
          exact mem_cons_self
        · exact .inl inNext
    · exact .inr ⟨values, mem_cons_of_mem _ member, some⟩

theorem connectBlock_unspents {before after : Indexes} (connected : before.connectBlock prim runtime block = .ok after)
    (found : (after.unspents.lookup hash).isSome = true) : (before.unspents.lookup hash).isSome = true ∨
      hash ∈ block.transactions.map (Transaction.hash prim) := by
  simp only [connectBlock, bind_eq_ok, Except.ok.injEq] at connected
  obtain ⟨written, wrote, rfl⟩ := connected
  rcases writeEntry_keys wrote found with old | ⟨values, member, some⟩
  · exact .inl old
  have entry := mem_pairs_iff.1 ((runtime.iterate_perm _).mem_iff.1 member)
  rcases fromBlock_connect _ hash values entry some with inBlock | inStore
  · exact .inr inBlock
  · exact .inl inStore

/-- What the transaction index finds after some transactions were entered. -/
theorem insertAll_lookup (txs : List Transaction) (height : UInt32) :
    ∀ (start : GoMap Uint256 (Transaction × UInt32)) (hash : Uint256),
      (txs.foldl (fun map tx => map.insert (tx.hash prim) (tx, height)) start).lookup hash =
        (((txs.reverse.find? fun tx => tx.hash prim = hash).map fun tx => (tx, height)).or (start.lookup hash)) := by
  induction txs with
  | nil => exact fun _ _ => rfl
  | cons tx rest ih =>
    intro start hash
    rw [foldl_cons, ih, lookup_insert_eq, reverse_cons, find?_append]
    cases found : rest.reverse.find? fun tx => tx.hash prim = hash with
    | some other => simp
    | none =>
      by_cases same : tx.hash prim = hash
      · simp [same]
      · simp [same, Ne.symm same]

theorem connectBlock_transactions {before after : Indexes}
    (connected : before.connectBlock prim runtime block = .ok after) (hash : Uint256) :
    after.transactions.lookup hash = (((block.transactions.reverse.find? fun tx => tx.hash prim = hash).map
        fun tx => (tx, block.height)).or (before.transactions.lookup hash)) := by
  simp only [connectBlock, bind_eq_ok, Except.ok.injEq] at connected
  obtain ⟨_, _, rfl⟩ := connected
  exact insertAll_lookup _ _ _ _

end Entries
end Indexes

structure IndexStep where
  chain : BlockChain
  previous : BlockNode
  block : Block
  checked : Block
  before : Indexes
  after : Indexes

structure IndexStep.Extends (step : IndexStep) (prim : Primitives) (params : Params)
    (height : UInt32) (indexes : Indexes) : Prop where
  before : step.before = indexes
  prim : step.chain.prim = prim
  params : step.chain.chainParams = params
  fetchTx : step.chain.store.getTransaction = step.before.fetchTx
  fetchUnspent : step.chain.store.getUnspent = step.before.fetchUnspent
  tip : step.chain.getHeight = height
  height : step.block.height.toNat = height.toNat + 1
  sanity : step.chain.checkBlockSanity step.block = .ok ()
  context : step.chain.checkBlockContext step.block (some step.previous) = .ok step.checked
  connected : step.before.connectBlock step.chain.prim step.chain.runtime step.checked = .ok step.after

inductive IndexRun (prim : Primitives) (params : Params) (genesis : Block) :
    List IndexStep → UInt32 → Indexes → Prop where
  | nil {runtime : Runtime} {indexes : Indexes}
      (connected : Indexes.create.connectBlock prim runtime genesis = .ok indexes)
      (distinct : (genesis.transactions.map (Transaction.hash prim)).Nodup)
      (counts : ∀ tx ∈ genesis.transactions, tx.outputs.length ≤ 0xffff) :
      IndexRun prim params genesis [] genesis.height indexes
  | snoc {steps : List IndexStep} {step : IndexStep} {height : UInt32} {indexes : Indexes}
      (run : IndexRun prim params genesis steps height indexes)
      (next : step.Extends prim params height indexes) :
      IndexRun prim params genesis (steps ++ [step]) step.block.height step.after

variable (genesis : Block) (steps : List IndexStep)

def chainBlocks : List Block :=
  genesis :: steps.map IndexStep.checked

def chainTransactions : List Transaction :=
  (chainBlocks genesis steps).flatMap Block.transactions

section Run
variable {prim : Primitives} {params : Params} {genesis : Block} {steps : List IndexStep}
  {step : IndexStep} {height : UInt32} {indexes : Indexes}

theorem chainBlocks_snoc : chainBlocks genesis (steps ++ [step]) = chainBlocks genesis steps ++ [step.checked] := by
  simp [chainBlocks]

theorem chainTransactions_snoc : chainTransactions genesis (steps ++ [step]) =
      chainTransactions genesis steps ++ step.checked.transactions := by
  simp [chainTransactions, chainBlocks_snoc]

/-- The indexes know the transactions of a list of blocks and no others. -/
structure Indexes.Lists (prim : Primitives) (blocks : List Block) (indexes : Indexes) : Prop where
  found : ∀ hash entry, indexes.transactions.lookup hash = some entry →
    entry.1.hash prim = hash ∧ ∃ block ∈ blocks, entry.1 ∈ block.transactions
  known : ∀ block ∈ blocks, ∀ tx ∈ block.transactions, (indexes.transactions.lookup (tx.hash prim)).isSome = true
  unspent : ∀ hash, (indexes.unspents.lookup hash).isSome = true → (indexes.transactions.lookup hash).isSome = true

namespace Indexes.Lists

theorem create : Indexes.create.Lists prim [] where
  found hash entry found := by
    cases found
  known := by simp
  unspent hash found := by
    cases found

theorem connectBlock {blocks : List Block} {before after : Indexes} {runtime : Runtime}
    {block : Block} (lists : before.Lists prim blocks)
    (connected : before.connectBlock prim runtime block = .ok after) : after.Lists prim (blocks ++ [block]) := by
  have lookup := connectBlock_transactions connected
  have kept : ∀ hash, (before.transactions.lookup hash).isSome = true →
      (after.transactions.lookup hash).isSome = true := by
    intro hash old
    rw [lookup, Option.isSome_or, old, Bool.or_true]
  have entered : ∀ tx ∈ block.transactions, (after.transactions.lookup (tx.hash prim)).isSome = true := by
    intro tx member
    have some : (block.transactions.reverse.find? fun other =>
        other.hash prim = tx.hash prim).isSome = true := by
      rw [find?_isSome]
      exact ⟨tx, mem_reverse.2 member, by simp⟩
    rw [lookup, Option.isSome_or, Option.isSome_map, some, Bool.true_or]
  constructor
  · intro hash entry found
    rw [lookup] at found
    cases inBlock : block.transactions.reverse.find? fun tx => tx.hash prim = hash with
    | some tx =>
      rw [inBlock] at found
      cases found
      refine ⟨by simpa using find?_some inBlock, block, by simp, ?_⟩
      exact mem_reverse.1 (mem_of_find?_eq_some inBlock)
    | none =>
      rw [inBlock] at found
      obtain ⟨same, other, member, inside⟩ := lists.found hash entry found
      exact ⟨same, other, mem_append_left _ member, inside⟩
  · intro other member tx inside
    rcases mem_append.1 member with old | new
    · exact kept _ (lists.known other old tx inside)
    · rw [mem_singleton.1 new] at inside
      exact entered tx inside
  · intro hash found
    rcases connectBlock_unspents connected found with old | inBlock
    · exact kept hash (lists.unspent hash old)
    · obtain ⟨tx, member, rfl⟩ := mem_map.1 inBlock
      exact entered tx member

end Indexes.Lists

theorem IndexRun.lists (run : IndexRun prim params genesis steps height indexes) :
    indexes.Lists prim (chainBlocks genesis steps) := by
  induction run with
  | nil connected _ _ => exact Indexes.Lists.create.connectBlock connected
  | snoc run next ih =>
    obtain ⟨rfl, rfl, _, _, _, _, _, _, _, connected⟩ := next
    rw [chainBlocks_snoc]
    exact ih.connectBlock connected

theorem IndexStep.Extends.accepted (next : step.Extends prim params height indexes) :
    AcceptedBlock step.chain step.block step.checked :=
  checkBlock_accepted next.sanity next.context

section
variable (run : IndexRun prim params genesis steps height indexes)
include run

theorem IndexRun.height_le : ∀ block ∈ chainBlocks genesis steps, block.height.toNat ≤ height.toNat := by
  intro block member
  induction run with
  | nil _ _ _ => rw [mem_singleton.1 member]
  | snoc run next ih =>
    rw [chainBlocks_snoc] at member
    rcases mem_append.1 member with old | new
    · have := ih old
      rw [next.height]
      omega
    · rw [mem_singleton.1 new, next.accepted.header]

theorem IndexRun.outputs_length : ∀ tx ∈ chainTransactions genesis steps, tx.outputs.length ≤ 0xffff := by
  intro tx member
  induction run with
  | nil _ _ counts => exact counts tx (by simpa [chainTransactions, chainBlocks] using member)
  | snoc run next ih =>
    rw [chainTransactions_snoc] at member
    rcases mem_append.1 member with old | new
    · exact ih old
    · exact next.accepted.outputs_length new

theorem IndexRun.extends_of_mem (member : step ∈ steps) : ∃ earlier later tip before, steps = earlier ++ step :: later ∧
      IndexRun prim params genesis earlier tip before ∧ step.Extends prim params tip before := by
  induction run with
  | nil _ _ _ => cases member
  | @snoc steps last tip before run next ih =>
    rcases mem_append.1 member with old | new
    · obtain ⟨earlier, later, tip, before, shape, prefix_, extends_⟩ := ih old
      refine ⟨earlier, later ++ [last], tip, before, ?_, prefix_, extends_⟩
      rw [shape, append_assoc, cons_append]
    · rw [mem_singleton.1 new]
      exact ⟨steps, [], tip, before, rfl, run, next⟩

end

theorem IndexStep.Extends.isTxHashDuplicate (next : step.Extends prim params height indexes)
    (hash : Uint256) : step.chain.isTxHashDuplicate hash = (indexes.transactions.lookup hash).isSome := by
  rw [BlockChain.isTxHashDuplicate, next.fetchTx, next.before, Indexes.fetchTx]
  cases indexes.transactions.lookup hash with
  | none => rfl
  | some entry => rfl

theorem AcceptedTx.fresh {chain : BlockChain} {blockHeight : UInt32} {tx checkedTx : Transaction}
    (accepted : AcceptedTx chain blockHeight tx checkedTx) :
    chain.isTxHashDuplicate (checkedTx.hash chain.prim) = false := by
  obtain ⟨references, _, context⟩ := accepted.context
  simp only [BlockChain.checkTransactionContext, Outcome.then_eq_ok, Outcome.reject_eq_ok] at context
  rw [accepted.hash]
  simpa using context.1

end Run

section Replay

def tryIndexStep (chain : BlockChain) (previous : BlockNode) (indexes : Indexes) (block : Block) : Option IndexStep :=
  match chain.checkBlockSanity block, chain.checkBlockContext block (some previous) with
  | .ok (), .ok checked =>
    match indexes.connectBlock chain.prim chain.runtime checked with
    | .ok after => some { chain, previous, block, checked, before := indexes, after }
    | .error _ => none
  | _, _ => none

variable (chainAt : Indexes → UInt32 → BlockChain) (previous : BlockNode)

def playIndexed : UInt32 → Indexes → List Block → Option (List IndexStep × UInt32 × Indexes)
  | height, indexes, [] => some ([], height, indexes)
  | height, indexes, block :: blocks =>
    if block.height.toNat = height.toNat + 1 then do
      let step ← tryIndexStep (chainAt indexes height) previous indexes block
      let (steps, reached) ← playIndexed block.height step.after blocks
      some (step :: steps, reached)
    else
      none

structure ReadsIndexes (prim : Primitives) (params : Params) : Prop where
  prim : ∀ indexes height, (chainAt indexes height).prim = prim
  params : ∀ indexes height, (chainAt indexes height).chainParams = params
  fetchTx : ∀ indexes height, (chainAt indexes height).store.getTransaction = indexes.fetchTx
  fetchUnspent : ∀ indexes height, (chainAt indexes height).store.getUnspent = indexes.fetchUnspent
  tip : ∀ indexes height, (chainAt indexes height).getHeight = height

variable {chainAt previous} {prim : Primitives} {params : Params}

theorem tryIndexStep_extends (reads : ReadsIndexes chainAt prim params) {indexes : Indexes}
    {height : UInt32} {block : Block} {step : IndexStep} (next : block.height.toNat = height.toNat + 1)
    (found : tryIndexStep (chainAt indexes height) previous indexes block = some step) :
    step.Extends prim params height indexes ∧ step.block.height = block.height := by
  unfold tryIndexStep at found
  split at found
  case h_1 checked sanity context =>
    split at found
    case h_1 after connected =>
      cases found
      exact ⟨⟨rfl, reads.prim _ _, reads.params _ _, reads.fetchTx _ _, reads.fetchUnspent _ _,
        reads.tip _ _, next, sanity, context, connected⟩, rfl⟩
    case h_2 => cases found
  case h_2 => cases found

theorem playIndexed_run (reads : ReadsIndexes chainAt prim params) {genesis : Block} (blocks : List Block)
    {earlier steps : List IndexStep} {height last : UInt32} {indexes final : Indexes}
    (run : IndexRun prim params genesis earlier height indexes)
    (played : playIndexed chainAt previous height indexes blocks = some (steps, last, final)) :
    IndexRun prim params genesis (earlier ++ steps) last final := by
  induction blocks generalizing earlier steps height indexes with
  | nil =>
    cases played
    simpa using run
  | cons block blocks ih =>
    obtain ⟨next, step, rest, found, playedRest, rfl⟩ := played_cons played
    obtain ⟨extends_, sameHeight⟩ := tryIndexStep_extends reads next found
    rw [← sameHeight] at playedRest
    simpa using ih (run.snoc extends_) playedRest

end Replay

namespace SmallChain

def slowParams : Params := { electedParams with coinbaseMaturity := 3 }

def indexedChain (indexes : Indexes) (height : UInt32) : BlockChain :=
  { chain [] with
    store := {
      getTransaction := indexes.fetchTx
      getUnspent := indexes.fetchUnspent
      isTx3Exist _ := false
      utxoValues _ := .ok [] }
    arbitrators := { arbitrators with
      params := slowParams
      bestHeight := height } }

theorem indexedChain_reads : ReadsIndexes indexedChain Stand.primitives slowParams where
  prim _ _ := rfl
  params _ _ := rfl
  fetchTx _ _ := rfl
  fetchUnspent _ _ := rfl
  tip _ _ := rfl

def lockedCoinbase (lockTime : UInt32) (fees : Fixed64) : Transaction :=
  let totalReward := fees + params.rewardPerBlock
  coinbase lockTime [output foundation 160000000,
    output (owner 5) (totalReward - rewardDPOSArbiter totalReward - 160000000)]

def firstBlock : Block := blockOf 0 [lockedCoinbase 0 0]

def playOnFirst (blocks : List Block) : Option (List IndexStep) :=
  match Indexes.create.connectBlock Stand.primitives Runtime.insertion firstBlock with
  | .ok indexes =>
    (playIndexed indexedChain previousNode 0 indexes blocks).map fun result => result.1
  | .error _ => none

theorem playOnFirst_run {blocks : List Block} {steps : List IndexStep}
    (played : playOnFirst blocks = some steps) : ∃ height indexes,
      IndexRun Stand.primitives slowParams firstBlock steps height indexes := by
  unfold playOnFirst at played
  split at played
  · rename_i indexes connected
    obtain ⟨⟨found, height, final⟩, run, rfl⟩ := Option.map_eq_some_iff.1 played
    refine ⟨height, final, ?_⟩
    have start : IndexRun Stand.primitives slowParams firstBlock [] 0 indexes :=
      .nil connected (by decide +kernel) (by decide +kernel)
    exact playIndexed_run indexedChain_reads blocks start run
  · cases played

end SmallChain
end Elastos.Blockchain
