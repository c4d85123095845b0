import Elastos.Blockchain.Indexes

/-! What a chain of accepted blocks says about its hashes and its coinbases. The coinbase
is not looked up in the ledger and its lock time is not checked. -/
set_option autoImplicit false
namespace Elastos.Blockchain
open Go Config Crypto Elastos.Types Outcome List Transaction BlockChain Stand

section Hashes
variable {prim : Primitives} {params : Params} {genesis : Block} {steps : List IndexStep}
  {step : IndexStep} {height : UInt32} {indexes : Indexes}

/-- The coinbase of a block is new to the ledger, as the other transactions have to be. -/
def IndexStep.FreshCoinbase (step : IndexStep) : Prop :=
  ∀ tx ∈ step.checked.transactions, tx.txType = .coinBase →
    step.chain.isTxHashDuplicate (tx.hash step.chain.prim) = false

instance (step : IndexStep) : Decidable step.FreshCoinbase :=
  inferInstanceAs (Decidable (∀ tx ∈ _, _))

/-- Then all transactions of the block are. -/
theorem IndexStep.Extends.fresh (next : step.Extends prim params height indexes)
    (fresh : step.FreshCoinbase) {tx : Transaction} (member : tx ∈ step.checked.transactions) :
    indexes.transactions.lookup (tx.hash prim) = none := by
  have new : step.chain.isTxHashDuplicate (tx.hash step.chain.prim) = false := by
    by_cases coinbase : tx.txType = .coinBase
    · exact fresh tx member coinbase
    · obtain ⟨original, _, passed⟩ := next.accepted.checkedTx member coinbase
      exact passed.fresh
  rw [next.isTxHashDuplicate, next.prim] at new
  simpa using new

/-- In a chain whose coinbases are new to the ledger no two transactions have the same
hash, and no block finds an unspent entry under the hash of one of its transactions. -/
theorem hashes_unique (run : IndexRun prim params genesis steps height indexes)
    (fresh : ∀ step ∈ steps, step.FreshCoinbase) :
    ((chainTransactions genesis steps).map (hash prim)).Nodup ∧
      ∀ step ∈ steps, ∀ tx ∈ step.checked.transactions, step.before.unspents.lookup (tx.hash prim) = none := by
  induction run with
  | nil _ distinct _ =>
    refine ⟨?_, by simp⟩
    simpa [chainTransactions, chainBlocks] using distinct
  | @snoc steps step height indexes run next ih =>
    obtain ⟨nodup, unwritten⟩ := ih fun old member => fresh old (mem_append_left _ member)
    have lists := run.lists
    have new : ∀ tx ∈ step.checked.transactions, indexes.transactions.lookup (tx.hash prim) = none :=
      fun tx member => next.fresh (fresh step (by simp)) member
    have once : (step.checked.transactions.map (hash prim)).Nodup := by
      rw [← next.prim]
      exact (next.accepted.once next.sanity).1
    constructor
    · rw [chainTransactions_snoc, map_append]
      refine nodup_append.2 ⟨nodup, once, ?_⟩
      intro hash old hash' inBlock same
      subst same
      obtain ⟨tx, member, rfl⟩ := mem_map.1 inBlock
      obtain ⟨other, onChain, same⟩ := mem_map.1 old
      obtain ⟨block, blockMember, inside⟩ := mem_flatMap.1 onChain
      have known := lists.known block blockMember other inside
      rw [same, new tx member] at known
      cases known
    · intro other member tx inside
      rcases mem_append.1 member with old | last
      · exact unwritten other old tx inside
      rw [mem_singleton.1 last] at inside ⊢
      rw [next.before]
      cases entry : indexes.unspents.lookup (tx.hash prim) with
      | none => rfl
      | some values =>
        have known := lists.unspent (tx.hash prim) (by rw [entry]; rfl)
        rw [new tx inside] at known
        cases known

end Hashes

namespace SmallChain

theorem hashes_unique_small : ∃ steps height indexes,
    IndexRun primitives slowParams firstBlock steps height indexes ∧ steps.length = 2 ∧
    ((chainTransactions firstBlock steps).map (hash primitives)).Nodup := by
  have played : ((playOnFirst [blockOf 1 [lockedCoinbase 1 0], blockOf 2 [lockedCoinbase 2 0]]).any
      fun steps => decide (steps.length = 2 ∧ ∀ step ∈ steps, step.FreshCoinbase)) = true := by
    decide +kernel
  obtain ⟨steps, found, facts⟩ := (Option.any_eq_true _ _).1 played
  obtain ⟨length, fresh⟩ := of_decide_eq_true facts
  obtain ⟨height, indexes, run⟩ := playOnFirst_run found
  exact ⟨steps, height, indexes, run, length, (hashes_unique run fresh).1⟩

theorem coinbase_repeated : ¬ ∀ {steps : List IndexStep} {height : UInt32} {indexes : Indexes},
    IndexRun primitives slowParams firstBlock steps height indexes →
    ((chainTransactions firstBlock steps).map (hash primitives)).Nodup := by
  intro unique
  have played : ((playOnFirst [blockOf 1 [lockedCoinbase 7 0], blockOf 2 [lockedCoinbase 7 0]]).any
      fun steps => decide (¬ ((chainTransactions firstBlock steps).map (hash primitives)).Nodup)) = true := by
    decide +kernel
  obtain ⟨steps, found, repeated⟩ := (Option.any_eq_true _ _).1 played
  obtain ⟨height, indexes, run⟩ := playOnFirst_run found
  exact of_decide_eq_true repeated (unique run)

end SmallChain

section Maturity
variable {prim : Primitives} {params : Params} {genesis : Block} {steps : List IndexStep}
  {step : IndexStep} {height : UInt32} {indexes : Indexes} {chain : BlockChain}

/-- The lock time of a coinbase is the height of its block, or one less. -/
def DatedCoinbase (block : Block) : Prop :=
  ∀ tx ∈ block.transactions, tx.txType = .coinBase →
    tx.lockTime.toNat ≤ block.height.toNat ∧ block.height.toNat ≤ tx.lockTime.toNat + 1

instance (block : Block) : Decidable (DatedCoinbase block) :=
  inferInstanceAs (Decidable (∀ tx ∈ _, _))

/-- Transactions with the same hash have the same type and lock time. -/
def HashesIdentify (prim : Primitives) (txs : List Transaction) : Prop :=
  ∀ tx ∈ txs, ∀ other ∈ txs, tx.hash prim = other.hash prim → tx.txType = other.txType ∧ tx.lockTime = other.lockTime

instance (prim : Primitives) (txs : List Transaction) : Decidable (HashesIdentify prim txs) :=
  inferInstanceAs (Decidable (∀ tx ∈ _, _))

/-- The appropriations of a block also pass the check that their type skips. -/
def IndexStep.MatureAppropriations (step : IndexStep) : Prop :=
  ∀ tx ∈ step.block.transactions, tx.txType = .crcAppropriation → step.chain.checkInvalidUTXO tx = .ok ()

instance (step : IndexStep) : Decidable step.MatureAppropriations :=
  inferInstanceAs (Decidable (∀ tx ∈ _, _))

def SpendsOutputOf (prim : Primitives) (tx other : Transaction) : Prop :=
  ∃ input ∈ tx.inputs, input.previous.txID = other.hash prim ∧ input.previous.index.toNat < other.outputs.length

instance (prim : Primitives) (tx other : Transaction) : Decidable (SpendsOutputOf prim tx other) :=
  inferInstanceAs (Decidable (∃ input ∈ _, _))

/-- The other types that end their validation early have no inputs. -/
theorem AcceptedTx.checkInvalidUTXO {blockHeight : UInt32} {tx checkedTx : Transaction}
    (accepted : AcceptedTx chain blockHeight tx checkedTx)
    (appropriation : tx.txType = .crcAppropriation → chain.checkInvalidUTXO tx = .ok ()) :
    chain.checkInvalidUTXO tx = .ok () := by
  obtain ⟨references, _, context⟩ := accepted.context
  rcases checkTransactionContext_cases accepted.notCoinbase context with
    ⟨done, _⟩ | ⟨_, spending⟩
  · have free : noCostType tx = true ∨ tx.isNewSideChainPowTx = true → chain.checkInvalidUTXO tx = .ok () := by
      intro free
      have input := accepted.sane.input
      have isOther : tx.isCoinBaseTx = false := by
        simp [isCoinBaseTx, accepted.notCoinbase]
      have noInput : (noCostType tx || tx.isNewSideChainPowTx) = true := by
        rw [Bool.or_eq_true]
        exact free
      rw [checkTransactionInput, isOther, if_neg Bool.false_ne_true, if_pos noInput, require_eq_ok] at input
      rw [BlockChain.checkInvalidUTXO, length_eq_zero_iff.1 input]
      rfl
    rcases checkType_done done with noCost | isNew | ⟨isAppropriation, _⟩
    · exact free (.inl noCost)
    · exact free (.inr isNew)
    · exact appropriation isAppropriation
  · exact (checkSpending_spends spending).1.invalidUTXO

theorem checkInvalidUTXO_age {tx : Transaction} {input : Input}
    (passed : chain.checkInvalidUTXO tx = .ok ()) (member : input ∈ tx.inputs) :
    ∃ previous, chain.store.getTransaction input.previous.txID = .ok previous ∧ (previous.txType = .coinBase →
        chain.chainParams.coinbaseMaturity ≤ chain.getHeight - previous.lockTime) := by
  rw [checkInvalidUTXO, forM_eq_ok] at passed
  have checked := passed input member
  rw [bind_eq_ok] at checked
  obtain ⟨previous, fetched, checked⟩ := checked
  rw [getTransaction, mapError_eq_ok] at fetched
  refine ⟨previous, fetched, fun coinbase => ?_⟩
  have isCoinbase : previous.isCoinBaseTx = true := by
    simp [isCoinBaseTx, coinbase]
  rw [if_pos isCoinbase, reject_eq_ok] at checked
  exact UInt32.not_lt.1 checked

theorem AcceptedBlock.notCoinbase_of_spends {block checked : Block}
    (accepted : AcceptedBlock chain block checked) {tx other : Transaction}
    (member : tx ∈ checked.transactions) (counts : other.outputs.length ≤ 0xffff)
    (spends : SpendsOutputOf prim tx other) : tx.txType ≠ .coinBase := by
  intro isCoinbase
  obtain ⟨coinbase, rest, checkedRest, _, shape, _, sane, all⟩ := accepted.transactions
  rw [shape] at member
  rcases mem_cons.1 member with rfl | member
  · have inputOk := sane.input
    obtain ⟨input, inside, _, index⟩ := spends
    simp only [checkTransactionInput, isCoinBaseTx, isCoinbase, decide_true, if_true] at inputOk
    split at inputOk
    · rename_i only shape
      simp only [require_eq_ok] at inputOk
      rw [shape, mem_singleton] at inside
      rw [inside, inputOk.1] at index
      have top : nullOutPoint.index.toNat = 0xffff := rfl
      omega
    · cases inputOk
  · obtain ⟨original, _, passed⟩ := forall₂_mem_right all member
    obtain ⟨_, _, _, rfl⟩ := passed.body
    exact passed.notCoinbase isCoinbase

/-- In a chain whose coinbases carry their heights an output of a coinbase is spent only
when it has matured. -/
theorem coinbase_matures (run : IndexRun prim params genesis steps height indexes)
    (dated : ∀ block ∈ chainBlocks genesis steps, DatedCoinbase block)
    (identified : HashesIdentify prim (chainTransactions genesis steps))
    (mature : ∀ step ∈ steps, step.MatureAppropriations) : ∀ step ∈ steps, ∀ tx ∈ step.checked.transactions,
      ∀ block ∈ chainBlocks genesis steps, ∀ coinbase ∈ block.transactions,
        coinbase.txType = .coinBase → SpendsOutputOf prim tx coinbase →
        block.height.toNat + params.coinbaseMaturity.toNat ≤ step.block.height.toNat := by
  intro step member tx inside block onChain coinbase inBlock isCoinbase spends
  obtain ⟨earlier, later, tip, before, shape, prefix_, next⟩ := run.extends_of_mem member
  have inChain := mem_flatMap.2 ⟨block, onChain, inBlock⟩
  have notCoinbase := next.accepted.notCoinbase_of_spends inside (run.outputs_length coinbase inChain) spends
  obtain ⟨original, originalMember, passed⟩ := next.accepted.checkedTx inside notCoinbase
  obtain ⟨input, inputMember, sameHash, _⟩ := spends
  rw [passed.inputs] at inputMember
  -- the store finds some transaction under the hash of the coinbase
  obtain ⟨previous, fetched, aged⟩ := checkInvalidUTXO_age
    (passed.checkInvalidUTXO (mature step member original originalMember)) inputMember
  rw [next.fetchTx, next.before, Indexes.fetchTx, ofOption_eq_ok, Option.map_eq_some_iff] at fetched
  obtain ⟨entry, found, rfl⟩ := fetched
  obtain ⟨entryHash, older, olderMember, olderInside⟩ := prefix_.lists.found _ entry found
  have onChain' : older ∈ chainBlocks genesis steps := by
    rw [shape, chainBlocks, map_append]
    exact mem_cons.2 ((mem_cons.1 olderMember).imp_right (mem_append_left _))
  obtain ⟨sameType, sameLock⟩ := identified entry.1 (mem_flatMap.2 ⟨older, onChain', olderInside⟩) coinbase inChain
    (entryHash.trans sameHash)
  have aged := aged (sameType.trans isCoinbase)
  have dates := dated block onChain coinbase inBlock isCoinbase
  have olderDates := dated older onChain' entry.1 olderInside (sameType.trans isCoinbase)
  have olderHeight := prefix_.height_le older olderMember
  rw [next.params, next.tip, sameLock, UInt32.le_iff_toNat_le] at aged
  rw [sameLock] at olderDates
  rw [UInt32.toNat_sub_of_le _ _ (UInt32.le_iff_toNat_le.2 (by omega))] at aged
  rw [next.height]
  omega

end Maturity

namespace SmallChain

def spendCoinbase (previous : Transaction) : Transaction :=
  let value := (valuesOf previous.outputs).getLastD 0
  { spend .transferAsset .transferAsset previous [output (owner 5) (value - 100)] [signedBy 5] with
    inputs := [{
      previous := { txID := previous.hash primitives, index := 1 }
      sequence := 0xffffffff }] }

def idleBlocks (heights : List UInt32) : List Block :=
  heights.map fun height => blockOf height [lockedCoinbase height 0]

def spending (blocks : List Block) (height : UInt32) (previous : Transaction) : List Block :=
  blocks ++ [blockOf height [lockedCoinbase height 100, spendCoinbase previous]]

theorem coinbase_matures_small : ∃ steps height indexes step tx,
    IndexRun primitives slowParams firstBlock steps height indexes ∧ step ∈ steps ∧
      tx ∈ step.checked.transactions ∧ SpendsOutputOf primitives tx (lockedCoinbase 1 0) ∧
      1 + slowParams.coinbaseMaturity.toNat ≤ step.block.height.toNat := by
  have played : ((playOnFirst (spending (idleBlocks [1, 2, 3, 4]) 5 (lockedCoinbase 1 0))).any
      fun steps => decide ((∀ block ∈ chainBlocks firstBlock steps, DatedCoinbase block) ∧
        HashesIdentify primitives (chainTransactions firstBlock steps) ∧
        (∀ step ∈ steps, step.MatureAppropriations) ∧ (∃ block ∈ chainBlocks firstBlock steps,
          block.height = 1 ∧ lockedCoinbase 1 0 ∈ block.transactions) ∧
        ∃ step ∈ steps, ∃ tx ∈ step.checked.transactions,
          SpendsOutputOf primitives tx (lockedCoinbase 1 0))) = true := by
    decide +kernel
  obtain ⟨steps, found, facts⟩ := (Option.any_eq_true _ _).1 played
  obtain ⟨dated, identified, mature, ⟨block, onChain, first, inBlock⟩, step, member, tx, inside,
    spends⟩ := of_decide_eq_true facts
  obtain ⟨height, indexes, run⟩ := playOnFirst_run found
  refine ⟨steps, height, indexes, step, tx, run, member, inside, spends, ?_⟩
  have matured := coinbase_matures run dated identified mature step member tx inside block onChain
    (lockedCoinbase 1 0) inBlock rfl spends
  rw [first] at matured
  exact matured

/-- A coinbase with a lock time in the future is spent by the next block. -/
theorem coinbase_hastily_spent : ¬ ∀ {steps : List IndexStep} {height : UInt32}
    {indexes : Indexes}, IndexRun primitives slowParams firstBlock steps height indexes →
    ∀ step ∈ steps, ∀ tx ∈ step.checked.transactions,
      ∀ block ∈ chainBlocks firstBlock steps, ∀ coinbase ∈ block.transactions,
        coinbase.txType = .coinBase → SpendsOutputOf primitives tx coinbase →
        block.height.toNat + slowParams.coinbaseMaturity.toNat ≤ step.block.height.toNat := by
  intro matures
  have played : ((playOnFirst (spending [blockOf 1 [lockedCoinbase 9 0]] 2
      (lockedCoinbase 9 0))).any fun steps => decide (∃ step ∈ steps,
        ∃ tx ∈ step.checked.transactions, ∃ block ∈ chainBlocks firstBlock steps,
        ∃ coinbase ∈ block.transactions, coinbase.txType = .coinBase ∧ SpendsOutputOf primitives tx coinbase ∧
          step.block.height.toNat < block.height.toNat + slowParams.coinbaseMaturity.toNat)) = true := by
    decide +kernel
  obtain ⟨steps, found, facts⟩ := (Option.any_eq_true _ _).1 played
  obtain ⟨step, member, tx, inside, block, onChain, coinbase, inBlock, isCoinbase, spends, early⟩ :=
    of_decide_eq_true facts
  obtain ⟨height, indexes, run⟩ := playOnFirst_run found
  exact Nat.not_le.2 early (matures run step member tx inside block onChain coinbase inBlock isCoinbase spends)

end SmallChain

section Locks
variable {prim : Primitives} {params : Params} {genesis : Block} {steps : List IndexStep}
  {step : IndexStep} {height blockHeight : UInt32} {indexes : Indexes} {input : Input}

def Indexes.outputAt (indexes : Indexes) (point : OutPoint) : Option Output :=
  (indexes.transactions.lookup point.txID).bind fun entry => entry.1.outputs[point.index.toNat]?

/-- The sequence that a locked output asks for is not the one that ends all locks. -/
theorem lock_lt_of_final {tx : Transaction} {references : References} {output : Output}
    (inside : input ∈ tx.inputs) (referred : (input, output) ∈ references)
    (locked : output.outputLock ≠ 0) (passed : checkTransactionUTXOLock tx references = .ok ())
    (final : isFinalizedTransaction tx blockHeight = true) : output.outputLock < blockHeight := by
  rw [checkTransactionUTXOLock, forM_eq_ok] at passed
  have checked := passed (input, output) referred
  rw [if_neg locked, then_eq_ok, require_eq_ok, reject_eq_ok] at checked
  obtain ⟨sequence, late⟩ := checked
  have late := UInt32.not_lt.1 late
  obtain free | elapsed | maxed := of_decide_eq_true final
  · rw [free] at late
    exact absurd (UInt32.le_antisymm late (UInt32.zero_le)) locked
  · exact UInt32.lt_of_le_of_lt late elapsed
  · have other := maxed input inside
    rw [sequence] at other
    cases other

theorem checkBlockContext_final {chain : BlockChain} {block checked : Block} {node : BlockNode}
    (context : chain.checkBlockContext block (some node) = .ok checked) :
    ∀ tx ∈ block.transactions.tail, isFinalizedTransaction tx block.height = true := by
  simp only [checkBlockContext, bind_eq_ok, exists_unit, forM_eq_ok, require_eq_ok] at context
  obtain ⟨_, _, _, _, final, _⟩ := context
  exact final

theorem AcceptedTx.reference {tx checkedTx : Transaction} (next : step.Extends prim params height indexes)
    (accepted : AcceptedTx step.chain blockHeight tx checkedTx) (inside : input ∈ tx.inputs) :
    ∃ output references, step.before.outputAt input.previous = some output ∧
      (input, output) ∈ references ∧ checkTransactionUTXOLock tx references = .ok () := by
  obtain ⟨references, found, context⟩ := accepted.context
  have isOther : tx.isCoinBaseTx = false := by
    simp [isCoinBaseTx, accepted.notCoinbase]
  simp only [checkTransactionContext, isOther, Bool.false_eq_true, if_false,
    bind_eq_ok, exists_unit, withCode, mapError_eq_ok] at context
  obtain ⟨_, _, unlocked, _⟩ := context
  simp only [getTxReference, bind_eq_ok, Except.ok.injEq] at found
  obtain ⟨listed, mapped, rfl⟩ := found
  obtain ⟨entry, member, ok⟩ := forall₂_mem_left (mapM_eq_ok.1 mapped) inside
  simp only [getReference, getTransaction, next.fetchTx, Indexes.fetchTx,
    bind_eq_ok, mapError_eq_ok, ofOption_eq_ok, Option.map_eq_some_iff, Except.ok.injEq] at ok
  obtain ⟨_, ⟨stored, known, rfl⟩, output, there, rfl⟩ := ok
  refine ⟨output, _, ?_, (step.chain.runtime.iterate_perm _).mem_iff.2 member, unlocked⟩
  rw [Indexes.outputAt, known]
  exact there

/-- Along a chain every transaction but a coinbase spends outputs of transactions before it,
and none of these outputs is locked at the height of the block or above. -/
theorem outputLocks_hold (run : IndexRun prim params genesis steps height indexes) :
    ∀ step ∈ steps, ∀ tx ∈ step.checked.transactions, ∀ input ∈ tx.inputs,
      (∀ output, step.before.outputAt input.previous = some output →
        output.outputLock ≠ 0 → output.outputLock < step.block.height) ∧
      (tx.txType ≠ .coinBase → ∃ previous ∈ chainTransactions genesis steps,
        previous.hash prim = input.previous.txID ∧ ∃ output,
          previous.outputs[input.previous.index.toNat]? = some output ∧
          step.before.outputAt input.previous = some output) := by
  intro step member tx inTx input inside
  obtain ⟨earlier, later, tip, before, shape, prefix_, next⟩ := run.extends_of_mem member
  have onChain : ∀ output, step.before.outputAt input.previous = some output →
      ∃ previous ∈ chainTransactions genesis steps, previous.hash prim = input.previous.txID ∧
        previous.outputs[input.previous.index.toNat]? = some output := by
    intro output found
    obtain ⟨entry, known, there⟩ := Option.bind_eq_some_iff.1 found
    rw [next.before] at known
    obtain ⟨same, block, listed, holds⟩ := prefix_.lists.found _ entry known
    refine ⟨entry.1, mem_flatMap.2 ⟨block, ?_, holds⟩, same, there⟩
    rw [shape, chainBlocks, map_append]
    exact mem_cons.2 ((mem_cons.1 listed).imp_right (mem_append_left _))
  by_cases coinbase : tx.txType = .coinBase
  · refine ⟨fun output found => ?_, fun other => absurd coinbase other⟩
    obtain ⟨previous, listed, same, there⟩ := onChain output found
    have spends : SpendsOutputOf prim tx previous := ⟨input, inside, same.symm, (List.getElem?_eq_some_iff.1 there).1⟩
    exact absurd coinbase (next.accepted.notCoinbase_of_spends inTx (run.outputs_length previous listed) spends)
  obtain ⟨original, listed, passed⟩ := next.accepted.checkedTx inTx coinbase
  rw [passed.inputs] at inside
  obtain ⟨output, references, found, referred, unlocked⟩ := passed.reference next inside
  have final : isFinalizedTransaction original step.block.height = true := by
    apply checkBlockContext_final next.context
    obtain ⟨first, rest, _, blockShape, _, isCoinbase, _, _⟩ := next.accepted.transactions
    rw [blockShape] at listed ⊢
    obtain rfl | inRest := mem_cons.1 listed
    · exact absurd isCoinbase passed.notCoinbase
    · exact inRest
  refine ⟨fun other there locked => ?_, fun _ => ?_⟩
  · rw [found] at there
    cases there
    exact lock_lt_of_final inside referred locked unlocked final
  · obtain ⟨previous, onChain, same, there⟩ := onChain output found
    exact ⟨previous, onChain, same, output, there, found⟩

end Locks

namespace SmallChain

def locking : Transaction :=
  let tx := spendCoinbase (lockedCoinbase 1 0)
  { tx with outputs := tx.outputs.map fun output => { output with outputLock := 5 } }

def unlocking : Transaction :=
  let value := (valuesOf locking.outputs).headD 0
  { spend .transferAsset .transferAsset locking [output (owner 5) (value - 100)] [signedBy 5] with
    inputs := [{
      previous := { txID := locking.hash primitives, index := 0 }
      sequence := 0xfffffffe }]
    lockTime := 5 }

theorem outputLocks_hold_small : ∃ steps height indexes, ∃ step ∈ steps,
    ∃ tx ∈ step.checked.transactions, ∃ input ∈ tx.inputs, ∃ output,
      IndexRun primitives slowParams firstBlock steps height indexes ∧
        step.before.outputAt input.previous = some output ∧ output.outputLock ≠ 0 ∧
        output.outputLock < step.block.height := by
  have played : ((playOnFirst (idleBlocks [1, 2, 3, 4] ++
      [blockOf 5 [lockedCoinbase 5 100, locking], blockOf 6 [lockedCoinbase 6 100, unlocking]])).any
      fun steps => decide (∃ step ∈ steps, ∃ tx ∈ step.checked.transactions, ∃ input ∈ tx.inputs,
        ∃ output ∈ step.before.outputAt input.previous, output.outputLock ≠ 0)) = true := by
    decide +kernel
  obtain ⟨steps, found, facts⟩ := (Option.any_eq_true _ _).1 played
  obtain ⟨step, member, tx, inside, input, spends, output, there, locked⟩ := of_decide_eq_true facts
  obtain ⟨height, indexes, run⟩ := playOnFirst_run found
  exact ⟨steps, height, indexes, step, member, tx, inside, input, spends, output, run, there, locked,
    (outputLocks_hold run step member tx inside input spends).1 output there locked⟩

end SmallChain
end Elastos.Blockchain
