import Elastos.Blockchain.BlockValidator

/-! What an accepted transaction and an accepted block have passed: the checks taken apart once, for all
that is proved from them. -/
set_option autoImplicit false
namespace Elastos.Blockchain
open Go Common Elastos.Types Outcome List BlockChain

@[simp] theorem withCode_eq_ok {α : Type} (code : ErrCode) (check : Outcome String α)
    (result : α) : withCode code check = .ok result ↔ check = .ok result := by
  simp [withCode]

namespace BlockChain
variable {chain : BlockChain} {blockHeight : UInt32} {tx : Transaction}

structure Sane (chain : BlockChain) (blockHeight : UInt32) (tx : Transaction) : Prop where
  heightVersion : checkTxHeightVersion chain.chainParams tx blockHeight = .ok ()
  size : checkTransactionSize tx = .ok ()
  input : checkTransactionInput tx = .ok ()
  output : chain.checkTransactionOutput tx blockHeight = .ok ()
  attributeProgram : checkAttributeProgram chain.chainParams tx blockHeight = .ok ()
  payload : checkTransactionPayload tx = .ok ()
  sidechain : checkDuplicateSidechainTx tx = .ok ()

theorem checkTransactionSanity_sane {result : Unit}
    (accepted : chain.checkTransactionSanity blockHeight tx = .ok result) : Sane chain blockHeight tx := by
  simp only [checkTransactionSanity, then_eq_ok, withCode_eq_ok] at accepted
  obtain ⟨heightVersion, size, input, output, _, attributeProgram, payload, sidechain⟩ := accepted
  exact ⟨heightVersion, size, input, output, attributeProgram, payload, sidechain⟩

/-- The three kinds of transactions that the output check tells apart once the
coinbase is left aside. -/
theorem checkTransactionOutput_cases (notCoinbase : tx.txType ≠ .coinBase)
    (accepted : chain.checkTransactionOutput tx blockHeight = .ok ()) : (noCostType tx = true ∧ tx.outputs = []) ∨
      (tx.isNewSideChainPowTx = true ∧ ∃ output, tx.outputs = [output] ∧ output.value = 0 ∧ output.outputType = .none) ∨
      (noCostType tx = false ∧ tx.isNewSideChainPowTx = false ∧
        chain.checkOrdinaryOutputs tx blockHeight = .ok ()) := by
  have isOther : tx.isCoinBaseTx = false := by
    simp [Transaction.isCoinBaseTx, notCoinbase]
  rw [checkTransactionOutput, then_eq_ok] at accepted
  simp only [isOther, Bool.false_eq_true, if_false] at accepted
  obtain ⟨_, accepted⟩ := accepted
  split at accepted
  · rename_i noCost
    exact .inl ⟨noCost, by simpa using accepted⟩
  rename_i costs
  obtain ⟨_, _, accepted⟩ := bind_eq_ok.1 accepted
  split at accepted
  · rename_i isNew
    refine .inr (.inl ⟨isNew, ?_⟩)
    unfold checkNewSideChainPowOutput at accepted
    split at accepted
    · rename_i output shape
      simp only [then_eq_ok, require_eq_ok] at accepted
      exact ⟨output, shape, accepted⟩
    · simp at accepted
  · rename_i notNew
    exact .inr (.inr ⟨by simpa using costs, by simpa using notNew, accepted⟩)

structure OrdinaryOutput (chain : BlockChain) (blockHeight : UInt32) (tx : Transaction) (output : Output) : Prop where
  asset : output.assetID = chain.chainParams.elaAssetID
  nonneg : 0 ≤ output.value.toInt
  payload : txVersion09 ≤ tx.version → checkOutputPayload chain.prim tx.txType output = .ok ()

theorem checkOutput_ordinary {output : Output} (accepted : chain.checkOutput tx blockHeight output = .ok ()) :
    OrdinaryOutput chain blockHeight tx output := by
  simp only [checkOutput, then_eq_ok, require_eq_ok, reject_eq_ok] at accepted
  obtain ⟨asset, notNegative, _, payload⟩ := accepted
  refine ⟨asset, ?_, fun version => ?_⟩
  · rw [Int64.lt_iff_toInt_lt] at notNegative
    simpa using notNegative
  · simpa [version] using payload

theorem checkOrdinaryOutputs_ordinary (accepted : chain.checkOrdinaryOutputs tx blockHeight = .ok ()) :
    ∀ output ∈ tx.outputs, OrdinaryOutput chain blockHeight tx output := by
  simp only [checkOrdinaryOutputs, then_eq_ok] at accepted
  obtain ⟨_, _, looped, _⟩ := accepted
  intro output member
  exact checkOutput_ordinary ((forM_eq_ok _ _ _).1 looped output member)

theorem Sane.outputs_nonneg (sane : Sane chain blockHeight tx) (notCoinbase : tx.txType ≠ .coinBase) :
    ∀ value ∈ valuesOf tx.outputs, 0 ≤ value.toInt := by
  intro value member
  obtain ⟨output, outputMember, rfl⟩ := mem_map.1 member
  rcases checkTransactionOutput_cases notCoinbase sane.output with
    ⟨_, none⟩ | ⟨_, only, shape, zero, _⟩ | ⟨_, _, ordinary⟩
  · simp [none] at outputMember
  · rw [shape, mem_singleton] at outputMember
    rw [outputMember, zero]
    decide
  · exact (checkOrdinaryOutputs_ordinary ordinary output outputMember).nonneg

section Signatures

theorem runPrograms_each {data : Bytes} {programHashes : List Uint168} {programs : List Program}
    (passed : chain.runPrograms data programHashes programs = .ok ()) :
    ∀ hash ∈ programHashes, ∃ program ∈ programs, chain.runProgram data hash program = .ok () := by
  simp only [runPrograms, then_eq_ok, require_eq_ok, forM_eq_ok] at passed
  obtain ⟨sameLength, each⟩ := passed
  intro hash member
  obtain ⟨index, bound, rfl⟩ := getElem_of_mem member
  have inPrograms := sameLength ▸ bound
  refine ⟨programs[index], getElem_mem inPrograms, ?_⟩
  refine each (programHashes[index], programs[index]) (mem_iff_getElem.2 ?_)
  exact ⟨index, by simp [bound, inPrograms], by simp⟩

theorem checkTransactionSignature_each {references : References} {programs : List Program}
    (signed : tx.txType ≠ .crcProposalWithdraw)
    (passed : chain.checkTransactionSignature tx references = .ok programs) :
    ∀ entry ∈ references, ∃ program ∈ tx.programs,
      chain.runProgram tx.serializeUnsigned.bytes entry.2.programHash program = .ok () := by
  simp only [checkTransactionSignature, signed, if_false, getTxProgramHashes,
    bind_eq_ok, exists_unit, Except.ok.injEq] at passed
  obtain ⟨_, ⟨scriptHashes, _, rfl⟩, ran, _⟩ := passed
  intro entry member
  have hashMember : entry.2.programHash ∈ chain.sortProgramHashByCodeHash
      (chain.runtime.iterate (references.map (·.2.programHash) ++ scriptHashes).dedup) := by
    rw [sortProgramHashByCodeHash, (chain.runtime.sort_perm _ _).mem_iff,
      (chain.runtime.iterate_perm _).mem_iff, mem_dedup]
    exact mem_append_left _ (mem_map_of_mem member)
  obtain ⟨program, programMember, programRan⟩ := runPrograms_each ran _ hashMember
  exact ⟨program, (chain.runtime.sort_perm _ _).mem_iff.1 programMember, programRan⟩

end Signatures

section Context
variable {references : References} {proposalsUsedAmount : Fixed64}
  {checked : Transaction}

structure Spends (chain : BlockChain) (blockHeight : UInt32) (tx : Transaction) (references : References) : Prop where
  fee : chain.isSmallThanMinTransactionFee (getTransactionFee tx references) = false
  destruction : checkDestructionAddress references = .ok ()
  depositUTXO : checkTransactionDepositUTXO tx references = .ok ()
  depositOutputs : chain.checkTransactionDepositOutpus tx = .ok ()
  signature : ∃ programs, chain.checkTransactionSignature tx references = .ok programs
  invalidUTXO : chain.checkInvalidUTXO tx = .ok ()
  votes : txVersion09 ≤ tx.version → chain.checkVoteOutputs blockHeight tx.outputs references = .ok ()

theorem checkSpending_spends (accepted : chain.checkSpending blockHeight tx references = .ok checked) :
    Spends chain blockHeight tx references ∧ ∃ feePerKB programs, checked =
        { tx with fee := getTransactionFee tx references, feePerKB, programs } := by
  simp only [checkSpending, bind_eq_ok, exists_unit, withCode_eq_ok, when_eq_ok,
    checkTransactionFee, reject_eq_ok, Bool.not_eq_true, Except.ok.injEq] at accepted
  obtain ⟨_, ⟨enough, rfl⟩, destruction, depositUTXO, depositOutputs, programs, signed,
    invalidUTXO, votes, rfl⟩ := accepted
  exact ⟨⟨enough, destruction, depositUTXO, depositOutputs, ⟨programs, signed⟩, invalidUTXO, votes⟩, _, _, rfl⟩

/-- A transaction other than a coinbase passes the checks of its type, and then the
checks of spending unless its type ends the validation. -/
theorem checkTransactionContext_cases (notCoinbase : tx.txType ≠ .coinBase)
    (accepted : chain.checkTransactionContext blockHeight tx references proposalsUsedAmount = .ok checked) :
    (chain.checkType blockHeight tx references proposalsUsedAmount = .ok .done ∧ checked = tx) ∨
      (chain.checkType blockHeight tx references proposalsUsedAmount = .ok .continue ∧
        chain.checkSpending blockHeight tx references = .ok checked) := by
  have isOther : tx.isCoinBaseTx = false := by
    simp [Transaction.isCoinBaseTx, notCoinbase]
  simp only [checkTransactionContext, isOther, Bool.false_eq_true, if_false, bind_eq_ok, exists_unit] at accepted
  obtain ⟨_, _, _, verdict, typed, accepted⟩ := accepted
  cases verdict with
  | done => exact .inl ⟨typed, by simpa using accepted.symm⟩
  | «continue» => exact .inr ⟨typed, accepted⟩

theorem checkType_done (typed : chain.checkType blockHeight tx references proposalsUsedAmount = .ok .done) :
    noCostType tx = true ∨ tx.isNewSideChainPowTx = true ∨ tx.txType = .crcAppropriation ∧
        chain.checkCRCAppropriationTransaction tx references = .ok () := by
  unfold checkType at typed
  split at typed
  all_goals
    rename_i isType
    simp only [bind_eq_ok, exists_unit, withCode_eq_ok, Except.ok.injEq,
      reduceCtorEq, and_false, and_true, exists_false] at typed
  case h_7 =>
    obtain ⟨_, _, _, verdict⟩ := typed
    by_cases isNew : tx.isNewSideChainPowTx = true
    · exact .inr (.inl isNew)
    · simp [isNew] at verdict
  all_goals simp [noCostType, Transaction.isIllegalTypeTx, isType, typed]

end Context
end BlockChain

/-- A transaction other than the coinbase that passed both checks of a block, and as
they left it. -/
structure AcceptedTx (chain : BlockChain) (height : UInt32) (tx checked : Transaction) : Prop where
  notCoinbase : tx.txType ≠ .coinBase
  sane : BlockChain.Sane chain height tx
  context : ∃ references, chain.getTxReference tx = .ok references ∧
    chain.checkTransactionContext height tx references 0 = .ok checked

structure AcceptedBlock (chain : BlockChain) (block checked : Block) : Prop where
  header : checked.toHeader = block.toHeader
  transactions : ∃ coinbase rest checkedRest, block.transactions = coinbase :: rest ∧
    checked.transactions = coinbase :: checkedRest ∧
    coinbase.txType = .coinBase ∧ BlockChain.Sane chain block.height coinbase ∧
    List.Forall₂ (AcceptedTx chain block.height) rest checkedRest

variable {chain : BlockChain} {block checked : Block}
variable {α β : Type} {relation : α → β → Prop} {left : List α} {right : List β}

theorem forall₂_mem_left (all : List.Forall₂ relation left right) {item : α}
    (member : item ∈ left) : ∃ other ∈ right, relation item other := by
  induction all with
  | nil => simp at member
  | cons head _ ih =>
    rcases mem_cons.1 member with rfl | member
    · exact ⟨_, mem_cons_self, head⟩
    · obtain ⟨other, otherMember, related⟩ := ih member
      exact ⟨other, mem_cons_of_mem _ otherMember, related⟩

theorem forall₂_mem_right (all : List.Forall₂ relation left right) {item : β}
    (member : item ∈ right) : ∃ other ∈ left, relation other item :=
  forall₂_mem_left all.flip member

theorem AcceptedBlock.tx (accepted : AcceptedBlock chain block checked)
    {tx : Transaction} (member : tx ∈ block.transactions) (notCoinbase : tx.txType ≠ .coinBase) :
    ∃ checkedTx ∈ checked.transactions, AcceptedTx chain block.height tx checkedTx := by
  obtain ⟨coinbase, rest, checkedRest, shape, checkedShape, isCoinbase, _, all⟩ := accepted.transactions
  rw [shape] at member
  rw [checkedShape]
  rcases mem_cons.1 member with rfl | member
  · exact absurd isCoinbase notCoinbase
  · obtain ⟨checkedTx, checkedMember, passed⟩ := forall₂_mem_left all member
    exact ⟨checkedTx, mem_cons_of_mem _ checkedMember, passed⟩

variable (sanity : chain.checkBlockSanity block = .ok ())
include sanity

theorem checkBlockSanity_sane : ∀ tx ∈ block.transactions, BlockChain.Sane chain block.height tx := by
  simp only [checkBlockSanity, bind_eq_ok, exists_unit] at sanity
  obtain ⟨_, _, _, _, _, _, _, looped, _⟩ := sanity
  refine foldlM_forall (fun seen tx next step => ?_) looped
  simp only [checkBlockTransaction, bind_eq_ok, exists_unit, mapError_eq_ok] at step
  exact checkTransactionSanity_sane step.2.1

theorem checkBlockSanity_coinbase : ∃ coinbase rest, block.transactions = coinbase :: rest ∧
      coinbase.txType = .coinBase ∧ ∀ tx ∈ rest, tx.txType ≠ .coinBase := by
  simp only [checkBlockSanity, bind_eq_ok, exists_unit] at sanity
  obtain ⟨_, _, _, _, _, position, _⟩ := sanity
  unfold checkCoinbasePosition at position
  split at position
  · simp at position
  rename_i coinbase rest shape
  simp only [then_eq_ok, require_eq_ok, forM_eq_ok,
    reject_eq_ok, Transaction.isCoinBaseTx, decide_eq_true_eq] at position
  exact ⟨coinbase, rest, shape, position.1, position.2⟩

theorem checkBlock_accepted {node : BlockNode} (context : chain.checkBlockContext block (some node) = .ok checked) :
    AcceptedBlock chain block checked := by
  obtain ⟨coinbase, rest, shape, isCoinbase, others⟩ := checkBlockSanity_coinbase sanity
  have sane := checkBlockSanity_sane sanity
  simp only [checkBlockContext, bind_eq_ok, exists_unit, checkTxsContext, shape, Except.ok.injEq] at context
  obtain ⟨_, _, _, _, _, _, _, _, ⟨results, looped, _, rfl⟩, rfl⟩ := context
  refine ⟨rfl, coinbase, rest, results.map Prod.fst, shape, rfl, isCoinbase, sane coinbase (by simp [shape]), ?_⟩
  have members : ∀ tx ∈ rest, tx.txType ≠ .coinBase ∧ BlockChain.Sane chain block.height tx :=
    fun tx member => ⟨others tx member, sane tx (by simp [shape, member])⟩
  rw [forall₂_map_right_iff]
  refine List.Forall₂.imp ?_ ((forall₂_and_left _ _).2 ⟨members, mapM_eq_ok.1 looped⟩)
  rintro tx result ⟨⟨notCoinbase, isSane⟩, passed⟩
  simp only [checkTxContext, bind_eq_ok, mapError_eq_ok, Except.ok.injEq] at passed
  obtain ⟨references, found, checkedTx, contextOk, rfl⟩ := passed
  exact ⟨notCoinbase, isSane, references, found, contextOk⟩

end Elastos.Blockchain
