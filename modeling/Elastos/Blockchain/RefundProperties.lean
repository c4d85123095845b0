import Elastos.Blockchain.SmallChain
import Elastos.Blockchain.TxProperties

/-! How much of a deposit the refunds of one block take out. Each refund is checked against the deposit
as it was before the block. -/
set_option autoImplicit false
namespace Elastos.Blockchain
open Go Common Elastos.Types Outcome GoMap List Crypto Elastos.Core BlockChain

def addressOf (prefixType : UInt8) (codeHash : Uint160) : Uint168 where
  bytes := prefixType :: codeHash.bytes
  size_eq := by simp [codeHash.size_eq]

/-- The values that a transaction spends from an address, and those it pays back. -/
def BlockChain.takenFrom (chain : BlockChain) (address : Uint168) (tx : Transaction) : List Fixed64 :=
  match chain.getTxReference tx with
  | .ok references => References.values
      (references.filter fun entry => entry.2.programHash = address)
  | .error _ => []

variable (address : Uint168) (tx : Transaction)

def givenBack : List Fixed64 :=
  valuesOf (tx.outputs.filter fun output => output.programHash = address)

theorem changeValue_eq :
    changeValue tx address = wrappedSum (givenBack address tx) := rfl

namespace BlockChain
variable (chain : BlockChain) (block : Block) (txType : TxType) (address : Uint168)

def refunds : List Transaction :=
  block.transactions.filter fun tx => tx.txType = txType ∧ chain.takenFrom address tx ≠ []

def refundValue (tx : Transaction) : Int :=
  exactSum (chain.takenFrom address tx) - exactSum (givenBack address tx)

def totalRefund : Int :=
  ((chain.refunds block txType address).map (chain.refundValue address)).sum

end BlockChain

/-- At most one refund of a block spends from an address, and its totals are amounts. -/
structure SingleRefund (chain : BlockChain) (block : Block) (txType : TxType) (address : Uint168) : Prop where
  single : (chain.refunds block txType address).length ≤ 1
  inRange : ∀ tx ∈ chain.refunds block txType address, 0 ≤ exactSum (chain.takenFrom address tx) ∧
      exactSum (chain.takenFrom address tx) < 9223372036854775808 ∧
      exactSum (givenBack address tx) < 9223372036854775808

/-- The refunds of a producer's deposit in a block are ones that the checks can tell:
at most one, signed by a key that leads to the producer, and with amounts that do
not wrap. -/
structure ProducerRefundSafe (chain : BlockChain) (block : Block) (position : Nat)
    (producer : Dpos.Producer) : Prop where
  single : SingleRefund chain block .returnDepositCoin producer.depositHash
  resolves : ∀ tx ∈ chain.refunds block .returnDepositCoin producer.depositHash,
    ∀ program ∈ tx.programs, ∀ key, pushedKey program.code = .ok key → chain.state.getProducerRef key = some position
  low : -9223372036854775808 ≤ producer.depositAmount.toInt - producer.penalty.toInt
  high : producer.depositAmount.toInt - producer.penalty.toInt < 9223372036854775808
  covered : chain.refunds block .returnDepositCoin producer.depositHash = [] →
    producer.penalty.toInt ≤ producer.depositAmount.toInt

structure CandidateRefundSafe (chain : BlockChain) (block : Block) (codeHash : Uint160) : Prop where
  single : SingleRefund chain block .returnCRDepositCoin (addressOf prefixDeposit codeHash)
  covered : chain.refunds block .returnCRDepositCoin (addressOf prefixDeposit codeHash) = [] →
    0 ≤ (chain.crCommittee.getAvailableDepositAmount (addressOf prefixCRDID codeHash)).toInt

section Refunds
variable {chain : BlockChain} {block checked : Block} {txType : TxType}
  {address : Uint168} {tx checkedTx : Transaction} {references : References} {codeHash : Uint160}

theorem totalRefund_le {bound : Int} (single : SingleRefund chain block txType address)
    (none : chain.refunds block txType address = [] → 0 ≤ bound)
    (one : ∀ tx ∈ chain.refunds block txType address, chain.refundValue address tx ≤ bound) :
    chain.totalRefund block txType address ≤ bound := by
  unfold totalRefund
  match refunds : chain.refunds block txType address with
  | [] => simpa using none refunds
  | [tx] => simpa using one tx (by simp [refunds])
  | _ :: _ :: _ =>
    have := single.single
    simp [refunds] at this

theorem refund_accepted (accepted : AcceptedBlock chain block checked)
    (notCoinbase : txType ≠ .coinBase) (member : tx ∈ chain.refunds block txType address) :
    tx.txType = txType ∧ chain.takenFrom address tx ≠ [] ∧ ∃ checkedTx, AcceptedTx chain block.height tx checkedTx := by
  obtain ⟨inBlock, isRefund⟩ := mem_filter.1 member
  obtain ⟨isType, takes⟩ : tx.txType = txType ∧ chain.takenFrom address tx ≠ [] := by
    simpa using isRefund
  refine ⟨isType, takes, ?_⟩
  obtain ⟨checkedTx, _, passed⟩ := accepted.tx inBlock (isType ▸ notCoinbase)
  exact ⟨checkedTx, passed⟩

/-- The references of a refund all lead to one address, so that the totals of its
check are those of the address. -/
theorem refundAddress_taken {programHash : Uint168} (found : chain.getTxReference tx = .ok references)
    (takes : chain.takenFrom address tx ≠ []) (single : refundAddress references = .ok programHash) :
    programHash = address ∧ references.values = chain.takenFrom address tx := by
  have only : ∀ entry ∈ references, entry.2.programHash = programHash := by
    intro entry member
    unfold refundAddress at single
    split at single
    · rename_i hash hashes
      simp only [Except.ok.injEq] at single
      have inHashes : entry.2.programHash ∈ (references.map (·.2.programHash)).dedup :=
        mem_dedup.2 (mem_map_of_mem member)
      rw [hashes, mem_singleton] at inHashes
      exact inHashes.trans single
    · simp at single
  simp only [takenFrom, found] at takes ⊢
  have same : programHash = address := by
    by_contra other
    refine takes ?_
    rw [filter_eq_nil_iff.2]
    · rfl
    · intro entry member
      simpa [only entry member] using other
  refine ⟨same, ?_⟩
  rw [filter_eq_self.2]
  intro entry member
  simpa [same] using only entry member

/-- The check of a refund compares the exact refund with its bound, when the totals
do not wrap. -/
theorem refundValue_le {bound : Fixed64} (sane : BlockChain.Sane chain block.height tx)
    (notCoinbase : tx.txType ≠ .coinBase) (single : SingleRefund chain block txType address)
    (member : tx ∈ chain.refunds block txType address)
    (notOver : ¬ bound < wrappedSum (chain.takenFrom address tx) - wrappedSum (givenBack address tx)) :
    chain.refundValue address tx ≤ bound.toInt := by
  obtain ⟨takenLow, takenHigh, backHigh⟩ := single.inRange tx member
  have backLow : 0 ≤ exactSum (givenBack address tx) := by
    refine exactSum_nonneg fun value valueMember => ?_
    obtain ⟨output, outputMember, rfl⟩ := mem_map.1 valueMember
    exact sane.outputs_nonneg notCoinbase _ (mem_map_of_mem (mem_of_mem_filter outputMember))
  have taken := wrappedSum_eq_exactSum (by omega) takenHigh
  have back := wrappedSum_eq_exactSum (by omega) backHigh
  have difference : (wrappedSum (chain.takenFrom address tx) - wrappedSum (givenBack address tx)).toInt =
        exactSum (chain.takenFrom address tx) - exactSum (givenBack address tx) := by
    rw [sub_eq_exact (by omega) (by omega), taken, back]
  rw [Int64.lt_iff_toInt_lt] at notOver
  unfold refundValue
  omega

theorem returnDepositCoin_checked (accepted : AcceptedTx chain block.height tx checkedTx)
    (isType : tx.txType = .returnDepositCoin) : ∃ references, chain.getTxReference tx = .ok references ∧
      chain.checkReturnDepositCoinTransaction tx references chain.getHeight = .ok () := by
  obtain ⟨references, found, context⟩ := accepted.context
  refine ⟨references, found, ?_⟩
  rcases checkTransactionContext_cases accepted.notCoinbase context with
    ⟨typed, _⟩ | ⟨typed, _⟩
  · simp [checkType, isType, bind_eq_ok] at typed
  · simpa [checkType, isType, bind_eq_ok, exists_unit] using typed

theorem returnCRDepositCoin_checked (accepted : AcceptedTx chain block.height tx checkedTx)
    (isType : tx.txType = .returnCRDepositCoin) : ∃ references, chain.getTxReference tx = .ok references ∧
      chain.checkReturnCRDepositCoinTransaction tx references = .ok () ∧
      BlockChain.Spends chain block.height tx references := by
  obtain ⟨references, found, context⟩ := accepted.context
  refine ⟨references, found, ?_⟩
  rcases checkTransactionContext_cases accepted.notCoinbase context with
    ⟨typed, _⟩ | ⟨typed, spent⟩
  · simp [checkType, isType, bind_eq_ok] at typed
  · refine ⟨?_, (checkSpending_spends spent).1⟩
    simpa [checkType, isType, bind_eq_ok, exists_unit] using typed

theorem refund_program (sane : BlockChain.Sane chain block.height tx)
    (started : chain.chainParams.crVotingStartHeight ≤ block.height)
    (isType : tx.txType = .returnDepositCoin ∨ tx.txType = .returnCRDepositCoin) :
    ∃ program, tx.programs = [program] := by
  have programs := sane.attributeProgram
  refine length_eq_one_iff.1 ?_
  rcases isType with isType | isType
  · simp only [checkAttributeProgram, isType, then_eq_ok, reject_eq_ok] at programs
    simpa [started] using programs.1
  · simp only [checkAttributeProgram, isType, then_eq_ok, require_eq_ok] at programs
    exact programs.1

/-- The program of a refund has the code that its address is the hash of. -/
theorem refund_codeHash {program : Program} (spends : BlockChain.Spends chain block.height tx references)
    (found : chain.getTxReference tx = .ok references)
    (takes : chain.takenFrom (addressOf prefixDeposit codeHash) tx ≠ [])
    (signed : tx.txType ≠ .crcProposalWithdraw) (only : ∀ other ∈ tx.programs, other = program) :
    codeHash = chain.prim.toCodeHash program.code := by
  obtain ⟨programs, signature⟩ := spends.signature
  obtain ⟨value, valueMember⟩ := exists_mem_of_ne_nil _ takes
  simp only [takenFrom, found] at valueMember
  obtain ⟨entry, entryMember, rfl⟩ := mem_map.1 valueMember
  obtain ⟨inReferences, isAddress⟩ := mem_filter.1 entryMember
  obtain ⟨other, otherMember, ran⟩ := checkTransactionSignature_each signed signature entry inReferences
  rw [only other otherMember] at ran
  have isDeposit : entry.2.programHash = addressOf prefixDeposit codeHash := by
    simpa using isAddress
  have notCrossChain : (addressOf prefixDeposit codeHash).prefixByte ≠ prefixCrossChain := by
    simp [addressOf, Uint168.prefixByte, prefixDeposit, prefixCrossChain]
  simp only [runProgram, isDeposit, notCrossChain, if_false, bind_eq_ok, exists_unit, require_eq_ok] at ran
  exact ran.1

section
variable (started : chain.chainParams.crVotingStartHeight ≤ block.height)
  (accepted : AcceptedBlock chain block checked)

include started accepted

theorem producerRefunds_le {position : Nat} {producer : Dpos.Producer}
    (isProducer : chain.state.producer? position = some producer)
    (safe : ProducerRefundSafe chain block position producer) :
    chain.totalRefund block .returnDepositCoin producer.depositHash ≤
      producer.depositAmount.toInt - producer.penalty.toInt := by
  refine totalRefund_le safe.single (fun none => by have := safe.covered none; omega) fun tx member => ?_
  obtain ⟨isType, takes, checkedTx, passed⟩ := refund_accepted accepted (by simp) member
  obtain ⟨program, programs⟩ := refund_program passed.sane started (.inl isType)
  obtain ⟨references, found, refund⟩ := returnDepositCoin_checked passed isType
  simp only [checkReturnDepositCoinTransaction, bind_eq_ok,
    reject_eq_ok, programs, mapM_singleton_eq_ok, not_or] at refund
  obtain ⟨programHash, oneAddress, _, ⟨signer, resolved, rfl⟩, notOver, _⟩ := refund
  obtain ⟨rfl, values⟩ := refundAddress_taken found takes oneAddress
  -- The only program leads to the producer whose deposit is spent.
  simp only [refundProducer, bind_eq_ok, exists_unit, ofOption_eq_ok, Except.ok.injEq] at resolved
  obtain ⟨key, pushed, found, isFound, _, _, rfl⟩ := resolved
  have position := safe.resolves tx member program (by simp [programs]) key pushed
  have same : found = producer := by
    simpa [Dpos.StateKeyFrame.getProducer, position, isProducer] using isFound.symm
  subst same
  have bound := refundValue_le passed.sane passed.notCoinbase safe.single member
    (by simpa only [map_cons, map_nil, wrappedSum_singleton, values, changeValue_eq] using notOver)
  rwa [sub_eq_exact safe.low safe.high] at bound

theorem candidateRefunds_le (safe : CandidateRefundSafe chain block codeHash) :
    chain.totalRefund block .returnCRDepositCoin (addressOf prefixDeposit codeHash) ≤
      (chain.crCommittee.getAvailableDepositAmount (addressOf prefixCRDID codeHash)).toInt := by
  refine totalRefund_le safe.single safe.covered fun tx member => ?_
  obtain ⟨isType, takes, checkedTx, passed⟩ := refund_accepted accepted (by simp) member
  obtain ⟨program, programs⟩ := refund_program passed.sane started (.inr isType)
  obtain ⟨references, found, refund, spends⟩ := returnCRDepositCoin_checked passed isType
  simp only [checkReturnCRDepositCoinTransaction, bind_eq_ok,
    reject_eq_ok, programs, mapM_singleton_eq_ok, not_or] at refund
  obtain ⟨programHash, oneAddress, _, ⟨amount, resolved, rfl⟩, notOver, _⟩ := refund
  obtain ⟨rfl, values⟩ := refundAddress_taken found takes oneAddress
  simp only [refundAvailable, Cr.getCIDByCode, bind_eq_ok, exists_unit, Except.ok.injEq] at resolved
  obtain ⟨cid, ⟨contract, created, rfl⟩, _, _, _, _, rfl⟩ := resolved
  have sameCode : codeHash = chain.prim.toCodeHash program.code := by
    refine refund_codeHash spends found takes (by simp [isType]) ?_
    simp [programs]
  have sameCID : contract.toProgramHash chain.prim = addressOf prefixCRDID codeHash := by
    unfold createCRIDContractByCode at created
    split at created
    · simp at created
    · simp only [Except.ok.injEq] at created
      rw [← created, sameCode]
      rfl
  rw [← sameCID]
  exact refundValue_le passed.sane passed.notCoinbase safe.single member
    (by simpa only [wrappedSum_singleton, values, changeValue_eq] using notOver)

end

/-- The refunds of an accepted block leave the penalties of a deposit locked, for
every deposit whose refunds the checks can tell. -/
theorem refunds_keep_penalties {node : BlockNode} (started : chain.chainParams.crVotingStartHeight ≤ block.height)
    (sanity : chain.checkBlockSanity block = .ok ())
    (context : chain.checkBlockContext block (some node) = .ok checked) :
    (∀ position producer, chain.state.producer? position = some producer →
      ProducerRefundSafe chain block position producer →
        chain.totalRefund block .returnDepositCoin producer.depositHash ≤
          producer.depositAmount.toInt - producer.penalty.toInt) ∧
    (∀ codeHash, CandidateRefundSafe chain block codeHash →
      chain.totalRefund block .returnCRDepositCoin (addressOf prefixDeposit codeHash) ≤
        (chain.crCommittee.getAvailableDepositAmount (addressOf prefixCRDID codeHash)).toInt) := by
  have accepted := checkBlock_accepted sanity context
  exact ⟨fun position producer => producerRefunds_le started accepted,
    fun codeHash => candidateRefunds_le started accepted⟩

end Refunds

namespace SmallChain

def depositAddress : Uint168 :=
  Stand.primitives.toProgramHash prefixDeposit (keyCode (Stand.key 5))

/-- A producer that cancelled at height 1. Of its deposit of 5000 a penalty of 1000
stays locked. -/
def retired : Dpos.Producer where
  info := {
    ownerPublicKey := Stand.key 5
    nodePublicKey := Stand.key 5
    nickName := []
    url := []
    location := 0
    netAddress := []
    signature := [] }
  state := .canceled
  registerHeight := 1
  cancelHeight := 1
  inactiveCountingHeight := 0
  inactiveSince := 0
  activateRequestHeight := 0xffffffff
  illegalHeight := 0
  penalty := 1000
  votes := 0
  depositAmount := 5000
  depositHash := depositAddress

def depositHalf (height : UInt32) : Transaction :=
  coinbase height [output depositAddress 2500, output miner 0]

def depositChain : BlockChain :=
  { chain [depositHalf 1, depositHalf 2] with
    arbitrators := { arbitrators with
      state := { Dpos.StateKeyFrame.empty with
        producers := [retired]
        canceledProducers := GoMap.ofPairs [(Stand.key 5, 0)] } } }

def takeBack (height : UInt32) : Transaction :=
  spend .returnDepositCoin .returnDepositCoin (depositHalf height) [output miner 2400]
    [signedBy 5]

def oneRefund : Block := blockOf 11 [fairCoinbase 11 100, takeBack 1]

theorem oneRefund_safe : ProducerRefundSafe depositChain oneRefund 0 retired where
  single := ⟨by decide +kernel, by decide +kernel⟩
  resolves := by
    have only : depositChain.refunds oneRefund .returnDepositCoin retired.depositHash = [takeBack 1] := by
      decide +kernel
    rw [only]
    intro tx member program programMember key pushed
    rw [mem_singleton.1 member] at programMember
    rw [mem_singleton.1 programMember] at pushed
    have isKey : pushedKey (signedBy 5).code = .ok (Stand.key 5) := by decide +kernel
    rw [← Except.ok.inj (isKey.symm.trans pushed)]
    decide +kernel
  low := by decide
  high := by decide
  covered _ := by decide

theorem oneRefund_keeps_penalty : depositChain.totalRefund oneRefund .returnDepositCoin retired.depositHash ≤
      retired.depositAmount.toInt - retired.penalty.toInt := by
  have passed : (depositChain.checkBlockContext oneRefund (some previousNode)).isOk = true := by
    decide +kernel
  obtain ⟨_, context⟩ := exists_of_isOk passed
  exact (refunds_keep_penalties (by decide) (by decide +kernel) context).1 0 retired rfl oneRefund_safe

def twoRefunds : Block := blockOf 11 [fairCoinbase 11 200, takeBack 1, takeBack 2]

theorem twoRefunds_take_penalty : depositChain.chainParams.crVotingStartHeight ≤ twoRefunds.height ∧
      depositChain.checkBlockSanity twoRefunds = .ok () ∧
      (depositChain.checkBlockContext twoRefunds (some previousNode)).isOk = true ∧
      depositChain.state.producer? 0 = some retired ∧
      ¬ depositChain.totalRefund twoRefunds .returnDepositCoin retired.depositHash ≤
        retired.depositAmount.toInt - retired.penalty.toInt := by
  decide +kernel

end SmallChain
end Elastos.Blockchain
