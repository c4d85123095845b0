import Elastos.Blockchain.TxPayload

/-! `CheckTransactionContext`: the checks of a transaction against the ledger and
the outputs it spends. -/
set_option autoImplicit false
namespace Elastos.Blockchain
open Go Common Config Crypto Elastos.Core Elastos.Types Dpos Cr

def checkTransactionUTXOLock (tx : Transaction) (references : References) : Outcome String Unit :=
  references.forM fun entry =>
    if entry.2.outputLock = 0 then .ok ()
    else do
      .require (entry.1.sequence = 0xfffffffe) "Invalid input sequence"
      .reject (tx.lockTime < entry.2.outputLock) "UTXO output locked"

def checkDestructionAddress (references : References) : Outcome String Unit :=
  references.forM fun entry =>
    .reject (entry.2.programHash = destroyELAAddress) "cannot use utxo from the destruction address"

def returnsDeposit (tx : Transaction) : Bool :=
  tx.txType = .returnDepositCoin ∨ tx.txType = .returnCRDepositCoin

def checkTransactionDepositUTXO (tx : Transaction) (references : References) : Outcome String Unit :=
  references.forM fun entry =>
    if entry.2.programHash.prefixByte = prefixDeposit then
      .require (returnsDeposit tx)
        ("only the ReturnDepositCoin and " ++ "ReturnCRDepositCoin transaction can use the deposit UTXO")
    else
      .reject (returnsDeposit tx)
        ("the ReturnDepositCoin and ReturnCRDepositCoin " ++ "transaction can only use the deposit UTXO")

def refundAddress (references : References) : Outcome String Uint168 :=
  match (references.map fun entry => entry.2.programHash).dedup with
  | [programHash] => .ok programHash
  | _ => .fail "UTXO should from same deposit address"

def changeValue (tx : Transaction) (programHash : Uint168) : Fixed64 :=
  wrappedSum (valuesOf (tx.outputs.filter fun output =>
    output.programHash = programHash))

def outputValue (tx : Transaction) (programHash : Uint168) : Fixed64 :=
  wrappedSum (valuesOf (tx.outputs.filter fun output =>
    output.programHash ≠ programHash))

namespace BlockChain
variable (chain : BlockChain)

/-- The source looks each arbiter up once more, in a map built from the same
arbiters, and always finds it. -/
def checkCrossChainArbitrators (publicKeys : List Bytes) : Outcome String Unit := do
  let arbiters := chain.arbitrators.getCrossChainArbiters
  .require (arbiters.length = publicKeys.length) "invalid arbitrator count"
  arbiters.forM fun arbiter =>
    .require (arbiter ∈ publicKeys.map (·.drop 1)) "invalid cross chain arbitrators"

def checkWithdrawFromSideChainTransaction (tx : Transaction) (references : References) : Outcome String Unit :=
  match tx.payload with
  | .withdrawFromSideChain withdraw => do
    withdraw.sideChainTransactionHashes.forM fun hash =>
      .reject (chain.store.isTx3Exist hash) "Duplicate side chain transaction hash in paylod"
    references.forM fun entry =>
      .require (entry.2.programHash.prefixByte = prefixCrossChain)
        "Invalid transaction inputs address, without \"X\" at beginning"
    tx.programs.forM fun program => do
      let publicKeys ← parseCrossChainScript program.code
      chain.checkCrossChainArbitrators publicKeys
  | _ => .fail "Invalid withdraw from side chain payload type"

/-- The address in a cross-chain payload and the output it is paid to. -/
def checkCrossChainAddress (tx : Transaction) (seen : List Bytes)
    (entry : Bytes × UInt64) : Outcome String (List Bytes) := do
  .reject (entry.1 ∈ seen) "duplicated cross chain address in payload"
  match tx.outputs[entry.2.toNat]? with
  | none => .crash "index out of range"
  | some output =>
    .require (output.programHash.prefixByte = prefixCrossChain)
      "Invalid transaction output address, without \"X\" at beginning"
    .reject (entry.1 = []) "Invalid transaction cross chain address "
    .ok (entry.1 :: seen)

def checkCrossChainAmount (tx : Transaction) (entry : Fixed64 × UInt64) : Outcome String Unit :=
  match tx.outputs[entry.2.toNat]? with
  | none => .crash "index out of range"
  | some output =>
    .reject (entry.1 < 0 ∨ output.value - chain.chainParams.minCrossChainTxFee < entry.1)
      "Invalid transaction cross chain amount"

/-- An index is converted to a signed integer before it is compared. -/
def checkOutputIndex (tx : Transaction) (seen : List UInt64) (index : UInt64) : Outcome String (List UInt64) := do
  .reject (index ∈ seen ∨ (tx.outputs.length : Int) ≤ index.toInt64.toInt)
    "Invalid transaction payload cross chain index"
  .ok (index :: seen)

def checkTransferCrossChainAssetTransaction (tx : Transaction) (references : References) : Outcome String Unit :=
  match tx.payload with
  | .transferCrossChainAsset payload => do
    .reject (payload.crossChainAddresses.length = 0 ∨ tx.outputs.length < payload.crossChainAddresses.length ∨
        payload.crossChainAddresses.length ≠ payload.crossChainAmounts.length ∨
        payload.crossChainAmounts.length ≠ payload.outputIndexes.length)
      "Invalid transaction payload content"
    let _ ← payload.outputIndexes.foldlM (checkOutputIndex tx) []
    let _ ← (payload.crossChainAddresses.zip payload.outputIndexes).foldlM
      (checkCrossChainAddress tx) []
    (payload.crossChainAmounts.zip payload.outputIndexes).forM
      (chain.checkCrossChainAmount tx)
    .reject (getTransactionFee tx references < chain.chainParams.minCrossChainTxFee) "Invalid transaction fee"
  | _ => .fail "Invalid transfer cross chain asset payload type"

def refundProducer (currentHeight : UInt32) (program : Program) : Outcome String Producer := do
  let publicKey ← pushedKey program.code
  let producer ← Outcome.ofOption "signer must be producer"
    (chain.state.getProducer publicKey)
  .require (producer.state = .canceled) "producer must be canceled before return deposit coin"
  .reject (currentHeight - producer.cancelHeight < chain.chainParams.crDepositLockupBlocks)
    "return deposit does not meet the lockup limit"
  .ok producer

def checkReturnDepositCoinTransaction (tx : Transaction) (references : References)
    (currentHeight : UInt32) : Outcome String Unit := do
  let programHash ← refundAddress references
  let inputValue := wrappedSum references.values
  let producers ← tx.programs.mapM (chain.refundProducer currentHeight)
  let penalty := wrappedSum (producers.map (·.penalty))
  let depositAmount := wrappedSum (producers.map (·.depositAmount))
  .reject (depositAmount - penalty < inputValue - changeValue tx programHash ∨
      depositAmount ≤ outputValue tx programHash) "overspend deposit"

def refundAvailable (program : Program) : Outcome String Fixed64 := do
  let cid ← getCIDByCode chain.prim program.code
  .require (chain.crCommittee.exist cid) "signer must be candidate or member"
  let info ← chain.crCommittee.depositInfoOf cid
  .require (info.refundable = true) "signer must be refundable"
  .ok (chain.crCommittee.getAvailableDepositAmount cid)

def checkReturnCRDepositCoinTransaction (tx : Transaction) (references : References) : Outcome String Unit := do
  let programHash ← refundAddress references
  let inputValue := wrappedSum references.values
  let available ← tx.programs.mapM chain.refundAvailable
  let availableValue := wrappedSum available
  .reject (availableValue < inputValue - changeValue tx programHash ∨
      availableValue ≤ outputValue tx programHash) "candidate overspend deposit"

/-- Returns the fee and the fee for a thousand bytes. A transaction that reaches
this check has been encoded, so its size is not zero. -/
def checkTransactionFee (tx : Transaction) (references : References) : Outcome String (Fixed64 × Fixed64) := do
  let fee := getTransactionFee tx references
  .reject (chain.isSmallThanMinTransactionFee fee) "transaction fee not enough"
  .ok (fee, fee * 1000 / Int64.ofNat tx.serialize.bytes.length)

def checkTransactionDepositOutpus (tx : Transaction) : Outcome String Unit :=
  tx.outputs.forM fun output =>
    .reject (output.programHash.prefixByte = prefixDeposit ∧
        ¬ (tx.txType = .registerProducer ∨ tx.txType = .registerCR ∨ returnsDeposit tx) ∧
        ¬ chain.state.existProducerByDepositHash output.programHash ∧
        ¬ chain.crCommittee.existCandidateByDepositHash output.programHash)
      "only the address that CR or Producer registered can have the deposit UTXO"

/-- The age of a coinbase is taken from its lock time and may wrap around. -/
def checkInvalidUTXO (tx : Transaction) : Outcome String Unit :=
  tx.inputs.forM fun input => do
    let previous ← chain.getTransaction input.previous.txID
    if previous.isCoinBaseTx then
      .reject (chain.getHeight - previous.lockTime < chain.chainParams.coinbaseMaturity)
        "the utxo of coinbase is locking"
    else
      .reject (previous.isNewSideChainPowTx = true) "cannot spend the utxo from a new sideChainPow tx"

section VoteOutputs

def checkVoteProducerContent (content : VoteContent) (producers : List Bytes)
    (payloadVersion : UInt8) (amount : Fixed64) : Outcome String Unit := do
  content.candidateVotes.forM fun votes =>
    .require (votes.candidate ∈ producers)
      ("invalid vote output payload producer candidate: " ++ bytesToHexString votes.candidate)
  .when (voteProducerAndCRVersion ≤ payloadVersion) <|
    content.candidateVotes.forM fun votes =>
      .reject (amount < votes.votes) "votes larger than output amount"

variable (blockHeight : UInt32)

def checkVoteCRContent (content : VoteContent)
    (candidates : List Uint168) (payloadVersion : UInt8) (amount : Fixed64) : Outcome String Unit := do
  .require (chain.crCommittee.isInVotingPeriod chain.chainParams blockHeight) "cr vote tx must during voting period"
  .reject (payloadVersion < voteProducerAndCRVersion) "payload VoteProducerVersion not support vote CR"
  .reject (chain.chainParams.checkVoteCRCountHeight ≤ blockHeight ∧
      maxVoteProducersPerTransaction < content.candidateVotes.length)
    "invalid count of CR candidates "
  content.candidateVotes.forM fun votes => do
    let cid ← Outcome.mapError
      (fun _ => "invalid vote output payload Candidate can not change to proper cid")
      (Uint168.fromBytes votes.candidate)
    .require (cid ∈ candidates)
      ("invalid vote output payload CR candidate: " ++ bytesToHexString cid.bytes)
  .reject (amount < wrappedSum (content.candidateVotes.map (·.votes))) "total votes larger than output amount"

variable (content : VoteContent) (payloadVersion : UInt8) (amount : Fixed64)

def checkVoteCRCProposalContent : Outcome String Unit := do
  .reject (payloadVersion < voteProducerAndCRVersion) "payload VoteProducerVersion not support vote CRCProposal"
  content.candidateVotes.forM fun votes => do
    .reject (amount < votes.votes) "votes larger than output amount"
    let hash ← Uint256.fromBytes votes.candidate
    .require ((chain.crCommittee.getProposal hash).map (·.status) = some .crAgreed)
      ("invalid CRCProposal: " ++ bytesToHexString votes.candidate)

def checkCRImpeachmentContent : Outcome String Unit := do
  .reject (payloadVersion < voteProducerAndCRVersion) "payload VoteProducerVersion not support vote CRCProposal"
  let members := chain.crCommittee.getImpeachableMembers.map (·.info.cid.bytes)
  content.candidateVotes.forM fun votes =>
    .require (votes.candidate ∈ members) "candidate should be one of the CR members"
  .reject (amount < wrappedSum (content.candidateVotes.map (·.votes))) "total votes larger than output amount"

def checkVoteContent (producers : List Bytes)
    (candidates : List Uint168) (payloadVersion : UInt8) (amount : Fixed64)
    (content : VoteContent) : Outcome String Unit :=
  match content.voteType with
  | .delegate => checkVoteProducerContent content producers payloadVersion amount
  | .crc =>
    chain.checkVoteCRContent blockHeight content candidates payloadVersion amount
  | .crcProposal => chain.checkVoteCRCProposalContent content payloadVersion amount
  | .crcImpeachment => chain.checkCRImpeachmentContent content payloadVersion amount
  | .unknown _ => .ok ()

def checkVoteOutput (references : References)
    (producers : List Bytes) (candidates : List Uint168) (output : Output) : Outcome String Unit :=
  if output.outputType = .vote then do
    .require (output.programHash ∈ references.map fun entry => entry.2.programHash)
      "the output address of vote tx should exist in its input"
    match output.payload with
    | .vote vote =>
      vote.contents.forM
        (chain.checkVoteContent blockHeight producers candidates vote.version output.value)
    | _ => .fail "invalid vote output payload"
  else
    .ok ()

def votableProducers : List Bytes :=
  let active := chain.state.getActiveProducers
  let producers :=
    if blockHeight < chain.chainParams.publicDPOSHeight then
      active ++ chain.state.getPendingCanceledProducers
    else active
  producers.map (·.info.ownerPublicKey)

def votableCandidates : List Uint168 :=
  if chain.crCommittee.isInVotingPeriod chain.chainParams blockHeight then
    (chain.crCommittee.getCandidates .active).map (·.2.info.cid)
  else []

def checkVoteOutputs (outputs : List Output) (references : References) : Outcome String Unit :=
  outputs.forM (chain.checkVoteOutput blockHeight references
    (chain.votableProducers blockHeight) (chain.votableCandidates blockHeight))

end VoteOutputs

/-- Whether the checks of a transaction's own type end its validation. -/
inductive Verdict where
  | done
  | continue
  deriving DecidableEq

variable (blockHeight : UInt32) (tx : Transaction) (references : References)

/-- The switch over the types in `CheckTransactionContext`. -/
def checkType (proposalsUsedAmount : Fixed64) : Outcome ELAError Verdict :=
  match tx.txType with
  | .illegalProposalEvidence => do
    withCode .txPayload (chain.checkIllegalProposalsTransaction tx)
    .ok .done
  | .illegalVoteEvidence => do
    withCode .txPayload (chain.checkIllegalVotesTransaction tx)
    .ok .done
  | .illegalBlockEvidence => do
    withCode .txPayload (chain.checkIllegalBlocksTransaction tx)
    .ok .done
  | .illegalSidechainEvidence => do
    withCode .txPayload (chain.checkSidechainIllegalEvidenceTransaction tx)
    .ok .done
  | .inactiveArbitrators => do
    withCode .txPayload (chain.checkInactiveArbitratorsTransaction tx)
    .ok .done
  | .updateVersion => do
    withCode .txPayload (chain.checkUpdateVersionTransaction tx)
    .ok .done
  | .sideChainPow => do
    let arbitrator ← withCode .txSidechainPowConsensus
      (chain.arbitrators.getOnDutyCrossChainArbitrator chain.prim chain.runtime)
    withCode .txSidechainPowConsensus (chain.checkSideChainPowConsensus tx arbitrator)
    .ok (if tx.isNewSideChainPowTx then .done else .continue)
  | .registerProducer => do
    withCode .txPayload (chain.checkRegisterProducerTransaction tx)
    .ok .continue
  | .cancelProducer => do
    withCode .txPayload (chain.checkCancelProducerTransaction tx)
    .ok .continue
  | .updateProducer => do
    withCode .txPayload (chain.checkUpdateProducerTransaction tx)
    .ok .continue
  | .activateProducer => do
    withCode .txPayload (chain.checkActivateProducerTransaction tx blockHeight)
    .ok .done
  | .registerCR => do
    withCode .txPayload (chain.checkRegisterCRTransaction tx blockHeight)
    .ok .continue
  | .updateCR => do
    withCode .txPayload (chain.checkUpdateCRTransaction tx blockHeight)
    .ok .continue
  | .unregisterCR => do
    withCode .txPayload (chain.checkUnRegisterCRTransaction tx blockHeight)
    .ok .continue
  | .crcProposal => do
    withCode .txPayload
      (chain.checkCRCProposalTransaction tx blockHeight proposalsUsedAmount)
    .ok .continue
  | .crcProposalReview => do
    withCode .txPayload (chain.checkCRCProposalReviewTransaction tx)
    .ok .continue
  | .crcProposalTracking => do
    withCode .txPayload (chain.checkCRCProposalTrackingTransaction tx)
    .ok .continue
  | .crcProposalWithdraw => do
    withCode .txPayload (chain.checkCRCProposalWithdrawTransaction tx references)
    .ok .continue
  | .withdrawFromSideChain => do
    withCode .txSidechainDuplicate
      (chain.checkWithdrawFromSideChainTransaction tx references)
    .ok .continue
  | .transferCrossChainAsset => do
    withCode .txInvalidOutput
      (chain.checkTransferCrossChainAssetTransaction tx references)
    .ok .continue
  | .returnDepositCoin => do
    withCode .txReturnDeposit
      (chain.checkReturnDepositCoinTransaction tx references chain.getHeight)
    .ok .continue
  | .returnCRDepositCoin => do
    withCode .txReturnDeposit (chain.checkReturnCRDepositCoinTransaction tx references)
    .ok .continue
  | .crcAppropriation => do
    withCode .txAppropriation (chain.checkCRCAppropriationTransaction tx references)
    .ok .done
  | .coinBase | .registerAsset | .transferAsset | .record | .deploy
  | .rechargeToSideChain | .unknown _ => .ok .continue

/-- The checks after the switch. They leave the fee and the order of the programs
in the transaction. -/
def checkSpending :
    Outcome ELAError Transaction := do
  let (fee, feePerKB) ← withCode .txBalance (chain.checkTransactionFee tx references)
  withCode .txInvalidInput (checkDestructionAddress references)
  withCode .txInvalidInput (checkTransactionDepositUTXO tx references)
  withCode .txInvalidInput (chain.checkTransactionDepositOutpus tx)
  let programs ← withCode .txSignature (chain.checkTransactionSignature tx references)
  withCode .blockIneffectiveCoinbase (chain.checkInvalidUTXO tx)
  .when (txVersion09 ≤ tx.version) <|
    withCode .txInvalidOutput (chain.checkVoteOutputs blockHeight tx.outputs references)
  .ok { tx with fee, feePerKB, programs }

/-- Returns the transaction as the check leaves it. -/
def checkTransactionContext (proposalsUsedAmount : Fixed64) : Outcome ELAError Transaction := do
  .reject (chain.isTxHashDuplicate (tx.hash chain.prim) = true)
    { code := .txDuplicate, inner := none }
  if tx.isCoinBaseTx then
    .ok tx
  else do
    .reject (chain.isDoubleSpend tx = true) { code := .txDoubleSpend, inner := none }
    withCode .txUTXOLocked (checkTransactionUTXOLock tx references)
    match ← chain.checkType blockHeight tx references proposalsUsedAmount with
    | .done => .ok tx
    | .continue => chain.checkSpending blockHeight tx references

end BlockChain
end Elastos.Blockchain
