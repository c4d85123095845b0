import Elastos.Blockchain.TxSanity

/-! The checks of the payloads that register, update and cancel producers and council candidates, of
the evidence transactions, and of council proposals. -/
set_option autoImplicit false
namespace Elastos.Blockchain
open Go Common Crypto Elastos.Core Elastos.Types Dpos Outcome Cr

def maxStringLength : Nat := 100

def checkStringField (value : Bytes) (field : String) (allowEmpty : Bool) : Outcome String Unit :=
  .reject (allowEmpty = false ∧ value.length = 0 ∨ maxStringLength < value.length)
    ("field " ++ field ++ " has invalid string length")

def keyCode (publicKey : Bytes) : Bytes := 33 :: publicKey ++ [standard]

section Signatures
variable (prim : Primitives)

def checkPayloadSignature (publicKey data signature : Bytes) (keyError : String) : Outcome String Unit := do
  let decoded ← mapError (fun _ => keyError) (prim.decodePoint publicKey)
  mapError (fun _ => "invalid signature in payload")
    (prim.verifySignature decoded data signature)

def getParameterBySignature (signature : Bytes) : Bytes :=
  UInt8.ofNat signature.length :: signature

def checkCRTransactionSignature (signature code data : Bytes) : Outcome String Unit := do
  let signType ← mapError (fun _ => "invalid code") (getScriptType code)
  if signType = standard then
    checkStandardSignature prim
      { code, parameter := getParameterBySignature signature } data
  else if signType = multisig then
    .fail "CR not support multi sign code"
  else
    .fail "invalid code type"

def crInfoSanityCheck (info : CRInfo) (payloadVersion : UInt8) : Outcome String Unit :=
  checkCRTransactionSignature prim info.signature info.code
    (info.serializeUnsigned payloadVersion)

end Signatures

def checkDepositOutputs (tx : Transaction) (depositHash : Uint168)
    (addressError amountError : String) : Outcome String Unit := do
  let deposits := tx.outputs.filter fun output =>
    output.programHash.prefixByte = prefixDeposit
  deposits.forM fun output => do
    .require (output.programHash = depositHash) addressError
    .reject (output.value < Cr.minDepositAmount) amountError
  .require (deposits.length = 1) "there must be only one deposit address in outputs"

namespace BlockChain
variable (chain : BlockChain)
variable (tx : Transaction)

def checkSideChainPowConsensus (arbitrator : Bytes) : Outcome String Unit :=
  match tx.payload with
  | .sideChainPow payload => do
    let publicKey ← chain.prim.decodePoint arbitrator
    mapError (fun reason => "Arbitrator is not matched. " ++ reason)
      (chain.prim.verifySignature publicKey payload.serializeUnsigned payload.signature)
  | _ => .fail "Side mining transaction has invalid payload"

def additionalProducerInfoCheck (info : ProducerInfo) : Outcome String Unit :=
  if chain.chainParams.publicDPOSHeight ≤ chain.getHeight then do
    let _ ← mapError (fun _ => "invalid node public key in payload")
      (chain.prim.decodePoint info.nodePublicKey)
    .reject (chain.arbitrators.isCRCArbitrator info.nodePublicKey) "node public key can't equal with CRC"
    .reject (chain.arbitrators.isCRCArbitrator info.ownerPublicKey) "owner public key can't equal with CRC"
  else
    .ok ()

/-- A key of a producer may not be the key of a candidate or a member. -/
def checkNotCR (publicKey : Bytes) (role : String) : Outcome String Unit := do
  let exist ← chain.crCommittee.existCR chain.prim (keyCode publicKey)
  .reject (exist = true)
    (role ++ " public key " ++ bytesToHexString publicKey ++ " already exist in cr list")

def checkProducerDuplication (info : ProducerInfo) : Outcome String Unit := do
  if chain.getHeight < chain.chainParams.publicDPOSHeight then
    .reject (chain.state.producerExists info.nodePublicKey) "producer already registered"
    .reject (chain.state.producerExists info.ownerPublicKey) "producer owner already registered"
  else
    .reject (chain.state.producerNodePublicKeyExists info.nodePublicKey) "producer already registered"
    .reject (chain.state.producerOwnerPublicKeyExists info.ownerPublicKey) "producer owner already registered"

def checkRegisterProducerTransaction : Outcome String Unit :=
  match tx.payload with
  | .producerInfo info => do
    checkStringField info.nickName "NickName" false
    checkStringField info.url "Url" true
    chain.checkProducerDuplication info
    .reject (chain.state.nicknameExists info.nickName)
      ("nick name " ++ display info.nickName ++ " already inuse")
    chain.checkNotCR info.ownerPublicKey "owner"
    chain.checkNotCR info.nodePublicKey "node"
    chain.additionalProducerInfoCheck info
    checkPayloadSignature chain.prim info.ownerPublicKey info.serializeUnsigned
      info.signature "invalid owner public key in payload"
    let depositHash ← mapError (fun _ => "invalid public key")
      (publicKeyToDepositProgramHash chain.prim info.ownerPublicKey)
    checkDepositOutputs tx depositHash "deposit address does not match the public key in payload"
      "producer deposit amount is insufficient"
  | _ => .fail "invalid payload"

def checkProcessProducer : Outcome String Producer :=
  match tx.payload with
  | .processProducer payload => do
    checkPayloadSignature chain.prim payload.ownerPublicKey payload.serializeUnsigned
      payload.signature "invalid public key in payload"
    let producer ← ofOption "getting unknown producer"
      (chain.state.getProducer payload.ownerPublicKey)
    .require (producer.info.ownerPublicKey = payload.ownerPublicKey) "getting unknown producer"
    .ok producer
  | _ => .fail "invalid payload"

def checkActivateProducer : Outcome String Producer :=
  match tx.payload with
  | .activateProducer payload => do
    checkPayloadSignature chain.prim payload.nodePublicKey payload.serializeUnsigned
      payload.signature "invalid public key in payload"
    let producer ← ofOption "getting unknown producer"
      (chain.state.getProducer payload.nodePublicKey)
    .require (producer.info.nodePublicKey = payload.nodePublicKey) "getting unknown producer"
    .ok producer
  | _ => .fail "invalid payload"

def checkCancelProducerTransaction : Outcome String Unit := do
  let producer ← chain.checkProcessProducer tx
  .reject (producer.state = .illegal ∨ producer.state = .canceled) "can not cancel this producer"

def activationDeposit (producer : Producer) (height : UInt32) : Outcome String Fixed64 :=
  if height < chain.chainParams.crVotingStartHeight then do
    let programHash ←
      publicKeyToDepositProgramHash chain.prim producer.info.ownerPublicKey
    let values ← chain.store.utxoValues programHash
    .ok (wrappedSum values)
  else
    .ok producer.depositAmount

def checkActivateProducerTransaction (height : UInt32) : Outcome String Unit := do
  let producer ← chain.checkActivateProducer tx
  .require (producer.state = .inactive ∨ chain.chainParams.enableActivateIllegalHeight ≤ height ∧
        producer.state = .illegal)
    "can not activate this producer"
  .reject (producer.activateRequestHeight < height ∧ height - producer.activateRequestHeight ≤ Cr.activateDuration)
    "can only activate once during inactive state"
  let depositAmount ← chain.activationDeposit producer height
  .reject (depositAmount - producer.penalty < Cr.minDepositAmount) "insufficient deposit amount"

def checkUpdateProducerTransaction : Outcome String Unit :=
  match tx.payload with
  | .producerInfo info => do
    checkStringField info.nickName "NickName" false
    checkStringField info.url "Url" true
    chain.additionalProducerInfoCheck info
    checkPayloadSignature chain.prim info.ownerPublicKey info.serializeUnsigned
      info.signature "invalid owner public key in payload"
    let producer ← ofOption "updating unknown producer"
      (chain.state.getProducer info.ownerPublicKey)
    .reject (producer.info.nickName ≠ info.nickName ∧ chain.state.nicknameExists info.nickName)
      ("nick name " ++ display info.nickName ++ " already exist")
    chain.checkNotCR info.nodePublicKey "node"
    let taken :=
      if chain.getHeight < chain.chainParams.publicDPOSHeight then
        chain.state.producerExists info.nodePublicKey
      else
        chain.state.producerNodePublicKeyExists info.nodePublicKey
    .reject (info.nodePublicKey ≠ producer.info.nodePublicKey ∧ taken = true)
      ("producer " ++ bytesToHexString info.nodePublicKey ++ " already exist")
  | _ => .fail "invalid payload"

def checkDID (info : CRInfo) : Outcome String Unit := do
  let did ← Cr.getDIDByCode chain.prim info.code
  .require (info.did = did) "invalid did address"

/-- The identities in a candidate's payload are those of its code. -/
def checkCRIdentity (info : CRInfo) (programHash : Uint168) (payloadVersion : UInt8)
    (blockHeight : UInt32) : Outcome String Unit := do
  .require (info.cid = programHash) "invalid cid address"
  .when (chain.chainParams.registerCRByDIDHeight ≤ blockHeight ∧
    payloadVersion = crInfoDIDVersion) (chain.checkDID info)

def checkCodeNotProducer (code : Bytes) : Outcome String Unit :=
  if code.getLastD 0 = standard then do
    let publicKey ← pushedKey code
    .reject (chain.state.producerExists publicKey)
      ("public key " ++ bytesToHexString publicKey ++ " already inuse in producer list")
    .reject (chain.arbitrators.isCRCArbitrator publicKey)
      ("public key " ++ bytesToHexString code.dropLast ++ " already inuse in CRC list")
  else
    .ok ()

variable (blockHeight : UInt32)

def checkRegisterCRTransaction : Outcome String Unit :=
  match tx.payload with
  | .crInfo info => do
    checkStringField info.nickName "NickName" false
    checkStringField info.url "Url" true
    .require (chain.crCommittee.isInVotingPeriod chain.chainParams blockHeight) "should create tx during voting period"
    .reject (chain.crCommittee.existCandidateByNickname info.nickName)
      ("nick name " ++ display info.nickName ++ " already inuse")
    .reject (chain.crCommittee.getCandidate info.cid).isSome
      ("cid " ++ bytesToHexString info.cid.bytes ++ " already exist")
    let programHash ← Cr.getCIDByCode chain.prim info.code
    chain.checkCodeNotProducer info.code
    chain.checkCRIdentity info programHash tx.payloadVersion blockHeight
    crInfoSanityCheck chain.prim info tx.payloadVersion
    checkDepositOutputs tx
      ((createDepositContractByCode info.code).toProgramHash chain.prim)
      "deposit address does not match the code in payload"
      "CR deposit amount is insufficient"
  | _ => .fail "invalid payload"

def checkUpdateCRTransaction : Outcome String Unit :=
  match tx.payload with
  | .crInfo info => do
    checkStringField info.nickName "NickName" false
    checkStringField info.url "Url" true
    let programHash ← Cr.getCIDByCode chain.prim info.code
    chain.checkCRIdentity info programHash tx.payloadVersion blockHeight
    crInfoSanityCheck chain.prim info tx.payloadVersion
    .require (chain.crCommittee.isInVotingPeriod chain.chainParams blockHeight) "should create tx during voting period"
    let candidate ← ofOption "updating unknown CR"
      (chain.crCommittee.getCandidate info.cid)
    .require (candidate.state = .pending ∨ candidate.state = .active) "updating canceled or returned CR"
    .reject (candidate.info.nickName ≠ info.nickName ∧ chain.crCommittee.existCandidateByNickname info.nickName)
      ("nick name " ++ display info.nickName ++ " already exist")
  | _ => .fail "invalid payload"

def checkUnRegisterCRTransaction : Outcome String Unit :=
  match tx.payload with
  | .unregisterCR info => do
    .require (chain.crCommittee.isInVotingPeriod chain.chainParams blockHeight) "should create tx during voting period"
    let candidate ← ofOption "unregister unknown CR"
      (chain.crCommittee.getCandidate info.cid)
    .require (candidate.state = .pending ∨ candidate.state = .active) "unregister canceled or returned CR"
    checkCRTransactionSignature chain.prim info.signature candidate.info.code
      info.serializeUnsigned
  | _ => .fail "invalid payload"

def checkNewSpecialTx : Outcome String Unit :=
  .reject (chain.state.specialTxExists chain.prim tx) "tx already exists"

def checkIllegalProposalsTransaction : Outcome String Unit :=
  match tx.payload with
  | .illegalProposals payload => do
    chain.checkNewSpecialTx tx
    chain.checkDPOSIllegalProposals payload
  | _ => .fail "invalid payload"

def checkIllegalVotesTransaction : Outcome String Unit :=
  match tx.payload with
  | .illegalVotes payload => do
    chain.checkNewSpecialTx tx
    chain.checkDPOSIllegalVotes payload
  | _ => .fail "invalid payload"

def checkIllegalBlocksTransaction : Outcome String Unit :=
  match tx.payload with
  | .illegalBlocks payload => do
    chain.checkNewSpecialTx tx
    chain.checkDPOSIllegalBlocks payload
  | _ => .fail "invalid payload"

def checkSidechainIllegalEvidenceTransaction : Outcome String Unit :=
  match tx.payload with
  | .sidechainIllegalData payload => do
    chain.checkNewSpecialTx tx
    chain.checkSidechainIllegalEvidence payload
  | _ => .fail "invalid payload"

def checkInactiveArbitratorsTransaction : Outcome String Unit := do
  chain.checkNewSpecialTx tx
  chain.checkInactiveArbitrators tx

def checkUpdateVersionTransaction : Outcome String Unit :=
  match tx.payload with
  | .updateVersion payload => do
    .reject (payload.endHeight ≤ payload.startHeight ∨ payload.startHeight < chain.getHeight)
      "invalid update version height"
    let program ← firstProgram tx
    chain.checkCRCArbitratorsSignatures program
  | _ => .fail "invalid payload"

end BlockChain

def maxCategoryDataStringLength : Nat := 4096
def maxBudgetsCount : Nat := 128
def elipBudgetsCount : Nat := 2
def crcProposalBudgetsPercentage : Fixed64 := 10

def checkELIPBudgets (proposal : CRCProposal) : Outcome String Unit := do
  .require (proposal.budgets.length = elipBudgetsCount) "ELIP needs to have and only have two budget"
  proposal.budgets.forM fun budget =>
    .reject (budget.budgetType = normalPayment) "ELIP needs to have no normal payment"

def checkProposalShape (proposal : CRCProposal) : Outcome String Unit := do
  .require (proposal.proposalType = proposalNormal ∨
      proposal.proposalType = proposalELIP) "type of proposal should be known"
  .reject (maxCategoryDataStringLength < proposal.categoryData.length)
    "the Proposal category data cannot be more than 4096 characters"
  .reject (maxBudgetsCount < proposal.budgets.length) "budgets exceeded the maximum limit"
  .when (proposal.proposalType = proposalELIP) (checkELIPBudgets proposal)

structure BudgetCount where
  stage : UInt8
  amount : Fixed64
  imprestPaymentCount : Nat
  finalPaymentCount : Nat

def countBudget (count : BudgetCount) (budget : Budget) : Outcome String BudgetCount := do
  .require (budget.budgetType ∈ [imprest, normalPayment, finalPayment]) "type of budget should be known"
  .require (budget.stage = count.stage) "the first phase starts incrementing"
  .reject (budget.amount < 0) "invalid amount"
  .ok {
    stage := count.stage + 1
    amount := count.amount + budget.amount
    imprestPaymentCount :=
      count.imprestPaymentCount + if budget.budgetType = imprest then 1 else 0
    finalPaymentCount :=
      count.finalPaymentCount + if budget.budgetType = finalPayment then 1 else 0 }

/-- The checks of the budgets in the order of their stages. Returns their wrapped
total. -/
def checkBudgets (budgets : List Budget) : Outcome String Fixed64 :=
  match budgets.head?, budgets.getLast? with
  | some first, some last => do
    .reject (first.budgetType = imprest ∧ first.stage ≠ 0) "proposal imprest can only be in the first phase"
    .reject (first.budgetType ≠ imprest ∧ first.stage ≠ 1)
      "the first general type budget needs to start at the beginning"
    .require (last.budgetType = finalPayment) "proposal final payment can only be in the last phase"
    let count ← budgets.foldlM countBudget
      { stage := first.stage, amount := 0, imprestPaymentCount := 0,
        finalPaymentCount := 0 }
    .reject (1 < count.imprestPaymentCount) "imprest payment count invalid"
    .require (count.finalPaymentCount = 1) "final payment count invalid"
    .ok count.amount
  | _, _ => .fail "a proposal cannot be without a Budget"

def checkBudgetAmount (committee : Frame) (amount proposalsUsedAmount : Fixed64) : Outcome String Unit := do
  .reject (committee.crcCurrentStageAmount * crcProposalBudgetsPercentage / 100 < amount)
    "budgets exceeds 10% of CRC committee balance"
  .reject (committee.crcCurrentStageAmount - committee.crcCommitteeUsedAmount - proposalsUsedAmount < amount)
    "budgets exceeds the balance of CRC committee"
  .reject (amount < 0) "budgets is invalid"

variable (prim : Primitives)

def checkRecipient (recipient : Uint168) : Outcome String Unit := do
  .reject (recipient = default) "recipient is empty"
  .require (recipient.prefixByte = prefixStandard ∨ recipient.prefixByte = prefixMultiSig) "invalid recipient prefix"
  let _ ← mapError (fun _ => "invalid recipient") (toAddress prim recipient)
  .ok ()

def getCode (publicKey : Bytes) : Outcome String Bytes := do
  let decoded ← prim.decodePoint publicKey
  .ok (createStandardRedeemScript prim decoded)

def checkOwnerSignature (publicKey data signature : Bytes)
    (keyError signatureError : String) : Outcome String Unit := do
  let code ← mapError (fun _ => keyError) (getCode prim publicKey)
  mapError (fun _ => signatureError)
    (checkCRTransactionSignature prim signature code data)

def getTransactionFee (tx : Transaction) (references : References) : Fixed64 :=
  wrappedSum references.values - wrappedSum (valuesOf tx.outputs)

namespace BlockChain
variable (chain : BlockChain)

def isSmallThanMinTransactionFee (fee : Fixed64) : Bool :=
  fee < chain.chainParams.minTransactionFee

def checkSponsor (did : Uint168) : Outcome String CRMember := do
  let member ← ofOption "CR Council Member should be one of the CR members"
    (chain.crCommittee.getMember did)
  .require (member.memberState = .elected) "CR Council Member should be an elected CR members"
  .ok member

def checkCRCProposal (proposal : CRCProposal) (blockHeight : UInt32)
    (proposalsUsedAmount : Fixed64) : Outcome String Unit := do
  .require (chain.crCommittee.isProposalAllowed chain.chainParams (blockHeight - 1))
    "cr proposal tx must not during voting period"
  checkProposalShape proposal
  let budgets := chain.runtime.sort (fun left right : Budget =>
    left.stage < right.stage) proposal.budgets
  let amount ← checkBudgets budgets
  checkBudgetAmount chain.crCommittee amount proposalsUsedAmount
  checkRecipient chain.prim proposal.recipient
  .reject (chain.crCommittee.isProposalFull chain.chainParams proposal.crCouncilMemberDID) "proposal is full"
  .reject (chain.crCommittee.existDraft proposal.draftHash) "duplicated draft proposal hash"
  let member ← chain.checkSponsor proposal.crCouncilMemberDID
  checkOwnerSignature chain.prim proposal.ownerPublicKey proposal.serializeUnsigned
    proposal.signature "invalid owner" "owner signature check failed"
  mapError (fun _ => "failed to check CR Council Member signature")
    (checkCRTransactionSignature chain.prim proposal.crCouncilMemberSignature member.info.code
      (proposal.serializeUnsigned ++ writeVarBytes proposal.signature ++ proposal.crCouncilMemberDID.bytes))

variable (tx : Transaction)

def checkCRCProposalTransaction (blockHeight : UInt32)
    (proposalsUsedAmount : Fixed64) : Outcome String Unit :=
  match tx.payload with
  | .crcProposal proposal =>
    chain.checkCRCProposal proposal blockHeight proposalsUsedAmount
  | _ => .fail "invalid payload"

def checkCRCProposalReviewTransaction : Outcome String Unit :=
  match tx.payload with
  | .crcProposalReview review => do
    let proposal ← ofOption "proposal not exist"
      (chain.crCommittee.getProposal review.proposalHash)
    .require (proposal.status = .registered) "proposal status is not Registered"
    match review.voteResult with
    | .unknown _ => .fail "VoteResult should be known"
    | _ => do
      let member ← ofOption "did correspond crMember not exists"
        (chain.crCommittee.getMember review.did)
      .require (member.memberState = .elected) "should be an elected CR members"
      checkCRTransactionSignature chain.prim review.signature member.info.code
        review.serializeUnsigned
  | _ => .fail "invalid payload"

def withdrawalStatus (status : ProposalStatus) : Bool :=
  status ∈ [.voterAgreed, .finished, .aborted, .terminated]

def checkCRCProposalWithdrawTransaction (references : References) : Outcome String Unit := do
  references.forM fun entry =>
    .require (entry.2.programHash = chain.chainParams.crcCommitteeAddress)
      "proposal withdrawal transaction for non-crc committee address"
  match tx.payload with
  | .crcProposalWithdraw withdraw => do
    let proposal ← ofOption "proposal not exist"
      (chain.crCommittee.getProposal withdraw.proposalHash)
    .require (withdrawalStatus proposal.status) "proposal status is not VoterAgreed , Finished, Aborted or Terminated"
    .require (proposal.proposalOwner = withdraw.ownerPublicKey) "the OwnerPublicKey is not owner of proposal"
    let fee := getTransactionFee tx references
    .reject (chain.isSmallThanMinTransactionFee fee) "transaction fee not enough"
    let withdrawAmount :=
      chain.crCommittee.availableWithdrawalAmount withdraw.proposalHash
    .reject (withdrawAmount = 0) "no need to withdraw"
    let first ← firstOutput tx
    .require (first.value + fee = withdrawAmount) "txn.Outputs[0].Value + fee != withdrawAmout "
    let code ← getCode chain.prim withdraw.ownerPublicKey
    checkCRTransactionSignature chain.prim withdraw.signature code
      withdraw.serializeUnsigned
  | _ => .fail "invalid payload"

def checkCRCAppropriationTransaction (references : References) : Outcome String Unit := do
  .require (chain.crCommittee.needAppropriation = true) "should have no appropriation transaction"
  references.forM fun entry =>
    .require (entry.2.programHash = chain.chainParams.crcFoundation) "input does not from CRC foundation"
  let totalInput := wrappedSum references.values
  let totalOutput := wrappedSum (valuesOf tx.outputs)
  .require (totalInput = totalOutput)
    ("inputs does not equal to outputs amount, inputs:" ++ Fixed64.text totalInput ++
      " outputs:" ++ Fixed64.text totalOutput)
  let first ← firstOutput tx
  .require (chain.crCommittee.appropriationAmount = first.value)
    ("invalid appropriation amount " ++ Fixed64.text first.value ++
      ", need to be " ++ Fixed64.text chain.crCommittee.appropriationAmount)

section Tracking
variable (tracking : CRCProposalTracking) (proposal : ProposalState)

/-- The last signature of a tracking covers all that was signed before it. -/
def checkSecretaryGeneralSignature (signed : Bytes) : Outcome String Unit :=
  checkOwnerSignature chain.prim chain.chainParams.secretaryGeneral
    (signed ++ [tracking.proposalTrackingType.code] ++ tracking.secretaryGeneralOpinionHash.bytes)
    tracking.secretaryGeneralSignature
    "invalid proposal secretary general public key"
    "secretary general signature check failed"

def checkProposalOwnerSignature : Outcome String Bytes := do
  .require (proposal.proposalOwner = tracking.ownerPublicKey) "the OwnerPublicKey is not owner of proposal"
  checkOwnerSignature chain.prim tracking.ownerPublicKey tracking.serializeUnsigned
    tracking.ownerSignature "invalid proposal owner"
    "proposal owner signature check failed"
  .ok (tracking.serializeUnsigned ++ writeVarBytes tracking.ownerSignature)

def checkProposalNewOwnerSignature (signed : Bytes) : Outcome String Bytes := do
  checkOwnerSignature chain.prim tracking.newOwnerPublicKey signed
    tracking.newOwnerSignature "invalid new proposal owner public key"
    "new proposal owner signature check failed"
  .ok (signed ++ writeVarBytes tracking.newOwnerSignature)

def checkCRCProposalTrackingSignature : Outcome String Unit := do
  let signed ← chain.checkProposalOwnerSignature tracking proposal
  let signed ← chain.checkProposalNewOwnerSignature tracking signed
  chain.checkSecretaryGeneralSignature tracking signed

def normalCheckCRCProposalTrackingSignature : Outcome String Unit := do
  .require (tracking.newOwnerPublicKey.length = 0) "the NewOwnerPublicKey need to be empty"
  let signed ← chain.checkProposalOwnerSignature tracking proposal
  .require (tracking.newOwnerSignature.length = 0) "the NewOwnerSignature need to be empty"
  chain.checkSecretaryGeneralSignature tracking
    (signed ++ writeVarBytes tracking.newOwnerSignature)

/-- Common and terminating trackings, and below them a change of owner, name no
stage. -/
def checkCRCProposalCommonTracking : Outcome String Unit := do
  .require (tracking.stage = 0) "stage should assignment zero value"
  chain.normalCheckCRCProposalTrackingSignature tracking proposal

def checkCRCProposalTerminatedTracking : Outcome String Unit := do
  .require (tracking.stage = 0) "stage should assignment zero value"
  chain.normalCheckCRCProposalTrackingSignature tracking proposal

def checkCRCProposalOwnerTracking : Outcome String Unit := do
  .require (tracking.stage = 0) "stage should assignment zero value"
  chain.checkCRCProposalTrackingSignature tracking proposal

def checkCRCProposalProgressTracking : Outcome String Unit := do
  .reject (proposal.proposal.budgets.length ≤ tracking.stage.toNat) "invalid tracking Stage"
  .reject (proposal.withdrawableBudgets.lookup tracking.stage).isSome "invalid budgets with tracking budget"
  proposal.proposal.budgets.forM fun budget =>
    .reject (tracking.stage = budget.stage ∧ (budget.budgetType = imprest ∨ budget.budgetType = finalPayment))
      "imprest and final payment not allowed to withdraw"
  chain.normalCheckCRCProposalTrackingSignature tracking proposal

def finalStage (budgets : List Budget) : UInt8 :=
  budgets.foldl (fun stage budget =>
    if budget.budgetType = finalPayment then budget.stage else stage) 0

def checkCRCProposalFinalizedTracking : Outcome String Unit := do
  .require (tracking.stage = finalStage proposal.proposal.budgets) "cptPayload.Stage is not proposal final stage"
  chain.normalCheckCRCProposalTrackingSignature tracking proposal

end Tracking

def checkCRCProposalTrackingTransaction : Outcome String Unit :=
  match tx.payload with
  | .crcProposalTracking tracking => do
    let proposal ← ofOption "proposal not exist"
      (chain.crCommittee.getProposal tracking.proposalHash)
    .require (proposal.status = .voterAgreed) "proposal status is not VoterAgreed"
    .reject (chain.chainParams.maxProposalTrackingCount ≤ proposal.trackingCount) "reached max tracking count"
    match tracking.proposalTrackingType with
    | .common => chain.checkCRCProposalCommonTracking tracking proposal
    | .progress => chain.checkCRCProposalProgressTracking tracking proposal
    | .rejected => chain.checkCRCProposalProgressTracking tracking proposal
    | .terminated => chain.checkCRCProposalTerminatedTracking tracking proposal
    | .changeOwner => chain.checkCRCProposalOwnerTracking tracking proposal
    | .finalized => chain.checkCRCProposalFinalizedTracking tracking proposal
    | .unknown _ => .fail "invalid proposal tracking type"
  | _ => .fail "invalid payload"

end BlockChain
end Elastos.Blockchain
