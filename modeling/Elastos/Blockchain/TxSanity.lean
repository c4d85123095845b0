import Elastos.Blockchain.Validation

/-! `CheckTransactionSanity`: the checks of a transaction that do not look at the
outputs it spends. -/
set_option autoImplicit false
namespace Elastos.Blockchain
open Go Common Config Crypto Elastos.Core Elastos.Types

/-- `pact.MaxBlockContextSize`. -/
def maxBlockContextSize : Int := 8000000

variable (tx : Transaction)

def noCostType : Bool :=
  tx.isIllegalTypeTx || tx.txType = .inactiveArbitrators ||
    tx.txType = .updateVersion || tx.txType = .activateProducer

/-- The payload assertion discards its result, so another payload is a nil pointer. -/
def checkVoteVersion (output : Output) : Outcome String Unit :=
  if output.outputType = .vote then
    match output.payload with
    | .vote vote =>
      .reject (voteProducerAndCRVersion ≤ vote.version)
        "not support VoteProducerAndCRVersion before CRVotingStartHeight"
    | _ => .crash "invalid memory address or nil pointer dereference"
  else
    .ok ()

variable (params : Params) (tx : Transaction) (blockHeight : UInt32)

def checkTxHeightVersion : Outcome String Unit :=
  match tx.txType with
  | .registerCR | .updateCR =>
    .reject (blockHeight < params.crVotingStartHeight ∨ blockHeight < params.registerCRByDIDHeight ∧
          tx.payloadVersion ≠ crInfoVersion)
      "not support before CRVotingStartHeight"
  | .unregisterCR | .returnCRDepositCoin =>
    .reject (blockHeight < params.crVotingStartHeight) "not support before CRVotingStartHeight"
  | .crcProposal | .crcProposalReview | .crcProposalTracking | .crcAppropriation
  | .crcProposalWithdraw =>
    .reject (blockHeight < params.crCommitteeStartHeight) "not support before CRCommitteeStartHeight"
  | .transferAsset =>
    if params.crVotingStartHeight ≤ blockHeight then .ok ()
    else if txVersion09 ≤ tx.version then tx.outputs.forM checkVoteVersion
    else .ok ()
  | _ => .ok ()

def checkTransactionSize : Outcome String Unit :=
  .reject (tx.getSize ≤ 0 ∨ maxBlockContextSize < tx.getSize)
    ("Invalid transaction size: " ++ toString tx.getSize ++ " bytes")

/-- The out point that no transaction has: it stands in coinbase inputs. -/
def nullOutPoint : OutPoint := { txID := default, index := 0xffff }

def checkInput (seen : List OutPoint) (input : Input) : Outcome String (List OutPoint) := do
  .reject (input.previous = nullOutPoint) "invalid transaction input"
  .reject (input.previous ∈ seen) "duplicated transaction inputs"
  .ok (input.previous :: seen)

def checkTransactionInput : Outcome String Unit :=
  if tx.isCoinBaseTx then
    match tx.inputs with
    | [input] =>
      .require (input.previous = nullOutPoint ∧ input.sequence = 0xffffffff) "invalid coinbase input"
    | _ => .fail "coinbase must has only one input"
  else if noCostType tx || tx.isNewSideChainPowTx then
    .require (tx.inputs.length = 0) "no cost transactions must has no input"
  else do
    .reject (tx.inputs.length ≤ 0) "transaction has no inputs"
    let _ ← tx.inputs.foldlM checkInput []
    .ok ()

/-- `common.Fixed64(float64(amount) * factor)` and its division. -/
def thirtyPercent (amount : Fixed64) : Float64 :=
  Float64.mul (Float64.ofInt amount.toInt) (Float64.round (3 / 10))

def toFixed64 (value : Float64) : Fixed64 :=
  Int64.ofInt (Float64.truncate value)

def checkCoinbaseOutput : Outcome String Unit :=
  match tx.outputs with
  | first :: second :: rest => do
    if params.crCommitteeStartHeight ≤ blockHeight then
      .require (first.programHash = params.crcFoundation) "first output address should be CRC foundation address"
    else
      .require (first.programHash = params.foundation) "first output address should be foundation address"
    if blockHeight < params.publicDPOSHeight then
      tx.outputs.forM fun output =>
        .require (output.assetID = params.elaAssetID) "asset ID in coinbase is invalid"
      let totalReward := wrappedSum (valuesOf tx.outputs)
      .reject (first.value < toFixed64 (thirtyPercent totalReward)) "reward to foundation in coinbase < 30%"
    else
      -- Only a coinbase without payouts has the share of the foundation checked.
      let totalReward := first.value + second.value
      .reject (rest = [] ∧ first.value < toFixed64 (Float64.div (thirtyPercent totalReward) (Float64.round (65 / 100))))
        "reward to foundation in coinbase < 30%"
  | _ => .fail "coinbase output is not enough, at least 2"

def checkCRCAppropriationOutput (params : Params) (tx : Transaction) : Outcome String Unit :=
  match tx.outputs with
  | [first, second] => do
    .require (first.programHash = params.crcCommitteeAddress)
      "new CRCAppropriation tx must have the firstoutput to CRC committee address"
    .require (second.programHash = params.crcFoundation)
      "new CRCAppropriation tx must have the secondoutput to CRC foundation"
  | _ => .fail "new CRCAppropriation tx must have two output"

def checkNewSideChainPowOutput : Outcome String Unit :=
  match tx.outputs with
  | [output] => do
    .require (output.value = 0) "the value of new sideChainPow tx output must be 0"
    .require (output.outputType = .none) "the type of new sideChainPow tx output must be OTNone"
  | _ => .fail "new sideChainPow tx must have only one output"

/-- Indexing the first output of a transaction without outputs panics. -/
def firstOutput : Outcome String Output :=
  match tx.outputs with
  | first :: _ => .ok first
  | [] => .crash "index out of range"

def checkOutputProgramHash (prim : Primitives) (params : Params) (height : UInt32)
    (programHash : Uint168) : Outcome String Unit :=
  if params.checkAddressHeight ≤ height then
    if programHash = default ∨ programHash = crcAssetsAddress ∨ programHash = crcExpensesAddress then
      .ok ()
    else do
      .require (programHash.prefixByte ∈ [prefixStandard, prefixMultiSig, prefixCrossChain, prefixDeposit])
        "invalid program hash prefix"
      let address ← Outcome.mapError (fun _ => "invalid program hash")
        (toAddress prim programHash)
      let _ ← Outcome.mapError (fun _ => "invalid program hash")
        (fromAddress prim address)
      .ok ()
  else
    .ok ()

/-- Votes and mappings stand in asset transfers only. -/
def checkOutputType (txType : TxType) (output : Output) : Outcome String Unit :=
  if txType = .transferAsset then
    match output.outputType with
    | .vote =>
      .require (output.programHash.prefixByte = prefixStandard) "output address should be standard"
    | .none | .mapping => .ok ()
    | .unknown _ =>
      .fail "transaction type dose not match the output payload type"
  else
    .require (output.outputType = .none) "transaction type dose not match the output payload type"

def checkOutputPayload (prim : Primitives) (txType : TxType) (output : Output) : Outcome String Unit := do
  checkOutputType txType output
  output.payload.validate prim

namespace BlockChain
variable (chain : BlockChain)

def checkCRCProposalWithdrawOutput (tx : Transaction) : Outcome String Unit := do
  match tx.payload with
  | .crcProposalWithdraw withdraw =>
    let proposal ← Outcome.ofOption "proposal not exist"
      (chain.crCommittee.getProposal withdraw.proposalHash)
    let first ← firstOutput tx
    .require (first.programHash = proposal.proposal.recipient) "txn.Outputs[0].ProgramHash != Recipient"
    .require (∀ second ∈ tx.outputs[1]?, second.programHash = chain.chainParams.crcCommitteeAddress)
      "txn.Outputs[1].ProgramHash !=CRCComitteeAddresss"
    .reject (2 < tx.outputs.length) "CRCProposalWithdraw tx should not have over two output"
  | _ => .fail "checkCRCProposalWithdrawOutput invalid payload"

variable (tx : Transaction) (blockHeight : UInt32)

def checkOutput (output : Output) : Outcome String Unit := do
  .require (output.assetID = chain.chainParams.elaAssetID) "asset ID in output is invalid"
  .reject (output.value < 0) "Invalide transaction UTXO output."
  checkOutputProgramHash chain.prim chain.chainParams blockHeight output.programHash
  if txVersion09 ≤ tx.version then
    checkOutputPayload chain.prim tx.txType output
  else
    .ok ()

def specialOutputCount (tx : Transaction) : Nat :=
  if txVersion09 ≤ tx.version then
    (tx.outputs.filter fun output => output.outputType ≠ .none).length
  else 0

/-- The part of `checkTransactionOutput` that ordinary transactions reach. -/
def checkOrdinaryOutputs : Outcome String Unit := do
  .reject (tx.outputs.length < 1) "transaction has no outputs"
  .when (tx.txType = .crcProposalWithdraw) (chain.checkCRCProposalWithdrawOutput tx)
  tx.outputs.forM (chain.checkOutput tx blockHeight)
  .reject (chain.chainParams.publicDPOSHeight ≤ chain.getHeight ∧ 1 < specialOutputCount tx)
    "special output count should less equal than 1"

def checkTransactionOutput : Outcome String Unit := do
  .reject (0xffff < tx.outputs.length) "output count should not be greater than 65535(MaxUint16)"
  if tx.isCoinBaseTx then
    checkCoinbaseOutput chain.chainParams tx blockHeight
  else if noCostType tx then
    .require (tx.outputs.length = 0) "no cost transactions should have no output"
  else
    .when (tx.txType = .crcAppropriation)
      (checkCRCAppropriationOutput chain.chainParams tx)
    if tx.isNewSideChainPowTx then
      checkNewSideChainPowOutput tx
    else
      chain.checkOrdinaryOutputs tx blockHeight

end BlockChain

/-- `amount % 10^(8-precision) == 0`. -/
def checkAmountPrecise (amount : Fixed64) (precision : UInt8) : Bool :=
  Int.tmod amount.toInt (10 ^ (8 - precision).toNat) = 0

/-- `ELAPrecision` is 8, so every amount passes. -/
def checkAssetPrecision : Outcome String Unit :=
  tx.outputs.forM fun output =>
    .require (checkAmountPrecise output.value 8) "the precision of asset is incorrect"

def checkAttributes : Outcome String Unit := do
  tx.attributes.forM fun item =>
    .require (Attribute.isValidType item.usage)
      ("invalid attribute usage " ++ toString item.usage)
  .reject (tx.programs.length = 0) "no programs found in transaction"

def checkAttributeProgram : Outcome String Unit :=
  match tx.txType with
  | .coinBase =>
    .require (tx.programs.length = 0) "transaction should have no programs"
  | .illegalSidechainEvidence | .illegalProposalEvidence | .illegalVoteEvidence
  | .activateProducer =>
    .require (tx.programs.length = 0 ∧ tx.attributes.length = 0) "zero cost tx should have no attributes and programs"
  | .illegalBlockEvidence => do
    .require (tx.programs.length = 1) "illegal block transactions should have one and only one program"
    .require (tx.attributes.length = 0) "illegal block transactions should have no programs"
    checkAttributes tx
  | .inactiveArbitrators | .updateVersion => do
    .require (tx.programs.length = 1) "inactive arbitrators transactions should have one and only one program"
    .require (tx.attributes.length = 1) "inactive arbitrators transactions should have one and only one arbitrator"
    checkAttributes tx
  | .sideChainPow =>
    if tx.isNewSideChainPowTx then
      .require (tx.programs.length = 0 ∧ tx.attributes.length = 0)
        "sideChainPow transactions should have no attributes and programs"
    else
      checkAttributes tx
  | .crcAppropriation => do
    .require (tx.programs.length = 0) "CRCAppropriation txs should have no programs"
    .require (tx.attributes.length = 0) "CRCAppropriation txs should have no attributes"
  | .returnDepositCoin => do
    .reject (params.crVotingStartHeight ≤ blockHeight ∧ tx.programs.length ≠ 1)
      "return deposit coin transactions should have one and only one program"
    checkAttributes tx
  | .returnCRDepositCoin => do
    .require (tx.programs.length = 1) "return CR deposit coin transactions should have one and only one program"
    checkAttributes tx
  | .crcProposalWithdraw =>
    .require (tx.programs.length = 0) "crcproposalwithdraw tx should have no programs"
  | _ => checkAttributes tx

/-- The payload of a version update is not in the list and is refused. -/
def checkTransactionPayload : Outcome String Unit :=
  match tx.payload with
  | .registerAsset asset => do
    .reject (8 < asset.precision) "Invalide asset Precision."
    .require (checkAmountPrecise asset.amount asset.precision) "Invalide asset value,out of precise."
  | .updateVersion _ =>
    .fail "[txValidator],invalidate transaction payload type."
  | _ => .ok ()

def checkDuplicateSidechainTx : Outcome String Unit :=
  if tx.txType = .withdrawFromSideChain then
    match tx.payload with
    | .withdrawFromSideChain withdraw =>
      .require withdraw.sideChainTransactionHashes.Nodup "Duplicate sidechain tx detected in a transaction"
    | _ => .crash "interface conversion"
  else
    .ok ()

namespace BlockChain

def checkTransactionSanity (chain : BlockChain) (blockHeight : UInt32) (tx : Transaction) : Outcome ELAError Unit := do
  withCode .txHeightVersion (checkTxHeightVersion chain.chainParams tx blockHeight)
  withCode .txSize (checkTransactionSize tx)
  withCode .txInvalidInput (checkTransactionInput tx)
  withCode .txInvalidOutput (chain.checkTransactionOutput tx blockHeight)
  withCode .txAssetPrecision (checkAssetPrecision tx)
  withCode .txAttributeProgram (checkAttributeProgram chain.chainParams tx blockHeight)
  withCode .txPayload (checkTransactionPayload tx)
  withCode .txSidechainDuplicate (checkDuplicateSidechainTx tx)

end BlockChain
end Elastos.Blockchain
