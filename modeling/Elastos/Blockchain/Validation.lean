import Elastos.Dpos.State

/-! What the validators of `blockchain` read, the chain store, the producer state, the committee and
the arbitrators as one record, the signature checks of `validation.go`, and the checks of confirms. -/
set_option autoImplicit false
namespace Elastos.Blockchain
open Go Common Config Crypto Elastos.Types Dpos Elastos.Core

inductive ErrCode where
  | blockValidation
  | blockIneffectiveCoinbase
  | txInvalidInput
  | txInvalidOutput
  | txBalance
  | txAttributeProgram
  | txSignature
  | txPayload
  | txDoubleSpend
  | txSize
  | txUTXOLocked
  | txDuplicate
  | txHeightVersion
  | txAssetPrecision
  | txReturnDeposit
  | txAppropriation
  | txSidechainDuplicate
  | txSidechainPowConsensus
  deriving DecidableEq

def ErrCode.value : ErrCode → Int
  | .blockValidation => -12000
  | .blockIneffectiveCoinbase => -12001
  | .txInvalidInput => -22001
  | .txInvalidOutput => -22002
  | .txBalance => -22003
  | .txAttributeProgram => -22004
  | .txSignature => -22005
  | .txPayload => -22006
  | .txDoubleSpend => -22007
  | .txSize => -22008
  | .txUTXOLocked => -22010
  | .txDuplicate => -22011
  | .txHeightVersion => -22012
  | .txAssetPrecision => -22013
  | .txReturnDeposit => -22014
  | .txAppropriation => -22015
  | .txSidechainDuplicate => -23001
  | .txSidechainPowConsensus => -23002

structure ELAError where
  code : ErrCode
  inner : Option String
  deriving DecidableEq

/-- Attach a code to the error of a check, as `elaerr.Simple(code, err)`. -/
def withCode {α : Type} (code : ErrCode) (check : Outcome String α) : Outcome ELAError α :=
  Outcome.mapError (fun reason => { code, inner := some reason }) check

/-- The errors of the block checks: a text, an error of a transaction with the
message that goes with it, or the code of a missing reference. -/
inductive BlockError where
  | text (reason : String)
  | transaction (message : String) (inner : ELAError)
  | unknownReferredTx
  deriving DecidableEq

/-- The lookups in the block store. `utxoValues` are the values of the unspent
outputs at an address. -/
structure ChainStore where
  getTransaction : Uint256 → Outcome String Transaction
  getUnspent : Uint256 → Outcome String (List UInt16)
  isTx3Exist : Uint256 → Bool
  utxoValues : Uint168 → Outcome String (List Fixed64)

/-- The checks of a header alone: the auxiliary proof of work, the proof of work,
and the latest time stamp accepted at the moment. -/
structure HeaderRules where
  checkAuxPow : Header → Outcome String Bool
  checkProofOfWork : Header → Outcome String Unit
  maxTimestamp : Int

structure BlockChain where
  prim : Primitives
  runtime : Runtime
  store : ChainStore
  arbitrators : Arbitrators
  headerRules : HeaderRules

/-- The predecessor of a block, of which the checks use the difficulty required
after it and the median time of the blocks up to it. -/
structure BlockNode where
  nextRequiredDifficulty : UInt32 → Outcome String UInt32
  pastMedianTime : Int

/-- The outputs that the inputs of a transaction refer to. The order in which
the map is iterated is the order of the list. -/
abbrev References := List (Input × Output)

namespace BlockChain

abbrev chainParams (chain : BlockChain) : Params := chain.arbitrators.params
abbrev getHeight (chain : BlockChain) : UInt32 := chain.arbitrators.bestHeight
abbrev state (chain : BlockChain) : StateKeyFrame := chain.arbitrators.state
abbrev crCommittee (chain : BlockChain) : Cr.Frame := chain.arbitrators.crCommittee

variable (chain : BlockChain)

def isTxHashDuplicate (hash : Uint256) : Bool :=
  (chain.store.getTransaction hash).isOk

/-- An input is spent when its index is not among the unspent ones. -/
def isSpent (input : Input) : Bool :=
  match chain.store.getUnspent input.previous.txID with
  | .ok unspents => input.previous.index ∉ unspents
  | .error _ => true

def isDoubleSpend (tx : Transaction) : Bool :=
  tx.inputs.any chain.isSpent

def getTransaction (hash : Uint256) : Outcome String Transaction :=
  Outcome.mapError (fun reason => "transaction not found, " ++ reason)
    (chain.store.getTransaction hash)

def getReference (input : Input) : Outcome String (Input × Output) := do
  let previous ← Outcome.mapError (fun reason => "GetTxReference failed, " ++ reason)
    (chain.getTransaction input.previous.txID)
  let output ← Outcome.ofOption "GetTxReference failed, refIdx out of range"
    previous.outputs[input.previous.index.toNat]?
  .ok (input, output)

def getTxReference (tx : Transaction) : Outcome String References := do
  let references ← tx.inputs.mapM chain.getReference
  .ok (chain.runtime.iterate references)

end BlockChain

def valuesOf (outputs : List Output) : List Fixed64 :=
  outputs.map Output.value

def References.values (references : References) : List Fixed64 :=
  references.map fun entry => entry.2.value

variable (prim : Primitives)
variable (program : Program) (data : Bytes)

def checkStandardSignature : Outcome String Unit := do
  .require (program.parameter.length = signatureScriptLength) "invalid signature length"
  let key ← pushedKey program.code
  let publicKey ← prim.decodePoint key
  prim.verifySignature publicKey data (program.parameter.drop 1)

/-- The first key of a script that a signature verifies under. A key that cannot
be decoded ends the search with an error. -/
def matchSignature (data sign : Bytes) : List Bytes → Outcome String (Option Bytes)
  | [] => .ok none
  | key :: rest => do
    let publicKey ← prim.decodePoint (key.drop 1)
    match prim.verifySignature publicKey data sign with
    | .ok _ => .ok (some key)
    | .error _ => matchSignature data sign rest

/-- One round of the loop over the signatures. The keys already used are kept by
their hash, which covers the length byte in front of the key. -/
def verifyRound (publicKeys : List Bytes) (data : Bytes) (verified : List Uint256)
    (signature : Bytes) : Outcome String (List Uint256) := do
  match ← matchSignature prim data (signature.drop 1) publicKeys with
  | none => .ok verified
  | some key =>
    .reject (prim.sha256 key ∈ verified) "duplicated signatures"
    .ok (prim.sha256 key :: verified)

def signatureChunks (signatures : Bytes) : List Bytes :=
  chunks signatureScriptLength (signatures.length / signatureScriptLength) signatures

def verifyMultisigSignatures (m n : Int) (publicKeys : List Bytes) (signatures data : Bytes) : Outcome String Unit := do
  .require (publicKeys.length = n) "invalid multi sign public key script count"
  .require (signatures.length % signatureScriptLength = 0) "invalid multi sign signatures, length not match"
  .reject ((signatures.length / signatureScriptLength : Nat) < m) "invalid signatures, not enough signatures"
  .reject (n < (signatures.length / signatureScriptLength : Nat)) "invalid signatures, too many signatures"
  let verified ← (signatureChunks signatures).foldlM
    (verifyRound prim publicKeys data) []
  .reject (verified.length < m) "matched signatures not enough"

def multisigCounts (code : Bytes) : Outcome String (Int × Int) :=
  if code.length < 2 then .crash "index out of range"
  else
    .ok (((code.headD 0).toNat : Int) - push1 + 1, ((code.dropLast.getLastD 0).toNat : Int) - push1 + 1)

def checkMultiSigSignatures : Outcome String Unit := do
  let (m, n) ← multisigCounts program.code
  .reject (m < 1 ∨ n < m) "invalid multi sign script code"
  let publicKeys ← parseMultisigScript program.code
  verifyMultisigSignatures prim m n publicKeys program.parameter data

namespace BlockChain
variable (chain : BlockChain)

def checkCrossChainSignatures (program : Program) (data : Bytes) : Outcome String Unit := do
  let (m, n) ← multisigCounts program.code
  .reject (m < 1 ∨ n < m ∨ n ≠ chain.arbitrators.getCrossChainArbitersCount ∨
      m ≤ chain.arbitrators.getCrossChainArbitersMajorityCount)
    "invalid multi sign script code"
  let publicKeys ← parseCrossChainScript program.code
  verifyMultisigSignatures chain.prim m n publicKeys program.parameter data

/-- The code of a cross-chain program is not compared with the program hash. -/
def runProgram (data : Bytes) (programHash : Uint168) (program : Program) : Outcome String Unit :=
  let prefixType := programHash.prefixByte
  if prefixType = prefixCrossChain then
    chain.checkCrossChainSignatures program data
  else do
    .require (programHash.toCodeHash = chain.prim.toCodeHash program.code)
      "the data hashes is different with corresponding program code"
    if prefixType = prefixStandard ∨ prefixType = prefixDeposit then
      checkStandardSignature chain.prim program data
    else if prefixType = prefixMultiSig then
      checkMultiSigSignatures chain.prim program data
    else
      .fail "unknown signature type"

def runPrograms (data : Bytes) (programHashes : List Uint168) (programs : List Program) : Outcome String Unit := do
  .require (programHashes.length = programs.length) "the number of data hashes is different with number of programs"
  (programHashes.zip programs).forM fun pair => chain.runProgram data pair.1 pair.2

def attributeHash (item : Attribute) : Outcome String Uint168 :=
  Outcome.mapError (fun _ => "[Transaction], GetProgramHashes err")
    (Uint168.fromBytes item.data)

variable (tx : Transaction) (references : References)

def getTxProgramHashes : Outcome String (List Uint168) := do
  let scripts := tx.attributes.filter fun item => item.usage = Attribute.script
  let scriptHashes ← scripts.mapM attributeHash
  let hashes := references.map (fun entry => entry.2.programHash) ++ scriptHashes
  .ok (chain.runtime.iterate hashes.dedup)

def sortProgramHashByCodeHash (hashes : List Uint168) : List Uint168 :=
  chain.runtime.sort (fun left right => left.toCodeHash.less right.toCodeHash) hashes

def sortPrograms (programs : List Program) : List Program :=
  chain.runtime.sort (fun left right =>
    (chain.prim.toCodeHash left.code).less (chain.prim.toCodeHash right.code)) programs

/-- Returns the programs in the order in which they were run and left in the
transaction. A proposal withdrawal is not signed. -/
def checkTransactionSignature : Outcome String (List Program) :=
  if tx.txType = .crcProposalWithdraw then .ok tx.programs
  else do
    let programHashes ← chain.getTxProgramHashes tx references
    let sortedHashes := chain.sortProgramHashByCodeHash programHashes
    let sortedPrograms := chain.sortPrograms tx.programs
    chain.runPrograms tx.serializeUnsigned.bytes sortedHashes sortedPrograms
    .ok sortedPrograms

end BlockChain

section Sanity
variable (prim : Primitives)

def proposalSanityCheck (proposal : DPOSProposal) : Outcome String Unit := do
  let publicKey ← prim.decodePoint proposal.sponsor
  prim.verifySignature publicKey proposal.data proposal.sign

def voteSanityCheck (vote : DPOSProposalVote) : Outcome String Unit := do
  let publicKey ← prim.decodePoint vote.signer
  prim.verifySignature publicKey vote.data vote.sign

def confirmVoteSanityCheck (proposalHash : Uint256) (vote : DPOSProposalVote) : Outcome String Unit := do
  .require (vote.accept = true) "[ConfirmSanityCheck] confirm contains reject vote"
  .require (proposalHash = vote.proposalHash) "[ConfirmSanityCheck] confirm contains invalid vote"
  Outcome.mapError (fun reason =>
      "[ConfirmSanityCheck] confirm contain invalid vote: " ++ reason)
    (voteSanityCheck prim vote)

def confirmSanityCheck (confirm : Confirm) : Outcome String Unit := do
  Outcome.mapError (fun reason =>
      "[ConfirmSanityCheck] confirm contain invalid proposal: " ++ reason)
    (proposalSanityCheck prim confirm.proposal)
  confirm.votes.forM (confirmVoteSanityCheck prim (confirm.proposal.hash prim))

end Sanity

section Context
variable (arbitrators : Arbitrators)

def proposalContextCheck (proposal : DPOSProposal) : Outcome String Unit :=
  .require (proposal.sponsor ∈ arbitrators.getArbitrators) "current arbitrators verify error"

def voteContextCheck (vote : DPOSProposalVote) : Outcome String Unit :=
  .require (vote.signer ∈ arbitrators.getArbitrators) "current arbitrators verify error"

def checkKeyByHeight (publicKey : Bytes) (height : UInt32) : Outcome String Unit := do
  let keyFrames ← arbitrators.getSnapshot height
  .require (∃ keyFrame ∈ keyFrames, publicKey ∈ keyFrame) "current arbitrators verify error"

def confirmContextCheck (confirm : Confirm) : Outcome String Unit := do
  let signers := (confirm.votes.map (·.signer)).dedup
  .reject (signers.length ≤ arbitrators.getArbitersMajorityCount)
    "[ConfirmContextCheck] signers less than majority count"
  Outcome.mapError (fun reason =>
      "[ConfirmContextCheck] confirm contain invalid proposal: " ++ reason)
    (proposalContextCheck arbitrators confirm.proposal)
  confirm.votes.forM fun vote =>
    Outcome.mapError (fun reason =>
        "[ConfirmContextCheck] confirm contain invalid vote: " ++ reason)
      (voteContextCheck arbitrators vote)

end Context

section Evidence
variable (prim : Primitives)

def decode {α : Type} (reader : Reader α) (data : Bytes) : Outcome String α := do
  let (value, _) ← reader data
  .ok value

def validateProposalEvidence (evidence : ProposalEvidence) : Outcome String Unit := do
  let header ← decode Header.deserialize evidence.blockHeader
  .require (header.height = evidence.blockHeight) "evidence height and block height should match"
  .require (header.hash prim = evidence.proposal.blockHash) "proposal hash and block should match"

def validateVoteEvidence (evidence : VoteEvidence) : Outcome String Unit := do
  validateProposalEvidence prim evidence.toProposalEvidence
  .require (evidence.proposal.hash prim = evidence.vote.proposalHash) "vote and proposal should match"

end Evidence

namespace BlockChain
variable (chain : BlockChain)

def proposalCheckByHeight (proposal : DPOSProposal) (height : UInt32) : Outcome String Unit := do
  proposalSanityCheck chain.prim proposal
  checkKeyByHeight chain.arbitrators proposal.sponsor height

def voteCheckByHeight (vote : DPOSProposalVote) (height : UInt32) : Outcome String Unit := do
  voteSanityCheck chain.prim vote
  checkKeyByHeight chain.arbitrators vote.signer height

def checkDPOSIllegalProposals (payload : DPOSIllegalProposals) : Outcome String Unit := do
  let evidence := payload.evidence
  let compare := payload.compareEvidence
  validateProposalEvidence chain.prim evidence
  validateProposalEvidence chain.prim compare
  .require (evidence.blockHeight = compare.blockHeight) "should be in same height"
  let hash := evidence.proposal.hash chain.prim
  let compareHash := compare.proposal.hash chain.prim
  .reject (hash = compareHash) "proposals can not be same"
  .reject (compareHash.less hash) "evidence order error"
  .require (evidence.proposal.sponsor = compare.proposal.sponsor) "should be same sponsor"
  .require (evidence.proposal.viewOffset = compare.proposal.viewOffset) "should in same view"
  chain.proposalCheckByHeight evidence.proposal evidence.blockHeight
  chain.proposalCheckByHeight compare.proposal evidence.blockHeight

def checkDPOSIllegalVotes (payload : DPOSIllegalVotes) : Outcome String Unit := do
  let evidence := payload.evidence
  let compare := payload.compareEvidence
  validateVoteEvidence chain.prim evidence
  validateVoteEvidence chain.prim compare
  .require (evidence.blockHeight = compare.blockHeight) "should be in same height"
  let hash := evidence.vote.hash chain.prim
  let compareHash := compare.vote.hash chain.prim
  .reject (hash = compareHash) "votes can not be same"
  .reject (compareHash.less hash) "evidence order error"
  .require (evidence.vote.signer = compare.vote.signer) "should be same signer"
  .require (evidence.proposal.sponsor = compare.proposal.sponsor) "should be same sponsor"
  .require (evidence.proposal.viewOffset = compare.proposal.viewOffset) "should in same view"
  chain.proposalCheckByHeight evidence.proposal evidence.blockHeight
  chain.proposalCheckByHeight compare.proposal evidence.blockHeight
  chain.voteCheckByHeight evidence.vote evidence.blockHeight
  chain.voteCheckByHeight compare.vote evidence.blockHeight

variable (payload : DPOSIllegalBlocks)

def checkDPOSElaIllegalBlockHeaders : Outcome String (Header × Header) := do
  let header ← decode Header.deserialize payload.evidence.header
  let compareHeader ← decode Header.deserialize payload.compareEvidence.header
  .require (header.height = payload.blockHeight ∧ compareHeader.height = payload.blockHeight)
    "block header height should be same"
  .ok (header, compareHeader)

def checkDPOSElaIllegalBlockConfirms (header compareHeader : Header) : Outcome String (Confirm × Confirm) := do
  let confirm ← decode Confirm.deserialize payload.evidence.blockConfirm
  let compareConfirm ← decode Confirm.deserialize payload.compareEvidence.blockConfirm
  confirmSanityCheck chain.prim confirm
  confirmContextCheck chain.arbitrators confirm
  confirmSanityCheck chain.prim compareConfirm
  confirmContextCheck chain.arbitrators compareConfirm
  .require (confirm.proposal.viewOffset = compareConfirm.proposal.viewOffset) "confirm view offset should not be same"
  .require (confirm.proposal.blockHash = header.hash chain.prim) "block and related confirm do not match"
  .require (compareConfirm.proposal.blockHash = compareHeader.hash chain.prim) "block and related confirm do not match"
  .ok (confirm, compareConfirm)

def getConfirmSigners (confirm : Confirm) : List Bytes :=
  confirm.votes.map (·.signer)

/-- A signer of evidence is a current arbiter or a producer out of office. -/
def isEvidenceSigner (signer : Bytes) : Bool :=
  signer ∈ chain.arbitrators.getArbitrators ||
    chain.arbitrators.isDisabledProducer signer

def checkDPOSElaIllegalBlockSigners (confirm compareConfirm : Confirm) : Outcome String Unit := do
  let signers := payload.evidence.signers
  let compareSigners := payload.compareEvidence.signers
  .require (signers.length = confirm.votes.length ∧ compareSigners.length = compareConfirm.votes.length)
    "signers count it not match the count of confirm votes"
  signers.forM fun signer =>
    .require (chain.isEvidenceSigner signer) "invalid signers within evidence"
  compareSigners.forM fun signer =>
    .require (chain.isEvidenceSigner signer) "invalid signers within evidence"
  signers.forM fun signer =>
    .require (signer ∈ getConfirmSigners confirm) "signers and confirm votes do not match"
  compareSigners.forM fun signer =>
    .require (signer ∈ getConfirmSigners compareConfirm) "signers and confirm votes do not match"

def checkDPOSIllegalBlocks : Outcome String Unit := do
  .reject (payload.evidence.blockHash chain.prim =
      payload.compareEvidence.blockHash chain.prim) "blocks can not be same"
  .reject (Bytes.less payload.compareEvidence.header payload.evidence.header) "evidence order error"
  if payload.coinType = elaCoin then
    let (header, compareHeader) ← checkDPOSElaIllegalBlockHeaders payload
    let (confirm, compareConfirm) ←
      chain.checkDPOSElaIllegalBlockConfirms payload header compareHeader
    chain.checkDPOSElaIllegalBlockSigners payload confirm compareConfirm
  else
    .fail "unknown coin type"

def checkSidechainIllegalEvidence (payload : SidechainIllegalData) : Outcome String Unit := do
  .require (payload.illegalType = sidechainIllegalProposal ∨ payload.illegalType = sidechainIllegalVote) "invalid type"
  let _ ← chain.prim.decodePoint payload.illegalSigner
  .require (chain.arbitrators.isArbitrator payload.illegalSigner) "illegal signer is not one of current arbitrators"
  let _ ← fromAddress chain.prim payload.genesisBlockAddress
  .reject (payload.signs.length ≤ chain.arbitrators.getArbitersMajorityCount) "insufficient signs count"
  .require (payload.evidence.less payload.compareEvidence) "evidence order error"

def checkCRCArbitratorsSignatures (program : Program) : Outcome String Unit := do
  let (m, n) ← multisigCounts program.code
  let count := chain.arbitrators.getCRCArbitersCount
  let minSignCount := Arbitrators.majorityOf count + 1
  .reject (m < 1 ∨ n < m ∨ n ≠ count ∨ m < minSignCount) "invalid multi sign script code"
  let publicKeys ← parseMultisigScript program.code
  publicKeys.forM fun key =>
    .require (chain.arbitrators.isCRCArbitrator (key.drop 1)) "invalid multi sign public key"

/-- Indexing the first program of a transaction without programs panics. -/
def firstProgram (tx : Transaction) : Outcome String Program :=
  match tx.programs with
  | program :: _ => .ok program
  | [] => .crash "index out of range"

def checkInactiveArbitrators (tx : Transaction) : Outcome String Unit :=
  match tx.payload with
  | .inactiveArbitrators payload => do
    .require (chain.arbitrators.isCRCArbitrator payload.sponsor) "sponsor is not belong to arbitrators"
    payload.arbitrators.forM fun key => do
      .require (chain.state.isActiveProducer key ∨ chain.arbitrators.isDisabledProducer key)
        "inactive arbitrator is not belong to arbitrators"
      .reject (chain.arbitrators.isCRCArbitrator key) "inactive arbiters should not include CRC"
    let program ← firstProgram tx
    chain.checkCRCArbitratorsSignatures program
  | _ => .fail "invalid payload"

end BlockChain
end Elastos.Blockchain
