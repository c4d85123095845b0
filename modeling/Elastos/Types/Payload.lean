import Elastos.Crypto.Script

/-! The payloads of transactions and of the DPoS consensus, and their encoding. A transaction carries
its type and its payload side by side; nothing ties the two together before the sanity checks. -/
set_option autoImplicit false
namespace Elastos.Types
open Common Crypto Reader
variable (prim : Primitives)

structure DPOSProposal where
  sponsor : Bytes
  blockHash : Uint256
  viewOffset : UInt32
  sign : Bytes
  deriving DecidableEq

namespace DPOSProposal
variable (proposal : DPOSProposal)

def serializeUnsigned : Bytes :=
  writeVarBytes proposal.sponsor ++ proposal.blockHash.bytes ++ writeUint32 proposal.viewOffset

def serialize : Bytes :=
  proposal.serializeUnsigned ++ writeVarBytes proposal.sign

def data : Bytes := proposal.serializeUnsigned

def hash : Uint256 :=
  prim.hash proposal.serializeUnsigned

def deserialize : Reader DPOSProposal := do
  let sponsor ← readVarBytes 33 "public key"
  let blockHash ← readArray 32
  let viewOffset ← readUint32
  let sign ← readVarBytes 64 "sign data"
  pure { sponsor, blockHash, viewOffset, sign }

end DPOSProposal

structure DPOSProposalVote where
  proposalHash : Uint256
  signer : Bytes
  accept : Bool
  sign : Bytes
  deriving DecidableEq

namespace DPOSProposalVote
variable (vote : DPOSProposalVote)

def serializeUnsigned : Bytes :=
  vote.proposalHash.bytes ++ writeVarBytes vote.signer ++ [if vote.accept then 1 else 0]

def serialize : Bytes :=
  vote.serializeUnsigned ++ writeVarBytes vote.sign

def data : Bytes := vote.serializeUnsigned

def hash : Uint256 :=
  prim.hash vote.serializeUnsigned

def deserialize : Reader DPOSProposalVote := do
  let proposalHash ← readArray 32
  let signer ← readVarBytes 33 "public key"
  let acceptValue ← readUint8
  let sign ← readVarBytes 64 "sign data"
  pure { proposalHash, signer, accept := acceptValue = 1, sign }

end DPOSProposalVote

structure Confirm where
  proposal : DPOSProposal
  votes : List DPOSProposalVote
  deriving DecidableEq

namespace Confirm

/-- `make` panics when the slice does not fit into the address space; a vote
takes 96 bytes. -/
def deserialize : Reader Confirm := do
  let proposal ← DPOSProposal.deserialize
  let signCount ← readUint64
  if 2 ^ 48 < 96 * signCount.toNat then
    (fun _ => .crash "makeslice: len out of range")
  else
    let votes ← readMany DPOSProposalVote.deserialize signCount.toNat
    pure { proposal, votes }

end Confirm

structure ProposalEvidence where
  proposal : DPOSProposal
  blockHeader : Bytes
  blockHeight : UInt32
  deriving DecidableEq

def ProposalEvidence.serialize (evidence : ProposalEvidence) : Bytes :=
  evidence.proposal.serialize ++ writeVarBytes evidence.blockHeader ++ writeUint32 evidence.blockHeight

structure DPOSIllegalProposals where
  evidence : ProposalEvidence
  compareEvidence : ProposalEvidence
  deriving DecidableEq

namespace DPOSIllegalProposals

def serialize (payload : DPOSIllegalProposals) : Bytes :=
  payload.evidence.serialize ++ payload.compareEvidence.serialize

def hash (payload : DPOSIllegalProposals) : Uint256 := prim.hash payload.serialize

end DPOSIllegalProposals

structure VoteEvidence extends ProposalEvidence where
  vote : DPOSProposalVote
  deriving DecidableEq

def VoteEvidence.serialize (evidence : VoteEvidence) : Bytes :=
  evidence.vote.serialize ++ evidence.toProposalEvidence.serialize

structure DPOSIllegalVotes where
  evidence : VoteEvidence
  compareEvidence : VoteEvidence
  deriving DecidableEq

namespace DPOSIllegalVotes

def serialize (payload : DPOSIllegalVotes) : Bytes :=
  payload.evidence.serialize ++ payload.compareEvidence.serialize

def hash (payload : DPOSIllegalVotes) : Uint256 := prim.hash payload.serialize

end DPOSIllegalVotes

structure BlockEvidence where
  header : Bytes
  blockConfirm : Bytes
  signers : List Bytes
  deriving DecidableEq

namespace BlockEvidence
variable (evidence : BlockEvidence)

def serializeUnsigned : Bytes :=
  writeVarBytes evidence.header

def serializeOthers : Bytes :=
  writeVarBytes evidence.blockConfirm ++ writeList writeVarBytes evidence.signers

def serialize : Bytes :=
  evidence.serializeUnsigned ++ evidence.serializeOthers

/-- The hash of the header, the confirm and the signers together. -/
def blockHash : Uint256 := prim.hash evidence.serialize

end BlockEvidence

/-- `ELACoin`. -/
def elaCoin : UInt32 := 0

structure DPOSIllegalBlocks where
  coinType : UInt32
  blockHeight : UInt32
  evidence : BlockEvidence
  compareEvidence : BlockEvidence
  deriving DecidableEq

namespace DPOSIllegalBlocks
variable (payload : DPOSIllegalBlocks)

def serializeUnsigned : Bytes :=
  writeUint32 payload.coinType ++ writeUint32 payload.blockHeight ++
    payload.evidence.serializeUnsigned ++ payload.compareEvidence.serializeUnsigned

def serialize : Bytes :=
  payload.serializeUnsigned ++ payload.evidence.serializeOthers ++ payload.compareEvidence.serializeOthers

def hash : Uint256 :=
  prim.hash payload.serializeUnsigned

end DPOSIllegalBlocks

/-- The values of `IllegalDataType` a side-chain evidence is checked against. -/
def sidechainIllegalProposal : UInt8 := 0x03
def sidechainIllegalVote : UInt8 := 0x04

structure SidechainIllegalData where
  illegalType : UInt8
  height : UInt32
  illegalSigner : Bytes
  evidence : Uint256
  compareEvidence : Uint256
  genesisBlockAddress : Bytes
  signs : List Bytes
  deriving DecidableEq

namespace SidechainIllegalData
variable (payload : SidechainIllegalData)

def serializeUnsigned : Bytes :=
  [payload.illegalType] ++ writeUint32 payload.height ++
    writeVarBytes payload.illegalSigner ++ payload.evidence.bytes ++
    payload.compareEvidence.bytes ++ writeVarBytes payload.genesisBlockAddress

def serialize : Bytes :=
  payload.serializeUnsigned ++ writeList writeVarBytes payload.signs

def hash : Uint256 :=
  prim.hash payload.serializeUnsigned

end SidechainIllegalData

structure InactiveArbitrators where
  sponsor : Bytes
  arbitrators : List Bytes
  blockHeight : UInt32
  deriving DecidableEq

namespace InactiveArbitrators
variable (payload : InactiveArbitrators)

def serializeUnsigned : Bytes :=
  writeVarBytes payload.sponsor ++ writeUint32 payload.blockHeight

def serialize : Bytes :=
  payload.serializeUnsigned ++ writeList writeVarBytes payload.arbitrators

def hash : Uint256 :=
  prim.hash payload.serializeUnsigned

end InactiveArbitrators

structure UpdateVersion where
  startHeight : UInt32
  endHeight : UInt32
  deriving DecidableEq

def UpdateVersion.serialize (payload : UpdateVersion) : Bytes :=
  writeUint32 payload.startHeight ++ writeUint32 payload.endHeight

structure RegisterAsset where
  name : Bytes
  description : Bytes
  precision : UInt8
  assetType : UInt8
  recordType : UInt8
  amount : Fixed64
  controller : Uint168
  deriving DecidableEq

def RegisterAsset.serialize (payload : RegisterAsset) : Bytes :=
  writeVarBytes payload.name ++ writeVarBytes payload.description ++
    [payload.precision, payload.assetType, payload.recordType] ++
    writeFixed64 payload.amount ++ payload.controller.bytes

structure Record where
  recordType : Bytes
  content : Bytes
  deriving DecidableEq

structure SideChainPow where
  sideBlockHash : Uint256
  sideGenesisHash : Uint256
  blockHeight : UInt32
  signature : Bytes
  deriving DecidableEq

def SideChainPow.serializeUnsigned (payload : SideChainPow) : Bytes :=
  payload.sideBlockHash.bytes ++ payload.sideGenesisHash.bytes ++ writeUint32 payload.blockHeight

structure WithdrawFromSideChain where
  blockHeight : UInt32
  genesisBlockAddress : Bytes
  sideChainTransactionHashes : List Uint256
  deriving DecidableEq

def WithdrawFromSideChain.serialize (payload : WithdrawFromSideChain) : Bytes :=
  writeUint32 payload.blockHeight ++ writeVarBytes payload.genesisBlockAddress ++
    writeList (·.bytes) payload.sideChainTransactionHashes

structure TransferCrossChainAsset where
  crossChainAddresses : List Bytes
  outputIndexes : List UInt64
  crossChainAmounts : List Fixed64
  deriving DecidableEq

def TransferCrossChainAsset.serialize (payload : TransferCrossChainAsset) : Written :=
  if payload.crossChainAddresses.length ≠ payload.outputIndexes.length ∨
      payload.outputIndexes.length ≠ payload.crossChainAmounts.length then
    { bytes := [], failure := some "Invalid cross chain asset" }
  else
    .done (writeLength payload.crossChainAddresses ++ (payload.crossChainAddresses.zip
        (payload.outputIndexes.zip payload.crossChainAmounts)).flatMap fun entry =>
          writeVarBytes entry.1 ++ writeVarUint entry.2.1 ++ writeFixed64 entry.2.2)

structure ProducerInfo where
  ownerPublicKey : Bytes
  nodePublicKey : Bytes
  nickName : Bytes
  url : Bytes
  location : UInt64
  netAddress : Bytes
  signature : Bytes
  deriving DecidableEq

def ProducerInfo.serializeUnsigned (payload : ProducerInfo) : Bytes :=
  writeVarBytes payload.ownerPublicKey ++ writeVarBytes payload.nodePublicKey ++
    writeVarBytes payload.nickName ++ writeVarBytes payload.url ++
    writeUint64 payload.location ++ writeVarBytes payload.netAddress

structure ProcessProducer where
  ownerPublicKey : Bytes
  signature : Bytes
  deriving DecidableEq

def ProcessProducer.serializeUnsigned (payload : ProcessProducer) : Bytes :=
  writeVarBytes payload.ownerPublicKey

structure ActivateProducer where
  nodePublicKey : Bytes
  signature : Bytes
  deriving DecidableEq

def ActivateProducer.serializeUnsigned (payload : ActivateProducer) : Bytes :=
  writeVarBytes payload.nodePublicKey

def crInfoVersion : UInt8 := 0
def crInfoDIDVersion : UInt8 := 1

structure CRInfo where
  code : Bytes
  cid : Uint168
  did : Uint168
  nickName : Bytes
  url : Bytes
  location : UInt64
  signature : Bytes
  deriving DecidableEq

def CRInfo.serializeUnsigned (payload : CRInfo) (version : UInt8) : Bytes :=
  writeVarBytes payload.code ++ payload.cid.bytes ++ (if crInfoVersion < version then payload.did.bytes else []) ++
    writeVarBytes payload.nickName ++ writeVarBytes payload.url ++ writeUint64 payload.location

structure UnregisterCR where
  cid : Uint168
  signature : Bytes
  deriving DecidableEq

def UnregisterCR.serializeUnsigned (payload : UnregisterCR) : Bytes :=
  payload.cid.bytes

/-- The proposal types that the checks accept. -/
def proposalNormal : UInt16 := 0x0000
def proposalELIP : UInt16 := 0x0100

def imprest : UInt8 := 0x00
def normalPayment : UInt8 := 0x01
def finalPayment : UInt8 := 0x02

structure Budget where
  budgetType : UInt8
  stage : UInt8
  amount : Fixed64
  deriving DecidableEq

def Budget.serialize (budget : Budget) : Bytes :=
  [budget.budgetType, budget.stage] ++ writeFixed64 budget.amount

structure CRCProposal where
  proposalType : UInt16
  categoryData : Bytes
  ownerPublicKey : Bytes
  draftHash : Uint256
  budgets : List Budget
  recipient : Uint168
  signature : Bytes
  crCouncilMemberDID : Uint168
  crCouncilMemberSignature : Bytes
  deriving DecidableEq

namespace CRCProposal

def serializeUnsigned (payload : CRCProposal) : Bytes :=
  writeUint16 payload.proposalType ++ writeVarBytes payload.categoryData ++
    writeVarBytes payload.ownerPublicKey ++ payload.draftHash.bytes ++
    writeList Budget.serialize payload.budgets ++ payload.recipient.bytes

def serialize (payload : CRCProposal) : Bytes :=
  payload.serializeUnsigned ++ writeVarBytes payload.signature ++ payload.crCouncilMemberDID.bytes ++
    writeVarBytes payload.crCouncilMemberSignature

def hash (prim : Primitives) (payload : CRCProposal) : Uint256 :=
  prim.hash payload.serialize

end CRCProposal

/-- A vote of a council member on a proposal, or a code without meaning. -/
inductive VoteResult where
  | approve
  | reject
  | abstain
  | unknown (code : { code : UInt8 // 2 < code })
  deriving DecidableEq

def VoteResult.code : VoteResult → UInt8
  | .approve => 0
  | .reject => 1
  | .abstain => 2
  | .unknown code => code.1

structure CRCProposalReview where
  proposalHash : Uint256
  voteResult : VoteResult
  opinionHash : Uint256
  did : Uint168
  signature : Bytes
  deriving DecidableEq

def CRCProposalReview.serializeUnsigned (payload : CRCProposalReview) : Bytes :=
  payload.proposalHash.bytes ++ [payload.voteResult.code] ++ payload.opinionHash.bytes ++ payload.did.bytes

inductive CRCProposalTrackingType where
  | common
  | progress
  | rejected
  | terminated
  | changeOwner
  | finalized
  | unknown (code : { code : UInt8 // 5 < code })
  deriving DecidableEq

def CRCProposalTrackingType.code : CRCProposalTrackingType → UInt8
  | .common => 0
  | .progress => 1
  | .rejected => 2
  | .terminated => 3
  | .changeOwner => 4
  | .finalized => 5
  | .unknown code => code.1

structure CRCProposalTracking where
  proposalHash : Uint256
  messageHash : Uint256
  stage : UInt8
  ownerPublicKey : Bytes
  newOwnerPublicKey : Bytes
  ownerSignature : Bytes
  newOwnerSignature : Bytes
  proposalTrackingType : CRCProposalTrackingType
  secretaryGeneralOpinionHash : Uint256
  secretaryGeneralSignature : Bytes
  deriving DecidableEq

namespace CRCProposalTracking

def serializeUnsigned (payload : CRCProposalTracking) : Bytes :=
  payload.proposalHash.bytes ++ payload.messageHash.bytes ++ [payload.stage] ++
    writeVarBytes payload.ownerPublicKey ++ writeVarBytes payload.newOwnerPublicKey

def serialize (payload : CRCProposalTracking) : Bytes :=
  payload.serializeUnsigned ++ writeVarBytes payload.ownerSignature ++
    writeVarBytes payload.newOwnerSignature ++ [payload.proposalTrackingType.code] ++
    payload.secretaryGeneralOpinionHash.bytes ++ writeVarBytes payload.secretaryGeneralSignature

end CRCProposalTracking

structure CRCProposalWithdraw where
  proposalHash : Uint256
  ownerPublicKey : Bytes
  signature : Bytes
  deriving DecidableEq

def CRCProposalWithdraw.serializeUnsigned (payload : CRCProposalWithdraw) : Bytes :=
  payload.proposalHash.bytes ++ writeVarBytes payload.ownerPublicKey

/-- The dynamic type of a payload with its value. -/
inductive Payload where
  | coinBase (content : Bytes)
  | registerAsset (payload : RegisterAsset)
  | transferAsset
  | record (payload : Record)
  | sideChainPow (payload : SideChainPow)
  | withdrawFromSideChain (payload : WithdrawFromSideChain)
  | transferCrossChainAsset (payload : TransferCrossChainAsset)
  | producerInfo (payload : ProducerInfo)
  | processProducer (payload : ProcessProducer)
  | activateProducer (payload : ActivateProducer)
  | returnDepositCoin
  | illegalProposals (payload : DPOSIllegalProposals)
  | illegalVotes (payload : DPOSIllegalVotes)
  | illegalBlocks (payload : DPOSIllegalBlocks)
  | sidechainIllegalData (payload : SidechainIllegalData)
  | inactiveArbitrators (payload : InactiveArbitrators)
  | updateVersion (payload : UpdateVersion)
  | crInfo (payload : CRInfo)
  | unregisterCR (payload : UnregisterCR)
  | crcProposal (payload : CRCProposal)
  | crcProposalReview (payload : CRCProposalReview)
  | crcProposalTracking (payload : CRCProposalTracking)
  | crcProposalWithdraw (payload : CRCProposalWithdraw)
  | crcAppropriation
  deriving DecidableEq

/-- Only the cross-chain transfer can refuse to encode itself. -/
def Payload.serialize (version : UInt8) : Payload → Written
  | .coinBase content => .done (writeVarBytes content)
  | .registerAsset payload => .done payload.serialize
  | .transferAsset => .done []
  | .record payload =>
    .done (writeVarBytes payload.recordType ++ writeVarBytes payload.content)
  | .sideChainPow payload =>
    .done (payload.serializeUnsigned ++ writeVarBytes payload.signature)
  | .withdrawFromSideChain payload => .done payload.serialize
  | .transferCrossChainAsset payload => payload.serialize
  | .producerInfo payload =>
    .done (payload.serializeUnsigned ++ writeVarBytes payload.signature)
  | .processProducer payload =>
    .done (payload.serializeUnsigned ++ writeVarBytes payload.signature)
  | .activateProducer payload =>
    .done (payload.serializeUnsigned ++ writeVarBytes payload.signature)
  | .returnDepositCoin => .done []
  | .illegalProposals payload => .done payload.serialize
  | .illegalVotes payload => .done payload.serialize
  | .illegalBlocks payload => .done payload.serialize
  | .sidechainIllegalData payload => .done payload.serialize
  | .inactiveArbitrators payload => .done payload.serialize
  | .updateVersion payload => .done payload.serialize
  | .crInfo payload =>
    .done (payload.serializeUnsigned version ++ writeVarBytes payload.signature)
  | .unregisterCR payload =>
    .done (payload.serializeUnsigned ++ writeVarBytes payload.signature)
  | .crcProposal payload => .done payload.serialize
  | .crcProposalReview payload =>
    .done (payload.serializeUnsigned ++ writeVarBytes payload.signature)
  | .crcProposalTracking payload => .done payload.serialize
  | .crcProposalWithdraw payload =>
    .done (payload.serializeUnsigned ++ writeVarBytes payload.signature)
  | .crcAppropriation => .done []

end Elastos.Types
