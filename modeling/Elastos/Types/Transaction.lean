import Elastos.Types.Payload

/-! Transactions, block headers with their auxiliary proof of work, blocks, and the merkle root over
transaction hashes. -/
set_option autoImplicit false
namespace Elastos.Types
open Go Common Crypto Reader

inductive VoteType where
  | delegate
  | crc
  | crcProposal
  | crcImpeachment
  | unknown (code : { code : UInt8 // 3 < code })
  deriving DecidableEq

def VoteType.code : VoteType → UInt8
  | .delegate => 0
  | .crc => 1
  | .crcProposal => 2
  | .crcImpeachment => 3
  | .unknown code => code.1

def voteProducerVersion : UInt8 := 0
def voteProducerAndCRVersion : UInt8 := 1
def maxVoteProducersPerTransaction : Nat := 36

structure CandidateVotes where
  candidate : Bytes
  votes : Fixed64
  deriving DecidableEq

def CandidateVotes.serialize (version : UInt8) (votes : CandidateVotes) : Bytes :=
  writeVarBytes votes.candidate ++ (if voteProducerAndCRVersion ≤ version then writeFixed64 votes.votes else [])

structure VoteContent where
  voteType : VoteType
  candidateVotes : List CandidateVotes
  deriving DecidableEq

def VoteContent.serialize (version : UInt8) (content : VoteContent) : Bytes :=
  content.voteType.code ::
    writeList (CandidateVotes.serialize version) content.candidateVotes

structure VoteOutput where
  version : UInt8
  contents : List VoteContent
  deriving DecidableEq

namespace VoteOutput

def serialize (output : VoteOutput) : Bytes :=
  output.version :: writeList (VoteContent.serialize output.version) output.contents

/-- The check of one candidate against those before it in the same content. -/
def validateCandidate (version : UInt8) (seen : List Bytes) (votes : CandidateVotes) : Outcome String (List Bytes) := do
  .reject (votes.candidate ∈ seen) "duplicate candidate"
  .reject (voteProducerAndCRVersion ≤ version ∧ votes.votes ≤ 0) "invalid candidate votes"
  .ok (votes.candidate :: seen)

def validateContent (version : UInt8) (seen : List VoteType)
    (content : VoteContent) : Outcome String (List VoteType) := do
  .reject (content.voteType ∈ seen) "duplicate vote type"
  .reject (content.candidateVotes = [] ∨ content.voteType ≠ .crc ∧
      maxVoteProducersPerTransaction < content.candidateVotes.length)
    "invalid public key count"
  match content.voteType with
  | .unknown _ => .fail "invalid vote type"
  | _ =>
    let _ ← content.candidateVotes.foldlM (validateCandidate version) []
    .ok (content.voteType :: seen)

def validate (output : VoteOutput) : Outcome String Unit := do
  .reject (voteProducerAndCRVersion < output.version) "invalid vote version"
  let _ ← output.contents.foldlM (validateContent output.version) []
  .ok ()

end VoteOutput

structure Mapping where
  version : UInt8
  ownerPublicKey : Bytes
  sideProducerID : Bytes
  signature : Bytes
  deriving DecidableEq

namespace Mapping

def data (mapping : Mapping) : Bytes :=
  mapping.version :: writeVarBytes mapping.ownerPublicKey ++ writeVarBytes mapping.sideProducerID

def serialize (mapping : Mapping) : Bytes :=
  mapping.data ++ writeVarBytes mapping.signature

def validate (prim : Primitives) (mapping : Mapping) : Outcome String Unit := do
  let publicKey ← Outcome.mapError (fun _ => "mapping invalid OwnerPublicKey")
    (prim.decodePoint mapping.ownerPublicKey)
  Outcome.mapError (fun _ => "invalid content signature")
    (prim.verifySignature publicKey mapping.data mapping.signature)

end Mapping

/-- The dynamic type of an output payload with its value. Outputs of the first
transaction version carry no payload, which is the default one here. -/
inductive OutputPayload where
  | default
  | vote (output : VoteOutput)
  | mapping (content : Mapping)
  deriving DecidableEq

namespace OutputPayload

def serialize : OutputPayload → Bytes
  | .default => []
  | .vote output => output.serialize
  | .mapping content => content.serialize

def validate (prim : Primitives) : OutputPayload → Outcome String Unit
  | .default => .ok ()
  | .vote output => output.validate
  | .mapping content => content.validate prim

end OutputPayload

inductive OutputType where
  | none
  | vote
  | mapping
  | unknown (code : { code : UInt8 // 2 < code })
  deriving DecidableEq

def OutputType.code : OutputType → UInt8
  | .none => 0
  | .vote => 1
  | .mapping => 2
  | .unknown code => code.1

structure Output where
  assetID : Uint256
  value : Fixed64
  outputLock : UInt32
  programHash : Uint168
  outputType : OutputType
  payload : OutputPayload
  deriving DecidableEq

def txVersionDefault : UInt8 := 0x00
def txVersion09 : UInt8 := 0x09

def Output.serialize (version : UInt8) (output : Output) : Bytes :=
  output.assetID.bytes ++ writeFixed64 output.value ++ writeUint32 output.outputLock ++ output.programHash.bytes ++
    (if txVersion09 ≤ version then
      output.outputType.code :: output.payload.serialize else [])

structure OutPoint where
  txID : Uint256
  index : UInt16
  deriving DecidableEq

structure Input where
  previous : OutPoint
  sequence : UInt32
  deriving DecidableEq

def OutPoint.serialize (point : OutPoint) : Bytes :=
  point.txID.bytes ++ writeUint16 point.index

def Input.serialize (input : Input) : Bytes :=
  input.previous.serialize ++ writeUint32 input.sequence

structure Attribute where
  usage : UInt8
  data : Bytes
  deriving DecidableEq

namespace Attribute

def script : UInt8 := 0x20

def isValidType (usage : UInt8) : Bool :=
  usage ∈ ([0x00, 0x20, 0x81, 0x90, 0x91, 0x92] : List UInt8)

/-- The usage byte is written before it is checked. -/
def serialize (item : Attribute) : Written :=
  if isValidType item.usage then
    .done (item.usage :: writeVarBytes item.data)
  else
    { bytes := [item.usage]
      failure := some "[Attribute error] Unsupported attribute Description." }

end Attribute

structure Program where
  code : Bytes
  parameter : Bytes
  deriving DecidableEq

def Program.serialize (program : Program) : Bytes :=
  writeVarBytes program.parameter ++ writeVarBytes program.code

inductive TxType where
  | coinBase
  | registerAsset
  | transferAsset
  | record
  | deploy
  | sideChainPow
  | rechargeToSideChain
  | withdrawFromSideChain
  | transferCrossChainAsset
  | registerProducer
  | cancelProducer
  | updateProducer
  | returnDepositCoin
  | activateProducer
  | illegalProposalEvidence
  | illegalVoteEvidence
  | illegalBlockEvidence
  | illegalSidechainEvidence
  | inactiveArbitrators
  | updateVersion
  | registerCR
  | unregisterCR
  | updateCR
  | returnCRDepositCoin
  | crcProposal
  | crcProposalReview
  | crcProposalTracking
  | crcAppropriation
  | crcProposalWithdraw
  | unknown (code : { code : UInt8 // 0x13 < code ∧ code < 0x21 ∨ 0x29 < code })
  deriving DecidableEq

def TxType.code : TxType → UInt8
  | .coinBase => 0x00
  | .registerAsset => 0x01
  | .transferAsset => 0x02
  | .record => 0x03
  | .deploy => 0x04
  | .sideChainPow => 0x05
  | .rechargeToSideChain => 0x06
  | .withdrawFromSideChain => 0x07
  | .transferCrossChainAsset => 0x08
  | .registerProducer => 0x09
  | .cancelProducer => 0x0a
  | .updateProducer => 0x0b
  | .returnDepositCoin => 0x0c
  | .activateProducer => 0x0d
  | .illegalProposalEvidence => 0x0e
  | .illegalVoteEvidence => 0x0f
  | .illegalBlockEvidence => 0x10
  | .illegalSidechainEvidence => 0x11
  | .inactiveArbitrators => 0x12
  | .updateVersion => 0x13
  | .registerCR => 0x21
  | .unregisterCR => 0x22
  | .updateCR => 0x23
  | .returnCRDepositCoin => 0x24
  | .crcProposal => 0x25
  | .crcProposalReview => 0x26
  | .crcProposalTracking => 0x27
  | .crcAppropriation => 0x28
  | .crcProposalWithdraw => 0x29
  | .unknown code => code.1

structure Transaction where
  version : UInt8
  txType : TxType
  payloadVersion : UInt8
  payload : Payload
  attributes : List Attribute
  inputs : List Input
  outputs : List Output
  lockTime : UInt32
  programs : List Program
  fee : Fixed64
  feePerKB : Fixed64
  deriving DecidableEq

namespace Transaction
variable (tx : Transaction)

def serializeUnsigned : Written :=
  let header : Bytes :=
    (if txVersion09 ≤ tx.version then [tx.version] else []) ++ [tx.txType.code, tx.payloadVersion]
  (Written.done header).followedBy <|
    (tx.payload.serialize tx.payloadVersion).followedBy <|
      (Written.done (writeLength tx.attributes)).followedBy <|
        (Written.each Attribute.serialize tx.attributes).followedBy <|
          .done (writeList Input.serialize tx.inputs ++ writeList (Output.serialize tx.version) tx.outputs ++
            writeUint32 tx.lockTime)

def serialize : Written :=
  (tx.serializeUnsigned.mapFailure fun reason =>
      "Transaction txSerializeUnsigned Serialize failed, " ++ reason).followedBy
    (.done (writeList Program.serialize tx.programs))

/-- The encoded size, or `InvalidTransactionSize`. -/
def getSize : Int :=
  if tx.serialize.succeeded then tx.serialize.bytes.length else -1

/-- The hash covers whatever was written, also when encoding failed half way. -/
def hash (prim : Primitives) (tx : Transaction) : Uint256 :=
  prim.hash tx.serializeUnsigned.bytes

def isCoinBaseTx : Bool := tx.txType = .coinBase

def isNewSideChainPowTx : Bool :=
  tx.txType = .sideChainPow ∧ tx.inputs.length = 0

def isIllegalTypeTx : Bool :=
  tx.txType = .illegalProposalEvidence ∨ tx.txType = .illegalVoteEvidence ∨
    tx.txType = .illegalBlockEvidence ∨ tx.txType = .illegalSidechainEvidence

end Transaction

structure BtcTxIn where
  previousHash : Uint256
  previousIndex : UInt32
  signatureScript : Bytes
  sequence : UInt32
  deriving DecidableEq

structure BtcTxOut where
  value : Int64
  pkScript : Bytes
  deriving DecidableEq

structure BtcTx where
  version : Int32
  txIn : List BtcTxIn
  txOut : List BtcTxOut
  lockTime : UInt32
  deriving DecidableEq

namespace BtcTx

def maxScriptSize : UInt32 := 10000

def writeTxIn (input : BtcTxIn) : Bytes :=
  input.previousHash.bytes ++ writeUint32 input.previousIndex ++
    writeVarBytes input.signatureScript ++ writeUint32 input.sequence

def writeTxOut (output : BtcTxOut) : Bytes :=
  writeUint64 output.value.toUInt64 ++ writeVarBytes output.pkScript

def serialize (tx : BtcTx) : Bytes :=
  writeUint32 tx.version.toUInt32 ++ writeList writeTxIn tx.txIn ++
    writeList writeTxOut tx.txOut ++ writeUint32 tx.lockTime

def readTxIn : Reader BtcTxIn := do
  let previousHash ← readArray 32
  let previousIndex ← readUint32
  let signatureScript ←
    readVarBytes maxScriptSize "transaction input signature script"
  let sequence ← readUint32
  pure { previousHash, previousIndex, signatureScript, sequence }

def readTxOut : Reader BtcTxOut := do
  let value ← readUint64
  let pkScript ←
    readVarBytes maxScriptSize "transaction output public key script"
  pure { value := value.toInt64, pkScript }

def deserialize : Reader BtcTx := do
  let version ← readUint32
  let inputCount ← readVarUint
  let txIn ← readMany readTxIn inputCount.toNat
  let outputCount ← readVarUint
  let txOut ← readMany readTxOut outputCount.toNat
  let lockTime ← readUint32
  pure { version := version.toInt32, txIn, txOut, lockTime }

end BtcTx

structure BtcHeader where
  version : UInt32
  previous : Uint256
  merkleRoot : Uint256
  timestamp : UInt32
  bits : UInt32
  nonce : UInt32
  deriving DecidableEq

namespace BtcHeader

def serialize (header : BtcHeader) : Bytes :=
  writeUint32 header.version ++ header.previous.bytes ++ header.merkleRoot.bytes ++
    writeUint32 header.timestamp ++ writeUint32 header.bits ++ writeUint32 header.nonce

def deserialize : Reader BtcHeader := do
  let version ← readUint32
  let previous ← readArray 32
  let merkleRoot ← readArray 32
  let timestamp ← readUint32
  let bits ← readUint32
  let nonce ← readUint32
  pure { version, previous, merkleRoot, timestamp, bits, nonce }

end BtcHeader

structure AuxPow where
  auxMerkleBranch : List Uint256
  auxMerkleIndex : Int
  parCoinbaseTx : BtcTx
  parCoinBaseMerkle : List Uint256
  parMerkleIndex : Int
  parBlockHeader : BtcHeader
  parentHash : Uint256
  deriving DecidableEq

namespace AuxPow

def serialize (proof : AuxPow) : Bytes :=
  proof.parCoinbaseTx.serialize ++ proof.parentHash.bytes ++ writeList (·.bytes) proof.parCoinBaseMerkle ++
    littleEndian 4 (proof.parMerkleIndex % 2 ^ 32).toNat ++ writeList (·.bytes) proof.auxMerkleBranch ++
    littleEndian 4 (proof.auxMerkleIndex % 2 ^ 32).toNat ++ proof.parBlockHeader.serialize

def deserialize : Reader AuxPow := do
  let parCoinbaseTx ← BtcTx.deserialize
  let parentHash ← readArray 32
  let parCount ← readVarUint
  let parCoinBaseMerkle ← readMany (readArray 32) parCount.toNat
  let parIndex ← readUint32
  let auxCount ← readVarUint
  let auxMerkleBranch ← readMany (readArray 32) auxCount.toNat
  let auxIndex ← readUint32
  let parBlockHeader ← BtcHeader.deserialize
  pure {
    auxMerkleBranch
    auxMerkleIndex := auxIndex.toNat
    parCoinbaseTx
    parCoinBaseMerkle
    parMerkleIndex := parIndex.toNat
    parBlockHeader
    parentHash }

end AuxPow

structure Header where
  version : UInt32
  previous : Uint256
  merkleRoot : Uint256
  timestamp : UInt32
  bits : UInt32
  nonce : UInt32
  height : UInt32
  auxPow : AuxPow
  deriving DecidableEq

namespace Header

def serializeNoAux (header : Header) : Bytes :=
  writeUint32 header.version ++ header.previous.bytes ++ header.merkleRoot.bytes ++
    writeUint32 header.timestamp ++ writeUint32 header.bits ++ writeUint32 header.nonce ++ writeUint32 header.height

def serialize (header : Header) : Bytes :=
  header.serializeNoAux ++ header.auxPow.serialize ++ [1]

/-- The byte after the proof is skipped when it is there. -/
def deserialize : Reader Header := do
  let version ← readUint32
  let previous ← readArray 32
  let merkleRoot ← readArray 32
  let timestamp ← readUint32
  let bits ← readUint32
  let nonce ← readUint32
  let height ← readUint32
  let auxPow ← AuxPow.deserialize
  modify (·.drop 1)
  pure { version, previous, merkleRoot, timestamp, bits, nonce, height, auxPow }

def hash (prim : Primitives) (header : Header) : Uint256 :=
  prim.hash header.serializeNoAux

end Header

structure Block extends Header where
  transactions : List Transaction
  deriving DecidableEq

namespace Block

/-- A transaction that cannot be encoded makes the whole block fail. -/
def serialize (block : Block) : Written :=
  (Written.done (block.toHeader.serialize ++ writeUint32 (UInt32.ofNat block.transactions.length))).followedBy
    ((Written.each Transaction.serialize block.transactions).mapFailure fun reason =>
      "Block item transaction serialize failed, " ++ reason)

/-- The encoded size, or `InvalidBlockSize`. -/
def getSize (block : Block) : Int :=
  if block.serialize.succeeded then block.serialize.bytes.length else -1

def hash (prim : Primitives) (block : Block) : Uint256 := block.toHeader.hash prim

end Block

namespace Merkle
variable (prim : Primitives)

def computeParent (left right : Uint256) : Uint256 :=
  prim.hash (left.bytes ++ right.bytes)

/-- One level up; a last node without a partner is paired with itself. -/
def levelUp : List Uint256 → List Uint256
  | [] => []
  | [last] => [computeParent prim last last]
  | left :: right :: rest => computeParent prim left right :: levelUp rest

/-- Levels are built until one node is left. A level is at most half as long as
the one below it, rounded up, so the number of hashes bounds the number of levels. -/
def climb : Nat → List Uint256 → Uint256
  | 0, nodes => nodes.headD default
  | steps + 1, nodes =>
    if nodes.length ≤ 1 then nodes.headD default
    else climb steps (levelUp prim nodes)

def computeRoot (hashes : List Uint256) : Outcome String Uint256 :=
  match hashes with
  | [] => .fail "NewMerkleTree input no item error."
  | [only] => .ok only
  | _ => .ok (climb prim hashes.length hashes)

end Merkle
end Elastos.Types
