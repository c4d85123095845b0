import Elastos.Blockchain.BlockValidator

/-! A chain small enough to evaluate, for worked examples. Every rule is in force
from the start. -/
set_option autoImplicit false
namespace Elastos.Blockchain.SmallChain
open Go Common Config Crypto Elastos.Core Elastos.Types Dpos Stand

def address (prefixType last : UInt8) : Uint168 where
  bytes := prefixType :: List.replicate 19 0 ++ [last]
  size_eq := by simp

def foundation : Uint168 := address prefixStandard 1
def crcFoundation : Uint168 := address prefixStandard 2
def crcCommittee : Uint168 := address prefixStandard 3
def miner : Uint168 := address prefixStandard 4

def params : Params where
  elaAssetID := default
  foundation := foundation
  crcAddress := foundation
  crcFoundation := crcFoundation
  crcCommitteeAddress := crcCommittee
  destroyELAAddress := destroyELAAddress
  rewardPerBlock := 502283105
  coinbaseMaturity := 1
  minTransactionFee := 100
  minTransactionFee_nonneg := by decide
  minCrossChainTxFee := 10000
  checkAddressHeight := 0
  voteStartHeight := 0
  crcOnlyDPOSHeight := 1
  publicDPOSHeight := 1
  crVotingStartHeight := 1
  crCommitteeStartHeight := 7
  enableActivateIllegalHeight := 1
  checkRewardHeight := 1
  registerCRByDIDHeight := 1
  checkVoteCRCountHeight := 1
  crcArbiters := [key 1, key 2]
  originArbiters := [key 1, key 2]
  generalArbiters := 0
  candidateArbiters := 0
  preConnectOffset := 0
  voteStatisticsHeight := 0
  maxInactiveRounds := 3
  inactivePenalty := 0
  emergencyInactivePenalty := 0
  crMemberCount := 1
  crVotingPeriod := 1
  crDutyPeriod := 100
  crDepositLockupBlocks := 1
  proposalCRVotingPeriod := 1
  proposalPublicVotingPeriod := 1
  crAgreementCount := 1
  voterRejectPercentage := 10
  crcAppropriatePercentage := 10
  maxCommitteeProposalCount := 128
  maxProposalTrackingCount := 128
  secretaryGeneral := key 9
  powLimitBits := 0x1f0008ff

def arbitrators : Arbitrators where
  params := params
  bestHeight := 10
  state := StateKeyFrame.empty
  crCommittee := Cr.Frame.initial
  currentArbitrators := [key 1, key 2]
  crcArbiters := [key 1, key 2]
  dutyIndex := 0
  snapshotKeysDesc := []
  snapshots := ∅
  illegalBlocksPayloadHashes := ∅
  arbitersRoundReward := ∅
  finalRoundChange := 0

variable (transactions : List Transaction)

def storeOf : ChainStore where
  getTransaction hash :=
    Outcome.ofOption "not found"
      (transactions.find? fun tx => tx.hash primitives = hash)
  getUnspent hash :=
    match transactions.find? fun tx => tx.hash primitives = hash with
    | some tx => .ok ((List.range tx.outputs.length).map UInt16.ofNat)
    | none => .fail "not found"
  isTx3Exist _ := false
  utxoValues _ := .ok []

def chain : BlockChain where
  prim := primitives
  runtime := Runtime.insertion
  store := storeOf transactions
  arbitrators := arbitrators
  headerRules := {
    checkAuxPow _ := .ok true
    checkProofOfWork _ := .ok ()
    maxTimestamp := 4294967296 }

def output (programHash : Uint168) (value : Fixed64) : Output where
  assetID := default
  value := value
  outputLock := 0
  programHash := programHash
  outputType := .none
  payload := .default

/-- The standard address of a key, and the program that spends from it. -/
def owner (last : UInt8) : Uint168 :=
  primitives.toProgramHash prefixStandard (keyCode (key last))

def signedBy (last : UInt8) : Program where
  code := keyCode (key last)
  parameter := 64 :: sign (key last)

def spend (txType : TxType) (payload : Payload) (previous : Transaction)
    (outputs : List Output) (programs : List Program) : Transaction where
  version := txVersion09
  txType := txType
  payloadVersion := 0
  payload := payload
  attributes := []
  inputs := [{
    previous := { txID := previous.hash primitives, index := 0 }
    sequence := 0xffffffff }]
  outputs := outputs
  lockTime := 0
  programs := programs
  fee := 0
  feePerKB := 0

variable (height : UInt32)

def coinbase (outputs : List Output) : Transaction where
  version := txVersionDefault
  txType := .coinBase
  payloadVersion := 0
  payload := .coinBase []
  attributes := []
  inputs := [{ previous := nullOutPoint, sequence := 0xffffffff }]
  outputs := outputs
  lockTime := height
  programs := []
  fee := 0
  feePerKB := 0

def auxPow : AuxPow where
  auxMerkleBranch := []
  auxMerkleIndex := 0
  parCoinbaseTx := { version := 1, txIn := [], txOut := [], lockTime := 0 }
  parCoinBaseMerkle := []
  parMerkleIndex := 0
  parBlockHeader := {
    version := 1
    previous := default
    merkleRoot := default
    timestamp := 0
    bits := 0
    nonce := 0 }
  parentHash := default

def header (height nonce : UInt32) (merkleRoot : Uint256) : Header where
  version := 0
  previous := default
  merkleRoot := merkleRoot
  timestamp := height
  bits := 0
  nonce := nonce
  height := height
  auxPow := auxPow

def fairCoinbase (fees : Fixed64) : Transaction :=
  let totalReward := fees + params.rewardPerBlock
  coinbase height [output crcFoundation 160000000,
    output miner (totalReward - rewardDPOSArbiter totalReward - 160000000)]

def blockOf (transactions : List Transaction) : Block where
  toHeader := header height 0 <|
    match Merkle.computeRoot primitives (transactions.map (·.hash primitives)) with
    | .ok root => root
    | .error _ => default
  transactions := transactions

def previousNode : BlockNode where
  nextRequiredDifficulty _ := .ok 0
  pastMedianTime := 0

end Elastos.Blockchain.SmallChain
