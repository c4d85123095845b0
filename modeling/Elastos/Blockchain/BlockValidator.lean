import Elastos.Blockchain.TxContext

/-! `CheckBlockSanity` and `CheckBlockContext`. -/
set_option autoImplicit false
namespace Elastos.Blockchain
open Go Common Elastos.Types

def maxTxPerBlock : UInt32 := 10000
def maxBlockHeaderSize : Int := 1000000

structure Duplicates where
  sideTxs : List Uint256
  producers : List Bytes
  producerNodes : List Bytes
  crs : List Uint168

namespace Duplicates

def none : Duplicates := { sideTxs := [], producers := [], producerNodes := [], crs := [] }

variable (seen : Duplicates)

def addSideTx (hash : Uint256) : Outcome String Duplicates := do
  .reject (hash ∈ seen.sideTxs) "[PowCheckBlockSanity] block contains duplicate sidechain Tx"
  .ok { seen with sideTxs := hash :: seen.sideTxs }

def addProducer (key : Bytes) : Outcome String Duplicates := do
  .reject (key ∈ seen.producers) "[PowCheckBlockSanity] block contains duplicate producer"
  .ok { seen with producers := key :: seen.producers }

def addProducerNode (key : Bytes) : Outcome String Duplicates := do
  .reject (key ∈ seen.producerNodes) "[PowCheckBlockSanity] block contains duplicate producer node"
  .ok { seen with producerNodes := key :: seen.producerNodes }

def addCR (cid : Uint168) : Outcome String Duplicates := do
  .reject (cid ∈ seen.crs) "[PowCheckBlockSanity] block contains duplicate CR"
  .ok { seen with crs := cid :: seen.crs }

def addTransaction (tx : Transaction) : Outcome String Duplicates :=
  match tx.txType, tx.payload with
  | .withdrawFromSideChain, .withdrawFromSideChain withdraw =>
    withdraw.sideChainTransactionHashes.foldlM addSideTx seen
  | .withdrawFromSideChain, _ => .crash "interface conversion"
  | .registerProducer, .producerInfo info => do
    (← seen.addProducer info.ownerPublicKey).addProducerNode info.nodePublicKey
  | .registerProducer, _ =>
    .fail "[PowCheckBlockSanity] invalid register producer payload"
  | .updateProducer, .producerInfo info => do
    (← seen.addProducer info.ownerPublicKey).addProducerNode info.nodePublicKey
  | .updateProducer, _ => .fail "[PowCheckBlockSanity] invalid update producer payload"
  | .cancelProducer, .processProducer payload => seen.addProducer payload.ownerPublicKey
  | .cancelProducer, _ => .fail "[PowCheckBlockSanity] invalid cancel producer payload"
  | .registerCR, .crInfo info => seen.addCR info.cid
  | .registerCR, _ => .fail "[PowCheckBlockSanity] invalid register CR payload"
  | .updateCR, .crInfo info => seen.addCR info.cid
  | .updateCR, _ => .fail "[PowCheckBlockSanity] invalid update CR payload"
  | .unregisterCR, .unregisterCR payload => seen.addCR payload.cid
  | .unregisterCR, _ => .fail "[PowCheckBlockSanity] invalid unregister CR payload"
  | _, _ => .ok seen

end Duplicates

def checkDuplicateTx (block : Block) : Outcome String Unit := do
  let _ ← block.transactions.foldlM Duplicates.addTransaction Duplicates.none
  .ok ()

structure BlockSeen where
  txIDs : List Uint256
  spent : List OutPoint

def BlockSeen.spend (seen : BlockSeen) (input : Input) : Outcome BlockError BlockSeen := do
  .reject (input.previous ∈ seen.spent)
    (.text "[PowCheckBlockSanity] block contains duplicate UTXO")
  .ok { seen with spent := input.previous :: seen.spent }

def plain {α : Type} (check : Outcome String α) : Outcome BlockError α :=
  Outcome.mapError BlockError.text check

def isFinalizedTransaction (tx : Transaction) (blockHeight : UInt32) : Bool :=
  tx.lockTime = 0 ∨ tx.lockTime < blockHeight ∨ ∀ input ∈ tx.inputs, input.sequence = 0xffff

def totalOf (asset : Uint256) (outputs : List Output) : Option Fixed64 :=
  match outputs.filter fun output => output.assetID = asset with
  | [] => .none
  | found => some (wrappedSum (valuesOf found))

def getTxFee (tx : Transaction) (asset : Uint256) (references : References) : Fixed64 :=
  match totalOf asset tx.outputs, totalOf asset (references.map Prod.snd) with
  | some outputTotal, some inputTotal => inputTotal - outputTotal
  | some outputTotal, none => 0 - outputTotal
  | none, some inputTotal => 0 + inputTotal
  | none, none => 0

/-- `Fixed64(math.Ceil(float64(totalReward) * 0.35))`. -/
def rewardDPOSArbiter (totalReward : Fixed64) : Fixed64 :=
  Int64.ofInt (Rat.ceil (Float64.mul (Float64.ofInt totalReward.toInt) (Float64.round (35 / 100))))

def checkPayout (rewards : GoMap Uint168 Fixed64) (output : Output) : Outcome String Unit := do
  let amount ← Outcome.ofOption "unknown dpos reward address"
    (rewards.lookup output.programHash)
  .require (amount = output.value) "incorrect dpos reward amount"

def checkCoinbaseArbitratorsReward (rewards : GoMap Uint168 Fixed64)
    (coinbase : Transaction) : Outcome String Unit := do
  .require ((rewards.entries.length : Int) = coinbase.outputs.length - 2) "coinbase output count not match"
  (coinbase.outputs.drop 2).forM (checkPayout rewards)

namespace BlockChain
variable (chain : BlockChain)

def checkCoinbaseTransactionContext (blockHeight : UInt32) (coinbase : Transaction)
    (totalTxFee : Fixed64) : Outcome String Unit :=
  if chain.chainParams.publicDPOSHeight ≤ blockHeight then do
    let totalReward := totalTxFee + chain.chainParams.rewardPerBlock
    match coinbase.outputs with
    | first :: second :: _ =>
      .require (totalReward - rewardDPOSArbiter totalReward +
          chain.arbitrators.finalRoundChange = first.value + second.value)
        "reward amount in coinbase not correct"
      checkCoinbaseArbitratorsReward chain.arbitrators.arbitersRoundReward coinbase
    | _ => .crash "index out of range"
  else
    .require (wrappedSum (valuesOf coinbase.outputs) - totalTxFee = chain.chainParams.rewardPerBlock)
      ("Reward amount in coinbase not correct, height:" ++ toString blockHeight ++
        "dposheight: " ++ toString chain.chainParams.publicDPOSHeight)

def checkBlockTransaction (height : UInt32) (seen : BlockSeen) (tx : Transaction) : Outcome BlockError BlockSeen := do
  let txID := tx.hash chain.prim
  .reject (txID ∈ seen.txIDs)
    (.text "[PowCheckBlockSanity] block contains duplicate transaction")
  Outcome.mapError
    (BlockError.transaction "CheckTransactionSanity failed when verifiy block") (chain.checkTransactionSanity height tx)
  let spent ← tx.inputs.foldlM BlockSeen.spend seen
  .ok { spent with txIDs := txID :: seen.txIDs }

def checkBlockHeader (header : Header) : Outcome BlockError Unit := do
  let auxPow ← plain (chain.headerRules.checkAuxPow header)
  .require (auxPow = true)
    (.text "[PowCheckBlockSanity] block check aux pow failed")
  Outcome.mapError (fun _ => BlockError.text "[PowCheckBlockSanity] block check proof of work failed")
    (chain.headerRules.checkProofOfWork header)
  .reject (chain.headerRules.maxTimestamp < header.timestamp.toNat)
    (.text "[PowCheckBlockSanity] block timestamp of is too far in the future")

/-- The first transaction of a block is its coinbase and the only one. -/
def checkCoinbasePosition (transactions : List Transaction) : Outcome BlockError Unit :=
  match transactions with
  | [] => .fail (.text "[PowCheckBlockSanity]  block does not contain any transactions")
  | coinbase :: rest => do
    .require (coinbase.isCoinBaseTx = true)
      (.text "[PowCheckBlockSanity] first transaction in block is not a coinbase")
    rest.forM fun tx =>
      .reject (tx.isCoinBaseTx = true)
        (.text "[PowCheckBlockSanity] block contains second coinbase")

variable (block : Block)

def checkBlockSanity : Outcome BlockError Unit := do
  chain.checkBlockHeader block.toHeader
  .reject (block.transactions.length = 0)
    (.text "[PowCheckBlockSanity]  block does not contain any transactions")
  .reject (maxTxPerBlock < UInt32.ofNat block.transactions.length)
    (.text ("[PowCheckBlockSanity]  block contains too many transactions, tx count: " ++
      toString block.transactions.length))
  .reject (maxBlockHeaderSize < block.toHeader.serialize.length)
    (.text "[PowCheckBlockSanity] serialized block header is too big")
  .reject (maxBlockContextSize + maxBlockHeaderSize < block.getSize)
    (.text "[PowCheckBlockSanity] serialized block is too big")
  checkCoinbasePosition block.transactions
  let seen ← block.transactions.foldlM (chain.checkBlockTransaction block.height)
    { txIDs := [], spent := [] }
  plain (checkDuplicateTx block)
  let root ← Outcome.mapError
    (fun _ => BlockError.text "[PowCheckBlockSanity] merkleTree compute failed")
    (Merkle.computeRoot chain.prim seen.txIDs.reverse)
  .require (block.merkleRoot = root)
    (.text "[PowCheckBlockSanity] block merkle root is invalid")

def checkTxContext (height : UInt32) (tx : Transaction) : Outcome BlockError (Transaction × Fixed64) := do
  let references ← Outcome.mapError (fun _ => BlockError.unknownReferredTx)
    (chain.getTxReference tx)
  let checked ← Outcome.mapError
    (BlockError.transaction "CheckTransactionContext failed when verify block")
    (chain.checkTransactionContext height tx references 0)
  .ok (checked, getTxFee checked chain.chainParams.elaAssetID references)

/-- Below `CheckRewardHeight` the error of the reward check is overwritten by the
result of encoding the block. -/
def checkCoinbaseOf (coinbase : Transaction) (totalTxFee : Fixed64) : Outcome BlockError Unit :=
  match chain.checkCoinbaseTransactionContext block.height coinbase totalTxFee with
  | .ok _ => .ok ()
  | .error (.panic reason) => .crash reason
  | .error (.error reason) =>
    match block.serialize.failure with
    | some failure => .fail (.text failure)
    | none =>
      if block.height < chain.chainParams.checkRewardHeight then .ok ()
      else .fail (.text reason)

def checkTxsContext : Outcome BlockError (List Transaction) :=
  match block.transactions with
  | [] => .crash "index out of range"
  | coinbase :: rest => do
    let checked ← rest.mapM (chain.checkTxContext block.height)
    let transactions := coinbase :: checked.map Prod.fst
    chain.checkCoinbaseOf { block with transactions } coinbase
      (wrappedSum (checked.map Prod.snd))
    .ok transactions

/-- Returns the block as the checks leave it. A block without a predecessor is the
genesis block. -/
def checkBlockContext (prevNode : Option BlockNode) : Outcome BlockError Block :=
  match prevNode with
  | none => .ok block
  | some node => do
    let expected ← plain (node.nextRequiredDifficulty block.timestamp)
    .require (block.bits = expected) (.text "block difficulty is not the expected")
    .require (node.pastMedianTime ≤ block.timestamp.toNat)
      (.text "block timestamp is not after expected")
    block.transactions.tail.forM fun tx =>
      .require (isFinalizedTransaction tx block.height)
        (.text "block contains unfinalized transaction")
    plain (chain.arbitrators.checkDPOSIllegalTx chain.prim block)
    plain (chain.arbitrators.checkCRCAppropriationTx block)
    let transactions ← chain.checkTxsContext block
    .ok { block with transactions }

end BlockChain
end Elastos.Blockchain
