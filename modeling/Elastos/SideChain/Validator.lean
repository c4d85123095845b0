import Elastos.Auxpow.AuxPow
import Elastos.Blockchain.SmallChain
import Elastos.Blockchain.TxProperties

/-! The transaction validator of a side chain: the handlers that it registers, in order. -/
set_option autoImplicit false
namespace Elastos.SideChain.Mempool
open Go Common Crypto Elastos.Core Elastos.Types Blockchain Auxpow Outcome List

inductive TxType where
  | coinBase | registerAsset | transferAsset | record | deploy | sideChainPow
  | rechargeToSideChain | withdrawFromSideChain | transferCrossChainAsset | invoke
  deriving DecidableEq

structure Output where
  assetID : Uint256
  value : Fixed64
  outputLock : UInt32
  programHash : Uint168
  deriving DecidableEq

structure RechargeToSideChain where
  merkleProof : Bytes
  mainChainTransaction : Bytes
  mainChainTransactionHash : Uint256

inductive Payload where
  | coinBase | transferAsset | record
  | registerAsset (precision : UInt8) (amount : Fixed64)
  | rechargeToSideChain (payload : RechargeToSideChain)
  | transferCrossChainAsset (payload : TransferCrossChainAsset)
  | other

structure Transaction where
  txType : TxType
  payloadVersion : UInt8
  payload : Payload
  attributes : List Attribute
  inputs : List Input
  outputs : List Output
  lockTime : UInt32
  programs : List Program

inductive ErrorCode where
  | invalidInput | invalidOutput | assetPrecision | transactionBalance | attributeProgram
  | transactionSignature | transactionPayload | doubleSpend | txHashDuplicate
  | transactionSize | unknownReferedTx | invalidReferedTx | ineffectiveCoinbase | utxoLocked
  | rechargeToSideChain | crossChain
  deriving DecidableEq

structure RuleError where
  errorCode : ErrorCode
  description : String
  deriving DecidableEq

abbrev Check := Outcome RuleError Unit

/-- How a run of the virtual machine on the two scripts of a program ends. -/
structure Execution where
  halted : Bool
  stackCount : Nat
  result : Bool

/-- The chain parameters, the chain store, the SPV service and the virtual machine, as the
handlers read them. The exchange rate is exact. -/
structure Validator where
  prim : Primitives
  runtime : Runtime
  elaAssetId : Uint256
  foundation : Uint168
  coinbaseMaturity : UInt32
  minTransactionFee : Fixed64
  minCrossChainTxFee : Fixed64
  exchangeRate : Float64
  hash : Transaction → Uint256
  getSize : Transaction → Int
  getTransaction : Uint256 → Option Transaction
  precisionOf : Uint256 → Option UInt8
  unspents : Uint256 → Option (List UInt16)
  isDuplicateTx : Uint256 → Bool
  isDuplicateMainchainTx : Uint256 → Bool
  genesisHash : Uint256
  height : UInt32
  isMerkleProof : Bytes → Bool
  deserialize : Bytes → Option Types.Transaction
  verifyTransaction : Bytes → Types.Transaction → Bool
  spvTransaction : Uint256 → Option Types.Transaction
  execute : Uint168 → Transaction → Program → Execution

namespace Validator
variable (v : Validator) (tx : Transaction)

def checkTransactionSize : Check :=
  .reject (v.getSize tx ≤ 0 ∨ 8000000 < v.getSize tx) ⟨.transactionSize,
    "[checkTransactionSize] Invalid transaction size: " ++ toString (v.getSize tx) ++ " bytes"⟩

variable (text : String)

def invalidInput : RuleError :=
  ⟨.invalidInput, "[checkTransactionInput] " ++ text⟩

/-- The inputs of a recharge are not looked at. -/
def checkTransactionInput : Check :=
  if tx.txType = .coinBase then
    match tx.inputs with
    | [input] =>
      .require (input.previous = nullOutPoint) (invalidInput "invalid coinbase input")
    | _ => .fail (invalidInput "coinbase must has only one input")
  else if tx.txType = .rechargeToSideChain then .ok ()
  else do
    .reject (tx.inputs = []) (invalidInput "transaction has no inputs")
    let _ ← mapError invalidInput (tx.inputs.foldlM checkInput [])
    .ok ()

def checkOutputProgramHash (programHash : Uint168) : Bool :=
  programHash = .zero 21 ||
    programHash.prefixByte ∈ [prefixStandard, prefixMultiSig, prefixCrossChain]

def totalOf (outputs : List Output) : Fixed64 := wrappedSum (outputs.map (·.value))

def invalidOutput : RuleError :=
  ⟨.invalidOutput, "[checkTransactionOutput] " ++ text⟩

def checkTransactionOutput : Check :=
  if tx.txType = .coinBase then do
    .reject (tx.outputs.length < 2) (invalidOutput "coinbase output is not enough, at least 2")
    .require (∀ output ∈ tx.outputs, output.assetID = v.elaAssetId)
      (invalidOutput "asset ID in coinbase is invalid")
    .reject (totalOf (tx.outputs.filter fun output => output.programHash = v.foundation) <
        toFixed64 (thirtyPercent (totalOf tx.outputs)))
      (invalidOutput "Reward to foundation in coinbase < 30%")
  else do
    .reject (tx.outputs = []) (invalidOutput "transaction has no outputs")
    tx.outputs.forM fun output => do
      .require (output.assetID = v.elaAssetId) (invalidOutput "asset ID in output is invalid")
      .require (checkOutputProgramHash output.programHash = true)
        (invalidOutput "output address is invalid")

def maxPrecision : UInt8 := 8

def checkAmountPrecise (amount : Fixed64) (precision : UInt8) : Bool :=
  amount.toInt.tmod (10 ^ (maxPrecision - precision).toNat) = 0

def checkAssetPrecision : Check :=
  (v.runtime.iterate (tx.outputs.map (·.assetID)).dedup).forM fun asset => do
    let precision ← ofOption ⟨.assetPrecision,
      "[checkAssetPrecision] The asset not exist in local blockchain."⟩ (v.precisionOf asset)
    .require (∀ output ∈ tx.outputs, output.assetID = asset → checkAmountPrecise output.value precision = true)
      ⟨.assetPrecision, "[checkAssetPrecision] The precision of asset is incorrect."⟩

def isValidAttributeType (usage : UInt8) : Bool :=
  usage ∈ ([0x00, 0x20, 0x81, 0x90, 0x91] : List UInt8)

def checkAttributeProgram : Check :=
  .require (∀ item ∈ tx.attributes, isValidAttributeType item.usage = true)
    ⟨.attributeProgram, "[checkAttributeProgram] invalid attribute usage Unknown"⟩

def checkTransactionPayload : Check :=
  match tx.payload with
  | .registerAsset precision amount => do
    .reject (maxPrecision < precision)
      ⟨.transactionPayload, "[checkTransactionPayload] Invalide asset Precision."⟩
    .require (checkAmountPrecise amount precision = true) ⟨.transactionPayload,
      "[checkTransactionPayload] Invalide asset value,out of precise."⟩
  | .other => .fail
      ⟨.transactionPayload, "[checkTransactionPayload] Invalide transaction payload type."⟩
  | _ => .ok ()

def checkTransactionSanity : Check := do
  v.checkTransactionSize tx
  checkTransactionInput tx
  v.checkTransactionOutput tx
  v.checkAssetPrecision tx
  checkAttributeProgram tx
  checkTransactionPayload tx

def checkTransactionDuplicate : Check :=
  .reject (v.isDuplicateTx (v.hash tx) = true)
    ⟨.txHashDuplicate, "[CheckTransactionContext] duplicate transaction check faild."⟩

def isSpent (input : Input) : Bool :=
  match v.unspents input.previous.txID with
  | none => true
  | some indexes => input.previous.index ∉ indexes

def checkTransactionDoubleSpend : Check :=
  .reject (tx.inputs.any v.isSpent = true)
    ⟨.doubleSpend, "[CheckTransactionContext] IsDoubleSpend check faild."⟩

def reference (input : Input) : Outcome String Output := do
  let tx ← ofOption "GetTxReference failed, previous transaction not found"
    (v.getTransaction input.previous.txID)
  ofOption "GetTxReference failed, refIdx out of range."
    tx.outputs[input.previous.index.toNat]?

def getTxReference : Outcome String (List Output) := tx.inputs.mapM v.reference

def txProgramHashes : Outcome String (List Uint168) := do
  let references ← mapError (fun _ => "[Transaction], GetProgramHashes failed.")
    (v.getTxReference tx)
  let scripts ← mapError (fun _ => "[Transaction], GetProgramHashes err.")
    ((tx.attributes.filter fun item => item.usage = Attribute.script).mapM fun item =>
      Uint168.fromBytes item.data)
  .ok (v.runtime.iterate (references.map (·.programHash) ++ scripts).dedup)

def runProgram (pair : Uint168 × Program) : Outcome String Unit := do
  .require (pair.1.toCodeHash = v.prim.toCodeHash pair.2.code) "data hash is different from corresponding program code"
  let run := v.execute pair.1 tx pair.2
  .require (run.halted = true) "[VM] Finish State not equal to HALT"
  .require (run.stackCount = 1) "[VM] Execute Engine Stack Count Error"
  .require (run.result = true) "[VM] Check Sig FALSE"

abbrev Ran := List (Uint168 × Program)

def runPrograms (hashes : List Uint168) (programs : List Program) : Outcome String Ran := do
  .require (hashes.length = programs.length) "number of data hashes is different with number of programs"
  (hashes.zip programs).forM (v.runProgram tx)
  .ok (hashes.zip programs)

def mainChainTransaction (payload : RechargeToSideChain) : Outcome String Types.Transaction :=
  if tx.payloadVersion = 0 then do
    .require (v.isMerkleProof payload.merkleProof = true) "RechargeToSideChain payload deserialize failed"
    ofOption "RechargeToSideChain mainChainTransaction deserialize failed"
      (v.deserialize payload.mainChainTransaction)
  else if tx.payloadVersion = 1 then
    ofOption "Get RechargeToSideChain transaction failed"
      (v.spvTransaction payload.mainChainTransactionHash)
  else .fail "Invalid payload version"

def spvVerifyTransaction : Outcome String Unit :=
  match tx.payload with
  | .rechargeToSideChain payload => do
    let mainTx ← mapError (fun text => "[VerifyTransaction] " ++
        (if tx.payloadVersion = 1 then "Main chain transaction not found"
        else if tx.payloadVersion = 0 then text else "invalid payload version."))
      (v.mainChainTransaction tx payload)
    .require (tx.payloadVersion = 1 ∨ v.verifyTransaction payload.merkleProof mainTx = true)
      "[VerifyTransaction] SPV module verify transaction failed."
  | _ => .fail "[VerifyTransaction] Invalid payload PayloadRechargeToSideChain"

/-- No program is run for a recharge. -/
def checkTransactionSignature : Outcome RuleError Ran :=
  mapError (RuleError.mk .transactionSignature) <|
    if tx.txType = .rechargeToSideChain then do
      v.spvVerifyTransaction tx
      .ok []
    else do
      let hashes ← v.txProgramHashes tx
      v.runPrograms tx
        (v.runtime.sort (fun left right => left.toCodeHash.less right.toCodeHash) hashes)
        (v.runtime.sort (fun left right =>
          (v.prim.toCodeHash left.code).less (v.prim.toCodeHash right.code)) tx.programs)

def genesisToProgramHash : Uint168 :=
  v.prim.toProgramHash prefixCrossChain (32 :: v.genesisHash.bytes ++ [0xAF])

/-- `Fixed64(float64(amount) * rate)`. -/
def converted (amount : Fixed64) : Fixed64 :=
  toFixed64 (Float64.mul (Float64.ofInt amount.toInt) v.exchangeRate)

abbrev Entry := Bytes × UInt64 × Fixed64

/-- `Deserialize` reads the three lists together. -/
def entriesOf (payload : TransferCrossChainAsset) : List Entry :=
  payload.crossChainAddresses.zip (payload.outputIndexes.zip payload.crossChainAmounts)

def recharge : RuleError :=
  ⟨.rechargeToSideChain, "[checkRechargeToSideChainTransaction] " ++ text⟩

def checkEntry (mainTx : Types.Transaction) (total : Fixed64) (entry : Entry) : Outcome RuleError Fixed64 :=
  match mainTx.outputs[entry.2.1.toNat]? with
  | none => .crash "index out of range"
  | some deposit =>
    if deposit.programHash = v.genesisToProgramHash then do
      .reject (entry.2.2 < 0 ∨ deposit.value - v.minCrossChainTxFee < entry.2.2)
        (recharge "Invalid transaction cross chain amount")
      let programHash ← mapError
        (fun _ => recharge "Invalid transaction payload cross chain address")
        (fromAddress v.prim entry.1)
      .require ((programHash, v.converted entry.2.2) ∈ tx.outputs.map fun output => (output.programHash, output.value))
        (recharge "Invalid transaction outputs")
      .ok (total + v.converted entry.2.2)
    else .ok total

/-- Ends in `ErrBreak` when it passes. -/
def checkRechargeToSideChainTransaction : Check :=
  match tx.payload with
  | .rechargeToSideChain payload => do
    .reject (v.exchangeRate ≤ 0) (recharge "Invalid config exchange rate")
    let mainTx ← mapError recharge (v.mainChainTransaction tx payload)
    .reject (v.isDuplicateMainchainTx (mainTx.hash v.prim) = true)
      (recharge "Duplicate mainchain transaction hash in paylod")
    match mainTx.payload with
    | .transferCrossChainAsset transfer => do
      let total ← (entriesOf transfer).foldlM (v.checkEntry tx mainTx) 0
      .reject (∃ output ∈ tx.outputs, output.value < 0)
        (recharge "Invalid transaction output value")
      .require (totalOf tx.outputs = total) (recharge "Output and fee verify failed")
    | _ => .fail (recharge "Invalid PayloadTransferCrossChainAsset")
  | _ => .fail (recharge "Invalid recharge to side chain payload type")

def crossChain : RuleError :=
  ⟨.crossChain, "[checkTransferCrossChainAssetTransaction] Invalid " ++ text⟩

def checkCrossChainEntry (entry : UInt64 × Fixed64) : Check :=
  match tx.outputs[entry.1.toNat]? with
  | none => .crash "index out of range"
  | some output => do
    .require (output.programHash = .zero 21) (crossChain "transaction output program hash")
    .reject (output.value < 0 ∨ entry.2 < 0 ∨ output.value - v.minCrossChainTxFee < entry.2)
      (crossChain "transaction outputs")

def checkTransferCrossChainAssetTransaction : Check :=
  match tx.payload with
  | .transferCrossChainAsset ⟨addresses, indexes, amounts⟩ => do
    .reject (addresses = [] ∨ tx.outputs.length < addresses.length ∨
        addresses.length ≠ amounts.length ∨ amounts.length ≠ indexes.length)
      (crossChain "transaction payload content")
    .reject (¬ indexes.Nodup ∨ ∃ index ∈ indexes, (tx.outputs.length : Int) ≤ index.toInt64.toInt)
      (crossChain "transaction payload cross chain index")
    .require (addresses.length = (tx.outputs.filter fun output => output.programHash = .zero 21).length)
      (crossChain "transaction cross chain counts")
    addresses.forM fun address => do
      let programHash ← mapError (fun _ => crossChain "transaction cross chain address")
        (fromAddress v.prim address)
      .require (programHash.prefixByte ∈ [prefixStandard, prefixMultiSig])
        (crossChain "transaction cross chain address")
    (indexes.zip amounts).forM (v.checkCrossChainEntry tx)
    let references ← mapError (fun _ => crossChain "transaction inputs")
      (v.getTxReference tx)
    .reject (totalOf references - totalOf tx.outputs < v.minCrossChainTxFee)
      (crossChain "transaction fee")
  | _ => .fail (crossChain "transfer cross chain asset payload type")

def utxoLocked : RuleError :=
  ⟨.utxoLocked, "[checkTransactionUTXOLock] " ++ text⟩

def checkTransactionUTXOLock : Check := do
  .reject (tx.inputs = []) (utxoLocked "Transaction has no inputs")
  let references ← mapError (fun text => utxoLocked ("GetReference failed: " ++ text))
    (v.getTxReference tx)
  (v.runtime.iterate (tx.inputs.zip references)).forM fun entry =>
    .when (entry.2.outputLock ≠ 0) do
      .require (entry.1.sequence = 0xfffffffe) (utxoLocked "Invalid input sequence")
      .reject (tx.lockTime < entry.2.outputLock) (utxoLocked "UTXO output locked")

/-- The fees by asset. The case of a recharge is not reached. -/
def getTxFeeMap : Outcome String (List Fixed64) := do
  let references ← v.getTxReference tx
  let totalIn (asset : Uint256) (outputs : List Output) :=
    totalOf (outputs.filter fun output => output.assetID = asset)
  .ok (((tx.outputs ++ references).map (·.assetID)).dedup.map fun asset =>
    totalIn asset references - totalIn asset tx.outputs)

def checkTransactionBalance : Check := do
  .reject (∃ output ∈ tx.outputs, output.value < 0)
    ⟨.transactionBalance, "[checkTransactionBalance] Invalide transaction UTXO output."⟩
  let fees ← mapError (RuleError.mk .transactionBalance) (v.getTxFeeMap tx)
  .reject (∃ fee ∈ fees, fee < v.minTransactionFee)
    ⟨.transactionBalance, "[checkTransactionBalance] Transaction fee not enough"⟩

def checkReferencedOutput : Check :=
  tx.inputs.forM fun input => do
    let referTx ← ofOption ⟨.unknownReferedTx, "Referenced transaction can not be found " ++
        String.ofList (encodeToString input.previous.txID.bytes)⟩
      (v.getTransaction input.previous.txID)
    match referTx.outputs[input.previous.index.toNat]? with
    | none => .crash "index out of range"
    | some output => do
      .reject (output.value < 0)
        ⟨.invalidReferedTx, "Value of referenced transaction output is invalid"⟩
      .reject (referTx.txType = .coinBase ∧ v.height - referTx.lockTime < v.coinbaseMaturity)
        ⟨.ineffectiveCoinbase, "output is locked till " ++ toString referTx.lockTime ++
          ", current " ++ toString v.height⟩

/-- The handlers in order. A coinbase and a recharge break out. -/
def checkTransactionContext : Outcome RuleError Ran := do
  v.checkTransactionDuplicate tx
  if tx.txType = .coinBase then .ok []
  else do
    v.checkTransactionDoubleSpend tx
    let ran ← v.checkTransactionSignature tx
    if tx.txType = .rechargeToSideChain then do
      v.checkRechargeToSideChainTransaction tx
      .ok ran
    else do
      .when (tx.txType = .transferCrossChainAsset)
        (v.checkTransferCrossChainAssetTransaction tx)
      v.checkTransactionUTXOLock tx
      v.checkTransactionBalance tx
      v.checkReferencedOutput tx
      .ok ran

end Validator

namespace Validator
variable (v : Validator)

/-- Some program that was run, and passed, answers for the output that an input spends. -/
def Authorised (tx : Transaction) (ran : Ran) (input : Input) : Prop :=
  ∃ output hash program, v.reference input = .ok output ∧ (hash, program) ∈ ran ∧
    v.runProgram tx (hash, program) = .ok () ∧ v.prim.toCodeHash program.code = output.programHash.toCodeHash

variable {v} {tx : Transaction} {ran : Ran}

theorem runPrograms_ran {hashes : List Uint168} {programs : List Program}
    (passed : v.runPrograms tx hashes programs = .ok ran) {hash : Uint168} (member : hash ∈ hashes) :
    ∃ program, (hash, program) ∈ ran ∧ v.runProgram tx (hash, program) = .ok () := by
  simp only [runPrograms, then_eq_ok, require_eq_ok, forM_eq_ok, Except.ok.injEq] at passed
  obtain ⟨sameLength, each, rfl⟩ := passed
  obtain ⟨index, bound, rfl⟩ := getElem_of_mem member
  have inPrograms : index < programs.length := sameLength ▸ bound
  have paired : (hashes[index], programs[index]) ∈ hashes.zip programs :=
    mem_iff_getElem.2 ⟨index, by simp [bound, inPrograms], by simp⟩
  exact ⟨_, paired, each _ paired⟩

theorem checkTransactionSignature_authorises (signed : tx.txType ≠ .rechargeToSideChain)
    (passed : v.checkTransactionSignature tx = .ok ran) {input : Input}
    (member : input ∈ tx.inputs) : v.Authorised tx ran input := by
  simp only [checkTransactionSignature, signed, if_false, mapError_eq_ok,
    txProgramHashes, bind_eq_ok, Except.ok.injEq] at passed
  obtain ⟨_, ⟨references, found, scripts, _, rfl⟩, ran⟩ := passed
  obtain ⟨output, listed, spent⟩ : ∃ output ∈ references, v.reference input = .ok output :=
    forall₂_mem_left (mapM_eq_ok.1 found) member
  have asked : output.programHash ∈ v.runtime.sort (fun left right => left.toCodeHash.less right.toCodeHash)
      (v.runtime.iterate (references.map (·.programHash) ++ scripts).dedup) := by
    rw [(v.runtime.sort_perm _ _).mem_iff, (v.runtime.iterate_perm _).mem_iff, mem_dedup]
    exact mem_append_left _ (mem_map_of_mem listed)
  obtain ⟨program, wasRun, succeeded⟩ := runPrograms_ran ran asked
  have sameCode := succeeded
  simp only [runProgram, then_eq_ok, require_eq_ok] at sameCode
  exact ⟨output, _, program, spent, wasRun, succeeded, sameCode.1.symm⟩

theorem checkTransactionContext_steps (paying : tx.txType ≠ .coinBase)
    (accepted : v.checkTransactionContext tx = .ok ran) :
    v.checkTransactionSignature tx = .ok ran ∧ (tx.txType = .rechargeToSideChain →
      v.checkRechargeToSideChainTransaction tx = .ok ()) := by
  simp only [checkTransactionContext, paying, if_false, bind_eq_ok, exists_unit] at accepted
  obtain ⟨-, -, _, signed, accepted⟩ := accepted
  split at accepted
  case isTrue =>
    simp only [then_eq_ok, Except.ok.injEq] at accepted
    exact ⟨accepted.2 ▸ signed, fun _ => accepted.1⟩
  case isFalse other =>
    simp only [then_eq_ok, Except.ok.injEq] at accepted
    exact ⟨accepted.2.2.2.2 ▸ signed, fun recharges => absurd recharges other⟩

/-- Only a recharge can spend what nobody signed for. -/
theorem inputsAuthorised_iff (paying : tx.txType ≠ .coinBase) (_sane : v.checkTransactionSanity tx = .ok ())
    (accepted : v.checkTransactionContext tx = .ok ran) : (∀ input ∈ tx.inputs, v.Authorised tx ran input) ↔
      tx.txType ≠ .rechargeToSideChain ∨ tx.inputs = [] := by
  have signed := (checkTransactionContext_steps paying accepted).1
  constructor
  · intro all
    by_contra! spending
    obtain ⟨input, member⟩ := exists_mem_of_ne_nil _ spending.2
    simp only [checkTransactionSignature, spending.1, if_true, mapError_eq_ok, then_eq_ok, Except.ok.injEq] at signed
    obtain ⟨_, _, _, _, wasRun, _⟩ := all input member
    simp [← signed.2] at wasRun
  · rintro (other | none) input member
    · exact checkTransactionSignature_authorises other signed member
    · simp [none] at member

def paid (tx : Transaction) : List (Option Uint168 × Fixed64) :=
  tx.outputs.map fun output => (some output.programHash, output.value)

/-- The entry points to an output paid to the genesis address. -/
def Deposited (v : Validator) (mainTx : Types.Transaction) (entry : Entry) : Prop :=
  (mainTx.outputs[entry.2.1.toNat]?).map (·.programHash) = some v.genesisToProgramHash

instance (mainTx : Types.Transaction) : DecidablePred (v.Deposited mainTx) := fun _ =>
  inferInstanceAs (Decidable (_ = _))

def dueFor (v : Validator) (entry : Entry) : Option Uint168 × Fixed64 :=
  ((fromAddress v.prim entry.1).toOption, v.converted entry.2.2)

def due (v : Validator) (mainTx : Types.Transaction) (transfer : TransferCrossChainAsset) :
    List (Option Uint168 × Fixed64) :=
  ((entriesOf transfer).filter fun entry => v.Deposited mainTx entry).map v.dueFor

variable {mainTx : Types.Transaction} {transfer : TransferCrossChainAsset}

/-- Every entry is met by some output, but not by one of its own. -/
theorem checkEntry_paid (total : Fixed64) (entry : Entry) (next : Fixed64)
    (passed : v.checkEntry tx mainTx total entry = .ok next)
    (deposited : v.Deposited mainTx entry) : v.dueFor entry ∈ paid tx := by
  obtain ⟨deposit, found, toGenesis⟩ := Option.map_eq_some_iff.1 deposited
  simp only [checkEntry, found, toGenesis, if_true, bind_eq_ok, exists_unit,
    mapError_eq_ok, require_eq_ok, mem_map, Prod.mk.injEq] at passed
  obtain ⟨_, programHash, decoded, ⟨output, member, rfl, sameValue⟩, _⟩ := passed
  rw [dueFor, decoded, ← sameValue]
  exact mem_map_of_mem (f := fun output => (some output.programHash, output.value)) member

theorem due_subset_paid {total : Fixed64}
    (passed : (entriesOf transfer).foldlM (v.checkEntry tx mainTx) 0 = .ok total) :
    v.due mainTx transfer ⊆ paid tx := by
  intro pair member
  obtain ⟨entry, chosen, rfl⟩ := mem_map.1 member
  obtain ⟨listed, deposited⟩ := mem_filter.1 chosen
  exact foldlM_forall checkEntry_paid passed entry listed (of_decide_eq_true deposited)

theorem perm_iff_of_subset {α : Type} [BEq α] [LawfulBEq α] {few many : List α} (subset : few ⊆ many) :
    many.Perm few ↔ many.length = few.length ∧ ∀ item ∈ few, 1 < few.count item → few.count item ≤ many.count item := by
  refine ⟨fun same => ⟨same.length_eq, fun item _ _ => (same.count_eq item).ge⟩, ?_⟩
  rintro ⟨sameLength, repeated⟩
  refine (List.Subperm.perm_of_length_le (subperm_ext_iff.2 fun item member => ?_) sameLength.le).symm
  by_cases once : 1 < few.count item
  · exact repeated item member once
  · exact (not_lt.1 once).trans (count_pos_iff.2 (subset member))

/-- A recharge pays the depositors when it has no other outputs and pays an entry that is
listed again as often as it is listed. -/
theorem paysDepositors_iff (recharges : tx.txType = .rechargeToSideChain)
    (_sane : v.checkTransactionSanity tx = .ok ()) (accepted : v.checkTransactionContext tx = .ok ran) :
    ∃ payload mainTx transfer, tx.payload = .rechargeToSideChain payload ∧
      v.mainChainTransaction tx payload = .ok mainTx ∧ mainTx.payload = .transferCrossChainAsset transfer ∧
      ((paid tx).Perm (v.due mainTx transfer) ↔ (paid tx).length = (v.due mainTx transfer).length ∧
        ∀ pair ∈ v.due mainTx transfer, 1 < (v.due mainTx transfer).count pair →
          (v.due mainTx transfer).count pair ≤ (paid tx).count pair) := by
  have checked := (checkTransactionContext_steps (by simp [recharges]) accepted).2 recharges
  unfold checkRechargeToSideChainTransaction at checked
  split at checked
  case h_2 => cases checked
  case h_1 payload carried =>
    simp only [bind_eq_ok, exists_unit, mapError_eq_ok] at checked
    obtain ⟨_, mainTx, found, _, checked⟩ := checked
    split at checked
    case h_2 => cases checked
    case h_1 transfer moved =>
      simp only [bind_eq_ok] at checked
      obtain ⟨_, looped, _⟩ := checked
      exact ⟨payload, mainTx, transfer, carried, found, moved, perm_iff_of_subset (due_subset_paid looped)⟩

end Validator

namespace SmallRecharge
open Crypto.Stand Blockchain.SmallChain

def addressOf (programHash : Uint168) : Bytes :=
  (toAddress primitives programHash).toOption.getD []

def paying (programHash : Uint168) (value : Fixed64) : Output := ⟨default, value, 0, programHash⟩

def genesis : Uint168 :=
  primitives.toProgramHash prefixCrossChain (32 :: (default : Uint256).bytes ++ [0xAF])

def transfer : TransferCrossChainAsset :=
  ⟨[addressOf (owner 1), addressOf (owner 1)], [0, 1], [5, 5]⟩

def deposit : Types.Transaction :=
  { SmallChain.coinbase 1 [output genesis 10, output genesis 10] with
    txType := .transferCrossChainAsset
    payload := .transferCrossChainAsset transfer }

/-- Carries the deposit, names an output of somebody else and pays half to the miner. -/
def misdirected : Transaction where
  txType := .rechargeToSideChain
  payloadVersion := 0
  payload := .rechargeToSideChain ⟨[], [], default⟩
  attributes := []
  inputs := [⟨⟨default, 0⟩, 0⟩]
  outputs := [paying (owner 1) 5, paying miner 5]
  lockTime := 0
  programs := []

def validator : Validator where
  prim := primitives
  runtime := .insertion
  elaAssetId := default
  foundation := foundation
  coinbaseMaturity := 100
  minTransactionFee := 1
  minCrossChainTxFee := 1
  exchangeRate := 1
  hash _ := default
  getSize _ := 1
  getTransaction _ := some { misdirected with outputs := [paying (owner 2) 7] }
  precisionOf _ := some 8
  unspents _ := some [0]
  isDuplicateTx _ := false
  isDuplicateMainchainTx _ := false
  genesisHash := default
  height := 1
  isMerkleProof _ := true
  deserialize _ := some deposit
  verifyTransaction _ _ := true
  spvTransaction _ := none
  execute _ _ _ := ⟨true, 1, true⟩

theorem misdirected_sane : validator.checkTransactionSanity misdirected = .ok () := by
  decide +kernel

theorem misdirected_accepted : validator.checkTransactionContext misdirected = .ok [] := by
  decide +kernel

theorem misdirected_unauthorised : validator.checkTransactionSanity misdirected = .ok () ∧
      validator.checkTransactionContext misdirected = .ok [] ∧
      validator.reference ⟨⟨default, 0⟩, 0⟩ = .ok (paying (owner 2) 7) ∧
      ¬ ∀ input ∈ misdirected.inputs, validator.Authorised misdirected [] input := by
  refine ⟨misdirected_sane, misdirected_accepted, by decide +kernel, fun all => ?_⟩
  obtain ⟨_, _, _, _, wasRun, _⟩ := all _ mem_cons_self
  cases wasRun

/-- A transfer of the same output by its owner. -/
def rightful : Transaction :=
  { misdirected with
    txType := .transferAsset
    payload := .transferAsset
    outputs := [paying (owner 1) 6]
    programs := [signedBy 2] }

theorem rightful_spends : (∀ input ∈ rightful.inputs, validator.Authorised rightful [(owner 2, signedBy 2)] input) ∧
    ¬ ∀ input ∈ misdirected.inputs, validator.Authorised misdirected [] input := by
  refine ⟨?_, ?_⟩
  · exact (Validator.inputsAuthorised_iff (by decide) (by decide +kernel) (by decide +kernel)).2 (by decide)
  · rw [Validator.inputsAuthorised_iff (by decide) misdirected_sane misdirected_accepted]
    simp [misdirected]

theorem misdirected_short : validator.checkTransactionSanity misdirected = .ok () ∧
      validator.checkTransactionContext misdirected = .ok [] ∧
      validator.mainChainTransaction misdirected ⟨[], [], default⟩ = .ok deposit ∧
      deposit.payload = .transferCrossChainAsset transfer ∧
      ¬ (Validator.paid misdirected).Perm (validator.due deposit transfer) :=
  ⟨misdirected_sane, misdirected_accepted, by decide +kernel, rfl, by decide +kernel⟩

/-- Pays the depositor for both entries. -/
def paidTwice : Transaction := { misdirected with outputs := [paying (owner 1) 5, paying (owner 1) 5] }

theorem paidTwice_pays : validator.due deposit transfer = [(some (owner 1), 5), (some (owner 1), 5)] ∧
    (Validator.paid paidTwice).Perm (validator.due deposit transfer) := by
  refine ⟨by decide +kernel, ?_⟩
  obtain ⟨payload, mainTx, transfer, carried, found, moved, pays⟩ :=
    @Validator.paysDepositors_iff validator paidTwice [] rfl (by decide +kernel) (by decide +kernel)
  cases carried
  cases found
  cases moved
  exact pays.2 (by decide +kernel)

end SmallRecharge
end Elastos.SideChain.Mempool
