import Elastos.Cr.State

/-! The producer state of `dpos/state` and the arbitrators as the validators see them. Producers live in
a list of cells here and the maps hold positions in it, so that a change made through one map is seen
through the others. -/
set_option autoImplicit false
namespace Elastos.Dpos
open Go Common Config Elastos.Types Utils Crypto Elastos.Core

inductive ProducerState where
  | pending
  | active
  | inactive
  | canceled
  | illegal
  | returned
  deriving DecidableEq

structure Producer where
  info : ProducerInfo
  state : ProducerState
  registerHeight : UInt32
  cancelHeight : UInt32
  inactiveCountingHeight : UInt32
  inactiveSince : UInt32
  activateRequestHeight : UInt32
  illegalHeight : UInt32
  penalty : Fixed64
  votes : Fixed64
  depositAmount : Fixed64
  depositHash : Uint168
  deriving DecidableEq

/-- Keys are public keys, written in hexadecimal in the source. -/
structure StateKeyFrame where
  producers : List Producer
  nodeOwnerKeys : GoMap Bytes Bytes
  pendingProducers : GoMap Bytes Nat
  activityProducers : GoMap Bytes Nat
  inactiveProducers : GoMap Bytes Nat
  canceledProducers : GoMap Bytes Nat
  illegalProducers : GoMap Bytes Nat
  pendingCanceledProducers : GoMap Bytes Nat
  votes : GoMap OutPoint Unit
  depositOutputs : GoMap OutPoint Fixed64
  nicknames : GoMap Bytes Unit
  specialTxHashes : GoMap Uint256 Unit
  preBlockArbiters : GoMap Bytes Unit
  producerDepositMap : GoMap Uint168 Unit
  emergencyInactiveArbiters : GoMap Bytes Unit
  versionStartHeight : UInt32
  versionEndHeight : UInt32

namespace StateKeyFrame

def empty : StateKeyFrame where
  producers := []
  nodeOwnerKeys := ∅
  pendingProducers := ∅
  activityProducers := ∅
  inactiveProducers := ∅
  canceledProducers := ∅
  illegalProducers := ∅
  pendingCanceledProducers := ∅
  votes := ∅
  depositOutputs := ∅
  nicknames := ∅
  specialTxHashes := ∅
  preBlockArbiters := ∅
  producerDepositMap := ∅
  emergencyInactiveArbiters := ∅
  versionStartHeight := 0
  versionEndHeight := 0

variable (frame : StateKeyFrame)

def producer? (position : Nat) : Option Producer :=
  frame.producers[position]?

def updateProducer (position : Nat) (update : Producer → Producer) : StateKeyFrame :=
  { frame with producers := frame.producers.modify position update }

variable (publicKey : Bytes)

def getProducerKey : Bytes :=
  (frame.nodeOwnerKeys.lookup publicKey).getD publicKey

/-- The maps are searched in this order. -/
def getProducerByOwnerPublicKey (key : Bytes) : Option Nat :=
  (frame.activityProducers.lookup key).or <|
    (frame.canceledProducers.lookup key).or <|
      (frame.illegalProducers.lookup key).or <|
        (frame.pendingProducers.lookup key).or <|
          frame.inactiveProducers.lookup key

def getProducerRef : Option Nat :=
  frame.getProducerByOwnerPublicKey (frame.getProducerKey publicKey)

def getProducer : Option Producer :=
  (frame.getProducerRef publicKey).bind frame.producer?

def producersOf (positions : GoMap Bytes Nat) : List Producer :=
  (GoMap.values positions).filterMap frame.producer?

def getActiveProducers : List Producer :=
  frame.producersOf frame.activityProducers

def getPendingCanceledProducers : List Producer :=
  frame.producersOf frame.pendingCanceledProducers

def nicknameExists (nickname : Bytes) : Bool :=
  (frame.nicknames.lookup nickname).isSome

def producerExists : Bool :=
  (frame.getProducerRef publicKey).isSome

def producerOwnerPublicKeyExists : Bool :=
  (frame.getProducerByOwnerPublicKey publicKey).isSome

def producerNodePublicKeyExists : Bool :=
  (frame.nodeOwnerKeys.lookup publicKey).isSome

def existProducerByDepositHash (programHash : Uint168) : Bool :=
  (frame.producerDepositMap.lookup programHash).isSome

end StateKeyFrame

structure State where
  params : Params
  frame : StateKeyFrame
  history : History StateKeyFrame

namespace State
variable (state : State)
variable (height : UInt32)

def append (change : Change StateKeyFrame) : Outcome String State := do
  let (history, frame) ← state.history.append height change state.frame
  .ok { state with history, frame }

def commit : Outcome String State := do
  let (history, frame) ← state.history.commit height state.frame
  .ok { state with history, frame }

def addVotes (position : Nat) (amount : Fixed64) : Change StateKeyFrame where
  execute frame := frame.updateProducer position fun producer =>
    { producer with votes := producer.votes + amount }
  rollback frame := frame.updateProducer position fun producer =>
    { producer with votes := producer.votes - amount }

variable (output : Output) (vote : VoteOutput)

def delegateAmount (votes : CandidateVotes) : Fixed64 :=
  if vote.version = voteProducerVersion then output.value else votes.votes

def processCandidateVotes (voteType : VoteType)
    (height : UInt32) (state : State) (votes : CandidateVotes) : Outcome String State :=
  match state.frame.getProducerRef votes.candidate with
  | none => .ok state
  | some position =>
    match voteType with
    | .delegate =>
      state.append height (addVotes position (delegateAmount output vote votes))
    | _ => .ok state

/-- The assertion on the payload panics when the output is not a vote. -/
def processVoteOutput (output : Output) (height : UInt32) : Outcome String State :=
  match output.payload with
  | .vote vote =>
    vote.contents.foldlM (fun current content =>
      content.candidateVotes.foldlM (processCandidateVotes output vote content.voteType height) current) state
  | _ => .crash "interface conversion"

/-- The keys a piece of evidence accuses. For two blocks these are the signers
listed in both pieces. -/
def illegalProducers : Payload → Option (List Bytes)
  | .illegalProposals payload => some [payload.evidence.proposal.sponsor]
  | .illegalVotes payload => some [payload.evidence.vote.signer]
  | .illegalBlocks payload =>
    some (payload.compareEvidence.signers.filter fun signer =>
      signer ∈ payload.evidence.signers)
  | .sidechainIllegalData payload => some [payload.illegalSigner]
  | _ => none

def nickNameAt (frame : StateKeyFrame) (position : Nat) : Bytes :=
  (frame.producer? position).elim [] fun producer => producer.info.nickName

variable (key : Bytes) (position : Nat) (height : UInt32)

def punishActive : Change StateKeyFrame where
  execute frame :=
    let updated := frame.updateProducer position fun producer =>
      { producer with
        state := .illegal, illegalHeight := height,
        activateRequestHeight := 0xffffffff }
    { updated with
      illegalProducers := frame.illegalProducers.insert key position
      activityProducers := frame.activityProducers.erase key
      nicknames := frame.nicknames.erase (nickNameAt frame position) }
  rollback frame :=
    let updated := frame.updateProducer position fun producer =>
      { producer with
        state := .active, illegalHeight := 0,
        activateRequestHeight := 0xffffffff }
    { updated with
      activityProducers := frame.activityProducers.insert key position
      illegalProducers := frame.illegalProducers.erase key
      nicknames := frame.nicknames.insert (nickNameAt frame position) () }

def punishCanceled : Change StateKeyFrame where
  execute frame :=
    let updated := frame.updateProducer position fun producer =>
      { producer with state := .illegal, illegalHeight := height }
    { updated with
      illegalProducers := frame.illegalProducers.insert key position
      canceledProducers := frame.canceledProducers.erase key
      nicknames := frame.nicknames.erase (nickNameAt frame position) }
  rollback frame :=
    let updated := frame.updateProducer position fun producer =>
      { producer with state := .canceled, illegalHeight := 0 }
    { updated with
      canceledProducers := frame.canceledProducers.insert key position
      illegalProducers := frame.illegalProducers.erase key
      nicknames := frame.nicknames.insert (nickNameAt frame position) () }

/-- Only node keys are looked up, and only active and canceled producers are
punished. -/
def punish (state : State) (publicKey : Bytes) : Outcome String State :=
  match state.frame.nodeOwnerKeys.lookup publicKey with
  | none => .ok state
  | some key =>
    match state.frame.activityProducers.lookup key with
    | some position => state.append height (punishActive key position height)
    | none =>
      match state.frame.canceledProducers.lookup key with
      | some position => state.append height (punishCanceled key position height)
      | none => .ok state

def processIllegalEvidence (payload : Payload) (height : UInt32) : Outcome String State :=
  match illegalProducers payload with
  | none => .ok state
  | some accused => accused.foldlM (punish height) state

def returnToOwner (params : Params) (position : Nat) (amount : Fixed64) (height : UInt32) : Change StateKeyFrame where
  execute frame := frame.updateProducer position fun producer =>
    { producer with
      depositAmount :=
        if params.crVotingStartHeight ≤ height then producer.depositAmount - amount
        else producer.depositAmount
      state := .returned }
  rollback frame := frame.updateProducer position fun producer =>
    { producer with
      depositAmount :=
        if params.crVotingStartHeight ≤ height then producer.depositAmount + amount
        else producer.depositAmount
      state := .canceled }

def depositInput (frame : StateKeyFrame) (tx : Transaction) : Fixed64 :=
  wrappedSum (tx.inputs.map fun input =>
    (frame.depositOutputs.lookup input.previous).getD 0)

def returnDepositOf (amount : Fixed64) (height : UInt32) (state : State)
    (program : Program) : Outcome String State := do
  let publicKey ← Crypto.pushedKey program.code
  match state.frame.getProducerRef publicKey with
  | none => .ok state
  | some position =>
    if (state.frame.producer? position).map (·.state) = some .canceled then
      state.append height (returnToOwner state.params position amount height)
    else
      .ok state

def returnDeposit (tx : Transaction) (height : UInt32) : Outcome String State :=
  tx.programs.foldlM (returnDepositOf (depositInput state.frame tx) height) state

end State

namespace StateKeyFrame
variable (frame : StateKeyFrame) (publicKey : Bytes)

def isActiveProducer : Bool :=
  (frame.activityProducers.lookup (frame.getProducerKey publicKey)).isSome

def isInactiveProducer : Bool :=
  (frame.inactiveProducers.lookup (frame.getProducerKey publicKey)).isSome

def isCanceledProducer : Bool :=
  (frame.canceledProducers.lookup (frame.getProducerKey publicKey)).isSome

def isIllegalProducer : Bool :=
  (frame.illegalProducers.lookup (frame.getProducerKey publicKey)).isSome

/-- The payloads that implement `DPOSIllegalData`, with their hashes. -/
def illegalDataHash (prim : Primitives) : Payload → Option Uint256
  | .illegalProposals payload => some (payload.hash prim)
  | .illegalVotes payload => some (payload.hash prim)
  | .illegalBlocks payload => some (payload.hash prim)
  | .sidechainIllegalData payload => some (payload.hash prim)
  | .inactiveArbitrators payload => some (payload.hash prim)
  | _ => none

def specialTxExists (prim : Primitives) (frame : StateKeyFrame) (tx : Transaction) : Bool :=
  match illegalDataHash prim tx.payload with
  | none => false
  | some hash => (frame.specialTxHashes.lookup hash).isSome

end StateKeyFrame

/-- `bestHeight` is the height of the chain the arbitrators are attached to. -/
structure Arbitrators where
  params : Params
  bestHeight : UInt32
  state : StateKeyFrame
  crCommittee : Cr.Frame
  currentArbitrators : List Bytes
  crcArbiters : List Bytes
  dutyIndex : Nat
  snapshotKeysDesc : List UInt32
  snapshots : GoMap UInt32 (List (List Bytes))
  illegalBlocksPayloadHashes : GoMap Uint256 Unit
  arbitersRoundReward : GoMap Uint168 Fixed64
  finalRoundChange : Fixed64

namespace Arbitrators
variable (arbitrators : Arbitrators)

def getArbitrators : List Bytes :=
  arbitrators.currentArbitrators

variable (publicKey : Bytes)

def isArbitrator : Bool :=
  publicKey ∈ arbitrators.getArbitrators

def getCRCArbiters : List Bytes :=
  arbitrators.crcArbiters

def isCRCArbitrator : Bool :=
  publicKey ∈ arbitrators.crcArbiters

def getCRCArbitersCount : Nat :=
  arbitrators.crcArbiters.length

def isDisabledProducer : Bool :=
  arbitrators.state.isInactiveProducer publicKey ||
    arbitrators.state.isIllegalProducer publicKey ||
    arbitrators.state.isCanceledProducer publicKey

/-- `int(float64(count) * 2 / 3)`. -/
def majorityOf (count : Nat) : Int :=
  Float64.truncate (Float64.div (Float64.mul (Float64.ofInt count) 2) 3)

def getArbitersMajorityCount : Int :=
  majorityOf arbitrators.currentArbitrators.length

def beforeCRCOnly : Prop :=
  arbitrators.bestHeight < arbitrators.params.crcOnlyDPOSHeight - 1

instance (arbitrators : Arbitrators) : Decidable arbitrators.beforeCRCOnly := by
  unfold beforeCRCOnly
  infer_instance

def getCrossChainArbiters : List Bytes :=
  if arbitrators.beforeCRCOnly then arbitrators.getArbitrators
  else arbitrators.getCRCArbiters

/-- The count comes from the configuration, not from the arbiters in office. -/
def getCrossChainArbitersCount : Nat :=
  if arbitrators.beforeCRCOnly then arbitrators.params.originArbiters.length
  else arbitrators.params.crcArbiters.length

def getCrossChainArbitersMajorityCount : Int :=
  majorityOf arbitrators.getCrossChainArbitersCount

variable (prim : Primitives) (arbitrators : Arbitrators)

/-- The configured arbiters, or none when one of their keys cannot be decoded. -/
def getNormalArbitratorsDescV0 : List Bytes :=
  if arbitrators.params.originArbiters.all fun key =>
      (publicKeyToStandardProgramHash prim key).isOk then
    arbitrators.params.originArbiters
  else []

/-- The entry at an index taken modulo the length. An empty list panics. -/
def entryModulo (index : Nat) (keys : List Bytes) : Outcome String Bytes :=
  match keys[index % keys.length]? with
  | some key => .ok key
  | none => .crash "integer divide by zero"

def getOnDutyArbitrator : Outcome String Bytes :=
  let height := arbitrators.bestHeight + 1
  if arbitrators.params.crcOnlyDPOSHeight ≤ height then
    entryModulo arbitrators.dutyIndex arbitrators.currentArbitrators
  else
    entryModulo (height - 1).toNat (getNormalArbitratorsDescV0 prim arbitrators)

def getOnDutyCrossChainArbitrator (prim : Primitives) (runtime : Runtime)
    (arbitrators : Arbitrators) : Outcome String Bytes :=
  if arbitrators.beforeCRCOnly then
    getOnDutyArbitrator prim arbitrators
  else
    let sinceCRCOnly :=
      arbitrators.bestHeight - arbitrators.params.crcOnlyDPOSHeight + 1
    entryModulo sinceCRCOnly.toNat
      (runtime.sort Bytes.less arbitrators.getCRCArbiters)

/-- The key of the snapshot that covers a height. Later matches win. -/
def snapshotKey (height : UInt32) (first : UInt32) (keysDesc : List UInt32) : UInt32 :=
  (keysDesc.zip keysDesc.tail).foldl (fun key entry =>
    if entry.2 ≤ height ∧ height < entry.1 then entry.2 else key) first

def getSnapshot (height : UInt32) : Outcome String (List (List Bytes)) :=
  if arbitrators.bestHeight < height then
    .ok [arbitrators.currentArbitrators]
  else
    match arbitrators.snapshotKeysDesc.head?, arbitrators.snapshotKeysDesc.getLast? with
    | some first, some last =>
      if last ≤ height then
        let key := snapshotKey height first arbitrators.snapshotKeysDesc
        .ok ((arbitrators.snapshots.lookup key).getD [])
      else
        .ok []
    | _, _ => .crash "index out of range"

def illegalBlockHashes (prim : Primitives) (transactions : List Transaction) : Outcome String (List Uint256) :=
  (transactions.filter fun tx => tx.txType = .illegalBlockEvidence).mapM fun tx =>
    match tx.payload with
    | .illegalBlocks payload => .ok (payload.hash prim)
    | _ => .crash "interface conversion"

def checkDPOSIllegalTx (block : Block) : Outcome String Unit :=
  if arbitrators.illegalBlocksPayloadHashes.entries.isEmpty then .ok ()
  else do
    let found ← illegalBlockHashes prim block.transactions
    .require (∀ hash ∈ arbitrators.illegalBlocksPayloadHashes.keys, hash ∈ found)
      "expect an illegal blocks transaction in this block"

def checkCRCAppropriationTx (block : Block) : Outcome String Unit :=
  let count := (block.transactions.filter fun tx =>
    tx.txType = .crcAppropriation).length
  let needed := if arbitrators.crCommittee.needAppropriation then 1 else 0
  .require (UInt32.ofNat count = UInt32.ofNat needed)
    ("current block height " ++ toString block.height ++
      ", appropriation transaction count should be " ++ toString needed ++
      ", current block contains " ++ toString count)

end Arbitrators
end Elastos.Dpos
