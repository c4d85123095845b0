import Elastos.Dpos.State

/-! How the producer state follows a block. Every handler appends changes to the
history; a change remembers what it needs from the state at the time it is appended
and runs when the block is committed. -/
set_option autoImplicit false
namespace Elastos.Dpos
open Go Common Config Crypto Elastos.Core Elastos.Types Utils

/-- What the state is given by the arbitrators and the chain. -/
structure StateFuncs where
  prim : Primitives
  runtime : Runtime
  getArbiters : List Bytes
  getProducerDepositAmount : Uint168 → Outcome String Fixed64
  getTxReference : Transaction → Outcome String (List (Input × Output))

def activateDuration : UInt32 := 6
def maxHistoryCapacity : Int := 10

/-- The maps that a registered producer can be in. -/
inductive ProducerList where
  | pending
  | activity
  | inactive
  | canceled
  | illegal
  deriving DecidableEq

namespace StateKeyFrame

def list (frame : StateKeyFrame) : ProducerList → GoMap Bytes Nat
  | .pending => frame.pendingProducers
  | .activity => frame.activityProducers
  | .inactive => frame.inactiveProducers
  | .canceled => frame.canceledProducers
  | .illegal => frame.illegalProducers

def setList (frame : StateKeyFrame) (list : ProducerList) (positions : GoMap Bytes Nat) : StateKeyFrame :=
  match list with
  | .pending => { frame with pendingProducers := positions }
  | .activity => { frame with activityProducers := positions }
  | .inactive => { frame with inactiveProducers := positions }
  | .canceled => { frame with canceledProducers := positions }
  | .illegal => { frame with illegalProducers := positions }

end StateKeyFrame

namespace State

/-- A write that does not go through the history. -/
def writeFrame (state : State) (write : StateKeyFrame → StateKeyFrame) : State :=
  { state with frame := write state.frame }

section Producers

def depositsOf (prim : Primitives) (tx : Transaction) (programHash : Uint168) : List (OutPoint × Fixed64) :=
  ((Cr.outputPoints prim tx).filter fun entry => entry.2.programHash = programHash).map
    fun entry => (entry.1, entry.2.value)

def newProducer (info : ProducerInfo) (height : UInt32) (amount : Fixed64) (programHash : Uint168) : Producer where
  info := info
  state := .pending
  registerHeight := height
  cancelHeight := 0
  inactiveCountingHeight := 0
  inactiveSince := 0
  activateRequestHeight := 0xffffffff
  illegalHeight := 0
  penalty := 0
  votes := 0
  depositAmount := amount
  depositHash := programHash

def enterProducer (info : ProducerInfo) (position : Nat) (programHash : Uint168)
    (deposits : List (OutPoint × Fixed64)) : Change StateKeyFrame where
  execute frame := { frame with
    nicknames := frame.nicknames.insert info.nickName ()
    nodeOwnerKeys := frame.nodeOwnerKeys.insert info.nodePublicKey info.ownerPublicKey
    pendingProducers := frame.pendingProducers.insert info.ownerPublicKey position
    producerDepositMap := frame.producerDepositMap.insert programHash ()
    depositOutputs := deposits.foldl (fun map entry => map.insert entry.1 entry.2)
      frame.depositOutputs }
  rollback frame := { frame with
    nicknames := frame.nicknames.erase info.nickName
    nodeOwnerKeys := frame.nodeOwnerKeys.erase info.nodePublicKey
    pendingProducers := frame.pendingProducers.erase info.ownerPublicKey
    producerDepositMap := frame.producerDepositMap.erase programHash
    depositOutputs := deposits.foldl (fun map entry => map.erase entry.1)
      frame.depositOutputs }

/-- The new producer gets a cell at once and is entered on commit. The error of the
deposit address is dropped and its nil result dereferenced. -/
def registerProducer (funcs : StateFuncs) (state : State) (tx : Transaction) (height : UInt32) : Outcome String State :=
  match tx.payload with
  | .producerInfo info =>
    match publicKeyToDepositProgramHash funcs.prim info.ownerPublicKey with
    | .ok programHash =>
      let deposits := depositsOf funcs.prim tx programHash
      let producer := newProducer info height (wrappedSum (deposits.map Prod.snd))
        programHash
      let allocated := state.writeFrame fun frame =>
        { frame with producers := frame.producers ++ [producer] }
      allocated.append height
        (enterProducer info state.frame.producers.length programHash deposits)
    | .error _ => Cr.nilDereference
  | _ => .crash "interface conversion"

/-- The producer is looked up when the change runs. -/
def updateProducerInfo (origin update : ProducerInfo) (frame : StateKeyFrame) : StateKeyFrame :=
  let named :=
    if origin.nickName ≠ update.nickName then
      { frame with
        nicknames := (frame.nicknames.erase origin.nickName).insert update.nickName () }
    else frame
  let keyed :=
    if origin.nodePublicKey ≠ update.nodePublicKey then
      { named with
        nodeOwnerKeys := (named.nodeOwnerKeys.erase origin.nodePublicKey).insert
          update.nodePublicKey origin.ownerPublicKey }
    else named
  match frame.getProducerRef origin.ownerPublicKey with
  | some position => keyed.updateProducer position fun producer =>
    { producer with info := update }
  | none => keyed

def changeInfo (origin update : ProducerInfo) : Change StateKeyFrame where
  execute := updateProducerInfo origin update
  rollback := updateProducerInfo update origin

variable (state : State)

/-- The cell that a key leads to. Using a nil producer panics. -/
def existingProducer (publicKey : Bytes) : Outcome String (Nat × Producer) :=
  match state.frame.getProducerRef publicKey with
  | none => Cr.nilDereference
  | some position =>
    match state.frame.producer? position with
    | none => Cr.nilDereference
    | some producer => .ok (position, producer)

def updateProducer (info : ProducerInfo) (height : UInt32) : Outcome String State := do
  let (_, producer) ← state.existingProducer info.ownerPublicKey
  state.append height (changeInfo producer.info info)

def cancel (key : Bytes) (position : Nat) (isPending : Bool) (height : UInt32) : Change StateKeyFrame where
  execute frame :=
    let updated := frame.updateProducer position fun producer =>
      { producer with state := .canceled, cancelHeight := height }
    { updated with
      canceledProducers := frame.canceledProducers.insert key position
      pendingProducers :=
        if isPending then frame.pendingProducers.erase key else frame.pendingProducers
      pendingCanceledProducers :=
        if isPending then frame.pendingCanceledProducers.insert key position
        else frame.pendingCanceledProducers
      activityProducers :=
        if isPending then frame.activityProducers else frame.activityProducers.erase key
      nicknames := frame.nicknames.erase (nickNameAt frame position) }
  rollback frame :=
    let updated := frame.updateProducer position fun producer =>
      { producer with
        state := if isPending then .pending else .active
        cancelHeight := 0 }
    { updated with
      canceledProducers := frame.canceledProducers.erase key
      pendingProducers :=
        if isPending then frame.pendingProducers.insert key position
        else frame.pendingProducers
      pendingCanceledProducers :=
        if isPending then frame.pendingCanceledProducers.erase key
        else frame.pendingCanceledProducers
      activityProducers :=
        if isPending then frame.activityProducers
        else frame.activityProducers.insert key position
      nicknames := frame.nicknames.insert (nickNameAt frame position) () }

def cancelProducer (payload : ProcessProducer) (height : UInt32) : Outcome String State := do
  let (position, producer) ← state.existingProducer payload.ownerPublicKey
  state.append height
    (cancel payload.ownerPublicKey position (producer.state = .pending) height)

def requestActivation (position : Nat) (height : UInt32) : Change StateKeyFrame where
  execute frame := frame.updateProducer position fun producer =>
    { producer with activateRequestHeight := height }
  rollback frame := frame.updateProducer position fun producer =>
    { producer with activateRequestHeight := 0xffffffff }

def activateProducer (payload : ActivateProducer) (height : UInt32) : Outcome String State :=
  match state.frame.getProducerRef payload.nodePublicKey with
  | none => .ok state
  | some position => state.append height (requestActivation position height)

end Producers

section Votes

def recordVote (op : OutPoint) : Change StateKeyFrame where
  execute frame := { frame with votes := frame.votes.insert op () }
  rollback frame := { frame with votes := frame.votes.erase op }

/-- Whether the state counts the votes of an output. -/
def countsVotes (vote : VoteOutput) : Prop :=
  vote.version = voteProducerVersion ∨ ∃ content ∈ vote.contents, content.voteType = .delegate

instance (vote : VoteOutput) : Decidable (countsVotes vote) :=
  inferInstanceAs (Decidable (_ ∨ _))

def processVote (height : UInt32) (state : State) (entry : OutPoint × Output) : Outcome String State :=
  if entry.2.outputType = .vote then
    match entry.2.payload with
    | .vote vote =>
      if countsVotes vote then do
        let recorded ← state.append height (recordVote entry.1)
        recorded.processVoteOutput entry.2 height
      else
        .ok state
    | _ => Cr.nilDereference
  else
    .ok state

variable (funcs : StateFuncs) (state : State) (tx : Transaction) (height : UInt32)

def processVotes : Outcome String State :=
  if txVersion09 ≤ tx.version then
    (Cr.outputPoints funcs.prim tx).foldlM (processVote height) state
  else
    .ok state

def subtractVotes (position : Nat) (amount : Fixed64) : Change StateKeyFrame where
  execute frame := frame.updateProducer position fun producer =>
    { producer with votes := producer.votes - amount }
  rollback frame := frame.updateProducer position fun producer =>
    { producer with votes := producer.votes + amount }

def cancelCandidateVotes (output : Output) (vote : VoteOutput) (voteType : VoteType)
    (height : UInt32) (state : State) (votes : CandidateVotes) : Outcome String State :=
  match state.frame.getProducerRef votes.candidate with
  | none => .ok state
  | some position =>
    match voteType with
    | .delegate =>
      state.append height (subtractVotes position (delegateAmount output vote votes))
    | _ => .ok state

def processVoteCancel (state : State) (output : Output) (height : UInt32) : Outcome String State :=
  match output.payload with
  | .vote vote =>
    vote.contents.foldlM (fun current content =>
      content.candidateVotes.foldlM (cancelCandidateVotes output vote content.voteType height) current) state
  | _ => .crash "interface conversion"

/-- An input without a reference has an output without a payload. -/
def cancelVotesOf (references : List (Input × Output)) (height : UInt32) (state : State)
    (input : Input) : Outcome String State :=
  if (state.frame.votes.lookup input.previous).isSome then
    match references.find? fun entry => entry.1 = input with
    | some (_, output) => state.processVoteCancel output height
    | none => .crash "interface conversion"
  else
    .ok state

def processCancelVotes : Outcome String State :=
  if tx.inputs.any fun input => (state.frame.votes.lookup input.previous).isSome then
    match funcs.getTxReference tx with
    | .ok references => tx.inputs.foldlM (cancelVotesOf references height) state
    | .error (.error _) => .ok state
    | .error (.panic reason) => .crash reason
  else
    .ok state

end Votes

section Deposits
variable (position : Nat) (amount : Fixed64)

def setDeposit : Change StateKeyFrame where
  execute frame := frame.updateProducer position fun producer =>
    { producer with depositAmount := amount }
  rollback frame := frame.updateProducer position fun producer =>
    { producer with depositAmount := 0 }

variable (runtime : Runtime) (frame : StateKeyFrame)

def getAllProducers : List Nat :=
  [frame.pendingProducers, frame.activityProducers, frame.inactiveProducers,
    frame.canceledProducers, frame.illegalProducers].flatMap fun map =>
      runtime.iterate (GoMap.values map)

variable (funcs : StateFuncs)

/-- An error of the lookup only skips the producer. -/
def initAssetAmount (height : UInt32) (state : State) (position : Nat) : Outcome String State :=
  match state.frame.producer? position with
  | none => Cr.nilDereference
  | some producer =>
    let amount := do
      let programHash ←
        publicKeyToDepositProgramHash funcs.prim producer.info.ownerPublicKey
      funcs.getProducerDepositAmount programHash
    match amount with
    | .ok amount => state.append height (setDeposit position amount)
    | .error (.error _) => .ok state
    | .error (.panic reason) => .crash reason

def tryInitProducerAssetAmounts (state : State) (blockHeight : UInt32) : Outcome String State :=
  if blockHeight = state.params.crVotingStartHeight then
    (getAllProducers funcs.runtime state.frame).foldlM
      (initAssetAmount funcs blockHeight) state
  else
    .ok state

def getProducerByDepositHash (programHash : Uint168) : Option Nat :=
  (getAllProducers runtime frame).find? fun position =>
    (frame.producer? position).any fun producer => producer.depositHash = programHash

def addDeposit : Change StateKeyFrame where
  execute frame := frame.updateProducer position fun producer =>
    { producer with depositAmount := producer.depositAmount + amount }
  rollback frame := frame.updateProducer position fun producer =>
    { producer with depositAmount := producer.depositAmount - amount }

/-- The amount is added on commit, but the output is entered at once. -/
def addDepositOutput (height : UInt32) (state : State)
    (entry : OutPoint × Output) : Outcome String State :=
  if entry.2.programHash.prefixByte = prefixDeposit then
    match getProducerByDepositHash funcs.runtime state.frame entry.2.programHash with
    | some position => do
      let added ← state.append height (addDeposit position entry.2.value)
      .ok (added.writeFrame fun frame =>
        { frame with depositOutputs := frame.depositOutputs.insert entry.1 entry.2.value })
    | none => .ok state
  else
    .ok state

def processDeposit (state : State) (tx : Transaction) (height : UInt32) : Outcome String State :=
  (Cr.outputPoints funcs.prim tx).foldlM (addDepositOutput funcs height) state

end Deposits

section Inactivity

def penalized (frame : StateKeyFrame) (height : UInt32) : Prop :=
  height < frame.versionStartHeight ∨ frame.versionEndHeight ≤ height

instance (frame : StateKeyFrame) (height : UInt32) : Decidable (penalized frame height) :=
  inferInstanceAs (Decidable (_ ∨ _))

def inactivityPenalty (params : Params) (emergency : Bool) : Fixed64 :=
  if emergency then params.emergencyInactivePenalty else params.inactivePenalty

variable (params : Params) (key : Bytes) (position : Nat)
variable (height : UInt32)
variable (emergency : Bool) (frame : StateKeyFrame)

def setInactiveProducer : StateKeyFrame :=
  let updated := frame.updateProducer position fun producer =>
    { producer with
      inactiveSince := height
      activateRequestHeight := 0xffffffff
      state := .inactive
      penalty :=
        if penalized frame height then
          producer.penalty + inactivityPenalty params emergency
        else producer.penalty }
  { updated with
    inactiveProducers := frame.inactiveProducers.insert key position
    activityProducers := frame.activityProducers.erase key }

def revertSettingInactiveProducer : StateKeyFrame :=
  let penalty := inactivityPenalty params emergency
  let updated := frame.updateProducer position fun producer =>
    { producer with
      inactiveSince := 0
      activateRequestHeight := 0xffffffff
      state := .active
      penalty :=
        if penalized frame height then
          if producer.penalty < penalty then 0 else producer.penalty - penalty
        else producer.penalty }
  { updated with
    activityProducers := frame.activityProducers.insert key position
    inactiveProducers := frame.inactiveProducers.erase key }

def emergencyInactive : Change StateKeyFrame where
  execute frame :=
    let updated := setInactiveProducer params key position height true frame
    { updated with
      emergencyInactiveArbiters := frame.emergencyInactiveArbiters.insert key () }
  rollback frame :=
    let updated := revertSettingInactiveProducer params key position height true frame
    { updated with
      emergencyInactiveArbiters := frame.emergencyInactiveArbiters.erase key }

/-- One arbiter of the payload. A producer that is in both maps is set inactive twice. -/
def setEmergencyInactive (state : State) (nodeKey : Bytes) : Outcome String State :=
  match state.frame.nodeOwnerKeys.lookup nodeKey with
  | none => .ok state
  | some key =>
    let positions := (state.frame.activityProducers.lookup key).toList ++
      (state.frame.inactiveProducers.lookup key).toList
    positions.foldlM (fun current position =>
      current.append height (emergencyInactive state.params key position height)) state

def processEmergencyInactiveArbitrators (state : State) (payload : InactiveArbitrators)
    (height : UInt32) : Outcome String State :=
  payload.arbitrators.foldlM (setEmergencyInactive height) state

def recordSpecialHash (hash : Uint256) : Change StateKeyFrame where
  execute frame := { frame with specialTxHashes := frame.specialTxHashes.insert hash () }
  rollback frame := { frame with specialTxHashes := frame.specialTxHashes.erase hash }

variable (funcs : StateFuncs) (state : State)

def recordSpecialTx (tx : Transaction) (height : UInt32) : Outcome String State :=
  match StateKeyFrame.illegalDataHash funcs.prim tx.payload with
  | none => .ok state
  | some hash => state.append height (recordSpecialHash hash)

def setVersion (startHeight endHeight : UInt32) (frame : StateKeyFrame) : StateKeyFrame :=
  { frame with versionStartHeight := startHeight, versionEndHeight := endHeight }

def updateVersion (state : State) (tx : Transaction) (height : UInt32) : Outcome String State :=
  match tx.payload with
  | .updateVersion payload => state.append height {
      execute := setVersion payload.startHeight payload.endHeight
      rollback :=
        setVersion state.frame.versionStartHeight state.frame.versionEndHeight }
  | _ => .ok state

def tryUpdateInactivity (needReset : Bool) (height : UInt32) (frame : StateKeyFrame) : StateKeyFrame :=
  if needReset then
    frame.updateProducer position fun producer =>
      { producer with inactiveCountingHeight := 0 }
  else
    let counting := frame.updateProducer position fun producer =>
      { producer with
        inactiveCountingHeight :=
          if producer.inactiveCountingHeight = 0 then height
          else producer.inactiveCountingHeight }
    match counting.producer? position with
    | some producer =>
      if params.maxInactiveRounds ≤ height - producer.inactiveCountingHeight then
        (setInactiveProducer params key position height false counting).updateProducer
          position fun producer => { producer with inactiveCountingHeight := 0 }
      else counting
    | none => counting

variable (needReset : Bool) (height startHeight : UInt32)

def tryRevertInactivity (frame : StateKeyFrame) : StateKeyFrame :=
  if needReset then
    frame.updateProducer position fun producer =>
      { producer with inactiveCountingHeight := startHeight }
  else
    let counting := frame.updateProducer position fun producer =>
      { producer with
        inactiveCountingHeight :=
          if producer.inactiveCountingHeight = height then 0
          else producer.inactiveCountingHeight }
    match counting.producer? position with
    | some producer =>
      if producer.state = .inactive then
        (revertSettingInactiveProducer params key position height false counting).updateProducer
            position fun producer => { producer with inactiveCountingHeight := startHeight }
      else counting
    | none => counting

def countInactivity : Change StateKeyFrame where
  execute := tryUpdateInactivity params key position needReset height
  rollback := tryRevertInactivity params key position needReset height startHeight

/-- The arbiters of the previous block and the sponsor. True means that the count of a
producer starts anew: it was on duty, or is not an arbiter any more. -/
def changingArbiters (frame : StateKeyFrame) (arbiters : List Bytes) (sponsor : Bytes) : GoMap Bytes Bool :=
  let previous : GoMap Bytes Bool :=
    GoMap.ofPairs (frame.preBlockArbiters.keys.map fun key => (key, true))
  let kept := (arbiters.map frame.getProducerKey).foldl (fun map key =>
    if (map.lookup key).isSome then map.insert key false else map) previous
  kept.insert (frame.getProducerKey sponsor) true

def countArbiter (state : State) (entry : Bytes × Bool) : Outcome String State :=
  match state.frame.activityProducers.lookup entry.1 with
  | none => .ok state
  | some position =>
    match state.frame.producer? position with
    | none => Cr.nilDereference
    | some producer => state.append height
        (countInactivity state.params entry.1 position entry.2 height producer.inactiveCountingHeight)

/-- The arbiters of the block replace those of the previous one at once. -/
def countArbitratorsInactivity (height : UInt32)
    (confirm : Confirm) : Outcome String State :=
  if height < state.params.publicDPOSHeight then
    .ok state
  else
    let changing := changingArbiters state.frame funcs.getArbiters confirm.proposal.sponsor
    let written := state.writeFrame fun frame =>
      { frame with
        preBlockArbiters := GoMap.ofPairs
          (funcs.getArbiters.map fun arbiter => (frame.getProducerKey arbiter, ())) }
    (funcs.runtime.iterate (GoMap.pairs changing)).foldlM (countArbiter height) written

end Inactivity

section Blocks

def activateFrom (source : ProducerList) (previous : ProducerState) (key : Bytes)
    (position : Nat) : Change StateKeyFrame where
  execute frame :=
    let updated := frame.updateProducer position fun producer =>
      { producer with state := .active }
    (updated.setList .activity (frame.activityProducers.insert key position)).setList source
      ((frame.list source).erase key)
  rollback frame :=
    let updated := frame.updateProducer position fun producer =>
      { producer with state := previous }
    (updated.setList source ((frame.list source).insert key position)).setList .activity
      (frame.activityProducers.erase key)

def activateProducerFromPending : Bytes → Nat → Change StateKeyFrame :=
  activateFrom .pending .pending

def activateProducerFromInactive : Bytes → Nat → Change StateKeyFrame :=
  activateFrom .inactive .inactive

def activateProducerFromIllegal : Bytes → Nat → Change StateKeyFrame :=
  activateFrom .illegal .illegal

variable (height : UInt32) (producer : Producer)

def confirmed : Prop :=
  activateDuration ≤ height - producer.registerHeight + 1

/-- The request of a producer to be activated has its confirmations. -/
def requestConfirmed : Prop :=
  producer.activateRequestHeight < height ∧ activateDuration ≤ height - producer.activateRequestHeight + 1

instance (height : UInt32) : DecidablePred (confirmed height) :=
  fun _ => inferInstanceAs (Decidable (_ ≤ _))

instance (height : UInt32) : DecidablePred (requestConfirmed height) :=
  fun _ => inferInstanceAs (Decidable (_ ∧ _))

def activateDue (due : Producer → Bool) (activate : Bytes → Nat → Change StateKeyFrame)
    (height : UInt32) (state : State) (entry : Bytes × Nat) : Outcome String State :=
  match state.frame.producer? entry.2 with
  | none => Cr.nilDereference
  | some producer =>
    if due producer then state.append height (activate entry.1 entry.2) else .ok state

variable (funcs : StateFuncs) (state : State)

def activateProducers (height : UInt32) : Outcome String State := do
  let state ← (funcs.runtime.iterate (GoMap.pairs state.frame.pendingProducers)).foldlM
    (activateDue (fun producer => confirmed height producer) activateProducerFromPending height) state
  let state ← (funcs.runtime.iterate (GoMap.pairs state.frame.inactiveProducers)).foldlM
    (activateDue (fun producer => requestConfirmed height producer) activateProducerFromInactive height) state
  if state.params.enableActivateIllegalHeight ≤ height then
    (funcs.runtime.iterate (GoMap.pairs state.frame.illegalProducers)).foldlM
      (activateDue (fun producer => requestConfirmed height producer) activateProducerFromIllegal height) state
  else
    .ok state

/-- The handlers of the types that change the state. A payload of another type panics. -/
def processType (tx : Transaction) (height : UInt32) : Outcome String State :=
  match tx.txType with
  | .registerProducer => state.registerProducer funcs tx height
  | .updateProducer =>
    match tx.payload with
    | .producerInfo info => state.updateProducer info height
    | _ => .crash "interface conversion"
  | .cancelProducer =>
    match tx.payload with
    | .processProducer payload => state.cancelProducer payload height
    | _ => .crash "interface conversion"
  | .activateProducer =>
    match tx.payload with
    | .activateProducer payload => state.activateProducer payload height
    | _ => .crash "interface conversion"
  | .transferAsset => do
    let voted ← state.processVotes funcs tx height
    voted.processDeposit funcs tx height
  | .illegalProposalEvidence | .illegalVoteEvidence | .illegalBlockEvidence
  | .illegalSidechainEvidence => do
    let punished ← state.processIllegalEvidence tx.payload height
    punished.recordSpecialTx funcs tx height
  | .inactiveArbitrators =>
    match tx.payload with
    | .inactiveArbitrators payload => do
      let set ← state.processEmergencyInactiveArbitrators payload height
      set.recordSpecialTx funcs tx height
    | _ => .crash "interface conversion"
  | .returnDepositCoin => do
    let returned ← state.returnDeposit tx height
    returned.processDeposit funcs tx height
  | .updateVersion => state.updateVersion tx height
  | _ => .ok state

def processTransaction (funcs : StateFuncs) (height : UInt32) (state : State)
    (tx : Transaction) : Outcome String State := do
  let processed ← state.processType funcs tx height
  processed.processCancelVotes funcs tx height

def processTransactions (txs : List Transaction)
    (height : UInt32) : Outcome String State := do
  let processed ← txs.foldlM (processTransaction funcs height) state
  processed.activateProducers funcs height

/-- The transactions of one block are processed a second time. -/
def processVoteStatisticsBlock (block : Block) : Outcome String State :=
  if block.height = state.params.voteStatisticsHeight then
    state.processTransactions funcs block.transactions block.height
  else
    .ok state

def processConfirm (height : UInt32) : Option Confirm → Outcome String State
  | some confirm => state.countArbitratorsInactivity funcs height confirm
  | none => .ok state

def processBlock (block : Block)
    (confirm : Option Confirm) : Outcome String State := do
  let initialized ← state.tryInitProducerAssetAmounts funcs block.height
  let processed ← initialized.processTransactions funcs block.transactions block.height
  let repeated ← processed.processVoteStatisticsBlock funcs block
  let counted ← repeated.processConfirm funcs block.height confirm
  counted.commit block.height

/-- Evidence may be processed before it is packed into a block. Its changes are
temporary. -/
def processSpecialTxPayload (state : State) (payload : Payload) (height : UInt32) : Outcome String State := do
  let processed ← match payload with
    | .inactiveArbitrators payload => state.processEmergencyInactiveArbitrators payload 0
    | _ => state.processIllegalEvidence payload 0
  processed.commit height

def initial (params : Params) : State where
  params := params
  frame := .empty
  history := {
    capacity := maxHistoryCapacity
    height := 0
    changes := []
    cachedChanges := none
    tempChanges := []
    seekHeight := 0 }

end Blocks
end State
end Elastos.Dpos
