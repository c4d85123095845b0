import Elastos.Blockchain.SmallChain
import Elastos.Manager.Dispatcher

/-! What the manager of an arbiter does with the messages that it gets, and the runs of
an arbiter. -/
set_option autoImplicit false
namespace Elastos.Manager
open Go Common Crypto Elastos.Types Dpos Blockchain Method

/-- What a manager is told. `valid` is the answer of the monitor to `IsBlockValid`, and
`elsewhere` stands for what the rest of the node does to the chain and its arbitrators. -/
inductive Message where
  | proposal (id : Bytes) (proposal : DPOSProposal)
  | acceptVote (vote : DPOSProposalVote)
  | rejectVote (vote : DPOSProposalVote)
  | changeView
  | block (block : Block) (valid : Bool)
  | confirmedBlock (block : Block)
  | confirm (confirm : Confirm) (height : UInt32)
  | inactiveArbitratorsAccepted (payload : InactiveArbitrators)
  | responseConsensus (id : Bytes) (status : ConsensusStatus)
  | recover
  | recoverTimeout
  | elsewhere (surroundings : Surroundings)

namespace Node
variable (prim : Primitives)

/-- `Reset` of the block cache. The list keeps its old entries and repeats the hash of the
block that the iteration met last. -/
def resetBlocks (runtime : Runtime) (block : Block) (node : Node) : Node :=
  let kept := (runtime.iterate (GoMap.values node.consensusBlocks)).filter
    fun cached => ¬ cached.height < block.height
  { node with
    consensusBlocks := GoMap.ofPairs (kept.map fun cached => (cached.hash prim, cached))
    consensusBlockList :=
      match kept.getLast? with
      | none => []
      | some last => node.consensusBlockList ++ [last.hash prim] }

/-- `CleanByBlock`, without the evidence. -/
def cleanByBlock (block : Block) (node : Node) : Node :=
  { node with
    cachedProposals := block.transactions.foldl
      (fun proposals tx =>
        match tx.txType, StateKeyFrame.illegalDataHash prim tx.payload with
        | .illegalProposalEvidence, some hash => proposals.erase hash
        | _, _ => proposals)
      node.cachedProposals }

/-- `RecoverFromConsensusStatus` of the dispatcher and of the consensus. -/
def recoverFromConsensusStatus (status : ConsensusStatus) (node : Node) : Node :=
  let votes (list : List DPOSProposalVote) : GoMap Uint256 DPOSProposalVote :=
    GoMap.ofPairs (list.map fun vote => (vote.hash prim, vote))
  { node with
    acceptVotes := votes status.acceptVotes
    rejectedVotes := votes status.rejectedVotes
    pendingProposals := GoMap.ofPairs
      (status.pendingProposals.map fun proposal => (proposal.hash prim, proposal))
    pendingVotes := votes status.pendingVotes
    processingBlock :=
      if status.consensusStatus = consensusReady then none else node.processingBlock
    consensusStatus := status.consensusStatus
    viewOffset := status.viewOffset
    viewStartTime := status.viewStartTime }

end Node

/-- The view offset that most statuses are for, the largest one if there are several. -/
def maxCountMaxViewOffset (statuses : List (UInt32 × GoMap Bytes ConsensusStatus)) : UInt32 :=
  (statuses.foldl (fun (best : Nat × UInt32) entry =>
      if best.1 < entry.2.entries.length then (entry.2.entries.length, entry.1)
      else if best.1 = entry.2.entries.length ∧ best.2 < entry.1 then (best.1, entry.1)
      else best) (0, 0)).2

/-- The sum of two times is a 64-bit number. -/
def medianOf (nums : List Int) : Int :=
  let length := nums.length
  if length % 2 = 0 then
    match nums[length / 2]?, nums[length / 2 - 1]? with
    | some upper, some lower => (Int.bmod (upper + lower) (2 ^ 64)).tdiv 2
    | _, _ => 0
  else nums[length / 2]?.getD 0

def inactivePayload? (tx : Transaction) : Option InactiveArbitrators :=
  match tx.txType, tx.payload with
  | .inactiveArbitrators, .inactiveArbitrators payload => some payload
  | _, _ => none

namespace Setup
variable (setup : Setup) (depth : Nat)

def tryChangeView : Act Unit := do
  let node ← Method.this
  when node.isRunning do
    let now ← setup.adjustedTime
    when (node.viewStartTime + setup.signTolerance < now)
      (setup.changeViewAt (setup.changeView depth) now)

variable (id : Bytes)

/-- The handler of an arbiter on duty does not look at proposals. -/
def processProposalByHandler (proposal : DPOSProposal) : Act Bool := do
  let node ← Method.this
  if node.onDuty then pure false
  else do
    setup.tryChangeView depth
    let result ← setup.processProposal (setup.changeView depth) id proposal false
    when (result.1 = true) <| update fun node => { node with
      cachedProposals := node.cachedProposals.insert (proposal.hash setup.prim) proposal }
    pure result.2

def recoverAbnormalState : Act Unit :=
  update fun node =>
    if node.recoverStarted = false ∧ node.surroundings.arbitrators.getArbitrators ≠ [] ∧
        node.surroundings.hasActivePeers then
      { node with recoverStarted := true, isAbnormal := true }
    else node

def addNotHandledProposal : Act Unit := do
  update fun node => { node with
    notHandledProposal := node.notHandledProposal.insert id () }
  let node ← Method.this
  when (node.surroundings.arbitrators.hasArbitersMinorityCount
    node.notHandledProposal.entries.length) recoverAbnormalState

def onProposalReceived (proposal : DPOSProposal) : Act Unit := do
  let node ← Method.this
  when (setup.isCurrentArbiter node) do
    let handled ← setup.processProposalByHandler depth id proposal
    when (handled = false) (addNotHandledProposal id)

variable (vote : DPOSProposalVote)

/-- A vote that comes before its proposal waits, unless the arbiter is on duty. -/
def processVoteByHandler (accept : Bool) : Act (Bool × Bool) := do
  let node ← Method.this
  if node.isRunning then
    match node.processingProposal with
    | none => do
      when (node.onDuty = false) <| update fun node => { node with
        pendingVotes := node.pendingVotes.insert (vote.hash setup.prim) vote }
      pure (false, false)
    | some current =>
      if current.hash setup.prim = vote.proposalHash then
        setup.processVote (setup.changeView depth) vote accept
      else pure (false, false)
  else pure (false, false)

def onVoteAccepted : Act Unit := do
  let node ← Method.this
  when (setup.isCurrentArbiter node) do
    let result ← setup.processVoteByHandler depth vote true
    when (result.2 = true) setup.changeOnDuty

def onVoteRejected : Act Unit := do
  let node ← Method.this
  when (setup.isCurrentArbiter node) do
    let _ ← setup.processVoteByHandler depth vote false
    pure ()

variable (block : Block)

/-- The start of the view is set after the pending proposals have been processed. -/
def startConsensus : Act Unit := do
  let now ← setup.adjustedTime
  update fun node =>
    { node.resetBlocks setup.prim setup.runtime block with
      consensusStatus := consensusRunning
      viewOffset := 0 }
  setup.addBlock (setup.changeView depth) block
  update fun node => { node with viewStartTime := now }

/-- A block starts a new round if the consensus is ready. -/
def tryStartNewConsensus : Act Unit := do
  let node ← Method.this
  if (node.consensusBlocks.lookup (block.hash setup.prim)).isSome then pure ()
  else if node.isReady then do
    setup.startConsensus depth block
    when (node.onDuty = true) (setup.startProposal (setup.changeView depth) block)
    update fun node => { node with notHandledProposal := ∅ }
  else setup.addBlock (setup.changeView depth) block

/-- The blocks that lack the evidence of the payload leave the cache, and the round starts
again in an emergency. -/
def clearInactiveData : Act Unit := do
  let node ← Method.this
  let blocks := (setup.runtime.iterate (GoMap.values node.consensusBlocks)).filter
    node.surroundings.isBlockValid
  update fun node => { node with consensusBlocks := ∅, consensusBlockList := [] }
  blocks.forM (setup.addBlock (setup.changeView depth))
  let node ← Method.this
  when (node.surroundings.isEmergency = true) (update Node.resetByCurrentView)

def applySpecialTxPayload (payload : InactiveArbitrators) : Act Bool := do
  let node ← Method.this
  let (accepted, surroundings) := setup.processSpecialTxPayload payload node.surroundings
  update fun node => { node with surroundings }
  pure accepted

/-- The payloads that a block brings. Stop at the first one that is not accepted. -/
def processInactiveTransactions : List Transaction → Act Bool
  | [] => pure true
  | tx :: rest =>
    match inactivePayload? tx with
    | none => processInactiveTransactions rest
    | some payload => do
      let accepted ← setup.applySpecialTxPayload payload
      if accepted then do
        setup.clearInactiveData depth
        processInactiveTransactions rest
      else pure false

def onBlockReceived (valid : Bool) : Act Unit := do
  let node ← Method.this
  when (setup.isCurrentArbiter node) do
    let accepted ← setup.processInactiveTransactions depth block.transactions
    let node ← Method.this
    when (accepted = true ∧ node.surroundings.arbitrators.bestHeight < block.height ∧
        node.finishedHeight < block.height ∧ valid = true)
      (setup.tryStartNewConsensus depth block)

def confirmBlock (height : UInt32) (blockHash : Uint256) : Act Unit := do
  setup.finishConsensus height blockHash
  update fun node => { node with notHandledProposal := ∅ }

def onConfirmedBlockReceived : Act Unit := do
  setup.confirmBlock block.height (block.hash setup.prim)
  setup.changeOnDuty
  update (Node.cleanByBlock setup.prim block)

def onConfirmReceived (confirm : Confirm) (height : UInt32) : Act Unit := do
  let node ← Method.this
  when (setup.isCurrentArbiter node) do
    setup.confirmBlock height confirm.proposal.blockHash
    setup.changeOnDuty

def onInactiveArbitratorsAccepted (payload : InactiveArbitrators) : Act Unit := do
  let node ← Method.this
  when (setup.isCurrentArbiter node) do
    let _ ← setup.applySpecialTxPayload payload
    setup.clearInactiveData depth

def onResponseConsensus (status : ConsensusStatus) : Act Unit := do
  let node ← Method.this
  when (setup.isCurrentArbiter node ∧ node.isAbnormal = true ∧ node.recoverStarted = true) <|
    update fun node => { node with
      statusMap := node.statusMap.insert status.viewOffset
        (((node.statusMap.lookup status.viewOffset).getD ∅).insert id status) }

def onRecover : Act Unit := do
  let node ← Method.this
  when (setup.isCurrentArbiter node) do
    setup.changeOnDuty
    recoverAbnormalState

/-- Take over the status that a peer has sent, moved to the present time by the median of
the times that all of them have sent. -/
def recoverAbnormal (status : ConsensusStatus) (startTimes : List Int) : Act Unit := do
  let medianTime := medianOf (setup.runtime.sort (fun first second => first < second) startTimes)
  let now ← setup.adjustedTime
  let (offset, offsetTime) := setup.calculateOffsetTime medianTime now
  let later ← setup.adjustedTime
  let node ← Method.this
  when (node.isAbnormal = true) <| update fun node =>
    { node.recoverFromConsensusStatus setup.prim { status with
        viewOffset := status.viewOffset + offset
        viewStartTime := later - offsetTime } with
      isAbnormal := false }

/-- A consensus that is ready is not taken over. -/
def doRecover : Act Unit := do
  let node ← Method.this
  let viewOffset := maxCountMaxViewOffset
    (setup.runtime.iterate (GoMap.pairs node.statusMap))
  let statuses := setup.runtime.iterate
    (GoMap.values ((node.statusMap.lookup viewOffset).getD ∅))
  match statuses with
  | [] => crash "nil pointer dereference"
  | status :: _ => do
    when (status.consensusStatus ≠ consensusReady)
      (setup.recoverAbnormal status (statuses.map (·.viewStartTime)))
    update fun node => { node with notHandledProposal := ∅ }

def onRecoverTimeout : Act Unit := do
  let node ← Method.this
  when (node.recoverStarted = true) do
    when (node.statusMap.entries.length ≠ 0) setup.doRecover
    update fun node => { node with recoverStarted := false, statusMap := ∅ }

def handle : Message → Act Unit
  | .proposal id proposal => setup.onProposalReceived depth id proposal
  | .acceptVote vote => setup.onVoteAccepted depth vote
  | .rejectVote vote => setup.onVoteRejected depth vote
  | .changeView => setup.tryChangeView depth
  | .block block valid => setup.onBlockReceived depth block valid
  | .confirmedBlock block => setup.onConfirmedBlockReceived block
  | .confirm confirm height => setup.onConfirmReceived confirm height
  | .inactiveArbitratorsAccepted payload => setup.onInactiveArbitratorsAccepted depth payload
  | .responseConsensus id status => setup.onResponseConsensus id status
  | .recover => setup.onRecover
  | .recoverTimeout => setup.onRecoverTimeout
  | .elsewhere surroundings => update fun node => { node with surroundings }

/-- A manager after its initialization. The view starts at the zero time, in nanoseconds
since 1970. -/
def startUp (surroundings : Surroundings) : Outcome String Node := do
  let currentArbiter ← surroundings.arbitrators.getNextOnDutyArbitrator setup.prim 0
  .ok {
    surroundings
    readings := 0
    consensusStatus := consensusReady
    viewOffset := 0
    viewStartTime := -62135596800 * 10 ^ 9
    onDuty := currentArbiter = setup.account.publicKey
    consensusBlocks := ∅
    consensusBlockList := []
    finishedHeight := 0
    finishedBlockHash := default
    processingBlock := none
    processingProposal := none
    acceptVotes := ∅
    rejectedVotes := ∅
    pendingProposals := ∅
    precociousProposals := ∅
    pendingVotes := ∅
    proposalProcessFinished := false
    cachedProposals := ∅
    isAbnormal := false
    recoverStarted := false
    notHandledProposal := ∅
    statusMap := ∅
    broadcasts := []
    handovers := [] }

end Setup

/-- The states that a manager reaches by messages that meet a condition. -/
inductive Run (setup : Setup) (condition : Message → Node → Prop) : Node → Prop where
  | start {surroundings : Surroundings} {node : Node}
      (started : setup.startUp surroundings = .ok node) : Run setup condition node
  | step {message : Message} {node after : Node} (depth : Nat) (before : Run setup condition node)
      (met : condition message node)
      (handled : setup.handle depth message node = (.ok (), after)) : Run setup condition after

variable {condition : Message → Node → Prop} {node : Node} {messages : List Message}

theorem Run.weaken {setup : Setup} {weaker : Message → Node → Prop}
    (weaken : ∀ message node, condition message node → weaker message node)
    (run : Run setup condition node) : Run setup weaker node := by
  induction run with
  | start started => exact .start started
  | step depth _ met handled ih => exact .step depth ih (weaken _ _ met) handled

/-- Messages handled one after the other, when each of them meets the condition and none
makes the program panic. -/
def play (setup : Setup) (condition : Message → Node → Prop)
    [∀ message node, Decidable (condition message node)] (depth : Nat) : List Message → Node → Option Node
  | [], node => some node
  | message :: rest, node =>
    if condition message node then
      match setup.handle depth message node with
      | (.ok (), after) => play setup condition depth rest after
      | (.error _, _) => none
    else none

def playFrom (setup : Setup) (condition : Message → Node → Prop)
    [∀ message node, Decidable (condition message node)] (depth : Nat)
    (surroundings : Surroundings) (messages : List Message) : Option Node :=
  match setup.startUp surroundings with
  | .ok node => play setup condition depth messages node
  | .error _ => none

theorem play_run {setup : Setup} [∀ message node, Decidable (condition message node)] {depth : Nat}
    {after : Node} (before : Run setup condition node)
    (played : play setup condition depth messages node = some after) : Run setup condition after := by
  induction messages generalizing node with
  | nil =>
    cases played
    exact before
  | cons message rest ih =>
    unfold play at played
    split at played
    case isTrue met =>
      split at played
      case h_1 next handled => exact ih (.step depth before met handled) played
      case h_2 => cases played
    case isFalse => cases played

theorem playFrom_run {setup : Setup} [∀ message node, Decidable (condition message node)]
    {depth : Nat} {surroundings : Surroundings}
    (played : playFrom setup condition depth surroundings messages = some node) : Run setup condition node := by
  unfold playFrom at played
  split at played
  case h_1 started => exact play_run (.start started) played
  case h_2 => cases played

end Elastos.Manager

namespace Elastos.Manager.SmallNode
open Go Crypto Elastos.Types Blockchain Stand

def surroundings (arbiters : List UInt8) (dutyIndex : Nat) : Surroundings where
  arbitrators := { SmallChain.arbitrators with
    currentArbitrators := arbiters.map key
    dutyIndex := dutyIndex }
  blockExists _ := false
  isBlockValid _ := true
  isEmergency := false
  hasActivePeers := true

def account : Account primitives where
  publicKey := key 1
  sign _ := sign (key 1)
  verifies := by
    refine ⟨⟨fromBigEndian (key 1), 0⟩, by decide +kernel, fun _ => ?_⟩
    rw [Primitives.verifySignature]
    rfl

def setup (clock : Nat → Int) : Setup where
  prim := primitives
  runtime := Runtime.insertion
  account := account
  signTolerance := 5000000000
  tolerance_pos := by decide
  clock := clock
  processSpecialTxPayload _ surroundings := (true, surroundings)

def block (height nonce : UInt32) : Block where
  toHeader := SmallChain.header height nonce default
  transactions := []

def proposalBy (sponsor : UInt8) (block : Block) (viewOffset : UInt32) : DPOSProposal where
  sponsor := key sponsor
  blockHash := block.hash primitives
  viewOffset := viewOffset
  sign := sign (key sponsor)

def voteBy (signer : UInt8) (proposal : DPOSProposal) (accept : Bool) : DPOSProposalVote where
  proposalHash := proposal.hash primitives
  signer := key signer
  accept := accept
  sign := sign (key signer)

end Elastos.Manager.SmallNode
