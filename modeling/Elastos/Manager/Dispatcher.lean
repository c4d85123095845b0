import Elastos.Blockchain.Validation

/-! The consensus of one arbiter: its view, its cache of blocks and the dispatcher of
proposals and votes. -/
set_option autoImplicit false
namespace Elastos.Dpos.Arbitrators
open Go Common Crypto

def getNextOnDutyArbitrator (prim : Primitives) (arbitrators : Arbitrators) (offset : UInt32) : Outcome String Bytes :=
  let height := arbitrators.bestHeight + 1
  if arbitrators.params.crcOnlyDPOSHeight ≤ height then
    entryModulo (arbitrators.dutyIndex + offset.toNat) arbitrators.currentArbitrators
  else
    entryModulo (height - 1 + offset).toNat (getNormalArbitratorsDescV0 prim arbitrators)

variable (arbitrators : Arbitrators) (num : Nat)

def hasArbitersMajorityCount : Prop :=
  arbitrators.getArbitersMajorityCount < num

instance (arbitrators : Arbitrators) (num : Nat) : Decidable (arbitrators.hasArbitersMajorityCount num) :=
  inferInstanceAs (Decidable (_ < _))

def hasArbitersMinorityCount : Prop :=
  (arbitrators.currentArbitrators.length : Int) - arbitrators.getArbitersMajorityCount ≤ num

instance (arbitrators : Arbitrators) (num : Nat) : Decidable (arbitrators.hasArbitersMinorityCount num) :=
  inferInstanceAs (Decidable (_ ≤ _))

end Elastos.Dpos.Arbitrators

namespace Elastos.Manager
open Go Common Crypto Elastos.Types Dpos Blockchain Method

/-- The account of an arbiter, whose signatures verify under its key. -/
structure Account (prim : Primitives) where
  publicKey : Bytes
  sign : Bytes → Bytes
  verifies : ∃ point, prim.decodePoint publicKey = .ok point ∧
    ∀ data, prim.verifySignature point data (sign data) = .ok ()

/-- What a node reads outside of its consensus: the arbitrators, the blocks of the chain,
the evidence it knows of, and its peers. -/
structure Surroundings where
  arbitrators : Arbitrators
  blockExists : Uint256 → Bool
  /-- Whether a block contains the evidence that the node expects in it. -/
  isBlockValid : Block → Bool
  /-- `IsInactiveMode() || IsUnderstaffedMode()`. -/
  isEmergency : Bool
  hasActivePeers : Bool

structure Setup where
  prim : Primitives
  runtime : Runtime
  account : Account prim
  signTolerance : Int
  tolerance_pos : 0 < signTolerance
  /-- What the source of time answers, one reading after the other. -/
  clock : Nat → Int
  /-- Whether the arbitrators accept a payload, and the surroundings once its evidence has
  been recorded. -/
  processSpecialTxPayload : InactiveArbitrators → Surroundings → Bool × Surroundings

def consensusReady : UInt32 := 0
def consensusRunning : UInt32 := 1

/-- The state of the consensus that an arbiter sends to another one. -/
structure ConsensusStatus where
  consensusStatus : UInt32
  viewOffset : UInt32
  viewStartTime : Int
  acceptVotes : List DPOSProposalVote
  rejectedVotes : List DPOSProposalVote
  pendingProposals : List DPOSProposal
  pendingVotes : List DPOSProposalVote

/-- A message to all arbiters, with what it is about: the block of a proposal, and the
proposal and the block of a vote. -/
inductive Broadcast where
  | proposal (proposal : DPOSProposal) (block : Block)
  | vote (vote : DPOSProposalVote) (proposal : DPOSProposal) (block : Option Block)

/-- A confirm handed over by `AppendConfirm`, and the block that was processed then. -/
structure Handover where
  confirm : Confirm
  processingBlock : Block

/-- `onDuty` tells which of the two handlers is the current one, and `readings` how often
the clock has been read. -/
structure Node where
  surroundings : Surroundings
  readings : Nat
  consensusStatus : UInt32
  viewOffset : UInt32
  viewStartTime : Int
  onDuty : Bool
  consensusBlocks : GoMap Uint256 Block
  consensusBlockList : List Uint256
  finishedHeight : UInt32
  finishedBlockHash : Uint256
  processingBlock : Option Block
  processingProposal : Option DPOSProposal
  acceptVotes : GoMap Uint256 DPOSProposalVote
  rejectedVotes : GoMap Uint256 DPOSProposalVote
  pendingProposals : GoMap Uint256 DPOSProposal
  precociousProposals : GoMap Uint256 DPOSProposal
  pendingVotes : GoMap Uint256 DPOSProposalVote
  proposalProcessFinished : Bool
  cachedProposals : GoMap Uint256 DPOSProposal
  isAbnormal : Bool
  recoverStarted : Bool
  notHandledProposal : GoMap Bytes Unit
  statusMap : GoMap UInt32 (GoMap Bytes ConsensusStatus)
  broadcasts : List Broadcast
  handovers : List Handover

/-- A call on a node. -/
abbrev Act := Method Node String

namespace Node
variable (node : Node)

def isRunning : Prop := node.consensusStatus = consensusRunning
def isReady : Prop := node.consensusStatus = consensusReady

instance (node : Node) : Decidable node.isRunning := inferInstanceAs (Decidable (_ = _))
instance (node : Node) : Decidable node.isReady := inferInstanceAs (Decidable (_ = _))

/-- Two proposals of one sponsor for different blocks of one height and view. -/
def isProposalsIllegal (first second : DPOSProposal) : Prop :=
  first.blockHash ≠ second.blockHash ∧ first.sponsor = second.sponsor ∧ first.viewOffset = second.viewOffset ∧
    ∃ firstBlock ∈ node.consensusBlocks.lookup first.blockHash,
      ∃ secondBlock ∈ node.consensusBlocks.lookup second.blockHash, firstBlock.height = secondBlock.height

instance (node : Node) (first second : DPOSProposal) : Decidable (node.isProposalsIllegal first second) := by
  unfold isProposalsIllegal
  infer_instance

def knownProposals : List DPOSProposal :=
  node.processingProposal.toList ++ GoMap.values node.pendingProposals ++ GoMap.values node.precociousProposals

def isLegalProposal (proposal : DPOSProposal) : Prop :=
  ∀ other ∈ node.knownProposals, ¬ node.isProposalsIllegal proposal other

instance (node : Node) (proposal : DPOSProposal) : Decidable (node.isLegalProposal proposal) :=
  inferInstanceAs (Decidable (∀ other ∈ _, _))

section Votes
variable (prim : Primitives) (node : Node)

/-- Two votes of one signer, on one proposal or on two that contradict each other. -/
def isVotesIllegal (first second : DPOSProposalVote) : Prop :=
  first.signer = second.signer ∧
    if first.proposalHash = second.proposalHash then first.hash prim ≠ second.hash prim
    else
      ∃ firstProposal ∈ node.cachedProposals.lookup first.proposalHash,
        ∃ secondProposal ∈ node.cachedProposals.lookup second.proposalHash,
          node.isProposalsIllegal firstProposal secondProposal

instance (first second : DPOSProposalVote) : Decidable (node.isVotesIllegal prim first second) := by
  unfold isVotesIllegal
  infer_instance

def alreadyExistVote (vote : DPOSProposalVote) : Bool :=
  (node.acceptVotes.lookup (vote.hash prim)).isSome ||
    (node.rejectedVotes.lookup (vote.hash prim)).isSome

def illegalVote? (runtime : Runtime) (vote : DPOSProposalVote) : Option DPOSProposalVote :=
  (runtime.iterate (GoMap.values node.acceptVotes) ++
    runtime.iterate (GoMap.values node.rejectedVotes)).find? fun other =>
      node.isVotesIllegal prim vote other

end Votes

def fromView (offset : UInt32) (proposals : GoMap Uint256 DPOSProposal) : GoMap Uint256 DPOSProposal :=
  GoMap.ofPairs ((GoMap.pairs proposals).filter fun entry => ¬ entry.2.viewOffset < offset)

/-- `CleanProposals`, with the reset of the monitor. The evidence is left out. -/
def cleanProposals (changeView : Bool) (node : Node) : Node :=
  { node with
    cachedProposals :=
      if changeView then
        GoMap.ofPairs (GoMap.pairs node.pendingProposals ++ GoMap.pairs node.precociousProposals)
      else ∅
    processingBlock := none
    processingProposal := none
    acceptVotes := ∅
    rejectedVotes := ∅
    pendingVotes := ∅
    proposalProcessFinished := false
    pendingProposals :=
      if changeView then fromView node.viewOffset node.pendingProposals else ∅
    precociousProposals :=
      if changeView then fromView node.viewOffset node.precociousProposals else ∅ }

/-- `ResetByCurrentView`. -/
def resetByCurrentView : Node := node.cleanProposals false

end Node

namespace Setup
variable (setup : Setup)
variable (node : Node)

def voteCheck (vote : DPOSProposalVote) : Bool :=
  (voteSanityCheck setup.prim vote).isOk && (voteContextCheck node.surroundings.arbitrators vote).isOk

variable (proposal : DPOSProposal)

def proposalCheck : Bool :=
  (proposalSanityCheck setup.prim proposal).isOk && (proposalContextCheck node.surroundings.arbitrators proposal).isOk

def isCurrentArbiter : Bool :=
  node.surroundings.arbitrators.isArbitrator setup.account.publicKey

def onDutyArbitrator (offset : UInt32) : Outcome String Bytes :=
  node.surroundings.arbitrators.getNextOnDutyArbitrator setup.prim offset

def adjustedTime : Act Int := do
  let node ← Method.this
  update fun node => { node with readings := node.readings + 1 }
  pure (setup.clock node.readings)

def switchTo (onDuty : Bool) : Act Unit := update fun node => { node with onDuty }

def changeOnDuty : Act Unit := do
  let node ← Method.this
  let currentArbiter ← lift (setup.onDutyArbitrator node 0)
  switchTo (setup.account.publicKey = currentArbiter)

/-- A round is over and the consensus is ready for the next one. -/
def finishConsensus (height : UInt32) (blockHash : Uint256) : Act Unit := do
  let node ← Method.this
  when node.isRunning do
    update fun node =>
      { node with finishedHeight := height, finishedBlockHash := blockHash }
    setup.changeOnDuty
    update fun node =>
      { node with consensusStatus := consensusReady, viewOffset := 0 }.cleanProposals false

def appendConfirm (block : Block) (proposal : DPOSProposal) : Act Unit :=
  update fun node => { node with
    handovers := node.handovers ++ [{
      confirm := {
        proposal
        votes := setup.runtime.iterate (GoMap.values node.acceptVotes) }
      processingBlock := block }] }

def finishProposal : Act Bool := do
  let node ← Method.this
  match node.processingBlock, node.processingProposal with
  | none, _ => pure false
  | some _, none => crash "nil pointer dereference"
  | some block, some proposal => do
    setup.appendConfirm block proposal
    setup.finishConsensus block.height (block.hash setup.prim)
    pure true

/-- Returns whether the vote was counted and whether it ended the round. -/
def countAcceptedVote (vote : DPOSProposalVote) : Act (Bool × Bool) :=
  if vote.accept then do
    update fun node => { node with
      acceptVotes := node.acceptVotes.insert (vote.hash setup.prim) vote }
    let node ← Method.this
    if node.surroundings.arbitrators.hasArbitersMajorityCount node.acceptVotes.entries.length then do
      let finished ← setup.finishProposal
      pure (true, finished)
    else pure (true, false)
  else pure (false, false)

/-- The block of a proposal in evidence is not looked up carefully. -/
def generateProposalEvidence : Act Unit := do
  let node ← Method.this
  match node.consensusBlocks.lookup proposal.blockHash with
  | none => crash "nil pointer dereference"
  | some _ => pure ()

/-- The evidence that is made of two votes is left out. -/
def processIllegalVote (first second : DPOSProposalVote) : Act Unit := do
  let node ← Method.this
  match node.cachedProposals.lookup first.proposalHash, node.cachedProposals.lookup second.proposalHash with
  | some firstProposal, some secondProposal => do
    generateProposalEvidence firstProposal
    generateProposalEvidence secondProposal
  | _, _ => pure ()

def voteOn (accept : Bool) : DPOSProposalVote :=
  let vote : DPOSProposalVote := {
    proposalHash := proposal.hash setup.prim
    signer := setup.account.publicKey
    accept
    sign := [] }
  { vote with sign := setup.account.sign vote.data }

def proposalOf (block : Block) (viewOffset : UInt32) : DPOSProposal :=
  let proposal : DPOSProposal := {
    sponsor := setup.account.publicKey
    blockHash := block.hash setup.prim
    viewOffset
    sign := [] }
  { proposal with sign := setup.account.sign proposal.data }

section Dispatcher

-- `change` is the call of `Consensus.ChangeView` from inside of the dispatcher.
variable (change : Act Unit)

def countRejectedVote (vote : DPOSProposalVote) : Act (Bool × Bool) :=
  if vote.accept = false then do
    update fun node => { node with
      rejectedVotes := node.rejectedVotes.insert (vote.hash setup.prim) vote }
    let node ← Method.this
    if node.surroundings.arbitrators.hasArbitersMinorityCount
        node.rejectedVotes.entries.length then do
      update (Node.cleanProposals true)
      change
      pure (true, true)
    else pure (true, false)
  else pure (false, false)

def processVote (vote : DPOSProposalVote) (accept : Bool) : Act (Bool × Bool) := do
  let node ← Method.this
  if setup.voteCheck node vote = false then pure (false, false)
  else if node.alreadyExistVote setup.prim vote then pure (false, false)
  else
    match node.illegalVote? setup.prim setup.runtime vote with
    | some other => do
      processIllegalVote vote other
      pure (false, false)
    | none =>
      if accept then setup.countAcceptedVote vote
      else setup.countRejectedVote change vote

/-- Process the votes that came before their proposal, until one of them ends the
round. -/
def processPendingVotes (proposal : DPOSProposal) : List DPOSProposalVote → Act Bool
  | [] => do
    update fun node => { node with pendingVotes := ∅ }
    pure false
  | vote :: rest =>
    if vote.proposalHash = proposal.hash setup.prim then do
      let result ← setup.processVote change vote vote.accept
      if result.2 then pure true else processPendingVotes proposal rest
    else processPendingVotes proposal rest

variable (proposal : DPOSProposal)

def setProcessingProposal : Act Bool := do
  update fun node => { node with processingProposal := some proposal }
  let node ← Method.this
  setup.processPendingVotes change proposal
    (setup.runtime.iterate (GoMap.values node.pendingVotes))

/-- Vote for a proposal. The flag is set after the vote has been processed. -/
def castAcceptVote : Act Unit := do
  let node ← Method.this
  let vote := setup.voteOn proposal true
  let _ ← setup.processVote change vote true
  update fun after => { after with
    proposalProcessFinished := true
    broadcasts := after.broadcasts ++ [.vote vote proposal node.processingBlock] }

def acceptProposal : Act Unit := do
  let finished ← setup.setProcessingProposal change proposal
  let node ← Method.this
  when (finished = false ∧ setup.isCurrentArbiter node)
    (setup.castAcceptVote change proposal)

/-- Vote against a proposal whose block is known. -/
def castRejectVote : Act Unit := do
  let node ← Method.this
  let vote := setup.voteOn proposal false
  let _ ← setup.processVote change vote false
  update fun after => { after with
    broadcasts := after.broadcasts ++
      [.vote vote proposal (node.consensusBlocks.lookup proposal.blockHash)] }

def rejectProposal : Act Unit := do
  let finished ← setup.setProcessingProposal change proposal
  let node ← Method.this
  when (finished = false ∧ (node.consensusBlocks.lookup proposal.blockHash).isSome)
    (setup.castRejectVote change proposal)

variable (block : Block)

def startProposal : Act Unit := do
  let node ← Method.this
  match node.processingBlock with
  | some _ => pure ()
  | none => do
    let proposal := setup.proposalOf block node.viewOffset
    update fun node => { node with
      processingBlock := some block
      broadcasts := node.broadcasts ++ [.proposal proposal block] }
    setup.acceptProposal change proposal

variable (self : Bool) (proposal : DPOSProposal)

/-- The last part of `ProcessProposal`, when the block of the proposal is known. -/
def speculate (block : Block) : Act (Bool × Bool) := do
  update fun node => { node with
    processingBlock := some (node.processingBlock.getD block) }
  let node ← Method.this
  let processingBlock := node.processingBlock.getD block
  if block.height ≠ processingBlock.height then pure (true, !self)
  else if proposal.blockHash ≠ processingBlock.hash setup.prim then pure (true, !self)
  else do
    when (node.proposalProcessFinished = false) (setup.acceptProposal change proposal)
    pure (true, true)

/-- The part of `ProcessProposal` for a proposal of the current view. -/
def processCurrent : Act (Bool × Bool) := do
  let node ← Method.this
  let onDutyArbitrator ← lift (setup.onDutyArbitrator node node.viewOffset)
  if onDutyArbitrator ≠ proposal.sponsor then do
    setup.rejectProposal change proposal
    pure (true, !self)
  else
    match node.consensusBlocks.lookup proposal.blockHash with
    | some block =>
      if node.isRunning then setup.speculate change self proposal block
      else do
        update fun node => { node with
          pendingProposals := node.pendingProposals.insert (proposal.hash setup.prim) proposal }
        pure (true, true)
    | none => do
      update fun node => { node with
        pendingProposals := node.pendingProposals.insert (proposal.hash setup.prim) proposal }
      pure (true, true)

/-- Returns whether the proposal is to be recorded and whether it was handled. -/
def processProposal (id : Bytes) (proposal : DPOSProposal) (force : Bool) : Act (Bool × Bool) := do
  let node ← Method.this
  let self : Bool := id = proposal.sponsor
  if setup.proposalCheck node proposal = false then pure (false, true)
  else if ∃ current ∈ node.processingProposal, proposal.hash setup.prim = current.hash setup.prim then pure (true, true)
  else if node.surroundings.blockExists proposal.blockHash then pure (true, true)
  else if proposal.blockHash = node.finishedBlockHash then pure (true, true)
  else if proposal.viewOffset ≠ node.viewOffset then do
    when (node.viewOffset < proposal.viewOffset) <|
      update fun node => { node with
        precociousProposals :=
          node.precociousProposals.insert (proposal.hash setup.prim) proposal }
    pure (true, !self)
  else if force = false ∧ (node.pendingProposals.lookup (proposal.hash setup.prim)).isSome then pure (true, true)
  else if node.isLegalProposal proposal then setup.processCurrent change self proposal
  else pure (true, true)

def processWaiting : Act Unit := do
  let result ← setup.processProposal change (List.replicate 33 0) proposal true
  when (result.1 = true) <| update fun node => { node with
    cachedProposals := node.cachedProposals.insert (proposal.hash setup.prim) proposal }

/-- A proposal that has been deleted on the way is skipped. -/
def updatePrecocious (key : Uint256) : Act Unit := do
  let node ← Method.this
  match node.precociousProposals.lookup key with
  | none => pure ()
  | some proposal =>
    when (node.isRunning ∧ proposal.viewOffset = node.viewOffset) do
      setup.processWaiting change proposal
      update fun node => { node with
        precociousProposals := node.precociousProposals.erase key }

def updatePrecociousProposals : Act Unit := do
  let node ← Method.this
  (setup.runtime.iterate node.precociousProposals.keys).forM (setup.updatePrecocious change)

/-- Process a pending proposal whose block has come. -/
def updatePending (key : Uint256) : Act Unit := do
  let node ← Method.this
  match node.pendingProposals.lookup key with
  | none => pure ()
  | some proposal =>
    when (node.isRunning ∧ proposal.blockHash = block.hash setup.prim) do
      setup.processWaiting change proposal
      update fun node => { node with
        pendingProposals := node.pendingProposals.erase key }

def onBlockAdded : Act Unit := do
  let node ← Method.this
  (setup.runtime.iterate node.pendingProposals.keys).forM (setup.updatePending change block)

def addBlock : Act Unit := do
  update fun node => { node with
    consensusBlocks := node.consensusBlocks.insert (block.hash setup.prim) block
    consensusBlockList := node.consensusBlockList ++ [block.hash setup.prim] }
  setup.onBlockAdded change block

/-- `ChangeView` of the current handler. -/
def changeViewOfHandler (firstBlockHash : Uint256) : Act Unit := do
  let node ← Method.this
  match node.onDuty, node.consensusBlocks.lookup firstBlockHash with
  | false, _ => update (Node.cleanProposals true)
  | true, none => pure ()
  | true, some block => do
    update (Node.cleanProposals true)
    setup.startProposal change block

/-- An arbiter on duty without a block to propose leaves everything as it is. -/
def onViewChanged (isOnDuty : Bool) : Act Unit := do
  switchTo isOnDuty
  let node ← Method.this
  let firstBlockHash := node.consensusBlockList.head?
  let block := firstBlockHash.bind node.consensusBlocks.lookup
  when (isOnDuty = false ∨ ∃ first ∈ block, node.finishedHeight < first.height) do
    setup.changeViewOfHandler change (firstBlockHash.getD default)
    setup.updatePrecociousProposals change

/-- The number of views that have passed, as a `uint32`, and the time since then. A
difference of times is cut off at 64 bits. -/
def calculateOffsetTime (start now : Int) : UInt32 × Int :=
  let duration := max (-2 ^ 63) (min (2 ^ 63 - 1) (now - start))
  (UInt32.ofNat ((duration.tdiv setup.signTolerance).emod (2 ^ 32)).toNat, duration.tmod setup.signTolerance)

def viewAt (now : Int) (node : Node) : Node :=
  let (offset, offsetTime) := setup.calculateOffsetTime node.viewStartTime now
  { node with
    viewOffset := node.viewOffset + offset
    viewStartTime := now - offsetTime }

def changeViewAt (now : Int) : Act Unit := do
  let node ← Method.this
  update (setup.viewAt now)
  when (0 < (setup.calculateOffsetTime node.viewStartTime now).1) do
    let node ← Method.this
    let currentArbiter ← lift (setup.onDutyArbitrator node node.viewOffset)
    setup.onViewChanged change (currentArbiter = setup.account.publicKey)

end Dispatcher

/-- `Consensus.ChangeView`. Processing a vote may change the view, and that may process
votes again, to some depth. -/
def changeView : Nat → Act Unit
  | 0 => crash "stack overflow"
  | depth + 1 => do
    let now ← setup.adjustedTime
    setup.changeViewAt (changeView depth) now

end Setup
end Elastos.Manager
