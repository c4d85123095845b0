import Elastos.Manager.Dispatcher

/-! What the dispatcher of an arbiter can do, as a relation between its states. Whatever
one of its methods does is a sequence of such moves. -/
set_option autoImplicit false
namespace Elastos.Manager
open Go Common Crypto Elastos.Types Dpos
open Relation (ReflTransGen)

/-- The part of a node that no rule of the consensus reads, or that only lists what is
to come. -/
structure Aside where
  readings : Nat
  viewStartTime : Int
  onDuty : Bool
  consensusBlockList : List Uint256
  pendingProposals : GoMap Uint256 DPOSProposal
  precociousProposals : GoMap Uint256 DPOSProposal
  cachedProposals : GoMap Uint256 DPOSProposal
  isAbnormal : Bool
  recoverStarted : Bool
  notHandledProposal : GoMap Bytes Unit
  statusMap : GoMap UInt32 (GoMap Bytes ConsensusStatus)

def Aside.waiting (aside : Aside) : List DPOSProposal :=
  GoMap.values aside.pendingProposals ++ GoMap.values aside.precociousProposals

namespace Node

/-- The surroundings of a node and its cache of blocks are the given ones. -/
def Stands (surroundings : Surroundings) (blocks : GoMap Uint256 Block) (node : Node) : Prop :=
  node.surroundings = surroundings ∧ node.consensusBlocks = blocks

def aside (node : Node) : Aside where
  readings := node.readings
  viewStartTime := node.viewStartTime
  onDuty := node.onDuty
  consensusBlockList := node.consensusBlockList
  pendingProposals := node.pendingProposals
  precociousProposals := node.precociousProposals
  cachedProposals := node.cachedProposals
  isAbnormal := node.isAbnormal
  recoverStarted := node.recoverStarted
  notHandledProposal := node.notHandledProposal
  statusMap := node.statusMap

def setAside (aside : Aside) (node : Node) : Node :=
  { node with
    readings := aside.readings
    viewStartTime := aside.viewStartTime
    onDuty := aside.onDuty
    consensusBlockList := aside.consensusBlockList
    pendingProposals := aside.pendingProposals
    precociousProposals := aside.precociousProposals
    cachedProposals := aside.cachedProposals
    isAbnormal := aside.isAbnormal
    recoverStarted := aside.recoverStarted
    notHandledProposal := aside.notHandledProposal
    statusMap := aside.statusMap }

/-- The proposals that wait for their block or for their view. -/
def waiting (node : Node) : List DPOSProposal := node.aside.waiting

def Caches (node : Node) (block : Block) : Prop :=
  block ∈ GoMap.values node.consensusBlocks

def accepting (prim : Primitives) (vote : DPOSProposalVote) (node : Node) : Node :=
  { node with acceptVotes := node.acceptVotes.insert (vote.hash prim) vote }

def rejecting (prim : Primitives) (vote : DPOSProposalVote) (node : Node) : Node :=
  { node with rejectedVotes := node.rejectedVotes.insert (vote.hash prim) vote }

def withVotes (acceptVotes rejectedVotes : GoMap Uint256 DPOSProposalVote) (node : Node) : Node :=
  { node with acceptVotes, rejectedVotes }

def settled (node : Node) : Node := { node with pendingVotes := ∅ }

def hasMajority (node : Node) : Prop :=
  node.surroundings.arbitrators.hasArbitersMajorityCount node.acceptVotes.entries.length

def hasMinority (node : Node) : Prop :=
  node.surroundings.arbitrators.hasArbitersMinorityCount node.rejectedVotes.entries.length

def closed (height : UInt32) (blockHash : Uint256) (onDuty : Bool) (node : Node) : Node :=
  { node with
    finishedHeight := height
    finishedBlockHash := blockHash
    onDuty
    consensusStatus := consensusReady
    viewOffset := 0 }

def concluded (height : UInt32) (blockHash : Uint256) (onDuty : Bool) (node : Node) : Node :=
  if node.isRunning then (node.closed height blockHash onDuty).cleanProposals false else node

theorem concluded_elim {motive : Node → Prop} {node : Node} {height : UInt32}
    {blockHash : Uint256} {onDuty : Bool} (ended : node.isRunning →
      motive ((node.closed height blockHash onDuty).cleanProposals false))
    (idle : ¬ node.isRunning → motive node) : motive (node.concluded height blockHash onDuty) := by
  unfold concluded
  split
  case isTrue running => exact ended running
  case isFalse stopped => exact idle stopped

def handedOver (runtime : Runtime) (block : Block) (proposal : DPOSProposal) (node : Node) : Node :=
  { node with
    handovers := node.handovers ++ [{
      confirm := { proposal, votes := runtime.iterate (GoMap.values node.acceptVotes) }
      processingBlock := block }] }

end Node

namespace Setup
variable (setup : Setup)

/-- A vote that passes all the checks made before it is counted. -/
def Countable (node : Node) (vote : DPOSProposalVote) : Prop :=
  setup.voteCheck node vote = true ∧ node.alreadyExistVote setup.prim vote = false ∧
    node.illegalVote? setup.prim setup.runtime vote = none

def offsetAt (now : Int) (node : Node) : UInt32 :=
  (setup.calculateOffsetTime node.viewStartTime now).1

/-- The view has changed, and the proposals may have been cleaned. -/
def turned (now : Int) (cleaned : Bool) (node : Node) : Node :=
  if cleaned then (setup.viewAt now node).cleanProposals true else setup.viewAt now node

/-- What processing a vote leads to. -/
inductive Processed (change : Act Unit) (vote : DPOSProposalVote) (accept : Bool) (node : Node) :
    Bool × Bool → Node → Prop where
  | dropped (uncounted : ¬ (setup.Countable node vote ∧ vote.accept = accept)) :
      Processed change vote accept node (false, false) node
  | accepted (countable : setup.Countable node vote) (said : vote.accept = true)
      (asked : accept = true)
      (fewer : node.processingBlock = none ∨ ¬ (node.accepting setup.prim vote).hasMajority) :
      Processed change vote accept node (true, false) (node.accepting setup.prim vote)
  | confirmed (block : Block) (proposal : DPOSProposal) (onDuty : Bool)
      (countable : setup.Countable node vote) (said : vote.accept = true) (asked : accept = true)
      (enough : (node.accepting setup.prim vote).hasMajority)
      (processes : node.processingBlock = some block)
      (proposed : node.processingProposal = some proposal) : Processed change vote accept node (true, true)
        (((node.accepting setup.prim vote).handedOver setup.runtime block proposal).concluded
          block.height (block.hash setup.prim) onDuty)
  | rejected (countable : setup.Countable node vote) (said : vote.accept = false)
      (asked : accept = false) (fewer : ¬ (node.rejecting setup.prim vote).hasMinority) :
      Processed change vote accept node (true, false) (node.rejecting setup.prim vote)
  | outvoted (after : Node) (countable : setup.Countable node vote) (said : vote.accept = false)
      (asked : accept = false) (enough : (node.rejecting setup.prim vote).hasMinority)
      (changed : change ((node.rejecting setup.prim vote).cleanProposals true) = (.ok (), after)) :
      Processed change vote accept node (true, true) after

/-- Counting votes on a proposal one after the other, none of which ends the round. -/
inductive Tally (proposal : DPOSProposal) : List DPOSProposalVote → Node → Node → Prop where
  | nil (node : Node) : Tally proposal [] node node
  | skip {vote : DPOSProposalVote} {rest : List DPOSProposalVote} {node after : Node}
      (uncounted : vote.proposalHash = proposal.hash setup.prim → ¬ setup.Countable node vote)
      (others : Tally proposal rest node after) : Tally proposal (vote :: rest) node after
  | accept {vote : DPOSProposalVote} {rest : List DPOSProposalVote} {node after : Node}
      (named : vote.proposalHash = proposal.hash setup.prim) (said : vote.accept = true)
      (countable : setup.Countable node vote)
      (fewer : node.processingBlock = none ∨ ¬ (node.accepting setup.prim vote).hasMajority)
      (others : Tally proposal rest (node.accepting setup.prim vote) after) : Tally proposal (vote :: rest) node after
  | reject {vote : DPOSProposalVote} {rest : List DPOSProposalVote} {node after : Node}
      (named : vote.proposalHash = proposal.hash setup.prim) (said : vote.accept = false)
      (countable : setup.Countable node vote)
      (others : Tally proposal rest (node.rejecting setup.prim vote) after) : Tally proposal (vote :: rest) node after

def processing (proposal : DPOSProposal) (node : Node) : Node :=
  { node with processingProposal := some proposal }

def pending (node : Node) : List DPOSProposalVote :=
  setup.runtime.iterate (GoMap.values node.pendingVotes)

def castVote (proposal : DPOSProposal) (block : Option Block) (node : Node) : Node :=
  { node with
    proposalProcessFinished := true
    broadcasts := node.broadcasts ++ [.vote (setup.voteOn proposal true) proposal block] }

/-- What accepting a proposal leads to: the node only watches, it votes, its vote is the
last one that was missing, the waiting votes were enough without it, or they were
against the proposal. -/
inductive Accepted (opened : Node) (proposal : DPOSProposal) : Node → Prop where
  | watched {counted : Node}
      (tally : setup.Tally proposal (setup.pending opened) (processing proposal opened) counted)
      (outside : setup.isCurrentArbiter opened = false) : Accepted opened proposal counted.settled
  | voted {counted own : Node}
      (tally : setup.Tally proposal (setup.pending opened) (processing proposal opened) counted)
      (arbiter : setup.isCurrentArbiter opened = true)
      (processed : own = counted ∧ ¬ setup.Countable counted (setup.voteOn proposal true) ∨
        own = counted.accepting setup.prim (setup.voteOn proposal true) ∧
          setup.Countable counted (setup.voteOn proposal true)) : Accepted opened proposal
        (setup.castVote proposal opened.processingBlock own.settled)
  | completed {counted : Node} {block : Block} (onDuty : Bool)
      (tally : setup.Tally proposal (setup.pending opened) (processing proposal opened) counted)
      (arbiter : setup.isCurrentArbiter opened = true)
      (countable : setup.Countable counted (setup.voteOn proposal true))
      (enough : (counted.accepting setup.prim (setup.voteOn proposal true)).hasMajority)
      (processes : opened.processingBlock = some block) :
      Accepted opened proposal (setup.castVote proposal opened.processingBlock (((counted.settled.accepting setup.prim
          (setup.voteOn proposal true)).handedOver setup.runtime block proposal).concluded
            block.height (block.hash setup.prim) onDuty))
  | confirmed {counted : Node} {first rest : List DPOSProposalVote} {vote : DPOSProposalVote}
      {block : Block} (onDuty : Bool)
      (votes : setup.pending opened = first ++ vote :: rest)
      (tally : setup.Tally proposal first (processing proposal opened) counted)
      (named : vote.proposalHash = proposal.hash setup.prim) (said : vote.accept = true)
      (countable : setup.Countable counted vote)
      (enough : (counted.accepting setup.prim vote).hasMajority)
      (processes : opened.processingBlock = some block) : Accepted opened proposal
        (((counted.accepting setup.prim vote).handedOver setup.runtime block proposal).concluded
          block.height (block.hash setup.prim) onDuty)
  | outvoted {counted : Node} {first rest : List DPOSProposalVote} {vote : DPOSProposalVote}
      (now : Int) (cleaned : Bool)
      (votes : setup.pending opened = first ++ vote :: rest)
      (tally : setup.Tally proposal first (processing proposal opened) counted)
      (named : vote.proposalHash = proposal.hash setup.prim) (said : vote.accept = false)
      (countable : setup.Countable counted vote)
      (enough : (counted.rejecting setup.prim vote).hasMinority) : Accepted opened proposal
        (setup.turned now cleaned ((counted.rejecting setup.prim vote).cleanProposals true))

/-- What a message puts into the hands of the dispatcher: a proposal, the block of a new
round, and whether it proposes that block although the round is over. -/
structure Occasion where
  brings : DPOSProposal → Prop
  starts : Block → Prop
  late : Prop

/-- How a proposal comes to be accepted: as the node's own one, or as the one of the
arbiter on duty. -/
inductive Opened (occasion : Occasion) (node : Node) : DPOSProposal → Node → Prop where
  | own (block : Block) (idle : node.processingBlock = none)
      (began : node.isRunning ∨ occasion.late)
      (known : node.Caches block ∧ node.finishedHeight < block.height ∨ occasion.starts block) :
      Opened occasion node (setup.proposalOf block node.viewOffset)
        { node with
          processingBlock := some block
          broadcasts := node.broadcasts ++
            [.proposal (setup.proposalOf block node.viewOffset) block] }
  | heard (proposal : DPOSProposal) (cached block : Block)
      (held : proposal ∈ node.waiting ∨ occasion.brings proposal)
      (current : proposal.viewOffset = node.viewOffset)
      (running : node.isRunning) (unvoted : node.proposalProcessFinished = false)
      (listed : node.Caches cached)
      (processes : node.processingBlock.getD cached = block)
      (level : cached.height = block.height)
      (named : proposal.blockHash = block.hash setup.prim) :
      Opened occasion node proposal { node with processingBlock := some block }

inductive Move (occasion : Occasion) : Node → Node → Prop where
  | aside {node : Node} (aside : Aside)
      (waits : ∀ proposal ∈ aside.waiting, proposal ∈ node.waiting ∨ occasion.brings proposal) :
      Move occasion node (node.setAside aside)
  | speculate {node : Node} (block : Block) (running : node.isRunning)
      (listed : node.Caches block) (idle : node.processingBlock = none) :
      Move occasion node { node with processingBlock := some block }
  | accept {node opened after : Node} {proposal : DPOSProposal}
      (opening : setup.Opened occasion node proposal opened)
      (accepted : setup.Accepted opened proposal after) : Move occasion node after
  /-- Only the surroundings and the blocks are sure to survive that a proposal is rejected. -/
  | reject {node : Node} (after : Node) (proposal : DPOSProposal)
      (stands : after.Stands node.surroundings node.consensusBlocks)
      (held : proposal ∈ node.waiting ∨ occasion.brings proposal)
      (valid : setup.proposalCheck node proposal = true)
      (current : proposal.viewOffset = node.viewOffset) (onDutyArbitrator : Bytes)
      (duty : setup.onDutyArbitrator node node.viewOffset = .ok onDutyArbitrator)
      (differs : onDutyArbitrator ≠ proposal.sponsor) : Move occasion node after

abbrev Moves (occasion : Occasion) : Node → Node → Prop := ReflTransGen (setup.Move occasion)

end Setup
end Elastos.Manager
