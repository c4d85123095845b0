import Elastos.Manager.Messages
import Elastos.Manager.Refinement

/-! The stages in which a manager handles a message. -/
set_option autoImplicit false
namespace Elastos.Manager
open Go Common Elastos.Types Dpos Blockchain Method GoMap List
open Relation (ReflTransGen)
namespace Message

/-- The messages that make the dispatcher process proposals. -/
def Dispatches : Message → Prop
  | .proposal _ _ | .rejectVote _ | .changeView | .block _ _ | .inactiveArbitratorsAccepted _ => True
  | _ => False

instance (message : Message) : Decidable message.Dispatches := by
  cases message <;> unfold Dispatches <;> infer_instance

/-- All of these, except for a vote that is the last one against a proposal. -/
def Processes : Message → Prop
  | .proposal _ _ | .changeView | .block _ _ | .inactiveArbitratorsAccepted _ => True
  | _ => False

theorem Processes.dispatches {message : Message} (processes : message.Processes) : message.Dispatches := by
  cases message <;> trivial

/-- `begun` is the block with which a round has just been started. -/
def occasion (message : Message) (begun : Option Block) (late : Prop) : Setup.Occasion where
  brings proposal := ∃ id, message = .proposal id proposal
  starts block := begun = some block
  late := late

/-- The evidence against inactive arbiters that a message carries. -/
inductive Carries : Message → InactiveArbitrators → Prop where
  | accepted (payload : InactiveArbitrators) : Carries (.inactiveArbitratorsAccepted payload) payload
  | included {block : Block} {valid : Bool} {tx : Transaction} {payload : InactiveArbitrators}
      (listed : tx ∈ block.transactions) (evidence : inactivePayload? tx = some payload) :
      Carries (.block block valid) payload

theorem Carries.processes {message : Message} {payload : InactiveArbitrators}
    (told : message.Carries payload) : message.Processes := by
  cases told with
  | accepted => trivial
  | included => trivial

/-- The height at which a message ends a round. -/
inductive Concludes : Message → UInt32 → Prop where
  | block (block : Block) : Concludes (.confirmedBlock block) block.height
  | confirm (confirm : Confirm) (height : UInt32) : Concludes (.confirm confirm height) height

end Message

def Node.Collected (node : Node) (status : ConsensusStatus) : Prop :=
  ∃ viewOffset statuses, node.statusMap.lookup viewOffset = some statuses ∧ status ∈ GoMap.values statuses

namespace Setup
variable (setup : Setup)

def started (block : Block) (node : Node) : Node :=
  { node.resetBlocks setup.prim setup.runtime block with
    consensusStatus := consensusRunning
    viewOffset := 0 }

def cached (block : Block) (node : Node) : Node :=
  { node with consensusBlocks := node.consensusBlocks.insert (block.hash setup.prim) block }

def pended (vote : DPOSProposalVote) (node : Node) : Node :=
  { node with pendingVotes := node.pendingVotes.insert (vote.hash setup.prim) vote }

/-- A vote on the proposal that is processed. -/
structure Current (node : Node) (vote : DPOSProposalVote) (proposal : DPOSProposal) : Prop where
  running : node.isRunning
  proposed : node.processingProposal = some proposal
  named : vote.proposalHash = proposal.hash setup.prim
  countable : setup.Countable node vote

/-- What the manager does itself. -/
inductive Event (message : Message) (origin : Node) : Node → Node → Prop where
  | aside {node : Node} (aside : Aside) (same : aside.waiting = node.waiting) :
      Event message origin node (node.setAside aside)
  | tick (cleaned : Bool) (processes : message.Processes) (running : origin.isRunning)
      (timeout : origin.viewStartTime + setup.signTolerance < setup.clock origin.readings)
      (later : cleaned = true → 0 < setup.offsetAt (setup.clock origin.readings) origin) :
      Event message origin origin (setup.turned (setup.clock origin.readings) cleaned origin)
  | pend {node : Node} {vote : DPOSProposalVote}
      (told : message = .acceptVote vote ∨ message = .rejectVote vote) (running : node.isRunning)
      (unproposed : node.processingProposal = none) : Event message origin node (setup.pended vote node)
  | count {node : Node} {vote : DPOSProposalVote} {proposal : DPOSProposal}
      (told : message = .acceptVote vote) (current : setup.Current node vote proposal)
      (said : vote.accept = true) : Event message origin node (node.accepting setup.prim vote)
  | confirm {node : Node} {vote : DPOSProposalVote} {proposal : DPOSProposal} {block : Block}
      (onDuty : Bool) (told : message = .acceptVote vote)
      (current : setup.Current node vote proposal) (said : vote.accept = true)
      (enough : (node.accepting setup.prim vote).hasMajority)
      (processes : node.processingBlock = some block) : Event message origin node
        (((node.accepting setup.prim vote).handedOver setup.runtime block proposal).concluded
          block.height (block.hash setup.prim) onDuty)
  | refuse {node : Node} {vote : DPOSProposalVote} {proposal : DPOSProposal}
      (told : message = .rejectVote vote) (current : setup.Current node vote proposal)
      (said : vote.accept = false) (fewer : ¬ (node.rejecting setup.prim vote).hasMinority) :
      Event message origin node (node.rejecting setup.prim vote)
  | conclude {height : UInt32} (blockHash : Uint256) (onDuty : Bool)
      (told : message.Concludes height) : Event message origin origin (origin.concluded height blockHash onDuty)
  | unload {node : Node} {payload : InactiveArbitrators} (told : message.Carries payload) :
      Event message origin node { node with consensusBlocks := ∅ }
  | reload {node : Node} {block : Block} {payload : InactiveArbitrators}
      (told : message.Carries payload) (kept : origin.Caches block) :
      Event message origin node (setup.cached block node)
  | special {node : Node} {payload : InactiveArbitrators} (told : message.Carries payload) :
      Event message origin node { node with
        surroundings := (setup.processSpecialTxPayload payload node.surroundings).2 }
  | emergency {node : Node} {payload : InactiveArbitrators} (told : message.Carries payload)
      (declared : node.surroundings.isEmergency = true) : Event message origin node node.resetByCurrentView
  | recover {status : ConsensusStatus} {startTimes : List Int} (viewStartTime : Int)
      (told : message = .recoverTimeout) (abnormal : origin.isAbnormal = true)
      (collected : origin.Collected status)
      (unready : status.consensusStatus ≠ consensusReady) (some_ : startTimes ≠ [])
      (times : ∀ time ∈ startTimes, ∃ other, origin.Collected other ∧ other.viewStartTime = time) :
      Event message origin origin (origin.recoverFromConsensusStatus setup.prim { status with
        viewOffset := status.viewOffset + (setup.calculateOffsetTime
          (medianOf (setup.runtime.sort (fun first second => first < second) startTimes))
          (setup.clock origin.readings)).1
        viewStartTime })
  | elsewhere {node : Node} {surroundings : Surroundings}
      (told : message = .elsewhere surroundings) : Event message origin node { node with surroundings }

/-- The manager does something, or it lets the dispatcher act. -/
inductive Stage (message : Message) (origin : Node) : Node → Node → Prop where
  | event {node after : Node} (event : setup.Event message origin node after) : Stage message origin node after
  | dispatch {node after : Node} (processes : message.Processes)
      (moves : setup.Moves (message.occasion none False) node after) : Stage message origin node after
  | outvoted {vote : DPOSProposalVote} {proposal : DPOSProposal} {after : Node} (cleaned : Bool)
      (told : message = .rejectVote vote) (current : setup.Current origin vote proposal)
      (said : vote.accept = false) (enough : (origin.rejecting setup.prim vote).hasMinority)
      (later : cleaned = true → 0 < setup.offsetAt (setup.clock origin.readings) origin)
      (moves : setup.Moves (message.occasion none False) (setup.turned (setup.clock origin.readings) cleaned
          ((origin.rejecting setup.prim vote).cleanProposals true)) after) : Stage message origin origin after

/-- What handling a message comes to. -/
abbrev Stages (message : Message) (origin : Node) : Node → Node → Prop :=
  ReflTransGen (setup.Stage message origin)

/-- A block that is above the chain and above the last round. -/
structure Usable (message : Message) (node : Node) (block : Block) : Prop where
  told : message = .block block true
  tall : node.surroundings.arbitrators.bestHeight < block.height
  higher : node.finishedHeight < block.height

/-- What a block leads to at last: it joins the others, or it starts a round. The arbiter on
duty then proposes it, even if the round was over as soon as it had started. -/
inductive Ending (message : Message) (origin node : Node) : Node → Prop where
  | done : Ending message origin node node
  | added {block : Block} {after : Node} (usable : Usable message node block)
      (busy : ¬ node.isReady)
      (moves : setup.Moves (message.occasion none False) (setup.cached block node) after) :
      Ending message origin node after
  | started {block : Block} {middle last : Node} (usable : Usable message node block)
      (arbiter : setup.isCurrentArbiter origin = true) (ready : node.isReady)
      (begun : setup.Moves (message.occasion none False) (setup.cached block (setup.started block node)) middle)
      (proposed : setup.Moves (message.occasion (some block) (¬ middle.isRunning)) middle last) :
      Ending message origin node { last with notHandledProposal := ∅ }

section Stages
variable {setup} {message : Message} {origin node after : Node} {depth : Nat}
  {vote : DPOSProposalVote} {proposal : DPOSProposal} {block : Block}

theorem changeOnDuty_stages (run : setup.changeOnDuty node = (.ok (), after)) :
    setup.Stages message origin node after := by
  obtain ⟨onDuty, rfl⟩ := changeOnDuty_ok run
  exact .single (.event (.aside { node.aside with onDuty } rfl))

theorem tryChangeView_stages (processes : message.Processes)
    (run : setup.tryChangeView depth origin = (.ok (), after)) : setup.Stages message origin origin after := by
  simp only [tryChangeView, adjustedTime, bind_ok_iff, this_bind, when_ok_iff, update_ok_iff, pure_ok_iff] at run
  obtain ⟨running, _, _, ⟨_, _, rfl, rfl, rfl⟩, ⟨timeout, run⟩ | ⟨_, rfl⟩⟩ | ⟨_, rfl⟩ := run
  · obtain ⟨cleaned, later, moves⟩ := changeViewAt_moves (changeView_turns depth)
      (show Node.isRunning { origin with readings := origin.readings + 1 } ∨ _ from .inl running) run
    exact .head (.event (.tick cleaned processes running timeout later))
      (.single (.dispatch processes (moves_reading moves)))
  · exact .single (.event (.aside { origin.aside with readings := origin.readings + 1 } rfl))
  · exact .refl

section Proposals

theorem recoverAbnormalState_stages (run : recoverAbnormalState node = (.ok (), after)) :
    setup.Stages message origin node after := by
  simp only [recoverAbnormalState, update_ok_iff] at run
  split at run
  · subst run
    exact .single (.event (.aside { node.aside with recoverStarted := true, isAbnormal := true } rfl))
  · subst run
    exact .refl

variable {id : Bytes}

theorem addNotHandledProposal_stages (run : addNotHandledProposal id node = (.ok (), after)) :
    setup.Stages message origin node after := by
  simp only [addNotHandledProposal, bind_ok_iff, update_ok_iff, this_bind, when_ok_iff] at run
  obtain ⟨_, _, rfl, ⟨_, run⟩ | ⟨_, rfl⟩⟩ := run
  · exact .head (.event (.aside { node.aside with
      notHandledProposal := node.notHandledProposal.insert id () } rfl))
      (recoverAbnormalState_stages run)
  · exact .single (.event (.aside { node.aside with notHandledProposal := _ } rfl))

theorem processProposalByHandler_stages {handled : Bool}
    (run : setup.processProposalByHandler depth id proposal origin = (.ok handled, after)) :
    setup.Stages (.proposal id proposal) origin origin after := by
  simp only [processProposalByHandler, bind_ok_iff, this_bind, ite_ok_iff,
    pure_ok_iff, when_ok_iff, update_ok_iff] at run
  obtain ⟨_, _, rfl⟩ | ⟨_, _, _, ticked, _, middle, run, _, _, recorded, _, rfl⟩ := run
  · exact .refl
  have moves := processProposal_moves (changeView_turns depth)
    (show _ ∨ (Message.occasion (.proposal id proposal) none False).brings proposal from
      .inr ⟨id, rfl⟩) run
  have first : setup.Stages (.proposal id proposal) origin origin _ := tryChangeView_stages trivial ticked
  have stages := first.tail (.dispatch trivial moves)
  obtain ⟨_, rfl⟩ | ⟨_, rfl⟩ := recorded
  · exact stages.tail (.event (.aside { middle.aside with cachedProposals := _ } rfl))
  · exact stages

theorem onProposalReceived_stages (run : setup.onProposalReceived depth id proposal origin = (.ok (), after)) :
    setup.Stages (.proposal id proposal) origin origin after := by
  simp only [onProposalReceived, bind_ok_iff, this_bind, when_ok_iff] at run
  obtain ⟨_, _, _, processed, ⟨_, run⟩ | ⟨_, rfl⟩⟩ | ⟨_, rfl⟩ := run
  · exact (processProposalByHandler_stages processed).trans (addNotHandledProposal_stages run)
  · exact processProposalByHandler_stages processed
  · exact .refl

end Proposals

section Votes

/-- A vote on the current proposal, as `accept` says, or one that has to wait. -/
theorem processVoteByHandler_stages {accept : Bool} {result : Bool × Bool}
    (told : message = if accept then .acceptVote vote else .rejectVote vote)
    (run : setup.processVoteByHandler depth vote accept origin = (.ok result, after)) :
    setup.Stages message origin origin after := by
  simp only [processVoteByHandler, this_bind, ite_ok_iff, pure_ok_iff] at run
  obtain ⟨running, run⟩ | ⟨_, _, rfl⟩ := run
  · obtain proposed | ⟨current, proposed⟩ := Option.eq_none_or_eq_some origin.processingProposal
    · simp only [proposed, bind_ok_iff, when_ok_iff, pure_ok_iff] at run
      obtain ⟨_, _, ⟨_, waits⟩ | ⟨_, rfl⟩, _, rfl⟩ := run
      · have pended : setup.pended vote origin = _ := update_ok_iff.1 waits
        rw [← pended]
        refine .single (.event (.pend ?_ running proposed))
        cases accept with
        | true => exact .inl told
        | false => exact .inr told
      · exact .refl
    simp only [proposed, ite_ok_iff, pure_ok_iff] at run
    obtain ⟨named, run⟩ | ⟨_, _, rfl⟩ := run
    · have current : ∀ (countable : setup.Countable origin vote), setup.Current origin vote current :=
        fun countable => ⟨running, proposed, named.symm, countable⟩
      cases processVote_processed run with
      | dropped => exact .refl
      | accepted countable said asked =>
        subst asked
        exact .single (.event (.count told (current countable) said))
      | confirmed block proposal onDuty countable said asked enough processes same =>
        subst asked
        rw [proposed] at same
        cases same
        exact .single (.event (.confirm onDuty told (current countable) said enough processes))
      | rejected countable said asked fewer =>
        subst asked
        exact .single (.event (.refuse told (current countable) said fewer))
      | outvoted _ countable said asked enough changed =>
        subst asked
        obtain ⟨cleaned, later, moves⟩ := changeView_moves changed (.inl running)
        exact .single (.outvoted cleaned told (current countable) said enough later moves)
    · exact .refl
  · exact .refl

theorem onVoteAccepted_stages (run : setup.onVoteAccepted depth vote origin = (.ok (), after)) :
    setup.Stages (.acceptVote vote) origin origin after := by
  simp only [onVoteAccepted, bind_ok_iff, this_bind, when_ok_iff] at run
  obtain ⟨_, _, _, processed, ⟨_, run⟩ | ⟨_, rfl⟩⟩ | ⟨_, rfl⟩ := run
  · exact (processVoteByHandler_stages rfl processed).trans (changeOnDuty_stages run)
  · exact processVoteByHandler_stages rfl processed
  · exact .refl

theorem onVoteRejected_stages (run : setup.onVoteRejected depth vote origin = (.ok (), after)) :
    setup.Stages (.rejectVote vote) origin origin after := by
  simp only [onVoteRejected, bind_ok_iff, this_bind, when_ok_iff, pure_ok_iff] at run
  obtain ⟨_, _, _, processed, _, rfl⟩ | ⟨_, rfl⟩ := run
  · exact processVoteByHandler_stages rfl processed
  · exact .refl

end Votes

section Blocks
variable {payload : InactiveArbitrators} {occasion : Occasion} {height : UInt32}
  {accepted valid : Bool}

theorem addBlock_moves (run : setup.addBlock (setup.changeView depth) block node = (.ok (), after)) :
    setup.Moves occasion (setup.cached block node) after := by
  simp only [addBlock, bind_ok_iff, update_ok_iff] at run
  obtain ⟨_, _, rfl, run⟩ := run
  have listed : setup.Move occasion (setup.cached block node) _ :=
    .aside_same { (setup.cached block node).aside with
      consensusBlockList := node.consensusBlockList ++ [block.hash setup.prim] } rfl
  exact .head listed (onBlockAdded_moves (changeView_turns depth) run)

theorem startConsensus_moves (run : setup.startConsensus depth block node = (.ok (), after)) :
    setup.Moves occasion (setup.cached block (setup.started block node)) after := by
  simp only [startConsensus, adjustedTime, bind_ok_iff, update_ok_iff, this_bind, pure_ok_iff] at run
  obtain ⟨_, _, ⟨_, _, rfl, rfl, rfl⟩, _, _, rfl, _, middle, added, rfl⟩ := run
  have read : setup.Move occasion (setup.cached block (setup.started block node)) _ :=
    .aside_same { (setup.cached block (setup.started block node)).aside with
      readings := node.readings + 1 } rfl
  have moves := ReflTransGen.head read (addBlock_moves added)
  exact moves.tail (.aside_same { middle.aside with viewStartTime := _ } rfl)

theorem tryStartNewConsensus_ending (arbiter : setup.isCurrentArbiter origin = true)
    (usable : Usable message node block) (run : setup.tryStartNewConsensus depth block node = (.ok (), after)) :
    setup.Ending message origin node after := by
  simp only [tryStartNewConsensus, bind_ok_iff, this_bind, ite_ok_iff, pure_ok_iff, when_ok_iff, update_ok_iff] at run
  obtain ⟨_, _, rfl⟩ | ⟨_, ⟨ready, _, middle, begun, _, last, proposed, rfl⟩ | ⟨busy, added⟩⟩ := run
  · exact .done
  · have proposed : setup.Moves (message.occasion (some block) (¬ middle.isRunning)) middle last := by
      obtain ⟨_, run⟩ | ⟨_, rfl⟩ := proposed
      · have known : (message.occasion (some block) (¬ middle.isRunning)).starts block := rfl
        exact startProposal_moves (changeView_turns depth) (em _) (.inr known) run
      · exact .refl
    exact .started usable arbiter ready (startConsensus_moves begun) proposed
  · exact .added usable busy (addBlock_moves added)

/-- All the blocks of a cache come from another one. -/
def Within (origin node : Node) : Prop := ∀ block, node.Caches block → origin.Caches block

theorem cached_within (within : Within origin node) (kept : origin.Caches block) :
    Within origin (setup.cached block node) := by
  intro other listed
  obtain rfl | before := mem_values_insert listed
  · exact kept
  · exact within other before

theorem addBlock_within (within : Within origin node) (kept : origin.Caches block)
    (run : setup.addBlock (setup.changeView depth) block node = (.ok (), after)) : Within origin after := by
  have moves : setup.Moves (Message.changeView.occasion none False) _ after := addBlock_moves run
  have same := (moves_stands moves).2
  intro other listed
  rw [Node.Caches, same] at listed
  exact cached_within within kept other listed

theorem reload_stages {blocks : List Block} (told : message.Carries payload)
    (kept : ∀ block ∈ blocks, origin.Caches block) (within : Within origin node)
    (run : blocks.forM (setup.addBlock (setup.changeView depth)) node = (.ok (), after)) :
    setup.Stages message origin node after ∧ Within origin after := by
  induction blocks generalizing node with
  | nil =>
    obtain ⟨_, rfl⟩ := pure_ok_iff.1 run
    exact ⟨.refl, within⟩
  | cons block rest ih =>
    obtain ⟨_, between, added, others⟩ := bind_ok_iff.1 run
    have here := kept block mem_cons_self
    obtain ⟨stages, final⟩ := ih (fun other listed => kept other (mem_cons_of_mem _ listed))
      (addBlock_within within here added) others
    exact ⟨.head (.event (.reload told here)) (.head (.dispatch told.processes (addBlock_moves added)) stages), final⟩

theorem clearInactiveData_stages (told : message.Carries payload) (within : Within origin node)
    (run : setup.clearInactiveData depth node = (.ok (), after)) :
    setup.Stages message origin node after ∧ Within origin after := by
  simp only [clearInactiveData, bind_ok_iff, this_bind, update_ok_iff, when_ok_iff] at run
  obtain ⟨_, _, rfl, _, middle, reloaded, emergency⟩ := run
  have unloaded : setup.Stages message origin node
      { node with consensusBlocks := ∅, consensusBlockList := [] } :=
    .head (.event (.unload told)) (.single (.event (.aside { node.aside with consensusBlockList := [] } rfl)))
  have kept : ∀ block ∈ (setup.runtime.iterate (GoMap.values node.consensusBlocks)).filter
      node.surroundings.isBlockValid, origin.Caches block := by
    intro block listed
    have listed := (setup.runtime.iterate_perm _).mem_iff.1 (mem_of_mem_filter listed)
    exact within block listed
  have empty : Within origin { node with consensusBlocks := ∅, consensusBlockList := [] } :=
    fun _ listed => absurd listed not_mem_values_empty
  have reload : setup.Stages message origin _ middle ∧ Within origin middle := reload_stages told kept empty reloaded
  obtain ⟨stages, within⟩ := reload
  obtain ⟨declared, rfl⟩ | ⟨_, rfl⟩ := emergency
  · exact ⟨(unloaded.trans stages).tail (.event (.emergency told declared)), within⟩
  · exact ⟨unloaded.trans stages, within⟩

theorem applySpecialTxPayload_stages (told : message.Carries payload) (within : Within origin node)
    (run : setup.applySpecialTxPayload payload node = (.ok accepted, after)) :
    setup.Stages message origin node after ∧ Within origin after := by
  simp only [applySpecialTxPayload, bind_ok_iff, this_bind, update_ok_iff, pure_ok_iff] at run
  obtain ⟨_, _, rfl, _, rfl⟩ := run
  exact ⟨.single (.event (.special told)), within⟩

theorem processInactiveTransactions_stages {txs : List Transaction}
    (listed : ∀ tx ∈ txs, tx ∈ block.transactions) (within : Within origin node)
    (run : setup.processInactiveTransactions depth txs node = (.ok accepted, after)) :
    setup.Stages (.block block valid) origin node after := by
  induction txs generalizing node with
  | nil =>
    obtain ⟨_, rfl⟩ := pure_ok_iff.1 run
    exact .refl
  | cons tx rest ih =>
    have others := fun tx member => listed tx (mem_cons_of_mem _ member)
    unfold processInactiveTransactions at run
    cases evidence : inactivePayload? tx with
    | none =>
      simp only [evidence] at run
      exact ih others within run
    | some payload =>
      have told : (Message.block block valid).Carries payload := .included (listed tx mem_cons_self) evidence
      simp only [evidence, bind_ok_iff, ite_ok_iff, pure_ok_iff] at run
      obtain ⟨_, _, applied, ⟨_, _, _, cleared, run⟩ | ⟨_, _, rfl⟩⟩ := run
      · obtain ⟨first, within⟩ := applySpecialTxPayload_stages told within applied
        obtain ⟨second, within⟩ := clearInactiveData_stages told within cleared
        exact (first.trans second).trans (ih others within run)
      · exact (applySpecialTxPayload_stages told within applied).1

theorem onBlockReceived_stages (run : setup.onBlockReceived depth block valid origin = (.ok (), after)) :
    ∃ middle, setup.Stages (.block block valid) origin origin middle ∧
      setup.Ending (.block block valid) origin middle after := by
  simp only [onBlockReceived, bind_ok_iff, this_bind, when_ok_iff] at run
  obtain ⟨arbiter, _, middle, processed, run⟩ | ⟨_, rfl⟩ := run
  · refine ⟨middle, processInactiveTransactions_stages (fun _ => id) (fun _ => id) processed, ?_⟩
    obtain ⟨⟨_, tall, higher, rfl⟩, run⟩ | ⟨_, rfl⟩ := run
    · exact tryStartNewConsensus_ending arbiter ⟨rfl, tall, higher⟩ run
    · exact .done
  · exact ⟨origin, .refl, .done⟩

theorem confirmBlock_stages {blockHash : Uint256} (told : message.Concludes height)
    (run : setup.confirmBlock height blockHash origin = (.ok (), after)) :
    setup.Stages message origin origin after := by
  simp only [confirmBlock, bind_ok_iff, update_ok_iff] at run
  obtain ⟨_, middle, finished, rfl⟩ := run
  obtain ⟨onDuty, rfl⟩ := finishConsensus_ok finished
  exact .head (.event (.conclude blockHash onDuty told))
    (.single (.event (.aside { Node.aside _ with notHandledProposal := ∅ } rfl)))

theorem onConfirmedBlockReceived_stages (run : setup.onConfirmedBlockReceived block origin = (.ok (), after)) :
    setup.Stages (.confirmedBlock block) origin origin after := by
  simp only [onConfirmedBlockReceived, bind_ok_iff, update_ok_iff] at run
  obtain ⟨_, _, confirmed, _, middle, duty, rfl⟩ := run
  exact ((confirmBlock_stages (.block block) confirmed).trans (changeOnDuty_stages duty)).tail
    (.event (.aside { middle.aside with cachedProposals := _ } rfl))

theorem onConfirmReceived_stages {confirm : Confirm}
    (run : setup.onConfirmReceived confirm height origin = (.ok (), after)) :
    setup.Stages (.confirm confirm height) origin origin after := by
  simp only [onConfirmReceived, bind_ok_iff, this_bind, when_ok_iff] at run
  obtain ⟨_, _, _, confirmed, duty⟩ | ⟨_, rfl⟩ := run
  · exact (confirmBlock_stages (.confirm confirm height) confirmed).trans (changeOnDuty_stages duty)
  · exact .refl

theorem onInactiveArbitratorsAccepted_stages
    (run : setup.onInactiveArbitratorsAccepted depth payload origin = (.ok (), after)) :
    setup.Stages (.inactiveArbitratorsAccepted payload) origin origin after := by
  simp only [onInactiveArbitratorsAccepted, bind_ok_iff, this_bind, when_ok_iff] at run
  obtain ⟨_, _, _, applied, cleared⟩ | ⟨_, rfl⟩ := run
  · obtain ⟨first, within⟩ := applySpecialTxPayload_stages (.accepted payload) (fun _ => id) applied
    exact first.trans (clearInactiveData_stages (.accepted payload) within cleared).1
  · exact .refl

end Blocks

section Recovery
variable {status : ConsensusStatus}

theorem onResponseConsensus_stages {id : Bytes} (run : setup.onResponseConsensus id status origin = (.ok (), after)) :
    setup.Stages message origin origin after := by
  simp only [onResponseConsensus, this_bind, when_ok_iff, update_ok_iff] at run
  obtain ⟨_, rfl⟩ | ⟨_, rfl⟩ := run
  · exact .single (.event (.aside { origin.aside with statusMap := _ } rfl))
  · exact .refl

theorem onRecover_stages (run : setup.onRecover origin = (.ok (), after)) :
    setup.Stages message origin origin after := by
  simp only [onRecover, bind_ok_iff, this_bind, when_ok_iff] at run
  obtain ⟨_, _, _, duty, run⟩ | ⟨_, rfl⟩ := run
  · exact (changeOnDuty_stages duty).trans (recoverAbnormalState_stages run)
  · exact .refl

theorem recoverAbnormal_stages {startTimes : List Int} (collected : origin.Collected status)
    (unready : status.consensusStatus ≠ consensusReady) (listed : startTimes ≠ [])
    (times : ∀ time ∈ startTimes, ∃ other, origin.Collected other ∧ other.viewStartTime = time)
    (run : setup.recoverAbnormal status startTimes origin = (.ok (), after)) :
    setup.Stages .recoverTimeout origin origin after := by
  simp only [recoverAbnormal, adjustedTime, bind_ok_iff, this_bind, update_ok_iff, pure_ok_iff, when_ok_iff] at run
  obtain ⟨_, _, ⟨_, _, rfl, rfl, rfl⟩, _, _, ⟨_, _, rfl, rfl, rfl⟩, ⟨abnormal, rfl⟩ | ⟨_, rfl⟩⟩ := run
  · exact .head (.event (.recover _ rfl abnormal collected unready listed times))
      (.single (.event (.aside { Node.aside _ with
        readings := origin.readings + 2, isAbnormal := false } rfl)))
  · exact .single (.event (.aside { origin.aside with readings := origin.readings + 2 } rfl))

theorem doRecover_stages (run : setup.doRecover origin = (.ok (), after)) :
    setup.Stages .recoverTimeout origin origin after := by
  simp only [doRecover, this_bind] at run
  generalize chosen : maxCountMaxViewOffset (setup.runtime.iterate (GoMap.pairs origin.statusMap)) = viewOffset at run
  have members : ∀ status ∈ setup.runtime.iterate
      (GoMap.values ((origin.statusMap.lookup viewOffset).getD ∅)), origin.Collected status := by
    intro status listed
    have listed := (setup.runtime.iterate_perm _).mem_iff.1 listed
    cases found : origin.statusMap.lookup viewOffset with
    | none =>
      rw [found] at listed
      exact absurd listed not_mem_values_empty
    | some statuses =>
      rw [found] at listed
      exact ⟨viewOffset, statuses, found, listed⟩
  cases statuses : setup.runtime.iterate (GoMap.values ((origin.statusMap.lookup viewOffset).getD ∅)) with
  | nil => simp only [statuses, crash_ok_iff] at run
  | cons status rest =>
    rw [statuses] at members
    simp only [statuses, bind_ok_iff, when_ok_iff, update_ok_iff] at run
    obtain ⟨_, middle, ⟨unready, run⟩ | ⟨_, rfl⟩, rfl⟩ := run
    · have times : ∀ time ∈ (status :: rest).map (·.viewStartTime),
          ∃ other, origin.Collected other ∧ other.viewStartTime = time := by
        intro time listed
        obtain ⟨other, member, equal⟩ := mem_map.1 listed
        exact ⟨other, members other member, equal⟩
      have stages := recoverAbnormal_stages (members status mem_cons_self) unready (cons_ne_nil _ _) times run
      exact stages.tail (.event (.aside { middle.aside with notHandledProposal := ∅ } rfl))
    · exact .single (.event (.aside { origin.aside with notHandledProposal := ∅ } rfl))

theorem onRecoverTimeout_stages (run : setup.onRecoverTimeout origin = (.ok (), after)) :
    setup.Stages .recoverTimeout origin origin after := by
  simp only [onRecoverTimeout, bind_ok_iff, this_bind, when_ok_iff, update_ok_iff] at run
  obtain ⟨_, _, middle, recovered, rfl⟩ | ⟨_, rfl⟩ := run
  · have reset : setup.Stage .recoverTimeout origin middle
        { middle with recoverStarted := false, statusMap := ∅ } :=
      .event (.aside { middle.aside with recoverStarted := false, statusMap := ∅ } rfl)
    obtain ⟨_, run⟩ | ⟨_, rfl⟩ := recovered
    · exact (doRecover_stages run).tail reset
    · exact .single reset
  · exact .refl

end Recovery

/-- A message is handled in stages, after which a block may start a round. -/
theorem handle_stages (run : setup.handle depth message origin = (.ok (), after)) :
    ∃ middle, setup.Stages message origin origin middle ∧ setup.Ending message origin middle after := by
  cases message with
  | proposal id proposal => exact ⟨after, onProposalReceived_stages run, .done⟩
  | acceptVote vote => exact ⟨after, onVoteAccepted_stages run, .done⟩
  | rejectVote vote => exact ⟨after, onVoteRejected_stages run, .done⟩
  | changeView => exact ⟨after, tryChangeView_stages trivial run, .done⟩
  | block block valid => exact onBlockReceived_stages run
  | confirmedBlock block => exact ⟨after, onConfirmedBlockReceived_stages run, .done⟩
  | confirm confirm height => exact ⟨after, onConfirmReceived_stages run, .done⟩
  | inactiveArbitratorsAccepted payload =>
    exact ⟨after, onInactiveArbitratorsAccepted_stages run, .done⟩
  | responseConsensus id status => exact ⟨after, onResponseConsensus_stages run, .done⟩
  | recover => exact ⟨after, onRecover_stages run, .done⟩
  | recoverTimeout => exact ⟨after, onRecoverTimeout_stages run, .done⟩
  | elsewhere surroundings =>
    simp only [handle, update_ok_iff] at run
    subst run
    exact ⟨_, .single (.event (.elsewhere rfl)), .done⟩

end Stages
end Setup
end Elastos.Manager
