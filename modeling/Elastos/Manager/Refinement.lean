import Elastos.Manager.Moves

/-! The methods of the dispatcher only make moves. -/
set_option autoImplicit false
namespace Elastos.Manager
open Go Common Elastos.Types Dpos Method GoMap
open Relation (ReflTransGen)
namespace Setup
variable {setup : Setup} {change : Act Unit} {node after : Node} {vote : DPOSProposalVote}
  {proposal : DPOSProposal} {block : Block} {occasion : Occasion}

section Votes

theorem changeOnDuty_ok (run : setup.changeOnDuty node = (.ok (), after)) : ∃ onDuty, after = { node with onDuty } := by
  simp only [changeOnDuty, switchTo, bind_ok_iff, this_bind, lift_ok_iff, update_ok_iff] at run
  obtain ⟨_, _, ⟨_, rfl⟩, rfl⟩ := run
  exact ⟨_, rfl⟩

theorem finishConsensus_ok {height : UInt32} {blockHash : Uint256}
    (run : setup.finishConsensus height blockHash node = (.ok (), after)) :
    ∃ onDuty, after = node.concluded height blockHash onDuty := by
  simp only [finishConsensus, bind_ok_iff, this_bind, when_ok_iff, update_ok_iff] at run
  obtain ⟨running, _, _, rfl, _, _, duty, rfl⟩ | ⟨idle, rfl⟩ := run
  · obtain ⟨onDuty, rfl⟩ := changeOnDuty_ok duty
    exact ⟨onDuty, by rw [Node.concluded, if_pos running]; rfl⟩
  · exact ⟨false, by rw [Node.concluded, if_neg idle]⟩

variable {result : Bool × Bool} {votes : List DPOSProposalVote} {finished : Bool}

theorem finishProposal_ok (run : setup.finishProposal node = (.ok finished, after)) :
    finished = false ∧ node.processingBlock = none ∧ after = node ∨
      finished = true ∧ ∃ block proposal onDuty, node.processingBlock = some block ∧
        node.processingProposal = some proposal ∧
        after = (node.handedOver setup.runtime block proposal).concluded block.height
          (block.hash setup.prim) onDuty := by
  simp only [finishProposal, appendConfirm, this_bind] at run
  obtain processes | ⟨block, processes⟩ := Option.eq_none_or_eq_some node.processingBlock
  · simp only [processes, pure_ok_iff] at run
    obtain ⟨rfl, rfl⟩ := run
    exact .inl ⟨rfl, processes, rfl⟩
  obtain proposed | ⟨proposal, proposed⟩ := Option.eq_none_or_eq_some node.processingProposal
  · simp only [processes, proposed, crash_ok_iff] at run
  simp only [processes, proposed, bind_ok_iff, pure_ok_iff] at run
  obtain ⟨_, _, appended, _, _, finish, rfl, rfl⟩ := run
  have handed : node.handedOver setup.runtime block proposal = _ := update_ok_iff.1 appended
  obtain ⟨onDuty, rfl⟩ := finishConsensus_ok finish
  exact .inr ⟨rfl, block, proposal, onDuty, processes, proposed, by rw [handed]⟩

theorem countAcceptedVote_processed (countable : setup.Countable node vote)
    (run : setup.countAcceptedVote vote node = (.ok result, after)) :
    setup.Processed change vote true node result after := by
  simp only [countAcceptedVote, ite_ok_iff, bind_ok_iff, update_ok_iff, this_bind, pure_ok_iff] at run
  obtain ⟨said, _, _, rfl, counted⟩ | ⟨said, rfl, rfl⟩ := run
  · obtain ⟨enough, finished, _, finish, rfl, rfl⟩ | ⟨fewer, rfl, rfl⟩ := counted
    · obtain ⟨rfl, idle, rfl⟩ | ⟨rfl, block, proposal, onDuty, processes, proposed, rfl⟩ :=
        finishProposal_ok finish
      · exact .accepted countable said rfl (.inl idle)
      · exact .confirmed block proposal onDuty countable said rfl enough processes proposed
    · exact .accepted countable said rfl (.inr fewer)
  · exact .dropped fun counted => said counted.2

theorem countRejectedVote_processed (countable : setup.Countable node vote)
    (run : setup.countRejectedVote change vote node = (.ok result, after)) :
    setup.Processed change vote false node result after := by
  simp only [countRejectedVote, ite_ok_iff, bind_ok_iff, update_ok_iff, this_bind, pure_ok_iff] at run
  obtain ⟨said, _, _, rfl, counted⟩ | ⟨said, rfl, rfl⟩ := run
  · obtain ⟨enough, _, _, rfl, _, _, changed, rfl, rfl⟩ | ⟨fewer, rfl, rfl⟩ := counted
    · exact .outvoted _ countable said rfl enough changed
    · exact .rejected countable said rfl fewer
  · exact .dropped fun counted => said counted.2

theorem generateProposalEvidence_ok
    (run : generateProposalEvidence proposal node = (.ok (), after)) : after = node := by
  simp only [generateProposalEvidence, this_bind] at run
  cases found : node.consensusBlocks.lookup proposal.blockHash with
  | none => simp only [found, crash_ok_iff] at run
  | some block =>
    simp only [found, pure_ok_iff] at run
    exact run.2.symm

theorem processIllegalVote_ok {other : DPOSProposalVote}
    (run : processIllegalVote vote other node = (.ok (), after)) : after = node := by
  simp only [processIllegalVote, this_bind] at run
  cases first : node.cachedProposals.lookup vote.proposalHash with
  | none =>
    simp only [first, pure_ok_iff] at run
    exact run.2.symm
  | some firstProposal =>
    cases second : node.cachedProposals.lookup other.proposalHash with
    | none =>
      simp only [first, second, pure_ok_iff] at run
      exact run.2.symm
    | some secondProposal =>
      simp only [first, second, bind_ok_iff] at run
      obtain ⟨_, _, firstEvidence, secondEvidence⟩ := run
      rw [generateProposalEvidence_ok secondEvidence, generateProposalEvidence_ok firstEvidence]

theorem processVote_processed {accept : Bool} (run : setup.processVote change vote accept node = (.ok result, after)) :
    setup.Processed change vote accept node result after := by
  simp only [processVote, this_bind, ite_ok_iff] at run
  obtain ⟨unchecked, run⟩ | ⟨checked, ⟨known, run⟩ | ⟨new, run⟩⟩ := run
  · obtain ⟨rfl, rfl⟩ := pure_ok_iff.1 run
    exact .dropped fun counted => by simp [counted.1.1] at unchecked
  · obtain ⟨rfl, rfl⟩ := pure_ok_iff.1 run
    exact .dropped fun counted => by simp [counted.1.2.1] at known
  cases illegal : node.illegalVote? setup.prim setup.runtime vote with
  | some other =>
    simp only [illegal, bind_ok_iff, pure_ok_iff] at run
    obtain ⟨_, _, evidence, rfl, rfl⟩ := run
    rw [processIllegalVote_ok evidence]
    exact .dropped fun counted => by simp [counted.1.2.2] at illegal
  | none =>
    have countable : setup.Countable node vote := ⟨by simpa using checked, by simpa using new, illegal⟩
    cases accept with
    | true =>
      simp only [illegal, if_true] at run
      exact countAcceptedVote_processed countable run
    | false =>
      simp only [illegal, Bool.false_eq_true, if_false] at run
      exact countRejectedVote_processed countable run

theorem Tally.frame (tally : setup.Tally proposal votes node after) :
    ∃ acceptVotes rejectedVotes, after = node.withVotes acceptVotes rejectedVotes := by
  induction tally with
  | nil => exact ⟨_, _, rfl⟩
  | skip _ _ ih => exact ih
  | accept _ _ _ _ _ ih | reject _ _ _ _ ih =>
    obtain ⟨acceptVotes, rejectedVotes, rfl⟩ := ih
    exact ⟨acceptVotes, rejectedVotes, rfl⟩

/-- The waiting votes are counted up to the end or up to one that ends the round. -/
inductive PendingProcessed (setup : Setup) (change : Act Unit) (proposal : DPOSProposal)
    (votes : List DPOSProposalVote) (node : Node) : Bool → Node → Prop where
  | counted {counted : Node} (tally : setup.Tally proposal votes node counted) :
      PendingProcessed setup change proposal votes node false counted.settled
  | ended {first rest : List DPOSProposalVote} {vote : DPOSProposalVote} {counted after : Node}
      (split : votes = first ++ vote :: rest) (tally : setup.Tally proposal first node counted)
      (named : vote.proposalHash = proposal.hash setup.prim)
      (processed : setup.Processed change vote vote.accept counted (true, true) after) :
      PendingProcessed setup change proposal votes node true after

/-- A vote that does not end the round comes before the others. -/
theorem PendingProcessed.cons {next : Node}
    (others : PendingProcessed setup change proposal votes next finished after)
    (add : ∀ {others : List DPOSProposalVote} {counted : Node}, setup.Tally proposal others next counted →
        setup.Tally proposal (vote :: others) node counted) :
    PendingProcessed setup change proposal (vote :: votes) node finished after := by
  cases others with
  | counted tally => exact .counted (add tally)
  | ended split tally named processed =>
    exact .ended (congrArg (vote :: ·) split) (add tally) named processed

theorem processPendingVotes_processed
    (run : setup.processPendingVotes change proposal votes node = (.ok finished, after)) :
    PendingProcessed setup change proposal votes node finished after := by
  induction votes generalizing node with
  | nil =>
    simp only [processPendingVotes, bind_ok_iff, update_ok_iff, pure_ok_iff] at run
    obtain ⟨_, _, rfl, rfl, rfl⟩ := run
    exact .counted (.nil node)
  | cons vote rest ih =>
    simp only [processPendingVotes, ite_ok_iff, bind_ok_iff] at run
    obtain ⟨named, result, next, run, ⟨ended, returned⟩ | ⟨continued, others⟩⟩ | ⟨other, others⟩ := run
    · obtain ⟨rfl, rfl⟩ := pure_ok_iff.1 returned
      have processed := processVote_processed run
      have counted : result = (true, true) := by
        cases processed <;> first | rfl | cases ended
      rw [counted] at processed
      exact .ended rfl (.nil node) named processed
    · cases processVote_processed run with
      | dropped uncounted => exact (ih others).cons (.skip fun _ countable => uncounted ⟨countable, rfl⟩)
      | accepted countable said _ fewer => exact (ih others).cons (.accept named said countable fewer)
      | rejected countable said => exact (ih others).cons (.reject named said countable)
      | confirmed | outvoted => exact absurd rfl continued
    · exact (ih others).cons (.skip fun named => absurd named other)

end Votes

/-- A change of the view, followed by moves. -/
def Turns (setup : Setup) (change : Act Unit) : Prop :=
  ∀ occasion node after, node.isRunning ∨ occasion.late → change node = (.ok (), after) →
    ∃ cleaned : Bool, (cleaned = true → 0 < setup.offsetAt (setup.clock node.readings) node) ∧
      setup.Moves occasion (setup.turned (setup.clock node.readings) cleaned node) after

section Stands
variable {surroundings : Surroundings} {blocks : GoMap Uint256 Block}

theorem concluded_stands {height : UInt32} {blockHash : Uint256} {onDuty : Bool}
    (stands : node.Stands surroundings blocks) :
    (node.concluded height blockHash onDuty).Stands surroundings blocks := by
  apply Node.concluded_elim <;> exact fun _ => stands

theorem turned_stands {now : Int} {cleaned : Bool} (stands : node.Stands surroundings blocks) :
    (setup.turned now cleaned node).Stands surroundings blocks := by
  cases cleaned <;> exact stands

theorem Tally.stands {votes : List DPOSProposalVote} (tally : setup.Tally proposal votes node after) :
    after.Stands node.surroundings node.consensusBlocks := by
  obtain ⟨_, _, rfl⟩ := tally.frame
  exact ⟨rfl, rfl⟩

theorem Accepted.stands {opened : Node} (accepted : setup.Accepted opened proposal after) :
    after.Stands opened.surroundings opened.consensusBlocks := by
  cases accepted with
  | watched tally => exact tally.stands
  | voted tally _ processed => obtain ⟨rfl, _⟩ | ⟨rfl, _⟩ := processed <;> exact tally.stands
  | completed onDuty tally | confirmed onDuty _ tally => exact concluded_stands tally.stands
  | outvoted now cleaned _ tally => exact turned_stands tally.stands

theorem Move.stands (move : setup.Move occasion node after) : after.Stands node.surroundings node.consensusBlocks := by
  cases move with
  | aside | speculate => exact ⟨rfl, rfl⟩
  | accept opening accepted => cases opening <;> exact accepted.stands
  | reject _ _ stands => exact stands

theorem moves_stands (moves : setup.Moves occasion node after) :
    after.Stands node.surroundings node.consensusBlocks := by
  induction moves with
  | refl => exact ⟨rfl, rfl⟩
  | tail _ move ih => exact ⟨move.stands.1.trans ih.1, move.stands.2.trans ih.2⟩

/-- Changing the view keeps the surroundings even where the node is not running: it would make the
same moves on an occasion on which that does not matter. -/
theorem Turns.stands (turns : setup.Turns change) (run : change node = (.ok (), after)) :
    after.Stands node.surroundings node.consensusBlocks := by
  obtain ⟨cleaned, _, moves⟩ := turns ⟨fun _ => False, fun _ => False, True⟩ node after (.inr trivial) run
  have stands := moves_stands moves
  cases cleaned <;> exact stands

theorem Processed.stands {accept : Bool} {result : Bool × Bool} (turns : setup.Turns change)
    (processed : setup.Processed change vote accept node result after) :
    after.Stands node.surroundings node.consensusBlocks := by
  cases processed with
  | dropped | accepted | rejected => exact ⟨rfl, rfl⟩
  | confirmed => exact concluded_stands ⟨rfl, rfl⟩
  | outvoted _ _ _ _ _ changed =>
    have stands := turns.stands changed
    exact stands

theorem rejectProposal_stands (turns : setup.Turns change)
    (run : setup.rejectProposal change proposal node = (.ok (), after)) :
    after.Stands node.surroundings node.consensusBlocks := by
  simp only [rejectProposal, setProcessingProposal, bind_ok_iff, update_ok_iff, this_bind] at run
  obtain ⟨_, middle, ⟨_, _, rfl, counting⟩, cast⟩ := run
  have counted : middle.Stands node.surroundings node.consensusBlocks := by
    cases processPendingVotes_processed counting with
    | counted tally => exact tally.stands
    | ended _ tally _ processed =>
      obtain ⟨_, _, rfl⟩ := tally.frame
      have stands := processed.stands turns
      exact stands
  obtain ⟨_, cast⟩ | ⟨_, rfl⟩ := when_ok_iff.1 cast
  · simp only [castRejectVote, bind_ok_iff, this_bind, update_ok_iff] at cast
    obtain ⟨_, _, voted, rfl⟩ := cast
    have stands := (processVote_processed voted).stands turns
    exact ⟨stands.1.trans counted.1, stands.2.trans counted.2⟩
  · exact counted

end Stands

section Accepting
variable {opened counted : Node}

theorem castAcceptVote_accepted
    (tally : setup.Tally proposal (setup.pending opened) (processing proposal opened) counted)
    (arbiter : setup.isCurrentArbiter opened = true) (processes : opened.processingBlock = some block)
    (run : setup.castAcceptVote change proposal counted.settled = (.ok (), after)) :
    setup.Accepted opened proposal after := by
  obtain ⟨acceptVotes, rejectedVotes, same⟩ := tally.frame
  have sameBlock : counted.settled.processingBlock = opened.processingBlock := by rw [same]; rfl
  have sameProposal : counted.processingProposal = some proposal := by rw [same]; rfl
  simp only [castAcceptVote, bind_ok_iff, this_bind, update_ok_iff] at run
  obtain ⟨result, _, run, rfl⟩ := run
  rw [sameBlock]
  cases processVote_processed run with
  | dropped uncounted => exact .voted tally arbiter (.inl ⟨rfl, fun countable =>
    uncounted ⟨countable, rfl⟩⟩)
  | accepted countable => exact .voted tally arbiter (.inr ⟨rfl, countable⟩)
  | confirmed block' proposal' onDuty countable _ _ enough processes' proposed =>
    have : block' = block := Option.some.inj (processes'.symm.trans (sameBlock.trans processes))
    subst this
    have : proposal' = proposal := Option.some.inj (proposed.symm.trans sameProposal)
    subst this
    exact .completed onDuty tally arbiter countable enough processes
  | rejected _ _ asked => cases asked
  | outvoted _ _ _ asked => cases asked

theorem acceptProposal_moves (run : setup.acceptProposal change proposal opened = (.ok (), after))
    (turns : setup.Turns change) (began : opened.isRunning ∨ occasion.late)
    (processes : opened.processingBlock = some block) : ∃ accepted, setup.Accepted opened proposal accepted ∧
      setup.Moves occasion accepted after := by
  simp only [acceptProposal, setProcessingProposal, bind_ok_iff, update_ok_iff, this_bind] at run
  obtain ⟨finished, _, ⟨_, _, rfl, counting⟩, cast⟩ := run
  cases processPendingVotes_processed counting with
  | counted tally =>
    obtain ⟨acceptVotes, rejectedVotes, same⟩ := tally.frame
    obtain ⟨⟨_, arbiter⟩, cast⟩ | ⟨outside, rfl⟩ := when_ok_iff.1 cast
    · rw [same] at arbiter
      exact ⟨after, castAcceptVote_accepted tally arbiter processes cast, .refl⟩
    · rw [same] at outside
      have outside := Bool.eq_false_iff.2 fun arbiter => outside ⟨rfl, arbiter⟩
      exact ⟨_, .watched tally outside, .refl⟩
  | @ended first rest vote counted _ split tally named processed =>
    obtain ⟨⟨open_, _⟩, _⟩ | ⟨_, rfl⟩ := when_ok_iff.1 cast
    · cases open_
    obtain ⟨acceptVotes, rejectedVotes, same⟩ := tally.frame
    cases processed with
    | confirmed block' proposal' onDuty countable said _ enough processes' proposed =>
      rw [same] at processes' proposed
      have : block' = block := Option.some.inj (processes'.symm.trans processes)
      subst this
      cases proposed
      exact ⟨_, .confirmed onDuty split tally named said countable enough processes, .refl⟩
    | outvoted _ countable said _ enough changed =>
      have still : ((counted.rejecting setup.prim vote).cleanProposals true).isRunning ∨ occasion.late := by
        rw [same]
        exact began
      obtain ⟨cleaned, _, moves⟩ := turns _ _ _ still changed
      exact ⟨_, .outvoted _ cleaned split tally named said countable enough, moves⟩

end Accepting

section Proposals

theorem Move.aside_same (aside : Aside) (same : aside.waiting = node.waiting) :
    setup.Move occasion node (node.setAside aside) := by
  apply Move.aside
  intro proposal waits
  rw [same] at waits
  exact .inl waits

theorem moves_aside (aside : Aside)
    (waits : ∀ proposal ∈ aside.waiting, proposal ∈ node.waiting ∨ occasion.brings proposal)
    (equal : node.setAside aside = after) : setup.Moves occasion node after :=
  equal ▸ .single (.aside aside waits)

theorem startProposal_moves (turns : setup.Turns change) (began : node.isRunning ∨ occasion.late)
    (known : node.Caches block ∧ node.finishedHeight < block.height ∨ occasion.starts block)
    (run : setup.startProposal change block node = (.ok (), after)) : setup.Moves occasion node after := by
  simp only [startProposal, this_bind] at run
  obtain idle | ⟨other, processes⟩ := Option.eq_none_or_eq_some node.processingBlock
  · simp only [idle, bind_ok_iff, update_ok_iff] at run
    obtain ⟨_, _, rfl, run⟩ := run
    obtain ⟨accepted, settled, moves⟩ := acceptProposal_moves run turns began rfl
    exact .head (.accept (.own block idle began known) settled) moves
  · simp only [processes, pure_ok_iff] at run
    exact run.2 ▸ .refl

variable {result : Bool × Bool} {self : Bool} {key : Uint256}

theorem speculate_moves (turns : setup.Turns change)
    (held : proposal ∈ node.waiting ∨ occasion.brings proposal)
    (current : proposal.viewOffset = node.viewOffset) (running : node.isRunning) (listed : node.Caches block)
    (run : setup.speculate change self proposal block node = (.ok result, after)) :
    setup.Moves occasion node after := by
  have speculated : setup.Moves occasion node
      { node with processingBlock := some (node.processingBlock.getD block) } := by
    cases processes : node.processingBlock with
    | none => exact .single (.speculate block running listed processes)
    | some other =>
      have same : { node with processingBlock := some ((some other).getD block) } = node := by
        rw [Option.getD_some, ← processes]
      rw [same]
  simp only [speculate, bind_ok_iff, update_ok_iff, this_bind, ite_ok_iff, pure_ok_iff, when_ok_iff] at run
  obtain ⟨_, _, rfl, ⟨_, _, rfl⟩ | ⟨level, ⟨_, _, rfl⟩ | ⟨named, _, _, ⟨unvoted, run⟩ | ⟨_, rfl⟩, _, rfl⟩⟩⟩ := run
  · exact speculated
  · exact speculated
  · obtain ⟨accepted, settled, moves⟩ := acceptProposal_moves run turns (.inl running) rfl
    exact .head (.accept (.heard proposal block _ held current running unvoted listed rfl
      (not_not.1 level) (not_not.1 named)) settled) moves
  · exact speculated

theorem moves_wait {pendingProposals precociousProposals : GoMap Uint256 DPOSProposal}
    (pending : ∀ proposal ∈ GoMap.values pendingProposals, proposal ∈ node.waiting ∨ occasion.brings proposal)
    (precocious : ∀ proposal ∈ GoMap.values precociousProposals, proposal ∈ node.waiting ∨ occasion.brings proposal) :
    setup.Moves occasion node { node with pendingProposals, precociousProposals } := by
  refine moves_aside { node.aside with pendingProposals, precociousProposals } ?_ rfl
  intro proposal waits
  exact (List.mem_append.1 waits).elim (pending proposal) (precocious proposal)

theorem mem_waiting_pending (listed : proposal ∈ GoMap.values node.pendingProposals) : proposal ∈ node.waiting :=
  List.mem_append_left _ listed

theorem mem_waiting_precocious (listed : proposal ∈ GoMap.values node.precociousProposals) : proposal ∈ node.waiting :=
  List.mem_append_right _ listed

variable (turns : setup.Turns change)
include turns

theorem processCurrent_moves (held : proposal ∈ node.waiting ∨ occasion.brings proposal)
    (valid : setup.proposalCheck node proposal = true) (current : proposal.viewOffset = node.viewOffset)
    (run : setup.processCurrent change self proposal node = (.ok result, after)) : setup.Moves occasion node after := by
  have pended : setup.Moves occasion node { node with
      pendingProposals := node.pendingProposals.insert (proposal.hash setup.prim) proposal } :=
    moves_wait (fun other listed => by
        obtain rfl | before := mem_values_insert listed
        · exact held
        · exact .inl (mem_waiting_pending before))
      fun _ listed => .inl (mem_waiting_precocious listed)
  simp only [processCurrent, bind_ok_iff, this_bind, lift_ok_iff, ite_ok_iff] at run
  obtain ⟨duty, _, ⟨onDuty, rfl⟩, ⟨differs, _, _, rejected, returned⟩ | ⟨_, run⟩⟩ := run
  · obtain ⟨_, rfl⟩ := pure_ok_iff.1 returned
    exact .single (.reject _ proposal (rejectProposal_stands turns rejected) held valid current duty onDuty differs)
  cases found : node.consensusBlocks.lookup proposal.blockHash with
  | none =>
    simp only [found, bind_ok_iff, update_ok_iff, pure_ok_iff] at run
    obtain ⟨_, _, rfl, _, rfl⟩ := run
    exact pended
  | some block =>
    simp only [found, ite_ok_iff, bind_ok_iff, update_ok_iff, pure_ok_iff] at run
    obtain ⟨running, run⟩ | ⟨_, _, _, rfl, _, rfl⟩ := run
    · have listed := mem_values_iff.2 ⟨_, found⟩
      exact speculate_moves turns held current running listed run
    · exact pended

theorem processProposal_moves {id : Bytes} {force : Bool} (held : proposal ∈ node.waiting ∨ occasion.brings proposal)
    (run : setup.processProposal change id proposal force node = (.ok result, after)) :
    setup.Moves occasion node after := by
  simp only [processProposal, bind_ok_iff, this_bind, ite_ok_iff, pure_ok_iff, when_ok_iff, update_ok_iff] at run
  obtain ⟨_, _, rfl⟩ | ⟨checked, ⟨_, _, rfl⟩ | ⟨_, ⟨_, _, rfl⟩ | ⟨_, ⟨_, _, rfl⟩ |
    ⟨_, ⟨_, _, _, ⟨_, rfl⟩ | ⟨_, rfl⟩, _, rfl⟩ | ⟨sameView, ⟨_, _, rfl⟩ | ⟨_, ⟨_, run⟩ | ⟨_, _, rfl⟩⟩⟩⟩⟩⟩⟩ := run
  case inr.inr.inr.inr.inl.inl =>
    refine moves_wait (fun _ listed => .inl (mem_waiting_pending listed)) fun other listed => ?_
    obtain rfl | before := mem_values_insert listed
    · exact held
    · exact .inl (mem_waiting_precocious before)
  case inr.inr.inr.inr.inr.inr.inl =>
    exact processCurrent_moves turns held (by simpa using checked) (not_not.1 sameView) run
  all_goals exact .refl

theorem processWaiting_moves (held : proposal ∈ node.waiting ∨ occasion.brings proposal)
    (run : setup.processWaiting change proposal node = (.ok (), after)) : setup.Moves occasion node after := by
  simp only [processWaiting, bind_ok_iff, when_ok_iff, update_ok_iff] at run
  obtain ⟨_, middle, run, ⟨_, rfl⟩ | ⟨_, rfl⟩⟩ := run
  · exact (processProposal_moves turns held run).tail (.aside_same { middle.aside with cachedProposals := _ } rfl)
  · exact processProposal_moves turns held run

theorem updatePrecocious_moves (run : setup.updatePrecocious change key node = (.ok (), after)) :
    setup.Moves occasion node after := by
  simp only [updatePrecocious, this_bind] at run
  cases found : node.precociousProposals.lookup key with
  | none =>
    simp only [found, pure_ok_iff] at run
    exact run.2 ▸ .refl
  | some proposal =>
    simp only [found, when_ok_iff, bind_ok_iff, update_ok_iff] at run
    obtain ⟨_, _, middle, run, rfl⟩ | ⟨_, rfl⟩ := run
    · have held := mem_waiting_precocious (mem_values_iff.2 ⟨key, found⟩)
      have moves : setup.Moves occasion node middle := processWaiting_moves turns (.inl held) run
      exact moves.trans (moves_wait (fun _ listed => .inl (mem_waiting_pending listed))
        fun _ listed => .inl (mem_waiting_precocious (mem_values_erase listed)))
    · exact .refl

theorem updatePrecociousProposals_moves
    (run : setup.updatePrecociousProposals change node = (.ok (), after)) : setup.Moves occasion node after := by
  simp only [updatePrecociousProposals, this_bind] at run
  exact forM_steps (fun _ _ _ _ => updatePrecocious_moves turns) run

theorem updatePending_moves (run : setup.updatePending change block key node = (.ok (), after)) :
    setup.Moves occasion node after := by
  simp only [updatePending, this_bind] at run
  cases found : node.pendingProposals.lookup key with
  | none =>
    simp only [found, pure_ok_iff] at run
    exact run.2 ▸ .refl
  | some proposal =>
    simp only [found, when_ok_iff, bind_ok_iff, update_ok_iff] at run
    obtain ⟨_, _, middle, run, rfl⟩ | ⟨_, rfl⟩ := run
    · have held := mem_waiting_pending (mem_values_iff.2 ⟨key, found⟩)
      have moves : setup.Moves occasion node middle := processWaiting_moves turns (.inl held) run
      exact moves.trans (moves_wait (fun _ listed => .inl (mem_waiting_pending (mem_values_erase listed)))
        fun _ listed => .inl (mem_waiting_precocious listed))
    · exact .refl

theorem onBlockAdded_moves (run : setup.onBlockAdded change block node = (.ok (), after)) :
    setup.Moves occasion node after := by
  simp only [onBlockAdded, this_bind] at run
  exact forM_steps (fun _ _ _ _ => updatePending_moves turns) run

end Proposals

section Views

section
variable (turns : setup.Turns change) (began : node.isRunning ∨ occasion.late)
include turns began

/-- The current handler cleans the proposals, and the one of an arbiter on duty then
proposes the first block. -/
theorem changeViewOfHandler_moves {firstBlockHash : Uint256} (higher : ∀ block, node.onDuty = true →
      node.consensusBlocks.lookup firstBlockHash = some block → node.finishedHeight < block.height)
    (run : setup.changeViewOfHandler change firstBlockHash node = (.ok (), after)) :
    setup.Moves occasion (node.cleanProposals true) after ∨ after = node := by
  simp only [changeViewOfHandler, this_bind] at run
  cases duty : node.onDuty with
  | false =>
    simp only [duty, update_ok_iff] at run
    exact .inl (run ▸ .refl)
  | true =>
    cases found : node.consensusBlocks.lookup firstBlockHash with
    | none =>
      simp only [duty, found, pure_ok_iff] at run
      exact .inr run.2.symm
    | some block =>
      simp only [duty, found, bind_ok_iff, update_ok_iff] at run
      obtain ⟨_, _, rfl, run⟩ := run
      have known : (node.cleanProposals true).Caches block ∧ _ := ⟨mem_values_iff.2 ⟨_, found⟩, higher block duty found⟩
      exact .inl (startProposal_moves turns began (.inl known) run)

theorem onViewChanged_moves {isOnDuty : Bool} (run : setup.onViewChanged change isOnDuty node = (.ok (), after)) :
    setup.Moves occasion (node.cleanProposals true) after ∨ setup.Moves occasion node after := by
  simp only [onViewChanged, switchTo, bind_ok_iff, update_ok_iff, this_bind, when_ok_iff] at run
  obtain ⟨_, _, rfl, ⟨usable, _, middle, handled, run⟩ | ⟨_, rfl⟩⟩ := run
  · have updated : setup.Moves occasion middle after := updatePrecociousProposals_moves turns run
    have higher : ∀ block, isOnDuty = true →
        node.consensusBlocks.lookup (node.consensusBlockList.head?.getD default) = some block →
        node.finishedHeight < block.height := by
      intro block duty found
      obtain idle | ⟨first, known, above⟩ := usable
      · rw [idle] at duty
        cases duty
      obtain ⟨hash, listed, looked⟩ := Option.bind_eq_some_iff.1 known
      rw [listed, Option.getD_some, looked] at found
      cases found
      exact above
    obtain moves | rfl := changeViewOfHandler_moves turns
      (show Node.isRunning { node with onDuty := isOnDuty } ∨ _ from began) higher handled
    · exact .inl (.head (.aside_same { (node.cleanProposals true).aside with onDuty := isOnDuty }
        rfl) (moves.trans updated))
    · exact .inr (.head (.aside_same { node.aside with onDuty := isOnDuty } rfl) updated)
  · exact .inr (.single (.aside_same { node.aside with onDuty := isOnDuty } rfl))

theorem changeViewAt_moves {now : Int} (run : setup.changeViewAt change now node = (.ok (), after)) :
    ∃ cleaned : Bool, (cleaned = true → 0 < setup.offsetAt now node) ∧
      setup.Moves occasion (setup.turned now cleaned node) after := by
  simp only [changeViewAt, bind_ok_iff, this_bind, update_ok_iff, when_ok_iff, lift_ok_iff] at run
  obtain ⟨_, _, rfl, ⟨later, _, _, ⟨_, rfl⟩, run⟩ | ⟨_, rfl⟩⟩ := run
  · obtain moves | moves := onViewChanged_moves turns (show (setup.viewAt now node).isRunning ∨ _ from began) run
    · exact ⟨true, fun _ => later, moves⟩
    · exact ⟨false, Bool.noConfusion, moves⟩
  · exact ⟨false, Bool.noConfusion, .refl⟩

end

theorem moves_reading {cleaned : Bool} {now : Int} {readings : Nat}
    (moves : setup.Moves occasion (setup.turned now cleaned { node with readings }) after) :
    setup.Moves occasion (setup.turned now cleaned node) after := by
  refine .head ?_ moves
  cases cleaned <;> exact .aside_same { (setup.turned now _ node).aside with readings } rfl

theorem changeView_moves {depth : Nat} (run : setup.changeView depth node = (.ok (), after))
    (began : node.isRunning ∨ occasion.late) :
    ∃ cleaned : Bool, (cleaned = true → 0 < setup.offsetAt (setup.clock node.readings) node) ∧
      setup.Moves occasion (setup.turned (setup.clock node.readings) cleaned node) after := by
  induction depth generalizing occasion node after with
  | zero => exact (crash_ok_iff.1 run).elim
  | succ depth ih =>
    have turns : setup.Turns (setup.changeView depth) := fun _ _ _ began run => ih run began
    simp only [changeView, adjustedTime, bind_ok_iff, this_bind, update_ok_iff, pure_ok_iff] at run
    obtain ⟨_, _, ⟨_, _, rfl, rfl, rfl⟩, run⟩ := run
    obtain ⟨cleaned, later, moves⟩ := changeViewAt_moves turns
      (show Node.isRunning { node with readings := node.readings + 1 } ∨ _ from began) run
    exact ⟨cleaned, later, moves_reading moves⟩

theorem changeView_turns (depth : Nat) : setup.Turns (setup.changeView depth) :=
  fun _ _ _ began run => changeView_moves run began

end Views
end Setup
end Elastos.Manager
