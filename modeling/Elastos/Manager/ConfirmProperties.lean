import Elastos.Manager.Duty

/-! Confirms that an arbiter assembles. -/
set_option autoImplicit false
namespace Elastos.Manager
open Go Common Crypto Elastos.Types Dpos Blockchain GoMap List
open Relation (ReflTransGen)

/-- A confirm of the processed block by enough different arbiters. -/
structure Handover.Valid (prim : Primitives) (majority : Int) (handover : Handover) : Prop where
  accepted : ∀ vote ∈ handover.confirm.votes, vote.accept = true
  named : ∀ vote ∈ handover.confirm.votes, vote.proposalHash = handover.confirm.proposal.hash prim
  distinct : (handover.confirm.votes.map (·.signer)).Nodup
  enough : majority < (handover.confirm.votes.map (·.signer)).length
  block : handover.confirm.proposal.blockHash = handover.processingBlock.hash prim

namespace Setup
variable {setup : Setup} {message : Message} {origin node after : Node}
  {begun : Option Block} {late : Prop} {proposal : DPOSProposal} {block : Block} {vote : DPOSProposalVote}

section Ballots

/-- The votes that have been counted for a proposal, at most one of each signer. -/
structure Ballot (setup : Setup) (proposal : DPOSProposal) (acceptVotes : GoMap Uint256 DPOSProposalVote) : Prop where
  votes : ∀ key vote, acceptVotes.lookup key = some vote → key = vote.hash setup.prim ∧ vote.accept = true ∧
      vote.proposalHash = proposal.hash setup.prim
  apart : ∀ one ∈ GoMap.values acceptVotes, ∀ two ∈ GoMap.values acceptVotes,
    one.signer = two.signer → one.hash setup.prim = two.hash setup.prim

variable {acceptVotes : GoMap Uint256 DPOSProposalVote}

theorem Ballot.of_empty (empty : ∀ key, acceptVotes.lookup key = none) : setup.Ballot proposal acceptVotes := by
  constructor
  · intro key vote found
    rw [empty] at found
    cases found
  · intro one listed
    obtain ⟨key, found⟩ := mem_values_iff.1 listed
    rw [empty] at found
    cases found

theorem Ballot.named (ballot : setup.Ballot proposal acceptVotes) (listed : vote ∈ GoMap.values acceptVotes) :
    vote.accept = true ∧ vote.proposalHash = proposal.hash setup.prim := by
  obtain ⟨key, found⟩ := mem_values_iff.1 listed
  exact (ballot.votes key vote found).2

/-- A second vote of one signer on one proposal is not counted. -/
theorem Countable.apart (countable : setup.Countable node vote) {other : DPOSProposalVote}
    (listed : other ∈ GoMap.values node.acceptVotes) (signer : vote.signer = other.signer)
    (named : vote.proposalHash = other.proposalHash) : vote.hash setup.prim = other.hash setup.prim := by
  have legal := find?_eq_none.1 countable.2.2 other
    (mem_append_left _ ((setup.runtime.iterate_perm _).mem_iff.2 listed))
  by_contra differs
  apply legal
  rw [decide_eq_true_iff]
  exact ⟨signer, by rw [if_pos named]; exact differs⟩

variable (ballot : setup.Ballot proposal node.acceptVotes)
include ballot

theorem Ballot.accepting (countable : setup.Countable node vote) (said : vote.accept = true)
    (named : vote.proposalHash = proposal.hash setup.prim) :
    setup.Ballot proposal (node.accepting setup.prim vote).acceptVotes := by
  constructor
  · intro key other found
    rw [Node.accepting, lookup_insert_eq] at found
    split at found
    case isTrue same =>
      cases found
      exact ⟨same, said, named⟩
    case isFalse => exact ballot.votes key other found
  · have new : ∀ other ∈ GoMap.values node.acceptVotes, vote.signer = other.signer →
        vote.hash setup.prim = other.hash setup.prim := fun other listed signer =>
      countable.apart listed signer (named.trans (ballot.named listed).2.symm)
    intro one oneListed two twoListed signer
    obtain rfl | oneBefore := mem_values_insert oneListed
    · obtain rfl | twoBefore := mem_values_insert twoListed
      · rfl
      · exact new two twoBefore signer
    · obtain rfl | twoBefore := mem_values_insert twoListed
      · exact (new one oneBefore signer.symm).symm
      · exact ballot.apart one oneBefore two twoBefore signer

theorem Ballot.tally {votes : List DPOSProposalVote} (tally : setup.Tally proposal votes node after) :
    setup.Ballot proposal after.acceptVotes := by
  induction tally with
  | nil => exact ballot
  | skip _ _ ih => exact ih ballot
  | accept named said countable _ _ ih => exact ih (ballot.accepting countable said named)
  | reject _ _ _ _ ih => exact ih ballot

theorem Ballot.handover (enough : node.hasMajority) (named : proposal.blockHash = block.hash setup.prim) :
    Handover.Valid setup.prim node.surroundings.arbitrators.getArbitersMajorityCount {
      confirm := { proposal, votes := setup.runtime.iterate (GoMap.values node.acceptVotes) }
      processingBlock := block } := by
  have perm := setup.runtime.iterate_perm (GoMap.values node.acceptVotes)
  constructor
  · exact fun vote listed => (ballot.named (perm.mem_iff.1 listed)).1
  · exact fun vote listed => (ballot.named (perm.mem_iff.1 listed)).2
  · apply (perm.map (·.signer)).nodup_iff.2
    apply values_map_nodup
    intro first second one two firstFound secondFound signer
    rw [(ballot.votes first one firstFound).1, (ballot.votes second two secondFound).1]
    exact ballot.apart one (mem_values_iff.2 ⟨first, firstFound⟩) two (mem_values_iff.2 ⟨second, secondFound⟩) signer
  · rw [length_map, perm.length_eq, values_length]
    exact enough
  · exact named

end Ballots

/-- The arbiters stay the same while a message is handled. -/
def FixedArbiters (setup : Setup) (message : Message) (node : Node) : Prop :=
  ∀ surroundings, setup.Seen message node.surroundings surroundings → surroundings.arbitrators.currentArbitrators =
      node.surroundings.arbitrators.currentArbitrators

/-- What holds of a node between two messages: the votes are for the proposal that it
processes, and that one is for the block that it processes. -/
structure Sound (setup : Setup) (node : Node) : Prop where
  votes : ∀ key vote, node.acceptVotes.lookup key = some vote →
    ∃ proposal, node.processingProposal = some proposal ∧ setup.Ballot proposal node.acceptVotes
  block : ∀ proposal, node.processingProposal = some proposal →
    ∃ block, node.processingBlock = some block ∧ proposal.blockHash = block.hash setup.prim
  idle : node.proposalProcessFinished = false → node.processingProposal = none
  quiet : ¬ node.isRunning → node.pendingVotes = ∅
  outside : setup.isCurrentArbiter node = false → ¬ node.isRunning
  handed : ∀ handover ∈ node.handovers, handover.Valid setup.prim node.surroundings.arbitrators.getArbitersMajorityCount

section Sound

section
variable
  (same : after.surroundings.arbitrators.currentArbitrators = node.surroundings.arbitrators.currentArbitrators)

include same

theorem isCurrentArbiter_congr : setup.isCurrentArbiter after = setup.isCurrentArbiter node := by
  unfold isCurrentArbiter Arbitrators.isArbitrator Arbitrators.getArbitrators
  rw [same]

theorem majority_congr : after.surroundings.arbitrators.getArbitersMajorityCount =
      node.surroundings.arbitrators.getArbitersMajorityCount := by
  unfold Arbitrators.getArbitersMajorityCount
  rw [same]

end

theorem Sound.ballot (sound : setup.Sound node) (proposed : node.processingProposal = some proposal) :
    setup.Ballot proposal node.acceptVotes := by
  constructor
  · intro key vote found
    obtain ⟨current, same, ballot⟩ := sound.votes key vote found
    rw [proposed] at same
    cases same
    exact ballot.votes key vote found
  · intro one listed
    obtain ⟨key, found⟩ := mem_values_iff.1 listed
    obtain ⟨_, _, ballot⟩ := sound.votes key one found
    exact ballot.apart one listed

theorem Sound.unproposed (sound : setup.Sound node) (idle : node.processingProposal = none) :
    ∀ key, node.acceptVotes.lookup key = none := by
  intro key
  cases found : node.acceptVotes.lookup key with
  | none => rfl
  | some vote =>
    obtain ⟨_, proposed, _⟩ := sound.votes key vote found
    rw [idle] at proposed
    cases proposed

theorem Sound.clean {changeView : Bool} (outside : setup.isCurrentArbiter node = false → ¬ node.isRunning)
    (handed : ∀ handover ∈ node.handovers,
      handover.Valid setup.prim node.surroundings.arbitrators.getArbitersMajorityCount) :
    setup.Sound (node.cleanProposals changeView) where
  votes _ _ found := by cases found
  block _ proposed := by cases proposed
  idle _ := rfl
  quiet _ := rfl
  outside := outside
  handed := handed

section
variable {now : Int} {cleaned : Bool} (sound : setup.Sound node)
include sound

theorem Sound.turned :
    setup.Sound (setup.turned now cleaned node) := by
  cases cleaned with
  | false => exact { sound with }
  | true => exact .clean sound.outside sound.handed

theorem Sound.outvoted :
    setup.Sound (setup.turned now cleaned ((node.rejecting setup.prim vote).cleanProposals true)) := by
  apply Sound.turned
  exact Sound.clean sound.outside sound.handed

/-- A proposal has just been set aside for acceptance, and no vote has been counted. -/
structure Awaits (setup : Setup) (proposal : DPOSProposal) (opened : Node) : Prop where
  block : ∃ block, opened.processingBlock = some block ∧ proposal.blockHash = block.hash setup.prim
  empty : ∀ key, opened.acceptVotes.lookup key = none
  quiet : ¬ opened.isRunning → opened.pendingVotes = ∅
  arbiter : setup.isCurrentArbiter opened = true
  handed : ∀ handover ∈ opened.handovers,
    handover.Valid setup.prim opened.surroundings.arbitrators.getArbitersMajorityCount

end

theorem Sound.opened {occasion : Occasion} (sound : setup.Sound node)
    (lateArbiter : occasion.late → setup.isCurrentArbiter node = true) {opened : Node}
    (opening : setup.Opened occasion node proposal opened) : setup.Awaits proposal opened := by
  have arbiter : node.isRunning → setup.isCurrentArbiter node = true := by
    intro running
    cases inside : setup.isCurrentArbiter node with
    | true => rfl
    | false => exact absurd running (sound.outside inside)
  cases opening with
  | own block idle began =>
    have unproposed : node.processingProposal = none := by
      cases proposed : node.processingProposal with
      | none => rfl
      | some proposal =>
        obtain ⟨_, processes, _⟩ := sound.block proposal proposed
        rw [idle] at processes
        cases processes
    exact ⟨⟨block, rfl, rfl⟩, sound.unproposed unproposed, sound.quiet, began.elim arbiter lateArbiter, sound.handed⟩
  | heard _ _ block _ _ running unvoted _ _ _ named =>
    exact ⟨⟨block, rfl, named⟩, sound.unproposed (sound.idle unvoted), sound.quiet, arbiter running, sound.handed⟩

/-- Votes that waited can only end the round while it is running. -/
theorem Awaits.running {opened : Node} (awaits : setup.Awaits proposal opened)
    {first rest : List DPOSProposalVote} (votes : setup.pending opened = first ++ vote :: rest) : opened.isRunning := by
  by_contra ended
  have none : setup.pending opened = [] := by
    rw [pending, awaits.quiet ended]
    exact (setup.runtime.iterate_perm _).eq_nil
  rw [votes] at none
  exact append_ne_nil_of_right_ne_nil first (cons_ne_nil _ _) none

theorem Ballot.voted {counted own : Node} (ballot : setup.Ballot proposal counted.acceptVotes)
    (processed : own = counted ∧ ¬ setup.Countable counted (setup.voteOn proposal true) ∨
      own = counted.accepting setup.prim (setup.voteOn proposal true) ∧
        setup.Countable counted (setup.voteOn proposal true)) :
    ∃ acceptVotes rejectedVotes, own = counted.withVotes acceptVotes rejectedVotes ∧
      setup.Ballot proposal acceptVotes := by
  obtain ⟨rfl, _⟩ | ⟨rfl, countable⟩ := processed
  · exact ⟨_, _, rfl, ballot⟩
  · exact ⟨_, _, rfl, ballot.accepting countable rfl rfl⟩

theorem Sound.cast {processing : Option Block} (ballot : setup.Ballot proposal node.acceptVotes)
    (proposed : node.processingProposal = some proposal)
    (processes : ∃ block, node.processingBlock = some block ∧ proposal.blockHash = block.hash setup.prim)
    (quiet : node.pendingVotes = ∅) (arbiter : setup.isCurrentArbiter node = true)
    (handed : ∀ handover ∈ node.handovers,
      handover.Valid setup.prim node.surroundings.arbitrators.getArbitersMajorityCount) :
    setup.Sound (setup.castVote proposal processing node) where
  votes _ _ _ := ⟨proposal, proposed, ballot⟩
  block other found := by
    have same := proposed.symm.trans found
    cases same
    exact processes
  idle unvoted := by cases unvoted
  quiet _ := quiet
  outside outside := by
    have impossible := arbiter.symm.trans outside
    cases impossible
  handed := handed

theorem Sound.voted {processing : Option Block} (sound : setup.Sound node) :
    setup.Sound (setup.castVote proposal processing node) where
  __ := sound
  idle unvoted := by cases unvoted

theorem handedOver_valid {handovers : List Handover} {majority : Int} {handover : Handover}
    (before : ∀ handover ∈ handovers, handover.Valid setup.prim majority) (valid : handover.Valid setup.prim majority) :
    ∀ other ∈ handovers ++ [handover], other.Valid setup.prim majority := by
  intro other listed
  obtain listed | listed := mem_append.1 listed
  · exact before other listed
  · rw [mem_singleton.1 listed]
    exact valid

theorem Awaits.accepted {opened : Node} (awaits : setup.Awaits proposal opened)
    (accepted : setup.Accepted opened proposal after) : setup.Sound after := by
  obtain ⟨block, processes, named⟩ := awaits.block
  have start : setup.Ballot proposal (processing proposal opened).acceptVotes := .of_empty awaits.empty
  have inside : ¬ setup.isCurrentArbiter opened = false := by
    rw [awaits.arbiter]
    exact Bool.noConfusion
  cases accepted with
  | watched _ outside => exact absurd outside inside
  | voted tally _ processed =>
    obtain ⟨votes, rejected, rfl, ballot⟩ := (start.tally tally).voted processed
    obtain ⟨_, _, rfl⟩ := tally.frame
    exact .cast ballot rfl ⟨block, processes, named⟩ rfl awaits.arbiter awaits.handed
  | @completed counted block' onDuty tally _ countable enough processes' =>
    rw [processes] at processes'
    cases processes'
    have ballot := (start.tally tally).accepting countable rfl rfl
    have valid := ballot.handover enough named
    obtain ⟨_, _, rfl⟩ := tally.frame
    have handed := handedOver_valid awaits.handed valid
    -- The round may have been over already; then its votes are still there.
    refine Node.concluded_elim (motive := fun ended =>
      setup.Sound (setup.castVote proposal opened.processingBlock ended)) ?_ ?_
    · intro _
      apply Sound.voted
      apply Sound.clean
      · exact fun outside => absurd outside inside
      · exact handed
    · intro _
      unfold Node.handedOver Node.accepting Node.settled Node.withVotes processing
      exact .cast ballot rfl ⟨block, processes, named⟩ rfl awaits.arbiter handed
  | confirmed onDuty votes tally named' said countable enough processes' =>
    rw [processes] at processes'
    cases processes'
    have running := awaits.running votes
    have ballot := (start.tally tally).accepting countable said named'
    have valid := ballot.handover enough named
    obtain ⟨_, _, rfl⟩ := tally.frame
    apply Node.concluded_elim
    · intro _
      apply Sound.clean
      · exact fun outside => absurd outside inside
      · exact handedOver_valid awaits.handed valid
    · exact fun ended => absurd running ended
  | outvoted now cleaned votes tally =>
    obtain ⟨_, _, rfl⟩ := tally.frame
    exact (Sound.clean (fun outside => absurd outside inside) awaits.handed).turned

/-- Other surroundings with the same arbiters make no difference. -/
theorem Sound.surroundings {surroundings : Surroundings} (sound : setup.Sound node)
    (same : surroundings.arbitrators.currentArbitrators = node.surroundings.arbitrators.currentArbitrators) :
    setup.Sound { node with surroundings } where
  __ := sound
  outside outside := by
    rw [isCurrentArbiter_congr same] at outside
    exact sound.outside outside
  handed handover listed := by
    rw [majority_congr same]
    exact sound.handed handover listed

section Under
variable (fixed : setup.FixedArbiters message origin) (under : setup.Under message origin node)
  (sound : setup.Sound node)

include fixed under sound

theorem Sound.move (duty : setup.DutyOnly message origin) (dispatches : message.Dispatches)
    (lateArbiter : late → setup.isCurrentArbiter origin = true)
    (move : setup.Move (message.occasion begun late) node after) : setup.Sound after := by
  cases move with
  | aside => exact { sound with }
  | speculate block running _ idle =>
    refine { sound with block proposal proposed := ?_ }
    obtain ⟨_, processes, _⟩ := sound.block proposal proposed
    rw [idle] at processes
    cases processes
  | accept opening accepted =>
    have arbiter : late → setup.isCurrentArbiter node = true := fun isLate => by
      rw [isCurrentArbiter_congr (fixed _ under.seen)]
      exact lateArbiter isLate
    exact (sound.opened arbiter opening).accepted accepted
  | reject _ other _ held valid current _ onDuty differs =>
    exact absurd (duty.not_reject dispatches under held valid current onDuty) differs

theorem Sound.event (normal : message ≠ .recoverTimeout) (event : setup.Event message origin node after) :
    setup.Sound after := by
  cases event with
  | aside | refuse | unload | reload =>
    exact { sound with }
  | tick => exact sound.turned
  | pend _ running =>
    exact { sound with quiet ended := absurd running ended }
  | @count _ vote proposal _ current said =>
    have ballot := (sound.ballot current.proposed).accepting current.countable said current.named
    exact ⟨fun _ _ _ => ⟨proposal, current.proposed, ballot⟩, sound.block, sound.idle, sound.quiet,
      sound.outside, sound.handed⟩
  | @confirm _ vote proposal block onDuty _ current said enough processes =>
    have ballot := (sound.ballot current.proposed).accepting current.countable said current.named
    obtain ⟨same, processes', named⟩ := sound.block proposal current.proposed
    rw [processes] at processes'
    cases processes'
    apply Node.concluded_elim
    · intro _
      apply Sound.clean
      · exact fun _ running => by cases running
      · exact handedOver_valid sound.handed (ballot.handover enough named)
    · exact fun ended => absurd current.running ended
  | conclude =>
    apply Node.concluded_elim
    · intro _
      apply Sound.clean
      · exact fun _ running => by cases running
      · exact sound.handed
    · exact fun _ => sound
  | special told =>
    apply sound.surroundings
    exact (fixed _ (.special under.seen told)).trans (fixed _ under.seen).symm
  | emergency => exact Sound.clean sound.outside sound.handed
  | recover _ told => exact absurd told normal
  | elsewhere told =>
    apply sound.surroundings
    exact (fixed _ (.elsewhere told)).trans (fixed _ under.seen).symm

theorem Sound.moves (duty : setup.DutyOnly message origin) (dispatches : message.Dispatches)
    (lateArbiter : late → setup.isCurrentArbiter origin = true)
    (moves : setup.Moves (message.occasion begun late) node after) : setup.Sound after :=
  (moves_keep duty dispatches (fun _ _ under sound move =>
    sound.move fixed under duty dispatches lateArbiter move) under sound moves).2

theorem Sound.stage (duty : setup.DutyOnly message origin) (normal : message ≠ .recoverTimeout)
    (stage : setup.Stage message origin node after) : setup.Sound after := by
  cases stage with
  | event event => exact sound.event fixed under normal event
  | dispatch processes moves =>
    exact sound.moves fixed under duty processes.dispatches False.elim moves
  | outvoted cleaned told _ _ _ _ moves =>
    have dispatches : message.Dispatches := by rw [told]; trivial
    exact sound.outvoted.moves fixed under.outvoted duty dispatches False.elim moves

theorem Sound.started (arbiter : setup.isCurrentArbiter origin = true) :
    setup.Sound (setup.cached block (setup.started block node)) := by
  refine { sound with quiet ended := absurd rfl ended, outside := fun outside => ?_ }
  have inside := (isCurrentArbiter_congr (fixed _ under.seen)).trans arbiter
  have impossible := inside.symm.trans outside
  cases impossible

theorem Sound.ending (duty : setup.DutyOnly message origin) (ending : setup.Ending message origin node after) :
    setup.Sound after := by
  cases ending with
  | done => exact sound
  | @added block _ usable _ moves =>
    have cached : setup.Sound (setup.cached block node) := { sound with }
    exact cached.moves fixed (under.caching usable.knows) duty usable.processes.dispatches False.elim moves
  | started usable arbiter _ begun proposed =>
    have dispatches := usable.processes.dispatches
    have first := under.started usable.knows
    have sound := (sound.started fixed under arbiter).moves fixed first duty dispatches False.elim begun
    have sound := sound.moves fixed (first.moves duty dispatches begun) duty dispatches (fun _ => arbiter) proposed
    exact { sound with }

end Under

theorem Sound.handle {depth : Nat} (duty : setup.DutyOnly message node)
    (normal : message ≠ .recoverTimeout) (fixed : setup.FixedArbiters message node)
    (sound : setup.Sound node) (run : setup.handle depth message node = (.ok (), after)) : setup.Sound after := by
  obtain ⟨middle, stages, ending⟩ := handle_stages run
  have kept : setup.Under message node middle ∧ setup.Sound middle := by
    clear run ending
    induction stages with
    | refl => exact ⟨.start message node, sound⟩
    | tail _ stage ih => exact ⟨ih.1.stage duty stage, ih.2.stage fixed ih.1 duty normal stage⟩
  exact kept.2.ending fixed kept.1 duty ending

theorem startUp_sound {surroundings : Surroundings} (started : setup.startUp surroundings = .ok node) :
    setup.Sound node := by
  simp only [startUp, Outcome.bind_eq_ok] at started
  obtain ⟨_, _, built⟩ := started
  cases built
  exact {
    votes _ _ found := by cases found
    block _ proposed := by cases proposed
    idle _ := rfl
    quiet _ := rfl
    outside _ running := by cases running
    handed _ listed := by cases listed }

end Sound
end Setup

/-- Messages other than those of a recovery, with a fixed set of arbiters. -/
structure Unrecovered (setup : Setup) (message : Message) (node : Node) : Prop where
  normal : message ≠ .recoverTimeout
  fixed : setup.FixedArbiters message node

/-- Moreover the proposals come from the arbiter on duty. -/
structure OnDuty (setup : Setup) (message : Message) (node : Node) : Prop
    extends Unrecovered setup message node where
  duty : setup.DutyOnly message node

theorem Unrecovered.of_plain {setup : Setup} {message : Message} {node : Node}
    (plain : message.isPlain = true) : Unrecovered setup message node where
  normal := by
    rintro rfl
    cases plain
  fixed surroundings seen := by rw [seen.eq_of_plain plain]

/-- In every run of proposals that come from the arbiter on duty, the confirms that are
handed over are made of votes for their proposal by more than the majority of the arbiters,
and the proposal is for the block that is processed. -/
theorem handovers_valid {setup : Setup} {node : Node} (run : Run setup (OnDuty setup) node) :
    ∀ handover ∈ node.handovers, handover.Valid setup.prim node.surroundings.arbitrators.getArbitersMajorityCount := by
  have sound : setup.Sound node := by
    induction run with
    | start started => exact Setup.startUp_sound started
    | step depth _ met handled ih => exact ih.handle met.duty met.normal met.fixed handled
  exact sound.handed

namespace SmallNode

/-- A block, the proposal of the arbiter on duty and two votes for it. -/
def agreed : List Message :=
  let block := block 11 1
  let proposal := proposalBy 2 block 0
  [.block block true, .proposal (Stand.key 2) proposal, .acceptVote (voteBy 2 proposal true),
    .acceptVote (voteBy 3 proposal true)]

theorem handovers_valid_agreed : ∃ node, Run (setup fun _ => 0) (OnDuty (setup fun _ => 0)) node ∧
    node.handovers ≠ [] ∧ ∀ handover ∈ node.handovers, handover.Valid Stand.primitives
      node.surroundings.arbitrators.getArbitersMajorityCount := by
  have played : ((playFrom (setup fun _ => 0) (fun message node =>
      message.isPlain = true ∧ (setup fun _ => 0).PlainDuty message node) 3
      (surroundings [1, 2, 3, 4] 1) agreed).any fun node => ! node.handovers.isEmpty) = true := by
    decide +kernel
  obtain ⟨node, reached, handed⟩ := (Option.any_eq_true _ _).1 played
  have run : Run (setup fun _ => 0) (OnDuty (setup fun _ => 0)) node := by
    refine (playFrom_run reached).weaken fun message node met => ?_
    exact ⟨.of_plain met.1, met.2.dutyOnly met.1⟩
  refine ⟨node, run, ?_, handovers_valid run⟩
  intro none
  rw [none] at handed
  cases handed

/-- The manager accepts the proposal of the arbiter on duty, then rejects the one of another
arbiter, which takes the place of the first one. Two votes for it are enough for a confirm
that counts the vote of the manager for the first proposal. -/
def replaced : List Message :=
  let block := block 11 1
  let offDuty := proposalBy 3 block 0
  [.block block true, .proposal (Stand.key 2) (proposalBy 2 block 0),
    .proposal (Stand.key 3) offDuty, .acceptVote (voteBy 3 offDuty true), .acceptVote (voteBy 4 offDuty true)]

theorem handovers_replaced : ¬ ∀ (setup : Setup) (node : Node),
    Run setup (Unrecovered setup) node → ∀ handover ∈ node.handovers,
      handover.Valid setup.prim node.surroundings.arbitrators.getArbitersMajorityCount := by
  intro valid
  have played : ((playFrom (setup fun _ => 0) (fun message _ => message.isPlain = true) 3
      (surroundings [1, 2, 3, 4] 1) replaced).any fun node => node.handovers.any fun handover =>
        handover.confirm.votes.any fun vote =>
          decide (vote.proposalHash ≠ handover.confirm.proposal.hash Stand.primitives)) = true := by
    decide +kernel
  obtain ⟨node, reached, handed⟩ := (Option.any_eq_true _ _).1 played
  obtain ⟨handover, listed, mixed⟩ := any_eq_true.1 handed
  obtain ⟨vote, cast, other⟩ := any_eq_true.1 mixed
  have run : Run (setup fun _ => 0) (Unrecovered (setup fun _ => 0)) node :=
    (playFrom_run reached).weaken fun _ _ plain => Unrecovered.of_plain plain
  exact of_decide_eq_true other ((valid _ node run handover listed).named vote cast)

end SmallNode
end Elastos.Manager
