import Elastos.Manager.Duty
import Elastos.Manager.VoteTally

/-! The flag by which an arbiter remembers that it has voted. -/
set_option autoImplicit false
namespace Elastos.Manager
open Go Common Crypto Elastos.Types Dpos Blockchain GoMap
open Relation (ReflTransGen)

/-- A proposal that a node may vote for while it handles a message. -/
def Message.Offers (message : Message) (setup : Setup) (origin : Node) (proposal : DPOSProposal) : Prop :=
  origin.Holds message proposal ∨
    ∃ block viewOffset, message.Knows origin block ∧ proposal = setup.proposalOf block viewOffset

namespace Setup

/-- A vote of the account for a proposal is among those that have been counted. -/
def Supports (setup : Setup) (proposal : DPOSProposal) (acceptVotes : GoMap Uint256 DPOSProposalVote) : Prop :=
  ∃ vote ∈ values acceptVotes, vote.signer = setup.account.publicKey ∧
    vote.accept = true ∧ vote.proposalHash = proposal.hash setup.prim

/-- With the votes that wait for a proposal, more than one vote is still missing. -/
def Short (setup : Setup) (node : Node) (proposalHash : Uint256) (voters counters : Surroundings) : Prop :=
  ((node.acceptVotes.entries.length +
    (setup.support voters proposalHash (values node.pendingVotes)).length : Nat) : Int) <
    counters.arbitrators.getArbitersMajorityCount

/-- Without the vote of the node, the votes that wait are enough. -/
structure Overfull (setup : Setup) (node : Node) (proposalHash : Uint256) (surroundings : Surroundings) : Prop where
  accepts : node.acceptVotes = ∅
  rejects : node.rejectedVotes = ∅
  signers : ((setup.validVotes surroundings proposalHash (values node.pendingVotes)).map (·.signer)).Nodup
  more : surroundings.arbitrators.getArbitersMajorityCount <
    (setup.support surroundings proposalHash (values node.pendingVotes)).length

/-- The votes of a node before its own one: that one is not the last one that is missing,
and nobody else uses the key of the node to prevent that it is counted. -/
structure Roomy (setup : Setup) (message : Message) (origin node : Node) : Prop where
  room : ∀ proposalHash, (∀ voters, setup.Seen message origin.surroundings voters →
      ∀ counters, setup.Seen message origin.surroundings counters → setup.Short node proposalHash voters counters) ∨
    ∀ surroundings, setup.Seen message origin.surroundings surroundings → setup.Overfull node proposalHash surroundings
  counted : ∀ vote, vote ∈ values node.acceptVotes ∨ vote ∈ values node.rejectedVotes →
    vote.signer ≠ setup.account.publicKey
  waits : ∀ vote ∈ values node.pendingVotes, vote.signer = setup.account.publicKey → vote.accept = true
  apart : ∀ vote, (vote ∈ values node.acceptVotes ∨
      vote ∈ values node.rejectedVotes) ∨ vote ∈ values node.pendingVotes →
    ∀ proposal, message.Offers setup origin proposal →
      vote.hash setup.prim = (setup.voteOn proposal true).hash setup.prim → vote = setup.voteOn proposal true

/-- What holds of a node between two messages: once it has voted, it processes the proposal
that it has voted for. -/
structure Marked (setup : Setup) (node : Node) : Prop where
  voted : node.proposalProcessFinished = true → node.isRunning ∧ node.processingBlock ≠ none ∧
    ∃ proposal, node.processingProposal = some proposal ∧ setup.Supports proposal node.acceptVotes
  quiet : node.isReady → node.acceptVotes = ∅ ∧ node.rejectedVotes = ∅ ∧ node.pendingVotes = ∅
  accepts : setup.Keyed node.acceptVotes
  rejects : setup.Keyed node.rejectedVotes
  waits : setup.Keyed node.pendingVotes

/-- All votes have been dropped. -/
structure Cleared (node : Node) : Prop where
  accepts : node.acceptVotes = ∅
  rejects : node.rejectedVotes = ∅
  waits : node.pendingVotes = ∅

variable {setup : Setup} {message : Message} {origin node opened after counted : Node}
  {begun : Option Block} {late : Prop} {proposal : DPOSProposal} {block : Block} {vote : DPOSProposalVote}
  {surroundings : Surroundings}

section Cleared

theorem cleanProposals_cleared {changeView : Bool} : Cleared (node.cleanProposals changeView) :=
  ⟨rfl, rfl, rfl⟩

theorem Cleared.turned {now : Int} {cleaned : Bool} (cleared : Cleared node) :
    Cleared (setup.turned now cleaned node) := by
  cases cleaned with
  | false => exact { cleared with }
  | true => exact cleanProposals_cleared

theorem Cleared.roomy (cleared : Cleared node) (several : setup.Several message origin) :
    setup.Roomy message origin node := by
  obtain ⟨accepts, rejects, waits⟩ := cleared
  constructor
  · intro proposalHash
    left
    intro voters _ counters seen
    have enough := several counters seen
    rw [Short, accepts, waits]
    exact enough
  · rintro vote (listed | listed)
    · exact absurd (accepts ▸ listed) not_mem_values_empty
    · exact absurd (rejects ▸ listed) not_mem_values_empty
  · exact fun vote listed => absurd (waits ▸ listed) not_mem_values_empty
  · rintro vote ((listed | listed) | listed)
    · exact absurd (accepts ▸ listed) not_mem_values_empty
    · exact absurd (rejects ▸ listed) not_mem_values_empty
    · exact absurd (waits ▸ listed) not_mem_values_empty

theorem Cleared.marked (cleared : Cleared node) (unvoted : node.proposalProcessFinished = false) :
    setup.Marked node := by
  obtain ⟨accepts, rejects, waits⟩ := cleared
  constructor
  · intro voted
    rw [unvoted] at voted
    cases voted
  · exact fun _ => ⟨accepts, rejects, waits⟩
  · exact accepts ▸ .empty
  · exact rejects ▸ .empty
  · exact waits ▸ .empty

theorem Roomy.of_votes (roomy : setup.Roomy message origin node)
    (accepts : after.acceptVotes = node.acceptVotes) (rejects : after.rejectedVotes = node.rejectedVotes)
    (waits : after.pendingVotes = node.pendingVotes) : setup.Roomy message origin after := by
  constructor
  · intro proposalHash
    obtain short | overfull := roomy.room proposalHash
    · left
      intro voters votersSeen counters countersSeen
      rw [Short, accepts, waits]
      exact short voters votersSeen counters countersSeen
    right
    intro surroundings seen
    have before := overfull surroundings seen
    exact ⟨accepts.trans before.accepts, rejects.trans before.rejects, waits ▸ before.signers, waits ▸ before.more⟩
  · rw [accepts, rejects]
    exact roomy.counted
  · rw [waits]
    exact roomy.waits
  · rw [accepts, rejects, waits]
    exact roomy.apart

end Cleared

section Voting

theorem unready_of_running (running : node.isRunning) : ¬ node.isReady := by
  intro ready
  have impossible := running.symm.trans ready
  cases impossible

/-- A node that is about to accept a proposal. -/
structure Voting (setup : Setup) (message : Message) (origin opened : Node) (proposal : DPOSProposal) : Prop where
  running : opened.isRunning
  block : ∃ block, opened.processingBlock = some block
  unvoted : opened.proposalProcessFinished = false
  accepts : setup.Keyed opened.acceptVotes
  rejects : setup.Keyed opened.rejectedVotes
  waits : setup.Keyed opened.pendingVotes
  roomy : setup.Roomy message origin opened
  offered : message.Offers setup origin proposal
  seen : setup.Seen message origin.surroundings opened.surroundings

theorem support_iterate (surroundings : Surroundings) (proposalHash : Uint256) (node : Node) :
    (setup.support surroundings proposalHash (setup.pending node)).length =
      (setup.support surroundings proposalHash (values node.pendingVotes)).length := by
  apply List.Perm.length_eq
  exact ((setup.runtime.iterate_perm _).filter _).filter _

theorem Overfull.fresh (overfull : setup.Overfull node (proposal.hash setup.prim) surroundings)
    (keyed : setup.Keyed node.pendingVotes) :
    setup.Fresh (setup.validVotes surroundings (proposal.hash setup.prim) (setup.pending node))
      (processing proposal node) := by
  have perm := setup.runtime.iterate_perm (values node.pendingVotes)
  constructor
  · exact ((perm.map _).nodup_iff.2 keyed.hashes_nodup).sublist (List.filter_sublist.map _)
  · exact ((validVotes_perm perm _).map _).nodup_iff.2 overfull.signers
  · intro vote _
    rw [Node.alreadyExistVote, processing, overfull.accepts, overfull.rejects]
    rfl
  · rintro vote _ other (listed | listed)
    · rw [processing, overfull.accepts] at listed
      cases listed
    · rw [processing, overfull.rejects] at listed
      cases listed

theorem mem_pending (listed : vote ∈ setup.validVotes node.surroundings (proposal.hash setup.prim)
    (setup.pending node)) : vote ∈ values node.pendingVotes :=
  (setup.runtime.iterate_perm _).mem_iff.1 (mem_validVotes.1 listed).1

theorem Tally.mem_counted (tally : setup.Tally proposal (setup.pending node) (processing proposal node) counted)
    (listed : vote ∈ values counted.acceptVotes ∨ vote ∈ values counted.rejectedVotes) :
    (vote ∈ values node.acceptVotes ∨ vote ∈ values node.rejectedVotes) ∨
      vote ∈ values node.pendingVotes := by
  obtain listed | listed := listed
  · obtain before | ⟨_, waited⟩ := tally.mem_acceptVotes listed
    · exact .inl (.inl before)
    · exact .inr (mem_pending waited)
  · obtain before | ⟨_, waited⟩ := tally.mem_rejectedVotes listed
    · exact .inl (.inr before)
    · exact .inr (mem_pending waited)

theorem voteCheck_signer (valid : setup.voteCheck node vote = true) :
    node.surroundings.arbitrators.isArbitrator vote.signer = true := by
  have context := (Bool.and_eq_true_iff.1 valid).2
  rw [voteContextCheck, Outcome.require] at context
  split at context
  case isTrue member => exact decide_eq_true member
  case isFalse => cases context

theorem Keyed.tally {votes : List DPOSProposalVote} (tally : setup.Tally proposal votes node after)
    (accepts : setup.Keyed node.acceptVotes) (rejects : setup.Keyed node.rejectedVotes) :
    setup.Keyed after.acceptVotes ∧ setup.Keyed after.rejectedVotes := by
  induction tally with
  | nil => exact ⟨accepts, rejects⟩
  | skip _ _ ih => exact ih accepts rejects
  | accept _ _ _ _ _ ih => exact ih (accepts.insert _) rejects
  | reject _ _ _ _ ih => exact ih accepts (rejects.insert _)

theorem voteOn_check (arbiter : setup.isCurrentArbiter node = true) :
    setup.voteCheck node (setup.voteOn proposal true) = true := by
  obtain ⟨point, decoded, verifies⟩ := setup.account.verifies
  apply Bool.and_eq_true_iff.2
  constructor
  · have sane : voteSanityCheck setup.prim (setup.voteOn proposal true) = .ok () := by
      rw [voteSanityCheck]
      change (setup.prim.decodePoint setup.account.publicKey >>= _) = _
      rw [decoded]
      exact verifies _
    rw [sane]
    rfl
  · have member : (setup.voteOn proposal true).signer ∈
        node.surroundings.arbitrators.getArbitrators := of_decide_eq_true arbiter
    rw [voteContextCheck, Outcome.require, if_pos member]
    rfl

section Counted
variable (voting : setup.Voting message origin opened proposal)
  (several : setup.Several message origin)
  (tally : setup.Tally proposal (setup.pending opened) (processing proposal opened) counted)

include voting tally

theorem Voting.supports (arbiter : setup.isCurrentArbiter opened = true)
    (uncounted : ¬ setup.Countable counted (setup.voteOn proposal true)) :
    setup.Supports proposal counted.acceptVotes := by
  have keyed := Keyed.tally tally voting.accepts voting.rejects
  have rejects : ∀ vote ∈ values counted.rejectedVotes, vote.signer ≠ setup.account.publicKey := by
    intro vote listed same
    obtain before | ⟨said, waited⟩ := tally.mem_rejectedVotes listed
    · exact voting.roomy.counted vote (.inr before) same
    · have accepted := voting.roomy.waits vote (mem_pending waited) same
      rw [said] at accepted
      cases accepted
  have accepts : ∀ vote ∈ values counted.acceptVotes,
      vote.signer = setup.account.publicKey → setup.Supports proposal counted.acceptVotes := by
    intro vote listed same
    obtain before | ⟨said, waited⟩ := tally.mem_acceptVotes listed
    · exact absurd same (voting.roomy.counted vote (.inl before))
    · exact ⟨vote, listed, same, said, (mem_validVotes.1 waited).2.1⟩
  have own : ∀ vote, vote ∈ values counted.acceptVotes ∨ vote ∈ values counted.rejectedVotes →
      vote.hash setup.prim = (setup.voteOn proposal true).hash setup.prim → vote.signer = setup.account.publicKey := by
    intro vote listed same
    rw [voting.roomy.apart vote (tally.mem_counted listed) proposal voting.offered same]
    rfl
  by_contra missing
  apply uncounted
  have valid : setup.voteCheck counted (setup.voteOn proposal true) = true := by
    obtain ⟨_, _, rfl⟩ := tally.frame
    exact voteOn_check arbiter
  refine ⟨valid, ?_, ?_⟩
  · simp only [Node.alreadyExistVote, Bool.or_eq_false_iff, Option.isSome_eq_false_iff, Option.isNone_iff_eq_none,
      Option.eq_none_iff_forall_ne_some]
    refine ⟨fun vote found => ?_, fun vote found => ?_⟩
    · have listed := mem_values_iff.2 ⟨_, found⟩
      exact missing (accepts vote listed (own vote (.inl listed) (keyed.1 _ _ found).symm))
    · have listed := mem_values_iff.2 ⟨_, found⟩
      exact rejects vote listed (own vote (.inr listed) (keyed.2 _ _ found).symm)
  · apply List.find?_eq_none.2
    intro other listed illegal
    have same : other.signer = setup.account.publicKey := (of_decide_eq_true illegal).1.symm
    obtain listed | listed := List.mem_append.1 listed
    · exact missing (accepts other ((setup.runtime.iterate_perm _).mem_iff.1 listed) same)
    · exact rejects other ((setup.runtime.iterate_perm _).mem_iff.1 listed) same

theorem Voting.voted {own : Node} (arbiter : setup.isCurrentArbiter opened = true)
    (processed : own = counted ∧ ¬ setup.Countable counted (setup.voteOn proposal true) ∨
      own = counted.accepting setup.prim (setup.voteOn proposal true) ∧
        setup.Countable counted (setup.voteOn proposal true)) :
    setup.Supports proposal own.acceptVotes ∧ setup.Keyed own.acceptVotes ∧ setup.Keyed own.rejectedVotes := by
  have keyed := Keyed.tally tally voting.accepts voting.rejects
  obtain ⟨rfl, uncounted⟩ | ⟨rfl, _⟩ := processed
  · exact ⟨voting.supports tally arbiter uncounted, keyed⟩
  · refine ⟨⟨setup.voteOn proposal true, ?_, rfl, rfl, rfl⟩, keyed.1.insert _, keyed.2⟩
    apply mem_values_iff.2
    exact ⟨_, AList.lookup_insert _⟩

include several

/-- The votes that wait would have ended the round. -/
theorem Voting.not_overfull : ¬ setup.Overfull opened (proposal.hash setup.prim) opened.surroundings := by
  intro overfull
  obtain ⟨block, processes⟩ := voting.block
  have all := tally.length_eq (overfull.fresh voting.waits)
  have total : counted.acceptVotes.entries.length = opened.acceptVotes.entries.length +
      (setup.support opened.surroundings (proposal.hash setup.prim) (setup.pending opened)).length := all
  rw [support_iterate, overfull.accepts] at total
  have enough := overfull.more
  obtain same | few := tally.not_majority processes
  · have none : counted.acceptVotes.entries.length = 0 := by
      rw [same, processing, overfull.accepts]
      rfl
    have positive := several _ voting.seen
    rw [none] at total
    change 0 = 0 + _ at total
    omega
  · apply few
    obtain ⟨_, _, rfl⟩ := tally.frame
    change opened.surroundings.arbitrators.getArbitersMajorityCount < _
    change _ = 0 + _ at total
    omega

/-- After the votes that wait, more than one vote is still missing. -/
theorem Voting.counted_lt (seen : setup.Seen message origin.surroundings surroundings) :
    (counted.acceptVotes.entries.length : Int) < surroundings.arbitrators.getArbitersMajorityCount := by
  obtain short | overfull := voting.roomy.room (proposal.hash setup.prim)
  · have missing := short _ voting.seen _ seen
    have some := tally.length_le
    have some : counted.acceptVotes.entries.length ≤ opened.acceptVotes.entries.length +
      (setup.support opened.surroundings (proposal.hash setup.prim) (setup.pending opened)).length := some
    rw [support_iterate] at some
    rw [Short] at missing
    omega
  · exact absurd (overfull _ voting.seen) (voting.not_overfull several tally)

theorem Voting.not_completed : ¬ (counted.accepting setup.prim vote).hasMajority := by
  intro enough
  have missing := voting.counted_lt several tally voting.seen
  have one := length_insert_le counted.acceptVotes (vote.hash setup.prim) vote
  have same : counted.surroundings = opened.surroundings := by
    obtain ⟨_, _, rfl⟩ := tally.frame
    rfl
  have enough : counted.surroundings.arbitrators.getArbitersMajorityCount <
    ((counted.acceptVotes.insert (vote.hash setup.prim) vote).entries.length : Int) := enough
  rw [same] at enough
  omega

theorem Voting.watched (outside : setup.isCurrentArbiter opened = false) :
    setup.Roomy message origin counted.settled := by
  have other : ∀ {vote : DPOSProposalVote}, vote ∈ setup.validVotes opened.surroundings
      (proposal.hash setup.prim) (setup.pending opened) → vote.signer ≠ setup.account.publicKey := by
    intro vote waited same
    have inside := voteCheck_signer (mem_validVotes.1 waited).2.2
    rw [same] at inside
    rw [isCurrentArbiter, inside] at outside
    cases outside
  constructor
  · intro proposalHash
    left
    intro voters _ counters seen
    have missing := voting.counted_lt several tally seen
    exact missing
  · rintro vote (listed | listed)
    · obtain before | ⟨_, waited⟩ := tally.mem_acceptVotes listed
      · exact voting.roomy.counted vote (.inl before)
      · exact other waited
    · obtain before | ⟨_, waited⟩ := tally.mem_rejectedVotes listed
      · exact voting.roomy.counted vote (.inr before)
      · exact other waited
  · intro vote listed
    cases listed
  · rintro vote (listed | listed)
    · exact voting.roomy.apart vote (tally.mem_counted listed)
    · cases listed

end Counted

/-- A node that has voted, or that has room for its vote. -/
structure Steady (setup : Setup) (message : Message) (origin node : Node) : Prop where
  marked : setup.Marked node
  roomy : node.proposalProcessFinished = false → setup.Roomy message origin node

theorem Cleared.steady (cleared : Cleared node) (unvoted : node.proposalProcessFinished = false)
    (several : setup.Several message origin) : setup.Steady message origin node :=
  ⟨cleared.marked unvoted, fun _ => cleared.roomy several⟩

theorem turned_unvoted {now : Int} {cleaned : Bool} (unvoted : node.proposalProcessFinished = false) :
    (setup.turned now cleaned node).proposalProcessFinished = false := by
  cases cleaned with
  | false => exact unvoted
  | true => rfl

theorem Steady.of_turned {now : Int} {cleaned changeView : Bool}
    (several : setup.Several message origin) : setup.Steady message origin
      (setup.turned now cleaned (node.cleanProposals changeView)) :=
  cleanProposals_cleared.turned.steady (turned_unvoted rfl) several

theorem Voting.accepted (voting : setup.Voting message origin opened proposal) (several : setup.Several message origin)
    (accepted : setup.Accepted opened proposal after) : setup.Steady message origin after := by
  obtain ⟨block, processes⟩ := voting.block
  have unready := unready_of_running voting.running
  cases accepted with
  | watched tally outside =>
    have roomy := voting.watched several tally outside
    have keyed := Keyed.tally tally voting.accepts voting.rejects
    obtain ⟨_, _, rfl⟩ := tally.frame
    refine ⟨⟨fun voted => ?_, fun ready => absurd ready unready, keyed.1, keyed.2, .empty⟩, fun _ => roomy⟩
    rw [Node.settled, Node.withVotes, processing, voting.unvoted] at voted
    cases voted
  | @voted _ own tally arbiter processed =>
    obtain ⟨supports, accepts, rejects⟩ := voting.voted tally arbiter processed
    have frame : ∃ acceptVotes rejectedVotes, own = (processing proposal opened).withVotes
        acceptVotes rejectedVotes := by
      obtain ⟨_, _, rfl⟩ := tally.frame
      obtain ⟨rfl, _⟩ | ⟨rfl, _⟩ := processed
      · exact ⟨_, _, rfl⟩
      · exact ⟨_, _, rfl⟩
    obtain ⟨acceptVotes, rejectedVotes, rfl⟩ := frame
    refine ⟨⟨fun _ => ⟨voting.running, ?_, proposal, rfl, supports⟩,
      fun ready => absurd ready unready, accepts, rejects, .empty⟩, fun unvoted => ?_⟩
    · intro idle
      have impossible := processes.symm.trans idle
      cases impossible
    · cases unvoted
  | completed _ tally _ _ enough => exact absurd enough (voting.not_completed several tally)
  | confirmed onDuty _ tally =>
    obtain ⟨_, _, rfl⟩ := tally.frame
    apply Node.concluded_elim
    · exact fun _ => cleanProposals_cleared.steady rfl several
    · exact fun ended => absurd voting.running ended
  | outvoted => exact .of_turned several

end Voting

section Steps

theorem Opened.pendingVotes {occasion : Occasion} (opening : setup.Opened occasion node proposal opened) :
    opened.pendingVotes = node.pendingVotes := by
  cases opening with
  | own => rfl
  | heard => rfl

theorem pending_eq_nil (settled : node.pendingVotes = ∅) : setup.pending node = [] := by
  rw [pending, settled]
  exact (setup.runtime.iterate_perm _).eq_nil

section Move
variable (duty : setup.DutyOnly message origin) (dispatches : message.Dispatches) (early : ¬ late)
  (starts : ∀ block, begun = some block → message.Knows origin block) (several : setup.Several message origin)
  (under : setup.Under message origin node) (steady : setup.Steady message origin node)

include dispatches early starts under steady

theorem Steady.voting (opening : setup.Opened (message.occasion begun late) node proposal opened) :
    setup.Voting message origin opened proposal := by
  obtain ⟨marked, roomy⟩ := steady
  cases opening with
  | own block idle began known =>
    have unvoted : node.proposalProcessFinished = false := by
      apply Bool.eq_false_iff.2
      intro voted
      exact (marked.voted voted).2.1 idle
    have offered := known.elim (fun cached => under.known block cached.1) (starts block)
    exact ⟨began.resolve_right early, ⟨block, rfl⟩, unvoted, marked.accepts, marked.rejects,
      marked.waits, (roomy unvoted).of_votes rfl rfl rfl, .inr ⟨block, _, offered, rfl⟩, under.seen⟩
  | heard _ cached block held _ running unvoted =>
    exact ⟨running, ⟨block, rfl⟩, unvoted, marked.accepts, marked.rejects, marked.waits,
      (roomy unvoted).of_votes rfl rfl rfl, .inl (held.elim (under.held dispatches _) .inr), under.seen⟩

include duty several

theorem Steady.move (move : setup.Move (message.occasion begun late) node after) :
    setup.Steady message origin after := by
  cases move with
  | aside => exact ⟨{ steady.marked with }, fun unvoted => (steady.roomy unvoted).of_votes rfl rfl rfl⟩
  | speculate block running _ idle =>
    exact ⟨{ steady.marked with voted flag := absurd idle (steady.marked.voted flag).2.1 },
      fun unvoted => (steady.roomy unvoted).of_votes rfl rfl rfl⟩
  | accept opening accepted => exact (steady.voting dispatches early starts under opening).accepted several accepted
  | reject _ other _ held valid current _ onDuty differs =>
    exact absurd (duty.not_reject dispatches under held valid current onDuty) differs

/-- A round that has just started with no votes is not over after the moves of the
dispatcher. -/
theorem Steady.move_running (running : node.isRunning) (settled : node.pendingVotes = ∅)
    (move : setup.Move (message.occasion begun late) node after) : after.isRunning ∧ after.pendingVotes = ∅ := by
  cases move with
  | aside => exact ⟨running, settled⟩
  | speculate => exact ⟨running, settled⟩
  | accept opening accepted =>
    have voting := steady.voting dispatches early starts under opening
    have empty : setup.pending _ = [] := pending_eq_nil (opening.pendingVotes.trans settled)
    cases accepted with
    | watched tally =>
      obtain ⟨_, _, rfl⟩ := tally.frame
      exact ⟨voting.running, rfl⟩
    | voted tally _ processed =>
      obtain ⟨_, _, rfl⟩ := tally.frame
      obtain ⟨rfl, _⟩ | ⟨rfl, _⟩ := processed
      · exact ⟨voting.running, rfl⟩
      · exact ⟨voting.running, rfl⟩
    | completed _ tally _ _ enough => exact absurd enough (voting.not_completed several tally)
    | confirmed _ votes | outvoted _ _ votes =>
      rw [empty] at votes
      exact absurd votes.symm (List.append_ne_nil_of_right_ne_nil _ (List.cons_ne_nil _ _))
  | reject _ other _ held valid current _ onDuty differs =>
    exact absurd (duty.not_reject dispatches under held valid current onDuty) differs

theorem Steady.moves (moves : setup.Moves (message.occasion begun late) node after) :
    setup.Steady message origin after :=
  (moves_keep duty dispatches (fun _ _ under steady move =>
    steady.move duty dispatches early starts several under move) under steady moves).2

end Move

theorem Supports.counting {acceptVotes : GoMap Uint256 DPOSProposalVote}
    (supports : setup.Supports proposal acceptVotes) (absent : acceptVotes.lookup (vote.hash setup.prim) = none) :
    setup.Supports proposal (acceptVotes.insert (vote.hash setup.prim) vote) := by
  obtain ⟨own, listed, said⟩ := supports
  exact ⟨own, mem_values_insert_of_absent absent vote listed, said⟩

/-- The statuses that a node takes over confirm its vote, if it has voted. -/
def Recovers (setup : Setup) (node : Node) : Prop :=
  node.proposalProcessFinished = true → ∀ status, node.Collected status →
    status.consensusStatus ≠ consensusReady → status.consensusStatus = consensusRunning ∧
      ∀ proposal, node.processingProposal = some proposal → setup.Supports proposal
        (ofPairs (status.acceptVotes.map fun vote => (vote.hash setup.prim, vote)))

theorem Marked.turned {now : Int} {cleaned : Bool} (marked : setup.Marked node) :
    setup.Marked (setup.turned now cleaned node) := by
  cases cleaned with
  | true => exact cleanProposals_cleared.marked rfl
  | false => exact { marked with }

theorem Marked.concluded {height : UInt32} {blockHash : Uint256} {onDuty : Bool}
    (marked : setup.Marked node) : setup.Marked (node.concluded height blockHash onDuty) := by
  apply Node.concluded_elim
  · exact fun _ => cleanProposals_cleared.marked rfl
  · exact fun _ => marked

theorem Marked.unvoted (marked : setup.Marked node) (ready : node.isReady) : node.proposalProcessFinished = false := by
  apply Bool.eq_false_iff.2
  intro voted
  have impossible : consensusRunning = consensusReady := (marked.voted voted).1.symm.trans ready
  cases impossible

theorem Marked.started (marked : setup.Marked node) (ready : node.isReady) :
    Cleared (setup.cached block (setup.started block node)) := by
  obtain ⟨accepts, rejects, waits⟩ := marked.quiet ready
  exact ⟨accepts, rejects, waits⟩

theorem Marked.event (recovers : message = .recoverTimeout → setup.Recovers origin)
    (marked : setup.Marked node) (event : setup.Event message origin node after) : setup.Marked after := by
  obtain ⟨voted, quiet, accepts, rejects, waits⟩ := id marked
  cases event with
  | aside | unload | reload | special | elsewhere => exact { marked with }
  | tick => exact marked.turned
  | pend _ running unproposed =>
    refine ⟨fun flag => ?_, fun ready => absurd ready (unready_of_running running), accepts, rejects, waits.insert _⟩
    obtain ⟨_, _, _, proposed, _⟩ := voted flag
    rw [unproposed] at proposed
    cases proposed
  | count _ current =>
    refine ⟨fun flag => ?_, fun ready => absurd ready (unready_of_running current.running),
      accepts.insert _, rejects, waits⟩
    obtain ⟨running, busy, proposal, proposed, supports⟩ := voted flag
    exact ⟨running, busy, proposal, proposed, supports.counting current.countable.absent.1⟩
  | confirm _ _ current =>
    apply Node.concluded_elim
    · exact fun _ => cleanProposals_cleared.marked rfl
    · exact fun ended => absurd current.running ended
  | refuse _ current =>
    exact ⟨voted, fun ready => absurd ready (unready_of_running current.running), accepts, rejects.insert _, waits⟩
  | conclude => exact marked.concluded
  | emergency => exact cleanProposals_cleared.marked rfl
  | recover _ told _ collected unready =>
    refine ⟨fun flag => ?_, fun ready => absurd ready unready, .ofPairs _, .ofPairs _, .ofPairs _⟩
    obtain ⟨running, busy, proposal, proposed, _⟩ := voted flag
    obtain ⟨runs, supports⟩ := recovers told flag _ collected unready
    refine ⟨runs, ?_, proposal, proposed, supports proposal proposed⟩
    rw [Node.recoverFromConsensusStatus, if_neg unready]
    exact busy

theorem Steady.event (processes : message.Processes) (several : setup.Several message origin)
    (steady : setup.Steady message origin node)
    (event : setup.Event message origin node after) : setup.Steady message origin after := by
  have marked := steady.marked.event (fun told => by rw [told] at processes; exact processes.elim) event
  refine ⟨marked, fun unvoted => ?_⟩
  cases event with
  | aside | unload | reload | special =>
    exact (steady.roomy unvoted).of_votes rfl rfl rfl
  | tick cleaned =>
    cases cleaned with
    | true => exact cleanProposals_cleared.roomy several
    | false => exact (steady.roomy unvoted).of_votes rfl rfl rfl
  | emergency => exact cleanProposals_cleared.roomy several
  | pend told => obtain rfl | rfl := told <;> exact processes.elim
  | count told | confirm _ told | refuse told | recover _ told | elsewhere told =>
    rw [told] at processes
    exact processes.elim
  | conclude _ _ told => cases told <;> exact processes.elim

theorem none_knows : ∀ block, none = some block → message.Knows origin block := fun _ => nofun

variable (duty : setup.DutyOnly message origin)
  (several : message.Dispatches → setup.Several message origin)

include duty several

theorem Marked.stage (recovers : message = .recoverTimeout → setup.Recovers origin)
    (under : setup.Under message origin node) (marked : setup.Marked node)
    (steady : message.Processes → setup.Steady message origin node) (stage : setup.Stage message origin node after) :
    setup.Marked after ∧ (message.Processes → setup.Steady message origin after) := by
  cases stage with
  | event event =>
    exact ⟨marked.event recovers event, fun processes =>
      (steady processes).event processes (several processes.dispatches) event⟩
  | dispatch processes moves =>
    have last := (steady processes).moves duty processes.dispatches id none_knows
      (several processes.dispatches) under moves
    exact ⟨last.marked, fun _ => last⟩
  | outvoted cleaned told _ _ _ _ moves =>
    have dispatches : message.Dispatches := by rw [told]; trivial
    have last := Steady.moves duty dispatches id none_knows (several dispatches) under.outvoted
      (.of_turned (several dispatches)) moves
    exact ⟨last.marked, fun _ => last⟩

theorem Marked.ending (under : setup.Under message origin node) (marked : setup.Marked node)
    (steady : message.Processes → setup.Steady message origin node)
    (ending : setup.Ending message origin node after) : setup.Marked after := by
  cases ending with
  | done => exact marked
  | @added block _ usable _ moves =>
    have processes := usable.processes
    have before := steady processes
    have cached : setup.Steady message origin (setup.cached block node) :=
      ⟨{ before.marked with }, fun unvoted => (before.roomy unvoted).of_votes rfl rfl rfl⟩
    exact (cached.moves duty processes.dispatches id none_knows
      (several processes.dispatches) (under.caching usable.knows) moves).marked
  | @started block middle last usable arbiter ready begun proposed =>
    have dispatches := usable.processes.dispatches
    have several := several dispatches
    have first := under.started usable.knows
    have cleared : Cleared (setup.cached block (setup.started block node)) := marked.started ready
    have steady := cleared.steady (marked.unvoted ready) several
    -- The round that has just started without votes cannot be over.
    have calm := (moves_keep (motive := fun node => setup.Steady message origin node ∧
        node.isRunning ∧ node.pendingVotes = ∅) duty dispatches (fun _ _ under now move =>
        ⟨now.1.move duty dispatches id none_knows several under move,
          now.1.move_running duty dispatches id none_knows several under now.2.1 now.2.2 move⟩)
      first ⟨steady, rfl, cleared.waits⟩ begun).2
    have starts : ∀ other, some block = some other → message.Knows origin other := by
      rintro _ ⟨⟩
      exact usable.knows
    have last := calm.1.moves duty dispatches (not_not.2 calm.2.1) starts several
      (first.moves duty dispatches begun) proposed
    exact { last.marked with }

end Steps

/-- The messages among which the vote of the node is never the one that ends a round, nobody
uses its key against it, and its statuses come from peers that have counted its vote. -/
structure Unhurried (setup : Setup) (message : Message) (node : Node) : Prop where
  duty : setup.DutyOnly message node
  several : message.Dispatches → setup.Several message node
  roomy : message.Processes → node.proposalProcessFinished = false → setup.Roomy message node node
  recovers : message = .recoverTimeout → setup.Recovers node

theorem Marked.handle {depth : Nat} (met : setup.Unhurried message node)
    (marked : setup.Marked node) (run : setup.handle depth message node = (.ok (), after)) : setup.Marked after := by
  obtain ⟨middle, stages, ending⟩ := handle_stages run
  have kept : setup.Under message node middle ∧ setup.Marked middle ∧
      (message.Processes → setup.Steady message node middle) := by
    clear run ending
    induction stages with
    | refl => exact ⟨.start message node, marked, fun processes => ⟨marked, met.roomy processes⟩⟩
    | tail _ stage ih =>
      exact ⟨ih.1.stage met.duty stage, ih.2.1.stage met.duty met.several met.recovers ih.1 ih.2.2 stage⟩
  exact kept.2.1.ending met.duty met.several kept.1 kept.2.2 ending

theorem startUp_marked (started : setup.startUp surroundings = .ok node) : setup.Marked node := by
  simp only [startUp, Outcome.bind_eq_ok] at started
  obtain ⟨_, _, built⟩ := started
  cases built
  exact Cleared.marked ⟨rfl, rfl, rfl⟩ rfl

end Setup

/-- In every run of such messages, a node that remembers its vote processes the proposal
that it has voted for, and a node that is ready for a new round remembers no vote. -/
theorem flag_current {setup : Setup} {node : Node} (run : Run setup setup.Unhurried node) :
    (node.proposalProcessFinished = true → ∃ proposal, node.processingProposal = some proposal ∧
      setup.Supports proposal node.acceptVotes) ∧ (node.isReady → node.proposalProcessFinished = false) := by
  have marked : setup.Marked node := by
    induction run with
    | start started => exact Setup.startUp_marked started
    | step depth _ met handled ih => exact ih.handle met handled
  exact ⟨fun voted => (marked.voted voted).2.2, marked.unvoted⟩

namespace SmallNode

/-- A plain message to a node that has voted or has no votes. -/
def Calm (message : Message) (node : Node) : Prop :=
  message.isPlain = true ∧ (setup fun _ => 0).PlainDuty message node ∧
    0 < node.surroundings.arbitrators.getArbitersMajorityCount ∧
    (node.proposalProcessFinished = false → node.acceptVotes.entries = [] ∧
      node.rejectedVotes.entries = [] ∧ node.pendingVotes.entries = [])

instance (message : Message) (node : Node) : Decidable (Calm message node) :=
  inferInstanceAs (Decidable (_ ∧ _))

theorem Calm.unhurried {message : Message} {node : Node} (calm : Calm message node) :
    (setup fun _ => 0).Unhurried message node := by
  obtain ⟨plain, duty, enough, none⟩ := calm
  have several : (setup fun _ => 0).Several message node := by
    intro surroundings seen
    rw [seen.eq_of_plain plain]
    exact enough
  refine ⟨duty.dutyOnly plain, fun _ => several, fun _ unvoted => ?_, fun told => ?_⟩
  · obtain ⟨accepts, rejects, waits⟩ := none unvoted
    have cleared : Setup.Cleared node := ⟨AList.ext accepts, AList.ext rejects, AList.ext waits⟩
    exact cleared.roomy several
  · rw [told] at plain
    cases plain

theorem flag_current_voted : ∃ node, Run (setup fun _ => 0) (setup fun _ => 0).Unhurried node ∧
    node.proposalProcessFinished = true ∧ ∃ proposal, node.processingProposal = some proposal ∧
      (setup fun _ => 0).Supports proposal node.acceptVotes := by
  let proposal := proposalBy 2 (block 11 1) 0
  have played : ((playFrom (setup fun _ => 0) Calm 3 (surroundings [1, 2, 3, 4] 1)
      [.block (block 11 1) true, .proposal (Stand.key 2) proposal,
        .acceptVote (voteBy 2 proposal true)]).any fun node =>
          node.proposalProcessFinished) = true := by
    decide +kernel
  obtain ⟨node, reached, voted⟩ := (Option.any_eq_true _ _).1 played
  have run : Run (setup fun _ => 0) (setup fun _ => 0).Unhurried node :=
    (playFrom_run reached).weaken fun _ _ calm => calm.unhurried
  exact ⟨node, run, voted, (flag_current run).1 voted⟩

/-- Two votes wait for their proposal. The vote of the manager is the third one and ends the
round; the flag is set when all the rest has been cleaned. -/
theorem flag_stays : ¬ ∀ (setup : Setup) (node : Node), Run setup (fun _ _ => True) node →
    (node.proposalProcessFinished = true → ∃ proposal, node.processingProposal = some proposal ∧
      setup.Supports proposal node.acceptVotes) ∧ (node.isReady → node.proposalProcessFinished = false) := by
  intro current
  let proposal := proposalBy 2 (block 11 1) 0
  have played : ((playFrom (setup fun _ => 0) (fun _ _ => True) 3 (surroundings [1, 2, 3, 4] 1)
      [.block (block 11 1) true, .acceptVote (voteBy 2 proposal true),
        .acceptVote (voteBy 3 proposal true), .proposal (Stand.key 2) proposal]).any fun node =>
          decide (node.proposalProcessFinished = true ∧ node.isReady)) = true := by
    decide +kernel
  obtain ⟨node, reached, stays⟩ := (Option.any_eq_true _ _).1 played
  obtain ⟨voted, ready⟩ := of_decide_eq_true stays
  have unvoted := (current _ node (playFrom_run reached)).2 ready
  rw [voted] at unvoted
  cases unvoted

end SmallNode
end Elastos.Manager
