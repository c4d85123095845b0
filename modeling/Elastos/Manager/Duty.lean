import Elastos.Manager.Stages

/-! What stays true from the start of a message to its end, and proposals that come from
the arbiter on duty. -/
set_option autoImplicit false
namespace Elastos.Manager
open Go Common Elastos.Types Dpos Blockchain GoMap List
open Relation (ReflTransGen)

/-- A proposal that waits or comes with the message. -/
def Node.Holds (node : Node) (message : Message) (proposal : DPOSProposal) : Prop :=
  proposal ∈ node.waiting ∨ ∃ id, message = .proposal id proposal

namespace Message

/-- Neither the chain nor the arbiters change with the message. -/
def isPlain : Message → Bool
  | .block offered _ => offered.transactions.all fun tx => (inactivePayload? tx).isNone
  | .inactiveArbitratorsAccepted _ | .recoverTimeout | .elsewhere _ => false
  | _ => true

theorem not_carries_of_plain {message : Message} {payload : InactiveArbitrators}
    (plain : message.isPlain = true) : ¬ message.Carries payload := by
  intro told
  cases told with
  | accepted => cases plain
  | included listed evidence =>
    have none := all_eq_true.1 plain _ listed
    rw [evidence] at none
    cases none

/-- A block of the cache or of the message. -/
def Knows (message : Message) (origin : Node) (known : Block) : Prop :=
  origin.Caches known ∨ ∃ valid, message = .block known valid

def proposals : Message → List DPOSProposal
  | .proposal _ sent => [sent]
  | _ => []

end Message

namespace Setup
variable (setup : Setup)

/-- The surroundings that a node can have while it handles a message. -/
inductive Seen (message : Message) (first : Surroundings) : Surroundings → Prop where
  | start : Seen message first first
  | special {surroundings : Surroundings} {payload : InactiveArbitrators}
      (before : Seen message first surroundings) (told : message.Carries payload) :
      Seen message first (setup.processSpecialTxPayload payload surroundings).2
  | elsewhere {surroundings : Surroundings} (told : message = .elsewhere surroundings) : Seen message first surroundings

/-- Every proposal that is delivered or waits, and passes the checks, is from the arbiter
on duty in its view. -/
def DutyOnly (message : Message) (node : Node) : Prop :=
  message.Dispatches → ∀ surroundings, setup.Seen message node.surroundings surroundings →
    ∀ proposal, node.Holds message proposal → setup.proposalCheck { node with surroundings } proposal = true →
      setup.onDutyArbitrator { node with surroundings } proposal.viewOffset = .ok proposal.sponsor

/-- More than one vote is needed. -/
def Several (message : Message) (origin : Node) : Prop :=
  ∀ surroundings, setup.Seen message origin.surroundings surroundings →
    0 < surroundings.arbitrators.getArbitersMajorityCount

/-- What a node in the middle of a message has from its start. -/
structure Under (message : Message) (origin node : Node) : Prop where
  seen : setup.Seen message origin.surroundings node.surroundings
  held : message.Dispatches → ∀ proposal ∈ node.waiting, origin.Holds message proposal
  known : ∀ block, node.Caches block → message.Knows origin block

section Under
variable {setup} {message : Message} {origin node after : Node} {begun : Option Block}
  {late : Prop} {proposal : DPOSProposal} {block : Block} {now : Int} {cleaned : Bool}

theorem Under.start (message : Message) (origin : Node) : setup.Under message origin origin :=
  ⟨.start, fun _ _ waits => .inl waits, fun _ listed => .inl listed⟩

theorem fromView_subset {offset : UInt32} {proposals : GoMap Uint256 DPOSProposal}
    (listed : proposal ∈ GoMap.values (Node.fromView offset proposals)) : proposal ∈ GoMap.values proposals := by
  obtain ⟨pair, member, rfl⟩ := mem_values_ofPairs listed
  exact mem_values_of_mem_pairs (mem_of_mem_filter member)

theorem cleanProposals_waiting {changeView : Bool}
    (waits : proposal ∈ (node.cleanProposals changeView).waiting) : proposal ∈ node.waiting := by
  cases changeView with
  | false => exact absurd waits not_mem_nil
  | true =>
    obtain listed | listed := mem_append.1 waits
    · exact mem_waiting_pending (fromView_subset listed)
    · exact mem_waiting_precocious (fromView_subset listed)

theorem concluded_waiting {height : UInt32} {blockHash : Uint256} {onDuty : Bool}
    (waits : proposal ∈ (node.concluded height blockHash onDuty).waiting) : proposal ∈ node.waiting := by
  refine Node.concluded_elim (motive := fun ended =>
    proposal ∈ ended.waiting → proposal ∈ node.waiting) ?_ ?_ waits
  · intro _ waits
    have before := cleanProposals_waiting waits
    exact before
  · exact fun _ waits => waits

theorem castVote_waiting (other : DPOSProposal) (block : Option Block) :
    (setup.castVote other block node).waiting = node.waiting := rfl

theorem turned_waiting (waits : proposal ∈ (setup.turned now cleaned node).waiting) : proposal ∈ node.waiting := by
  cases cleaned with
  | false => exact waits
  | true =>
    have waits := cleanProposals_waiting waits
    exact waits

theorem Accepted.waiting {opened : Node} {other : DPOSProposal}
    (accepted : setup.Accepted opened other after) (waits : proposal ∈ after.waiting) : proposal ∈ opened.waiting := by
  cases accepted with
  | watched tally =>
    obtain ⟨_, _, rfl⟩ := tally.frame
    exact waits
  | voted tally _ processed =>
    obtain ⟨_, _, rfl⟩ := tally.frame
    obtain ⟨rfl, _⟩ | ⟨rfl, _⟩ := processed
    · exact waits
    · exact waits
  | completed onDuty tally =>
    obtain ⟨_, _, rfl⟩ := tally.frame
    rw [castVote_waiting] at waits
    have before := concluded_waiting waits
    exact before
  | confirmed onDuty _ tally =>
    obtain ⟨_, _, rfl⟩ := tally.frame
    have before := concluded_waiting waits
    exact before
  | outvoted now cleaned _ tally =>
    obtain ⟨_, _, rfl⟩ := tally.frame
    have before := cleanProposals_waiting (turned_waiting waits)
    exact before

section
variable (duty : setup.DutyOnly message origin) (dispatches : message.Dispatches)
include duty dispatches

/-- No proposal is rejected when all of them come from the arbiter on duty. -/
theorem DutyOnly.not_reject (under : setup.Under message origin node)
    (held : proposal ∈ node.waiting ∨ (message.occasion begun late).brings proposal)
    (valid : setup.proposalCheck node proposal = true)
    (current : proposal.viewOffset = node.viewOffset) {onDutyArbitrator : Bytes}
    (onDuty : setup.onDutyArbitrator node node.viewOffset = .ok onDutyArbitrator) :
    onDutyArbitrator = proposal.sponsor := by
  have held := held.elim (under.held dispatches proposal) .inr
  have expected := duty dispatches node.surroundings under.seen proposal held valid
  rw [current] at expected
  exact Except.ok.inj (onDuty.symm.trans expected)

theorem Under.move (under : setup.Under message origin node)
    (move : setup.Move (message.occasion begun late) node after) : setup.Under message origin after := by
  refine ⟨by rw [move.stands.1]; exact under.seen, fun _ proposal waits => ?_, fun block listed =>
    under.known block (by rwa [Node.Caches, move.stands.2] at listed)⟩
  cases move with
  | aside _ listed => exact (listed proposal waits).elim (under.held dispatches proposal) .inr
  | speculate => exact under.held dispatches proposal waits
  | accept opening accepted =>
    have waits := accepted.waiting waits
    cases opening with
    | own => exact under.held dispatches proposal waits
    | heard => exact under.held dispatches proposal waits
  | reject _ other _ held valid current _ onDuty differs =>
    exact absurd (duty.not_reject dispatches under held valid current onDuty) differs

theorem moves_keep {motive : Node → Prop} (step : ∀ before next, setup.Under message origin before → motive before →
      setup.Move (message.occasion begun late) before next → motive next)
    (under : setup.Under message origin node) (holds : motive node)
    (moves : setup.Moves (message.occasion begun late) node after) :
    setup.Under message origin after ∧ motive after := by
  induction moves with
  | refl => exact ⟨under, holds⟩
  | tail _ move ih => exact ⟨ih.1.move duty dispatches move, step _ _ ih.1 ih.2 move⟩

end

theorem Under.shrink (under : setup.Under message origin node)
    (stands : after.Stands node.surroundings node.consensusBlocks)
    (fewer : ∀ proposal ∈ after.waiting, proposal ∈ node.waiting) : setup.Under message origin after := by
  constructor
  · rw [stands.1]
    exact under.seen
  · intro dispatches proposal waits
    exact under.held dispatches proposal (fewer proposal waits)
  · intro block listed
    rw [Node.Caches, stands.2] at listed
    exact under.known block listed

theorem Under.caching (under : setup.Under message origin node)
    (known : message.Knows origin block) : setup.Under message origin (setup.cached block node) := by
  refine ⟨under.seen, under.held, fun other listed => ?_⟩
  obtain rfl | before := mem_values_insert listed
  · exact known
  · exact under.known other before

theorem started_caches {other : Block} (listed : (setup.started block node).Caches other) :
    node.Caches other ∧ ¬ other.height < block.height := by
  obtain ⟨pair, member, rfl⟩ := mem_values_ofPairs listed
  obtain ⟨kept, among, rfl⟩ := mem_map.1 member
  obtain ⟨iterated, high⟩ := mem_filter.1 among
  exact ⟨(setup.runtime.iterate_perm _).mem_iff.1 iterated, of_decide_eq_true high⟩

theorem Under.outvoted {vote : DPOSProposalVote} (under : setup.Under message origin node) : setup.Under message origin
      (setup.turned now cleaned ((node.rejecting setup.prim vote).cleanProposals true)) :=
  under.shrink (turned_stands ⟨rfl, rfl⟩) fun _ waits =>
    cleanProposals_waiting (turned_waiting waits)

theorem Under.event (under : setup.Under message origin node)
    (event : setup.Event message origin node after) : setup.Under message origin after := by
  cases event with
  | aside _ same => exact under.shrink ⟨rfl, rfl⟩ fun _ waits => same ▸ waits
  | tick => exact under.shrink (turned_stands ⟨rfl, rfl⟩) fun _ => turned_waiting
  | confirm | conclude =>
    exact under.shrink (concluded_stands ⟨rfl, rfl⟩) fun _ => concluded_waiting
  | emergency => exact under.shrink ⟨rfl, rfl⟩ fun _ => cleanProposals_waiting
  | special told => exact ⟨.special under.seen told, under.held, under.known⟩
  | elsewhere told => exact ⟨.elsewhere told, under.held, under.known⟩
  | recover _ told =>
    refine ⟨under.seen, fun dispatches => ?_, under.known⟩
    rw [told] at dispatches
    exact dispatches.elim
  | pend | count | refuse => exact { under with }
  | unload => exact ⟨under.seen, under.held, fun _ listed => absurd listed not_mem_values_empty⟩
  | reload _ kept => exact under.caching (.inl kept)

theorem Under.moves (duty : setup.DutyOnly message origin) (dispatches : message.Dispatches)
    (under : setup.Under message origin node) (moves : setup.Moves (message.occasion begun late) node after) :
    setup.Under message origin after :=
  (moves_keep duty dispatches (fun _ _ _ _ _ => trivial) under trivial moves).1

theorem Under.stage (duty : setup.DutyOnly message origin) (under : setup.Under message origin node)
    (stage : setup.Stage message origin node after) : setup.Under message origin after := by
  cases stage with
  | event event => exact under.event event
  | dispatch processes moves => exact under.moves duty processes.dispatches moves
  | outvoted cleaned told _ _ _ _ moves =>
    have dispatches : message.Dispatches := by rw [told]; trivial
    exact under.outvoted.moves duty dispatches moves

theorem Usable.processes (usable : Usable message node block) : message.Processes := by
  rw [usable.told]
  trivial

theorem Usable.knows (usable : Usable message node block) : message.Knows origin block :=
  .inr ⟨true, usable.told⟩

theorem Under.started (under : setup.Under message origin node) (known : message.Knows origin block) :
    setup.Under message origin (setup.cached block (setup.started block node)) := by
  apply Under.caching _ known
  exact ⟨under.seen, under.held, fun other listed => under.known other (started_caches listed).1⟩

end Under

section Plain
variable {setup} {message : Message} {node : Node}

theorem Seen.eq_of_plain {first surroundings : Surroundings} (plain : message.isPlain = true)
    (seen : setup.Seen message first surroundings) : surroundings = first := by
  cases seen with
  | start => rfl
  | special _ told => exact absurd told (Message.not_carries_of_plain plain)
  | elsewhere told =>
    rw [told] at plain
    cases plain

/-- The condition on the proposals, for a message that brings no evidence. -/
def PlainDuty (setup : Setup) (message : Message) (node : Node) : Prop :=
  ∀ proposal ∈ node.waiting ++ message.proposals, setup.proposalCheck node proposal = true →
    (setup.onDutyArbitrator node proposal.viewOffset).toOption = some proposal.sponsor

instance (message : Message) (node : Node) : Decidable (setup.PlainDuty message node) :=
  inferInstanceAs (Decidable (∀ _ ∈ _, _))

theorem PlainDuty.dutyOnly (duty : setup.PlainDuty message node)
    (plain : message.isPlain = true) : setup.DutyOnly message node := by
  intro _ surroundings seen proposal held valid
  cases seen.eq_of_plain plain
  have listed : proposal ∈ node.waiting ++ message.proposals := by
    apply mem_append.2
    obtain waits | ⟨id, rfl⟩ := held
    · exact .inl waits
    · exact .inr mem_cons_self
  have found := duty proposal listed valid
  cases onDuty : setup.onDutyArbitrator node proposal.viewOffset with
  | ok key =>
    rw [onDuty] at found
    cases found
    rfl
  | error _ =>
    rw [onDuty] at found
    cases found

end Plain
end Setup
end Elastos.Manager
