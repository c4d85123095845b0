import Elastos.Manager.Refinement

/-! What counting the votes that have waited for a proposal comes to. -/
set_option autoImplicit false
namespace Elastos.Manager
open Go Common Elastos.Types Blockchain GoMap List
namespace Setup
variable (setup : Setup)
variable (surroundings : Surroundings) (proposalHash : Uint256) (votes : List DPOSProposalVote)

def validVotes : List DPOSProposalVote :=
  votes.filter fun vote => vote.proposalHash = proposalHash ∧ (voteSanityCheck setup.prim vote).isOk = true ∧
    (voteContextCheck surroundings.arbitrators vote).isOk = true

def support : List DPOSProposalVote :=
  (setup.validVotes surroundings proposalHash votes).filter fun vote => vote.accept

/-- Votes are filed under their hashes. -/
def Keyed (votes : GoMap Uint256 DPOSProposalVote) : Prop :=
  ∀ key vote, votes.lookup key = some vote → key = vote.hash setup.prim

section Keyed
variable {setup} {votes : GoMap Uint256 DPOSProposalVote}

theorem Keyed.empty : setup.Keyed ∅ := fun _ _ found => nomatch found

theorem Keyed.insert (keyed : setup.Keyed votes) (vote : DPOSProposalVote) :
    setup.Keyed (votes.insert (vote.hash setup.prim) vote) := by
  intro key other found
  rw [lookup_insert_eq] at found
  split at found
  case isTrue same =>
    cases found
    exact same
  case isFalse => exact keyed key other found

theorem Keyed.ofPairs (list : List DPOSProposalVote) :
    setup.Keyed (ofPairs (list.map fun vote => (vote.hash setup.prim, vote))) := by
  intro key vote found
  obtain ⟨_, _, equal⟩ := mem_map.1 (mem_of_lookup_ofPairs found)
  cases equal
  rfl

theorem Keyed.hashes_nodup (keyed : setup.Keyed votes) : ((values votes).map (·.hash setup.prim)).Nodup := by
  apply values_map_nodup
  intro first second one two firstFound secondFound equal
  rw [keyed first one firstFound, keyed second two secondFound]
  exact equal

end Keyed

section Tally
variable {setup} {node after : Node} {vote other : DPOSProposalVote} {proposal : DPOSProposal}
  {votes : List DPOSProposalVote} {surroundings : Surroundings}

theorem validVotes_perm {list : List DPOSProposalVote} (perm : votes.Perm list)
    (proposalHash : Uint256) : (setup.validVotes surroundings proposalHash votes).Perm
      (setup.validVotes surroundings proposalHash list) :=
  perm.filter _

theorem mem_validVotes {proposalHash : Uint256} : vote ∈ setup.validVotes node.surroundings proposalHash votes ↔
      vote ∈ votes ∧ vote.proposalHash = proposalHash ∧ setup.voteCheck node vote = true := by
  rw [validVotes, mem_filter, decide_eq_true_iff, voteCheck, Bool.and_eq_true]

theorem validVotes_cons_of_valid (named : vote.proposalHash = proposal.hash setup.prim)
    (valid : setup.voteCheck node vote = true) (rest : List DPOSProposalVote) :
    setup.validVotes node.surroundings (proposal.hash setup.prim) (vote :: rest) =
      vote :: setup.validVotes node.surroundings (proposal.hash setup.prim) rest := by
  apply filter_cons_of_pos
  exact decide_eq_true ⟨named, Bool.and_eq_true_iff.1 valid⟩

theorem mem_validVotes_cons {proposalHash : Uint256}
    (waited : other ∈ setup.validVotes node.surroundings proposalHash votes) :
    other ∈ setup.validVotes node.surroundings proposalHash (vote :: votes) := by
  obtain ⟨member, valid⟩ := mem_validVotes.1 waited
  exact mem_validVotes.2 ⟨mem_cons_of_mem _ member, valid⟩

theorem support_cons_of_valid (named : vote.proposalHash = proposal.hash setup.prim)
    (valid : setup.voteCheck node vote = true) (said : vote.accept = true) (rest : List DPOSProposalVote) :
    (setup.support node.surroundings (proposal.hash setup.prim) (vote :: rest)).length =
      (setup.support node.surroundings (proposal.hash setup.prim) rest).length + 1 := by
  unfold support
  rw [validVotes_cons_of_valid named valid, filter_cons_of_pos said, length_cons]

theorem Countable.absent (countable : setup.Countable node vote) :
    node.acceptVotes.lookup (vote.hash setup.prim) = none ∧
      node.rejectedVotes.lookup (vote.hash setup.prim) = none := by
  have fresh := countable.2.1
  simpa [Node.alreadyExistVote] using fresh

/-- Every counted vote has been counted before or has waited. -/
theorem Tally.mem_acceptVotes (tally : setup.Tally proposal votes node after)
    (listed : other ∈ values after.acceptVotes) : other ∈ values node.acceptVotes ∨
      other.accept = true ∧ other ∈ setup.validVotes node.surroundings (proposal.hash setup.prim) votes := by
  induction tally with
  | nil => exact .inl listed
  | skip _ _ ih =>
    exact (ih listed).imp_right fun ⟨said, waited⟩ => ⟨said, mem_validVotes_cons waited⟩
  | accept named said countable _ _ ih =>
    obtain before | ⟨saidToo, waited⟩ := ih listed
    · obtain rfl | before := mem_values_insert before
      · exact .inr ⟨said, mem_validVotes.2 ⟨mem_cons_self, named, countable.1⟩⟩
      · exact .inl before
    · exact .inr ⟨saidToo, mem_validVotes_cons waited⟩
  | reject _ _ _ _ ih =>
    exact (ih listed).imp_right fun ⟨said, waited⟩ => ⟨said, mem_validVotes_cons waited⟩

theorem Tally.mem_rejectedVotes (tally : setup.Tally proposal votes node after)
    (listed : other ∈ values after.rejectedVotes) : other ∈ values node.rejectedVotes ∨
      other.accept = false ∧ other ∈ setup.validVotes node.surroundings (proposal.hash setup.prim) votes := by
  induction tally with
  | nil => exact .inl listed
  | skip _ _ ih | accept _ _ _ _ _ ih =>
    exact (ih listed).imp_right fun ⟨said, waited⟩ => ⟨said, mem_validVotes_cons waited⟩
  | reject named said countable _ ih =>
    obtain before | ⟨saidToo, waited⟩ := ih listed
    · obtain rfl | before := mem_values_insert before
      · exact .inr ⟨said, mem_validVotes.2 ⟨mem_cons_self, named, countable.1⟩⟩
      · exact .inl before
    · exact .inr ⟨saidToo, mem_validVotes_cons waited⟩

theorem support_cons_le (surroundings : Surroundings) (proposalHash : Uint256)
    (vote : DPOSProposalVote) (rest : List DPOSProposalVote) : (setup.support surroundings proposalHash rest).length ≤
      (setup.support surroundings proposalHash (vote :: rest)).length := by
  apply List.Sublist.length_le
  exact ((sublist_cons_self vote rest).filter _).filter _

theorem Tally.length_le (tally : setup.Tally proposal votes node after) :
    after.acceptVotes.entries.length ≤ node.acceptVotes.entries.length +
      (setup.support node.surroundings (proposal.hash setup.prim) votes).length := by
  induction tally with
  | nil => exact Nat.le_add_right _ _
  | @skip vote rest node _ _ _ ih =>
    exact ih.trans (Nat.add_le_add_left (support_cons_le _ _ vote rest) _)
  | @accept vote rest node _ named said countable _ _ ih =>
    have one := length_insert_le node.acceptVotes (vote.hash setup.prim) vote
    have more := support_cons_of_valid named countable.1 said rest
    calc _ ≤ (node.acceptVotes.insert (vote.hash setup.prim) vote).entries.length +
          (setup.support node.surroundings (proposal.hash setup.prim) rest).length := ih
      _ ≤ _ := by omega
  | @reject vote rest node _ _ _ _ _ ih =>
    exact ih.trans (Nat.add_le_add_left (support_cons_le _ _ vote rest) _)

/-- A count that has gone to its end has not reached the majority. -/
theorem Tally.not_majority {block : Block} (tally : setup.Tally proposal votes node after)
    (processes : node.processingBlock = some block) : after.acceptVotes = node.acceptVotes ∨ ¬ after.hasMajority := by
  induction tally with
  | nil => exact .inl rfl
  | skip _ _ ih => exact ih processes
  | reject _ _ _ _ ih => exact ih processes
  | accept _ _ _ fewer others ih =>
    right
    obtain same | few := ih processes
    · obtain ⟨_, _, rfl⟩ := others.frame
      obtain idle | few := fewer
      · rw [idle] at processes
        cases processes
      intro enough
      apply few
      rw [Node.hasMajority, same] at enough
      exact enough
    · exact few

/-- Votes that no counted one stands in the way of, each of another signer. -/
structure Fresh (setup : Setup) (votes : List DPOSProposalVote) (node : Node) : Prop where
  hashes : (votes.map (·.hash setup.prim)).Nodup
  signers : (votes.map (·.signer)).Nodup
  absent : ∀ vote ∈ votes, node.alreadyExistVote setup.prim vote = false
  apart : ∀ vote ∈ votes, ∀ other, other ∈ values node.acceptVotes ∨
    other ∈ values node.rejectedVotes → vote.signer ≠ other.signer

section
variable (fresh : setup.Fresh (vote :: votes) node)
include fresh

theorem Fresh.countable (valid : setup.voteCheck node vote = true) : setup.Countable node vote := by
  refine ⟨valid, fresh.absent vote mem_cons_self, ?_⟩
  apply find?_eq_none.2
  intro other listed illegal
  have listed : other ∈ values node.acceptVotes ∨ other ∈ values node.rejectedVotes :=
    (mem_append.1 listed).imp (setup.runtime.iterate_perm _).mem_iff.1 (setup.runtime.iterate_perm _).mem_iff.1
  exact fresh.apart vote mem_cons_self other listed (of_decide_eq_true illegal).1

theorem Fresh.tail_of (exist : ∀ other, after.alreadyExistVote setup.prim other = true →
      node.alreadyExistVote setup.prim other = true ∨ other.hash setup.prim = vote.hash setup.prim)
    (counted : ∀ other, other ∈ values after.acceptVotes ∨
      other ∈ values after.rejectedVotes → other = vote ∨
        (other ∈ values node.acceptVotes ∨ other ∈ values node.rejectedVotes)) :
    setup.Fresh votes after where
  hashes := (nodup_cons.1 fresh.hashes).2
  signers := (nodup_cons.1 fresh.signers).2
  absent other listed := by
    apply Bool.eq_false_iff.2
    intro exists_
    obtain before | same := exist other exists_
    · rw [fresh.absent other (mem_cons_of_mem _ listed)] at before
      cases before
    · exact (nodup_cons.1 fresh.hashes).1 (mem_map.2 ⟨other, listed, same⟩)
  apart later listed other member same := by
    obtain rfl | before := counted other member
    · exact (nodup_cons.1 fresh.signers).1 (mem_map.2 ⟨later, listed, same⟩)
    · exact fresh.apart later (mem_cons_of_mem _ listed) other before same

theorem Fresh.accepting : setup.Fresh votes (node.accepting setup.prim vote) := by
  apply fresh.tail_of
  · intro other exists_
    simp only [Node.alreadyExistVote, Node.accepting, lookup_insert_eq] at exists_ ⊢
    split at exists_
    case isTrue same => exact .inr same
    case isFalse => exact .inl exists_
  · rintro other (listed | listed)
    · exact (mem_values_insert listed).imp_right .inl
    · exact .inr (.inr listed)

theorem Fresh.rejecting : setup.Fresh votes (node.rejecting setup.prim vote) := by
  apply fresh.tail_of
  · intro other exists_
    simp only [Node.alreadyExistVote, Node.rejecting, lookup_insert_eq] at exists_ ⊢
    split at exists_
    case isTrue same => exact .inr same
    case isFalse => exact .inl exists_
  · rintro other (listed | listed)
    · exact .inr (.inl listed)
    · exact (mem_values_insert listed).imp_right .inr

end

theorem Tally.length_eq (tally : setup.Tally proposal votes node after) (fresh : setup.Fresh
      (setup.validVotes node.surroundings (proposal.hash setup.prim) votes) node) :
    after.acceptVotes.entries.length = node.acceptVotes.entries.length +
      (setup.support node.surroundings (proposal.hash setup.prim) votes).length := by
  induction tally with
  | nil => rfl
  | @skip vote rest node _ uncounted _ ih =>
    by_cases valid : vote.proposalHash = proposal.hash setup.prim ∧ setup.voteCheck node vote = true
    · rw [validVotes_cons_of_valid valid.1 valid.2] at fresh
      exact absurd (fresh.countable valid.2) (uncounted valid.1)
    have same : setup.validVotes node.surroundings (proposal.hash setup.prim) (vote :: rest) =
        setup.validVotes node.surroundings (proposal.hash setup.prim) rest := by
      apply filter_cons_of_neg
      rw [decide_eq_true_iff, ← Bool.and_eq_true]
      exact valid
    rw [same] at fresh
    rw [support, same]
    exact ih fresh
  | @accept vote rest node _ named said countable _ _ ih =>
    rw [validVotes_cons_of_valid named countable.1] at fresh
    have one := length_insert_of_absent vote countable.absent.1
    calc _ = (node.acceptVotes.insert (vote.hash setup.prim) vote).entries.length +
          (setup.support node.surroundings (proposal.hash setup.prim) rest).length :=
        ih fresh.accepting
      _ = _ := by
        rw [support_cons_of_valid named countable.1 said, one]
        omega
  | @reject vote rest node _ named said countable _ ih =>
    rw [validVotes_cons_of_valid named countable.1] at fresh
    have against : ¬ vote.accept = true := by rw [said]; exact Bool.noConfusion
    rw [support, validVotes_cons_of_valid named countable.1, filter_cons_of_neg against]
    exact ih fresh.rejecting

end Tally
end Setup
end Elastos.Manager
