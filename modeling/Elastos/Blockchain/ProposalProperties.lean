import Elastos.Blockchain.ChainRun

/-! Proposals along a chain: what is withdrawn for them, and how they age. -/
set_option autoImplicit false
namespace Elastos.Blockchain
open Go Common Elastos.Types Cr Outcome BlockChain List Config Crypto Committee Treasury Stand

def BlockStep.WithdrawsOnce (step : BlockStep) : Prop :=
  (step.checked.transactions.filterMap Treasury.withdrawnProposal).Nodup

instance (step : BlockStep) : Decidable step.WithdrawsOnce :=
  inferInstanceAs (Decidable (List.Nodup _))

variable (steps : List BlockStep) (hash : Uint256)

def totalWithdrawn : Int :=
  (steps.map fun step => Treasury.paid step.checked.transactions hash).sum

def BlockStep.withdrawable (step : BlockStep) (hash : Uint256) : List (UInt8 × Fixed64) :=
  match step.after.frame.getProposal hash with
  | none => []
  | some proposal => GoMap.pairs proposal.withdrawableBudgets

/-- The stages of a proposal that have ever been withdrawable, with their amounts. -/
def enteredStages : List (UInt8 × Fixed64) :=
  (steps.flatMap fun step => step.withdrawable hash).dedup

section
variable {prim : Primitives} {params : Params} {steps : List BlockStep} {height : UInt32}
  {committee : Committee}

section
variable (run : Run prim params 0 initial steps height committee)
  (identified : ∀ step ∈ steps, step.ProposalsIdentified)

include run identified

theorem Run.totalWithdrawn_le (once : ∀ step ∈ steps, step.WithdrawsOnce) (hash : Uint256) :
    totalWithdrawn steps hash ≤ committee.frame.treasury.drawn hash := by
  induction run with
  | nil => simp [totalWithdrawn, Treasury.drawn, Frame.treasury, initial, Frame.initial]
  | @snoc steps step height committee run next ih =>
    have earlier : ∀ other ∈ steps, other ∈ steps ++ [step] := fun other member => mem_append_left _ member
    have drawn := ih (fun other member => identified other (earlier other member))
      fun other member => once other (earlier other member)
    have settled := run.settled (settled_initial params) fun other member => identified other (earlier other member)
    obtain ⟨_, treasuryStep, admits⟩ := settled.extend next (identified step (by simp))
    have paid := treasuryStep.paid_le (by rw [next.before]; exact settled.sound) admits (once step (by simp)) hash
    rw [next.before] at paid
    simp only [totalWithdrawn, map_append, sum_append, map_cons, map_nil, sum_cons, sum_nil] at drawn ⊢
    omega

theorem Run.sound_after : ∀ step ∈ steps, step.after.frame.treasury.Sound := by
  induction run with
  | nil => simp
  | @snoc steps step height committee run next ih =>
    have earlier : ∀ other ∈ steps, other.ProposalsIdentified :=
      fun other member => identified other (mem_append_left _ member)
    intro other member
    rcases mem_append.1 member with member | member
    · exact ih earlier other member
    · rw [mem_singleton.1 member]
      exact ((run.settled (settled_initial params) earlier).extend next (identified step (by simp))).1.sound

theorem enteredStages_nonneg (hash : Uint256) : ∀ entry ∈ enteredStages steps hash, 0 ≤ entry.2.toInt := by
  rintro ⟨stage, amount⟩ member
  obtain ⟨step, stepMember, member⟩ := mem_flatMap.1 (mem_dedup.1 member)
  unfold BlockStep.withdrawable at member
  split at member
  · simp at member
  rename_i proposal found
  have hasFund : step.after.frame.treasury.funds hash = some proposal.fund := by
    rw [treasury_funds, found, Option.map_some]
  exact (run.sound_after identified step stepMember hash _ hasFund).withdrawable_nonneg (GoMap.mem_pairs_iff.1 member)

/-- What has been withdrawn is covered by the stages that have been entered. -/
theorem Run.drawn_le_entered (hash : Uint256) : committee.frame.treasury.drawn hash ≤
      exactSum ((enteredStages steps hash).map Prod.snd) := by
  have nonneg := enteredStages_nonneg run identified hash
  have sound := (run.settled (settled_initial params) identified).sound
  have total : 0 ≤ exactSum ((enteredStages steps hash).map Prod.snd) := by
    refine exactSum_nonneg fun amount member => ?_
    obtain ⟨entry, entryMember, rfl⟩ := mem_map.1 member
    exact nonneg entry entryMember
  unfold Treasury.drawn
  cases found : committee.frame.getProposal hash with
  | none => simpa [treasury_funds, found] using total
  | some proposal =>
    have hasFund : committee.frame.treasury.funds hash = some proposal.fund := by
      rw [treasury_funds, found, Option.map_some]
    rw [hasFund, Option.elim_some]
    refine (sound hash _ hasFund).drawn_le.trans (GoMap.total_le_exactSum ?_ nonneg)
    intro entry member
    cases run with
    | nil => simp [initial, Frame.initial, Frame.getProposal] at found
    | @snoc steps step =>
      refine mem_dedup.2 (mem_flatMap.2 ⟨step, by simp, ?_⟩)
      rw [BlockStep.withdrawable, found]
      exact member

end

/-- Stages are paid at most once along chains without two withdrawals of one proposal
in a block. -/
theorem withdrawals_within_entered (run : Run prim params 0 initial steps height committee)
    (identified : ∀ step ∈ steps, step.ProposalsIdentified)
    (once : ∀ step ∈ steps, step.WithdrawsOnce) (hash : Uint256) :
    totalWithdrawn steps hash ≤ exactSum ((enteredStages steps hash).map Prod.snd) :=
  (run.totalWithdrawn_le identified once hash).trans (run.drawn_le_entered identified hash)

end

namespace SmallChain

def withdrawingOnce : List Block :=
  campaign ++ filled 7 [] :: granting ++ [filled 11 [withdrawing 6]]

theorem withdrawingOnce_within_entered : ∃ steps height committee,
      Run Stand.primitives params 0 initial steps height committee ∧
        totalWithdrawn steps proposalHash = 1000 ∧ totalWithdrawn steps proposalHash ≤
          exactSum ((enteredStages steps proposalHash).map Prod.snd) := by
  have played : (play genesisChain previousNode 0 initial withdrawingOnce).any
      (fun reached => decide ((∀ step ∈ reached.1, step.ProposalsIdentified) ∧
        (∀ step ∈ reached.1, step.WithdrawsOnce) ∧ totalWithdrawn reached.1 proposalHash = 1000)) = true := by
    decide +kernel
  obtain ⟨⟨steps, height, committee⟩, found, holds⟩ := (Option.any_eq_true _ _).1 played
  obtain ⟨identified, once, total⟩ := of_decide_eq_true holds
  have run := genesisChain_run .nil found
  exact ⟨steps, height, committee, run, total, withdrawals_within_entered run identified once proposalHash⟩

def withdrawingTwice : List Block :=
  campaign ++ filled 7 [] :: granting ++ [filled 11 [withdrawing 6, withdrawing 7]]

theorem withdrawingTwice_beyond_entered : ∃ steps height committee,
      Run Stand.primitives params 0 initial steps height committee ∧
        (∀ step ∈ steps, step.ProposalsIdentified) ∧ ¬ totalWithdrawn steps proposalHash ≤
          exactSum ((enteredStages steps proposalHash).map Prod.snd) := by
  have played : (play genesisChain previousNode 0 initial withdrawingTwice).any
      (fun reached => decide ((∀ step ∈ reached.1, step.ProposalsIdentified) ∧ ¬ totalWithdrawn reached.1 proposalHash ≤
          exactSum ((enteredStages reached.1 proposalHash).map Prod.snd))) = true := by
    decide +kernel
  obtain ⟨⟨steps, height, committee⟩, found, holds⟩ := (Option.any_eq_true _ _).1 played
  exact ⟨steps, height, committee, genesisChain_run .nil found, of_decide_eq_true holds⟩

end SmallChain

section
variable {prim : Primitives} {params : Params} {earlier later : List BlockStep} {height last : UInt32}
  {committee final : Committee}

theorem Run.ages (run : Run prim params height committee later last final) (settled : Settled params height committee)
    (identified : ∀ step ∈ later, step.ProposalsIdentified) :
    committee.frame.treasury.Ages final.frame.treasury := by
  induction run with
  | nil => exact fun _ fund found => ⟨fund, found, .refl fund⟩
  | @snoc steps step _ _ run next ih =>
    have among : ∀ other ∈ steps, other.ProposalsIdentified := fun other member =>
      identified other (List.mem_append_left _ member)
    obtain ⟨_, treasuryStep, admits⟩ := (run.settled settled among).extend next (identified step (by simp))
    rw [next.before] at treasuryStep admits
    exact (ih among).trans (treasuryStep.ages admits)

/-- Proposals stay with their content, go forward only, and are paid from budgets that were released to them. -/
theorem proposals_age (reached : Run prim params 0 Committee.initial earlier height committee)
    (run : Run prim params height committee later last final)
    (identified : ∀ step ∈ earlier ++ later, step.ProposalsIdentified) :
    committee.frame.treasury.Ages final.frame.treasury ∧ final.frame.treasury.Sound := by
  have settled := reached.settled (settled_initial params) fun step member =>
    identified step (List.mem_append_left _ member)
  have rest : ∀ step ∈ later, step.ProposalsIdentified := fun step member =>
    identified step (List.mem_append_right _ member)
  exact ⟨run.ages settled rest, (run.settled settled rest).sound⟩

end

namespace SmallChain

theorem ending_ages : ∃ height committee later last final, (committee.frame.treasury.funds proposalHash).isSome ∧
      Run primitives params height committee later last final ∧
      committee.frame.treasury.Ages final.frame.treasury ∧ final.frame.treasury.Sound := by
  have played : (play genesisChain previousNode 0 Committee.initial (campaign ++ filled 7 [] :: granting)).any
      (fun reached => (play genesisChain previousNode reached.2.1 reached.2.2 [filled 11 [ending 3]]).any fun ended =>
        decide ((reached.2.2.frame.treasury.funds proposalHash).isSome ∧
          ∀ step ∈ reached.1 ++ ended.1, step.ProposalsIdentified)) = true := by
    decide +kernel
  obtain ⟨⟨earlier, height, committee⟩, reached, played⟩ := (Option.any_eq_true _ _).1 played
  obtain ⟨⟨later, last, final⟩, ended, holds⟩ := (Option.any_eq_true _ _).1 played
  obtain ⟨known, identified⟩ := of_decide_eq_true holds
  have run := genesisChain_run .nil ended
  exact ⟨height, committee, later, last, final, known, run,
    proposals_age (genesisChain_run .nil reached) run identified⟩

end SmallChain
end Elastos.Blockchain
