import Elastos.Blockchain.ChainRun
import Elastos.Cr.TreasuryCover

/-! The budgets of an accepted proposal, and the amount that a committee has in use of its stage. -/
set_option autoImplicit false
namespace Elastos.Blockchain
open Go Common Elastos.Types Cr Outcome BlockChain List Config Crypto Committee Treasury Stand

/-- Budgets in the order of their stages. -/
structure BudgetsOrdered (budgets : List Budget) : Prop where
  consecutive : ∃ first, budgets.map (·.stage) = (List.range budgets.length).map fun index => first + UInt8.ofNat index
  distinct : (budgets.map (·.stage)).Nodup
  oneImprest : budgets.countP (·.budgetType = imprest) ≤ 1
  imprestFirst : ∀ budget ∈ budgets, budget.budgetType = imprest → budget.stage = 0
  oneFinal : budgets.countP (·.budgetType = finalPayment) = 1
  finalLast : ∃ last, budgets.getLast? = some last ∧ last.budgetType = finalPayment

/-- What the checks are to establish of the budgets of a proposal, without wrapping. -/
structure BudgetsCapped (committee : Frame) (proposalsUsedAmount : Fixed64) (budgets : List Budget) : Prop where
  share : 10 * exactSum (budgets.map (·.amount)) ≤ committee.crcCurrentStageAmount.toInt
  rest : exactSum (budgets.map (·.amount)) ≤ committee.crcCurrentStageAmount.toInt -
    committee.crcCommitteeUsedAmount.toInt - proposalsUsedAmount.toInt
  ordered : ∃ sorted, sorted.Perm budgets ∧ BudgetsOrdered sorted

/-- The total does not wrap, other proposals have not used more than a stage can
have, and a proposal with an imprest has a budget for stage 0. -/
structure PlainBudgets (proposalsUsedAmount : Fixed64) (budgets : List Budget) : Prop where
  total : exactSum (budgets.map (·.amount)) < 2 ^ 63
  used : proposalsUsedAmount.toInt ≤ 2 ^ 62
  imprest : (∃ budget ∈ budgets, budget.budgetType = imprest) → ∃ budget ∈ budgets, budget.stage = 0

section Checks
variable {sorted : List Budget} {amount used : Fixed64}
  {committee : Frame}

theorem checkBudgets_wrapped (checked : checkBudgets sorted = .ok amount) :
    amount = wrappedSum (sorted.map (·.amount)) := by
  unfold checkBudgets at checked
  split at checked
  · simp only [bind_eq_ok, exists_unit, reject_eq_ok, require_eq_ok, Except.ok.injEq] at checked
    obtain ⟨_, _, _, count, counted, _, _, rfl⟩ := checked
    exact (countBudget_loop counted).2.2.1
  · cases checked

theorem checkBudgets_ordered (short : sorted.length ≤ maxBudgetsCount)
    (starts : (∃ budget ∈ sorted, budget.budgetType = imprest) → ∃ budget ∈ sorted, budget.stage = 0)
    (checked : checkBudgets sorted = .ok amount) : BudgetsOrdered sorted := by
  unfold checkBudgets at checked
  split at checked
  · rename_i first last isFirst isLast
    simp only [bind_eq_ok, exists_unit, reject_eq_ok, require_eq_ok, Except.ok.injEq] at checked
    obtain ⟨imprestZero, otherOne, lastFinal, count, counted, fewImprests, oneFinal, rfl⟩ := checked
    obtain ⟨stages, _, _, imprests, finals⟩ := countBudget_loop counted
    rw [imprests, Nat.zero_add, not_lt] at fewImprests
    rw [finals, Nat.zero_add] at oneFinal
    refine ⟨⟨_, stages⟩, ?_, fewImprests, ?_, oneFinal, last, isLast, lastFinal⟩
    · rw [stages]
      exact consecutive_nodup _ (short.trans (by decide))
    · intro budget member isImprest
      -- a budget of stage 0 is the first one, which is then the only imprest
      have firstImprest : first.budgetType = imprest := by
        by_contra other
        obtain ⟨zero, zeroMember, isZero⟩ := starts ⟨budget, member, isImprest⟩
        have listed := mem_map_of_mem (f := fun budget : Budget => budget.stage) zeroMember
        rw [stages, isZero] at listed
        obtain ⟨index, inside, wraps⟩ := mem_map.1 listed
        have bound := (mem_range.1 inside).trans_le short
        have wraps := congrArg UInt8.toNat wraps
        simp only [not_not.1 fun stage => otherOne ⟨other, stage⟩, UInt8.toNat_add,
          UInt8.toNat_ofNat', maxBudgetsCount] at wraps bound
        change (1 + index % 256) % 256 = 0 at wraps
        omega
      obtain ⟨rest, rfl⟩ := head?_eq_some_iff.1 isFirst
      rcases mem_cons.1 member with rfl | later
      · exact not_not.1 fun other => imprestZero ⟨isImprest, other⟩
      have another : 0 < rest.countP (·.budgetType = imprest) :=
        countP_pos_iff.2 ⟨budget, later, decide_eq_true isImprest⟩
      rw [countP_cons, if_pos (decide_eq_true firstImprest)] at fewImprests
      omega
  · cases checked

/-- The product may wrap, but only to a smaller number. -/
theorem percentage_le {stageAmount : Fixed64} (low : 0 ≤ stageAmount.toInt) :
    10 * (stageAmount * crcProposalBudgetsPercentage / 100).toInt ≤ stageAmount.toInt := by
  have product : (stageAmount * crcProposalBudgetsPercentage).toInt ≤ stageAmount.toInt * 10 := by
    obtain ⟨turns, wrapped⟩ := exists_bmod_eq (stageAmount.toInt * 10)
    have small := Int64.toInt_lt (stageAmount * crcProposalBudgetsPercentage)
    have same : (stageAmount * crcProposalBudgetsPercentage).toInt = _ := (Int64.toInt_mul _ _).trans wrapped
    omega
  have quotient := Int.tdiv_le_tdiv (c := 100) (by decide) product
  rw [Int.tdiv_eq_ediv_of_nonneg (a := stageAmount.toInt * 10) (by omega)] at quotient
  rw [Int64.toInt_div_of_ne_right _ _ (by decide)]
  change 10 * (stageAmount * crcProposalBudgetsPercentage).toInt.tdiv 100 ≤ _
  omega

theorem remainder_le (stage : 0 ≤ committee.crcCurrentStageAmount.toInt)
    (spent : committee.crcCommitteeUsedAmount.toInt < 2 ^ 62) (others : used.toInt ≤ 2 ^ 62) :
    (committee.crcCurrentStageAmount - committee.crcCommitteeUsedAmount - used).toInt ≤
      committee.crcCurrentStageAmount.toInt - committee.crcCommitteeUsedAmount.toInt - used.toInt := by
  obtain ⟨first, between⟩ := sub_turns committee.crcCurrentStageAmount committee.crcCommitteeUsedAmount
  obtain ⟨second, total⟩ := sub_turns (committee.crcCurrentStageAmount - committee.crcCommitteeUsedAmount) used
  have small := Int64.toInt_lt (committee.crcCurrentStageAmount - committee.crcCommitteeUsedAmount - used)
  omega

/-- What the checks compare is the true total, unless it wraps. -/
theorem checkCRCProposal_total {chain : BlockChain} {proposal : CRCProposal} {height : UInt32}
    (accepted : chain.checkCRCProposal proposal height used = .ok ())
    (total : exactSum (proposal.budgets.map (·.amount)) < 2 ^ 63) :
    exactSum (proposal.budgets.map (·.amount)) ≤
        (chain.crCommittee.crcCurrentStageAmount * crcProposalBudgetsPercentage / 100).toInt ∧
      exactSum (proposal.budgets.map (·.amount)) ≤
        (chain.crCommittee.crcCurrentStageAmount - chain.crCommittee.crcCommitteeUsedAmount - used).toInt := by
  have sound := (checkCRCProposal_new accepted).1
  simp only [checkCRCProposal, checkBudgetAmount, bind_eq_ok, exists_unit, reject_eq_ok, and_assoc] at accepted
  obtain ⟨_, _, amount, budgets, share, rest, _⟩ := accepted
  have perm := chain.runtime.sort_perm (fun left right : Budget => left.stage < right.stage) proposal.budgets
  obtain rfl := checkBudgets_wrapped budgets
  have wrapped := wrappedSum_toInt ((chain.runtime.sort (fun left right : Budget =>
    left.stage < right.stage) proposal.budgets).map (·.amount))
  have nonneg : 0 ≤ exactSum (proposal.budgets.map (·.amount)) := exactSum_nonneg (by simpa using sound.amounts)
  rw [exactSum_perm (perm.map _), Int.bmod_eq_of_le (by omega) (by omega)] at wrapped
  rw [Int64.lt_iff_toInt_lt, wrapped, not_lt] at share rest
  exact ⟨share, rest⟩

end Checks

/-- The budgets of an accepted proposal are capped and in order if and only if they are plain. -/
theorem checkCRCProposalTransaction_capped_iff {chain : BlockChain} {height : UInt32}
    {tx : Transaction} {proposal : CRCProposal} {used : Fixed64} (payload : tx.payload = .crcProposal proposal)
    (stage : 0 ≤ chain.crCommittee.crcCurrentStageAmount.toInt ∧ chain.crCommittee.crcCurrentStageAmount.toInt < 2 ^ 62)
    (spent : 0 ≤ chain.crCommittee.crcCommitteeUsedAmount.toInt ∧
      chain.crCommittee.crcCommitteeUsedAmount.toInt < 2 ^ 62)
    (accepted : chain.checkCRCProposalTransaction tx height used = .ok ()) :
    BudgetsCapped chain.crCommittee used proposal.budgets ↔ PlainBudgets used proposal.budgets := by
  rw [checkCRCProposalTransaction, payload] at accepted
  have sound := (checkCRCProposal_new accepted).1
  have nonneg : 0 ≤ exactSum (proposal.budgets.map (·.amount)) := exactSum_nonneg (by simpa using sound.amounts)
  constructor
  · rintro ⟨share, rest, sorted, perm, ordered⟩
    refine ⟨by omega, by omega, ?_⟩
    rintro ⟨budget, member, isImprest⟩
    exact ⟨budget, member, ordered.imprestFirst budget (perm.mem_iff.2 member) isImprest⟩
  · intro plain
    obtain ⟨share, rest⟩ := checkCRCProposal_total accepted plain.total
    have least := percentage_le stage.1
    refine ⟨by omega, rest.trans (remainder_le stage.1 spent.2 plain.used), ?_⟩
    simp only [checkCRCProposal, checkProposalShape, bind_eq_ok, exists_unit, require_eq_ok, reject_eq_ok,
      and_assoc] at accepted
    obtain ⟨_, _, _, short, _, amount, budgets, _⟩ := accepted
    have perm := chain.runtime.sort_perm (fun left right : Budget => left.stage < right.stage) proposal.budgets
    exact ⟨_, perm, checkBudgets_ordered (perm.length_eq ▸ not_lt.1 short)
      (by simpa only [perm.mem_iff] using plain.imprest) budgets⟩

namespace SmallChain

/-- A committee whose only member is the councillor. -/
def council : Frame :=
  { installMembers [(councillor.did, {
      info := councillor, impeachmentVotes := 0, depositHash := default, memberState := .elected })]
      Frame.initial with
    inElectionPeriod := true, crcCurrentStageAmount := 40000 }

def councilChain : BlockChain :=
  { chain [] with arbitrators := { arbitrators with crCommittee := council } }

theorem proposing_capped : BudgetsCapped council 0 proposal.budgets := by
  have accepted : councilChain.checkCRCProposalTransaction proposing 8 0 = .ok () := by
    decide +kernel
  exact (@checkCRCProposalTransaction_capped_iff councilChain _ _ _ _ rfl (by decide) (by decide) accepted).2
    ⟨by decide, by decide, fun _ => ⟨_, List.mem_cons_self, rfl⟩⟩

/-- The amounts add up to `2 ^ 64`, which wraps to zero, and the imprest comes second. -/
def greedy : CRCProposal :=
  { proposal with
    budgets := [(normalPayment, 1), (imprest, 2), (normalPayment, 3), (finalPayment, 4)].map
      fun entry => { budgetType := entry.1, stage := entry.2, amount := 4611686018427387904 } }

theorem greedy_uncapped :
    councilChain.checkCRCProposalTransaction { proposing with payload := .crcProposal greedy } 8 0 =
      .ok () ∧ ¬ BudgetsCapped council 0 greedy.budgets := by
  refine ⟨by decide +kernel, fun capped => ?_⟩
  exact absurd capped.share (by decide)

end SmallChain

/-- What all proposals may still be paid, without wrapping. -/
def unpaidBudgets (frame : Frame) : Int :=
  exactSum ((GoMap.values frame.proposals).flatMap fun proposal =>
    (outstandingBudgets proposal).map (·.amount))

namespace BlockStep

def proposals (step : BlockStep) : List Transaction :=
  step.checked.transactions.filter (·.txType = .crcProposal)

/-- Several proposals of one block fit together into what is left of the stage before the block,
and so does one whose budgets add up to more than an `int64`. -/
def BudgetsFit (step : BlockStep) : Prop :=
  1 < step.proposals.length ∨ 2 ^ 63 ≤ (step.proposals.map proposed).sum →
    step.before.frame.crcCommitteeUsedAmount.toInt + (step.proposals.map proposed).sum ≤
      step.before.frame.crcCurrentStageAmount.toInt

instance (step : BlockStep) : Decidable step.BudgetsFit :=
  inferInstanceAs (Decidable (_ → _))

def EndsOnce (step : BlockStep) : Prop :=
  (step.checked.transactions.filterMap closedProposal).Nodup

instance (step : BlockStep) : Decidable step.EndsOnce :=
  inferInstanceAs (Decidable (List.Nodup _))

end BlockStep

section
variable {prim : Primitives} {params : Params} {step change : BlockStep}
  {earlier later : List BlockStep} {height last : UInt32} {committee final : Committee}

theorem lists_values (frame : Frame) : frame.treasury.Lists ((GoMap.pairs frame.proposals).map fun entry =>
      (entry.1, entry.2.fund)) :=
  lists_iterate Runtime.insertion frame

theorem unpaid_eq (frame : Frame) : unpaid ((GoMap.pairs frame.proposals).map fun entry =>
      (entry.1, entry.2.fund)) = unpaidBudgets frame := by
  unfold unpaid unpaidBudgets GoMap.pairs GoMap.values
  simp only [List.flatMap_map]
  rfl

theorem proposed_sum (txs : List Transaction) :
    (txs.map proposed).sum = ((txs.filter (·.txType = .crcProposal)).map proposed).sum := by
  induction txs with
  | nil => rfl
  | cons tx rest ih =>
    by_cases proposes : tx.txType = .crcProposal
    · simp [proposes, ih]
    · simp [proposes, ih, proposed_eq_zero proposes]

/-- A single proposal has been checked against what is left of the stage. -/
theorem BlockStep.Extends.proposed_le (next : step.Extends prim params height committee) {tx : Transaction}
    (member : tx ∈ step.checked.transactions) (proposes : tx.txType = .crcProposal) (total : proposed tx < 2 ^ 63)
    (low : 0 ≤ step.before.frame.crcCommitteeUsedAmount.toInt) (bounded :
      step.before.frame.crcCommitteeUsedAmount.toInt ≤ step.before.frame.crcCurrentStageAmount.toInt) :
    step.before.frame.crcCommitteeUsedAmount.toInt + proposed tx ≤ step.before.frame.crcCurrentStageAmount.toInt := by
  obtain ⟨_, _, _, _, shape, isCoinbase, _, all⟩ := (checkBlock_accepted next.sanity next.context).transactions
  rw [shape] at member
  rcases mem_cons.1 member with rfl | member
  · simp [isCoinbase] at proposes
  obtain ⟨origin, _, passed⟩ := forall₂_mem_right all member
  obtain ⟨references, verdict, typed, sameType, samePayload, -⟩ := passed.typed
  rw [proposes] at sameType
  unfold proposed at total ⊢
  split
  case h_2 => simpa using bounded
  case h_1 proposal _ payload =>
    rw [proposes, payload] at total
    rw [samePayload] at payload
    simp only [checkType, ← sameType, checkCRCProposalTransaction, payload, bind_eq_ok, exists_unit,
      withCode_eq_ok] at typed
    have rest := (checkCRCProposal_total typed.1 total).2
    rw [next.frame, Int64.sub_zero] at rest
    obtain ⟨turns, difference⟩ := sub_turns step.before.frame.crcCurrentStageAmount
      step.before.frame.crcCommitteeUsedAmount
    have limit := Int64.toInt_lt step.before.frame.crcCurrentStageAmount
    have least := Int64.le_toInt (step.before.frame.crcCurrentStageAmount - step.before.frame.crcCommitteeUsedAmount)
    have most := Int64.toInt_lt (step.before.frame.crcCurrentStageAmount - step.before.frame.crcCommitteeUsedAmount)
    omega

theorem BlockStep.Extends.sum_le (next : step.Extends prim params height committee) (fit : step.BudgetsFit)
    (low : 0 ≤ step.before.frame.crcCommitteeUsedAmount.toInt) (bounded :
      step.before.frame.crcCommitteeUsedAmount.toInt ≤ step.before.frame.crcCurrentStageAmount.toInt) :
    step.before.frame.crcCommitteeUsedAmount.toInt + (step.checked.transactions.map proposed).sum ≤
      step.before.frame.crcCurrentStageAmount.toInt := by
  rw [proposed_sum]
  by_cases together : 1 < step.proposals.length ∨ 2 ^ 63 ≤ (step.proposals.map proposed).sum
  · exact fit together
  obtain ⟨few, small⟩ := not_or.1 together
  unfold proposals at few small
  have among : ∀ tx ∈ step.checked.transactions.filter (·.txType = .crcProposal), _ :=
    fun tx member => mem_filter.1 member
  cases found : step.checked.transactions.filter (·.txType = .crcProposal) with
  | nil => simpa using bounded
  | cons tx rest =>
    rw [found] at few small among
    obtain rfl : rest = [] := by simpa using few
    obtain ⟨member, proposes⟩ := among tx mem_cons_self
    simpa using next.proposed_le member (of_decide_eq_true proposes) (by simpa using small) low bounded

theorem Run.balanced {start : UInt32} {initial : Committee} (run : Run prim params start initial later last final)
    (settled : Settled params start initial) (balanced : initial.frame.treasury.Balanced)
    (identified : ∀ step ∈ later, step.ProposalsIdentified) (same : ∀ step ∈ later, ¬ step.ChangesCommittee)
    (fit : ∀ step ∈ later, step.BudgetsFit) (once : ∀ step ∈ later, step.EndsOnce) : final.frame.treasury.Balanced := by
  induction run with
  | nil => exact balanced
  | @snoc steps step height committee run next ih =>
    have among : ∀ other ∈ steps, other ∈ steps ++ [step] := fun other member => List.mem_append_left _ member
    have isLast : step ∈ steps ++ [step] := by simp
    have earlierBalanced := ih (fun other member => identified other (among other member))
      (fun other member => same other (among other member))
      (fun other member => fit other (among other member))
      fun other member => once other (among other member)
    have earlierSettled := run.settled settled fun other member => identified other (among other member)
    obtain ⟨_, treasuryStep, admits⟩ := earlierSettled.extend next (identified step isLast)
    rw [← next.before] at earlierBalanced
    exact treasuryStep.balanced earlierBalanced (not_not.1 (same step isLast)) admits
      (next.sum_le (fit step isLast) earlierBalanced.covers.nonneg earlierBalanced.bounded) (once step isLast)

/-- From a change of the committee to the next one, the amount in use stays within the
stage. -/
theorem usedAmount_within_stage (reached : Run prim params 0 Committee.initial earlier height committee)
    (extends_ : change.Extends prim params height committee) (changes : change.ChangesCommittee)
    (affordable : unpaidBudgets change.after.frame ≤ change.after.frame.crcCurrentStageAmount.toInt)
    (run : Run prim params change.block.height change.after later last final)
    (same : ∀ step ∈ later, ¬ step.ChangesCommittee)
    (fit : ∀ step ∈ later, step.BudgetsFit) (once : ∀ step ∈ later, step.EndsOnce)
    (identified : ∀ step ∈ earlier ++ change :: later, step.ProposalsIdentified) :
    0 ≤ final.frame.crcCommitteeUsedAmount.toInt ∧ final.frame.crcCommitteeUsedAmount.toInt ≤
        final.frame.crcCurrentStageAmount.toInt := by
  have settled := reached.settled (settled_initial params)
    fun step member => identified step (List.mem_append_left _ member)
  obtain ⟨settledAfter, treasuryStep, admits⟩ := settled.extend extends_ (identified change (by simp))
  have start : change.after.frame.treasury.Balanced := by
    refine treasuryStep.balanced_start ?_ changes admits (lists_values _) ?_
    · rw [extends_.before]
      exact settled.sound
    · rw [unpaid_eq]
      exact affordable
  have balanced := run.balanced settledAfter start (fun step member => identified step (by simp [member])) same fit once
  exact ⟨balanced.covers.nonneg, balanced.bounded⟩

end

namespace SmallChain

def govern (blocks : List Block) : Option ((List BlockStep × UInt32 × Committee) ×
    BlockStep × List BlockStep × UInt32 × Committee) :=
  match play genesisChain previousNode 0 Committee.initial campaign with
  | some (earlier, height, committee) =>
    if (filled 7 []).height.toNat = height.toNat + 1 then do
      let change ← tryExtend (genesisChain height committee.frame) previousNode committee
        (filled 7 [])
      let governed ← play genesisChain previousNode change.block.height change.after blocks
      some ((earlier, height, committee), change, governed)
    else
      none
  | none => none

theorem govern_spec {blocks : List Block} {earlier later : List BlockStep}
    {height last : UInt32} {committee final : Committee} {change : BlockStep}
    (found : govern blocks = some ((earlier, height, committee), change, later, last, final)) :
    Run primitives params 0 Committee.initial earlier height committee ∧
      change.Extends primitives params height committee ∧
      Run primitives params change.block.height change.after later last final := by
  unfold govern at found
  split at found
  case h_1 played =>
    split at found
    case isTrue next =>
      simp only [Option.bind_eq_bind, Option.bind_eq_some_iff] at found
      obtain ⟨_, extended, _, governed, equal⟩ := found
      cases equal
      exact ⟨genesisChain_run .nil played, (tryExtend_extends rfl next extended).1, genesisChain_run .nil governed⟩
    case isFalse => cases found
  case h_2 => cases found

theorem endingOnce_within_stage : ∃ (change : BlockStep) (later : List BlockStep) (last : UInt32) (final : Committee),
      Run primitives params change.block.height change.after later last final ∧
        change.ChangesCommittee ∧ (∃ step ∈ later, ¬ step.checked.transactions.length = 1) ∧
        0 ≤ final.frame.crcCommitteeUsedAmount.toInt ∧ final.frame.crcCommitteeUsedAmount.toInt ≤
          final.frame.crcCurrentStageAmount.toInt := by
  have governed : (govern (granting ++ [filled 11 [ending 3]])).any
      (fun reached => decide (reached.2.1.ChangesCommittee ∧ unpaidBudgets reached.2.1.after.frame ≤
          reached.2.1.after.frame.crcCurrentStageAmount.toInt ∧
        (∀ step ∈ reached.2.2.1, ¬ step.ChangesCommittee) ∧ (∀ step ∈ reached.2.2.1, step.BudgetsFit) ∧
        (∀ step ∈ reached.2.2.1, step.EndsOnce) ∧
        (∀ step ∈ reached.1.1 ++ reached.2.1 :: reached.2.2.1, step.ProposalsIdentified) ∧
        ∃ step ∈ reached.2.2.1, ¬ step.checked.transactions.length = 1)) = true := by
    decide +kernel
  obtain ⟨⟨⟨earlier, height, committee⟩, change, later, last, final⟩, found, holds⟩ :=
    (Option.any_eq_true _ _).1 governed
  obtain ⟨changes, affordable, same, fit, once, identified, filled⟩ := of_decide_eq_true holds
  obtain ⟨reached, extends_, run⟩ := govern_spec found
  exact ⟨change, later, last, final, run, changes, filled,
    usedAmount_within_stage reached extends_ changes affordable run same fit once identified⟩

/-- Two trackings of one block both give back the final payment. -/
theorem endingTwice_below_zero : ∃ (earlier : List BlockStep) (height : UInt32) (committee : Committee)
      (change : BlockStep) (later : List BlockStep) (last : UInt32) (final : Committee),
      Run primitives params 0 Committee.initial earlier height committee ∧
        change.Extends primitives params height committee ∧
        Run primitives params change.block.height change.after later last final ∧
        change.ChangesCommittee ∧ (∀ step ∈ later, ¬ step.ChangesCommittee) ∧
        (∀ step ∈ earlier ++ change :: later, step.ProposalsIdentified) ∧
        ¬ 0 ≤ final.frame.crcCommitteeUsedAmount.toInt := by
  have governed : (govern (granting ++ [filled 11 [ending 3, ending 4]])).any
      (fun reached => decide (reached.2.1.ChangesCommittee ∧ (∀ step ∈ reached.2.2.1, ¬ step.ChangesCommittee) ∧
        (∀ step ∈ reached.1.1 ++ reached.2.1 :: reached.2.2.1, step.ProposalsIdentified) ∧
        ¬ 0 ≤ reached.2.2.2.2.frame.crcCommitteeUsedAmount.toInt)) = true := by
    decide +kernel
  obtain ⟨⟨⟨earlier, height, committee⟩, change, later, last, final⟩, found, holds⟩ :=
    (Option.any_eq_true _ _).1 governed
  obtain ⟨reached, extends_, run⟩ := govern_spec found
  exact ⟨earlier, height, committee, change, later, last, final, reached, extends_, run, of_decide_eq_true holds⟩

end SmallChain

end Elastos.Blockchain
