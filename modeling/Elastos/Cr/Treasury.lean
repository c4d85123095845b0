import Elastos.Cr.Committee

/-! The money of the committee, abstracted from its key frames: what proposals may
be paid, what counts as used of the amount of the current stage, and the actions on
both. Votes, deposits and the election of members do not appear here. -/
set_option autoImplicit false
namespace Elastos.Cr
open Go Common Crypto Elastos.Types Utils GoMap List

structure Fund where
  status : ProposalStatus
  proposal : CRCProposal
  withdrawnBudgets : GoMap UInt8 Fixed64
  withdrawableBudgets : GoMap UInt8 Fixed64

def ProposalState.fund (proposal : ProposalState) : Fund where
  status := proposal.status
  proposal := proposal.proposal
  withdrawnBudgets := proposal.withdrawnBudgets
  withdrawableBudgets := proposal.withdrawableBudgets

namespace Fund

def opened (proposal : CRCProposal) : Fund where
  status := .registered
  proposal := proposal
  withdrawnBudgets := ∅
  withdrawableBudgets := ∅

variable (fund : Fund)

def setStatus (status : ProposalStatus) : Fund := { fund with status }

def release : Option Budget → Fund
  | none => fund
  | some budget =>
    { fund with
      withdrawableBudgets := fund.withdrawableBudgets.insert budget.stage budget.amount }

def withdraw (entries : List (UInt8 × Fixed64)) : Fund :=
  { fund with withdrawnBudgets := insertEach entries fund.withdrawnBudgets }

def withdrawing : List (UInt8 × Fixed64) :=
  (GoMap.pairs fund.withdrawableBudgets).filter fun entry =>
    (fund.withdrawnBudgets.lookup entry.1).isNone

def unreleased : List Budget :=
  fund.proposal.budgets.filter fun budget =>
    (fund.withdrawableBudgets.lookup budget.stage).isNone

def unused : CRCProposalTrackingType → List Budget
  | .terminated => fund.unreleased
  | .finalized => fund.unreleased.filter fun budget => budget.budgetType ≠ finalPayment
  | _ => []

def track (trackingType : CRCProposalTrackingType) (stage : UInt8) : Fund :=
  match trackingType with
  | .progress =>
    fund.release (fund.proposal.budgets.find? fun budget => budget.stage = stage)
  | .terminated => fund.setStatus .terminated
  | .finalized =>
    (fund.setStatus .finished).release (CRCProposal.firstOf fund.proposal finalPayment)
  | .common | .rejected | .changeOwner | .unknown _ => fund

/-- The voters did not object, so the imprest may be taken. -/
def agree : Fund :=
  (fund.setStatus .voterAgreed).release (CRCProposal.firstOf fund.proposal imprest)

def outstanding : List Budget :=
  match fund.status with
  | .crCanceled | .voterCanceled | .aborted => []
  | .terminated | .finished =>
    fund.proposal.budgets.filter fun budget =>
      (fund.withdrawableBudgets.lookup budget.stage).isSome ∧ (fund.withdrawnBudgets.lookup budget.stage).isNone
  | .registered | .crAgreed | .voterAgreed =>
    fund.proposal.budgets.filter fun budget =>
      (fund.withdrawnBudgets.lookup budget.stage).isNone

end Fund

inductive FundAction where
  | register (proposal : CRCProposal)
  | withdraw (entries : List (UInt8 × Fixed64))
  | track (trackingType : CRCProposalTrackingType) (stage : UInt8)
  | settle (status : ProposalStatus)
  | agree

/-- A registration replaces what is there; other actions need a fund. -/
def FundAction.apply : FundAction → Option Fund → Option Fund
  | .register proposal, _ => some (Fund.opened proposal)
  | .withdraw entries, fund => fund.map (·.withdraw entries)
  | .track trackingType stage, fund => fund.map (·.track trackingType stage)
  | .settle status, fund => fund.map (·.setStatus status)
  | .agree, fund => fund.map Fund.agree

@[ext]
structure Treasury where
  funds : Uint256 → Option Fund
  used : Fixed64
  stage : Fixed64
  session : UInt64

def Frame.treasury (frame : Frame) : Treasury where
  funds hash := (frame.proposals.lookup hash).map ProposalState.fund
  used := frame.crcCommitteeUsedAmount
  stage := frame.crcCurrentStageAmount
  session := frame.currentSession

inductive TreasuryAction where
  | fund (hash : Uint256) (action : FundAction)
  | use (amount : Fixed64)
  | free (amount : Fixed64)

namespace Treasury
variable (treasury : Treasury)

def setFund (hash : Uint256) (fund : Option Fund) : Treasury :=
  { treasury with funds := Function.update treasury.funds hash fund }

variable (treasury : Treasury)

@[simp] theorem setFund_self (hash : Uint256) (fund : Option Fund) : (treasury.setFund hash fund).funds hash = fund :=
  Function.update_self _ _ _

theorem setFund_of_ne {hash other : Uint256} (fund : Option Fund) (different : other ≠ hash) :
    (treasury.setFund hash fund).funds other = treasury.funds other :=
  Function.update_of_ne different _ _

def act : TreasuryAction → Treasury
  | .fund hash action => treasury.setFund hash (action.apply (treasury.funds hash))
  | .use amount => { treasury with used := treasury.used + amount }
  | .free amount => { treasury with used := treasury.used - amount }

def run (actions : List TreasuryAction) : Treasury :=
  actions.foldl act treasury

@[simp] theorem run_nil : treasury.run [] = treasury := rfl

@[simp] theorem run_cons (action : TreasuryAction) (rest : List TreasuryAction) :
    treasury.run (action :: rest) = (treasury.act action).run rest := rfl

@[simp] theorem run_append (left right : List TreasuryAction) :
    treasury.run (left ++ right) = (treasury.run left).run right := by
  simp [run]

/-- How a transaction acts, as read off the state before its block. A full list of
proposals keeps a new one out but not its budget. -/
inductive Acts (prim : Primitives) (before : Treasury) (tx : Transaction) : List TreasuryAction → Prop where
  | other (noProposal : tx.txType ≠ .crcProposal)
      (noTracking : tx.txType ≠ .crcProposalTracking)
      (noWithdraw : tx.txType ≠ .crcProposalWithdraw) : Acts prim before tx []
  | register {proposal : CRCProposal} (isType : tx.txType = .crcProposal)
      (payload : tx.payload = .crcProposal proposal) :
      Acts prim before tx [.fund (proposal.hash prim) (.register proposal),
        .use (getProposalTotalBudgetAmount proposal)]
  | full {proposal : CRCProposal} (isType : tx.txType = .crcProposal)
      (payload : tx.payload = .crcProposal proposal) :
      Acts prim before tx [.use (getProposalTotalBudgetAmount proposal)]
  | track {tracking : CRCProposalTracking} {fund : Fund}
      (isType : tx.txType = .crcProposalTracking)
      (payload : tx.payload = .crcProposalTracking tracking)
      (found : before.funds tracking.proposalHash = some fund) : Acts prim before tx [ .fund tracking.proposalHash
          (.track tracking.proposalTrackingType tracking.stage),
        .free (wrappedSum ((fund.unused tracking.proposalTrackingType).map (·.amount)))]
  | trackNothing {tracking : CRCProposalTracking}
      (isType : tx.txType = .crcProposalTracking)
      (payload : tx.payload = .crcProposalTracking tracking)
      (missing : before.funds tracking.proposalHash = none) : Acts prim before tx [.free 0]
  | withdraw {payload : CRCProposalWithdraw} {fund : Fund}
      (isType : tx.txType = .crcProposalWithdraw)
      (isPayload : tx.payload = .crcProposalWithdraw payload)
      (found : before.funds payload.proposalHash = some fund) :
      Acts prim before tx [.fund payload.proposalHash (.withdraw fund.withdrawing)]
  | withdrawNothing {payload : CRCProposalWithdraw}
      (isType : tx.txType = .crcProposalWithdraw)
      (isPayload : tx.payload = .crcProposalWithdraw payload)
      (missing : before.funds payload.proposalHash = none) : Acts prim before tx []

/-- What the proposal manager does with a fund, and the budgets that it frees. -/
inductive Settles (fund : Fund) : Option FundAction → List Budget → Prop where
  | stay : Settles fund none []
  | councilAgrees (status : fund.status = .registered) : Settles fund (some (.settle .crAgreed)) []
  | votersAgree (status : fund.status = .crAgreed) : Settles fund (some .agree) []
  | cancel {status : ProposalStatus}
      (undecided : fund.status = .registered ∨ fund.status = .crAgreed)
      (ends : status = .crCanceled ∨ status = .voterCanceled ∨ status = .aborted) :
      Settles fund (some (.settle status)) fund.proposal.budgets

structure Round where
  hash : Uint256
  fund : Fund
  action : Option FundAction
  freed : List Budget

namespace Round

def actions (round : Round) : List TreasuryAction :=
  round.action.toList.map (TreasuryAction.fund round.hash)

def amount (round : Round) : Fixed64 := wrappedSum (round.freed.map (·.amount))

end Round

/-- The manager meets every proposal at most once and frees the total at the end. -/
structure SettledBy (before : Treasury) (rounds : List Round) (after : Treasury) : Prop where
  nodup : (rounds.map Round.hash).Nodup
  each : ∀ round ∈ rounds, before.funds round.hash = some round.fund ∧ Settles round.fund round.action round.freed
  result : after = (before.run (rounds.flatMap Round.actions)).act
    (.free (wrappedSum (rounds.map Round.amount)))

structure Lists (treasury : Treasury) (entries : List (Uint256 × Fund)) : Prop where
  nodup : (entries.map Prod.fst).Nodup
  mem_iff : ∀ hash fund, (hash, fund) ∈ entries ↔ treasury.funds hash = some fund

/-- A new committee takes over the outstanding budgets and records its stage. -/
structure TakesOver (before after : Treasury) : Prop where
  funds : after.funds = before.funds
  session : after.session = before.session + 1
  used : ∃ entries, before.Lists entries ∧ after.used = wrappedSum (entries.flatMap fun entry =>
      entry.2.outstanding.map (·.amount))

/-- What a block does to the treasury. Blocks before the first vote pass it by. -/
inductive Step (prim : Primitives) (before : Treasury) (txs : List Transaction) : Treasury → Prop where
  | skip (empty : ∀ hash, before.funds hash = none) : Step prim before txs before
  | keep {actions : List (List TreasuryAction)} {rounds : List Round} {after : Treasury}
      (acts : List.Forall₂ (Acts prim before) txs actions)
      (settled : SettledBy (before.run actions.flatten) rounds after) : Step prim before txs after
  | change {actions : List (List TreasuryAction)} {rounds : List Round}
      {middle after : Treasury}
      (acts : List.Forall₂ (Acts prim before) txs actions)
      (settled : SettledBy (before.run actions.flatten) rounds middle)
      (changes : TakesOver middle after) : Step prim before txs after

end Treasury

/-- Budgets as a proposal may have them. -/
structure SoundBudgets (budgets : List Budget) : Prop where
  stages : (budgets.map (·.stage)).Nodup
  amounts : ∀ budget ∈ budgets, 0 ≤ budget.amount.toInt

theorem SoundBudgets.eq_of_stage {budgets : List Budget} (sound : SoundBudgets budgets)
    {left right : Budget} (leftMember : left ∈ budgets) (rightMember : right ∈ budgets)
    (same : left.stage = right.stage) : left = right :=
  inj_on_of_nodup_map sound.stages leftMember rightMember same

namespace Fund

/-- Council and voters have not both agreed yet. -/
def Undecided (fund : Fund) : Prop :=
  fund.status = .registered ∨ fund.status = .crAgreed

structure Sound (fund : Fund) : Prop where
  budgets : SoundBudgets fund.proposal.budgets
  released : ∀ stage amount, fund.withdrawableBudgets.lookup stage = some amount →
    ∃ budget ∈ fund.proposal.budgets, budget.stage = stage ∧ budget.amount = amount
  withdrawn : ∀ stage amount, fund.withdrawnBudgets.lookup stage = some amount →
    fund.withdrawableBudgets.lookup stage = some amount
  undecided : fund.Undecided → fund.withdrawableBudgets = ∅

variable {fund : Fund} (choice : Option Budget) {stage : UInt8} {amount : Fixed64}

@[simp] theorem release_status : (fund.release choice).status = fund.status := by
  cases choice with
  | none => rfl
  | some budget => rfl

@[simp] theorem release_proposal : (fund.release choice).proposal = fund.proposal := by
  cases choice with
  | none => rfl
  | some budget => rfl

theorem release_withdrawn : (fund.release choice).withdrawnBudgets = fund.withdrawnBudgets := by
  cases choice with
  | none => rfl
  | some budget => rfl

theorem track_withdrawn (trackingType : CRCProposalTrackingType) (stage : UInt8) :
    (fund.track trackingType stage).withdrawnBudgets = fund.withdrawnBudgets := by
  cases trackingType with
  | progress => exact release_withdrawn _
  | finalized => exact release_withdrawn _
  | _ => rfl

theorem sound_opened {proposal : CRCProposal} (budgets : SoundBudgets proposal.budgets) : (opened proposal).Sound where
  budgets := budgets
  released := by simp [opened]
  withdrawn := by simp [opened]
  undecided _ := rfl

section
variable (sound : fund.Sound)
include sound

theorem Sound.withdrawable_nonneg (found : fund.withdrawableBudgets.lookup stage = some amount) : 0 ≤ amount.toInt := by
  obtain ⟨budget, member, _, rfl⟩ := sound.released stage amount found
  exact sound.budgets.amounts budget member

/-- A stage that is entered again is entered with the same amount. -/
theorem Sound.lookup_release {choice : Option Budget}
    (member : ∀ budget ∈ choice, budget ∈ fund.proposal.budgets)
    (found : fund.withdrawableBudgets.lookup stage = some amount) :
    (fund.release choice).withdrawableBudgets.lookup stage = some amount := by
  cases choice with
  | none => exact found
  | some budget =>
    by_cases same : stage = budget.stage
    · subst same
      obtain ⟨entered, enteredMember, sameStage, rfl⟩ := sound.released _ _ found
      have equal := sound.budgets.eq_of_stage enteredMember (member budget rfl) sameStage
      simp [release, equal]
    · simpa [release, AList.lookup_insert_ne same] using found

theorem Sound.release (decided : ¬ fund.Undecided)
    {choice : Option Budget} (member : ∀ budget ∈ choice, budget ∈ fund.proposal.budgets) :
    (fund.release choice).Sound := by
  have grows : ∀ stage amount, fund.withdrawableBudgets.lookup stage = some amount →
      (fund.release choice).withdrawableBudgets.lookup stage = some amount :=
    fun _ _ found => sound.lookup_release member found
  cases choice with
  | none => exact sound
  | some budget =>
    refine ⟨sound.budgets, fun stage amount found => ?_, fun stage amount found =>
      grows stage amount (sound.withdrawn stage amount found), fun undecided =>
        absurd undecided decided⟩
    by_cases same : stage = budget.stage
    · subst same
      simp only [Fund.release, AList.lookup_insert, Option.some.injEq] at found
      exact ⟨budget, member budget rfl, rfl, found⟩
    · simp only [Fund.release, AList.lookup_insert_ne same] at found
      exact sound.released stage amount found

theorem Sound.setStatus {status : ProposalStatus}
    (undecided : (fund.setStatus status).Undecided → fund.Undecided) : (fund.setStatus status).Sound :=
  { sound with undecided still := sound.undecided (undecided still) }

end

theorem mem_find_stage : ∀ budget ∈ fund.proposal.budgets.find? (·.stage = stage),
      budget ∈ fund.proposal.budgets :=
  fun _ found => mem_of_find?_eq_some found

theorem mem_firstOf {budgetType : UInt8} : ∀ budget ∈ CRCProposal.firstOf fund.proposal budgetType,
      budget ∈ fund.proposal.budgets :=
  fun _ found => mem_of_find?_eq_some found

theorem Sound.agree (sound : fund.Sound) : fund.agree.Sound := by
  have decided : ¬ (fund.setStatus .voterAgreed).Undecided := by
    simp [Undecided, Fund.setStatus]
  exact (sound.setStatus fun undecided => absurd undecided decided).release decided mem_firstOf

structure Follows (before after : Fund) : Prop where
  proposal : after.proposal = before.proposal
  released : ∀ stage amount, before.withdrawableBudgets.lookup stage = some amount →
    after.withdrawableBudgets.lookup stage = some amount
  undecided : after.Undecided → before.Undecided
  sound : after.Sound

theorem Sound.follows (sound : fund.Sound) : fund.Follows fund :=
  ⟨rfl, fun _ _ found => found, id, sound⟩

section Follows
variable {before after : Fund}

section
variable (follows : before.Follows after)
include follows

theorem Follows.setStatus {status : ProposalStatus}
    (decided : ¬ (after.setStatus status).Undecided) : before.Follows (after.setStatus status) :=
  ⟨follows.proposal, follows.released, fun undecided => absurd undecided decided,
    follows.sound.setStatus fun undecided => absurd undecided decided⟩

theorem Follows.release (decided : ¬ after.Undecided)
    {choice : Option Budget} (member : ∀ budget ∈ choice, budget ∈ after.proposal.budgets) :
    before.Follows (after.release choice) := by
  refine ⟨(release_proposal choice).trans follows.proposal, fun stage amount found =>
    follows.sound.lookup_release member (follows.released stage amount found), ?_, follows.sound.release decided member⟩
  intro undecided
  simp only [Undecided, release_status] at undecided
  exact absurd undecided decided

theorem Follows.track (decided : ¬ before.Undecided)
    (trackingType : CRCProposalTrackingType) (stage : UInt8) : before.Follows (after.track trackingType stage) := by
  have afterDecided : ¬ after.Undecided := fun undecided =>
    decided (follows.undecided undecided)
  cases trackingType with
  | progress => exact follows.release afterDecided mem_find_stage
  | terminated => exact follows.setStatus (by simp [Undecided, Fund.setStatus])
  | finalized =>
    have finished : ¬ (after.setStatus .finished).Undecided := by
      simp [Undecided, Fund.setStatus]
    exact (follows.setStatus finished).release finished mem_firstOf
  | _ => exact follows

theorem Follows.withdraw : before.Follows (after.withdraw before.withdrawing) := by
  refine ⟨follows.proposal, follows.released, follows.undecided, follows.sound.budgets,
    follows.sound.released, fun stage amount found => ?_, follows.sound.undecided⟩
  rcases lookup_assign found with member | found
  · exact follows.released stage amount (mem_pairs_iff.1 (mem_filter.1 member).1)
  · exact follows.sound.withdrawn stage amount found

end

end Follows

section Withdrawn

def drawn (fund : Fund) : Int := GoMap.total fund.withdrawnBudgets

theorem Sound.drawn_nonneg (sound : fund.Sound) : 0 ≤ fund.drawn :=
  total_nonneg fun stage amount found =>
    sound.withdrawable_nonneg (sound.withdrawn stage amount found)

theorem Sound.drawn_le (sound : fund.Sound) : fund.drawn ≤ GoMap.total fund.withdrawableBudgets :=
  total_le_total sound.withdrawn fun _ _ found => sound.withdrawable_nonneg found

theorem drawn_withdraw {after : Fund} (same : after.withdrawnBudgets = fund.withdrawnBudgets) :
    (after.withdraw fund.withdrawing).drawn = fund.drawn + exactSum (fund.withdrawing.map Prod.snd) := by
  have nodup : (fund.withdrawing.map Prod.fst).Nodup := (filter_sublist.map Prod.fst).nodup (pairs_keys_nodup _)
  unfold drawn Fund.withdraw insertEach
  rw [same]
  refine total_assign nodup fun entry member => ?_
  simpa using (mem_filter.1 member).2

end Withdrawn

section Claims

/-- The budgets that keep an amount of the stage in use: all of them until voters have
agreed, then those of stages to come. -/
def claimed (fund : Fund) : List Budget :=
  match fund.status with
  | .registered | .crAgreed => fund.proposal.budgets
  | .voterAgreed => fund.unreleased
  | .finished | .crCanceled | .voterCanceled | .terminated | .aborted => []

def pending (fund : Fund) : Int := exactSum (fund.claimed.map (·.amount))

theorem claimed_sublist : fund.claimed.Sublist fund.proposal.budgets := by
  unfold claimed
  cases fund.status with
  | registered => exact List.Sublist.refl _
  | crAgreed => exact List.Sublist.refl _
  | voterAgreed => exact filter_sublist
  | _ => exact nil_sublist _

/-- Parts of sound budgets have totals in the order of the parts. -/
theorem exactSum_budgets_le {part whole : List Budget} (sound : fund.Sound)
    (sublist : part.Sublist whole) (contained : whole.Sublist fund.proposal.budgets) :
    exactSum (part.map (·.amount)) ≤ exactSum (whole.map (·.amount)) := by
  refine exactSum_le_of_sublist (sublist.map _) fun amount member => ?_
  obtain ⟨budget, budgetMember, rfl⟩ := mem_map.1 member
  exact sound.budgets.amounts budget (contained.subset budgetMember)

theorem Sound.pending_nonneg (sound : fund.Sound) : 0 ≤ fund.pending :=
  exactSum_budgets_le sound (nil_sublist _) claimed_sublist

theorem Sound.pending_release_le (sound : fund.Sound) {choice : Option Budget}
    (member : ∀ budget ∈ choice, budget ∈ fund.proposal.budgets) : (fund.release choice).pending ≤ fund.pending := by
  have unreleased : (fund.release choice).unreleased.Sublist fund.unreleased := by
    cases choice with
    | none => exact List.Sublist.refl _
    | some budget =>
      refine monotone_filter_right _ fun other isNone => ?_
      cases found : fund.withdrawableBudgets.lookup other.stage with
      | none => rfl
      | some amount =>
        rw [sound.lookup_release member found] at isNone
        simp at isNone
  refine exactSum_budgets_le sound ?_ claimed_sublist
  unfold claimed
  rw [release_status, release_proposal]
  cases fund.status with
  | voterAgreed => exact unreleased
  | _ => exact List.Sublist.refl _

theorem pending_of_ended (ended : fund.status = .finished ∨ fund.status = .crCanceled ∨
      fund.status = .voterCanceled ∨ fund.status = .terminated ∨ fund.status = .aborted) : fund.pending = 0 := by
  rcases ended with status | status | status | status | status
  all_goals simp [pending, claimed, status]

/-- The trackings that end a proposal. -/
def Closes : CRCProposalTrackingType → Bool
  | .terminated | .finalized => true
  | .common | .progress | .rejected | .changeOwner | .unknown _ => false

variable {trackingType : CRCProposalTrackingType}

theorem pending_track_closes (closes : Closes trackingType = true) : (fund.track trackingType stage).pending = 0 := by
  cases trackingType with
  | terminated => exact pending_of_ended (.inr (.inr (.inr (.inl rfl))))
  | finalized => exact pending_of_ended (.inl (release_status _))
  | _ => simp [Closes] at closes

theorem Sound.pending_track_le (sound : fund.Sound) (trackingType : CRCProposalTrackingType) (stage : UInt8) :
    (fund.track trackingType stage).pending ≤ fund.pending := by
  by_cases closes : Closes trackingType = true
  · rw [pending_track_closes closes]
    exact sound.pending_nonneg
  cases trackingType with
  | progress => exact sound.pending_release_le mem_find_stage
  | terminated => simp [Closes] at closes
  | finalized => simp [Closes] at closes
  | _ => exact le_refl _

def returned (fund : Fund) (trackingType : CRCProposalTrackingType) : Int :=
  exactSum ((fund.unused trackingType).map (·.amount))

theorem returned_of_not_closes (open_ : Closes trackingType = false) : fund.returned trackingType = 0 := by
  cases trackingType with
  | terminated => simp [Closes] at open_
  | finalized => simp [Closes] at open_
  | _ => rfl

theorem unused_sublist (trackingType : CRCProposalTrackingType) :
    (fund.unused trackingType).Sublist fund.unreleased := by
  cases trackingType with
  | terminated => exact List.Sublist.refl _
  | finalized => exact filter_sublist
  | _ => exact nil_sublist _

theorem Sound.returned_nonneg (sound : fund.Sound) (trackingType : CRCProposalTrackingType) :
    0 ≤ fund.returned trackingType :=
  exactSum_budgets_le sound (nil_sublist _) ((unused_sublist trackingType).trans filter_sublist)

theorem Sound.returned_le_pending (sound : fund.Sound) (agreed : fund.status = .voterAgreed)
    (trackingType : CRCProposalTrackingType) : fund.returned trackingType ≤ fund.pending := by
  refine exactSum_budgets_le sound ?_ claimed_sublist
  unfold claimed
  rw [agreed]
  exact unused_sublist trackingType

/-- The budgets that a new committee takes over cover the claims. -/
theorem Sound.pending_le_outstanding (sound : fund.Sound) :
    fund.pending ≤ exactSum (fund.outstanding.map (·.amount)) := by
  have notDrawn {stage : UInt8} (missing : fund.withdrawableBudgets.lookup stage = none) :
      fund.withdrawnBudgets.lookup stage = none := by
    cases found : fund.withdrawnBudgets.lookup stage with
    | none => rfl
    | some amount =>
      rw [sound.withdrawn stage amount found] at missing
      simp at missing
  have contained : fund.outstanding.Sublist fund.proposal.budgets := by
    unfold outstanding
    cases fund.status with
    | crCanceled => exact nil_sublist _
    | voterCanceled => exact nil_sublist _
    | aborted => exact nil_sublist _
    | _ => exact filter_sublist
  have nothingReleased (undecided : fund.Undecided) (stage : UInt8) : fund.withdrawnBudgets.lookup stage = none := by
    refine notDrawn ?_
    rw [sound.undecided undecided]
    rfl
  refine exactSum_budgets_le sound ?_ contained
  unfold claimed outstanding
  cases status : fund.status with
  | registered => simp [nothingReleased (.inl status)]
  | crAgreed => simp [nothingReleased (.inr status)]
  | voterAgreed =>
    refine monotone_filter_right _ fun budget isNone => ?_
    rw [Option.isNone_iff_eq_none] at isNone
    simp [notDrawn isNone]
  | _ => exact nil_sublist _

end Claims
end Fund

/-- How far a proposal has come. -/
@[simp] def ProposalStatus.rank : ProposalStatus → Nat
  | .registered => 0
  | .crAgreed => 1
  | .voterAgreed => 2
  | .finished | .crCanceled | .voterCanceled | .terminated | .aborted => 3

/-- What time does to a proposal: it does not go back, and one that has ended stays as it
ended, apart from withdrawals. -/
structure Fund.Ages (before after : Fund) : Prop where
  proposal : after.proposal = before.proposal
  rank : before.status.rank ≤ after.status.rank
  ended : before.status.rank = 3 →
    after.status = before.status ∧ after.withdrawableBudgets = before.withdrawableBudgets

namespace Fund.Ages
variable {before middle after : Fund}

theorem refl (fund : Fund) : fund.Ages fund := ⟨rfl, le_rfl, fun _ => ⟨rfl, rfl⟩⟩

theorem trans (first : before.Ages middle) (second : middle.Ages after) : before.Ages after where
  proposal := second.proposal.trans first.proposal
  rank := first.rank.trans second.rank
  ended isOver := by
    obtain ⟨status, budgets⟩ := first.ended isOver
    obtain ⟨laterStatus, laterBudgets⟩ := second.ended (by rw [status, isOver])
    exact ⟨laterStatus.trans status, laterBudgets.trans budgets⟩

/-- A proposal that both council and voters agreed to is tracked. -/
theorem track (ages : before.Ages after) (agreed : before.status = .voterAgreed)
    (trackingType : CRCProposalTrackingType) (stage : UInt8) : before.Ages (after.track trackingType stage) := by
  have rank := ages.rank
  have proposal := ages.proposal
  rw [agreed] at rank
  refine ⟨?_, ?_, fun isOver => by simp [agreed] at isOver⟩
  all_goals cases trackingType
  all_goals simp_all [Fund.track, setStatus]

end Fund.Ages

end Elastos.Cr
