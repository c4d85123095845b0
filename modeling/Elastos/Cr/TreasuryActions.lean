import Elastos.Cr.Treasury

/-! The changes that the committee appends for the transactions of a block act on
its treasury as the abstract model says. -/
set_option autoImplicit false
namespace Elastos.Cr
open Go Common Config Elastos.Types Utils Outcome List Treasury

def Simulates (changes : Changes) (actions : List TreasuryAction) : Prop :=
  ∀ frame : Frame, (executeAll changes frame).treasury = frame.treasury.run actions

def Keeps (change : Change Frame) : Prop :=
  ∀ frame : Frame, (change.execute frame).treasury = frame.treasury

/-- None of the changes concerns the treasury. -/
abbrev AllKeep (changes : Changes) : Prop := ∀ change ∈ changes, Keeps change

theorem keeps_nil : AllKeep [] := forall_mem_nil _

theorem keeps_singleton {change : Change Frame} (keeps : Keeps change) : AllKeep [change] :=
  forall_mem_singleton.2 keeps

/-- Whatever a handler returns has a property. -/
def Yields {α : Type} (holds : α → Prop) (result : Outcome String α) : Prop :=
  ∀ value, result = .ok value → holds value

namespace Yields
variable {α β : Type} {holds : α → Prop} {then_ : β → Prop}

theorem ok {value : α} (here : holds value) : Yields holds (.ok value) := by
  intro _ returned
  cases returned
  exact here

theorem error {fault : Fault String} : Yields holds (.error fault) := by
  intro _ returned
  cases returned

theorem bind {result : Outcome String α} {next : α → Outcome String β} (first : Yields holds result)
    (second : ∀ value, holds value → Yields then_ (next value)) : Yields then_ (result >>= next) := by
  intro value returned
  obtain ⟨middle, firstOk, secondOk⟩ := bind_eq_ok.1 returned
  exact second middle (first middle firstOk) value secondOk

theorem nothing : Yields AllKeep (.ok []) := ok keeps_nil

theorem single {change : Change Frame} (keeps : Keeps change) : Yields AllKeep (.ok [change]) :=
  ok (keeps_singleton keeps)

theorem after {result : Outcome String α} {next : α → Outcome String β} (second : ∀ value, Yields then_ (next value)) :
    Yields then_ (result >>= next) :=
  bind (fun _ _ => trivial) fun value _ => second value

theorem mapM {items : List α} {make : α → Outcome String β} (each : ∀ item, Yields then_ (make item)) :
    Yields (∀ value ∈ ·, then_ value) (items.mapM make) := by
  intro values mapped value member
  obtain ⟨item, _, made⟩ := mapM_mem mapped value member
  exact each item value made

theorem flatten {items : List α} {changesOf : α → Outcome String Changes}
    (each : ∀ item, Yields AllKeep (changesOf item)) : Yields AllKeep (do
      let parts ← items.mapM changesOf
      .ok parts.flatten) :=
  (mapM each).bind fun _ keeps => .ok (forall_mem_flatten.2 keeps)

end Yields

namespace Simulates
variable {changes rest : Changes} {actions others : List TreasuryAction}

theorem single {change : Change Frame} {action : TreasuryAction} (acts : ∀ frame : Frame,
      (change.execute frame).treasury = frame.treasury.act action) : Simulates [change] [action] :=
  fun frame => by simpa using acts frame

theorem append (first : Simulates changes actions) (second : Simulates rest others) :
    Simulates (changes ++ rest) (actions ++ others) := by
  intro frame
  rw [executeAll_append, second, first, run_append]

theorem of_keeps (each : AllKeep changes) : Simulates changes [] := by
  intro frame
  induction changes generalizing frame with
  | nil => rfl
  | cons change rest ih =>
    rw [executeAll_cons, ih fun other member => each other (mem_cons_of_mem _ member)]
    exact each change mem_cons_self frame

theorem keeps_append (first : Simulates changes []) (second : Simulates rest actions) :
    Simulates (changes ++ rest) actions :=
  first.append second

theorem append_keeps (first : Simulates changes actions) (second : Simulates rest []) :
    Simulates (changes ++ rest) actions := by
  simpa using first.append second

theorem flatMap {α : Type} {items : List α} {changesOf : α → Changes} {actionsOf : α → List TreasuryAction}
    (each : ∀ item ∈ items, Simulates (changesOf item) (actionsOf item)) :
    Simulates (items.flatMap changesOf) (items.flatMap actionsOf) := by
  induction items with
  | nil => exact fun _ => rfl
  | cons item rest ih =>
    simp only [flatMap_cons]
    exact (each item mem_cons_self).append (ih fun other member => each other (mem_cons_of_mem _ member))

end Simulates

section Frames
variable (frame : Frame) (position : Nat) (hash : Uint256) {change : ProposalState → ProposalState}

theorem treasury_funds : frame.treasury.funds hash = (frame.getProposal hash).map ProposalState.fund := rfl

/-- A change of votes or owners under a hash is not one of the fund. -/
theorem treasury_updateProposal_keep (same : ∀ proposal, (change proposal).fund = proposal.fund) :
    (frame.updateProposal hash change).treasury = frame.treasury := by
  refine Treasury.ext (funext fun other => ?_) rfl rfl rfl
  simp only [Frame.treasury, Frame.updateProposal, GoMap.modify]
  cases found : frame.proposals.lookup hash with
  | none => rfl
  | some proposal =>
    by_cases equal : other = hash
    · subst equal
      simp [found, same]
    · simp [AList.lookup_insert_ne equal]

theorem treasury_updateProposal {action : FundAction} (none : action.apply none = none)
    (some : ∀ proposal : ProposalState, action.apply (some proposal.fund) = some (change proposal).fund) :
    (frame.updateProposal hash change).treasury = frame.treasury.act (.fund hash action) := by
  refine Treasury.ext (funext fun other => ?_) rfl rfl rfl
  simp only [Frame.treasury, Frame.updateProposal, GoMap.modify, Treasury.act]
  by_cases equal : other = hash
  · subst equal
    cases found : frame.proposals.lookup other with
    | none => simp [found, none]
    | some proposal => simp [some]
  · rw [setFund_of_ne _ _ equal]
    cases found : frame.proposals.lookup hash with
    | none => rfl
    | some proposal => simp [AList.lookup_insert_ne equal]

end Frames

section Votes

theorem keeps_creditReject (hash : Uint256) (votes : Fixed64) (frame : Frame) :
    (creditReject hash votes frame).treasury = frame.treasury :=
  treasury_updateProposal_keep frame hash fun _ => rfl

variable {runtime : Runtime}

/-- Votes keep the treasury, whether they are counted or taken back. -/
theorem processContents_keeps {frame : Frame} {vote : VoteOutput} {change : Change Frame}
    (member : change ∈ processContents runtime frame vote) :
    Keeps change ∧ ∀ frame : Frame, (change.rollback frame).treasury = frame.treasury := by
  simp only [processContents, mem_flatMap] at member
  obtain ⟨content, _, votes, _, member⟩ := member
  unfold processCandidateVotes at member
  split at member
  · obtain ⟨position, _, rfl⟩ := mem_map.1 member
    exact ⟨fun _ => rfl, fun _ => rfl⟩
  · obtain ⟨hash, _, rfl⟩ := mem_map.1 member
    exact ⟨keeps_creditReject hash _, keeps_creditReject hash _⟩
  · obtain ⟨position, _, rfl⟩ := mem_map.1 member
    exact ⟨fun _ => rfl, fun _ => rfl⟩
  all_goals simp at member

theorem processVotesOf_keeps (frame : Frame) (entry : OutPoint × Output) :
    Yields AllKeep (processVotesOf runtime frame entry) := by
  unfold processVotesOf
  split
  · exact .nothing
  split
  · split
    · exact .nothing
    · exact .ok (forall_mem_cons.2 ⟨fun _ => rfl, fun _ member => (processContents_keeps member).1⟩)
  · exact .error

variable {funcs : CommitteeFuncs} {frame : Frame} {tx : Transaction}

theorem processVotes_keeps : Yields AllKeep (processVotes funcs frame tx) := by
  unfold processVotes
  split
  · exact .nothing
  · exact .flatten (processVotesOf_keeps frame)

theorem processVoteCancel_keeps {output : Output} : Yields AllKeep (processVoteCancel runtime frame output) := by
  unfold processVoteCancel
  split
  · exact .ok (forall_mem_map.2 fun _ member => (processContents_keeps member).2)
  · exact .error

theorem processCancelVotes_keeps : Yields AllKeep (processCancelVotes funcs frame tx) := by
  unfold processCancelVotes
  split
  · split
    · exact .nothing
    · exact .error
    refine .flatten fun input => ?_
    unfold cancelInput
    split
    · split
      · exact processVoteCancel_keeps
      · exact .error
    · exact .nothing
  · exact .nothing

end Votes

section Transactions
variable {funcs : CommitteeFuncs} {frame next : Frame} {tx : Transaction}
  {height : UInt32} {changes : Changes} (amount : Fixed64) (proposal : ProposalState)
  {params : Params}

/-- A handler keeps the treasury, at once and later. -/
def Keeping (frame : Frame) (result : Frame × Changes) : Prop :=
  result.1.treasury = frame.treasury ∧ AllKeep result.2

theorem registerCR_keeps : Yields (Keeping frame) (registerCR funcs frame tx height) := by
  unfold registerCR
  split
  · refine .ok ⟨rfl, keeps_singleton fun current => ?_⟩
    dsimp only
    split <;> rfl
  · exact .error

theorem updateCandidateInfo_treasury (origin update : CRInfo) (current : Frame) :
    (updateCandidateInfo origin update current).treasury = current.treasury := by
  unfold updateCandidateInfo
  cases current.candidates.lookup origin.cid <;> rfl

theorem updateCR_keeps : Yields AllKeep (updateCR frame tx) := by
  unfold updateCR
  split
  · split
    · exact .error
    · exact .single (updateCandidateInfo_treasury _ _)
  · exact .error

theorem unregisterCR_keeps : Yields AllKeep (unregisterCR frame tx height) := by
  unfold unregisterCR
  split
  · split
    · exact .nothing
    · exact .single fun _ => rfl
  · exact .error

theorem processDeposit_keeps : AllKeep (processDeposit funcs frame tx).2 := by
  intro change member
  obtain ⟨entry, _, related⟩ := mem_filterMap.1 member
  simp only [addCRCRelatedAssert, Option.map_eq_some_iff] at related
  obtain ⟨cid, _, rfl⟩ := related
  exact fun _ => rfl

theorem returnDeposit_keeps : Yields AllKeep (returnDeposit funcs frame tx height) := by
  refine .flatten fun program => ?_
  split
  · refine .ok fun change member => ?_
    simp only [returnDepositOf, mem_append, mem_map, mem_singleton] at member
    rcases member with ((⟨_, _, rfl⟩ | ⟨_, _, rfl⟩) | ⟨_, _, rfl⟩) | rfl
    all_goals exact fun _ => rfl
  · exact .error

theorem proposalReview_keeps : Yields AllKeep (proposalReview frame tx) := by
  unfold proposalReview
  split
  · split
    · exact .nothing
    · exact .single fun current => treasury_updateProposal_keep current _ fun _ => rfl
  · exact .error

theorem unchanged_keeps {result : Outcome String Changes} (keeps : Yields AllKeep result) :
    Yields (Keeping frame) (unchanged frame result) :=
  keeps.bind fun _ each => .ok ⟨rfl, each⟩

theorem unchanged_eq_ok {result : Outcome String Changes} :
    unchanged frame result = .ok (next, changes) ↔ next = frame ∧ result = .ok changes := by
  simp only [unchanged, bind_eq_ok, Except.ok.injEq, Prod.mk.injEq]
  constructor
  · rintro ⟨_, isOk, rfl, rfl⟩
    exact ⟨rfl, isOk⟩
  · rintro ⟨rfl, isOk⟩
    exact ⟨changes, isOk, rfl, rfl⟩

theorem processByType_keeps (noProposal : tx.txType ≠ .crcProposal)
    (noTracking : tx.txType ≠ .crcProposalTracking) (noWithdraw : tx.txType ≠ .crcProposalWithdraw) :
    Yields (Keeping frame) (processByType funcs frame tx height) := by
  have deposited {changes : Changes} (keeps : AllKeep changes) :
      Yields (Keeping frame) (.ok ((processDeposit funcs frame tx).1, changes ++ (processDeposit funcs frame tx).2)) :=
    .ok ⟨rfl, forall_mem_append.2 ⟨keeps, processDeposit_keeps⟩⟩
  unfold processByType
  split
  case h_1 => exact registerCR_keeps
  case h_2 => exact unchanged_keeps updateCR_keeps
  case h_3 => exact unchanged_keeps unregisterCR_keeps
  case h_4 => exact processVotes_keeps.bind fun _ => deposited
  case h_5 => exact returnDeposit_keeps.bind fun _ => deposited
  case h_6 isType => exact absurd isType noProposal
  case h_7 => exact unchanged_keeps proposalReview_keeps
  case h_8 isType => exact absurd isType noTracking
  case h_9 isType => exact absurd isType noWithdraw
  case h_10 => exact .ok ⟨rfl, keeps_singleton fun _ => rfl⟩
  case h_11 => exact .ok ⟨rfl, keeps_nil⟩

theorem spendRelated_keeps {input : Input} : AllKeep (spendRelated frame input) := by
  unfold spendRelated
  split
  · exact keeps_singleton fun _ => rfl
  split
  · exact keeps_singleton fun _ => rfl
  · exact keeps_nil

theorem receiveRelated_keeps {isCoinBaseTx : Bool} {output : Output} :
    AllKeep (receiveRelated params frame isCoinBaseTx output) := by
  unfold receiveRelated
  dsimp only
  split
  · refine keeps_singleton fun current => ?_
    dsimp only
    split <;> rfl
  split
  · exact keeps_singleton fun _ => rfl
  split
  · exact keeps_singleton fun _ => rfl
  · exact keeps_nil

/-- Payments from and to the committee's addresses come after the use of a budget. -/
theorem processCRCAddressRelatedTx_spec (processed : processCRCAddressRelatedTx params frame tx = .ok changes) :
    ∃ used others, useBudget tx = .ok used ∧ changes = used ++ others ∧ Simulates others [] := by
  simp only [processCRCAddressRelatedTx, bind_eq_ok, Except.ok.injEq] at processed
  obtain ⟨used, usedOk, rfl⟩ := processed
  exact ⟨used, _, usedOk, append_assoc _ _ _, .of_keeps (forall_mem_append.2
    ⟨forall_mem_flatMap.2 fun _ _ => spendRelated_keeps, forall_mem_flatMap.2 fun _ _ => receiveRelated_keeps⟩)⟩

theorem addUsedAmount_simulates : Simulates [addUsedAmount amount] [.use amount] :=
  .single fun _ => rfl

theorem subUsedAmount_simulates : Simulates [subUsedAmount amount] [.free amount] :=
  .single fun _ => rfl

theorem registerProposal_acts (isType : tx.txType = .crcProposal) {session : UInt64}
    {used : Changes} (registered : registerProposal funcs frame tx height session = .ok changes)
    (usedOk : useBudget tx = .ok used) : ∃ actions, Treasury.Acts funcs.prim frame.treasury tx actions ∧
      Simulates (changes ++ used) actions := by
  unfold registerProposal at registered
  split at registered
  · rename_i proposal payload
    simp only [useBudget, isType, payload, if_true, Except.ok.injEq] at usedOk
    subst usedOk
    split at registered
    · cases registered
      exact ⟨_, .full isType payload, addUsedAmount_simulates _⟩
    cases registered
    refine ⟨_, .register isType payload, (Simulates.single fun current => ?_).append (addUsedAmount_simulates _)⟩
    refine Treasury.ext (funext fun hash => ?_) rfl rfl rfl
    simp only [Frame.treasury, addProposal, Treasury.act, FundAction.apply]
    by_cases equal : hash = proposal.hash funcs.prim
    · subst equal
      simp [newProposalState, ProposalState.fund, Fund.opened]
    · rw [setFund_of_ne _ _ equal, AList.lookup_insert_ne equal]
  · simp [wrongPayload] at registered

theorem release_fund (budget : Option Budget) : (proposal.release budget).fund = proposal.fund.release budget := by
  cases budget <;> rfl

theorem trackProgress_fund (stage : UInt8) (proposal : ProposalState) : (trackProgress stage proposal).fund =
      proposal.fund.release (proposal.proposal.budgets.find? fun budget => budget.stage = stage) := by
  unfold trackProgress
  cases found : proposal.proposal.budgets.find? fun budget => budget.stage = stage with
  | none => rfl
  | some budget =>
    have isStage : budget.stage = stage := by simpa using find?_some found
    simp [ProposalState.fund, Fund.release, isStage]

theorem track_fund (tracking : CRCProposalTracking) (proposal : ProposalState) : (track tracking height proposal).fund =
      proposal.fund.track tracking.proposalTrackingType tracking.stage := by
  unfold track Fund.track
  cases tracking.proposalTrackingType with
  | progress => exact trackProgress_fund _ _
  | finalized => exact release_fund _ _
  | _ => rfl

theorem unusedBudget_eq (trackingType : CRCProposalTrackingType) : unusedBudget proposal trackingType =
      wrappedSum ((proposal.fund.unused trackingType).map (·.amount)) := by
  cases trackingType <;> rfl

theorem committeeTracking_acts (isType : tx.txType = .crcProposalTracking)
    (tracked : committeeTracking frame tx height = .ok changes) :
    ∃ actions, Treasury.Acts funcs.prim frame.treasury tx actions ∧ Simulates changes actions := by
  simp only [committeeTracking, bind_eq_ok, Except.ok.injEq] at tracked
  obtain ⟨⟨unused, parts⟩, tracked, rfl⟩ := tracked
  unfold proposalTracking at tracked
  split at tracked
  · rename_i tracking payload
    split at tracked
    · rename_i missing
      cases tracked
      have noFund : frame.treasury.funds tracking.proposalHash = none := by
        rw [treasury_funds, missing, Option.map_none]
      exact ⟨_, .trackNothing isType payload noFund, subUsedAmount_simulates 0⟩
    · rename_i proposal found
      cases tracked
      have hasFund : frame.treasury.funds tracking.proposalHash = some proposal.fund := by
        rw [treasury_funds, found, Option.map_some]
      refine ⟨_, .track isType payload hasFund, ?_⟩
      rw [unusedBudget_eq]
      refine (Simulates.single fun current => ?_).append (subUsedAmount_simulates _)
      exact treasury_updateProposal current _ rfl fun state => by
        simp [FundAction.apply, track_fund]
  · simp [wrongPayload] at tracked

theorem proposalWithdraw_acts (isType : tx.txType = .crcProposalWithdraw)
    (withdrawn : proposalWithdraw frame tx = .ok changes) :
    ∃ actions, Treasury.Acts funcs.prim frame.treasury tx actions ∧ Simulates changes actions := by
  unfold proposalWithdraw at withdrawn
  split at withdrawn
  · rename_i payload isPayload
    split at withdrawn
    · rename_i missing
      cases withdrawn
      have noFund : frame.treasury.funds payload.proposalHash = none := by
        rw [treasury_funds, missing, Option.map_none]
      exact ⟨_, .withdrawNothing isType isPayload noFund, fun _ => rfl⟩
    · rename_i proposal found
      cases withdrawn
      have hasFund : frame.treasury.funds payload.proposalHash = some proposal.fund := by
        rw [treasury_funds, found, Option.map_some]
      refine ⟨_, .withdraw isType isPayload hasFund, Simulates.single fun current => ?_⟩
      exact treasury_updateProposal current _ rfl fun _ => rfl
  · simp [wrongPayload] at withdrawn

theorem processTransaction_acts (processed : processTransaction funcs frame tx height = .ok (next, changes)) :
    next.treasury = frame.treasury ∧ ∃ actions, Treasury.Acts funcs.prim frame.treasury tx actions ∧
        Simulates changes actions := by
  simp only [processTransaction, bind_eq_ok, Except.ok.injEq, Prod.mk.injEq] at processed
  obtain ⟨cancelled, cancelOk, ⟨middle, typed⟩, typeOk, related, relatedOk, rfl, rfl⟩ := processed
  have cancelKeeps := Simulates.of_keeps (processCancelVotes_keeps _ cancelOk)
  obtain ⟨used, others, usedOk, rfl, othersKeep⟩ := processCRCAddressRelatedTx_spec relatedOk
  -- The votes taken back come first and the payments last; neither acts.
  have around {actions : List TreasuryAction} (simulates : Simulates (typed ++ used) actions) :
      Simulates (cancelled ++ typed ++ (used ++ others)) actions := by
    have whole := (cancelKeeps.keeps_append simulates).append_keeps othersKeep
    simpa [append_assoc] using whole
  have noUse (notProposal : tx.txType ≠ .crcProposal) : used = [] := by
    simpa [useBudget, notProposal, eq_comm] using usedOk
  by_cases isProposal : tx.txType = .crcProposal
  · simp only [processByType, isProposal, unchanged_eq_ok] at typeOk
    obtain ⟨rfl, registered⟩ := typeOk
    obtain ⟨actions, acts, simulates⟩ := registerProposal_acts isProposal registered usedOk
    exact ⟨rfl, actions, acts, around simulates⟩
  have notUsed := noUse isProposal
  subst notUsed
  by_cases isTracking : tx.txType = .crcProposalTracking
  · simp only [processByType, isTracking, unchanged_eq_ok] at typeOk
    obtain ⟨rfl, tracked⟩ := typeOk
    obtain ⟨actions, acts, simulates⟩ := committeeTracking_acts isTracking tracked
    exact ⟨rfl, actions, acts, around (by simpa using simulates)⟩
  by_cases isWithdraw : tx.txType = .crcProposalWithdraw
  · simp only [processByType, isWithdraw, unchanged_eq_ok] at typeOk
    obtain ⟨rfl, withdrawn⟩ := typeOk
    obtain ⟨actions, acts, simulates⟩ := proposalWithdraw_acts isWithdraw withdrawn
    exact ⟨rfl, actions, acts, around (by simpa using simulates)⟩
  · obtain ⟨same, typeKeeps⟩ :=
      processByType_keeps isProposal isTracking isWithdraw _ typeOk
    refine ⟨same, _, .other isProposal isTracking isWithdraw, around ?_⟩
    simpa using Simulates.of_keeps typeKeeps

end Transactions
end Elastos.Cr
