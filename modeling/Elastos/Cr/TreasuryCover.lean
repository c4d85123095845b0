import Elastos.Cr.TreasuryProperties

/-! The amount in use of a stage. It covers what proposals may still claim and stays
within the stage as long as the new budgets of every block fit in together and no
proposal is ended twice in a block. -/
set_option autoImplicit false
namespace Elastos.Cr.Treasury
open Go Common Crypto Elastos.Types Utils List Function

def claim (treasury : Treasury) (hash : Uint256) : Int :=
  (treasury.funds hash).elim 0 Fund.pending

/-- What a transaction gives back of the amount in use, without wrapping. -/
def returned (before : Treasury) (tx : Transaction) : Int :=
  match tx.txType, tx.payload with
  | .crcProposalTracking, .crcProposalTracking tracking =>
    (before.funds tracking.proposalHash).elim 0
      fun fund => fund.returned tracking.proposalTrackingType
  | _, _ => 0

structure Balanced (treasury : Treasury) : Prop where
  sound : treasury.Sound
  covers : Covers treasury.used.toInt treasury.claim
  bounded : treasury.used.toInt ≤ treasury.stage.toInt

section Shapes
variable {prim : Primitives} {before : Treasury} {tx : Transaction}

theorem proposed_eq_zero (noProposal : tx.txType ≠ .crcProposal) : proposed tx = 0 := by
  unfold proposed
  split
  · rename_i isType _
    exact absurd isType noProposal
  · rfl

theorem returned_eq_zero (noTracking : tx.txType ≠ .crcProposalTracking) : returned before tx = 0 := by
  unfold returned
  split
  · rename_i isType _
    exact absurd isType noTracking
  · rfl

theorem Sound.claim_nonneg (sound : before.Sound) (hash : Uint256) : 0 ≤ before.claim hash := by
  unfold claim
  cases found : before.funds hash with
  | none => exact le_refl 0
  | some fund => exact (sound hash fund found).pending_nonneg

theorem Admits.proposed_nonneg (admits : Admits prim before tx) : 0 ≤ proposed tx := by
  unfold proposed
  split
  · rename_i proposal isType payload
    refine exactSum_nonneg fun amount member => ?_
    obtain ⟨budget, budgetMember, rfl⟩ := mem_map.1 member
    exact (admits.proposal proposal isType payload).1.amounts budget budgetMember
  · exact le_refl 0

theorem Sound.returned_nonneg (sound : before.Sound) : 0 ≤ returned before tx := by
  unfold returned
  split
  · rename_i tracking _ _
    cases found : before.funds tracking.proposalHash with
    | none => exact le_refl 0
    | some fund => exact (sound _ _ found).returned_nonneg _
  · exact le_refl 0

end Shapes

section Actions
variable {prim : Primitives} {before current : Treasury} {tx : Transaction}
  {done txs : List Transaction} {acted : List TreasuryAction} (treasury : Treasury) {hash : Uint256}

/-- The amount in use after some transactions, without wrapping. -/
def balance (before : Treasury) (done : List Transaction) : Int :=
  before.used.toInt + (done.map proposed).sum - (done.map (returned before)).sum

theorem balance_append (before : Treasury) (done : List Transaction) (tx : Transaction) :
    before.balance (done ++ [tx]) = before.balance done + proposed tx - returned before tx := by
  simp only [balance, map_append, map_cons, map_nil, sum_append, sum_cons, sum_nil]
  omega

/-- The machine's amount is the exact one, wrapped. -/
theorem used_acts {amount : Int} (used : current.used = .ofInt amount) (acts : Acts prim before tx acted) :
    (current.run acted).used = .ofInt (amount + proposed tx - returned before tx) := by
  have uses {proposal : CRCProposal} (isType : tx.txType = .crcProposal)
      (payload : tx.payload = .crcProposal proposal) :
      current.used + getProposalTotalBudgetAmount proposal = .ofInt (amount + proposed tx - returned before tx) := by
    have isProposed : proposed tx = exactSum (proposal.budgets.map (·.amount)) := by
      simp [proposed, isType, payload]
    rw [returned_eq_zero (by simp [isType]), sub_zero, Int64.ofInt_add, isProposed, used,
      getProposalTotalBudgetAmount, wrappedSum_eq]
  have frees {freed : Fixed64} (noProposal : tx.txType ≠ .crcProposal)
      (isReturned : freed = .ofInt (returned before tx)) :
      current.used - freed = .ofInt (amount + proposed tx - returned before tx) := by
    rw [proposed_eq_zero noProposal, add_zero, Int64.ofInt_sub, used, isReturned]
  have stays (noProposal : tx.txType ≠ .crcProposal) (noTracking : tx.txType ≠ .crcProposalTracking) :
      current.used = .ofInt (amount + proposed tx - returned before tx) := by
    rw [proposed_eq_zero noProposal, returned_eq_zero noTracking, add_zero, sub_zero, used]
  cases acts with
  | other noProposal noTracking => exact stays noProposal noTracking
  | register isType payload | full isType payload => exact uses isType payload
  | @track tracking fund isType payload found =>
    refine frees (by simp [isType]) ?_
    simp [returned, isType, payload, found, Fund.returned, wrappedSum_eq]
  | @trackNothing tracking isType payload missing =>
    refine frees (by simp [isType]) ?_
    simp [returned, isType, payload, missing]
  | withdraw isType | withdrawNothing isType => exact stays (by simp [isType]) (by simp [isType])

/-- Claims that the exact amount covers. They are kept apart from the claims of the
current funds because a tracking gives back what it saw before the block, even when an
earlier transaction has released a stage since. -/
def Backed (before : Treasury) (done : List Transaction) (current : Treasury) : Prop :=
  ∃ covered : Uint256 → Int, Covers (before.balance done) covered ∧ (∀ hash, current.claim hash ≤ covered hash) ∧
    ∀ hash, hash ∉ done.filterMap closedProposal → before.claim hash ≤ covered hash

theorem claim_setFund_self (hash : Uint256) (fund : Fund) :
    (treasury.setFund hash (some fund)).claim hash = fund.pending := by
  rw [claim, setFund_self, Option.elim_some]

theorem claim_setFund_of_ne {other : Uint256} (fund : Option Fund) (different : other ≠ hash) :
    (treasury.setFund hash fund).claim other = treasury.claim other := by
  rw [claim, setFund_of_ne _ _ different, claim]

theorem claim_of_found {fund : Fund} (found : before.funds hash = some fund) : before.claim hash = fund.pending := by
  rw [claim, found, Option.elim_some]

theorem claim_act_of_pending {action : FundAction} {next after : Fund}
    (found : current.funds hash = some next) (applied : action.apply (some next) = some after)
    (same : after.pending = next.pending) (other : Uint256) :
    (current.act (.fund hash action)).claim other = current.claim other := by
  by_cases equal : other = hash
  · subst equal
    rw [act, found, applied, claim_setFund_self, same, claim_of_found found]
  · exact claim_setFund_of_ne _ _ equal

theorem pending_opened (proposal : CRCProposal) :
    (Fund.opened proposal).pending = exactSum (proposal.budgets.map (·.amount)) := rfl

section
variable (backed : Backed before done current)
include backed

theorem Backed.keep {after : Treasury}
    (noProposed : proposed tx = 0) (noReturned : returned before tx = 0)
    (fewer : ∀ hash, after.claim hash ≤ current.claim hash) : Backed before (done ++ [tx]) after := by
  obtain ⟨covered, covers, claims, earlier⟩ := backed
  refine ⟨covered, ?_, fun hash => (fewer hash).trans (claims hash), fun hash absent => ?_⟩
  · rw [balance_append, noProposed, noReturned, add_zero, sub_zero]
    exact covers
  · exact earlier hash fun member => absent (by
      rw [filterMap_append]
      exact mem_append_left _ member)

theorem Backed.adjust {after : Treasury} (hash : Uint256)
    (change : ∀ covered, current.claim hash ≤ covered →
      (hash ∉ done.filterMap closedProposal → before.claim hash ≤ covered) →
      0 ≤ covered + proposed tx - returned before tx ∧
        after.claim hash ≤ covered + proposed tx - returned before tx ∧ (closedProposal tx ≠ some hash →
          covered ≤ covered + proposed tx - returned before tx))
    (others : ∀ other, other ≠ hash → after.claim other = current.claim other) :
    Backed before (done ++ [tx]) after := by
  obtain ⟨covered, covers, claims, earlier⟩ := backed
  obtain ⟨nonneg, claimed, grows⟩ := change (covered hash) (claims hash) (earlier hash)
  refine ⟨update covered hash (covered hash + proposed tx - returned before tx),
    ?_, fun other => ?_, fun other absent => ?_⟩
  · rw [balance_append]
    exact (covers.update hash nonneg).mono (by omega) fun _ => le_refl _
  · by_cases same : other = hash
    · subst same
      rw [update_self]
      exact claimed
    · rw [update_of_ne same, others other same]
      exact claims other
  · rw [filterMap_append, mem_append, not_or] at absent
    have known := earlier other absent.1
    by_cases same : other = hash
    · subst same
      rw [update_self]
      refine known.trans (grows fun closed => absent.2 ?_)
      simp [closed]
    · rw [update_of_ne same]
      exact known

/-- A tracking that ends a proposal ends its claim, others leave claims or lower them. -/
theorem Backed.track (follows : before.Follows current) (sound : before.Sound) (admits : Admits prim before tx)
    {tracking : CRCProposalTracking} {fund : Fund} {freed : Fixed64}
    (isType : tx.txType = .crcProposalTracking) (payload : tx.payload = .crcProposalTracking tracking)
    (found : before.funds tracking.proposalHash = some fund)
    (first : ∀ hash, closedProposal tx = some hash → hash ∉ done.filterMap closedProposal) :
    Backed before (done ++ [tx]) (current.run [ .fund tracking.proposalHash
        (.track tracking.proposalTrackingType tracking.stage), .free freed]) := by
  obtain ⟨next, nextFound, followsFund⟩ := follows.kept _ _ found
  have noProposed : proposed tx = 0 := proposed_eq_zero (by simp [isType])
  have isReturned : returned before tx = fund.returned tracking.proposalTrackingType := by
    simp [returned, isType, payload, found]
  have tracked : (current.run [ .fund tracking.proposalHash (.track tracking.proposalTrackingType tracking.stage),
      .free freed]).claim tracking.proposalHash =
      (next.track tracking.proposalTrackingType tracking.stage).pending := by
    refine Eq.trans ?_ (claim_setFund_self current tracking.proposalHash _)
    simp [act, nextFound, FundAction.apply, claim]
  have others : ∀ other, other ≠ tracking.proposalHash → (current.run [
      .fund tracking.proposalHash (.track tracking.proposalTrackingType tracking.stage),
      .free freed]).claim other = current.claim other :=
    fun other different => claim_setFund_of_ne _ _ different
  by_cases closes : Fund.Closes tracking.proposalTrackingType = true
  · have closed : closedProposal tx = some tracking.proposalHash := by
      simp [closedProposal, isType, payload, closes]
    refine backed.adjust tracking.proposalHash (fun covered _ earlier => ?_) others
    have known := earlier (first _ closed)
    rw [claim_of_found found] at known
    obtain ⟨_, sameFound, agreed⟩ := admits.tracking tracking isType payload
    cases found.symm.trans sameFound
    have part := (sound _ _ found).returned_le_pending agreed tracking.proposalTrackingType
    rw [noProposed, isReturned, tracked, Fund.pending_track_closes closes]
    exact ⟨by omega, by omega, fun notClosed => absurd closed notClosed⟩
  · refine backed.keep noProposed ?_ fun hash => ?_
    · rw [isReturned]
      exact Fund.returned_of_not_closes (by simpa using closes)
    · by_cases same : hash = tracking.proposalHash
      · subst same
        rw [tracked, claim_of_found nextFound]
        exact followsFund.sound.pending_track_le _ _
      · exact (others hash same).le

theorem Backed.acts (follows : before.Follows current)
    (sound : before.Sound) (admits : Admits prim before tx) (acts : Acts prim before tx acted)
    (first : ∀ hash, closedProposal tx = some hash → hash ∉ done.filterMap closedProposal) :
    Backed before (done ++ [tx]) (current.run acted) := by
  have proposes (proposal : CRCProposal) {after : Treasury} (isType : tx.txType = .crcProposal)
      (claimed : after.claim (proposal.hash prim) ≤ current.claim (proposal.hash prim) + proposed tx)
      (others : ∀ other, other ≠ proposal.hash prim → after.claim other = current.claim other) :
      Backed before (done ++ [tx]) after := by
    refine backed.adjust (proposal.hash prim) (fun covered known _ => ?_) others
    have more := admits.proposed_nonneg
    have nonneg := follows.sound.claim_nonneg (proposal.hash prim)
    rw [returned_eq_zero (by simp [isType])]
    refine ⟨by omega, by omega, fun _ => by omega⟩
  cases acts with
  | other noProposal noTracking =>
    exact backed.keep (proposed_eq_zero noProposal) (returned_eq_zero noTracking) fun _ => le_refl _
  | @register proposal isType payload =>
    refine proposes proposal isType ?_ fun other different => claim_setFund_of_ne _ _ different
    have opened : ((current.act (.fund (proposal.hash prim) (.register proposal))).act
        (.use (getProposalTotalBudgetAmount proposal))).claim (proposal.hash prim) = proposed tx := by
      refine (claim_setFund_self _ _ (Fund.opened proposal)).trans ?_
      simp [pending_opened, proposed, isType, payload]
    have nonneg := follows.sound.claim_nonneg (proposal.hash prim)
    exact opened.le.trans (by omega)
  | @full proposal isType payload =>
    refine proposes proposal isType ?_ fun _ _ => rfl
    have more := admits.proposed_nonneg
    exact (le_refl (current.claim (proposal.hash prim))).trans (by omega)
  | track isType payload found =>
    exact backed.track follows sound admits isType payload found first
  | trackNothing isType payload missing =>
    refine backed.keep (proposed_eq_zero (by simp [isType])) ?_ fun _ => le_refl _
    simp [returned, isType, payload, missing]
  | @withdraw payload fund isType isPayload found =>
    refine backed.keep (proposed_eq_zero (by simp [isType])) (returned_eq_zero (by simp [isType])) fun hash => ?_
    obtain ⟨next, nextFound, _⟩ := follows.kept _ _ found
    refine le_of_eq (claim_act_of_pending nextFound rfl ?_ hash)
    rfl
  | withdrawNothing isType =>
    exact backed.keep (proposed_eq_zero (by simp [isType])) (returned_eq_zero (by simp [isType])) fun _ => le_refl _

end

end Actions

section Steps
variable {prim : Primitives} {before after : Treasury} {txs : List Transaction}
  {actions : List (List TreasuryAction)} {rounds : List Round} (treasury : Treasury)
  {entries : List (Uint256 × Fund)}

theorem run_stage_session (actions : List TreasuryAction) : (treasury.run actions).stage = treasury.stage ∧
      (treasury.run actions).session = treasury.session := by
  induction actions generalizing treasury with
  | nil => exact ⟨rfl, rfl⟩
  | cons action rest ih =>
    cases action with
    | _ => exact ih _

/-- An amount within the range of the machine's integers is not wrapped. -/
theorem toInt_eq_of_wrapped {machine : Fixed64} {amount : Int} (wrapped : machine = .ofInt amount)
    (nonneg : 0 ≤ amount) {limit : Fixed64} (bounded : amount ≤ limit.toInt) : machine.toInt = amount := by
  have limited := Int64.toInt_lt limit
  rw [wrapped, Int64.toInt_ofInt_of_le (by omega) (by omega)]

theorem Balanced.acts (balanced : before.Balanced) (admits : ∀ tx ∈ txs, Admits prim before tx)
    (fit : before.used.toInt + (txs.map proposed).sum ≤ before.stage.toInt)
    (once : (txs.filterMap closedProposal).Nodup) (acts : List.Forall₂ (Acts prim before) txs actions) :
    (before.run actions.flatten).Balanced := by
  have initial : Backed before [] before :=
    ⟨before.claim, by simpa [balance] using balanced.covers, fun _ => le_refl _, fun _ _ => le_refl _⟩
  obtain ⟨follows, ⟨covered, covers, claims, _⟩, used⟩ := acts_induction
    (fun done current => before.Follows current ∧ Backed before done current ∧
      current.used = .ofInt (before.balance done)) acts ⟨balanced.sound.follows, initial, by simp [balance]⟩ (by
      intro done tx acted current isPrefix act ⟨follows, backed, used⟩
      have admitted := admits tx (isPrefix.subset (by simp))
      refine ⟨follows.acts admitted act, backed.acts follows balanced.sound admitted act fun hash closed => ?_, ?_⟩
      · have nodup := (isPrefix.sublist.filterMap closedProposal).nodup once
        simp only [filterMap_append, filterMap_cons, closed, filterMap_nil] at nodup
        exact fun member => (nodup_append.1 nodup).2.2 _ member _ (by simp) rfl
      · rw [balance_append]
        exact used_acts used act)
  have returned_nonneg : 0 ≤ (txs.map (returned before)).sum := by
    refine sum_nonneg fun amount member => ?_
    obtain ⟨tx, _, rfl⟩ := mem_map.1 member
    exact balanced.sound.returned_nonneg
  have bounded : before.balance txs ≤ before.stage.toInt := by
    unfold balance
    omega
  have exact := toInt_eq_of_wrapped used covers.nonneg bounded
  refine ⟨follows.sound, ?_, ?_⟩
  · rw [exact]
    exact covers.mono (le_refl _) claims
  · rw [exact, (run_stage_session before _).1]
    exact bounded

def Round.exactFreed (round : Round) : Int := exactSum (round.freed.map (·.amount))

theorem claim_setFund (hash : Uint256) (fund : Fund) : (treasury.setFund hash (some fund)).claim =
      update treasury.claim hash fund.pending := by
  funext other
  by_cases same : other = hash
  · subst same
    rw [claim_setFund_self, update_self]
  · rw [claim_setFund_of_ne _ _ same, update_of_ne same]

theorem Balanced.settled (balanced : before.Balanced) (settledBy : SettledBy before rounds after) : after.Balanced := by
  have swept := rounds_induction (fun done current => current.used = before.used ∧
      Covers (before.used.toInt - (done.map Round.exactFreed).sum) current.claim)
    settledBy ⟨rfl, by simpa using balanced.covers⟩ (by
      intro done round current member found ⟨used, covers⟩
      obtain ⟨foundBefore, settles⟩ := settledBy.each round member
      obtain ⟨next, isNext, nextSound, _, freed⟩ := settles.spec (balanced.sound _ _ foundBefore)
      refine ⟨used, ?_⟩
      rw [isNext, claim_setFund]
      refine (covers.update round.hash nextSound.pending_nonneg).mono ?_ fun _ => le_refl _
      rw [claim_of_found found]
      simp only [map_append, map_cons, map_nil, sum_append, sum_cons, sum_nil, Round.exactFreed]
      omega)
  obtain ⟨sameUsed, covers⟩ := swept
  have freed_nonneg : 0 ≤ (rounds.map Round.exactFreed).sum := by
    refine sum_nonneg fun amount member => ?_
    obtain ⟨round, roundMember, rfl⟩ := mem_map.1 member
    obtain ⟨found, settles⟩ := settledBy.each round roundMember
    exact settles.freed_nonneg (balanced.sound _ _ found)
  have wrapped : after.used = .ofInt (before.used.toInt - (rounds.map Round.exactFreed).sum) := by
    have freed : wrappedSum (rounds.map Round.amount) = .ofInt (rounds.map Round.exactFreed).sum :=
      wrappedSum_map_eq fun round => wrappedSum_eq _
    rw [settledBy.result, act, sameUsed, freed, Int64.ofInt_sub, Int64.ofInt_toInt]
  have limited := balanced.bounded
  have exact := toInt_eq_of_wrapped wrapped covers.nonneg (show _ ≤ before.stage.toInt by omega)
  have sameStage : after.stage = before.stage := by
    rw [settledBy.result]
    exact (run_stage_session before _).1
  refine ⟨settledBy.sound balanced.sound, ?_, ?_⟩
  · rw [exact]
    have sameClaim : after.claim = (before.run (rounds.flatMap Round.actions)).claim := by
      rw [settledBy.result]
      rfl
    rw [sameClaim]
    exact covers
  · rw [exact, sameStage]
    omega

theorem SettledBy.session (settledBy : SettledBy before rounds after) : after.session = before.session := by
  rw [settledBy.result]
  exact (run_stage_session before _).2

theorem Step.balanced (step : Step prim before txs after) (balanced : before.Balanced)
    (sameSession : after.session = before.session) (admits : ∀ tx ∈ txs, Admits prim before tx)
    (fit : before.used.toInt + (txs.map proposed).sum ≤ before.stage.toInt)
    (once : (txs.filterMap closedProposal).Nodup) : after.Balanced := by
  cases step with
  | skip => exact balanced
  | keep acts settled => exact (balanced.acts admits fit once acts).settled settled
  | change acts settled takesOver =>
    have next := takesOver.session
    rw [settled.session, (run_stage_session before _).2, sameSession] at next
    exact absurd next (by simp)

theorem Lists.perm {left right : List (Uint256 × Fund)} (leftLists : before.Lists left)
    (rightLists : before.Lists right) : left.Perm right := by
  rw [perm_ext_iff_of_nodup (leftLists.nodup.of_map _) (rightLists.nodup.of_map _)]
  rintro ⟨hash, fund⟩
  rw [leftLists.mem_iff, rightLists.mem_iff]

/-- The unpaid budgets of all funds, without wrapping. -/
def unpaid (entries : List (Uint256 × Fund)) : Int :=
  exactSum (entries.flatMap fun entry => entry.2.outstanding.map (·.amount))

theorem covers_unpaid (sound : before.Sound) (lists : before.Lists entries) : Covers (unpaid entries) before.claim := by
  have all : Covers ((entries.map Prod.fst).map before.claim).sum before.claim := by
    refine Covers.of_list lists.nodup sound.claim_nonneg fun hash absent => ?_
    unfold claim
    cases found : before.funds hash with
    | none => rfl
    | some fund =>
      exact absurd (mem_map.2 ⟨(hash, fund), (lists.mem_iff _ _).2 found, rfl⟩) absent
  refine all.mono ?_ fun _ => le_refl _
  have members : ∀ entry ∈ entries, before.claim entry.1 ≤ exactSum (entry.2.outstanding.map (·.amount)) := by
    rintro ⟨hash, fund⟩ member
    have found := (lists.mem_iff hash fund).1 member
    rw [claim_of_found found]
    exact (sound hash fund found).pending_le_outstanding
  unfold unpaid
  clear all lists
  induction entries with
  | nil => simp
  | cons entry rest ih =>
    simp only [map_cons, sum_cons, flatMap_cons, exactSum_append]
    exact add_le_add (members entry mem_cons_self) (ih fun other member => members other (mem_cons_of_mem _ member))

/-- A committee starts balanced when its stage can pay all unpaid budgets. -/
theorem Step.balanced_start (step : Step prim before txs after) (sound : before.Sound)
    (newSession : after.session ≠ before.session) (admits : ∀ tx ∈ txs, Admits prim before tx)
    (lists : after.Lists entries) (affordable : unpaid entries ≤ after.stage.toInt) : after.Balanced := by
  have afterSound := step.sound sound admits
  cases step with
  | skip => exact absurd rfl newSession
  | keep acts settled =>
    rw [settled.session, (run_stage_session before _).2] at newSession
    exact absurd rfl newSession
  | @change actions rounds middle _ acts settled takesOver =>
    obtain ⟨listed, listedMiddle, used⟩ := takesOver.used
    have listedAfter : after.Lists listed :=
      ⟨listedMiddle.nodup, fun hash fund => by
        rw [takesOver.funds]
        exact listedMiddle.mem_iff hash fund⟩
    have same : unpaid listed = unpaid entries := exactSum_perm ((listedAfter.perm lists).flatMap_right _)
    have covers := covers_unpaid afterSound lists
    have exact : after.used.toInt = unpaid entries := by
      refine toInt_eq_of_wrapped ?_ covers.nonneg affordable
      rw [used, ← same]
      exact wrappedSum_eq _
    refine ⟨afterSound, ?_, ?_⟩
    · rw [exact]
      exact covers
    · rw [exact]
      exact affordable

end Steps
end Elastos.Cr.Treasury
