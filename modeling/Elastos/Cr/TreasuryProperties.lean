import Elastos.Cr.Treasury
import Elastos.Utils.Unspent

/-! The treasury over whole blocks: funds stay sound, what is paid out is recorded as
withdrawn, and the amount in use covers what proposals may still claim. -/
set_option autoImplicit false
namespace Elastos.Cr.Treasury
open Go Common Crypto Elastos.Types Utils List
variable (tx : Transaction)

def payment : Int :=
  exactSum ((tx.outputs.take 1).map (·.value)) + tx.fee.toInt

def withdrawnProposal : Option Uint256 :=
  match tx.txType, tx.payload with
  | .crcProposalWithdraw, .crcProposalWithdraw payload => some payload.proposalHash
  | _, _ => none

def closedProposal : Option Uint256 :=
  match tx.txType, tx.payload with
  | .crcProposalTracking, .crcProposalTracking tracking =>
    if Fund.Closes tracking.proposalTrackingType then some tracking.proposalHash else none
  | _, _ => none

/-- What a transaction adds to the amount in use, without wrapping. -/
def proposed : Int :=
  match tx.txType, tx.payload with
  | .crcProposal, .crcProposal proposal => exactSum (proposal.budgets.map (·.amount))
  | _, _ => 0

def Sound (treasury : Treasury) : Prop :=
  ∀ hash fund, treasury.funds hash = some fund → fund.Sound

/-- What the checks against the state before a block ensure of a transaction. -/
structure Admits (prim : Primitives) (before : Treasury) (tx : Transaction) : Prop where
  proposal : ∀ proposal, tx.txType = .crcProposal → tx.payload = .crcProposal proposal →
    SoundBudgets proposal.budgets ∧ before.funds (proposal.hash prim) = none
  tracking : ∀ tracking, tx.txType = .crcProposalTracking → tx.payload = .crcProposalTracking tracking →
    ∃ fund, before.funds tracking.proposalHash = some fund ∧ fund.status = .voterAgreed
  withdraw : ∀ payload, tx.txType = .crcProposalWithdraw → tx.payload = .crcProposalWithdraw payload →
    ∃ fund, before.funds payload.proposalHash = some fund ∧ payment tx ≤ exactSum (fund.withdrawing.map Prod.snd)

/-- Transactions act one after the other, each on what the earlier ones left. -/
theorem acts_induction (holds : List Transaction → Treasury → Prop) {prim : Primitives}
    {before : Treasury} {txs : List Transaction} {actions : List (List TreasuryAction)}
    (acts : List.Forall₂ (Acts prim before) txs actions) (initial : holds [] before)
    (step : ∀ done tx acted current, done ++ [tx] <+: txs → Acts prim before tx acted →
      holds done current → holds (done ++ [tx]) (current.run acted)) : holds txs (before.run actions.flatten) := by
  have general : ∀ done rest (others : List (List TreasuryAction)) current,
      done ++ rest = txs → List.Forall₂ (Acts prim before) rest others →
      holds done current → holds txs (current.run others.flatten) := by
    intro done rest others current whole acts
    induction acts generalizing done current with
    | nil =>
      intro held
      rw [← whole, append_nil]
      exact held
    | @cons tx acted rest others first _ ih =>
      intro held
      have joined : (done ++ [tx]) ++ rest = txs := by simpa using whole
      rw [flatten_cons, run_append]
      exact ih _ _ joined (step done tx acted current ⟨rest, joined⟩ first held)
  exact general [] txs actions before rfl acts initial

section Sound
variable {prim : Primitives} {before current : Treasury} {tx : Transaction}
  {acted : List TreasuryAction}

/-- The treasury after some transactions of a block. -/
structure Follows (before current : Treasury) : Prop where
  kept : ∀ hash fund, before.funds hash = some fund → ∃ next, current.funds hash = some next ∧ fund.Follows next
  new : ∀ hash fund, before.funds hash = none → current.funds hash = some fund → fund.Sound

theorem Sound.follows (sound : before.Sound) : before.Follows before where
  kept hash fund found := ⟨fund, found, (sound hash fund found).follows⟩
  new _ _ missing found := by simp [missing] at found

section
variable (follows : before.Follows current)
include follows

theorem Follows.sound : current.Sound := by
  intro hash fund found
  cases earlier : before.funds hash with
  | none => exact follows.new hash fund earlier found
  | some old =>
    obtain ⟨next, nextFound, followsFund⟩ := follows.kept hash old earlier
    cases found.symm.trans nextFound
    exact followsFund.sound

theorem Follows.update {hash : Uint256} {fund : Fund}
    {action : FundAction} (found : before.funds hash = some fund) (each : ∀ next, fund.Follows next →
      ∃ after, action.apply (some next) = some after ∧ fund.Follows after) :
    before.Follows (current.act (.fund hash action)) := by
  constructor
  · intro other old oldFound
    by_cases same : other = hash
    · subst same
      cases found.symm.trans oldFound
      obtain ⟨next, nextFound, followsFund⟩ := follows.kept other fund found
      simp only [act, setFund_self, nextFound]
      exact each next followsFund
    · simp only [act, setFund_of_ne _ _ same]
      exact follows.kept other old oldFound
  · intro other new missing newFound
    have different : other ≠ hash := by
      rintro rfl
      simp [found] at missing
    simp only [act, setFund_of_ne _ _ different] at newFound
    exact follows.new other new missing newFound

theorem Follows.register {hash : Uint256}
    {proposal : CRCProposal} (missing : before.funds hash = none) (budgets : SoundBudgets proposal.budgets) :
    before.Follows (current.act (.fund hash (.register proposal))) := by
  constructor
  · intro other old oldFound
    have different : other ≠ hash := by
      rintro rfl
      simp [missing] at oldFound
    simp only [act, setFund_of_ne _ _ different]
    exact follows.kept other old oldFound
  · intro other new otherMissing newFound
    by_cases same : other = hash
    · subst same
      simp only [act, setFund_self, FundAction.apply, Option.some.injEq] at newFound
      subst newFound
      exact Fund.sound_opened budgets
    · simp only [act, setFund_of_ne _ _ same] at newFound
      exact follows.new other new otherMissing newFound

theorem Follows.acts (admits : Admits prim before tx)
    (acts : Acts prim before tx acted) : before.Follows (current.run acted) := by
  cases acts with
  | other => exact follows
  | @register proposal isType payload =>
    obtain ⟨budgets, missing⟩ := admits.proposal proposal isType payload
    have registered := follows.register missing budgets
    exact ⟨registered.kept, registered.new⟩
  | full => exact ⟨follows.kept, follows.new⟩
  | @track tracking fund isType payload found =>
    obtain ⟨_, sameFound, agreed⟩ := admits.tracking tracking isType payload
    cases found.symm.trans sameFound
    have decided : ¬ fund.Undecided := by simp [Fund.Undecided, agreed]
    have tracked : before.Follows (current.act (.fund tracking.proposalHash
        (.track tracking.proposalTrackingType tracking.stage))) :=
      follows.update found fun next followsFund => ⟨_, rfl, followsFund.track decided _ _⟩
    exact ⟨tracked.kept, tracked.new⟩
  | trackNothing => exact ⟨follows.kept, follows.new⟩
  | withdraw isType isPayload found =>
    exact follows.update found fun next followsFund => ⟨_, rfl, followsFund.withdraw⟩
  | withdrawNothing => exact follows

end

end Sound

section Settlement
variable {fund : Fund} {action : Option FundAction} {freed : List Budget}

def settled (action : Option FundAction) (fund : Fund) : Option Fund :=
  action.elim (some fund) fun action => action.apply (some fund)

/-- A round keeps what has been withdrawn and frees no more than it ends of the claims. -/
theorem Settles.spec (settles : Settles fund action freed) (sound : fund.Sound) :
    ∃ next, settled action fund = some next ∧ next.Sound ∧ next.withdrawnBudgets = fund.withdrawnBudgets ∧
      next.pending + exactSum (freed.map (·.amount)) ≤ fund.pending := by
  cases settles with
  | stay => exact ⟨fund, rfl, sound, rfl, by simp⟩
  | councilAgrees status =>
    refine ⟨_, rfl, sound.setStatus fun _ => .inl status, rfl, ?_⟩
    simp [Fund.pending, Fund.claimed, Fund.setStatus, status]
  | votersAgree status =>
    refine ⟨_, rfl, sound.agree, ?_, ?_⟩
    · exact Fund.release_withdrawn _
    · have all : fund.claimed = fund.proposal.budgets := by simp [Fund.claimed, status]
      have same : fund.agree.proposal = fund.proposal := Fund.release_proposal _
      have claims : fund.agree.claimed.Sublist fund.claimed := by
        rw [all, ← same]
        exact Fund.claimed_sublist
      simpa [Fund.pending] using Fund.exactSum_budgets_le sound claims Fund.claimed_sublist
  | @cancel status undecided ends =>
    have ended : (fund.setStatus status).pending = 0 := by
      refine Fund.pending_of_ended ?_
      rcases ends with rfl | rfl | rfl
      all_goals simp [Fund.setStatus]
    refine ⟨_, rfl, sound.setStatus fun _ => undecided, rfl, ?_⟩
    rw [ended, zero_add]
    rcases undecided with status | status
    all_goals simp [Fund.pending, Fund.claimed, status]

theorem Settles.freed_nonneg (settles : Settles fund action freed) (sound : fund.Sound) :
    0 ≤ exactSum (freed.map (·.amount)) := by
  refine exactSum_nonneg fun amount member => ?_
  obtain ⟨budget, budgetMember, rfl⟩ := mem_map.1 member
  cases settles with
  | cancel => exact sound.budgets.amounts budget budgetMember
  | _ => simp at budgetMember

variable {before after : Treasury} {rounds : List Round}

theorem run_actions (round : Round) (treasury : Treasury)
    (found : treasury.funds round.hash = some round.fund) : treasury.run round.actions =
      treasury.setFund round.hash (settled round.action round.fund) := by
  unfold Round.actions settled
  cases round.action with
  | none => simp [setFund, ← found]
  | some action => simp [act, found]

theorem rounds_induction (holds : List Round → Treasury → Prop)
    (settledBy : SettledBy before rounds after) (initial : holds [] before)
    (step : ∀ done round current, round ∈ rounds →
      current.funds round.hash = some round.fund → holds done current → holds (done ++ [round])
        (current.setFund round.hash (settled round.action round.fund))) :
    holds rounds (before.run (rounds.flatMap Round.actions)) := by
  have general : ∀ done rest current, done ++ rest = rounds →
      (∀ round ∈ rest, current.funds round.hash = some round.fund) → holds done current →
      holds rounds (current.run (rest.flatMap Round.actions)) := by
    intro done rest current whole found held
    induction rest generalizing done current with
    | nil =>
      rw [← whole, append_nil]
      exact held
    | cons round rest ih =>
      have foundFirst := found round mem_cons_self
      have joined : (done ++ [round]) ++ rest = rounds := by simpa using whole
      rw [flatMap_cons, run_append, run_actions round current foundFirst]
      refine ih _ _ joined (fun other member => ?_) (step done round current (by simp [← whole]) foundFirst held)
      -- Later rounds are about other proposals.
      have different : other.hash ≠ round.hash := by
        have nodup := settledBy.nodup
        rw [← whole, map_append, map_cons] at nodup
        have notLater := (nodup_cons.1 (nodup_append.1 nodup).2.1).1
        exact fun same => notLater (same ▸ mem_map_of_mem member)
      rw [setFund_of_ne _ _ different]
      exact found other (mem_cons_of_mem _ member)
  exact general [] rounds before rfl (fun round member => (settledBy.each round member).1) initial

theorem SettledBy.funds (settledBy : SettledBy before rounds after) (sound : before.Sound) (hash : Uint256) :
    (before.funds hash = none → after.funds hash = none) ∧ ∀ fund, before.funds hash = some fund →
        ∃ next, after.funds hash = some next ∧ next.Sound ∧ next.withdrawnBudgets = fund.withdrawnBudgets := by
  rw [settledBy.result]
  refine rounds_induction (fun _ current =>
    (before.funds hash = none → current.funds hash = none) ∧ ∀ fund, before.funds hash = some fund →
        ∃ next, current.funds hash = some next ∧ next.Sound ∧ next.withdrawnBudgets = fund.withdrawnBudgets) settledBy
    ⟨id, fun fund found => ⟨fund, found, sound hash fund found, rfl⟩⟩ ?_
  intro done round current member _ held
  obtain ⟨found, settles⟩ := settledBy.each round member
  by_cases same : hash = round.hash
  · subst same
    obtain ⟨next, isNext, nextSound, withdrawn, _⟩ := settles.spec (sound _ _ found)
    refine ⟨fun missing => by simp [found] at missing, fun fund fundFound => ?_⟩
    cases found.symm.trans fundFound
    exact ⟨next, by rw [setFund_self, isNext], nextSound, withdrawn⟩
  · rw [setFund_of_ne _ _ same]
    exact held

theorem SettledBy.sound (settledBy : SettledBy before rounds after) (sound : before.Sound) : after.Sound := by
  intro hash fund found
  obtain ⟨none, some⟩ := settledBy.funds sound hash
  cases earlier : before.funds hash with
  | none => simp [none earlier] at found
  | some old =>
    obtain ⟨next, nextFound, nextSound, _⟩ := some old earlier
    cases found.symm.trans nextFound
    exact nextSound

end Settlement

section Steps
variable {prim : Primitives} {before after : Treasury} {txs : List Transaction}
  {actions : List (List TreasuryAction)}

theorem follows_acts (sound : before.Sound) (admits : ∀ tx ∈ txs, Admits prim before tx)
    (acts : List.Forall₂ (Acts prim before) txs actions) : before.Follows (before.run actions.flatten) := by
  refine acts_induction (fun _ current => before.Follows current) acts sound.follows ?_
  intro done tx acted current isPrefix act follows
  exact follows.acts (admits tx (isPrefix.subset (by simp))) act

theorem Step.sound (step : Step prim before txs after) (sound : before.Sound)
    (admits : ∀ tx ∈ txs, Admits prim before tx) : after.Sound := by
  cases step with
  | skip => exact sound
  | keep acts settled => exact settled.sound (follows_acts sound admits acts).sound
  | change acts settled takesOver =>
    have middle := settled.sound (follows_acts sound admits acts).sound
    intro hash fund found
    rw [takesOver.funds] at found
    exact middle hash fund found

end Steps

section Payments
variable {prim : Primitives} {before current after : Treasury} {tx : Transaction}
  {txs done : List Transaction}

def paid (txs : List Transaction) (hash : Uint256) : Int :=
  (txs.map fun tx => if withdrawnProposal tx = some hash then payment tx else 0).sum

theorem paid_append (left right : List Transaction) (hash : Uint256) :
    paid (left ++ right) hash = paid left hash + paid right hash := by
  simp [paid]

def drawn (treasury : Treasury) (hash : Uint256) : Int :=
  (treasury.funds hash).elim 0 Fund.drawn

theorem withdrawnProposal_eq_none (noWithdraw : tx.txType ≠ .crcProposalWithdraw) : withdrawnProposal tx = none := by
  unfold withdrawnProposal
  split
  · rename_i isType _
    exact absurd isType noWithdraw
  · rfl

theorem Admits.fund_of_withdrawn (admits : Admits prim before tx) {hash : Uint256}
    (withdrawn : withdrawnProposal tx = some hash) : ∃ fund, before.funds hash = some fund := by
  unfold withdrawnProposal at withdrawn
  split at withdrawn
  · rename_i isType payload
    cases withdrawn
    obtain ⟨fund, found, _⟩ := admits.withdraw _ isType payload
    exact ⟨fund, found⟩
  · simp at withdrawn

theorem paid_of_missing (admits : ∀ tx ∈ txs, Admits prim before tx) {hash : Uint256}
    (missing : before.funds hash = none) : paid txs hash = 0 := by
  refine sum_eq_zero fun amount member => ?_
  obtain ⟨tx, txMember, rfl⟩ := mem_map.1 member
  split
  · rename_i withdrawn
    obtain ⟨fund, found⟩ := (admits tx txMember).fund_of_withdrawn withdrawn
    simp [missing] at found
  · rfl

/-- How far the withdrawals among some transactions of a block have come. -/
def PaidOut (before : Treasury) (done : List Transaction) (current : Treasury) : Prop :=
  ∀ hash fund, before.funds hash = some fund → ∃ next, current.funds hash = some next ∧
    (hash ∉ done.filterMap withdrawnProposal → next.withdrawnBudgets = fund.withdrawnBudgets) ∧
    fund.drawn + paid done hash ≤ next.drawn

section
variable (paidOut : PaidOut before done current)
include paidOut

theorem PaidOut.keep (noWithdraw : withdrawnProposal tx = none)
    (same : ∀ hash next, (before.funds hash).isSome → current.funds hash = some next →
      ∃ last, after.funds hash = some last ∧ last.withdrawnBudgets = next.withdrawnBudgets) :
    PaidOut before (done ++ [tx]) after := by
  intro hash fund found
  obtain ⟨next, nextFound, untouched, drawn⟩ := paidOut hash fund found
  obtain ⟨last, lastFound, withdrawn⟩ := same hash next (by simp [found]) nextFound
  refine ⟨last, lastFound, fun absent => ?_, ?_⟩
  · rw [withdrawn]
    exact untouched (by simpa [noWithdraw] using absent)
  · simpa [paid_append, paid, noWithdraw, Fund.drawn, withdrawn] using drawn

theorem PaidOut.withdraw {payload : CRCProposalWithdraw} {fund : Fund}
    (isType : tx.txType = .crcProposalWithdraw) (isPayload : tx.payload = .crcProposalWithdraw payload)
    (found : before.funds payload.proposalHash = some fund)
    (covered : payment tx ≤ exactSum (fund.withdrawing.map Prod.snd))
    (first : payload.proposalHash ∉ done.filterMap withdrawnProposal) : PaidOut before (done ++ [tx])
      (current.act (.fund payload.proposalHash (.withdraw fund.withdrawing))) := by
  have withdrawn : withdrawnProposal tx = some payload.proposalHash := by
    simp [withdrawnProposal, isType, isPayload]
  intro hash old oldFound
  obtain ⟨next, nextFound, untouched, drawn⟩ := paidOut hash old oldFound
  by_cases same : hash = payload.proposalHash
  · subst same
    cases found.symm.trans oldFound
    refine ⟨next.withdraw fund.withdrawing, ?_, fun absent => ?_, ?_⟩
    · simp [act, nextFound, FundAction.apply]
    · simp [withdrawn] at absent
    · -- Nothing has been withdrawn in this block, so all entries are new.
      have unchanged := untouched first
      have earlier : paid done payload.proposalHash ≤ 0 := by
        have equal : next.drawn = fund.drawn := by rw [Fund.drawn, unchanged, Fund.drawn]
        omega
      rw [Fund.drawn_withdraw unchanged, paid_append]
      simp only [paid, map_cons, withdrawn, if_true, map_nil, sum_cons, sum_nil, add_zero] at earlier ⊢
      omega
  · refine ⟨next, by rw [act, setFund_of_ne _ _ same, nextFound], fun absent => ?_, ?_⟩
    · exact untouched fun member => absent (by simp [member])
    · have other : withdrawnProposal tx ≠ some hash := by
        rw [withdrawn]
        exact fun equal => same (Option.some.inj equal).symm
      simpa [paid_append, paid, other] using drawn

theorem PaidOut.acts (admits : Admits prim before tx) {acted : List TreasuryAction} (acts : Acts prim before tx acted)
    (first : ∀ hash, withdrawnProposal tx = some hash → hash ∉ done.filterMap withdrawnProposal) :
    PaidOut before (done ++ [tx]) (current.run acted) := by
  cases acts with
  | other _ _ noWithdraw =>
    exact paidOut.keep (withdrawnProposal_eq_none noWithdraw) fun hash next _ found => ⟨next, found, rfl⟩
  | @register proposal isType payload =>
    refine paidOut.keep (withdrawnProposal_eq_none (by simp [isType])) ?_
    intro hash next isSome found
    have different : hash ≠ proposal.hash prim := by
      rintro rfl
      simp [(admits.proposal proposal isType payload).2] at isSome
    refine ⟨next, ?_, rfl⟩
    rw [← found]
    exact setFund_of_ne _ _ different
  | full isType =>
    exact paidOut.keep (withdrawnProposal_eq_none (by simp [isType])) fun hash next _ found => ⟨next, found, rfl⟩
  | @track tracking fund isType payload found =>
    refine paidOut.keep (withdrawnProposal_eq_none (by simp [isType])) ?_
    intro hash next _ nextFound
    by_cases same : hash = tracking.proposalHash
    · subst same
      refine ⟨next.track tracking.proposalTrackingType tracking.stage, ?_, Fund.track_withdrawn _ _⟩
      simp [act, nextFound, FundAction.apply]
    · refine ⟨next, ?_, rfl⟩
      rw [← nextFound]
      exact setFund_of_ne _ _ same
  | trackNothing isType =>
    exact paidOut.keep (withdrawnProposal_eq_none (by simp [isType])) fun hash next _ found => ⟨next, found, rfl⟩
  | @withdraw payload fund isType isPayload found =>
    obtain ⟨_, sameFound, covered⟩ := admits.withdraw payload isType isPayload
    cases found.symm.trans sameFound
    refine paidOut.withdraw isType isPayload found covered (first _ ?_)
    simp [withdrawnProposal, isType, isPayload]
  | @withdrawNothing payload isType isPayload missing =>
    obtain ⟨_, found, _⟩ := admits.withdraw payload isType isPayload
    simp [missing] at found

end

theorem paidOut_acts {actions : List (List TreasuryAction)} (admits : ∀ tx ∈ txs, Admits prim before tx)
    (once : (txs.filterMap withdrawnProposal).Nodup) (acts : List.Forall₂ (Acts prim before) txs actions) :
    PaidOut before txs (before.run actions.flatten) := by
  refine acts_induction (PaidOut before) acts (fun hash fund found => ⟨fund, found, fun _ => rfl, by simp [paid]⟩) ?_
  intro done tx acted current isPrefix act paidOut
  refine paidOut.acts (admits tx (isPrefix.subset (by simp))) act ?_
  intro hash withdrawn
  have nodup := (isPrefix.sublist.filterMap withdrawnProposal).nodup once
  simp only [filterMap_append, filterMap_cons, withdrawn, filterMap_nil] at nodup
  exact fun member => (nodup_append.1 nodup).2.2 _ member _ (by simp) rfl

theorem Step.paid_le (step : Step prim before txs after) (sound : before.Sound)
    (admits : ∀ tx ∈ txs, Admits prim before tx) (once : (txs.filterMap withdrawnProposal).Nodup) (hash : Uint256) :
    before.drawn hash + paid txs hash ≤ after.drawn hash := by
  have afterSound := step.sound sound admits
  cases found : before.funds hash with
  | none =>
    rw [paid_of_missing admits found]
    simp only [drawn, found, Option.elim_none, add_zero]
    cases later : after.funds hash with
    | none => exact le_refl 0
    | some fund => exact (afterSound hash fund later).drawn_nonneg
  | some fund =>
    -- The manager and a change of the committee keep what has been withdrawn.
    have throughRounds {actions : List (List TreasuryAction)} {rounds : List Round}
        {middle : Treasury} (acts : List.Forall₂ (Acts prim before) txs actions)
        (settled : SettledBy (before.run actions.flatten) rounds middle) :
        before.drawn hash + paid txs hash ≤ middle.drawn hash := by
      obtain ⟨next, nextFound, _, drawnBound⟩ := paidOut_acts admits once acts hash fund found
      obtain ⟨last, lastFound, _, withdrawn⟩ :=
        (settled.funds (follows_acts sound admits acts).sound hash).2 next nextFound
      simp only [drawn, found, lastFound, Option.elim_some]
      rwa [Fund.drawn, Fund.drawn, withdrawn]
    cases step with
    | skip empty => simp [empty] at found
    | keep acts settled => exact throughRounds acts settled
    | change acts settled takesOver =>
      have bound := throughRounds acts settled
      simpa only [drawn, takesOver.funds] using bound

end Payments

section Ages
variable {prim : Primitives} {before current after : Treasury} {txs : List Transaction}

def Ages (before after : Treasury) : Prop :=
  ∀ hash fund, before.funds hash = some fund → ∃ next, after.funds hash = some next ∧ fund.Ages next

theorem Ages.trans (first : before.Ages current) (second : current.Ages after) : before.Ages after := by
  intro hash fund found
  obtain ⟨next, nextFound, ages⟩ := first hash fund found
  obtain ⟨last, lastFound, agesLater⟩ := second hash next nextFound
  exact ⟨last, lastFound, ages.trans agesLater⟩

theorem Ages.setFund (ages : before.Ages current) {hash : Uint256} {fund : Option Fund}
    (each : ∀ old next, before.funds hash = some old → current.funds hash = some next → old.Ages next →
      ∃ after, fund = some after ∧ old.Ages after) : before.Ages (current.setFund hash fund) := by
  intro other old found
  obtain ⟨next, nextFound, agesNext⟩ := ages other old found
  by_cases same : other = hash
  · subst same
    rw [setFund_self]
    exact each old next found nextFound agesNext
  · rw [setFund_of_ne _ _ same]
    exact ⟨next, nextFound, agesNext⟩

theorem Ages.acts {tx : Transaction} {acted : List TreasuryAction} (ages : before.Ages current)
    (admits : Admits prim before tx) (acts : Acts prim before tx acted) : before.Ages (current.run acted) := by
  cases acts with
  | register isType payload =>
    refine ages.setFund fun old _ found => ?_
    simp [(admits.proposal _ isType payload).2] at found
  | track isType payload =>
    obtain ⟨fund, found, agreed⟩ := admits.tracking _ isType payload
    refine ages.setFund fun old next oldFound nextFound agesNext => ?_
    cases found.symm.trans oldFound
    rw [nextFound]
    exact ⟨_, rfl, agesNext.track agreed _ _⟩
  | withdraw =>
    refine ages.setFund fun old next _ nextFound agesNext => ?_
    rw [nextFound]
    exact ⟨_, rfl, agesNext.proposal, agesNext.rank, agesNext.ended⟩
  | _ => exact ages

theorem Settles.ages {fund : Fund} {action : Option FundAction} {freed : List Budget}
    (settles : Settles fund action freed) : ∃ next, settled action fund = some next ∧ fund.Ages next := by
  cases settles with
  | stay => exact ⟨fund, rfl, .refl fund⟩
  | councilAgrees status => exact ⟨_, rfl, rfl, by simp [status], by simp [status]⟩
  | votersAgree status =>
    exact ⟨_, rfl, Fund.release_proposal _, by simp [status, Fund.agree, Fund.setStatus], by simp [status]⟩
  | cancel undecided ends =>
    refine ⟨_, rfl, rfl, ?_, ?_⟩
    all_goals rcases undecided with status | status
    all_goals rcases ends with rfl | rfl | rfl
    all_goals simp [status, Fund.setStatus]

theorem SettledBy.ages {rounds : List Round} (settledBy : SettledBy before rounds after) : before.Ages after := by
  rw [settledBy.result]
  refine rounds_induction (fun _ current => before.Ages current) settledBy
    (fun _ fund found => ⟨fund, found, .refl fund⟩) fun done round current member found ages => ?_
  refine ages.setFund fun old next oldFound nextFound agesNext => ?_
  cases found.symm.trans nextFound
  obtain ⟨last, isLast, agesLast⟩ := (settledBy.each round member).2.ages
  exact ⟨last, isLast, agesNext.trans agesLast⟩

theorem Step.ages (step : Step prim before txs after) (admits : ∀ tx ∈ txs, Admits prim before tx) :
    before.Ages after := by
  have through {actions : List (List TreasuryAction)} (acts : List.Forall₂ (Acts prim before) txs actions) :
      before.Ages (before.run actions.flatten) := by
    refine acts_induction (fun _ current => before.Ages current) acts
      (fun _ fund found => ⟨fund, found, .refl fund⟩) ?_
    intro done tx acted current isPrefix act ages
    exact ages.acts (admits tx (isPrefix.subset (by simp))) act
  cases step with
  | skip => exact fun _ fund found => ⟨fund, found, .refl fund⟩
  | keep acts settled => exact (through acts).trans settled.ages
  | change acts settled takesOver =>
    intro hash
    rw [takesOver.funds]
    exact (through acts).trans settled.ages hash

end Ages
end Elastos.Cr.Treasury
