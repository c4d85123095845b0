import Elastos.Cr.ProposalManager

/-! The committee and how it takes a block, after `cr/state/committee.go`. -/
set_option autoImplicit false
namespace Elastos.Cr
open Go Common Config Crypto Elastos.Types Utils

/-- The histories that the committee, its state and its proposal manager keep. -/
inductive HistoryName where
  | first
  | state
  | manager
  | last
  | appropriation
  deriving DecidableEq

structure Committee where
  frame : Frame
  histories : HistoryName → History Frame

namespace Committee

def initial : Committee where
  frame := Frame.initial
  histories _ := {
    capacity := maxHistoryCapacity
    height := 0
    changes := []
    cachedChanges := none
    tempChanges := []
    seekHeight := 0 }

def appendChange (name : HistoryName) (height : UInt32) (committee : Committee)
    (change : Change Frame) : Outcome String Committee := do
  let (history, frame) ←
    (committee.histories name).append height change committee.frame
  .ok { frame, histories := Function.update committee.histories name history }

variable (committee : Committee) (name : HistoryName) (height : UInt32)

def append (changes : Changes) : Outcome String Committee :=
  changes.foldlM (appendChange name height) committee

def commit : Outcome String Committee := do
  let (history, frame) ← (committee.histories name).commit height committee.frame
  .ok { frame, histories := Function.update committee.histories name history }

end Committee

variable (params : Params)

def recordOutput (entry : OutPoint × Output) : Changes :=
  if entry.2.programHash = params.crcFoundation then [{
    execute frame := { frame with
      crcFoundationOutputs := frame.crcFoundationOutputs.insert entry.1 entry.2.value }
    rollback frame := { frame with
      crcFoundationOutputs := frame.crcFoundationOutputs.erase entry.1 } }]
  else if entry.2.programHash = params.crcCommitteeAddress then [{
    execute frame := { frame with
      crcCommitteeOutputs := frame.crcCommitteeOutputs.insert entry.1 entry.2.value }
    rollback frame := { frame with
      crcCommitteeOutputs := frame.crcCommitteeOutputs.erase entry.1 } }]
  else []

def recordCRCRelatedAddressOutputs (funcs : CommitteeFuncs) (block : Block) : Changes :=
  block.transactions.flatMap fun tx =>
    (outputPoints funcs.prim tx).flatMap (recordOutput funcs.params)

variable (height : UInt32)

def setLastVotingStartHeight (frame : Frame) : Frame :=
  { frame with lastVotingStartHeight := height }

variable (params : Params) (frame : Frame) (height : UInt32)

/-- The height is recorded one block ahead. -/
def recordLastVotingStartHeight : Changes :=
  if frame.isInVotingPeriod params height then []
  else if height =
      frame.lastCommitteeHeight + params.crDutyPeriod - params.crVotingPeriod - 1 then [{
    execute := setLastVotingStartHeight (height + 1)
    rollback := setLastVotingStartHeight frame.lastVotingStartHeight }]
  else []

def setCandidateState (key : Uint168) (position : Nat) (state : CandidateState) (frame : Frame) : Frame :=
  { frame.updateCandidate position (fun candidate => { candidate with state }) with
    candidates := frame.candidates.insert key position }

def updateVotingCandidatesState : Changes :=
  if frame.isInVotingPeriod params height then
    ((frame.getCandidates .pending).filter fun entry =>
      activateDuration ≤ height - entry.2.registerHeight + 1).map fun entry => {
        execute := setCandidateState entry.2.info.cid entry.1 .active
        rollback := setCandidateState entry.2.info.cid entry.1 .pending }
  else []

/-- Reading the deposit of a candidate that has none panics. -/
def updateDepositCoin (frame : Frame) (key : Uint168) : Outcome String (Change Frame) := do
  let origin ← frame.depositInfoOf key
  .ok {
    execute frame := frame.updateDeposit key fun deposit =>
      { deposit with
        depositAmount := deposit.depositAmount - minDepositAmount
        refundable := true }
    rollback frame := frame.updateDeposit key fun deposit =>
      { deposit with
        depositAmount := origin.depositAmount
        refundable := origin.refundable } }

def updateCandidatesDepositCoin : Outcome String Changes :=
  ((frame.getCandidates .canceled).filter fun entry =>
    height - entry.2.cancelHeight = params.crDepositLockupBlocks).mapM fun entry =>
      updateDepositCoin frame entry.2.info.cid

/-- How many proposals of the session a member has voted on. A session names only
registered proposals; reading another one panics. -/
def voteCount (frame : Frame) (hashes : List Uint256) (did : Uint168) : Outcome String Nat := do
  let voted ← hashes.mapM fun hash =>
    match frame.getProposal hash with
    | some proposal => .ok (proposal.crVotes.lookup did).isSome
    | none => nilDereference
  .ok (voted.filter id).length

def getMemberPenalty (member : CRMember) : Outcome String Fixed64 := do
  let electionCount := height - frame.lastCommitteeHeight
  let electionRate := Float64.div (Float64.ofInt electionCount.toNat)
    (Float64.ofInt params.crDutyPeriod.toNat)
  let hashes := (frame.proposalSession.lookup frame.currentSession).getD []
  let voteCount ← voteCount frame hashes member.info.did
  let voteRate : Float64 :=
    if hashes.length = 0 then 1
    else Float64.div (Float64.ofInt voteCount) (Float64.ofInt hashes.length)
  let deposit ← frame.depositInfoOf member.info.cid
  let currentPenalty := Int64.ofInt (Float64.truncate (Float64.mul (Float64.ofInt minDepositAmount.toInt)
    (Float64.sub 1 (Float64.mul electionRate voteRate))))
  .ok (deposit.penalty + currentPenalty)

def punishDeposit (cid : Uint168) (penalty : Fixed64) (frame : Frame) : Frame :=
  frame.updateDeposit cid fun deposit =>
    { deposit with
      penalty
      depositAmount := deposit.depositAmount - minDepositAmount
      refundable := true }

def restoreDeposit (cid : Uint168) (origin : DepositInfo) (frame : Frame) : Frame :=
  frame.updateDeposit cid fun deposit =>
    { deposit with
      penalty := origin.penalty
      refundable := origin.refundable
      depositAmount := origin.depositAmount }

def setMemberState (position : Nat) (memberState : MemberState) (frame : Frame) : Frame :=
  frame.updateMember position fun member => { member with memberState }

/-- `transferCRMemberState` and `terminateCRMember`, which differ in the state. -/
def endMembership (memberState : MemberState) (entry : Nat × CRMember) : Outcome String (Change Frame) := do
  let cid := entry.2.info.cid
  let origin ← frame.depositInfoOf cid
  let penalty ← getMemberPenalty params frame height entry.2
  .ok {
    execute frame :=
      punishDeposit cid penalty (setMemberState entry.1 memberState frame)
    rollback frame :=
      restoreDeposit cid origin (setMemberState entry.1 entry.2.memberState frame) }

def transferCRMemberState :=
  endMembership params frame height .impeached

def terminateCRMember :=
  endMembership params frame height .terminated

def electedMembers (frame : Frame) : List (Nat × CRMember) :=
  frame.currentMembers.filter fun entry => entry.2.memberState = .elected

def isImpeached (frame : Frame) (entry : Nat × CRMember) : Bool :=
  rejectThreshold params frame.circulationAmount ≤ entry.2.impeachmentVotes

/-- The election period ends when too few members are left. The voting period is
asked for after the flag has been cleared. -/
def endElectionPeriod (frame : Frame) : Frame :=
  let ended := { frame with inElectionPeriod := false }
  if ended.lastVotingStartHeight = 0 ∨ ¬ ended.isInVotingPeriod params height then
    { ended with lastVotingStartHeight := height }
  else ended

/-- Whether the committee is still in its election period, and the changes. -/
def tryStartVotingPeriod : Outcome String (Bool × Changes) :=
  if !frame.inElectionPeriod then .ok (false, [])
  else do
    let impeached := (electedMembers frame).filter (isImpeached params frame)
    let transferred ← impeached.mapM (transferCRMemberState params frame height)
    let normalCount := UInt32.ofNat (electedMembers frame).length
    if normalCount - UInt32.ofNat impeached.length < params.crAgreementCount then do
      let terminated ← ((electedMembers frame).filter fun entry =>
        !isImpeached params frame entry).mapM (terminateCRMember params frame height)
      .ok (false, transferred ++ {
        execute := endElectionPeriod params height
        rollback current := { current with
          inElectionPeriod := frame.inElectionPeriod
          lastVotingStartHeight := frame.lastVotingStartHeight } } :: terminated)
    else .ok (true, transferred)

def originIssuanceAmount : Fixed64 := 3300000000000000

def freshCirculationAmount : Change Frame :=
  let circulationAmount := originIssuanceAmount + Int64.ofNat height.toNat * params.rewardPerBlock -
    frame.crcFoundationBalance - frame.crcCommitteeBalance - frame.destroyedAmount
  { execute current := { current with circulationAmount }
    rollback current :=
      { current with circulationAmount := frame.circulationAmount } }

def shouldChange : Bool :=
  if frame.lastCommitteeHeight = 0 ∧ height < params.crCommitteeStartHeight then false
  else if frame.lastCommitteeHeight = 0 ∧ height = params.crCommitteeStartHeight then true
  else if frame.lastVotingStartHeight = 0 then
    height = frame.lastCommitteeHeight + params.crDutyPeriod
  else height = frame.lastVotingStartHeight + params.crVotingPeriod

def shouldCleanHistory (frame : Frame) : Bool :=
  frame.lastVotingStartHeight = frame.lastCommitteeHeight + params.crDutyPeriod - params.crVotingPeriod

/-- The copies taken for the rollback are not needed: the cells of the maps stay. -/
def cleanHistory (frame : Frame) : Change Frame where
  execute current := { current with historyMembers := ∅, historyCandidates := ∅ }
  rollback current := { current with
    historyMembers := frame.historyMembers
    historyCandidates := frame.historyCandidates }

def processCurrentMembersDepositInfo : Outcome String Changes :=
  (electedMembers frame).mapM fun entry => do
    let origin ← frame.depositInfoOf entry.2.info.cid
    let penalty ← getMemberPenalty params frame height entry.2
    .ok {
      execute := punishDeposit entry.2.info.cid penalty
      rollback := restoreDeposit entry.2.info.cid origin }

def moreVotes (prim : Primitives) (left right : Nat × Candidate) : Bool :=
  if left.2.votes = right.2.votes then
    ByteArrayOf.less (prim.toCodeHash left.2.info.code)
      (prim.toCodeHash right.2.info.code)
  else right.2.votes < left.2.votes

def getActiveAndExistDIDCRCandidatesDesc (funcs : CommitteeFuncs) (frame : Frame) : List Candidate :=
  let candidates := (frame.candidatesOf frame.candidates).filter fun entry =>
    entry.2.info.did ≠ default ∧ entry.2.state = .active
  (funcs.runtime.sort (moreVotes funcs.prim) (funcs.runtime.iterate candidates)).map Prod.snd

def generateMember (candidate : Candidate) : CRMember where
  info := candidate.info
  impeachmentVotes := 0
  depositHash := candidate.depositHash
  memberState := .elected

variable (members : List (Uint168 × CRMember))

/-- Fill the map of members with new cells, a later entry for a key winning. -/
def installMembers (frame : Frame) : Frame :=
  members.foldl (fun current entry => { current with
      members := current.members.insert entry.1 current.memberCells.length
      memberCells := current.memberCells ++ [entry.2] })
    { frame with members := ∅ }

def storeHistoryMember (member : CRMember) : Change Frame where
  execute frame := { frame with
    historyMembers := GoMap.modify frame.historyMembers frame.currentSession fun members =>
      members.insert member.info.cid frame.memberCells.length
    memberCells := frame.memberCells ++ [member] }
  rollback frame := { frame with
    historyMembers := GoMap.modify frame.historyMembers frame.currentSession fun members =>
      members.erase member.info.cid }

def storeHistoryMembers (frame : Frame) : Changes :=
  let opened : Changes :=
    if (frame.historyMembers.lookup frame.currentSession).isSome then []
    else [{
      execute current := { current with
        historyMembers := current.historyMembers.insert frame.currentSession ∅ }
      rollback current := { current with
        historyMembers := current.historyMembers.erase frame.currentSession } }]
  opened ++ frame.currentMembers.map fun entry => storeHistoryMember entry.2

def copyMembersMap (frame : Frame) : List (Uint168 × CRMember) :=
  (GoMap.pairs frame.members).filterMap fun entry =>
    (frame.member? entry.2).map fun member => (entry.1, member)

def newMembers (candidates : List Candidate) : List (Uint168 × CRMember) :=
  (candidates.take params.crMemberCount.toNat).map fun candidate =>
    (candidate.info.did, generateMember candidate)

def processCurrentMembersHistory (frame : Frame) (candidates : List Candidate) : Changes :=
  (if frame.members.entries.isEmpty then [] else storeHistoryMembers frame) ++ [{
    execute current := { installMembers (newMembers params candidates) current with
      nicknames := ∅
      votes := ∅ }
    rollback current := { installMembers (copyMembersMap frame) current with
      nicknames := frame.nicknames
      votes := frame.votes } }]

/-- Candidates that stay behind and whose deposit is still locked. -/
def keepsDeposit (candidate : Candidate) : Bool :=
  candidate.info.did ∉ members.map Prod.fst ∧ ¬ (candidate.state = .canceled ∧
      params.crDepositLockupBlocks ≤ height - candidate.cancelHeight) ∧ candidate.state ≠ .returned

def releaseDeposit (frame : Frame) (cid : Uint168) : Outcome String (Change Frame) := do
  let origin ← frame.depositInfoOf cid
  .ok {
    execute current := current.updateDeposit cid fun deposit =>
      { deposit with
        refundable := true
        depositAmount := deposit.depositAmount - minDepositAmount }
    rollback current := current.updateDeposit cid fun deposit =>
      { deposit with
        refundable := origin.refundable
        depositAmount := deposit.depositAmount + minDepositAmount } }

/-- The map of members is keyed by DID while the candidates are keyed by CID. -/
def historyCandidatesOf (frame : Frame) (candidates : List Candidate) : GoMap Uint168 Nat :=
  GoMap.ofPairs ((GoMap.pairs frame.candidates).filter fun entry =>
    entry.1 ∉ candidates.map (·.info.did))

def processCurrentCandidates (candidates : List Candidate) : Outcome String (Frame × Changes) := do
  let session := frame.currentSession
  let opened :=
    if (frame.historyCandidates.lookup session).isSome then frame
    else { frame with historyCandidates := frame.historyCandidates.insert session ∅ }
  let released ← ((frame.candidatesOf frame.candidates).filter fun entry =>
    keepsDeposit params height (newMembers params candidates) entry.2).mapM fun entry =>
      releaseDeposit frame entry.2.info.cid
  let history := historyCandidatesOf frame candidates
  .ok (opened, released ++ [{
    execute current := { current with
      candidates := ∅
      historyCandidates := current.historyCandidates.insert session history }
    rollback current := { current with
      candidates := frame.candidates
      historyCandidates := current.historyCandidates.erase session } }])

/-- What a proposal may still be paid when a new committee takes over. -/
def outstandingBudgets (proposal : ProposalState) : List Budget :=
  match proposal.status with
  | .crCanceled | .voterCanceled | .aborted => []
  | .terminated | .finished =>
    proposal.proposal.budgets.filter fun budget =>
      (proposal.withdrawableBudgets.lookup budget.stage).isSome ∧ (proposal.withdrawnBudgets.lookup budget.stage).isNone
  | .registered | .crAgreed | .voterAgreed =>
    proposal.proposal.budgets.filter fun budget =>
      (proposal.withdrawnBudgets.lookup budget.stage).isNone

def outstandingAmounts (runtime : Runtime) (frame : Frame) : List Fixed64 :=
  (runtime.iterate (GoMap.pairs frame.proposals)).flatMap fun entry =>
    (outstandingBudgets entry.2).map (·.amount)

def setNeedAppropriation (needed : Bool) (frame : Frame) : Change Frame where
  execute current := { current with needAppropriation := needed }
  rollback current :=
    { current with needAppropriation := frame.needAppropriation }

variable (funcs : CommitteeFuncs) (frame : Frame) (height : UInt32)

def resetCRCCommitteeUsedAmount : Changes :=
  let budget := wrappedSum (outstandingAmounts funcs.runtime frame)
  { execute current := { current with crcCommitteeUsedAmount := budget }
    rollback current :=
      { current with crcCommitteeUsedAmount := frame.crcCommitteeUsedAmount } } ::
    if height = funcs.getHeight then [setNeedAppropriation true frame] else []

def resetProposalHashesSet (frame : Frame) : Change Frame where
  execute current := { current with proposalHashes := ∅ }
  rollback current := { current with proposalHashes := frame.proposalHashes }

/-- Members whose term was cut short have been dealt with before. -/
def currentMembersDepositInfo : Outcome String Changes :=
  if frame.inElectionPeriod then processCurrentMembersDepositInfo params frame height
  else .ok []

/-- Whether there were enough candidates, and the changes in either case. -/
def changeCommitteeMembers :
    Outcome String (Bool × Frame × Changes) := do
  let deposits ← currentMembersDepositInfo funcs.params frame height
  let candidates := getActiveAndExistDIDCRCandidatesDesc funcs frame
  if UInt32.ofNat candidates.length < funcs.params.crMemberCount then
    .ok (false, frame, deposits ++ [{
      execute current := { current with
        inElectionPeriod := false
        lastVotingStartHeight := height }
      rollback current := { current with
        inElectionPeriod := frame.inElectionPeriod
        lastVotingStartHeight := frame.lastVotingStartHeight } }])
  else do
    let members := processCurrentMembersHistory funcs.params frame candidates
    let (opened, left) ← processCurrentCandidates funcs.params frame height candidates
    .ok (true, opened, deposits ++ members ++ left ++ [{
      execute current := { current with
        currentSession := current.currentSession + 1
        inElectionPeriod := true
        lastCommitteeHeight := height }
      rollback current := { current with
        currentSession := current.currentSession - 1
        inElectionPeriod := frame.inElectionPeriod
        lastCommitteeHeight := frame.lastCommitteeHeight } }])

def changeCommittee :
    Outcome String (Bool × Frame × Changes) := do
  let cleaned : Changes :=
    if shouldCleanHistory funcs.params frame then [cleanHistory frame] else []
  let (changed, opened, changes) ← changeCommitteeMembers funcs frame height
  if changed then
    .ok (true, opened, cleaned ++ changes ++
      resetCRCCommitteeUsedAmount funcs frame height ++ [resetProposalHashesSet frame])
  else .ok (false, opened, cleaned ++ changes)

/-- Sending the transaction to the network does not concern the committee. An
error is logged. -/
def createAppropriationTransaction : Outcome String Changes :=
  if height = funcs.getHeight then
    match funcs.createCRCAppropriationTx with
    | .ok none => .ok [setNeedAppropriation false frame]
    | .ok (some _) => .ok []
    | .error (.error _) => .ok []
    | .error (.panic reason) => .crash reason
  else .ok []

/-- A share of an amount, computed in `float64`. -/
def appropriation (amount : Fixed64) : Fixed64 :=
  Int64.ofInt (Float64.truncate (Float64.div
    (Float64.mul (Float64.ofInt amount.toInt) params.crcAppropriatePercentage) 100))

def recordCurrentStageAmount (frame : Frame) : Change Frame :=
  let lockedAmount := wrappedSum frame.crcFoundationLockedAmounts
  { execute current :=
      let amount := appropriation params (current.crcFoundationBalance - lockedAmount)
      { current with
        appropriationAmount := amount
        crcCurrentStageAmount := current.crcCommitteeBalance + amount }
    rollback current := { current with
      crcCurrentStageAmount := frame.crcCurrentStageAmount
      appropriationAmount := frame.appropriationAmount } }

namespace Committee

def record (committee : Committee) (name : HistoryName) (height : UInt32)
    (changes : Changes) : Outcome String Committee := do
  let committee ← committee.append name height changes
  committee.commit name height

variable (funcs : CommitteeFuncs) (committee : Committee)

def processTransactions (txs : List Transaction) (height : UInt32) : Outcome String Committee :=
  txs.foldlM (fun committee tx => do
    let (frame, changes) ← processTransaction funcs committee.frame tx height
    ({ committee with frame }).append .state height changes) committee

/-- The part of a block that goes through the history of the state. -/
def processState (block : Block) : Outcome String Committee := do
  let height := block.height
  let committee ← committee.append .state height
    (recordLastVotingStartHeight funcs.params committee.frame height)
  let committee ← committee.processTransactions funcs block.transactions height
  let committee ← committee.append .state height
    (updateVotingCandidatesState funcs.params committee.frame height)
  let deposits ← updateCandidatesDepositCoin funcs.params committee.frame height
  committee.record .state height deposits

variable (height : UInt32)

def updateProposals (inElectionPeriod : Bool) : Outcome String Committee :=
  let (changes, unusedAmount) :=
    Cr.updateProposals funcs committee.frame height inElectionPeriod
  committee.record .manager height (changes ++ [subUsedAmount unusedAmount])

def tryChange : Outcome String (Bool × Committee) :=
  if shouldChange funcs.params committee.frame height then do
    let (changed, frame, changes) ← changeCommittee funcs committee.frame height
    let committee ← ({ committee with frame }).record .last height changes
    .ok (changed, committee)
  else do
    let committee ← committee.commit .last height
    .ok (false, committee)

def recordStage : Outcome String Committee := do
  let created ← createAppropriationTransaction funcs committee.frame height
  committee.record .appropriation height
    (created ++ [recordCurrentStageAmount funcs.params committee.frame])

def processBlock (block : Block) : Outcome String Committee :=
  if block.height < funcs.params.crVotingStartHeight then .ok committee
  else do
    let height := block.height
    let committee ← committee.record .first height
      (recordCRCRelatedAddressOutputs funcs block)
    let committee ← committee.processState funcs block
    let (inElectionPeriod, started) ←
      tryStartVotingPeriod funcs.params committee.frame height
    let committee ← committee.append .last height started
    let committee ← committee.updateProposals funcs height inElectionPeriod
    let committee ← committee.append .last height
      [freshCirculationAmount funcs.params committee.frame height]
    let (changed, committee) ← committee.tryChange funcs height
    if changed then committee.recordStage funcs height else .ok committee

end Committee
end Elastos.Cr

namespace Elastos.Cr.Committee
open Go Utils Outcome Function

def Ready (committee : Committee) : Prop :=
  ∀ name, (committee.histories name).Idle

def Waits (committee : Committee) (height : UInt32) (waiting : HistoryName → Changes) : Prop :=
  ∀ name, (committee.histories name).Pending height (waiting name) ∧
    (waiting name = [] → (committee.histories name).Idle)

theorem ready_initial : Ready initial := fun _ => ⟨rfl, rfl, rfl⟩

theorem Ready.waits {committee : Committee} (ready : committee.Ready) (height : UInt32) :
    committee.Waits height fun _ => [] :=
  fun name => ⟨(ready name).pending height, fun _ => ready name⟩

theorem Waits.ready {committee : Committee} {height : UInt32}
    (waits : committee.Waits height fun _ => []) : committee.Ready :=
  fun name => (waits name).2 rfl

variable {committee next : Committee} {height : UInt32} {waiting : HistoryName → Changes}
  {name : HistoryName} {changes : Changes}

section
variable (waits : committee.Waits height waiting)
include waits

theorem Waits.withFrame (frame : Frame) : ({ committee with frame } : Committee).Waits height waiting := waits

private theorem waits_appendChange {change : Change Frame}
    (appended : appendChange name height committee change = .ok next) :
    next.Waits height (update waiting name (waiting name ++ [change])) ∧ next.frame = committee.frame := by
  simp only [appendChange, bind_eq_ok, Except.ok.injEq] at appended
  obtain ⟨⟨history, frame⟩, appended, rfl⟩ := appended
  obtain ⟨pending, rfl⟩ := (waits name).1.append appended
  refine ⟨fun other => ?_, rfl⟩
  by_cases same : other = name
  · subst same
    simp only [update_self]
    exact ⟨pending, by simp⟩
  · simp only [update_of_ne same]
    exact waits other

theorem Waits.append (appended : committee.append name height changes = .ok next) :
    next.Waits height (update waiting name (waiting name ++ changes)) ∧ next.frame = committee.frame := by
  induction changes generalizing committee waiting with
  | nil =>
    simp only [Committee.append, List.foldlM_nil, pure, Except.pure, Except.ok.injEq] at appended
    subst appended
    simpa using waits
  | cons change rest ih =>
    simp only [Committee.append, List.foldlM_cons, bind_eq_ok] at appended
    obtain ⟨middle, first, appended⟩ := appended
    obtain ⟨middleWaits, middleFrame⟩ := waits_appendChange waits first
    obtain ⟨nextWaits, nextFrame⟩ := ih middleWaits appended
    refine ⟨?_, nextFrame.trans middleFrame⟩
    simpa using nextWaits

end

theorem Waits.commit (nonzero : height ≠ 0) (waits : committee.Waits height waiting)
    (committed : committee.commit name height = .ok next) : next.Waits height (update waiting name []) ∧
      next.frame = executeAll (waiting name) committee.frame := by
  simp only [Committee.commit, bind_eq_ok, Except.ok.injEq] at committed
  obtain ⟨⟨history, frame⟩, committed, rfl⟩ := committed
  obtain ⟨rfl, idle⟩ := (waits name).1.commit committed
  refine ⟨fun other => ?_, rfl⟩
  by_cases same : other = name
  · subst same
    simp only [update_self]
    exact ⟨(idle nonzero).pending height, fun _ => idle nonzero⟩
  · simp only [update_of_ne same]
    exact waits other

theorem Waits.record (nonzero : height ≠ 0) (waits : committee.Waits height waiting)
    (recorded : committee.record name height changes = .ok next) : next.Waits height (update waiting name []) ∧
      next.frame = executeAll (waiting name ++ changes) committee.frame := by
  simp only [Committee.record, bind_eq_ok] at recorded
  obtain ⟨middle, appended, committed⟩ := recorded
  obtain ⟨middleWaits, middleFrame⟩ := waits.append appended
  obtain ⟨nextWaits, nextFrame⟩ := middleWaits.commit nonzero committed
  rw [middleFrame, update_self] at nextFrame
  exact ⟨by simpa using nextWaits, nextFrame⟩

section Rollback

def rollbackHistory (height : UInt32) (committee : Committee) (name : HistoryName) : Committee :=
  let (history, frame) := (committee.histories name).rollbackTo height committee.frame
  { frame, histories := update committee.histories name history }

/-- The errors, which the source only logs, are nil. -/
def rollbackRound (height : UInt32) (committee : Committee) : Committee :=
  [.appropriation, .last, .manager, .state, .first].foldl (rollbackHistory height) committee

/-- The loop of `RollbackTo`, or nothing when it runs for more than the given number of rounds. -/
def rollbackLoop (target : UInt32) : Nat → UInt32 → Committee → Option Committee
  | 0, _, _ => none
  | rounds + 1, height, committee =>
    if target ≤ height then rollbackLoop target rounds (height - 1) (committee.rollbackRound height)
    else some committee

def rollbackTo (rounds : Nat) (target : UInt32) (committee : Committee) : Option Committee :=
  rollbackLoop target rounds ((committee.histories .last).height - 1) committee

variable {committee final : Committee} {target height : UInt32} {rounds : Nat} {name : HistoryName}

theorem rollbackRound_height : ((committee.rollbackRound height).histories name).height =
    if (committee.histories name).height ≤ height then (committee.histories name).height else height := by
  have one : ∀ (history : History Frame) frame, (history.rollbackTo height frame).1.height =
      if history.height ≤ height then history.height else height := by
    intro history frame
    rw [History.rollbackTo]
    split <;> rfl
  cases name <;> simp [rollbackRound, rollbackHistory, one]

theorem rollbackRound_unchanged (below : ∀ name, (committee.histories name).height ≤ height) :
    committee.rollbackRound height = committee := by
  have one : ∀ name, rollbackHistory height committee name = committee := by
    simp [rollbackHistory, History.rollbackTo, below]
  simp [rollbackRound, one]

section Loop
variable (ended : rollbackLoop target rounds height committee = some final)
include ended

theorem rollbackLoop_height : (final.histories name).height =
    if target ≤ height ∧ target ≤ (committee.histories name).height then target
    else (committee.histories name).height := by
  induction rounds generalizing height committee with
  | zero => cases ended
  | succ rounds ih =>
    rw [rollbackLoop] at ended
    split at ended
    · rw [ih ended, rollbackRound_height]
      grind
    · rw [← Option.some.inj ended, if_neg fun reached => ‹¬ _› reached.1]

theorem rollbackLoop_unchanged (below : ∀ name, (committee.histories name).height ≤ target) :
    final = committee := by
  induction rounds generalizing height with
  | zero => cases ended
  | succ rounds ih =>
    rw [rollbackLoop] at ended
    split at ended
    · rw [rollbackRound_unchanged fun name => UInt32.le_trans (below name) ‹_›] at ended
      exact ih ended
    · exact (Option.some.inj ended).symm

end Loop

/-- No unsigned height is below zero, where the countdown starts again from the top. -/
theorem rollbackLoop_zero : rollbackLoop 0 rounds height committee = none := by
  induction rounds generalizing height committee with
  | zero => rfl
  | succ rounds ih => rw [rollbackLoop, if_pos (UInt32.zero_le), ih]

theorem rollbackLoop_returns (nonzero : target ≠ 0) :
    ∃ rounds final, rollbackLoop target rounds height committee = some final := by
  induction left : height.toNat generalizing height committee with
  | zero =>
    refine ⟨1, committee, if_neg fun reached => nonzero (UInt32.toNat_inj.1 ?_)⟩
    exact Nat.le_zero.1 (left ▸ UInt32.le_iff_toNat_le.1 reached)
  | succ left ih =>
    by_cases above : target ≤ height
    · obtain ⟨rounds, final, ended⟩ := @ih (committee.rollbackRound height) (height - 1) (by
        rw [UInt32.toNat_sub_of_le _ _ (UInt32.le_iff_toNat_le.2 (by simp [left])), left]
        rfl)
      exact ⟨rounds + 1, final, (if_pos above).trans ended⟩
    · exact ⟨1, committee, if_neg above⟩

/-- The target is not the height zero, and no other history is on the wrong side of it. -/
theorem rollbackTo_settles (committee : Committee) (target : UInt32) :
    (∃ rounds final, rollbackTo rounds target committee = some final ∧
      if (committee.histories .last).height ≤ target then final = committee
      else ∀ name, (final.histories name).height = target) ↔
    target ≠ 0 ∧ if (committee.histories .last).height ≤ target then
        (committee.histories .last).height = 0 → ∀ name, (committee.histories name).height ≤ target
      else ∀ name, target ≤ (committee.histories name).height := by
  constructor
  · rintro ⟨rounds, final, ended, settled⟩
    have nonzero : target ≠ 0 := by
      rintro rfl
      cases ended.symm.trans rollbackLoop_zero
    refine ⟨nonzero, ?_⟩
    have heights := fun name => @rollbackLoop_height _ _ _ _ _ name ended
    split at settled
    · rw [if_pos ‹_›]
      intro unset name
      have same := heights name
      grind
    · rw [if_neg ‹_›]
      grind
  · rintro ⟨nonzero, fit⟩
    obtain ⟨rounds, final, ended⟩ := rollbackLoop_returns nonzero
    refine ⟨rounds, final, ended, ?_⟩
    change rollbackTo rounds target committee = some final at ended
    split at fit
    · rw [if_pos ‹_›]
      by_cases unset : (committee.histories .last).height = 0
      · exact rollbackLoop_unchanged ended (fit unset)
      · cases rounds with
        | zero => cases ended
        | succ rounds =>
          rw [rollbackTo, rollbackLoop, if_neg (by grind)] at ended
          exact (Option.some.inj ended).symm
    · rw [if_neg ‹_›]
      intro name
      rw [rollbackLoop_height ended]
      grind

theorem rollbackTo_endless : ¬ ∃ rounds final, rollbackTo rounds 0 initial = some final :=
  fun ⟨_, _, ended⟩ => nomatch rollbackLoop_zero.symm.trans ended

end Rollback
end Elastos.Cr.Committee
