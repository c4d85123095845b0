import Elastos.Cr.State

/-! The proposals of the committee, after `cr/state/proposalmanager.go`, and how one transaction of a
block changes it, after `cr/state/committeeaction.go`. -/
set_option autoImplicit false
namespace Elastos.Cr
open Go Common Config Crypto Elastos.Types Utils

def mapBudgetsStatus (change : BudgetStatus → BudgetStatus)
    (statuses : GoMap UInt8 BudgetStatus) : GoMap UInt8 BudgetStatus :=
  GoMap.ofPairs ((GoMap.pairs statuses).map fun entry => (entry.1, change entry.2))

/-- What is left unfinished when a proposal ends is closed. -/
def BudgetStatus.closeOpen : BudgetStatus → BudgetStatus
  | .unfinished | .rejected => .closed
  | status => status

def BudgetStatus.withdraw : BudgetStatus → BudgetStatus
  | .withdrawable => .withdrawn
  | status => status

def CRCProposal.firstOf (proposal : CRCProposal) (budgetType : UInt8) : Option Budget :=
  proposal.budgets.find? fun budget => budget.budgetType = budgetType

namespace ProposalState

def close (status : ProposalStatus) (proposal : ProposalState) : ProposalState :=
  { proposal with
    status
    budgetsStatus := mapBudgetsStatus (fun _ => .closed) proposal.budgetsStatus }

def release (proposal : ProposalState) : Option Budget → ProposalState
  | none => proposal
  | some budget =>
    { proposal with
      withdrawableBudgets :=
        proposal.withdrawableBudgets.insert budget.stage budget.amount }

def retract (proposal : ProposalState) : Option Budget → ProposalState
  | none => proposal
  | some budget =>
    { proposal with
      withdrawableBudgets := proposal.withdrawableBudgets.erase budget.stage }

end ProposalState

def abortProposal (hash : Uint256) (proposal : ProposalState) : Change Frame where
  execute frame := frame.updateProposal hash (ProposalState.close .aborted)
  rollback frame := frame.updateProposal hash fun current =>
    { current with
      status := proposal.status
      budgetsStatus := proposal.budgetsStatus }

def agreedCount (proposal : ProposalState) : Nat :=
  ((GoMap.values proposal.crVotes).filter fun result => result = .approve).length

variable (params : Params)

/-- The count is an `uint32`. -/
def isAgreed (proposal : ProposalState) : Bool :=
  params.crAgreementCount ≤ UInt32.ofNat (agreedCount proposal)

def transferRegisteredState (hash : Uint256)
    (proposal : ProposalState) (height : UInt32) : ProposalStatus × Change Frame :=
  if isAgreed params proposal then
    (.crAgreed, {
      execute frame := frame.updateProposal hash fun current =>
        { current with status := .crAgreed, voteStartHeight := height }
      rollback frame := frame.updateProposal hash fun current =>
        { current with
          status := .registered
          voteStartHeight := proposal.voteStartHeight } })
  else
    (.crCanceled, {
      execute frame := frame.updateProposal hash (ProposalState.close .crCanceled)
      rollback frame := frame.updateProposal hash fun current =>
        { current with
          status := .registered
          budgetsStatus := proposal.budgetsStatus } })

/-- A share of the circulating amount, computed in `float64`. -/
def rejectThreshold (circulation : Fixed64) : Fixed64 :=
  Int64.ofInt (Float64.truncate (Float64.div
    (Float64.mul (Float64.ofInt circulation.toInt) params.voterRejectPercentage) 100))

def transferCRAgreedState (hash : Uint256)
    (proposal : ProposalState) (circulation : Fixed64) : ProposalStatus × Change Frame :=
  if rejectThreshold params circulation ≤ proposal.votersRejectAmount then
    (.voterCanceled, {
      execute frame :=
        frame.updateProposal hash (ProposalState.close .voterCanceled)
      rollback frame := frame.updateProposal hash fun current =>
        { current with
          status := .crAgreed
          budgetsStatus := proposal.budgetsStatus } })
  else
    (.voterAgreed, {
      execute frame := frame.updateProposal hash fun current =>
        ({ current with status := .voterAgreed }).release
          (CRCProposal.firstOf current.proposal imprest)
      rollback frame := frame.updateProposal hash fun current =>
        ({ current with status := .crAgreed }).retract
          (CRCProposal.firstOf current.proposal imprest) })

def shouldEndCRCVote (registerHeight height : UInt32) : Bool :=
  registerHeight + params.proposalCRVotingPeriod ≤ height

def shouldEndPublicVote (voteStartHeight height : UInt32) : Bool :=
  voteStartHeight + params.proposalPublicVotingPeriod ≤ height

/-- One round of the loop over the proposals: the change it appends and the
amount it frees. -/
def updateProposal (height : UInt32) (circulation : Fixed64)
    (inElectionPeriod : Bool) (entry : Uint256 × ProposalState) : Changes × Fixed64 :=
  let total := getProposalTotalBudgetAmount entry.2.proposal
  match entry.2.status with
  | .registered =>
    if !inElectionPeriod then ([abortProposal entry.1 entry.2], total)
    else if shouldEndCRCVote params entry.2.registerHeight height then
      let (status, change) := transferRegisteredState params entry.1 entry.2 height
      ([change], if status = .crCanceled then total else 0)
    else ([], 0)
  | .crAgreed =>
    if !inElectionPeriod then ([abortProposal entry.1 entry.2], total)
    else if shouldEndPublicVote params entry.2.voteStartHeight height then
      let (status, change) := transferCRAgreedState params entry.1 entry.2 circulation
      ([change], if status = .voterCanceled then total else 0)
    else ([], 0)
  | _ => ([], 0)

variable (funcs : CommitteeFuncs) (frame : Frame)

def updateProposals (height : UInt32)
    (inElectionPeriod : Bool) : Changes × Fixed64 :=
  let rounds := (funcs.runtime.iterate (GoMap.pairs frame.proposals)).map
    (updateProposal funcs.params height frame.circulationAmount inElectionPeriod)
  (rounds.flatMap Prod.fst, wrappedSum (rounds.map Prod.snd))

variable (did : Uint168) (hash : Uint256) (frame : Frame)

def addProposal : Frame :=
  let hashes := (frame.proposalHashes.lookup did).getD ∅
  { frame with proposalHashes := frame.proposalHashes.insert did (hashes.insert hash ()) }

/-- Removing from a set of one drops the set without looking at its element. -/
def delProposal : Frame :=
  match frame.proposalHashes.lookup did with
  | none => frame
  | some hashes =>
    if hashes.entries.length = 1 then
      { frame with proposalHashes := frame.proposalHashes.erase did }
    else
      { frame with
        proposalHashes := frame.proposalHashes.insert did (hashes.erase hash) }

def newProposalState (prim : Primitives) (tx : Transaction) (proposal : CRCProposal)
    (height : UInt32) : ProposalState where
  status := .registered
  proposal := proposal
  txHash := tx.hash prim
  crVotes := ∅
  votersRejectAmount := 0
  registerHeight := height
  voteStartHeight := 0
  withdrawnBudgets := ∅
  withdrawableBudgets := ∅
  budgetsStatus := GoMap.ofPairs (proposal.budgets.map fun budget =>
    (budget.stage, if budget.budgetType = imprest then .withdrawable else .unfinished))
  finalPaymentStatus := false
  trackingCount := 0
  terminatedHeight := 0
  proposalOwner := proposal.ownerPublicKey

def registerProposal (tx : Transaction)
    (height : UInt32) (currentSession : UInt64) : Outcome String Changes :=
  match tx.payload with
  | .crcProposal proposal =>
    if frame.isProposalFull funcs.params proposal.crCouncilMemberDID then .ok []
    else
      let hash := proposal.hash funcs.prim
      let session (frame : Frame) : List Uint256 :=
        (frame.proposalSession.lookup currentSession).getD []
      .ok [{
        execute frame :=
          let added := addProposal proposal.crCouncilMemberDID hash frame
          { added with
            proposals := added.proposals.insert hash
              (newProposalState funcs.prim tx proposal height)
            proposalSession :=
              added.proposalSession.insert currentSession (session added ++ [hash]) }
        rollback frame :=
          let removed := delProposal proposal.crCouncilMemberDID hash frame
          { removed with
            proposals := removed.proposals.erase hash
            proposalSession :=
              if (session removed).length = 1 then
                removed.proposalSession.erase currentSession
              else removed.proposalSession.insert currentSession
                (session removed).dropLast } }]
  | _ => wrongPayload

variable (frame : Frame) (tx : Transaction)

def proposalReview : Outcome String Changes :=
  match tx.payload with
  | .crcProposalReview review =>
    match frame.getProposal review.proposalHash with
    | none => .ok []
    | some proposal =>
      let oldVoteResult := proposal.crVotes.lookup review.did
      .ok [{
        execute frame := frame.updateProposal review.proposalHash fun current =>
          { current with crVotes := current.crVotes.insert review.did review.voteResult }
        rollback frame := frame.updateProposal review.proposalHash fun current =>
          { current with
            crVotes := match oldVoteResult with
              | some result => current.crVotes.insert review.did result
              | none => current.crVotes.erase review.did } }]
  | _ => wrongPayload

variable (entries : List (UInt8 × Fixed64)) (map : GoMap UInt8 Fixed64)

def insertEach : GoMap UInt8 Fixed64 :=
  entries.foldl (fun current entry => current.insert entry.1 entry.2) map

def eraseEach : GoMap UInt8 Fixed64 :=
  entries.foldl (fun current entry => current.erase entry.1) map

/-- The budgets to withdraw are read before the block commits. -/
def proposalWithdraw : Outcome String Changes :=
  match tx.payload with
  | .crcProposalWithdraw payload =>
    match frame.getProposal payload.proposalHash with
    | none => .ok []
    | some proposal => .ok [{
        execute frame := frame.updateProposal payload.proposalHash fun current =>
          { current with
            withdrawnBudgets := insertEach proposal.withdrawing current.withdrawnBudgets
            budgetsStatus := mapBudgetsStatus BudgetStatus.withdraw current.budgetsStatus }
        rollback frame := frame.updateProposal payload.proposalHash fun current =>
          { current with
            withdrawnBudgets := eraseEach proposal.withdrawing current.withdrawnBudgets
            budgetsStatus := proposal.budgetsStatus } }]
  | _ => wrongPayload

/-- The budgets of stages that cannot be withdrawn yet. -/
def ProposalState.unreleased (proposal : ProposalState) : List Budget :=
  proposal.proposal.budgets.filter fun budget =>
    (proposal.withdrawableBudgets.lookup budget.stage).isNone

def unusedBudget (proposal : ProposalState) : CRCProposalTrackingType → Fixed64
  | .terminated => wrappedSum (proposal.unreleased.map (·.amount))
  | .finalized => wrappedSum ((proposal.unreleased.filter fun budget =>
    budget.budgetType ≠ finalPayment).map (·.amount))
  | _ => 0

variable (stage : UInt8) (proposal : ProposalState)

def trackProgress : ProposalState :=
  let released :=
    match proposal.proposal.budgets.find? fun budget => budget.stage = stage with
    | none => proposal.withdrawableBudgets
    | some budget => proposal.withdrawableBudgets.insert stage budget.amount
  { proposal with
    budgetsStatus := proposal.budgetsStatus.insert stage .withdrawable
    withdrawableBudgets := released
    finalPaymentStatus :=
      if (proposal.withdrawnBudgets.entries.length : Int) =
          (proposal.proposal.budgets.length : Int) - 1 then true
      else proposal.finalPaymentStatus }

def trackTermination (height : UInt32) (proposal : ProposalState) : ProposalState :=
  { proposal with
    terminatedHeight := height
    status := .terminated
    budgetsStatus := mapBudgetsStatus BudgetStatus.closeOpen proposal.budgetsStatus }

def trackFinalization : ProposalState :=
  let released := ({ proposal with status := .finished }).release
    (CRCProposal.firstOf proposal.proposal finalPayment)
  { released with
    budgetsStatus := mapBudgetsStatus BudgetStatus.closeOpen
      (released.budgetsStatus.insert stage .withdrawable) }

def track (tracking : CRCProposalTracking) (height : UInt32) (proposal : ProposalState) : ProposalState :=
  let counted := { proposal with trackingCount := proposal.trackingCount + 1 }
  match tracking.proposalTrackingType with
  | .progress => trackProgress tracking.stage counted
  | .rejected =>
    { counted with budgetsStatus := counted.budgetsStatus.insert tracking.stage .rejected }
  | .changeOwner => { counted with proposalOwner := tracking.newOwnerPublicKey }
  | .terminated => trackTermination height counted
  | .finalized => trackFinalization tracking.stage counted
  | .common | .unknown _ => counted

def untrack (tracking : CRCProposalTracking) (before proposal : ProposalState) : ProposalState :=
  let counted := { proposal with trackingCount := proposal.trackingCount - 1 }
  match tracking.proposalTrackingType with
  | .progress =>
    { counted with
      withdrawableBudgets := counted.withdrawableBudgets.erase tracking.stage
      budgetsStatus := before.budgetsStatus
      finalPaymentStatus := false }
  | .rejected => { counted with budgetsStatus := before.budgetsStatus }
  | .changeOwner => { counted with proposalOwner := before.proposalOwner }
  | .terminated =>
    { counted with
      budgetsStatus := before.budgetsStatus
      terminatedHeight := before.terminatedHeight
      status := before.status }
  | .finalized =>
    ({ counted with
      budgetsStatus := before.budgetsStatus
      status := before.status }).retract
      (CRCProposal.firstOf counted.proposal finalPayment)
  | .common | .unknown _ => counted

/-- The amount given back and the change appended. -/
def proposalTracking (height : UInt32) : Outcome String (Fixed64 × Changes) :=
  match tx.payload with
  | .crcProposalTracking tracking =>
    match frame.getProposal tracking.proposalHash with
    | none => .ok (0, [])
    | some proposal =>
      .ok (unusedBudget proposal tracking.proposalTrackingType, [{
        execute frame :=
          frame.updateProposal tracking.proposalHash (track tracking height)
        rollback frame :=
          frame.updateProposal tracking.proposalHash (untrack tracking proposal) }])
  | _ => wrongPayload

variable (amount : Fixed64)

/-- Adding to an amount of the key frame; the rollback subtracts. -/
def addUsedAmount : Change Frame where
  execute frame :=
    { frame with crcCommitteeUsedAmount := frame.crcCommitteeUsedAmount + amount }
  rollback frame :=
    { frame with crcCommitteeUsedAmount := frame.crcCommitteeUsedAmount - amount }

def subUsedAmount : Change Frame where
  execute := (addUsedAmount amount).rollback
  rollback := (addUsedAmount amount).execute

variable (frame : Frame)

def addFoundationBalance : Frame :=
  { frame with crcFoundationBalance := frame.crcFoundationBalance + amount }

def addCommitteeBalance : Frame :=
  { frame with crcCommitteeBalance := frame.crcCommitteeBalance + amount }

def addDestroyedAmount : Frame :=
  { frame with destroyedAmount := frame.destroyedAmount + amount }

variable (runtime : Runtime) (frame : Frame)

/-- The first elected member, in the order of the map, with these bytes as CID. -/
def impeachedMember (member : Bytes) : Option Nat :=
  ((runtime.iterate frame.currentMembers).find? fun entry =>
    entry.2.info.cid.bytes = member ∧ entry.2.memberState = .elected).map Prod.fst

def creditImpeachment (position : Nat) (votes : Fixed64) (frame : Frame) : Frame :=
  frame.updateMember position fun member =>
    { member with impeachmentVotes := member.impeachmentVotes + votes }

def processImpeachment (votes : CandidateVotes) : Changes :=
  (impeachedMember runtime frame votes.candidate).toList.map fun position =>
    { execute := creditImpeachment position votes.votes
      rollback := creditImpeachment position (-votes.votes) }

def processCandidateVotes (voteType : VoteType)
    (votes : CandidateVotes) : Changes :=
  match voteType with
  | .crc => processVoteCRC frame votes
  | .crcProposal => processVoteCRCProposal frame votes
  | .crcImpeachment => processImpeachment runtime frame votes
  | .delegate | .unknown _ => []

def processContents (vote : VoteOutput) : Changes :=
  vote.contents.flatMap fun content =>
    content.candidateVotes.flatMap (processCandidateVotes runtime frame content.voteType)

def processVoteOutput (output : Output) : Outcome String Changes :=
  match output.payload with
  | .vote vote => .ok (processContents runtime frame vote)
  | _ => wrongPayload

def hasCRContent (vote : VoteOutput) : Bool :=
  vote.contents.any fun content =>
    content.voteType = .crc ∨ content.voteType = .crcProposal ∨ content.voteType = .crcImpeachment

def processVotesOf (entry : OutPoint × Output) : Outcome String Changes :=
  if entry.2.outputType ≠ .vote then .ok []
  else
    match entry.2.payload with
    | .vote vote =>
      if vote.version < voteProducerAndCRVersion ∨ ¬ hasCRContent vote then .ok []
      else
        .ok ({
          execute frame := { frame with votes := frame.votes.insert entry.1 () }
          rollback frame := { frame with votes := frame.votes.erase entry.1 } } ::
          processContents runtime frame vote)
    | _ => nilDereference

variable (funcs : CommitteeFuncs) (frame : Frame) (tx : Transaction)

def processVotes : Outcome String Changes :=
  if tx.version < txVersion09 then .ok []
  else do
    let changes ← (outputPoints funcs.prim tx).mapM (processVotesOf funcs.runtime frame)
    .ok changes.flatten

/-- A cancelled vote is a credit undone. -/
def swapped (changes : Changes) : Changes :=
  changes.map fun change => { execute := change.rollback, rollback := change.execute }

def processVoteCancel (output : Output) : Outcome String Changes :=
  match output.payload with
  | .vote vote => .ok (swapped (processContents runtime frame vote))
  | _ => wrongPayload

/-- An input without a reference reads a zero output, whose payload is nil. -/
def cancelInput (references : List (Input × Output))
    (input : Input) : Outcome String Changes :=
  if (frame.votes.lookup input.previous).isSome then
    match references.find? fun entry => entry.1 = input with
    | some entry => processVoteCancel runtime frame entry.2
    | none => wrongPayload
  else .ok []

def processCancelVotes : Outcome String Changes :=
  if tx.inputs.any fun input => (frame.votes.lookup input.previous).isSome then
    match funcs.getTxReference tx with
    | .error (.error _) => .ok []
    | .error (.panic reason) => .crash reason
    | .ok references => do
      let changes ← tx.inputs.mapM (cancelInput funcs.runtime frame references)
      .ok changes.flatten
  else .ok []

def committeeTracking (tx : Transaction) (height : UInt32) : Outcome String Changes := do
  let (unused, changes) ← proposalTracking frame tx height
  .ok (changes ++ [subUsedAmount unused])

def processCRCAppropriation : Change Frame where
  execute frame := { frame with needAppropriation := false }
  rollback frame := { frame with needAppropriation := true }

def spendRelated (input : Input) : Changes :=
  match frame.crcFoundationOutputs.lookup input.previous with
  | some amount => [{
      execute := addFoundationBalance (-amount)
      rollback := addFoundationBalance amount }]
  | none =>
    match frame.crcCommitteeOutputs.lookup input.previous with
    | some amount => [{
        execute := addCommitteeBalance (-amount)
        rollback := addCommitteeBalance amount }]
    | none => []

variable (params : Params)

/-- A coinbase output to the foundation stays locked until it has matured. -/
def lockAmount (amount : Fixed64) (frame : Frame) : Frame :=
  let amounts := frame.crcFoundationLockedAmounts ++ [amount]
  { frame with
    crcFoundationLockedAmounts :=
      if params.coinbaseMaturity.toNat < amounts.length then amounts.tail else amounts }

def receiveRelated (frame : Frame) (isCoinBaseTx : Bool) (output : Output) : Changes :=
  let amount := output.value
  if output.programHash = params.crcFoundation then [{
    execute current :=
      let paid := addFoundationBalance amount current
      if isCoinBaseTx then lockAmount params amount paid else paid
    rollback current :=
      { addFoundationBalance (-amount) current with
        crcFoundationLockedAmounts := frame.crcFoundationLockedAmounts } }]
  else if output.programHash = params.crcCommitteeAddress then [{
    execute := addCommitteeBalance amount
    rollback := addCommitteeBalance (-amount) }]
  else if output.programHash = params.destroyELAAddress then [{
    execute := addDestroyedAmount amount
    rollback := addDestroyedAmount (-amount) }]
  else []

/-- The budget of a proposal counts as used from its registration on. -/
def useBudget (tx : Transaction) : Outcome String Changes :=
  if tx.txType = .crcProposal then
    match tx.payload with
    | .crcProposal proposal =>
      .ok [addUsedAmount (getProposalTotalBudgetAmount proposal)]
    | _ => wrongPayload
  else .ok []

def processCRCAddressRelatedTx (frame : Frame) (tx : Transaction) : Outcome String Changes := do
  let used ← useBudget tx
  .ok (used ++ tx.inputs.flatMap (spendRelated frame) ++
    tx.outputs.flatMap (receiveRelated params frame tx.isCoinBaseTx))

def unchanged (changes : Outcome String Changes) : Outcome String (Frame × Changes) := do
  let changes ← changes
  .ok (frame, changes)

def processByType (height : UInt32) : Outcome String (Frame × Changes) :=
  match tx.txType with
  | .registerCR => registerCR funcs frame tx height
  | .updateCR => unchanged frame (updateCR frame tx)
  | .unregisterCR => unchanged frame (unregisterCR frame tx height)
  | .transferAsset => do
    let votes ← processVotes funcs frame tx
    let (frame, deposits) := processDeposit funcs frame tx
    .ok (frame, votes ++ deposits)
  | .returnCRDepositCoin => do
    let returned ← returnDeposit funcs frame tx height
    let (frame, deposits) := processDeposit funcs frame tx
    .ok (frame, returned ++ deposits)
  | .crcProposal =>
    unchanged frame (registerProposal funcs frame tx height frame.currentSession)
  | .crcProposalReview => unchanged frame (proposalReview frame tx)
  | .crcProposalTracking => unchanged frame (committeeTracking frame tx height)
  | .crcProposalWithdraw => unchanged frame (proposalWithdraw frame tx)
  | .crcAppropriation => .ok (frame, [processCRCAppropriation])
  | _ => .ok (frame, [])

def processTransaction (height : UInt32) : Outcome String (Frame × Changes) := do
  let cancelled ← processCancelVotes funcs frame tx
  let (frame, changes) ← processByType funcs frame tx height
  let related ← processCRCAddressRelatedTx funcs.params frame tx
  .ok (frame, cancelled ++ changes ++ related)

end Elastos.Cr
