import Elastos.Config.Params
import Elastos.Go.Runtime
import Elastos.Types.Transaction
import Elastos.Utils.History

/-! The data of the CR committee in `cr/state`, and its candidates, after `cr/state/state.go`. Pointers
to candidates and members are positions in lists of cells here. A method that appends to a history
returns the changes it appends, beside the new frame where it also writes at once. -/
set_option autoImplicit false
namespace Elastos.Cr
open Go Common Config Crypto Elastos.Core Elastos.Types Utils

inductive CandidateState where
  | pending
  | active
  | canceled
  | returned
  deriving DecidableEq

structure Candidate where
  info : CRInfo
  state : CandidateState
  votes : Fixed64
  registerHeight : UInt32
  cancelHeight : UInt32
  depositHash : Uint168
  deriving DecidableEq

inductive MemberState where
  | elected
  | impeached
  | terminated
  | returned
  deriving DecidableEq

structure CRMember where
  info : CRInfo
  impeachmentVotes : Fixed64
  depositHash : Uint168
  memberState : MemberState
  deriving DecidableEq

inductive BudgetStatus where
  | unfinished
  | withdrawable
  | withdrawn
  | rejected
  | closed
  deriving DecidableEq

inductive ProposalStatus where
  | registered
  | crAgreed
  | voterAgreed
  | finished
  | crCanceled
  | voterCanceled
  | terminated
  | aborted
  deriving DecidableEq

structure DepositInfo where
  refundable : Bool
  depositAmount : Fixed64
  penalty : Fixed64
  totalAmount : Fixed64
  deriving DecidableEq

structure ProposalState where
  status : ProposalStatus
  proposal : CRCProposal
  txHash : Uint256
  crVotes : GoMap Uint168 VoteResult
  votersRejectAmount : Fixed64
  registerHeight : UInt32
  voteStartHeight : UInt32
  withdrawnBudgets : GoMap UInt8 Fixed64
  withdrawableBudgets : GoMap UInt8 Fixed64
  budgetsStatus : GoMap UInt8 BudgetStatus
  finalPaymentStatus : Bool
  trackingCount : UInt8
  terminatedHeight : UInt32
  proposalOwner : Bytes

structure KeyFrame where
  members : GoMap Uint168 Nat
  historyMembers : GoMap UInt64 (GoMap Uint168 Nat)
  lastCommitteeHeight : UInt32
  lastVotingStartHeight : UInt32
  inElectionPeriod : Bool
  needAppropriation : Bool
  crcFoundationLockedAmounts : List Fixed64
  crcFoundationBalance : Fixed64
  crcCommitteeBalance : Fixed64
  crcCommitteeUsedAmount : Fixed64
  crcCurrentStageAmount : Fixed64
  destroyedAmount : Fixed64
  circulationAmount : Fixed64
  appropriationAmount : Fixed64

structure StateKeyFrame where
  codeCIDMap : GoMap Bytes Uint168
  depositHashCIDMap : GoMap Uint168 Uint168
  candidates : GoMap Uint168 Nat
  historyCandidates : GoMap UInt64 (GoMap Uint168 Nat)
  depositInfo : GoMap Uint168 DepositInfo
  currentSession : UInt64
  nicknames : GoMap Bytes Unit
  votes : GoMap OutPoint Unit
  depositOutputs : GoMap OutPoint Fixed64
  crcFoundationOutputs : GoMap OutPoint Fixed64
  crcCommitteeOutputs : GoMap OutPoint Fixed64

structure ProposalKeyFrame where
  proposals : GoMap Uint256 ProposalState
  proposalHashes : GoMap Uint168 (GoMap Uint256 Unit)
  proposalSession : GoMap UInt64 (List Uint256)

/-- The three key frames with the cells their pointers lead to. -/
structure Frame extends KeyFrame, StateKeyFrame, ProposalKeyFrame where
  candidateCells : List Candidate
  memberCells : List CRMember

/-- `NewKeyFrame`, `NewStateKeyFrame` and `NewProposalKeyFrame`. -/
def Frame.initial : Frame where
  members := ∅
  historyMembers := ∅
  lastCommitteeHeight := 0
  lastVotingStartHeight := 0
  inElectionPeriod := false
  needAppropriation := false
  crcFoundationLockedAmounts := []
  crcFoundationBalance := 0
  crcCommitteeBalance := 0
  crcCommitteeUsedAmount := 0
  crcCurrentStageAmount := 0
  destroyedAmount := 0
  circulationAmount := 0
  appropriationAmount := 0
  codeCIDMap := ∅
  depositHashCIDMap := ∅
  candidates := ∅
  historyCandidates := ∅
  depositInfo := ∅
  currentSession := 1
  nicknames := ∅
  votes := ∅
  depositOutputs := ∅
  crcFoundationOutputs := ∅
  crcCommitteeOutputs := ∅
  proposals := ∅
  proposalHashes := ∅
  proposalSession := ∅
  candidateCells := []
  memberCells := []

def minDepositAmount : Fixed64 := 500000000000
def activateDuration : UInt32 := 6
def maxHistoryCapacity : Int := 10

variable (prim : Primitives) (code : Bytes)

/-- The code with its last byte replaced by the one of an identity. Slicing an
empty code panics. -/
def getDIDByCode : Outcome String Uint168 :=
  if code.isEmpty then .crash "slice bounds out of range"
  else do
    let contract ← createCRIDContractByCode (code.dropLast ++ [0xAD])
    .ok (contract.toProgramHash prim)

def getCIDByCode : Outcome String Uint168 := do
  let contract ← createCRIDContractByCode code
  .ok (contract.toProgramHash prim)

namespace Frame
variable (frame : Frame)

def candidate? (position : Nat) : Option Candidate :=
  frame.candidateCells[position]?

def member? (position : Nat) : Option CRMember :=
  frame.memberCells[position]?

def candidatesOf (positions : GoMap Uint168 Nat) : List (Nat × Candidate) :=
  (GoMap.values positions).filterMap fun position =>
    (frame.candidate? position).map fun candidate => (position, candidate)

def membersOf (positions : GoMap Uint168 Nat) : List (Nat × CRMember) :=
  (GoMap.values positions).filterMap fun position =>
    (frame.member? position).map fun member => (position, member)

def currentMembers : List (Nat × CRMember) :=
  frame.membersOf frame.members

variable (cid : Uint168)

def getCandidate : Option Candidate :=
  (frame.candidates.lookup cid).bind frame.candidate?

def getCandidates (state : CandidateState) : List (Nat × Candidate) :=
  (frame.candidatesOf frame.candidates).filter fun entry => entry.2.state = state

def exist : Bool :=
  (frame.depositInfo.lookup cid).isSome

/-- Reading a deposit that is not there dereferences a nil pointer. -/
def depositInfoOf : Outcome String DepositInfo :=
  match frame.depositInfo.lookup cid with
  | some info => .ok info
  | none => .crash "invalid memory address or nil pointer dereference"

def getAvailableDepositAmount : Fixed64 :=
  match frame.depositInfo.lookup cid with
  | none => 0
  | some info => info.totalAmount - info.depositAmount - info.penalty

def existCandidate (code : Bytes) : Bool :=
  (frame.codeCIDMap.lookup code).isSome

def existCandidateByNickname (nickname : Bytes) : Bool :=
  (frame.nicknames.lookup nickname).isSome

def existCandidateByDepositHash (hash : Uint168) : Bool :=
  (frame.depositHashCIDMap.lookup hash).isSome

def isCRMemberByDID (did : Uint168) : Bool :=
  frame.currentMembers.any fun entry => entry.2.info.did = did

def existCR (prim : Primitives) (frame : Frame) (code : Bytes) : Outcome String Bool :=
  if frame.existCandidate code then .ok true
  else
    match getDIDByCode prim code with
    | .ok did => .ok (frame.isCRMemberByDID did)
    | .error (.error _) => .ok false
    | .error (.panic reason) => .crash reason

def getMember (did : Uint168) : Option CRMember :=
  (frame.currentMembers.find? fun entry => entry.2.info.did = did).map Prod.snd

def getImpeachableMembers : List CRMember :=
  if frame.inElectionPeriod then
    (frame.currentMembers.map Prod.snd).filter fun member =>
      member.memberState = .elected ∨ member.memberState = .impeached
  else []

variable (params : Params) (frame : Frame)

def isInVotingPeriod (height : UInt32) : Bool :=
  if frame.lastCommitteeHeight < params.crCommitteeStartHeight ∧ height ≤ params.crCommitteeStartHeight then
    params.crVotingStartHeight ≤ height ∧ height < params.crCommitteeStartHeight
  else if !frame.inElectionPeriod then
    if frame.lastVotingStartHeight = 0 then true
    else height < frame.lastVotingStartHeight + params.crVotingPeriod
  else
    let committeeUpdateHeight := frame.lastCommitteeHeight + params.crDutyPeriod
    committeeUpdateHeight - params.crVotingPeriod ≤ height ∧ height < committeeUpdateHeight

def isProposalAllowed (height : UInt32) : Bool :=
  frame.inElectionPeriod && !frame.isInVotingPeriod params height

def getProposal (hash : Uint256) : Option ProposalState :=
  frame.proposals.lookup hash

def existDraft (hash : Uint256) : Bool :=
  (GoMap.values frame.proposals).any fun proposal =>
    proposal.proposal.draftHash = hash

def getProposalCount (did : Uint168) : Nat :=
  match frame.proposalHashes.lookup did with
  | none => 0
  | some hashes => hashes.entries.length

def isProposalFull (did : Uint168) : Bool :=
  params.maxCommitteeProposalCount.toNat ≤ frame.getProposalCount did

end Frame

def ProposalState.withdrawing (proposal : ProposalState) : List (UInt8 × Fixed64) :=
  (GoMap.pairs proposal.withdrawableBudgets).filter fun entry =>
    (proposal.withdrawnBudgets.lookup entry.1).isNone

def Frame.availableWithdrawalAmount (frame : Frame) (hash : Uint256) : Fixed64 :=
  match frame.getProposal hash with
  | none => 0
  | some proposal => wrappedSum (proposal.withdrawing.map Prod.snd)

def getProposalTotalBudgetAmount (proposal : CRCProposal) : Fixed64 :=
  wrappedSum (proposal.budgets.map (·.amount))

/-- What the committee is built with and the functions registered with it. -/
structure CommitteeFuncs where
  prim : Primitives
  runtime : Runtime
  params : Params
  getTxReference : Transaction → Outcome String (List (Input × Output))
  getHeight : UInt32
  createCRCAppropriationTx : Outcome String (Option Transaction)

abbrev Changes := List (Change Frame)

def wrongPayload {α : Type} : Outcome String α :=
  .crash "interface conversion: wrong dynamic type"

def nilDereference {α : Type} : Outcome String α :=
  .crash "invalid memory address or nil pointer dereference"

namespace Frame
variable (frame : Frame)

def updateCandidate (position : Nat) (change : Candidate → Candidate) : Frame :=
  { frame with candidateCells := frame.candidateCells.modify position change }

def updateMember (position : Nat) (change : CRMember → CRMember) : Frame :=
  { frame with memberCells := frame.memberCells.modify position change }

def updateDeposit (cid : Uint168) (change : DepositInfo → DepositInfo) : Frame :=
  { frame with depositInfo := GoMap.modify frame.depositInfo cid change }

def updateProposal (hash : Uint256) (change : ProposalState → ProposalState) : Frame :=
  { frame with proposals := GoMap.modify frame.proposals hash change }

def allocateCandidate (cid : Uint168) (candidate : Candidate) : Frame :=
  { frame with
    candidates := frame.candidates.insert cid frame.candidateCells.length
    candidateCells := frame.candidateCells ++ [candidate] }

end Frame

def outputPoints (prim : Primitives) (tx : Transaction) : List (OutPoint × Output) :=
  tx.outputs.zipIdx.map fun (output, index) =>
    ({ txID := tx.hash prim, index := UInt16.ofNat index }, output)

def recordDeposits (outputs : List (OutPoint × Output)) (frame : Frame) : Frame :=
  { frame with
    depositOutputs := outputs.foldl (fun map entry => map.insert entry.1 entry.2.value)
      frame.depositOutputs }

variable (funcs : CommitteeFuncs) (frame : Frame)

/-- The deposit outputs are recorded at once, the rest when the block commits. -/
def registerCR (tx : Transaction)
    (height : UInt32) : Outcome String (Frame × Changes) :=
  match tx.payload with
  | .crInfo info =>
    let candidate : Candidate := {
      info
      registerHeight := height
      votes := 0
      state := .pending
      cancelHeight := 0
      depositHash := (createDepositContractByCode info.code).toProgramHash funcs.prim }
    let deposits := (outputPoints funcs.prim tx).filter fun entry =>
      entry.2.programHash = candidate.depositHash
    let amount := wrappedSum (deposits.map fun entry => entry.2.value)
    let firstTimeRegister := (frame.depositInfo.lookup info.cid).isNone
    let register (frame : Frame) : Frame :=
      if firstTimeRegister then
        { frame with
          depositInfo := frame.depositInfo.insert info.cid
            { refundable := false, depositAmount := 0, penalty := 0, totalAmount := 0 }
          codeCIDMap := frame.codeCIDMap.insert info.code info.cid
          depositHashCIDMap :=
            frame.depositHashCIDMap.insert candidate.depositHash info.cid }
      else frame
    let forget (frame : Frame) : Frame :=
      if firstTimeRegister then
        { frame with
          depositInfo := frame.depositInfo.erase info.cid
          codeCIDMap := frame.codeCIDMap.erase info.code
          depositHashCIDMap := frame.depositHashCIDMap.erase candidate.depositHash }
      else frame
    .ok (recordDeposits deposits frame, [{
      execute frame :=
        (({ register frame with
            nicknames := (register frame).nicknames.insert info.nickName () }
          ).allocateCandidate info.cid candidate).updateDeposit info.cid fun deposit =>
            { deposit with
              depositAmount := deposit.depositAmount + minDepositAmount
              totalAmount := deposit.totalAmount + amount }
      rollback frame :=
        forget (({ frame with
          candidates := frame.candidates.erase info.cid
          nicknames := frame.nicknames.erase info.nickName }).updateDeposit info.cid fun deposit =>
              { deposit with
                depositAmount := deposit.depositAmount - minDepositAmount
                totalAmount := deposit.totalAmount - amount }) }])
  | _ => wrongPayload

def updateCandidateInfo (origin update : CRInfo) (frame : Frame) : Frame :=
  let nicknames :=
    if origin.nickName = update.nickName then frame.nicknames
    else (frame.nicknames.erase origin.nickName).insert update.nickName ()
  match frame.candidates.lookup origin.cid with
  | none => { frame with nicknames }
  | some position =>
    ({ frame with nicknames }).updateCandidate position fun candidate =>
      { candidate with info := update }

variable (frame : Frame)

def updateCR (tx : Transaction) : Outcome String Changes :=
  match tx.payload with
  | .crInfo info =>
    match frame.getCandidate info.cid with
    | none => nilDereference
    | some candidate => .ok [{
        execute := updateCandidateInfo candidate.info info
        rollback := updateCandidateInfo info candidate.info }]
  | _ => wrongPayload

/-- The nickname is read when the change runs. -/
def unregisterCR (tx : Transaction) (height : UInt32) : Outcome String Changes :=
  match tx.payload with
  | .unregisterCR payload =>
    match frame.candidates.lookup payload.cid with
    | none => .ok []
    | some position =>
      let nickname (frame : Frame) : Bytes :=
        ((frame.candidate? position).map (·.info.nickName)).getD []
      let oriState := ((frame.candidate? position).map (·.state)).getD .pending
      .ok [{
        execute frame :=
          ({ frame with nicknames := frame.nicknames.erase (nickname frame) }
            ).updateCandidate position fun candidate =>
              { candidate with cancelHeight := height, state := .canceled }
        rollback frame :=
          ({ frame with nicknames := frame.nicknames.insert (nickname frame) () }
            ).updateCandidate position fun candidate =>
              { candidate with cancelHeight := 0, state := oriState } }]
  | _ => wrongPayload

def addCRCRelatedAssert (output : Output) : Option (Change Frame) :=
  (frame.depositHashCIDMap.lookup output.programHash).map fun cid => {
    execute frame := frame.updateDeposit cid fun deposit =>
      { deposit with totalAmount := deposit.totalAmount + output.value }
    rollback frame := frame.updateDeposit cid fun deposit =>
      { deposit with totalAmount := deposit.totalAmount - output.value } }

def depositsOf (prim : Primitives) (frame : Frame) (tx : Transaction) : List (OutPoint × Output) :=
  (outputPoints prim tx).filter fun entry =>
    entry.2.programHash.prefixByte = prefixDeposit ∧ (addCRCRelatedAssert frame entry.2).isSome

def processDeposit (tx : Transaction) : Frame × Changes :=
  let deposits := depositsOf funcs.prim frame tx
  (recordDeposits deposits frame, deposits.filterMap fun entry => addCRCRelatedAssert frame entry.2)

def returnCandidate (position : Nat) : Change Frame :=
  let originState := ((frame.candidate? position).map (·.state)).getD .pending
  { execute frame := frame.updateCandidate position fun candidate =>
      { candidate with state := .returned }
    rollback frame := frame.updateCandidate position fun candidate =>
      { candidate with state := originState } }

def returnMember (position : Nat) : Change Frame :=
  let originState := ((frame.member? position).map (·.memberState)).getD .elected
  { execute frame := frame.updateMember position fun member =>
      { member with memberState := .returned }
    rollback frame := frame.updateMember position fun member =>
      { member with memberState := originState } }

def getHistoryCandidate (cid : Uint168) : List (Nat × Candidate) :=
  (GoMap.values frame.historyCandidates).filterMap fun candidates => do
    let position ← candidates.lookup cid
    let candidate ← frame.candidate? position
    some (position, candidate)

def getHistoryMember (code : Bytes) : List (Nat × CRMember) :=
  ((GoMap.values frame.historyMembers).flatMap frame.membersOf).filter fun entry =>
    entry.2.info.code = code

/-- The candidate under a CID that was cancelled long enough ago. -/
def returnableCandidate (params : Params) (frame : Frame) (cid : Uint168) (height : UInt32) : List Nat :=
  match frame.candidates.lookup cid with
  | none => []
  | some position =>
    match frame.candidate? position with
    | none => []
    | some candidate =>
      if candidate.state = .canceled ∧ params.crDepositLockupBlocks < height - candidate.cancelHeight then
        [position]
      else []

def returnDepositOf (params : Params) (frame : Frame) (height : UInt32)
    (inputValue : Fixed64) (cid : Uint168) (code : Bytes) : Changes :=
  (returnableCandidate params frame cid height).map (returnCandidate frame) ++
    ((getHistoryCandidate frame cid).filter fun entry => entry.2.state ≠ .returned).map
      (fun entry => returnCandidate frame entry.1) ++
    (getHistoryMember frame code).map (fun entry => returnMember frame entry.1) ++
    [{ execute frame := frame.updateDeposit cid fun deposit =>
        { deposit with totalAmount := deposit.totalAmount - inputValue, refundable := false }
       rollback frame := frame.updateDeposit cid fun deposit =>
        { deposit with totalAmount := deposit.totalAmount + inputValue, refundable := true } }]

/-- The error for an empty code is dropped and its nil result dereferenced. -/
def returnDeposit (tx : Transaction)
    (height : UInt32) : Outcome String Changes := do
  let inputValue := wrappedSum (tx.inputs.map fun input =>
    (frame.depositOutputs.lookup input.previous).getD 0)
  let changes ← tx.programs.mapM fun program =>
    match getCIDByCode funcs.prim program.code with
    | .ok cid =>
      .ok (returnDepositOf funcs.params frame height inputValue cid program.code)
    | .error _ => nilDereference
  .ok changes.flatten

variable (votes : CandidateVotes)

def votedCandidate : Option Nat :=
  match Uint168.fromBytes votes.candidate with
  | .ok cid => frame.candidates.lookup cid
  | .error _ => none

/-- The proposal that a vote is against, while the public may vote. -/
def votedProposal : Option Uint256 :=
  match Uint256.fromBytes votes.candidate with
  | .ok hash =>
    match frame.getProposal hash with
    | none => none
    | some proposal => if proposal.status = .crAgreed then some hash else none
  | .error _ => none

def creditCandidate (position : Nat) (votes : Fixed64) (frame : Frame) : Frame :=
  frame.updateCandidate position fun candidate =>
    { candidate with votes := candidate.votes + votes }

def creditReject (hash : Uint256) (votes : Fixed64) (frame : Frame) : Frame :=
  frame.updateProposal hash fun proposal =>
    { proposal with votersRejectAmount := proposal.votersRejectAmount + votes }

def processVoteCRC : Changes :=
  (votedCandidate frame votes).toList.map fun position =>
    { execute := creditCandidate position votes.votes
      rollback := creditCandidate position (-votes.votes) }

def processVoteCRCProposal : Changes :=
  (votedProposal frame votes).toList.map fun hash =>
    { execute := creditReject hash votes.votes
      rollback := creditReject hash (-votes.votes) }

end Elastos.Cr
