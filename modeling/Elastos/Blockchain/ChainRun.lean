import Elastos.Blockchain.SmallChain
import Elastos.Blockchain.TxProperties
import Elastos.Cr.TreasuryProperties
import Elastos.Cr.TreasuryRefinement

/-! What an accepted block says of its proposals, chains of accepted blocks and the committee that
follows them, and a small chain on which a council is elected and pays for a proposal. -/
set_option autoImplicit false
namespace Elastos.Blockchain
open Go Common Crypto Elastos.Types Cr Outcome BlockChain List Config Elastos.Core Stand

section Budgets

theorem countBudget_loop {budgets : List Budget} {count result : BudgetCount}
    (counted : budgets.foldlM countBudget count = .ok result) : budgets.map (·.stage) =
        (List.range budgets.length).map (fun index => count.stage + UInt8.ofNat index) ∧
      (∀ budget ∈ budgets, 0 ≤ budget.amount.toInt) ∧
      result.amount = (budgets.map (·.amount)).foldl (· + ·) count.amount ∧ result.imprestPaymentCount =
        count.imprestPaymentCount + budgets.countP (·.budgetType = imprest) ∧ result.finalPaymentCount =
        count.finalPaymentCount + budgets.countP (·.budgetType = finalPayment) := by
  induction budgets generalizing count with
  | nil =>
    cases counted
    simp
  | cons budget rest ih =>
    rw [foldlM_cons, bind_eq_ok] at counted
    obtain ⟨next, first, counted⟩ := counted
    simp only [countBudget, bind_eq_ok, exists_unit, require_eq_ok, reject_eq_ok, Except.ok.injEq] at first
    obtain ⟨_, stage, nonneg, rfl⟩ := first
    obtain ⟨stages, amounts, total, imprests, finals⟩ := ih counted
    refine ⟨?_, ?_, total, ?_, ?_⟩
    · rw [map_cons, stages, length_cons, range_succ_eq_map, map_cons, map_map]
      refine congrArg₂ _ (by simp [stage]) (map_congr_left fun index _ => ?_)
      simp [Nat.succ_eq_add_one, UInt8.add_assoc, UInt8.add_comm 1]
    · intro other member
      rcases mem_cons.1 member with rfl | member
      · rw [Int64.lt_iff_toInt_lt] at nonneg
        simpa using nonneg
      · exact amounts other member
    · rw [imprests, countP_cons, Nat.add_assoc, Nat.add_comm (countP _ _)]
      simp only [decide_eq_true_eq]
    · rw [finals, countP_cons, Nat.add_assoc, Nat.add_comm (countP _ _)]
      simp only [decide_eq_true_eq]

theorem consecutive_nodup (start : UInt8) {length : Nat} (bounded : length ≤ 256) :
    ((List.range length).map fun index => start + UInt8.ofNat index).Nodup := by
  refine List.Nodup.map_on (fun left leftMember right rightMember same => ?_) nodup_range
  have leftBound := mem_range.1 leftMember
  have rightBound := mem_range.1 rightMember
  have equal := congrArg UInt8.toNat ((UInt8.add_right_inj start).1 same)
  simp only [UInt8.toNat_ofNat'] at equal
  omega

theorem checkBudgets_sound {budgets sorted : List Budget} {amount : Fixed64}
    (perm : sorted.Perm budgets) (short : budgets.length ≤ maxBudgetsCount)
    (checked : checkBudgets sorted = .ok amount) : SoundBudgets budgets := by
  unfold checkBudgets at checked
  split at checked
  · simp only [bind_eq_ok, exists_unit, Except.ok.injEq] at checked
    obtain ⟨_, _, _, count, counted, _⟩ := checked
    obtain ⟨stages, amounts, _⟩ := countBudget_loop counted
    constructor
    · rw [← (perm.map (·.stage)).nodup_iff, stages]
      refine consecutive_nodup _ ?_
      rw [perm.length_eq]
      exact short.trans (by decide)
    · exact fun budget member => amounts budget (perm.mem_iff.2 member)
  · simp at checked

end Budgets

section Checks
variable {chain : BlockChain} {height : UInt32} {tx checked : Transaction} {proposal : CRCProposal}
  {frame : Frame}

/-- A proposal of the block and a recorded one with the same hash are the same. -/
def IdentifiedByHash (prim : Primitives) (frame : Frame) (tx : Transaction) : Prop :=
  ∀ proposal recorded, tx.payload = .crcProposal proposal →
    frame.getProposal (proposal.hash prim) = some recorded → recorded.proposal = proposal

def identifiedByHash (prim : Primitives) (frame : Frame) (tx : Transaction) : Bool :=
  match tx.payload with
  | .crcProposal proposal => (frame.getProposal (proposal.hash prim)).all
      fun recorded => recorded.proposal = proposal
  | _ => true

theorem identifiedByHash_iff {prim : Primitives} :
    identifiedByHash prim frame tx = true ↔ IdentifiedByHash prim frame tx := by
  unfold identifiedByHash IdentifiedByHash
  split
  case h_1 proposal payload =>
    simp only [payload, Payload.crcProposal.injEq, Option.all_eq_true, decide_eq_true_eq]
    constructor
    · rintro same _ recorded rfl found
      exact same recorded found
    · intro identified recorded found
      exact identified proposal recorded rfl found
  case h_2 other =>
    exact iff_of_true rfl fun proposal _ payload => absurd payload (other proposal)

instance (prim : Primitives) (frame : Frame) (tx : Transaction) : Decidable (IdentifiedByHash prim frame tx) :=
  decidable_of_iff _ identifiedByHash_iff

theorem checkCRCProposal_new {used : Fixed64} (accepted : chain.checkCRCProposal proposal height used = .ok ()) :
    SoundBudgets proposal.budgets ∧ chain.crCommittee.existDraft proposal.draftHash = false := by
  simp only [checkCRCProposal, bind_eq_ok, exists_unit, require_eq_ok, reject_eq_ok, Bool.not_eq_true] at accepted
  obtain ⟨_, shape, amount, budgets, _, _, _, newDraft, _⟩ := accepted
  simp only [checkProposalShape, bind_eq_ok, exists_unit, require_eq_ok, reject_eq_ok] at shape
  obtain ⟨_, _, short, _⟩ := shape
  exact ⟨checkBudgets_sound (chain.runtime.sort_perm _ _) (not_lt.1 short) budgets, newDraft⟩

/-- A recorded proposal has its draft recorded too. -/
theorem getProposal_eq_none (newDraft : frame.existDraft proposal.draftHash = false)
    (identified : IdentifiedByHash chain.prim frame tx) (payload : tx.payload = .crcProposal proposal) :
    frame.getProposal (proposal.hash chain.prim) = none := by
  cases found : frame.getProposal (proposal.hash chain.prim) with
  | none => rfl
  | some recorded =>
    have same := identified proposal recorded payload found
    have member : recorded ∈ GoMap.values frame.proposals := by
      have entry := GoMap.mem_pairs_iff.2 found
      obtain ⟨pair, pairMember, equal⟩ := mem_map.1 entry
      refine mem_map.2 ⟨pair, pairMember, ?_⟩
      exact (Prod.mk.inj equal).2
    have exists_ : frame.existDraft proposal.draftHash = true := any_eq_true.2 ⟨recorded, member, by simp [same]⟩
    simp [exists_] at newDraft

theorem checkCRCProposalTracking_agreed {tracking : CRCProposalTracking}
    (payload : tx.payload = .crcProposalTracking tracking)
    (accepted : chain.checkCRCProposalTrackingTransaction tx = .ok ()) :
    ∃ proposal, chain.crCommittee.getProposal tracking.proposalHash = some proposal ∧
      proposal.status = .voterAgreed := by
  simp only [checkCRCProposalTrackingTransaction, payload, bind_eq_ok,
    exists_unit, require_eq_ok, ofOption_eq_ok] at accepted
  obtain ⟨proposal, found, agreed, _⟩ := accepted
  exact ⟨proposal, found, agreed⟩

theorem checkCRCProposalWithdraw_amount {withdraw : CRCProposalWithdraw}
    {references : References} (payload : tx.payload = .crcProposalWithdraw withdraw)
    (accepted : chain.checkCRCProposalWithdrawTransaction tx references = .ok ()) : ∃ proposal first rest,
      chain.crCommittee.getProposal withdraw.proposalHash = some proposal ∧ tx.outputs = first :: rest ∧
      first.value + getTransactionFee tx references = wrappedSum (proposal.withdrawing.map Prod.snd) := by
  simp only [checkCRCProposalWithdrawTransaction, payload, bind_eq_ok,
    exists_unit, require_eq_ok, ofOption_eq_ok] at accepted
  obtain ⟨_, proposal, found, _, _, _, _, first, isFirst, equal, _⟩ := accepted
  unfold firstOutput at isFirst
  split at isFirst
  · rename_i head rest shape
    simp only [Except.ok.injEq] at isFirst
    subst isFirst
    refine ⟨proposal, head, rest, found, shape, ?_⟩
    rw [equal, Frame.availableWithdrawalAmount, found]
  · simp at isFirst

/-- A wrapped total of non-negative stages is never above the exact one. -/
theorem add_le_exactSum {value fee : Fixed64} {amounts : List Fixed64}
    (equal : value + fee = wrappedSum amounts) (nonneg : ∀ amount ∈ amounts, 0 ≤ amount.toInt) :
    value.toInt + fee.toInt ≤ exactSum amounts := by
  obtain ⟨adds, added⟩ := add_turns value fee
  obtain ⟨sums, summed⟩ := turns (wrappedSum_eq amounts)
  rw [equal] at added
  have total := exactSum_nonneg nonneg
  have valueBound := Int64.toInt_lt value
  have feeBound := Int64.toInt_lt fee
  omega

/-- What the checks of a transaction read and what they leave in it. -/
theorem AcceptedTx.typed (accepted : AcceptedTx chain height tx checked) :
    ∃ references verdict, chain.checkType height tx references 0 = .ok verdict ∧
      checked.txType = tx.txType ∧ checked.payload = tx.payload ∧ checked.outputs = tx.outputs ∧
      (verdict = .continue → checked.fee = getTransactionFee tx references) := by
  obtain ⟨references, _, context⟩ := accepted.context
  rcases checkTransactionContext_cases accepted.notCoinbase context with
    ⟨typed, rfl⟩ | ⟨typed, spending⟩
  · exact ⟨references, _, typed, rfl, rfl, rfl, by simp⟩
  · obtain ⟨_, _, _, rfl⟩ := checkSpending_spends spending
    exact ⟨references, _, typed, rfl, rfl, rfl, fun _ => rfl⟩

/-- An accepted transaction is admitted by the treasury before its block. -/
theorem AcceptedTx.admits (accepted : AcceptedTx chain height tx checked) (sound : chain.crCommittee.treasury.Sound)
    (identified : IdentifiedByHash chain.prim chain.crCommittee tx) :
    Treasury.Admits chain.prim chain.crCommittee.treasury checked := by
  obtain ⟨references, verdict, typed, sameType, samePayload, sameOutputs, fee⟩ := accepted.typed
  constructor
  · intro proposal isType payload
    rw [sameType] at isType
    rw [samePayload] at payload
    simp only [checkType, isType, checkCRCProposalTransaction, payload,
      bind_eq_ok, exists_unit, withCode_eq_ok] at typed
    obtain ⟨budgets, newDraft⟩ := checkCRCProposal_new typed.1
    refine ⟨budgets, ?_⟩
    rw [treasury_funds, getProposal_eq_none newDraft identified payload, Option.map_none]
  · intro tracking isType payload
    rw [sameType] at isType
    rw [samePayload] at payload
    simp only [checkType, isType, bind_eq_ok, exists_unit, withCode_eq_ok] at typed
    obtain ⟨proposal, found, agreed⟩ := checkCRCProposalTracking_agreed payload typed.1
    exact ⟨proposal.fund, by rw [treasury_funds, found, Option.map_some], agreed⟩
  · intro withdraw isType payload
    rw [sameType] at isType
    rw [samePayload] at payload
    simp only [checkType, isType, bind_eq_ok, exists_unit, withCode_eq_ok, Except.ok.injEq] at typed
    obtain ⟨proposal, first, rest, found, outputs, equal⟩ := checkCRCProposalWithdraw_amount payload typed.1
    have hasFund : chain.crCommittee.treasury.funds withdraw.proposalHash =
        some proposal.fund := by rw [treasury_funds, found, Option.map_some]
    refine ⟨proposal.fund, hasFund, ?_⟩
    have firstValue : exactSum (((first :: rest).take 1).map (·.value)) = first.value.toInt := by simp
    rw [Treasury.payment, sameOutputs, outputs, fee typed.2.symm, firstValue]
    have amounts : ∀ amount ∈ proposal.withdrawing.map Prod.snd, 0 ≤ amount.toInt := by
      intro amount member
      obtain ⟨entry, entryMember, rfl⟩ := mem_map.1 member
      exact (sound _ _ hasFund).withdrawable_nonneg (GoMap.mem_pairs_iff.1 (mem_filter.1 entryMember).1)
    exact add_le_exactSum equal amounts

/-- So is every transaction of an accepted block, as the checks leave it. -/
theorem AcceptedBlock.admits {block checkedBlock : Block} (accepted : AcceptedBlock chain block checkedBlock)
    (sound : chain.crCommittee.treasury.Sound) (identified : ∀ tx ∈ block.transactions,
      IdentifiedByHash chain.prim chain.crCommittee tx) : ∀ tx ∈ checkedBlock.transactions,
      Treasury.Admits chain.prim chain.crCommittee.treasury tx := by
  obtain ⟨coinbase, rest, checkedRest, shape, checkedShape, isCoinbase, _, all⟩ := accepted.transactions
  rw [checkedShape]
  rw [shape] at identified
  intro checkedTx member
  rcases mem_cons.1 member with rfl | member
  · exact ⟨fun _ isType => by simp [isCoinbase] at isType, fun _ isType => by simp [isCoinbase] at isType,
      fun _ isType => by simp [isCoinbase] at isType⟩
  · obtain ⟨tx, txMember, passed⟩ := forall₂_mem_right all member
    exact passed.admits sound (identified tx (mem_cons_of_mem _ txMember))

end Checks

/-- What the chain registers with the committee. The height it reports while a block
is processed and the creation of the appropriation are left open. -/
def BlockChain.committeeFuncs (chain : BlockChain) (getHeight : UInt32)
    (createCRCAppropriationTx : Outcome String (Option Transaction)) : CommitteeFuncs where
  prim := chain.prim
  runtime := chain.runtime
  params := chain.chainParams
  getTxReference := chain.getTxReference
  getHeight := getHeight
  createCRCAppropriationTx := createCRCAppropriationTx

structure BlockStep where
  chain : BlockChain
  previous : BlockNode
  block : Block
  checked : Block
  getHeight : UInt32
  createCRCAppropriationTx : Outcome String (Option Transaction)
  before : Committee
  after : Committee

structure BlockStep.Extends (step : BlockStep) (prim : Primitives) (params : Params)
    (height : UInt32) (committee : Committee) : Prop where
  before : step.before = committee
  prim : step.chain.prim = prim
  params : step.chain.chainParams = params
  frame : step.chain.crCommittee = step.before.frame
  height : step.block.height.toNat = height.toNat + 1
  sanity : step.chain.checkBlockSanity step.block = .ok ()
  context : step.chain.checkBlockContext step.block (some step.previous) = .ok step.checked
  processed : step.before.processBlock
    (step.chain.committeeFuncs step.getHeight step.createCRCAppropriationTx)
    step.checked = .ok step.after

inductive Run (prim : Primitives) (params : Params) (start : UInt32) (initial : Committee) :
    List BlockStep → UInt32 → Committee → Prop where
  | nil : Run prim params start initial [] start initial
  | snoc {steps : List BlockStep} {step : BlockStep} {height : UInt32}
      {committee : Committee} (run : Run prim params start initial steps height committee)
      (next : step.Extends prim params height committee) :
      Run prim params start initial (steps ++ [step]) step.block.height step.after

namespace BlockStep

/-- Hashes identify the proposals that the block brings. -/
def ProposalsIdentified (step : BlockStep) : Prop :=
  ∀ tx ∈ step.block.transactions, IdentifiedByHash step.chain.prim step.before.frame tx

instance (step : BlockStep) : Decidable step.ProposalsIdentified :=
  inferInstanceAs (Decidable (∀ tx ∈ _, _))

def ChangesCommittee (step : BlockStep) : Prop :=
  step.after.frame.currentSession ≠ step.before.frame.currentSession

instance (step : BlockStep) : Decidable step.ChangesCommittee :=
  inferInstanceAs (Decidable (_ ≠ _))

end BlockStep

structure Settled (params : Params) (height : UInt32) (committee : Committee) : Prop where
  ready : committee.Ready
  sound : committee.frame.treasury.Sound
  early : height < params.crVotingStartHeight → ∀ hash, committee.frame.treasury.funds hash = none

theorem settled_initial (params : Params) : Settled params 0 Committee.initial where
  ready := Committee.ready_initial
  sound := by simp [Treasury.Sound, Committee.initial, Frame.initial, Frame.treasury]
  early _ _ := rfl

section
variable {prim : Primitives} {params : Params} {height : UInt32} {committee : Committee}
  {step : BlockStep}

/-- A block is a step of the treasury with transactions that it admits. -/
theorem Settled.extend (settled : Settled params height committee)
    (next : step.Extends prim params height committee) (identified : step.ProposalsIdentified) :
    Settled params step.block.height step.after ∧
      Treasury.Step prim step.before.frame.treasury step.checked.transactions
        step.after.frame.treasury ∧ ∀ tx ∈ step.checked.transactions,
        Treasury.Admits prim step.before.frame.treasury tx := by
  obtain ⟨rfl, rfl, rfl, frame, heightNext, sanity, context, processed⟩ := next
  have accepted := checkBlock_accepted sanity context
  have sameHeight := congrArg Header.height accepted.header
  have nonzero : step.checked.height ≠ 0 := by
    rw [sameHeight]
    intro zero
    rw [zero] at heightNext
    simp at heightNext
  have admits : ∀ tx ∈ step.checked.transactions, Treasury.Admits step.chain.prim step.before.frame.treasury tx := by
    rw [← frame]
    refine accepted.admits (by rw [frame]; exact settled.sound) fun tx member => ?_
    rw [frame]
    exact identified tx member
  by_cases early : step.checked.height < step.chain.chainParams.crVotingStartHeight
  · -- Nothing happens before the first vote.
    have skipped : step.before = step.after := by
      simpa [Committee.processBlock, BlockChain.committeeFuncs, early] using processed
    have wasEarly : height < step.chain.chainParams.crVotingStartHeight := by
      rw [UInt32.lt_iff_toNat_lt] at early ⊢
      rw [sameHeight] at early
      omega
    rw [← skipped]
    exact ⟨⟨settled.ready, settled.sound, fun _ => settled.early wasEarly⟩, .skip (settled.early wasEarly), admits⟩
  · obtain ⟨ready, treasuryStep⟩ := processBlock_step nonzero early settled.ready processed
    refine ⟨⟨ready, treasuryStep.sound settled.sound admits, fun still => ?_⟩, treasuryStep, admits⟩
    rw [← sameHeight] at still
    exact absurd still early

theorem Run.settled {start : UInt32} {initial : Committee} {steps : List BlockStep}
    (run : Run prim params start initial steps height committee) (settled : Settled params start initial)
    (identified : ∀ step ∈ steps, step.ProposalsIdentified) : Settled params height committee := by
  induction run with
  | nil => exact settled
  | snoc _ next ih =>
    refine ((ih fun step member => ?_).extend next ?_).1
    · exact identified step (List.mem_append_left _ member)
    · exact identified _ (by simp)

def tryExtend (chain : BlockChain) (previous : BlockNode) (committee : Committee) (block : Block) : Option BlockStep :=
  match chain.checkBlockSanity block, chain.checkBlockContext block (some previous) with
  | .ok (), .ok checked =>
    match committee.processBlock (chain.committeeFuncs block.height (.ok none)) checked with
    | .ok after => some {
        chain, previous, block, checked
        getHeight := block.height
        createCRCAppropriationTx := .ok none
        before := committee
        after }
    | .error _ => none
  | _, _ => none

theorem tryExtend_extends {chain : BlockChain} {previous : BlockNode}
    {committee : Committee} {block : Block} {step : BlockStep} {height : UInt32}
    (frame : chain.crCommittee = committee.frame) (next : block.height.toNat = height.toNat + 1)
    (found : tryExtend chain previous committee block = some step) :
    step.Extends chain.prim chain.chainParams height committee ∧ step.block.height = block.height := by
  unfold tryExtend at found
  split at found
  case h_1 checked sanity context =>
    split at found
    case h_1 after processed =>
      cases found
      exact ⟨⟨rfl, rfl, rfl, frame, next, sanity, context, processed⟩, rfl⟩
    case h_2 => cases found
  case h_2 => cases found

/-- One round of playing a list of blocks. -/
theorem played_cons {α : Type 1} {β : Type} {next : Prop} [Decidable next] {tried : Option α}
    {play : α → Option (List α × β)} {steps : List α} {reached : β} (played : (if next then do
        let step ← tried
        let (steps, reached) ← play step
        some (step :: steps, reached)
      else none) = some (steps, reached)) :
    next ∧ ∃ step rest, tried = some step ∧ play step = some (rest, reached) ∧ steps = step :: rest := by
  split at played
  · rename_i next
    simp only [Option.bind_eq_bind, Option.bind_eq_some_iff] at played
    obtain ⟨step, found, ⟨rest, reached⟩, playedRest, equal⟩ := played
    cases equal
    exact ⟨next, step, rest, found, playedRest, rfl⟩
  · cases played

variable (chainAt : UInt32 → Frame → BlockChain) (previous : BlockNode)

def play : UInt32 → Committee → List Block → Option (List BlockStep × UInt32 × Committee)
  | height, committee, [] => some ([], height, committee)
  | height, committee, block :: blocks =>
    if block.height.toNat = height.toNat + 1 then do
      let step ← tryExtend (chainAt height committee.frame) previous committee block
      let (steps, reached) ← play block.height step.after blocks
      some (step :: steps, reached)
    else
      none

variable {chainAt previous} {prim : Primitives} {params : Params}

theorem play_run (samePrim : ∀ height frame, (chainAt height frame).prim = prim)
    (sameParams : ∀ height frame, (chainAt height frame).chainParams = params)
    (sameFrame : ∀ height frame, (chainAt height frame).crCommittee = frame)
    {start : UInt32} {initial : Committee} (blocks : List Block) {earlier steps : List BlockStep}
    {height last : UInt32} {committee final : Committee} (run : Run prim params start initial earlier height committee)
    (played : play chainAt previous height committee blocks = some (steps, last, final)) :
    Run prim params start initial (earlier ++ steps) last final := by
  induction blocks generalizing earlier steps height committee with
  | nil =>
    cases played
    simpa using run
  | cons block blocks ih =>
    obtain ⟨next, step, rest, found, playedRest, rfl⟩ := played_cons played
    obtain ⟨extends_, sameHeight⟩ := tryExtend_extends (sameFrame _ _) next found
    rw [samePrim, sameParams] at extends_
    rw [← sameHeight] at playedRest
    simpa using ih (run.snoc extends_) playedRest

end

namespace SmallChain

def genesis : Transaction :=
  spend .transferAsset .transferAsset (coinbase 0 [])
    (output (owner 5) 500001000100 :: List.replicate 5 (output (owner 5) 100) ++
      List.replicate 2 (output crcCommittee 1000)) []

def spendGenesis (index : UInt16) (txType : TxType) (payload : Payload)
    (outputs : List Output) (programs : List Program) : Transaction :=
  { spend txType payload genesis outputs programs with
    inputs := [{
      previous := { txID := genesis.hash primitives, index }
      sequence := 0xffffffff }] }

def councillor : CRInfo where
  code := keyCode (key 5)
  cid := primitives.toProgramHash prefixCRDID (keyCode (key 5))
  did := primitives.toProgramHash prefixCRDID
    ((keyCode (key 5)).dropLast ++ [0xAD])
  nickName := [65]
  url := []
  location := 0
  signature := sign (key 5)

/-- The only candidate registers, and pays a little to the foundation of the council. -/
def candidacy : Transaction :=
  { spendGenesis 0 .registerCR (.crInfo councillor)
      [output (primitives.toProgramHash prefixDeposit councillor.code) 500000000000,
        output crcFoundation 1000000] [signedBy 5] with
    payloadVersion := crInfoDIDVersion }

def proposal : CRCProposal where
  proposalType := proposalNormal
  categoryData := []
  ownerPublicKey := key 6
  draftHash := default
  budgets := [ { budgetType := imprest, stage := 0, amount := 1000 },
    { budgetType := finalPayment, stage := 1, amount := 3000 }]
  recipient := owner 6
  signature := sign (key 6)
  crCouncilMemberDID := councillor.did
  crCouncilMemberSignature := sign (key 5)

def proposalHash : Uint256 := proposal.hash primitives

def proposing : Transaction :=
  spendGenesis 1 .crcProposal (.crcProposal proposal) [output (owner 5) 0] [signedBy 5]

def approving : Transaction :=
  spendGenesis 2 .crcProposalReview (.crcProposalReview {
    proposalHash := proposalHash
    voteResult := .approve
    opinionHash := default
    did := councillor.did
    signature := sign (key 5) }) [output (owner 5) 0] [signedBy 5]

def withdrawing (index : UInt16) : Transaction :=
  spendGenesis index .crcProposalWithdraw (.crcProposalWithdraw {
    proposalHash := proposalHash
    ownerPublicKey := key 6
    signature := sign (key 6) }) [output (owner 6) 900] []

def ending (index : UInt16) : Transaction :=
  spendGenesis index .crcProposalTracking (.crcProposalTracking {
    proposalHash := proposalHash
    messageHash := default
    stage := 0
    ownerPublicKey := key 6
    newOwnerPublicKey := []
    ownerSignature := sign (key 6)
    newOwnerSignature := []
    proposalTrackingType := .terminated
    secretaryGeneralOpinionHash := default
    secretaryGeneralSignature := sign (key 9) }) [output (owner 5) 0] [signedBy 5]

def filled (height : UInt32) (transactions : List Transaction) : Block :=
  let totalReward := 100 * Int64.ofNat transactions.length + params.rewardPerBlock
  let rewarded := if height < params.crCommitteeStartHeight then foundation else crcFoundation
  blockOf height (coinbase height [output rewarded 160000000,
    output miner (totalReward - rewardDPOSArbiter totalReward - 160000000)] :: transactions)

def genesisChain (height : UInt32) (frame : Frame) : BlockChain :=
  { chain [genesis] with
    arbitrators := { arbitrators with bestHeight := height, crCommittee := frame } }

/-- The blocks up to the election, after which the council takes over at height 7. -/
def campaign : List Block :=
  [filled 1 [candidacy], filled 2 [], filled 3 [], filled 4 [], filled 5 [], filled 6 []]

/-- The proposal is made and approved, and its imprest is released at height 10. -/
def granting : List Block := [filled 8 [proposing], filled 9 [approving], filled 10 []]

theorem genesisChain_run {start height last : UInt32} {initial committee final : Committee}
    {earlier steps : List BlockStep} {blocks : List Block}
    (run : Run primitives params start initial earlier height committee)
    (played : play genesisChain previousNode height committee blocks = some (steps, last, final)) :
    Run primitives params start initial (earlier ++ steps) last final := by
  refine play_run ?_ ?_ ?_ blocks run played <;> exact fun _ _ => rfl

end SmallChain
end Elastos.Blockchain
