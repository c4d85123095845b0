import Elastos.Blockchain.ChainRun
import Elastos.Dpos.Housing

/-! Chains of accepted blocks and the producer state that follows them, and a small chain on which a
producer registers. -/
set_option autoImplicit false
namespace Elastos.Blockchain
open Go Common Config Crypto Elastos.Core Elastos.Types Dpos Utils Outcome BlockChain StateKeyFrame Stand

/-- What the producer state is given. The amount at a deposit address is read from the
store when the block has been saved, and left open here. -/
def BlockChain.stateFuncs (chain : BlockChain)
    (getProducerDepositAmount : Uint168 → Outcome String Fixed64) : StateFuncs where
  prim := chain.prim
  runtime := chain.runtime
  getArbiters := chain.arbitrators.getArbitrators
  getProducerDepositAmount := getProducerDepositAmount
  getTxReference := chain.getTxReference

structure StateStep where
  chain : BlockChain
  previous : BlockNode
  block : Block
  checked : Block
  confirm : Option Confirm
  getProducerDepositAmount : Uint168 → Outcome String Fixed64
  before : State
  after : State

namespace StateStep
variable (step : StateStep)

def funcs : StateFuncs :=
  step.chain.stateFuncs step.getProducerDepositAmount

structure Extends (step : StateStep) (prim : Primitives) (params : Params) (height : UInt32)
    (state : State) : Prop where
  before : step.before = state
  prim : step.chain.prim = prim
  params : step.chain.chainParams = params
  frame : step.chain.state = step.before.frame
  height : step.block.height.toNat = height.toNat + 1
  sanity : step.chain.checkBlockSanity step.block = .ok ()
  context : step.chain.checkBlockContext step.block (some step.previous) = .ok step.checked
  processed : step.before.processBlock step.funcs step.checked step.confirm = .ok step.after

def actions : List Action :=
  step.before.frame.blockActions step.funcs step.before.params step.checked.height
    step.checked.transactions step.confirm

def writes : StateKeyFrame :=
  step.before.frame.blockWrites step.funcs step.before.params step.checked.height
    step.checked.transactions step.confirm

def registeredKeys : List Bytes :=
  (infosOf .registerProducer step.checked.transactions).map (·.ownerPublicKey)

end StateStep

inductive StateRun (prim : Primitives) (params : Params) (start : UInt32) (initial : State) :
    List StateStep → UInt32 → State → Prop where
  | nil : StateRun prim params start initial [] start initial
  | snoc {steps : List StateStep} {step : StateStep} {height : UInt32} {state : State}
      (run : StateRun prim params start initial steps height state)
      (next : step.Extends prim params height state) :
      StateRun prim params start initial (steps ++ [step]) step.block.height step.after

section
variable {chain : BlockChain} {block checked : Block}

theorem AcceptedBlock.checkedTx (accepted : AcceptedBlock chain block checked)
    {tx : Transaction} (member : tx ∈ checked.transactions) (notCoinbase : tx.txType ≠ .coinBase) :
    ∃ original ∈ block.transactions, AcceptedTx chain block.height original tx := by
  obtain ⟨coinbase, rest, checkedRest, shape, checkedShape, isCoinbase, _, all⟩ := accepted.transactions
  rw [checkedShape] at member
  rw [shape]
  rcases List.mem_cons.1 member with rfl | member
  · exact absurd isCoinbase notCoinbase
  · obtain ⟨original, originalMember, passed⟩ := forall₂_mem_right all member
    exact ⟨original, List.mem_cons_of_mem _ originalMember, passed⟩

namespace StateStep.Extends
variable {step : StateStep} {prim : Primitives} {params : Params} {height : UInt32}
  {state : State}

variable (next : step.Extends prim params height state)
include next

theorem accepted : AcceptedBlock step.chain step.block step.checked :=
  checkBlock_accepted next.sanity next.context

theorem nonzero : step.checked.height ≠ 0 := by
  rw [show step.checked.height = step.block.height from
    congrArg Header.height next.accepted.header]
  intro zero
  have follows := next.height
  rw [zero] at follows
  simp at follows

theorem ran (idle : step.before.history.Idle) :
    step.after.params = step.before.params ∧ step.after.history.Idle ∧ step.after.frame = executeAll
        (step.actions.map (Action.change step.before.params step.checked.height)) step.writes :=
  State.processBlock_spec step.funcs idle next.nonzero next.processed

end StateStep.Extends

section Checks
variable {height : UInt32} {tx : Transaction} {info : ProducerInfo}

theorem checkProducerDuplication_fresh (homed : chain.state.Homed)
    (passed : chain.checkProducerDuplication info = .ok ()) (list : ProducerList) :
    (chain.state.list list).lookup info.ownerPublicKey = none := by
  refine getProducerByOwnerPublicKey_eq_none ?_ list
  unfold checkProducerDuplication at passed
  split at passed
  · simp only [then_eq_ok, reject_eq_ok, Bool.not_eq_true] at passed
    have absent : chain.state.getProducerByOwnerPublicKey (chain.state.getProducerKey info.ownerPublicKey) = none := by
      simpa [producerExists, getProducerRef] using passed.2
    unfold getProducerKey at absent
    cases named : chain.state.nodeOwnerKeys.lookup info.ownerPublicKey with
    | none => simpa [named] using absent
    | some key =>
      -- A node key leads to a producer, so the key would have been refused.
      obtain ⟨position, located⟩ := homed.named _ key named
      simp [named, homed.getProducerByOwnerPublicKey located] at absent
  · simp only [then_eq_ok, reject_eq_ok, Bool.not_eq_true] at passed
    simpa [producerOwnerPublicKeyExists] using passed.2

theorem checkRegisterProducer_passed (payload : tx.payload = .producerInfo info)
    (passed : chain.checkRegisterProducerTransaction tx = .ok ()) : chain.checkProducerDuplication info = .ok () ∧
      ∃ depositHash, publicKeyToDepositProgramHash chain.prim info.ownerPublicKey = .ok depositHash := by
  simp only [checkRegisterProducerTransaction, payload, bind_eq_ok, exists_unit, mapError_eq_ok] at passed
  obtain ⟨_, _, duplication, _, _, _, _, _, depositHash, found, _⟩ := passed
  exact ⟨duplication, depositHash, found⟩

section
variable {checkedTx : Transaction} (accepted : AcceptedTx chain height tx checkedTx)
include accepted

theorem AcceptedTx.register (isRegister : checkedTx.txType = .registerProducer)
    (payload : checkedTx.payload = .producerInfo info) : chain.checkProducerDuplication info = .ok () ∧
      ∃ depositHash, publicKeyToDepositProgramHash chain.prim info.ownerPublicKey = .ok depositHash := by
  obtain ⟨references, verdict, typed, sameType, samePayload, _⟩ := accepted.typed
  rw [sameType] at isRegister
  rw [samePayload] at payload
  simp only [checkType, isRegister, bind_eq_ok, exists_unit, withCode_eq_ok] at typed
  exact checkRegisterProducer_passed payload typed.1

theorem AcceptedTx.cancel (isCancel : checkedTx.txType = .cancelProducer) {cancel : ProcessProducer}
    (payload : checkedTx.payload = .processProducer cancel) :
    ∃ producer, chain.state.getProducer cancel.ownerPublicKey = some producer ∧
      producer.info.ownerPublicKey = cancel.ownerPublicKey := by
  obtain ⟨references, verdict, typed, sameType, samePayload, _⟩ := accepted.typed
  rw [sameType] at isCancel
  rw [samePayload] at payload
  simp only [checkType, isCancel, bind_eq_ok, exists_unit,
    withCode_eq_ok, checkCancelProducerTransaction, checkProcessProducer,
    payload, ofOption_eq_ok, require_eq_ok] at typed
  obtain ⟨⟨found, ⟨_, producer, known, owner, _⟩, _⟩, _⟩ := typed
  exact ⟨producer, known, owner⟩

end

theorem AcceptedBlock.fits (accepted : AcceptedBlock chain block checked)
    (homed : chain.state.Homed) : Fits chain.state checked.transactions where
  registers info registers := by
    obtain ⟨tx, member, isRegister, payload⟩ := mem_infosOf.1 registers
    obtain ⟨original, _, passed⟩ := accepted.checkedTx member (by simp [isRegister])
    exact checkProducerDuplication_fresh homed (passed.register isRegister payload).1
  cancels tx member isCancel cancel payload position reached := by
    obtain ⟨original, _, passed⟩ := accepted.checkedTx member (by simp [isCancel])
    obtain ⟨producer, known, owner⟩ := passed.cancel isCancel payload
    obtain ⟨located, cell, found, cellOwner⟩ := homed.getProducerRef reached
    rw [getProducer, reached, Option.bind_some, found, Option.some.injEq] at known
    rw [known, owner] at cellOwner
    rw [cellOwner]
    exact located

end Checks

namespace StateStep.Extends
variable {step : StateStep} {prim : Primitives} {params : Params} {height : UInt32}
  {state : State} (next : step.Extends prim params height state)

include next

theorem fits (homed : step.before.frame.Homed) : Fits step.before.frame step.checked.transactions :=
  next.frame ▸ next.accepted.fits (next.frame.symm ▸ homed)

theorem enters {key : Bytes} (registers : key ∈ step.registeredKeys) : ∃ info position programHash deposits,
      .enter info position programHash deposits ∈ step.actions ∧ info.ownerPublicKey = key := by
  obtain ⟨info, brings, rfl⟩ := List.mem_map.1 registers
  obtain ⟨tx, member, isRegister, payload⟩ := mem_infosOf.1 brings
  obtain ⟨original, _, passed⟩ := next.accepted.checkedTx member (by simp [isRegister])
  obtain ⟨_, programHash, found⟩ := passed.register isRegister payload
  have asked : ∃ frame, Dpos.Extends step.before.frame frame ∧
      ∀ action ∈ frame.txActions step.funcs step.checked.height tx, action ∈ step.actions :=
    blockActions_of_tx member
  obtain ⟨current, _, all⟩ := asked
  have foundHere : publicKeyToDepositProgramHash step.funcs.prim info.ownerPublicKey = .ok programHash := found
  refine ⟨info, current.producers.length, programHash, State.depositsOf step.funcs.prim tx programHash, all _ ?_, rfl⟩
  simp only [txActions, typeActions, isRegister, registerActions, payload, foundHere,
    List.mem_append, List.mem_singleton, true_or]

theorem located (idle : state.history.Idle) (settled : state.frame.Settled)
    (apart : step.before.frame.KeysApart step.checked.transactions) :
    (∀ key position, Located state.frame key position → Located step.after.frame key position) ∧
      ∀ key ∈ step.registeredKeys, ∃ position, Located step.after.frame key position := by
  obtain rfl := next.before
  obtain ⟨_, kept, _, entered⟩ := block_settled step.funcs step.before.params
    step.checked.height step.confirm settled (next.fits settled.homed) apart
  rw [(next.ran idle).2.2]
  refine ⟨kept, fun key registers => ?_⟩
  obtain ⟨info, position, programHash, deposits, asked, rfl⟩ := next.enters registers
  exact entered info position programHash deposits asked

end StateStep.Extends

def tryStateStep (chain : BlockChain) (previous : BlockNode) (state : State) (block : Block) : Option StateStep :=
  match chain.checkBlockSanity block, chain.checkBlockContext block (some previous) with
  | .ok (), .ok checked =>
    match state.processBlock (chain.stateFuncs fun _ => .ok 0) checked none with
    | .ok after => some {
        chain, previous, block, checked
        confirm := none
        getProducerDepositAmount _ := .ok 0
        before := state
        after }
    | .error _ => none
  | _, _ => none

theorem tryStateStep_extends {chain : BlockChain} {previous : BlockNode} {state : State}
    {block : Block} {step : StateStep} {height : UInt32} (frame : chain.state = state.frame)
    (next : block.height.toNat = height.toNat + 1) (found : tryStateStep chain previous state block = some step) :
    step.Extends chain.prim chain.chainParams height state ∧ step.block.height = block.height ∧ step.chain = chain := by
  unfold tryStateStep at found
  split at found
  case h_1 checked sanity context =>
    split at found
    case h_1 after processed =>
      cases found
      exact ⟨⟨rfl, rfl, rfl, frame, next, sanity, context, processed⟩, rfl, rfl⟩
    case h_2 => cases found
  case h_2 => cases found

variable (chainAt : UInt32 → StateKeyFrame → BlockChain) (previous : BlockNode)

def playState : UInt32 → State → List Block → Option (List StateStep × UInt32 × State)
  | height, state, [] => some ([], height, state)
  | height, state, block :: blocks =>
    if block.height.toNat = height.toNat + 1 then do
      let step ← tryStateStep (chainAt height state.frame) previous state block
      let (steps, reached) ← playState block.height step.after blocks
      some (step :: steps, reached)
    else
      none

variable {chainAt previous} {prim : Primitives} {params : Params}

theorem playState_run (samePrim : ∀ height frame, (chainAt height frame).prim = prim)
    (sameParams : ∀ height frame, (chainAt height frame).chainParams = params)
    (sameFrame : ∀ height frame, (chainAt height frame).state = frame)
    {start : UInt32} {initial : State} (blocks : List Block) {earlier steps : List StateStep}
    {height last : UInt32} {state final : State} (run : StateRun prim params start initial earlier height state)
    (played : playState chainAt previous height state blocks = some (steps, last, final)) :
    StateRun prim params start initial (earlier ++ steps) last final := by
  induction blocks generalizing earlier steps height state with
  | nil =>
    cases played
    simpa using run
  | cons block blocks ih =>
    obtain ⟨next, step, rest, found, playedRest, rfl⟩ := played_cons played
    obtain ⟨extends_, sameHeight, -⟩ := tryStateStep_extends (sameFrame _ _) next found
    rw [samePrim, sameParams] at extends_
    rw [← sameHeight] at playedRest
    simpa using ih (run.snoc extends_) playedRest

end

namespace SmallChain

def earlyParams : Params :=
  { params with
    crcOnlyDPOSHeight := 100
    publicDPOSHeight := 100
    crVotingStartHeight := 100
    crCommitteeStartHeight := 200 }

def producerInfo : ProducerInfo where
  ownerPublicKey := key 5
  nodePublicKey := key 6
  nickName := [65]
  url := []
  location := 0
  netAddress := []
  signature := sign (key 5)

def depositAt (last : UInt8) : Uint168 :=
  primitives.toProgramHash prefixDeposit (keyCode (key last))

def registering : Transaction :=
  spendGenesis 0 .registerProducer (.producerInfo producerInfo)
    [output (depositAt 5) 500000000000, output (owner 5) 1000000] [signedBy 5]

def canceling : Transaction :=
  spendGenesis 1 .cancelProducer (.processProducer {
    ownerPublicKey := key 5
    signature := sign (key 5) }) [output (owner 5) 0] [signedBy 5]

def early (height : UInt32) (transactions : List Transaction) : Block :=
  let totalReward := 100 * Int64.ofNat transactions.length + params.rewardPerBlock
  blockOf height (coinbase height [output foundation 160000000, output miner (totalReward - 160000000)] :: transactions)

def earlyChain (height : UInt32) (frame : StateKeyFrame) : BlockChain :=
  { chain [genesis] with
    arbitrators := { arbitrators with
      params := earlyParams
      bestHeight := height
      state := frame } }

theorem earlyChain_run {height last : UInt32} {state final : State}
    {earlier steps : List StateStep} {blocks : List Block}
    (run : StateRun primitives earlyParams 0 (State.initial earlyParams) earlier height state)
    (played : playState earlyChain previousNode height state blocks = some (steps, last, final)) :
    StateRun primitives earlyParams 0 (State.initial earlyParams) (earlier ++ steps) last final := by
  refine playState_run ?_ ?_ ?_ blocks run played <;> exact fun _ _ => rfl

theorem earlyChain_plays (blocks : List Block) (facts : List StateStep → UInt32 → State → Prop)
    [∀ steps height state, Decidable (facts steps height state)]
    (played : (playState earlyChain previousNode 0 (State.initial earlyParams) blocks).any
      (fun reached => decide (facts reached.1 reached.2.1 reached.2.2)) = true) : ∃ steps height state,
      StateRun primitives earlyParams 0 (State.initial earlyParams) steps height state ∧
        facts steps height state := by
  obtain ⟨⟨steps, height, state⟩, found, holds⟩ := (Option.any_eq_true _ _).1 played
  have run := earlyChain_run .nil found
  rw [List.nil_append] at run
  exact ⟨steps, height, state, run, of_decide_eq_true holds⟩

end SmallChain
end Elastos.Blockchain
