import Elastos.Blockchain.StateRun

/-! Every registered producer is in one of the maps of the state, under its own key, each under a
condition on the blocks. -/
set_option autoImplicit false
namespace Elastos.Blockchain
open Common Config Crypto Dpos List Stand Go Elastos.Types Utils Outcome StateKeyFrame
namespace StateStep

/-- Each move that the block makes with a producer starts in the map in which the moves
before it have left the producer, or where the move ends. -/
def ChainsMoves (step : StateStep) : Prop :=
  MovesChained step.before.params step.checked.height step.before.frame step.actions

instance (step : StateStep) : Decidable step.ChainsMoves :=
  inferInstanceAs (Decidable (MovesChained _ _ _ _))

/-- The owner key of an update leads to the producer that is registered under it. -/
def UpdatesOwn (step : StateStep) : Prop :=
  Dpos.UpdatesOwn step.before.frame step.checked.transactions

instance (step : StateStep) : Decidable step.UpdatesOwn :=
  inferInstanceAs (Decidable (Dpos.UpdatesOwn _ _))

end StateStep

/-- A key is in exactly one map, with a producer whose state belongs there. -/
def InOneMap (frame : StateKeyFrame) (key : Bytes) : Prop :=
  ∃ list position producer, (frame.list list).lookup key = some position ∧
    (∀ other, other ≠ list → (frame.list other).lookup key = none) ∧
    frame.producer? position = some producer ∧ list.Holds producer.state

structure Filing (params : Params) (steps : List StateStep) (state : State) : Prop where
  params : state.params = params
  idle : state.history.Idle
  partitioned : state.frame.Partitioned
  registered : ∀ step ∈ steps, ∀ key ∈ step.registeredKeys, ∃ position, Located state.frame key position

theorem filing_initial (params : Params) : Filing params [] (State.initial params) where
  params := rfl
  idle := ⟨rfl, rfl, rfl⟩
  partitioned := by
    constructor
    · intro key list position found
      cases list <;> cases found
    · intro node key found
      cases found
  registered := by simp

variable {prim : Primitives} {params : Params} {height : UInt32} {state : State}
  {steps : List StateStep} {step : StateStep}

theorem Filing.extend (filing : Filing params steps state)
    (next : step.Extends prim params height state) (chains : step.ChainsMoves)
    (own : step.UpdatesOwn) : Filing params (steps ++ [step]) step.after := by
  obtain ⟨sameParams, idle, ran⟩ := next.ran (next.before ▸ filing.idle)
  have before := next.before ▸ filing.partitioned
  obtain ⟨after, kept, entered⟩ := StateKeyFrame.block_partitioned step.funcs step.before.params
    step.checked.height before (next.fits before.homed) own chains
  have startParams := next.before ▸ filing.params
  refine ⟨sameParams.trans startParams, idle, ran ▸ after, fun other member key registers => ?_⟩
  rw [ran]
  rcases mem_append.1 member with earlier | now
  · obtain ⟨position, located⟩ := filing.registered other earlier key registers
    exact kept key position (next.before ▸ located)
  · cases mem_singleton.1 now
    obtain ⟨info, position, programHash, deposits, asked, rfl⟩ := next.enters registers
    exact entered info position programHash deposits asked

/-- In a run whose blocks chain their moves and update producers under their own keys,
every registered producer is in one map. -/
theorem registered_inOneMap (run : StateRun prim params 0 (State.initial params) steps height state)
    (chains : ∀ step ∈ steps, step.ChainsMoves) (own : ∀ step ∈ steps, step.UpdatesOwn) :
    ∀ step ∈ steps, ∀ key ∈ step.registeredKeys, InOneMap state.frame key := by
  have filing : Filing params steps state := by
    induction run with
    | nil => exact filing_initial params
    | snoc _ next ih =>
      refine (ih (fun step member => ?_) fun step member => ?_).extend next (chains _ (by simp)) (own _ (by simp))
      · exact chains step (mem_append_left _ member)
      · exact own step (mem_append_left _ member)
  intro step member key registers
  obtain ⟨position, list, found⟩ := filing.registered step member key registers
  have filed := filing.partitioned.filed key list position found
  obtain ⟨info, status, face, _, holds⟩ := filed.face
  obtain ⟨producer, cell, same⟩ := Option.map_eq_some_iff.1 face
  cases same
  exact ⟨list, position, producer, found, filed.only, cell, holds⟩

open SmallChain

/-- The producer registers, is activated at height 6 and canceled at the next one. -/
theorem canceledLater_inOneMap : ∃ steps height state,
      StateRun primitives earlyParams 0 (State.initial earlyParams) steps height state ∧
        (∃ step ∈ steps, key 5 ∈ step.registeredKeys) ∧ InOneMap state.frame (key 5) := by
  obtain ⟨steps, height, state, run, chains, own, step, member, registers⟩ := earlyChain_plays
    [early 1 [registering], early 2 [], early 3 [], early 4 [], early 5 [], early 6 [], early 7 [canceling]]
    (fun steps _ _ => (∀ step ∈ steps, step.ChainsMoves) ∧ (∀ step ∈ steps, step.UpdatesOwn) ∧
      ∃ step ∈ steps, key 5 ∈ step.registeredKeys)
    (by decide +kernel)
  exact ⟨steps, height, state, run, ⟨step, member, registers⟩,
    registered_inOneMap run chains own step member _ registers⟩

theorem not_inOneMap {frame : StateKeyFrame} {key : Bytes} {list other : ProducerList}
    (apart : list ≠ other) (here : ((frame.list list).lookup key).isSome = true)
    (there : ((frame.list other).lookup key).isSome = true) : ¬ InOneMap frame key := by
  rintro ⟨only, _, _, _, absent, _⟩
  by_cases same : list = only
  · rw [absent other fun equal => apart (same.trans equal.symm)] at there
    cases there
  · rw [absent list same] at here
    cases here

/-- A producer that is canceled in the block that activates it is in two maps. -/
theorem canceledWhenDue_inTwoMaps : ∃ steps height state,
      StateRun primitives earlyParams 0 (State.initial earlyParams) steps height state ∧
        ∃ step ∈ steps, ∃ key ∈ step.registeredKeys, ¬ InOneMap state.frame key := by
  obtain ⟨steps, height, state, run, active, canceled, step, member, registers⟩ :=
    earlyChain_plays [early 1 [registering], early 2 [], early 3 [], early 4 [], early 5 [], early 6 [canceling]]
      (fun steps _ state => ((state.frame.list .activity).lookup (key 5)).isSome = true ∧
        ((state.frame.list .canceled).lookup (key 5)).isSome = true ∧
        ∃ step ∈ steps, key 5 ∈ step.registeredKeys)
      (by decide +kernel)
  exact ⟨steps, height, state, run, step, member, _, registers, not_inOneMap (by decide) active canceled⟩

def isSignedUnder (prim : Primitives) (key : Bytes) (info : ProducerInfo) : Bool :=
  match prim.decodePoint key with
  | .ok point => (prim.verifySignature point info.serializeUnsigned info.signature).isOk
  | .error _ => false

/-- Every producer has the owner key that it is stored under. -/
def OwnKeys (frame : StateKeyFrame) : Prop :=
  ∀ key position, Located frame key position → frame.ownerAt position = some key

namespace StateStep

/-- A producer gets a new info only from an update that is signed under the key that it is
stored under. -/
def UpdatesSigned (step : StateStep) : Prop :=
  ∀ key position, Located step.before.frame key position →
    step.after.frame.infoAt position ≠ step.before.frame.infoAt position →
    ∃ info ∈ infosOf .updateProducer step.checked.transactions, step.after.frame.infoAt position = some info ∧
        isSignedUnder step.chain.prim key info = true

/-- The block keeps the owner keys apart from the node keys of others, and its updates name
owner keys. -/
def KeepsKeysApart (step : StateStep) : Prop :=
  step.before.frame.KeysApart step.checked.transactions

instance (step : StateStep) : Decidable step.KeepsKeysApart :=
  inferInstanceAs (Decidable (StateKeyFrame.KeysApart _ _))

end StateStep

variable {prim : Primitives} {params : Params} {height : UInt32} {state : State}
  {steps : List StateStep} {step : StateStep}

theorem AcceptedTx.update_signed {chain : BlockChain} {tx checkedTx : Transaction}
    (accepted : AcceptedTx chain height tx checkedTx)
    (isUpdate : checkedTx.txType = .updateProducer) {info : ProducerInfo}
    (payload : checkedTx.payload = .producerInfo info) : isSignedUnder chain.prim info.ownerPublicKey info = true := by
  obtain ⟨references, verdict, typed, sameType, samePayload, _⟩ := accepted.typed
  rw [sameType] at isUpdate
  rw [samePayload] at payload
  simp only [BlockChain.checkType, isUpdate, bind_eq_ok, exists_unit, withCode_eq_ok,
    BlockChain.checkUpdateProducerTransaction, payload, checkPayloadSignature, mapError_eq_ok] at typed
  obtain ⟨⟨_, _, _, ⟨point, decoded, verified⟩, _⟩, _⟩ := typed
  simp [isSignedUnder, decoded, verified, Except.isOk, Except.toBool]

theorem StateStep.Extends.settled (next : step.Extends prim params height state)
    (idle : state.history.Idle) (settled : state.frame.Settled) (apart : step.KeepsKeysApart) :
    step.after.history.Idle ∧ step.after.frame.Settled ∧ step.UpdatesSigned := by
  obtain rfl := next.before
  have accepted := next.accepted
  obtain ⟨_, idle', ran⟩ := next.ran idle
  have fits := next.fits settled.homed
  refine ⟨idle', ?_, fun key position located changed => ?_⟩
  · rw [ran]
    exact (block_settled step.funcs step.before.params step.checked.height step.confirm settled fits apart).1
  · rw [ran] at changed ⊢
    rcases block_infos step.funcs step.before.params step.checked.height
      step.confirm settled fits apart located with kept | ⟨info, updates, rfl, written⟩
    · exact absurd kept changed
    · obtain ⟨tx, member, isUpdate, payload⟩ := mem_infosOf.1 updates
      obtain ⟨original, _, passed⟩ := accepted.checkedTx member (by simp [isUpdate])
      exact ⟨info, updates, written, passed.update_signed isUpdate payload⟩

theorem StateRun.settled (run : StateRun prim params 0 (State.initial params) steps height state)
    (apart : ∀ step ∈ steps, step.KeepsKeysApart) :
    state.history.Idle ∧ state.frame.Settled ∧ ∀ step ∈ steps, step.UpdatesSigned := by
  induction run with
  | nil => exact ⟨⟨rfl, rfl, rfl⟩, initial_settled params, by simp⟩
  | snoc _ next ih =>
    obtain ⟨idle, settled, signed⟩ := ih fun step member =>
      apart step (List.mem_append_left _ member)
    obtain ⟨idle', settled', signed'⟩ := next.settled idle settled (apart _ (by simp))
    refine ⟨idle', settled', fun other member => ?_⟩
    rcases List.mem_append.1 member with earlier | now
    · exact signed other earlier
    · exact List.mem_singleton.1 now ▸ signed'

/-- In a run whose blocks keep the keys apart, producers have the owner keys that they are
stored under, and only these sign new infos. -/
theorem producers_ownedByKeys (run : StateRun prim params 0 (State.initial params) steps height state)
    (apart : ∀ step ∈ steps, step.KeepsKeysApart) : OwnKeys state.frame ∧ ∀ step ∈ steps, step.UpdatesSigned := by
  obtain ⟨_, settled, signed⟩ := run.settled apart
  refine ⟨fun key position located => ?_, signed⟩
  obtain ⟨producer, cell, rfl⟩ := settled.homed.cell key position located
  simp [ownerAt, face, cell]

namespace SmallChain

/-- An update that is signed with a key and names it as the owner key. -/
def updatingAs (last : UInt8) : Transaction :=
  spendGenesis 1 .updateProducer (.producerInfo { producerInfo with
    ownerPublicKey := key last
    url := [66]
    signature := sign (key last) }) [output (owner 5) 0] [signedBy 5]

theorem updatedByOwner_ownedByKeys : ∃ steps height state,
      StateRun primitives earlyParams 0 (State.initial earlyParams) steps height state ∧
        (∃ step ∈ steps, infosOf .updateProducer step.checked.transactions ≠ []) ∧
        OwnKeys state.frame ∧ ∀ step ∈ steps, step.UpdatesSigned := by
  obtain ⟨steps, height, state, run, apart, updates⟩ := earlyChain_plays
    [early 1 [registering], early 2 [updatingAs 5]] (fun steps _ _ => (∀ step ∈ steps, step.KeepsKeysApart) ∧
      ∃ step ∈ steps, infosOf .updateProducer step.checked.transactions ≠ [])
    (by decide +kernel)
  exact ⟨steps, height, state, run, updates, producers_ownedByKeys run apart⟩

/-- The holder of the node key takes the producer over. -/
theorem updatedByNode_notOwned : ∃ steps height state,
      StateRun primitives earlyParams 0 (State.initial earlyParams) steps height state ∧
        ¬ OwnKeys state.frame ∧ ∃ step ∈ steps, ¬ step.UpdatesSigned := by
  obtain ⟨steps, height, state, run, here, owner, step, member, there, changed, unsigned⟩ :=
    earlyChain_plays [early 1 [registering], early 2 [updatingAs 6]]
      (fun steps _ state => (state.frame.list .pending).lookup (key 5) = some 0 ∧
        state.frame.ownerAt 0 = some (key 6) ∧
        ∃ step ∈ steps, (step.before.frame.list .pending).lookup (key 5) = some 0 ∧
          step.after.frame.infoAt 0 ≠ step.before.frame.infoAt 0 ∧
          ∀ info ∈ infosOf .updateProducer step.checked.transactions,
            isSignedUnder step.chain.prim (key 5) info = false)
      (by decide +kernel)
  refine ⟨steps, height, state, run, fun own => ?_, step, member, fun signed => ?_⟩
  · have kept := own (key 5) 0 ⟨.pending, here⟩
    rw [owner] at kept
    exact absurd kept (by decide)
  · obtain ⟨info, updates, _, accepted⟩ := signed (key 5) 0 ⟨.pending, there⟩ changed
    rw [unsigned info updates] at accepted
    cases accepted

end SmallChain

end Elastos.Blockchain
