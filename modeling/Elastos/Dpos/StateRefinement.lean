import Elastos.Dpos.StateActions

/-! The handlers of the producer state append the actions of a block. -/
set_option autoImplicit false
namespace Elastos.Dpos
open Go Common Config Elastos.Types Utils Outcome StateKeyFrame List

/-- Actions wait in the history of a state, which has a given frame until then. -/
structure Waits (params : Params) (height : UInt32) (frame : StateKeyFrame) (actions : List Action)
    (state : State) : Prop where
  sameParams : state.params = params
  sameFrame : state.frame = frame
  pending : state.history.Pending height (actions.map (Action.change params height))

variable {params : Params} {height : UInt32} {state : State}

/-- The result of a handler waits with a given frame and further actions. -/
def Acts (params : Params) (height : UInt32) (state : State) (result : Outcome String State)
    (written : StateKeyFrame) (added : List Action) : Prop :=
  ∀ ⦃actions next⦄, Waits params height state.frame actions state → result = .ok next →
    Waits params height written (actions ++ added) next

/-- A handler writes to the frame and adds actions, both as functions of the frame. -/
def Adds (params : Params) (height : UInt32) (handler : State → Outcome String State)
    (write : StateKeyFrame → StateKeyFrame) (added : StateKeyFrame → List Action) : Prop :=
  ∀ ⦃state frame actions next⦄, Waits params height frame actions state → handler state = .ok next →
    Waits params height (write frame) (actions ++ added frame) next

namespace Acts
variable {result : Outcome String State} {written : StateKeyFrame} {added : List Action}

theorem nothing : Acts params height state (.ok state) state.frame [] := by
  intro _ _ waits handled
  cases handled
  simpa using waits

theorem error {fault : Fault String} : Acts params height state (.error fault) written added := by
  intro _ _ _ handled
  cases handled

theorem append (action : Action) :
    Acts params height state (state.append height (action.change params height)) state.frame [action] := by
  intro _ _ waits handled
  simp only [State.append, bind_eq_ok, Except.ok.injEq] at handled
  obtain ⟨⟨history, frame⟩, appended, rfl⟩ := handled
  obtain ⟨pending, rfl⟩ := waits.pending.append appended
  exact ⟨waits.sameParams, rfl, by simpa using pending⟩

theorem write {change : StateKeyFrame → StateKeyFrame}
    (acts : Acts params height (state.writeFrame change) result written added) :
    Acts params height state result written added :=
  fun _ _ waits => acts ⟨waits.sameParams, rfl, waits.pending⟩

end Acts

namespace Adds
variable {ι : Type} {handler first second : State → Outcome String State}
  {write write' : StateKeyFrame → StateKeyFrame} {added added' : StateKeyFrame → List Action}

theorem of (each : ∀ state, state.params = params →
      Acts params height state (handler state) (write state.frame) (added state.frame)) :
    Adds params height handler write added := by
  intro state _ _ _ waits handled
  obtain rfl := waits.sameFrame
  exact each state waits.sameParams waits handled

theorem acts (adds : Adds params height handler write added) (state : State) :
    Acts params height state (handler state) (write state.frame) (added state.frame) :=
  fun _ _ waits handled => adds waits handled

theorem nothing : Adds params height .ok id fun _ => [] := .of fun _ _ => .nothing

theorem append (action : Action) :
    Adds params height (·.append height (action.change params height)) id fun _ => [action] :=
  .of fun _ _ => .append action

theorem writes (change : StateKeyFrame → StateKeyFrame) :
    Adds params height (fun state => .ok (state.writeFrame change)) change fun _ => [] :=
  .of fun _ _ => .write (@Acts.nothing params height _)

theorem bind (firstAdds : Adds params height first write added) (secondAdds : Adds params height second write' added') :
    Adds params height (fun state => first state >>= second) (fun frame => write' (write frame))
      fun frame => added frame ++ added' (write frame) := by
  intro _ frame _ _ waits handled
  rw [bind_eq_ok] at handled
  obtain ⟨middle, firstOk, secondOk⟩ := handled
  rw [← append_assoc]
  exact secondAdds (firstAdds waits firstOk) secondOk

variable {step : State → ι → Outcome String State}

theorem foldlM {write : StateKeyFrame → ι → StateKeyFrame}
    {added : StateKeyFrame → ι → List Action}
    (each : ∀ item, Adds params height (step · item) (write · item) (added · item)) (items : List ι) :
    Adds params height (fun state => items.foldlM step state)
      (fun frame => items.foldl write frame) fun frame => collect write added frame items := by
  induction items with
  | nil => exact nothing
  | cons item items ih =>
    simp only [foldlM_cons]
    exact bind (each item) ih

theorem forEach {added : StateKeyFrame → ι → List Action}
    (each : ∀ item, Adds params height (step · item) id (added · item)) (items : List ι) :
    Adds params height (fun state => items.foldlM step state) id fun frame => items.flatMap (added frame) := by
  induction items with
  | nil => exact nothing
  | cons item items ih =>
    simp only [foldlM_cons, flatMap_cons]
    exact bind (each item) ih

end Adds

namespace State
variable (funcs : StateFuncs)

section Producers

theorem registerProducer_adds (tx : Transaction) :
    Adds params height (·.registerProducer funcs tx height)
      (·.registerWrites funcs height tx)
      fun frame => frame.registerActions funcs tx := by
  refine .of fun state _ => ?_
  simp only [registerProducer, registerWrites, registerActions]
  cases tx.payload with
  | producerInfo info =>
    dsimp only
    cases Core.publicKeyToDepositProgramHash funcs.prim info.ownerPublicKey with
    | ok programHash =>
      exact .write (.append (.enter info state.frame.producers.length programHash
        (depositsOf funcs.prim tx programHash)))
    | error _ => exact .error
  | _ => exact .error

theorem updateProducer_adds (info : ProducerInfo) :
    Adds params height (·.updateProducer info height) id
      fun frame => frame.updateActions (.producerInfo info) := by
  refine .of fun state _ => ?_
  simp only [updateProducer, existingProducer, updateActions, getProducer]
  cases state.frame.getProducerRef info.ownerPublicKey with
  | none => exact .error
  | some position =>
    dsimp only [Option.bind_some]
    cases state.frame.producer? position with
    | none => exact .error
    | some producer => exact .append (.changeInfo producer.info info)

theorem cancelProducer_adds (payload : ProcessProducer) :
    Adds params height (·.cancelProducer payload height) id
      fun frame => frame.cancelActions (.processProducer payload) := by
  refine .of fun state _ => ?_
  simp only [cancelProducer, existingProducer, cancelActions]
  cases state.frame.getProducerRef payload.ownerPublicKey with
  | none => exact .error
  | some position =>
    simp only [Option.toList_some, flatMap_singleton]
    cases state.frame.producer? position with
    | none => exact .error
    | some producer => exact .append (.cancel payload.ownerPublicKey position (producer.state = .pending))

theorem activateProducer_adds (payload : ActivateProducer) :
    Adds params height (·.activateProducer payload height) id
      fun frame => frame.requestActions (.activateProducer payload) := by
  refine .of fun state _ => ?_
  simp only [activateProducer, requestActions]
  cases state.frame.getProducerRef payload.nodePublicKey with
  | none => exact .nothing
  | some position => exact .append (.requestActivation position)

end Producers

section Votes

theorem delegations_adds (step : VoteType → State → CandidateVotes → Outcome String State)
    (action : Nat × Fixed64 → Action) {output : Output} {vote : VoteOutput} (payload : output.payload = .vote vote)
    (each : ∀ voteType state votes, step voteType state votes =
      match state.frame.getProducerRef votes.candidate with
      | none => .ok state
      | some position =>
        match voteType with
        | .delegate => state.append height ((action (position, delegateAmount output vote votes)).change params height)
        | _ => .ok state) : Adds params height (fun state => vote.contents.foldlM (fun current content =>
        content.candidateVotes.foldlM (step content.voteType) current) state) id
      fun frame => (frame.delegations output).map action := by
  have single : ∀ voteType votes, Adds params height (step voteType · votes) id fun frame =>
      if voteType = .delegate then
        (frame.getProducerRef votes.candidate).toList.map fun position =>
          action (position, delegateAmount output vote votes)
      else [] := by
    refine fun voteType votes => .of fun state _ => ?_
    simp only [each]
    cases state.frame.getProducerRef votes.candidate with
    | none => cases voteType <;> exact .nothing
    | some position =>
      cases voteType with
      | delegate => exact .append (action (position, _))
      | _ => exact .nothing
  convert Adds.forEach (fun content : VoteContent =>
    .forEach (single content.voteType) content.candidateVotes) vote.contents using 2 with frame
  simp only [delegations, payload, map_flatMap, apply_ite (List.map action), map_map, map_nil]
  rfl

variable (tx : Transaction) (output : Output)

theorem processVoteOutput_adds : Adds params height (·.processVoteOutput output height) id
      fun frame => (frame.delegations output).map fun vote => .addVotes vote.1 vote.2 := by
  refine .of fun state _ => ?_
  simp only [processVoteOutput]
  cases payload : output.payload with
  | vote vote =>
    exact (delegations_adds (fun voteType => processCandidateVotes output vote voteType height)
      (fun vote => .addVotes vote.1 vote.2) payload fun _ _ _ => rfl).acts state
  | _ => exact .error

theorem processVoteCancel_adds : Adds params height (·.processVoteCancel output height) id
      fun frame => (frame.delegations output).map fun vote =>
        .subtractVotes vote.1 vote.2 := by
  refine .of fun state _ => ?_
  simp only [processVoteCancel]
  cases payload : output.payload with
  | vote vote =>
    exact (delegations_adds (fun voteType => cancelCandidateVotes output vote voteType height)
      (fun vote => .subtractVotes vote.1 vote.2) payload fun _ _ _ => rfl).acts state
  | _ => exact .error

theorem processVote_adds (entry : OutPoint × Output) :
    Adds params height (fun state => processVote height state entry) id fun frame => frame.castActions entry := by
  refine .of fun state _ => ?_
  simp only [processVote, castActions]
  split
  · cases entry.2.payload with
    | vote vote =>
      dsimp only
      split
      · exact (Adds.bind (.append (.recordVote entry.1)) (processVoteOutput_adds entry.2)).acts state
      · exact .nothing
    | _ => exact .error
  · exact .nothing

theorem processVotes_adds : Adds params height (·.processVotes funcs tx height) id
      fun frame => frame.voteActions funcs tx := by
  refine .of fun state _ => ?_
  simp only [processVotes, voteActions]
  split
  · exact (Adds.forEach processVote_adds _).acts state
  · exact .nothing

theorem cancelVotesOf_adds (references : List (Input × Output)) (input : Input) :
    Adds params height (fun state => cancelVotesOf references height state input) id
      fun frame => frame.uncastActions references input := by
  refine .of fun state _ => ?_
  simp only [cancelVotesOf, uncastActions]
  split
  · cases references.find? fun entry => entry.1 = input with
    | some pair => exact (processVoteCancel_adds pair.2).acts state
    | none => exact .error
  · exact .nothing

theorem processCancelVotes_adds : Adds params height (·.processCancelVotes funcs tx height) id
      fun frame => frame.cancelVoteActions funcs tx := by
  refine .of fun state _ => ?_
  simp only [processCancelVotes, cancelVoteActions]
  split
  · rcases funcs.getTxReference tx with (_ | _) | references
    · exact .nothing
    · exact .error
    · exact (Adds.forEach (cancelVotesOf_adds references) _).acts state
  · exact .nothing

end Votes

section Deposits

theorem initAssetAmount_adds (position : Nat) :
    Adds params height (fun state => initAssetAmount funcs height state position) id
      fun frame => frame.assetActions funcs position := by
  refine .of fun state _ => ?_
  simp only [initAssetAmount, assetActions]
  cases state.frame.producer? position with
  | none => exact .error
  | some producer =>
    dsimp only
    rcases Core.publicKeyToDepositProgramHash funcs.prim producer.info.ownerPublicKey >>=
      funcs.getProducerDepositAmount with (_ | _) | amount
    · exact .nothing
    · exact .error
    · exact .append (.setDeposit position amount)

theorem tryInitProducerAssetAmounts_adds :
    Adds params height (·.tryInitProducerAssetAmounts funcs height) id
      fun frame => frame.initActions funcs params height := by
  refine .of fun state same => ?_
  simp only [tryInitProducerAssetAmounts, initActions, same]
  split
  · exact (Adds.forEach (initAssetAmount_adds funcs) _).acts state
  · exact .nothing

theorem addDepositOutput_adds (entry : OutPoint × Output) :
    Adds params height (fun state => addDepositOutput funcs height state entry)
      (·.depositWrites funcs entry)
      fun frame => frame.depositActions funcs entry := by
  refine .of fun state _ => ?_
  simp only [addDepositOutput, depositWrites, depositActions, depositTarget]
  split
  · cases getProducerByDepositHash funcs.runtime state.frame entry.2.programHash with
    | some position => exact (Adds.bind (.append (.addDeposit position entry.2.value)) (.writes _)).acts state
    | none => exact .nothing
  · exact .nothing

theorem processDeposit_adds (tx : Transaction) : Adds params height (·.processDeposit funcs tx height)
      (fun frame => (Cr.outputPoints funcs.prim tx).foldl (StateKeyFrame.depositWrites funcs) frame)
      fun frame => collect (StateKeyFrame.depositWrites funcs)
        (StateKeyFrame.depositActions funcs) frame (Cr.outputPoints funcs.prim tx) :=
  .foldlM (addDepositOutput_adds funcs) _

theorem returnDepositOf_adds (amount : Fixed64) (program : Program) :
    Adds params height (fun state => returnDepositOf amount height state program) id
      fun frame => frame.returnActions amount program := by
  refine .of fun state same => ?_
  simp only [returnDepositOf, returnActions, same]
  cases Crypto.pushedKey program.code with
  | error _ => exact .error
  | ok publicKey =>
    simp only [bind, Except.bind]
    cases state.frame.getProducerRef publicKey with
    | none => exact .nothing
    | some position =>
      simp only [Option.toList_some, flatMap_singleton]
      split
      · exact .append (.returnToOwner position amount)
      · exact .nothing

theorem returnDeposit_adds (tx : Transaction) : Adds params height (·.returnDeposit tx height) id
      fun frame => tx.programs.flatMap (frame.returnActions (depositInput frame tx)) :=
  .of fun state _ => (Adds.forEach (returnDepositOf_adds (depositInput state.frame tx)) _).acts state

end Deposits

section Punishments

theorem punish_adds (publicKey : Bytes) : Adds params height (fun state => punish height state publicKey) id
      fun frame => frame.punishActions publicKey := by
  refine .of fun state _ => ?_
  simp only [punish, punishActions]
  cases state.frame.nodeOwnerKeys.lookup publicKey with
  | none => exact .nothing
  | some key =>
    dsimp only
    cases state.frame.activityProducers.lookup key with
    | some position => exact .append (.punishActive key position)
    | none =>
      cases state.frame.canceledProducers.lookup key with
      | some position => exact .append (.punishCanceled key position)
      | none => exact .nothing

theorem processIllegalEvidence_adds (payload : Payload) :
    Adds params height (·.processIllegalEvidence payload height) id
      fun frame => ((illegalProducers payload).getD []).flatMap frame.punishActions := by
  refine .of fun state _ => ?_
  simp only [processIllegalEvidence]
  cases illegalProducers payload with
  | none => exact .nothing
  | some keys => exact (Adds.forEach punish_adds keys).acts state

theorem recordSpecialTx_adds (tx : Transaction) :
    Adds params height (·.recordSpecialTx funcs tx height) id
      fun _ => StateKeyFrame.specialActions funcs tx.payload := by
  refine .of fun state _ => ?_
  simp only [recordSpecialTx, specialActions]
  cases illegalDataHash funcs.prim tx.payload with
  | none => exact .nothing
  | some hash => exact .append (.recordSpecialHash hash)

theorem setEmergencyInactive_adds (nodeKey : Bytes) :
    Adds params height (fun state => setEmergencyInactive height state nodeKey) id
      fun frame => frame.emergencyActions nodeKey := by
  refine .of fun state same => ?_
  simp only [setEmergencyInactive, emergencyActions, same, map_eq_flatMap]
  cases state.frame.nodeOwnerKeys.lookup nodeKey with
  | none => exact .nothing
  | some key => exact (Adds.forEach (fun position => .append (.emergencyInactive key position)) _).acts state

theorem processEmergencyInactiveArbitrators_adds (payload : InactiveArbitrators) : Adds params height
      (·.processEmergencyInactiveArbitrators payload height) id
      fun frame => payload.arbitrators.flatMap frame.emergencyActions :=
  .forEach setEmergencyInactive_adds payload.arbitrators

theorem updateVersion_adds (tx : Transaction) : Adds params height (·.updateVersion tx height) id
      fun frame => frame.versionActions tx.payload := by
  refine .of fun state _ => ?_
  simp only [updateVersion]
  cases tx.payload with
  | updateVersion payload => exact .append (.setVersion payload.startHeight payload.endHeight _ _)
  | _ => exact .nothing

theorem countArbiter_adds (entry : Bytes × Bool) : Adds params height (fun state => countArbiter height state entry) id
      fun frame => frame.countActions entry := by
  refine .of fun state same => ?_
  simp only [countArbiter, countActions, same]
  cases state.frame.activityProducers.lookup entry.1 with
  | none => exact .nothing
  | some position =>
    simp only [Option.toList_some, flatMap_singleton]
    cases state.frame.producer? position with
    | none => exact .error
    | some producer => exact .append (.countInactivity entry.1 position entry.2 producer.inactiveCountingHeight)

theorem processConfirm_adds (confirm : Option Confirm) :
    Adds params height (·.processConfirm funcs height confirm)
      (·.confirmWrites funcs params height confirm)
      fun frame => frame.confirmActions funcs params height confirm := by
  refine .of fun state same => ?_
  cases confirm with
  | none => exact .nothing
  | some confirm =>
    simp only [processConfirm, countArbitratorsInactivity, confirmWrites, confirmActions, same]
    split
    · exact .nothing
    · exact .write ((Adds.forEach countArbiter_adds _).acts _)

end Punishments

section Blocks
variable (tx : Transaction) {confirm : Option Confirm} {block : Block}

theorem processType_adds : Adds params height (·.processType funcs tx height)
      (·.typeWrites funcs height tx)
      fun frame => frame.typeActions funcs tx := by
  refine .of fun state _ => ?_
  simp only [processType, typeWrites, typeActions]
  cases tx.txType with
  | registerProducer => exact (registerProducer_adds funcs tx).acts state
  | updateProducer =>
    cases tx.payload with
    | producerInfo info => exact (updateProducer_adds info).acts state
    | _ => exact .error
  | cancelProducer =>
    cases tx.payload with
    | processProducer payload => exact (cancelProducer_adds payload).acts state
    | _ => exact .error
  | activateProducer =>
    cases tx.payload with
    | activateProducer payload => exact (activateProducer_adds payload).acts state
    | _ => exact .error
  | transferAsset => exact (Adds.bind (processVotes_adds funcs tx) (processDeposit_adds funcs tx)).acts state
  | illegalProposalEvidence | illegalVoteEvidence | illegalBlockEvidence | illegalSidechainEvidence =>
    exact (Adds.bind (processIllegalEvidence_adds tx.payload) (recordSpecialTx_adds funcs tx)).acts state
  | inactiveArbitrators =>
    have recorded := @recordSpecialTx_adds params height funcs tx
    cases payload : tx.payload with
    | inactiveArbitrators inactive =>
      rw [payload] at recorded
      exact (Adds.bind (processEmergencyInactiveArbitrators_adds inactive) recorded).acts state
    | _ => exact .error
  | returnDepositCoin => exact (Adds.bind (returnDeposit_adds tx) (processDeposit_adds funcs tx)).acts state
  | updateVersion => exact (updateVersion_adds tx).acts state
  | _ => exact .nothing

theorem processTransaction_adds : Adds params height (fun state => processTransaction funcs height state tx)
      (·.typeWrites funcs height tx)
      fun frame => frame.txActions funcs height tx :=
  Adds.bind (processType_adds funcs tx) (processCancelVotes_adds funcs tx)

theorem activateDue_adds (source : ProducerList) (due : Producer → Bool) (entry : Bytes × Nat) : Adds params height
      (fun state => activateDue due (activateFrom source source.left) height state entry) id
      fun frame => frame.dueActions source due entry := by
  refine .of fun state _ => ?_
  simp only [activateDue, dueActions]
  cases state.frame.producer? entry.2 with
  | none => exact .error
  | some producer =>
    dsimp only [Option.any_some]
    split
    · exact .append (.activate source entry.1 entry.2)
    · exact .nothing

theorem activateProducers_adds : Adds params height (·.activateProducers funcs height) id
      fun frame => frame.activations funcs params height := by
  intro _ frame _ _ waits handled
  simp only [activateProducers, bind_eq_ok, waits.sameFrame] at handled
  obtain ⟨second, firstOk, third, secondOk, handled⟩ := handled
  have first := Adds.forEach (activateDue_adds .pending _) _ waits firstOk
  simp only [id, first.sameFrame] at secondOk
  have second := Adds.forEach (activateDue_adds .inactive _) _ first secondOk
  simp only [id, second.sameFrame, second.sameParams] at handled
  simp only [activations, ← append_assoc]
  split at handled
  case isTrue due => exact if_pos due ▸ Adds.forEach (activateDue_adds .illegal _) _ second handled
  case isFalse early => exact if_neg early ▸ Adds.nothing second handled

theorem processTransactions_adds (txs : List Transaction) :
    Adds params height (·.processTransactions funcs txs height)
      (·.txsWrites funcs height txs)
      fun frame => frame.txsActions funcs params height txs :=
  .bind (.foldlM (processTransaction_adds funcs) txs) (activateProducers_adds funcs)

theorem processVoteStatisticsBlock_adds (block : Block) :
    Adds params block.height (·.processVoteStatisticsBlock funcs block)
      (·.repeatWrites funcs params block.height block.transactions)
      fun frame => frame.repeatActions funcs params block.height block.transactions := by
  refine .of fun state same => ?_
  simp only [processVoteStatisticsBlock, repeatWrites, repeatActions, same]
  split
  · exact (processTransactions_adds funcs block.transactions).acts state
  · exact .nothing

variable {next : State}

theorem processBlock_waits (idle : state.history.Idle)
    (processed : state.processBlock funcs block confirm = .ok next) :
    ∃ counted, counted.commit block.height = .ok next ∧ Waits state.params block.height
        (state.frame.blockWrites funcs state.params block.height block.transactions confirm)
        (state.frame.blockActions funcs state.params block.height block.transactions confirm)
        counted := by
  simp only [processBlock, bind_eq_ok] at processed
  obtain ⟨initialized, initOk, processed, processOk, repeated, repeatOk, counted, countOk, committed⟩ := processed
  have start : Waits state.params block.height state.frame [] state :=
    ⟨rfl, rfl, by simpa using idle.pending block.height⟩
  have counts := processConfirm_adds funcs confirm
    (processVoteStatisticsBlock_adds funcs block (processTransactions_adds funcs block.transactions
        (tryInitProducerAssetAmounts_adds funcs start initOk) processOk) repeatOk) countOk
  exact ⟨counted, committed, counts⟩

section
variable (idle : state.history.Idle) (nonzero : block.height ≠ 0)
  (processed : state.processBlock funcs block confirm = .ok next)
include idle nonzero processed

theorem processBlock_spec :
    next.params = state.params ∧ next.history.Idle ∧ next.frame = executeAll
        ((state.frame.blockActions funcs state.params block.height block.transactions
          confirm).map (Action.change state.params block.height))
        (state.frame.blockWrites funcs state.params block.height block.transactions confirm) := by
  obtain ⟨counted, committed, waits⟩ := processBlock_waits funcs idle processed
  simp only [State.commit, bind_eq_ok, Except.ok.injEq] at committed
  obtain ⟨⟨history, frame⟩, committed, rfl⟩ := committed
  obtain ⟨ran, idleAfter⟩ := waits.pending.commit committed
  exact ⟨waits.sameParams, idleAfter nonzero, by rw [← waits.sameFrame]; exact ran⟩

end

end Blocks
end State
end Elastos.Dpos
