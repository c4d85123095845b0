import Elastos.Cr.TreasuryActions

/-! The committee refines its treasury: every block it processes is a step of the
abstract model. -/
set_option autoImplicit false
namespace Elastos.Cr
open Go Common Config Elastos.Types Utils Outcome List Function Committee

section Manager

theorem close_simulates (hash : Uint256) (status : ProposalStatus) {change : Change Frame} (execute : ∀ frame : Frame,
      change.execute frame = frame.updateProposal hash (ProposalState.close status)) :
    Simulates [change] [.fund hash (.settle status)] := by
  refine .single fun frame => ?_
  rw [execute]
  exact treasury_updateProposal frame hash rfl fun _ => rfl

theorem updateProposal_settles (params : Params) (height : UInt32) (circulation : Fixed64)
    (inElectionPeriod : Bool) (entry : Uint256 × ProposalState) :
    ∃ round : Treasury.Round, round.hash = entry.1 ∧ round.fund = entry.2.fund ∧
      Treasury.Settles round.fund round.action round.freed ∧ round.amount =
        (updateProposal params height circulation inElectionPeriod entry).2 ∧
      Simulates (updateProposal params height circulation inElectionPeriod entry).1 round.actions := by
  have stays : ∃ round : Treasury.Round, round.hash = entry.1 ∧
      round.fund = entry.2.fund ∧ Treasury.Settles round.fund round.action round.freed ∧
      round.amount = 0 ∧ Simulates [] round.actions :=
    ⟨⟨_, _, none, _⟩, rfl, rfl, .stay, rfl, fun _ => rfl⟩
  unfold updateProposal
  cases status : entry.2.status with
  | registered =>
    dsimp only
    split
    · exact ⟨⟨_, _, _, _⟩, rfl, rfl, .cancel (.inl status) (.inr (.inr rfl)), rfl,
        close_simulates entry.1 .aborted fun _ => rfl⟩
    split
    · unfold transferRegisteredState
      split
      · refine ⟨⟨_, _, _, _⟩, rfl, rfl, .councilAgrees status, rfl, .single fun frame => ?_⟩
        exact treasury_updateProposal frame entry.1 rfl fun _ => rfl
      · exact ⟨⟨_, _, _, _⟩, rfl, rfl, .cancel (.inl status) (.inl rfl), rfl,
          close_simulates entry.1 .crCanceled fun _ => rfl⟩
    · exact stays
  | crAgreed =>
    dsimp only
    split
    · exact ⟨⟨_, _, _, _⟩, rfl, rfl, .cancel (.inr status) (.inr (.inr rfl)), rfl,
        close_simulates entry.1 .aborted fun _ => rfl⟩
    split
    · unfold transferCRAgreedState
      split
      · exact ⟨⟨_, _, _, _⟩, rfl, rfl, .cancel (.inr status) (.inr (.inl rfl)), rfl,
          close_simulates entry.1 .voterCanceled fun _ => rfl⟩
      refine ⟨⟨_, _, _, _⟩, rfl, rfl, .votersAgree status, rfl, .single fun frame => ?_⟩
      refine treasury_updateProposal frame entry.1 rfl fun proposal => ?_
      rw [release_fund]
      rfl
    · exact stays
  | _ => exact stays

theorem lists_iterate (runtime : Runtime) (frame : Frame) :
    frame.treasury.Lists ((runtime.iterate (GoMap.pairs frame.proposals)).map fun entry =>
      (entry.1, entry.2.fund)) := by
  have perm := runtime.iterate_perm (GoMap.pairs frame.proposals)
  constructor
  · rw [map_map]
    exact (perm.map Prod.fst).nodup_iff.2 (GoMap.pairs_keys_nodup _)
  · intro hash fund
    simp only [mem_map, Prod.mk.injEq, Prod.exists, perm.mem_iff,
      GoMap.mem_pairs_iff, treasury_funds, Option.map_eq_some_iff, Frame.getProposal]
    constructor
    · rintro ⟨_, proposal, found, rfl, rfl⟩
      exact ⟨proposal, found, rfl⟩
    · rintro ⟨proposal, found, rfl⟩
      exact ⟨hash, proposal, found, rfl, rfl⟩

theorem updateProposals_settled (funcs : CommitteeFuncs) (frame : Frame) (height : UInt32)
    (inElectionPeriod : Bool) : ∃ rounds, frame.treasury.SettledBy rounds
      (executeAll ((updateProposals funcs frame height inElectionPeriod).1 ++
        [subUsedAmount (updateProposals funcs frame height inElectionPeriod).2]) frame).treasury := by
  choose roundOf hash fund settles amount simulates using
    updateProposal_settles funcs.params height frame.circulationAmount inElectionPeriod
  let entries := funcs.runtime.iterate (GoMap.pairs frame.proposals)
  have lists := lists_iterate funcs.runtime frame
  refine ⟨entries.map roundOf, ?_, ?_, ?_⟩
  · simpa [map_map, comp_def, hash] using lists.nodup
  · intro round member
    obtain ⟨entry, entryMember, rfl⟩ := mem_map.1 member
    refine ⟨?_, settles entry⟩
    rw [hash, fund]
    exact (lists.mem_iff _ _).1 (mem_map.2 ⟨entry, entryMember, rfl⟩)
  · have whole : Simulates (updateProposals funcs frame height inElectionPeriod).1
        ((entries.map roundOf).flatMap Treasury.Round.actions) := by
      simp only [updateProposals, flatMap_map]
      exact .flatMap fun entry _ => simulates entry
    have freed : (updateProposals funcs frame height inElectionPeriod).2 =
        wrappedSum ((entries.map roundOf).map Treasury.Round.amount) := by
      simp only [updateProposals, map_map, comp_def, amount]
      rfl
    rw [whole.append (subUsedAmount_simulates _) frame, Treasury.run_append, freed]
    rfl

end Manager

section Block
variable {funcs : CommitteeFuncs} {committee next : Committee} {height : UInt32} {block : Block}

/-- The changes of the transactions wait together, each read off a frame with the
treasury before the block. -/
theorem processTransactions_waits {txs : List Transaction}
    {waiting : HistoryName → Changes} (waits : committee.Waits height waiting)
    (processed : committee.processTransactions funcs txs height = .ok next) : ∃ changes actions,
      next.Waits height (update waiting .state (waiting .state ++ changes)) ∧
      next.frame.treasury = committee.frame.treasury ∧
      List.Forall₂ (Treasury.Acts funcs.prim committee.frame.treasury) txs actions ∧
      Simulates changes actions.flatten := by
  induction txs generalizing committee waiting with
  | nil =>
    cases processed
    exact ⟨[], [], by simpa using waits, rfl, .nil, fun _ => rfl⟩
  | cons tx rest ih =>
    simp only [processTransactions, foldlM_cons, bind_eq_ok] at processed
    obtain ⟨middle, ⟨⟨frame, changes⟩, taken, appended⟩, processed⟩ := processed
    obtain ⟨sameTreasury, actions, acts, simulates⟩ := processTransaction_acts taken
    obtain ⟨middleWaits, middleFrame⟩ := (waits.withFrame frame).append appended
    obtain ⟨others, restActions, nextWaits, nextTreasury, restActs, restSimulates⟩ := ih middleWaits processed
    have middleTreasury : middle.frame.treasury = committee.frame.treasury := by
      rw [middleFrame]
      exact sameTreasury
    rw [middleTreasury] at nextTreasury restActs
    refine ⟨changes ++ others, actions :: restActions, ?_, nextTreasury,
      .cons acts restActs, by simpa using simulates.append restSimulates⟩
    simpa using nextWaits

theorem recordOutputs_keeps (block : Block) : AllKeep (recordCRCRelatedAddressOutputs funcs block) := by
  refine forall_mem_flatMap.2 fun _ _ => forall_mem_flatMap.2 fun _ _ => ?_
  unfold recordOutput
  split
  · exact keeps_singleton fun _ => rfl
  split
  · exact keeps_singleton fun _ => rfl
  · exact keeps_nil

theorem recordLastVotingStartHeight_keeps (params : Params) (frame : Frame) (height : UInt32) :
    Simulates (recordLastVotingStartHeight params frame height) [] := by
  unfold recordLastVotingStartHeight
  split
  · exact fun _ => rfl
  · split
    · exact fun _ => rfl
    · exact fun _ => rfl

theorem updateVotingCandidatesState_keeps (params : Params) (frame : Frame) (height : UInt32) :
    Simulates (updateVotingCandidatesState params frame height) [] := by
  unfold updateVotingCandidatesState
  split
  · exact .of_keeps (forall_mem_map.2 fun _ _ _ => rfl)
  · exact fun _ => rfl

theorem updateCandidatesDepositCoin_keeps {params : Params} {frame : Frame} :
    Yields AllKeep (updateCandidatesDepositCoin params frame height) :=
  .mapM fun _ => .after fun _ => .ok fun _ => rfl

theorem idle (name : HistoryName) : update (fun _ : HistoryName => ([] : Changes)) name [] = fun _ => [] :=
  update_eq_self _ _

theorem processState_acts (nonzero : block.height ≠ 0) (waits : committee.Waits block.height fun _ => [])
    (processed : committee.processState funcs block = .ok next) : next.Waits block.height (fun _ => []) ∧
      ∃ actions, List.Forall₂ (Treasury.Acts funcs.prim committee.frame.treasury)
          block.transactions actions ∧ next.frame.treasury = committee.frame.treasury.run actions.flatten := by
  simp only [processState, bind_eq_ok] at processed
  obtain ⟨first, firstOk, second, secondOk, third, thirdOk, deposits, depositsOk, recorded⟩ := processed
  obtain ⟨firstWaits, firstFrame⟩ := waits.append firstOk
  obtain ⟨changes, actions, secondWaits, secondTreasury, acts, simulates⟩ :=
    processTransactions_waits firstWaits secondOk
  obtain ⟨thirdWaits, thirdFrame⟩ := secondWaits.append thirdOk
  obtain ⟨nextWaits, nextFrame⟩ := thirdWaits.record nonzero recorded
  rw [firstFrame] at acts secondTreasury
  refine ⟨?_, actions, acts, ?_⟩
  · simpa [idle] using nextWaits
  · simp only [update_self, nil_append] at nextFrame
    rw [nextFrame, thirdFrame, ← secondTreasury]
    have whole := (((recordLastVotingStartHeight_keeps funcs.params committee.frame
      block.height).keeps_append simulates).append_keeps (updateVotingCandidatesState_keeps funcs.params second.frame
          block.height)).append_keeps (.of_keeps (updateCandidatesDepositCoin_keeps _ depositsOk))
    exact whole second.frame

section Election
variable {params : Params} {frame opened : Frame} {changes : Changes} {changed : Bool}

theorem endMembership_keeps {memberState : MemberState} {entries : List (Nat × CRMember)} :
    Yields AllKeep (entries.mapM (endMembership params frame height memberState)) :=
  .mapM fun _ => .after fun _ => .after fun _ => .ok fun _ => rfl

theorem tryStartVotingPeriod_keeps : Yields (fun result => AllKeep result.2)
      (tryStartVotingPeriod params frame height) := by
  unfold tryStartVotingPeriod
  split
  · exact .ok keeps_nil
  refine endMembership_keeps.bind fun transferred keeps => ?_
  dsimp only
  split
  · refine endMembership_keeps.bind fun terminated ends =>
      .ok (forall_mem_append.2 ⟨keeps, forall_mem_cons.2 ⟨fun current => ?_, ends⟩⟩)
    dsimp only [endElectionPeriod]
    split <;> rfl
  · exact .ok keeps

theorem processCurrentMembersDepositInfo_keeps :
    Yields AllKeep (processCurrentMembersDepositInfo params frame height) :=
  .mapM fun _ => .after fun _ => .after fun _ => .ok fun _ => rfl

theorem installMembers_treasury (members : List (Uint168 × CRMember)) (current : Frame) :
    (installMembers members current).treasury = current.treasury := by
  have fold (start : Frame) : (members.foldl (fun installed entry => { installed with
      members := installed.members.insert entry.1 installed.memberCells.length
      memberCells := installed.memberCells ++ [entry.2] }) start).treasury = start.treasury := by
    induction members generalizing start with
    | nil => rfl
    | cons entry rest ih => exact ih _
  exact fold _

theorem processCurrentMembersHistory_keeps (params : Params) (frame : Frame) (candidates : List Candidate) :
    AllKeep (processCurrentMembersHistory params frame candidates) := by
  refine forall_mem_append.2 ⟨?_, keeps_singleton fun current => installMembers_treasury _ current⟩
  split
  · exact keeps_nil
  refine forall_mem_append.2 ⟨?_, forall_mem_map.2 fun _ _ _ => rfl⟩
  split
  · exact keeps_nil
  · exact keeps_singleton fun _ => rfl

theorem processCurrentCandidates_keeps {candidates : List Candidate} :
    Yields (Keeping frame) (processCurrentCandidates params frame height candidates) := by
  have released {entries : List (Nat × Candidate)} :
      Yields AllKeep (entries.mapM fun entry => releaseDeposit frame entry.2.info.cid) :=
    .mapM fun _ => .after fun _ => .ok fun _ => rfl
  refine released.bind fun _ keeps => .ok ⟨?_, forall_mem_append.2 ⟨keeps, keeps_singleton fun _ => rfl⟩⟩
  dsimp only
  split <;> rfl

/-- A new session starts when there were enough candidates. -/
theorem changeCommitteeMembers_spec
    (changedOk : changeCommitteeMembers funcs frame height = .ok (changed, opened, changes)) :
    opened.treasury = frame.treasury ∧ ∀ current : Frame, (executeAll changes current).treasury =
        { current.treasury with
          session := if changed then current.treasury.session + 1
            else current.treasury.session } := by
  simp only [changeCommitteeMembers, bind_eq_ok] at changedOk
  obtain ⟨deposits, depositsOk, changedOk⟩ := changedOk
  have depositsKeep : Simulates deposits [] := by
    unfold currentMembersDepositInfo at depositsOk
    split at depositsOk
    · exact .of_keeps (processCurrentMembersDepositInfo_keeps _ depositsOk)
    · cases depositsOk
      exact fun _ => rfl
  split at changedOk
  · cases changedOk
    refine ⟨rfl, fun current => ?_⟩
    rw [executeAll_append]
    exact depositsKeep current
  simp only [bind_eq_ok, Except.ok.injEq, Prod.mk.injEq] at changedOk
  obtain ⟨⟨_, left⟩, leftOk, rfl, rfl, rfl⟩ := changedOk
  obtain ⟨sameTreasury, leftKeeps⟩ := processCurrentCandidates_keeps _ leftOk
  refine ⟨sameTreasury, fun current => ?_⟩
  have before := ((depositsKeep.keeps_append (.of_keeps (processCurrentMembersHistory_keeps funcs.params frame
      (getActiveAndExistDIDCRCandidatesDesc funcs frame)))).keeps_append (.of_keeps leftKeeps)) current
  rw [executeAll_append]
  exact congrArg (fun treasury : Treasury =>
    { treasury with session := treasury.session + 1 }) before

theorem resetCRCCommitteeUsedAmount_treasury (funcs : CommitteeFuncs) (frame current : Frame)
    (height : UInt32) : (executeAll (resetCRCCommitteeUsedAmount funcs frame height) current).treasury =
      { current.treasury with
        used := wrappedSum (outstandingAmounts funcs.runtime frame) } := by
  unfold resetCRCCommitteeUsedAmount
  split <;> rfl

theorem changeCommittee_spec (changedOk : changeCommittee funcs frame height = .ok (changed, opened, changes)) :
    opened.treasury = frame.treasury ∧ ∀ current : Frame, (executeAll changes current).treasury =
        if changed then { current.treasury with
          session := current.treasury.session + 1
          used := wrappedSum (outstandingAmounts funcs.runtime frame) }
        else current.treasury := by
  simp only [changeCommittee, bind_eq_ok] at changedOk
  obtain ⟨⟨isChanged, _, memberChanges⟩, membersOk, changedOk⟩ := changedOk
  obtain ⟨sameTreasury, membersSpec⟩ := changeCommitteeMembers_spec membersOk
  have cleans : Simulates (if shouldCleanHistory funcs.params frame then [cleanHistory frame] else []) [] := by
    split
    · exact fun _ => rfl
    · exact fun _ => rfl
  cases isChanged with
  | true =>
    simp only [if_true, Except.ok.injEq, Prod.mk.injEq] at changedOk membersSpec
    obtain ⟨rfl, rfl, rfl⟩ := changedOk
    refine ⟨sameTreasury, fun current => ?_⟩
    rw [executeAll_append, executeAll_append, executeAll_append]
    refine (resetCRCCommitteeUsedAmount_treasury funcs frame _ height).trans ?_
    rw [membersSpec, cleans]
    rfl
  | false =>
    simp only [Bool.false_eq_true, if_false, Except.ok.injEq, Prod.mk.injEq] at changedOk membersSpec
    obtain ⟨rfl, rfl, rfl⟩ := changedOk
    refine ⟨sameTreasury, fun current => ?_⟩
    rw [executeAll_append, membersSpec, cleans]
    rfl

end Election

theorem tryChange_spec {changed : Bool} {earlier : Changes} (nonzero : height ≠ 0)
    (waits : committee.Waits height (update (fun _ : HistoryName => ([] : Changes)) .last earlier))
    (earlierKeeps : Simulates earlier []) (tried : committee.tryChange funcs height = .ok (changed, next)) :
    next.Waits height (fun _ => []) ∧ next.frame.treasury =
        if changed then { committee.frame.treasury with
          session := committee.frame.treasury.session + 1
          used := wrappedSum (outstandingAmounts funcs.runtime committee.frame) }
        else committee.frame.treasury := by
  have settled : update (update (fun _ : HistoryName => ([] : Changes)) .last earlier) .last [] = fun _ => [] := by
    rw [update_idem, idle]
  unfold tryChange at tried
  split at tried
  · simp only [bind_eq_ok, Except.ok.injEq, Prod.mk.injEq] at tried
    obtain ⟨⟨isChanged, opened, changes⟩, changedOk, after, recorded, rfl, rfl⟩ := tried
    obtain ⟨sameTreasury, spec⟩ := changeCommittee_spec changedOk
    obtain ⟨nextWaits, nextFrame⟩ := (waits.withFrame opened).record nonzero recorded
    rw [settled] at nextWaits
    refine ⟨nextWaits, ?_⟩
    rw [nextFrame, update_self, executeAll_append, spec, earlierKeeps, Treasury.run_nil, sameTreasury]
  · simp only [bind_eq_ok, Except.ok.injEq, Prod.mk.injEq] at tried
    obtain ⟨after, committed, rfl, rfl⟩ := tried
    obtain ⟨nextWaits, nextFrame⟩ := waits.commit nonzero committed
    rw [settled] at nextWaits
    refine ⟨nextWaits, ?_⟩
    rw [nextFrame, update_self, earlierKeeps]
    rfl

theorem recordStage_spec (nonzero : height ≠ 0) (waits : committee.Waits height fun _ => [])
    (recorded : committee.recordStage funcs height = .ok next) : next.Waits height (fun _ => []) ∧
      next.frame.treasury = { committee.frame.treasury with stage := next.frame.treasury.stage } := by
  simp only [recordStage, bind_eq_ok] at recorded
  obtain ⟨created, createdOk, recorded⟩ := recorded
  have createdKeeps : Yields AllKeep (createAppropriationTransaction funcs committee.frame height) := by
    unfold createAppropriationTransaction
    split
    · split
      · exact .single fun _ => rfl
      · exact .nothing
      · exact .nothing
      · exact .error
    · exact .nothing
  obtain ⟨nextWaits, nextFrame⟩ := waits.record nonzero recorded
  rw [idle] at nextWaits
  refine ⟨nextWaits, ?_⟩
  have before := Simulates.of_keeps (createdKeeps _ createdOk) committee.frame
  rw [nextFrame, nil_append, executeAll_append, ← Treasury.run_nil committee.frame.treasury, ← before]
  rfl

theorem processBlock_step (nonzero : block.height ≠ 0)
    (started : ¬ block.height < funcs.params.crVotingStartHeight) (ready : committee.Ready)
    (processed : committee.processBlock funcs block = .ok next) :
    next.Ready ∧ Treasury.Step funcs.prim committee.frame.treasury block.transactions next.frame.treasury := by
  simp only [processBlock, started, if_false, bind_eq_ok] at processed
  obtain ⟨first, firstOk, second, secondOk, ⟨inElectionPeriod, begun⟩, begunOk, third,
    thirdOk, fourth, fourthOk, fifth, fifthOk, ⟨changed, sixth⟩, sixthOk, processed⟩ :=
    processed
  -- The outputs, then the transactions.
  obtain ⟨firstWaits, firstFrame⟩ := (ready.waits block.height).record nonzero firstOk
  have firstTreasury : first.frame.treasury = committee.frame.treasury := by
    rw [firstFrame]
    exact Simulates.of_keeps (recordOutputs_keeps block) committee.frame
  rw [idle] at firstWaits
  obtain ⟨secondWaits, actions, acts, secondTreasury⟩ := processState_acts nonzero firstWaits secondOk
  rw [firstTreasury] at acts secondTreasury
  -- The manager runs while the changes of the election wait.
  obtain ⟨thirdWaits, thirdFrame⟩ := secondWaits.append thirdOk
  obtain ⟨fourthWaits, fourthFrame⟩ := thirdWaits.record nonzero fourthOk
  obtain ⟨rounds, settled⟩ := updateProposals_settled funcs third.frame block.height inElectionPeriod
  have managerIdle : update (update (fun _ : HistoryName => ([] : Changes)) .last ([] ++ begun)) .manager [] =
      update (fun _ => []) .last begun := by
    rw [update_comm (by decide), idle, nil_append]
  have settledFrame : third.frame.treasury.SettledBy rounds fourth.frame.treasury := by
    rw [fourthFrame]
    exact settled
  rw [thirdFrame, secondTreasury] at settledFrame
  rw [managerIdle] at fourthWaits
  obtain ⟨fifthWaits, fifthFrame⟩ := fourthWaits.append fifthOk
  rw [update_self, update_idem] at fifthWaits
  have earlierKeeps : Simulates (begun ++ [freshCirculationAmount funcs.params fourth.frame block.height]) [] := by
    exact (Simulates.of_keeps (tryStartVotingPeriod_keeps _ begunOk)).keeps_append fun _ => rfl
  obtain ⟨sixthWaits, sixthTreasury⟩ := tryChange_spec nonzero fifthWaits earlierKeeps sixthOk
  rw [fifthFrame] at sixthTreasury
  cases changed with
  | false =>
    simp only [Bool.false_eq_true, if_false, Except.ok.injEq] at processed sixthTreasury
    subst processed
    rw [sixthTreasury]
    exact ⟨sixthWaits.ready, .keep acts settledFrame⟩
  | true =>
    simp only [if_true] at processed sixthTreasury
    obtain ⟨nextWaits, nextTreasury⟩ := recordStage_spec nonzero sixthWaits processed
    refine ⟨nextWaits.ready, .change acts settledFrame ⟨?_, ?_, _, lists_iterate funcs.runtime fourth.frame, ?_⟩⟩
    · rw [nextTreasury, sixthTreasury]
    · rw [nextTreasury, sixthTreasury]
    · rw [nextTreasury, sixthTreasury, flatMap_map]
      rfl

end Block
end Elastos.Cr
