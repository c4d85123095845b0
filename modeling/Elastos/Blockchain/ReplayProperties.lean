import Elastos.Blockchain.OwnershipProperties
import Elastos.Dpos.Standing

/-! Signed payloads of producers that come again. They are used up by the block that brings them
first, unless something between the two blocks undoes what it has done. -/
set_option autoImplicit false
namespace Elastos.Blockchain
open Go Common Config Crypto Elastos.Types Dpos Utils Outcome StateKeyFrame List

inductive Authorization where
  | register (info : ProducerInfo)
  | update (info : ProducerInfo)
  | activate (payload : ActivateProducer)

def authorizationOf (tx : Transaction) : Option Authorization :=
  match tx.txType, tx.payload with
  | .registerProducer, .producerInfo info => some (.register info)
  | .updateProducer, .producerInfo info => some (.update info)
  | .activateProducer, .activateProducer payload => some (.activate payload)
  | _, _ => none

theorem serializeUnsigned_inj {info other : ProducerInfo} (small : info.serializeUnsigned.length < 2 ^ 64)
    (otherSmall : other.serializeUnsigned.length < 2 ^ 64) (same : info.serializeUnsigned = other.serializeUnsigned)
    (signature : info.signature = other.signature) : info = other := by
  simp only [ProducerInfo.serializeUnsigned, length_append, writeVarBytes] at small otherSmall
  simp only [ProducerInfo.serializeUnsigned, append_assoc] at same
  obtain ⟨owner, same⟩ := writeVarBytes_append_inj (by omega) (by omega) same
  obtain ⟨node, same⟩ := writeVarBytes_append_inj (by omega) (by omega) same
  obtain ⟨nickName, same⟩ := writeVarBytes_append_inj (by omega) (by omega) same
  obtain ⟨url, same⟩ := writeVarBytes_append_inj (by omega) (by omega) same
  obtain ⟨location, same⟩ := append_inj same (by simp [writeUint64, littleEndian_length])
  rw [← append_nil (writeVarBytes info.netAddress), ← append_nil (writeVarBytes other.netAddress)] at same
  obtain ⟨netAddress, -⟩ := writeVarBytes_append_inj (by omega) (by omega) same
  have sameLocation : info.location = other.location :=
    UInt64.toNat_inj.1 (littleEndian_injOn info.location.toNat_lt other.location.toNat_lt location)
  cases info
  cases other
  simp_all

namespace Authorization

/-- The transaction that brings the payload. -/
def From (tx : Transaction) : Authorization → Prop
  | register info => tx.txType = .registerProducer ∧ tx.payload = .producerInfo info
  | update info => tx.txType = .updateProducer ∧ tx.payload = .producerInfo info
  | activate payload => tx.txType = .activateProducer ∧ tx.payload = .activateProducer payload

def payload : Authorization → ProducerInfo ⊕ ActivateProducer
  | register info | update info => .inl info
  | activate payload => .inr payload

def signed : Authorization → Bytes × Bytes
  | register info | update info => (info.serializeUnsigned, info.signature)
  | activate payload => (payload.serializeUnsigned, payload.signature)

/-- Payloads with owner keys have different ones. -/
def Apart (signs later : Authorization) : Prop :=
  ∀ info other, signs.payload = .inl info → later.payload = .inl other → info.ownerPublicKey ≠ other.ownerPublicKey

instance : Std.Symm Apart :=
  ⟨fun _ _ apart info other brings otherBrings same => apart other info otherBrings brings same.symm⟩

theorem not_same {info : ProducerInfo} {activation : ActivateProducer} (small : info.serializeUnsigned.length < 2 ^ 64)
    (otherSmall : activation.serializeUnsigned.length < 2 ^ 64) :
    info.serializeUnsigned ≠ activation.serializeUnsigned := by
  intro same
  simp only [ProducerInfo.serializeUnsigned, length_append, writeVarBytes] at small
  simp only [ActivateProducer.serializeUnsigned, length_append, writeVarBytes] at otherSmall
  rw [ActivateProducer.serializeUnsigned, ← append_nil (writeVarBytes activation.nodePublicKey)] at same
  simp only [ProducerInfo.serializeUnsigned, append_assoc] at same
  obtain ⟨-, rest⟩ := writeVarBytes_append_inj (by omega) (by omega) same
  simp [writeVarBytes, writeLength, ne_nil_of_length_pos (writeVarUint_length_pos _)] at rest

/-- Payloads that are signed alike are the same. -/
theorem signed_inj {signs later : Authorization} (small : signs.signed.1.length < 2 ^ 64)
    (laterSmall : later.signed.1.length < 2 ^ 64) (same : signs.signed = later.signed) :
    signs.payload = later.payload := by
  obtain ⟨content, signature⟩ := Prod.mk.inj same
  cases signs with
  | register info | update info =>
    cases later with
    | register other | update other => exact congrArg Sum.inl (serializeUnsigned_inj small laterSmall content signature)
    | activate payload => exact absurd content (not_same small laterSmall)
  | activate payload =>
    cases later with
    | register other | update other => exact absurd content.symm (not_same laterSmall small)
    | activate other =>
      have key : payload.nodePublicKey = other.nodePublicKey := by
        simp only [signed, ActivateProducer.serializeUnsigned, length_append, writeVarBytes] at small laterSmall
        refine (@writeVarBytes_append_inj payload.nodePublicKey other.nodePublicKey [] [] (by omega) (by omega) ?_).1
        simpa [signed, ActivateProducer.serializeUnsigned] using content
      cases payload
      cases other
      simp_all [Authorization.payload, signed]

end Authorization

namespace StateStep

def authorizations (step : StateStep) : List Authorization :=
  step.checked.transactions.filterMap authorizationOf

/-- Of what an earlier block has brought with the same signature, the block takes only
updates, and these leave the info of the producer as it is. -/
def UsesUp (old step : StateStep) : Prop :=
  ∀ signs ∈ step.authorizations, signs.signed ∈ old.authorizations.map (·.signed) →
    ∃ info, signs = .update info ∧ ∀ position, Located step.before.frame info.ownerPublicKey position →
      step.after.frame.infoAt position = step.before.frame.infoAt position

/-- Of what the block itself brings twice with the same signature, it takes only requests of
activation, and the state is what it is without the second one. -/
def UsesUpWithin (step : StateStep) : Prop :=
  step.authorizations.Pairwise fun signs later => signs.signed = later.signed → ∃ payload, later = .activate payload ∧
    ∀ position ∈ step.before.frame.getProducerRef payload.nodePublicKey, ∀ front back,
      step.actions = front ++ .requestActivation position :: back → .requestActivation position ∈ front →
        step.after.frame =
          executeAll ((front ++ back).map (Action.change step.before.params step.checked.height)) step.writes

/-- What lies between two carriers of a payload does not bring back what the payload changes. No
block between them gives the producer another info, and from the first one on none makes the
producer that it asks to activate inactive or illegal anew. -/
def Undisturbed (old : StateStep) (between : List StateStep) (step : StateStep) : Authorization → Prop
  | .register _ => True
  | .update info => ∀ other ∈ between, ∀ newer ∈ infosOf .updateProducer other.checked.transactions,
    newer.ownerPublicKey = info.ownerPublicKey → newer = info
  | .activate payload =>
    step.before.frame.getProducerRef payload.nodePublicKey = old.before.frame.getProducerRef payload.nodePublicKey ∧
    ∀ position ∈ old.before.frame.getProducerRef payload.nodePublicKey,
      (∀ producer ∈ old.before.frame.producer? position,
        (producer.state = .inactive → old.before.frame.isInactiveProducer payload.nodePublicKey = true) ∧
        (producer.state = .illegal → old.before.frame.isIllegalProducer payload.nodePublicKey = true)) ∧
      ∀ other ∈ old :: between, ∀ action ∈ other.actions,
        ¬ action.Strikes other.before.params other.checked.height position

instance (old : StateStep) (between : List StateStep) (step : StateStep) (signs : Authorization) :
    Decidable (old.Undisturbed between step signs) := by
  cases signs <;> unfold Undisturbed <;> infer_instance

/-- What comes again from an earlier block has not been disturbed. -/
def ReplaysUndisturbed (old : StateStep) (between : List StateStep) (step : StateStep) : Prop :=
  ∀ signs ∈ step.authorizations, signs.signed ∈ old.authorizations.map (·.signed) →
    old.Undisturbed between step signs

instance (old : StateStep) (between : List StateStep) (step : StateStep) :
    Decidable (old.ReplaysUndisturbed between step) :=
  inferInstanceAs (Decidable (∀ signs ∈ _, _))

/-- Payloads that a block brings twice are not disturbed in it. -/
def RepeatsUndisturbed (step : StateStep) : Prop :=
  step.authorizations.Pairwise fun signs later => signs.signed = later.signed → step.Undisturbed [] step later

instance (step : StateStep) : Decidable step.RepeatsUndisturbed :=
  inferInstanceAs (Decidable (List.Pairwise _ _))

end StateStep

/-- Between any two blocks that bring the same signed payload, it is not disturbed. -/
def UndisturbedRun (steps : List StateStep) : Prop :=
  ∀ last < steps.length, ∀ first < last, ∀ step ∈ steps[last]?, ∀ old ∈ steps[first]?,
    old.ReplaysUndisturbed ((steps.take last).drop (first + 1)) step

instance (steps : List StateStep) : Decidable (UndisturbedRun steps) :=
  inferInstanceAs (Decidable (∀ last < _, _))

section Accepted
variable {chain : BlockChain} {block checked : Block} {height : UInt32}
  {tx checkedTx : Transaction} {signs : Authorization}

theorem authorizationOf_from (found : authorizationOf tx = some signs) : signs.From tx := by
  unfold authorizationOf at found
  split at found
  · cases found
    exact ⟨‹_›, ‹_›⟩
  · cases found
    exact ⟨‹_›, ‹_›⟩
  · cases found
    exact ⟨‹_›, ‹_›⟩
  · cases found

theorem length_le_followedBy (first second : Written) :
    first.bytes.length ≤ (first.followedBy second).bytes.length := by
  unfold Written.followedBy
  split <;> simp

theorem payload_length_le (tx : Transaction) :
    (tx.payload.serialize tx.payloadVersion).bytes.length ≤ tx.serialize.bytes.length := by
  refine le_trans ?_ (length_le_followedBy _ _)
  change _ ≤ (_ ++ (Written.followedBy _ _).bytes).length
  rw [length_append]
  exact Nat.le_add_left_of_le (length_le_followedBy _ _)

section
variable (accepted : AcceptedTx chain height tx checkedTx)
include accepted

theorem AcceptedTx.signed_small (brings : signs.From checkedTx) : signs.signed.1.length < 2 ^ 64 := by
  obtain ⟨_, _, _, _, samePayload, _⟩ := accepted.typed
  have size := accepted.sane.size
  rw [checkTransactionSize, reject_eq_ok, Transaction.getSize, maxBlockContextSize] at size
  have bound : tx.serialize.bytes.length ≤ 8000000 := by
    split at size <;> omega
  have fits := payload_length_le tx
  rw [← samePayload] at fits
  cases signs with
  | register info | update info | activate payload =>
    rw [brings.2] at fits
    simp only [Payload.serialize, Written.done, length_append] at fits
    simp only [Authorization.signed]
    omega

theorem AcceptedTx.activates {payload : ActivateProducer} (brings : (Authorization.activate payload).From checkedTx) :
    ∃ position producer, chain.state.getProducerRef payload.nodePublicKey = some position ∧
      chain.state.producer? position = some producer ∧
      (producer.state = .inactive ∨
        chain.chainParams.enableActivateIllegalHeight ≤ height ∧ producer.state = .illegal) ∧
      ¬ (producer.activateRequestHeight < height ∧ height - producer.activateRequestHeight ≤ Cr.activateDuration) := by
  obtain ⟨references, verdict, typed, sameType, samePayload, _⟩ := accepted.typed
  obtain ⟨isActivation, found⟩ := brings
  rw [sameType] at isActivation
  rw [samePayload] at found
  simp only [BlockChain.checkType, isActivation, bind_eq_ok, exists_unit, withCode_eq_ok,
    BlockChain.checkActivateProducerTransaction, BlockChain.checkActivateProducer, found,
    ofOption_eq_ok, require_eq_ok, reject_eq_ok, Except.ok.injEq] at typed
  obtain ⟨⟨producer, ⟨_, _, known, _, rfl⟩, able, waits, _⟩, _⟩ := typed
  obtain ⟨position, reached, cell⟩ := Option.bind_eq_some_iff.1 known
  exact ⟨position, _, reached, cell, able, waits⟩

end

theorem addTransaction_keeps {seen next : Duplicates}
    (added : seen.addTransaction tx = .ok next) {key : Bytes} (known : key ∈ seen.producers) :
    key ∈ next.producers := by
  unfold Duplicates.addTransaction at added
  split at added
  case h_1 withdraw _ _ =>
    have kept := foldlM_invariant (fun (before : Duplicates) hash _ after
        (present : key ∈ before.producers) passed => by
      simp only [Duplicates.addSideTx, bind_eq_ok, exists_unit, Except.ok.injEq] at passed
      exact passed.2 ▸ present) known added
    exact kept
  all_goals
    simp only [Duplicates.addProducer, Duplicates.addProducerNode, Duplicates.addCR, bind_eq_ok,
      exists_unit, Except.ok.injEq, fail_ne_ok, crash_ne_ok] at added
  all_goals grind

theorem addTransaction_owner {seen next : Duplicates}
    (added : seen.addTransaction tx = .ok next) (brings : signs.From tx) {info : ProducerInfo}
    (isInfo : signs.payload = .inl info) :
    info.ownerPublicKey ∉ seen.producers ∧ info.ownerPublicKey ∈ next.producers := by
  cases signs with
  | register | update =>
    cases isInfo
    simp only [Duplicates.addTransaction, brings.1, brings.2, Duplicates.addProducer,
      Duplicates.addProducerNode, bind_eq_ok, exists_unit, reject_eq_ok, Except.ok.injEq] at added
    obtain ⟨_, ⟨absent, rfl⟩, _, rfl⟩ := added
    exact ⟨absent, mem_cons_self⟩
  | activate payload => cases isInfo

/-- A block registers or updates under a key at most once. -/
theorem addTransactions_owners {txs : List Transaction} {seen next : Duplicates}
    (added : txs.foldlM Duplicates.addTransaction seen = .ok next) :
    (txs.filterMap authorizationOf).Pairwise Authorization.Apart ∧
      ∀ signs ∈ txs.filterMap authorizationOf, ∀ info, signs.payload = .inl info →
        info.ownerPublicKey ∉ seen.producers := by
  induction txs generalizing seen with
  | nil => simp
  | cons tx txs ih =>
    rw [foldlM_cons, bind_eq_ok] at added
    obtain ⟨middle, first, others⟩ := added
    obtain ⟨apart, absent⟩ := ih others
    have later : ∀ signs ∈ txs.filterMap authorizationOf, ∀ info, signs.payload = .inl info →
        info.ownerPublicKey ∉ seen.producers :=
      fun signs member info isInfo known => absent signs member info isInfo (addTransaction_keeps first known)
    rw [filterMap_cons]
    split
    · exact ⟨apart, later⟩
    rename_i signs found
    have brings := authorizationOf_from found
    refine ⟨pairwise_cons.2 ⟨fun other member info newer isInfo otherInfo same => ?_, apart⟩,
      forall_mem_cons.2 ⟨fun info isInfo => (addTransaction_owner first brings isInfo).1, later⟩⟩
    exact absent other member newer otherInfo (same ▸ (addTransaction_owner first brings isInfo).2)

theorem AcceptedBlock.authorizations (accepted : AcceptedBlock chain block checked) :
    checked.transactions.filterMap authorizationOf = block.transactions.filterMap authorizationOf := by
  obtain ⟨coinbase, rest, checkedRest, shape, checkedShape, _, _, all⟩ := accepted.transactions
  have same : checkedRest.filterMap authorizationOf = rest.filterMap authorizationOf := by
    clear shape checkedShape
    induction all with
    | nil => rfl
    | cons head _ ih =>
      obtain ⟨_, _, _, sameType, samePayload, _⟩ := head.typed
      simp only [filterMap_cons, ih, authorizationOf, sameType, samePayload]
  rw [shape, checkedShape, filterMap_cons, filterMap_cons, same]

end Accepted

variable {prim : Primitives} {params : Params} {height start request : UInt32} {state initial : State}
  {steps front back between : List StateStep} {step old : StateStep} {signs earlier : Authorization}
  {info : ProducerInfo} {payload : ActivateProducer} {key : Bytes} {position : Nat}

section
variable (accepted : AcceptedBlock step.chain step.block step.checked)
include accepted

theorem AcceptedBlock.signer (member : signs ∈ step.authorizations) : ∃ tx ∈ step.checked.transactions, signs.From tx ∧
      ∃ original, AcceptedTx step.chain step.block.height original tx := by
  obtain ⟨tx, included, found⟩ := mem_filterMap.1 member
  have brings := authorizationOf_from found
  obtain ⟨original, _, passed⟩ := accepted.checkedTx included fun isCoinbase => by
    cases signs with
    | register | update | activate => exact absurd (isCoinbase.symm.trans brings.1) (by decide)
  exact ⟨tx, included, brings, original, passed⟩

theorem AcceptedBlock.samePayload (acceptedOld : AcceptedBlock old.chain old.block old.checked)
    (member : signs ∈ step.authorizations) (earlierMember : earlier ∈ old.authorizations)
    (same : earlier.signed = signs.signed) : earlier.payload = signs.payload := by
  obtain ⟨_, _, brings, _, passed⟩ := accepted.signer member
  obtain ⟨_, _, earlierBrings, _, earlierPassed⟩ := acceptedOld.signer earlierMember
  exact Authorization.signed_inj (earlierPassed.signed_small earlierBrings) (passed.signed_small brings) same

end

theorem update_brought (updates : info ∈ infosOf .updateProducer step.checked.transactions) :
    .update info ∈ step.authorizations := by
  obtain ⟨tx, included, brings⟩ := mem_infosOf.1 updates
  exact mem_filterMap.2 ⟨tx, included, by simp [authorizationOf, brings]⟩

theorem register_brought (registers : info ∈ infosOf .registerProducer step.checked.transactions) :
    .register info ∈ step.authorizations := by
  obtain ⟨tx, included, brings⟩ := mem_infosOf.1 registers
  exact mem_filterMap.2 ⟨tx, included, by simp [authorizationOf, brings]⟩

structure Tended (params : Params) (state : State) : Prop where
  params : state.params = params
  idle : state.history.Idle
  settled : state.frame.Settled

/-- The producer has been activated since it asked at a height, or it is going to be in time. -/
def Answered (params : Params) (key : Bytes) (position : Nat) (request height : UInt32)
    (frame : StateKeyFrame) : Prop :=
  frame.Free position ∨ ∃ source, frame.Stuck key position source request ∧ height.toNat < request.toNat + 5 ∧
    (source = .illegal → params.enableActivateIllegalHeight ≤ request)

namespace StateStep.Extends
variable (next : step.Extends prim params height state)
include next

theorem owners_apart : step.authorizations.Pairwise Authorization.Apart := by
  have sanity := next.sanity
  simp only [BlockChain.checkBlockSanity, bind_eq_ok, exists_unit, plain, mapError_eq_ok, checkDuplicateTx] at sanity
  obtain ⟨_, _, _, _, _, _, _, _, ⟨_, added, _⟩, _⟩ := sanity
  rw [authorizations, next.accepted.authorizations]
  exact (addTransactions_owners added).1

/-- A block brings one info for an owner key. -/
theorem info_unique {other : ProducerInfo} (member : signs ∈ step.authorizations) (brings : signs.payload = .inl info)
    (otherMember : earlier ∈ step.authorizations) (otherBrings : earlier.payload = .inl other)
    (owner : other.ownerPublicKey = info.ownerPublicKey) : other = info := by
  by_contra different
  have notSame : earlier ≠ signs := by
    rintro rfl
    exact different (Sum.inl.inj (otherBrings.symm.trans brings))
  exact next.owners_apart.forall otherMember member notSame other info otherBrings brings owner

theorem checkedHeight : step.checked.height = step.block.height :=
  congrArg Header.height next.accepted.header

section
variable (tended : Tended params state) (apart : step.KeepsKeysApart)
include tended apart

theorem stays_tended : Tended params step.after := by
  obtain ⟨idle, settled, _⟩ := next.settled tended.idle tended.settled apart
  obtain rfl := next.before
  exact ⟨(next.ran tended.idle).1.trans tended.params, idle, settled⟩

theorem brings_info (member : signs ∈ step.authorizations) (brings : signs.payload = .inl info) :
    ∃ position, Located step.after.frame info.ownerPublicKey position ∧
      step.after.frame.infoAt position = some info := by
  obtain ⟨kept, entered⟩ := next.located tended.idle tended.settled apart
  obtain ⟨tx, included, carries, _⟩ := next.accepted.signer member
  obtain rfl := next.before
  have fits := next.fits tended.settled.homed
  have ran := (next.ran tended.idle).2.2
  cases signs with
  | register =>
    cases brings
    have registers := mem_infosOf.2 ⟨tx, included, carries⟩
    obtain ⟨position, located⟩ := entered _ (mem_map_of_mem registers)
    refine ⟨position, located, ?_⟩
    rw [ran] at located ⊢
    exact block_registered _ _ _ _ tended.settled fits apart registers
      (fun other found => next.info_unique member rfl (register_brought found) rfl) located
  | update =>
    cases brings
    have updates := mem_infosOf.2 ⟨tx, included, carries⟩
    obtain ⟨position, located⟩ := (located_iff_isSome tended.settled.homed).1 (apart.2.2 info updates)
    refine ⟨position, kept _ _ located, ?_⟩
    rw [ran]
    exact block_updated _ _ _ _ tended.settled fits apart updates
      (fun other found => next.info_unique member rfl (update_brought found) rfl) located
  | activate => cases brings

theorem keeps_info (located : Located state.frame info.ownerPublicKey position)
    (has : state.frame.infoAt position = some info)
    (only : ∀ newer ∈ infosOf .updateProducer step.checked.transactions,
      newer.ownerPublicKey = info.ownerPublicKey → newer = info) :
    step.after.frame.infoAt position = some info := by
  obtain rfl := next.before
  rw [(next.ran tended.idle).2.2]
  rcases block_infos step.funcs step.before.params step.checked.height step.confirm tended.settled
    (next.fits tended.settled.homed) apart located with kept | ⟨newer, updates, owner, written⟩
  · exact kept.trans has
  · exact written.trans (congrArg some (only newer updates owner))

end

section
variable (early : request.toNat ≤ height.toNat) (answered : Answered params key position request height state.frame)
include early answered

/-- A producer that has asked for its activation cannot ask again. -/
theorem refuses (member : .activate payload ∈ step.authorizations)
    (found : state.frame.getProducerRef payload.nodePublicKey = some position) : False := by
  obtain ⟨_, _, brings, _, passed⟩ := next.accepted.signer member
  obtain ⟨place, producer, reached, cell, able, waits⟩ := passed.activates brings
  rw [next.frame, next.before] at reached cell
  obtain rfl := Option.some.inj (found.symm.trans reached)
  rcases answered with ⟨standing, free, notInactive, notIllegal⟩ | ⟨source, stuck, soon, -⟩
  · simp only [standingAt, cell, Option.map_some, Option.mem_some] at free
    subst free
    exact able.elim notInactive fun able => notIllegal able.2
  · have standing := stuck.standing
    simp only [standingAt, cell, Option.map_some, Option.some.injEq, Prod.mk.injEq] at standing
    rw [standing.2] at waits
    refine waits ⟨?_, ?_⟩
    · rw [UInt32.lt_iff_toNat_lt, next.height]
      omega
    · rw [UInt32.le_iff_toNat_le, UInt32.toNat_sub_of_le _ _ (by rw [UInt32.le_iff_toNat_le, next.height]; omega),
        next.height]
      change _ ≤ 6
      omega

theorem stays_answered (tended : Tended params state) (apart : step.KeepsKeysApart)
    (located : Located state.frame key position)
    (unstruck : ∀ action ∈ step.actions, ¬ action.Strikes step.before.params step.checked.height position) :
    Answered params key position request step.block.height step.after.frame := by
  obtain rfl := next.before
  have follows := next.height
  rw [Answered, (next.ran tended.idle).2.2]
  rcases answered with free | ⟨source, stuck, soon, enabled⟩
  · exact .inl (block_free tended.settled (next.fits tended.settled.homed) apart unstruck located free)
  rcases block_stuck tended.settled (next.fits tended.settled.homed) apart unstruck located stuck with
    freed | ⟨still, notActivated⟩
  · exact .inl freed
  have unasked : (step.before.frame.blockActions step.funcs step.before.params step.checked.height
      step.checked.transactions step.confirm).any (Action.requests position) = false := by
    rw [← Bool.not_eq_true]
    intro asked
    obtain ⟨tx, included, payload, kind, carries, found⟩ := blockActions_requests asked
    exact next.refuses early (.inr ⟨source, stuck, soon, enabled⟩)
      (mem_filterMap.2 ⟨tx, included, by simp [authorizationOf, kind, carries]⟩) found
  rw [unasked] at still
  refine .inr ⟨source, still, ?_, enabled⟩
  -- five blocks after the request the activation would be due
  by_contra late
  have sub : (step.block.height - request).toNat = 5 := by
    rw [UInt32.toNat_sub_of_le _ _ (by rw [UInt32.le_iff_toNat_le]; omega)]
    omega
  have after : request < step.block.height := by
    rw [UInt32.lt_iff_toNat_lt]
    omega
  refine notActivated source key (stuck.activated (next.checkedHeight ▸ ⟨after, ?_⟩) fun isIllegal => ?_)
  · rw [show step.block.height - request = 5 from UInt32.toNat_inj.1 sub]
    decide
  · rw [tended.params, next.checkedHeight]
    exact UInt32.le_trans (enabled isIllegal) (UInt32.le_of_lt after)

end

/-- A producer that asks for its activation gets an answer. -/
theorem asks (tended : Tended params state) (apart : step.KeepsKeysApart)
    (member : .activate payload ∈ step.authorizations)
    (found : state.frame.getProducerRef payload.nodePublicKey = some position)
    (filed : ∀ producer ∈ state.frame.producer? position,
      (producer.state = .inactive → state.frame.isInactiveProducer payload.nodePublicKey = true) ∧
      (producer.state = .illegal → state.frame.isIllegalProducer payload.nodePublicKey = true))
    (unstruck : ∀ action ∈ step.actions, ¬ action.Strikes step.before.params step.checked.height position) :
    Answered params (state.frame.getProducerKey payload.nodePublicKey) position step.block.height step.block.height
      step.after.frame := by
  obtain ⟨tx, included, brings, _, passed⟩ := next.accepted.signer member
  obtain ⟨place, producer, reached, cell, able, -⟩ := passed.activates brings
  obtain rfl := next.before
  rw [next.frame] at reached cell
  obtain rfl := Option.some.inj (found.symm.trans reached)
  have homed := tended.settled.homed
  have located := (homed.getProducerRef found).1
  obtain ⟨source, idle, named, listed, enabled⟩ : ∃ source : ProducerList, (source = .inactive ∨ source = .illegal) ∧
      producer.state = source.left ∧ ((step.before.frame.list source).lookup
        (step.before.frame.getProducerKey payload.nodePublicKey)).isSome = true ∧
      (source = .illegal → params.enableActivateIllegalHeight ≤ step.block.height) := by
    rcases able with inactive | ⟨enabled, illegal⟩
    · exact ⟨.inactive, .inl rfl, inactive, (filed producer cell).1 inactive, by simp⟩
    · exact ⟨.illegal, .inr rfl, illegal, (filed producer cell).2 illegal, fun _ => next.params ▸ enabled⟩
  obtain ⟨place, there⟩ := Option.isSome_iff_exists.1 listed
  obtain rfl := homed.unique _ _ _ located ⟨source, there⟩
  have stuck : step.before.frame.Stuck (step.before.frame.getProducerKey payload.nodePublicKey) position source
      producer.activateRequestHeight := ⟨idle, there, by simp [standingAt, cell, named]⟩
  rw [Answered, (next.ran tended.idle).2.2]
  rcases block_stuck tended.settled (next.fits homed) apart unstruck located stuck with freed | ⟨still, -⟩
  · exact .inl freed
  · rw [blockActions_request included brings.1 brings.2 found, if_pos rfl] at still
    refine .inr ⟨source, ?_, by omega, enabled⟩
    rw [← next.checkedHeight]
    exact still

theorem usesUpWithin (tended : Tended params state) (apart : step.KeepsKeysApart)
    (undisturbed : step.RepeatsUndisturbed) : step.UsesUpWithin := by
  refine (next.owners_apart.and undisturbed).imp_of_mem ?_
  rintro signs later member laterMember ⟨different, calm⟩ same
  have payloads := next.accepted.samePayload next.accepted laterMember member same
  cases later with
  | register info | update info => exact absurd rfl (different info info payloads rfl)
  | activate payload =>
    refine ⟨payload, rfl, fun position found front back shape asked => ?_⟩
    obtain rfl := next.before
    have unstruck := ((calm same).2 position found).2 step mem_cons_self
    have counted := blockWrites_calm tended.settled (next.fits tended.settled.homed) apart unstruck
    have located := (tended.settled.homed.getProducerRef found).1
    obtain ⟨producer, cell, -⟩ := tended.settled.homed.cell _ _ located
    rw [(next.ran tended.idle).2.2, shape]
    refine requestActivation_again (fun action among => ?_) (fun key start among => ?_)
      ((blockWrites_standing tended.settled located).trans (congrArg (Option.map _) cell)) asked
    · exact unstruck action (shape ▸ mem_append_left _ among)
    · exact counted key start (shape.symm ▸ mem_append_left _ among : _ ∈ step.actions)

end StateStep.Extends

namespace StateRun

/-- What every block of a run keeps holds at its end. -/
theorem keeps (run : StateRun prim params start initial steps height state) {motive : UInt32 → State → Prop}
    (base : motive start initial) (keep : ∀ step ∈ steps, ∀ height state, step.Extends prim params height state →
      motive height state → motive step.block.height step.after) : motive height state := by
  induction run with
  | nil => exact base
  | snoc _ next ih =>
    exact keep _ (by simp) _ _ next (ih fun step member => keep step (mem_append_left _ member))

theorem snoc_inv (run : StateRun prim params start initial (steps ++ [step]) height state) : ∃ middle reached,
      StateRun prim params start initial steps middle reached ∧ step.Extends prim params middle reached ∧
        height = step.block.height ∧ state = step.after := by
  generalize shape : steps ++ [step] = all at run
  cases run with
  | nil => simp at shape
  | snoc run next =>
    obtain ⟨rfl, rfl⟩ := append_singleton_inj.1 shape
    exact ⟨_, _, run, next, rfl, rfl⟩

theorem split (run : StateRun prim params start initial (front ++ back) height state) : ∃ middle reached,
      StateRun prim params start initial front middle reached ∧
        StateRun prim params middle reached back height state := by
  induction back using reverseRecOn generalizing height state with
  | nil => exact ⟨height, state, append_nil front ▸ run, .nil⟩
  | append_singleton back step ih =>
    rw [← append_assoc] at run
    obtain ⟨_, _, shorter, next, rfl, rfl⟩ := run.snoc_inv
    obtain ⟨middle, reached, before, after⟩ := ih shorter
    exact ⟨middle, reached, before, after.snoc next⟩

theorem split_cons (run : StateRun prim params start initial (step :: steps) height state) :
    step.Extends prim params start initial ∧ StateRun prim params step.block.height step.after steps height state := by
  obtain ⟨middle, reached, first, rest⟩ := @split _ _ _ _ _ _ [step] steps run
  obtain ⟨_, _, none, next, rfl, rfl⟩ := @snoc_inv _ _ _ _ _ _ [] step first
  generalize shape : ([] : List StateStep) = all at none
  cases none with
  | nil => exact ⟨next, rest⟩
  | snoc => simp at shape

section
variable (run : StateRun prim params start initial steps height state) (tended : Tended params initial)
  (apart : ∀ step ∈ steps, step.KeepsKeysApart)
include run tended apart

theorem keeps_tended {motive : UInt32 → State → Prop} (base : motive start initial)
    (keep : ∀ step ∈ steps, ∀ height state, step.Extends prim params height state → Tended params state →
      motive height state → motive step.block.height step.after) : Tended params state ∧ motive height state :=
  run.keeps (motive := fun height state => Tended params state ∧ motive height state) ⟨tended, base⟩
    fun step member height state next holds =>
      ⟨next.stays_tended holds.1 (apart step member), keep step member height state next holds.1 holds.2⟩

theorem ends_tended : Tended params state :=
  (run.keeps_tended tended apart (motive := fun _ _ => True) trivial fun _ _ _ _ _ _ _ => trivial).1

theorem keeps_located (located : Located initial.frame key position) : Located state.frame key position :=
  (run.keeps_tended tended apart (motive := fun _ state => Located state.frame key position) located
    fun step member _ _ next tended => (next.located tended.idle tended.settled (apart step member)).1 _ _).2

theorem keeps_info (located : Located initial.frame info.ownerPublicKey position)
    (has : initial.frame.infoAt position = some info)
    (only : ∀ step ∈ steps, ∀ newer ∈ infosOf .updateProducer step.checked.transactions,
      newer.ownerPublicKey = info.ownerPublicKey → newer = info) : state.frame.infoAt position = some info := by
  refine (run.keeps_tended tended apart (motive := fun _ state => Located state.frame info.ownerPublicKey position ∧
    state.frame.infoAt position = some info) ⟨located, has⟩ fun step member _ _ next tended holds => ?_).2.2
  exact ⟨(next.located tended.idle tended.settled (apart step member)).1 _ _ holds.1,
    next.keeps_info tended (apart step member) holds.1 holds.2 (only step member)⟩

theorem keeps_answered (early : request.toNat ≤ start.toNat) (located : Located initial.frame key position)
    (answered : Answered params key position request start initial.frame)
    (unstruck : ∀ step ∈ steps, ∀ action ∈ step.actions,
      ¬ action.Strikes step.before.params step.checked.height position) :
    request.toNat ≤ height.toNat ∧ Answered params key position request height state.frame := by
  refine (run.keeps_tended tended apart (motive := fun height state => Located state.frame key position ∧
    request.toNat ≤ height.toNat ∧ Answered params key position request height state.frame)
    ⟨located, early, answered⟩ fun step member _ _ next tended holds => ?_).2.2
  obtain ⟨located, early, answered⟩ := holds
  refine ⟨(next.located tended.idle tended.settled (apart step member)).1 _ _ located, ?_, ?_⟩
  · rw [next.height]
    omega
  · exact next.stays_answered early answered tended (apart step member) located (unstruck step member)

end

theorem usesUp (run : StateRun prim params start initial (old :: (between ++ step :: back)) height state)
    (tended : Tended params initial) (apart : ∀ other ∈ old :: (between ++ step :: back), other.KeepsKeysApart)
    (undisturbed : old.ReplaysUndisturbed between step) : old.UsesUp step := by
  obtain ⟨first, rest⟩ := run.split_cons
  obtain ⟨_, reached, middle, last⟩ := rest.split
  obtain ⟨next, -⟩ := last.split_cons
  have apartOld := apart old mem_cons_self
  have apartBetween : ∀ other ∈ between, other.KeepsKeysApart := fun other member =>
    apart other (mem_cons_of_mem _ (mem_append_left _ member))
  have apartStep : step.KeepsKeysApart := apart step (by simp)
  have tendedOld := first.stays_tended tended apartOld
  have tendedStep := middle.ends_tended tendedOld apartBetween
  intro signs member signed
  have calm := undisturbed signs member signed
  obtain ⟨earlier, earlierMember, same⟩ := mem_map.1 signed
  have payloads := next.accepted.samePayload first.accepted member earlierMember same
  cases signs with
  | register info =>
    -- a producer is stored under the owner key, so the registration was refused
    obtain ⟨position, located, -⟩ := first.brings_info tended apartOld earlierMember payloads
    obtain ⟨list, found⟩ := middle.keeps_located tendedOld apartBetween located
    obtain ⟨tx, included, brings, _⟩ := next.accepted.signer member
    obtain rfl := next.before
    have absent := (next.fits tendedStep.settled.homed).registers info (mem_infosOf.2 ⟨tx, included, brings⟩) list
    cases absent.symm.trans found
  | update info =>
    obtain ⟨position, located, has⟩ := first.brings_info tended apartOld earlierMember payloads
    have locatedStep := middle.keeps_located tendedOld apartBetween located
    have hasStep := middle.keeps_info tendedOld apartBetween located has calm
    have kept := next.keeps_info tendedStep apartStep locatedStep hasStep fun newer found =>
      next.info_unique member rfl (update_brought found) rfl
    obtain rfl := next.before
    refine ⟨info, rfl, fun place there => ?_⟩
    obtain rfl := tendedStep.settled.homed.unique _ _ _ there locatedStep
    exact kept.trans hasStep.symm
  | activate payload =>
    obtain rfl : earlier = .activate payload := by
      cases earlier with
      | register | update => cases payloads
      | activate => exact congrArg _ (Sum.inr.inj payloads)
    obtain ⟨sameRef, answers⟩ := calm
    obtain ⟨_, _, brings, _, passed⟩ := first.accepted.signer earlierMember
    obtain ⟨position, _, reachedOld, -⟩ := passed.activates brings
    rw [first.frame] at reachedOld
    obtain ⟨filed, unstruck⟩ := answers position reachedOld
    obtain rfl := first.before
    have answered := first.asks tended apartOld earlierMember reachedOld filed (unstruck old mem_cons_self)
    have located := (first.located tended.idle tended.settled apartOld).1 _ _
      (tended.settled.homed.getProducerRef reachedOld).1
    obtain ⟨early, stillAnswered⟩ := middle.keeps_answered tendedOld apartBetween (Nat.le_refl _) located answered
      fun other among => unstruck other (mem_cons_of_mem _ among)
    exact (next.refuses early stillAnswered member (next.before ▸ sameRef.trans reachedOld)).elim

end StateRun

theorem split_places {first last : Nat} (order : first < last) (bound : last < steps.length) :
    steps = steps.take first ++ steps[first] :: ((steps.take last).drop (first + 1) ++
      steps[last] :: steps.drop (last + 1)) := by
  have lastCut : steps = steps.take last ++ steps[last] :: steps.drop (last + 1) := by
    rw [← drop_eq_getElem_cons bound, take_append_drop]
  have inside : first < (steps.take last).length := by rw [length_take]; omega
  have firstCut := (take_append_drop first (steps.take last)).symm
  rw [drop_eq_getElem_cons inside, take_take, Nat.min_eq_left order.le, getElem_take] at firstCut
  nth_rewrite 1 [lastCut, firstCut]
  simp

/-- In a run that keeps the keys apart and leaves the signed payloads that come again undisturbed,
each of them is used up by the block that brings it first. -/
theorem authorizations_usedUp (run : StateRun prim params 0 (State.initial params) steps height state)
    (apart : ∀ step ∈ steps, step.KeepsKeysApart) (within : ∀ step ∈ steps, step.RepeatsUndisturbed)
    (undisturbed : UndisturbedRun steps) :
    (∀ step ∈ steps, step.UsesUpWithin) ∧ steps.Pairwise StateStep.UsesUp := by
  have tended : Tended params (State.initial params) := ⟨rfl, ⟨rfl, rfl, rfl⟩, initial_settled params⟩
  constructor
  · intro step member
    obtain ⟨front, back, rfl⟩ := append_of_mem member
    obtain ⟨_, _, before, after⟩ := run.split
    have tended := before.ends_tended tended fun other among => apart other (mem_append_left _ among)
    exact after.split_cons.1.usesUpWithin tended (apart step member) (within step member)
  · rw [pairwise_iff_getElem]
    intro first last firstBound lastBound order
    have calm := undisturbed last lastBound first order _ (getElem?_eq_getElem lastBound) _
      (getElem?_eq_getElem firstBound)
    have shape := split_places order lastBound
    generalize steps[first] = old, steps[last] = step, (steps.take last).drop (first + 1) = between,
      steps.take first = front, steps.drop (last + 1) = back at shape calm ⊢
    subst shape
    obtain ⟨_, _, before, after⟩ := run.split
    have tended := before.ends_tended tended fun other among => apart other (mem_append_left _ among)
    exact after.usesUp tended (fun other among => apart other (mem_append_right _ among)) calm

namespace SmallChain

def updatingBack : Transaction :=
  spendGenesis 2 .updateProducer (.producerInfo producerInfo) [output (owner 5) 0] [signedBy 5]

/-- The registration of another producer. -/
def registeringOther : Transaction :=
  spendGenesis 0 .registerProducer (.producerInfo { producerInfo with
    ownerPublicKey := Stand.key 7
    nodePublicKey := Stand.key 8
    nickName := [66]
    signature := Stand.sign (Stand.key 7) }) [output (depositAt 7) 500000000000, output (owner 5) 1000000] [signedBy 5]

theorem updatedAgain_usedUp : ∃ steps height state,
      StateRun Stand.primitives earlyParams 0 (State.initial earlyParams) steps height state ∧
        ¬ (steps.flatMap fun step => step.authorizations.map (·.signed)).Nodup ∧
        (∀ step ∈ steps, step.UsesUpWithin) ∧ steps.Pairwise StateStep.UsesUp := by
  obtain ⟨steps, height, state, run, apart, within, undisturbed, again⟩ := earlyChain_plays
    [early 1 [registering], early 2 [registeringOther], early 3 [updatingBack]]
    (fun steps _ _ => (∀ step ∈ steps, step.KeepsKeysApart) ∧ (∀ step ∈ steps, step.RepeatsUndisturbed) ∧
      UndisturbedRun steps ∧ ¬ (steps.flatMap fun step => step.authorizations.map (·.signed)).Nodup)
    (by decide +kernel)
  exact ⟨steps, height, state, run, again, authorizations_usedUp run apart within undisturbed⟩

/-- The registration, sent as an update, takes back the update that came after it. -/
theorem updatedBack_notUsedUp : ∃ steps height state,
      StateRun Stand.primitives earlyParams 0 (State.initial earlyParams) steps height state ∧
        ¬ steps.Pairwise StateStep.UsesUp := by
  obtain ⟨steps, height, state, run, again⟩ := earlyChain_plays
    [early 1 [registering], early 2 [updatingAs 5], early 3 [updatingBack]]
    (fun steps _ _ => ¬ steps.Pairwise fun old step =>
      ∀ signs ∈ step.authorizations, signs.signed ∈ old.authorizations.map (·.signed) →
        signs.payload = .inl producerInfo → (step.before.frame.list .pending).lookup (Stand.key 5) = some 0 →
        step.after.frame.infoAt 0 = step.before.frame.infoAt 0)
    (by decide +kernel)
  refine ⟨steps, height, state, run, fun usedUp => again (usedUp.imp ?_)⟩
  intro old step uses signs member signed named here
  obtain ⟨info, rfl, same⟩ := uses signs member signed
  cases named
  exact same 0 ⟨.pending, here⟩

end SmallChain
end Elastos.Blockchain
