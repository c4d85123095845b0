import Elastos.Dpos.BlockPartition

/-! Every key has one cell for good, and only an update under the key that a producer is stored under
changes its info. -/
set_option autoImplicit false
namespace Elastos.Dpos
open Go Common Config Elastos.Types Utils StateKeyFrame State List

def StateKeyFrame.ownerAt (frame : StateKeyFrame) (position : Nat) : Option Bytes :=
  (frame.face position).map fun face => face.1.ownerPublicKey

def StateKeyFrame.infoAt (frame : StateKeyFrame) (position : Nat) : Option ProducerInfo :=
  (frame.face position).map Prod.fst

section Infos
variable {frame after : StateKeyFrame}

theorem ownerAt_of_infoAt {position : Nat} (same : after.infoAt position = frame.infoAt position) :
    after.ownerAt position = frame.ownerAt position := by
  simpa [infoAt, ownerAt, Function.comp_def] using congrArg (Option.map (·.ownerPublicKey)) same

theorem Shifts.infoAt {key : Bytes} {position : Nat} {source target : ProducerList}
    {status : ProducerState} (shifts : Shifts frame after key position source target status)
    (place : Nat) : after.infoAt place = frame.infoAt place := by
  rw [StateKeyFrame.infoAt, shifts.face, StateKeyFrame.infoAt]
  split
  · rw [Option.map_map]
    rfl
  · rfl

theorem infoAt_updateProducer (position place : Nat) {update : Producer → Producer}
    (info : ∀ producer, (update producer).info = producer.info) :
    (frame.updateProducer position update).infoAt place = frame.infoAt place := by
  rw [infoAt, face_updateProducer, infoAt, face]
  split
  · simp [info, Option.map_map, Function.comp_def]
  · rfl

end Infos

structure StateKeyFrame.Settled (frame : StateKeyFrame) : Prop where
  homed : frame.Homed
  /-- The owner key of a producer is not the node key of another one. -/
  own : ∀ node key position, frame.nodeOwnerKeys.lookup node = some key → Located frame node position → key = node
  waiting : ∀ key position, frame.pendingCanceledProducers.lookup key = some position → Located frame key position

theorem initial_nowhere (params : Params) (key : Bytes) (position : Nat) :
    ¬ Located (State.initial params).frame key position := by
  rintro ⟨list, found⟩
  cases list <;> cases found

theorem initial_settled (params : Params) : (State.initial params).frame.Settled where
  homed := {
    cell key position located := absurd located (initial_nowhere params key position)
    unique key position _ located := absurd located (initial_nowhere params key position)
    named node key found := by cases found }
  own node key position found := by cases found
  waiting key position found := by cases found

/-- A change moves a known producer, or it leaves keys and infos alone. -/
def Rehouses (base frame after : StateKeyFrame) : Prop :=
  (∃ key position source target status, Located base key position ∧
    Shifts frame after key position source target status ∧
    ∀ other place, after.pendingCanceledProducers.lookup other = some place →
      frame.pendingCanceledProducers.lookup other = some place ∨ other = key ∧ place = position) ∨
  (∀ list, after.list list = frame.list list) ∧ after.nodeOwnerKeys = frame.nodeOwnerKeys ∧
    (∀ position, after.infoAt position = frame.infoAt position) ∧
    after.pendingCanceledProducers = frame.pendingCanceledProducers

theorem tryUpdateInactivity_cases (params : Params) (key : Bytes) (position : Nat)
    (needReset : Bool) (height : UInt32) (frame : StateKeyFrame) :
    Shifts frame (State.tryUpdateInactivity params key position needReset height frame) key
        position .activity .inactive .inactive ∨ KeepsFiling frame
        (State.tryUpdateInactivity params key position needReset height frame) := by
  cases cell : frame.producer? position with
  | none =>
    right
    cases needReset with
    | true => exact updateProducer_keepsFiling frame position (fun _ => rfl) fun _ => rfl
    | false =>
      simp only [tryUpdateInactivity, Bool.false_eq_true, if_false,
        producer?_updateProducer, cell, if_true, Option.map_none]
      exact updateProducer_keepsFiling frame position (fun _ => rfl) fun _ => rfl
  | some producer =>
    have count : (frame.producer? position).map (·.inactiveCountingHeight) =
        some producer.inactiveCountingHeight := by rw [cell, Option.map_some]
    by_cases due : needReset = false ∧ inactivityDue params height producer.inactiveCountingHeight
    · obtain ⟨rfl, isDue⟩ := due
      exact .inl (tryUpdateInactivity_shifts count isDue)
    · exact .inr (tryUpdateInactivity_keeps count due)

theorem Action.rehouses (params : Params) (height : UInt32) {base final : StateKeyFrame} {guarded : Bytes → Prop}
    {counting : Prop} {action : Action} (frame : StateKeyFrame)
    (sound : action.Sound base final guarded guarded counting) :
    match action with
    | .enter .. | .changeInfo .. => True
    | _ => Rehouses base frame ((action.change params height).execute frame) := by
  cases action with
  | enter | changeInfo => trivial
  | cancel key position isPending =>
    refine .inl ⟨_, _, _, _, _, sound, cancel_shifts frame isPending, fun other place found => ?_⟩
    cases isPending with
    | true =>
      change (frame.pendingCanceledProducers.insert key position).lookup other = some place at found
      rw [GoMap.lookup_insert_eq] at found
      split at found
      · rename_i same
        cases found
        exact .inr ⟨same, rfl⟩
      · exact .inl found
    | false => exact .inl found
  | punishActive => exact .inl ⟨_, _, _, _, _, sound, punishActive_shifts frame, fun _ _ => .inl⟩
  | punishCanceled => exact .inl ⟨_, _, _, _, _, sound, punishCanceled_shifts frame, fun _ _ => .inl⟩
  | emergencyInactive => exact .inl ⟨_, _, _, _, _, sound, emergencyInactive_shifts frame, fun _ _ => .inl⟩
  | activate source =>
    refine .inl ⟨_, _, _, _, _, sound.2, activateFrom_shifts frame sound.1 _, fun other place found => .inl ?_⟩
    cases source <;> exact found
  | countInactivity key position needReset =>
    have waits : (tryUpdateInactivity params key position needReset height frame).pendingCanceledProducers =
      frame.pendingCanceledProducers := tryUpdateInactivity_elim (motive := fun after => _ = _) rfl (fun _ => id) id
    rcases tryUpdateInactivity_cases params key position needReset height frame with shifts | keeps
    · exact .inl ⟨_, _, _, _, _, sound.2, shifts, fun other place found => .inl (waits ▸ found)⟩
    · exact .inr ⟨keeps.list, keeps.names, fun place => congrArg _ (keeps.face place), waits⟩
  | returnToOwner position | requestActivation position | addVotes position
  | subtractVotes position | setDeposit position | addDeposit position =>
    exact .inr ⟨fun list => by cases list <;> rfl, rfl,
      fun place => infoAt_updateProducer position place fun _ => rfl, rfl⟩
  | recordVote | recordSpecialHash | setVersion =>
    exact .inr ⟨fun list => by cases list <;> rfl, rfl, fun _ => rfl, rfl⟩

/-- What holds between two actions of a block that is executed on `base`, with the writes
already made in `final`. The owner keys known before the block or registered by it are
guarded. -/
structure Housed (base final : StateKeyFrame) (guarded : Bytes → Prop) (frame : StateKeyFrame) : Prop where
  kept : ∀ key position, Located base key position → Located frame key position
  known : ∀ list key position, (frame.list list).lookup key = some position →
    Located base key position ∨ (∀ list, (base.list list).lookup key = none) ∧
      list = .pending ∧ final.ownerAt position = some key ∧ guarded key ∧ base.producers.length ≤ position
  owner : ∀ position, frame.ownerAt position = final.ownerAt position
  named : ∀ node key, frame.nodeOwnerKeys.lookup node = some key → ∃ position, Located frame key position
  guard : ∀ node key, guarded node → frame.nodeOwnerKeys.lookup node = some key → key = node
  waiting : ∀ key position, frame.pendingCanceledProducers.lookup key = some position → Located base key position

namespace Housed
variable {params : Params} {height : UInt32} {base final frame after : StateKeyFrame}
  {guarded : Bytes → Prop} {counting : Prop} {action : Action}

section
variable (housed : Housed base final guarded frame)
include housed

theorem located_iff (homed : base.Homed) {key : Bytes} {position place : Nat}
    (before : Located base key position) (now : Located frame key place) : place = position := by
  obtain ⟨list, found⟩ := now
  rcases housed.known list key place found with old | ⟨fresh, _⟩
  · exact homed.unique key place position old before
  · exact (before.not_fresh fresh).elim

theorem homed (baseHomed : base.Homed) (ext : Extends base final) : frame.Homed where
  cell := by
    rintro key position ⟨list, found⟩
    have owns : frame.ownerAt position = some key := by
      rw [housed.owner]
      rcases housed.known list key position found with old | ⟨_, _, owner, _⟩
      · obtain ⟨producer, cell, rfl⟩ := baseHomed.cell key position old
        simp [ownerAt, face, ext.producer?_some cell]
      · exact owner
    simpa [ownerAt, face] using owns
  unique := by
    rintro key position place ⟨list, found⟩ ⟨list', found'⟩
    rcases housed.known list key position found with old | ⟨fresh, rfl, _⟩
    · exact (housed.located_iff baseHomed old ⟨list', found'⟩).symm
    rcases housed.known list' key place found' with old | ⟨_, rfl, _⟩
    · exact (old.not_fresh fresh).elim
    · rw [found, Option.some.injEq] at found'
      exact found'
  named := housed.named

theorem keep (lists : ∀ list, after.list list = frame.list list) (names : after.nodeOwnerKeys = frame.nodeOwnerKeys)
    (infos : ∀ position, after.infoAt position = frame.infoAt position)
    (waits : after.pendingCanceledProducers = frame.pendingCanceledProducers) : Housed base final guarded after where
  kept key position located := by
    obtain ⟨list, found⟩ := housed.kept key position located
    exact ⟨list, by rw [lists, found]⟩
  known list key position found := housed.known list key position (lists list ▸ found)
  owner position := (ownerAt_of_infoAt (infos position)).trans (housed.owner position)
  named := named_keep housed.named lists names
  guard node key isGuarded found := housed.guard node key isGuarded (names ▸ found)
  waiting key position found := housed.waiting key position (waits ▸ found)

end

variable {key : Bytes} {position : Nat} {source target : ProducerList} {status : ProducerState}

section
variable (housed : Housed base final guarded frame)
include housed

theorem shift (homed : base.Homed) (located : Located base key position)
    (shifts : Shifts frame after key position source target status)
    (waits : ∀ other place, after.pendingCanceledProducers.lookup other = some place →
      frame.pendingCanceledProducers.lookup other = some place ∨ other = key ∧ place = position) :
    Housed base final guarded after where
  kept other place otherLocated := by
    by_cases same : other = key
    · subst same
      rw [homed.unique _ _ _ otherLocated located]
      exact ⟨target, by simp [shifts.lookup]⟩
    · obtain ⟨list, found⟩ := housed.kept other place otherLocated
      exact ⟨list, by simp [shifts.lookup, same, found]⟩
  known list other place found := by
    rw [shifts.lookup] at found
    split at found
    · rename_i moved
      cases found
      exact .inl (moved.1 ▸ located)
    · split at found
      · cases found
      · exact housed.known list other place found
  owner place := (ownerAt_of_infoAt (shifts.infoAt place)).trans (housed.owner place)
  named := named_shift housed.named shifts
  guard node other isGuarded found :=
    housed.guard node other isGuarded (shifts.names ▸ found)
  waiting other place found := by
    rcases waits other place found with before | ⟨rfl, rfl⟩
    · exact housed.waiting other place before
    · exact located

theorem enter {info : ProducerInfo} {programHash : Uint168} {deposits : List (OutPoint × Fixed64)}
    (sound : (Action.enter info position programHash deposits).Sound base final guarded guarded counting) :
    Housed base final guarded ((State.enterProducer info position programHash deposits).execute frame) := by
  obtain ⟨fresh, isNew, face, guardedNode, entering⟩ := sound
  refine ⟨fun key place located => ?_, fun list key place found => ?_, housed.owner,
    named_enter _ _ _ housed.named, guarding_enter _ _ _ housed.guard guardedNode, housed.waiting⟩
  · obtain ⟨list, found⟩ := housed.kept key place located
    have different : key ≠ info.ownerPublicKey := by
      rintro rfl
      exact located.not_fresh fresh
    exact ⟨list, by rw [enterProducer_lookup _ _ _ _ _ (.inl different), found]⟩
  · by_cases here : key = info.ownerPublicKey ∧ list = .pending
    · obtain ⟨rfl, rfl⟩ := here
      rw [enterProducer_entered, Option.some.injEq] at found
      subst found
      exact .inr ⟨fresh, rfl, by simp [ownerAt, face], entering, isNew⟩
    · rw [not_and_or] at here
      rw [enterProducer_lookup _ _ _ _ _ here] at found
      exact housed.known list key place found

/-- The owner key of an update is not the node key of another producer when it runs. -/
theorem rewrites {origin update : ProducerInfo} (homed : base.Homed) (ext : Extends base final)
    (sound : (Action.changeInfo origin update).Sound base final guarded guarded counting) :
    ∃ position, Located base update.ownerPublicKey position ∧ Located frame update.ownerPublicKey position ∧
      Rewrites frame (State.updateProducerInfo origin update frame) position origin update := by
  obtain ⟨⟨position, located⟩, sameOwner, guardedOwner, _⟩ := sound
  have here := housed.kept _ position located
  have ownKey := getProducerKey_of_own fun key => housed.guard _ key guardedOwner
  refine ⟨position, located, here, updateProducerInfo_rewrites ?_⟩
  rw [getProducerRef, sameOwner, ownKey, (housed.homed homed ext).getProducerByOwnerPublicKey here]

theorem changeInfo {origin update : ProducerInfo} (homed : base.Homed) (ext : Extends base final)
    (sound : (Action.changeInfo origin update).Sound base final guarded guarded counting) :
    Housed base final guarded (State.updateProducerInfo origin update frame) := by
  obtain ⟨position, _, here, rewrites⟩ := housed.rewrites homed ext sound
  obtain ⟨_, sameOwner, _, guardedNode⟩ := sound
  have waits : (updateProducerInfo origin update frame).pendingCanceledProducers = frame.pendingCanceledProducers := by
    unfold updateProducerInfo
    split <;> split <;> split <;> rfl
  refine ⟨fun key place keyLocated => ?_, fun list key place lookup => ?_, fun place => ?_,
    named_rewrite rewrites housed.named (sameOwner ▸ here),
    guarding_rewrite rewrites housed.guard fun isGuarded => sameOwner.trans (guardedNode isGuarded),
    fun key place lookup => housed.waiting key place (waits ▸ lookup)⟩
  · obtain ⟨list, keyFound⟩ := housed.kept key place keyLocated
    exact ⟨list, by rw [rewrites.list, keyFound]⟩
  · rw [rewrites.list] at lookup
    exact housed.known list key place lookup
  · rw [← housed.owner place, ownerAt, rewrites.face, ownerAt]
    split
    · rename_i samePlace
      obtain ⟨producer, cell, owner⟩ := (housed.homed homed ext).cell _ position here
      simp [samePlace, face, cell, owner]
    · rfl

end

theorem step (housed : Housed base final guarded frame) (homed : base.Homed) (ext : Extends base final)
    (sound : action.Sound base final guarded guarded counting) :
    Housed base final guarded ((action.change params height).execute frame) := by
  have rehoused := Action.rehouses params height frame sound
  cases action with
  | enter => exact housed.enter sound
  | changeInfo => exact housed.changeInfo homed ext sound
  | _ =>
    obtain ⟨_, _, _, _, _, located, shifts, waits⟩ | ⟨lists, names, infos, waits⟩ := rehoused
    · exact housed.shift homed located shifts waits
    · exact housed.keep lists names infos waits

theorem located_step (housed : Housed base final guarded frame) (homed : base.Homed) (ext : Extends base final)
    (sound : action.Sound base final guarded guarded counting)
    (located : Located frame key position) :
    ∃ place, Located ((action.change params height).execute frame) key place := by
  have stepped : Housed base final guarded ((action.change params height).execute frame) := housed.step homed ext sound
  obtain ⟨list, found⟩ := located
  rcases housed.known list key position found with old | ⟨fresh, rfl, _⟩
  · exact ⟨position, stepped.kept key position old⟩
  -- A new key is only touched by its own registrations.
  have away : ∀ {other : Bytes} {place : Nat}, Located base other place → key ≠ other := by
    rintro other place before rfl
    exact before.not_fresh fresh
  have rehoused := Action.rehouses params height frame sound
  cases action with
  | enter info place programHash deposits =>
    by_cases same : key = info.ownerPublicKey
    · exact ⟨place, .pending, same ▸ AList.lookup_insert _⟩
    · exact ⟨position, .pending, (AList.lookup_insert_ne same).trans found⟩
  | changeInfo origin update =>
    refine ⟨position, .pending, ?_⟩
    change (((updateProducerInfo origin update frame).list .pending)).lookup key = _
    rw [← found]
    unfold updateProducerInfo
    split <;> split <;> split <;> rfl
  | _ =>
    obtain ⟨_, _, _, _, _, otherLocated, shifts, -⟩ | ⟨lists, -⟩ := rehoused
    · exact ⟨position, .pending, by simp [shifts.lookup, away otherLocated, found]⟩
    · exact ⟨position, .pending, (congrArg _ (lists .pending)).trans found⟩

theorem run {actions : List Action} (housed : Housed base final guarded frame)
    (homed : base.Homed) (ext : Extends base final)
    (sound : ∀ action ∈ actions, action.Sound base final guarded guarded counting) :
    Housed base final guarded (executeAll (actions.map (Action.change params height)) frame) ∧
      (∀ key position, Located frame key position → ∃ place,
        Located (executeAll (actions.map (Action.change params height)) frame) key place) ∧
      ∀ info position programHash deposits, .enter info position programHash deposits ∈ actions → ∃ place,
          Located (executeAll (actions.map (Action.change params height)) frame) info.ownerPublicKey place := by
  induction actions generalizing frame with
  | nil => exact ⟨housed, fun key position located => ⟨position, located⟩, by simp⟩
  | cons action rest ih =>
    have headSound := sound action (by simp)
    have stepped : Housed base final guarded ((action.change params height).execute frame) :=
      housed.step homed ext headSound
    obtain ⟨ended, kept, entered⟩ := ih stepped (fun other member => sound other (List.mem_cons_of_mem _ member))
    refine ⟨ended, fun key position located => ?_, fun info position programHash deposits member => ?_⟩
    · have there : ∃ place, Located ((action.change params height).execute frame) key place :=
        housed.located_step homed ext headSound located
      obtain ⟨place, there⟩ := there
      exact kept key place there
    · rcases List.mem_cons.1 member with rfl | later
      · exact kept _ position ⟨.pending, AList.lookup_insert _⟩
      · exact entered info position programHash deposits later

end Housed

namespace StateKeyFrame
variable {base : StateKeyFrame} {txs : List Transaction} {confirm : Option Confirm}
  {guarded : Bytes → Prop}

/-- The keys that a block must not give away as node keys of others: the owner keys known
before it and those that it registers. -/
def OwnerKey (base : StateKeyFrame) (txs : List Transaction) (key : Bytes) : Prop :=
  (base.getProducerByOwnerPublicKey key).isSome ∨ key ∈ (infosOf .registerProducer txs).map (·.ownerPublicKey)

/-- No registration or update gives a producer the owner key of another one as its node key,
no registration uses such a node key, and updates name owner keys. -/
def KeysApart (base : StateKeyFrame) (txs : List Transaction) : Prop :=
  (∀ info ∈ infosOf .registerProducer txs ++ infosOf .updateProducer txs,
    base.OwnerKey txs info.nodePublicKey → info.ownerPublicKey = info.nodePublicKey) ∧
  (∀ info ∈ infosOf .registerProducer txs, base.getProducerKey info.ownerPublicKey = info.ownerPublicKey) ∧
  ∀ info ∈ infosOf .updateProducer txs, (base.getProducerByOwnerPublicKey info.ownerPublicKey).isSome

instance (base : StateKeyFrame) (txs : List Transaction) (key : Bytes) : Decidable (base.OwnerKey txs key) :=
  inferInstanceAs (Decidable (_ ∨ _))

instance (base : StateKeyFrame) (txs : List Transaction) : Decidable (base.KeysApart txs) :=
  inferInstanceAs (Decidable (_ ∧ _ ∧ _))

theorem located_iff_isSome (homed : base.Homed) {key : Bytes} :
    (base.getProducerByOwnerPublicKey key).isSome ↔ ∃ position, Located base key position := by
  constructor
  · intro known
    obtain ⟨position, found⟩ := Option.isSome_iff_exists.1 known
    exact ⟨position, getProducerByOwnerPublicKey_located found⟩
  · rintro ⟨position, located⟩
    rw [homed.getProducerByOwnerPublicKey located]
    rfl

theorem KeysApart.guards (settled : base.Settled) (apart : base.KeysApart txs) :
    Guards base txs (base.OwnerKey txs) (base.OwnerKey txs) where
  registers info registers := .inr (List.mem_map_of_mem registers)
  nodes := apart.1
  updates info updates := by
    have known := apart.2.2 info updates
    obtain ⟨position, located⟩ := (located_iff_isSome settled.homed).1 known
    exact ⟨.inl known, getProducerKey_of_own fun key named => settled.own _ key position named located⟩

section Block
variable (funcs : StateFuncs) (params : Params) (height : UInt32) (confirm : Option Confirm)
  (settled : base.Settled) (fits : Fits base txs) (apart : base.KeysApart txs)

include settled fits apart
omit fits in
theorem housed_start : Housed base (base.blockWrites funcs params height txs confirm) (base.OwnerKey txs)
      (base.blockWrites funcs params height txs confirm) := by
  have ext : Extends base (base.blockWrites funcs params height txs confirm) := blockWrites_extends base txs confirm
  have lists := ext.list
  have homed := settled.homed
  refine ⟨?_, fun list key position found => .inl ⟨list, lists list ▸ found⟩, fun _ => rfl,
    named_keep homed.named lists ext.nodeOwnerKeys, fun node key isOwner found => ?_, fun key position found => ?_⟩
  · rintro key position ⟨list, found⟩
    exact ⟨list, by rw [lists, found]⟩
  · rw [ext.nodeOwnerKeys] at found
    rcases isOwner with known | registers
    · obtain ⟨position, located⟩ := (located_iff_isSome homed).1 known
      exact settled.own node key position found located
    · obtain ⟨info, member, rfl⟩ := List.mem_map.1 registers
      have own := apart.2.1 info member
      simpa [getProducerKey, found] using own
  · refine settled.waiting key position ?_
    rw [← found]
    obtain ⟨cells, outputs, arbiters, same⟩ := ext
    rw [same]

theorem block_settled :
    let after := executeAll ((base.blockActions funcs params height txs confirm).map (Action.change params height))
      (base.blockWrites funcs params height txs confirm)
    after.Settled ∧ (∀ key position, Located base key position → Located after key position) ∧
      (∀ key position, Located after key position → Located base key position ∨
        (∀ list, (base.list list).lookup key = none) ∧ base.producers.length ≤ position) ∧
      ∀ info position programHash deposits, .enter info position programHash deposits ∈
          base.blockActions funcs params height txs confirm → ∃ place, Located after info.ownerPublicKey place := by
  intro after
  have ext : Extends base (base.blockWrites funcs params height txs confirm) := blockWrites_extends base txs confirm
  obtain ⟨ended, _, entered⟩ := (housed_start funcs params height confirm settled apart).run settled.homed ext
    (blockActions_sound funcs params height settled.homed fits (apart.guards settled))
  refine ⟨⟨ended.homed settled.homed ext, fun node key position named located => ?_,
    fun key position found => ended.kept key position (ended.waiting key position found)⟩,
    ended.kept, fun key position located => ?_, entered⟩
  · refine ended.guard node key ?_ named
    obtain ⟨list, found⟩ := located
    rcases ended.known list node position found with old | ⟨_, _, _, isOwner, _⟩
    · exact .inl ((located_iff_isSome settled.homed).2 ⟨position, old⟩)
    · exact isOwner
  · obtain ⟨list, found⟩ := located
    rcases ended.known list key position found with old | ⟨fresh, _, _, _, isNew⟩
    · exact .inl old
    · exact .inr ⟨fresh, isNew⟩

end Block
end StateKeyFrame

namespace Housed
variable {params : Params} {height : UInt32} {base final frame : StateKeyFrame}
  {guarded : Bytes → Prop} {counting : Prop} {action : Action} (homed : base.Homed)
  (ext : Extends base final)

include homed ext

theorem infoAt_step (housed : Housed base final guarded frame)
    (sound : action.Sound base final guarded guarded counting) (place : Nat) :
    ((action.change params height).execute frame).infoAt place = frame.infoAt place ∨
      ∃ origin update, action = .changeInfo origin update ∧ Located base update.ownerPublicKey place ∧
        ((action.change params height).execute frame).infoAt place = some update := by
  have rehoused := Action.rehouses params height frame sound
  cases action with
  | enter => exact .inl rfl
  | changeInfo origin update =>
    obtain ⟨position, located, here, rewrites⟩ := housed.rewrites homed ext sound
    change (updateProducerInfo origin update frame).infoAt place = _ ∨ ∃ _ _, _ ∧ _ ∧
      (updateProducerInfo origin update frame).infoAt place = _
    by_cases same : place = position
    · obtain ⟨producer, cell, _⟩ := (housed.homed homed ext).cell _ position here
      refine .inr ⟨origin, update, rfl, same ▸ located, ?_⟩
      rw [infoAt, rewrites.face, if_pos same, same]
      simp [face, cell]
    · simp [infoAt, rewrites.face, same]
  | _ =>
    obtain ⟨_, _, _, _, _, _, shifts, -⟩ | ⟨-, -, infos, -⟩ := rehoused
    · exact .inl (shifts.infoAt place)
    · exact .inl (infos place)

theorem infoAt_run {actions : List Action} (housed : Housed base final guarded frame)
    (sound : ∀ action ∈ actions, action.Sound base final guarded guarded counting) (place : Nat) :
    (executeAll (actions.map (Action.change params height)) frame).infoAt place = frame.infoAt place ∨
      ∃ origin update, .changeInfo origin update ∈ actions ∧ Located base update.ownerPublicKey place ∧
        (executeAll (actions.map (Action.change params height)) frame).infoAt place = some update := by
  induction actions generalizing frame with
  | nil => exact .inl rfl
  | cons action rest ih =>
    have headSound := sound action mem_cons_self
    rcases ih (housed.step homed ext headSound : Housed base final guarded
        ((action.change params height).execute frame))
      fun other member => sound other (mem_cons_of_mem _ member) with kept | changed
    · rcases housed.infoAt_step homed ext headSound place with same | changed
      · exact .inl (kept.trans same)
      · obtain ⟨origin, update, rfl, located, written⟩ := changed
        exact .inr ⟨origin, update, mem_cons_self, located, kept.trans written⟩
    · obtain ⟨origin, update, member, written⟩ := changed
      exact .inr ⟨origin, update, mem_cons_of_mem _ member, written⟩

/-- The only update under a key gives the producer its info. -/
theorem infoAt_updated {actions : List Action} {origin info : ProducerInfo} {place : Nat}
    (housed : Housed base final guarded frame)
    (sound : ∀ action ∈ actions, action.Sound base final guarded guarded counting)
    (asked : .changeInfo origin info ∈ actions) (there : Located base info.ownerPublicKey place)
    (only : ∀ origin update, .changeInfo origin update ∈ actions →
      update.ownerPublicKey = info.ownerPublicKey → update = info) :
    (executeAll (actions.map (Action.change params height)) frame).infoAt place = some info := by
  obtain ⟨front, back, rfl⟩ := append_of_mem asked
  have middle := (housed.run homed ext fun action member => sound action (mem_append_left _ member) :
    Housed base final guarded (executeAll (front.map (Action.change params height)) frame) ∧ _).1
  have here := sound _ asked
  rw [map_append, map_cons, executeAll_append, executeAll_cons]
  have written : (((Action.changeInfo origin info).change params height).execute
      (executeAll (front.map (Action.change params height)) frame)).infoAt place = some info := by
    obtain ⟨position, located, now, rewrites⟩ := middle.rewrites homed ext here
    obtain rfl := homed.unique _ _ _ located there
    obtain ⟨producer, cell, _⟩ := (middle.homed homed ext).cell _ _ now
    change (updateProducerInfo origin info _).infoAt position = _
    rw [infoAt, rewrites.face, if_pos rfl]
    simp [face, cell]
  rcases (middle.step homed ext here).infoAt_run homed ext
    (fun action member => sound action (mem_append_right _ (mem_cons_of_mem _ member))) place with
    kept | ⟨_, update, later, located, changed⟩
  · exact kept.trans written
  · refine changed.trans ?_
    obtain ⟨producer, cell, owner⟩ := homed.cell _ place located
    obtain ⟨other, sameCell, sameOwner⟩ := homed.cell _ place there
    cases cell.symm.trans sameCell
    rw [only _ update (mem_append_right _ (mem_cons_of_mem _ later)) (owner.symm.trans sameOwner)]

end Housed

namespace StateKeyFrame
variable {funcs : StateFuncs} {params : Params} {height : UInt32} {base frame : StateKeyFrame}
  {txs : List Transaction} {tx : Transaction} {confirm : Option Confirm}
  {origin update : ProducerInfo}

theorem blockActions_changeInfo
    (asked : .changeInfo origin update ∈ base.blockActions funcs params height txs confirm) :
    update ∈ infosOf .updateProducer txs := by
  rcases mem_append.1 asked with unconfirmed | counted
  · cases unconfirmed_origin confirm unconfirmed with
    | typed included _ _ typed =>
      cases typeActions_asked _ typed with
      | changeInfo kind payload _ => exact mem_infosOf.2 ⟨_, included, kind, payload⟩
  · obtain ⟨_, _, _, _, _, _, same⟩ := mem_confirmActions counted
    cases same

/-- A producer keeps its info, or the block updates it under the key that the producer is
stored under. -/
theorem block_infos (funcs : StateFuncs) (params : Params) (height : UInt32)
    (confirm : Option Confirm) (settled : base.Settled) (fits : Fits base txs)
    (apart : base.KeysApart txs) {key : Bytes} {position : Nat} (located : Located base key position) :
    let after := executeAll ((base.blockActions funcs params height txs confirm).map (Action.change params height))
      (base.blockWrites funcs params height txs confirm)
    after.infoAt position = base.infoAt position ∨ ∃ info ∈ infosOf .updateProducer txs, info.ownerPublicKey = key ∧
        after.infoAt position = some info := by
  have homed := settled.homed
  have ext : Extends base (base.blockWrites funcs params height txs confirm) := blockWrites_extends base txs confirm
  obtain ⟨producer, cell, owner⟩ := homed.cell key position located
  have written : (base.blockWrites funcs params height txs confirm).infoAt position = base.infoAt position := by
    simp [infoAt, face, cell, ext.producer?_some cell]
  rcases (housed_start funcs params height confirm settled apart).infoAt_run homed ext
    (blockActions_sound funcs params height homed fits (apart.guards settled)) position with
    kept | ⟨origin, update, asked, there, changed⟩
  · exact .inl (kept.trans written)
  refine .inr ⟨update, blockActions_changeInfo asked, ?_, changed⟩
  obtain ⟨other, sameCell, sameOwner⟩ := homed.cell _ position there
  rw [cell, Option.some.injEq] at sameCell
  rw [← sameOwner, ← sameCell, owner]

/-- The cells that a frame has more than another one hold infos of a list. -/
def Enlarges (infos : List ProducerInfo) (frame later : StateKeyFrame) : Prop :=
  ∃ cells, later.producers = frame.producers ++ cells ∧ ∀ cell ∈ cells, cell.info ∈ infos

theorem Enlarges.trans {infos : List ProducerInfo} {first second third : StateKeyFrame}
    (left : Enlarges infos first second) (right : Enlarges infos second third) : Enlarges infos first third := by
  obtain ⟨cells, added, all⟩ := left
  obtain ⟨more, addedMore, allMore⟩ := right
  exact ⟨cells ++ more, by rw [addedMore, added, append_assoc], fun cell member =>
    (mem_append.1 member).elim (all cell) (allMore cell)⟩

theorem Enlarges.of_same {infos : List ProducerInfo} {frame later : StateKeyFrame}
    (same : later.producers = frame.producers) : Enlarges infos frame later :=
  ⟨[], by rw [same, append_nil], by simp⟩

theorem typeWrites_enlarges (included : tx ∈ txs) :
    Enlarges (infosOf .registerProducer txs) frame (frame.typeWrites funcs height tx) := by
  have deposits (entries : List (OutPoint × Output)) :
      Enlarges (infosOf .registerProducer txs) frame (entries.foldl (depositWrites funcs) frame) := by
    refine .of_same ?_
    induction entries generalizing frame with
    | nil => rfl
    | cons entry rest ih =>
      rw [foldl_cons, ih]
      unfold depositWrites
      split <;> rfl
  unfold typeWrites
  split
  case h_1 kind =>
    unfold registerWrites
    split
    case h_1 payload =>
      split
      · refine ⟨_, rfl, fun cell member => ?_⟩
        rw [mem_singleton.1 member]
        exact mem_infosOf.2 ⟨tx, included, kind, payload⟩
      · exact .of_same rfl
    · exact .of_same rfl
  · exact deposits _
  · exact deposits _
  · exact .of_same rfl

theorem txsWrites_enlarges : Enlarges (infosOf .registerProducer txs) frame (frame.txsWrites funcs height txs) := by
  suffices each : ∀ some ⊆ txs, Enlarges (infosOf .registerProducer txs) frame (frame.txsWrites funcs height some) from
    each txs (Subset.refl _)
  intro some subset
  induction some generalizing frame with
  | nil => exact .of_same rfl
  | cons tx rest ih =>
    exact (typeWrites_enlarges (subset mem_cons_self)).trans (ih fun _ member => subset (mem_cons_of_mem _ member))

theorem blockWrites_enlarges :
    Enlarges (infosOf .registerProducer txs) base (base.blockWrites funcs params height txs confirm) := by
  have first : Enlarges (infosOf .registerProducer txs) base (base.txsWrites funcs height txs) := txsWrites_enlarges
  have second : Enlarges (infosOf .registerProducer txs) (base.txsWrites funcs height txs)
      ((base.txsWrites funcs height txs).repeatWrites funcs params height txs) := by
    unfold repeatWrites
    split
    · exact txsWrites_enlarges
    · exact .of_same rfl
  refine (first.trans second).trans (.of_same ?_)
  unfold blockWrites confirmWrites
  split
  · rfl
  · split <;> rfl

section Brought
variable (funcs : StateFuncs) (params : Params) (height : UInt32) (confirm : Option Confirm) (settled : base.Settled)
  (fits : Fits base txs) (apart : base.KeysApart txs) {info : ProducerInfo} {position : Nat}
include settled fits apart

/-- The only update of a block under a key gives the producer its info. -/
theorem block_updated (brings : info ∈ infosOf .updateProducer txs)
    (only : ∀ other ∈ infosOf .updateProducer txs, other.ownerPublicKey = info.ownerPublicKey → other = info)
    (located : Located base info.ownerPublicKey position) :
    (executeAll ((base.blockActions funcs params height txs confirm).map (Action.change params height))
      (base.blockWrites funcs params height txs confirm)).infoAt position = some info := by
  have homed := settled.homed
  obtain ⟨tx, included, kind, payload⟩ := mem_infosOf.1 brings
  have asked : ∃ frame, Extends base frame ∧ ∀ action ∈ frame.txActions funcs height tx,
      action ∈ base.blockActions funcs params height txs confirm := blockActions_of_tx included
  obtain ⟨frame, before, all⟩ := asked
  obtain ⟨producer, cell, _⟩ := homed.cell _ _ located
  have found : frame.getProducer info.ownerPublicKey = some producer := by
    rw [getProducer, before.getProducerRef, getProducerRef, ((apart.guards settled).updates info brings).2,
      homed.getProducerByOwnerPublicKey located, Option.bind_some, before.producer?_some cell]
  have changes : .changeInfo producer.info info ∈ base.blockActions funcs params height txs confirm :=
    all _ (by simp [txActions, typeActions, kind, payload, updateActions, found])
  exact (housed_start funcs params height confirm settled apart).infoAt_updated homed
    (blockWrites_extends base txs confirm) (blockActions_sound funcs params height homed fits (apart.guards settled))
    changes located fun origin update member owner => only update (blockActions_changeInfo member) owner

/-- A producer that a block has registered has the info of the only registration under its key. -/
theorem block_registered (brings : info ∈ infosOf .registerProducer txs)
    (only : ∀ other ∈ infosOf .registerProducer txs, other.ownerPublicKey = info.ownerPublicKey → other = info)
    (located : Located (executeAll ((base.blockActions funcs params height txs confirm).map
      (Action.change params height)) (base.blockWrites funcs params height txs confirm)) info.ownerPublicKey position) :
    (executeAll ((base.blockActions funcs params height txs confirm).map (Action.change params height))
      (base.blockWrites funcs params height txs confirm)).infoAt position = some info := by
  have homed := settled.homed
  have ext : Extends base (base.blockWrites funcs params height txs confirm) := blockWrites_extends base txs confirm
  have start := housed_start funcs params height confirm settled apart
  have sound : ∀ action ∈ base.blockActions funcs params height txs confirm, action.Sound base
      (base.blockWrites funcs params height txs confirm) (base.OwnerKey txs) (base.OwnerKey txs) True :=
    blockActions_sound funcs params height homed fits (apart.guards settled)
  obtain ⟨list, found⟩ := located
  rcases (start.run homed ext sound).1.known list _ position found with old | ⟨_, _, owner, _, isNew⟩
  · exact (old.not_fresh (fits.registers info brings)).elim
  obtain ⟨cells, added, all⟩ : Enlarges (infosOf .registerProducer txs) base
    (base.blockWrites funcs params height txs confirm) := blockWrites_enlarges
  obtain ⟨⟨named, state⟩, face, sameOwner⟩ := Option.map_eq_some_iff.1 owner
  obtain ⟨producer, cell, same⟩ := Option.map_eq_some_iff.1 face
  have among : producer ∈ cells := by
    rw [producer?, added, getElem?_append_right isNew] at cell
    exact mem_of_getElem? cell
  have isInfo : named = info := only named (Prod.mk.inj same |>.1 ▸ all producer among) sameOwner
  -- an update changes no new cell
  rcases start.infoAt_run homed ext sound position with kept | ⟨_, update, _, there, _⟩
  · rw [kept, infoAt, face, isInfo]
    rfl
  · exact absurd (homed.position_lt there) (Nat.not_lt.2 isNew)

end Brought
end StateKeyFrame
end Elastos.Dpos
