import Elastos.Dpos.Housing

/-! How a producer stands after it has asked for its activation. Unless a block strikes it, it is
activated in time, and then nothing but a strike makes it inactive or illegal again. -/
set_option autoImplicit false
namespace Elastos.Dpos
open Go Common Config Elastos.Types Utils StateKeyFrame State List

section Strikes
variable (params : Params) (height : UInt32) (position : Nat)

/-- The action makes the producer of a cell inactive or illegal. -/
def Action.Strikes : Action → Prop
  | .punishActive _ place | .punishCanceled _ place | .emergencyInactive _ place => place = position
  | .countInactivity _ place needReset startHeight =>
    place = position ∧ needReset = false ∧ inactivityDue params height startHeight
  | _ => False

instance : DecidablePred (Action.Strikes params height position) := by
  intro action
  cases action <;> unfold Action.Strikes <;> infer_instance

def Action.requests : Action → Bool
  | .requestActivation place => place = position
  | _ => false

end Strikes

namespace StateKeyFrame
variable (frame : StateKeyFrame) (key : Bytes) (position : Nat)

def standingAt : Option (ProducerState × UInt32) :=
  (frame.producer? position).map fun producer => (producer.state, producer.activateRequestHeight)

def Free : Prop :=
  ∃ standing ∈ frame.standingAt position, standing.1 ≠ .inactive ∧ standing.1 ≠ .illegal

/-- The producer is filed as inactive or illegal and has asked for its activation at a height. -/
structure Stuck (source : ProducerList) (request : UInt32) : Prop where
  idle : source = .inactive ∨ source = .illegal
  filed : (frame.list source).lookup key = some position
  standing : frame.standingAt position = some (source.left, request)

/-- The count of the producer is not due, if it is to be counted. -/
def Calm (params : Params) (height : UInt32) (actions : List Action) : Prop :=
  ∀ key start, .countInactivity key position false start ∈ actions →
    ∀ count ∈ (frame.producer? position).map (·.inactiveCountingHeight), ¬ inactivityDue params height count

end StateKeyFrame

variable {params : Params} {height request : UInt32} {base final frame : StateKeyFrame}
  {guarded : Bytes → Prop} {counting : Prop} {action : Action} {actions : List Action} {key : Bytes}
  {position : Nat} {source : ProducerList}

theorem not_inactivityDue_again {count : UInt32} (early : ¬ inactivityDue params height count) :
    ¬ inactivityDue params height 0 ∧ ¬ inactivityDue params height (if count = 0 then height else count) := by
  unfold inactivityDue at *
  rw [UInt32.not_le] at early
  have positive : 0 < params.maxInactiveRounds := UInt32.lt_of_le_of_lt UInt32.zero_le early
  refine ⟨by simpa using Ne.symm (UInt32.ne_of_lt positive), ?_⟩
  by_cases zero : count = 0
  · simp only [zero, if_true, UInt32.not_le] at *
    split <;> simpa using positive
  · simpa only [zero, if_false, UInt32.not_le] using early

theorem tryUpdateInactivity_calm {needReset : Bool} (calm : needReset = false →
      ∀ count ∈ (frame.producer? position).map (·.inactiveCountingHeight), ¬ inactivityDue params height count) :
    ∃ count : UInt32 → UInt32, (count = (fun _ => 0) ∨ count = fun old => if old = 0 then height else old) ∧
      tryUpdateInactivity params key position needReset height frame = frame.updateProducer position fun producer =>
        { producer with inactiveCountingHeight := count producer.inactiveCountingHeight } := by
  cases needReset with
  | true => exact ⟨_, .inl rfl, rfl⟩
  | false =>
    refine ⟨_, .inr rfl, ?_⟩
    cases cell : frame.producer? position with
    | none => simp only [tryUpdateInactivity, Bool.false_eq_true, if_false, producer?_updateProducer, cell, if_true,
        Option.map_none]
    | some producer =>
      have early := calm rfl _ (by rw [cell]; rfl)
      unfold inactivityDue at early
      simp only [tryUpdateInactivity, Bool.false_eq_true, if_false, producer?_updateProducer, cell, if_true,
        Option.map_some, if_neg early]

theorem standing_updateProducer {update : Producer → Producer} {place : Nat}
    (same : position ≠ place ∨ ∀ producer, ((update producer).state, (update producer).activateRequestHeight) =
      (producer.state, producer.activateRequestHeight)) :
    (frame.updateProducer place update).standingAt position = frame.standingAt position :=
  field_updateProducer (fun producer => (producer.state, producer.activateRequestHeight)) same

theorem standing_freed {update : Producer → Producer} {state freed : ProducerState}
    (standing : frame.standingAt position = some (state, request)) (sets : ∀ producer, ((update producer).state,
      (update producer).activateRequestHeight) = (freed, producer.activateRequestHeight)) :
    (frame.updateProducer position update).standingAt position = some (freed, request) := by
  obtain ⟨producer, cell, same⟩ := Option.map_eq_some_iff.1 standing
  obtain ⟨-, rfl⟩ := Prod.mk.inj same
  rw [standingAt, producer?_updateProducer, if_pos rfl, cell]
  exact congrArg some (sets producer)

theorem activate_frees {list : ProducerList} {owner : Bytes} {state : ProducerState}
    (standing : frame.standingAt position = some (state, request)) :
    (((Action.activate list owner position).change params height).execute frame).Free position := by
  have free : (frame.updateProducer position fun producer => { producer with state := .active }).Free position :=
    ⟨_, standing_freed standing fun _ => rfl, by simp⟩
  cases list <;> exact free

/-- An action that does not strike a producer leaves its state or frees it, and it asks for its
activation only by a request. -/
theorem standing_step (unstruck : ¬ action.Strikes params height position)
    (calm : frame.Calm position params height [action]) {state : ProducerState}
    (standing : frame.standingAt position = some (state, request)) : ∃ later,
      ((action.change params height).execute frame).standingAt position =
          some (later, if action.requests position then height else request) ∧
        (later = state ∨ later ≠ .inactive ∧ later ≠ .illegal) := by
  have away {place : Nat} {update : Producer → Producer} (elsewhere : position ≠ place) :
      (frame.updateProducer place update).standingAt position = some (state, request) :=
    (standing_updateProducer (.inl elsewhere)).trans standing
  have still {place : Nat} {update : Producer → Producer} (same : ∀ producer, ((update producer).state,
      (update producer).activateRequestHeight) = (producer.state, producer.activateRequestHeight)) :
      (frame.updateProducer place update).standingAt position = some (state, request) :=
    (standing_updateProducer (.inr same)).trans standing
  have frees {place : Nat} {update : Producer → Producer} (freed : ProducerState)
      (sets : ∀ producer, ((update producer).state, (update producer).activateRequestHeight) =
        (freed, producer.activateRequestHeight)) (free : freed ≠ .inactive ∧ freed ≠ .illegal) : ∃ later,
        (frame.updateProducer place update).standingAt position = some (later, request) ∧
          (later = state ∨ later ≠ .inactive ∧ later ≠ .illegal) := by
    by_cases here : position = place
    · subst here
      exact ⟨freed, standing_freed standing sets, .inr free⟩
    · exact ⟨state, away here, .inl rfl⟩
  cases action with
  | enter | recordVote | recordSpecialHash | setVersion => exact ⟨state, standing, .inl rfl⟩
  | addVotes | subtractVotes | setDeposit | addDeposit => exact ⟨state, still fun _ => rfl, .inl rfl⟩
  | cancel => exact frees .canceled (fun _ => rfl) (by simp)
  | returnToOwner => exact frees .returned (fun _ => rfl) (by simp)
  | activate list _ place =>
    have activated := @frees place (fun producer => { producer with state := .active }) .active
      (fun _ => rfl) (by simp)
    cases list <;> exact activated
  | punishActive _ place | punishCanceled _ place | emergencyInactive _ place =>
    exact ⟨state, away fun here => unstruck here.symm, .inl rfl⟩
  | changeInfo origin update =>
    refine ⟨state, ?_, .inl rfl⟩
    change (updateProducerInfo origin update frame).standingAt position = _
    unfold updateProducerInfo
    split <;> split <;> split <;> first | exact still fun _ => rfl | exact standing
  | requestActivation place =>
    refine ⟨state, ?_, .inl rfl⟩
    by_cases here : position = place
    · subst here
      obtain ⟨producer, cell, same⟩ := Option.map_eq_some_iff.1 standing
      change (frame.updateProducer position _).standingAt position = _
      rw [standingAt, producer?_updateProducer, if_pos rfl, cell]
      cases same
      simp [Action.requests]
    · rw [Action.requests, decide_eq_false (Ne.symm here)]
      exact away here
  | countInactivity owner place needReset start =>
    refine ⟨state, ?_, .inl rfl⟩
    change (tryUpdateInactivity params owner place needReset height frame).standingAt position = some (state, request)
    by_cases here : place = position
    · subst here
      obtain ⟨count, -, counted⟩ := @tryUpdateInactivity_calm params height frame owner place needReset
        fun isCounted count => calm owner start (by simp [isCounted]) count
      rw [counted]
      exact still fun _ => rfl
    · refine tryUpdateInactivity_elim (motive := fun after => after.standingAt position = _) standing
        (fun _ same => ?_) fun same => ?_
      · exact (standing_updateProducer (.inl (Ne.symm here))).trans same
      · exact (standing_updateProducer (.inl (Ne.symm here))).trans same

theorem calm_step (calm : frame.Calm position params height (action :: actions)) :
    ((action.change params height).execute frame).Calm position params height actions := by
  intro key start member count found
  have early := calm key start (mem_cons_of_mem _ member)
  by_cases counted : action.counted = some position
  · cases action with
    | countInactivity owner place needReset begun =>
      cases counted
      obtain ⟨change, shape, same⟩ := @tryUpdateInactivity_calm params height frame owner position needReset
        fun isCounted => calm owner begun (by simp [isCounted])
      change count ∈
        ((tryUpdateInactivity params owner position needReset height frame).producer? position).map _ at found
      rw [same, producer?_updateProducer, if_pos rfl, Option.map_map] at found
      obtain ⟨producer, cell, rfl⟩ := Option.map_eq_some_iff.1 found
      have again := not_inactivityDue_again (early producer.inactiveCountingHeight (by rw [cell]; rfl))
      rcases shape with rfl | rfl
      · exact again.1
      · exact again.2
    | _ => cases counted
  · rw [count_execute counted] at found
    exact early count found

section
variable (homed : base.Homed) (located : Located base key position)
  (sound : action.Sound base final guarded guarded counting) (unstruck : ¬ action.Strikes params height position)
  (calm : frame.Calm position params height [action])
include homed located sound unstruck calm

theorem filed_step (idle : source = .inactive ∨ source = .illegal)
    (filed : (frame.list source).lookup key = some position) (notActivated : ∀ list owner,
      action ≠ .activate list owner position) :
    (((action.change params height).execute frame).list source).lookup key = some position := by
  -- a shift of another cell is one of another key
  have shifted {after : StateKeyFrame} {owner : Bytes} {place : Nat} {left entered : ProducerList}
      {status : ProducerState} (there : Located base owner place) (elsewhere : place ≠ position)
      (shifts : Shifts frame after owner place left entered status) :
      (after.list source).lookup key = some position := by
    have other : key ≠ owner := by
      rintro rfl
      exact elsewhere (homed.unique _ _ _ there located)
    simp [shifts.lookup, other, filed]
  cases action with
  | punishActive => exact shifted sound unstruck (punishActive_shifts frame)
  | punishCanceled => exact shifted sound unstruck (punishCanceled_shifts frame)
  | emergencyInactive => exact shifted sound unstruck (emergencyInactive_shifts frame)
  | activate list owner place =>
    refine shifted sound.2 (fun here => ?_) (activateFrom_shifts frame sound.1 _)
    exact notActivated list owner (by rw [here])
  | changeInfo origin update =>
    change ((updateProducerInfo origin update frame).list source).lookup key = _
    unfold updateProducerInfo
    rcases idle with rfl | rfl <;> split <;> split <;> split <;> exact filed
  | countInactivity owner place needReset start =>
    by_cases here : place = position
    · subst here
      obtain ⟨count, -, counted⟩ := @tryUpdateInactivity_calm params height frame owner place needReset
        fun isCounted count => calm owner start (by simp [isCounted]) count
      change ((tryUpdateInactivity params owner place needReset height frame).list source).lookup key = _
      rw [counted]
      rcases idle with rfl | rfl <;> exact filed
    · rcases tryUpdateInactivity_cases params owner place needReset height frame with shifts | keeps
      · exact shifted sound.2 here shifts
      · exact (congrArg (·.lookup key) (keeps.list source)).trans filed
  | _ => rcases idle with rfl | rfl <;> exact filed

theorem stuck_step (stuck : frame.Stuck key position source request) :
    ((action.change params height).execute frame).Free position ∨
      ((action.change params height).execute frame).Stuck key position source
          (if action.requests position then height else request) ∧
        ∀ list owner, action ≠ .activate list owner position := by
  by_cases activated : ∃ list owner, action = .activate list owner position
  · obtain ⟨list, owner, rfl⟩ := activated
    exact .inl (activate_frees stuck.standing)
  have notActivated (list : ProducerList) (owner : Bytes) : action ≠ .activate list owner position :=
    fun same => activated ⟨list, owner, same⟩
  obtain ⟨later, standing, rfl | free⟩ := standing_step unstruck calm stuck.standing
  · exact .inr ⟨⟨stuck.idle, filed_step homed located sound unstruck calm stuck.idle stuck.filed notActivated,
      standing⟩, notActivated⟩
  · exact .inl ⟨_, standing, free⟩

end

section
variable (unstruck : ∀ action ∈ actions, ¬ action.Strikes params height position)
  (calm : frame.Calm position params height actions)
include unstruck calm

theorem standing_run {state : ProducerState} (standing : frame.standingAt position = some (state, request)) :
    ∃ later, (executeAll (actions.map (Action.change params height)) frame).standingAt position =
          some (later, if actions.any (Action.requests position) then height else request) ∧
        (later = state ∨ later ≠ .inactive ∧ later ≠ .illegal) := by
  induction actions generalizing frame state request with
  | nil => exact ⟨state, standing, .inl rfl⟩
  | cons action rest ih =>
    obtain ⟨middle, reached, kept⟩ := standing_step (unstruck action mem_cons_self)
      (fun key start member => calm key start (mem_cons.2 (.inl (mem_singleton.1 member)))) standing
    obtain ⟨later, ended, keeps⟩ := ih (fun other member => unstruck other (mem_cons_of_mem _ member))
      (calm_step calm) reached
    refine ⟨later, ?_, ?_⟩
    · rw [map_cons, executeAll_cons, any_cons, ended]
      cases action.requests position <;> simp
    · rcases keeps with rfl | free
      · exact kept
      · exact .inr free

theorem free_run (free : frame.Free position) :
    (executeAll (actions.map (Action.change params height)) frame).Free position := by
  obtain ⟨⟨state, request⟩, standing, frees⟩ := free
  obtain ⟨later, ended, rfl | freed⟩ := standing_run unstruck calm standing
  · exact ⟨_, ended, frees⟩
  · exact ⟨_, ended, freed⟩

/-- An inactive or illegal producer that is not struck is freed, or it is where it was and
has last asked for its activation now, if the actions ask for it. -/
theorem stuck_run (homed : base.Homed) (located : Located base key position)
    (sound : ∀ action ∈ actions, action.Sound base final guarded guarded counting)
    (stuck : frame.Stuck key position source request) :
    (executeAll (actions.map (Action.change params height)) frame).Free position ∨
      (executeAll (actions.map (Action.change params height)) frame).Stuck key position source
          (if actions.any (Action.requests position) then height else request) ∧
        ∀ list owner, .activate list owner position ∉ actions := by
  induction actions generalizing frame request with
  | nil => exact .inr ⟨stuck, by simp⟩
  | cons action rest ih =>
    have unstruck' : ∀ action ∈ rest, ¬ action.Strikes params height position :=
      fun other member => unstruck other (mem_cons_of_mem _ member)
    rcases stuck_step homed located (sound action mem_cons_self) (unstruck action mem_cons_self)
      (fun key start member => calm key start (mem_cons.2 (.inl (mem_singleton.1 member)))) stuck with
      free | ⟨stuck', notActivated⟩
    · have ended := free_run unstruck' (calm_step calm) free
      exact .inl ended
    rcases ih unstruck' (calm_step calm) (fun other member => sound other (mem_cons_of_mem _ member)) stuck' with
      free | ⟨ended, others⟩
    · exact .inl free
    refine .inr ⟨?_, fun list owner member => ?_⟩
    · rw [map_cons, executeAll_cons, any_cons]
      cases first : action.requests position with
      | true => simpa [first] using ended
      | false => simpa [first] using ended
    · rcases mem_cons.1 member with now | later
      · exact notActivated list owner now.symm
      · exact others list owner later

end

theorem updateProducer_same {update : Producer → Producer}
    (same : ∀ producer ∈ frame.producer? position, update producer = producer) :
    frame.updateProducer position update = frame := by
  have cells : frame.producers.modify position update = frame.producers := by
    refine ext_getElem? fun place => ?_
    rw [getElem?_modify]
    split
    · rename_i here
      subst here
      cases cell : frame.producers[position]? with
      | none => rfl
      | some producer => exact congrArg some (same producer cell)
    · exact congrFun Option.map_id _
  rw [StateKeyFrame.updateProducer, cells]

/-- A request that comes twice in a block changes nothing the second time, unless the producer
is struck in between. -/
theorem requestActivation_again {front back : List Action} {state : ProducerState}
    (unstruck : ∀ action ∈ front, ¬ action.Strikes params height position)
    (calm : frame.Calm position params height front) (standing : frame.standingAt position = some (state, request))
    (asked : .requestActivation position ∈ front) :
    executeAll ((front ++ .requestActivation position :: back).map (Action.change params height)) frame =
      executeAll ((front ++ back).map (Action.change params height)) frame := by
  have requested : front.any (Action.requests position) = true :=
    any_eq_true.2 ⟨_, asked, by simp [Action.requests]⟩
  obtain ⟨later, reached, -⟩ := standing_run unstruck calm standing
  rw [requested, if_pos rfl] at reached
  simp only [map_append, map_cons, executeAll_append, executeAll_cons]
  congr 1
  refine updateProducer_same fun producer cell => ?_
  rw [standingAt, cell] at reached
  rw [← (Prod.mk.inj (Option.some.inj reached)).2]

namespace StateKeyFrame
variable {funcs : StateFuncs} {txs : List Transaction} {confirm : Option Confirm} {tx : Transaction}

/-- An activation that is due is one of the actions of a block. -/
theorem Stuck.activated (stuck : base.Stuck key position source request)
    (due : request < height ∧ activateDuration ≤ height - request + 1)
    (enabled : source = .illegal → params.enableActivateIllegalHeight ≤ height) :
    .activate source key position ∈ base.blockActions funcs params height txs confirm := by
  have ext : Extends base (base.txsWrites funcs height txs) := txsWrites_extends base txs
  obtain ⟨producer, cell, same⟩ := Option.map_eq_some_iff.1 stuck.standing
  obtain ⟨-, rfl⟩ := Prod.mk.inj same
  have listed : (key, position) ∈ funcs.runtime.iterate (GoMap.pairs ((base.txsWrites funcs height txs).list source)) :=
    (funcs.runtime.iterate_perm _).mem_iff.2 (GoMap.mem_pairs_iff.2 (by rw [ext.list, stuck.filed]))
  have acts : .activate source key position ∈ (base.txsWrites funcs height txs).dueActions source
      (fun producer => requestConfirmed height producer) (key, position) := by
    have confirmed : requestConfirmed height producer := due
    rw [dueActions, ext.producer?_some cell, if_pos (by simpa using confirmed)]
    exact mem_singleton_self _
  have member : .activate source key position ∈ (base.txsWrites funcs height txs).activations funcs params height := by
    refine mem_append_right _ ?_
    rcases stuck.idle with rfl | rfl
    · exact mem_append_left _ (mem_flatMap.2 ⟨_, listed, acts⟩)
    · rw [if_pos (enabled rfl)]
      exact mem_append_right _ (mem_flatMap.2 ⟨_, listed, acts⟩)
  simp only [blockActions, txsActions, mem_append]
  exact .inl (.inl (.inr (.inr member)))

theorem blockActions_requests (asked : (base.blockActions funcs params height txs confirm).any
      (Action.requests position) = true) : ∃ tx ∈ txs, ∃ payload, tx.txType = .activateProducer ∧
        tx.payload = .activateProducer payload ∧ base.getProducerRef payload.nodePublicKey = some position := by
  obtain ⟨action, member, requests⟩ := any_eq_true.1 asked
  cases action with
  | requestActivation place =>
    obtain rfl : place = position := by simpa [Action.requests] using requests
    rcases mem_append.1 member with unconfirmed | counted
    · cases unconfirmed_origin confirm unconfirmed with
      | typed included before _ typed =>
        cases typeActions_asked _ typed with
        | request kind activates found =>
          exact ⟨_, included, _, kind, activates, (before.getProducerRef _).symm.trans found⟩
    · obtain ⟨_, _, _, _, _, _, same⟩ := mem_confirmActions counted
      cases same
  | _ => cases requests

theorem blockActions_request {payload : ActivateProducer} (included : tx ∈ txs)
    (kind : tx.txType = .activateProducer) (activates : tx.payload = .activateProducer payload)
    (found : base.getProducerRef payload.nodePublicKey = some position) :
    (base.blockActions funcs params height txs confirm).any (Action.requests position) = true := by
  have asked : ∃ frame, Extends base frame ∧ ∀ action ∈ frame.txActions funcs height tx,
      action ∈ base.blockActions funcs params height txs confirm := blockActions_of_tx included
  obtain ⟨frame, ext, all⟩ := asked
  refine any_eq_true.2 ⟨.requestActivation position, all _ ?_, by simp [Action.requests]⟩
  simp [txActions, typeActions, kind, activates, requestActions, ext.getProducerRef, found]

section Block
variable (settled : base.Settled) (fits : Fits base txs) (apart : base.KeysApart txs)
  (unstruck : ∀ action ∈ base.blockActions funcs params height txs confirm, ¬ action.Strikes params height position)
include settled fits apart unstruck

theorem blockWrites_calm : (base.blockWrites funcs params height txs confirm).Calm position params height
      (base.blockActions funcs params height txs confirm) := by
  intro key start member count found due
  have counted := blockActions_countIn funcs params height settled.homed fits (apart.guards settled) _ member
  cases counted.symm.trans found
  exact unstruck _ member ⟨rfl, rfl, due⟩

omit fits apart unstruck in
theorem blockWrites_standing (located : Located base key position) :
    (base.blockWrites funcs params height txs confirm).standingAt position = base.standingAt position := by
  obtain ⟨producer, cell, -⟩ := settled.homed.cell key position located
  have ext : Extends base (base.blockWrites funcs params height txs confirm) := blockWrites_extends base txs confirm
  rw [standingAt, ext.producer?_some cell, standingAt, cell]

/-- A block that does not strike a producer leaves it free. -/
theorem block_free (located : Located base key position) (free : base.Free position) :
    (executeAll ((base.blockActions funcs params height txs confirm).map (Action.change params height))
      (base.blockWrites funcs params height txs confirm)).Free position := by
  obtain ⟨standing, found, frees⟩ := free
  have calm := blockWrites_calm settled fits apart unstruck
  exact free_run unstruck calm ⟨standing, (blockWrites_standing settled located).trans found, frees⟩

/-- A block that does not strike an inactive or illegal producer frees it, unless its activation
is not due. -/
theorem block_stuck (located : Located base key position) (stuck : base.Stuck key position source request) :
    let after := executeAll ((base.blockActions funcs params height txs confirm).map (Action.change params height))
      (base.blockWrites funcs params height txs confirm)
    after.Free position ∨ after.Stuck key position source (if (base.blockActions funcs params height txs confirm).any
          (Action.requests position) then height else request) ∧
        ∀ list owner, .activate list owner position ∉ base.blockActions funcs params height txs confirm := by
  have ext : Extends base (base.blockWrites funcs params height txs confirm) := blockWrites_extends base txs confirm
  exact stuck_run unstruck (blockWrites_calm settled fits apart unstruck) settled.homed located
    (blockActions_sound funcs params height settled.homed fits (apart.guards settled))
    ⟨stuck.idle, by rw [ext.list, stuck.filed], (blockWrites_standing settled located).trans stuck.standing⟩

end Block
end StateKeyFrame
end Elastos.Dpos
