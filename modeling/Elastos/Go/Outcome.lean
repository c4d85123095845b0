import Mathlib

/-! Outcomes of Go calls, and methods that change the object they are called on. A call returns a value,
returns a non-nil error, or panics; what a method wrote before that stays written. -/
set_option autoImplicit false
namespace Elastos.Go
open List
universe u v w

/-- The two ways in which a call ends without its result. -/
inductive Fault (ε : Type u) where
  | error (value : ε)
  | panic (text : String)
  deriving Repr, DecidableEq

abbrev Outcome (ε : Type u) (α : Type v) := Except (Fault ε) α

namespace Outcome
variable {ε : Type u}

def fail {α : Type v} (value : ε) : Outcome ε α :=
  .error (.error value)

def crash {α : Type v} (text : String) : Outcome ε α :=
  .error (.panic text)

variable {ε : Type u} (condition : Prop) [Decidable condition]

/-- Continue only when the condition holds, as `if !condition { return err }`. -/
def require (value : ε) : Outcome ε Unit :=
  if condition then .ok () else fail value

def reject (value : ε) : Outcome ε Unit :=
  if condition then fail value else .ok ()

def when (check : Outcome ε Unit) : Outcome ε Unit :=
  if condition then check else .ok ()

/-- Replace the error of a call, as `if err != nil { return f(err) }`. A panic
passes through. -/
def mapError {ε' : Type v} {α : Type w} (f : ε → ε') : Outcome ε α → Outcome ε' α
  | .ok value => .ok value
  | .error (.error value) => .error (.error (f value))
  | .error (.panic text) => .error (.panic text)

/-- The value of an optional lookup, or the error returned when it is absent. -/
def ofOption {α : Type v} (value : ε) : Option α → Outcome ε α
  | some result => .ok result
  | none => fail value

variable {ε ε' : Type u} {α β ι σ : Type v} (value : ε) {results : List α} {source : Outcome ε α}
variable {continuation : α → Outcome ε β}

theorem bind_eq_ok {result : β} : (source >>= continuation) = .ok result ↔
      ∃ value, source = .ok value ∧ continuation value = .ok result := by
  cases source with
  | error fault => simp [bind, Except.bind]
  | ok value => simp [bind, Except.bind]

theorem exists_of_isOk (passed : source.isOk = true) : ∃ value, source = .ok value := by
  cases source with
  | error fault => cases passed
  | ok value => exact ⟨value, rfl⟩

theorem exists_unit {property : Unit → Prop} : (∃ value, property value) ↔ property () :=
  ⟨fun ⟨_, holds⟩ => holds, fun holds => ⟨(), holds⟩⟩

theorem then_eq_ok {γ : Type} {source : Outcome ε Unit} {continuation : Unit → Outcome ε γ} {result : γ} :
    (source >>= continuation) = .ok result ↔ source = .ok () ∧ continuation () = .ok result := by
  cases source with
  | error fault => simp [bind, Except.bind]
  | ok value => simp [bind, Except.bind]

@[simp] theorem fail_ne_ok (result : α) : (fail value : Outcome ε α) ≠ .ok result := by
  simp [fail]

@[simp] theorem crash_ne_ok (text : String) (result : α) : (crash text : Outcome ε α) ≠ .ok result := by
  simp [crash]

variable (condition : Prop) [Decidable condition]

@[simp] theorem require_eq_ok (value : ε) (result : Unit) :
    require condition value = .ok result ↔ condition := by
  by_cases holds : condition <;> simp [require, holds, fail]

@[simp] theorem reject_eq_ok (value : ε) (result : Unit) :
    reject condition value = .ok result ↔ ¬ condition := by
  by_cases holds : condition <;> simp [reject, holds, fail]

@[simp] theorem when_eq_ok (check : Outcome ε Unit) (result : Unit) :
    Outcome.when condition check = .ok result ↔ (condition → check = .ok ()) := by
  by_cases holds : condition <;> simp [Outcome.when, holds]

@[simp] theorem mapError_eq_ok (f : ε → ε') (source : Outcome ε α) (result : α) :
    mapError f source = .ok result ↔ source = .ok result := by
  cases source with
  | ok value => simp [mapError]
  | error fault => cases fault <;> simp [mapError]

@[simp] theorem ofOption_eq_ok (source : Option α) (result : α) :
    ofOption value source = .ok result ↔ source = some result := by
  cases source <;> simp [ofOption, fail]

/-- A loop whose body can only pass or fail passes when every round does. -/
theorem forM_eq_ok (items : List ι) (body : ι → Outcome ε Unit) (result : Unit) :
    items.forM body = .ok result ↔ ∀ item ∈ items, body item = .ok () := by
  induction items with
  | nil => simp [List.forM, pure, Except.pure]
  | cons head tail ih =>
    rw [List.forM, bind_eq_ok]
    constructor
    · rintro ⟨_, headOk, tailOk⟩ item member
      rcases mem_cons.1 member with rfl | member
      · exact headOk
      · exact ih.1 tailOk item member
    · intro all
      refine ⟨(), all head (by simp), ih.2 fun item member => ?_⟩
      exact all item (mem_cons_of_mem _ member)

variable {body : ι → Outcome ε α}

theorem mapM_eq_ok {items : List ι} : items.mapM body = .ok results ↔
      List.Forall₂ (fun item result => body item = .ok result) items results := by
  induction items generalizing results with
  | nil => simp [mapM_nil, pure, Except.pure, eq_comm]
  | cons head tail ih =>
    simp only [mapM_cons, bind_eq_ok, pure, Except.pure, Except.ok.injEq]
    constructor
    · rintro ⟨first, firstOk, rest, restOk, rfl⟩
      exact .cons firstOk (ih.1 restOk)
    · intro all
      cases all with
      | cons firstOk restOk => exact ⟨_, firstOk, _, ih.2 restOk, rfl⟩

theorem mapM_mem {items : List ι} (mapped : items.mapM body = .ok results) :
    ∀ result ∈ results, ∃ item ∈ items, body item = .ok result := by
  rw [mapM_eq_ok] at mapped
  induction mapped with
  | nil => simp
  | cons head _ ih =>
    intro result member
    rcases mem_cons.1 member with rfl | member
    · exact ⟨_, mem_cons_self, head⟩
    · obtain ⟨item, itemMember, bodyOk⟩ := ih result member
      exact ⟨item, mem_cons_of_mem _ itemMember, bodyOk⟩

theorem mapM_singleton_eq_ok {item : ι} :
    [item].mapM body = .ok results ↔ ∃ result, body item = .ok result ∧ results = [result] := by
  rw [mapM_eq_ok, forall₂_cons_left_iff]
  simp

variable {step : σ → ι → Outcome ε σ}

/-- What every round of a loop with an accumulator establishes about its item holds
of all items once the loop has passed. -/
theorem foldlM_forall {property : ι → Prop}
    (each : ∀ state item next, step state item = .ok next → property item) {items : List ι}
    {state result : σ} (passed : items.foldlM step state = .ok result) : ∀ item ∈ items, property item := by
  induction items generalizing state with
  | nil => simp
  | cons head tail ih =>
    rw [foldlM_cons, bind_eq_ok] at passed
    obtain ⟨next, headOk, tailOk⟩ := passed
    intro item member
    rcases mem_cons.1 member with rfl | member
    · exact each state item next headOk
    · exact ih tailOk item member

/-- What every round of such a loop keeps true of the accumulator holds at its end. -/
theorem foldlM_invariant {invariant : σ → Prop} {items : List ι}
    (each : ∀ state, ∀ item ∈ items, ∀ next, invariant state →
      step state item = .ok next → invariant next) {state result : σ} (initial : invariant state)
    (passed : items.foldlM step state = .ok result) : invariant result := by
  induction items generalizing state with
  | nil =>
    simp only [foldlM_nil, pure, Except.pure, Except.ok.injEq] at passed
    exact passed ▸ initial
  | cons head tail ih =>
    rw [foldlM_cons, bind_eq_ok] at passed
    obtain ⟨next, headOk, tailOk⟩ := passed
    refine ih (fun current item member => each current item (mem_cons_of_mem _ member)) ?_ tailOk
    exact each state head (by simp) next initial headOk

/-- A call that returns a value or an error. -/
def Safe (source : Outcome ε α) : Prop := ∀ text, source ≠ crash text

@[simp] theorem safe_ok (result : α) : Safe (.ok result : Outcome ε α) := nofun

@[simp] theorem safe_fail : Safe (.fail value : Outcome ε α) := nofun

@[simp] theorem not_safe_crash (text : String) : ¬ Safe (crash text : Outcome ε α) := fun safe => safe text rfl

@[simp] theorem safe_bind : (source >>= continuation).Safe ↔
    source.Safe ∧ ∀ value, source = .ok value → (continuation value).Safe := by
  cases source with
  | ok value => simp [bind, Except.bind]
  | error fault => simp [Safe, crash, bind, Except.bind]

@[simp] theorem safe_ite {condition : Prop} [Decidable condition] {other : Outcome ε α} :
    (if condition then source else other).Safe ↔ (condition → source.Safe) ∧ (¬ condition → other.Safe) := by
  split <;> simp [*]

@[simp] theorem safe_require : (require condition value).Safe := by
  simp [require]

@[simp] theorem safe_reject : (reject condition value).Safe := by
  simp [reject]

theorem safe_foldlM {step : β → ι → Outcome ε β} {items : List ι} (each : ∀ state item, (step state item).Safe)
    (state : β) : (items.foldlM step state).Safe := by
  induction items generalizing state with
  | nil => exact safe_ok state
  | cons head tail ih => simp [foldlM_cons, each, ih]

/-- A loop is safe if each round is that it comes to. -/
theorem safe_forM {body : ι → Outcome ε Unit} {items : List ι} : (items.forM body).Safe ↔
    ∀ before item after, items = before ++ item :: after → (∀ earlier ∈ before, body earlier = .ok ()) →
      (body item).Safe := by
  induction items with
  | nil => exact iff_of_true (safe_ok ()) (by simp)
  | cons head tail ih =>
    change (body head >>= fun _ => tail.forM body).Safe ↔ _
    rw [safe_bind, ih]
    constructor
    · rintro ⟨first, others⟩ (_ | ⟨earlier, before⟩) item after split passed
      · cases split
        exact first
      · cases split
        obtain ⟨passed, rest⟩ := forall_mem_cons.1 passed
        exact others () passed before item after rfl rest
    · intro each
      refine ⟨each [] head tail rfl (by simp), fun _ passed before item after split earlier => ?_⟩
      exact each (head :: before) item after (by rw [split]; rfl) (forall_mem_cons.2 ⟨passed, earlier⟩)

end Outcome

/-- A call on an object of type `σ`. -/
def Method (σ ε α : Type) := σ → Outcome ε α × σ

namespace Method
variable {σ τ ε α β : Type} {continuation : β → Method σ ε α} {method : Method σ ε β}

instance : Monad (Method σ ε) where
  pure value := fun object => (.ok value, object)
  bind method continuation := fun object =>
    match method object with
    | (.ok value, after) => continuation value after
    | (.error fault, after) => (.error fault, after)

/-- Return what a function without side effects returns. -/
def lift (result : Outcome ε α) : Method σ ε α := fun object => (result, object)

def fail (value : ε) : Method σ ε α := lift (.fail value)

def crash (text : String) : Method σ ε α := lift (.crash text)

variable (condition : Prop) [Decidable condition]

def require (value : ε) : Method σ ε Unit :=
  lift (.require condition value)

def when (method : Method σ ε Unit) : Method σ ε Unit :=
  if condition then method else pure ()

/-- Replace the error that a method returns. A panic passes through. -/
def mapError {ε' : Type} (f : ε → ε') (method : Method σ ε α) : Method σ ε' α :=
  fun object =>
    let (result, after) := method object
    (result.mapError f, after)

def this : Method σ ε σ := fun object => (.ok object, object)

def update (change : σ → σ) : Method σ ε Unit := fun object => (.ok (), change object)

def part (get : τ → σ) (set : τ → σ → τ) (method : Method σ ε α) : Method τ ε α :=
  fun object =>
    let (result, after) := method (get object)
    (result, set object after)

theorem bind_returned {value : β} {object after : σ} (run : method object = (.ok value, after)) :
    (method >>= continuation) object = continuation value after := by
  change (match method object with
    | (.ok value, after) => continuation value after
    | (.error fault, after) => (.error fault, after)) = _
  rw [run]

theorem bind_failed {fault : Fault ε} {object after : σ} (run : method object = (.error fault, after)) :
    (method >>= continuation) object = (.error fault, after) := by
  change (match method object with
    | (.ok value, after) => continuation value after
    | (.error fault, after) => (.error fault, after)) = _
  rw [run]

instance : LawfulMonad (Method σ ε) := by
  refine LawfulMonad.mk' _ (fun method => ?_) (fun value continuation => rfl) fun method first second => ?_
  all_goals
    funext object
    have run : method object = ((method object).1, (method object).2) := rfl
    cases result : (method object).1 <;> rw [result] at run
  · exact (bind_failed run).trans run.symm
  · exact (bind_returned run).trans run.symm
  · rw [bind_failed run, bind_failed (bind_failed run)]
  · rw [bind_returned run]
    change (match (method >>= first) object with
      | (.ok value, after) => second value after
      | (.error fault, after) => (.error fault, after)) = _
    rw [bind_returned run]
    rfl

/-- What a method guarantees when it is called on an object that satisfies
`before`: one condition if it returns a value and another one if it returns an
error. A panic ends the program, so nothing is said about the object then. -/
def Ensures (before : σ → Prop) (method : Method σ ε α) (returned : α → σ → Prop) (failed : σ → Prop) : Prop :=
  ∀ object, before object →
    match method object with
    | (.ok value, after) => returned value after
    | (.error (.error _), after) => failed after
    | (.error (.panic _), _) => True

namespace Ensures
variable {before : σ → Prop} {returned : α → σ → Prop} {failed : σ → Prop} {method : Method σ ε α}
  {continuation : β → Method σ ε α} {condition : Prop} {object after : σ} {change : σ → σ}
  {ι : Type} {value : ε}

section
variable (ensures : Ensures before method returned failed)
include ensures

theorem of_returned {value : α} (holds : before object) (run : method object = (.ok value, after)) :
    returned value after := by
  have result := ensures object holds
  rw [run] at result
  exact result

theorem of_failed {reason : ε} (holds : before object)
    (run : method object = (.error (.error reason), after)) : failed after := by
  have result := ensures object holds
  rw [run] at result
  exact result

theorem weaken {before' : σ → Prop} {returned' : α → σ → Prop} {failed' : σ → Prop}
    (stronger : ∀ object, before' object → before object)
    (whenReturned : ∀ value after, returned value after → returned' value after)
    (whenFailed : ∀ after, failed after → failed' after) : Ensures before' method returned' failed' := by
  intro object holds
  have result := ensures object (stronger object holds)
  match run : method object with
  | (.ok value, after) => rw [run] at result; exact whenReturned value after result
  | (.error (.error reason), after) => rw [run] at result; exact whenFailed after result
  | (.error (.panic text), after) => exact trivial

theorem imp {returned' : α → σ → Prop} {failed' : σ → Prop}
    (whenReturned : ∀ value after, returned value after → returned' value after)
    (whenFailed : ∀ after, failed after → failed' after) : Ensures before method returned' failed' :=
  ensures.weaken (fun _ => id) whenReturned whenFailed

end

theorem pure (value : α) (holds : ∀ object, before object → returned value object) :
    Ensures before (Pure.pure value : Method σ ε α) returned failed :=
  holds

theorem fail (value : ε) (holds : ∀ object, before object → failed object) :
    Ensures before (Method.fail value : Method σ ε α) returned failed :=
  holds

theorem crash (text : String) : Ensures before (Method.crash text : Method σ ε α) returned failed :=
  fun _ _ => trivial

theorem this {returned : σ → σ → Prop} (holds : ∀ object, before object → returned object object) :
    Ensures before (Method.this : Method σ ε σ) returned failed :=
  holds

theorem update {returned : Unit → σ → Prop} (holds : ∀ object, before object → returned () (change object)) :
    Ensures before (Method.update change : Method σ ε Unit) returned failed :=
  holds

/-- A fact that does not speak of the object is a hypothesis. -/
theorem of_fact {fact : Prop} (ensures : fact → Ensures before method returned failed) :
    Ensures (fun object => before object ∧ fact) method returned failed :=
  fun object holds => ensures holds.2 object holds.1

theorem of_exists {before : ι → σ → Prop} (ensures : ∀ index, Ensures (before index) method returned failed) :
    Ensures (fun object => ∃ index, before index object) method returned failed :=
  fun object ⟨index, holds⟩ => ensures index object holds

theorem bind_this {continuation : σ → Method σ ε α} (holds : ∀ object, before object →
      Ensures (· = object) (continuation object) returned failed) :
    Ensures before (Method.this >>= continuation) returned failed :=
  fun object start => holds object start object rfl

theorem bind_run {method : Method σ ε β} (second : ∀ value after, method object = (.ok value, after) →
      Ensures (· = after) (continuation value) returned failed)
    (whenError : ∀ reason after, method object = (.error (.error reason), after) → failed after) :
    Ensures (· = object) (method >>= continuation) returned failed := by
  rintro state rfl
  change match (match method state with
    | (.ok value, after) => continuation value after
    | (.error fault, after) => (.error fault, after)) with
    | (.ok value, after) => returned value after
    | (.error (.error _), after) => failed after
    | (.error (.panic _), _) => True
  match run : method state with
  | (.ok value, after) => exact second value after run after rfl
  | (.error (.error reason), after) => exact whenError reason after run
  | (.error (.panic text), after) => exact trivial

theorem bind {method : Method σ ε β} {between : β → σ → Prop} (first : Ensures before method between failed)
    (second : ∀ value, Ensures (between value) (continuation value) returned failed) :
    Ensures before (method >>= continuation) returned failed := by
  intro object holds
  refine bind_run (fun value after run => ?_) (fun _ _ run => first.of_failed holds run) object rfl
  rintro _ rfl
  exact second value _ (first.of_returned holds run)

theorem bind_update {between : σ → Prop} {continuation : Unit → Method σ ε α}
    (holds : ∀ object, before object → between (change object))
    (second : Ensures between (continuation ()) returned failed) :
    Ensures before (Method.update change >>= continuation) returned failed :=
  fun object start => second (change object) (holds object start)

theorem lift {result : Outcome ε α}
    (whenOk : ∀ value object, result = .ok value → before object → returned value object)
    (whenError : ∀ object, before object → failed object) :
    Ensures before (Method.lift result : Method σ ε α) returned failed := by
  intro object holds
  unfold Method.lift
  match result with
  | .ok value => exact whenOk value object rfl holds
  | .error (.error reason) => exact whenError object holds
  | .error (.panic text) => exact trivial

variable [Decidable condition]

theorem require {returned : Unit → σ → Prop}
    (whenTrue : ∀ object, condition → before object → returned () object)
    (whenFalse : ∀ object, ¬ condition → before object → failed object) :
    Ensures before (Method.require condition value : Method σ ε Unit) returned failed := by
  intro object holds
  unfold Method.require Method.lift
  by_cases met : condition
  · rw [Outcome.require, if_pos met]
    exact whenTrue object met holds
  · rw [Outcome.require, if_neg met]
    exact whenFalse object met holds

theorem bind_require {continuation : Unit → Method σ ε α}
    (second : condition → Ensures before (continuation ()) returned failed)
    (whenFalse : ∀ object, ¬ condition → before object → failed object) :
    Ensures before (Method.require condition value >>= continuation) returned failed := by
  have passed : Ensures before (Method.require condition value) (fun _ object => before object ∧ condition) failed :=
    .require (fun _ met holds => ⟨holds, met⟩) whenFalse
  exact .bind passed fun _ => .of_fact second

theorem bind_lift {result : Outcome ε β} (second : ∀ value, result = .ok value →
      Ensures before (continuation value) returned failed)
    (whenError : ∀ object, before object → failed object) :
    Ensures before (Method.lift result >>= continuation) returned failed := by
  have passed : Ensures before (Method.lift result) (fun value object => before object ∧ result = .ok value) failed :=
    .lift (fun _ _ equal holds => ⟨holds, equal⟩) whenError
  exact .bind passed fun value => .of_fact (second value)

theorem mapError {ε' : Type} {f : ε → ε'} (inner : Ensures before method returned failed) :
    Ensures before (Method.mapError f method) returned failed := by
  intro object holds
  have result := inner object holds
  unfold Method.mapError
  match run : method object with
  | (.ok value, after) => rw [run] at result; exact result
  | (.error (.error reason), after) => rw [run] at result; exact result
  | (.error (.panic text), after) => exact trivial

theorem ite {first second : Method σ ε α}
    (whenTrue : condition → Ensures before first returned failed)
    (whenFalse : ¬ condition → Ensures before second returned failed) :
    Ensures before (if condition then first else second) returned failed := by
  by_cases holds : condition
  · rw [if_pos holds]
    exact whenTrue holds
  · rw [if_neg holds]
    exact whenFalse holds

/-- A loop over a list: the invariant speaks of the items still to come. -/
theorem forM {body : ι → Method σ ε Unit} {invariant : List ι → σ → Prop}
    (step : ∀ item rest, Ensures (invariant (item :: rest)) (body item)
      (fun _ => invariant rest) failed) (items : List ι) :
    Ensures (invariant items) (items.forM body) (fun _ => invariant []) failed := by
  induction items with
  | nil => exact .pure () fun _ holds => holds
  | cons item rest ih => exact Ensures.bind (step item rest) fun _ => ih

end Ensures

/-- An invariant that a method keeps, whether it returns a value or an error. -/
def Keeps (invariant : σ → Prop) (method : Method σ ε α) : Prop :=
  Ensures invariant method (fun _ => invariant) invariant

namespace Keeps
variable {invariant : σ → Prop} {method : Method σ ε α}

theorem bind {method : Method σ ε β} {continuation : β → Method σ ε α}
    (first : Keeps invariant method) (second : ∀ value, Keeps invariant (continuation value)) :
    Keeps invariant (method >>= continuation) :=
  Ensures.bind first second

theorem pure (value : α) : Keeps invariant (Pure.pure value : Method σ ε α) :=
  Ensures.pure value fun _ holds => holds

theorem fail (value : ε) : Keeps invariant (Method.fail value : Method σ ε α) :=
  Ensures.fail value fun _ holds => holds

theorem crash (text : String) : Keeps invariant (Method.crash text : Method σ ε α) :=
  Ensures.crash text

theorem lift (result : Outcome ε α) : Keeps invariant (Method.lift result : Method σ ε α) :=
  Ensures.lift (fun _ _ _ holds => holds) fun _ holds => holds

variable (condition : Prop) [Decidable condition]

theorem require (value : ε) :
    Keeps invariant (Method.require condition value : Method σ ε Unit) :=
  .lift _

theorem this : Keeps invariant (Method.this : Method σ ε σ) :=
  Ensures.this fun _ holds => holds

theorem update {change : σ → σ} (holds : ∀ object, invariant object → invariant (change object)) :
    Keeps invariant (Method.update change : Method σ ε Unit) :=
  Ensures.update holds

theorem ite {condition : Prop} [Decidable condition] {first second : Method σ ε α}
    (whenTrue : Keeps invariant first) (whenFalse : Keeps invariant second) :
    Keeps invariant (if condition then first else second) :=
  Ensures.ite (fun _ => whenTrue) fun _ => whenFalse

theorem when {method : Method σ ε Unit}
    (whenTrue : Keeps invariant method) : Keeps invariant (Method.when condition method) :=
  .ite whenTrue (.pure ())

theorem forM {ι : Type} {body : ι → Method σ ε Unit} (items : List ι)
    (step : ∀ item, Keeps invariant (body item)) : Keeps invariant (items.forM body) := by
  induction items with
  | nil => exact .pure ()
  | cons item rest ih => exact Keeps.bind (step item) fun _ => ih

theorem mapError {ε' : Type} {f : ε → ε'} (inner : Keeps invariant method) :
    Keeps invariant (Method.mapError f method) :=
  Ensures.mapError inner

/-- A method of a part keeps what setting that part keeps. -/
theorem part {get : τ → σ} {set : τ → σ → τ} {invariant : τ → Prop}
    (keeps : ∀ object value, invariant object → invariant (set object value)) :
    Keeps invariant (Method.part get set method) := by
  intro object holds
  unfold Method.part
  match method (get object) with
  | (.ok value, after) => exact keeps object after holds
  | (.error (.error reason), after) => exact keeps object after holds
  | (.error (.panic text), after) => exact trivial

end Keeps

section Run
variable {σ ε α β : Type} {object after : σ} {value : α} {done : Unit} {condition : Prop}

theorem bind_ok_iff {method : Method σ ε β} {continuation : β → Method σ ε α} :
    (method >>= continuation) object = (.ok value, after) ↔ ∃ middle between, method object = (.ok middle, between) ∧
        continuation middle between = (.ok value, after) := by
  rcases run : method object with ⟨fault | middle, between⟩
  · rw [bind_failed run]
    simp
  · rw [bind_returned run]
    simp

theorem this_bind {continuation : σ → Method σ ε α} :
    (Method.this >>= continuation) object = continuation object object := rfl

@[simp] theorem pure_ok_iff {result : α} :
    (pure result : Method σ ε α) object = (.ok value, after) ↔ result = value ∧ object = after := by
  change (Except.ok result, object) = _ ↔ _
  simp

@[simp] theorem update_ok_iff {change : σ → σ} : (Method.update change : Method σ ε Unit) object = (.ok done, after) ↔
      change object = after := by
  simp [Method.update]

@[simp] theorem lift_ok_iff {result : Outcome ε α} : (Method.lift result : Method σ ε α) object = (.ok value, after) ↔
      result = .ok value ∧ object = after := by
  simp [Method.lift]

@[simp] theorem crash_ok_iff {text : String} :
    (Method.crash text : Method σ ε α) object = (.ok value, after) ↔ False := by
  simp [Method.crash, Outcome.crash]

theorem ite_ok_iff [Decidable condition] {first second : Method σ ε α} :
    (if condition then first else second) object = (.ok value, after) ↔
      condition ∧ first object = (.ok value, after) ∨ ¬ condition ∧ second object = (.ok value, after) := by
  by_cases holds : condition <;> simp [holds]

theorem when_ok_iff [Decidable condition] {method : Method σ ε Unit} :
    Method.when condition method object = (.ok done, after) ↔
      condition ∧ method object = (.ok (), after) ∨ ¬ condition ∧ object = after := by
  simp only [Method.when, ite_ok_iff, pure_ok_iff, true_and]

theorem forM_steps {ι : Type} {body : ι → Method σ ε Unit} {relation : σ → σ → Prop} {items : List ι}
    (step : ∀ item ∈ items, ∀ before next, body item before = (.ok (), next) →
      Relation.ReflTransGen relation before next)
    (run : items.forM body object = (.ok (), after)) : Relation.ReflTransGen relation object after := by
  induction items generalizing object with
  | nil =>
    obtain ⟨_, rfl⟩ := pure_ok_iff.1 run
    exact .refl
  | cons item rest ih =>
    obtain ⟨_, between, first, others⟩ := bind_ok_iff.1 run
    have later := ih (fun item member => step item (List.mem_cons_of_mem _ member)) others
    exact (step item List.mem_cons_self _ _ first).trans later

end Run
end Method
end Elastos.Go
