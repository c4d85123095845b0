import Elastos.Types.Transaction

/-! The bloom filter of `SPV/bloom/filter.go`, where `MurmurHash3` is any
function of a seed and data. -/
set_option autoImplicit false
namespace Elastos.Spv
open Go Common Outcome List
open Elastos.Types (OutPoint)

structure FilterLoad where
  filter : Bytes
  hashFuncs : UInt32
  tweak : UInt32

def FilterLoad.bits (msg : FilterLoad) : UInt32 := UInt32.ofNat msg.filter.length <<< 3

variable (murmurHash3 : UInt32 → Bytes → UInt32)

namespace FilterLoad
variable (data : Bytes) (msg : FilterLoad)

def hash (hashNum : UInt32) : Outcome String UInt32 :=
  if msg.bits = 0 then .crash "integer divide by zero"
  else .ok (murmurHash3 (hashNum * 0xfba4c795 + msg.tweak) data % msg.bits)

/-- The byte that an offset is in. -/
def byteAt (idx : UInt32) : Outcome String UInt8 :=
  match msg.filter[(idx >>> 3).toNat]? with
  | some byte => .ok byte
  | none => .crash "index out of range"

def mask (idx : UInt32) : UInt8 := 1 <<< (idx &&& 7).toUInt8

def setBit (i : Nat) : Outcome String FilterLoad := do
  let idx ← msg.hash murmurHash3 data (UInt32.ofNat i)
  let byte ← msg.byteAt idx
  .ok { msg with filter := msg.filter.set (idx >>> 3).toNat (byte ||| mask idx) }

def hasBit (i : Nat) : Outcome String Bool := do
  let idx ← msg.hash murmurHash3 data (UInt32.ofNat i)
  let byte ← msg.byteAt idx
  .ok (byte &&& mask idx != 0)

end FilterLoad

/-- A filter that is not loaded is left as it is. -/
def add (bf : Option FilterLoad) (data : Bytes) : Outcome String (Option FilterLoad) :=
  match bf with
  | none => .ok none
  | some msg => do .ok (some (← (range msg.hashFuncs.toNat).foldlM (FilterLoad.setBit murmurHash3 data) msg))

def matchesData (bf : Option FilterLoad) (data : Bytes) : Outcome String Bool :=
  match bf with
  | none => .ok false
  | some msg => (range msg.hashFuncs.toNat).allM (msg.hasBit murmurHash3 data)

/-- What `Add`, `AddHash` and `AddOutPoint` take. -/
inductive Item where
  | data (bytes : Bytes)
  | hash (value : Uint256)
  | outPoint (value : OutPoint)

def Item.bytes : Item → Bytes
  | data bytes => bytes
  | hash value => value.bytes
  | outPoint value => value.txID.bytes ++ writeUint16 value.index

def addAll (bf : Option FilterLoad) (items : List Item) : Outcome String (Option FilterLoad) :=
  items.foldlM (fun bf item => add murmurHash3 bf item.bytes) bf

namespace FilterLoad
variable {murmurHash3} {data : Bytes} {msg after later : FilterLoad} {i : Nat}

theorem bits_eq_zero : msg.bits = 0 ↔ 2 ^ 29 ∣ msg.filter.length := by
  rw [bits, ← UInt32.toNat_inj]
  simp [UInt32.toNat_shiftLeft, Nat.shiftLeft_eq]
  omega

def Has (msg : FilterLoad) (idx : UInt32) : Prop :=
  ∃ byte, msg.filter[(idx >>> 3).toNat]? = some byte ∧ byte &&& mask idx ≠ 0

/-- Bits are added, and nothing else changes. -/
structure Grows (msg after : FilterLoad) : Prop where
  hashFuncs : after.hashFuncs = msg.hashFuncs
  tweak : after.tweak = msg.tweak
  bits : after.bits = msg.bits
  has : ∀ idx, msg.Has idx → after.Has idx

theorem Grows.refl (msg : FilterLoad) : Grows msg msg := ⟨rfl, rfl, rfl, fun _ has => has⟩

theorem Grows.trans (first : Grows msg after) (second : Grows after later) : Grows msg later where
  hashFuncs := second.hashFuncs.trans first.hashFuncs
  tweak := second.tweak.trans first.tweak
  bits := second.bits.trans first.bits
  has idx has := second.has idx (first.has idx has)

theorem byteAt_eq_ok {idx : UInt32} {byte : UInt8} :
    msg.byteAt idx = .ok byte ↔ msg.filter[(idx >>> 3).toNat]? = some byte := by
  rw [byteAt]
  cases msg.filter[(idx >>> 3).toNat]? <;> simp

theorem hasBit_iff : msg.hasBit murmurHash3 data i = .ok true ↔
    ∃ idx, msg.hash murmurHash3 data (UInt32.ofNat i) = .ok idx ∧ msg.Has idx := by
  simp [hasBit, bind_eq_ok, byteAt_eq_ok, Has]

theorem Grows.hasBit (grows : Grows msg after) (set : msg.hasBit murmurHash3 data i = .ok true) :
    after.hasBit murmurHash3 data i = .ok true := by
  obtain ⟨idx, hashed, has⟩ := hasBit_iff.1 set
  refine hasBit_iff.2 ⟨idx, ?_, grows.has idx has⟩
  rw [hash, grows.bits, grows.tweak]
  exact hashed

theorem or_and_ne_zero {byte bit : UInt8} (extra : UInt8) (set : byte &&& bit ≠ 0) : (byte ||| extra) &&& bit ≠ 0 := by
  have split : (byte ||| extra) &&& bit = (byte &&& bit) ||| (extra &&& bit) :=
    UInt8.eq_of_toBitVec_eq (by ext; simp [Bool.and_or_distrib_right])
  rw [split, Ne, UInt8.or_eq_zero_iff]
  exact fun none => set none.1

theorem mask_ne_zero (idx : UInt32) : mask idx ≠ 0 := by
  have shifted : ∀ count : UInt8, (1 : UInt8) <<< count ≠ 0 := by decide +kernel
  exact shifted _

theorem setBit_grows (some : msg.bits ≠ 0) : ∃ after, setBit murmurHash3 data msg i = .ok after ∧
    Grows msg after ∧ after.hasBit murmurHash3 data i = .ok true := by
  generalize found : murmurHash3 (UInt32.ofNat i * 0xfba4c795 + msg.tweak) data % msg.bits = idx
  have inside : (idx >>> 3).toNat < msg.filter.length := by
    have below : idx.toNat < msg.bits.toNat := by
      rw [← found, UInt32.toNat_mod]
      exact Nat.mod_lt _ (Nat.pos_of_ne_zero fun zero => some (UInt32.toNat_inj.1 zero))
    simp [FilterLoad.bits, UInt32.toNat_shiftLeft, UInt32.toNat_shiftRight, Nat.shiftLeft_eq,
      Nat.shiftRight_eq_div_pow] at below ⊢
    omega
  have bits : ∀ byte, ({ msg with filter := msg.filter.set (idx >>> 3).toNat byte } : FilterLoad).bits = msg.bits := by
    simp [FilterLoad.bits]
  have hashed : hash murmurHash3 data msg (UInt32.ofNat i) = .ok idx := (if_neg some).trans (congrArg _ found)
  obtain ⟨byte, here⟩ : ∃ byte, msg.filter[(idx >>> 3).toNat]? = .some byte := ⟨_, getElem?_eq_getElem inside⟩
  refine ⟨_, bind_eq_ok.2 ⟨idx, hashed, bind_eq_ok.2 ⟨byte, byteAt_eq_ok.2 here, rfl⟩⟩, ⟨rfl, rfl, bits _, ?_⟩, ?_⟩
  · rintro other ⟨old, there, set⟩
    by_cases same : (idx >>> 3).toNat = (other >>> 3).toNat
    · rw [← same, here] at there
      cases there
      exact ⟨byte ||| mask idx, by rw [← same, getElem?_set_self inside], or_and_ne_zero _ set⟩
    · exact ⟨old, by rw [getElem?_set_ne same, there], set⟩
  · refine hasBit_iff.2 ⟨idx, ?_, byte ||| mask idx, ?_, ?_⟩
    · rw [hash, bits]
      exact hashed
    · exact getElem?_set_self inside
    · rw [UInt8.or_comm]
      exact or_and_ne_zero byte (by simpa using mask_ne_zero idx)

/-- The bits of one item are set one after the other, each on the filter that the bits before it leave. -/
theorem setBits_grow {numbers : List Nat} (some : ∀ i ∈ numbers, msg.bits ≠ 0) :
    ∃ after, numbers.foldlM (setBit murmurHash3 data) msg = .ok after ∧ Grows msg after ∧
      ∀ i ∈ numbers, after.hasBit murmurHash3 data i = .ok true := by
  induction numbers generalizing msg with
  | nil => exact ⟨msg, rfl, .refl msg, by simp⟩
  | cons i rest ih =>
    rw [forall_mem_cons] at some
    obtain ⟨middle, set, grows, has⟩ := setBit_grows some.1
    obtain ⟨after, added, grows', all⟩ := ih (grows.bits ▸ some.2)
    refine ⟨after, bind_eq_ok.2 ⟨middle, set, added⟩, grows.trans grows', ?_⟩
    exact forall_mem_cons.2 ⟨grows'.hasBit has, all⟩

end FilterLoad

variable {murmurHash3} {msg : FilterLoad} {items : List Item}

theorem allM_eq_ok {test : Nat → Outcome String Bool} {numbers : List Nat} :
    numbers.allM test = .ok true ↔ ∀ i ∈ numbers, test i = .ok true := by
  induction numbers with
  | nil => simp [allM, pure, Except.pure]
  | cons i rest ih =>
    rw [allM, bind_eq_ok, forall_mem_cons, ← ih]
    simp [pure, Except.pure]

theorem addAll_grows (some : msg.hashFuncs = 0 ∨ msg.bits ≠ 0) :
    ∃ after, addAll murmurHash3 (.some msg) items = .ok (.some after) ∧ FilterLoad.Grows msg after ∧
      ∀ item ∈ items, matchesData murmurHash3 (.some after) item.bytes = .ok true := by
  induction items generalizing msg with
  | nil => exact ⟨msg, rfl, .refl msg, by simp⟩
  | cons item rest ih =>
    have bits : ∀ i ∈ range msg.hashFuncs.toNat, msg.bits ≠ 0 := fun i member =>
      some.resolve_left fun zero => by simp [zero] at member
    obtain ⟨middle, set, grows, has⟩ := FilterLoad.setBits_grow bits
    obtain ⟨after, added, grows', all⟩ := ih (grows.hashFuncs ▸ grows.bits ▸ some)
    refine ⟨after, bind_eq_ok.2 ⟨_, bind_eq_ok.2 ⟨middle, set, rfl⟩, added⟩, grows.trans grows', ?_⟩
    refine forall_mem_cons.2 ⟨allM_eq_ok.2 fun i member => grows'.hasBit (has i ?_), all⟩
    rwa [grows'.hashFuncs, grows.hashFuncs] at member

theorem addAll_undefined (none : msg.bits = 0) (hashes : msg.hashFuncs ≠ 0) (item : Item) :
    addAll murmurHash3 (some msg) (item :: items) = .crash "integer divide by zero" := by
  obtain ⟨count, counted⟩ := Nat.exists_eq_succ_of_ne_zero fun zero => hashes (UInt32.toNat_inj.1 zero)
  rw [addAll, foldlM_cons, add, counted, range_succ_eq_map, foldlM_cons, FilterLoad.setBit, FilterLoad.hash,
    if_pos none]
  rfl

/-- Every item that was added matches, unless there is a hash to take modulo a number of bits that is
zero as a `uint32`. -/
theorem addAll_matches (msg : FilterLoad) (items : List Item) :
    (∃ after, addAll murmurHash3 (some msg) items = .ok after ∧
      ∀ item ∈ items, matchesData murmurHash3 after item.bytes = .ok true) ↔
    items = [] ∨ msg.hashFuncs = 0 ∨ ¬ 2 ^ 29 ∣ msg.filter.length := by
  rw [← FilterLoad.bits_eq_zero]
  constructor
  · rintro ⟨after, added, _⟩
    by_contra undefined
    simp only [not_or, not_not] at undefined
    obtain ⟨item, rest, rfl⟩ := exists_cons_of_ne_nil undefined.1
    rw [addAll_undefined undefined.2.2 undefined.2.1] at added
    exact crash_ne_ok _ _ added
  · rintro (rfl | some)
    · exact ⟨some msg, rfl, by simp⟩
    · obtain ⟨after, added, -, all⟩ := addAll_grows some
      exact ⟨after, added, all⟩

/-- A filter of the maximum size and number of hash functions. -/
theorem addAll_matches_maximal : ∃ after,
    addAll (fun seed _ => seed) (some ⟨replicate 36000 0, 50, 7⟩) [.data [1, 2], .hash default] = .ok after ∧
      ∀ item ∈ [Item.data [1, 2], .hash default], matchesData (fun seed _ => seed) after item.bytes = .ok true :=
  (addAll_matches _ _).2 (.inr (.inr (by rw [length_replicate]; decide)))

theorem addAll_crash : addAll (fun seed _ => seed) (some ⟨replicate (2 ^ 29) 0, 1, 0⟩) [.data []] =
    .crash "integer divide by zero" :=
  addAll_undefined (FilterLoad.bits_eq_zero.2 (dvd_of_eq length_replicate.symm)) (by decide) _

end Elastos.Spv
