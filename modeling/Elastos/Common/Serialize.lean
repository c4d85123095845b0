import Elastos.Go.Outcome

/-! Byte strings, the fixed-size hashes of the `common` package and the encoding of
`common/serialize.go`. An encoder that can fail keeps what it wrote before the failure. -/
set_option autoImplicit false
namespace Elastos.Common
open Go

abbrev Bytes := List UInt8

instance : LawfulBEq Bytes := inferInstance

def text (value : String) : Bytes :=
  value.toList.map fun char => UInt8.ofNat char.toNat

def display (value : Bytes) : String :=
  String.ofList (value.map fun byte => Char.ofNat byte.toNat)

def hexDigit (value : Nat) : Char := (Nat.toDigits 16 value).headD '0'

def bytesToHexString (value : Bytes) : String :=
  String.ofList (value.flatMap fun byte =>
    [hexDigit (byte.toNat / 16), hexDigit (byte.toNat % 16)])

/-- `bytes.Compare(left, right) < 0`. -/
def Bytes.less : Bytes → Bytes → Bool
  | [], [] => false
  | [], _ :: _ => true
  | _ :: _, [] => false
  | left :: lefts, right :: rights =>
    if left < right then true
    else if right < left then false
    else Bytes.less lefts rights

structure ByteArrayOf (size : Nat) where
  bytes : Bytes
  size_eq : bytes.length = size
  deriving DecidableEq

namespace ByteArrayOf
variable {size : Nat}

/-- `copy(array[:], data)` into a zeroed array. -/
def ofBytes (size : Nat) (data : Bytes) : ByteArrayOf size where
  bytes := data.take size ++ List.replicate (size - data.length) 0
  size_eq := by simp; omega

def zero (size : Nat) : ByteArrayOf size where
  bytes := List.replicate size 0
  size_eq := by simp

instance : Inhabited (ByteArrayOf size) := ⟨zero size⟩

@[ext] theorem ext {left right : ByteArrayOf size} (same : left.bytes = right.bytes) :
    left = right := by
  cases left
  cases right
  simpa using same

/-- `Compare(..) < 0`, which looks at the last byte first. -/
def less (left right : ByteArrayOf size) : Bool :=
  Bytes.less left.bytes.reverse right.bytes.reverse

end ByteArrayOf

abbrev Uint160 := ByteArrayOf 20
abbrev Uint168 := ByteArrayOf 21
abbrev Uint256 := ByteArrayOf 32

instance : LawfulBEq Uint168 := inferInstance

instance : LawfulBEq Uint256 := inferInstance

namespace Uint168

def prefixByte (programHash : Uint168) : UInt8 :=
  programHash.bytes.headD 0

def toCodeHash (programHash : Uint168) : Uint160 where
  bytes := programHash.bytes.tail
  size_eq := by simp [programHash.size_eq]

def fromBytes (data : Bytes) : Outcome String Uint168 :=
  if size : data.length = 21 then .ok ⟨data, size⟩
  else .fail "[Uint168FromBytes] error, len != 21"

end Uint168

namespace Uint256

def fromBytes (data : Bytes) : Outcome String Uint256 :=
  if size : data.length = 32 then .ok ⟨data, size⟩
  else .fail "[Common]: Uint256ParseFromBytes err, len != 32"

end Uint256

/-- A fixed-point amount with eight decimals, an `int64` in the source. -/
abbrev Fixed64 := Int64

/-- The decimal text of an amount, without trailing dots but with all eight
decimals when there are any. -/
def Fixed64.text (amount : Fixed64) : String :=
  let magnitude := amount.toInt.natAbs
  let decimals := Nat.toDigits 10 (magnitude % 100000000)
  let fraction :=
    if magnitude % 100000000 = 0 then ""
    else "." ++ String.ofList (List.replicate (8 - decimals.length) '0' ++ decimals)
  (if amount < 0 then "-" else "") ++ toString (magnitude / 100000000) ++ fraction

def littleEndian : Nat → Nat → Bytes
  | 0, _ => []
  | count + 1, value => UInt8.ofNat (value % 256) :: littleEndian count (value / 256)

def fromLittleEndian : Bytes → Nat
  | [] => 0
  | byte :: rest => byte.toNat + 256 * fromLittleEndian rest

@[simp] theorem littleEndian_length (count value : Nat) : (littleEndian count value).length = count := by
  induction count generalizing value with
  | zero => rfl
  | succ count ih => simp [littleEndian, ih]

theorem fromLittleEndian_littleEndian (count value : Nat) :
    fromLittleEndian (littleEndian count value) = value % 256 ^ count := by
  induction count generalizing value with
  | zero => simp [littleEndian, fromLittleEndian, Nat.mod_one]
  | succ count ih =>
    rw [littleEndian, fromLittleEndian, ih, Nat.pow_succ', Nat.mod_mul,
      UInt8.toNat_ofNat_of_lt' (Nat.mod_lt _ (by decide))]

theorem littleEndian_injOn {count left right : Nat} (leftSmall : left < 256 ^ count) (rightSmall : right < 256 ^ count)
    (same : littleEndian count left = littleEndian count right) : left = right := by
  have decoded := congrArg fromLittleEndian same
  rwa [fromLittleEndian_littleEndian, fromLittleEndian_littleEndian,
    Nat.mod_eq_of_lt leftSmall, Nat.mod_eq_of_lt rightSmall] at decoded

def writeUint16 (value : UInt16) : Bytes := littleEndian 2 value.toNat
def writeUint32 (value : UInt32) : Bytes := littleEndian 4 value.toNat
variable (value : UInt64)

def writeUint64 : Bytes := littleEndian 8 value.toNat
def writeFixed64 (value : Fixed64) : Bytes := writeUint64 value.toUInt64

@[simp] theorem writeUint32_length (value : UInt32) : (writeUint32 value).length = 4 :=
  littleEndian_length 4 _

theorem writeUint32_inj {left right : UInt32} (same : writeUint32 left = writeUint32 right) :
    left = right :=
  UInt32.toNat_inj.1 (littleEndian_injOn left.toNat_lt right.toNat_lt same)

def writeVarUint : Bytes :=
  if value < 0xfd then [value.toUInt8]
  else if value ≤ 0xffff then 0xfd :: littleEndian 2 value.toNat
  else if value ≤ 0xffffffff then 0xfe :: littleEndian 4 value.toNat
  else 0xff :: littleEndian 8 value.toNat

def writeLength {α : Type} (items : List α) : Bytes :=
  writeVarUint (UInt64.ofNat items.length)

def writeVarBytes (data : Bytes) : Bytes :=
  writeLength data ++ data

/-- How many bytes follow the first byte of an encoded integer. -/
def varUintWidth (lead : UInt8) : Nat :=
  if lead = 0xfd then 2 else if lead = 0xfe then 4 else if lead = 0xff then 8 else 0

/-- The first byte is the value itself or tells how many bytes of it follow. -/
theorem writeVarUint_form :
    ∃ lead, writeVarUint value = lead :: littleEndian (varUintWidth lead) value.toNat ∧
      (varUintWidth lead = 0 ∧ value.toNat = lead.toNat ∨
        varUintWidth lead ≠ 0 ∧ value.toNat < 256 ^ varUintWidth lead) := by
  unfold writeVarUint
  split
  · rename_i small
    have bound : value.toNat < 0xfd := UInt64.lt_iff_toNat_lt.1 small
    have lead : value.toUInt8.toNat = value.toNat := by
      rw [UInt64.toNat_toUInt8]
      omega
    have width : varUintWidth value.toUInt8 = 0 := by
      simp only [varUintWidth, ← UInt8.toNat_inj, lead]
      split
      · simp_all
      split
      · simp_all
      split
      · simp_all
      · rfl
    exact ⟨value.toUInt8, by rw [width]; rfl, .inl ⟨width, lead.symm⟩⟩
  split
  · rename_i small
    have bound := UInt64.le_iff_toNat_le.1 small
    exact ⟨0xfd, rfl, .inr ⟨by decide, Nat.lt_of_le_of_lt bound (by decide)⟩⟩
  split
  · rename_i small
    have bound := UInt64.le_iff_toNat_le.1 small
    exact ⟨0xfe, rfl, .inr ⟨by decide, Nat.lt_of_le_of_lt bound (by decide)⟩⟩
  · exact ⟨0xff, rfl, .inr ⟨by decide, value.toNat_lt⟩⟩

/-- An encoded integer is known from the front of a byte string. -/
theorem writeVarUint_append_inj {left right : UInt64} {rest rest' : Bytes}
    (same : writeVarUint left ++ rest = writeVarUint right ++ rest') :
    left = right ∧ rest = rest' := by
  obtain ⟨lead, form, fits⟩ := writeVarUint_form left
  obtain ⟨lead', form', fits'⟩ := writeVarUint_form right
  rw [form, form', List.cons_append, List.cons_append, List.cons.injEq] at same
  obtain ⟨rfl, same⟩ := same
  obtain ⟨values, rests⟩ := List.append_inj same (by simp)
  refine ⟨UInt64.toNat_inj.1 ?_, rests⟩
  rcases fits with ⟨narrow, byte⟩ | ⟨wide, small⟩
  · rcases fits' with ⟨_, byte'⟩ | ⟨wide', _⟩
    · rw [byte, byte']
    · exact absurd narrow wide'
  · rcases fits' with ⟨narrow', _⟩ | ⟨_, small'⟩
    · exact absurd narrow' wide
    · exact littleEndian_injOn small small' values

theorem writeVarUint_length_pos : 0 < (writeVarUint value).length := by
  obtain ⟨lead, form, _⟩ := writeVarUint_form value
  simp [form]

/-- Bytes behind their length are known from the front of a byte string. -/
theorem writeVarBytes_append_inj {left right rest rest' : Bytes}
    (small : left.length < 2 ^ 64) (small' : right.length < 2 ^ 64)
    (same : writeVarBytes left ++ rest = writeVarBytes right ++ rest') :
    left = right ∧ rest = rest' := by
  simp only [writeVarBytes, writeLength, List.append_assoc] at same
  obtain ⟨lengths, same⟩ := writeVarUint_append_inj same
  have sameLength : left.length = right.length := by
    have equal := congrArg UInt64.toNat lengths
    rwa [UInt64.toNat_ofNat', UInt64.toNat_ofNat', Nat.mod_eq_of_lt small, Nat.mod_eq_of_lt small'] at equal
  exact List.append_inj same sameLength

def writeList {α : Type} (encode : α → Bytes) (items : List α) : Bytes :=
  writeLength items ++ items.flatMap encode

/-- What an encoder left in its buffer, and the error it returned. -/
structure Written where
  bytes : Bytes
  failure : Option String

namespace Written

def done (bytes : Bytes) : Written := { bytes, failure := none }

/-- The second encoder runs only when the first one succeeded. -/
def followedBy (first second : Written) : Written :=
  match first.failure with
  | some _ => first
  | none => { bytes := first.bytes ++ second.bytes, failure := second.failure }

/-- Encode every item in turn and stop at the first failure. -/
def each {α : Type} (encode : α → Written) : List α → Written
  | [] => done []
  | item :: rest => (encode item).followedBy (each encode rest)

def mapFailure (describe : String → String) (written : Written) : Written :=
  { written with failure := written.failure.map describe }

def succeeded (written : Written) : Bool := written.failure.isNone

end Written

/-- Decoders consume the front of a byte string. -/
abbrev Reader := StateT Bytes (Outcome String)

namespace Reader

def fail {α : Type} (reason : String) : Reader α := fun _ => .fail reason

def describe {α : Type} (reason : String) (reader : Reader α) : Reader α :=
  fun input => Outcome.mapError (fun _ => reason) (reader input)

/-- `io.ReadFull` into a buffer of the given size. -/
def readFull (size : Nat) : Reader Bytes := fun input =>
  if size ≤ input.length then .ok (input.take size, input.drop size)
  else if input.isEmpty then .fail "EOF"
  else .fail "unexpected EOF"

def readUint8 : Reader UInt8 := do
  let data ← readFull 1
  pure (UInt8.ofNat (fromLittleEndian data))

def readUint16 : Reader UInt16 := do
  let data ← readFull 2
  pure (UInt16.ofNat (fromLittleEndian data))

def readUint32 : Reader UInt32 := do
  let data ← readFull 4
  pure (UInt32.ofNat (fromLittleEndian data))

def readUint64 : Reader UInt64 := do
  let data ← readFull 8
  pure (UInt64.ofNat (fromLittleEndian data))

def readArray (size : Nat) : Reader (ByteArrayOf size) := do
  let data ← readFull size
  pure (ByteArrayOf.ofBytes size data)

def hexDigits (value : Nat) : String := String.ofList (Nat.toDigits 16 value)

def nonCanonical {α : Type} (value discriminant least : Nat) : Reader α :=
  fail ("ReadVarUint: non-canonical varint " ++ hexDigits value ++ " - discriminant " ++ hexDigits discriminant ++
    " must encode a value greater than " ++ hexDigits least)

def readVarUint : Reader UInt64 := do
  let discriminant ← readUint8
  if discriminant = 0xff then
    let value ← readUint64
    if value < 0x100000000 then nonCanonical value.toNat 0xff 0x100000000
    else pure value
  else if discriminant = 0xfe then
    let value ← readUint32
    if value < 0x10000 then nonCanonical value.toNat 0xfe 0x10000
    else pure value.toUInt64
  else if discriminant = 0xfd then
    let value ← readUint16
    if value < 0xfd then nonCanonical value.toNat 0xfd 0xfd
    else pure value.toUInt64
  else
    pure discriminant.toUInt64

def readVarBytes (maxAllowed : UInt32) (fieldName : String) : Reader Bytes := do
  let count ← readVarUint
  if maxAllowed.toUInt64 < count then
    fail ("ReadVarBytes: " ++ fieldName ++ " is larger than the max allowed size [count " ++
      toString count ++ ", max " ++ toString maxAllowed ++ "]")
  else
    readFull count.toNat

def readMany {α : Type} (reader : Reader α) : Nat → Reader (List α)
  | 0 => pure []
  | count + 1 => do
    let item ← reader
    let rest ← readMany reader count
    pure (item :: rest)

end Reader
end Elastos.Common
