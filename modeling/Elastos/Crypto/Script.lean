import Elastos.Common.Serialize

/-! Cryptographic primitives, redeem scripts, program hashes and their text form, after the `crypto`
and `core/contract` packages, and stand-ins for the primitives that can be evaluated. -/
set_option autoImplicit false
namespace Elastos.Crypto
open Go Common

structure PublicKey where
  x : Int
  y : Int
  deriving DecidableEq

/-- The primitives the node takes from Go's `crypto` packages and from a base58
package. `encodePoint` is the compressed encoding, of 33 bytes. -/
structure Primitives where
  sha256 : Bytes → Uint256
  ripemd160 : Bytes → Uint160
  decodePoint : Bytes → Outcome String PublicKey
  encodePoint : PublicKey → ByteArrayOf 33
  verify : PublicKey → Bytes → Bytes → Bool
  base58Encode : Bytes → Outcome String Bytes
  base58Decode : Bytes → Outcome String Bytes

namespace Primitives
variable (prim : Primitives)

def hash (data : Bytes) : Uint256 :=
  prim.sha256 (prim.sha256 data).bytes

def toCodeHash (code : Bytes) : Uint160 :=
  prim.ripemd160 (prim.sha256 code).bytes

def toProgramHash (prefixType : UInt8) (code : Bytes) : Uint168 where
  bytes := prefixType :: (prim.toCodeHash code).bytes
  size_eq := by simp [(prim.toCodeHash code).size_eq]

/-- `Verify` as a call that returns an error. -/
def verifySignature (publicKey : PublicKey) (data signature : Bytes) : Outcome String Unit := do
  .require (signature.length = 64) "Unknown signature length"
  .require (prim.verify publicKey data signature = true) "[Validation], Verify failed."

end Primitives

def push1 : Nat := 0x51
def publicKeyScriptLength : Nat := 35
def signatureScriptLength : Nat := 65
def minMultiSignCodeLength : Nat := 71

def standard : UInt8 := 0xAC
def multisig : UInt8 := 0xAE
def crosschain : UInt8 := 0xAF

variable (code : Bytes)

/-- The key between the first and the last byte of a code. Slicing fewer than two
bytes panics. -/
def pushedKey : Outcome String Bytes :=
  if code.length < 2 then .crash "slice bounds out of range"
  else .ok (code.drop 1).dropLast

def chunks (size : Nat) : Nat → Bytes → List Bytes
  | 0, _ => []
  | count + 1, data => data.take size :: chunks size count (data.drop size)

/-- The key pushes between the first byte and the last two, 34 bytes each: the
length byte, which is not looked at, and the key. -/
def parsePublicKeys : Outcome String (List Bytes) :=
  let body := (code.dropLast.drop 1).dropLast
  if body.length % (publicKeyScriptLength - 1) ≠ 0 then
    .fail "not a valid transaction code, length not match"
  else
    .ok (chunks (publicKeyScriptLength - 1) (body.length / (publicKeyScriptLength - 1)) body)

def parseMultisigScript : Outcome String (List Bytes) :=
  if code.length < minMultiSignCodeLength ∨ code.getLast? ≠ some multisig then
    .fail "not a valid multi sign transaction code, length not enough"
  else
    parsePublicKeys code

def parseCrossChainScript : Outcome String (List Bytes) :=
  if code.length < minMultiSignCodeLength ∨ code.getLast? ≠ some crosschain then
    .fail "not a valid cross chain transaction code, length not enough"
  else
    parsePublicKeys code

def getScriptType (script : Bytes) : Outcome String UInt8 :=
  if script.length ≠ publicKeyScriptLength ∧ script.length < minMultiSignCodeLength then
    .fail "invalid redeem script, not a standard or multi sign type"
  else
    .ok (script.getLastD 0)

/-- `new(big.Int).SetBytes(data)`. -/
def fromBigEndian (data : Bytes) : Nat :=
  data.foldl (fun value byte => 256 * value + byte.toNat) 0

def bigEndianUpTo : Nat → Nat → Bytes → Bytes
  | 0, _, tail => tail
  | size + 1, value, tail =>
    if value = 0 then tail
    else bigEndianUpTo size (value / 256) (UInt8.ofNat (value % 256) :: tail)

def bigEndian (value : Nat) : Bytes :=
  bigEndianUpTo (value.log2 / 8 + 1) value []

theorem bigEndianUpTo_eq {size value : Nat} (tail : Bytes) (small : value < 256 ^ size) :
    bigEndianUpTo size value tail = ((Nat.digits 256 value).map UInt8.ofNat).reverse ++ tail := by
  induction size generalizing value tail with
  | zero => simp [bigEndianUpTo, Nat.lt_one_iff.1 small]
  | succ size ih =>
    rw [bigEndianUpTo]
    split
    · simp_all
    · rename_i some
      rw [ih _ (Nat.div_lt_of_lt_mul (by rwa [← Nat.pow_succ'])), Nat.digits_eq_cons_digits_div (by decide) some]
      simp

theorem bigEndian_eq (value : Nat) : bigEndian value = ((Nat.digits 256 value).map UInt8.ofNat).reverse := by
  rw [bigEndian, bigEndianUpTo_eq, List.append_nil]
  refine Nat.lt_log2_self.trans_le ?_
  rw [show 256 = 2 ^ 8 by rfl, ← pow_mul]
  exact Nat.pow_le_pow_right (by decide) (by omega)

theorem bigEndian_length {value : Nat} (positive : 0 < value) :
    2 ^ (8 * (bigEndian value).length) ≤ 2 ^ 8 * value ∧ value < 2 ^ (8 * (bigEndian value).length) := by
  rw [bigEndian_eq, List.length_reverse, List.length_map, pow_mul]
  exact ⟨Nat.base_pow_length_digits_le _ value (by decide) positive.ne', Nat.lt_base_pow_length_digits (by decide)⟩

def decimal (value : Nat) : Bytes :=
  (Nat.toDigits 10 value).map fun char => UInt8.ofNat char.toNat

def isDigit (byte : UInt8) : Bool := 48 ≤ byte && byte ≤ 57

def fromDigits (digits : Bytes) : Nat :=
  digits.foldl (fun value digit => 10 * value + (digit.toNat - 48)) 0

/-- `SetString(text, 10)`, of which only the magnitude is used. A text that is
not a number leaves a nil pointer, which panics when it is read. -/
def magnitude (text : Bytes) : Outcome String Nat :=
  let digits :=
    match text with
    | 43 :: rest => rest
    | 45 :: rest => rest
    | _ => text
  if digits.isEmpty ∨ ¬ digits.all isDigit then
    .crash "invalid memory address or nil pointer dereference"
  else
    .ok (fromDigits digits)

variable (prim : Primitives)

def toAddress (programHash : Uint168) : Outcome String Bytes :=
  let checksum := (prim.hash programHash.bytes).bytes.take 4
  prim.base58Encode (decimal (fromBigEndian (programHash.bytes ++ checksum)))

def fromAddress (address : Bytes) : Outcome String Uint168 := do
  .require (address.length = 34) "[Uint168FromAddress] error, len != 34"
  let decoded ← prim.base58Decode address
  let value ← magnitude decoded
  let data := bigEndian value
  if data.length < 21 then
    .crash "slice bounds out of range"
  else do
    let programHash ← Uint168.fromBytes (data.take 21)
    let encoded ← toAddress prim programHash
    .require (encoded = address) "[Uint168FromAddress]: decode address verify failed."
    .ok programHash

end Elastos.Crypto

namespace Elastos.Core
open Go Common Crypto

def prefixStandard : UInt8 := 0x21
def prefixMultiSig : UInt8 := 0x12
def prefixCrossChain : UInt8 := 0x4B
def prefixDeposit : UInt8 := 0x1F
def prefixCRDID : UInt8 := 0x67

structure Contract where
  code : Bytes
  prefixType : UInt8
  deriving DecidableEq

variable (prim : Primitives)

def Contract.toProgramHash (contract : Contract) : Uint168 :=
  prim.toProgramHash contract.prefixType contract.code

variable (publicKey : PublicKey)

def createStandardRedeemScript : Bytes :=
  33 :: (prim.encodePoint publicKey).bytes ++ [0xAC]

def createStandardContract : Contract where
  code := createStandardRedeemScript prim publicKey
  prefixType := prefixStandard

def createDepositContractByPubKey : Contract where
  code := createStandardRedeemScript prim publicKey
  prefixType := prefixDeposit

def createDepositContractByCode (code : Bytes) : Contract where
  code := code
  prefixType := prefixDeposit

def createCRIDContractByCode (code : Bytes) : Outcome String Contract :=
  if code.isEmpty then .fail "code is nil"
  else .ok { code, prefixType := prefixCRDID }

def publicKeyToStandardProgramHash (publicKey : Bytes) : Outcome String Uint168 := do
  let decoded ← prim.decodePoint publicKey
  .ok ((createStandardContract prim decoded).toProgramHash prim)

def publicKeyToDepositProgramHash (publicKey : Bytes) : Outcome String Uint168 := do
  let decoded ← prim.decodePoint publicKey
  .ok ((createDepositContractByPubKey prim decoded).toProgramHash prim)

end Elastos.Core

namespace Elastos.Crypto.Stand
open Go Common
variable (data : Bytes)

/-- The bytes read as digits in base 257, modulo a prime below `2 ^ 256`. -/
def digest : Nat :=
  data.foldl (fun value byte => (257 * value + byte.toNat + 1) % (2 ^ 256 - 189)) 0

def sha256 : Uint256 := .ofBytes 32 (littleEndian 32 (digest data))
def ripemd160 : Uint160 := .ofBytes 20 (littleEndian 20 (digest data))

/-- A key is the number that its 33 bytes spell. -/
def decodePoint : Outcome String PublicKey :=
  if data.length = 33 then .ok { x := fromBigEndian data, y := 0 }
  else .fail "invalid key length"

def encodePoint (publicKey : PublicKey) : ByteArrayOf 33 :=
  .ofBytes 33 (littleEndian 33 publicKey.x.toNat).reverse

def sign (publicKey : Bytes) : Bytes := publicKey ++ List.replicate 31 0

def verify (publicKey : PublicKey) (_ signature : Bytes) : Bool :=
  signature = sign (encodePoint publicKey).bytes

/-- Two decimal digits to a byte, 68 digits in all. -/
def packDigits : Nat → Bytes → Bytes
  | count + 1, tens :: ones :: rest =>
    (10 * (tens - 48) + (ones - 48)) :: packDigits count rest
  | _, _ => []

def base58Encode (digits : Bytes) : Outcome String Bytes :=
  .ok (packDigits 34 (List.replicate (68 - digits.length) 48 ++ digits))

def base58Decode (packed : Bytes) : Outcome String Bytes :=
  .ok (packed.flatMap fun byte => [48 + byte / 10, 48 + byte % 10])

def primitives : Primitives where
  sha256 := sha256
  ripemd160 := ripemd160
  decodePoint := decodePoint
  encodePoint := encodePoint
  verify := verify
  base58Encode := base58Encode
  base58Decode := base58Decode

def key (last : UInt8) : Bytes := 2 :: List.replicate 31 0 ++ [last]

end Elastos.Crypto.Stand
