import Elastos.Types.Transaction

/-! The auxiliary proof of work of `auxpow.go`: a transaction of a parent chain commits to
the hash of a block by a script, and a merkle branch leads from it to the parent header. -/
set_option autoImplicit false
namespace Elastos.Auxpow
open Go Common Crypto Elastos.Types

def auxPowChainID : Int := 1224

def pchMergedMiningHeader : Bytes := [0xfa, 0xbe, 0x6d, 0x6d]

def encodeToString (data : Bytes) : List Char :=
  data.flatMap fun byte => [hexDigit (byte.toNat / 16), hexDigit (byte.toNat % 16)]

/-- `strings.Index`, the place where a text first occurs. -/
def index (part : List Char) : List Char → Option Nat
  | [] => if part = [] then some 0 else none
  | char :: rest =>
    if part <+: char :: rest then some 0 else (index part rest).map (· + 1)

/-- `data[low:high]`. A script is decoded into a slice without spare capacity. -/
def slice (data : Bytes) (low high : Nat) : Outcome String Bytes :=
  if low ≤ high ∧ high ≤ data.length then .ok ((data.take high).drop low)
  else .crash "slice bounds out of range"

def reversed (hash : Uint256) : Uint256 where
  bytes := hash.bytes.reverse
  size_eq := by simp [hash.size_eq]

variable (prim : Primitives)

def hashOf (tx : BtcTx) : Uint256 := prim.hash tx.serialize

/-- The loop of `GetMerkleRoot`. The index is shifted as a signed integer. -/
def climb (prim : Primitives) (hash : Uint256) : List Uint256 → Int → Uint256
  | [], _ => hash
  | sibling :: rest, index =>
    if index % 2 = 1 then
      climb prim (prim.hash (sibling.bytes ++ hash.bytes)) rest (index / 2)
    else
      climb prim (prim.hash (hash.bytes ++ sibling.bytes)) rest (index / 2)

def getMerkleRoot (hash : Uint256) (merkleBranch : List Uint256) (index : Int) : Uint256 :=
  if index = -1 then .zero 32 else climb prim hash merkleBranch index

/-- `uint32(1 << uint32(height))`, which is zero for a shift of 32 or more. -/
def shiftedOne (height : Nat) : UInt32 := UInt32.ofNat (2 ^ (height % 2 ^ 32))

def getExpectedIndex (nonce : UInt32) (chainID : Int) (height : Nat) : Outcome String Int :=
  let first := nonce * 1103515245 + 12345
  let second := first + UInt32.ofInt chainID
  let rand := second * 1103515245 + 12345
  if shiftedOne height = 0 then .crash "integer divide by zero"
  else .ok (rand % shiftedOne height).toNat

def readUint32 (data : Bytes) : UInt32 := UInt32.ofNat (fromLittleEndian data)

/-- The part of `Check` after the root has been found behind the header. -/
def checkSize (proof : AuxPow) (script : Bytes) (rootHashEnd : Nat) (chainID : Int) : Outcome String Bool := do
  let merkleHeight := proof.auxMerkleBranch.length
  let size ← slice script (rootHashEnd / 2) (rootHashEnd / 2 + 4)
  if readUint32 size ≠ shiftedOne merkleHeight then .ok false
  else do
    let nonce ← slice script (rootHashEnd / 2 + 4) (rootHashEnd / 2 + 8)
    let expected ← getExpectedIndex (readUint32 nonce) chainID merkleHeight
    .ok (decide (proof.auxMerkleIndex = expected))

def checkScript (proof : AuxPow) (script : Bytes) (auxRootHash : Uint256) (chainID : Int) : Outcome String Bool :=
  let scriptStr := encodeToString script
  let auxRootHashReverseStr := encodeToString (reversed auxRootHash).bytes
  let headerStr := encodeToString pchMergedMiningHeader
  match index headerStr scriptStr, index auxRootHashReverseStr scriptStr with
  | some headerIndex, some rootHashIndex =>
    if (index headerStr (scriptStr.drop (headerIndex + 2))).isSome then .ok false
    else if headerIndex + headerStr.length ≠ rootHashIndex then .ok false
    else if scriptStr.length < rootHashIndex + auxRootHashReverseStr.length + 8 then .ok false
    else
      checkSize proof script (rootHashIndex + auxRootHashReverseStr.length) chainID
  | _, _ => .ok false

def check (proof : AuxPow) (hashAuxBlock : Uint256) (chainID : Int) : Outcome String Bool :=
  if getMerkleRoot prim (hashOf prim proof.parCoinbaseTx) proof.parCoinBaseMerkle
      proof.parMerkleIndex ≠ proof.parBlockHeader.merkleRoot then .ok false
  else
    let auxRootHash :=
      getMerkleRoot prim (reversed hashAuxBlock) proof.auxMerkleBranch proof.auxMerkleIndex
    match proof.parCoinbaseTx.txIn with
    | [] => .crash "index out of range"
    | input :: _ => checkScript proof input.signatureScript auxRootHash chainID

def checkHeader (header : Header) : Outcome String Bool :=
  check prim header.auxPow (header.hash prim) auxPowChainID

end Elastos.Auxpow
