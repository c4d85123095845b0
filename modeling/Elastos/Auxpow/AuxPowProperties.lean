import Elastos.Auxpow.AuxPow
import Elastos.Utils.MerkleBranch

/-! How many blocks one parent header can back. A script fixes the block hash it commits to,
but the parent transaction with the script may stand anywhere in the parent's tree. -/
set_option autoImplicit false
namespace Elastos.Auxpow
open Go Common Crypto Elastos.Types Utils List

section Hex

theorem hexDigit_inj : ∀ left < 16, ∀ right < 16, hexDigit left = hexDigit right → left = right := by
  decide

theorem encodeToString_cons (byte : UInt8) (rest : Bytes) : encodeToString (byte :: rest) =
      hexDigit (byte.toNat / 16) :: hexDigit (byte.toNat % 16) :: encodeToString rest :=
  rfl

@[simp] theorem encodeToString_length (data : Bytes) : (encodeToString data).length = 2 * data.length := by
  induction data with
  | nil => rfl
  | cons byte rest ih =>
    rw [encodeToString_cons, length_cons, length_cons, length_cons, ih]
    omega

theorem encodeToString_inj {left right : Bytes} (same : encodeToString left = encodeToString right) : left = right := by
  induction left generalizing right with
  | nil =>
    cases right with
    | nil => rfl
    | cons byte rest => simp [encodeToString] at same
  | cons byte rest ih =>
    cases right with
    | nil => simp [encodeToString] at same
    | cons byte' rest' =>
      simp only [encodeToString_cons, List.cons.injEq] at same
      obtain ⟨high, low, rests⟩ := same
      have small := byte.toNat_lt
      have small' := byte'.toNat_lt
      have sameHigh := hexDigit_inj _ (by omega) _ (by omega) high
      have sameLow := hexDigit_inj _ (by omega) _ (by omega) low
      have sameByte : byte = byte' := UInt8.toNat_inj.1 (by omega)
      rw [sameByte, ih rests]

theorem index_found {part text : List Char} {place : Nat}
    (found : index part text = some place) : part <+: text.drop place := by
  induction text generalizing place with
  | nil =>
    unfold index at found
    split at found
    · rename_i empty
      simp [empty]
    · simp at found
  | cons char rest ih =>
    unfold index at found
    split at found
    · rename_i isPrefix
      cases found
      exact isPrefix
    · obtain ⟨before, foundBefore, rfl⟩ := Option.map_eq_some_iff.1 found
      exact ih foundBefore

end Hex

section Commitment

/-- A script with a root, the height of the tree below it and the leaf's index in it. -/
structure Commits (script : Bytes) (chainID : Int) (root : Uint256) (height : Nat) (leaf : Int) : Prop where
  place : ∃ headerIndex, index (encodeToString pchMergedMiningHeader) (encodeToString script) = some headerIndex ∧
    encodeToString (reversed root).bytes <+: (encodeToString script).drop (headerIndex + 8) ∧
    ∃ size, slice script ((headerIndex + 72) / 2) ((headerIndex + 72) / 2 + 4) = .ok size ∧
    readUint32 size = shiftedOne height ∧
    ∃ nonce, slice script ((headerIndex + 72) / 2 + 4) ((headerIndex + 72) / 2 + 8) = .ok nonce ∧
    getExpectedIndex (readUint32 nonce) chainID height = .ok leaf

variable {script : Bytes} {chainID : Int} {root root' : Uint256} {height height' : Nat}
  {leaf leaf' : Int} {proof : AuxPow}

theorem slice_length {data part : Bytes} {low high : Nat} (cut : slice data low high = .ok part) :
    low ≤ high ∧ high ≤ data.length := by
  unfold slice at cut
  split at cut
  · rename_i bounds
    exact bounds
  · simp at cut

theorem Commits.script_length (commits : Commits script chainID root height leaf) : 44 ≤ script.length := by
  obtain ⟨headerIndex, _, _, size, _, _, nonce, cut, _⟩ := commits.place
  have bounds := slice_length cut
  omega

theorem getExpectedIndex_ok {nonce : UInt32} (expected : getExpectedIndex nonce chainID height = .ok leaf) :
    shiftedOne height ≠ 0 ∧ 0 ≤ leaf := by
  simp only [getExpectedIndex] at expected
  split at expected
  · simp at expected
  · rename_i nonzero
    simp only [Except.ok.injEq] at expected
    exact ⟨nonzero, by omega⟩

theorem Commits.leaf_nonneg (commits : Commits script chainID root height leaf) : 0 ≤ leaf := by
  obtain ⟨_, _, _, _, _, _, _, _, expected⟩ := commits.place
  exact (getExpectedIndex_ok expected).2

theorem shiftedOne_toNat (small : height < 2 ^ 32) (nonzero : shiftedOne height ≠ 0) :
    height < 32 ∧ (shiftedOne height).toNat = 2 ^ height := by
  have below : height < 32 := by
    by_contra large
    refine nonzero ?_
    have divides : 2 ^ 32 ∣ 2 ^ height := Nat.pow_dvd_pow 2 (by omega)
    rw [shiftedOne, Nat.mod_eq_of_lt small, ← UInt32.toNat_inj, UInt32.toNat_ofNat']
    exact Nat.mod_eq_zero_of_dvd divides
  refine ⟨below, ?_⟩
  rw [shiftedOne, Nat.mod_eq_of_lt small, UInt32.toNat_ofNat']
  exact Nat.mod_eq_of_lt (Nat.pow_lt_pow_right (by omega) below)

/-- A power of two that a `uint32` can hold tells its exponent. -/
theorem shiftedOne_inj (small : height < 2 ^ 32) (small' : height' < 2 ^ 32)
    (nonzero : shiftedOne height ≠ 0) (same : shiftedOne height = shiftedOne height') : height = height' := by
  have powers : 2 ^ height = 2 ^ height' := by
    rw [← (shiftedOne_toNat small nonzero).2, ← (shiftedOne_toNat small' (same ▸ nonzero)).2, same]
  exact Nat.pow_right_injective (le_refl 2) powers

theorem reversed_inj {left right : Uint256} (same : reversed left = reversed right) :
    left = right := by
  have bytes := congrArg ByteArrayOf.bytes same
  exact ByteArrayOf.ext (reverse_injective bytes)

/-- A script commits to one root, with one tree below it and one leaf in it. -/
theorem Commits.unique (commits : Commits script chainID root height leaf)
    (commits' : Commits script chainID root' height' leaf') (small : height < 2 ^ 32) (small' : height' < 2 ^ 32) :
    root = root' ∧ height = height' ∧ leaf = leaf' := by
  obtain ⟨headerIndex, header, found, size, sizeCut, sizeRead, nonce, nonceCut, expected⟩ := commits.place
  obtain ⟨headerIndex', header', found', size', sizeCut', sizeRead', nonce', nonceCut', expected'⟩ := commits'.place
  obtain rfl : headerIndex = headerIndex' := Option.some.inj (header.symm.trans header')
  obtain rfl : size = size' := Except.ok.inj (sizeCut.symm.trans sizeCut')
  obtain rfl : nonce = nonce' := Except.ok.inj (nonceCut.symm.trans nonceCut')
  have nonzero := (getExpectedIndex_ok expected).1
  obtain rfl : height = height' := shiftedOne_inj small small' nonzero (sizeRead.symm.trans sizeRead')
  have roots : encodeToString (reversed root).bytes = encodeToString (reversed root').bytes := by
    refine (prefix_of_prefix_length_le found found' ?_).eq_of_length ?_
    · simp [(reversed root).size_eq, (reversed root').size_eq]
    · simp [(reversed root).size_eq, (reversed root').size_eq]
  exact ⟨reversed_inj (ByteArrayOf.ext (encodeToString_inj roots)), rfl, Except.ok.inj (expected.symm.trans expected')⟩

theorem checkSize_commits {rootHashEnd : Nat} (passed : checkSize proof script rootHashEnd chainID = .ok true) :
    ∃ size, slice script (rootHashEnd / 2) (rootHashEnd / 2 + 4) = .ok size ∧
      readUint32 size = shiftedOne proof.auxMerkleBranch.length ∧
      ∃ nonce, slice script (rootHashEnd / 2 + 4) (rootHashEnd / 2 + 8) = .ok nonce ∧
        getExpectedIndex (readUint32 nonce) chainID proof.auxMerkleBranch.length = .ok proof.auxMerkleIndex := by
  simp only [checkSize, Outcome.bind_eq_ok] at passed
  obtain ⟨size, sizeCut, passed⟩ := passed
  split at passed
  · simp at passed
  rename_i sizeRead
  simp only [Outcome.bind_eq_ok, Except.ok.injEq, decide_eq_true_eq] at passed
  obtain ⟨nonce, nonceCut, expected, isExpected, rfl⟩ := passed
  exact ⟨size, sizeCut, by simpa using sizeRead, nonce, nonceCut, isExpected⟩

theorem checkScript_commits (passed : checkScript proof script root chainID = .ok true) :
    Commits script chainID root proof.auxMerkleBranch.length proof.auxMerkleIndex := by
  simp only [checkScript] at passed
  split at passed
  · rename_i headerIndex rootHashIndex header found
    split at passed
    · simp at passed
    split at passed
    · simp at passed
    split at passed
    · simp at passed
    rename_i adjacent _
    have rootLength : (encodeToString (reversed root).bytes).length = 64 := by
      simp [(reversed root).size_eq]
    have headerLength : (encodeToString pchMergedMiningHeader).length = 8 := rfl
    obtain rfl : headerIndex + 8 = rootHashIndex := by
      rw [headerLength] at adjacent
      omega
    rw [rootLength] at passed
    exact ⟨headerIndex, header, index_found found, checkSize_commits passed⟩
  · simp at passed

/-- A call that returns, and accepts less than 32 hashes only. -/
def Decides (height : Nat) (outcome : Outcome String Bool) : Prop :=
  ∃ verdict, outcome = .ok verdict ∧ (verdict = true → height < 32)

theorem decides_false : Decides height (.ok false) := ⟨false, rfl, nofun⟩

/-- After a size that the branch has there is a nonce, and the size is not zero. -/
def Sized (script : Bytes) (height place : Nat) : Prop :=
  readUint32 ((script.take (place / 2 + 4)).drop (place / 2)) = shiftedOne height →
    place / 2 + 8 ≤ script.length ∧ shiftedOne height ≠ 0

theorem checkSize_decides {place : Nat} (small : proof.auxMerkleBranch.length < 2 ^ 32)
    (room : place / 2 + 4 ≤ script.length) :
    Decides proof.auxMerkleBranch.length (checkSize proof script place chainID) ↔
      Sized script proof.auxMerkleBranch.length place := by
  have sizeCut : slice script (place / 2) (place / 2 + 4) = .ok _ := if_pos ⟨by omega, room⟩
  simp only [checkSize, sizeCut, bind, Except.bind, Sized]
  split
  case isTrue other => exact iff_of_true decides_false fun same => absurd same other
  case isFalse same =>
    rw [not_not] at same
    by_cases long : place / 2 + 8 ≤ script.length
    · have nonceCut : slice script (place / 2 + 4) (place / 2 + 8) = .ok _ := if_pos ⟨by omega, long⟩
      simp only [nonceCut, same, long, getExpectedIndex, true_and, forall_const]
      by_cases zero : shiftedOne proof.auxMerkleBranch.length = 0
      · rw [if_pos zero]
        exact iff_of_false nofun (not_not.2 zero)
      · rw [if_neg zero]
        exact iff_of_true ⟨_, rfl, fun _ => (shiftedOne_toNat small zero).1⟩ zero
    · have nonceCut : slice script (place / 2 + 4) (place / 2 + 8) = .crash _ := if_neg fun cut => long cut.2
      rw [nonceCut]
      exact iff_of_false nofun fun sized => long (sized same).1

/-- What follows the root in a script that commits to it can be read. -/
def Readable (script : Bytes) (root : Uint256) (height : Nat) : Prop :=
  let header := encodeToString pchMergedMiningHeader
  ∀ start ∈ index header (encodeToString script),
    index (encodeToString (reversed root).bytes) (encodeToString script) = some (start + 8) →
      index header ((encodeToString script).drop (start + 2)) = none →
        start + 80 ≤ 2 * script.length → Sized script height (start + 72)

theorem checkScript_decides (small : proof.auxMerkleBranch.length < 2 ^ 32) :
    Decides proof.auxMerkleBranch.length (checkScript proof script root chainID) ↔
      Readable script root proof.auxMerkleBranch.length := by
  have rootLength : (encodeToString (reversed root).bytes).length = 64 := by simp [(reversed root).size_eq]
  have length : (encodeToString script).length = 2 * script.length := by simp [Nat.mul_comm]
  simp only [checkScript, Readable, rootLength]
  split
  case h_2 missing => exact iff_of_true decides_false fun start header found => absurd found (missing _ _ header)
  case h_1 start place header found =>
    simp only [header, found, Option.mem_some_iff, forall_eq', Option.some.injEq]
    split
    case isTrue again => exact iff_of_true decides_false fun _ once => by simp [once] at again
    case isFalse once =>
      split
      case isTrue apart => exact iff_of_true decides_false fun next => absurd next.symm apart
      case isFalse next =>
        obtain rfl : start + 8 = place := not_not.1 next
        split
        case isTrue short => exact iff_of_true decides_false fun _ _ room => by omega
        case isFalse room =>
          rw [checkSize_decides small (by omega)]
          have none := Option.not_isSome_iff_eq_none.1 once
          simp [none, show start + 80 ≤ 2 * script.length by omega]

end Commitment

section Parent

/-- A transaction whose byte strings have lengths that a slice can have. -/
def BtcTx.Valid (tx : BtcTx) : Prop :=
  ∀ input ∈ tx.txIn, input.signatureScript.length < 2 ^ 64

variable {tx tx' : BtcTx} {input input' : BtcTxIn} {rest rest' : List BtcTxIn} (hash : Uint256)
  (merkleBranch : List Uint256) (index : Int)

theorem serialize_length (inputs : tx.txIn = input :: rest) :
    51 + input.signatureScript.length ≤ tx.serialize.length := by
  have ins := writeVarUint_length_pos (UInt64.ofNat tx.txIn.length)
  have outs := writeVarUint_length_pos (UInt64.ofNat tx.txOut.length)
  have script := writeVarUint_length_pos (UInt64.ofNat input.signatureScript.length)
  simp only [BtcTx.serialize, writeList, writeLength, length_append, inputs,
    flatMap_cons, BtcTx.writeTxIn, writeVarBytes, writeUint32_length, input.previousHash.size_eq] at ins outs script ⊢
  omega

/-- The first script can be read off an encoded transaction. -/
theorem serialize_script (inputs : tx.txIn = input :: rest) (inputs' : tx'.txIn = input' :: rest')
    (valid : BtcTx.Valid tx) (valid' : BtcTx.Valid tx') (same : tx.serialize = tx'.serialize) :
    input.signatureScript = input'.signatureScript := by
  have small := valid input (by simp [inputs])
  have small' := valid' input' (by simp [inputs'])
  simp only [BtcTx.serialize, writeList, writeLength, inputs, inputs', append_assoc] at same
  obtain ⟨_, same⟩ := append_inj same (by simp)
  obtain ⟨_, same⟩ := writeVarUint_append_inj same
  simp only [flatMap_cons, BtcTx.writeTxIn, append_assoc] at same
  obtain ⟨_, same⟩ := append_inj same (by rw [input.previousHash.size_eq, input'.previousHash.size_eq])
  obtain ⟨_, same⟩ := append_inj same (by simp)
  exact (writeVarBytes_append_inj small small' same).1

def treeHash (prim : Primitives) : TreeHash Uint256 Bytes where
  hash := prim.hash
  join left right := left.bytes ++ right.bytes
  join_inj := by
    intro left right left' right' same
    obtain ⟨lefts, rights⟩ := List.append_inj same (by rw [left.size_eq, left'.size_eq])
    exact ⟨ByteArrayOf.ext lefts, ByteArrayOf.ext rights⟩

/-- The sides that the bits of an index name, from the leaf to the root. -/
def sides : Nat → Int → List Bool
  | 0, _ => []
  | count + 1, index => decide (index % 2 = 1) :: sides count (index / 2)

@[simp] theorem sides_length (count : Nat) (index : Int) : (sides count index).length = count := by
  induction count generalizing index with
  | zero => rfl
  | succ count ih => simp [sides, ih]

def branchOf (merkleBranch : List Uint256) (index : Int) : List (Bool × Uint256) :=
  (sides merkleBranch.length index).zip merkleBranch

theorem branchOf_sides : (branchOf merkleBranch index).map Prod.fst = sides merkleBranch.length index := by
  rw [branchOf, map_fst_zip (by simp)]

/-- The index whose bits name the given sides. -/
def indexOf : List Bool → Nat
  | [] => 0
  | right :: rest => (if right then 1 else 0) + 2 * indexOf rest

theorem sides_indexOf (names : List Bool) : sides names.length (indexOf names) = names := by
  induction names with
  | nil => rfl
  | cons right rest ih =>
    have half : ((indexOf (right :: rest) : Nat) : Int) / 2 = indexOf rest := by
      rw [indexOf]
      split <;> omega
    rw [List.length_cons, sides, half, ih]
    cases right <;> simp [indexOf]

variable {prim : Primitives}

theorem climb_eq_rootOf : climb prim hash merkleBranch index =
      (treeHash prim).rootOf hash (branchOf merkleBranch index) := by
  induction merkleBranch generalizing hash index with
  | nil => rfl
  | cons sibling rest ih =>
    unfold climb
    split
    · rename_i right
      rw [ih]
      simp [branchOf, sides, TreeHash.rootOf, TreeHash.preimage, right, treeHash]
    · rename_i left
      rw [ih]
      simp [branchOf, sides, TreeHash.rootOf, TreeHash.preimage, left, treeHash]

theorem getMerkleRoot_eq_rootOf {index : Int} (used : index ≠ -1) : getMerkleRoot prim hash merkleBranch index =
      (treeHash prim).rootOf hash (branchOf merkleBranch index) := by
  rw [getMerkleRoot, if_neg used, climb_eq_rootOf]

/-- All that a check hashes: the parent transaction and both branches. -/
def hashed (prim : Primitives) (proof : AuxPow) (block : Uint256) : List Bytes :=
  proof.parCoinbaseTx.serialize ::
    (treeHash prim).hashed (hashOf prim proof.parCoinbaseTx)
      (branchOf proof.parCoinBaseMerkle proof.parMerkleIndex) ++ (treeHash prim).hashed (reversed block)
      (branchOf proof.auxMerkleBranch proof.auxMerkleIndex)

/-- The place of the parent transaction: the sides on the way from it to the root. -/
def place (proof : AuxPow) : List Bool :=
  sides proof.parCoinBaseMerkle.length proof.parMerkleIndex

/-- Both proofs show a place, and the places do not lie beside each other in the tree. -/
@[mk_iff] structure OnePlace (first second : AuxPow) : Prop where
  used : first.parMerkleIndex ≠ -1
  used' : second.parMerkleIndex ≠ -1
  along : place first <:+ place second ∨ place second <:+ place first

instance (first second : AuxPow) : Decidable (OnePlace first second) :=
  decidable_of_iff' _ (onePlace_iff first second)

variable {first second : AuxPow} {block block' : Uint256} {chainID : Int}

theorem check_commits (passed : check prim first block chainID = .ok true) :
    getMerkleRoot prim (hashOf prim first.parCoinbaseTx) first.parCoinBaseMerkle
        first.parMerkleIndex = first.parBlockHeader.merkleRoot ∧
      ∃ input rest, first.parCoinbaseTx.txIn = input :: rest ∧ Commits input.signatureScript chainID
          (getMerkleRoot prim (reversed block) first.auxMerkleBranch first.auxMerkleIndex)
          first.auxMerkleBranch.length first.auxMerkleIndex := by
  unfold check at passed
  split at passed
  · simp at passed
  rename_i parentRoot
  cases inputs : first.parCoinbaseTx.txIn with
  | nil => simp [inputs] at passed
  | cons input rest =>
    simp only [inputs] at passed
    exact ⟨not_not.1 parentRoot, input, rest, rfl, checkScript_commits passed⟩

/-- A proof is accepted or refused, unless its parent has no input or what follows the root cannot be read. -/
theorem check_returns (proof : AuxPow) (block : Uint256) (chainID : Int)
    (small : proof.auxMerkleBranch.length < 2 ^ 32) : (∃ verdict, check prim proof block chainID = .ok verdict ∧
        (verdict = true → proof.auxMerkleBranch.length < 32)) ↔
      (getMerkleRoot prim (hashOf prim proof.parCoinbaseTx) proof.parCoinBaseMerkle proof.parMerkleIndex =
          proof.parBlockHeader.merkleRoot → ∃ input ∈ proof.parCoinbaseTx.txIn.head?, Readable input.signatureScript
        (getMerkleRoot prim (reversed block) proof.auxMerkleBranch proof.auxMerkleIndex)
        proof.auxMerkleBranch.length) := by
  change Decides _ _ ↔ _
  unfold check
  split
  case isTrue other => exact iff_of_true decides_false fun same => absurd same other
  case isFalse same =>
    rw [not_not] at same
    cases proof.parCoinbaseTx.txIn with
    | nil => exact iff_of_false nofun (by simp [same])
    | cons input rest => simpa [same] using checkScript_decides small

/-- A committing transaction is longer than two digests, so it is no inner node. -/
theorem hashOf_ne_inner {right : Bool}
    {node sibling : Uint256} (inputs : tx.txIn = input :: rest) (long : 44 ≤ input.signatureScript.length) :
    tx.serialize ≠ (treeHash prim).preimage right node sibling := by
  intro same
  have length := serialize_length inputs
  have nodeLength : ((treeHash prim).preimage right node sibling).length = 64 := by
    cases right with
    | true | false => simp [TreeHash.preimage, treeHash, node.size_eq, sibling.size_eq]
  rw [← same] at nodeLength
  omega

/-- Of two places on one way to the root only one can be taken by a committing transaction. -/
theorem serialize_eq_of_suffix
    (inputs : first.parCoinbaseTx.txIn = input :: rest)
    (long : 44 ≤ input.signatureScript.length) (used : first.parMerkleIndex ≠ -1)
    (used' : second.parMerkleIndex ≠ -1) (along : place first <:+ place second)
    (free : (treeHash prim).CollisionFree (hashed prim first block ++ hashed prim second block'))
    (same : getMerkleRoot prim (hashOf prim first.parCoinbaseTx) first.parCoinBaseMerkle
        first.parMerkleIndex = getMerkleRoot prim (hashOf prim second.parCoinbaseTx) second.parCoinBaseMerkle
        second.parMerkleIndex) : first.parCoinbaseTx.serialize = second.parCoinbaseTx.serialize := by
  rw [getMerkleRoot_eq_rootOf _ _ used, getMerkleRoot_eq_rootOf _ _ used'] at same
  rw [place, place, ← branchOf_sides, ← branchOf_sides] at along
  obtain ⟨lower, upper, split, leaf⟩ := TreeHash.leaf_of_suffix along (free.mono fun entry member => by
      simp only [hashed, mem_append, mem_cons] at member ⊢
      tauto) same
  have shown : first.parCoinbaseTx.serialize ∈ hashed prim first block ++ hashed prim second block' := by simp [hashed]
  cases lower with
  | nil => exact free _ shown _ (by simp [hashed]) leaf
  | cons entry below =>
    -- the first transaction would be an inner node above the second one
    obtain ⟨right, node, sibling, member, inner⟩ :=
      (treeHash prim).rootOf_hashed (hashOf prim second.parCoinbaseTx) (cons_ne_nil entry below)
    have preimage := free _ shown _ (mem_append_right _ ?_) (leaf.trans inner)
    · exact absurd preimage (hashOf_ne_inner inputs long)
    · rw [hashed, split, TreeHash.hashed_append]
      simp [member]

theorem block_unique {script : Bytes} (commits : Commits script chainID
      (getMerkleRoot prim (reversed block) first.auxMerkleBranch first.auxMerkleIndex)
      first.auxMerkleBranch.length first.auxMerkleIndex)
    (commits' : Commits script chainID
      (getMerkleRoot prim (reversed block') second.auxMerkleBranch second.auxMerkleIndex)
      second.auxMerkleBranch.length second.auxMerkleIndex)
    (small : first.auxMerkleBranch.length < 2 ^ 32) (small' : second.auxMerkleBranch.length < 2 ^ 32)
    (free : (treeHash prim).CollisionFree (hashed prim first block ++ hashed prim second block')) : block = block' := by
  obtain ⟨roots, heights, leaves⟩ := commits.unique commits' small small'
  have nonneg := commits.leaf_nonneg
  have nonneg' := commits'.leaf_nonneg
  rw [getMerkleRoot_eq_rootOf _ _ (by omega), getMerkleRoot_eq_rootOf _ _ (by omega)] at roots
  refine reversed_inj (TreeHash.leaf_unique ?_ (free.mono fun entry member => ?_) roots)
  · rw [branchOf_sides, branchOf_sides, heights, leaves]
  · simp only [hashed, mem_append, mem_cons] at member ⊢
    tauto

/-- Proofs that show their parent transactions at one place of one parent's tree are for
the same block. -/
theorem check_onePlace (sameParent : first.parBlockHeader = second.parBlockHeader)
    (valid : BtcTx.Valid first.parCoinbaseTx) (valid' : BtcTx.Valid second.parCoinbaseTx)
    (free : (treeHash prim).CollisionFree (hashed prim first block ++ hashed prim second block'))
    (small : first.auxMerkleBranch.length < 2 ^ 32)
    (small' : second.auxMerkleBranch.length < 2 ^ 32) (onePlace : OnePlace first second)
    (passed : check prim first block chainID = .ok true)
    (passed' : check prim second block' chainID = .ok true) : block = block' := by
  obtain ⟨root, input, rest, inputs, commits⟩ := check_commits passed
  obtain ⟨root', input', rest', inputs', commits'⟩ := check_commits passed'
  rw [sameParent, ← root'] at root
  have sameTx : first.parCoinbaseTx.serialize = second.parCoinbaseTx.serialize := by
    rcases onePlace.along with above | below
    · exact serialize_eq_of_suffix inputs commits.script_length onePlace.used onePlace.used' above free root
    · have swapped := free.mono fun entry member => mem_append.2 (mem_append.1 member).symm
      exact (serialize_eq_of_suffix inputs' commits'.script_length onePlace.used' onePlace.used
        below swapped root.symm).symm
  have scripts := serialize_script inputs inputs' valid valid' sameTx
  rw [scripts] at commits
  exact block_unique commits commits' small small' free

end Parent

namespace SmallParent
open Crypto.Stand

def block (last : UInt8) : Uint256 where
  bytes := List.replicate 31 0 ++ [last]
  size_eq := by simp

/-- A parent transaction that commits to a block without a tree below it. -/
def committing (last : UInt8) : BtcTx where
  version := 1
  txIn := [{
    previousHash := .zero 32
    previousIndex := 0
    signatureScript := pchMergedMiningHeader ++ (block last).bytes ++ [1, 0, 0, 0, 0, 0, 0, 0]
    sequence := 0 }]
  txOut := []
  lockTime := 0

/-- A parent block of two transactions, each of which commits to a block of its own. -/
def parentHeader : BtcHeader where
  version := 1
  previous := .zero 32
  merkleRoot := getMerkleRoot primitives (hashOf primitives (committing 1))
    [hashOf primitives (committing 2)] 0
  timestamp := 0
  bits := 0
  nonce := 0

def proofOf (own other : UInt8) (position : Int) : AuxPow where
  auxMerkleBranch := []
  auxMerkleIndex := 0
  parCoinbaseTx := committing own
  parCoinBaseMerkle := [hashOf primitives (committing other)]
  parMerkleIndex := position
  parBlockHeader := parentHeader
  parentHash := .zero 32

theorem committing_valid (last : UInt8) : BtcTx.Valid (committing last) := by
  simp [BtcTx.Valid, committing, pchMergedMiningHeader, (block last).size_eq]

/-- Only the lowest bit of the index is looked at. -/
theorem coinbase_onePlace : check primitives (proofOf 1 2 0) (block 1) auxPowChainID = .ok true ∧
      check primitives (proofOf 1 2 6) (block 1) auxPowChainID = .ok true ∧ block 1 = block 1 :=
  have passed : check primitives (proofOf 1 2 0) (block 1) auxPowChainID = .ok true := by
    decide +kernel
  have passed' : check primitives (proofOf 1 2 6) (block 1) auxPowChainID = .ok true := by
    decide +kernel
  ⟨passed, passed', check_onePlace rfl (committing_valid 1) (committing_valid 1)
    (by decide +kernel) (by decide) (by decide) (by decide) passed passed'⟩

/-- One parent header backs two blocks. -/
theorem twoCommitments_twoBlocks : (proofOf 1 2 0).parBlockHeader = (proofOf 2 1 1).parBlockHeader ∧
      BtcTx.Valid (proofOf 1 2 0).parCoinbaseTx ∧ BtcTx.Valid (proofOf 2 1 1).parCoinbaseTx ∧
      (treeHash primitives).CollisionFree
        (hashed primitives (proofOf 1 2 0) (block 1) ++ hashed primitives (proofOf 2 1 1) (block 2)) ∧
      check primitives (proofOf 1 2 0) (block 1) auxPowChainID = .ok true ∧
      check primitives (proofOf 2 1 1) (block 2) auxPowChainID = .ok true ∧ block 1 ≠ block 2 :=
  ⟨rfl, committing_valid 1, committing_valid 2, by decide +kernel, by decide +kernel, by decide +kernel, by decide⟩

theorem check_returns_small : ∃ input ∈ (proofOf 1 2 0).parCoinbaseTx.txIn.head?, Readable input.signatureScript
    (getMerkleRoot primitives (reversed (block 1)) (proofOf 1 2 0).auxMerkleBranch 0) 0 :=
  (check_returns (proofOf 1 2 0) (block 1) auxPowChainID (by decide)).1 ⟨true, by decide +kernel, by decide⟩
    (by decide +kernel)

/-- A parent transaction without inputs. -/
def noInputs : AuxPow where
  auxMerkleBranch := []
  auxMerkleIndex := 0
  parCoinbaseTx := { committing 1 with txIn := [] }
  parCoinBaseMerkle := []
  parMerkleIndex := 0
  parBlockHeader := { parentHeader with merkleRoot := hashOf primitives { committing 1 with txIn := [] } }
  parentHash := .zero 32

theorem noInputs_crash : AuxPow.deserialize noInputs.serialize = .ok (noInputs, []) ∧
    check primitives noInputs (block 1) auxPowChainID = .crash "index out of range" :=
  ⟨by decide +kernel, by decide +kernel⟩

end SmallParent
end Elastos.Auxpow
