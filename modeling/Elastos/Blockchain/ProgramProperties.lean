import Elastos.Blockchain.SmallChain
import Elastos.Blockchain.TxProperties

/-! The run of a transaction's programs: it does not leave the range of a code unless the code is cut short, and
a multi-signature passes with enough signatures of different keys, in any order. -/
set_option autoImplicit false
namespace Elastos.Blockchain
open Go Common Crypto Elastos.Core Elastos.Types List Outcome BlockChain Dpos

section Safe
variable {prim : Primitives} {data sign code : Bytes} {program : Program}

theorem multisigCounts_safe : (multisigCounts code).Safe ↔ 1 < code.length := by simp [multisigCounts]

section Total
variable (total : ∀ key, (prim.decodePoint key).Safe)
include total

theorem checkStandardSignature_safe : (checkStandardSignature prim program data).Safe ↔
    (program.parameter.length = signatureScriptLength → 1 < program.code.length) := by
  simp [checkStandardSignature, pushedKey, total, Primitives.verifySignature]

theorem matchSignature_safe (keys : List Bytes) : (matchSignature prim data sign keys).Safe := by
  induction keys with
  | nil => exact safe_ok none
  | cons key rest ih =>
    refine safe_bind.2 ⟨total _, fun publicKey _ => ?_⟩
    split
    · exact safe_ok _
    · exact ih

theorem verifyMultisigSignatures_safe (m n : Int) (keys : List Bytes) (signatures : Bytes) :
    (verifyMultisigSignatures prim m n keys signatures data).Safe := by
  have round : ∀ verified signature, (verifyRound prim keys data verified signature).Safe := by
    intro verified signature
    refine safe_bind.2 ⟨matchSignature_safe total keys, fun found _ => ?_⟩
    split <;> simp
  simp [verifyMultisigSignatures, safe_foldlM round]

end Total

namespace BlockChain
variable (chain : BlockChain)

/-- The code of a program is cut up without a look at its length. -/
def CutShort (programHash : Uint168) (program : Program) : Prop :=
  program.code.length < 2 ∧ (programHash.prefixByte = prefixCrossChain ∨
    programHash.toCodeHash = chain.prim.toCodeHash program.code ∧ (programHash.prefixByte = prefixMultiSig ∨
      (programHash.prefixByte = prefixStandard ∨ programHash.prefixByte = prefixDeposit) ∧
        program.parameter.length = signatureScriptLength))

variable (total : ∀ key, (chain.prim.decodePoint key).Safe)
include total

theorem runProgram_safe {programHash : Uint168} :
    (chain.runProgram data programHash program).Safe ↔ ¬ chain.CutShort programHash program := by
  have parsed : ∀ code, (parseCrossChainScript code).Safe ∧ (parseMultisigScript code).Safe := by
    simp [parseCrossChainScript, parseMultisigScript, parsePublicKeys]
  have distinct : prefixMultiSig ≠ prefixStandard ∧ prefixMultiSig ≠ prefixDeposit := by decide
  simp only [runProgram, checkCrossChainSignatures, checkMultiSigSignatures, safe_ite, safe_bind, safe_require,
    safe_reject, safe_fail, require_eq_ok, multisigCounts_safe, parsed, verifyMultisigSignatures_safe total,
    checkStandardSignature_safe total, CutShort, implies_true, and_true, forall_const]
  grind

/-- No index and no slice is out of range, unless the run comes to a code that is cut short. -/
theorem runPrograms_safe (data : Bytes) (programHashes : List Uint168) (programs : List Program) :
    (chain.runPrograms data programHashes programs).Safe ↔ (programHashes.length = programs.length →
      ∀ before pair after, programHashes.zip programs = before ++ pair :: after →
        (∀ earlier ∈ before, chain.runProgram data earlier.1 earlier.2 = .ok ()) → ¬ chain.CutShort pair.1 pair.2) := by
  simp only [runPrograms, safe_bind, safe_require, true_and, require_eq_ok, forall_const, safe_forM,
    runProgram_safe chain total]

end BlockChain
end Safe

section Multisig
variable {prim : Primitives} {data sign sign' key key' : Bytes} {publicKeys parts signers : List Bytes}
  {m n : Int} {signatures : Bytes}

/-- A signature of the data under a key of a script. -/
def Signs (prim : Primitives) (data key sign : Bytes) : Prop :=
  ∃ publicKey, prim.decodePoint (key.drop 1) = .ok publicKey ∧ prim.verifySignature publicKey data sign = .ok ()

instance (prim : Primitives) (data key sign : Bytes) : Decidable (Signs prim data key sign) :=
  match decoded : prim.decodePoint (key.drop 1) with
  | .ok publicKey => decidable_of_iff (prim.verifySignature publicKey data sign = .ok ()) (by
    simp only [Signs, decoded, Except.ok.injEq, exists_eq_left'])
  | .error _ => .isFalse (by simp only [Signs, decoded, reduceCtorEq, false_and, exists_false, not_false_eq_true])

theorem chunks_length (size count : Nat) (data : Bytes) : (chunks size count data).length = count := by
  induction count generalizing data with
  | zero => rfl
  | succ count ih => rw [chunks, length_cons, ih]

theorem matchSignature_cons {first : Bytes} : matchSignature prim data sign (first :: publicKeys) = .ok (some key) ↔
    ∃ publicKey, prim.decodePoint (first.drop 1) = .ok publicKey ∧
      (prim.verifySignature publicKey data sign = .ok () ∧ first = key ∨
        prim.verifySignature publicKey data sign ≠ .ok () ∧
          matchSignature prim data sign publicKeys = .ok (some key)) := by
  rw [matchSignature, bind_eq_ok]
  refine exists_congr fun publicKey => and_congr_right fun _ => ?_
  cases prim.verifySignature publicKey data sign with
  | ok => simp
  | error => simp

theorem matchSignature_signs (found : matchSignature prim data sign publicKeys = .ok (some key)) :
    key ∈ publicKeys ∧ Signs prim data key sign := by
  induction publicKeys with
  | nil => cases found
  | cons first rest ih =>
    obtain ⟨publicKey, decoded, ⟨verified, rfl⟩ | ⟨_, later⟩⟩ := matchSignature_cons.1 found
    · exact ⟨mem_cons_self, publicKey, decoded, verified⟩
    · exact ⟨mem_cons_of_mem _ (ih later).1, (ih later).2⟩

/-- Of the keys with one decoding only the first is ever found. -/
theorem matchSignature_inj (found : matchSignature prim data sign publicKeys = .ok (some key))
    (found' : matchSignature prim data sign' publicKeys = .ok (some key'))
    (same : prim.decodePoint (key.drop 1) = prim.decodePoint (key'.drop 1)) : key = key' := by
  induction publicKeys with
  | nil => cases found
  | cons first rest ih =>
    obtain ⟨publicKey, decoded, here⟩ := matchSignature_cons.1 found
    obtain ⟨publicKey', decoded', here'⟩ := matchSignature_cons.1 found'
    cases decoded.symm.trans decoded'
    obtain ⟨verified, rfl⟩ | ⟨missed, later⟩ := here
    · obtain ⟨_, rfl⟩ | ⟨missed', later'⟩ := here'
      · rfl
      · obtain ⟨_, other, verified'⟩ := (matchSignature_signs later').2
        cases decoded.symm.trans (same.trans other)
        exact absurd verified' missed'
    · obtain ⟨verified', rfl⟩ | ⟨_, later'⟩ := here'
      · obtain ⟨_, other, verified⟩ := (matchSignature_signs later).2
        cases decoded.symm.trans (same.symm.trans other)
        exact absurd verified missed
      · exact ih later later'

theorem matchSignature_of_only (decodes : ∀ other ∈ publicKeys, ∃ publicKey,
      prim.decodePoint (other.drop 1) = .ok publicKey) (member : key ∈ publicKeys) (signs : Signs prim data key sign)
    (only : ∀ other ∈ publicKeys, Signs prim data other sign → other = key) :
    matchSignature prim data sign publicKeys = .ok (some key) := by
  induction publicKeys with
  | nil => cases member
  | cons first rest ih =>
    obtain ⟨publicKey, decoded⟩ := decodes first mem_cons_self
    refine matchSignature_cons.2 ⟨publicKey, decoded, ?_⟩
    by_cases verified : prim.verifySignature publicKey data sign = .ok ()
    · exact .inl ⟨verified, only first mem_cons_self ⟨publicKey, decoded, verified⟩⟩
    · refine .inr ⟨verified, ih (fun other inside => decodes other (mem_cons_of_mem _ inside)) ?_
        fun other inside => only other (mem_cons_of_mem _ inside)⟩
      obtain rfl | inside := mem_cons.1 member
      · obtain ⟨_, decoded', verified'⟩ := signs
        cases decoded.symm.trans decoded'
        exact absurd verified' verified
      · exact inside

/-- A signature of one key of the list only. -/
def SignsAlone (prim : Primitives) (data : Bytes) (publicKeys : List Bytes) (chunk signer : Bytes) : Prop :=
  Signs prim data signer (chunk.drop 1) ∧ ∀ other ∈ publicKeys, Signs prim data other (chunk.drop 1) → other = signer

instance (prim : Primitives) (data : Bytes) (publicKeys : List Bytes) (chunk signer : Bytes) :
    Decidable (SignsAlone prim data publicKeys chunk signer) :=
  inferInstanceAs (Decidable (_ ∧ _))

/-- The keys whose hashes the loop has collected. -/
def Gathered (prim : Primitives) (data : Bytes) (publicKeys parts : List Bytes) (verified : List Uint256) : Prop :=
  verified.Nodup ∧ ∃ keys : List Bytes, verified = keys.map prim.sha256 ∧ ∀ key ∈ keys, ∃ chunk ∈ parts,
    matchSignature prim data (chunk.drop 1) publicKeys = .ok (some key)

theorem verifyRound_gathered {verified next : List Uint256} {chunk : Bytes} (member : chunk ∈ parts)
    (gathered : Gathered prim data publicKeys parts verified)
    (round : verifyRound prim publicKeys data verified chunk = .ok next) :
    Gathered prim data publicKeys parts next := by
  simp only [verifyRound, bind_eq_ok] at round
  obtain ⟨matched, found, round⟩ := round
  cases matched with
  | none =>
    cases round
    exact gathered
  | some key =>
    simp only [bind_eq_ok, exists_unit, reject_eq_ok, Except.ok.injEq] at round
    obtain ⟨fresh, rfl⟩ := round
    obtain ⟨distinct, keys, rfl, each⟩ := gathered
    exact ⟨nodup_cons.2 ⟨fresh, distinct⟩, key :: keys, rfl, forall_mem_cons.2 ⟨⟨chunk, member, found⟩, each⟩⟩

theorem verifyRounds_gathered {verified : List Uint256}
    (looped : parts.foldlM (verifyRound prim publicKeys data) [] = .ok verified) :
    Gathered prim data publicKeys parts verified :=
  foldlM_invariant (fun _ _ member _ gathered round => verifyRound_gathered member gathered round)
    ⟨nodup_nil, [], rfl, by simp⟩ looped

theorem verifyRounds_pass (decodes : ∀ key ∈ publicKeys, ∃ publicKey, prim.decodePoint (key.drop 1) = .ok publicKey)
    (free : ∀ key ∈ publicKeys, ∀ other ∈ publicKeys, prim.sha256 key = prim.sha256 other → key = other)
    (listed : ∀ signer ∈ signers, signer ∈ publicKeys) (different : signers.Nodup)
    (signed : Forall₂ (SignsAlone prim data publicKeys) parts signers) {verified : List Uint256}
    (fresh : ∀ signer ∈ signers, prim.sha256 signer ∉ verified) :
    ∃ final, parts.foldlM (verifyRound prim publicKeys data) verified = .ok final ∧
      final.length = verified.length + signers.length := by
  induction signed generalizing verified with
  | nil => exact ⟨verified, rfl, rfl⟩
  | @cons chunk signer parts signers here _ ih =>
    obtain ⟨own, others⟩ := nodup_cons.1 different
    obtain ⟨inside, rest⟩ := forall_mem_cons.1 listed
    have found := matchSignature_of_only decodes inside here.1 here.2
    have round : verifyRound prim publicKeys data verified chunk = .ok (prim.sha256 signer :: verified) := by
      rw [verifyRound, found]
      simp [bind, Except.bind, reject, fresh signer mem_cons_self]
    obtain ⟨final, passed, length⟩ := @ih rest others (prim.sha256 signer :: verified) fun other member used => by
      obtain same | used := mem_cons.1 used
      · exact own (free other (rest other member) signer inside same ▸ member)
      · exact fresh other (mem_cons_of_mem _ member) used
    refine ⟨final, by rw [foldlM_cons, round]; exact passed, ?_⟩
    rw [length, length_cons, length_cons]
    omega

/-- A passed check has enough different keys that sign, and enough signatures of different
keys pass it in any order. -/
theorem verifyMultisigSignatures_exact
    (free : ∀ key ∈ publicKeys, ∀ other ∈ publicKeys, prim.sha256 key = prim.sha256 other → key = other) :
    (verifyMultisigSignatures prim m n publicKeys signatures data = .ok () → ∃ keys : List Bytes,
      m ≤ keys.length ∧ (keys.map fun key => prim.decodePoint (key.drop 1)).Nodup ∧ ∀ key ∈ keys,
        key ∈ publicKeys ∧ ∃ chunk ∈ signatureChunks signatures, Signs prim data key (chunk.drop 1)) ∧
    (publicKeys.length = n → (∀ key ∈ publicKeys, key ≠ [] ∧ ∃ publicKey,
        prim.decodePoint (key.drop 1) = .ok publicKey) →
      signatures.length % signatureScriptLength = 0 →
      ∀ signers : List Bytes, signers.Nodup → (∀ signer ∈ signers, signer ∈ publicKeys) → m ≤ signers.length →
        signers.length ≤ n → Forall₂ (SignsAlone prim data publicKeys) (signatureChunks signatures) signers →
        verifyMultisigSignatures prim m n publicKeys signatures data = .ok ()) := by
  constructor
  · intro passed
    simp only [verifyMultisigSignatures, bind_eq_ok, exists_unit, require_eq_ok, reject_eq_ok] at passed
    obtain ⟨_, _, _, _, verified, looped, enough⟩ := passed
    obtain ⟨distinct, keys, rfl, each⟩ := verifyRounds_gathered looped
    refine ⟨keys, by simpa using enough, (distinct.of_map _).map_on fun key member other member' same => ?_,
      fun key member => ?_⟩
    · obtain ⟨_, _, found⟩ := each key member
      obtain ⟨_, _, found'⟩ := each other member'
      exact matchSignature_inj found found' same
    · obtain ⟨chunk, inside, found⟩ := each key member
      have signs := matchSignature_signs found
      exact ⟨signs.1, chunk, inside, signs.2⟩
  · intro count decodes whole signers different listed enough few signed
    obtain ⟨final, looped, length⟩ := verifyRounds_pass (fun key member => (decodes key member).2) free listed
      different signed fun _ _ => not_mem_nil
    have number : signatures.length / signatureScriptLength = signers.length := by
      rw [← signed.length_eq, signatureChunks, chunks_length]
    simp only [verifyMultisigSignatures, bind_eq_ok, exists_unit, require_eq_ok, reject_eq_ok, number]
    exact ⟨count, whole, by omega, by omega, final, looped, by simp only [length, length_nil]; omega⟩

end Multisig

namespace SmallChain

/-- A script of two keys that both have to sign, with their signatures. -/
def crossChainProgram (first second : UInt8) : Program where
  code := [0x52, 33] ++ Stand.key first ++ [33] ++ Stand.key second ++ [0x52, crosschain]
  parameter := [64] ++ Stand.sign (Stand.key first) ++ [64] ++ Stand.sign (Stand.key second)

def councilProgram (signers : List UInt8) : Program where
  code := [0x52, 33] ++ Stand.key 1 ++ [33] ++ Stand.key 2 ++ [0x52, multisig]
  parameter := signers.flatMap fun last => 64 :: Stand.sign (Stand.key last)

/-- An address of each kind that is run, with its program. -/
def severalPrograms : List (Uint168 × Program) :=
  [(owner 1, signedBy 1), (Stand.primitives.toProgramHash prefixMultiSig (councilProgram [2, 1]).code,
    councilProgram [2, 1]), (address prefixCrossChain 7, crossChainProgram 1 2)]

theorem runPrograms_safe_small : ((chain []).runPrograms [] (severalPrograms.map Prod.fst)
    (severalPrograms.map Prod.snd)).Safe := by
  refine ((chain []).runPrograms_safe (fun _ => safe_ite.2 ⟨fun _ => safe_ok _, fun _ => safe_fail _⟩) _ _ _).2
    fun _ before pair after split _ cut => ?_
  have long : ∀ pair ∈ severalPrograms, 1 < pair.2.code.length := by decide +kernel
  have member : pair ∈ severalPrograms := by
    rw [show severalPrograms = _ from split]
    simp
  exact absurd cut.1 (not_lt.2 (long pair member))

/-- A code of one byte is not rejected before the key in it is cut out. -/
theorem shortCode_crash : (chain []).runPrograms [] [Stand.primitives.toProgramHash prefixStandard [0xAC]]
    [{ code := [0xAC], parameter := replicate 65 0 }] = .crash "slice bounds out of range" := by
  decide +kernel

def threeKeys : List Bytes := [33 :: Stand.key 1, 33 :: Stand.key 2, 33 :: Stand.key 3]

/-- The third and the first of three keys sign. -/
theorem verifyMultisigSignatures_twoOfThree :
    let signatures := 64 :: Stand.sign (Stand.key 3) ++ 64 :: Stand.sign (Stand.key 1)
    verifyMultisigSignatures Stand.primitives 2 3 threeKeys signatures [] = .ok () ∧ ∃ keys : List Bytes,
      2 ≤ (keys.length : Int) ∧ (keys.map fun key => Stand.primitives.decodePoint (key.drop 1)).Nodup ∧
      ∀ key ∈ keys, key ∈ threeKeys ∧ ∃ chunk ∈ signatureChunks signatures,
        Signs Stand.primitives [] key (chunk.drop 1) := by
  intro signatures
  obtain ⟨sound, complete⟩ := @verifyMultisigSignatures_exact Stand.primitives [] threeKeys 2 3 signatures
    (by decide +kernel)
  have chunks : signatureChunks signatures = [64 :: Stand.sign (Stand.key 3), 64 :: Stand.sign (Stand.key 1)] := by
    decide +kernel
  have passed := complete rfl (fun key member => ?_) (by decide +kernel) [33 :: Stand.key 3, 33 :: Stand.key 1]
    (by decide) (by decide) (by decide) (by decide)
    (chunks ▸ .cons (by decide +kernel) (.cons (by decide +kernel) .nil))
  · exact ⟨passed, sound passed⟩
  · simp only [threeKeys, mem_cons, not_mem_nil, or_false] at member
    rcases member with rfl | rfl | rfl
    all_goals exact ⟨by simp, _, rfl⟩

end SmallChain
end Elastos.Blockchain
