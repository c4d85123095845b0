import Elastos.Blockchain.ProgramProperties

/-! Who must have signed a transaction that spends a cross-chain output, or that forces arbiters out of
office. The signature run accepts any script with enough keys, and the validation of a special
transaction ends before it. -/
set_option autoImplicit false
namespace Elastos.Blockchain
open Go Common Crypto Elastos.Core Elastos.Types List Outcome BlockChain Dpos

/-- The signatures in a program's parameter, each behind its length byte. -/
def signaturesIn (program : Program) : List Bytes :=
  (signatureChunks program.parameter).map (·.drop 1)

namespace BlockChain
variable (chain : BlockChain)

def verifies (data key signature : Bytes) : Bool :=
  match chain.prim.decodePoint key with
  | .ok publicKey => (chain.prim.verifySignature publicKey data signature).isOk
  | .error _ => false

def isSignedBy (tx : Transaction) (key : Bytes) : Bool :=
  tx.programs.any fun program => (signaturesIn program).any fun signature =>
    chain.verifies tx.serializeUnsigned.bytes key signature

/-- The different cross-chain arbiters that have signed a transaction. -/
def signingArbiters (tx : Transaction) : List Bytes :=
  chain.arbitrators.getCrossChainArbiters.dedup.filter fun key => chain.isSignedBy tx key

end BlockChain

def spendsCrossChain (references : References) : Prop :=
  ∃ entry ∈ references, entry.2.programHash.prefixByte = prefixCrossChain

/-- The types whose programs are run. -/
def runsPrograms (tx : Transaction) : Prop :=
  tx.txType ≠ .coinBase ∧ noCostType tx = false ∧ tx.isNewSideChainPowTx = false ∧
    tx.txType ≠ .crcAppropriation ∧ tx.txType ≠ .crcProposalWithdraw

/-- Every cross-chain script of a transaction is made of different arbiters. -/
def ScriptsOfArbiters (chain : BlockChain) (tx : Transaction) : Prop :=
  ∀ program ∈ tx.programs, ∀ publicKeys, parseCrossChainScript program.code = .ok publicKeys →
      (publicKeys.map (·.drop 1)).Nodup ∧ ∀ key ∈ publicKeys, key.drop 1 ∈ chain.arbitrators.getCrossChainArbiters

/-- The transaction runs its programs and they are scripts of arbiters, which a
withdrawal has checked when no arbiter is listed twice. -/
def ArbitersInCharge (chain : BlockChain) (tx : Transaction) : Prop :=
  runsPrograms tx ∧ ScriptsOfArbiters chain tx ∨
    tx.txType = .withdrawFromSideChain ∧ chain.arbitrators.getCrossChainArbiters.Nodup

section Signatures
variable {chain : BlockChain} {data : Bytes} {publicKeys signatures : List Bytes}
  {verified : List Uint256}

theorem Signs.verifies {key sign : Bytes} (signs : Signs chain.prim data key sign) :
    chain.verifies data (key.drop 1) sign = true := by
  obtain ⟨publicKey, decoded, verified⟩ := signs
  simp only [BlockChain.verifies, decoded, verified, Except.isOk, Except.toBool]

/-- The hashes collected by the loop are different, and each is the hash of a script
key with a signature among those looped over. -/
def Collected (chain : BlockChain) (data : Bytes) (publicKeys signatures : List Bytes)
    (verified : List Uint256) : Prop :=
  verified.Nodup ∧ ∀ hash ∈ verified, ∃ key ∈ publicKeys, chain.prim.sha256 key = hash ∧
    ∃ signature ∈ signatures, chain.verifies data (key.drop 1) (signature.drop 1) = true

theorem verifyRounds_collected (looped : signatures.foldlM (verifyRound chain.prim publicKeys data) [] = .ok verified) :
    Collected chain data publicKeys signatures verified := by
  obtain ⟨distinct, keys, rfl, each⟩ := verifyRounds_gathered looped
  refine ⟨distinct, fun hash inside => ?_⟩
  obtain ⟨key, member, rfl⟩ := mem_map.1 inside
  obtain ⟨chunk, inParts, found⟩ := each key member
  have signs := matchSignature_signs found
  exact ⟨key, signs.1, rfl, chunk, inParts, signs.2.verifies⟩

/-- A passed cross-chain program has more than a majority of script keys, told apart
with their length byte, that sign. -/
theorem checkCrossChainSignatures_collected {program : Program}
    (passed : chain.checkCrossChainSignatures program data = .ok ()) :
    ∃ publicKeys verified, parseCrossChainScript program.code = .ok publicKeys ∧
      Collected chain data publicKeys (signatureChunks program.parameter) verified ∧
      chain.arbitrators.getCrossChainArbitersMajorityCount < verified.length := by
  simp only [checkCrossChainSignatures, bind_eq_ok, exists_unit,
    reject_eq_ok, verifyMultisigSignatures, require_eq_ok] at passed
  obtain ⟨⟨m, n⟩, _, bounds, publicKeys, parsed, _, _, _, _, verified, looped, enough⟩ := passed
  exact ⟨publicKeys, verified, parsed, verifyRounds_collected looped, by omega⟩

variable {tx : Transaction} {references : References}

theorem exists_crossChainProgram {programs : List Program}
    (signed : tx.txType ≠ .crcProposalWithdraw) (spent : spendsCrossChain references)
    (passed : chain.checkTransactionSignature tx references = .ok programs) : ∃ program ∈ tx.programs,
      chain.checkCrossChainSignatures program tx.serializeUnsigned.bytes = .ok () := by
  obtain ⟨entry, entryMember, isCrossChain⟩ := spent
  obtain ⟨program, member, ran⟩ := checkTransactionSignature_each signed passed entry entryMember
  refine ⟨program, member, ?_⟩
  simpa only [runProgram, isCrossChain, if_true] using ran

/-- Different script keys that are listed and sign are counted one by one. -/
theorem Collected.length_le {listed : List Bytes} {signed : Bytes → Bool}
    (collected : Collected chain data publicKeys signatures verified)
    (nodup : (publicKeys.map (·.drop 1)).Nodup) (inList : ∀ key ∈ publicKeys, key.drop 1 ∈ listed)
    (counts : ∀ key, ∀ signature ∈ signatures, chain.verifies data key (signature.drop 1) = true → signed key = true) :
    verified.length ≤ (listed.dedup.filter signed).length := by
  let signing := publicKeys.filter fun key => signed (key.drop 1)
  have hashes : verified ⊆ signing.map chain.prim.sha256 := by
    intro hash hashMember
    obtain ⟨key, keyMember, rfl, signature, signatureMember, isVerified⟩ := collected.2 hash hashMember
    exact mem_map_of_mem (mem_filter.2 ⟨keyMember, counts _ signature signatureMember isVerified⟩)
  have keys : signing.map (·.drop 1) ⊆ listed.dedup.filter signed := by
    intro key keyMember
    obtain ⟨pushed, pushedMember, rfl⟩ := mem_map.1 keyMember
    obtain ⟨inScript, isSigned⟩ := mem_filter.1 pushedMember
    exact mem_filter.2 ⟨mem_dedup.2 (inList pushed inScript), isSigned⟩
  have keysNodup : (signing.map (·.drop 1)).Nodup := nodup.sublist ((filter_sublist).map _)
  calc verified.length ≤ (signing.map chain.prim.sha256).length :=
        (subperm_of_subset collected.1 hashes).length_le
    _ = (signing.map (·.drop 1)).length := by simp
    _ ≤ (listed.dedup.filter signed).length :=
        (subperm_of_subset keysNodup keys).length_le

theorem withdrawal_scriptsOfArbiters (nodup : chain.arbitrators.getCrossChainArbiters.Nodup)
    (passed : chain.checkWithdrawFromSideChainTransaction tx references = .ok ()) : ScriptsOfArbiters chain tx := by
  unfold checkWithdrawFromSideChainTransaction at passed
  split at passed
  case h_2 => simp at passed
  simp only [bind_eq_ok, exists_unit, forM_eq_ok, checkCrossChainArbitrators, require_eq_ok] at passed
  obtain ⟨_, _, programs⟩ := passed
  intro program member publicKeys parsed
  obtain ⟨keys, keysParsed, sameLength, listed⟩ := programs program member
  obtain rfl : keys = publicKeys := by simpa [parsed] using keysParsed.symm
  have perm : chain.arbitrators.getCrossChainArbiters.Perm (keys.map (·.drop 1)) :=
    (subperm_of_subset nodup listed).perm_of_length_le (by simp [sameLength])
  refine ⟨perm.nodup_iff.1 nodup, fun key keyMember => ?_⟩
  exact perm.mem_iff.2 (mem_map_of_mem keyMember)

variable {blockHeight : UInt32} {proposalsUsedAmount : Fixed64} {checked : Transaction}

/-- Either reading of `ArbitersInCharge` leads to a transaction whose programs have
been run and are scripts of arbiters. -/
theorem ArbitersInCharge.spends (inCharge : ArbitersInCharge chain tx)
    (accepted : chain.checkTransactionContext blockHeight tx references proposalsUsedAmount = .ok checked) :
    tx.txType ≠ .crcProposalWithdraw ∧ ScriptsOfArbiters chain tx ∧
      BlockChain.Spends chain blockHeight tx references := by
  rcases inCharge with ⟨⟨notCoinbase, costs, notNew, notAppropriation, signed⟩, scripts⟩ | ⟨isWithdrawal, nodup⟩
  · rcases checkTransactionContext_cases notCoinbase accepted with
      ⟨typed, _⟩ | ⟨_, spent⟩
    · rcases checkType_done typed with noCost | isNew | ⟨appropriation, _⟩
      · simp [costs] at noCost
      · simp [notNew] at isNew
      · exact absurd appropriation notAppropriation
    · exact ⟨signed, scripts, (checkSpending_spends spent).1⟩
  · have notCoinbase : tx.txType ≠ .coinBase := by simp [isWithdrawal]
    have signed : tx.txType ≠ .crcProposalWithdraw := by simp [isWithdrawal]
    rcases checkTransactionContext_cases notCoinbase accepted with
      ⟨typed, _⟩ | ⟨typed, spent⟩
    · simp [checkType, isWithdrawal, bind_eq_ok] at typed
    · simp only [checkType, isWithdrawal, bind_eq_ok, exists_unit, withCode_eq_ok, and_true] at typed
      exact ⟨signed, withdrawal_scriptsOfArbiters nodup typed, (checkSpending_spends spent).1⟩

/-- More than a majority of the arbiters has signed an accepted transaction that
spends a cross-chain output, when the scripts in it are theirs. -/
theorem crossChainSpend_signed (inCharge : ArbitersInCharge chain tx) (spent : spendsCrossChain references)
    (accepted : chain.checkTransactionContext blockHeight tx references proposalsUsedAmount = .ok checked) :
    chain.arbitrators.getCrossChainArbitersMajorityCount < (chain.signingArbiters tx).length := by
  obtain ⟨signed, scripts, spends⟩ := inCharge.spends accepted
  obtain ⟨programs, passed⟩ := spends.signature
  obtain ⟨program, member, ran⟩ := exists_crossChainProgram signed spent passed
  obtain ⟨publicKeys, verified, parsed, collected, majority⟩ := checkCrossChainSignatures_collected ran
  obtain ⟨nodup, arbiters⟩ := scripts program member publicKeys parsed
  have counted : verified.length ≤ (chain.signingArbiters tx).length := by
    refine collected.length_le nodup arbiters fun key signature signatureMember isVerified => ?_
    exact any_eq_true.2 ⟨program, member, any_eq_true.2 ⟨_, mem_map_of_mem signatureMember, isVerified⟩⟩
  omega

end Signatures

namespace SmallChain

def lockedFunds : Transaction :=
  coinbase 1 [output (address prefixCrossChain 7) 100000, output miner 0]

def lockedReferences (tx : Transaction) : References :=
  tx.inputs.map fun input => (input, output (address prefixCrossChain 7) 100000)

def withdrawal : Transaction :=
  spend .withdrawFromSideChain (.withdrawFromSideChain {
      blockHeight := 5
      genesisBlockAddress := []
      sideChainTransactionHashes := [] })
    lockedFunds [output miner 80000] [crossChainProgram 1 2]

theorem withdrawal_signed : (chain [lockedFunds]).arbitrators.getCrossChainArbitersMajorityCount <
      ((chain [lockedFunds]).signingArbiters withdrawal).length := by
  have passed : ((chain [lockedFunds]).checkTransactionContext 11 withdrawal
      (lockedReferences withdrawal) 0).isOk = true := by
    decide +kernel
  obtain ⟨_, accepted⟩ := exists_of_isOk passed
  refine crossChainSpend_signed (.inr ⟨rfl, by decide⟩) ?_ accepted
  exact ⟨_, mem_cons_self, rfl⟩

/-- A plain transfer out of the side chain's address, signed by two keys that are no
arbiters. -/
def theft : Transaction :=
  spend .transferAsset .transferAsset lockedFunds [output miner 99900]
    [crossChainProgram 7 8]

theorem theft_accepted : spendsCrossChain (lockedReferences theft) ∧
      ((chain [lockedFunds]).checkTransactionContext 11 theft (lockedReferences theft) 0).isOk = true ∧
      ¬ (chain [lockedFunds]).arbitrators.getCrossChainArbitersMajorityCount <
        ((chain [lockedFunds]).signingArbiters theft).length := by
  refine ⟨⟨_, mem_cons_self, rfl⟩, by decide +kernel, by decide +kernel⟩

end SmallChain

namespace BlockChain

/-- The different council arbiters that have a signature in the first program. -/
def signingCouncil (chain : BlockChain) (tx : Transaction) : List Bytes :=
  chain.arbitrators.getCRCArbiters.dedup.filter fun key =>
    (tx.programs.take 1).any fun program => (signaturesIn program).any fun signature =>
      chain.verifies tx.serializeUnsigned.bytes key signature

end BlockChain

def isCouncilTx (tx : Transaction) : Prop :=
  tx.txType = .inactiveArbitrators ∨ tx.txType = .updateVersion

/-- The run of the first program passes, and its script does not repeat a key. -/
def CouncilProgramRuns (chain : BlockChain) (tx : Transaction) : Prop :=
  ∀ program, BlockChain.firstProgram tx = .ok program →
    checkMultiSigSignatures chain.prim program tx.serializeUnsigned.bytes = .ok () ∧
      ∀ publicKeys, parseMultisigScript program.code = .ok publicKeys → (publicKeys.map (·.drop 1)).Nodup

section
variable {chain : BlockChain} {tx : Transaction} {references : References}
  {blockHeight : UInt32} {proposalsUsedAmount : Fixed64} {checked : Transaction} {program : Program}

/-- What validation looks at: enough keys are asked for, and all belong to the council. -/
theorem checkCRCArbitratorsSignatures_script (passed : chain.checkCRCArbitratorsSignatures program = .ok ()) :
    ∃ m n publicKeys, multisigCounts program.code = .ok (m, n) ∧ n = chain.arbitrators.getCRCArbitersCount ∧
      Arbitrators.majorityOf chain.arbitrators.getCRCArbitersCount + 1 ≤ m ∧
      parseMultisigScript program.code = .ok publicKeys ∧
      ∀ key ∈ publicKeys, key.drop 1 ∈ chain.arbitrators.getCRCArbiters := by
  simp only [checkCRCArbitratorsSignatures, bind_eq_ok, exists_unit, reject_eq_ok, forM_eq_ok,
    require_eq_ok, Arbitrators.isCRCArbitrator, decide_eq_true_eq] at passed
  obtain ⟨⟨m, n⟩, counts, bounds, publicKeys, parsed, council⟩ := passed
  exact ⟨m, n, publicKeys, counts, by omega, by omega, parsed, council⟩

theorem councilTx_script (council : isCouncilTx tx)
    (accepted : chain.checkTransactionContext blockHeight tx references proposalsUsedAmount = .ok checked) :
    ∃ program, BlockChain.firstProgram tx = .ok program ∧ chain.checkCRCArbitratorsSignatures program = .ok () := by
  have notCoinbase : tx.txType ≠ .coinBase := by
    rcases council with inactive | update
    · simp [inactive]
    · simp [update]
  have typed : ∃ verdict, chain.checkType blockHeight tx references proposalsUsedAmount = .ok verdict := by
    rcases checkTransactionContext_cases notCoinbase accepted with
      ⟨typed, _⟩ | ⟨typed, _⟩
    · exact ⟨_, typed⟩
    · exact ⟨_, typed⟩
  obtain ⟨verdict, typed⟩ := typed
  rcases council with inactive | update
  · simp only [checkType, inactive, bind_eq_ok, exists_unit, withCode_eq_ok,
      checkInactiveArbitratorsTransaction, checkInactiveArbitrators] at typed
    obtain ⟨⟨_, typed⟩, _⟩ := typed
    split at typed
    · simp only [bind_eq_ok, exists_unit] at typed
      obtain ⟨_, _, program, first, passed⟩ := typed
      exact ⟨program, first, passed⟩
    · simp at typed
  · simp only [checkType, update, bind_eq_ok, exists_unit, withCode_eq_ok, checkUpdateVersionTransaction] at typed
    obtain ⟨typed, _⟩ := typed
    split at typed
    · simp only [bind_eq_ok, exists_unit] at typed
      obtain ⟨_, program, first, passed⟩ := typed
      exact ⟨program, first, passed⟩
    · simp at typed

theorem checkMultiSigSignatures_collected {data : Bytes} {m n : Int} {publicKeys : List Bytes}
    (counts : multisigCounts program.code = .ok (m, n)) (parsed : parseMultisigScript program.code = .ok publicKeys)
    (passed : checkMultiSigSignatures chain.prim program data = .ok ()) : ∃ verified, m ≤ (verified.length : Int) ∧
      Collected chain data publicKeys (signatureChunks program.parameter) verified := by
  simp only [checkMultiSigSignatures, counts, parsed, bind_eq_ok, exists_unit, reject_eq_ok,
    verifyMultisigSignatures, require_eq_ok, Except.ok.injEq, exists_eq_left'] at passed
  obtain ⟨_, _, _, _, _, verified, looped, enough⟩ := passed
  exact ⟨verified, by omega, verifyRounds_collected looped⟩

/-- The numbers in a script are single bytes. -/
theorem multisigCounts_lt {code : Bytes} {m n : Int} (counts : multisigCounts code = .ok (m, n)) : n < 176 := by
  unfold multisigCounts at counts
  split at counts
  · simp at counts
  simp only [Except.ok.injEq, Prod.mk.injEq] at counts
  have byte := (code.dropLast.getLastD 0).toNat_lt
  simp only [push1] at counts
  omega

theorem majorityOf_twoThirds : ∀ count : Nat, count < 176 →
    2 * (count : Int) < 3 * (Arbitrators.majorityOf count + 1) := by
  decide +kernel

example : Arbitrators.majorityOf 12 = 8 := by decide +kernel

/-- More than two thirds of the council have signed an accepted transaction of these types
whose first program would also pass the run that validation leaves out. -/
theorem councilTx_signed (council : isCouncilTx tx) (runs : CouncilProgramRuns chain tx)
    (accepted : chain.checkTransactionContext blockHeight tx references proposalsUsedAmount = .ok checked) :
    2 * chain.arbitrators.getCRCArbitersCount < 3 * (chain.signingCouncil tx).length := by
  obtain ⟨program, first, script⟩ := councilTx_script council accepted
  obtain ⟨m, n, publicKeys, counts, all, enough, parsed, members⟩ := checkCRCArbitratorsSignatures_script script
  obtain ⟨passed, distinct⟩ := runs program first
  obtain ⟨verified, matched, collected⟩ := checkMultiSigSignatures_collected counts parsed passed
  have isFirst : program ∈ tx.programs.take 1 := by
    cases programs : tx.programs with
    | nil => simp [firstProgram, programs] at first
    | cons head rest =>
      simp only [firstProgram, programs, Except.ok.injEq] at first
      simp [first]
  have counted : verified.length ≤ (chain.signingCouncil tx).length := by
    refine collected.length_le (distinct publicKeys parsed) members fun key signature member isVerified => ?_
    exact List.any_eq_true.2 ⟨program, isFirst, List.any_eq_true.2 ⟨_, List.mem_map_of_mem member, isVerified⟩⟩
  have small := multisigCounts_lt counts
  have majority := majorityOf_twoThirds chain.arbitrators.getCRCArbitersCount (by omega)
  omega

end

namespace SmallChain

def councilTx (txType : TxType) (payload : Payload) (signers : List UInt8) : Transaction where
  version := txVersion09
  txType := txType
  payloadVersion := 0
  payload := payload
  attributes := [{ usage := 0, data := [] }]
  inputs := []
  outputs := []
  lockTime := 0
  programs := [councilProgram signers]
  fee := 0
  feePerKB := 0

def updateVersion : Payload :=
  .updateVersion { startHeight := 20, endHeight := 30 }

def inactiveArbiters : Payload :=
  .inactiveArbitrators { sponsor := Stand.key 1, arbitrators := [], blockHeight := 10 }

theorem updateVersion_signed : 2 * (chain []).arbitrators.getCRCArbitersCount <
      3 * ((chain []).signingCouncil (councilTx .updateVersion updateVersion [1, 2])).length := by
  have passed : ((chain []).checkTransactionContext 11
      (councilTx .updateVersion updateVersion [1, 2]) [] 0).isOk = true := by
    decide +kernel
  obtain ⟨_, accepted⟩ := exists_of_isOk passed
  refine councilTx_signed (.inr rfl) ?_ accepted
  intro program first
  obtain rfl : councilProgram [1, 2] = program := by
    simpa [firstProgram, councilTx] using first
  refine ⟨by decide +kernel, fun publicKeys parsed => ?_⟩
  have keys : parseMultisigScript (councilProgram [1, 2]).code = .ok [33 :: Stand.key 1, 33 :: Stand.key 2] := by
    decide +kernel
  obtain rfl : [33 :: Stand.key 1, 33 :: Stand.key 2] = publicKeys := by
    simpa [keys] using parsed
  decide

/-- The check of a transaction accepts one that nobody has signed. Only in a block are the signatures
looked at, and those of `UpdateVersion` not even then. -/
theorem unsigned_accepted :
    let tx := councilTx .inactiveArbitrators inactiveArbiters []
    isCouncilTx tx ∧ ((chain []).checkTransactionSanity 11 tx).isOk = true ∧
      ((chain []).checkTransactionContext 11 tx [] 0).isOk = true ∧
      ¬ 2 * (chain []).arbitrators.getCRCArbitersCount < 3 * ((chain []).signingCouncil tx).length :=
  ⟨.inl rfl, by decide +kernel, by decide +kernel, by decide +kernel⟩

end SmallChain
end Elastos.Blockchain
