import Elastos.Auxpow.MerkleTower
import Elastos.Blockchain.Utxo

/-! The proof of a side-chain block: a transaction of a main block names it. A main header
backs as many blocks of a side chain as its transactions name. -/
set_option autoImplicit false
namespace Elastos.SideChain
open Go Common Crypto Elastos.Types Auxpow Blockchain Utils Outcome List Transaction

structure SideAuxPow where
  sideAuxMerkleBranch : List Uint256
  sideAuxMerkleIndex : Int
  sideAuxBlockTx : Transaction
  mainBlockHeader : Header

/-- `Data` of a payload. Not every payload gives what it serializes. -/
def payloadData (version : UInt8) : Payload → Bytes
  | .coinBase content => content
  | .registerAsset _ | .record _ | .transferAsset => [0]
  | .returnDepositCoin | .crcAppropriation => []
  | .crcProposal payload => payload.serializeUnsigned
  | .crcProposalTracking payload => payload.serializeUnsigned
  | payload =>
    if (payload.serialize version).succeeded then (payload.serialize version).bytes else [0]

def sideChainPowVersion : UInt8 := 0

variable (prim : Primitives) (proof : SideAuxPow)

def sideAuxPowCheck (hashAuxBlock : Uint256) : Outcome String Bool := do
  let checked ← checkHeader prim proof.mainBlockHeader
  if checked = false then .ok false
  else if getMerkleRoot prim (proof.sideAuxBlockTx.hash prim) proof.sideAuxMerkleBranch
      proof.sideAuxMerkleIndex ≠ proof.mainBlockHeader.merkleRoot then .ok false
  else do
    let payloadHash ← slice (payloadData sideChainPowVersion proof.sideAuxBlockTx.payload) 0 32
    .ok (decide (payloadHash = hashAuxBlock.bytes))

/-- The transaction names a side chain and one of its blocks. -/
def Mines (tx : Transaction) (genesis sideBlock : Uint256) : Prop :=
  ∃ payload, tx.payload = .sideChainPow payload ∧ payload.sideGenesisHash = genesis ∧ payload.sideBlockHash = sideBlock

/-- A block has a transaction that is hashed as the given one. -/
def Lists (block : Block) (tx : Transaction) : Prop :=
  ∃ listed ∈ block.transactions, listed.serializeUnsigned.bytes = tx.serializeUnsigned.bytes

def blockInputs (prim : Primitives) (block : Block) : List Bytes :=
  let hashes := block.transactions.map (hash prim)
  block.transactions.map (fun tx => tx.serializeUnsigned.bytes) ++ Merkle.joined prim hashes.length hashes

def proofInputs : List Bytes :=
  proof.sideAuxBlockTx.serializeUnsigned.bytes ::
    (treeHash prim).hashed (proof.sideAuxBlockTx.hash prim)
      (branchOf proof.sideAuxMerkleBranch proof.sideAuxMerkleIndex)

/-- A proof with a given main header backs a block of a side chain. -/
structure Backs (prim : Primitives) (header : Header) (genesis : Uint256) (proof : SideAuxPow)
    (sideBlock : Uint256) : Prop where
  header : proof.mainBlockHeader = header
  used : proof.sideAuxMerkleIndex ≠ -1
  mines : ∃ named, Mines proof.sideAuxBlockTx genesis named
  passed : sideAuxPowCheck prim proof sideBlock = .ok true

variable {prim : Primitives} {header : Header} {genesis sideBlock : Uint256} {tx : Transaction}
  {proof : SideAuxPow}

theorem Mines.long (mines : Mines tx genesis sideBlock) : 64 < tx.serializeUnsigned.bytes.length := by
  obtain ⟨payload, named, _, _⟩ := mines
  have first := payload.sideBlockHash.size_eq
  have second := payload.sideGenesisHash.size_eq
  simp only [serializeUnsigned, named, Payload.serialize, Written.followedBy,
    Written.done, SideChainPow.serializeUnsigned, length_append, first, second, writeUint32_length]
  omega

theorem sideAuxPowCheck_iff {named : Uint256} (mines : Mines proof.sideAuxBlockTx genesis named) :
    sideAuxPowCheck prim proof sideBlock = .ok true ↔ checkHeader prim proof.mainBlockHeader = .ok true ∧
      getMerkleRoot prim (proof.sideAuxBlockTx.hash prim) proof.sideAuxMerkleBranch
        proof.sideAuxMerkleIndex = proof.mainBlockHeader.merkleRoot ∧ named = sideBlock := by
  obtain ⟨payload, isPow, _, rfl⟩ := mines
  have first := payload.sideBlockHash.size_eq
  have hash : slice (payloadData sideChainPowVersion proof.sideAuxBlockTx.payload) 0 32 =
      .ok payload.sideBlockHash.bytes := by
    simp [isPow, payloadData, Payload.serialize, Written.succeeded, Written.done,
      SideChainPow.serializeUnsigned, slice, first]
  rw [sideAuxPowCheck, hash]
  cases checkHeader prim proof.mainBlockHeader with
  | error => simp [bind, Except.bind]
  | ok checked =>
    cases checked with
    | false => simp [bind, Except.bind]
    | true =>
      simp only [bind, Except.bind, Bool.true_eq_false, if_false]
      split
      case isTrue other => simp [other]
      case isFalse same =>
        rw [Except.ok.injEq, decide_eq_true_eq]
        refine ⟨fun bytes => ⟨trivial, not_not.1 same, ByteArrayOf.ext bytes⟩, fun all => ?_⟩
        rw [all.2.2]

/-- What the sanity check says about the merkle root. -/
theorem checkBlockSanity_tower {chain : BlockChain} {block : Block} (accepted : chain.checkBlockSanity block = .ok ()) :
    (treeHash chain.prim).Tower (blockInputs chain.prim block)
      (block.transactions.map (hash chain.prim)) block.merkleRoot := by
  simp only [BlockChain.checkBlockSanity, bind_eq_ok, exists_unit, mapError_eq_ok, require_eq_ok] at accepted
  obtain ⟨_, _, _, _, _, _, seen, looped, _, root, computed, same⟩ := accepted
  obtain ⟨ids, _⟩ := checkBlockTransaction_seen looped
  rw [ids, append_nil, reverse_reverse] at computed
  rw [same]
  exact (Merkle.computeRoot_tower computed).mono (subset_append_right _ _)

/-- The transaction of a proof is one of the main block. -/
theorem Backs.lists {chain : BlockChain} {block : Block} (accepted : chain.checkBlockSanity block = .ok ())
    (sizes : ∀ tx ∈ block.transactions, tx.serializeUnsigned.bytes.length ≠ 64)
    (free : (treeHash chain.prim).CollisionFree (blockInputs chain.prim block ++ proofInputs chain.prim proof))
    (backs : Backs chain.prim block.toHeader genesis proof sideBlock) : Lists block proof.sideAuxBlockTx := by
  obtain ⟨named, mines⟩ := backs.mines
  obtain ⟨_, root, _⟩ := (sideAuxPowCheck_iff mines).1 backs.passed
  rw [getMerkleRoot_eq_rootOf _ _ backs.used, backs.header] at root
  have joined_length : ∀ left right : Uint256, ((treeHash chain.prim).join left right).length = 64 := by
    intro left right
    change (left.bytes ++ right.bytes).length = 64
    rw [length_append, left.size_eq, right.size_eq]
  have own : proof.sideAuxBlockTx.serializeUnsigned.bytes ∈
      blockInputs chain.prim block ++ proofInputs chain.prim proof :=
    mem_append_right _ mem_cons_self
  obtain ⟨lower, upper, split, member⟩ | ⟨left, right, inner, same⟩ :=
    (checkBlockSanity_tower accepted).descend (free.mono fun input member => by
      simp only [proofInputs, mem_append, mem_cons] at member ⊢
      tauto) root
  · obtain ⟨listed, inBlock, same⟩ := mem_map.1 member
    have known : listed.serializeUnsigned.bytes ∈ blockInputs chain.prim block ++ proofInputs chain.prim proof :=
      mem_append_left _ (mem_append_left _ (mem_map.2 ⟨listed, inBlock, rfl⟩))
    refine ⟨listed, inBlock, ?_⟩
    by_cases climbed : lower = []
    · rw [climbed] at same
      exact free _ known _ own same
    obtain ⟨side, node, sibling, hashed, equal⟩ :=
      @TreeHash.rootOf_hashed _ _ (treeHash chain.prim) _ (proof.sideAuxBlockTx.hash chain.prim) climbed
    have bytes := free _ known _ (mem_append_right _ (mem_cons_of_mem _ (by
      rw [split, TreeHash.hashed_append]
      exact mem_append_left _ hashed))) (same.trans equal)
    refine absurd ?_ (sizes listed inBlock)
    rw [bytes, TreeHash.preimage]
    split
    · exact joined_length _ _
    · exact joined_length _ _
  · have bytes := free _ own _ (mem_append_left _ inner) same
    have long := mines.long
    rw [bytes, joined_length] at long
    omega

/-- A transaction of the main block has a proof with nothing new to hash. -/
theorem Lists.exists_backs {chain : BlockChain} {block : Block} (accepted : chain.checkBlockSanity block = .ok ())
    (proved : checkHeader chain.prim block.toHeader = .ok true) (lists : Lists block tx)
    (mines : Mines tx genesis sideBlock) : ∃ proof, Backs chain.prim block.toHeader genesis proof sideBlock ∧
      proofInputs chain.prim proof ⊆ blockInputs chain.prim block := by
  obtain ⟨listed, inBlock, same⟩ := lists
  have hash : tx.hash chain.prim = listed.hash chain.prim := by
    rw [Transaction.hash, Transaction.hash, same]
  obtain ⟨branch, root, within⟩ := (checkBlockSanity_tower accepted).exists_branch (mem_map.2 ⟨listed, inBlock, rfl⟩)
  have shape : branchOf (branch.map Prod.snd) (indexOf (branch.map Prod.fst)) = branch := by
    have sides := sides_indexOf (branch.map Prod.fst)
    rw [length_map] at sides
    rw [branchOf, length_map, sides]
    exact (zip_of_prod rfl rfl).symm
  refine ⟨⟨branch.map Prod.snd, indexOf (branch.map Prod.fst), tx, block.toHeader⟩,
    ⟨rfl, by simp, ⟨sideBlock, mines⟩, ?_⟩, ?_⟩
  · refine (sideAuxPowCheck_iff mines).2 ⟨proved, ?_, rfl⟩
    rw [getMerkleRoot_eq_rootOf _ _ (by simp), shape, hash]
    exact root
  · rw [proofInputs, shape, hash, ← same]
    exact cons_subset.2 ⟨mem_append_left _ (mem_map.2 ⟨listed, inBlock, rfl⟩), within⟩

/-- A main header backs one block of a side chain if and only if its block has no two
transactions that name different blocks of this side chain. -/
theorem oneSideBlock_iff {chain : BlockChain} {block : Block} {genesis : Uint256}
    (accepted : chain.checkBlockSanity block = .ok ()) (proved : checkHeader chain.prim block.toHeader = .ok true)
    (sizes : ∀ tx ∈ block.transactions, tx.serializeUnsigned.bytes.length ≠ 64)
    (unused : (treeHash chain.prim).CollisionFree (blockInputs chain.prim block)) :
    (∀ first second sideBlock other, Backs chain.prim block.toHeader genesis first sideBlock →
      Backs chain.prim block.toHeader genesis second other →
      (treeHash chain.prim).CollisionFree (blockInputs chain.prim block ++
        (proofInputs chain.prim first ++ proofInputs chain.prim second)) → sideBlock = other) ↔
    ∀ tx tx' sideBlock other, Lists block tx → Lists block tx' → Mines tx genesis sideBlock →
      Mines tx' genesis other → sideBlock = other := by
  constructor
  · intro one tx tx' sideBlock other lists lists' mines mines'
    obtain ⟨first, backs, within⟩ := lists.exists_backs accepted proved mines
    obtain ⟨second, backs', within'⟩ := lists'.exists_backs accepted proved mines'
    refine one first second sideBlock other backs backs' (unused.mono ?_)
    exact append_subset.2 ⟨List.Subset.refl _, append_subset.2 ⟨within, within'⟩⟩
  · intro one first second sideBlock other backs backs' free
    obtain ⟨named, mines⟩ := backs.mines
    obtain ⟨named', mines'⟩ := backs'.mines
    obtain ⟨_, _, rfl⟩ := (sideAuxPowCheck_iff mines).1 backs.passed
    obtain ⟨_, _, rfl⟩ := (sideAuxPowCheck_iff mines').1 backs'.passed
    refine one _ _ _ _ (backs.lists accepted sizes (free.mono ?_))
      (backs'.lists accepted sizes (free.mono ?_)) mines mines'
    · exact append_subset.2 ⟨subset_append_left _ _,
        List.Subset.trans (subset_append_left _ _) (subset_append_right _ _)⟩
    · exact append_subset.2 ⟨subset_append_left _ _,
        List.Subset.trans (subset_append_right _ _) (subset_append_right _ _)⟩

namespace SmallMain
open Crypto.Stand Blockchain.SmallChain
variable (last : UInt8)

theorem numbered_size : (List.replicate 31 0 ++ [last]).length = 32 := by simp

/-- The blocks of a side chain, numbered. Its genesis block is the ninth. -/
def numbered : Uint256 where
  bytes := List.replicate 31 0 ++ [last]
  size_eq := numbered_size last

def mining : Transaction where
  version := txVersion09
  txType := .sideChainPow
  payloadVersion := 0
  payload := .sideChainPow {
    sideBlockHash := numbered last
    sideGenesisHash := numbered 9
    blockHeight := 1
    signature := [] }
  attributes := []
  inputs := []
  outputs := [output miner 0]
  lockTime := 0
  programs := []
  fee := 0
  feePerKB := 0

def committing (block : Block) : BtcTx where
  version := 1
  txIn := [{
    previousHash := .zero 32
    previousIndex := 0
    signatureScript :=
      pchMergedMiningHeader ++ (block.hash primitives).bytes ++ [1, 0, 0, 0, 0, 0, 0, 0]
    sequence := 0 }]
  txOut := []
  lockTime := 0

/-- Two side-chain blocks are mined by one main block. -/
def mainBlock : Block :=
  let block := blockOf 11 [fairCoinbase 11 0, mining 1, mining 2]
  { block with
    auxPow := { auxPow with
      parCoinbaseTx := committing block
      parBlockHeader := { auxPow.parBlockHeader with
        merkleRoot := hashOf primitives (committing block) } } }

def proofOf (index : Int) (branch : List Uint256) : SideAuxPow where
  sideAuxMerkleBranch := branch
  sideAuxMerkleIndex := index
  sideAuxBlockTx := mining last
  mainBlockHeader := mainBlock.toHeader

def firstProof : SideAuxPow :=
  proofOf 1 1 [(fairCoinbase 11 0).hash primitives,
    Merkle.computeParent primitives ((mining 2).hash primitives) ((mining 2).hash primitives)]

def secondProof : SideAuxPow :=
  proofOf 2 2 [(mining 2).hash primitives, Merkle.computeParent primitives
    ((fairCoinbase 11 0).hash primitives) ((mining 1).hash primitives)]

theorem mining_mines : Mines (mining last) (numbered 9) (numbered last) :=
  ⟨_, rfl, rfl, rfl⟩

theorem twoMinings_not_one : ¬ ∀ first second side other, Backs primitives mainBlock.toHeader (numbered 9) first side →
      Backs primitives mainBlock.toHeader (numbered 9) second other →
      (treeHash primitives).CollisionFree (blockInputs primitives mainBlock ++
        (proofInputs primitives first ++ proofInputs primitives second)) → side = other := by
  intro one
  have same := (@oneSideBlock_iff (chain []) mainBlock (numbered 9) (by decide +kernel)
    (by decide +kernel) (by decide +kernel) (by decide +kernel)).1 one (mining 1) (mining 2) _ _
    ⟨_, by simp [mainBlock, blockOf], rfl⟩ ⟨_, by simp [mainBlock, blockOf], rfl⟩
    (mining_mines 1) (mining_mines 2)
  exact absurd same (by decide)

/-- One main header backs two blocks of a side chain. -/
theorem twoMinings_twoSideBlocks : (chain []).checkBlockSanity mainBlock = .ok () ∧
      Backs primitives mainBlock.toHeader (numbered 9) firstProof (numbered 1) ∧
      Backs primitives mainBlock.toHeader (numbered 9) secondProof (numbered 2) ∧
      (treeHash primitives).CollisionFree (blockInputs primitives mainBlock ++
        (proofInputs primitives firstProof ++ proofInputs primitives secondProof)) ∧ numbered 1 ≠ numbered 2 :=
  ⟨by decide +kernel, ⟨rfl, by decide, ⟨_, mining_mines 1⟩, by decide +kernel⟩,
    ⟨rfl, by decide, ⟨_, mining_mines 2⟩, by decide +kernel⟩, by decide +kernel, by decide⟩

end SmallMain
end Elastos.SideChain
