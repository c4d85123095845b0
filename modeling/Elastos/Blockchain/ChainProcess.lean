import Elastos.Blockchain.BlockTree
import Elastos.Blockchain.BlockValidator

/-! `processBlock`: blocks are checked, kept as orphans, connected to the main
chain, stored on side chains, and the main chain is reorganized. The states of the
arbitrators, the producers and the committee are the `ledger` behind the chain. -/
set_option autoImplicit false
namespace Elastos.Blockchain
open Go Common Config Crypto Elastos.Types Method

def maxOrphanBlocks : Nat := 10000

def orphanLifetime : Nat := 3600000000000

structure OrphanBlock where
  block : Block
  expiration : Nat

/-- The chain with its block store. `stored` holds every block that was written and
`heights` those of the main chain. The store answers the next writes of blocks and
of the block index as `writes` and `flushes` say, and all later ones with success. -/
structure Chain (σ : Type) extends BlockTree where
  orphans : GoMap Uint256 OrphanBlock
  prevOrphans : GoMap Uint256 (List OrphanBlock)
  oldestOrphan : Option OrphanBlock
  orphanConfirms : GoMap Uint256 Confirm
  blockCache : GoMap Uint256 Block
  confirmCache : GoMap Uint256 (Option Confirm)
  stored : GoMap Uint256 (Block × Option Confirm)
  heights : GoMap Uint256 UInt32
  currentBlockHeight : UInt32
  writes : List Bool
  flushes : List Bool
  ledger : σ

/-- What the chain is built on: the ledger as the validators see it and the changes
that blocks, rollbacks and special payloads make to it. `previous` is a node as
`CheckBlockContext` uses it. -/
structure Backend (σ : Type) where
  prim : Primitives
  runtime : Runtime
  params : Params
  genesisBlock : Block
  genesisBlock_height : genesisBlock.height = 0
  view : Chain σ → BlockChain
  previous : BlockTree → Nat → BlockNode
  processSpecialTxPayload : Payload → UInt32 → Method σ String Unit
  onBlockSaved : Block → Option Confirm → σ → σ
  onRollbackTo : UInt32 → σ → σ
  rollbackState : UInt32 → σ → σ

namespace BlockChain

def checkSpecialTx (chain : BlockChain) (tx : Transaction) : Outcome String Unit :=
  match tx.txType with
  | .inactiveArbitrators => do
    chain.checkInactiveArbitrators tx
    let _ ← chain.checkTransactionSignature tx []
    .ok ()
  | .illegalBlockEvidence =>
    match tx.payload with
    | .illegalBlocks payload => chain.checkDPOSIllegalBlocks payload
    | _ => .fail "invalid payload"
  | _ => .ok ()

end BlockChain

def payloadsOf (block : Block) (txType : TxType) : List Payload :=
  (block.transactions.filter fun tx => tx.txType = txType).map (·.payload)

namespace Chain
variable {σ : Type}

def onTree {α : Type} (method : Method BlockTree BlockError α) : Method (Chain σ) BlockError α :=
  part Chain.toBlockTree (fun chain tree => { chain with toBlockTree := tree }) method

def onLedger {ε α : Type} (method : Method σ ε α) : Method (Chain σ) ε α :=
  part Chain.ledger (fun chain ledger => { chain with ledger }) method

/-- A write of a block to the store. -/
def write : Method (Chain σ) BlockError Unit := fun chain =>
  match chain.writes with
  | [] => (.ok (), chain)
  | true :: rest => (.ok (), { chain with writes := rest })
  | false :: rest => (.fail (.text "fflDB update failed"), { chain with writes := rest })

def flushToDB : Method (Chain σ) BlockError Unit := fun chain =>
  match chain.flushes with
  | [] => (.ok (), chain)
  | true :: rest => (.ok (), { chain with flushes := rest })
  | false :: rest => (.fail (.text "fflDB update failed"), { chain with flushes := rest })

def getBlock (hash : Uint256) : Method (Chain σ) BlockError (Block × Option Confirm) := do
  let chain ← Method.this
  lift (Outcome.ofOption (.text "block not found") (chain.stored.lookup hash))

variable (hash : Uint256) (block : Block)

def storeBlock (confirm : Option Confirm) : Method (Chain σ) BlockError Unit := do
  write
  update fun chain =>
    match chain.stored.lookup hash with
    | some _ => chain
    | none => { chain with stored := chain.stored.insert hash (block, confirm) }

def saveBlock (id : Nat) (confirm : Option Confirm) :
    Method (Chain σ) BlockError Unit := do
  let chain ← Method.this
  require (chain.currentBlockHeight < block.height)
    (.text "block height less than current block height")
  storeBlock hash block confirm
  write
  update fun chain => { chain with
    heights := chain.heights.insert hash (chain.node id).height
    currentBlockHeight := block.height }

/-- The details of the predecessor are read before the block is removed. -/
def rollbackBlock (id : Nat) : Method (Chain σ) BlockError Unit := do
  let _ ← getBlock hash
  let chain ← Method.this
  match (chain.node id).parent with
  | none => crash "nil pointer dereference"
  | some parent => do
    let _ ← getBlock (chain.node parent).hash
    write
    update fun chain => { chain with
      heights := chain.heights.erase hash
      currentBlockHeight := block.height - 1 }

variable (backend : Backend σ)
variable (block : Block)

def preProcessSpecialTx : Method (Chain σ) BlockError Unit := do
  let chain ← Method.this
  lift (plain (block.transactions.forM (backend.view chain).checkSpecialTx))
  (payloadsOf block .illegalBlockEvidence ++ payloadsOf block .inactiveArbitrators).forM
    fun payload =>
      mapError (fun _ => .text "force change fail when finding an inactive arbitrators transaction")
        (onLedger (backend.processSpecialTxPayload payload (block.height - 1)))

/-- An error of the context check rolls the ledger back to the block before. -/
def checkBlockWithConfirmation (confirm : Option Confirm) : Method (Chain σ) BlockError Unit := do
  match confirm with
  | none => crash "nil pointer dereference"
  | some confirm => do
    require (block.hash backend.prim = confirm.proposal.blockHash)
      (.text ("block confirmation validate failed: [CheckBlockWithConfirmation] block " ++
        "confirmation validate failed"))
    let chain ← Method.this
    match confirmContextCheck (backend.view chain).arbitrators confirm with
    | .ok _ => pure ()
    | .error (.panic text) => crash text
    | .error (.error reason) => do
      update fun chain =>
        { chain with ledger := backend.onRollbackTo (block.height - 1) chain.ledger }
      fail (.text ("block confirmation validate failed: " ++ reason))

/-- Returns the block with the fees that the checks have set. -/
def connectBlock (id : Nat) (block : Block) (confirm : Option Confirm) : Method (Chain σ) BlockError Block := do
  preProcessSpecialTx backend block
  let chain ← Method.this
  let checked ← lift ((backend.view chain).checkBlockContext block
    ((chain.node id).parent.map (backend.previous chain.toBlockTree)))
  when (backend.params.crcOnlyDPOSHeight ≤ block.height)
    (checkBlockWithConfirmation backend checked confirm)
  let chain ← Method.this
  require (∀ best ∈ chain.bestChain, block.previous = (chain.node best).hash)
    (.text "connectBlock must be called with a block that extends the main chain")
  storeBlock (block.hash backend.prim) checked confirm
  saveBlock (block.hash backend.prim) checked id confirm
  onTree (update fun tree => tree.setInMainChain id true)
  onTree (BlockTree.setTip (some id))
  onTree (update fun tree => tree.addNode id)
  flushToDB
  onTree (update fun tree =>
    { tree.addDependent block.previous id with bestChain := some id })
  pure checked

def loadHeader (hash : Uint256) : Method (Chain σ) BlockError Nat := do
  let (block, _) ← getBlock hash
  onTree (BlockTree.loadBlockNode block.toHeader hash)

def getPrevNodeFromBlock : Method (Chain σ) BlockError (Option Nat) := do
  let chain ← Method.this
  if block.previous = default then pure none
  else
    match chain.index.lookup block.previous with
    | some id => pure (some id)
    | none => some <$> loadHeader block.previous

def getPrevNodeFromNode (id : Nat) : Method (Chain σ) BlockError (Option Nat) := do
  let chain ← Method.this
  match (chain.node id).parent with
  | some parent => pure (some parent)
  | none =>
    if (chain.node id).hash = backend.genesisBlock.hash backend.prim then pure none
    else some <$> loadHeader (chain.node id).parentHash

def rollbackLedger : Method (Chain σ) BlockError Unit :=
  when (backend.params.voteStartHeight ≤ block.height - 1) <|
    update fun chain =>
      { chain with ledger := backend.onRollbackTo (block.height - 1) chain.ledger }

def disconnectBlock (id : Nat) (block : Block) (confirm : Option Confirm) : Method (Chain σ) BlockError Unit := do
  let chain ← Method.this
  require (∃ best ∈ chain.bestChain, (chain.node id).hash = (chain.node best).hash)
    (.text "disconnectBlock must be called with the block at the end of the main chain")
  let _ ← getPrevNodeFromNode backend id
  rollbackBlock (block.hash backend.prim) block id
  rollbackLedger backend block
  onTree (update fun tree => tree.setInMainChain id false)
  let chain ← Method.this
  update fun chain => { chain with
    blockCache := chain.blockCache.insert (chain.node id).hash block
    confirmCache := chain.confirmCache.insert (chain.node id).hash confirm }
  onTree (BlockTree.setTip (chain.node id).parent)
  onTree (update fun tree => { tree with bestChain := (chain.node id).parent })

/-- One round of the loop of `reorganizeChain` that takes blocks off the main chain. -/
def detachBlock (id : Nat) : Method (Chain σ) BlockError Unit := do
  let chain ← Method.this
  let (block, confirm) ← getBlock (chain.node id).hash
  rollbackLedger backend block
  disconnectBlock backend id block confirm

def attachBlock (id : Nat) : Method (Chain σ) BlockError Unit := do
  let chain ← Method.this
  match chain.blockCache.lookup (chain.node id).hash with
  | none => crash "nil pointer dereference"
  | some block => do
    let confirm := (chain.confirmCache.lookup (chain.node id).hash).getD none
    let connected ← connectBlock backend id block confirm
    update fun chain => { chain with
      ledger := backend.onBlockSaved connected confirm chain.ledger
      blockCache := chain.blockCache.erase (chain.node id).hash
      confirmCache := chain.confirmCache.erase (chain.node id).hash }

def reorganizeChain (detach attach : List Nat) : Method (Chain σ) BlockError Unit := do
  let chain ← Method.this
  require (∀ id ∈ attach, (chain.blockCache.lookup (chain.node id).hash).isSome)
    (.text "block is missing from the side chain block cache")
  detach.forM (detachBlock backend)
  attach.forM (attachBlock backend)

/-- A block that may not be reorganized to although it has the most work. -/
def forbidsReorganize (height : UInt32) (detach : List Nat) : Prop :=
  backend.params.crcOnlyDPOSHeight < height ∧ irreversibleHeight < detach.length

instance (height : UInt32) (detach : List Nat) : Decidable (forbidsReorganize backend height detach) := by
  unfold forbidsReorganize
  infer_instance

def addSideBlock (id parent : Nat) (block : Block) (confirm : Option Confirm) : Method (Chain σ) BlockError Unit := do
  update fun chain => { chain with
    blockCache := chain.blockCache.insert (chain.node id).hash block
    confirmCache := chain.confirmCache.insert (chain.node id).hash confirm }
  onTree (update fun tree =>
    ((tree.addNode id).setInMainChain id false).addChild parent id)

/-- Returns the block, whether it is on the main chain and whether the chain was
reorganized. -/
def connectBestChain (id : Nat) (block : Block) (confirm : Option Confirm) :
    Method (Chain σ) BlockError (Block × Bool × Bool) := fun chain =>
  match chain.bestChain, (chain.node id).parent with
  | none, parent => extend parent chain
  | some _, none => crash "nil pointer dereference" chain
  | some best, some parent =>
    if (chain.node parent).hash = (chain.node best).hash then extend (some parent) chain
    else branch best parent chain
where
  extend (parent : Option Nat) : Method (Chain σ) BlockError (Block × Bool × Bool) :=
    fun chain =>
      match connectBlock backend id block confirm chain with
      | (.ok connected, after) =>
        match parent with
        | none => (.ok (connected, true, false), after)
        | some parent =>
          (.ok (connected, true, false), { after with toBlockTree := after.toBlockTree.addChild parent id })
      | (.error (.error reason), after) =>
        (.error (.error reason), { after with ledger := backend.rollbackState block.height after.ledger })
      | (.error (.panic text), after) => (.error (.panic text), after)
  branch (best parent : Nat) : Method (Chain σ) BlockError (Block × Bool × Bool) := do
    addSideBlock id parent block confirm
    let chain ← Method.this
    if (chain.node id).workSum ≤ (chain.node best).workSum then pure (block, false, false)
    else
      let (detach, attach) := chain.getReorganizeNodes id
      if forbidsReorganize backend block.height detach then pure (block, false, false)
      else do
        reorganizeChain backend detach attach
        pure (block, true, true)

def pruneBlockNodes : Method (Chain σ) BlockError Unit := onTree BlockTree.pruneBlockNodes

/-- The part of `maybeAcceptBlock` that makes the node of a block. -/
def newNode : Method (Chain σ) BlockError Nat := do
  let prevNode ← getPrevNodeFromBlock block
  let chain ← Method.this
  let blockHeight := match prevNode with
    | none => 0
    | some parent => (chain.node parent).height + 1
  require (block.height = blockHeight) (.text "wrong block height!")
  pruneBlockNodes
  let chain ← Method.this
  let node := newBlockNode block.toHeader (block.hash backend.prim)
  onTree (update fun tree => tree.allocate <|
    match prevNode with
    | none => node
    | some parent => { node with
        parent := some parent
        height := blockHeight
        workSum := (tree.node parent).workSum + node.workSum })
  pure chain.cells.length

def maybeAcceptBlock (confirm : Option Confirm) : Method (Chain σ) BlockError Bool := do
  let id ← newNode backend block
  let (connected, inMainChain, reorganized) ← connectBestChain backend id block confirm
  when (inMainChain = true ∧ reorganized = false) <|
    update fun chain =>
      { chain with ledger := backend.onBlockSaved connected confirm chain.ledger }
  pure inMainChain

variable (chain : Chain σ)

def blockExists (hash : Uint256) : Outcome BlockError Bool :=
  match chain.index.lookup hash with
  | some _ => .ok true
  | none =>
    match chain.stored.lookup hash, chain.heights.lookup hash with
    | some _, some height =>
      match chain.nodes[height.toNat]? with
      | none => .ok false
      | some none => .crash "nil pointer dereference"
      | some (some id) => .ok (decide ((chain.node id).hash = hash))
    | _, _ => .ok false

/-- A block that names no parent has one. -/
def parentExists (block : Block) : Outcome BlockError Bool :=
  if block.previous = default then .ok true else chain.blockExists block.previous

/-- Remove an orphan, and every orphan of the same hash that waits with it. -/
def removeOrphanBlock (orphan : OrphanBlock) (chain : Chain σ) : Chain σ :=
  let hash := orphan.block.hash backend.prim
  let previous := orphan.block.previous
  let rest := ((chain.prevOrphans.lookup previous).getD []).filter fun other =>
    other.block.hash backend.prim ≠ hash
  { chain with
    orphans := chain.orphans.erase hash
    orphanConfirms := chain.orphanConfirms.erase hash
    prevOrphans :=
      if rest = [] then chain.prevOrphans.erase previous
      else chain.prevOrphans.insert previous rest
    oldestOrphan := chain.oldestOrphan.filter fun oldest =>
      oldest.block.hash backend.prim ≠ hash }

def ageOrphan (now : Nat) (chain : Chain σ) (orphan : OrphanBlock) : Chain σ :=
  if orphan.expiration < now then chain.removeOrphanBlock backend orphan
  else
    match chain.oldestOrphan with
    | none => { chain with oldestOrphan := some orphan }
    | some oldest =>
      if orphan.expiration < oldest.expiration then
        { chain with oldestOrphan := some orphan }
      else chain

def addOrphanBlock (now : Nat) (block : Block) : Method (Chain σ) BlockError Unit := do
  update fun chain =>
    (backend.runtime.iterate chain.orphans.values).foldl (ageOrphan backend now) chain
  let chain ← Method.this
  when (maxOrphanBlocks < chain.orphans.entries.length + 1) <|
    match chain.oldestOrphan with
    | none => crash "nil pointer dereference"
    | some oldest =>
      update fun chain =>
        { chain.removeOrphanBlock backend oldest with oldestOrphan := none }
  let orphan := { block, expiration := now + orphanLifetime }
  update fun chain => { chain with
    orphans := chain.orphans.insert (block.hash backend.prim) orphan
    prevOrphans := chain.prevOrphans.insert block.previous
      ((chain.prevOrphans.lookup block.previous).getD [] ++ [orphan]) }

def addOrphanConfirm (confirm : Confirm) (chain : Chain σ) : Chain σ :=
  { chain with orphanConfirms := chain.orphanConfirms.insert confirm.proposal.blockHash confirm }

/-- Accept the blocks that wait for those in the queue, and then those that wait for
them. Every round takes an orphan away or shortens the queue. -/
def processOrphansIn : Nat → List Uint256 → Method (Chain σ) BlockError Unit
  | 0, _ => pure ()
  | _ + 1, [] => pure ()
  | rounds + 1, hash :: queue => do
    let chain ← Method.this
    match (chain.prevOrphans.lookup hash).getD [] with
    | [] => processOrphansIn rounds queue
    | orphan :: _ => do
      let orphanHash := orphan.block.hash backend.prim
      let _ ← maybeAcceptBlock backend orphan.block
        (chain.orphanConfirms.lookup orphanHash)
      update (removeOrphanBlock backend orphan)
      processOrphansIn rounds (hash :: queue ++ [orphanHash])

def orphanRounds : Nat :=
  2 * (chain.prevOrphans.values.map List.length).sum + 2

def processOrphans (hash : Uint256) : Method (Chain σ) BlockError Unit := do
  let chain ← Method.this
  processOrphansIn backend chain.orphanRounds [hash]

/-- Returns whether the block is on the main chain and whether it is an orphan. -/
def processBlock (now : Nat) (block : Block) (confirm : Option Confirm) :
    Method (Chain σ) BlockError (Bool × Bool) := do
  let chain ← Method.this
  let hash := block.hash backend.prim
  let exists_ ← lift (chain.blockExists hash)
  require (exists_ = false) (.text "already have block")
  if (chain.orphans.lookup hash).isSome then pure (false, true)
  else
    lift ((backend.view chain).checkBlockSanity block)
    let parentExists ← lift (chain.parentExists block)
    if parentExists = false then
      addOrphanBlock backend now block
      pure (false, true)
    else
      let inMainChain ← maybeAcceptBlock backend block confirm
      processOrphans backend hash
      pure (inMainChain, false)

/-- `ReorganizeChain`, which does not compare the work of the branches. -/
def reorganizeTo : Method (Chain σ) BlockError Unit := do
  let chain ← Method.this
  match chain.index.lookup (block.hash backend.prim) with
  | none => fail (.text "node of the reorganizing block does not exist")
  | some id =>
    let (detach, attach) := chain.getReorganizeNodes id
    if forbidsReorganize backend block.height detach then pure ()
    else reorganizeChain backend detach attach

/-- The chain that `New` makes on an empty store. The node of the genesis block is
not in the index. -/
def create (writes flushes : List Bool) (ledger : σ) : Chain σ :=
  let hash := backend.genesisBlock.hash backend.prim
  { cells := [{ newBlockNode backend.genesisBlock.toHeader hash with inMainChain := true }]
    index := ∅
    nodes := [some 0]
    depNodes := ∅
    root := none
    bestChain := some 0
    orphans := ∅
    prevOrphans := ∅
    oldestOrphan := none
    orphanConfirms := ∅
    blockCache := ∅
    confirmCache := ∅
    stored := (∅ : GoMap _ _).insert hash (backend.genesisBlock, none)
    heights := (∅ : GoMap _ _).insert hash backend.genesisBlock.height
    currentBlockHeight := 0
    writes
    flushes
    ledger }

end Chain
end Elastos.Blockchain
