import Elastos.Go.Runtime
import Elastos.Types.Transaction

/-! The checkpoint of the transaction pool in `ELA/mempool/txpoolcheckpoint.go`.
How a transaction is accepted, how the slots of the conflict manager are filled
and what is read back of a written transaction is left open. -/
set_option autoImplicit false
namespace Elastos.Mempool
open Go Common List
open Elastos.Types (Transaction)

structure TxItem where
  hash : Uint256
  feeRate : UInt64
  size : UInt32

structure TxFeeOrderedList where
  list : List TxItem
  totalSize : UInt64

def newTxFeeOrderedList : TxFeeOrderedList := ⟨[], 0⟩

structure TxPoolCheckpoint where
  txnList : GoMap Uint256 Transaction
  txFees : TxFeeOrderedList
  height : UInt32

def newTxPoolCheckpoint : TxPoolCheckpoint := ⟨∅, newTxFeeOrderedList, 0⟩

structure TxPool (κ : Type) extends TxPoolCheckpoint where
  conflictManager : κ
  proposalsUsedAmount : Int64

/-- What `Serialize` writes, in its order. -/
structure Written where
  height : UInt32
  txs : List (Uint256 × Transaction)
  txFees : TxFeeOrderedList

structure PoolFuncs (κ : Type) where
  runtime : Runtime
  newConflictManager : κ
  /-- The slots after the call, and whether all of them took the transaction. -/
  appendTx : κ → Transaction → κ × Bool
  appendToTxPool : TxPool κ → Transaction → TxPool κ
  reread : Transaction → Option Transaction

variable {κ : Type} (funcs : PoolFuncs κ)

def newTxPool : TxPool κ :=
  { newTxPoolCheckpoint with conflictManager := funcs.newConflictManager, proposalsUsedAmount := 0 }

def serialize (checkpoint : TxPoolCheckpoint) : Written :=
  ⟨checkpoint.height, funcs.runtime.iterate (GoMap.pairs checkpoint.txnList), checkpoint.txFees⟩

/-- The loop of `Deserialize`, which hands every transaction to the pool and
tells whether all could be read. -/
def readTxs (pool : TxPool κ) : List (Uint256 × Transaction) → TxPool κ × Bool
  | [] => (pool, true)
  | entry :: rest =>
    match funcs.reread entry.2 with
    | none => (pool, false)
    | some tx => readTxs (funcs.appendToTxPool pool tx) rest

/-- `Deserialize` of a checkpoint that is not the one of the pool. Its own
transactions are not touched. -/
def snapshot (pool : TxPool κ) : Option TxPoolCheckpoint × TxPool κ :=
  let written := serialize funcs pool.toTxPoolCheckpoint
  let (after, complete) := readTxs funcs pool written.txs
  if complete then (some { newTxPoolCheckpoint with height := written.height, txFees := written.txFees }, after)
  else (none, after)

def initConflictManager (conflictManager : κ) : List Transaction → κ
  | [] => conflictManager
  | tx :: rest =>
    let (next, complete) := funcs.appendTx conflictManager tx
    if complete then initConflictManager next rest else next

/-- `Deserialize` of the checkpoint of a new pool, and `OnInit`. -/
def load (written : Written) : Option (TxPool κ) :=
  let (pool, complete) := readTxs funcs (newTxPool funcs) written.txs
  if complete then some { pool with
    height := written.height
    txFees := written.txFees
    conflictManager := initConflictManager funcs pool.conflictManager
      (funcs.runtime.iterate (GoMap.values pool.txnList)) }
  else none

/-- The slots after a transaction that all of them take. -/
def filled (conflictManager : κ) (tx : Transaction) : Option κ :=
  let (next, complete) := funcs.appendTx conflictManager tx
  if complete then some next else none

/-- The fee list has the hashes of the transactions and their size, and the slots are filled from them. -/
structure Indexed (pool : TxPool κ) : Prop where
  hashes : (pool.txFees.list.map TxItem.hash).Perm pool.txnList.keys
  size : pool.txFees.totalSize = (pool.txFees.list.map fun item => item.size.toUInt64).sum
  slots : ∃ order : List Transaction, order.Perm (GoMap.values pool.txnList) ∧
    order.foldlM (filled funcs) funcs.newConflictManager = some pool.conflictManager

structure Faithful (pool : TxPool κ) (copy : TxPoolCheckpoint) (loaded : TxPool κ) : Prop where
  snapshot : snapshot funcs pool = (some copy, pool)
  txnList : GoMap.Same copy.txnList pool.txnList
  txFees : copy.txFees = pool.txFees
  load : load funcs (serialize funcs pool.toTxPoolCheckpoint) = some loaded
  loadedTxs : GoMap.Same loaded.txnList pool.txnList
  indexed : Indexed funcs loaded

variable {funcs} {pool after : TxPool κ} {copy : TxPoolCheckpoint}

theorem snapshot_txnList (taken : snapshot funcs pool = (some copy, after)) : copy.txnList = ∅ := by
  simp only [snapshot] at taken
  split at taken
  · cases taken
    rfl
  · cases taken

theorem serialize_empty (empty : pool.txnList = ∅) :
    serialize funcs pool.toTxPoolCheckpoint = ⟨pool.height, [], pool.txFees⟩ := by
  rw [serialize, empty, (funcs.runtime.iterate_perm (GoMap.pairs ∅)).eq_nil]

theorem Faithful.empty {loaded : TxPool κ} (faithful : Faithful funcs pool copy loaded) : pool.txnList = ∅ := by
  have same := faithful.txnList
  rw [snapshot_txnList faithful.snapshot] at same
  have keys : pool.txnList.keys = [] := eq_nil_iff_forall_not_mem.2 fun key =>
    AList.lookup_eq_none.1 ((same key).symm.trans (AList.lookup_empty key))
  exact AList.ext (map_eq_nil_iff.1 keys)

/-- A snapshot has the transactions of a new checkpoint, which are none. -/
theorem faithful_iff_empty (pool : TxPool κ) (indexed : Indexed funcs pool) :
    (∃ copy loaded, Faithful funcs pool copy loaded) ↔ pool.txnList = ∅ := by
  constructor
  · rintro ⟨copy, loaded, faithful⟩
    exact faithful.empty
  · intro empty
    have none : funcs.runtime.iterate (GoMap.values (∅ : GoMap Uint256 Transaction)) = [] :=
      (funcs.runtime.iterate_perm _).eq_nil
    refine ⟨⟨∅, pool.txFees, pool.height⟩,
      { newTxPool funcs with height := pool.height, txFees := pool.txFees }, ?_, ?_, rfl, ?_, ?_, ?_, ?_, ?_⟩
    · simp [snapshot, serialize_empty empty, readTxs, newTxPoolCheckpoint]
    · simp [GoMap.Same, empty]
    · simp [load, serialize_empty empty, readTxs, newTxPool, newTxPoolCheckpoint, none, initConflictManager]
    · simp [GoMap.Same, empty, newTxPool, newTxPoolCheckpoint]
    · simpa [empty, newTxPool, newTxPoolCheckpoint] using indexed.hashes
    · exact indexed.size
    · exact ⟨[], .nil, rfl⟩

/-- Functions that take every transaction. -/
def taking : PoolFuncs Unit where
  runtime := .insertion
  newConflictManager := ()
  appendTx _ _ := ((), true)
  appendToTxPool pool _ := pool
  reread := some

/-- A pool with one transaction. -/
def holding : TxPool Unit := { newTxPool taking with
  txnList := (∅ : GoMap Uint256 Transaction).insert default
    ⟨9, .transferAsset, 0, .transferAsset, [], [], [], 0, [], 0, 0⟩
  txFees := ⟨[⟨default, 0, 200⟩], 200⟩ }

theorem holding_indexed : Indexed taking holding :=
  ⟨.refl _, rfl, _, .refl _, rfl⟩

theorem faithful_small : ((∃ copy loaded, Faithful taking holding copy loaded) ↔ holding.txnList = ∅) ∧
    ∃ copy loaded, Faithful taking (newTxPool taking) copy loaded :=
  ⟨faithful_iff_empty holding holding_indexed, (faithful_iff_empty (newTxPool taking) ⟨.nil, rfl, [], .nil, rfl⟩).2 rfl⟩

theorem holding_unfaithful : Indexed taking holding ∧ ∀ copy loaded, ¬ Faithful taking holding copy loaded :=
  ⟨holding_indexed, fun _ _ faithful => absurd (congrArg AList.keys faithful.empty) (by decide)⟩

end Elastos.Mempool
