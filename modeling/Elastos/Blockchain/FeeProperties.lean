import Elastos.Blockchain.Utxo

/-! How far the balance check of a transaction keeps value from being created, and the fees of a block,
as its checks, the reward of the arbiters and a node that starts again compute them. -/
set_option autoImplicit false
namespace Elastos.Blockchain
open Go Common Elastos.Types Outcome BlockChain List

section Conservation
variable {chain : BlockChain} {blockHeight : UInt32} {tx checked : Transaction}
  {references : References} {proposalsUsedAmount : Fixed64}

theorem getTransactionFee_turns (tx : Transaction) (references : References) :
    ∃ turns : Int, (getTransactionFee tx references).toInt =
      exactSum references.values - exactSum (valuesOf tx.outputs) + 18446744073709551616 * turns := by
  refine turns ?_
  rw [getTransactionFee, wrappedSum_eq, wrappedSum_eq, Int64.ofInt_sub]

theorem fee_nonneg (spends : BlockChain.Spends chain blockHeight tx references) :
    0 ≤ (getTransactionFee tx references).toInt := by
  have enough := spends.fee
  have floor := chain.chainParams.minTransactionFee_nonneg
  simp only [isSmallThanMinTransactionFee, decide_eq_false_iff_not, Int64.not_lt] at enough
  simpa using Int64.le_iff_toInt_le.1 (Int64.le_trans floor enough)

theorem checkCRCAppropriationTransaction_balanced
    (accepted : chain.checkCRCAppropriationTransaction tx references = .ok ()) :
    getTransactionFee tx references = 0 := by
  simp only [checkCRCAppropriationTransaction, bind_eq_ok, exists_unit, require_eq_ok] at accepted
  obtain ⟨_, _, balanced, _⟩ := accepted
  simp [getTransactionFee, balanced]

section
variable (notCoinbase : tx.txType ≠ .coinBase)
include notCoinbase

theorem exactSum_outputs_eq_zero (sane : BlockChain.Sane chain blockHeight tx)
    (free : noCostType tx = true ∨ tx.isNewSideChainPowTx = true) : exactSum (valuesOf tx.outputs) = 0 := by
  rcases checkTransactionOutput_cases notCoinbase sane.output with
    ⟨_, none⟩ | ⟨_, only, shape, zero, _⟩ | ⟨costs, notNew, _⟩
  · simp [none, valuesOf]
  · simp [shape, valuesOf, zero]
  · simp [costs, notNew] at free

theorem accepted_pays_nothing_or_fee (sane : BlockChain.Sane chain blockHeight tx)
    (accepted : chain.checkTransactionContext blockHeight tx references proposalsUsedAmount = .ok checked) :
    exactSum (valuesOf tx.outputs) = 0 ∨ 0 ≤ (getTransactionFee tx references).toInt := by
  rcases checkTransactionContext_cases notCoinbase accepted with
    ⟨typed, _⟩ | ⟨_, spent⟩
  · rcases checkType_done typed with noCost | isNew | ⟨_, appropriation⟩
    · exact .inl (exactSum_outputs_eq_zero notCoinbase sane (.inl noCost))
    · exact .inl (exactSum_outputs_eq_zero notCoinbase sane (.inr isNew))
    · right
      rw [checkCRCAppropriationTransaction_balanced appropriation]
      decide
  · exact .inr (fee_nonneg (checkSpending_spends spent).1)

/-- An accepted transaction creates no value exactly when its outputs do not exceed
its inputs by `2 ^ 63` or more. Up to there the wrapped difference is the exact one. -/
theorem outputs_le_inputs_iff (nonneg : ∀ entry ∈ references, 0 ≤ entry.2.value.toInt)
    (sane : chain.checkTransactionSanity blockHeight tx = .ok ())
    (accepted : chain.checkTransactionContext blockHeight tx references proposalsUsedAmount = .ok checked) :
    exactSum (valuesOf tx.outputs) ≤ exactSum references.values ↔
      exactSum (valuesOf tx.outputs) - exactSum references.values < 9223372036854775808 := by
  have inputsNonneg : 0 ≤ exactSum references.values := by
    refine exactSum_nonneg fun value member => ?_
    obtain ⟨entry, entryMember, rfl⟩ := List.mem_map.1 member
    exact nonneg entry entryMember
  rcases accepted_pays_nothing_or_fee notCoinbase (checkTransactionSanity_sane sane) accepted with nothing | feeNonneg
  · omega
  · obtain ⟨turns, feeEq⟩ := getTransactionFee_turns tx references
    have feeBound := Int64.toInt_lt (getTransactionFee tx references)
    omega

end

end Conservation

namespace SmallChain

/-- The first transaction of the owner of a key, and a transfer of its output. -/
def funding : Transaction := coinbase 1 [output (owner 5) 1000, output miner 0]

def transfer (outputs : List Output) : Transaction :=
  spend .transferAsset .transferAsset funding outputs [signedBy 5]

def fundingReferences (tx : Transaction) : References :=
  tx.inputs.map fun input => (input, output (owner 5) 1000)

theorem transfer_conserves : exactSum (valuesOf (transfer [output miner 900]).outputs) ≤
      exactSum (fundingReferences (transfer [output miner 900])).values := by
  have passed : ((chain [funding]).checkTransactionContext 11 (transfer [output miner 900])
      (fundingReferences (transfer [output miner 900])) 0).isOk = true := by
    decide +kernel
  obtain ⟨_, accepted⟩ := exists_of_isOk passed
  exact (outputs_le_inputs_iff (by decide) (by decide) (by decide +kernel) accepted).2 (by decide)

/-- Three outputs whose total wraps around to zero. -/
def inflating : Transaction :=
  transfer [output miner 9223372036854775807, output miner 9223372036854775807, output miner 2]

theorem inflating_accepted : inflating.txType ≠ .coinBase ∧
      (∀ entry ∈ fundingReferences inflating, 0 ≤ entry.2.value.toInt) ∧
      (chain [funding]).checkTransactionSanity 11 inflating = .ok () ∧
      ((chain [funding]).checkTransactionContext 11 inflating (fundingReferences inflating) 0).isOk = true ∧
      ¬ exactSum (valuesOf inflating.outputs) ≤ exactSum (fundingReferences inflating).values := by
  decide +kernel

end SmallChain

namespace BlockChain
variable (chain : BlockChain)

/-- `CalculateTxsFee` sets the fees in the blocks that a node reads when it starts. -/
def calculateTxsFee : List Transaction → List Transaction
  | [] => []
  | tx :: rest =>
    if tx.isCoinBaseTx then tx :: calculateTxsFee rest
    else
      match chain.getTxReference tx with
      | .error _ => tx :: rest
      | .ok references =>
        let fee := getTransactionFee tx references
        { tx with fee, feePerKB := fee * 1000 / Int64.ofNat tx.serialize.bytes.length } ::
          calculateTxsFee rest

/-- The total that `checkTxsContext` hands to the check of the coinbase. -/
def totalTxFee (block : Block) : Outcome BlockError Fixed64 := do
  let checked ← block.transactions.tail.mapM (chain.checkTxContext block.height)
  .ok (wrappedSum (checked.map Prod.snd))

end BlockChain

/-- The total that `getBlockDPOSReward` reads. -/
def totalTxFx (transactions : List Transaction) : Fixed64 :=
  wrappedSum (transactions.map (·.fee))

/-- Fees are not stored. -/
def reread (tx : Transaction) : Transaction := { tx with fee := 0, feePerKB := 0 }

/-- A node that starts again with the transactions that it has stored. -/
def Restarted (chain restarted : BlockChain) : Prop :=
  ∀ hash tx, chain.getTransaction hash = .ok tx → restarted.getTransaction hash = .ok tx

structure FeesAgree (chain restarted : BlockChain) (block checked : Block) : Prop where
  checks : chain.totalTxFee block = .ok (totalTxFx checked.transactions)
  restart : totalTxFx (restarted.calculateTxsFee (checked.transactions.map reread)) = totalTxFx checked.transactions

/-- The spent outputs that are not in the native asset. -/
def foreignValues (chain : BlockChain) (tx : Transaction) : List Fixed64 :=
  match chain.getTxReference tx with
  | .ok references => valuesOf ((references.map Prod.snd).filter (·.assetID ≠ chain.chainParams.elaAssetID))
  | .error _ => []

section Fees
variable {chain restarted : BlockChain} {height : UInt32} {tx checked : Transaction}
  {references : References} {asset : Uint256}

theorem totalOf_getD (asset : Uint256) (outputs : List Output) : (totalOf asset outputs).getD 0 +
    wrappedSum (valuesOf (outputs.filter (·.assetID ≠ asset))) = wrappedSum (valuesOf outputs) := by
  have found : (totalOf asset outputs).getD 0 = wrappedSum (valuesOf (outputs.filter (·.assetID = asset))) := by
    unfold totalOf
    split
    · rename_i none
      rw [none]
      rfl
    · rfl
  have perm := filter_append_perm (fun output : Output => decide (output.assetID = asset)) outputs
  simp only [← decide_not] at perm
  rw [found, ← wrappedSum_append, valuesOf, valuesOf, ← map_append, wrappedSum_eq, wrappedSum_eq, valuesOf]
  exact congrArg _ (exactSum_perm (perm.map _))

/-- The two fees differ by the foreign values. -/
theorem getTxFee_eq (outputs : ∀ output ∈ tx.outputs, output.assetID = asset ∨ output.value = 0) :
    getTxFee tx asset references = getTransactionFee tx references -
      wrappedSum (valuesOf ((references.map Prod.snd).filter (·.assetID ≠ asset))) := by
  have difference : getTxFee tx asset references =
      (totalOf asset (references.map Prod.snd)).getD 0 - (totalOf asset tx.outputs).getD 0 := by
    unfold getTxFee
    cases totalOf asset tx.outputs <;> cases totalOf asset (references.map Prod.snd) <;> simp
  have none : wrappedSum (valuesOf (tx.outputs.filter (·.assetID ≠ asset))) = 0 := by
    have zeros : exactSum (valuesOf (tx.outputs.filter (·.assetID ≠ asset))) = 0 := by
      refine sum_eq_zero fun amount member => ?_
      obtain ⟨_, valueMember, rfl⟩ := mem_map.1 member
      obtain ⟨output, outputMember, rfl⟩ := mem_map.1 valueMember
      obtain ⟨listed, other⟩ := mem_filter.1 outputMember
      rw [(outputs output listed).resolve_left (of_decide_eq_true other)]
      rfl
    rw [wrappedSum_eq, zeros]
    rfl
  have inputs := totalOf_getD asset (references.map Prod.snd)
  have paid := totalOf_getD asset tx.outputs
  have values : valuesOf (references.map Prod.snd) = references.values := map_map
  rw [difference, getTransactionFee, ← values, ← inputs, ← paid, none]
  grind

/-- Transactions whose type ends their validation pay no fee. -/
theorem checkType_done_fee (notCoinbase : tx.txType ≠ .coinBase) (sane : Sane chain height tx)
    (found : chain.getTxReference tx = .ok references) (typed : chain.checkType height tx references 0 = .ok .done) :
    getTransactionFee tx references = 0 := by
  have free : noCostType tx = true ∨ tx.isNewSideChainPowTx = true → getTransactionFee tx references = 0 := by
    intro free
    have noInputs : tx.inputs = [] := by
      have input := sane.input
      simpa [checkTransactionInput, Transaction.isCoinBaseTx, notCoinbase, free] using input
    have none : references = [] := by
      simp only [getTxReference, noInputs, mapM_nil, pure, Except.pure, bind_eq_ok, Except.ok.injEq] at found
      obtain ⟨_, rfl, rfl⟩ := found
      exact (chain.runtime.iterate_perm _).eq_nil
    have outputs := exactSum_outputs_eq_zero notCoinbase sane free
    have zero : wrappedSum (valuesOf tx.outputs) = 0 := by
      rw [← Int64.toInt_inj, wrappedSum_toInt, outputs]
      rfl
    rw [getTransactionFee, none, zero]
    rfl
  rcases checkType_done typed with noCost | isNew | ⟨_, appropriation⟩
  · exact free (.inl noCost)
  · exact free (.inr isNew)
  · exact checkCRCAppropriationTransaction_balanced appropriation

theorem AcceptedTx.fees (accepted : AcceptedTx chain height tx checked) (unset : tx.fee = 0) :
    ∃ references, chain.getTxReference tx = .ok references ∧ checked.fee = getTransactionFee tx references ∧
      chain.checkTxContext height tx = .ok (checked, checked.fee - wrappedSum (foreignValues chain tx)) := by
  obtain ⟨references, found, context⟩ := accepted.context
  have outputs : ∀ output ∈ tx.outputs, output.assetID = chain.chainParams.elaAssetID ∨ output.value = 0 := by
    rcases checkTransactionOutput_cases accepted.notCoinbase accepted.sane.output with
      ⟨_, none⟩ | ⟨_, only, shape, zero, _⟩ | ⟨_, _, ordinary⟩
    · simp [none]
    · simp [shape, zero]
    · exact fun output member => .inl (checkOrdinaryOutputs_ordinary ordinary output member).asset
  have fee : checked.fee = getTransactionFee tx references := by
    rcases checkTransactionContext_cases accepted.notCoinbase context with
      ⟨typed, rfl⟩ | ⟨_, spending⟩
    · rw [unset, checkType_done_fee accepted.notCoinbase accepted.sane found typed]
    · obtain ⟨_, _, _, rfl⟩ := checkSpending_spends spending
      rfl
  refine ⟨references, found, fee, ?_⟩
  simp only [checkTxContext, bind_eq_ok, mapError_eq_ok, Except.ok.injEq, Prod.mk.injEq]
  refine ⟨references, found, checked, context, rfl, ?_⟩
  rw [fee, foreignValues, found, ← getTxFee_eq outputs]
  obtain ⟨_, _, _, rfl⟩ := accepted.body
  rfl

theorem Restarted.getTxReference (restart : Restarted chain restarted)
    (found : chain.getTxReference tx = .ok references) :
    ∃ again, restarted.getTxReference tx = .ok again ∧ again.Perm references := by
  simp only [BlockChain.getTxReference, bind_eq_ok, Except.ok.injEq, mapM_eq_ok] at found ⊢
  obtain ⟨listed, each, rfl⟩ := found
  refine ⟨_, ⟨listed, each.imp fun input entry read => ?_, rfl⟩,
    (restarted.runtime.iterate_perm _).trans (chain.runtime.iterate_perm _).symm⟩
  simp only [getReference, bind_eq_ok, mapError_eq_ok] at read ⊢
  obtain ⟨previous, stored, rest⟩ := read
  exact ⟨previous, restart _ _ stored, rest⟩

theorem getTransactionFee_perm {again : References} (perm : again.Perm references) :
    getTransactionFee tx again = getTransactionFee tx references := by
  have same : wrappedSum again.values = wrappedSum references.values := by
    rw [← Int64.toInt_inj, wrappedSum_toInt, wrappedSum_toInt, References.values,
      exactSum_perm (perm.map _), References.values]
  rw [getTransactionFee, same, getTransactionFee]

theorem accepted_fees (restart : Restarted chain restarted) {txs checkedTxs : List Transaction}
    (all : Forall₂ (AcceptedTx chain height) txs checkedTxs) (unset : ∀ tx ∈ txs, tx.fee = 0) :
    (∃ results, txs.mapM (chain.checkTxContext height) = .ok results ∧ wrappedSum (results.map Prod.snd) =
        wrappedSum (checkedTxs.map (·.fee)) - wrappedSum (txs.flatMap (foreignValues chain))) ∧
      (restarted.calculateTxsFee (checkedTxs.map reread)).map (·.fee) = checkedTxs.map (·.fee) := by
  simp only [mapM_eq_ok]
  induction all with
  | nil => exact ⟨⟨[], .nil, by simp [wrappedSum]⟩, rfl⟩
  | @cons tx checked _ _ accepted _ ih =>
    obtain ⟨⟨results, checks, total⟩, restarts⟩ := ih fun tx member => unset tx (mem_cons_of_mem _ member)
    obtain ⟨references, found, fee, context⟩ := accepted.fees (unset tx mem_cons_self)
    refine ⟨⟨_, .cons context checks, ?_⟩, ?_⟩
    · simp only [map_cons, flatMap_cons, wrappedSum_cons, wrappedSum_append, total]
      grind
    obtain ⟨again, foundAgain, perm⟩ := restart.getTxReference found
    rw [← getTransactionFee_perm perm] at fee
    have kept : (reread checked).isCoinBaseTx = false ∧ restarted.getTxReference (reread checked) = .ok again ∧
        getTransactionFee (reread checked) again = checked.fee := by
      rw [fee]
      obtain ⟨_, _, _, rfl⟩ := accepted.body
      exact ⟨decide_eq_false accepted.notCoinbase, foundAgain, rfl⟩
    rw [map_cons, calculateTxsFee, kept.1, if_neg Bool.false_ne_true, kept.2.1]
    simp only [map_cons, kept.2.2, restarts]

end Fees

/-- All parts of the node agree on the fees of an accepted block, as it is read from the wire, if and
only if the outputs that it spends in other assets add up to zero. -/
theorem block_feesAgree_iff {chain restarted : BlockChain} {block checked : Block} {node : BlockNode}
    (restart : Restarted chain restarted) (sanity : chain.checkBlockSanity block = .ok ())
    (unset : ∀ tx ∈ block.transactions, tx.fee = 0)
    (accepted : chain.checkBlockContext block (some node) = .ok checked) : FeesAgree chain restarted block checked ↔
      wrappedSum (block.transactions.tail.flatMap (foreignValues chain)) = 0 := by
  obtain ⟨coinbase, rest, checkedRest, shape, checkedShape, isCoinbase, _, all⟩ :=
    (checkBlock_accepted sanity accepted).transactions
  rw [shape] at unset
  obtain ⟨⟨results, checks, total⟩, restarts⟩ := accepted_fees restart all
    fun tx member => unset tx (mem_cons_of_mem _ member)
  have noFee := unset coinbase mem_cons_self
  have left : totalTxFx checked.transactions = wrappedSum (checkedRest.map (·.fee)) := by
    rw [totalTxFx, checkedShape, map_cons, noFee, wrappedSum_cons, Int64.zero_add]
  have used : chain.totalTxFee block = .ok (wrappedSum (results.map Prod.snd)) := by
    rw [totalTxFee, shape, tail_cons, checks]
    rfl
  have skipped : (reread coinbase).isCoinBaseTx = true := by
    simp [Transaction.isCoinBaseTx, reread, isCoinbase]
  have again : totalTxFx (restarted.calculateTxsFee (checked.transactions.map reread)) =
      totalTxFx checked.transactions := by
    rw [left, checkedShape, map_cons, calculateTxsFee, if_pos skipped, totalTxFx, map_cons, restarts, wrappedSum_cons]
    exact Int64.zero_add _
  rw [shape, tail_cons]
  constructor
  · rintro ⟨agree, -⟩
    rw [used, total, left, Except.ok.injEq] at agree
    grind
  · intro none
    exact ⟨by rw [used, total, left, none, Int64.sub_zero], again⟩

namespace SmallChain

theorem transfer_feesAgree : ∃ checked, FeesAgree (chain [funding]) (chain [funding])
    (blockOf 11 [fairCoinbase 11 100, transfer [output miner 900]]) checked := by
  have passed : ((chain [funding]).checkBlockContext
      (blockOf 11 [fairCoinbase 11 100, transfer [output miner 900]]) (some previousNode)).isOk = true := by
    decide +kernel
  obtain ⟨checked, accepted⟩ := exists_of_isOk passed
  exact ⟨checked, (block_feesAgree_iff (fun _ _ => id) (by decide +kernel) (by decide) accepted).2 (by decide +kernel)⟩

/-- From `PublicDPOSHeight` on a coinbase may pay in any asset. -/
def foreign : Transaction :=
  { fairCoinbase 9 0 with
    outputs := [output crcFoundation 160000000, { output (owner 5) 166484018 with
      assetID := { bytes := List.replicate 32 1, size_eq := by simp } }] }

/-- The foreign output is spent as if it were native. -/
def exchanging : Block :=
  let tx := spend .transferAsset .transferAsset foreign [output miner 166483918] [signedBy 5]
  blockOf 11 [fairCoinbase 11 (-166483918),
    { tx with inputs := tx.inputs.map fun input => { input with
      previous := { input.previous with index := 1 } } }]

theorem exchanging_disagrees : (chain []).checkBlockSanity (blockOf 9 [foreign]) = .ok () ∧
      ((chain []).checkBlockContext (blockOf 9 [foreign]) (some previousNode)).isOk = true ∧
      params.publicDPOSHeight ≤ exchanging.height ∧ (chain [foreign]).checkBlockSanity exchanging = .ok () ∧
      (∀ tx ∈ exchanging.transactions, tx.fee = 0) ∧
      ∃ checked, (chain [foreign]).checkBlockContext exchanging (some previousNode) = .ok checked ∧
        ¬ FeesAgree (chain [foreign]) (chain [foreign]) exchanging checked := by
  have passed : ((chain [foreign]).checkBlockContext exchanging (some previousNode)).isOk = true := by
    decide +kernel
  obtain ⟨checked, accepted⟩ := exists_of_isOk passed
  have checks : (chain [foreign]).totalTxFee exchanging = .ok (-166483918) := by decide +kernel
  have left : ((chain [foreign]).checkBlockContext exchanging (some previousNode)).map
      (fun checked => totalTxFx checked.transactions) = .ok 100 := by decide +kernel
  refine ⟨by decide +kernel, by decide +kernel, by decide, by decide +kernel, by decide,
    checked, accepted, fun agree => ?_⟩
  rw [accepted] at left
  have paid : totalTxFx checked.transactions = 100 := Except.ok.inj left
  have same := checks.symm.trans agree.checks
  rw [paid] at same
  exact absurd same (by decide)

end SmallChain
end Elastos.Blockchain
