import Elastos.Blockchain.StateRun
import Elastos.Dpos.Tally

/-! What the store holds after a chain of blocks, and what an accepted block spends of it. -/
set_option autoImplicit false
namespace Elastos.Blockchain
open Go Crypto Elastos.Types Utils Dpos Outcome BlockChain List Transaction Config Stand

/-- The spends that reach the index of the unspent outputs. It leaves out the transactions
that register an asset. -/
def indexedSpends (txs : List Transaction) : List OutPoint :=
  inputsOf (txs.filter fun tx => tx.txType ≠ .coinBase ∧ tx.txType ≠ .registerAsset)

/-- The store has the transactions that were saved, and gives an output of one that is not a
coinbase as unspent only if no indexed transaction spends it. -/
structure ChainStore.Holds (store : ChainStore) (prim : Primitives) (saved : List Transaction) : Prop where
  found : ∀ hash tx, store.getTransaction hash = .ok tx → ∃ old ∈ saved, old.hash prim = hash ∧ old.outputs = tx.outputs
  known : ∀ old ∈ saved, ∃ tx, store.getTransaction (old.hash prim) = .ok tx ∧ tx.outputs = old.outputs
  unspent : ∀ old ∈ saved, old.txType ≠ .coinBase → ∀ indexes,
    store.getUnspent (old.hash prim) = .ok indexes → ∀ index ∈ indexes,
      { txID := old.hash prim, index } ∉ indexedSpends saved

theorem ChainStore.Holds.outputPoints_eq {store : ChainStore} {prim : Primitives}
    {saved : List Transaction} (holds : store.Holds prim saved) {first second : Transaction}
    (firstSaved : first ∈ saved) (secondSaved : second ∈ saved) (same : first.hash prim = second.hash prim) :
    Cr.outputPoints prim first = Cr.outputPoints prim second := by
  obtain ⟨found, known, outputs⟩ := holds.known first firstSaved
  obtain ⟨found', known', outputs'⟩ := holds.known second secondSaved
  rw [same, known', Except.ok.injEq] at known
  simp only [Cr.outputPoints, same, ← outputs, ← outputs', known]

section Sanity
variable {chain : BlockChain} {block : Block} {height : UInt32}

theorem spend_seen {inputs : List Input} {seen result : BlockSeen}
    (looped : inputs.foldlM BlockSeen.spend seen = .ok result) : result.txIDs = seen.txIDs ∧
      result.spent = (inputs.map Input.previous).reverse ++ seen.spent ∧ (seen.spent.Nodup → result.spent.Nodup) := by
  induction inputs generalizing seen with
  | nil =>
    cases looped
    exact ⟨rfl, by simp, id⟩
  | cons input rest ih =>
    rw [foldlM_cons, bind_eq_ok] at looped
    obtain ⟨next, spent, looped⟩ := looped
    simp only [BlockSeen.spend, then_eq_ok, reject_eq_ok, Except.ok.injEq] at spent
    obtain ⟨new, rfl⟩ := spent
    obtain ⟨sameIDs, shape, nodup⟩ := ih looped
    refine ⟨sameIDs, by simp [shape], fun before => nodup ?_⟩
    exact nodup_cons.2 ⟨new, before⟩

theorem checkBlockTransaction_seen {txs : List Transaction} {seen result : BlockSeen}
    (looped : txs.foldlM (chain.checkBlockTransaction height) seen = .ok result) :
    result.txIDs = (txs.map (hash chain.prim)).reverse ++ seen.txIDs ∧
      result.spent = (inputsOf txs).reverse ++ seen.spent ∧
      (seen.txIDs.Nodup → result.txIDs.Nodup) ∧ (seen.spent.Nodup → result.spent.Nodup) := by
  induction txs generalizing seen with
  | nil =>
    cases looped
    exact ⟨by simp, by simp [inputsOf], id, id⟩
  | cons tx rest ih =>
    rw [foldlM_cons, bind_eq_ok] at looped
    obtain ⟨next, checked, looped⟩ := looped
    simp only [checkBlockTransaction, bind_eq_ok, exists_unit, reject_eq_ok, Except.ok.injEq] at checked
    obtain ⟨new, _, spent, spends, rfl⟩ := checked
    obtain ⟨_, shape, nodup⟩ := spend_seen spends
    obtain ⟨ids, spentShape, idsNodup, spentNodup⟩ := ih looped
    refine ⟨by simp [ids], ?_, fun before => idsNodup (nodup_cons.2 ⟨new, before⟩),
      fun before => spentNodup (nodup before)⟩
    simp [spentShape, shape, inputsOf]

theorem checkBlockSanity_once (sanity : chain.checkBlockSanity block = .ok ()) :
    (block.transactions.map (hash chain.prim)).Nodup ∧ (inputsOf block.transactions).Nodup := by
  simp only [checkBlockSanity, bind_eq_ok, exists_unit] at sanity
  obtain ⟨_, _, _, _, _, _, _, looped, _⟩ := sanity
  obtain ⟨ids, spent, idsNodup, spentNodup⟩ := checkBlockTransaction_seen looped
  have idsOnce := idsNodup nodup_nil
  have spentOnce := spentNodup nodup_nil
  rw [ids, append_nil, nodup_reverse] at idsOnce
  rw [spent, append_nil, nodup_reverse] at spentOnce
  exact ⟨idsOnce, spentOnce⟩

end Sanity

section Accepted
variable {chain : BlockChain} {block checked : Block} {tx checkedTx : Transaction}
  {height : UInt32} {saved : List Transaction}

section
variable (accepted : AcceptedTx chain height tx checkedTx)
include accepted

theorem AcceptedTx.body : ∃ fee feePerKB programs, checkedTx = { tx with fee, feePerKB, programs } := by
  obtain ⟨references, _, context⟩ := accepted.context
  rcases checkTransactionContext_cases accepted.notCoinbase context with
    ⟨_, rfl⟩ | ⟨_, spending⟩
  · exact ⟨_, _, _, rfl⟩
  · obtain ⟨_, _, _, rfl⟩ := checkSpending_spends spending
    exact ⟨_, _, _, rfl⟩

theorem AcceptedTx.hash (prim : Primitives) : checkedTx.hash prim = tx.hash prim := by
  obtain ⟨fee, feePerKB, programs, rfl⟩ := accepted.body
  rfl

theorem AcceptedTx.inputs : checkedTx.inputs = tx.inputs := by
  obtain ⟨fee, feePerKB, programs, rfl⟩ := accepted.body
  rfl

end

theorem AcceptedBlock.once (accepted : AcceptedBlock chain block checked)
    (sanity : chain.checkBlockSanity block = .ok ()) : (checked.transactions.map (hash chain.prim)).Nodup ∧
      (inputsOf checked.transactions).Nodup := by
  obtain ⟨coinbase, rest, checkedRest, shape, checkedShape, _, _, all⟩ := accepted.transactions
  have same : rest.map (hash chain.prim) = checkedRest.map (hash chain.prim) ∧
      inputsOf rest = inputsOf checkedRest := by
    clear shape checkedShape
    induction all with
    | nil => exact ⟨rfl, rfl⟩
    | cons head _ ih =>
      simp only [map_cons, inputsOf, flatMap_cons, head.hash, head.inputs] at ih ⊢
      exact ⟨by rw [ih.1], by rw [ih.2]⟩
  have once := checkBlockSanity_once sanity
  rw [shape] at once
  rw [checkedShape]
  simp only [map_cons, inputsOf, flatMap_cons] at once same ⊢
  rw [← same.1, ← same.2]
  exact once

theorem AcceptedTx.unspent (accepted : AcceptedTx chain height tx checkedTx)
    (holds : chain.store.Holds chain.prim saved) : (∀ old ∈ saved, old.hash chain.prim ≠ tx.hash chain.prim) ∧
      ∀ input ∈ tx.inputs, ∀ old ∈ saved, old.txType ≠ .coinBase →
        old.hash chain.prim = input.previous.txID → input.previous ∉ indexedSpends saved := by
  obtain ⟨references, _, context⟩ := accepted.context
  have isOther : tx.isCoinBaseTx = false := by
    simp [isCoinBaseTx, accepted.notCoinbase]
  simp only [checkTransactionContext, isOther, Bool.false_eq_true, if_false,
    bind_eq_ok, exists_unit, reject_eq_ok] at context
  obtain ⟨notDuplicate, notSpent, _⟩ := context
  refine ⟨fun old member same => ?_, fun input member old oldMember notCoinbase same => ?_⟩
  · obtain ⟨found, known, _⟩ := holds.known old member
    rw [isTxHashDuplicate, ← same, known] at notDuplicate
    exact notDuplicate rfl
  · have unspent : ¬ chain.isSpent input = true := by
      intro isSpent
      exact notSpent (any_eq_true.2 ⟨input, member, isSpent⟩)
    unfold BlockChain.isSpent at unspent
    split at unspent
    · rename_i indexes found
      rw [← same] at found
      have indexed := holds.unspent old oldMember notCoinbase indexes found
        input.previous.index (by simpa using unspent)
      rwa [same] at indexed
    · simp at unspent

theorem getReference_saved (holds : chain.store.Holds chain.prim saved) {input : Input}
    {entry : Input × Output} (found : chain.getReference input = .ok entry) :
    entry.1 = input ∧ ∃ old ∈ saved, old.hash chain.prim = input.previous.txID ∧
      (input.previous, entry.2) ∈ Cr.outputPoints chain.prim old := by
  simp only [getReference, getTransaction, bind_eq_ok, mapError_eq_ok, ofOption_eq_ok, Except.ok.injEq] at found
  obtain ⟨previous, stored, output, there, rfl⟩ := found
  obtain ⟨old, member, sameHash, sameOutputs⟩ := holds.found _ previous stored
  refine ⟨rfl, old, member, sameHash, mem_map.2 ⟨(output, input.previous.index.toNat), ?_, ?_⟩⟩
  · rw [mk_mem_zipIdx_iff_getElem?, sameOutputs, there]
  · simp [sameHash]

theorem AcceptedTx.references (accepted : AcceptedTx chain height tx checkedTx)
    (holds : chain.store.Holds chain.prim saved) :
    ∃ references, chain.getTxReference checkedTx = .ok references ∧ ∀ input ∈ checkedTx.inputs, ∃ output,
        references.find? (·.1 = input) = some (input, output) ∧
          ∃ old ∈ saved, old.hash chain.prim = input.previous.txID ∧
            (input.previous, output) ∈ Cr.outputPoints chain.prim old := by
  obtain ⟨references, found, _⟩ := accepted.context
  refine ⟨references, ?_, fun input member => ?_⟩
  · rw [getTxReference, accepted.inputs]
    exact found
  · rw [accepted.inputs] at member
    simp only [getTxReference, bind_eq_ok, Except.ok.injEq] at found
    obtain ⟨listed, mapped, rfl⟩ := found
    have each : ∀ entry ∈ chain.runtime.iterate listed, entry.1 = input → chain.getReference input = .ok entry := by
      intro entry entryMember same
      obtain ⟨other, _, ok⟩ := mapM_mem mapped entry ((chain.runtime.iterate_perm _).mem_iff.1 entryMember)
      rw [← (getReference_saved holds ok).1, same] at ok
      exact ok
    have some : ∃ entry, (chain.runtime.iterate listed).find? (·.1 = input) = some entry := by
      obtain ⟨entry, entryMember, ok⟩ := forall₂_mem_left (mapM_eq_ok.1 mapped) member
      rw [← Option.isSome_iff_exists, List.find?_isSome]
      exact ⟨entry, (chain.runtime.iterate_perm _).mem_iff.2 entryMember,
        decide_eq_true (getReference_saved holds ok).1⟩
    obtain ⟨entry, there⟩ := some
    have same : entry.1 = input := by simpa using List.find?_some there
    obtain ⟨_, old, oldMember, sameHash, created⟩ :=
      getReference_saved holds (each entry (mem_of_find?_eq_some there) same)
    exact ⟨entry.2, by rw [there, ← same], old, oldMember, sameHash, created⟩

theorem AcceptedBlock.inputs_saved (accepted : AcceptedBlock chain block checked)
    (holds : chain.store.Holds chain.prim saved) (member : tx ∈ checked.transactions)
    {input : Input} (spends : input ∈ tx.inputs) : tx.txType = .coinBase ∧ input.previous = nullOutPoint ∨
      tx.txType ≠ .coinBase ∧ ∃ old ∈ saved, old.hash chain.prim = input.previous.txID := by
  obtain ⟨coinbase, rest, checkedRest, _, checkedShape, isCoinbase, sane, all⟩ := accepted.transactions
  rw [checkedShape] at member
  rcases mem_cons.1 member with rfl | member
  · left
    have inputOk := sane.input
    simp only [checkTransactionInput, isCoinBaseTx, isCoinbase, decide_true, if_true] at inputOk
    split at inputOk
    · rename_i only shape
      simp only [require_eq_ok] at inputOk
      rw [shape, mem_singleton] at spends
      exact ⟨isCoinbase, spends ▸ inputOk.1⟩
    · simp at inputOk
  · obtain ⟨original, _, passed⟩ := forall₂_mem_right all member
    obtain ⟨_, _, each⟩ := passed.references holds
    obtain ⟨_, _, old, oldMember, sameHash, _⟩ := each input spends
    refine .inr ⟨fun isOther => passed.notCoinbase ?_, old, oldMember, sameHash⟩
    obtain ⟨_, _, _, rfl⟩ := passed.body
    exact isOther

theorem AcceptedBlock.outputs_length (accepted : AcceptedBlock chain block checked)
    (member : tx ∈ checked.transactions) : tx.outputs.length ≤ 0xffff := by
  have counted : ∀ {tx : Transaction}, BlockChain.Sane chain block.height tx → tx.outputs.length ≤ 0xffff := by
    intro tx sane
    have outputOk := sane.output
    rw [checkTransactionOutput, then_eq_ok, reject_eq_ok] at outputOk
    omega
  obtain ⟨coinbase, rest, checkedRest, _, checkedShape, _, sane, all⟩ := accepted.transactions
  rw [checkedShape] at member
  rcases mem_cons.1 member with rfl | member
  · exact counted sane
  obtain ⟨original, _, passed⟩ := forall₂_mem_right all member
  obtain ⟨fee, feePerKB, programs, rfl⟩ := passed.body
  have originalCounted := counted passed.sane
  exact originalCounted

end Accepted

section OutputPoints
variable {prim : Primitives} {tx : Transaction} {entry : OutPoint × Output}

theorem mem_outputPoints (member : entry ∈ Cr.outputPoints prim tx) : ∃ index, tx.outputs[index]? = some entry.2 ∧
      entry.1 = { txID := tx.hash prim, index := UInt16.ofNat index } := by
  obtain ⟨⟨output, index⟩, found, rfl⟩ := mem_map.1 member
  exact ⟨index, mk_mem_zipIdx_iff_getElem?.1 found, rfl⟩

theorem outputPoints_txID (member : entry ∈ Cr.outputPoints prim tx) : entry.1.txID = tx.hash prim := by
  obtain ⟨index, _, shape⟩ := mem_outputPoints member
  rw [shape]

theorem outputPoints_ne_null (counts : tx.outputs.length ≤ 0xffff)
    (member : entry ∈ Cr.outputPoints prim tx) : entry.1 ≠ nullOutPoint := by
  obtain ⟨index, found, shape⟩ := mem_outputPoints member
  have inside : index < tx.outputs.length := (List.getElem?_eq_some_iff.1 found).1
  intro null
  rw [shape] at null
  have same : (UInt16.ofNat index).toNat = (0xffff : UInt16).toNat :=
    congrArg (fun op : OutPoint => op.index.toNat) null
  rw [UInt16.toNat_ofNat_of_lt' (by rw [UInt16.size]; omega)] at same
  have top : (0xffff : UInt16).toNat = 65535 := rfl
  omega

theorem outputPoints_nodup (counts : tx.outputs.length ≤ 0xffff) : ((Cr.outputPoints prim tx).map Prod.fst).Nodup := by
  have shape : (Cr.outputPoints prim tx).map Prod.fst = (List.range tx.outputs.length).map fun index =>
        ({ txID := tx.hash prim, index := UInt16.ofNat index } : OutPoint) := by
    rw [range_eq_range', ← zipIdx_map_snd 0 tx.outputs, map_map, Cr.outputPoints, map_map]
    rfl
  rw [shape]
  refine List.Nodup.map_on (fun first firstMember second secondMember same => ?_) nodup_range
  have index := congrArg (fun op : OutPoint => op.index.toNat) same
  rw [mem_range] at firstMember secondMember
  rwa [UInt16.toNat_ofNat_of_lt' (by rw [UInt16.size]; omega),
    UInt16.toNat_ofNat_of_lt' (by rw [UInt16.size]; omega)] at index

end OutputPoints

def savedBy (genesis : List Transaction) (steps : List StateStep) : List Transaction :=
  genesis ++ steps.flatMap fun step => step.checked.transactions

/-- Every block is checked against a store with the transactions before it. -/
def Stored (prim : Primitives) (genesis : List Transaction) (steps : List StateStep) : Prop :=
  ∀ earlier step later, steps = earlier ++ step :: later → step.chain.store.Holds prim (savedBy genesis earlier)

structure Follows (prim : Primitives) (saved : List Transaction) (step : StateStep) : Prop where
  samePrim : step.chain.prim = prim
  frame : step.chain.state = step.before.frame
  accepted : AcceptedBlock step.chain step.block step.checked
  sanity : step.chain.checkBlockSanity step.block = .ok ()
  holds : step.chain.store.Holds prim saved

namespace Follows
variable {prim : Primitives} {saved : List Transaction} {step : StateStep}
  (follows : Follows prim saved step)

include follows

theorem new {tx : Transaction} (member : tx ∈ step.checked.transactions)
    (notCoinbase : tx.txType ≠ .coinBase) : ∀ old ∈ saved, old.hash prim ≠ tx.hash prim := by
  obtain ⟨samePrim, _, accepted, _, holds⟩ := follows
  subst samePrim
  obtain ⟨original, _, passed⟩ := accepted.checkedTx member notCoinbase
  rw [passed.hash]
  exact (passed.unspent holds).1

theorem inputs {op : OutPoint} (member : op ∈ inputsOf step.checked.transactions) :
    op = nullOutPoint ∨ ∃ old ∈ saved, old.hash prim = op.txID := by
  obtain ⟨samePrim, _, accepted, _, holds⟩ := follows
  subst samePrim
  obtain ⟨tx, included, spends⟩ := mem_flatMap.1 member
  obtain ⟨input, inputMember, rfl⟩ := mem_map.1 spends
  rcases accepted.inputs_saved holds included inputMember with ⟨_, null⟩ | ⟨_, known⟩
  · exact .inl null
  · exact .inr known

end Follows

theorem StateStep.Extends.follows {prim : Primitives} {params : Params} {height : UInt32}
    {state : State} {saved : List Transaction} {step : StateStep} (next : step.Extends prim params height state)
    (holds : step.chain.store.Holds prim saved) : Follows prim saved step where
  samePrim := next.prim
  frame := next.frame
  accepted := next.accepted
  sanity := next.sanity
  holds := holds

section Replay
variable (chainAt : List Transaction → UInt32 → StateKeyFrame → BlockChain)
  (previous : BlockNode)

def playSaved : List Transaction → UInt32 → State → List Block → Option (List StateStep × UInt32 × State)
  | _, height, state, [] => some ([], height, state)
  | saved, height, state, block :: blocks =>
    if block.height.toNat = height.toNat + 1 then do
      let step ← tryStateStep (chainAt saved height state.frame) previous state block
      let (steps, reached) ←
        playSaved (saved ++ step.checked.transactions) block.height step.after blocks
      some (step :: steps, reached)
    else
      none

variable {chainAt previous} {prim : Primitives} {params : Params}

theorem playSaved_run (samePrim : ∀ saved height frame, (chainAt saved height frame).prim = prim)
    (sameParams : ∀ saved height frame, (chainAt saved height frame).chainParams = params)
    (sameFrame : ∀ saved height frame, (chainAt saved height frame).state = frame)
    {genesis : List Transaction} {start : UInt32} {initial : State} (blocks : List Block)
    {earlier steps : List StateStep} {height last : UInt32} {state final : State}
    (run : StateRun prim params start initial earlier height state)
    (played : playSaved chainAt previous (savedBy genesis earlier) height state blocks = some (steps, last, final)) :
    StateRun prim params start initial (earlier ++ steps) last final ∧
      ∀ first step rest, steps = first ++ step :: rest → ∃ height frame,
        step.chain = chainAt (savedBy genesis (earlier ++ first)) height frame := by
  induction blocks generalizing earlier steps height state with
  | nil =>
    cases played
    exact ⟨by simpa using run, by simp⟩
  | cons block blocks ih =>
    obtain ⟨next, step, rest, found, playedRest, rfl⟩ := played_cons played
    obtain ⟨extends_, sameHeight, chain⟩ := tryStateStep_extends (sameFrame _ _ _) next found
    rw [samePrim, sameParams] at extends_
    have saved : savedBy genesis earlier ++ step.checked.transactions =
        savedBy genesis (earlier ++ [step]) := by simp [savedBy]
    rw [← sameHeight, saved] at playedRest
    obtain ⟨run, chains⟩ := ih (run.snoc extends_) playedRest
    refine ⟨by simpa using run, fun first middle last shape => ?_⟩
    cases first with
    | nil =>
      cases shape
      exact ⟨_, _, by simpa using chain⟩
    | cons head tail =>
      rw [cons_append, List.cons.injEq] at shape
      obtain ⟨rfl, shape⟩ := shape
      simpa using chains tail middle last shape

end Replay

namespace SmallChain

def electedParams : Params := { params with crCommitteeStartHeight := 200 }

def storeAfter (saved : List Transaction) : ChainStore where
  getTransaction hash :=
    Outcome.ofOption "not found" (saved.find? fun tx => tx.hash primitives = hash)
  getUnspent hash :=
    match saved.find? fun tx => tx.hash primitives = hash with
    | some tx => .ok (((List.range tx.outputs.length).map UInt16.ofNat).filter fun index =>
      { txID := hash, index } ∉ indexedSpends saved)
    | none => .fail "not found"
  isTx3Exist _ := false
  utxoValues _ := .ok []

def savedChain (saved : List Transaction) (height : UInt32) (frame : StateKeyFrame) : BlockChain :=
  { chain [] with
    store := storeAfter saved
    arbitrators := { arbitrators with
      params := electedParams
      bestHeight := height
      state := frame } }

theorem storeAfter_holds {saved : List Transaction} (hashes : (saved.map (Transaction.hash primitives)).Nodup) :
    (storeAfter saved).Holds primitives saved where
  found hash tx found := by
    obtain there : saved.find? (·.hash primitives = hash) = some tx := by
      simpa [storeAfter] using found
    exact ⟨tx, mem_of_find?_eq_some there, by simpa using find?_some there, rfl⟩
  known old member := by
    have some : (saved.find? fun tx =>
        tx.hash primitives = old.hash primitives).isSome = true := by
      rw [find?_isSome]
      exact ⟨old, member, by simp⟩
    obtain ⟨tx, there⟩ := Option.isSome_iff_exists.1 some
    have same := inj_on_of_nodup_map hashes (mem_of_find?_eq_some there)
      member (by simpa using find?_some there)
    exact ⟨tx, by simp [storeAfter, there], by rw [same]⟩
  unspent old member _ indexes found index listed := by
    simp only [storeAfter] at found
    split at found
    · cases found
      simpa using (mem_filter.1 listed).2
    · cases found

theorem savedChain_run {genesis : List Transaction} {blocks : List Block}
    {steps : List StateStep} {last : UInt32} {final : State}
    (played : playSaved savedChain previousNode genesis 0 (State.initial electedParams) blocks =
      some (steps, last, final))
    (hashes : ((savedBy genesis steps).map (Transaction.hash primitives)).Nodup) :
    StateRun primitives electedParams 0 (State.initial electedParams) steps last final ∧
      Stored primitives genesis steps := by
  have start : savedBy genesis [] = genesis := by simp [savedBy]
  rw [← start] at played
  obtain ⟨run, chains⟩ : StateRun primitives electedParams 0 _ steps last final ∧ _ := by
    refine playSaved_run ?_ ?_ ?_ blocks .nil played <;> exact fun _ _ _ => rfl
  refine ⟨run, fun earlier step later shape => ?_⟩
  obtain ⟨height, frame, chain⟩ := chains earlier step later shape
  rw [chain]
  refine storeAfter_holds (hashes.sublist (List.Sublist.map _ ?_))
  rw [shape, nil_append, savedBy, savedBy, flatMap_append, ← append_assoc]
  exact sublist_append_left _ _

def funds : Transaction :=
  { spend .transferAsset .transferAsset (coinbase 0 [])
      (List.replicate 2 (output (owner 5) 500001000100)) [] with inputs := [] }

def spendFunds (index : UInt16) (txType : TxType) (payload : Payload) (outputs : List Output) : Transaction :=
  { spend txType payload funds outputs [signedBy 5] with
    inputs := [{
      previous := { txID := funds.hash primitives, index }
      sequence := 0xffffffff }] }

def entering (index : UInt16) (info : ProducerInfo) (last : UInt8) : Transaction :=
  spendFunds index .registerProducer (.producerInfo info)
    [output (depositAt last) 500000000000, output (owner 5) 1000000]

/-- The owner key of the second producer is the node key of the first one. -/
def secondInfo : ProducerInfo where
  ownerPublicKey := key 6
  nodePublicKey := key 7
  nickName := [66]
  url := []
  location := 0
  netAddress := []
  signature := sign (key 6)

def first : Transaction := entering 0 producerInfo 5
def second : Transaction := entering 1 secondInfo 6

def votingFor (last : UInt8) : Transaction :=
  { spend .transferAsset .transferAsset first
      [{ output (owner 5) 999900 with
        outputType := .vote
        payload := .vote {
          version := voteProducerVersion
          contents := [{
            voteType := .delegate
            candidateVotes := [{ candidate := key last, votes := 0 }] }] } }]
      [signedBy 5] with
    inputs := [{
      previous := { txID := first.hash primitives, index := 1 }
      sequence := 0xffffffff }] }

def elected (height : UInt32) (transactions : List Transaction) : Block :=
  let totalReward := 100 * Int64.ofNat transactions.length + params.rewardPerBlock
  blockOf height (coinbase height [output foundation 160000000,
    output miner (totalReward - rewardDPOSArbiter totalReward - 160000000)] :: transactions)

end SmallChain
end Elastos.Blockchain
