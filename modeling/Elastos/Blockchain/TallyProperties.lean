import Elastos.Blockchain.Utxo
import Elastos.Blockchain.VoteProperties

/-! The votes of every producer are the unspent ones that name its owner key, as long as no
owner key is the node key of another producer. -/
set_option autoImplicit false
namespace Elastos.Blockchain
open Go Common Config Crypto Elastos.Types Dpos Utils Dpos.StateKeyFrame Outcome List State Stand
open BlockChain

section Checks
variable {chain : BlockChain} {height : UInt32} {tx checkedTx : Transaction}
  {entry : OutPoint × Output} {output : Output}

theorem mem_delegateVotes {vote : VoteOutput} (payload : output.payload = .vote vote) {entry : Bytes × Fixed64} :
    entry ∈ delegateVotes output ↔ ∃ content ∈ vote.contents, content.voteType = .delegate ∧
      ∃ votes ∈ content.candidateVotes, entry = (votes.candidate, delegateAmount output vote votes) := by
  simp only [delegateVotes, payload, mem_flatMap]
  constructor
  · rintro ⟨content, member, found⟩
    split at found
    · rename_i isDelegate
      obtain ⟨votes, votesMember, rfl⟩ := mem_map.1 found
      exact ⟨content, member, isDelegate, votes, votesMember, rfl⟩
    · simp at found
  · rintro ⟨content, member, isDelegate, votes, votesMember, rfl⟩
    exact ⟨content, member, by rw [if_pos isDelegate]; exact mem_map_of_mem votesMember⟩

theorem isBallot_vote (ballot : isBallot output = true) :
    output.outputType = .vote ∧ ∃ vote, output.payload = .vote vote := by
  unfold isBallot at ballot
  split at ballot
  · rename_i vote payload
    exact ⟨(of_decide_eq_true ballot).1, vote, payload⟩
  · cases ballot

theorem mem_ballots {prim : Primitives} (member : entry ∈ ballots prim tx) :
    txVersion09 ≤ tx.version ∧ entry ∈ Cr.outputPoints prim tx ∧ isBallot entry.2 = true := by
  unfold ballots at member
  split at member
  · rename_i version
    exact ⟨version, (mem_filter.1 member).1, (mem_filter.1 member).2⟩
  · simp at member

theorem AcceptedTx.ballot (accepted : AcceptedTx chain height tx checkedTx)
    (member : entry ∈ ballots chain.prim checkedTx) :
    checkedTx.txType = .transferAsset ∧ ∀ vote ∈ delegateVotes entry.2,
      vote.1 ∈ chain.votableProducers height ∧ 0 ≤ vote.2.toInt := by
  obtain ⟨fee, feePerKB, programs, rfl⟩ := accepted.body
  obtain ⟨version, created, ballot⟩ := mem_ballots member
  obtain ⟨isVote, vote, payload⟩ := isBallot_vote ballot
  obtain ⟨index, found, _⟩ := mem_outputPoints created
  have output := mem_of_getElem? found
  rcases checkTransactionOutput_cases accepted.notCoinbase accepted.sane.output with
    ⟨_, none⟩ | ⟨_, only, shape, _, isNone⟩ | ⟨_, _, ordinary⟩
  · simp [none] at output
  · rw [shape, mem_singleton] at output
    rw [output, isNone] at isVote
    cases isVote
  have checked := checkOrdinaryOutputs_ordinary ordinary entry.2 output
  have payloadOk := checked.payload version
  simp only [checkOutputPayload, then_eq_ok] at payloadOk
  have isAsset : tx.txType = .transferAsset := by
    by_contra other
    have typed := payloadOk.1
    simp [checkOutputType, other, isVote] at typed
  refine ⟨isAsset, fun entryVote named => ?_⟩
  obtain ⟨content, contentMember, isDelegate, votes, votesMember, rfl⟩ := (mem_delegateVotes payload).1 named
  constructor
  · obtain ⟨references, _, context⟩ := accepted.context
    rcases checkTransactionContext_cases accepted.notCoinbase context with
      ⟨typed, _⟩ | ⟨_, spent⟩
    · simp [checkType, isAsset] at typed
    have votesOk := (checkSpending_spends spent).1.votes version
    have outputOk := (forM_eq_ok _ _ _).1 votesOk entry.2 output
    simp only [checkVoteOutput, isVote, if_true, payload, then_eq_ok] at outputOk
    have contentOk := (forM_eq_ok _ _ _).1 outputOk.2 content contentMember
    simp only [checkVoteContent, isDelegate, checkVoteProducerContent, then_eq_ok] at contentOk
    simpa using (forM_eq_ok _ _ _).1 contentOk.1 votes votesMember
  · unfold delegateAmount
    split
    · exact checked.nonneg
    rename_i notFirst
    rw [payload] at payloadOk
    have counted : voteProducerAndCRVersion ≤ vote.version := by
      rw [UInt8.le_iff_toNat_le]
      have nonzero : vote.version.toNat ≠ voteProducerVersion.toNat := fun same => notFirst (UInt8.toNat_inj.1 same)
      have zero : voteProducerVersion.toNat = 0 := rfl
      have one : voteProducerAndCRVersion.toNat = 1 := rfl
      omega
    have positive := validate_positive counted payloadOk.2 content contentMember votes.votes
      (mem_map_of_mem votesMember)
    dsimp only
    omega

theorem producersOf_located {frame : StateKeyFrame} (homed : frame.Homed) {positions : GoMap Bytes Nat}
    (located : ∀ key position, positions.lookup key = some position → Located frame key position)
    {producer : Producer} (member : producer ∈ frame.producersOf positions) :
    ∃ position, Located frame producer.info.ownerPublicKey position := by
  obtain ⟨position, listed, cell⟩ := mem_filterMap.1 member
  obtain ⟨⟨key, position⟩, entry, rfl⟩ := mem_map.1 listed
  have found := located key position (GoMap.mem_pairs_iff.1 (mem_map_of_mem entry))
  obtain ⟨owner, ownerCell, rfl⟩ := homed.cell key position found
  rw [cell, Option.some.injEq] at ownerCell
  exact ⟨position, ownerCell ▸ found⟩

theorem votableProducers_located (settled : chain.state.Settled) {key : Bytes}
    (votable : key ∈ chain.votableProducers height) : ∃ position, Located chain.state key position := by
  obtain ⟨producer, member, rfl⟩ := mem_map.1 votable
  have active : producer ∈ chain.state.getActiveProducers →
      ∃ position, Located chain.state producer.info.ownerPublicKey position :=
    producersOf_located settled.homed fun key position found => ⟨.activity, found⟩
  split at member
  · rcases mem_append.1 member with isActive | waits
    · exact active isActive
    · exact producersOf_located settled.homed settled.waiting waits
  · exact active member

end Checks

/-- The first transactions spend nothing from outside and do not vote. -/
structure Genesis (prim : Primitives) (genesis : List Transaction) : Prop where
  inputs : ∀ op ∈ inputsOf genesis, op = nullOutPoint ∨ ∃ old ∈ genesis, old.hash prim = op.txID
  ballots : ∀ tx ∈ genesis, ballots prim tx = []

namespace StateStep

def Uncasts (step : StateStep) (tx : Transaction) : Prop :=
  ∃ input ∈ tx.inputs, (step.before.frame.votes.lookup input.previous).isSome = true

/-- The block keeps the keys of the producers apart. It neither casts nor takes back votes
if it is processed twice, and a coinbase and a registration of an asset never do. -/
@[mk_iff] structure KeepsVotes (step : StateStep) : Prop where
  keys : step.before.frame.KeysApart step.checked.transactions
  once : step.checked.height = step.before.params.voteStatisticsHeight →
    castBy step.chain.prim step.checked.transactions = [] ∧ ∀ tx ∈ step.checked.transactions, ¬ step.Uncasts tx
  coinbase : ∀ tx ∈ step.checked.transactions, tx.txType = .coinBase → ballots step.chain.prim tx = []
  asset : ∀ tx ∈ step.checked.transactions, tx.txType = .registerAsset → ¬ step.Uncasts tx

instance (step : StateStep) (tx : Transaction) : Decidable (step.Uncasts tx) :=
  inferInstanceAs (Decidable (∃ input ∈ tx.inputs, _))

instance (step : StateStep) : Decidable step.KeepsVotes :=
  decidable_of_iff' _ (keepsVotes_iff step)

end StateStep

structure Counting (prim : Primitives) (params : Params) (saved : List Transaction) (state : State) : Prop where
  params : state.params = params
  idle : state.history.Idle
  tallied : state.frame.Tallied (castBy prim saved) (inputsOf saved)
  inputs : ∀ op ∈ inputsOf saved, op = nullOutPoint ∨ ∃ old ∈ saved, old.hash prim = op.txID
  indexed : ∀ entry ∈ castBy prim saved, entry.1 ∈ inputsOf saved → entry.1 ∈ indexedSpends saved
  counts : ∀ tx ∈ saved, ballots prim tx ≠ [] → tx.outputs.length ≤ 0xffff
  others : ∀ tx ∈ saved, tx.txType ≠ .transferAsset → ballots prim tx = []
  positive : ∀ entry ∈ castBy prim saved, ∀ vote ∈ delegateVotes entry.2, 0 ≤ vote.2.toInt

theorem counting_initial {prim : Primitives} {genesis : List Transaction} (params : Params)
    (start : Genesis prim genesis) : Counting prim params genesis (initial params) := by
  have none : castBy prim genesis = [] := by
    refine flatMap_eq_nil_iff.2 fun tx member => ?_
    rw [start.ballots tx member, ite_self]
  refine ⟨rfl, ⟨rfl, rfl, rfl⟩, ?_, start.inputs, by simp [none],
    fun tx member some => absurd (start.ballots tx member) some,
    fun tx member _ => start.ballots tx member, by simp [none]⟩
  rw [none]
  exact {
    settled := initial_settled params
    recorded := ⟨fun op => by simp [initial, StateKeyFrame.empty], by simp⟩
    knows := by simp
    counted key position located := absurd located (initial_nowhere params key position) }

section Step
variable {prim : Primitives} {params : Params} {height : UInt32} {state : State}
  {saved txs : List Transaction} {step : StateStep}

theorem mem_castBy {entry : OutPoint × Output} :
    entry ∈ castBy prim txs ↔ ∃ tx ∈ txs, tx.txType = .transferAsset ∧ entry ∈ ballots prim tx := by
  simp only [castBy, mem_flatMap]
  constructor
  · rintro ⟨tx, member, found⟩
    split at found
    · rename_i isAsset
      exact ⟨tx, member, isAsset, found⟩
    · simp at found
  · rintro ⟨tx, member, isAsset, found⟩
    exact ⟨tx, member, by rwa [if_pos isAsset]⟩

theorem castBy_append (first second : List Transaction) :
    castBy prim (first ++ second) = castBy prim first ++ castBy prim second :=
  flatMap_append

theorem castBy_nodup (hashes : (txs.map (Transaction.hash prim)).Nodup)
    (counts : ∀ tx ∈ txs, tx.outputs.length ≤ 0xffff) : ((castBy prim txs).map Prod.fst).Nodup := by
  rw [castBy, map_flatMap, nodup_flatMap]
  constructor
  · intro tx member
    split
    · unfold ballots
      split
      · exact (outputPoints_nodup (counts tx member)).sublist (filter_sublist.map _)
      · exact nodup_nil
    · exact nodup_nil
  · refine (pairwise_map.1 hashes).imp fun {first second} apart op inFirst inSecond => apart ?_
    have hash : ∀ {tx : Transaction}, op ∈ (if tx.txType = .transferAsset then ballots prim tx
        else []).map Prod.fst → op.txID = tx.hash prim := by
      intro tx member
      obtain ⟨entry, found, rfl⟩ := mem_map.1 member
      split at found
      · exact outputPoints_txID (mem_ballots found).2.1
      · simp at found
    rw [← hash inFirst, hash inSecond]

namespace Follows
variable (follows : Follows prim saved step)
include follows

theorem ballot_new {entry : OutPoint × Output} (member : entry ∈ castBy prim step.checked.transactions) :
    entry.1 ≠ nullOutPoint ∧ ∀ old ∈ saved, old.hash prim ≠ entry.1.txID := by
  obtain ⟨tx, included, isAsset, ballot⟩ := mem_castBy.1 member
  have created := (mem_ballots ballot).2.1
  refine ⟨outputPoints_ne_null (follows.accepted.outputs_length included) created, ?_⟩
  rw [outputPoints_txID created]
  exact follows.new included (by simp [isAsset])

end Follows

namespace Counting
variable (counting : Counting prim params saved state)
include counting

theorem castBy_origin {entry : OutPoint × Output} (member : entry ∈ castBy prim saved) :
    ∃ tx ∈ saved, tx.txType = .transferAsset ∧ entry ∈ ballots prim tx ∧ tx.outputs.length ≤ 0xffff := by
  obtain ⟨tx, included, isAsset, ballot⟩ := mem_castBy.1 member
  exact ⟨tx, included, isAsset, ballot, counting.counts tx included (ne_nil_of_mem ballot)⟩

theorem castBy_ne_null {op : OutPoint} (isCast : op ∈ (castBy prim saved).map Prod.fst) : op ≠ nullOutPoint := by
  obtain ⟨entry, member, rfl⟩ := mem_map.1 isCast
  obtain ⟨tx, _, _, ballot, counts⟩ := counting.castBy_origin member
  exact outputPoints_ne_null counts (mem_ballots ballot).2.1

variable (follows : Follows prim saved step) {input : Input}
include follows

section
variable {tx : Transaction} (member : tx ∈ step.checked.transactions)
include member

theorem spends_notCoinbase (spends : input ∈ tx.inputs) (isCast : input.previous ∈ (castBy prim saved).map Prod.fst) :
    tx.txType ≠ .coinBase := by
  intro isCoinbase
  obtain ⟨samePrim, _, accepted, _, holds⟩ := follows
  subst samePrim
  rcases accepted.inputs_saved holds member spends with ⟨_, null⟩ | ⟨other, _⟩
  · exact counting.castBy_ne_null isCast null
  · exact other isCoinbase

theorem referred :
    Referred step.funcs (castBy prim saved) tx := by
  intro input spends isCast
  have notCoinbase := counting.spends_notCoinbase follows member spends isCast
  obtain ⟨samePrim, _, accepted, _, holds⟩ := follows
  subst samePrim
  obtain ⟨original, _, passed⟩ := accepted.checkedTx member notCoinbase
  obtain ⟨references, found, each⟩ := passed.references holds
  obtain ⟨output, listed, old, oldSaved, sameHash, created⟩ := each input spends
  refine ⟨references, output, found, listed, ?_⟩
  obtain ⟨entry, entryMember, sameOp⟩ := mem_map.1 isCast
  obtain ⟨source, saved', _, ballot, counts⟩ := counting.castBy_origin entryMember
  have entryCreated := (mem_ballots ballot).2.1
  have sourceHash : old.hash step.chain.prim = source.hash step.chain.prim := by
    rw [sameHash, ← sameOp, outputPoints_txID entryCreated]
  rw [holds.outputPoints_eq oldSaved saved' sourceHash] at created
  have same := inj_on_of_nodup_map (outputPoints_nodup counts) created entryCreated sameOp.symm
  rwa [same]

end

variable (before : step.before = state) (keeps : step.KeepsVotes)
include before keeps

/-- The transactions that spend a ballot reach the index, and spend it for the first time. -/
theorem spends_indexed {tx : Transaction} (member : tx ∈ step.checked.transactions)
    (spends : input ∈ tx.inputs) (isCast : input.previous ∈ (castBy prim saved).map Prod.fst) :
    tx.txType ≠ .coinBase ∧ tx.txType ≠ .registerAsset ∧ input.previous ∉ inputsOf saved := by
  have notCoinbase := counting.spends_notCoinbase follows member spends isCast
  have voted : (step.before.frame.votes.lookup input.previous).isSome = true := by
    rw [before]
    exact (counting.tallied.recorded.recorded _).2 isCast
  refine ⟨notCoinbase, fun isAsset => keeps.asset tx member isAsset ⟨input, spends, voted⟩, ?_⟩
  obtain ⟨samePrim, _, accepted, _, holds⟩ := follows
  subst samePrim
  obtain ⟨original, _, passed⟩ := accepted.checkedTx member notCoinbase
  rw [passed.inputs] at spends
  obtain ⟨entry, entryMember, sameOp⟩ := mem_map.1 isCast
  obtain ⟨source, sourceSaved, isAsset, ballot, _⟩ := counting.castBy_origin entryMember
  have indexed := (passed.unspent holds).2 input spends source sourceSaved (by simp [isAsset])
    (by rw [← sameOp, outputPoints_txID (mem_ballots ballot).2.1])
  rw [← sameOp] at indexed ⊢
  exact fun spent => indexed (counting.indexed entry entryMember spent)

theorem freshBallots : FreshBallots step.before.frame (castBy prim saved) (inputsOf saved) prim
      step.checked.transactions where
  knows entry member vote named := by
    obtain ⟨tx, included, isAsset, ballot⟩ := mem_castBy.1 member
    obtain ⟨original, _, passed⟩ := follows.accepted.checkedTx included (by simp [isAsset])
    rw [← follows.samePrim] at ballot
    have settled : step.chain.state.Settled := by
      rw [follows.frame, before]
      exact counting.tallied.settled
    obtain ⟨position, located⟩ := votableProducers_located settled ((passed.ballot ballot).2 vote named).1
    rw [follows.frame] at located
    exact ⟨position, located⟩
  new entry member := by
    obtain ⟨notNull, unknown⟩ := follows.ballot_new member
    constructor
    · intro spent
      rcases counting.inputs _ spent with null | ⟨old, saved, same⟩
      · exact notNull null
      · exact unknown old saved same
    · intro spent
      rcases follows.inputs spent with null | ⟨old, saved, same⟩
      · exact notNull null
      · exact unknown old saved same
  unique := by
    have hashes := follows.samePrim ▸ (follows.accepted.once follows.sanity).1
    rw [map_append, nodup_append']
    refine ⟨counting.tallied.recorded.unique, castBy_nodup hashes
      (fun tx member => follows.accepted.outputs_length member), fun op old now => ?_⟩
    obtain ⟨entry, member, rfl⟩ := mem_map.1 old
    obtain ⟨other, otherMember, same⟩ := mem_map.1 now
    obtain ⟨tx, included, _, ballot, _⟩ := counting.castBy_origin member
    refine (follows.ballot_new otherMember).2 tx included ?_
    rw [same, outputPoints_txID (mem_ballots ballot).2.1]
  inputs := (follows.accepted.once follows.sanity).2
  unspent entry member spent := by
    obtain ⟨tx, included, spends⟩ := mem_flatMap.1 spent
    obtain ⟨input, inputMember, same⟩ := mem_map.1 spends
    rw [← same]
    refine (counting.spends_indexed follows before keeps included inputMember ?_).2.2
    rw [same]
    exact mem_map_of_mem member

theorem votesOnce : VotesOnce step.before.params step.checked.height prim (castBy prim saved)
      step.checked.transactions := by
  intro statistics
  obtain ⟨noBallot, unspent⟩ := keeps.once statistics
  rw [follows.samePrim] at noBallot
  refine ⟨noBallot, fun tx member input spends isCast => unspent tx member ⟨input, spends, ?_⟩⟩
  rw [before]
  exact (counting.tallied.recorded.recorded _).2 isCast

theorem tallied_block : (executeAll (step.actions.map (Action.change step.before.params step.checked.height))
      step.writes).Tallied (castBy prim (saved ++ step.checked.transactions))
        (inputsOf (saved ++ step.checked.transactions)) := by
  have start := before ▸ counting.tallied
  have fits := follows.frame ▸ follows.accepted.fits (follows.frame.symm ▸ start.settled.homed)
  obtain rfl : step.funcs.prim = prim := follows.samePrim
  rw [castBy_append, inputsOf, flatMap_append]
  exact start.block fits keeps.keys (fun tx member => counting.referred follows member)
    (counting.votesOnce follows before keeps) (counting.freshBallots follows before keeps)
    step.confirm

theorem extend (next : step.Extends prim params height state) :
    Counting prim params (saved ++ step.checked.transactions) step.after := by
  obtain ⟨sameParams, idle, ran⟩ := next.ran (before ▸ counting.idle)
  have inputsOf_append : inputsOf (saved ++ step.checked.transactions) =
      inputsOf saved ++ inputsOf step.checked.transactions := flatMap_append
  have fresh := counting.freshBallots follows before keeps
  have accepted : ∀ {tx : Transaction}, tx ∈ step.checked.transactions →
      tx.txType ≠ .coinBase → ∀ entry ∈ ballots prim tx, tx.txType = .transferAsset ∧
        ∀ vote ∈ delegateVotes entry.2, 0 ≤ vote.2.toInt := by
    intro tx member notCoinbase entry ballot
    obtain ⟨original, _, passed⟩ := follows.accepted.checkedTx member notCoinbase
    rw [← follows.samePrim] at ballot
    obtain ⟨isAsset, votes⟩ := passed.ballot ballot
    exact ⟨isAsset, fun vote named => (votes vote named).2⟩
  refine ⟨sameParams.trans (before ▸ counting.params), idle,
    ran ▸ counting.tallied_block follows before keeps, fun op member => ?_,
    fun entry member spent => ?_, fun tx member some => ?_, fun tx member other => ?_,
    fun entry member vote named => ?_⟩
  · rw [inputsOf_append] at member
    have known : op = nullOutPoint ∨ ∃ old ∈ saved, old.hash prim = op.txID :=
      (mem_append.1 member).elim (counting.inputs op) follows.inputs
    rcases known with null | ⟨old, oldSaved, same⟩
    · exact .inl null
    · exact .inr ⟨old, mem_append_left _ oldSaved, same⟩
  · rw [castBy_append] at member
    rw [inputsOf_append] at spent
    have split : indexedSpends (saved ++ step.checked.transactions) =
        indexedSpends saved ++ indexedSpends step.checked.transactions := by
      simp [indexedSpends, inputsOf]
    rw [split, mem_append]
    rcases mem_append.1 member with earlier | now
    · rcases mem_append.1 spent with before_ | spentNow
      · exact .inl (counting.indexed entry earlier before_)
      right
      obtain ⟨tx, included, spends⟩ := mem_flatMap.1 spentNow
      obtain ⟨input, inputMember, same⟩ := mem_map.1 spends
      have isCast : input.previous ∈ (castBy prim saved).map Prod.fst := same ▸ mem_map_of_mem earlier
      obtain ⟨notCoinbase, notAsset, _⟩ := counting.spends_indexed follows before keeps included inputMember isCast
      refine mem_flatMap.2 ⟨tx, mem_filter.2 ⟨included, ?_⟩, spends⟩
      simp [notCoinbase, notAsset]
    · obtain ⟨unseen, unspent⟩ := fresh.new entry now
      exact ((mem_append.1 spent).elim unseen unspent).elim
  · rcases mem_append.1 member with earlier | now
    · exact counting.counts tx earlier some
    · exact follows.accepted.outputs_length now
  · rcases mem_append.1 member with earlier | now
    · exact counting.others tx earlier other
    by_cases isCoinbase : tx.txType = .coinBase
    · exact follows.samePrim ▸ keeps.coinbase tx now isCoinbase
    · refine eq_nil_iff_forall_not_mem.2 fun entry ballot => ?_
      exact other (accepted now isCoinbase entry ballot).1
  · rw [castBy_append] at member
    rcases mem_append.1 member with earlier | now
    · exact counting.positive entry earlier vote named
    · obtain ⟨tx, included, isAsset, ballot⟩ := mem_castBy.1 now
      exact (accepted included (by simp [isAsset]) entry ballot).2 vote named

end Counting
end Step

/-- The vote outputs of transactions. Outputs have types since version 9. -/
def voteOutputs (prim : Primitives) (txs : List Transaction) : List (OutPoint × Output) :=
  txs.flatMap fun tx =>
    if txVersion09 ≤ tx.version then
      (Cr.outputPoints prim tx).filter fun entry => entry.2.outputType = .vote
    else []

variable (prim : Primitives) (saved : List Transaction)

/-- What the unspent vote outputs credit to an owner key. -/
def namedVotes (key : Bytes) : Int :=
  weigh (credited key) (unspent (voteOutputs prim saved) (inputsOf saved))

/-- The owner key leads to its producer, which has the votes that name the key. -/
def VotesReach (frame : StateKeyFrame) (key : Bytes) : Prop :=
  ∃ position producer, Located frame key position ∧ frame.getProducerRef key = some position ∧
    frame.producer? position = some producer ∧ producer.info.ownerPublicKey = key ∧
    producer.votes.toInt = namedVotes prim saved key ∧ 0 ≤ producer.votes.toInt

section Run
variable {prim : Primitives} {params : Params} {genesis saved : List Transaction}
  {steps : List StateStep} {height : UInt32} {state : State}

theorem credited_of_not_ballot {key : Bytes} {output : Output}
    (isVote : output.outputType = .vote) (notBallot : isBallot output = false) : credited key output = 0 := by
  refine credited_eq_zero fun vote member => ?_
  cases payload : output.payload with
  | vote ballot =>
    obtain ⟨content, contentMember, isDelegate, _⟩ := (mem_delegateVotes payload).1 member
    have counts : countsVotes ballot := .inr ⟨content, contentMember, isDelegate⟩
    simp [isBallot, payload, isVote, counts] at notBallot
  | default | mapping => simp [delegateVotes, payload] at member

/-- Only the ballots of ordinary transfers credit votes. -/
theorem weigh_voteOutputs {spent : List OutPoint} {txs : List Transaction}
    (others : ∀ tx ∈ txs, tx.txType ≠ .transferAsset → ballots prim tx = []) (key : Bytes) :
    weigh (credited key) (unspent (voteOutputs prim txs) spent) =
      weigh (credited key) (unspent (castBy prim txs) spent) := by
  have each : ∀ tx ∈ txs, weigh (credited key) (unspent (voteOutputs prim [tx]) spent) =
        weigh (credited key) (unspent (castBy prim [tx]) spent) := by
    intro tx member
    have cast : castBy prim [tx] = ballots prim tx := by
      rw [castBy, flatMap_singleton]
      split
      · rfl
      · exact (others tx member ‹_›).symm
    rw [cast, voteOutputs, flatMap_singleton, ballots]
    split
    · rw [unspent, unspent, filter_filter, filter_filter]
      refine weigh_filter_congr fun entry _ => ?_
      cases ballot : isBallot entry.2 with
      | true => simp [(isBallot_vote ballot).1]
      | false =>
        by_cases isVote : entry.2.outputType = .vote
        · exact .inr (credited_of_not_ballot isVote ballot)
        · simp [isVote]
    · rfl
  clear others
  induction txs with
  | nil => rfl
  | cons tx rest ih =>
    have votes : voteOutputs prim (tx :: rest) = voteOutputs prim [tx] ++ voteOutputs prim rest := by simp [voteOutputs]
    rw [votes, castBy_cons, unspent, unspent, filter_append, filter_append, weigh_append, weigh_append]
    exact congrArg₂ _ (each tx (by simp)) (ih fun other member => each other (mem_cons_of_mem _ member))

theorem StateRun.counting (run : StateRun prim params 0 (initial params) steps height state)
    (start : Genesis prim genesis) (stored : Stored prim genesis steps)
    (keeps : ∀ step ∈ steps, step.KeepsVotes) : Counting prim params (savedBy genesis steps) state ∧
      ∀ step ∈ steps, ∀ key ∈ step.registeredKeys, ∃ position, Located state.frame key position := by
  induction run with
  | nil =>
    rw [savedBy, flatMap_nil, append_nil]
    exact ⟨counting_initial params start, by simp⟩
  | @snoc earlier step _ _ _ next ih =>
    obtain ⟨counting, registered⟩ := ih
      (fun first middle last shape => stored first middle (last ++ [step]) (by simp [shape]))
      fun other member => keeps other (mem_append_left _ member)
    have follows := next.follows (stored earlier step [] rfl)
    have keepsStep := keeps step (by simp)
    have saved : savedBy genesis (earlier ++ [step]) =
        savedBy genesis earlier ++ step.checked.transactions := by simp [savedBy]
    obtain ⟨kept, entered⟩ := next.located counting.idle counting.tallied.settled keepsStep.keys
    rw [saved]
    refine ⟨counting.extend follows next.before keepsStep next, fun other member key found => ?_⟩
    rcases mem_append.1 member with before | now
    · obtain ⟨position, located⟩ := registered other before key found
      exact ⟨position, kept key position located⟩
    · cases mem_singleton.1 now
      exact entered key found

/-- In a run whose blocks keep the votes, every registered producer has the votes of the
unspent outputs that name its key. -/
theorem registered_votesReach (run : StateRun prim params 0 (initial params) steps height state)
    (start : Genesis prim genesis) (stored : Stored prim genesis steps)
    (keeps : ∀ step ∈ steps, step.KeepsVotes) : ∀ step ∈ steps, ∀ key ∈ step.registeredKeys,
      namedVotes prim (savedBy genesis steps) key < 9223372036854775808 →
      VotesReach prim (savedBy genesis steps) state.frame key := by
  intro step member key registers inRange
  obtain ⟨counting, registered⟩ := run.counting start stored keeps
  obtain ⟨position, located⟩ := registered step member key registers
  have settled := counting.tallied.settled
  obtain ⟨producer, cell, owner⟩ := settled.homed.cell key position located
  have named : namedVotes prim (savedBy genesis steps) key = weigh (credited key)
      (unspent (castBy prim (savedBy genesis steps)) (inputsOf (savedBy genesis steps))) :=
    weigh_voteOutputs counting.others key
  have nonneg : 0 ≤ namedVotes prim (savedBy genesis steps) key := by
    rw [named]
    exact weigh_nonneg fun entry entryMember =>
      credited_nonneg (counting.positive entry (mem_filter.1 entryMember).1)
  have counted := counting.tallied.counted key position located
  rw [votesAt, cell, Option.map_some, Option.some.injEq, ← named] at counted
  have exact : producer.votes.toInt = namedVotes prim (savedBy genesis steps) key := by
    rw [counted, Int64.toInt_ofInt_of_le (by omega) (by omega)]
  exact ⟨position, producer, located, settled.getProducerRef located, cell, owner, exact,
    exact ▸ nonneg⟩

end Run

open SmallChain

theorem funds_genesis : Genesis primitives [funds] where
  inputs := by simp [inputsOf, funds]
  ballots := by decide +kernel

/-- A producer gets the votes of the block after its activation. -/
theorem votingFor_votesReach : ∃ genesis steps height state, Genesis primitives genesis ∧
      StateRun primitives electedParams 0 (initial electedParams) steps height
        state ∧ Stored primitives genesis steps ∧ (∃ step ∈ steps, key 5 ∈ step.registeredKeys) ∧
      namedVotes primitives (savedBy genesis steps) (key 5) = 999900 ∧
      VotesReach primitives (savedBy genesis steps) state.frame (key 5) := by
  have played : (playSaved savedChain previousNode [funds] 0 (initial electedParams)
      [elected 1 [first], elected 2 [], elected 3 [], elected 4 [], elected 5 [], elected 6 [],
        elected 7 [votingFor 5]]).any (fun reached => decide
          (((savedBy [funds] reached.1).map (Transaction.hash primitives)).Nodup ∧
            (∀ step ∈ reached.1, step.KeepsVotes) ∧ (∃ step ∈ reached.1, key 5 ∈ step.registeredKeys) ∧
            namedVotes primitives (savedBy [funds] reached.1) (key 5) = 999900)) = true := by
    decide +kernel
  obtain ⟨⟨steps, height, state⟩, found, holds⟩ := (Option.any_eq_true _ _).1 played
  obtain ⟨hashes, keeps, ⟨step, member, registers⟩, named⟩ := of_decide_eq_true holds
  obtain ⟨run, stored⟩ := savedChain_run found hashes
  refine ⟨[funds], steps, height, state, funds_genesis, run, stored, ⟨step, member, registers⟩,
    named, registered_votesReach run funds_genesis stored keeps step member _ registers ?_⟩
  rw [named]
  decide

/-- The owner key of the second producer leads to the first one, which gets its votes. -/
theorem second_not_votesReach : ∃ genesis steps height state, Genesis primitives genesis ∧
      StateRun primitives electedParams 0 (initial electedParams) steps height
        state ∧ Stored primitives genesis steps ∧
      (∀ step ∈ steps, electedParams.publicDPOSHeight ≤ step.block.height) ∧
      namedVotes primitives (savedBy genesis steps) (key 5) = 0 ∧
      (state.frame.getProducer (key 5)).map (·.votes) = some 999900 ∧ ∃ step ∈ steps, ∃ key ∈ step.registeredKeys,
        namedVotes primitives (savedBy genesis steps) key < 9223372036854775808 ∧
        ¬ VotesReach primitives (savedBy genesis steps) state.frame key := by
  have played : (playSaved savedChain previousNode [funds] 0 (initial electedParams)
      [elected 1 [first, second], elected 2 [], elected 3 [], elected 4 [], elected 5 [],
        elected 6 [], elected 7 [votingFor 6]]).any (fun reached => decide
          (((savedBy [funds] reached.1).map (Transaction.hash primitives)).Nodup ∧
            (∀ step ∈ reached.1, electedParams.publicDPOSHeight ≤ step.block.height) ∧
            namedVotes primitives (savedBy [funds] reached.1) (key 5) = 0 ∧
            (reached.2.2.frame.getProducer (key 5)).map (·.votes) = some 999900 ∧
            (∃ step ∈ reached.1, key 6 ∈ step.registeredKeys) ∧
            namedVotes primitives (savedBy [funds] reached.1) (key 6) = 999900 ∧
            (reached.2.2.frame.getProducer (key 6)).map (·.info.ownerPublicKey) =
              some (key 5))) = true := by
    decide +kernel
  obtain ⟨⟨steps, height, state⟩, found, holds⟩ := (Option.any_eq_true _ _).1 played
  obtain ⟨hashes, high, none, votes, ⟨step, member, registers⟩, named, diverted⟩ := of_decide_eq_true holds
  obtain ⟨run, stored⟩ := savedChain_run found hashes
  refine ⟨[funds], steps, height, state, funds_genesis, run, stored, high, none, votes, step,
    member, _, registers, by rw [named]; decide, ?_⟩
  rintro ⟨position, producer, _, reached, cell, owner, _⟩
  rw [getProducer, reached, Option.bind_some, cell, Option.map_some, owner, Option.some.injEq] at diverted
  exact absurd diverted (by decide)

end Elastos.Blockchain
