import Elastos.Blockchain.SmallChain

/-! What the two checks of a coinbase guarantee: whom its payouts go to, and how much the block
issues. -/
set_option autoImplicit false
namespace Elastos.Blockchain
open Go Common Elastos.Types Outcome GoMap List Crypto Elastos.Core BlockChain

def payouts (coinbase : Transaction) : List (Uint168 × Fixed64) :=
  (coinbase.outputs.drop 2).map fun output => (output.programHash, output.value)

variable (rewards : GoMap Uint168 Fixed64)

theorem checkPayout_eq_ok (output : Output) (result : Unit) : checkPayout rewards output = .ok result ↔
      (output.programHash, output.value) ∈ pairs rewards := by
  rw [checkPayout, bind_eq_ok, mem_pairs_iff]
  simp

theorem checkCoinbaseArbitratorsReward_eq_ok (coinbase : Transaction) (result : Unit) :
    checkCoinbaseArbitratorsReward rewards coinbase = .ok result ↔
      coinbase.outputs.length = rewards.entries.length + 2 ∧
        ∀ payout ∈ payouts coinbase, payout ∈ pairs rewards := by
  rw [checkCoinbaseArbitratorsReward, bind_eq_ok]
  constructor
  · rintro ⟨_, sameCount, looped⟩
    rw [require_eq_ok] at sameCount
    refine ⟨by omega, fun payout member => ?_⟩
    obtain ⟨output, outputMember, rfl⟩ := mem_map.1 member
    exact (checkPayout_eq_ok rewards output ()).1 ((forM_eq_ok _ _ _).1 looped output outputMember)
  · rintro ⟨sameCount, members⟩
    refine ⟨(), (require_eq_ok _ _ _).2 (by omega), (forM_eq_ok _ _ _).2 fun output outputMember => ?_⟩
    exact (checkPayout_eq_ok rewards output ()).2 (members _ (mem_map.2 ⟨output, outputMember, rfl⟩))

/-- As many payouts as there are rewards, each of them an entry, but with an
address paid twice. -/
def RepeatsPayout (coinbase : Transaction) : Prop :=
  coinbase.outputs.length = rewards.entries.length + 2 ∧ (∀ payout ∈ payouts coinbase, payout ∈ pairs rewards) ∧
    ¬ ((payouts coinbase).map Prod.fst).Nodup

/-- A coinbase too short to hold payouts while none are due. -/
def LacksOutputs (coinbase : Transaction) : Prop :=
  coinbase.outputs.length < 2 ∧ rewards.entries.length = 0

theorem payouts_length (coinbase : Transaction) : (payouts coinbase).length = coinbase.outputs.length - 2 := by
  simp [payouts]

/-- The check accepts exactly the complete payouts, except for these two kinds of
coinbases. -/
theorem arbitratorsReward_exact_iff (coinbase : Transaction) :
    (checkCoinbaseArbitratorsReward rewards coinbase = .ok () ↔ (payouts coinbase).Perm (pairs rewards)) ↔
      ¬ RepeatsPayout rewards coinbase ∧ ¬ LacksOutputs rewards coinbase := by
  rw [checkCoinbaseArbitratorsReward_eq_ok, perm_pairs_iff, payouts_length, RepeatsPayout, LacksOutputs]
  constructor
  · intro exact
    constructor
    · rintro ⟨sameCount, members, repeated⟩
      exact repeated (exact.1 ⟨sameCount, members⟩).2.2
    · rintro ⟨short, none⟩
      have empty : payouts coinbase = [] := by
        rw [← length_eq_zero_iff, payouts_length]
        omega
      have accepted := (exact.2 ⟨by omega, by simp [empty], by simp [empty]⟩).1
      omega
  · rintro ⟨noRepeat, enough⟩
    constructor
    · rintro ⟨sameCount, members⟩
      refine ⟨by omega, members, ?_⟩
      by_contra repeated
      exact noRepeat ⟨sameCount, members, repeated⟩
    · rintro ⟨sameCount, members, _⟩
      refine ⟨?_, members⟩
      by_contra different
      exact enough ⟨by omega, by omega⟩

namespace SmallChain

def dueRewards : GoMap Uint168 Fixed64 :=
  ofPairs [(address Core.prefixStandard 5, 30), (address Core.prefixStandard 6, 40)]

def payingTwice : Transaction :=
  coinbase 11 [output crcFoundation 160000000, output miner 166484018,
    output (address Core.prefixStandard 5) 30, output (address Core.prefixStandard 5) 30]

theorem payingTwice_not_exact : ¬ (checkCoinbaseArbitratorsReward dueRewards payingTwice = .ok () ↔
      (payouts payingTwice).Perm (pairs dueRewards)) := by
  decide +kernel

end SmallChain

section Issuance
variable (chain : BlockChain)

/-- What a block may pay to its first two outputs, as an unbounded integer. -/
def issuedAmount (totalTxFee : Fixed64) : Int :=
  let totalReward := totalTxFee + chain.chainParams.rewardPerBlock
  totalReward.toInt - (rewardDPOSArbiter totalReward).toInt + chain.arbitrators.finalRoundChange.toInt

/-- No output is negative, the first two share the issued amount, and the others
are rewards of the round. -/
structure IssuesExactly (coinbase : Transaction) (totalTxFee : Fixed64) : Prop where
  nonneg : ∀ output ∈ coinbase.outputs, 0 ≤ output.value.toInt
  shared : exactSum (valuesOf (coinbase.outputs.take 2)) = issuedAmount chain totalTxFee
  bounded : ∀ output ∈ coinbase.outputs.take 2, output.value.toInt ≤ issuedAmount chain totalTxFee
  rewarded : ∀ payout ∈ payouts coinbase, payout ∈ pairs chain.arbitrators.arbitersRoundReward

/-- The first two outputs are not negative, nor is a reward of an address that is
paid, and the issued amount fits into 64 bits. -/
structure IssuesInRange (coinbase : Transaction) (totalTxFee : Fixed64) : Prop where
  shares : ∀ output ∈ coinbase.outputs.take 2, 0 ≤ output.value.toInt
  rewards : ∀ reward ∈ pairs chain.arbitrators.arbitersRoundReward,
    reward.1 ∈ (payouts coinbase).map Prod.fst → 0 ≤ reward.2.toInt
  issued_nonneg : 0 ≤ issuedAmount chain totalTxFee
  issued_lt : issuedAmount chain totalTxFee < 18446744073709551616

variable {chain} {blockHeight : UInt32} {coinbase : Transaction} {totalTxFee : Fixed64}

section
variable (height : chain.chainParams.publicDPOSHeight ≤ blockHeight)
include height

/-- The reward check compares the two amounts after both of them wrapped. -/
theorem checkCoinbaseTransactionContext_turns
    (accepted : chain.checkCoinbaseTransactionContext blockHeight coinbase totalTxFee = .ok ()) :
    ∃ first second rest, coinbase.outputs = first :: second :: rest ∧
        (∃ turns : Int, first.value.toInt + second.value.toInt =
          issuedAmount chain totalTxFee + 18446744073709551616 * turns) ∧ ∀ payout ∈ payouts coinbase,
          payout ∈ pairs chain.arbitrators.arbitersRoundReward := by
  rw [BlockChain.checkCoinbaseTransactionContext, if_pos height] at accepted
  dsimp only at accepted
  split at accepted
  · rename_i first second rest shape
    obtain ⟨_, sameReward, paid⟩ := bind_eq_ok.1 accepted
    rw [require_eq_ok] at sameReward
    refine ⟨first, second, rest, shape, ?_, ((checkCoinbaseArbitratorsReward_eq_ok _ _ _).1 paid).2⟩
    obtain ⟨outputTurns, outputEq⟩ := add_turns first.value second.value
    obtain ⟨changeTurns, changeEq⟩ := add_turns (totalTxFee + chain.chainParams.rewardPerBlock -
        rewardDPOSArbiter (totalTxFee + chain.chainParams.rewardPerBlock))
      chain.arbitrators.finalRoundChange
    obtain ⟨shareTurns, shareEq⟩ := sub_turns (totalTxFee + chain.chainParams.rewardPerBlock)
      (rewardDPOSArbiter (totalTxFee + chain.chainParams.rewardPerBlock))
    rw [sameReward] at changeEq
    refine ⟨shareTurns + changeTurns - outputTurns, ?_⟩
    rw [issuedAmount]
    omega
  · simp at accepted

theorem coinbase_issuesExactly_iff (_sane : chain.checkTransactionSanity blockHeight coinbase = .ok ())
    (accepted : chain.checkCoinbaseTransactionContext blockHeight coinbase totalTxFee = .ok ()) :
    IssuesExactly chain coinbase totalTxFee ↔ IssuesInRange chain coinbase totalTxFee := by
  obtain ⟨first, second, rest, shape, ⟨turns, wrapped⟩, rewarded⟩ :=
    checkCoinbaseTransactionContext_turns height accepted
  have firstBound := Int64.toInt_lt first.value
  have secondBound := Int64.toInt_lt second.value
  have payoutsEq : payouts coinbase = rest.map fun output => (output.programHash, output.value) := by
    simp [payouts, shape]
  constructor
  · intro exact
    have shared := exact.shared
    have firstNonneg := exact.nonneg first (by simp [shape])
    have secondNonneg := exact.nonneg second (by simp [shape])
    simp only [shape, valuesOf, take_succ_cons, take_zero, map_cons, map_nil, exactSum_cons, exactSum_nil] at shared
    refine ⟨fun output member => ?_, fun reward rewardMember paid => ?_, ?_, ?_⟩
    · exact exact.nonneg output (mem_of_mem_take member)
    · -- A paid address names one entry, and its payout is that entry.
      obtain ⟨payout, payoutMember, sameAddress⟩ := mem_map.1 paid
      have sameReward :=
        inj_on_of_nodup_map (pairs_keys_nodup _) (rewarded payout payoutMember) rewardMember sameAddress
      rw [payoutsEq] at payoutMember
      obtain ⟨output, outputMember, rfl⟩ := mem_map.1 payoutMember
      rw [← sameReward]
      exact exact.nonneg output (by simp [shape, outputMember])
    · omega
    · omega
  · intro range
    have firstNonneg := range.shares first (by simp [shape])
    have secondNonneg := range.shares second (by simp [shape])
    have low := range.issued_nonneg
    have high := range.issued_lt
    have equal : first.value.toInt + second.value.toInt = issuedAmount chain totalTxFee := by
      omega
    refine ⟨fun output member => ?_, ?_, fun output member => ?_, rewarded⟩
    · rw [shape] at member
      rcases mem_cons.1 member with rfl | member
      · exact firstNonneg
      rcases mem_cons.1 member with rfl | member
      · exact secondNonneg
      have paid : (output.programHash, output.value) ∈ payouts coinbase := by
        rw [payoutsEq]
        exact mem_map.2 ⟨output, member, rfl⟩
      exact range.rewards _ (rewarded _ paid) (mem_map.2 ⟨_, paid, rfl⟩)
    · simpa [shape, valuesOf] using equal
    · simp only [shape, take_succ_cons, take_zero, mem_cons, not_mem_nil, or_false] at member
      rcases member with rfl | rfl <;> omega

end

end Issuance

namespace SmallChain

def sharing : Transaction :=
  coinbase 11 [output crcFoundation 160000000, output miner 166484018]

theorem sharing_issuesExactly : IssuesExactly (chain []) sharing 0 := by
  have height : (chain []).chainParams.publicDPOSHeight ≤ 11 := by decide
  refine (coinbase_issuesExactly_iff height (by decide +kernel) (by decide +kernel)).2 ⟨?_, ?_, ?_, ?_⟩
  all_goals decide +kernel

/-- The foundation is paid more than the chain has ever issued, and the miner is
paid the negative difference. -/
def overissuing : Transaction :=
  coinbase 11 [output crcFoundation 100000000000000000, output miner (326484018 - 100000000000000000)]

theorem overissuing_accepted : (chain []).chainParams.publicDPOSHeight ≤ 11 ∧
      (chain []).checkTransactionSanity 11 overissuing = .ok () ∧
      (chain []).checkCoinbaseTransactionContext 11 overissuing 0 = .ok () ∧
      ¬ (∀ output ∈ overissuing.outputs, 0 ≤ output.value.toInt) ∧ ¬ (∀ output ∈ overissuing.outputs.take 2,
        output.value.toInt ≤ issuedAmount (chain []) 0) := by
  decide +kernel

end SmallChain

end Elastos.Blockchain
