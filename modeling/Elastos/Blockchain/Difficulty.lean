import Elastos.Blockchain.BlockTree

/-! The compact form of a target and the retarget rule of `difficulty.go`. -/
set_option autoImplicit false
namespace Elastos.Blockchain
open Go Crypto

def packCompact (exponent : Nat) (mantissa : UInt32) : UInt32 :=
  UInt32.ofNat exponent <<< 24 ||| mantissa

def bigToCompact (n : Int) : UInt32 :=
  if n = 0 then 0
  else
    let exponent := (bigEndian n.natAbs).length
    let mantissa : UInt32 :=
      if exponent ≤ 3 then .ofNat n.natAbs <<< .ofNat (8 * (3 - exponent))
      else .ofNat (n / 2 ^ (8 * (exponent - 3))).natAbs
    let compact :=
      if mantissa &&& 0x00800000 ≠ 0 then packCompact (exponent + 1) (mantissa >>> 8)
      else packCompact exponent mantissa
    if n < 0 then compact ||| 0x00800000 else compact

theorem and_signBit (value : UInt32) : value &&& 0x00800000 = 0 ↔ value.toNat / 2 ^ 23 % 2 = 0 := by
  rw [← UInt32.toNat_inj, UInt32.toNat_and]
  change value.toNat &&& 2 ^ 23 = 0 ↔ _
  rw [Nat.and_two_pow, Nat.testBit_eq_decide_div_mod_eq]
  rcases Nat.mod_two_eq_zero_or_one (value.toNat / 2 ^ 23) with even | odd
  · rw [even]
    decide
  · rw [odd]
    decide

theorem packCompact_toNat {exponent : Nat} {mantissa : UInt32} (few : exponent < 256)
    (small : mantissa.toNat < 2 ^ 24) : (packCompact exponent mantissa).toNat = exponent * 2 ^ 24 + mantissa.toNat := by
  have fits : exponent <<< 24 < 2 ^ 32 := by
    rw [Nat.shiftLeft_eq]
    omega
  rw [packCompact, UInt32.toNat_or, UInt32.toNat_shiftLeft, UInt32.toNat_ofNat_of_lt' (Nat.lt_trans few (by decide))]
  change exponent <<< 24 % 2 ^ 32 ||| _ = _
  rw [Nat.mod_eq_of_lt fits, ← Nat.shiftLeft_add_eq_or_of_lt small, Nat.shiftLeft_eq]

theorem compactToBig_of_toNat {compact : UInt32} {exponent mantissa : Nat} (small : mantissa < 2 ^ 23)
    (form : compact.toNat = exponent * 2 ^ 24 + mantissa) :
    compactToBig compact = (mantissa * 2 ^ (8 * exponent) / 2 ^ 24 : Nat) := by
  have bits : (compact &&& 0x007fffff).toNat = mantissa := by
    rw [UInt32.toNat_and]
    change compact.toNat &&& (2 ^ 23 - 1) = _
    rw [Nat.and_two_pow_sub_one_eq_mod]
    omega
  have shifted : (compact >>> 24).toNat = exponent := by
    rw [UInt32.toNat_shiftRight]
    change compact.toNat >>> 24 = _
    rw [Nat.shiftRight_eq_div_pow]
    omega
  have positive : compact &&& 0x00800000 = 0 := (and_signBit compact).2 (by omega)
  rw [compactToBig, bits, shifted, positive]
  simp only [ne_eq, not_true, if_false]
  congr 1
  split
  · rename_i low
    rw [← Nat.mul_div_mul_right mantissa _ (Nat.two_pow_pos (8 * exponent)), ← pow_add]
    congr 2
    omega
  · rename_i high
    rw [show 8 * exponent = 8 * (exponent - 3) + 24 by omega, pow_add, ← mul_assoc, Nat.mul_div_cancel _ (by decide)]

/-- The exponent and the mantissa of a positive number. -/
structure Scaled (n exponent mantissa : Nat) : Prop where
  least : 2 ^ 15 ≤ mantissa
  small : mantissa < 2 ^ 23
  value : mantissa = n * 2 ^ 24 / 2 ^ (8 * exponent)

variable {n n' exponent exponent' mantissa mantissa' : Nat}

theorem Scaled.exponent_mono (scaled : Scaled n exponent mantissa) (scaled' : Scaled n' exponent' mantissa')
    (le : n ≤ n') : exponent ≤ exponent' := by
  by_contra above
  have low := scaled.least
  have high := scaled'.small
  rw [scaled.value, Nat.le_div_iff_mul_le (by positivity)] at low
  rw [scaled'.value, Nat.div_lt_iff_lt_mul (by positivity)] at high
  have apart : 2 ^ (8 * exponent' + 8) ≤ 2 ^ (8 * exponent) := Nat.pow_le_pow_right (by decide) (by omega)
  rw [pow_add] at apart
  omega

theorem Scaled.decoded (scaled : Scaled n exponent mantissa) :
    (exponent ≤ 3 ∧ mantissa * 2 ^ (8 * exponent) / 2 ^ 24 = n) ∨
      (3 < exponent ∧ mantissa * 2 ^ (8 * exponent) / 2 ^ 24 = mantissa * 2 ^ (8 * exponent - 24) ∧
      mantissa * 2 ^ (8 * exponent - 24) ≤ n ∧ n < mantissa * 2 ^ (8 * exponent - 24) + 2 ^ (8 * exponent - 24)) := by
  rcases le_or_gt exponent 3 with low | high
  · refine .inl ⟨low, ?_⟩
    have split : 2 ^ 24 = 2 ^ (24 - 8 * exponent) * 2 ^ (8 * exponent) := by
      rw [← pow_add]
      congr 1
      omega
    have exact' : mantissa = n * 2 ^ (24 - 8 * exponent) := by
      rw [scaled.value]
      conv_lhs => rw [split, ← mul_assoc]
      exact Nat.mul_div_cancel _ (by positivity)
    rw [exact', mul_assoc, ← split]
    exact Nat.mul_div_cancel _ (by decide)
  · refine .inr ⟨high, ?_⟩
    have split : 2 ^ (8 * exponent) = 2 ^ (8 * exponent - 24) * 2 ^ 24 := by
      rw [← pow_add]
      congr 1
      omega
    have floor : mantissa = n / 2 ^ (8 * exponent - 24) := by
      rw [scaled.value, split]
      exact Nat.mul_div_mul_right _ _ (by decide)
    refine ⟨by rw [split, ← mul_assoc]; exact Nat.mul_div_cancel _ (by decide), ?_, ?_⟩
    · rw [floor]
      exact Nat.div_mul_le_self _ _
    · rw [floor]
      exact Nat.lt_div_mul_add (by positivity)

theorem bigToCompact_scaled (positive : 0 < n) (small : n < 2 ^ 256) : ∃ exponent mantissa,
      Scaled n exponent mantissa ∧ (bigToCompact n).toNat = exponent * 2 ^ 24 + mantissa := by
  obtain ⟨least, most⟩ := bigEndian_length positive
  generalize size : (bigEndian n).length = exponent at least most
  have few : 8 * exponent < 8 + 256 :=
    (Nat.pow_lt_pow_iff_right (by decide)).1 (least.trans_lt (by rwa [pow_add, Nat.mul_lt_mul_left (by decide)]))
  -- the leading three bytes, whether the number has them or not
  have leading : (if exponent ≤ 3 then UInt32.ofNat n <<< .ofNat (8 * (3 - exponent))
      else .ofNat ((n : Int) / 2 ^ (8 * (exponent - 3))).natAbs).toNat = n * 2 ^ 24 / 2 ^ (8 * exponent) := by
    split
    · rename_i short
      interval_cases exponent <;> simp [UInt32.toNat_shiftLeft, Nat.shiftLeft_eq] <;> omega
    · rename_i long
      have split : 8 * exponent = 8 * (exponent - 3) + 24 := by omega
      have floor : (n : Int) / 2 ^ (8 * (exponent - 3)) = (n / 2 ^ (8 * (exponent - 3)) : Nat) := by norm_cast
      have bound : n / 2 ^ (8 * (exponent - 3)) < 2 ^ 24 := by
        rw [Nat.div_lt_iff_lt_mul (by positivity), ← pow_add, Nat.add_comm, ← split]
        exact most
      rw [floor, Int.natAbs_natCast, UInt32.toNat_ofNat_of_lt' (bound.trans (by decide)), split, pow_add,
        Nat.mul_div_mul_right _ _ (by decide)]
  have low : 2 ^ 16 ≤ n * 2 ^ 24 / 2 ^ (8 * exponent) := by
    rw [Nat.le_div_iff_mul_le (by positivity)]
    omega
  have high : n * 2 ^ 24 / 2 ^ (8 * exponent) < 2 ^ 24 := by
    rw [Nat.div_lt_iff_lt_mul (by positivity)]
    omega
  have unsigned : ¬ (n : Int) < 0 := by omega
  simp only [bigToCompact, Int.natCast_eq_zero, positive.ne', if_false, unsigned, Int.natAbs_natCast, size]
  generalize (if exponent ≤ 3 then UInt32.ofNat n <<< .ofNat (8 * (3 - exponent))
      else .ofNat ((n : Int) / 2 ^ (8 * (exponent - 3))).natAbs) = mantissa at leading
  rw [← leading] at low high
  split
  · rename_i signed
    rw [ne_eq, and_signBit] at signed
    have shifted : (mantissa >>> 8).toNat = mantissa.toNat / 2 ^ 8 := by
      rw [UInt32.toNat_shiftRight, ← Nat.shiftRight_eq_div_pow]
      rfl
    refine ⟨exponent + 1, mantissa.toNat / 2 ^ 8, ⟨by omega, by omega, ?_⟩, ?_⟩
    · rw [leading, Nat.div_div_eq_div_mul, ← pow_add]
      rfl
    · rw [packCompact_toNat (by omega) (by omega), shifted]
  · rename_i unsigned
    rw [not_not, and_signBit] at unsigned
    exact ⟨exponent, mantissa.toNat, ⟨by omega, by omega, leading⟩, packCompact_toNat (by omega) high⟩

theorem bigToCompact_mono {m n : Nat} (le : m ≤ n) (small : n < 2 ^ 256) : bigToCompact m ≤ bigToCompact n := by
  obtain rfl | positive := Nat.eq_zero_or_pos m
  · exact UInt32.zero_le
  obtain ⟨exponent, mantissa, scaled, form⟩ := bigToCompact_scaled positive (le.trans_lt small)
  obtain ⟨exponent', mantissa', scaled', form'⟩ := bigToCompact_scaled (positive.trans_le le) small
  rw [UInt32.le_iff_toNat_le, form, form']
  obtain below | rfl := (scaled.exponent_mono scaled' le).lt_or_eq
  · have := scaled.small
    omega
  · have ordered : mantissa ≤ mantissa' := by
      rw [scaled.value, scaled'.value]
      exact Nat.div_le_div_right (Nat.mul_le_mul_right _ le)
    omega

theorem bigToCompact_approximates {n : Int} (nonneg : 0 ≤ n) (small : n < 2 ^ 256) :
    compactToBig (bigToCompact n) ≤ n ∧ 2 ^ 15 * (n - compactToBig (bigToCompact n)) ≤ n ∧
      (n < 2 ^ 23 → n - compactToBig (bigToCompact n) = 0) ∧
      (∀ m, n ≤ m → m < 2 ^ 256 → bigToCompact n ≤ bigToCompact m) ∧
      bigToCompact (compactToBig (bigToCompact n)) = bigToCompact n := by
  lift n to Nat using nonneg
  have mono : ∀ m : Int, n ≤ m → m < 2 ^ 256 → bigToCompact n ≤ bigToCompact m := by
    intro m le smallM
    lift m to Nat using (Int.natCast_nonneg n).trans le
    exact bigToCompact_mono (by omega) (by omega)
  obtain rfl | positive := Nat.eq_zero_or_pos n
  · exact ⟨by decide, by decide, fun _ => by decide, mono, by decide⟩
  obtain ⟨exponent, mantissa, scaled, form⟩ := bigToCompact_scaled positive (by omega)
  rw [compactToBig_of_toNat scaled.small form]
  obtain ⟨-, same⟩ | ⟨high, decoded, lower, upper⟩ := scaled.decoded
  · rw [same]
    exact ⟨le_rfl, by omega, by omega, mono, rfl⟩
  · have least := Nat.mul_le_mul_right (2 ^ (8 * exponent - 24)) scaled.least
    have unit : 2 ^ 8 ≤ 2 ^ (8 * exponent - 24) := Nat.pow_le_pow_right (by decide) (by omega)
    rw [decoded]
    refine ⟨by omega, by omega, by omega, mono, ?_⟩
    have again : Scaled (mantissa * 2 ^ (8 * exponent - 24)) exponent mantissa := by
      refine ⟨scaled.least, scaled.small, ?_⟩
      rw [mul_assoc, ← pow_add, Nat.sub_add_cancel (by omega), Nat.mul_div_cancel _ (by positivity)]
    obtain ⟨exponent', mantissa', scaled', form'⟩ := bigToCompact_scaled (by omega) (lower.trans_lt (by omega))
    obtain rfl := le_antisymm (again.exponent_mono scaled' le_rfl) (scaled'.exponent_mono again le_rfl)
    rw [← UInt32.toNat_inj, form, form', again.value, scaled'.value]

theorem bigToCompact_approximates_large : compactToBig (bigToCompact (2 ^ 255 + 1)) ≤ 2 ^ 255 + 1 :=
  (bigToCompact_approximates (by decide) (by decide)).1

def BlockTree.ancestors (tree : BlockTree) : Nat → Nat → List ChainNode
  | 0, _ => []
  | bound + 1, id =>
    match (tree.node id).parent with
    | none => []
    | some parent => tree.node parent :: tree.ancestors bound parent

/-- The ancestors of a node that are in memory, the parent first. -/
def BlockTree.ancestorsOf (tree : BlockTree) (id : Nat) : List ChainNode := tree.ancestors tree.cells.length id

def medianTimeBlocks : Nat := 11

def calcPastMedianTime (runtime : Runtime) (node : ChainNode) (ancestors : List ChainNode) : Int :=
  let timestamps := ((node :: ancestors).take medianTimeBlocks).map fun node => (node.timestamp.toNat : Int)
  (runtime.sort (· < ·) timestamps).getD (timestamps.length / 2) 0

/-- The parameters of the retarget rule, with the times in seconds. -/
structure RetargetRule where
  powLimit : Int
  powLimitBits : UInt32
  targetTimespan : Int
  minRetargetTimespan : Int
  maxRetargetTimespan : Int
  blocksPerRetarget : UInt32
  targetTimespan_pos : 0 < targetTimespan
  blocksPerRetarget_ne : blocksPerRetarget ≠ 0

namespace RetargetRule
variable (rule : RetargetRule)

def adjustedTimespan (actualTimespan : Int) : Int :=
  if actualTimespan < rule.minRetargetTimespan then rule.minRetargetTimespan
  else if rule.maxRetargetTimespan < actualTimespan then rule.maxRetargetTimespan
  else actualTimespan

def newTarget (bits : UInt32) (actualTimespan : Int) : Int :=
  min rule.powLimit (compactToBig bits * rule.adjustedTimespan actualTimespan / rule.targetTimespan)

/-- A node is given with its ancestors, the parent first. The timestamps are
subtracted as `uint32`. -/
def calcNextRequiredDifficulty (prevNode : ChainNode) (ancestors : List ChainNode) : Outcome String UInt32 :=
  if prevNode.height = 0 ∨ rule.powLimitBits = 0x207fffff then .ok rule.powLimitBits
  else if (prevNode.height + 1) % rule.blocksPerRetarget ≠ 0 then .ok prevNode.bits
  else
    let height := prevNode.height - rule.blocksPerRetarget + 1
    if prevNode.height < height then .fail "unable to obtain previous retarget block"
    else
      match (prevNode :: ancestors).find? (·.height = height) with
      | none => .crash "invalid memory address or nil pointer dereference"
      | some firstNode =>
        .ok (bigToCompact (rule.newTarget prevNode.bits (prevNode.timestamp - firstNode.timestamp).toNat))

section Window
variable {prevNode : ChainNode} {ancestors : List ChainNode}
  (heights : (prevNode :: ancestors).map (·.height.toNat) = (List.range (ancestors.length + 1)).reverse)

omit rule in
include heights in
theorem height_at {place : Nat} {node : ChainNode} (found : (prevNode :: ancestors)[place]? = some node) :
    node.height.toNat + place = ancestors.length := by
  obtain ⟨inside, -⟩ := List.getElem?_eq_some_iff.1 found
  rw [List.length_cons] at inside
  have height := congrArg (·[place]?) heights
  simp only [List.getElem?_map, found, Option.map_some] at height
  rw [List.getElem?_reverse (by simpa using inside), List.length_range, List.getElem?_range (by omega),
    Option.some.injEq] at height
  omega

omit rule in
include heights in
/-- The heights of a chain are distinct, so a search for one ends at the block of that height. -/
theorem find_height {place : Nat} {node : ChainNode} (found : (prevNode :: ancestors)[place]? = some node) :
    (prevNode :: ancestors).find? (·.height = node.height) = some node := by
  cases hit : (prevNode :: ancestors).find? (·.height = node.height) with
  | none => simpa using List.find?_eq_none.1 hit node (List.mem_of_getElem? found)
  | some other =>
    have same : other.height = node.height := by simpa using List.find?_some hit
    obtain ⟨there, reached⟩ := List.getElem?_of_mem (List.mem_of_find?_eq_some hit)
    have depth := height_at heights found
    have otherDepth := height_at heights reached
    rw [same] at otherDepth
    rw [← reached, ← found, show there = place by omega]

theorem blocksPerRetarget_le {height : UInt32} (due : (height + 1) % rule.blocksPerRetarget = 0) :
    rule.blocksPerRetarget.toNat ≤ height.toNat + 1 := by
  have zero := congrArg UInt32.toNat due
  rw [UInt32.toNat_mod, UInt32.toNat_add] at zero
  have bound := rule.blocksPerRetarget.toNat_lt
  rcases Nat.lt_or_ge (height.toNat + 1) (2 ^ 32) with small | large
  · rw [show (1 : UInt32).toNat = 1 by rfl, Nat.mod_eq_of_lt small] at zero
    exact Nat.le_of_dvd (by omega) (Nat.dvd_of_mod_eq_zero zero)
  · omega

include heights in
/-- A retarget that is due takes the first block of the window. -/
theorem calcNextRequiredDifficulty_due (positive : prevNode.height ≠ 0) (limit : rule.powLimitBits ≠ 0x207fffff)
    (due : (prevNode.height + 1) % rule.blocksPerRetarget = 0) : ∃ firstNode,
      (prevNode :: ancestors)[rule.blocksPerRetarget.toNat - 1]? = some firstNode ∧
      rule.calcNextRequiredDifficulty prevNode ancestors = .ok (bigToCompact (rule.newTarget prevNode.bits
        (prevNode.timestamp - firstNode.timestamp).toNat)) := by
  have blocks : 0 < rule.blocksPerRetarget.toNat :=
    Nat.pos_of_ne_zero fun zero => rule.blocksPerRetarget_ne (UInt32.toNat_inj.1 zero)
  have top : prevNode.height.toNat = ancestors.length := @height_at _ _ heights 0 prevNode rfl
  have window := rule.blocksPerRetarget_le due
  have height : (prevNode.height - rule.blocksPerRetarget + 1).toNat + (rule.blocksPerRetarget.toNat - 1) =
      ancestors.length := by
    rw [UInt32.toNat_add, UInt32.toNat_sub]
    have bound := prevNode.height.toNat_lt
    change (_ + 1) % _ + _ = _
    omega
  obtain ⟨firstNode, found⟩ : ∃ firstNode,
      (prevNode :: ancestors)[rule.blocksPerRetarget.toNat - 1]? = some firstNode :=
    ⟨_, List.getElem?_eq_getElem (by rw [List.length_cons]; omega)⟩
  have depth := height_at heights found
  have here : prevNode.height - rule.blocksPerRetarget + 1 = firstNode.height := UInt32.toNat_inj.1 (by omega)
  have earlier : ¬ prevNode.height < firstNode.height := by
    rw [UInt32.lt_iff_toNat_lt]
    omega
  refine ⟨firstNode, found, ?_⟩
  rw [calcNextRequiredDifficulty, if_neg (by simp [positive, limit]), if_neg (by simp [due])]
  simp only [here, earlier, if_false, find_height heights found]

end Window

omit rule in
theorem toNat_sub_signed (last first : UInt32) : ((last - first).toNat : Int) =
    (last.toNat : Int) - first.toNat + if first ≤ last then 0 else 2 ^ 32 := by
  have bound := first.toNat_lt
  have lastBound := last.toNat_lt
  rw [UInt32.toNat_sub]
  split <;> rename_i order <;> rw [UInt32.le_iff_toNat_le] at order <;> omega

/-- On a chain down to the genesis block, the rule takes the signed time between the first and
the last block of the window just when the last one is not earlier, or the time that is counted
instead, `2 ^ 32` seconds more, leads to the same target. -/
theorem calcNextRequiredDifficulty_signed {prevNode : ChainNode} {ancestors : List ChainNode}
    (heights : (prevNode :: ancestors).map (·.height.toNat) = (List.range (ancestors.length + 1)).reverse)
    (positive : prevNode.height ≠ 0) (limit : rule.powLimitBits ≠ 0x207fffff)
    (due : (prevNode.height + 1) % rule.blocksPerRetarget = 0) : ∃ firstNode,
      (prevNode :: ancestors)[rule.blocksPerRetarget.toNat - 1]? = some firstNode ∧
      (rule.calcNextRequiredDifficulty prevNode ancestors = .ok (bigToCompact (rule.newTarget prevNode.bits
          ((prevNode.timestamp.toNat : Int) - firstNode.timestamp.toNat))) ↔
        firstNode.timestamp ≤ prevNode.timestamp ∨ bigToCompact (rule.newTarget prevNode.bits
            ((prevNode.timestamp.toNat : Int) - firstNode.timestamp.toNat + 2 ^ 32)) =
          bigToCompact (rule.newTarget prevNode.bits
            ((prevNode.timestamp.toNat : Int) - firstNode.timestamp.toNat))) := by
  obtain ⟨firstNode, found, required⟩ := rule.calcNextRequiredDifficulty_due heights positive limit due
  refine ⟨firstNode, found, ?_⟩
  rw [required, toNat_sub_signed]
  by_cases ordered : firstNode.timestamp ≤ prevNode.timestamp
  · simp [ordered]
  · simp only [if_neg ordered, Except.ok.injEq, or_iff_right ordered]

def daily : RetargetRule where
  powLimit := 2 ^ 252
  powLimitBits := 0x1f0008ff
  targetTimespan := 240
  minRetargetTimespan := 60
  maxRetargetTimespan := 960
  blocksPerRetarget := 2
  targetTimespan_pos := by decide
  blocksPerRetarget_ne := by decide

/-- The nodes of a chain with the given timestamps, the last one first. -/
def nodesAt : List UInt32 → List ChainNode
  | [] => []
  | timestamp :: rest =>
    { (default : ChainNode) with
      height := UInt32.ofNat rest.length
      timestamp
      bits := if rest.length < 2 then 0x1f0008ff else 0x1e023fc0 } :: nodesAt rest

def nodeAt (timestamp : UInt32) (earlier : List UInt32) : ChainNode := (nodesAt (timestamp :: earlier)).headI

theorem calcNextRequiredDifficulty_onTime :
    daily.calcNextRequiredDifficulty (nodeAt 300 [100, 10, 0]) (nodesAt [100, 10, 0]) = .ok 0x1e01dfca := by
  obtain ⟨firstNode, found, retargets⟩ := @calcNextRequiredDifficulty_signed daily (nodeAt 300 [100, 10, 0])
    (nodesAt [100, 10, 0]) rfl (by decide) (by decide) (by decide)
  cases found
  exact retargets.2 (.inl (by decide))

/-- A last block that is one second earlier than the first one of its window makes the
target four times as large instead of a quarter. Both are later than the blocks before them. -/
theorem calcNextRequiredDifficulty_wraps :
    daily.calcNextRequiredDifficulty (nodeAt 99 [100, 10, 0]) (nodesAt [100, 10, 0]) = .ok 0x1e08ff00 ∧
      bigToCompact (daily.newTarget 0x1e023fc0 (99 - 100)) = 0x1e008ff0 ∧
      compactToBig 0x1e023fc0 < compactToBig 0x1e08ff00 := by
  decide +kernel

end RetargetRule
end Elastos.Blockchain
