import Mathlib

/-! Totals of signed 64-bit values, which wrap modulo `2 ^ 64`, and the arithmetic of `float64`. A finite
double is the rational number it stands for; the range of exponents is not bounded. -/
set_option autoImplicit false
namespace Elastos.Go
open List

/-- The value of `total` after `for _, v := range values { total += v }`. -/
def wrappedSum (values : List Int64) : Int64 :=
  values.foldl (fun total value => total + value) 0

/-- The same total over unbounded integers. -/
def exactSum (values : List Int64) : Int :=
  (values.map Int64.toInt).sum

@[simp] theorem exactSum_nil : exactSum [] = 0 := rfl

variable (value : Int64) {values : List Int64}

@[simp] theorem exactSum_cons (rest : List Int64) : exactSum (value :: rest) = value.toInt + exactSum rest := rfl

@[simp] theorem exactSum_append (left right : List Int64) :
    exactSum (left ++ right) = exactSum left + exactSum right := by
  simp [exactSum]

theorem exactSum_perm {left right : List Int64} (perm : left.Perm right) : exactSum left = exactSum right :=
  (perm.map Int64.toInt).sum_eq

theorem exactSum_nonneg (nonneg : ∀ value ∈ values, 0 ≤ value.toInt) : 0 ≤ exactSum values := by
  refine sum_nonneg fun amount member => ?_
  obtain ⟨value, valueMember, rfl⟩ := mem_map.1 member
  exact nonneg value valueMember

theorem toInt_le_exactSum (nonneg : ∀ value ∈ values, 0 ≤ value.toInt) {value : Int64}
    (member : value ∈ values) : value.toInt ≤ exactSum values := by
  refine single_le_sum (fun amount amountMember => ?_) _ (mem_map_of_mem member)
  obtain ⟨other, otherMember, rfl⟩ := mem_map.1 amountMember
  exact nonneg other otherMember

theorem exactSum_le_of_sublist {part : List Int64} (sublist : part.Sublist values)
    (nonneg : ∀ value ∈ values, 0 ≤ value.toInt) : exactSum part ≤ exactSum values := by
  refine (sublist.map Int64.toInt).sum_le_sum fun amount member => ?_
  obtain ⟨value, valueMember, rfl⟩ := mem_map.1 member
  exact nonneg value valueMember

/-- Every machine operation agrees with the exact one up to a multiple of the
modulus. -/
theorem exists_bmod_eq (exact : Int) : ∃ wraps : Int, exact.bmod (2 ^ 64) = exact + 18446744073709551616 * wraps := by
  refine ⟨-((exact - exact.bmod (2 ^ 64)) / 18446744073709551616), ?_⟩
  have multiple : (18446744073709551616 : Int) ∣ exact - exact.bmod (2 ^ 64) := Int.dvd_self_sub_bmod
  obtain ⟨quotient, equal⟩ := multiple
  omega

theorem foldl_add_toInt (values : List Int64) (start : Int64) :
    (values.foldl (fun total value => total + value) start).toInt = (start.toInt + exactSum values).bmod (2 ^ 64) := by
  induction values generalizing start with
  | nil =>
    have bounds := And.intro (Int64.le_toInt start) (Int64.toInt_lt start)
    simp only [foldl_nil, exactSum_nil, Int.add_zero]
    exact (Int.bmod_eq_of_le (by omega) (by omega)).symm
  | cons value rest ih =>
    rw [foldl_cons, ih, Int64.toInt_add, exactSum_cons, Int.bmod_add_bmod, Int.add_assoc]

theorem wrappedSum_toInt (values : List Int64) : (wrappedSum values).toInt = (exactSum values).bmod (2 ^ 64) := by
  simpa [wrappedSum] using foldl_add_toInt values 0

theorem wrappedSum_eq (values : List Int64) : wrappedSum values = .ofInt (exactSum values) := by
  rw [← Int64.toInt_inj, wrappedSum_toInt, Int64.toInt_ofInt]
  rfl

theorem wrappedSum_map_eq {α : Type} {items : List α} {wrapped : α → Int64} {exact : α → Int}
    (each : ∀ item, wrapped item = .ofInt (exact item)) :
    wrappedSum (items.map wrapped) = .ofInt (items.map exact).sum := by
  rw [wrappedSum_eq]
  induction items with
  | nil => rfl
  | cons item rest ih => rw [map_cons, exactSum_cons, Int64.ofInt_add, ih, Int64.ofInt_toInt, each, ← Int64.ofInt_add,
      map_cons, sum_cons]

theorem turns {machine : Int64} {exact : Int} (same : machine = .ofInt exact) :
    ∃ wraps : Int, machine.toInt = exact + 18446744073709551616 * wraps := by
  rw [same, Int64.toInt_ofInt]
  exact exists_bmod_eq exact

theorem sub_turns (left right : Int64) : ∃ wraps : Int, (left - right).toInt =
        left.toInt - right.toInt + 18446744073709551616 * wraps := by
  rw [Int64.toInt_sub]
  exact exists_bmod_eq _

theorem add_turns (left right : Int64) : ∃ wraps : Int, (left + right).toInt =
        left.toInt + right.toInt + 18446744073709551616 * wraps := by
  rw [Int64.toInt_add]
  exact exists_bmod_eq _

theorem wrappedSum_eq_exactSum (low : -9223372036854775808 ≤ exactSum values)
    (high : exactSum values < 9223372036854775808) : (wrappedSum values).toInt = exactSum values := by
  rw [wrappedSum_toInt]
  exact Int.bmod_eq_of_le (by omega) (by omega)

theorem sub_eq_exact {left right : Int64} (low : -9223372036854775808 ≤ left.toInt - right.toInt)
    (high : left.toInt - right.toInt < 9223372036854775808) : (left - right).toInt = left.toInt - right.toInt := by
  rw [Int64.toInt_sub]
  exact Int.bmod_eq_of_le (by omega) (by omega)

@[simp] theorem wrappedSum_singleton : wrappedSum [value] = value := by
  simp [wrappedSum]

theorem wrappedSum_append (left right : List Int64) :
    wrappedSum (left ++ right) = wrappedSum left + wrappedSum right := by
  simp only [wrappedSum_eq, exactSum_append, Int64.ofInt_add]

theorem wrappedSum_cons (rest : List Int64) : wrappedSum (value :: rest) = value + wrappedSum rest := by
  rw [← singleton_append, wrappedSum_append, wrappedSum_singleton]

abbrev Float64 := ℚ

namespace Float64
variable (numerator denominator : Nat)

/-- The nearest natural number to a fraction, a tie going to the even one. -/
def nearestEven : Nat :=
  let quotient := numerator / denominator
  let rest := numerator % denominator
  if 2 * rest < denominator then quotient
  else if denominator < 2 * rest then quotient + 1
  else if quotient % 2 = 0 then quotient
  else quotient + 1

/-- The exponent of the last of 53 significant bits of a positive fraction. -/
def lastBit : Int :=
  let guess : Int := (numerator.log2 : Int) - (denominator.log2 : Int)
  let tooLarge : Bool :=
    if 0 ≤ guess then numerator < denominator * 2 ^ guess.toNat
    else numerator * 2 ^ (-guess).toNat < denominator
  (if tooLarge then guess - 1 else guess) - 52

def roundPositive : ℚ :=
  let exponent := lastBit numerator denominator
  if 0 ≤ exponent then
    (nearestEven numerator (denominator * 2 ^ exponent.toNat) * 2 ^ exponent.toNat : Nat)
  else
    mkRat (nearestEven (numerator * 2 ^ (-exponent).toNat) denominator)
      (2 ^ (-exponent).toNat)

def round (exact : ℚ) : Float64 :=
  if exact.num = 0 then 0
  else if 0 < exact.num then roundPositive exact.num.natAbs exact.den
  else -roundPositive exact.num.natAbs exact.den

def ofInt (value : Int) : Float64 := round value
variable (left right : Float64)

def sub : Float64 := round (left - right)
def mul : Float64 := round (left * right)
def div : Float64 := round (left / right)

/-- Conversion to an integer drops the fraction. -/
def truncate (value : Float64) : Int :=
  if 0 ≤ value.num then value.floor else value.ceil

end Float64
end Elastos.Go
