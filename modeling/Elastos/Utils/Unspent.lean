import Mathlib

/-! Entries that are created once and spent at most once, the weight of those that are left, and amounts
that cover the claims of every finite set of holders. -/
set_option autoImplicit false
namespace Elastos.Utils
open List
variable {ι : Type}

def Covers (amount : Int) (claim : ι → Int) : Prop :=
  ∀ holders : Finset ι, ∑ holder ∈ holders, claim holder ≤ amount

namespace Covers
variable {amount : Int} {claim : ι → Int}

theorem nonneg (covers : Covers amount claim) : 0 ≤ amount := by
  simpa using covers ∅

theorem mono {larger : Int} {smaller : ι → Int} (covers : Covers amount claim)
    (more : amount ≤ larger) (fewer : ∀ holder, smaller holder ≤ claim holder) : Covers larger smaller := by
  intro holders
  calc ∑ holder ∈ holders, smaller holder
      ≤ ∑ holder ∈ holders, claim holder := Finset.sum_le_sum fun holder _ => fewer holder
    _ ≤ amount := covers holders
    _ ≤ larger := more

/-- When one claim changes, the amount has to change by as much and no more. -/
theorem update [DecidableEq ι] (covers : Covers amount claim) (holder : ι) {new : Int} (nonneg : 0 ≤ new) :
    Covers (amount + new - claim holder) (Function.update claim holder new) := by
  intro holders
  have others : ∑ other ∈ holders.erase holder, Function.update claim holder new other =
      ∑ other ∈ holders.erase holder, claim other :=
    Finset.sum_congr rfl fun other member =>
      Function.update_of_ne (Finset.ne_of_mem_erase member) _ _
  have covered := covers (insert holder (holders.erase holder))
  rw [Finset.sum_insert (Finset.notMem_erase holder holders)] at covered
  by_cases member : holder ∈ holders
  · rw [← Finset.add_sum_erase _ _ member, others, Function.update_self]
    linarith
  · rw [Finset.erase_eq_of_notMem member] at others covered
    rw [others]
    linarith

theorem of_list [DecidableEq ι] {all : List ι} (nodup : all.Nodup) (claim_nonneg : ∀ holder, 0 ≤ claim holder)
    (others : ∀ holder, holder ∉ all → claim holder = 0) : Covers (all.map claim).sum claim := by
  intro holders
  calc ∑ holder ∈ holders, claim holder
      = ∑ holder ∈ holders.filter (· ∈ all), claim holder := by
        refine (Finset.sum_filter_of_ne fun holder _ nonzero => ?_).symm
        by_contra absent
        exact nonzero (others holder absent)
    _ ≤ ∑ holder ∈ all.toFinset, claim holder := by
        refine Finset.sum_le_sum_of_subset_of_nonneg (fun holder member => ?_)
          fun holder _ _ => claim_nonneg holder
        simpa using (Finset.mem_filter.1 member).2
    _ = (all.map claim).sum := List.sum_toFinset claim nodup

end Covers

universe u v
variable {ι : Type u} {α : Type v} [DecidableEq ι]

def unspent (created : List (ι × α)) (spent : List ι) : List (ι × α) :=
  created.filter fun entry => entry.1 ∉ spent

def weigh (weight : α → Int) (entries : List (ι × α)) : Int :=
  (entries.map fun entry => weight entry.2).sum

variable {weight : α → Int} {created new : List (ι × α)} {spent newly : List ι}
omit [DecidableEq ι] in
@[simp] theorem weigh_nil : weigh weight ([] : List (ι × α)) = 0 := rfl

omit [DecidableEq ι] in
@[simp] theorem weigh_cons (entry : ι × α) (rest : List (ι × α)) :
    weigh weight (entry :: rest) = weight entry.2 + weigh weight rest :=
  sum_cons

omit [DecidableEq ι] in
@[simp] theorem weigh_append (left right : List (ι × α)) :
    weigh weight (left ++ right) = weigh weight left + weigh weight right := by
  simp [weigh]

omit [DecidableEq ι] in
theorem weigh_nonneg (nonneg : ∀ entry ∈ created, 0 ≤ weight entry.2) : 0 ≤ weigh weight created := by
  refine sum_nonneg fun amount member => ?_
  obtain ⟨entry, entryMember, rfl⟩ := mem_map.1 member
  exact nonneg entry entryMember

omit [DecidableEq ι] in
theorem weigh_eq_zero (none : ∀ entry ∈ created, weight entry.2 = 0) : weigh weight created = 0 := by
  refine sum_eq_zero fun amount member => ?_
  obtain ⟨entry, entryMember, rfl⟩ := mem_map.1 member
  exact none entry entryMember

omit [DecidableEq ι] in
theorem weigh_congr {other : α → Int} (same : ∀ entry ∈ created, weight entry.2 = other entry.2) :
    weigh weight created = weigh other created :=
  congrArg List.sum (map_congr_left same)

omit [DecidableEq ι] in
theorem weigh_filter_add (weight : α → Int) (created : List (ι × α)) (keep : ι × α → Bool) :
    weigh weight (created.filter keep) + weigh weight (created.filter fun entry => !keep entry) =
      weigh weight created := by
  induction created with
  | nil => rfl
  | cons entry rest ih =>
    cases kept : keep entry with
    | true =>
      rw [filter_cons_of_pos kept, filter_cons_of_neg (by simp [kept])]
      simp only [weigh_cons]
      omega
    | false =>
      rw [filter_cons_of_neg (by simp [kept]), filter_cons_of_pos (by simp [kept])]
      simp only [weigh_cons]
      omega

omit [DecidableEq ι] in
theorem weigh_filter (keep : ι × α → Bool) : weigh weight (created.filter keep) =
      (created.map fun entry => if keep entry then weight entry.2 else 0).sum := by
  induction created with
  | nil => rfl
  | cons entry rest ih =>
    rw [map_cons, sum_cons, ← ih]
    cases kept : keep entry with
    | true => rw [filter_cons_of_pos kept, weigh_cons, if_pos rfl]
    | false => rw [filter_cons_of_neg (by simp [kept]), if_neg (by simp), Int.zero_add]

omit [DecidableEq ι] in
/-- Entries without weight may be left out. -/
theorem weigh_filter_congr {keep other : ι × α → Bool}
    (same : ∀ entry ∈ created, keep entry = other entry ∨ weight entry.2 = 0) :
    weigh weight (created.filter keep) = weigh weight (created.filter other) := by
  rw [weigh_filter, weigh_filter]
  refine congrArg List.sum (map_congr_left fun entry member => ?_)
  rcases same entry member with equal | weightless
  · rw [equal]
  · rw [weightless, ite_self, ite_self]

/-- What is newly spent was unspent, and what is newly created is. -/
theorem weigh_unspent_append (fresh : ∀ entry ∈ new, entry.1 ∉ spent ∧ entry.1 ∉ newly)
    (once : ∀ entry ∈ created, entry.1 ∈ newly → entry.1 ∉ spent) :
    weigh weight (unspent (created ++ new) (spent ++ newly)) = weigh weight (unspent created spent) + weigh weight new -
        weigh weight (created.filter fun entry => entry.1 ∈ newly) := by
  have newKept : new.filter (·.1 ∉ spent ++ newly) = new :=
    filter_eq_self.2 fun entry member => by simpa using fresh entry member
  have split := weigh_filter_add weight (unspent created spent) fun entry => entry.1 ∈ newly
  have spentNow : (unspent created spent).filter (·.1 ∈ newly) =
      created.filter fun entry => entry.1 ∈ newly := by
    rw [unspent, filter_filter]
    refine filter_congr fun entry member => ?_
    by_cases isNew : entry.1 ∈ newly
    · simp [isNew, once entry member isNew]
    · simp [isNew]
  have left : (unspent created spent).filter (fun entry => !(entry.1 ∈ newly : Bool)) =
      created.filter fun entry => entry.1 ∉ spent ++ newly := by
    rw [unspent, filter_filter]
    refine filter_congr fun entry _ => ?_
    simp [Bool.and_comm]
  rw [spentNow, left] at split
  rw [unspent, filter_append, newKept, weigh_append]
  omega

/-- The weights of the spent entries, looked up one after the other. -/
theorem weigh_filter_mem (once : newly.Nodup) : weigh weight (created.filter fun entry => entry.1 ∈ newly) =
      (newly.map fun key => weigh weight (created.filter fun entry => entry.1 = key)).sum := by
  induction newly with
  | nil => simp [weigh]
  | cons key rest ih =>
    rw [nodup_cons] at once
    have split := weigh_filter_add weight (created.filter fun entry => entry.1 ∈ key :: rest) fun entry => entry.1 = key
    rw [filter_filter, filter_filter] at split
    have here : created.filter (fun entry => (entry.1 = key : Bool) && (entry.1 ∈ key :: rest)) =
        created.filter fun entry => entry.1 = key :=
      filter_congr fun entry _ => by by_cases same : entry.1 = key <;> simp [same]
    have others : created.filter (fun entry => !(entry.1 = key : Bool) && (entry.1 ∈ key :: rest)) =
        created.filter fun entry => entry.1 ∈ rest := by
      refine filter_congr fun entry _ => ?_
      by_cases same : entry.1 = key
      · simp [same, once.1]
      · simp [same]
    rw [here, others, ih once.2] at split
    rw [map_cons, sum_cons]
    exact split.symm

theorem weigh_filter_eq (unique : (created.map Prod.fst).Nodup) {key : ι} {value : α}
    (member : (key, value) ∈ created) : weigh weight (created.filter fun entry => entry.1 = key) = weight value := by
  induction created with
  | nil => cases member
  | cons entry rest ih =>
    rw [map_cons, nodup_cons] at unique
    rcases mem_cons.1 member with rfl | later
    · have none : rest.filter (·.1 = key) = [] := by
        refine filter_eq_nil_iff.2 fun other otherMember same => ?_
        exact unique.1 (mem_map.2 ⟨other, otherMember, of_decide_eq_true same⟩)
      simp [none]
    · have different : entry.1 ≠ key := by
        intro same
        exact unique.1 (mem_map.2 ⟨_, later, same.symm⟩)
      rw [filter_cons_of_neg (by simp [different]), ih unique.2 later]

theorem weigh_filter_absent {key : ι} (absent : key ∉ created.map Prod.fst) :
    weigh weight (created.filter fun entry => entry.1 = key) = 0 := by
  have none : created.filter (·.1 = key) = [] := by
    refine filter_eq_nil_iff.2 fun entry member same => ?_
    exact absent (mem_map.2 ⟨entry, member, of_decide_eq_true same⟩)
  rw [none, weigh_nil]

end Elastos.Utils
