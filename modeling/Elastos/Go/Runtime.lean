import Elastos.Go.Arithmetic

/-! Maps and sorts of Go, whose order the language leaves open, and the values of a map under the
operations on it. -/
set_option autoImplicit false
namespace Elastos.Go

/-- A map. The order of the entries has no meaning for the program. -/
abbrev GoMap (κ ν : Type) := AList fun _ : κ => ν

namespace GoMap
variable {κ ν : Type} (map : GoMap κ ν)

def pairs (map : GoMap κ ν) : List (κ × ν) :=
  map.entries.map fun entry => (entry.1, entry.2)

def values (map : GoMap κ ν) : List ν :=
  map.entries.map fun entry => entry.2

def modify [DecidableEq κ] (map : GoMap κ ν) (key : κ) (change : ν → ν) : GoMap κ ν :=
  match map.lookup key with
  | some value => map.insert key (change value)
  | none => map

/-- The map that a list of assignments builds, later ones overwriting. -/
def ofPairs [DecidableEq κ] (pairs : List (κ × ν)) : GoMap κ ν :=
  pairs.foldl (fun map pair => map.insert pair.1 pair.2) ∅

theorem lookup_insert_eq [DecidableEq κ] (key other : κ) (value : ν) :
    (map.insert key value).lookup other = if other = key then some value else map.lookup other := by
  split
  · rename_i same
    rw [same, AList.lookup_insert]
  · rename_i different
    exact AList.lookup_insert_ne different

theorem lookup_erase_eq [DecidableEq κ] (key other : κ) :
    (map.erase key).lookup other = if other = key then none else map.lookup other := by
  split
  · rename_i same
    rw [same, AList.lookup_erase]
  · rename_i different
    exact AList.lookup_erase_ne different

/-- Maps with the same entries, however they are listed. -/
def Same [DecidableEq κ] (left right : GoMap κ ν) : Prop :=
  ∀ key, left.lookup key = right.lookup key

instance [DecidableEq κ] [DecidableEq ν] (left right : GoMap κ ν) : Decidable (Same left right) :=
  decidable_of_iff (∀ key ∈ left.keys ++ right.keys, left.lookup key = right.lookup key)
    ⟨fun listed key => by
      by_cases present : key ∈ left.keys ++ right.keys
      · exact listed key present
      · simp only [List.mem_append, not_or] at present
        rw [AList.lookup_eq_none.2 present.1, AList.lookup_eq_none.2 present.2], fun same key _ => same key⟩

@[simp] theorem pairs_length : (pairs map).length = map.entries.length := by
  simp [pairs]

theorem mem_pairs_iff [DecidableEq κ] {map : GoMap κ ν} {key : κ} {value : ν} :
    (key, value) ∈ pairs map ↔ map.lookup key = some value := by
  rw [← Option.mem_def, AList.mem_lookup_iff]
  constructor
  · intro member
    obtain ⟨entry, entryMember, equal⟩ := List.mem_map.1 member
    cases equal
    exact entryMember
  · intro member
    exact List.mem_map.2 ⟨⟨key, value⟩, member, rfl⟩

theorem pairs_keys_nodup : ((pairs map).map Prod.fst).Nodup := by
  have nodup : map.entries.keys.Nodup := map.nodupKeys
  simpa [pairs, List.keys, Function.comp_def] using nodup

theorem pairs_nodup : (pairs map).Nodup :=
  (pairs_keys_nodup map).of_map _

/-- Entries taken from a map list it completely when there are as many of them as
the map has and no key is repeated. -/
theorem perm_pairs_iff {map : GoMap κ ν} {items : List (κ × ν)} : items.Perm (pairs map) ↔
      items.length = map.entries.length ∧ (∀ item ∈ items, item ∈ pairs map) ∧ (items.map Prod.fst).Nodup := by
  constructor
  · intro perm
    refine ⟨?_, fun item member => perm.mem_iff.1 member, ?_⟩
    · rw [perm.length_eq, pairs_length]
    · exact (perm.map Prod.fst).nodup_iff.2 (pairs_keys_nodup map)
  · rintro ⟨sameLength, members, nodup⟩
    have contained := List.subperm_of_subset (nodup.of_map _) members
    exact contained.perm_of_length_le (by rw [pairs_length, sameLength])

end GoMap

/-- The choices a run of a Go program may make. -/
structure Runtime where
  iterate : {α : Type} → List α → List α
  iterate_perm : ∀ {α : Type} (items : List α), (iterate items).Perm items
  sort : {α : Type} → (α → α → Bool) → List α → List α
  sort_perm : ∀ {α : Type} (less : α → α → Bool) (items : List α), (sort less items).Perm items
  sort_sorted : ∀ {α : Type} (less : α → α → Bool) (items : List α),
    (∀ a b c, less a b = false → less b c = false → less a c = false) → (∀ a b, less a b = true → less b a = false) →
    (sort less items).Pairwise fun a b => less b a = false

namespace Runtime

/-- A runtime that iterates in insertion order and sorts by insertion. -/
def insertion : Runtime where
  iterate items := items
  iterate_perm items := List.Perm.refl items
  sort less items := items.insertionSort fun a b => less b a = false
  sort_perm less items := List.perm_insertionSort _ items
  sort_sorted := by
    intro α less items transitive asymmetric
    have isTrans : IsTrans α fun a b => less b a = false := ⟨fun a b c first second => transitive c b a second first⟩
    have isTotal : Std.Total fun a b => less b a = false := by
      refine ⟨fun a b => ?_⟩
      cases order : less a b with
      | true => exact .inl (asymmetric a b order)
      | false => exact .inr rfl
    exact List.pairwise_insertionSort _ items

end Runtime
end Elastos.Go

namespace Elastos.Go.GoMap
open List

section Total
variable {κ : Type} {entries : List (κ × Int64)} {key : κ}

def total (map : GoMap κ Int64) : Int := exactSum (values map)

theorem total_eq_pairs (map : GoMap κ Int64) : total map = exactSum ((pairs map).map Prod.snd) := by
  simp [total, values, pairs, Function.comp_def]

/-- A list that has every entry of the map among non-negative ones has at least the
total of the map. -/
theorem total_le_exactSum {map : GoMap κ Int64} (contained : ∀ entry ∈ pairs map, entry ∈ entries)
    (nonneg : ∀ entry ∈ entries, 0 ≤ entry.2.toInt) : total map ≤ exactSum (entries.map Prod.snd) := by
  obtain ⟨part, perm, sublist⟩ := subperm_of_subset (pairs_nodup map) contained
  rw [total_eq_pairs, ← exactSum_perm (perm.map Prod.snd)]
  refine exactSum_le_of_sublist (sublist.map Prod.snd) fun value member => ?_
  obtain ⟨entry, entryMember, rfl⟩ := mem_map.1 member
  exact nonneg entry entryMember

variable [DecidableEq κ] {map : GoMap κ Int64}

theorem total_nonneg (nonneg : ∀ key value, map.lookup key = some value → 0 ≤ value.toInt) : 0 ≤ total map := by
  rw [total_eq_pairs]
  refine exactSum_nonneg fun value member => ?_
  obtain ⟨⟨key, _⟩, entryMember, rfl⟩ := mem_map.1 member
  exact nonneg key _ (mem_pairs_iff.1 entryMember)

theorem total_le_total {larger : GoMap κ Int64} (contained : ∀ key value, map.lookup key = some value →
      larger.lookup key = some value)
    (nonneg : ∀ key value, larger.lookup key = some value → 0 ≤ value.toInt) : total map ≤ total larger := by
  rw [total_eq_pairs larger]
  refine total_le_exactSum ?_ ?_
  · rintro ⟨key, value⟩ member
    exact mem_pairs_iff.2 (contained key value (mem_pairs_iff.1 member))
  · rintro ⟨key, value⟩ member
    exact nonneg key value (mem_pairs_iff.1 member)

theorem total_insert {value : Int64} (fresh : map.lookup key = none) :
    total (map.insert key value) = value.toInt + total map := by
  rw [total, values, AList.entries_insert_of_notMem (AList.lookup_eq_none.1 fresh)]
  rfl

theorem total_assign (nodup : (entries.map Prod.fst).Nodup) (fresh : ∀ entry ∈ entries, map.lookup entry.1 = none) :
    total (entries.foldl (fun current entry => current.insert entry.1 entry.2) map) =
      total map + exactSum (entries.map Prod.snd) := by
  induction entries generalizing map with
  | nil => simp
  | cons entry rest ih =>
    simp only [map_cons, nodup_cons] at nodup
    have restFresh : ∀ other ∈ rest, (map.insert entry.1 entry.2).lookup other.1 = none := by
      intro other member
      have different : other.1 ≠ entry.1 := fun same =>
        nodup.1 (same ▸ mem_map_of_mem member)
      rw [AList.lookup_insert_ne different]
      exact fresh other (mem_cons_of_mem _ member)
    rw [foldl_cons, ih nodup.2 restFresh, total_insert (fresh entry mem_cons_self)]
    simp only [map_cons, exactSum_cons]
    omega

theorem lookup_assign {ν : Type} {entries : List (κ × ν)} {start : GoMap κ ν} {value : ν}
    (found : (entries.foldl (fun current entry => current.insert entry.1 entry.2)
      start).lookup key = some value) : (key, value) ∈ entries ∨ start.lookup key = some value := by
  induction entries generalizing start with
  | nil => exact .inr found
  | cons entry rest ih =>
    rcases ih found with member | found
    · exact .inl (mem_cons_of_mem _ member)
    by_cases same : key = entry.1
    · subst same
      rw [AList.lookup_insert, Option.some.injEq] at found
      subst found
      exact .inl mem_cons_self
    · rw [AList.lookup_insert_ne same] at found
      exact .inr found

end Total

variable {κ ν : Type} {map : GoMap κ ν} {key : κ} {value other : ν}

theorem not_mem_values_empty : value ∉ values (∅ : GoMap κ ν) := by
  intro member
  cases member

theorem mem_values_of_mem_pairs {pair : κ × ν} (member : pair ∈ pairs map) : pair.2 ∈ values map := by
  obtain ⟨entry, listed, rfl⟩ := mem_map.1 member
  exact mem_map.2 ⟨entry, listed, rfl⟩

theorem values_length (map : GoMap κ ν) : (values map).length = map.entries.length :=
  length_map _

variable [DecidableEq κ] {pairs : List (κ × ν)}

theorem mem_values_iff : value ∈ values map ↔ ∃ key, map.lookup key = some value := by
  constructor
  · intro member
    obtain ⟨entry, listed, rfl⟩ := mem_map.1 member
    exact ⟨entry.1, mem_pairs_iff.1 (mem_map.2 ⟨entry, listed, rfl⟩)⟩
  · rintro ⟨key, found⟩
    obtain ⟨entry, listed, equal⟩ := mem_map.1 (mem_pairs_iff.2 found)
    exact mem_map.2 ⟨entry, listed, (Prod.ext_iff.1 equal).2⟩

theorem mem_values_insert (member : value ∈ values (map.insert key other)) : value = other ∨ value ∈ values map := by
  obtain ⟨found, present⟩ := mem_values_iff.1 member
  rw [lookup_insert_eq] at present
  split at present
  · exact .inl (Option.some.inj present).symm
  · exact .inr (mem_values_iff.2 ⟨found, present⟩)

theorem mem_values_erase (member : value ∈ values (map.erase key)) : value ∈ values map := by
  obtain ⟨found, present⟩ := mem_values_iff.1 member
  rw [lookup_erase_eq] at present
  split at present
  · cases present
  · exact mem_values_iff.2 ⟨found, present⟩

theorem lookup_foldl_insert
    (found : (pairs.foldl (fun map pair => map.insert pair.1 pair.2) map).lookup key = some value) :
    map.lookup key = some value ∨ (key, value) ∈ pairs := by
  induction pairs generalizing map with
  | nil => exact .inl found
  | cons pair rest ih =>
    obtain inserted | listed := ih found
    · rw [lookup_insert_eq] at inserted
      split at inserted
      case isTrue same =>
        cases inserted
        exact .inr (same ▸ mem_cons_self)
      case isFalse => exact .inl inserted
    · exact .inr (mem_cons_of_mem _ listed)

theorem mem_of_lookup_ofPairs (found : (ofPairs pairs).lookup key = some value) : (key, value) ∈ pairs := by
  obtain impossible | listed := lookup_foldl_insert found
  · cases impossible
  · exact listed

theorem mem_values_ofPairs (member : value ∈ values (ofPairs pairs)) : ∃ pair ∈ pairs, pair.2 = value := by
  obtain ⟨key, found⟩ := mem_values_iff.1 member
  exact ⟨(key, value), mem_of_lookup_ofPairs found, rfl⟩

theorem length_insert_le (map : GoMap κ ν) (key : κ) (value : ν) :
    (map.insert key value).entries.length ≤ map.entries.length + 1 := by
  change (List.kinsert key value map.entries).length ≤ _
  rw [kinsert_def, length_cons]
  exact Nat.succ_le_succ (List.Sublist.length_le (kerase_sublist key map.entries))

theorem length_insert_of_absent (value : ν) (absent : map.lookup key = none) :
    (map.insert key value).entries.length = map.entries.length + 1 := by
  change (List.kinsert key value map.entries).length = _
  have missing : key ∉ List.keys map.entries := fun listed =>
    AList.lookup_eq_none.1 absent (AList.mem_keys.2 listed)
  rw [kinsert_def, length_cons, kerase_of_notMem_keys missing]

theorem mem_values_insert_of_absent (absent : map.lookup key = none) (other : ν)
    (member : value ∈ values map) : value ∈ values (map.insert key other) := by
  obtain ⟨found, present⟩ := mem_values_iff.1 member
  refine mem_values_iff.2 ⟨found, ?_⟩
  rw [lookup_insert_eq, if_neg, present]
  rintro rfl
  rw [absent] at present
  cases present

/-- Values that tell their keys apart are themselves apart. -/
theorem values_map_nodup {μ : Type} {label : ν → μ} (apart : ∀ first second, ∀ one two, map.lookup first = some one →
      map.lookup second = some two → label one = label two → first = second) : ((values map).map label).Nodup := by
  have same : (values map).map label = (pairs map).map fun pair => label pair.2 := by
    simp [values, pairs]
  rw [same]
  apply (pairs_nodup map).map_on
  rintro ⟨first, one⟩ firstListed ⟨second, two⟩ secondListed equal
  have firstFound := mem_pairs_iff.1 firstListed
  have secondFound := mem_pairs_iff.1 secondListed
  have sameKey := apart first second one two firstFound secondFound equal
  subst sameKey
  rw [firstFound] at secondFound
  rw [Option.some.inj secondFound]

end Elastos.Go.GoMap
