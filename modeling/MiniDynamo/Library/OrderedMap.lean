import Std.Data.ExtTreeMap
import Mathlib.Algebra.Order.BigOperators.Group.List
import Mathlib.Algebra.Order.Ring.Nat
import Mathlib.Data.List.Perm.Subperm

/-! `std::map`: a finite map iterated in key order, equal to another exactly when
the two hold the same keys with the same values. -/

namespace MiniDynamo

abbrev OrderedMap (Key Value : Type) [Ord Key] := Std.ExtTreeMap Key Value compare

namespace OrderedMap

variable {Key Value : Type} [Ord Key] [Std.TransOrd Key] [Std.LawfulEqOrd Key] [DecidableEq Key]
variable {table : OrderedMap Key Value} {key other : Key} {value : Value}

theorem lookup_insert : (table.insert key value)[other]? = if key = other then some value else table[other]? := by
  rw [Std.ExtTreeMap.getElem?_insert]
  simp [Std.LawfulEqCmp.compare_eq_iff_eq]

theorem lookup_erase : (table.erase key)[other]? = if key = other then none else table[other]? := by
  rw [Std.ExtTreeMap.getElem?_erase]
  simp [Std.LawfulEqCmp.compare_eq_iff_eq]

omit [DecidableEq Key] in
theorem lookup_filter {keep : Key → Value → Bool} :
    (table.filter keep)[key]? = some value ↔ table[key]? = some value ∧ keep key value = true := by
  rw [Std.ExtTreeMap.getElem?_filter', Option.filter_eq_some_iff]

omit [DecidableEq Key] in
theorem mem_entries : (key, value) ∈ table.toList ↔ table[key]? = some value :=
  Std.ExtTreeMap.mem_toList_iff_getElem?_eq_some

omit [DecidableEq Key] in
theorem entries_keys_nodup : (table.toList.map Prod.fst).Nodup := by
  have distinct := Std.ExtTreeMap.distinct_keys_toList (t := table)
  refine List.pairwise_map.mpr (distinct.imp ?_)
  intro left right differ same
  exact differ (Std.LawfulEqCmp.compare_eq_iff_eq.mpr same)

omit [DecidableEq Key] in
theorem mem_keys_iff : key ∈ table.keys ↔ table[key]? ≠ none := by
  rw [Std.ExtTreeMap.mem_keys, Std.ExtTreeMap.mem_iff_isSome_getElem?, Option.isSome_iff_ne_none]

omit [DecidableEq Key] in
theorem size_le_length {keys : List Key} (covered : ∀ key, table[key]? ≠ none → key ∈ keys) :
    table.size ≤ keys.length := by
  rw [← Std.ExtTreeMap.length_keys]
  exact (Std.ExtTreeMap.nodup_keys.subperm (fun key member => covered key (mem_keys_iff.mp member))).length_le

omit [DecidableEq Key] in
/-- The keys of a map together weigh no more than a list that has them all. -/
theorem weight_le {keys : List Key} (covered : ∀ key, table[key]? ≠ none → key ∈ keys) (weight : Key → Nat) :
    (table.keys.map weight).sum ≤ (keys.map weight).sum := by
  obtain ⟨part, same, within⟩ :=
    Std.ExtTreeMap.nodup_keys.subperm (fun key member => covered key (mem_keys_iff.mp member))
  rw [← (same.map weight).sum_nat]
  exact (within.map weight).sum_le_sum (fun _ _ => Nat.zero_le _)

omit [DecidableEq Key] in
/-- As many distinct keys as the map has are all of its keys. -/
theorem covers_of_size {keys : List Key} (distinct : keys.Nodup) (within : ∀ key ∈ keys, table[key]? ≠ none)
    (size : keys.length = table.size) (key : Key) (present : table[key]? ≠ none) : key ∈ keys := by
  have part := distinct.subperm (fun key member => mem_keys_iff.mpr (within key member))
  rw [(part.perm_of_length_le (Nat.le_of_eq (Std.ExtTreeMap.length_keys.trans size.symm))).mem_iff]
  exact mem_keys_iff.mpr present

theorem lookup_erase_many_kept (keys : List Key) (kept : other ∉ keys) :
    (keys.foldl (fun table key => table.erase key) table)[other]? = table[other]? := by
  induction keys generalizing table with
  | nil => rfl
  | cons key rest ih =>
    simp only [List.mem_cons, not_or] at kept
    rw [List.foldl_cons, ih kept.2, lookup_erase]
    simp [Ne.symm kept.1]

theorem lookup_erase_many_gone (keys : List Key) (gone : other ∈ keys) :
    (keys.foldl (fun table key => table.erase key) table)[other]? = none := by
  induction keys generalizing table with
  | nil => simp at gone
  | cons key rest ih =>
    rw [List.foldl_cons]
    by_cases later : other ∈ rest
    · exact ih later
    · have same : other = key := by simpa [later] using gone
      rw [lookup_erase_many_kept rest later, lookup_erase]
      simp [same]

end OrderedMap

end MiniDynamo
