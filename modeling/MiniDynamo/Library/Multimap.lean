import Mathlib.Data.List.Nodup
import MiniDynamo.Library.OrderedMap

/-! A map of lists, where a key without an entry has the empty list, and loops over its lists. -/

namespace MiniDynamo

abbrev Multimap (Key Item : Type) [Ord Key] := OrderedMap Key (List Item)

namespace Multimap

variable {Key Item : Type} [Ord Key] [Std.TransOrd Key] [Std.LawfulEqOrd Key] [DecidableEq Key]
variable (table : Multimap Key Item) (key other : Key)

/-- The items under a key. -/
def list : List Item := (table[key]?).getD []

omit [Std.LawfulEqOrd Key] [DecidableEq Key] in
theorem list_empty : list (∅ : Multimap Key Item) key = [] := by
  simp [list]

theorem list_insert (items : List Item) :
    list (table.insert key items) other = if key = other then items else table.list other := by
  unfold list
  rw [OrderedMap.lookup_insert]
  split <;> rfl

theorem list_erase : list (table.erase key) other = if key = other then [] else table.list other := by
  unfold list
  rw [OrderedMap.lookup_erase]
  split <;> rfl

variable {table key}

section Loops

variable {State : Type} (lists : State → Multimap Key Item) {step : State → Key × List Item → State}
  {change : List Item → List Item}
  (spec : ∀ state entry key, (lists (step state entry)).list key =
    if entry.1 = key then change entry.2 else (lists state).list key)

include spec

omit [Std.LawfulEqOrd Key] in
private theorem list_fold_other (entries : List (Key × List Item)) (state : State)
    (absent : key ∉ entries.map Prod.fst) : (lists (entries.foldl step state)).list key = (lists state).list key := by
  induction entries generalizing state with
  | nil => rfl
  | cons entry rest ih =>
    rw [List.map_cons, List.mem_cons, not_or] at absent
    rw [List.foldl_cons, ih _ absent.2, spec, if_neg (Ne.symm absent.1)]

omit [Std.LawfulEqOrd Key] in
private theorem list_fold_here (entries : List (Key × List Item)) (state : State)
    (distinct : (entries.map Prod.fst).Nodup) {entry : Key × List Item} (member : entry ∈ entries) :
    (lists (entries.foldl step state)).list entry.1 = change entry.2 := by
  induction entries generalizing state with
  | nil => cases member
  | cons head rest ih =>
    obtain ⟨elsewhere, distinct⟩ := List.nodup_cons.mp distinct
    rw [List.foldl_cons]
    rcases List.mem_cons.mp member with rfl | later
    · rw [list_fold_other lists spec rest _ elsewhere, spec, if_pos rfl]
    · exact ih _ distinct later

/-- A loop over the entries that changes each list changes all of them. -/
theorem list_foldl (none : change [] = []) (state : State) (key : Key) :
    (lists ((lists state).toList.foldl step state)).list key = change ((lists state).list key) := by
  cases found : (lists state)[key]? with
  | none =>
    have absent : key ∉ (lists state).toList.map Prod.fst := by
      intro member
      obtain ⟨entry, present, rfl⟩ := List.mem_map.mp member
      cases found.symm.trans (OrderedMap.mem_entries.mp present)
    rw [list_fold_other lists spec _ _ absent, list, found]
    exact none.symm
  | some items =>
    rw [list_fold_here lists spec _ _ OrderedMap.entries_keys_nodup (OrderedMap.mem_entries.mpr found), list, found]
    rfl

end Loops

omit [DecidableEq Key] in
/-- The entry of a key, with the entries of other keys on both sides. -/
theorem entries_split {items : List Item} (found : table[key]? = some items) :
    ∃ front back, table.toList = front ++ (key, items) :: back ∧ ∀ entry ∈ front ++ back, entry.1 ≠ key := by
  obtain ⟨front, back, shape⟩ := List.append_of_mem (OrderedMap.mem_entries.mpr found)
  have distinct : (table.toList.map Prod.fst).Nodup := OrderedMap.entries_keys_nodup
  rw [shape, List.map_append, List.map_cons, List.nodup_middle, List.nodup_cons, ← List.map_append] at distinct
  refine ⟨front, back, shape, fun entry member same => ?_⟩
  exact distinct.1 (List.mem_map.mpr ⟨entry, member, same⟩)

section Collecting

variable {Other : Type} [BEq Other] [LawfulBEq Other] (part : List Item → List Other) {item : Other}
  (only : ∀ other, item ∈ part (table.list other) → other = key)

include only

omit [DecidableEq Key] in
private theorem count_collected_others (entries : List (Key × List Item)) (sub : entries ⊆ table.toList)
    (others : ∀ entry ∈ entries, entry.1 ≠ key) :
    (entries.flatMap (fun entry => part entry.2)).count item = 0 := by
  refine List.count_eq_zero.mpr (fun member => ?_)
  obtain ⟨entry, present, inside⟩ := List.mem_flatMap.mp member
  have found : table[entry.1]? = some entry.2 := OrderedMap.mem_entries.mp (sub present)
  refine others entry present (only entry.1 ?_)
  rw [list, found]
  exact inside

omit [DecidableEq Key] in
/-- What only one list can give is collected from all of them as often as from that one. -/
theorem count_collected (none : part [] = []) :
    (table.toList.flatMap (fun entry => part entry.2)).count item = (part (table.list key)).count item := by
  cases found : table[key]? with
  | none =>
    rw [list, found, Option.getD_none, none]
    refine count_collected_others part only _ (List.Subset.refl _) (fun entry member same => ?_)
    have present : table[entry.1]? = some entry.2 := OrderedMap.mem_entries.mp member
    rw [same, found] at present
    cases present
  | some items =>
    obtain ⟨front, back, shape, others⟩ := entries_split found
    have before := count_collected_others part only front (by simp [shape])
      (fun entry member => others entry (List.mem_append_left back member))
    have behind := count_collected_others part only back (by simp [shape])
      (fun entry member => others entry (List.mem_append_right front member))
    rw [shape, List.flatMap_append, List.flatMap_cons, List.count_append, List.count_append, before, behind, list,
      found]
    simp

end Collecting

end Multimap

end MiniDynamo
