import Mathlib.Data.Finset.Dedup
import MiniDynamo.Clock.Causality
import MiniDynamo.Library.UpperPart

/-! What pruning drops and what it keeps. The ages of the kept entries are an upper part of
the ages of all entries, and that decides for each entry whether it stays. -/

namespace MiniDynamo

theorem Age.eq_of_order {left right : Age} (same : Age.order left right = .eq) : left = right := by
  obtain ⟨stamps, nodes⟩ := Ordering.then_eq_eq.mp same
  exact Prod.ext (Std.LawfulEqCmp.eq_of_compare stamps) (Std.LawfulEqCmp.eq_of_compare nodes)

instance : Std.Antisymm Age.before := ⟨fun left right forward backward => by
  apply Age.eq_of_order
  apply Std.OrientedCmp.isLE_antisymm forward backward⟩

namespace VectorClock

private theorem counts_foldl_erase (nodes : List Bytes) (clock : VectorClock) :
    (nodes.foldl erase clock).counts = nodes.foldl (fun table node => table.erase node) clock.counts := by
  induction nodes generalizing clock with
  | nil => rfl
  | cons node rest ih => exact ih (clock.erase node)

theorem lookup_prune (clock : VectorClock) (maxEntries : Nat) (node : Bytes) :
    (clock.prune maxEntries).counts[node]? =
      if node ∈ clock.dropped maxEntries then none else clock.counts[node]? := by
  unfold prune
  split
  · rename_i within
    have nothing : clock.dropped maxEntries = [] := by
      simp [dropped, Nat.sub_eq_zero_of_le within]
    simp [nothing]
  · rw [counts_foldl_erase]
    by_cases gone : node ∈ clock.dropped maxEntries
    · rw [OrderedMap.lookup_erase_many_gone _ gone]
      simp [gone]
    · rw [OrderedMap.lookup_erase_many_kept _ gone]
      simp [gone]

theorem get_prune (clock : VectorClock) (maxEntries : Nat) (node : Bytes) :
    (clock.prune maxEntries).get node = if node ∈ clock.dropped maxEntries then 0 else clock.get node := by
  simp only [get, lookup_prune]
  by_cases gone : node ∈ clock.dropped maxEntries <;> simp [gone]

/-- Pruning never invents history. -/
theorem prune_le (clock : VectorClock) (maxEntries : Nat) : clock.prune maxEntries ≤ clock := by
  intro node
  rw [get_prune]
  split
  · exact UInt64.zero_le
  · exact UInt64.le_refl _

theorem prune_of_size_le {clock : VectorClock} {maxEntries : Nat} (within : clock.size ≤ maxEntries) :
    clock.prune maxEntries = clock := by
  simp [prune, within]

/-- The entries of other nodes that pruning would drop only after `(stamp, node)`. -/
def newerThan (clock : VectorClock) (stamp : UInt64) (node : Bytes) : List (Bytes × Entry) :=
  clock.counts.toList.filter fun entry =>
    decide (entry.1 ≠ node) && decide (Age.before (stamp, node) (entry.2.updatedMs, entry.1))

theorem mem_newerThan {clock : VectorClock} {stamp : UInt64} {node : Bytes} {entry : Bytes × Entry} :
    entry ∈ clock.newerThan stamp node ↔ clock.counts[entry.1]? = some entry.2 ∧ entry.1 ≠ node ∧
      Age.before (stamp, node) (entry.2.updatedMs, entry.1) := by
  rw [newerThan, List.mem_filter, ← OrderedMap.mem_entries]
  simp

theorem newerThan_nodup (clock : VectorClock) (stamp : UInt64) (node : Bytes) :
    (clock.newerThan stamp node).Nodup :=
  OrderedMap.entries_keys_nodup.of_map.filter _

/-- Setting a node's own entry does not change which entries of other nodes are newer. -/
theorem length_newerThan_set (clock : VectorClock) (node : Bytes) (counter updatedMs stamp : UInt64) :
    ((clock.set node counter updatedMs).newerThan stamp node).length = (clock.newerThan stamp node).length := by
  refine List.Perm.length_eq ((List.perm_ext_iff_of_nodup (newerThan_nodup _ _ _) (newerThan_nodup _ _ _)).mpr ?_)
  intro entry
  rw [mem_newerThan, mem_newerThan]
  by_cases own : entry.1 = node
  · simp [own]
  · rw [lookup_set_other (Ne.symm own)]

theorem byAge_perm (clock : VectorClock) :
    clock.byAge.Perm (clock.counts.toList.map (fun entry => (entry.2.updatedMs, entry.1))) :=
  List.perm_insertionSort _ _

private theorem byAge_length (clock : VectorClock) : clock.byAge.length = clock.size := by
  rw [(byAge_perm clock).length_eq, List.length_map, Std.ExtTreeMap.length_toList]
  rfl

private theorem byAge_nodes_nodup (clock : VectorClock) : (clock.byAge.map Prod.snd).Nodup := by
  have same := (byAge_perm clock).map Prod.snd
  rw [List.map_map] at same
  exact same.nodup_iff.mpr OrderedMap.entries_keys_nodup

theorem mem_byAge {clock : VectorClock} {age : Age} :
    age ∈ clock.byAge ↔ ∃ entry, clock.counts[age.2]? = some entry ∧ entry.updatedMs = age.1 := by
  rw [(byAge_perm clock).mem_iff, List.mem_map]
  constructor
  · rintro ⟨entry, present, rfl⟩
    exact ⟨entry.2, OrderedMap.mem_entries.mp present, rfl⟩
  · rintro ⟨entry, found, stamp⟩
    exact ⟨(age.2, entry), OrderedMap.mem_entries.mpr found, Prod.ext stamp rfl⟩

/-- What pruning goes by: the stamp and the node of each entry. -/
def ages (clock : VectorClock) : Finset Age := clock.byAge.toFinset

theorem mem_ages {clock : VectorClock} {age : Age} :
    age ∈ clock.ages ↔ ∃ entry, clock.counts[age.2]? = some entry ∧ entry.updatedMs = age.1 := by
  rw [ages, List.mem_toFinset, mem_byAge]

theorem mem_ages_of_lookup {clock : VectorClock} {node : Bytes} {entry : Entry}
    (found : clock.counts[node]? = some entry) : (entry.updatedMs, node) ∈ clock.ages :=
  mem_ages.mpr ⟨entry, found, rfl⟩

theorem card_ages (clock : VectorClock) : clock.ages.card = clock.size := by
  rw [ages, List.toFinset_card_of_nodup (byAge_nodes_nodup clock).of_map, byAge_length]

/-- The entries `prune` keeps, in the same order. -/
private def kept (clock : VectorClock) (maxEntries : Nat) : List Age :=
  clock.byAge.drop (clock.size - maxEntries)

private theorem byAge_split (clock : VectorClock) (maxEntries : Nat) :
    clock.byAge = clock.byAge.take (clock.size - maxEntries) ++ clock.kept maxEntries :=
  (List.take_append_drop _ _).symm

private theorem mem_kept {clock : VectorClock} {maxEntries : Nat} {age : Age} (member : age ∈ clock.byAge) :
    age ∈ clock.kept maxEntries ↔ age.2 ∉ clock.dropped maxEntries := by
  have distinct := byAge_nodes_nodup clock
  rw [byAge_split clock maxEntries, List.map_append, List.nodup_append] at distinct
  constructor
  · intro late early
    exact distinct.2.2 age.2 early age.2 (List.mem_map_of_mem late) rfl
  · intro stays
    rw [byAge_split clock maxEntries] at member
    rcases List.mem_append.mp member with early | late
    · exact absurd (List.mem_map_of_mem early) stays
    · exact late

private theorem ages_prune (clock : VectorClock) (maxEntries : Nat) :
    (clock.prune maxEntries).ages = (clock.kept maxEntries).toFinset := by
  ext age
  rw [mem_ages, List.mem_toFinset]
  simp only [lookup_prune]
  constructor
  · rintro ⟨entry, found, stamp⟩
    split at found
    · cases found
    · rename_i stays
      exact (mem_kept (mem_byAge.mpr ⟨entry, found, stamp⟩)).mpr stays
  · intro late
    have member : age ∈ clock.byAge := List.mem_of_mem_drop late
    simp only [(mem_kept member).mp late, ↓reduceIte]
    exact mem_byAge.mp member

/-- The newest entries are kept. -/
theorem upperPart_prune (clock : VectorClock) (maxEntries : Nat) :
    UpperPart Age.before (clock.prune maxEntries).ages clock.ages := by
  rw [ages_prune]
  constructor
  · intro age member
    exact List.mem_toFinset.mpr (List.mem_of_mem_drop (List.mem_toFinset.mp member))
  · intro item late other present early
    have sorted : clock.byAge.Pairwise Age.before := List.pairwise_insertionSort _ _
    rw [ages, List.mem_toFinset] at present
    rw [List.mem_toFinset] at late early
    rw [byAge_split clock maxEntries] at sorted present
    exact (List.pairwise_append.mp sorted).2.2 other ((List.mem_append.mp present).resolve_right early) item late

theorem size_prune (clock : VectorClock) (maxEntries : Nat) :
    (clock.prune maxEntries).size = min clock.size maxEntries := by
  have distinct : (clock.kept maxEntries).Nodup := (byAge_nodes_nodup clock).of_map.sublist (List.drop_sublist _ _)
  rw [← card_ages, ages_prune, List.toFinset_card_of_nodup distinct, kept, List.length_drop, byAge_length]
  omega

/-- How many ages come after an entry's own. -/
private theorem card_later {clock : VectorClock} {node : Bytes} {entry : Entry}
    (found : clock.counts[node]? = some entry) :
    (clock.ages.filter (fun age => age ≠ (entry.updatedMs, node) ∧ Age.before (entry.updatedMs, node) age)).card =
      (clock.newerThan entry.updatedMs node).length := by
  have ages : clock.ages.filter (fun age => age ≠ (entry.updatedMs, node) ∧
      Age.before (entry.updatedMs, node) age) =
        ((clock.newerThan entry.updatedMs node).map (fun other => (other.2.updatedMs, other.1))).toFinset := by
    ext age
    simp only [Finset.mem_filter, mem_ages, List.mem_toFinset, List.mem_map, mem_newerThan]
    constructor
    · rintro ⟨⟨other, held, stamp⟩, different, later⟩
      have shape : (other.updatedMs, age.2) = age := Prod.ext stamp rfl
      refine ⟨(age.2, other), ⟨held, ?_, shape.symm ▸ later⟩, shape⟩
      rintro rfl
      obtain rfl := Option.some.inj (held.symm.trans found)
      exact different shape.symm
    · rintro ⟨other, ⟨held, different, later⟩, rfl⟩
      exact ⟨⟨other.2, held, rfl⟩, fun same => different (congrArg Prod.snd same), later⟩
  have names : (((clock.newerThan entry.updatedMs node).map (fun other => (other.2.updatedMs, other.1))).map
      Prod.snd).Nodup := by
    rw [List.map_map]
    exact OrderedMap.entries_keys_nodup.sublist (List.filter_sublist.map _)
  rw [ages, List.toFinset_card_of_nodup names.of_map, List.length_map]

/-- An entry survives pruning exactly when fewer than `maxEntries` other entries are newer. -/
theorem mem_dropped_iff {clock : VectorClock} {maxEntries : Nat} {node : Bytes} {entry : Entry}
    (found : clock.counts[node]? = some entry) :
    node ∈ clock.dropped maxEntries ↔ maxEntries ≤ (clock.newerThan entry.updatedMs node).length := by
  have stays : (entry.updatedMs, node) ∈ (clock.prune maxEntries).ages ↔ node ∉ clock.dropped maxEntries := by
    rw [ages_prune, List.mem_toFinset]
    exact mem_kept (mem_byAge.mpr ⟨entry, found, rfl⟩)
  have counted := (upperPart_prune clock maxEntries).mem_iff (mem_ages_of_lookup found)
  have bound := card_later found ▸ Finset.card_lt_card
    (Finset.filter_ssubset.mpr ⟨(entry.updatedMs, node), mem_ages_of_lookup found, by simp⟩ :
      clock.ages.filter (fun age => age ≠ (entry.updatedMs, node) ∧ Age.before (entry.updatedMs, node) age) ⊂ clock.ages)
  rw [stays, card_later found, card_ages, size_prune] at counted
  rw [card_ages] at bound
  rw [← not_iff_not, counted]
  omega

theorem not_mem_dropped {clock : VectorClock} {maxEntries : Nat} {node : Bytes} {entry : Entry}
    (found : clock.counts[node]? = some entry)
    (few : (clock.newerThan entry.updatedMs node).length < maxEntries) :
    node ∉ clock.dropped maxEntries :=
  fun gone => Nat.not_le.mpr few ((mem_dropped_iff found).mp gone)

end VectorClock

end MiniDynamo
