import Mathlib.Data.Finset.Card
import Mathlib.Data.List.Perm.Subperm

/-! Counting members of a group: replies by position, distinct members among them, and
two quorums of the same group. -/

namespace MiniDynamo.Quorum

variable {Member : Type}

theorem filterMap_range (group : List Member) : (List.range group.length).filterMap (group[·]?) = group := by
  induction group with
  | nil => rfl
  | cons first rest ih =>
    rw [List.length_cons, List.range_succ_eq_map, List.filterMap_cons, List.filterMap_map]
    exact congrArg (first :: ·) ih

/-- Members picked at distinct positions are no more than the group holds. -/
theorem picks_subperm {positions : List Nat} (distinct : positions.Nodup) (group : List Member) :
    (positions.filterMap (group[·]?)).Subperm group := by
  have inside : (positions.filterMap (group[·]?)) =
      (positions.filter (· < group.length)).filterMap (group[·]?) := by
    rw [List.filterMap_filter]
    refine List.filterMap_congr (fun position _ => ?_)
    by_cases low : position < group.length
    · simp [low]
    · simp [low]
  have within : (positions.filter (· < group.length)).Subperm (List.range group.length) :=
    List.subperm_of_subset (distinct.filter _) (fun position member => by
      simpa using (List.mem_filter.mp member).2)
  obtain ⟨ordered, same, part⟩ := within
  have chosen := part.filterMap (group[·]?)
  rw [filterMap_range] at chosen
  rw [inside]
  exact ⟨ordered.filterMap (group[·]?), same.filterMap _, chosen⟩

/-- Members picked at distinct positions of a group without repetitions are as many names. -/
theorem picks_names {Name : Type} (name : Member → Name) {positions : List Nat} {group : List Member}
    (distinct : positions.Nodup) (names : (group.map name).Nodup)
    (known : ∀ position ∈ positions, (group[position]?).isSome) :
    ((positions.filterMap (group[·]?)).map name).Nodup ∧
      ((positions.filterMap (group[·]?)).map name).length = positions.length := by
  obtain ⟨ordered, same, part⟩ := picks_subperm distinct group
  refine ⟨(same.map name).nodup_iff.mp (names.sublist (part.map name)), ?_⟩
  rw [List.length_map, List.filterMap_length_eq_length.mpr known]

/-- When only `repeated` occurs more than once, every further occurrence of it is one
distinct member less. -/
theorem card_add_repeats [DecidableEq Member] [BEq Member] [LawfulBEq Member] {picks : List Member} {repeated : Member}
    (distinct : (picks.filter (fun member => decide (member ≠ repeated))).Nodup) :
    picks.toFinset.card + (picks.count repeated - 1) = picks.length := by
  have split : picks.length =
      picks.count repeated + (picks.filter (fun member => decide (member ≠ repeated))).length := by
    rw [← List.countP_eq_length_filter, List.count, List.length_eq_countP_add_countP (· == repeated)]
    simp
  have others : (picks.toFinset.erase repeated).card =
      (picks.filter (fun member => decide (member ≠ repeated))).length := by
    rw [← List.toFinset_card_of_nodup distinct]
    congr 1
    ext member
    simp [and_comm]
  by_cases member : repeated ∈ picks
  · have positive := List.count_pos_iff.mpr member
    have erased := Finset.card_erase_add_one (List.mem_toFinset.mpr member)
    omega
  · rw [Finset.erase_eq_of_notMem (by simpa using member)] at others
    rw [List.count_eq_zero_of_not_mem member] at split ⊢
    omega

/-- Two quorums that together outnumber the group have a member in common. -/
theorem intersect [DecidableEq Member] {group first second : List Member} (distinctFirst : first.Nodup)
    (distinctSecond : second.Nodup) (withinFirst : first ⊆ group) (withinSecond : second ⊆ group)
    (many : group.length < first.length + second.length) : ∃ member, member ∈ first ∧ member ∈ second := by
  by_contra apart
  have disjoint : (first ++ second).Nodup := by
    rw [List.nodup_append]
    refine ⟨distinctFirst, distinctSecond, ?_⟩
    intro one member two other same
    exact apart ⟨one, member, same ▸ other⟩
  have within : (first ++ second).Subperm group :=
    List.subperm_of_subset disjoint (by
      intro member present
      rcases List.mem_append.mp present with present | present
      · exact withinFirst present
      · exact withinSecond present)
  have bound := within.length_le
  rw [List.length_append] at bound
  omega

end MiniDynamo.Quorum
