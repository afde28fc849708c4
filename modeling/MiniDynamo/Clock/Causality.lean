import MiniDynamo.Clock.VectorClock

/-! The verdicts of `compare` are the causal order, and pruning only forgets. -/

namespace MiniDynamo.VectorClock

theorem aheadSomewhere_iff (left right : VectorClock) :
    left.aheadSomewhere right = true ↔ ∃ node, right.get node < left.get node := by
  simp only [aheadSomewhere, List.any_eq_true, decide_eq_true_eq, Prod.exists]
  constructor
  · rintro ⟨node, entry, member, ahead⟩
    exact ⟨node, by rwa [get_of_lookup (OrderedMap.mem_entries.mp member)]⟩
  · rintro ⟨node, ahead⟩
    cases found : left.counts[node]? with
    | none =>
      rw [(get_eq_zero_iff left node).mpr found] at ahead
      exact absurd ahead (by simp)
    | some entry =>
      rw [get_of_lookup found] at ahead
      exact ⟨node, entry, OrderedMap.mem_entries.mpr found, ahead⟩

/-- The two passes of `compare` see every id on which the second clock is ahead. -/
theorem behindSomewhere_iff (left right : VectorClock) :
    (left.counts.toList.any (fun entry => decide (entry.2.counter < right.get entry.1)) ||
      right.counts.toList.any (fun entry => !left.counts.contains entry.1)) = true ↔
      ∃ node, left.get node < right.get node := by
  simp only [Bool.or_eq_true, List.any_eq_true, decide_eq_true_eq, Prod.exists, Bool.not_eq_true']
  constructor
  · rintro (⟨node, entry, member, behind⟩ | ⟨node, entry, member, missing⟩)
    · exact ⟨node, by rwa [get_of_lookup (OrderedMap.mem_entries.mp member)]⟩
    · have found := OrderedMap.mem_entries.mp member
      have absent := Std.ExtTreeMap.getElem?_eq_none_of_contains_eq_false missing
      refine ⟨node, ?_⟩
      rw [(get_eq_zero_iff left node).mpr absent, get_of_lookup found]
      exact UInt64.pos_iff_ne_zero.mpr (right.nonzero node entry found)
  · rintro ⟨node, behind⟩
    cases found : left.counts[node]? with
    | some entry =>
      rw [get_of_lookup found] at behind
      exact .inl ⟨node, entry, OrderedMap.mem_entries.mpr found, behind⟩
    | none =>
      rw [(get_eq_zero_iff left node).mpr found] at behind
      cases other : right.counts[node]? with
      | none =>
        rw [(get_eq_zero_iff right node).mpr other] at behind
        exact absurd behind (by simp)
      | some entry =>
        refine .inr ⟨node, entry, OrderedMap.mem_entries.mpr other, ?_⟩
        rw [Std.ExtTreeMap.contains_eq_isSome_getElem?, found]
        rfl

theorem not_le_iff {left right : VectorClock} : ¬ left ≤ right ↔ ∃ node, right.get node < left.get node := by
  simp [le_def]

theorem compare_cases (left right : VectorClock) :
    (compare left right = .equal ∧ left ≤ right ∧ right ≤ left) ∨
    (compare left right = .aDominates ∧ right < left) ∨
    (compare left right = .bDominates ∧ left < right) ∨
    (compare left right = .concurrent ∧ ¬ left ≤ right ∧ ¬ right ≤ left) := by
  have ahead := aheadSomewhere_iff left right
  have behind := behindSomewhere_iff left right
  rw [← not_le_iff] at ahead behind
  unfold compare
  simp only [lt_iff_le_not_ge]
  generalize left.aheadSomewhere right = leftAhead at *
  generalize (left.counts.toList.any _ || _) = rightAhead at *
  cases leftAhead <;> cases rightAhead <;> simp_all

/-- Each verdict is given exactly if its order holds. -/
theorem compare_iff (left right : VectorClock) :
    (compare left right = .aDominates ↔ right < left) ∧ (compare left right = .bDominates ↔ left < right) ∧
    (compare left right = .equal ↔ left ≤ right ∧ right ≤ left) ∧
    (compare left right = .concurrent ↔ ¬ left ≤ right ∧ ¬ right ≤ left) := by
  rcases compare_cases left right with ⟨verdict, order⟩ | ⟨verdict, order⟩ | ⟨verdict, order⟩ | ⟨verdict, order⟩
  all_goals simp only [verdict, reduceCtorEq, false_iff, true_iff, lt_iff_le_not_ge] at *
  all_goals tauto

variable {left right : VectorClock}

theorem compare_aDominates_iff : compare left right = .aDominates ↔ right < left := (compare_iff left right).1

theorem compare_bDominates_iff : compare left right = .bDominates ↔ left < right := (compare_iff left right).2.1

theorem compare_equal_iff : compare left right = .equal ↔ left ≤ right ∧ right ≤ left :=
  (compare_iff left right).2.2.1

theorem compare_concurrent_iff : compare left right = .concurrent ↔ ¬ left ≤ right ∧ ¬ right ≤ left :=
  (compare_iff left right).2.2.2

end MiniDynamo.VectorClock
