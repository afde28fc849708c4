import Mathlib.Data.Finset.Card
import Mathlib.Order.Defs.Unbundled

/-! Parts of a finite set that lie above the rest of it in a linear order. Such a part is
known by its size alone, so it does not matter how it was selected. -/

namespace MiniDynamo

variable {Item : Type} {before : Item → Item → Prop}

structure UpperPart (before : Item → Item → Prop) (part whole : Finset Item) : Prop where
  subset : part ⊆ whole
  above : ∀ item ∈ part, ∀ other ∈ whole, other ∉ part → before other item

namespace UpperPart

variable {part whole left right : Finset Item} {item : Item}

theorem trans (inner : UpperPart before left right) (outer : UpperPart before right whole) :
    UpperPart before left whole := by
  constructor
  · exact inner.subset.trans outer.subset
  · intro item member other present outside
    by_cases within : other ∈ right
    · exact inner.above item member other within outside
    · exact outer.above item (inner.subset member) other present within

section Linear

variable [Std.Antisymm before]

theorem subset_or_subset (first : UpperPart before left whole) (second : UpperPart before right whole) :
    left ⊆ right ∨ right ⊆ left := by
  by_contra neither
  simp only [not_or, Finset.not_subset] at neither
  obtain ⟨⟨one, inLeft, notRight⟩, ⟨two, inRight, notLeft⟩⟩ := neither
  have below := first.above one inLeft two (second.subset inRight) notLeft
  have beneath := second.above two inRight one (first.subset inLeft) notRight
  have same : two = one := Std.Antisymm.antisymm two one below beneath
  exact notLeft (same ▸ inLeft)

/-- Two upper parts of one set with equally many items are the same. -/
theorem eq_of_card (first : UpperPart before left whole) (second : UpperPart before right whole)
    (size : left.card = right.card) : left = right := by
  rcases first.subset_or_subset second with inside | inside
  · exact Finset.eq_of_subset_of_card_le inside size.ge
  · exact (Finset.eq_of_subset_of_card_le inside size.le).symm

variable [DecidableEq Item] [DecidableRel before]

/-- An item is in the upper part when fewer items come after it than the part has. -/
theorem mem_iff (upper : UpperPart before part whole) (present : item ∈ whole) :
    item ∈ part ↔ (whole.filter (fun other => other ≠ item ∧ before item other)).card < part.card := by
  constructor
  · intro member
    have inside : whole.filter (fun other => other ≠ item ∧ before item other) ⊆ part.erase item := by
      intro other later
      obtain ⟨known, different, after⟩ := Finset.mem_filter.mp later
      apply Finset.mem_erase.mpr
      refine ⟨different, ?_⟩
      by_contra outside
      exact different (Std.Antisymm.antisymm other item (upper.above item member other known outside) after)
    exact (Finset.card_le_card inside).trans_lt (Finset.card_erase_lt_of_mem member)
  · intro few
    by_contra outside
    have inside : part ⊆ whole.filter (fun other => other ≠ item ∧ before item other) := by
      intro other member
      apply Finset.mem_filter.mpr
      refine ⟨upper.subset member, ?_, upper.above other member item present outside⟩
      rintro rfl
      exact outside member
    exact absurd (Finset.card_le_card inside) (Nat.not_le.mpr few)

end Linear

end UpperPart

end MiniDynamo
