import Mathlib.Data.List.Nodup
import Mathlib.Data.Set.Finite.List
import Mathlib.Order.Preorder.Finite

/-! The top of a list in a preorder: one item for each class of those that nothing in the list
exceeds. A loop finds it, and the order of the list shows only in which item of a class is
taken. -/

namespace MiniDynamo

variable {Item Rank : Type} [Preorder Rank] {rank : Item → Rank}

structure Frontier (rank : Item → Rank) (items frontier : List Item) : Prop where
  part : frontier ⊆ items
  apart : frontier.Pairwise (fun one other => ¬ rank one ≤ rank other ∧ ¬ rank other ≤ rank one)
  covers : ∀ item ∈ items, ∃ top ∈ frontier, rank item ≤ rank top
  top : ∀ top ∈ frontier, ∀ item ∈ items, ¬ rank top < rank item

namespace Frontier

variable {items others left right : List Item}

/-- Lists with the same items have the same classes at the top. -/
theorem exists_equivalent (one : Frontier rank items left) (two : Frontier rank others right)
    (same : ∀ item, item ∈ items ↔ item ∈ others) {item : Item} (member : item ∈ left) :
    ∃ other ∈ right, rank item ≤ rank other ∧ rank other ≤ rank item := by
  obtain ⟨other, found, below⟩ := two.covers item ((same item).mp (one.part member))
  refine ⟨other, found, below, ?_⟩
  by_contra above
  exact one.top item member other ((same other).mpr (two.part found)) (lt_of_le_not_ge below above)

theorem eq_singleton (one : Frontier rank items left) (nonempty : items ≠ []) {top : Item}
    (only : ∀ item ∈ left, item = top) : left = [top] := by
  cases left with
  | nil =>
    obtain ⟨item, member⟩ := List.exists_mem_of_ne_nil items nonempty
    obtain ⟨_, none, -⟩ := one.covers item member
    cases none
  | cons first rest =>
    obtain rfl := only first List.mem_cons_self
    cases rest with
    | nil => rfl
    | cons second rest =>
      have unrelated := List.rel_of_pairwise_cons one.apart List.mem_cons_self
      rw [only second (by simp)] at unrelated
      exact absurd le_rfl unrelated.1

section Label

variable {Label : Type} {label : Item → Label}

theorem nodup_map (one : Frontier rank items left)
    (faithful : ∀ first ∈ items, ∀ second ∈ items,
      label first = label second → rank first ≤ rank second) : (left.map label).Nodup := by
  apply List.pairwise_map.mpr
  apply one.apart.imp_of_mem
  intro first second here there unrelated same
  exact unrelated.1 (faithful first (one.part here) second (one.part there) same)

theorem map_subset (one : Frontier rank items left) (two : Frontier rank others right)
    (same : ∀ item, item ∈ items ↔ item ∈ others)
    (single : ∀ first ∈ items, ∀ second ∈ items, rank first ≤ rank second → rank second ≤ rank first →
      label first = label second) : left.map label ⊆ right.map label := by
  intro said member
  obtain ⟨item, inside, rfl⟩ := List.mem_map.mp member
  obtain ⟨other, found, forward, backward⟩ := one.exists_equivalent two same inside
  have equal := single item (one.part inside) other ((same other).mpr (two.part found)) forward backward
  exact equal ▸ List.mem_map_of_mem found

/-- What is said of a class does not depend on the order of the list. -/
theorem map_perm (one : Frontier rank items left) (two : Frontier rank others right)
    (same : ∀ item, item ∈ items ↔ item ∈ others)
    (faithful : ∀ first ∈ items, ∀ second ∈ items,
      label first = label second ↔ rank first ≤ rank second ∧ rank second ≤ rank first) :
    (left.map label).Perm (right.map label) := by
  have elsewhere : ∀ first ∈ others, ∀ second ∈ others,
      label first = label second ↔ rank first ≤ rank second ∧ rank second ≤ rank first :=
    fun first here second there => faithful first ((same first).mpr here) second ((same second).mpr there)
  apply (List.perm_ext_iff_of_nodup (one.nodup_map ?_) (two.nodup_map ?_)).mpr
  · intro said
    constructor
    · apply one.map_subset two same
      intro first here second there forward backward
      exact (faithful first here second there).mpr ⟨forward, backward⟩
    · apply two.map_subset one (fun item => (same item).symm)
      intro first here second there forward backward
      exact (elsewhere first here second there).mpr ⟨forward, backward⟩
  · intro first here second there equal
    exact ((faithful first here second there).mp equal).1
  · intro first here second there equal
    exact ((elsewhere first here second there).mp equal).1

end Label

/-- Where every class has one item, the order of the list does not show at all. -/
theorem perm (one : Frontier rank items left) (two : Frontier rank others right)
    (same : ∀ item, item ∈ items ↔ item ∈ others)
    (single : ∀ first ∈ items, ∀ second ∈ items, rank first ≤ rank second → rank second ≤ rank first → first = second) :
    left.Perm right := by
  have equal : (left.map id).Perm (right.map id) := by
    apply one.map_perm two same
    intro first here second there
    constructor
    · rintro rfl
      exact ⟨le_rfl, le_rfl⟩
    · rintro ⟨forward, backward⟩
      exact single first here second there forward backward
  rwa [List.map_id, List.map_id] at equal

end Frontier

section Loop

variable (below equal : Item → Item → Bool)

/-- One round of the loop: a candidate is passed over when some item is above it, or when an
equal one has been taken. -/
def takeTop (items taken : List Item) (cand : Item) : List Item :=
  if items.any (fun other => below cand other) then taken
  else if taken.any (fun other => equal other cand) then taken
  else taken ++ [cand]

variable {below equal} (belowIff : ∀ one other, below one other = true ↔ rank one < rank other)
  (equalIff : ∀ one other, equal one other = true ↔ rank one ≤ rank other ∧ rank other ≤ rank one)

/-- Nothing before the item is equivalent to it. -/
def FirstOfClass (rank : Item → Rank) (items : List Item) (top : Item) : Prop :=
  ∃ before after, items = before ++ top :: after ∧
    ∀ item ∈ before, ¬ (rank item ≤ rank top ∧ rank top ≤ rank item)

theorem FirstOfClass.append {items : List Item} {top : Item} (first : FirstOfClass rank items top) (cand : Item) :
    FirstOfClass rank (items ++ [cand]) top := by
  obtain ⟨before, after, rfl, others⟩ := first
  exact ⟨before, after ++ [cand], by simp, others⟩

/-- What the loop has taken from the items it has seen. -/
private structure Taken (rank : Item → Rank) (items seen taken : List Item) : Prop where
  part : taken ⊆ seen
  apart : taken.Pairwise (fun one other => ¬ rank one ≤ rank other ∧ ¬ rank other ≤ rank one)
  covers : ∀ item ∈ seen, (∀ other ∈ items, ¬ rank item < rank other) →
    ∃ top ∈ taken, rank item ≤ rank top
  top : ∀ top ∈ taken, ∀ item ∈ items, ¬ rank top < rank item
  first : ∀ top ∈ taken, FirstOfClass rank seen top

/-- A candidate is passed over. -/
private theorem Taken.skip {items seen taken : List Item} {cand : Item} (held : Taken rank items seen taken)
    (covered : (∀ other ∈ items, ¬ rank cand < rank other) → ∃ top ∈ taken, rank cand ≤ rank top) :
    Taken rank items (seen ++ [cand]) taken := by
  refine ⟨fun item member => List.mem_append_left _ (held.part member), held.apart, ?_, held.top,
    fun top member => (held.first top member).append cand⟩
  intro item member unbeaten
  rcases List.mem_append.mp member with before | last
  · exact held.covers item before unbeaten
  · obtain rfl := List.mem_singleton.mp last
    exact covered unbeaten

/-- A candidate is taken: nothing is above it, and nothing taken is equal to it. -/
private theorem Taken.take {items seen taken : List Item} {cand : Item} (held : Taken rank items seen taken)
    (inside : seen ++ [cand] ⊆ items) (highest : ∀ other ∈ items, ¬ rank cand < rank other)
    (fresh : ∀ other ∈ taken, ¬ (rank other ≤ rank cand ∧ rank cand ≤ rank other)) :
    Taken rank items (seen ++ [cand]) (taken ++ [cand]) := by
  have grown : taken ⊆ seen ++ [cand] := fun item member => List.mem_append_left _ (held.part member)
  refine ⟨?_, ?_, ?_, ?_, ?_⟩
  · intro item member
    rcases List.mem_append.mp member with before | last
    · exact grown before
    · exact List.mem_append_right _ last
  · apply List.pairwise_append.mpr
    refine ⟨held.apart, List.pairwise_singleton _ _, ?_⟩
    intro item member other last
    obtain rfl := List.mem_singleton.mp last
    constructor
    · intro under
      exact held.top item member other (inside (by simp))
        (lt_of_le_not_ge under (fun above => fresh item member ⟨under, above⟩))
    · intro above
      exact highest item (inside (grown member))
        (lt_of_le_not_ge above (fun under => fresh item member ⟨under, above⟩))
  · intro item member unbeaten
    rcases List.mem_append.mp member with before | last
    · obtain ⟨top, found, under⟩ := held.covers item before unbeaten
      exact ⟨top, List.mem_append_left _ found, under⟩
    · exact ⟨cand, List.mem_append_right _ (List.mem_singleton_self cand), by rw [List.mem_singleton.mp last]⟩
  · intro top member
    rcases List.mem_append.mp member with before | last
    · exact held.top top before
    · rw [List.mem_singleton.mp last]
      exact highest
  · intro top member
    rcases List.mem_append.mp member with before | last
    · exact (held.first top before).append cand
    · obtain rfl := List.mem_singleton.mp last
      refine ⟨seen, [], rfl, ?_⟩
      -- an equivalent item seen before would have been taken, or one equivalent to both
      rintro item here ⟨forward, backward⟩
      obtain ⟨other, kept, under⟩ := held.covers item here
        (fun other found above => highest other found (lt_of_le_of_lt backward above))
      have reached := backward.trans under
      apply fresh other kept
      refine ⟨?_, reached⟩
      by_contra strict
      exact highest other (inside (grown kept)) (lt_of_le_not_ge reached strict)

include belowIff equalIff

private theorem Taken.takeTop {items seen taken : List Item} {cand : Item} (held : Taken rank items seen taken)
    (inside : seen ++ [cand] ⊆ items) : Taken rank items (seen ++ [cand]) (takeTop below equal items taken cand) := by
  unfold MiniDynamo.takeTop
  split
  · rename_i beaten
    obtain ⟨other, found, above⟩ := List.any_eq_true.mp beaten
    apply held.skip
    intro unbeaten
    exact absurd ((belowIff cand other).mp above) (unbeaten other found)
  · rename_i unbeaten
    split
    · rename_i again
      obtain ⟨other, found, same⟩ := List.any_eq_true.mp again
      apply held.skip
      intro _
      exact ⟨other, found, ((equalIff other cand).mp same).2⟩
    · rename_i fresh
      apply held.take inside
      · intro other found above
        exact unbeaten (List.any_eq_true.mpr ⟨other, found, (belowIff cand other).mpr above⟩)
      · intro other found same
        exact fresh (List.any_eq_true.mpr ⟨other, found, (equalIff other cand).mpr same⟩)

private theorem Taken.foldl {items : List Item} (rest : List Item) {seen taken : List Item}
    (held : Taken rank items seen taken) (inside : seen ++ rest ⊆ items) :
    Taken rank items (seen ++ rest) (rest.foldl (MiniDynamo.takeTop below equal items) taken) := by
  induction rest generalizing seen taken with
  | nil => simpa using held
  | cons cand rest ih =>
    have shape : seen ++ cand :: rest = (seen ++ [cand]) ++ rest := by simp
    rw [shape] at inside ⊢
    exact ih (held.takeTop belowIff equalIff (fun item member => inside (List.mem_append_left rest member))) inside

private theorem taken_takeTop (items : List Item) :
    Taken rank items items (items.foldl (takeTop below equal items) []) := by
  have nothing : Taken rank items [] [] := ⟨by simp, by simp, by simp, by simp, by simp⟩
  exact nothing.foldl belowIff equalIff items (List.Subset.refl items)

/-- Of each class the loop takes the first item. -/
theorem firstOfClass_takeTop {items : List Item} {top : Item}
    (member : top ∈ items.foldl (takeTop below equal items) []) : FirstOfClass rank items top :=
  (taken_takeTop belowIff equalIff items).first top member

/-- The loop over the whole list ends with its top. -/
theorem frontier_takeTop (items : List Item) : Frontier rank items (items.foldl (takeTop below equal items) []) := by
  have taken := taken_takeTop belowIff equalIff items
  refine ⟨taken.part, taken.apart, ?_, taken.top⟩
  intro item member
  -- above every item of a finite list there is one that nothing exceeds
  have finite : (rank '' {item | item ∈ items}).Finite := (List.finite_toSet items).image rank
  obtain ⟨_, reached, ⟨highest, found, rfl⟩, most⟩ := finite.exists_le_maximal ⟨item, member, rfl⟩
  have unbeaten : ∀ other ∈ items, ¬ rank highest < rank other := by
    intro other present above
    exact above.not_ge (most ⟨other, present, rfl⟩ above.le)
  obtain ⟨top, kept, under⟩ := taken.covers highest found unbeaten
  exact ⟨top, kept, reached.trans under⟩

end Loop

end MiniDynamo
