import MiniDynamo.Clock.Lattice
import MiniDynamo.Clock.Pruning

/-! Pruned clocks: they hold the newest entries and nothing else, and what the causal order
still says of two of them. -/

namespace MiniDynamo

namespace VectorClock

variable {clock result a b : VectorClock} {maxEntries : Nat} {node : Bytes}

/-- The result is what is left of the clock when only the newest entries are kept, at most
`maxEntries` of them. -/
structure KeepsNewest (clock : VectorClock) (maxEntries : Nat) (result : VectorClock) : Prop where
  entries : ∀ (node : Bytes) (entry : Entry), result.counts[node]? = some entry → clock.counts[node]? = some entry
  size : result.size = min clock.size maxEntries
  newer : ∀ (node other : Bytes) (kept dropped : Entry), result.counts[node]? = some kept →
    clock.counts[other]? = some dropped → result.counts[other]? = none →
      Age.order (dropped.updatedMs, other) (kept.updatedMs, node) = .lt

/-- An entry of a part of the clock has the age it has in the clock. -/
theorem mem_ages_of_part (part : ∀ (node : Bytes) (entry : Entry), result.counts[node]? = some entry →
    clock.counts[node]? = some entry) {entry : Entry} (found : clock.counts[node]? = some entry) :
    (entry.updatedMs, node) ∈ result.ages ↔ result.counts[node]? = some entry := by
  constructor
  · intro member
    obtain ⟨held, present, -⟩ := mem_ages.mp member
    obtain rfl : held = entry := Option.some.inj ((part node held present).symm.trans found)
    exact present
  · exact mem_ages_of_lookup

theorem lookup_of_prune {entry : Entry} (found : (clock.prune maxEntries).counts[node]? = some entry) :
    clock.counts[node]? = some entry := by
  rw [lookup_prune] at found
  split at found
  · cases found
  · exact found

/-- A part of the clock that holds its newest entries, as many as pruning leaves, is what
pruning leaves. -/
theorem eq_prune (part : ∀ (node : Bytes) (entry : Entry), result.counts[node]? = some entry →
    clock.counts[node]? = some entry) (upper : UpperPart Age.before result.ages clock.ages)
    (size : result.size = min clock.size maxEntries) : result = clock.prune maxEntries := by
  have same : result.ages = (clock.prune maxEntries).ages := by
    apply upper.eq_of_card (upperPart_prune clock maxEntries)
    rw [card_ages, card_ages, size, size_prune]
  apply VectorClock.ext
  apply Std.ExtTreeMap.ext_getElem?
  intro node
  apply Option.ext
  intro entry
  constructor
  · intro held
    have found := part node entry held
    apply (mem_ages_of_part (fun _ _ => lookup_of_prune) found).mp
    exact same ▸ mem_ages_of_lookup held
  · intro held
    apply (mem_ages_of_part part (lookup_of_prune held)).mp
    exact same ▸ mem_ages_of_lookup held

theorem KeepsNewest.upperPart (keeps : KeepsNewest clock maxEntries result) :
    UpperPart Age.before result.ages clock.ages := by
  constructor
  · intro age member
    obtain ⟨entry, held, stamp⟩ := mem_ages.mp member
    exact mem_ages.mpr ⟨entry, keeps.entries age.2 entry held, stamp⟩
  · intro age member other present outside
    obtain ⟨kept, held, stamp⟩ := mem_ages.mp member
    obtain ⟨dropped, found, old⟩ := mem_ages.mp present
    have gone : result.counts[other.2]? = none := by
      apply Option.eq_none_iff_forall_ne_some.mpr
      intro entry still
      obtain rfl : entry = dropped := Option.some.inj ((keeps.entries other.2 entry still).symm.trans found)
      exact outside (mem_ages.mpr ⟨entry, still, old⟩)
    have order := keeps.newer age.2 other.2 kept dropped held found gone
    rw [stamp, old] at order
    rw [Age.before, order]
    rfl

theorem keepsNewest_prune (clock : VectorClock) (maxEntries : Nat) :
    KeepsNewest clock maxEntries (clock.prune maxEntries) where
  entries _ _ := lookup_of_prune
  size := size_prune clock maxEntries
  newer node other kept dropped held found gone := by
    have outside : (dropped.updatedMs, other) ∉ (clock.prune maxEntries).ages := by
      intro member
      have still := (mem_ages_of_part (fun _ _ => lookup_of_prune) found).mp member
      cases gone.symm.trans still
    have before := (upperPart_prune clock maxEntries).above _ (mem_ages_of_lookup held) _
      (mem_ages_of_lookup found) outside
    cases order : Age.order (dropped.updatedMs, other) (kept.updatedMs, node) with
    | lt => rfl
    | eq => exact absurd (Age.eq_of_order order ▸ mem_ages_of_lookup held) outside
    | gt =>
      rw [Age.before, order] at before
      cases before

theorem keepsNewest_iff : KeepsNewest clock maxEntries result ↔ result = clock.prune maxEntries := by
  constructor
  · intro keeps
    exact eq_prune keeps.entries keeps.upperPart keeps.size
  · rintro rfl
    exact keepsNewest_prune clock maxEntries

/-- Pruning keeps exactly the newest entries, and the smaller of two bounds decides. -/
theorem prune_keeps_newest (clock : VectorClock) (maxEntries fewer : Nat) :
    (∀ result : VectorClock, KeepsNewest clock maxEntries result ↔ result = clock.prune maxEntries) ∧
    (clock.prune maxEntries).prune fewer = clock.prune (min fewer maxEntries) ∧
    ∀ other : VectorClock, (∀ node : Bytes, other.counts[node]? = clock.counts[node]?) →
      other.prune maxEntries = clock.prune maxEntries := by
  refine ⟨fun result => keepsNewest_iff, ?_, ?_⟩
  · apply eq_prune
    · intro node entry held
      exact lookup_of_prune (lookup_of_prune held)
    · exact (upperPart_prune (clock.prune maxEntries) fewer).trans (upperPart_prune clock maxEntries)
    · rw [size_prune, size_prune]
      omega
  · intro other same
    have equal : other = clock := VectorClock.ext (Std.ExtTreeMap.ext_getElem? same)
    rw [equal]

/-- What a pruned clock still knows of a node is all the clock knew. -/
theorem get_prune_of_mem (member : node ∈ (clock.prune maxEntries).nodes) :
    (clock.prune maxEntries).get node = clock.get node := by
  rw [mem_nodes, get_prune] at member
  rw [get_prune]
  split at member
  · exact absurd rfl member
  · rename_i stays
    simp [stays]

/-- Of two ordered clocks the newer one has at least as many entries left, so if the older one
knew all that is left of it, nothing else is left of the older one. -/
theorem prune_le_prune (order : b ≤ a) (flipped : a.prune maxEntries ≤ b.prune maxEntries) :
    b.prune maxEntries ≤ a.prune maxEntries := by
  have fewer : (b.prune maxEntries).nodes.card ≤ (a.prune maxEntries).nodes.card := by
    have sizes := Finset.card_le_card (nodes_subset order)
    simp only [card_nodes, size_prune] at sizes ⊢
    omega
  have same := Finset.eq_of_subset_of_card_le (nodes_subset flipped) fewer
  intro node
  by_cases member : node ∈ (a.prune maxEntries).nodes
  · calc (b.prune maxEntries).get node
        ≤ b.get node := prune_le b maxEntries node
      _ ≤ a.get node := order node
      _ = (a.prune maxEntries).get node := (get_prune_of_mem member).symm
  · have unknown : (b.prune maxEntries).get node = 0 := by
      rw [same, mem_nodes, not_not] at member
      exact member
    rw [unknown]
    exact UInt64.zero_le

/-- Pruning never turns a winner into a loser. -/
theorem prune_never_flips (a b : VectorClock) (maxEntries : Nat) (dominates : compare a b = .aDominates) :
    compare (a.prune maxEntries) (b.prune maxEntries) ≠ .bDominates := by
  intro flipped
  have order := compare_aDominates_iff.mp dominates
  have less := compare_bDominates_iff.mp flipped
  exact not_le_of_gt less (prune_le_prune order.le less.le)

/-- The winner keeps an entry the loser has dropped, and the other way round. -/
theorem prune_never_flips_mixed :
    compare (((empty.set [120] 2 0).set [121] 1 5).prune 1) (((empty.set [120] 1 9).set [121] 1 5).prune 1) ≠
      .bDominates :=
  prune_never_flips ((empty.set [120] 2 0).set [121] 1 5) ((empty.set [120] 1 9).set [121] 1 5) 1 (by decide +kernel)

/-- The node's entry is one of the `maxEntries` newest. -/
def Recent (clock : VectorClock) (maxEntries : Nat) (node : Bytes) : Prop :=
  ∃ entry, clock.counts[node]? = some entry ∧ (clock.newerThan entry.updatedMs node).length < maxEntries

theorem get_prune_of_recent (recent : clock.Recent maxEntries node) :
    (clock.prune maxEntries).get node = clock.get node := by
  obtain ⟨entry, found, few⟩ := recent
  rw [get_prune, if_neg (not_mem_dropped found few)]

theorem get_prune_of_not_recent (old : ¬ clock.Recent maxEntries node) : (clock.prune maxEntries).get node = 0 := by
  rw [get_prune]
  split
  · rfl
  · rename_i stays
    apply (get_eq_zero_iff clock node).mpr
    apply Option.eq_none_iff_forall_ne_some.mpr
    intro entry found
    rw [mem_dropped_iff found, Nat.not_le] at stays
    exact old ⟨entry, found, stays⟩

theorem Recent.get_ne_zero (recent : clock.Recent maxEntries node) : clock.get node ≠ 0 := by
  obtain ⟨entry, found, -⟩ := recent
  rw [get_of_lookup found]
  exact clock.nonzero node entry found

/-- One clock shows the other after pruning that it has seen more of the node: by an entry among
its newest that the other has not among its own, or has there with a smaller counter. -/
def Shows (clock other : VectorClock) (maxEntries : Nat) (node : Bytes) : Prop :=
  clock.Recent maxEntries node ∧ (other.Recent maxEntries node → other.get node < clock.get node)

theorem shows_iff : Shows a b maxEntries node ↔ (b.prune maxEntries).get node < (a.prune maxEntries).get node := by
  by_cases mine : a.Recent maxEntries node
  · by_cases theirs : b.Recent maxEntries node
    · simp [Shows, mine, theirs, get_prune_of_recent]
    · have seen := UInt64.pos_iff_ne_zero.mpr mine.get_ne_zero
      simp [Shows, mine, theirs, get_prune_of_recent, get_prune_of_not_recent, seen]
  · simp [Shows, mine, get_prune_of_not_recent]

/-- A conflict outlasts pruning exactly when each of the two clocks has something to show for it
among its newest entries; this is so whenever nothing is dropped. -/
theorem prune_keeps_conflict_iff (a b : VectorClock) (maxEntries : Nat) :
    (compare (a.prune maxEntries) (b.prune maxEntries) = .concurrent ↔
      (∃ node, Shows a b maxEntries node) ∧ ∃ node, Shows b a maxEntries node) ∧
    (compare a b = .concurrent → a.size ≤ maxEntries → b.size ≤ maxEntries →
      compare (a.prune maxEntries) (b.prune maxEntries) = .concurrent) := by
  constructor
  · simp only [compare_concurrent_iff, not_le_iff, shows_iff]
  · intro conflict mine theirs
    rw [prune_of_size_le mine, prune_of_size_le theirs]
    exact conflict

/-- Two conflicting versions become a winner and a loser when an entry that witnesses the
conflict is the oldest. -/
theorem prune_hides_conflict :
    ¬ ∀ (maxEntries : Nat) (a b : VectorClock), 1 ≤ maxEntries → compare a b = .concurrent →
        compare (a.prune maxEntries) (b.prune maxEntries) = .concurrent := by
  intro kept
  have still := kept 1 ((empty.set [120] 2 1).set [121] 1 5) ((empty.set [120] 1 1).set [121] 2 5) (by decide)
    (by decide +kernel)
  revert still
  decide +kernel

end VectorClock

end MiniDynamo
