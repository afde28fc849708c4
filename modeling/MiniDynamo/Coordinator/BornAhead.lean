import MiniDynamo.Coordinator.WritePath

/-! When a new version is ahead of what it was made from: the client's context, and the copy the
coordinator holds. -/

namespace MiniDynamo.Coordinator

variable {coordinator : Coordinator} {context copy clock : VectorClock} {node : Bytes} {now : UInt64}

/-- The node's entry of the clock is above both counters, so that neither of the two versions is
as new. -/
structure BornAhead (node : Bytes) (clock context copy : VectorClock) : Prop where
  entry : ∃ entry, clock.counts[node]? = some entry ∧ context.get node < entry.counter ∧ copy.get node < entry.counter
  context : clock.compare context ≠ .equal ∧ clock.compare context ≠ .bDominates
  copy : clock.compare copy ≠ .equal ∧ clock.compare copy ≠ .bDominates

theorem not_behind (ahead : copy.get node < clock.get node) :
    clock.compare copy ≠ .equal ∧ clock.compare copy ≠ .bDominates := by
  have unseen : ¬ clock ≤ copy := VectorClock.not_le_iff.mpr ⟨node, ahead⟩
  constructor
  · intro equal
    exact unseen (VectorClock.compare_equal_iff.mp equal).1
  · intro behind
    exact unseen (VectorClock.compare_bDominates_iff.mp behind).le

/-- A bumped counter that is stored has not wrapped. -/
theorem base_lt_of_ne_zero (positive : coordinator.base context copy + 1 ≠ 0) :
    (coordinator.base context copy).toNat + 1 < 2 ^ 64 := by
  have bound := (coordinator.base context copy).toNat_lt
  by_contra wrapped
  apply positive
  apply UInt64.toNat_inj.mp
  rw [UInt64.toNat_add, UInt64.toNat_one, UInt64.toNat_zero]
  omega

/-- The bump leaves an own entry only when it takes hold. -/
theorem steady_of_lookup {entry : Entry}
    (found : (coordinator.bump context copy now).counts[coordinator.self.nodeId]? = some entry) :
    coordinator.Steady context copy now := by
  rw [bump, VectorClock.lookup_prune] at found
  split at found
  · cases found
  · rename_i stays
    have positive : coordinator.base context copy + 1 ≠ 0 := by
      intro wrapped
      simp [wrapped, VectorClock.set, VectorClock.erase] at found
    rw [own_dropped_iff positive, Nat.not_le] at stays
    exact ⟨base_lt_of_ne_zero positive, stays⟩

theorem bornAhead_iff : BornAhead coordinator.self.nodeId (coordinator.bump context copy now) context copy ↔
    coordinator.Steady context copy now := by
  constructor
  · intro ahead
    obtain ⟨entry, found, -⟩ := ahead.entry
    exact steady_of_lookup found
  · intro steady
    obtain ⟨overContext, overCopy⟩ := ahead_of_bump steady
    refine ⟨?_, not_behind overContext, not_behind overCopy⟩
    cases found : (coordinator.bump context copy now).counts[coordinator.self.nodeId]? with
    | none =>
      rw [(VectorClock.get_eq_zero_iff _ _).mpr found] at overContext
      exact absurd overContext (by simp)
    | some entry =>
      rw [VectorClock.get_of_lookup found] at overContext overCopy
      exact ⟨entry, rfl, overContext, overCopy⟩

/-- The clock of a write made from any token, over any stored copy: it is ahead of both exactly
when the counter does not wrap and the fresh entry is not pruned. -/
theorem write_born_ahead_iff (coordinator : Coordinator) (key token : Bytes) (now : UInt64) (replies : Replies)
    (storage : Storage) :
    ∃ clock, (coordinator.bumpedClock key (.parse token) now).exec replies storage = (some clock, storage) ∧
      (BornAhead coordinator.self.nodeId clock (.parse token) (clockOf storage[key]?) ↔
        coordinator.Steady (.parse token) (clockOf storage[key]?) now) :=
  ⟨coordinator.bump (.parse token) (clockOf storage[key]?) now, rfl, bornAhead_iff⟩

/-- A coordinator `a` that keeps one entry in a clock. -/
private def frugal : Coordinator := ⟨⟨[97], [], 1⟩, .empty 1, none, false, 1⟩

/-- An entry stamped in the future outlives the coordinator's own. -/
theorem write_born_dominated :
    ¬ ∀ (coordinator : Coordinator) (key token : Bytes) (now : UInt64) (replies : Replies) (storage : Storage)
        (clock : VectorClock), 1 ≤ coordinator.maxClockEntries →
        (coordinator.bumpedClock key (.parse token) now).exec replies storage = (some clock, storage) →
        BornAhead coordinator.self.nodeId clock (.parse token) (clockOf storage[key]?) := by
  intro always
  have ahead := always frugal (ascii "k") (ascii "b:1:18446744073709551615") 7 [] ∅ _ (by decide) rfl
  have steady := bornAhead_iff.mp ahead
  revert steady
  decide +kernel

end MiniDynamo.Coordinator
