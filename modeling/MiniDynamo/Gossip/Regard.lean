import MiniDynamo.Gossip.Incarnations
import MiniDynamo.Gossip.Standing

/-! What one node holds of another, beside what that other says of itself, through the
exchanges of full states between the two. -/

namespace MiniDynamo

/-- What a holder holds of a subject, and the subject's own class and incarnation. -/
structure Regard where
  held : Standing
  own : StateClass × UInt64

namespace Regard

variable {regard : Regard}

/-- One exchange. If the holder begins it, the subject first hears what is held of it and
then speaks for itself; if the subject begins, it is the other way round. -/
def round (byHolder : Bool) (regard : Regard) : Regard :=
  if byHolder then
    let own := Standing.heed regard.own regard.held
    ⟨Standing.take own regard.held, own⟩
  else
    let held := Standing.take regard.own regard.held
    ⟨held, Standing.heed regard.own held⟩

/-- The holder has the subject as the subject is. -/
def Matched (regard : Regard) : Prop := Standing.Agree regard.held (some regard.own)

/-- The subject is up and its holder believes in a later incarnation, or in a death that no
later incarnation can refute. -/
def Stuck (regard : Regard) : Prop :=
  regard.own.1 = .alive ∧ ∃ held, regard.held = some held ∧
    (held.1 = .alive ∧ regard.own.2 < held.2 ∨ held.1 = .dead ∧ held.2 = lastIncarnation)

/-- The subject has refuted its death, and the holder has not heard of it yet. -/
def Overtaken (regard : Regard) : Prop :=
  regard.own.1 = .alive ∧ ∃ incarnation, regard.held = some (.dead, incarnation) ∧ incarnation < regard.own.2

theorem Stuck.not_matched (stuck : regard.Stuck) : ¬ regard.Matched := by
  obtain ⟨alive, held, known, wrong⟩ := stuck
  rintro ⟨mine, theirs, found, same, classes, incarnations⟩
  obtain rfl := Option.some.inj (known.symm.trans found)
  obtain rfl := Option.some.inj same
  rcases wrong with ⟨up, later⟩ | ⟨dead, -⟩
  · rw [incarnations up] at later
    exact absurd later (UInt64.lt_irrefl _)
  · rw [dead, alive] at classes
    cases classes

theorem Stuck.round (stuck : regard.Stuck) (byHolder : Bool) : (regard.round byHolder).Stuck := by
  obtain ⟨held, ⟨own, incarnation⟩⟩ := regard
  obtain ⟨rfl, ⟨heldClass, heldAt⟩, rfl, wrong⟩ := stuck
  rcases wrong with ⟨rfl, later⟩ | ⟨rfl, rfl⟩
  · have refused := UInt64.le_of_lt later
    cases byHolder <;> simp only [Regard.round, Standing.take, Standing.heed, refused, ↓reduceIte, Bool.false_eq_true] <;>
      exact ⟨rfl, _, rfl, .inl ⟨rfl, later⟩⟩
  · -- the refutation wraps to zero, and the dead record outranks it
    have top : ∀ incarnation : UInt64, incarnation ≤ lastIncarnation := by
      intro incarnation
      rw [UInt64.le_iff_toNat_le]
      have bound := incarnation.toNat_lt
      have last : lastIncarnation.toNat = 2 ^ 64 - 1 := by decide
      omega
    have accused : ¬ lastIncarnation < incarnation := UInt64.not_lt.mpr (top incarnation)
    cases byHolder <;> simp only [Regard.round, Standing.take, Standing.heed, top, accused, ↓reduceIte,
      Bool.false_eq_true] <;> exact ⟨rfl, _, rfl, .inr ⟨rfl, rfl⟩⟩

theorem Matched.round (matched : regard.Matched) (byHolder : Bool) : (regard.round byHolder).Matched := by
  obtain ⟨held, ⟨own, incarnation⟩⟩ := regard
  obtain ⟨⟨heldClass, heldAt⟩, theirs, rfl, same, classes, incarnations⟩ := matched
  obtain rfl := Option.some.inj same
  obtain rfl : heldClass = own := classes
  cases heldClass with
  | alive =>
    obtain rfl : heldAt = incarnation := incarnations rfl
    cases byHolder <;> simp [Regard.round, Standing.take, Standing.heed, Matched, Standing.Agree]
  | dead =>
    by_cases stale : heldAt < incarnation <;> cases byHolder <;>
      simp [Regard.round, Standing.take, Standing.heed, Matched, Standing.Agree, stale]
  | left => cases byHolder <;> simp [Regard.round, Standing.take, Standing.heed, Matched, Standing.Agree]

theorem Overtaken.round (overtaken : regard.Overtaken) (byHolder : Bool) : (regard.round byHolder).Matched := by
  obtain ⟨held, ⟨own, incarnation⟩⟩ := regard
  obtain ⟨rfl, died, rfl, later⟩ := overtaken
  have newer : ¬ incarnation ≤ died := UInt64.not_le.mpr later
  have answered : died < incarnation := later
  cases byHolder <;> simp [Regard.round, Standing.take, Standing.heed, newer, answered, Matched, Standing.Agree]

/-- A departure is taken whatever is held. -/
theorem matched_of_left (held : Standing) (incarnation : UInt64) (byHolder : Bool) :
    (round byHolder ⟨held, (.left, incarnation)⟩).Matched := by
  rcases held with - | ⟨heldClass, heldAt⟩
  · cases byHolder <;> simp [Regard.round, Standing.take, Standing.heed, Matched, Standing.Agree]
  · cases heldClass with
    | dead =>
      by_cases stale : heldAt < incarnation <;> cases byHolder <;>
        simp [Regard.round, Standing.take, Standing.heed, Matched, Standing.Agree, stale]
    | _ => cases byHolder <;> simp [Regard.round, Standing.take, Standing.heed, Matched, Standing.Agree]

theorem matched_of_current {heldAt incarnation : UInt64} (current : heldAt ≤ incarnation) (byHolder : Bool) :
    (round byHolder ⟨some (.alive, heldAt), (.alive, incarnation)⟩).Matched := by
  by_cases same : incarnation ≤ heldAt <;> cases byHolder <;>
    simp [Regard.round, Standing.take, Standing.heed, Matched, Standing.Agree, same, UInt64.le_antisymm_iff, current]

/-- A death that can be refuted is refuted: for both, or for the subject at the end of an
exchange that it began. -/
theorem refuted_of_dead {heldAt : UInt64} (below : heldAt ≠ lastIncarnation) (incarnation : UInt64) (byHolder : Bool) :
    (round byHolder ⟨some (.dead, heldAt), (.alive, incarnation)⟩).Matched ∨
      (round byHolder ⟨some (.dead, heldAt), (.alive, incarnation)⟩).Overtaken := by
  have newer := lt_succ_incarnation.mpr below
  by_cases stale : heldAt < incarnation
  · left
    cases byHolder <;> simp [Regard.round, Standing.take, Standing.heed, Matched, Standing.Agree, stale,
      UInt64.not_le.mpr stale]
  · have outranked : incarnation ≤ heldAt := UInt64.not_lt.mp stale
    cases byHolder with
    | true =>
      left
      simp [Regard.round, Standing.take, Standing.heed, Matched, Standing.Agree, stale, UInt64.not_le.mpr newer]
    | false =>
      right
      simp [Regard.round, Standing.take, Standing.heed, Overtaken, stale, outranked, newer]

/-- One exchange settles all but a death that the subject refutes only at its end. -/
theorem matched_or_overtaken (proper : regard.own.1 ≠ .dead) (free : ¬ regard.Stuck) (byHolder : Bool) :
    (regard.round byHolder).Matched ∨ (regard.round byHolder).Overtaken := by
  obtain ⟨held, ⟨own, incarnation⟩⟩ := regard
  cases own with
  | dead => exact absurd rfl proper
  | left => exact .inl (matched_of_left held incarnation byHolder)
  | alive =>
    rcases held with - | ⟨heldClass, heldAt⟩
    · left
      cases byHolder <;> simp [Regard.round, Standing.take, Standing.heed, Matched, Standing.Agree]
    · cases heldClass with
      | left =>
        left
        cases byHolder <;> simp [Regard.round, Standing.take, Standing.heed, Matched, Standing.Agree]
      | alive =>
        have current : heldAt ≤ incarnation :=
          UInt64.not_lt.mp (fun later => free ⟨rfl, _, rfl, .inl ⟨rfl, later⟩⟩)
        exact .inl (matched_of_current current byHolder)
      | dead =>
        have below : heldAt ≠ lastIncarnation := fun last => free ⟨rfl, _, rfl, .inr ⟨rfl, last⟩⟩
        exact refuted_of_dead below incarnation byHolder

/-- Two exchanges settle what the holder has of the subject, unless it is stuck. -/
theorem matched_round_round_iff (proper : regard.own.1 ≠ .dead) (first second : Bool) :
    ((regard.round first).round second).Matched ↔ ¬ regard.Stuck := by
  constructor
  · intro matched stuck
    exact ((stuck.round first).round second).not_matched matched
  · intro free
    rcases matched_or_overtaken proper free first with matched | overtaken
    · exact matched.round second
    · exact overtaken.round second

end Regard

end MiniDynamo
