import Mathlib.Data.List.Basic

/-! Lists in which every item of one kind is followed by an item of another. -/

namespace MiniDynamo

section Answered

variable {Item : Type} {asks answers : Item → Prop} {items : List Item} {last : Item}

/-- Every item that asks has one that answers after it. -/
def Answered (asks answers : Item → Prop) : List Item → Prop
  | [] => True
  | item :: rest => (asks item → ∃ reply ∈ rest, answers reply) ∧ Answered asks answers rest

instance Answered.decidable [DecidablePred asks] [DecidablePred answers] :
    (items : List Item) → Decidable (Answered asks answers items)
  | [] => .isTrue trivial
  | item :: rest =>
    have := Answered.decidable rest
    inferInstanceAs (Decidable ((asks item → ∃ reply ∈ rest, answers reply) ∧ Answered asks answers rest))

theorem answered_of_silent (silent : ∀ item ∈ items, ¬ asks item) : Answered asks answers items := by
  induction items with
  | nil => trivial
  | cons item rest ih =>
    refine ⟨fun asked => absurd asked (silent item (List.mem_cons_self ..)), ?_⟩
    exact ih (fun later member => silent later (List.mem_cons_of_mem _ member))

theorem Answered.suffix {fewer : List Item} (answered : Answered asks answers items) (ending : fewer <:+ items) :
    Answered asks answers fewer := by
  induction items with
  | nil => rwa [List.suffix_nil.mp ending]
  | cons item rest ih =>
    rcases List.suffix_cons_iff.mp ending with rfl | shorter
    · exact answered
    · exact ih answered.2 shorter

/-- One more item that does not ask; if it answers, it answers all before it. -/
theorem answered_snoc (settled : Answered asks answers items ∨ answers last) (quiet : ¬ asks last) :
    Answered asks answers (items ++ [last]) := by
  induction items with
  | nil => exact ⟨fun asked => absurd asked quiet, trivial⟩
  | cons item rest ih =>
    rcases settled with answered | reply
    · refine ⟨fun asked => ?_, ih (.inl answered.2)⟩
      obtain ⟨reply, later, given⟩ := answered.1 asked
      exact ⟨reply, List.mem_append_left _ later, given⟩
    · exact ⟨fun _ => ⟨last, by simp, reply⟩, ih (.inr reply)⟩

end Answered

end MiniDynamo
