import Mathlib.Data.List.Basic

/-! A queue whose items go out in a number of rounds each. What it holds, and what a round sends,
is told from all that was ever queued. -/

namespace MiniDynamo

/-- An item that was queued after so many rounds, to go out in as many as its budget. -/
structure Budgeted (Item : Type) where
  item : Item
  budget : Int
  queuedAt : Nat

namespace Budgeted

variable {Item : Type}

/-- What is left of a queue after a round in which everything went out. -/
def spend (queue : List (Item × Int)) : List (Item × Int) :=
  queue.filterMap (fun waiting => if waiting.2 - 1 ≤ 0 then none else some (waiting.1, waiting.2 - 1))

/-- The items a round sends, in the order in which they were queued: those whose first round was not
after it and whose last round is not before it. -/
def due (ever : List (Budgeted Item)) (round : Nat) : List Item :=
  (ever.filter (fun queued => queued.queuedAt ≤ round ∧ (round : Int) < queued.queuedAt + queued.budget)).map item

/-- The queue after so many rounds. -/
def waiting (ever : List (Budgeted Item)) (rounds : Nat) : List (Item × Int) :=
  (ever.filter (fun queued => (rounds : Int) < queued.queuedAt + queued.budget)).map
    (fun queued => (queued.item, queued.queuedAt + queued.budget - rounds))

variable {ever : List (Budgeted Item)} {rounds : Nat}

theorem spend_waiting (ever : List (Budgeted Item)) (rounds : Nat) :
    spend (waiting ever rounds) = waiting ever (rounds + 1) := by
  induction ever with
  | nil => rfl
  | cons queued rest ih =>
    unfold waiting spend at ih ⊢
    by_cases gone : (rounds : Int) < queued.queuedAt + queued.budget
    · by_cases last : queued.queuedAt + queued.budget - (rounds : Int) - 1 ≤ 0
      · have spent : ¬ ((rounds + 1 : Nat) : Int) < queued.queuedAt + queued.budget := by omega
        rw [List.filter_cons_of_pos (by simpa using gone), List.filter_cons_of_neg (by simpa using spent),
          List.map_cons, List.filterMap_cons_none (by rw [if_pos last]), ih]
      · have stays : ((rounds + 1 : Nat) : Int) < queued.queuedAt + queued.budget := by omega
        have fewer : queued.queuedAt + queued.budget - (rounds : Int) - 1 =
            queued.queuedAt + queued.budget - ((rounds + 1 : Nat) : Int) := by omega
        rw [List.filter_cons_of_pos (by simpa using gone), List.filter_cons_of_pos (by simpa using stays),
          List.map_cons, List.filterMap_cons_some (by rw [if_neg last]), ih, fewer, List.map_cons]
    · have spent : ¬ ((rounds + 1 : Nat) : Int) < queued.queuedAt + queued.budget := by omega
      rw [List.filter_cons_of_neg (by simpa using gone), List.filter_cons_of_neg (by simpa using spent), ih]

/-- A round sends all that waits. -/
theorem due_eq (past : ∀ queued ∈ ever, queued.queuedAt ≤ rounds) :
    due ever rounds = (waiting ever rounds).map Prod.fst := by
  rw [due, waiting, List.map_map]
  congr 1
  refine List.filter_congr (fun queued member => ?_)
  simp [past queued member]

theorem waiting_append (items : List Item) {budget : Int} (positive : 0 < budget) :
    waiting (ever ++ items.map (⟨·, budget, rounds⟩)) rounds = waiting ever rounds ++ items.map (·, budget) := by
  rw [waiting, List.filter_append, List.map_append, ← waiting, List.filter_eq_self.mpr, List.map_map]
  · congr 1
    refine List.map_congr_left (fun item _ => Prod.ext rfl ?_)
    change rounds + budget - (rounds : Int) = budget
    omega
  · intro queued member
    obtain ⟨item, -, rfl⟩ := List.mem_map.mp member
    exact decide_eq_true (Int.lt_add_of_pos_right _ positive)

/-- What is queued later was not due before. -/
theorem due_append (items : List Item) (budget : Int) {round : Nat} (before : round < rounds) :
    due (ever ++ items.map (⟨·, budget, rounds⟩)) round = due ever round := by
  have later : due (items.map (⟨·, budget, rounds⟩)) round = [] := by
    refine List.map_eq_nil_iff.mpr (List.filter_eq_nil_iff.mpr (fun queued member => ?_))
    obtain ⟨item, -, rfl⟩ := List.mem_map.mp member
    simp [Nat.not_le_of_lt before]
  rw [due, List.filter_append, List.map_append, ← due, ← due, later, List.append_nil]

end Budgeted

end MiniDynamo
