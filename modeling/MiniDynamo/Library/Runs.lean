import Mathlib.Data.List.Basic

/-! Runs of a machine whose steps are all of one kind. -/

namespace MiniDynamo

section Runs

variable {State Action : Type} {step : State → Action → State} {property other : State → Action → Prop}
variable {state : State} {actions : List Action}

/-- Every step of the run has the property, in the state it is taken in. -/
def Throughout (step : State → Action → State) (property : State → Action → Prop) : State → List Action → Prop
  | _, [] => True
  | state, action :: rest => property state action ∧ Throughout step property (step state action) rest

instance decidableThroughout [∀ state action, Decidable (property state action)] :
    (state : State) → (actions : List Action) → Decidable (Throughout step property state actions)
  | _, [] => isTrue trivial
  | state, action :: rest =>
    have := decidableThroughout (step state action) rest
    inferInstanceAs (Decidable (property state action ∧ Throughout step property (step state action) rest))

theorem throughout_congr (same : ∀ state action, property state action ↔ other state action) :
    Throughout step property state actions ↔ Throughout step other state actions := by
  induction actions generalizing state with
  | nil => exact Iff.rfl
  | cons action rest ih => exact and_congr (same state action) ih

theorem throughout_and :
    Throughout step (fun state action => property state action ∧ other state action) state actions ↔
      Throughout step property state actions ∧ Throughout step other state actions := by
  induction actions generalizing state with
  | nil => simp [Throughout]
  | cons action rest ih => rw [Throughout, Throughout, Throughout, ih, and_and_and_comm]

theorem throughout_append {more : List Action} :
    Throughout step property state (actions ++ more) ↔
      Throughout step property state actions ∧ Throughout step property (actions.foldl step state) more := by
  induction actions generalizing state with
  | nil => simp [Throughout]
  | cons action rest ih =>
    rw [List.cons_append, Throughout, Throughout, ih, and_assoc]
    rfl

/-- A relation between states that each step extends holds between the ends of a run. -/
theorem Throughout.related (related : State → State → Prop) (refl : ∀ state, related state state)
    (trans : ∀ first second third, related first second → related second third → related first third)
    (steps : Throughout step (fun state action => related state (step state action)) state actions) :
    related state (actions.foldl step state) := by
  induction actions generalizing state with
  | nil => exact refl state
  | cons action rest ih => exact trans _ _ _ steps.1 (ih steps.2)

/-- If a step keeps an invariant exactly when it has the property, then the invariant holds
in every state of a run exactly when every step of it has the property. -/
theorem always_iff_throughout {invariant : State → Prop}
    (keeps : ∀ state action, invariant state → (invariant (step state action) ↔ property state action))
    (holds : invariant state) :
    (∀ before after, actions = before ++ after → invariant (before.foldl step state)) ↔
      Throughout step property state actions := by
  induction actions generalizing state with
  | nil =>
    refine iff_of_true (fun before after split => ?_) trivial
    rw [(List.append_eq_nil_iff.mp split.symm).1]
    exact holds
  | cons action rest ih =>
    constructor
    · intro always
      have next : invariant (step state action) := always [action] rest rfl
      refine ⟨(keeps state action holds).mp next, (ih next).mp (fun before after split => ?_)⟩
      exact always (action :: before) after (by rw [split]; rfl)
    · rintro ⟨first, steps⟩ before after split
      cases before with
      | nil => exact holds
      | cons head before =>
        obtain ⟨rfl, remainder⟩ := List.cons.inj split
        exact (ih ((keeps state action holds).mpr first)).mpr steps before after remainder

end Runs

section Walks

variable {State : Type} {hop : State → Option State} {start here there : State}

/-- Where a walk stands after so many hops, or `none` once it has ended. -/
def walk (hop : State → Option State) (start : State) : Nat → Option State
  | 0 => some start
  | count + 1 => (walk hop start count).bind hop

theorem walk_succ {count : Nat} (more : walk hop start (count + 1) = some there) :
    ∃ here, walk hop start count = some here ∧ hop here = some there :=
  Option.bind_eq_some_iff.mp more

section Descent

variable {height : State → Nat}
  (descends : ∀ count here there, walk hop start count = some here → hop here = some there → height there < height here)

include descends

theorem walk_descends (count more : Nat) (first : walk hop start count = some here)
    (second : walk hop start (count + more + 1) = some there) : height there < height here := by
  induction more generalizing there with
  | zero =>
    obtain ⟨middle, reached, last⟩ := walk_succ second
    obtain rfl := Option.some.inj (first.symm.trans reached)
    exact descends count _ _ reached last
  | succ more ih =>
    obtain ⟨middle, reached, last⟩ := walk_succ second
    exact Nat.lt_trans (descends _ _ _ reached last) (ih reached)

/-- A walk that descends at every hop ends. -/
theorem walk_ends : ∃ count, walk hop start count = none := by
  have bounded : ∀ count here, walk hop start count = some here → height here + count ≤ height start := by
    intro count
    induction count with
    | zero =>
      intro here reached
      rw [← Option.some.inj reached]
      exact Nat.le_refl _
    | succ count ih =>
      intro there reached
      obtain ⟨here, before, last⟩ := walk_succ reached
      have bound := ih here before
      have falls := descends count here there before last
      omega
  refine ⟨height start + 1, Option.eq_none_iff_forall_ne_some.mpr (fun here reached => ?_)⟩
  have bound := bounded _ here reached
  omega

end Descent

end Walks

end MiniDynamo
