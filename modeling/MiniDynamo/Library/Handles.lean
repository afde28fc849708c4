import Mathlib.Data.List.Count

/-! A table of numbered handles, as a system gives them out, and who holds them. A number is given
out again once its handle is closed, so the handles are told apart by the order in which they were
opened. -/

namespace MiniDynamo

/-- One of several holders changes what it holds. -/
theorem count_flatMap_set {α β : Type} [BEq β] [LawfulBEq β] (list : α → List β) {items : List α} {index : Nat}
    {old : α} (found : items[index]? = some old) (new : α) (item : β) :
    ((items.set index new).flatMap list).count item + (list old).count item =
      (items.flatMap list).count item + (list new).count item := by
  induction items generalizing index with
  | nil => cases found
  | cons first rest ih =>
    cases index with
    | zero =>
      obtain rfl := Option.some.inj found
      simp only [List.set_cons_zero, List.flatMap_cons, List.count_append]
      omega
    | succ index =>
      have later := ih found
      simp only [List.set_cons_succ, List.flatMap_cons, List.count_append]
      omega

/-- The handles ever opened, each with its number and what it was opened for; the one open under a
number; the closed ones; and how often a number was closed under which none was open. -/
structure Handles (Label : Type) where
  issued : List (Int × Label)
  table : Int → Option Nat
  closed : List Nat
  stray : Nat

namespace Handles

variable {Label : Type}

def empty : Handles Label := ⟨[], fun _ => none, [], 0⟩

def issue (handles : Handles Label) (number : Int) (label : Label) : Handles Label :=
  { handles with
    issued := handles.issued ++ [(number, label)]
    table := fun other => if other = number then some handles.issued.length else handles.table other }

def close (handles : Handles Label) (number : Int) : Handles Label :=
  match handles.table number with
  | none => { handles with stray := handles.stray + 1 }
  | some serial =>
    { handles with
      table := fun other => if other = number then none else handles.table other
      closed := serial :: handles.closed }

/-- A handle that is open under its number, with what it was opened for. -/
def IsOpen (handles : Handles Label) (number : Int) (serial : Nat) (label : Label) : Prop :=
  handles.table number = some serial ∧ handles.issued[serial]? = some (number, label)

/-- Every number leads to a handle of that number, and every handle is open and was never closed,
or is not and was closed once. -/
structure Consistent (handles : Handles Label) : Prop where
  numbered : ∀ number serial, handles.table number = some serial → ∃ label, handles.IsOpen number serial label
  once : ∀ serial number label, handles.issued[serial]? = some (number, label) →
    handles.closed.count serial = if handles.table number = some serial then 0 else 1
  known : ∀ serial ∈ handles.closed, serial < handles.issued.length

variable {handles : Handles Label} {number other : Int} {serial : Nat} {label : Label}

theorem consistent_empty : (empty : Handles Label).Consistent :=
  ⟨by simp [empty], by simp [empty], by simp [empty]⟩

theorem IsOpen.lt (here : handles.IsOpen number serial label) : serial < handles.issued.length :=
  (List.getElem?_eq_some_iff.mp here.2).1

/-- What was open stays open when another handle is issued. -/
theorem isOpen_issue (consistent : handles.Consistent) (free : handles.table number = none) {label' : Label} :
    (handles.issue number label').IsOpen other serial label ↔
      handles.IsOpen other serial label ∨ other = number ∧ serial = handles.issued.length ∧ label = label' := by
  unfold IsOpen issue
  by_cases same : other = number
  · subst same
    simp only [↓reduceIte, free, reduceCtorEq, false_and, true_and, false_or, Option.some.injEq]
    constructor
    · rintro ⟨rfl, found⟩
      simp at found
      exact ⟨rfl, found.symm⟩
    · rintro ⟨rfl, rfl⟩
      simp
  · simp only [same, ↓reduceIte, false_and, or_false]
    refine and_congr_right (fun found => ?_)
    obtain ⟨_, here⟩ := consistent.numbered other serial found
    rw [List.getElem?_append_left here.lt]

theorem table_issue : (handles.issue number label).table other =
    if other = number then some handles.issued.length else handles.table other := rfl

theorem Consistent.issue (consistent : handles.Consistent) (free : handles.table number = none) :
    (handles.issue number label).Consistent where
  numbered := by
    intro other serial found
    by_cases same : other = number
    · refine ⟨label, (isOpen_issue consistent free).mpr (.inr ⟨same, ?_, rfl⟩)⟩
      simpa [Handles.issue, same, eq_comm] using found
    · have before : handles.table other = some serial := by simpa [Handles.issue, same] using found
      obtain ⟨label', here⟩ := consistent.numbered other serial before
      exact ⟨label', (isOpen_issue consistent free).mpr (.inl here)⟩
  once := by
    intro serial other label' found
    change handles.closed.count serial =
      if (if other = number then _ else handles.table other) = some serial then 0 else 1
    rcases Nat.lt_or_ge serial handles.issued.length with old | new
    · have before : handles.issued[serial]? = some (other, label') := by
        rwa [Handles.issue, List.getElem?_append_left old] at found
      rw [consistent.once serial other label' before]
      by_cases same : other = number
      · have fresh : handles.issued.length ≠ serial := by omega
        simp [same, free, fresh]
      · simp [same]
    · have last : serial = handles.issued.length := by
        have bound := (List.getElem?_eq_some_iff.mp found).1
        simp [Handles.issue] at bound
        omega
      obtain rfl : number = other := by
        rw [Handles.issue, last, List.getElem?_concat_length] at found
        exact (Prod.mk.inj (Option.some.inj found)).1
      have unclosed : serial ∉ handles.closed := fun member => absurd (consistent.known serial member) (by omega)
      simp [last, List.count_eq_zero.mpr (last ▸ unclosed)]
  known := by
    intro serial member
    have bound := consistent.known serial member
    simp only [Handles.issue, List.length_append, List.length_singleton]
    omega

theorem isOpen_close :
    (handles.close number).IsOpen other serial label ↔ handles.IsOpen other serial label ∧ other ≠ number := by
  unfold IsOpen close
  split
  · rename_i free
    refine ⟨fun here => ⟨here, ?_⟩, fun here => here.1⟩
    rintro rfl
    rw [free] at here
    cases here.1
  · by_cases same : other = number
    · simp [same]
    · simp [same]

theorem table_close : (handles.close number).table other = if other = number then none else handles.table other := by
  unfold close
  split
  · rename_i free
    split
    · rename_i same
      rw [same, free]
    · rfl
  · rfl

theorem issued_close : (handles.close number).issued = handles.issued := by
  unfold close
  split <;> rfl

/-- A close of an open number is not stray. -/
theorem stray_close (here : handles.table number ≠ none) : (handles.close number).stray = handles.stray := by
  unfold close
  split
  · exact absurd ‹_› here
  · rfl

theorem Consistent.close (consistent : handles.Consistent) (number : Int) : (handles.close number).Consistent where
  numbered := by
    intro other serial found
    rw [table_close] at found
    split at found
    · cases found
    · rename_i different
      obtain ⟨label, here⟩ := consistent.numbered other serial found
      exact ⟨label, isOpen_close.mpr ⟨here, different⟩⟩
  once := by
    intro serial other label found
    rw [issued_close] at found
    rw [table_close]
    have before := consistent.once serial other label found
    unfold Handles.close
    split
    · rename_i free
      rw [before]
      by_cases same : other = number
      · simp [same, free]
      · simp [same]
    · rename_i current here
      change (current :: handles.closed).count serial = _
      obtain ⟨label', shape⟩ := consistent.numbered number current here
      by_cases last : serial = current
      · subst last
        obtain ⟨rfl, -⟩ := Prod.mk.inj (Option.some.inj (found.symm.trans shape.2))
        rw [List.count_cons_self, before]
        simp [here]
      · rw [List.count_cons_of_ne (Ne.symm last), before]
        by_cases same : other = number
        · have different : current ≠ serial := Ne.symm last
          simp [same, here, different]
        · simp [same]
  known := by
    intro serial member
    rw [issued_close]
    unfold Handles.close at member
    split at member
    · exact consistent.known serial member
    · rename_i current here
      rcases List.mem_cons.mp member with rfl | before
      · obtain ⟨_, shape⟩ := consistent.numbered number serial here
        exact shape.lt
      · exact consistent.known serial before

/-- A number has one open handle. -/
theorem IsOpen.unique (here : handles.IsOpen number serial label) {serial' : Nat} {label' : Label}
    (there : handles.IsOpen number serial' label') : serial' = serial ∧ label' = label := by
  obtain rfl := Option.some.inj (here.1.symm.trans there.1)
  exact ⟨rfl, (Prod.mk.inj (Option.some.inj (there.2.symm.trans here.2))).2⟩

end Handles

end MiniDynamo
