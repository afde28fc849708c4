import Mathlib.Data.List.TakeWhile
import Mathlib.Data.List.Nodup

/-! The first occurrences of a list in their order, and what taking the first few of
them makes of a list with one member more or less. -/

namespace MiniDynamo

section FirstSeen

variable {α : Type} [BEq α] [LawfulBEq α]

theorem eraseDups_filter (keep : α → Bool) (list : List α) :
    (list.filter keep).eraseDups = list.eraseDups.filter keep := by
  cases list with
  | nil => rfl
  | cons head rest =>
    have inner := eraseDups_filter keep (rest.filter (fun other => !other == head))
    by_cases kept : keep head = true
    · rw [List.filter_cons_of_pos kept, List.eraseDups_cons, List.eraseDups_cons, List.filter_cons_of_pos kept,
        ← inner, List.filter_filter, List.filter_filter]
      simp only [Bool.and_comm]
    · -- later occurrences of the head are dropped as well, so they may go before the filter
      have same : rest.filter keep = (rest.filter (fun other => !other == head)).filter keep := by
        rw [List.filter_filter]
        refine List.filter_congr (fun other _ => ?_)
        by_cases hit : other = head
        · simp [hit, kept]
        · simp [hit]
      rw [List.filter_cons_of_neg kept, List.eraseDups_cons, List.filter_cons_of_neg kept, ← inner, same]
termination_by list.length
decreasing_by exact Nat.lt_succ_of_le (List.length_filter_le _ _)

theorem nodup_eraseDups (list : List α) : list.eraseDups.Nodup := by
  cases list with
  | nil => simp
  | cons head rest =>
    rw [List.eraseDups_cons, List.nodup_cons]
    exact ⟨by simp, nodup_eraseDups _⟩
termination_by list.length
decreasing_by exact Nat.lt_succ_of_le (List.length_filter_le _ _)

theorem length_eraseDups_congr {left right : List α} (same : ∀ item, item ∈ left ↔ item ∈ right) :
    left.eraseDups.length = right.eraseDups.length := by
  refine ((List.perm_ext_iff_of_nodup (nodup_eraseDups left) (nodup_eraseDups right)).mpr (fun item => ?_)).length_eq
  rw [List.mem_eraseDups, List.mem_eraseDups, same]

theorem eraseDups_map {β : Type} [BEq β] [LawfulBEq β] (f : α → β) (list : List α) :
    (∀ first ∈ list, ∀ second ∈ list, f first = f second → first = second) →
      (list.map f).eraseDups = list.eraseDups.map f := by
  cases list with
  | nil => exact fun _ => rfl
  | cons head rest =>
    intro faithful
    have inner := eraseDups_map f (rest.filter (fun other => !other == head)) (fun first one second two =>
      faithful first (List.mem_cons_of_mem head (List.mem_of_mem_filter one)) second
        (List.mem_cons_of_mem head (List.mem_of_mem_filter two)))
    rw [List.map_cons, List.eraseDups_cons, List.eraseDups_cons, List.map_cons, ← inner, List.filter_map]
    congr 3
    refine List.filter_congr (fun other member => ?_)
    rw [Bool.eq_iff_iff]
    simp only [Function.comp_apply, Bool.not_eq_true', beq_eq_false_iff_ne, ne_eq, not_iff_not]
    refine ⟨faithful other (List.mem_cons_of_mem head member) head List.mem_cons_self, fun same => by rw [same]⟩
termination_by list.length
decreasing_by exact Nat.lt_succ_of_le (List.length_filter_le _ _)

section Unseen

variable {item : α} {seen points : List α}

/-- What a walk along the points is still to see, at its first occurrence. -/
def unseen (seen points : List α) : List α := (points.filter (fun point => !seen.contains point)).eraseDups

omit [LawfulBEq α] in
theorem unseen_nil (points : List α) : unseen [] points = points.eraseDups := by
  rw [unseen, List.filter_eq_self.mpr (by simp)]

theorem unseen_cons_seen (known : item ∈ seen) : unseen seen (item :: points) = unseen seen points := by
  rw [unseen, List.filter_cons_of_neg (by simpa using known), unseen]

theorem unseen_cons_fresh (fresh : item ∉ seen) :
    unseen seen (item :: points) = item :: unseen (item :: seen) points := by
  rw [unseen, List.filter_cons_of_pos (by simpa using fresh), List.eraseDups_cons, List.filter_filter, unseen]
  congr 3
  funext other
  rw [Bool.eq_iff_iff]
  simp

theorem unseen_congr {other : List α} (same : ∀ item, item ∈ seen ↔ item ∈ other) :
    unseen seen points = unseen other points := by
  rw [unseen, unseen]
  congr 2
  funext item
  rw [Bool.eq_iff_iff]
  simp [same]

theorem unseen_eq_nil (covered : ∀ item ∈ points, item ∈ seen) : unseen seen points = [] := by
  rw [unseen, List.filter_eq_nil_iff.mpr (by simpa using covered)]
  rfl

end Unseen

omit [BEq α] [LawfulBEq α] in
/-- Where the predicate once false stays false, a walk that stops there misses nothing. -/
theorem takeWhile_eq_filter {test : α → Bool} {list : List α}
    (monotone : list.Pairwise (fun first second => test second = true → test first = true)) :
    list.takeWhile test = list.filter test ∧ list.dropWhile test = list.filter (fun item => !test item) := by
  induction list with
  | nil => exact ⟨rfl, rfl⟩
  | cons head rest ih =>
    obtain ⟨here, later⟩ := List.pairwise_cons.mp monotone
    by_cases passed : test head = true
    · simp [passed, ih later]
    · have none : ∀ item ∈ rest, ¬ test item = true := fun item member hit => passed (here item member hit)
      have all : rest.filter (fun item => !test item) = rest :=
        List.filter_eq_self.mpr (fun item member => by simpa using none item member)
      simp [passed, List.filter_eq_nil_iff.mpr none, all]

section Remove

variable {item : α} {list : List α} {count : Nat}

omit [BEq α] [LawfulBEq α] in
theorem filter_take_isPrefix (keep : α → Bool) (list : List α) (count : Nat) :
    (list.take count).filter keep <+: (list.filter keep).take count := by
  refine List.prefix_take_iff.mpr ⟨(List.take_prefix count list).filter keep, ?_⟩
  exact (List.length_filter_le _ _).trans (List.length_take_le count list)

/-- Removing what is not among the first ones leaves the first ones as they are. -/
theorem take_filter_of_not_mem (absent : item ∉ list.take count) :
    (list.filter (· != item)).take count = list.take count := by
  have all : (list.take count).filter (· != item) = list.take count :=
    List.filter_eq_self.mpr (fun other member => by simpa using fun same : other = item => absent (same ▸ member))
  by_cases short : list.length ≤ count
  · rw [List.take_of_length_le short] at all ⊢
    rw [all, List.take_of_length_le short]
  · have front := filter_take_isPrefix (· != item) list count
    rw [all] at front
    refine (front.eq_of_length_le ?_).symm
    rw [List.length_take, List.length_take]
    omega

/-- Removing one of the first ones moves the next one up. -/
theorem take_filter_of_mem (distinct : list.Nodup) (present : item ∈ list.take count) :
    (list.filter (· != item)).take count =
      (list.take count).filter (· != item) ++ (list.drop count).take 1 := by
  have split := List.take_append_drop count list
  have later : item ∉ list.drop count := by
    rw [← split, List.nodup_append] at distinct
    exact fun member => distinct.2.2 item present item member rfl
  have rest : (list.drop count).filter (· != item) = list.drop count :=
    List.filter_eq_self.mpr (fun other member => by simpa using fun same : other = item => later (same ▸ member))
  have one : ((list.take count).filter (· != item)).length + 1 = (list.take count).length := by
    have nodup : (list.take count).Nodup := distinct.sublist (List.take_sublist count list)
    rw [← nodup.erase_eq_filter, List.length_erase_of_mem present]
    have := List.length_pos_of_mem present
    omega
  conv_lhs => rw [← split, List.filter_append, rest, List.take_append]
  by_cases short : list.length ≤ count
  · simp only [List.drop_eq_nil_of_le short, List.take_nil, List.append_nil]
    exact List.take_of_length_le (by rw [List.length_take] at one; omega)
  · rw [List.length_take] at one
    rw [List.take_of_length_le (by omega)]
    congr 2
    omega

end Remove

end FirstSeen

end MiniDynamo
