import Mathlib.Data.Finset.Dedup
import Mathlib.Data.Finset.Card
import Mathlib.Order.Lattice
import MiniDynamo.Clock.Causality

/-! A clock as a history: how many writes of each node it has seen. Histories are ordered node
by node and joined by the larger count; `compare`, `operator==` and `merge` are these, and the
stamps play no part in them. -/

namespace MiniDynamo

namespace Causality

/-- The verdict with the two clocks exchanged. -/
def swap : Causality → Causality
  | .equal => .equal
  | .aDominates => .bDominates
  | .bDominates => .aDominates
  | .concurrent => .concurrent

end Causality

namespace VectorClock

variable {a b c clock : VectorClock} {node : Bytes}

/-- How many writes of each node the clock has seen. -/
def history (clock : VectorClock) (node : Bytes) : Nat := (clock.get node).toNat

theorem le_iff_history : a ≤ b ↔ a.history ≤ b.history := by
  simp only [le_def, Pi.le_def, history, UInt64.le_iff_toNat_le]

theorem history_inj : a.history = b.history ↔ ∀ node, a.get node = b.get node := by
  simp only [funext_iff, history, UInt64.toNat_inj]

theorem le_and_le_iff : a ≤ b ∧ b ≤ a ↔ ∀ node, a.get node = b.get node := by
  rw [le_iff_history, le_iff_history, ← le_antisymm_iff, history_inj]

/-- The nodes a clock has heard of. -/
def nodes (clock : VectorClock) : Finset Bytes := clock.counts.keys.toFinset

theorem mem_nodes : node ∈ clock.nodes ↔ clock.get node ≠ 0 := by
  rw [nodes, List.mem_toFinset, OrderedMap.mem_keys_iff, ne_eq, ne_eq, get_eq_zero_iff]

theorem card_nodes (clock : VectorClock) : clock.nodes.card = clock.size := by
  rw [nodes, List.toFinset_card_of_nodup Std.ExtTreeMap.nodup_keys, Std.ExtTreeMap.length_keys]
  rfl

theorem nodes_subset (below : a ≤ b) : a.nodes ⊆ b.nodes := by
  intro node member
  rw [mem_nodes, ← UInt64.pos_iff_ne_zero] at *
  exact UInt64.lt_of_lt_of_le member (below node)

section Verdicts

theorem lt_iff : a < b ↔ (∀ node, a.get node ≤ b.get node) ∧ ∃ node, a.get node < b.get node := by
  rw [lt_iff_le_not_ge, not_le_iff, le_def]

theorem compare_swap (a b : VectorClock) : compare b a = (compare a b).swap := by
  rcases compare_cases a b with ⟨verdict, one, two⟩ | ⟨verdict, order⟩ | ⟨verdict, order⟩ | ⟨verdict, one, two⟩
  · rw [verdict]
    exact compare_equal_iff.mpr ⟨two, one⟩
  · rw [verdict]
    exact compare_bDominates_iff.mpr order
  · rw [verdict]
    exact compare_aDominates_iff.mpr order
  · rw [verdict]
    exact compare_concurrent_iff.mpr ⟨two, one⟩

/-- The first clock has seen all the second has. -/
def Covers (a b : VectorClock) : Prop := compare a b = .equal ∨ compare a b = .aDominates

theorem covers_iff : Covers a b ↔ b ≤ a := by
  unfold Covers
  rcases compare_cases a b with ⟨verdict, one, two⟩ | ⟨verdict, order⟩ | ⟨verdict, order⟩ | ⟨verdict, one, two⟩
  · simp [verdict, two]
  · simp [verdict, order.le]
  · simp [verdict, order.not_ge]
  · simp [verdict, two]

/-- Only the counters decide. -/
theorem compare_congr {left right : VectorClock} (one : ∀ node, left.get node = a.get node)
    (two : ∀ node, right.get node = b.get node) : compare left right = compare a b := by
  rcases compare_cases a b with ⟨verdict, order⟩ | ⟨verdict, order⟩ | ⟨verdict, order⟩ | ⟨verdict, order⟩
  · rw [verdict, compare_equal_iff]
    simpa only [le_def, one, two] using order
  · rw [verdict, compare_aDominates_iff, lt_iff]
    simpa only [lt_iff, one, two] using order
  · rw [verdict, compare_bDominates_iff, lt_iff]
    simpa only [lt_iff, one, two] using order
  · rw [verdict, compare_concurrent_iff]
    simpa only [le_def, one, two] using order

/-- `operator==` counts the entries of both sides and looks up those of one. -/
theorem equals_spec : a.equals b = true ↔
    a.size = b.size ∧ ∀ (node : Bytes) (entry : Entry), a.counts[node]? = some entry → b.get node = entry.counter := by
  unfold equals
  by_cases sizes : a.size = b.size
  · simp only [sizes, ne_eq, not_true_eq_false, ↓reduceIte, List.all_eq_true, true_and, Prod.forall,
      OrderedMap.mem_entries]
    apply forall_congr'
    intro node
    apply forall_congr'
    intro entry
    apply imp_congr_right
    intro found
    have positive := a.nonzero node entry found
    cases there : b.counts[node]? with
    | none => simp [(get_eq_zero_iff b node).mpr there, Ne.symm positive]
    | some other => simp [get_of_lookup there]
  · simp [sizes]

theorem equals_iff : a.equals b = true ↔ ∀ node, a.get node = b.get node := by
  rw [equals_spec]
  constructor
  · rintro ⟨sizes, held⟩
    have below : a ≤ b := by
      intro node
      cases found : a.counts[node]? with
      | none =>
        rw [(get_eq_zero_iff a node).mpr found]
        exact UInt64.zero_le
      | some entry =>
        rw [get_of_lookup found, held node entry found]
        exact UInt64.le_refl _
    -- as many nodes on both sides: the second clock knows no other
    have all : a.nodes = b.nodes := by
      apply Finset.eq_of_subset_of_card_le (nodes_subset below)
      rw [card_nodes, card_nodes, sizes]
    intro node
    cases found : a.counts[node]? with
    | some entry => rw [get_of_lookup found, held node entry found]
    | none =>
      have unknown := (get_eq_zero_iff a node).mpr found
      have outside : node ∉ b.nodes := by
        rw [← all, mem_nodes, not_not]
        exact unknown
      rw [mem_nodes, not_not] at outside
      rw [unknown, outside]
  · intro same
    have all : a.nodes = b.nodes := by
      ext node
      rw [mem_nodes, mem_nodes, same]
    constructor
    · rw [← card_nodes, ← card_nodes, all]
    · intro node entry found
      rw [← same, get_of_lookup found]

end Verdicts

section Merge

/-- One round of the loop of `merge`. -/
def mergeEntry (out : VectorClock) (entry : Bytes × Entry) : VectorClock :=
  if out.get entry.1 < entry.2.counter then out.set entry.1 entry.2.counter entry.2.updatedMs else out

theorem merge_eq (a b : VectorClock) : merge a b = b.counts.toList.foldl mergeEntry a := rfl

theorem history_mergeEntry_le (out : VectorClock) (entry : Bytes × Entry) (node : Bytes) (bound : Nat) :
    (mergeEntry out entry).history node ≤ bound ↔
      out.history node ≤ bound ∧ (entry.1 = node → entry.2.counter.toNat ≤ bound) := by
  unfold mergeEntry history
  by_cases same : entry.1 = node
  · subst same
    split
    · rename_i less
      rw [get_set, if_pos rfl]
      rw [UInt64.lt_iff_toNat_lt] at less
      simp
      omega
    · rename_i enough
      rw [UInt64.lt_iff_toNat_lt] at enough
      simp
      omega
  · split
    · simp [get_set, same]
    · simp [same]

theorem history_foldl_le (entries : List (Bytes × Entry)) (out : VectorClock) (node : Bytes) (bound : Nat) :
    (entries.foldl mergeEntry out).history node ≤ bound ↔
      out.history node ≤ bound ∧ ∀ entry ∈ entries, entry.1 = node → entry.2.counter.toNat ≤ bound := by
  induction entries generalizing out with
  | nil => simp
  | cons entry rest ih =>
    rw [List.foldl_cons, ih, history_mergeEntry_le]
    simp [and_assoc]

theorem history_le_iff_entries (clock : VectorClock) (node : Bytes) (bound : Nat) :
    clock.history node ≤ bound ↔
      ∀ entry ∈ clock.counts.toList, entry.1 = node → entry.2.counter.toNat ≤ bound := by
  constructor
  · rintro below ⟨node, entry⟩ member rfl
    rwa [history, get_of_lookup (OrderedMap.mem_entries.mp member)] at below
  · intro below
    cases found : clock.counts[node]? with
    | none => simp [history, (get_eq_zero_iff clock node).mpr found]
    | some entry =>
      rw [history, get_of_lookup found]
      exact below (node, entry) (OrderedMap.mem_entries.mpr found) rfl

/-- `merge` joins the two histories. -/
theorem history_merge (a b : VectorClock) : (merge a b).history = a.history ⊔ b.history := by
  funext node
  apply eq_of_forall_ge_iff
  intro bound
  rw [merge_eq, history_foldl_le, ← history_le_iff_entries, Pi.sup_apply, sup_le_iff]

theorem merge_le_iff : merge a b ≤ c ↔ a ≤ c ∧ b ≤ c := by
  rw [le_iff_history, le_iff_history, le_iff_history, history_merge, sup_le_iff]

end Merge

/-- Clocks form a lattice under the operations of the program, whatever their stamps. -/
theorem clocks_form_lattice (a b c : VectorClock) :
    (∀ (node : Bytes) (entry : Entry), a.counts[node]? = some entry → entry.counter ≠ 0) ∧
    ((compare a b = .equal ↔ ∀ node, a.get node = b.get node) ∧
      (compare a b = .aDominates ↔ (∀ node, b.get node ≤ a.get node) ∧ ∃ node, b.get node < a.get node) ∧
      (compare a b = .bDominates ↔ (∀ node, a.get node ≤ b.get node) ∧ ∃ node, a.get node < b.get node) ∧
      (compare a b = .concurrent ↔ (∃ node, b.get node < a.get node) ∧ ∃ node, a.get node < b.get node)) ∧
    compare b a = (compare a b).swap ∧
    (Covers a b → Covers b c →
      Covers a c ∧ (compare a b = .aDominates ∨ compare b c = .aDominates → compare a c = .aDominates)) ∧
    (a.equals b = true ↔ compare a b = .equal) ∧
    (Covers (merge a b) a ∧ Covers (merge a b) b ∧ (Covers c a → Covers c b → Covers c (merge a b))) ∧
    ((merge a b).equals (merge b a) = true ∧ (merge (merge a b) c).equals (merge a (merge b c)) = true ∧
      (merge a a).equals a = true) ∧
    ∀ left right : VectorClock, (∀ node, left.get node = a.get node) → (∀ node, right.get node = b.get node) →
      compare left right = compare a b ∧ left.equals right = a.equals b := by
  refine ⟨a.nonzero, ⟨?_, ?_, ?_, ?_⟩, compare_swap a b, ?_, ?_, ⟨?_, ?_, ?_⟩, ⟨?_, ?_, ?_⟩, ?_⟩
  · rw [compare_equal_iff, le_and_le_iff]
  · rw [compare_aDominates_iff, lt_iff]
  · rw [compare_bDominates_iff, lt_iff]
  · rw [compare_concurrent_iff, not_le_iff, not_le_iff]
  · simp only [covers_iff, compare_aDominates_iff]
    intro first second
    refine ⟨second.trans first, ?_⟩
    rintro (less | less)
    · exact lt_of_le_of_lt second less
    · exact lt_of_lt_of_le less first
  · rw [equals_iff, compare_equal_iff, le_and_le_iff]
  · exact covers_iff.mpr (merge_le_iff.mp le_rfl).1
  · exact covers_iff.mpr (merge_le_iff.mp le_rfl).2
  · simp only [covers_iff, merge_le_iff]
    exact And.intro
  · rw [equals_iff, ← history_inj, history_merge, history_merge, sup_comm]
  · rw [equals_iff, ← history_inj]
    simp only [history_merge, sup_assoc]
  · rw [equals_iff, ← history_inj, history_merge, sup_idem]
  · intro left right one two
    refine ⟨compare_congr one two, ?_⟩
    rw [Bool.eq_iff_iff, equals_iff, equals_iff]
    simp only [one, two]

end VectorClock

end MiniDynamo
