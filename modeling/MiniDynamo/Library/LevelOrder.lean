import Mathlib.Algebra.Group.Nat.Defs
import Mathlib.Data.List.Basic
import Mathlib.Data.List.Pairwise

/-! Complete binary trees in level order: the root has index 1, the children of `i` are `2 * i` and
`2 * i + 1`, and the leaves of a tree of depth `d` start at `2 ^ d`. -/

namespace MiniDynamo

namespace LevelOrder

section Fill

variable {α : Type} (op : α → α → α) (empty : α)

/-- The inner nodes from the given index down to the root, each from its children. -/
def fillUp : Nat → Array α → Array α
  | 0, nodes => nodes
  | i + 1, nodes =>
    fillUp i (nodes.setIfInBounds (i + 1) (op (nodes.getD (2 * (i + 1)) empty) (nodes.getD (2 * (i + 1) + 1) empty)))

theorem size_fillUp (count : Nat) (nodes : Array α) : (fillUp op empty count nodes).size = nodes.size := by
  induction count generalizing nodes with
  | zero => rfl
  | succ i ih => rw [fillUp, ih, Array.size_setIfInBounds]

theorem getD_setIfInBounds (nodes : Array α) (place other : Nat) (value : α) (inside : place < nodes.size) :
    (nodes.setIfInBounds place value).getD other empty = if place = other then value else nodes.getD other empty := by
  rw [Array.getD_eq_getD_getElem?, Array.getD_eq_getD_getElem?, Array.getElem?_setIfInBounds, if_pos inside]
  split <;> rfl

/-- What stands above the filled nodes stays. -/
theorem fillUp_above {count : Nat} {nodes : Array α} (inside : count < nodes.size) {j : Nat} (above : count < j) :
    (fillUp op empty count nodes).getD j empty = nodes.getD j empty := by
  induction count generalizing nodes with
  | zero => rfl
  | succ i ih =>
    rw [fillUp, ih (by rw [Array.size_setIfInBounds]; omega) (by omega), getD_setIfInBounds empty _ _ _ _ inside,
      if_neg (by omega)]

/-- Each filled node is made of its children. -/
theorem fillUp_filled {count : Nat} {nodes : Array α} (inside : count < nodes.size) {j : Nat} (positive : 0 < j)
    (filled : j ≤ count) :
    (fillUp op empty count nodes).getD j empty =
      op ((fillUp op empty count nodes).getD (2 * j) empty) ((fillUp op empty count nodes).getD (2 * j + 1) empty) := by
  induction count generalizing nodes with
  | zero => omega
  | succ i ih =>
    by_cases last : j = i + 1
    · subst last
      have next : i < (nodes.setIfInBounds (i + 1)
          (op (nodes.getD (2 * (i + 1)) empty) (nodes.getD (2 * (i + 1) + 1) empty))).size := by
        rw [Array.size_setIfInBounds]
        omega
      rw [fillUp, fillUp_above op empty next (by omega), fillUp_above op empty next (by omega),
        fillUp_above op empty next (by omega), getD_setIfInBounds empty _ _ _ _ inside,
        getD_setIfInBounds empty _ _ _ _ inside, getD_setIfInBounds empty _ _ _ _ inside, if_pos rfl,
        if_neg (by omega), if_neg (by omega)]
    · rw [fillUp]
      exact ih (by rw [Array.size_setIfInBounds]; omega) (by omega)

/-- What holds of the leaves and goes from the children to their parent holds of every node, by
its height above the leaves. -/
theorem rule {op : α → α → α} {depth : Nat} {value : Nat → α} {spec : Nat → Nat → α}
    (filled : ∀ i, 0 < i → i < 2 ^ depth → value i = op (value (2 * i)) (value (2 * i + 1)))
    (leaves : ∀ i, 2 ^ depth ≤ i → i < 2 ^ (depth + 1) → value i = spec 0 i)
    (inner : ∀ k i, spec (k + 1) i = op (spec k (2 * i)) (spec k (2 * i + 1)))
    {k i : Nat} (height : k ≤ depth) (low : 2 ^ (depth - k) ≤ i) (high : i < 2 ^ (depth - k + 1)) :
    value i = spec k i := by
  induction k generalizing i with
  | zero => exact leaves i low high
  | succ k ih =>
    have level : depth - k = depth - (k + 1) + 1 := by omega
    have width : 2 ^ (depth - (k + 1) + 1) ≤ 2 ^ depth := Nat.pow_le_pow_right (by omega) (by omega)
    have positive : 0 < 2 ^ (depth - (k + 1)) := Nat.two_pow_pos _
    have left := @ih (2 * i) (by omega)
    have right := @ih (2 * i + 1) (by omega)
    rw [level] at left right
    rw [filled i (by omega) (by omega), inner k i, left (by rw [Nat.pow_succ]; omega) (by rw [Nat.pow_succ]; omega),
      right (by rw [Nat.pow_succ]; omega) (by rw [Nat.pow_succ]; omega)]

end Fill

section Totals

variable {α ι : Type} (op : α → α → α) (unit : α) (value : ι → α)

/-- What the items add up to. -/
def total (items : List ι) : α := items.foldl (fun sum item => op sum (value item)) unit

/-- What the items below a node of the given height add up to, where each has its place among
the leaves. -/
def totalBelow (place : ι → Nat) (items : List ι) (k i : Nat) : α :=
  total op unit value (items.filter (fun item => place item / 2 ^ k = i))

variable [Std.Associative op] [Std.LawfulIdentity op unit]

theorem total_cons (item : ι) (rest : List ι) :
    total op unit value (item :: rest) = op (value item) (total op unit value rest) := by
  have assoc : ∀ a b c, op (op a b) c = op a (op b c) := Std.Associative.assoc
  have left : ∀ a, op unit a = a := Std.LawfulLeftIdentity.left_id
  have right : ∀ a, op a unit = a := Std.LawfulRightIdentity.right_id
  have shift : ∀ (items : List ι) (sum : α), items.foldl (fun sum item => op sum (value item)) sum =
      op sum (total op unit value items) := by
    intro items
    induction items with
    | nil => exact fun sum => (right sum).symm
    | cons first later ih =>
      intro sum
      have here : total op unit value (first :: later) = op (value first) (total op unit value later) := by
        rw [← left (value first), ← ih]
        rfl
      rw [List.foldl_cons, ih, here, assoc]
  rw [← left (value item), ← shift]
  rfl

variable [Std.Commutative op]

/-- Items of two kinds that exclude each other. -/
theorem total_filter_or {first second : ι → Prop} [DecidablePred first] [DecidablePred second]
    (apart : ∀ item, ¬ (first item ∧ second item)) (items : List ι) :
    total op unit value (items.filter (fun item => first item ∨ second item)) =
      op (total op unit value (items.filter (fun item => first item)))
        (total op unit value (items.filter (fun item => second item))) := by
  have assoc : ∀ a b c, op (op a b) c = op a (op b c) := Std.Associative.assoc
  have comm : ∀ a b, op a b = op b a := Std.Commutative.comm
  induction items with
  | nil => exact (Std.LawfulLeftIdentity.left_id unit).symm
  | cons item rest ih =>
    by_cases one : first item
    · have other : ¬ second item := fun two => apart item ⟨one, two⟩
      simp only [List.filter_cons, one, other, true_or, decide_true, decide_false, ↓reduceIte, Bool.false_eq_true,
        total_cons, ih, assoc]
    · by_cases two : second item
      · simp only [List.filter_cons, one, two, or_true, decide_true, decide_false, ↓reduceIte, Bool.false_eq_true,
          total_cons, ih]
        rw [← assoc, comm (value item), assoc]
      · simpa only [List.filter_cons, one, two, or_self, decide_false, ↓reduceIte, Bool.false_eq_true] using ih

theorem totalBelow_succ (place : ι → Nat) (items : List ι) (k i : Nat) :
    totalBelow op unit value place items (k + 1) i =
      op (totalBelow op unit value place items k (2 * i)) (totalBelow op unit value place items k (2 * i + 1)) := by
  have apart (item : ι) : ¬ (place item / 2 ^ k = 2 * i ∧ place item / 2 ^ k = 2 * i + 1) := by omega
  rw [totalBelow, totalBelow, totalBelow, ← total_filter_or op unit value apart]
  congr 2
  funext item
  rw [Nat.pow_succ, ← Nat.div_div_eq_div_mul]
  congr 1
  apply propext
  omega

end Totals

section Search

variable {β : Type} (keep : Nat → Bool) (depth : Nat) (emit : Nat → β)

/-- A node that is not to be kept is passed over with all below it; a leaf is recorded, and of
an inner node the children are next. -/
def visit (state : List β × List Nat) (idx : Nat) : List β × List Nat :=
  if keep idx = false then state
  else if 2 ^ depth ≤ idx then (state.1 ++ [emit idx], state.2)
  else (state.1, state.2 ++ [2 * idx, 2 * idx + 1])

/-- The children of the nodes of a queue that are kept and are not leaves. -/
def children (queue : List Nat) : List Nat :=
  ((queue.filter keep).filter (fun idx => idx < 2 ^ depth)).flatMap (fun idx => [2 * idx, 2 * idx + 1])

/-- The leaves of a queue that are kept. -/
def leaves (queue : List Nat) : List Nat := (queue.filter keep).filter (fun idx => 2 ^ depth ≤ idx)

theorem foldl_visit (queue : List Nat) (state : List β × List Nat) :
    queue.foldl (visit keep depth emit) state =
      (state.1 ++ (leaves keep depth queue).map emit, state.2 ++ children keep depth queue) := by
  induction queue generalizing state with
  | nil => simp [leaves, children]
  | cons idx rest ih =>
    rw [List.foldl_cons, ih]
    cases kept : keep idx with
    | false => simp [visit, leaves, children, kept]
    | true =>
      by_cases leaf : 2 ^ depth ≤ idx
      · simp [visit, leaves, children, kept, leaf, Nat.not_lt.mpr leaf]
      · simp [visit, leaves, children, kept, leaf, Nat.lt_of_not_le leaf]

theorem low_children {level : Nat} {queue : List Nat} (low : ∀ idx ∈ queue, 2 ^ level ≤ idx) :
    ∀ idx ∈ children keep depth queue, 2 ^ (level + 1) ≤ idx := by
  intro idx member
  obtain ⟨parent, kept, child⟩ := List.mem_flatMap.mp member
  have bound := low parent (List.mem_of_mem_filter (List.mem_of_mem_filter kept))
  rw [Nat.pow_succ]
  rcases List.mem_pair.mp child with rfl | rfl <;> omega

/-- Below the leaves there is nothing. -/
theorem children_of_deep {level : Nat} {queue : List Nat} (low : ∀ idx ∈ queue, 2 ^ level ≤ idx)
    (deep : depth ≤ level) : children keep depth queue = [] := by
  have none : (queue.filter keep).filter (fun idx => idx < 2 ^ depth) = [] := by
    apply List.filter_eq_nil_iff.mpr
    intro idx member
    have bound := low idx (List.mem_of_mem_filter member)
    have width : 2 ^ depth ≤ 2 ^ level := Nat.pow_le_pow_right (by omega) deep
    simpa using Nat.le_trans width bound
  rw [children, none, List.flatMap_nil]

/-- The search level by level, where every index of the queue is at least that of the first node
of its level. -/
def search (level : Nat) (queue : List Nat) (low : ∀ idx ∈ queue, 2 ^ level ≤ idx) (result : List β) : List β :=
  if queue = [] then result
  else
    search (level + 1) (queue.foldl (visit keep depth emit) (result, [])).2
      (by rw [foldl_visit, List.nil_append]; exact low_children keep depth low)
      (queue.foldl (visit keep depth emit) (result, [])).1
termination_by if queue = [] then 0 else depth + 1 - level + 1
decreasing_by
  rename_i some
  rw [foldl_visit, List.nil_append, if_neg some]
  by_cases deep : depth ≤ level
  · rw [children_of_deep keep depth low deep, if_pos rfl]
    omega
  · split <;> omega

/-- The queue of a level: the nodes below which nothing has been passed over. -/
def frontier : Nat → List Nat
  | 0 => [1]
  | level + 1 => ((frontier level).filter keep).flatMap (fun idx => [2 * idx, 2 * idx + 1])

theorem mem_frontier_succ {level idx : Nat} :
    idx ∈ frontier keep (level + 1) ↔ idx / 2 ∈ frontier keep level ∧ keep (idx / 2) = true := by
  rw [frontier, List.mem_flatMap]
  constructor
  · rintro ⟨parent, kept, child⟩
    have same : idx / 2 = parent := by rcases List.mem_pair.mp child with rfl | rfl <;> omega
    rw [same]
    exact List.mem_filter.mp kept
  · rintro ⟨member, kept⟩
    refine ⟨idx / 2, List.mem_filter.mpr ⟨member, kept⟩, List.mem_pair.mpr ?_⟩
    omega

theorem mem_frontier {level idx : Nat} :
    idx ∈ frontier keep level ↔
      (2 ^ level ≤ idx ∧ idx < 2 ^ (level + 1)) ∧ ∀ k, 0 < k → k ≤ level → keep (idx / 2 ^ k) = true := by
  induction level generalizing idx with
  | zero =>
    rw [frontier, List.mem_singleton]
    constructor
    · rintro rfl
      exact ⟨by decide, fun k positive none => by omega⟩
    · rintro ⟨⟨low, high⟩, -⟩
      simp at low high
      omega
  | succ level ih =>
    have halved (k : Nat) : idx / 2 / 2 ^ k = idx / 2 ^ (k + 1) := by
      rw [Nat.div_div_eq_div_mul, Nat.pow_succ, Nat.mul_comm]
    rw [mem_frontier_succ, ih]
    constructor
    · rintro ⟨⟨⟨low, high⟩, above⟩, kept⟩
      refine ⟨⟨by rw [Nat.pow_succ]; omega, by rw [Nat.pow_succ]; omega⟩, fun k positive most => ?_⟩
      obtain ⟨j, rfl⟩ := Nat.exists_eq_add_of_le' positive
      by_cases first : j = 0
      · subst first
        simpa using kept
      · rw [← halved]
        exact above j (by omega) (by omega)
    · rintro ⟨⟨low, high⟩, above⟩
      rw [Nat.pow_succ] at low high
      refine ⟨⟨⟨by omega, by omega⟩, fun k positive most => ?_⟩, by simpa using above 1 (by omega) (by omega)⟩
      rw [halved]
      exact above (k + 1) (by omega) (by omega)

theorem frontier_sorted (level : Nat) : (frontier keep level).Pairwise (· < ·) := by
  induction level with
  | zero => exact List.pairwise_singleton _ _
  | succ level ih =>
    rw [frontier, List.pairwise_flatMap]
    refine ⟨fun idx _ => by simp, (ih.sublist List.filter_sublist).imp ?_⟩
    intro first second before x mine y theirs
    rcases List.mem_pair.mp mine with rfl | rfl <;> rcases List.mem_pair.mp theirs with rfl | rfl <;> omega

/-- One round of the search. -/
theorem search_eq {level : Nat} {queue : List Nat} (low : ∀ idx ∈ queue, 2 ^ level ≤ idx) (result : List β) :
    search keep depth emit level queue low result =
      search keep depth emit (level + 1) (children keep depth queue) (low_children keep depth low)
        (result ++ (leaves keep depth queue).map emit) := by
  by_cases none : queue = []
  · subst none
    rw [search, if_pos rfl, search, if_pos (show children keep depth [] = [] from rfl)]
    exact (List.append_nil result).symm
  · rw [search, if_neg none]
    congr 1 <;> rw [foldl_visit]
    rw [List.nil_append]

theorem low_frontier {level : Nat} : ∀ idx ∈ frontier keep level, 2 ^ level ≤ idx :=
  fun _ member => ((mem_frontier keep).mp member).1.1

/-- Above the leaves a round leads from one frontier to the next, and emits nothing. -/
theorem round_frontier {level : Nat} (inner : level < depth) :
    children keep depth (frontier keep level) = frontier keep (level + 1) ∧
      leaves keep depth (frontier keep level) = [] := by
  have above : ∀ idx ∈ (frontier keep level).filter keep, idx < 2 ^ depth := by
    intro idx member
    have width : 2 ^ (level + 1) ≤ 2 ^ depth := Nat.pow_le_pow_right (by omega) inner
    exact Nat.lt_of_lt_of_le ((mem_frontier keep).mp (List.mem_of_mem_filter member)).1.2 width
  constructor
  · rw [children, List.filter_eq_self.mpr (fun idx member => decide_eq_true (above idx member)), frontier]
  · apply List.filter_eq_nil_iff.mpr
    intro idx member
    simpa using above idx member

/-- The search emits the kept nodes of the last frontier. -/
theorem search_frontier {level : Nat} (inside : level ≤ depth) (result : List β) :
    search keep depth emit level (frontier keep level) (low_frontier keep) result =
      result ++ ((frontier keep depth).filter keep).map emit := by
  obtain ⟨rest, rfl⟩ := Nat.exists_eq_add_of_le inside
  induction rest generalizing level with
  | zero =>
    have all : leaves keep level (frontier keep level) = (frontier keep level).filter keep := by
      apply List.filter_eq_self.mpr
      intro idx member
      exact decide_eq_true (low_frontier keep idx (List.mem_of_mem_filter member))
    have ended := children_of_deep keep level (low_frontier keep) (Nat.le_refl level)
    rw [Nat.add_zero, search_eq, search, if_pos ended, all]
  | succ rest ih =>
    obtain ⟨next, none⟩ := round_frontier keep (level + (rest + 1)) (show level < level + (rest + 1) by omega)
    have later := @ih (level + 1) (by omega)
    rw [show level + 1 + rest = level + (rest + 1) by omega] at later
    rw [search_eq]
    simp only [next, none, List.map_nil, List.append_nil]
    exact later

end Search

end LevelOrder

end MiniDynamo
