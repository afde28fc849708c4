import Mathlib.Data.Multiset.Defs
import MiniDynamo.AntiEntropy.MerkleTree

/-! What `diff` lists: the leaves that differ themselves and in all the subtrees they are in. -/

namespace MiniDynamo

namespace MerkleTree

/-- The XOR of the value hashes of the pairs that share a subtree of the given height with a leaf. -/
def subtreeHash (depth k leaf : Nat) (pairs : List (UInt64 × UInt64)) : UInt64 :=
  (pairs.filter (fun pair => leafOf depth pair.1 / 2 ^ k = leaf / 2 ^ k)).foldl (fun h pair => h ^^^ pair.2) 0

section Listed

variable (a b : MerkleTree)

/-- The nodes the search goes down into. -/
def differs (idx : Nat) : Bool := a.nodes.getD idx 0 != b.nodes.getD idx 0

theorem differs_iff (idx : Nat) : differs a b idx = true ↔ a.nodeHash idx ≠ b.nodeHash idx := by
  rw [differs, bne_iff_ne, nodeHash_eq_getD, nodeHash_eq_getD]

variable {a b} (same : a.depth = b.depth)

theorem mem_frontier_differs {idx : Nat} :
    idx ∈ (LevelOrder.frontier (differs a b) a.depth).filter (differs a b) ↔
      (2 ^ a.depth ≤ idx ∧ idx < 2 ^ (a.depth + 1)) ∧
        ∀ k ≤ a.depth, a.nodeHash (idx / 2 ^ k) ≠ b.nodeHash (idx / 2 ^ k) := by
  rw [List.mem_filter, LevelOrder.mem_frontier]
  constructor
  · rintro ⟨⟨level, above⟩, here⟩
    refine ⟨level, fun k height => (differs_iff a b _).mp ?_⟩
    by_cases leaf : k = 0
    · rwa [leaf, Nat.pow_zero, Nat.div_one]
    · exact above k (by omega) height
  · rintro ⟨level, path⟩
    refine ⟨⟨level, fun k _ height => (differs_iff a b _).mpr (path k height)⟩, ?_⟩
    simpa using (differs_iff a b _).mpr (path 0 (Nat.zero_le _))

include same

/-- With equal roots, too: no leaf then has a path of differences. -/
theorem diff_eq :
    diff a b = ((LevelOrder.frontier (differs a b) a.depth).filter (differs a b)).map (rangeAt a.depth) := by
  unfold diff
  rw [if_neg (not_not_intro same)]
  split
  · rename_i roots
    have none : (LevelOrder.frontier (differs a b) a.depth).filter (differs a b) = [] := by
      apply List.eq_nil_iff_forall_not_mem.mpr
      intro idx member
      obtain ⟨⟨low, high⟩, path⟩ := mem_frontier_differs.mp member
      have root : idx / 2 ^ a.depth = 1 := by
        rw [Nat.pow_succ] at high
        exact Nat.div_eq_of_lt_le (by omega) (by omega)
      have apart := path a.depth (Nat.le_refl _)
      rw [root, ← rootHash_eq_nodeHash, ← rootHash_eq_nodeHash] at apart
      exact apart roots
    rw [none, List.map_nil]
  · exact LevelOrder.search_frontier (differs a b) a.depth (rangeAt a.depth) (Nat.zero_le _) []

/-- The leaves listed are those with a difference at every height above them. -/
theorem mem_diff {range : DiffRange} :
    range ∈ diff a b ↔ ∃ leaf < 2 ^ a.depth, rangeAt a.depth (2 ^ a.depth + leaf) = range ∧
      ∀ k ≤ a.depth, a.nodeHash ((2 ^ a.depth + leaf) / 2 ^ k) ≠ b.nodeHash ((2 ^ a.depth + leaf) / 2 ^ k) := by
  rw [diff_eq same, List.mem_map]
  constructor
  · rintro ⟨idx, member, rfl⟩
    obtain ⟨⟨low, high⟩, path⟩ := mem_frontier_differs.mp member
    rw [Nat.pow_succ] at high
    obtain ⟨leaf, rfl⟩ := Nat.exists_eq_add_of_le low
    exact ⟨leaf, by omega, rfl, path⟩
  · rintro ⟨leaf, small, rfl, path⟩
    exact ⟨2 ^ a.depth + leaf, mem_frontier_differs.mpr ⟨⟨by omega, by rw [Nat.pow_succ]; omega⟩, path⟩, rfl⟩

theorem diff_sorted : ((diff a b).map DiffRange.leafIndex).Pairwise (· < ·) := by
  rw [diff_eq same, List.map_map, List.pairwise_map]
  have sorted := (LevelOrder.frontier_sorted (differs a b) a.depth).sublist
    (List.filter_sublist (p := differs a b))
  refine sorted.imp_of_mem ?_
  intro first second mine theirs before
  have low := (mem_frontier_differs.mp mine).1.1
  exact Nat.sub_lt_sub_right low before

end Listed

section Ranges

variable {depth leaf : Nat}

theorem leafIndex_rangeAt (depth leaf : Nat) : (rangeAt depth (2 ^ depth + leaf)).leafIndex = leaf :=
  Nat.add_sub_cancel_left _ _

theorem toNat_rangeAt (shallow : depth ≤ 62) (deep : 0 < depth) (small : leaf < 2 ^ depth) :
    (rangeAt depth (2 ^ depth + leaf)).rangeStart.toNat = leaf * 2 ^ (64 - depth) ∧
      (rangeAt depth (2 ^ depth + leaf)).rangeEnd.toNat = leaf * 2 ^ (64 - depth) + (2 ^ (64 - depth) - 1) := by
  have width : leaf * 2 ^ (64 - depth) + 2 ^ (64 - depth) ≤ 2 ^ 64 := by
    rw [← Nat.succ_mul, ← two_pow_split (show depth ≤ 64 by omega)]
    exact Nat.mul_le_mul_right _ small
  have positive : 1 < 2 ^ (64 - depth) := Nat.one_lt_two_pow (by omega)
  have size : ((1 : UInt64) <<< UInt64.ofNat (64 - depth)).toNat = 2 ^ (64 - depth) := by
    rw [UInt64.toNat_shiftLeft, toNat_shift (by omega) deep, Nat.shiftLeft_eq, UInt64.toNat_one, Nat.one_mul,
      Nat.mod_eq_of_lt (Nat.pow_lt_pow_right (by omega) (by omega))]
  have bits : (UInt64.ofNat leaf <<< UInt64.ofNat (64 - depth)).toNat = leaf * 2 ^ (64 - depth) := by
    have word : leaf < 2 ^ 64 := small.trans (Nat.pow_lt_pow_right (by omega) (by omega))
    rw [UInt64.toNat_shiftLeft, toNat_shift (by omega) deep, UInt64.toNat_ofNat', Nat.mod_eq_of_lt word,
      Nat.shiftLeft_eq, Nat.mod_eq_of_lt (by omega)]
  have some : ¬ (1 : UInt64) <<< UInt64.ofNat (64 - depth) = 0 := by
    rw [← UInt64.toNat_inj, size]
    exact Nat.ne_of_gt (Nat.two_pow_pos _)
  simp only [rangeAt, Nat.add_sub_cancel_left, if_neg some]
  refine ⟨bits, ?_⟩
  rw [UInt64.toNat_sub, UInt64.toNat_add, bits, size, UInt64.toNat_one]
  omega

/-- The range of a leaf holds the hashes with its top bits. -/
theorem mem_range_iff (shallow : depth ≤ 62) (deep : 0 < depth) (small : leaf < 2 ^ depth) (keyHash : UInt64) :
    (rangeAt depth (2 ^ depth + leaf)).rangeStart ≤ keyHash ∧ keyHash ≤ (rangeAt depth (2 ^ depth + leaf)).rangeEnd ↔
      leafOf depth keyHash = leaf := by
  obtain ⟨start, last⟩ := toNat_rangeAt shallow deep small
  have positive := Nat.two_pow_pos (64 - depth)
  rw [leafOf_eq (by omega) deep, UInt64.le_iff_toNat_le, UInt64.le_iff_toNat_le, start, last,
    Nat.div_eq_iff positive]
  omega

end Ranges

section Filled

variable {depth : Nat}

theorem nodeHash_above (shallow : depth ≤ 62) (deep : 0 < depth) (pairs : List (UInt64 × UInt64)) {leaf k : Nat}
    (small : leaf < 2 ^ depth) (height : k ≤ depth) :
    (filled depth pairs).nodeHash ((2 ^ depth + leaf) / 2 ^ k) = subtreeHash depth k leaf pairs := by
  have power : 2 ^ depth = 2 ^ (depth - k) * 2 ^ k := by rw [← Nat.pow_add, Nat.sub_add_cancel height]
  have divides : 2 ^ k ∣ 2 ^ depth := Nat.pow_dvd_pow 2 height
  have level : 2 ^ depth / 2 ^ k = 2 ^ (depth - k) := Nat.div_eq_of_eq_mul_left (Nat.two_pow_pos k) power
  have under : leaf / 2 ^ k < 2 ^ (depth - k) := by
    rw [Nat.div_lt_iff_lt_mul (Nat.two_pow_pos k), ← power]
    exact small
  have place_iff (pair : UInt64 × UInt64) :
      place depth pair / 2 ^ k = (2 ^ depth + leaf) / 2 ^ k ↔ leafOf depth pair.1 / 2 ^ k = leaf / 2 ^ k := by
    rw [place, Nat.add_div_of_dvd_right divides, Nat.add_div_of_dvd_right divides]
    exact Nat.add_left_cancel_iff
  rw [nodeHash_filled (show depth ≤ 64 by omega) deep pairs height]
  · rw [hashBelow, LevelOrder.totalBelow, subtreeHash, LevelOrder.total]
    congr 2
    funext pair
    exact decide_eq_decide.mpr (place_iff pair)
  · rw [Nat.add_div_of_dvd_right divides, level]
    exact Nat.le_add_right _ _
  · rw [Nat.add_div_of_dvd_right divides, level, Nat.pow_succ]
    omega

theorem leafHash_filled (shallow : depth ≤ 62) (deep : 0 < depth) (pairs : List (UInt64 × UInt64)) {leaf : Nat}
    (small : leaf < 2 ^ depth) : (filled depth pairs).leafHash leaf = subtreeHash depth 0 leaf pairs := by
  have here := nodeHash_above shallow deep pairs small (Nat.zero_le depth)
  rw [Nat.pow_zero, Nat.div_one] at here
  rw [leafHash, leafStart, depth_filled, here]

/-- The root is the XOR of all value hashes. -/
theorem rootHash_filled (shallow : depth ≤ 62) (deep : 0 < depth) (pairs : List (UInt64 × UInt64)) :
    (filled depth pairs).rootHash = pairs.foldl (fun h pair => h ^^^ pair.2) 0 := by
  have above := nodeHash_above shallow deep pairs (Nat.two_pow_pos depth) (Nat.le_refl depth)
  have all : ∀ pair ∈ pairs, decide (leafOf depth pair.1 / 2 ^ depth = 0 / 2 ^ depth) = true := by
    intro pair _
    rw [Nat.div_eq_of_lt (leafOf_lt (by omega) deep pair.1), Nat.zero_div]
    rfl
  rwa [Nat.add_zero, Nat.div_self (Nat.two_pow_pos depth), ← rootHash_eq_nodeHash, subtreeHash,
    List.filter_eq_self.mpr all] at above

/-- A leaf is listed if the pairs differ in it and in every subtree around it. -/
theorem mem_diff_filled (shallow : depth ≤ 62) (deep : 0 < depth) (first second : List (UInt64 × UInt64))
    {range : DiffRange} :
    range ∈ diff (filled depth first) (filled depth second) ↔
      ∃ leaf < 2 ^ depth, rangeAt depth (2 ^ depth + leaf) = range ∧
        ∀ k ≤ depth, subtreeHash depth k leaf first ≠ subtreeHash depth k leaf second := by
  rw [mem_diff ((depth_filled depth first).trans (depth_filled depth second).symm), depth_filled]
  constructor
  · rintro ⟨leaf, small, same, path⟩
    refine ⟨leaf, small, same, fun k height => ?_⟩
    rw [← nodeHash_above shallow deep first small height, ← nodeHash_above shallow deep second small height]
    exact path k height
  · rintro ⟨leaf, small, same, path⟩
    refine ⟨leaf, small, same, fun k height => ?_⟩
    rw [nodeHash_above shallow deep first small height, nodeHash_above shallow deep second small height]
    exact path k height

/-- The search lists every leaf that differs exactly if no difference is cancelled in a subtree
around its leaf. -/
theorem diff_complete_iff (shallow : depth ≤ 62) (deep : 0 < depth) (first second : List (UInt64 × UInt64)) :
    (∀ leaf < 2 ^ depth, (filled depth first).leafHash leaf ≠ (filled depth second).leafHash leaf →
      ∃ range ∈ diff (filled depth first) (filled depth second), range.leafIndex = leaf) ↔
    ∀ leaf < 2 ^ depth, subtreeHash depth 0 leaf first ≠ subtreeHash depth 0 leaf second →
      ∀ k ≤ depth, subtreeHash depth k leaf first ≠ subtreeHash depth k leaf second := by
  refine forall_congr' (fun leaf => forall_congr' (fun small => ?_))
  rw [leafHash_filled shallow deep first small, leafHash_filled shallow deep second small]
  refine forall_congr' (fun apart => ?_)
  constructor
  · rintro ⟨range, listed, rfl⟩
    obtain ⟨leaf, _, rfl, path⟩ := (mem_diff_filled shallow deep first second).mp listed
    rwa [leafIndex_rangeAt]
  · intro path
    exact ⟨rangeAt depth (2 ^ depth + leaf),
      (mem_diff_filled shallow deep first second).mpr ⟨leaf, small, rfl, path⟩, leafIndex_rangeAt depth leaf⟩

/-- Two pairs that only one side has and one that differs, in three leaves of sixteen: none is cancelled. -/
theorem diff_complete_several :
    [0, 4, 13] ⊆ (diff
      (filled 4 [(0, 7), (0x4000000000000000, 9), (0x7000000000000000, 5), (0xD100000000000000, 3)])
      (filled 4 [(0x7000000000000000, 5), (0x4000000000000000, 8)])).map DiffRange.leafIndex := by
  intro leaf member
  have place : leaf < 2 ^ 4 := by
    have small : ∀ leaf ∈ [0, 4, 13], leaf < 2 ^ 4 := by decide
    exact small leaf member
  refine List.mem_map.mpr ((diff_complete_iff (by decide) (by decide) _ _).mpr (by decide +kernel) leaf place ?_)
  revert leaf
  decide +kernel

/-- One value in both halves of the range, against nothing: the two leaves differ, the roots are
equal, and nothing is listed. -/
theorem diff_misses_cancelled :
    (filled 1 [(0, 7), (0x8000000000000000, 7)]).leafHash 0 ≠ (filled 1 []).leafHash 0 ∧
      (filled 1 [(0, 7), (0x8000000000000000, 7)]).leafHash 1 ≠ (filled 1 []).leafHash 1 ∧
      diff (filled 1 [(0, 7), (0x8000000000000000, 7)]) (filled 1 []) = [] := by
  decide +kernel

/-- The tree is given by what was inserted, in whatever order. The leaves that are listed stand in
order, each of them differs, and its range is that of the hashes with its top bits. -/
theorem diff_sound_exact (shallow : depth ≤ 62) (deep : 0 < depth) (first second : List (UInt64 × UInt64)) :
    (∀ reordered : List (UInt64 × UInt64), (reordered : Multiset (UInt64 × UInt64)) = first →
      filled depth reordered = filled depth first ∧ (filled depth reordered).rootHash = (filled depth first).rootHash) ∧
    ((diff (filled depth first) (filled depth second)).map DiffRange.leafIndex).Pairwise (· < ·) ∧
    ∀ range ∈ diff (filled depth first) (filled depth second),
      (filled depth first).leafHash range.leafIndex ≠ (filled depth second).leafHash range.leafIndex ∧
      (∀ keyHash : UInt64, range.rangeStart ≤ keyHash ∧ keyHash ≤ range.rangeEnd ↔
        (keyHash >>> UInt64.ofNat (64 - depth)).toNat = range.leafIndex) ∧
      (range.leafIndex = 2 ^ depth - 1 → range.rangeEnd.toNat = 2 ^ 64 - 1) := by
  refine ⟨fun reordered same => ?_, diff_sorted ((depth_filled depth first).trans (depth_filled depth second).symm), ?_⟩
  · have equal := filled_perm (Multiset.coe_eq_coe.mp same) depth
    exact ⟨equal, congrArg rootHash equal⟩
  · intro range listed
    obtain ⟨leaf, small, rfl, path⟩ := (mem_diff_filled shallow deep first second).mp listed
    rw [leafIndex_rangeAt, leafHash_filled shallow deep first small, leafHash_filled shallow deep second small]
    refine ⟨path 0 (Nat.zero_le depth), mem_range_iff shallow deep small, ?_⟩
    rintro rfl
    have split := two_pow_split (show depth ≤ 64 by omega)
    have positive := Nat.two_pow_pos depth
    rw [(toNat_rangeAt shallow deep small).2, Nat.sub_mul, split]
    have size : 2 ^ (64 - depth) ≤ 2 ^ 64 := Nat.pow_le_pow_right (by omega) (by omega)
    have some := Nat.two_pow_pos (64 - depth)
    omega

/-- A difference in the last leaf, whose range ends at the last hash. -/
theorem diff_sound_exact_last :
    rangeAt 1 3 ∈ diff (filled 1 [(0x8000000000000000, 7)]) (filled 1 []) ∧
      (rangeAt 1 3).rangeEnd.toNat = 2 ^ 64 - 1 := by
  have listed : rangeAt 1 3 ∈ diff (filled 1 [(0x8000000000000000, 7)]) (filled 1 []) :=
    (mem_diff_filled (by decide) (by decide) _ _).mpr ⟨1, by decide, rfl, by decide +kernel⟩
  exact ⟨listed, ((diff_sound_exact (by decide) (by decide) _ _).2.2 _ listed).2.2 (by decide)⟩

end Filled

end MerkleTree

end MiniDynamo
