import Mathlib.Data.UInt
import MiniDynamo.Library.LevelOrder

/-! The hash tree over the range of key hashes: a leaf holds the XOR of the hashes of its values,
an inner node the XOR of its children. -/

namespace MiniDynamo

/-- Level order; index 0 is unused and the root is index 1. -/
@[ext]
structure MerkleTree where
  depth : Nat
  nodes : Array UInt64
  sized : nodes.size = 2 ^ (depth + 1)

/-- A leaf with the range of key hashes it stands for. -/
structure DiffRange where
  leafIndex : Nat
  rangeStart : UInt64
  rangeEnd : UInt64
  deriving DecidableEq

namespace MerkleTree

def kDefaultDepth : Nat := 15

def create (depth : Nat) : MerkleTree := ⟨depth, Array.replicate (2 ^ (depth + 1)) 0, Array.size_replicate⟩

/-- The index of the first leaf. -/
def leafStart (tree : MerkleTree) : Nat := 2 ^ tree.depth

/-- The leaf of a key is given by the top bits of its hash. -/
def leafOf (depth : Nat) (keyHash : UInt64) : Nat := (keyHash >>> UInt64.ofNat (64 - depth)).toNat

def insert (tree : MerkleTree) (keyHash valueHash : UInt64) : MerkleTree :=
  { tree with
    nodes := tree.nodes.modify (tree.leafStart + leafOf tree.depth keyHash) (· ^^^ valueHash)
    sized := by rw [Array.size_modify, tree.sized] }

/-- Bottom-up: each inner node is the XOR of its children. -/
def build (tree : MerkleTree) : MerkleTree :=
  { tree with
    nodes := LevelOrder.fillUp (· ^^^ ·) 0 (tree.leafStart - 1) tree.nodes
    sized := by rw [LevelOrder.size_fillUp, tree.sized] }

def rootHash (tree : MerkleTree) : UInt64 := if 1 < tree.nodes.size then tree.nodes.getD 1 0 else 0

def nodeHash (tree : MerkleTree) (index : Nat) : UInt64 :=
  if tree.nodes.size ≤ index then 0 else tree.nodes.getD index 0

def leafHash (tree : MerkleTree) (leaf : Nat) : UInt64 := tree.nodeHash (tree.leafStart + leaf)

/-- What `diff` records of the leaf at an index. -/
def rangeAt (depth idx : Nat) : DiffRange :=
  let leafIdx := idx - 2 ^ depth
  let rangeBits := UInt64.ofNat leafIdx <<< UInt64.ofNat (64 - depth)
  let rangeSize := (1 : UInt64) <<< UInt64.ofNat (64 - depth)
  ⟨leafIdx, rangeBits, if rangeSize = 0 then 18446744073709551615 else rangeBits + rangeSize - 1⟩

/-- The leaves where two trees differ, searched for from the root down; a subtree with the same
hash in both is passed over. -/
def diff (a b : MerkleTree) : List DiffRange :=
  if a.depth ≠ b.depth then []
  else if a.rootHash = b.rootHash then []
  else
    LevelOrder.search (fun idx => a.nodes.getD idx 0 != b.nodes.getD idx 0) a.depth (rangeAt a.depth) 0 [1] (by simp) []

/-- The tree after inserts of pairs of a key's and a value's hash, and `build`. -/
def filled (depth : Nat) (pairs : List (UInt64 × UInt64)) : MerkleTree :=
  (pairs.foldl (fun tree pair => tree.insert pair.1 pair.2) (create depth)).build

theorem nodeHash_eq_getD (tree : MerkleTree) (index : Nat) : tree.nodeHash index = tree.nodes.getD index 0 := by
  unfold nodeHash
  split
  · rename_i outside
    rw [Array.getD_eq_getD_getElem?, Array.getElem?_eq_none outside, Option.getD_none]
  · rfl

theorem rootHash_eq_nodeHash (tree : MerkleTree) : tree.rootHash = tree.nodeHash 1 := by
  have size : 1 < tree.nodes.size := by
    rw [tree.sized, Nat.pow_succ]
    have positive := Nat.two_pow_pos tree.depth
    omega
  rw [rootHash, if_pos size, nodeHash_eq_getD]

/-! What the tree is made of. -/

theorem depth_insert (tree : MerkleTree) (keyHash valueHash : UInt64) :
    (tree.insert keyHash valueHash).depth = tree.depth := rfl

theorem depth_inserts (pairs : List (UInt64 × UInt64)) (tree : MerkleTree) :
    (pairs.foldl (fun tree pair => tree.insert pair.1 pair.2) tree).depth = tree.depth := by
  induction pairs generalizing tree with
  | nil => rfl
  | cons pair rest ih => rw [List.foldl_cons, ih, depth_insert]

theorem depth_filled (depth : Nat) (pairs : List (UInt64 × UInt64)) : (filled depth pairs).depth = depth :=
  depth_inserts pairs (create depth)

/-- Two inserts change places. -/
theorem insert_comm (tree : MerkleTree) (first second : UInt64 × UInt64) :
    (tree.insert first.1 first.2).insert second.1 second.2 =
      (tree.insert second.1 second.2).insert first.1 first.2 := by
  apply MerkleTree.ext
  · rfl
  · apply Array.ext_getElem?
    intro index
    simp only [insert, leafStart, Array.getElem?_modify]
    by_cases one : 2 ^ tree.depth + leafOf tree.depth first.1 = index <;>
      by_cases two : 2 ^ tree.depth + leafOf tree.depth second.1 = index
    · simp only [one, two, ↓reduceIte, Option.map_map]
      congr 1
      funext hash
      simp only [Function.comp, UInt64.xor_assoc, UInt64.xor_comm first.2]
    all_goals simp only [one, two, ↓reduceIte]

/-- The order of the inserts does not matter. -/
theorem filled_perm {first second : List (UInt64 × UInt64)} (same : first.Perm second) (depth : Nat) :
    filled depth first = filled depth second := by
  unfold filled
  rw [same.foldl_eq' (fun one _ two _ tree => insert_comm tree one two)]

/-- The index of the leaf of a key. -/
def place (depth : Nat) (pair : UInt64 × UInt64) : Nat := 2 ^ depth + leafOf depth pair.1

/-- The XOR of the value hashes of the pairs below a node of the given height. -/
def hashBelow (depth : Nat) (pairs : List (UInt64 × UInt64)) (k i : Nat) : UInt64 :=
  LevelOrder.totalBelow (· ^^^ ·) 0 Prod.snd (place depth) pairs k i

section Depth

variable {depth : Nat}

theorem toNat_shift (shallow : depth ≤ 64) (deep : 0 < depth) :
    (UInt64.ofNat (64 - depth)).toNat % 64 = 64 - depth := by
  rw [UInt64.toNat_ofNat', Nat.mod_eq_of_lt (by omega), Nat.mod_eq_of_lt (by omega)]

theorem leafOf_eq (shallow : depth ≤ 64) (deep : 0 < depth) (keyHash : UInt64) :
    leafOf depth keyHash = keyHash.toNat / 2 ^ (64 - depth) := by
  rw [leafOf, UInt64.toNat_shiftRight, toNat_shift shallow deep, Nat.shiftRight_eq_div_pow]

theorem two_pow_split (shallow : depth ≤ 64) : 2 ^ depth * 2 ^ (64 - depth) = 2 ^ 64 := by
  rw [← Nat.pow_add, Nat.add_sub_cancel' shallow]

theorem leafOf_lt (shallow : depth ≤ 64) (deep : 0 < depth) (keyHash : UInt64) : leafOf depth keyHash < 2 ^ depth := by
  rw [leafOf_eq shallow deep, Nat.div_lt_iff_lt_mul (Nat.two_pow_pos _), two_pow_split shallow]
  exact keyHash.toNat_lt

theorem getD_insert (shallow : depth ≤ 64) (deep : 0 < depth) {tree : MerkleTree} (same : tree.depth = depth)
    (pair : UInt64 × UInt64) (index : Nat) :
    (tree.insert pair.1 pair.2).nodes.getD index 0 =
      if place depth pair = index then tree.nodes.getD index 0 ^^^ pair.2 else tree.nodes.getD index 0 := by
  subst same
  have inside : place tree.depth pair < tree.nodes.size := by
    have bound := leafOf_lt shallow deep pair.1
    rw [tree.sized, Nat.pow_succ, place]
    omega
  simp only [insert, leafStart, Array.getD_eq_getD_getElem?, Array.getElem?_modify]
  by_cases here : place tree.depth pair = index
  · subst here
    simp only [place] at inside ⊢
    simp [Array.getElem?_eq_getElem inside]
  · rw [if_neg here, if_neg (by rwa [place] at here)]

/-- What the inserts leave at an index. -/
theorem getD_inserts (shallow : depth ≤ 64) (deep : 0 < depth) (pairs : List (UInt64 × UInt64)) {tree : MerkleTree}
    (same : tree.depth = depth) (index : Nat) :
    (pairs.foldl (fun tree pair => tree.insert pair.1 pair.2) tree).nodes.getD index 0 =
      tree.nodes.getD index 0 ^^^ hashBelow depth pairs 0 index := by
  induction pairs generalizing tree with
  | nil => exact UInt64.xor_zero.symm
  | cons pair rest ih =>
    rw [List.foldl_cons, @ih (tree.insert pair.1 pair.2) same, getD_insert shallow deep same]
    by_cases here : place depth pair = index
    · have next : hashBelow depth (pair :: rest) 0 index = pair.2 ^^^ hashBelow depth rest 0 index := by
        rw [hashBelow, LevelOrder.totalBelow, List.filter_cons_of_pos (by simpa using here), LevelOrder.total_cons]
        rfl
      rw [if_pos here, next, UInt64.xor_assoc]
    · have next : hashBelow depth (pair :: rest) 0 index = hashBelow depth rest 0 index := by
        rw [hashBelow, LevelOrder.totalBelow, List.filter_cons_of_neg (by simpa using here)]
        rfl
      rw [if_neg here, next]

/-- Each node of a filled tree is the XOR of what was inserted below it. -/
theorem nodeHash_filled (shallow : depth ≤ 64) (deep : 0 < depth) (pairs : List (UInt64 × UInt64)) {k i : Nat}
    (height : k ≤ depth) (low : 2 ^ (depth - k) ≤ i) (high : i < 2 ^ (depth - k + 1)) :
    (filled depth pairs).nodeHash i = hashBelow depth pairs k i := by
  generalize before : pairs.foldl (fun tree pair => tree.insert pair.1 pair.2) (create depth) = tree
  have same : tree.depth = depth := before ▸ depth_inserts pairs (create depth)
  have inside : tree.leafStart - 1 < tree.nodes.size := by
    have positive := Nat.two_pow_pos tree.depth
    rw [tree.sized, Nat.pow_succ, leafStart]
    omega
  have filled' (i : Nat) (positive : 0 < i) (inner : i < 2 ^ depth) :
      tree.build.nodes.getD i 0 = tree.build.nodes.getD (2 * i) 0 ^^^ tree.build.nodes.getD (2 * i + 1) 0 :=
    LevelOrder.fillUp_filled _ _ inside positive (by rw [leafStart, same]; omega)
  have leaves (i : Nat) (low : 2 ^ depth ≤ i) : tree.build.nodes.getD i 0 = hashBelow depth pairs 0 i := by
    have empty : (create depth).nodes.getD i 0 = 0 := by
      rw [create, Array.getD_eq_getD_getElem?, Array.getElem?_replicate]
      split <;> rfl
    have kept : tree.build.nodes.getD i 0 = tree.nodes.getD i 0 := by
      have positive := Nat.two_pow_pos depth
      exact LevelOrder.fillUp_above _ _ inside (by rw [leafStart, same]; omega)
    rw [kept, ← before, getD_inserts shallow deep pairs rfl, empty, UInt64.zero_xor]
  rw [nodeHash_eq_getD, filled, before]
  exact LevelOrder.rule filled' (fun i low _ => leaves i low) (LevelOrder.totalBelow_succ _ _ _ _ _)
    height low high

end Depth

end MerkleTree

end MiniDynamo
