import MiniDynamo.Ring.Disruption

/-! The walk around the ring that finds the owners of a key. The distance from the key's hash
says in which order the points are met, wherever the numbers wrap. -/

namespace MiniDynamo

namespace Router

variable {router : Router}

/-- How far a turn from the hash goes to reach the point. -/
def distance (hash point : UInt64) : Nat := (point - hash).toNat

theorem distance_eq (hash point : UInt64) :
    distance hash point = if hash ≤ point then point.toNat - hash.toNat else 2 ^ 64 + point.toNat - hash.toNat := by
  have small := hash.toNat_lt
  have little := point.toNat_lt
  rw [distance, UInt64.toNat_sub]
  split
  · rename_i below
    rw [UInt64.le_iff_toNat_le] at below
    omega
  · rename_i above
    rw [UInt64.le_iff_toNat_le] at above
    omega

/-- A turn meets the points in the order of their distance. -/
theorem turn_sorted (router : Router) (hash : UInt64) :
    (router.ring.toList.filter (fun entry => !decide (entry.1 < hash)) ++
      router.ring.toList.filter (fun entry => decide (entry.1 < hash))).Pairwise
        (fun first second => distance hash first.1 < distance hash second.1) := by
  have ordered : router.ring.toList.Pairwise (fun first second => first.1.toNat < second.1.toNat) :=
    Std.ExtTreeMap.ordered_keys_toList.imp (fun {first second} less =>
      UInt64.lt_iff_toNat_lt.mp (Std.compare_eq_lt.mp less))
  have small := hash.toNat_lt
  refine List.pairwise_append.mpr ⟨?_, ?_, ?_⟩
  · refine List.Pairwise.imp_of_mem (fun {first second} one two less => ?_) (ordered.filter _)
    have below := (List.mem_filter.mp one).2
    have beneath := (List.mem_filter.mp two).2
    simp only [Bool.not_eq_true', decide_eq_false_iff_not, UInt64.not_lt] at below beneath
    rw [distance_eq, distance_eq, if_pos below, if_pos beneath]
    rw [UInt64.le_iff_toNat_le] at below beneath
    omega
  · refine List.Pairwise.imp_of_mem (fun {first second} one two less => ?_) (ordered.filter _)
    have above := (List.mem_filter.mp one).2
    have below := (List.mem_filter.mp two).2
    simp only [decide_eq_true_eq] at above below
    rw [distance_eq, distance_eq, if_neg (UInt64.not_le.mpr above), if_neg (UInt64.not_le.mpr below)]
    omega
  · intro first one second two
    have below := (List.mem_filter.mp one).2
    have above := (List.mem_filter.mp two).2
    simp only [Bool.not_eq_true', decide_eq_false_iff_not, UInt64.not_lt, decide_eq_true_eq] at below above
    have bound := first.1.toNat_lt
    rw [distance_eq, distance_eq, if_pos below, if_neg (UInt64.not_le.mpr above)]
    rw [UInt64.le_iff_toNat_le] at below
    rw [UInt64.lt_iff_toNat_lt] at above
    omega

/-- All points of the ring, in the order a walk clockwise from the hash meets them. -/
structure Clockwise (router : Router) (hash : UInt64) (walk : List (UInt64 × Bytes)) : Prop where
  points : walk.Perm router.ring.toList
  sorted : walk.Pairwise (fun first second => distance hash first.1 < distance hash second.1)

theorem exists_clockwise (router : Router) (hash : UInt64) :
    ∃ walk, router.Clockwise hash walk ∧ walk.map Prod.snd = router.turn hash := by
  refine ⟨_, ⟨?_, turn_sorted router hash⟩, (turn_eq_filter router hash).symm⟩
  have parts := List.filter_append_perm (fun entry : UInt64 × Bytes => decide (entry.1 < hash)) router.ring.toList
  exact List.perm_append_comm.trans parts

/-- A turn meets every node of an exact ring with points. -/
theorem Exact.length_order (exact : router.Exact) (positive : 0 < router.virtualNodes) (key : Bytes) :
    (router.order key).length = router.nodes.size := by
  rw [← Std.ExtTreeMap.length_keys]
  apply List.Perm.length_eq
  apply (List.perm_ext_iff_of_nodup (nodup_eraseDups _) Std.ExtTreeMap.nodup_keys).mpr
  intro id
  rw [OrderedMap.mem_keys_iff, List.mem_eraseDups]
  exact exact.mem_turn_iff positive

/-- `findOwners` ends, and its result is the first distinct nodes of the walk: as many as asked
for, or all there are. -/
theorem findOwners_exact (virtualNodes : Int) (calls : List Call) (positive : 1 ≤ virtualNodes)
    (free : CollisionFree virtualNodes (added calls)) (key : Bytes) (replicas : Int) :
    ∃ owners walk, (after virtualNodes calls).findOwners key replicas = some owners ∧
      (owners.length : Int) = min (max replicas 1) (after virtualNodes calls).nodes.size ∧
      (owners.map NodeInfo.nodeId).Nodup ∧
      (∀ owner ∈ owners, (after virtualNodes calls).nodes[owner.nodeId]? = some owner) ∧
      (after virtualNodes calls).Clockwise (hash64 key) walk ∧
      owners.map NodeInfo.nodeId = (walk.map Prod.snd).eraseDups.take (max replicas 1).toNat := by
  obtain ⟨exact, points, -⟩ := exact_after free (List.Subset.refl (added calls))
  have found := exact.findOwners_eq key replicas
  obtain ⟨-, ids⟩ := exact.owners_eq found
  obtain ⟨known, distinct, -⟩ := findOwners_spec found
  obtain ⟨walk, clockwise, met⟩ := exists_clockwise (after virtualNodes calls) (hash64 key)
  refine ⟨_, walk, found, ?_, distinct, known, clockwise, ?_⟩
  · have all := exact.length_order (by omega) key
    have lengths := congrArg List.length ids
    rw [List.length_map, List.length_take, all] at lengths
    omega
  · rw [ids, met]
    rfl

/-- More replicas than nodes: the walk ends when it has met both. -/
theorem findOwners_exact_pair :
    ∃ owners walk, (after 2 [.add ⟨[120], [], 1⟩, .add ⟨[121], [], 2⟩]).findOwners [107] 5 = some owners ∧
      (owners.length : Int) = min (max 5 1) (after 2 [.add ⟨[120], [], 1⟩, .add ⟨[121], [], 2⟩]).nodes.size ∧
      (owners.map NodeInfo.nodeId).Nodup ∧
      (∀ owner ∈ owners, (after 2 [.add ⟨[120], [], 1⟩, .add ⟨[121], [], 2⟩]).nodes[owner.nodeId]? = some owner) ∧
      (after 2 [.add ⟨[120], [], 1⟩, .add ⟨[121], [], 2⟩]).Clockwise (hash64 [107]) walk ∧
      owners.map NodeInfo.nodeId = (walk.map Prod.snd).eraseDups.take (max (5 : Int) 1).toNat :=
  findOwners_exact 2 _ (by decide) (by decide +kernel) [107] 5

end Router

end MiniDynamo
