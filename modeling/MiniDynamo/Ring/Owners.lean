import MiniDynamo.Library.FirstSeen
import MiniDynamo.Ring.Placement

/-! The owners of a key as a function of the membership. Without collisions among the labels
of the virtual nodes every ring is exact, and then the owners of a key are the first distinct
nodes of its turn around the ring. -/

namespace MiniDynamo

namespace Router

/-- The calls that change a ring. -/
inductive Call
  | add (node : NodeInfo)
  | remove (nodeId : Bytes)

def Call.apply (router : Router) : Call → Router
  | .add node => router.addPhysicalNode node
  | .remove nodeId => router.removePhysicalNode nodeId

/-- The ring after a sequence of calls on a new one. -/
def after (virtualNodes : Int) (calls : List Call) : Router := calls.foldl Call.apply (empty virtualNodes)

/-- The ids whose virtual nodes a sequence of calls may insert. -/
def added (calls : List Call) : List Bytes :=
  calls.filterMap (fun call => match call with
    | .add node => some node.nodeId
    | .remove _ => none)

/-- `hash64` sends no two of the virtual nodes' labels to one point. -/
def CollisionFree (virtualNodes : Int) (ids : List Bytes) : Prop :=
  ∀ first ∈ ids, ∀ second ∈ ids, ∀ i < virtualNodes.toNat, ∀ j < virtualNodes.toNat,
    hash64 (vnodeKey first i) = hash64 (vnodeKey second j) → vnodeKey first i = vnodeKey second j

instance (virtualNodes : Int) (ids : List Bytes) : Decidable (CollisionFree virtualNodes ids) :=
  inferInstanceAs (Decidable (∀ first ∈ ids, ∀ second ∈ ids, ∀ i < virtualNodes.toNat, ∀ j < virtualNodes.toNat,
    hash64 (vnodeKey first i) = hash64 (vnodeKey second j) → vnodeKey first i = vnodeKey second j))

variable {router : Router} {virtualNodes : Int} {ids : List Bytes} {calls : List Call}

/-- A label tells whose it is: the index after the last `n` has digits only. -/
theorem vnodeKey_nodeId {first second : Bytes} {i j : Nat} (same : vnodeKey first i = vnodeKey second j) :
    first = second := by
  have shape : ∀ (id : Bytes) (index : Nat),
      (vnodeKey id index).reverse.dropWhile (· != 110) = 110 :: 118 :: 35 :: id.reverse := by
    intro id index
    have clean : (110 : UInt8) ∉ (decimal index).reverse := by
      rw [List.mem_reverse]
      exact decimal_clean (by decide)
    have parts : (vnodeKey id index).reverse = (decimal index).reverse ++ 110 :: (118 :: 35 :: id.reverse) := by
      simp [vnodeKey, ascii]
    rw [parts, Bytes.dropWhile_append_delim clean]
  have tails := shape first i
  rw [same, shape second j] at tails
  simpa using tails.symm

theorem CollisionFree.scattered (free : CollisionFree virtualNodes ids) : Scattered virtualNodes (· ∈ ids) := by
  rintro first second point mine theirs ⟨i, small, here⟩ ⟨j, little, there⟩
  exact vnodeKey_nodeId (free first mine second theirs i small j little (here.trans there.symm))

theorem mem_added {node : NodeInfo} (member : Call.add node ∈ calls) : node.nodeId ∈ added calls :=
  List.mem_filterMap.mpr ⟨_, member, rfl⟩

private theorem exact_calls (free : CollisionFree virtualNodes ids) (inside : added calls ⊆ ids) (exact : router.Exact)
    (points : router.virtualNodes = virtualNodes) (others : ∀ id, router.Contains id → id ∈ ids) :
    (calls.foldl Call.apply router).Exact ∧ (calls.foldl Call.apply router).virtualNodes = virtualNodes ∧
      ∀ id, (calls.foldl Call.apply router).Contains id → id ∈ ids := by
  induction calls generalizing router with
  | nil => exact ⟨exact, points, others⟩
  | cons call rest ih =>
    cases call with
    | add node =>
      have mine : node.nodeId ∈ ids := inside (mem_added List.mem_cons_self)
      have later : added rest ⊆ ids := fun id member => inside (List.mem_cons_of_mem _ member)
      refine ih later ?_ ((virtualNodes_addPhysicalNode router node).trans points) (fun id contained => ?_)
      · exact exact.addPhysicalNode (points ▸ free.scattered) node mine others
      · rcases (contains_addPhysicalNode_iff node id).mp contained with rfl | before
        · exact mine
        · exact others id before
    | remove nodeId =>
      refine ih inside (exact.removePhysicalNode nodeId) ((virtualNodes_removePhysicalNode router nodeId).trans points)
        (fun id contained => ?_)
      exact others id ((contains_removePhysicalNode_iff nodeId id).mp contained).2

/-- Without collisions every ring is exact, whatever calls made it. -/
theorem exact_after (free : CollisionFree virtualNodes ids) (inside : added calls ⊆ ids) :
    (after virtualNodes calls).Exact ∧ (after virtualNodes calls).virtualNodes = virtualNodes ∧
      ∀ id, (after virtualNodes calls).Contains id → id ∈ ids :=
  exact_calls free inside (exact_empty virtualNodes) rfl (fun _ contained => absurd rfl contained)

section Walk

variable {nodes : OrderedMap Bytes NodeInfo}

/-- What the nodes of these ids are known as. -/
def infos (nodes : OrderedMap Bytes NodeInfo) (ids : List Bytes) : List NodeInfo :=
  ids.filterMap (fun id => nodes[id]?)

theorem length_infos (within : ∀ id ∈ ids, nodes[id]? ≠ none) : (infos nodes ids).length = ids.length := by
  rw [infos, List.length_filterMap_eq_countP, List.countP_eq_length]
  intro id member
  exact Option.isSome_iff_ne_none.mpr (within id member)

theorem infos_concat {id : Bytes} {info : NodeInfo} (found : nodes[id]? = some info) :
    infos nodes (ids ++ [id]) = infos nodes ids ++ [info] := by
  simp [infos, found]

/-- The loop of `findOwners` ends, with the first distinct nodes of the turn: the points must
cover the nodes not chosen yet. -/
theorem collect_eq {count : Nat} {points chosen : List Bytes} (known : ∀ id ∈ points, nodes[id]? ≠ none)
    (within : ∀ id ∈ chosen, nodes[id]? ≠ none) (distinct : chosen.Nodup)
    (covered : ∀ id, nodes[id]? ≠ none → id ∈ chosen ∨ id ∈ points) (room : chosen.length < count)
    (missing : chosen.length < nodes.size) :
    collect nodes count points chosen (infos nodes chosen.reverse) =
      some (infos nodes ((chosen.reverse ++ unseen chosen points).take count)) := by
  induction points generalizing chosen with
  | nil =>
    have all : nodes.size ≤ chosen.length :=
      OrderedMap.size_le_length (fun id present => by simpa using covered id present)
    omega
  | cons phys rest ih =>
    have later : ∀ id ∈ rest, nodes[id]? ≠ none := fun id member => known id (List.mem_cons_of_mem phys member)
    obtain ⟨info, found⟩ := Option.ne_none_iff_exists'.mp (known phys List.mem_cons_self)
    have size : (infos nodes chosen.reverse).length = chosen.length := by
      rw [length_infos (by simpa using within), List.length_reverse]
    by_cases seen : phys ∈ chosen
    · have same : visit nodes phys chosen (infos nodes chosen.reverse) = (chosen, infos nodes chosen.reverse) := by
        simp [visit, found, seen]
      rw [collect, same]
      simp only [size]
      rw [if_neg (by omega), if_pos (by omega), unseen_cons_seen seen]
      refine ih later within distinct (fun id present => ?_) room missing
      rcases covered id present with before | hit
      · exact .inl before
      · rcases List.mem_cons.mp hit with rfl | after
        · exact .inl seen
        · exact .inr after
    · have more : visit nodes phys chosen (infos nodes chosen.reverse) =
          (phys :: chosen, infos nodes (phys :: chosen).reverse) := by
        rw [List.reverse_cons, infos_concat found]
        simp [visit, found, seen]
      have grown : ∀ id ∈ phys :: chosen, nodes[id]? ≠ none := by
        intro id member
        rcases List.mem_cons.mp member with rfl | before
        · exact known id List.mem_cons_self
        · exact within id before
      have fresh : (phys :: chosen).Nodup := List.nodup_cons.mpr ⟨seen, distinct⟩
      have length : (infos nodes (phys :: chosen).reverse).length = chosen.length + 1 := by
        rw [length_infos (fun id member => grown id (List.mem_reverse.mp member)), List.length_reverse,
          List.length_cons]
      have shape : chosen.reverse ++ unseen chosen (phys :: rest) =
          (phys :: chosen).reverse ++ unseen (phys :: chosen) rest := by
        rw [unseen_cons_fresh seen, List.reverse_cons, List.append_assoc, List.singleton_append]
      rw [collect, more, shape]
      simp only [length, List.length_cons]
      by_cases full : chosen.length + 1 = nodes.size
      · -- every node has been met: what is left of the turn holds nothing new
        have all := OrderedMap.covers_of_size fresh grown full
        rw [if_pos full, unseen_eq_nil (fun id member => all id (later id member)), List.append_nil,
          List.take_of_length_le (by rw [List.length_reverse]; exact room)]
      · rw [if_neg full]
        by_cases more : chosen.length + 1 < count
        · rw [if_pos (by omega)]
          refine ih later grown fresh (fun id present => ?_) more (by simp only [List.length_cons]; omega)
          rcases covered id present with before | hit
          · exact .inl (List.mem_cons_of_mem phys before)
          · rcases List.mem_cons.mp hit with rfl | after
            · exact .inl List.mem_cons_self
            · exact .inr after
        · have enough : (phys :: chosen).reverse.length = count := by
            simp only [List.length_reverse, List.length_cons]
            omega
          rw [if_neg (by omega), ← enough, List.take_left]

end Walk

theorem mem_turn {hash : UInt64} {id : Bytes} :
    id ∈ router.turn hash ↔ ∃ point : UInt64, router.ring[point]? = some id := by
  have walk : ∀ entry, entry ∈ router.ring.toList.dropWhile (·.1 < hash) ++ router.ring.toList.takeWhile (·.1 < hash) ↔
      entry ∈ router.ring.toList := by
    intro entry
    conv_rhs =>
      rw [← List.takeWhile_append_dropWhile (p := (fun entry => decide (entry.1 < hash))) (l := router.ring.toList)]
    rw [List.mem_append, List.mem_append, or_comm]
  rw [turn, List.mem_map]
  constructor
  · rintro ⟨⟨point, owner⟩, member, rfl⟩
    exact ⟨point, OrderedMap.mem_entries.mp ((walk _).mp member)⟩
  · rintro ⟨point, found⟩
    exact ⟨(point, id), (walk _).mpr (OrderedMap.mem_entries.mpr found), rfl⟩

/-- On an exact ring with points every node has one. -/
theorem Exact.mem_turn_iff (exact : router.Exact) (positive : 0 < router.virtualNodes) {hash : UInt64} {id : Bytes} :
    id ∈ router.turn hash ↔ router.Contains id := by
  rw [mem_turn]
  constructor
  · rintro ⟨point, found⟩
    exact ((exact point id).mp found).1
  · intro contained
    exact ⟨_, (exact _ id).mpr ⟨contained, 0, by omega, rfl⟩⟩

theorem Exact.positive (exact : router.Exact) {hash : UInt64} {id : Bytes} (met : id ∈ router.turn hash) :
    0 < router.virtualNodes := by
  obtain ⟨point, found⟩ := mem_turn.mp met
  obtain ⟨-, index, small, -⟩ := (exact point id).mp found
  omega

/-- The owners of a key on an exact ring: the first distinct nodes of its turn. -/
theorem Exact.findOwners_eq (exact : router.Exact) (key : Bytes) (replicas : Int) :
    router.findOwners key replicas =
      some (infos router.nodes ((router.turn (hash64 key)).eraseDups.take (max replicas 1).toNat)) := by
  unfold findOwners
  simp only
  have asked : (if replicas ≤ 0 then 1 else replicas) = ((max replicas 1).toNat : Int) := by omega
  rw [asked]
  by_cases bare : router.ring.isEmpty = true
  · have none : router.ring.toList = [] := List.isEmpty_iff.mp (Std.ExtTreeMap.isEmpty_toList.trans bare)
    rw [if_pos bare, turn, none]
    simp [infos]
  · obtain ⟨⟨point, first⟩, entry⟩ : ∃ entry, entry ∈ router.ring.toList := by
      refine List.exists_mem_of_ne_nil _ (fun none => bare ?_)
      rw [← Std.ExtTreeMap.isEmpty_toList, none, List.isEmpty_nil]
    have met : first ∈ router.turn (hash64 key) := mem_turn.mpr ⟨point, OrderedMap.mem_entries.mp entry⟩
    have positive := exact.positive met
    have all : ∀ id, id ∈ router.turn (hash64 key) ↔ router.Contains id := fun _ => exact.mem_turn_iff positive
    have some : 0 < router.nodes.size := by
      refine Nat.pos_of_ne_zero (fun zero => ?_)
      have inside := OrderedMap.covers_of_size List.nodup_nil (by simp) zero.symm first ((all first).mp met)
      exact List.not_mem_nil inside
    have room : ([] : List Bytes).length < (max replicas 1).toNat := by
      rw [List.length_nil]
      omega
    rw [if_neg bare, ← unseen_nil]
    exact collect_eq (fun id member => (all id).mp member) (by simp) List.nodup_nil
      (fun id present => .inr ((all id).mpr present)) room some

/-- The ring is a function of the membership: the calls that led to it do not show, neither
in the points nor in the owners of any key. -/
theorem ring_of_members (virtualNodes : Int) (one other : List Call)
    (free : CollisionFree virtualNodes (added one ++ added other))
    (same : ∀ id, (after virtualNodes one).Contains id ↔ (after virtualNodes other).Contains id) :
    (after virtualNodes one).ring = (after virtualNodes other).ring ∧
      ∀ (key : Bytes) (replicas : Int), ∃ left right, (after virtualNodes one).findOwners key replicas = some left ∧
        (after virtualNodes other).findOwners key replicas = some right ∧
        left.map NodeInfo.nodeId = right.map NodeInfo.nodeId := by
  obtain ⟨exactOne, pointsOne, -⟩ := exact_after free (List.subset_append_left (added one) (added other))
  obtain ⟨exactOther, pointsOther, -⟩ := exact_after free (List.subset_append_right (added one) (added other))
  have points := pointsOne.trans pointsOther.symm
  refine ⟨ring_eq same points exactOne exactOther, fun key replicas => ?_⟩
  have ids := findOwners_ids same points exactOne exactOther key replicas
  have left := exactOne.findOwners_eq key replicas
  have right := exactOther.findOwners_eq key replicas
  rw [left, right] at ids
  exact ⟨_, _, left, right, Option.some.inj ids⟩

/-- Two ways to the nodes `x` and `y`, with two virtual nodes each. -/
theorem ring_of_members_pair :
    (after 2 [.add ⟨[120], [], 1⟩, .add ⟨[121], [], 2⟩, .remove [122]]).ring =
      (after 2 [.add ⟨[121], [], 3⟩, .remove [120], .add ⟨[120], [], 4⟩, .add ⟨[120], [], 1⟩]).ring := by
  refine (ring_of_members 2 _ _ (by decide +kernel) (fun id => ?_)).1
  simp only [after, List.foldl, Call.apply, contains_addPhysicalNode_iff, contains_removePhysicalNode_iff]
  by_cases x : [120] = id
  · simp [← x]
  · by_cases y : [121] = id
    · simp [← y]
    · simp [x, y, Contains, empty]

end Router

end MiniDynamo
