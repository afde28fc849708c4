import MiniDynamo.Ring.Owners

/-! What one node more or less on the ring changes for the owners of a key. -/

namespace MiniDynamo

namespace Router

variable {router small big : Router} {x key : Bytes} {ids : List Bytes}

section Infos

theorem map_nodeId_infos (within : ∀ id ∈ ids, router.Contains id) :
    (infos router.nodes ids).map NodeInfo.nodeId = ids := by
  induction ids with
  | nil => rfl
  | cons id rest ih =>
    obtain ⟨info, found⟩ := Option.ne_none_iff_exists'.mp (within id List.mem_cons_self)
    have tail := ih (fun other member => within other (List.mem_cons_of_mem id member))
    rw [infos, List.filterMap_cons_some found, List.map_cons, router.keyed id info found]
    exact congrArg (id :: ·) tail

theorem infos_congr (same : ∀ id ∈ ids, small.nodes[id]? = big.nodes[id]?) :
    infos small.nodes ids = infos big.nodes ids :=
  List.filterMap_congr same

theorem filter_infos : (infos router.nodes ids).filter (·.nodeId != x) = infos router.nodes (ids.filter (· != x)) := by
  rw [infos, infos, List.filter_filterMap, List.filterMap_filter]
  refine List.filterMap_congr (fun id _ => ?_)
  cases found : router.nodes[id]? with
  | none => simp
  | some info => simp [Option.filter, router.keyed id info found]

end Infos

/-- One turn around the ring meets the points from the hash on, then those before it. -/
theorem turn_eq_filter (router : Router) (hash : UInt64) :
    router.turn hash =
      (router.ring.toList.filter (fun entry => !decide (entry.1 < hash)) ++
        router.ring.toList.filter (fun entry => decide (entry.1 < hash))).map Prod.snd := by
  have ordered : router.ring.toList.Pairwise (fun first second => decide (second.1 < hash) = true →
      decide (first.1 < hash) = true) := by
    refine Std.ExtTreeMap.ordered_keys_toList.imp (fun {first second} less => ?_)
    simp only [decide_eq_true_eq]
    exact UInt64.lt_trans (Std.compare_eq_lt.mp less)
  obtain ⟨front, back⟩ := takeWhile_eq_filter ordered
  rw [turn, front, back]

theorem turn_removePhysicalNode (router : Router) (nodeId : Bytes) (hash : UInt64) :
    (router.removePhysicalNode nodeId).turn hash = (router.turn hash).filter (· != nodeId) := by
  rw [turn_eq_filter, turn_eq_filter]
  have points : (router.removePhysicalNode nodeId).ring.toList =
      router.ring.toList.filter (fun entry => entry.2 != nodeId) := by
    unfold removePhysicalNode
    split
    · exact Std.ExtTreeMap.toList_filter
    · -- a node that is not there has no points to lose
      rename_i absent
      rw [Std.ExtTreeMap.contains_eq_isSome_getElem?, Option.isSome_iff_ne_none, not_not] at absent
      refine (List.filter_eq_self.mpr ?_).symm
      rintro ⟨point, owner⟩ member
      rw [bne_iff_ne]
      rintro rfl
      exact router.placed point _ (OrderedMap.mem_entries.mp member) absent
  rw [points, List.filter_map, List.filter_append, List.filter_filter, List.filter_filter, List.filter_filter,
    List.filter_filter]
  simp only [Function.comp_def, Bool.and_comm]

/-- Two rings that are the same but for one node, which the bigger one may have. -/
structure Apart (small big : Router) (x : Bytes) : Prop where
  exactSmall : small.Exact
  exactBig : big.Exact
  turn : ∀ hash, small.turn hash = (big.turn hash).filter (· != x)
  elsewhere : ∀ id, id ≠ x → small.nodes[id]? = big.nodes[id]?

theorem Exact.apart_remove (exact : router.Exact) (x : Bytes) : Apart (router.removePhysicalNode x) router x where
  exactSmall := exact.removePhysicalNode x
  exactBig := exact
  turn := turn_removePhysicalNode router x
  elsewhere id other := by rw [lookup_removePhysicalNode, if_neg (Ne.symm other)]

theorem Exact.apart_add {node : NodeInfo} (exact : router.Exact) (added : (router.addPhysicalNode node).Exact)
    (absent : ¬ router.Contains node.nodeId) : Apart router (router.addPhysicalNode node) node.nodeId where
  exactSmall := exact
  exactBig := added
  turn hash := by
    -- taking the node away again gives the ring back
    have back : router.ring = ((router.addPhysicalNode node).removePhysicalNode node.nodeId).ring := by
      refine ring_eq (fun id => ?_) ?_ exact (added.removePhysicalNode node.nodeId)
      · rw [contains_removePhysicalNode_iff, contains_addPhysicalNode_iff]
        refine ⟨fun contained => ⟨?_, .inr contained⟩, ?_⟩
        · rintro rfl
          exact absent contained
        · rintro ⟨other, same | contained⟩
          · exact absurd same other
          · exact contained
      · rw [virtualNodes_removePhysicalNode, virtualNodes_addPhysicalNode]
    rw [← turn_removePhysicalNode, Router.turn, Router.turn, back]
  elsewhere id other := by
    rw [lookup_addPhysicalNode, if_neg]
    rintro ⟨same, -⟩
    exact other same.symm

section Apart

variable {n : Int} {before after : List NodeInfo}

/-- The distinct nodes in the order in which the key's turn meets them. -/
def order (router : Router) (key : Bytes) : List Bytes := (router.turn (hash64 key)).eraseDups

theorem Apart.order_eq (apart : Apart small big x) (key : Bytes) :
    small.order key = (big.order key).filter (· != x) := by
  rw [order, order, apart.turn, eraseDups_filter]

theorem contains_of_mem_order {id : Bytes} (member : id ∈ router.order key) : router.Contains id := by
  obtain ⟨point, found⟩ := mem_turn.mp (List.mem_eraseDups.mp member)
  exact router.placed point id found

theorem Exact.mem_order (exact : router.Exact) {id other : Bytes} (member : id ∈ router.order key)
    (contained : router.Contains other) : other ∈ router.order key := by
  have positive := exact.positive (List.mem_eraseDups.mp member)
  exact List.mem_eraseDups.mpr ((exact.mem_turn_iff positive).mpr contained)

theorem Exact.owners_eq (exact : router.Exact) (found : router.findOwners key n = some before) :
    before = infos router.nodes ((router.order key).take (max n 1).toNat) ∧
      before.map NodeInfo.nodeId = (router.order key).take (max n 1).toNat := by
  rw [exact.findOwners_eq] at found
  obtain rfl := Option.some.inj found
  exact ⟨rfl, map_nodeId_infos (fun id member => contains_of_mem_order (List.mem_of_mem_take member))⟩

theorem Apart.infos_eq (apart : Apart small big x) (without : x ∉ ids) : infos small.nodes ids = infos big.nodes ids :=
  infos_congr (fun id member => apart.elsewhere id (fun same => without (same ▸ member)))

theorem Apart.filter_isPrefix (apart : Apart small big x) (less : small.findOwners key n = some before)
    (more : big.findOwners key n = some after) : after.filter (·.nodeId != x) <+: before := by
  rw [(apart.exactBig.owners_eq more).1, (apart.exactSmall.owners_eq less).1, filter_infos, apart.order_eq,
    ← apart.infos_eq (by simp)]
  exact (filter_take_isPrefix _ _ _).filterMap _

/-- The node matters only to the keys it owns. -/
theorem Apart.unchanged (apart : Apart small big x) (less : small.findOwners key n = some before)
    (more : big.findOwners key n = some after) (stranger : x ∉ after.map NodeInfo.nodeId) : before = after := by
  rw [(apart.exactBig.owners_eq more).2] at stranger
  rw [(apart.exactBig.owners_eq more).1, (apart.exactSmall.owners_eq less).1, apart.order_eq,
    take_filter_of_not_mem stranger]
  exact apart.infos_eq stranger

/-- Where the node is an owner, the others move up and the next node of the turn joins them. -/
theorem Apart.appended (apart : Apart small big x) (less : small.findOwners key n = some before)
    (more : big.findOwners key n = some after) (owner : x ∈ after.map NodeInfo.nodeId) :
    ∃ joined, before = after.filter (·.nodeId != x) ++ joined ∧
      ((∃ id, big.Contains id ∧ id ∉ after.map NodeInfo.nodeId) →
        ∃ next, joined = [next] ∧ next.nodeId ∉ after.map NodeInfo.nodeId) ∧
      ((∀ id, big.Contains id → id ∈ after.map NodeInfo.nodeId) → joined = []) := by
  obtain ⟨all, names⟩ := apart.exactBig.owners_eq more
  rw [names] at owner ⊢
  have distinct : (big.order key).Nodup := nodup_eraseDups _
  have later : ∀ id ∈ (big.order key).drop (max n 1).toNat, id ∉ (big.order key).take (max n 1).toNat := by
    intro id next first
    rw [← List.take_append_drop (max n 1).toNat (big.order key), List.nodup_append] at distinct
    exact distinct.2.2 id first id next rfl
  refine ⟨infos big.nodes (((big.order key).drop (max n 1).toNat).take 1), ?_, ?_, ?_⟩
  · rw [(apart.exactSmall.owners_eq less).1, apart.order_eq, take_filter_of_mem distinct owner, all, filter_infos,
      infos, List.filterMap_append]
    refine congr (congrArg _ (apart.infos_eq (by simp))) (apart.infos_eq (fun next => ?_))
    exact later x (List.mem_of_mem_take next) owner
  · rintro ⟨id, contained, other⟩
    have met := apart.exactBig.mem_order (List.mem_of_mem_take owner) contained
    rw [← List.take_append_drop (max n 1).toNat (big.order key)] at met
    have beyond := (List.mem_append.mp met).resolve_left other
    cases rest : (big.order key).drop (max n 1).toNat with
    | nil => simp [rest] at beyond
    | cons next others =>
      have known : big.Contains next := contains_of_mem_order (List.mem_of_mem_drop (rest ▸ List.mem_cons_self))
      obtain ⟨info, found⟩ := Option.ne_none_iff_exists'.mp known
      refine ⟨info, by simp [infos, found], ?_⟩
      rw [big.keyed next info found]
      exact later next (rest ▸ List.mem_cons_self)
  · intro none
    have nothing : (big.order key).drop (max n 1).toNat = [] := by
      refine List.eq_nil_iff_forall_not_mem.mpr (fun id next => later id next (none id ?_))
      exact contains_of_mem_order (List.mem_of_mem_drop next)
    rw [nothing]
    rfl

end Apart

/-- A node added takes no key from one of the others to give it to another, and a node
removed leaves its place to the next node of the turn. -/
theorem minimal_disruption (virtualNodes : Int) (calls : List Call) (x : NodeInfo)
    (free : CollisionFree virtualNodes (x.nodeId :: added calls)) (key : Bytes) (n : Int) :
    (¬ (after virtualNodes calls).Contains x.nodeId →
      ∃ before later, (after virtualNodes calls).findOwners key n = some before ∧
        ((after virtualNodes calls).addPhysicalNode x).findOwners key n = some later ∧
        later.filter (·.nodeId != x.nodeId) <+: before ∧
        (x.nodeId ∉ later.map NodeInfo.nodeId → later = before)) ∧
    ((after virtualNodes calls).Contains x.nodeId →
      ∃ before later, (after virtualNodes calls).findOwners key n = some before ∧
        ((after virtualNodes calls).removePhysicalNode x.nodeId).findOwners key n = some later ∧
        (x.nodeId ∉ before.map NodeInfo.nodeId → later = before) ∧
        (x.nodeId ∈ before.map NodeInfo.nodeId →
          ∃ joined, later = before.filter (·.nodeId != x.nodeId) ++ joined ∧
            ((∃ id, (after virtualNodes calls).Contains id ∧ id ∉ before.map NodeInfo.nodeId) →
              ∃ next, joined = [next] ∧ next.nodeId ∉ before.map NodeInfo.nodeId) ∧
            ((∀ id, (after virtualNodes calls).Contains id → id ∈ before.map NodeInfo.nodeId) → joined = []))) := by
  obtain ⟨exact, points, known⟩ := exact_after free (List.subset_cons_self x.nodeId (added calls))
  have now := exact.findOwners_eq key n
  constructor
  · intro absent
    have scattered : Scattered (after virtualNodes calls).virtualNodes (· ∈ x.nodeId :: added calls) := by
      rw [points]
      exact free.scattered
    have grown := exact.addPhysicalNode scattered x List.mem_cons_self known
    have apart := exact.apart_add grown absent
    have next := grown.findOwners_eq key n
    exact ⟨_, _, now, next, apart.filter_isPrefix now next, fun stranger => (apart.unchanged now next stranger).symm⟩
  · intro _
    have apart := exact.apart_remove x.nodeId
    have next := apart.exactSmall.findOwners_eq key n
    exact ⟨_, _, now, next, apart.unchanged next now, apart.appended next now⟩

/-- A third node joins a ring of two. -/
theorem minimal_disruption_join :
    ∃ before later,
      (after 2 [.add ⟨[120], [], 1⟩, .add ⟨[121], [], 2⟩]).findOwners [107] 2 = some before ∧
      ((after 2 [.add ⟨[120], [], 1⟩, .add ⟨[121], [], 2⟩]).addPhysicalNode ⟨[122], [], 3⟩).findOwners [107] 2 =
        some later ∧
      later.filter (·.nodeId != [122]) <+: before ∧ ([122] ∉ later.map NodeInfo.nodeId → later = before) := by
  refine (minimal_disruption 2 _ ⟨[122], [], 3⟩ (by decide +kernel) [107] 2).1 ?_
  simp only [after, List.foldl, Call.apply, contains_addPhysicalNode_iff]
  simp [Contains, empty]

end Router

end MiniDynamo
