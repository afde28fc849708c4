import MiniDynamo.Ring.Router

/-! When the ring depends on its nodes alone. A virtual node that falls on another's point
takes it over, and leaves a gap when it is removed; unless that happens, the order in which
nodes came and went does not show. -/

namespace MiniDynamo

namespace Router

variable {router : Router} {virtualNodes : Int} {present : Bytes → Prop}

/-- One of the node's virtual nodes falls on the point. -/
def StandsAt (virtualNodes : Int) (id : Bytes) (point : UInt64) : Prop :=
  ∃ index, index < virtualNodes.toNat ∧ hash64 (vnodeKey id index) = point

/-- No two of these nodes have virtual nodes at one point. -/
def Scattered (virtualNodes : Int) (present : Bytes → Prop) : Prop :=
  ∀ first second point, present first → present second → StandsAt virtualNodes first point →
    StandsAt virtualNodes second point → first = second

/-- The points of the ring are those of its nodes, each its own. -/
def Exact (router : Router) : Prop :=
  ∀ (point : UInt64) (id : Bytes),
    router.ring[point]? = some id ↔ router.Contains id ∧ StandsAt router.virtualNodes id point

theorem exact_empty (virtualNodes : Int) : (empty virtualNodes).Exact := by
  intro point id
  simp [empty, Contains]

theorem lookup_insertVNodes_iff (nodeId : Bytes) (ring : OrderedMap UInt64 Bytes) (count : Nat) (point : UInt64)
    (id : Bytes) :
    (insertVNodes nodeId ring count)[point]? = some id ↔
      (∃ index, index < count ∧ hash64 (vnodeKey nodeId index) = point) ∧ nodeId = id ∨
        (¬ ∃ index, index < count ∧ hash64 (vnodeKey nodeId index) = point) ∧ ring[point]? = some id := by
  induction count with
  | zero => simp [insertVNodes]
  | succ count ih =>
    have last : insertVNodes nodeId ring (count + 1) =
        (insertVNodes nodeId ring count).insert (hash64 (vnodeKey nodeId count)) nodeId := by
      simp [insertVNodes, List.range_succ]
    have further : (∃ index, index < count + 1 ∧ hash64 (vnodeKey nodeId index) = point) ↔
        (∃ index, index < count ∧ hash64 (vnodeKey nodeId index) = point) ∨ hash64 (vnodeKey nodeId count) = point := by
      simp only [Nat.lt_succ_iff_lt_or_eq, or_and_right, exists_or, exists_eq_left]
    rw [last, OrderedMap.lookup_insert, further]
    by_cases here : hash64 (vnodeKey nodeId count) = point
    · simp [here]
    · simp [here, ih]

theorem virtualNodes_addPhysicalNode (router : Router) (node : NodeInfo) :
    (router.addPhysicalNode node).virtualNodes = router.virtualNodes := by
  unfold addPhysicalNode
  split <;> rfl

theorem virtualNodes_removePhysicalNode (router : Router) (nodeId : Bytes) :
    (router.removePhysicalNode nodeId).virtualNodes = router.virtualNodes := by
  unfold removePhysicalNode
  split <;> rfl

theorem contains_addPhysicalNode_iff (node : NodeInfo) (id : Bytes) :
    (router.addPhysicalNode node).Contains id ↔ node.nodeId = id ∨ router.Contains id := by
  rw [Contains, Contains, lookup_addPhysicalNode]
  by_cases same : node.nodeId = id <;> by_cases absent : router.nodes[id]? = none <;> simp [same, absent]

theorem contains_removePhysicalNode_iff (nodeId id : Bytes) :
    (router.removePhysicalNode nodeId).Contains id ↔ nodeId ≠ id ∧ router.Contains id := by
  rw [Contains, Contains, lookup_removePhysicalNode]
  by_cases same : nodeId = id <;> simp [same]

theorem Exact.addPhysicalNode (exact : router.Exact) (scattered : Scattered router.virtualNodes present)
    (node : NodeInfo) (mine : present node.nodeId) (others : ∀ id, router.Contains id → present id) :
    (router.addPhysicalNode node).Exact := by
  intro point id
  by_cases known : router.nodes.contains node.nodeId
  · rw [Router.addPhysicalNode, if_pos known]
    exact exact point id
  rw [contains_addPhysicalNode_iff, virtualNodes_addPhysicalNode]
  rw [Router.addPhysicalNode, if_neg known]
  have fresh : ¬ router.Contains node.nodeId := by
    rwa [Std.ExtTreeMap.contains_eq_isSome_getElem?, Option.isSome_iff_ne_none] at known
  have points := lookup_insertVNodes_iff node.nodeId router.ring router.virtualNodes.toNat point id
  refine points.trans ⟨?_, ?_⟩
  · rintro (⟨stands, rfl⟩ | ⟨-, before⟩)
    · exact ⟨.inl rfl, stands⟩
    · obtain ⟨contained, stands⟩ := (exact point id).mp before
      exact ⟨.inr contained, stands⟩
  · rintro ⟨rfl | contained, stands⟩
    · exact .inl ⟨stands, rfl⟩
    · refine .inr ⟨fun taken => ?_, (exact point id).mpr ⟨contained, stands⟩⟩
      -- the newcomer stands on another node's point: the two are the same node
      obtain rfl := scattered node.nodeId id point mine (others id contained) taken stands
      exact fresh contained

theorem Exact.removePhysicalNode (exact : router.Exact) (nodeId : Bytes) : (router.removePhysicalNode nodeId).Exact := by
  intro point id
  rw [contains_removePhysicalNode_iff, virtualNodes_removePhysicalNode, and_assoc, ← exact point id]
  unfold Router.removePhysicalNode
  split
  · rw [OrderedMap.lookup_filter, and_comm, bne_iff_ne, ne_comm]
  · rename_i absent
    have gone : ¬ router.Contains nodeId := by
      rwa [Std.ExtTreeMap.contains_eq_isSome_getElem?, Option.isSome_iff_ne_none] at absent
    refine ⟨fun found => ⟨?_, found⟩, fun found => found.2⟩
    rintro rfl
    exact gone ((exact point _).mp found).1

section SameNodes

variable {left right : Router}

theorem size_eq (same : ∀ id, left.Contains id ↔ right.Contains id) : left.nodes.size = right.nodes.size := by
  have keys : left.nodes.map (fun _ _ => ()) = right.nodes.map (fun _ _ => ()) := by
    refine Std.ExtTreeMap.ext_getElem? (fun id => ?_)
    have both := same id
    simp only [Contains] at both
    rw [Std.ExtTreeMap.getElem?_map, Std.ExtTreeMap.getElem?_map]
    cases one : left.nodes[id]? <;> cases other : right.nodes[id]? <;> simp [one, other] at both ⊢
  rw [← Std.ExtTreeMap.size_map, keys, Std.ExtTreeMap.size_map]

theorem ring_eq (same : ∀ id, left.Contains id ↔ right.Contains id) (points : left.virtualNodes = right.virtualNodes)
    (exactLeft : left.Exact) (exactRight : right.Exact) : left.ring = right.ring := by
  refine Std.ExtTreeMap.ext_getElem? (fun point => Option.ext (fun id => ?_))
  rw [exactLeft point id, exactRight point id, same id, points]

theorem visit_ids (same : ∀ id, left.Contains id ↔ right.Contains id) (phys : Bytes) (chosen : List Bytes)
    {one other : List NodeInfo} (ids : one.map NodeInfo.nodeId = other.map NodeInfo.nodeId) :
    (visit left.nodes phys chosen one).1 = (visit right.nodes phys chosen other).1 ∧
      (visit left.nodes phys chosen one).2.map NodeInfo.nodeId =
        (visit right.nodes phys chosen other).2.map NodeInfo.nodeId := by
  have both := same phys
  simp only [Contains] at both
  unfold visit
  cases here : left.nodes[phys]? with
  | none =>
    cases there : right.nodes[phys]? with
    | none => exact ⟨rfl, ids⟩
    | some => simp [here, there] at both
  | some info =>
    cases there : right.nodes[phys]? with
    | none => simp [here, there] at both
    | some its =>
      by_cases seen : phys ∈ chosen
      · simp [seen, ids]
      · simp [seen, ids, left.keyed phys info here, right.keyed phys its there]

theorem collect_ids (same : ∀ id, left.Contains id ↔ right.Contains id) (replicas : Int) (points chosen : List Bytes)
    {one other : List NodeInfo} (ids : one.map NodeInfo.nodeId = other.map NodeInfo.nodeId) :
    (collect left.nodes replicas points chosen one).map (List.map NodeInfo.nodeId) =
      (collect right.nodes replicas points chosen other).map (List.map NodeInfo.nodeId) := by
  induction points generalizing chosen one other with
  | nil => rfl
  | cons phys rest ih =>
    obtain ⟨seen, found⟩ := visit_ids same phys chosen ids
    have lengths := congrArg List.length found
    rw [List.length_map, List.length_map] at lengths
    rw [collect, collect]
    simp only [seen, size_eq same, lengths]
    split
    · simp [found]
    · split
      · exact ih _ found
      · simp [found]

/-- Two exact rings with the same nodes name the same owners for every key. -/
theorem findOwners_ids (same : ∀ id, left.Contains id ↔ right.Contains id)
    (points : left.virtualNodes = right.virtualNodes) (exactLeft : left.Exact) (exactRight : right.Exact)
    (key : Bytes) (replicas : Int) :
    (left.findOwners key replicas).map (List.map NodeInfo.nodeId) =
      (right.findOwners key replicas).map (List.map NodeInfo.nodeId) := by
  have ring := ring_eq same points exactLeft exactRight
  unfold findOwners turn
  rw [ring]
  simp only
  split
  · rfl
  · exact collect_ids same _ _ [] rfl

end SameNodes

end Router

end MiniDynamo
