import MiniDynamo.Library.Decimal
import MiniDynamo.Library.OrderedMap
import MiniDynamo.Codec.NodeId

/-! The consistent-hash ring: where the virtual nodes stand, and which physical
nodes own a key. -/

namespace MiniDynamo

/-- FNV-1a over the bytes, then the `fmix64` finalizer. -/
def hash64 (text : Bytes) : UInt64 :=
  let seed := text.foldl (fun h byte => (h ^^^ byte.toUInt64) * 1099511628211) 1469598103934665603
  let h := (seed ^^^ (seed >>> 33)) * 0xff51afd7ed558ccd
  let h := (h ^^^ (h >>> 33)) * 0xc4ceb9fe1a85ec53
  h ^^^ (h >>> 33)

/-- The ring and the physical nodes on it. Every node is filed under its own id, and
every point of the ring belongs to a node that is there. -/
structure Router where
  virtualNodes : Int
  ring : OrderedMap UInt64 Bytes
  nodes : OrderedMap Bytes NodeInfo
  keyed : ∀ (id : Bytes) (info : NodeInfo), nodes[id]? = some info → info.nodeId = id
  placed : ∀ (point : UInt64) (id : Bytes), ring[point]? = some id → nodes[id]? ≠ none

namespace Router

def empty (virtualNodes : Int) : Router :=
  ⟨virtualNodes, ∅, ∅, by simp, by simp⟩

/-- The label a virtual node is hashed under. -/
def vnodeKey (nodeId : Bytes) (index : Nat) : Bytes := nodeId ++ ascii "#vn" ++ decimal index

/-- `insertVNode` for each index in turn. -/
def insertVNodes (nodeId : Bytes) (ring : OrderedMap UInt64 Bytes) (count : Nat) : OrderedMap UInt64 Bytes :=
  (List.range count).foldl (fun ring index => ring.insert (hash64 (vnodeKey nodeId index)) nodeId) ring

private theorem lookup_insert_points {id : Bytes} (points : List UInt64) (ring : OrderedMap UInt64 Bytes) {point : UInt64}
    {owner : Bytes} (found : (points.foldl (fun ring place => ring.insert place id) ring)[point]? = some owner) :
    owner = id ∨ ring[point]? = some owner := by
  induction points generalizing ring with
  | nil => exact .inr found
  | cons place rest ih =>
    rcases ih _ found with mine | before
    · exact .inl mine
    · rw [OrderedMap.lookup_insert] at before
      split at before
      · exact .inl (Option.some.inj before).symm
      · exact .inr before

theorem lookup_insertVNodes {nodeId : Bytes} {ring : OrderedMap UInt64 Bytes} {count : Nat} {point : UInt64}
    {owner : Bytes} (found : (insertVNodes nodeId ring count)[point]? = some owner) :
    owner = nodeId ∨ ring[point]? = some owner := by
  refine lookup_insert_points ((List.range count).map (fun index => hash64 (vnodeKey nodeId index))) ring ?_
  rwa [List.foldl_map]

def addPhysicalNode (router : Router) (node : NodeInfo) : Router :=
  if router.nodes.contains node.nodeId then router
  else
    { virtualNodes := router.virtualNodes
      ring := insertVNodes node.nodeId router.ring router.virtualNodes.toNat
      nodes := router.nodes.insert node.nodeId node
      keyed := by
        intro id info found
        rw [OrderedMap.lookup_insert] at found
        split at found
        · rename_i same
          rw [← same, ← Option.some.inj found]
        · exact router.keyed id info found
      placed := by
        intro point id found
        rw [OrderedMap.lookup_insert]
        split
        · simp
        · rename_i different
          rcases lookup_insertVNodes found with mine | before
          · exact absurd mine.symm different
          · exact router.placed point id before }

def removePhysicalNode (router : Router) (nodeId : Bytes) : Router :=
  if router.nodes.contains nodeId then
    { virtualNodes := router.virtualNodes
      ring := router.ring.filter (fun _ owner => owner != nodeId)
      nodes := router.nodes.erase nodeId
      keyed := by
        intro id info found
        rw [OrderedMap.lookup_erase] at found
        split at found
        · cases found
        · exact router.keyed id info found
      placed := by
        intro point id found
        rw [OrderedMap.lookup_filter] at found
        obtain ⟨before, other⟩ := found
        rw [OrderedMap.lookup_erase]
        split
        · rename_i same
          simp [same] at other
        · exact router.placed point id before }
  else router

/-- The node has a place in the ring. -/
def Contains (router : Router) (id : Bytes) : Prop := router.nodes[id]? ≠ none

instance (router : Router) (id : Bytes) : Decidable (router.Contains id) :=
  inferInstanceAs (Decidable (router.nodes[id]? ≠ none))

theorem contains_addPhysicalNode {router : Router} {node : NodeInfo} {id : Bytes}
    (contained : (router.addPhysicalNode node).Contains id) : id = node.nodeId ∨ router.Contains id := by
  unfold addPhysicalNode at contained
  split at contained
  · exact .inr contained
  · rw [Contains, OrderedMap.lookup_insert] at contained
    split at contained
    · rename_i same
      exact .inl same.symm
    · exact .inr contained

theorem contains_removePhysicalNode {router : Router} {nodeId id : Bytes}
    (contained : (router.removePhysicalNode nodeId).Contains id) : id ≠ nodeId ∧ router.Contains id := by
  unfold removePhysicalNode at contained
  split at contained
  · rw [Contains, OrderedMap.lookup_erase] at contained
    split at contained
    · exact absurd rfl contained
    · rename_i different
      exact ⟨Ne.symm different, contained⟩
  · rename_i absent
    refine ⟨?_, contained⟩
    rintro rfl
    rw [Std.ExtTreeMap.contains_eq_isSome_getElem?, Option.isSome_iff_ne_none] at absent
    exact absent contained

/-- Adding a node that is there already changes nothing, not even its address. -/
theorem lookup_addPhysicalNode (router : Router) (node : NodeInfo) (id : Bytes) :
    (router.addPhysicalNode node).nodes[id]? =
      if node.nodeId = id ∧ router.nodes[id]? = none then some node else router.nodes[id]? := by
  unfold addPhysicalNode
  split
  · rename_i present
    rw [Std.ExtTreeMap.contains_eq_isSome_getElem?, Option.isSome_iff_ne_none] at present
    rw [if_neg]
    rintro ⟨rfl, absent⟩
    exact present absent
  · rename_i absent
    rw [Std.ExtTreeMap.contains_eq_isSome_getElem?, Option.isSome_iff_ne_none, not_not] at absent
    rw [OrderedMap.lookup_insert]
    by_cases same : node.nodeId = id
    · rw [if_pos same, if_pos ⟨same, same ▸ absent⟩]
    · rw [if_neg same, if_neg (fun both => same both.1)]

theorem lookup_removePhysicalNode (router : Router) (nodeId id : Bytes) :
    (router.removePhysicalNode nodeId).nodes[id]? = if nodeId = id then none else router.nodes[id]? := by
  unfold removePhysicalNode
  split
  · exact OrderedMap.lookup_erase
  · rename_i absent
    rw [Std.ExtTreeMap.contains_eq_isSome_getElem?, Option.isSome_iff_ne_none, not_not] at absent
    split
    · rename_i same
      exact same ▸ absent
    · rfl

def getAllPhysicalNodes (router : Router) : List NodeInfo := router.nodes.toList.map Prod.snd

/-- The owners of the points met on one turn around the ring, from `lower_bound` of the
hash and past the end back to it. -/
def turn (router : Router) (hash : UInt64) : List Bytes :=
  (router.ring.toList.dropWhile (·.1 < hash) ++ router.ring.toList.takeWhile (·.1 < hash)).map Prod.snd

/-- The body of the loop of `findOwners` at one point of the ring. -/
def visit (nodes : OrderedMap Bytes NodeInfo) (phys : Bytes) (chosen : List Bytes) (owners : List NodeInfo) :
    List Bytes × List NodeInfo :=
  match nodes[phys]? with
  | some info => if phys ∈ chosen then (chosen, owners) else (phys :: chosen, owners ++ [info])
  | none => (chosen, owners)

/-- The loop of `findOwners` over the points of one turn. A turn without an exit ends
in `none`: the next one meets the same points, so the loop goes on for ever. -/
def collect (nodes : OrderedMap Bytes NodeInfo) (replicas : Int) : List Bytes → List Bytes → List NodeInfo →
    Option (List NodeInfo)
  | [], _, _ => none
  | phys :: rest, chosen, owners =>
    let after := visit nodes phys chosen owners
    if after.1.length = nodes.size then some after.2
    else if after.2.length < replicas then collect nodes replicas rest after.1 after.2
    else some after.2

def findOwners (router : Router) (key : Bytes) (replicas : Int) : Option (List NodeInfo) :=
  let replicas := if replicas ≤ 0 then 1 else replicas
  if router.ring.isEmpty then some []
  else collect router.nodes replicas (router.turn (hash64 key)) [] []

/-- What the loop of `findOwners` has collected so far: distinct nodes of the ring, no
more of them than asked for. -/
structure Collected (nodes : OrderedMap Bytes NodeInfo) (replicas : Int) (chosen : List Bytes)
    (owners : List NodeInfo) : Prop where
  known : ∀ owner ∈ owners, nodes[owner.nodeId]? = some owner
  distinct : (owners.map NodeInfo.nodeId).Nodup
  listed : ∀ owner ∈ owners, owner.nodeId ∈ chosen
  bounded : (owners.length : Int) ≤ replicas

theorem Collected.append {nodes : OrderedMap Bytes NodeInfo} {replicas : Int} {chosen : List Bytes}
    {owners : List NodeInfo} {info : NodeInfo} (collected : Collected nodes replicas chosen owners)
    (keyed : ∀ (id : Bytes) (info : NodeInfo), nodes[id]? = some info → info.nodeId = id) {phys : Bytes}
    (found : nodes[phys]? = some info) (fresh : phys ∉ chosen) (room : (owners.length : Int) < replicas) :
    Collected nodes replicas (phys :: chosen) (owners ++ [info]) := by
  have named := keyed phys info found
  refine ⟨?_, ?_, ?_, ?_⟩
  · intro owner member
    rcases List.mem_append.mp member with before | last
    · exact collected.known owner before
    · rw [List.mem_singleton.mp last, named]
      exact found
  · rw [List.map_append, List.nodup_append]
    refine ⟨collected.distinct, by simp, ?_⟩
    intro id before other last same
    obtain ⟨owner, member, rfl⟩ := List.mem_map.mp before
    have hit : owner.nodeId = phys := by simpa [named, ← same] using last
    exact fresh (hit ▸ collected.listed owner member)
  · intro owner member
    rcases List.mem_append.mp member with before | last
    · exact List.mem_cons_of_mem phys (collected.listed owner before)
    · rw [List.mem_singleton.mp last, named]
      exact List.mem_cons_self
  · simp only [List.length_append, List.length_cons, List.length_nil]
    omega

theorem visit_cases (nodes : OrderedMap Bytes NodeInfo) (phys : Bytes) (chosen : List Bytes)
    (owners : List NodeInfo) :
    visit nodes phys chosen owners = (chosen, owners) ∨
      ∃ info, nodes[phys]? = some info ∧ phys ∉ chosen ∧
        visit nodes phys chosen owners = (phys :: chosen, owners ++ [info]) := by
  unfold visit
  split
  · rename_i info found
    by_cases seen : phys ∈ chosen
    · exact .inl (by simp [seen])
    · exact .inr ⟨info, found, seen, by simp [seen]⟩
  · exact .inl rfl

/-- The loop ends with what it has after this point, or goes on from there with room left. -/
theorem collect_cases {nodes : OrderedMap Bytes NodeInfo} {replicas : Int} {phys : Bytes}
    {rest chosen : List Bytes} {owners result : List NodeInfo}
    (ended : collect nodes replicas (phys :: rest) chosen owners = some result) :
    result = (visit nodes phys chosen owners).2 ∨
      ((visit nodes phys chosen owners).2.length : Int) < replicas ∧
        collect nodes replicas rest (visit nodes phys chosen owners).1 (visit nodes phys chosen owners).2 =
          some result := by
  rw [collect] at ended
  split at ended
  · exact .inl (Option.some.inj ended).symm
  · split at ended
    · rename_i room
      exact .inr ⟨room, ended⟩
    · exact .inl (Option.some.inj ended).symm

theorem collect_collected {nodes : OrderedMap Bytes NodeInfo} {replicas : Int}
    (keyed : ∀ (id : Bytes) (info : NodeInfo), nodes[id]? = some info → info.nodeId = id) {points chosen : List Bytes}
    {owners result : List NodeInfo} (collected : Collected nodes replicas chosen owners)
    (room : (owners.length : Int) < replicas) (ended : collect nodes replicas points chosen owners = some result) :
    ∃ chosen, Collected nodes replicas chosen result := by
  induction points generalizing chosen owners with
  | nil => cases ended
  | cons phys rest ih =>
    have kept : Collected nodes replicas (visit nodes phys chosen owners).1 (visit nodes phys chosen owners).2 := by
      rcases visit_cases nodes phys chosen owners with same | ⟨info, found, unseen, added⟩
      · rw [same]
        exact collected
      · rw [added]
        exact collected.append keyed found unseen room
    rcases collect_cases ended with rfl | ⟨room, ended⟩
    · exact ⟨_, kept⟩
    · exact ih kept room ended

/-- The owners of a key are distinct nodes of the ring, at most as many as asked for. -/
theorem findOwners_spec {router : Router} {key : Bytes} {replicas : Int} {owners : List NodeInfo}
    (found : router.findOwners key replicas = some owners) :
    (∀ owner ∈ owners, router.nodes[owner.nodeId]? = some owner) ∧ (owners.map NodeInfo.nodeId).Nodup ∧
      (owners.length : Int) ≤ max replicas 1 := by
  unfold findOwners at found
  simp only at found
  split at found
  · cases found
    exact ⟨by simp, by simp, by simp⟩
  · have asked : (if replicas ≤ 0 then 1 else replicas) = max replicas 1 := by omega
    rw [asked] at found
    have nothing : Collected router.nodes (max replicas 1) [] [] := ⟨by simp, by simp, by simp, by simp⟩
    obtain ⟨chosen, collected⟩ := collect_collected router.keyed nothing (by simp) found
    exact ⟨collected.known, collected.distinct, collected.bounded⟩

theorem mem_of_collect {nodes : OrderedMap Bytes NodeInfo} {replicas : Int} {points chosen : List Bytes}
    {owners result : List NodeInfo} {owner : NodeInfo} (member : owner ∈ owners)
    (ended : collect nodes replicas points chosen owners = some result) : owner ∈ result := by
  induction points generalizing chosen owners with
  | nil => cases ended
  | cons phys rest ih =>
    have kept : owner ∈ (visit nodes phys chosen owners).2 := by
      rcases visit_cases nodes phys chosen owners with same | ⟨info, -, -, added⟩
      · rwa [same]
      · rw [added]
        exact List.mem_append_left _ member
    rcases collect_cases ended with rfl | ⟨-, ended⟩
    · exact kept
    · exact ih kept ended

private theorem collect_primary {nodes : OrderedMap Bytes NodeInfo} {replicas : Int} {points : List Bytes}
    {primary : NodeInfo} {owners : List NodeInfo} (positive : 1 ≤ replicas)
    (first : collect nodes 1 points [] [] = some [primary])
    (all : collect nodes replicas points [] [] = some owners) : primary ∈ owners := by
  induction points with
  | nil => cases first
  | cons phys rest ih =>
    rcases visit_cases nodes phys [] [] with none | ⟨info, -, -, some⟩
    · -- no node at this point yet: both walks go on, unless there are no nodes at all
      rw [collect, none] at first all
      by_cases noNodes : (0 : Nat) = nodes.size
      · simp [noNodes] at first
      · have room : (0 : Int) < replicas := by omega
        exact ih (by simpa [noNodes] using first) (by simpa [noNodes, room] using all)
    · have chosen : primary = info := by
        rcases collect_cases first with same | ⟨full, -⟩
        · simpa [some] using same
        · simp [some] at full
      rw [chosen]
      rcases collect_cases all with rfl | ⟨-, all⟩
      · simp [some]
      · exact mem_of_collect (by simp [some]) all

/-- The primary of a key is among its owners for every replica count. -/
theorem primary_mem_findOwners {router : Router} {key : Bytes} {replicas : Int} {primary : NodeInfo}
    {owners : List NodeInfo} (first : router.findOwners key 1 = some [primary])
    (all : router.findOwners key replicas = some owners) : primary ∈ owners := by
  unfold findOwners at first all
  simp only at first all
  split at first
  · cases first
  · rename_i nonempty
    simp only [nonempty, Bool.false_eq_true, ↓reduceIte] at all
    exact collect_primary (by split <;> omega) first all

end Router

end MiniDynamo
