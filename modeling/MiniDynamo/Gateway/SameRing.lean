import MiniDynamo.Gateway.ClusterClient
import MiniDynamo.Gossip.RingCalls
import MiniDynamo.Node.ClientProtocol

/-! The gateway's ring is the cluster's: what a node answers to `RING`, read and built up again
by the gateway, names the same owners for every key. -/

namespace MiniDynamo

namespace Router

variable {router : Router} {virtualNodes : Int}

theorem mem_getAllPhysicalNodes {info : NodeInfo} :
    info ∈ router.getAllPhysicalNodes ↔ router.nodes[info.nodeId]? = some info := by
  rw [getAllPhysicalNodes, List.mem_map]
  constructor
  · rintro ⟨⟨id, found⟩, member, rfl⟩
    have lookup := OrderedMap.mem_entries.mp member
    rwa [router.keyed id _ lookup]
  · intro found
    exact ⟨(info.nodeId, info), OrderedMap.mem_entries.mpr found, rfl⟩

theorem ids_getAllPhysicalNodes : (router.getAllPhysicalNodes.map NodeInfo.nodeId).Nodup := by
  have keys : router.getAllPhysicalNodes.map NodeInfo.nodeId = router.nodes.toList.map Prod.fst := by
    rw [getAllPhysicalNodes, List.map_map]
    refine List.map_congr_left (fun entry member => ?_)
    exact router.keyed entry.1 entry.2 (OrderedMap.mem_entries.mp member)
  rw [keys]
  exact OrderedMap.entries_keys_nodup

/-- New nodes added one after the other. -/
theorem ring_adds (nodes : List NodeInfo) (distinct : (nodes.map NodeInfo.nodeId).Nodup)
    (fresh : ∀ info ∈ nodes, ¬ router.Contains info.nodeId) :
    (nodes.foldl addPhysicalNode router).ring =
      nodes.foldl (fun ring info => insertVNodes info.nodeId ring router.virtualNodes.toNat) router.ring := by
  induction nodes generalizing router with
  | nil => rfl
  | cons info rest ih =>
    obtain ⟨other, distinct⟩ := List.nodup_cons.mp distinct
    have absent := fresh info List.mem_cons_self
    rw [List.foldl_cons, List.foldl_cons, ih distinct (fun later member contained => ?_), virtualNodes_addPhysicalNode]
    · congr 1
      unfold addPhysicalNode
      rw [if_neg]
      rwa [Std.ExtTreeMap.contains_eq_isSome_getElem?, Option.isSome_iff_ne_none]
    · rcases (contains_addPhysicalNode_iff info later.nodeId).mp contained with same | before
      · exact other (same ▸ List.mem_map_of_mem member)
      · exact fresh later (List.mem_cons_of_mem info member) before

theorem contains_adds (nodes : List NodeInfo) (id : Bytes) :
    (nodes.foldl addPhysicalNode router).Contains id ↔ id ∈ nodes.map NodeInfo.nodeId ∨ router.Contains id := by
  induction nodes generalizing router with
  | nil => simp
  | cons info rest ih =>
    rw [List.foldl_cons, ih, contains_addPhysicalNode_iff, List.map_cons, List.mem_cons, or_assoc, or_left_comm,
      eq_comm (a := id)]

/-- Without collisions a ring is the one its nodes alone would build. -/
theorem ring_eq_adds {ids : List Bytes} (free : CollisionFree virtualNodes ids) (exact : router.Exact)
    (points : router.virtualNodes = virtualNodes) (known : ∀ id, router.Contains id → id ∈ ids) :
    router.ring = router.getAllPhysicalNodes.foldl
      (fun ring info => insertVNodes info.nodeId ring virtualNodes.toNat) ∅ := by
  have names : added (router.getAllPhysicalNodes.map .add) = router.getAllPhysicalNodes.map NodeInfo.nodeId := by
    rw [added, List.filterMap_map]
    exact congrFun (List.filterMap_eq_map (f := NodeInfo.nodeId)) _
  have members : ∀ id, id ∈ router.getAllPhysicalNodes.map NodeInfo.nodeId ↔ router.Contains id := by
    intro id
    rw [List.mem_map]
    constructor
    · rintro ⟨info, member, rfl⟩
      simp [Contains, mem_getAllPhysicalNodes.mp member]
    · intro contained
      obtain ⟨info, found⟩ := Option.ne_none_iff_exists'.mp contained
      have named := router.keyed id info found
      exact ⟨info, mem_getAllPhysicalNodes.mpr (named ▸ found), named⟩
  have inside : added (router.getAllPhysicalNodes.map .add) ⊆ ids := by
    intro id member
    rw [names] at member
    exact known id ((members id).mp member)
  have built : after virtualNodes (router.getAllPhysicalNodes.map .add) =
      router.getAllPhysicalNodes.foldl addPhysicalNode (empty virtualNodes) := by
    rw [after, List.foldl_map]
    rfl
  obtain ⟨rebuilt, same, -⟩ := exact_after free inside
  rw [built] at rebuilt same
  have nobody : ∀ id, ¬ (empty virtualNodes).Contains id := fun id contained => contained (by simp [empty])
  rw [ring_eq (fun id => ?_) (points.trans same.symm) exact rebuilt, ring_adds _ ids_getAllPhysicalNodes
    (fun info _ => nobody info.nodeId)]
  · rfl
  · rw [contains_adds, members, or_iff_left (nobody id)]

end Router

namespace Gateway

open Utf16 ClusterClient

section Reply

variable {info : NodeInfo}

/-- How the gateway sees a node. -/
def seenAs (info : NodeInfo) : RingNode := ⟨widen info.nodeId, ofUtf8 info.host, info.port.toNat⟩

/-- A row of the reply, without the end of its line. -/
def row (info : NodeInfo) : Bytes := [pipe].intercalate [info.nodeId, info.host, decimal info.port.toNat]

theorem ringLine_eq (info : NodeInfo) : Node.ringLine info = row info ++ [10] := by
  have bar : ascii "|" = [pipe] := by decide
  simp [Node.ringLine, row, bar, List.intercalate]

theorem valid_ascii {id : Bytes} (valid : isValidNodeId id = true) : ∀ byte ∈ id, byte.toNat < 0x80 := by
  intro byte member
  by_contra big
  have outside : isIdByte byte = false := by
    have table : ∀ value < 256, 0x80 ≤ value → isIdByte (.ofNat value) = false := by decide +kernel
    have bound := byte.toNat_lt
    simpa using table byte.toNat (by omega) (by omega)
  exact not_mem_of_isValidNodeId valid outside member

/-- What a row needs to be read back. -/
structure Readable (info : NodeInfo) : Prop where
  valid : isValidNodeId info.nodeId = true
  bars : pipe ∉ info.host
  lines : (10 : UInt8) ∉ info.host

theorem Readable.splitOn_row (readable : Readable info) :
    (row info).splitOn pipe = [info.nodeId, info.host, decimal info.port.toNat] := by
  rw [row, List.splitOn_intercalate]
  · have id : pipe ∉ info.nodeId := not_mem_of_isValidNodeId readable.valid (by decide)
    have port : pipe ∉ decimal info.port.toNat := decimal_clean (by decide)
    simp [id, readable.bars, port]
  · simp

theorem Readable.newline_not_mem (readable : Readable info) : (10 : UInt8) ∉ row info := by
  have id : (10 : UInt8) ∉ info.nodeId := not_mem_of_isValidNodeId readable.valid (by decide)
  have port : (10 : UInt8) ∉ decimal info.port.toNat := decimal_clean (by decide)
  simp [row, List.intercalate, id, readable.lines, port, pipe]

theorem trim_of_visible {first last : UInt16} {middle : Utf16} (left : 32 < first.toNat) (right : 32 < last.toNat) :
    trim (first :: (middle ++ [last])) = first :: (middle ++ [last]) := by
  rw [trim, List.dropWhile_cons_of_neg (by simpa using left), ← List.cons_append,
    List.rdropWhile_concat_neg _ _ _ (by simpa using right)]

theorem Readable.text_row (readable : Readable info) :
    ofUtf8 (row info) = widen info.nodeId ++ bar :: (ofUtf8 info.host ++ bar :: widen (decimal info.port.toNat)) := by
  rw [row, ofUtf8_intercalate _ (by decide), List.map_cons, List.map_cons, List.map_cons, List.map_nil,
    ofUtf8_ascii (valid_ascii readable.valid), ofUtf8_ascii (fun byte member => decimal_ascii member)]
  simp [List.intercalate, bar, pipe]

/-- A row starts with an id and ends with a digit, so there is nothing to trim. -/
theorem Readable.trim_row (readable : Readable info) : trim (ofUtf8 (row info)) = ofUtf8 (row info) := by
  obtain ⟨first, rest, name⟩ := List.exists_cons_of_ne_nil (isValidNodeId_ne_nil readable.valid)
  rcases List.eq_nil_or_concat (decimal info.port.toNat) with none | ⟨front, last, number⟩
  · exact absurd none (decimal_ne_nil _)
  have left : 32 < first.toUInt16.toNat := by
    have table : ∀ value < 256, value ≤ 32 → isIdByte (.ofNat value) = false := by decide +kernel
    rw [UInt8.toNat_toUInt16]
    by_contra small
    have outside : isIdByte first = false := by simpa using table first.toNat first.toNat_lt (by omega)
    exact not_mem_of_isValidNodeId readable.valid outside (by simp [name])
  have right : 32 < last.toUInt16.toNat := by
    have bounds := mem_decimal (show last ∈ decimal info.port.toNat by simp [number])
    rw [UInt8.toNat_toUInt16]
    omega
  have shape : ofUtf8 (row info) = first.toUInt16 :: ((widen rest ++ bar :: (ofUtf8 info.host ++ bar :: widen front)) ++
      [last.toUInt16]) := by
    rw [readable.text_row, name, number]
    simp [widen]
  rw [shape, trim_of_visible left right]

theorem Readable.parseRow_row (readable : Readable info) : parseRow (ofUtf8 (row info)) = some (seenAs info) := by
  have port : info.port.toNat < 2 ^ 31 := by
    have bound := info.port.toNat_lt
    omega
  have fields : splitBar (ofUtf8 (row info)) =
      [widen info.nodeId, ofUtf8 info.host, widen (decimal info.port.toNat)] := by
    have cut := readable.splitOn_row
    rw [splitBar_ofUtf8]
    rw [pipe] at cut
    rw [cut]
    simp only [List.map_cons, List.map_nil]
    rw [ofUtf8_ascii (valid_ascii readable.valid), ofUtf8_ascii (fun byte member => decimal_ascii member)]
  rw [parseRow, readable.trim_row, fields]
  simp only
  rw [parseInt_decimal port]
  rfl

theorem flatten_lines (rows : List Bytes) :
    (rows.map (· ++ [10])).flatten = [(10 : UInt8)].intercalate (rows ++ [[]]) := by
  induction rows with
  | nil => rfl
  | cons first rest ih =>
    rw [List.map_cons, List.flatten_cons, ih, List.cons_append, List.intercalate_cons_of_ne_nil (by simp),
      List.append_assoc]

/-- The lines of the reply, as they stand between the ends of lines. -/
def replyLines (nodes : List NodeInfo) : List Bytes := ascii "RING" :: decimal nodes.length :: nodes.map row

theorem handleRingQuery_eq (node : Node) :
    node.handleRingQuery = [(10 : UInt8)].intercalate (replyLines node.router.getAllPhysicalNodes ++ [[]]) := by
  have rows : (node.router.getAllPhysicalNodes.map Node.ringLine).flatten =
      [(10 : UInt8)].intercalate (node.router.getAllPhysicalNodes.map row ++ [[]]) := by
    rw [← flatten_lines, List.map_map]
    congr 1
    exact List.map_congr_left (fun info _ => ringLine_eq info)
  rw [Node.handleRingQuery, rows, replyLines, List.cons_append, List.cons_append,
    List.intercalate_cons_of_ne_nil (by simp), List.intercalate_cons_of_ne_nil (by simp)]
  simp only [List.append_assoc]

theorem splitLines_handleRingQuery (node : Node) (readable : ∀ info ∈ node.router.getAllPhysicalNodes, Readable info) :
    splitLines (ofUtf8 node.handleRingQuery) = (replyLines node.router.getAllPhysicalNodes).map ofUtf8 := by
  have ascii10 : (10 : UInt8).toNat < 0x80 := by decide
  have clean : ∀ line ∈ replyLines node.router.getAllPhysicalNodes ++ [[]], (10 : UInt8) ∉ line := by
    intro line member
    rcases List.mem_append.mp member with among | last
    · simp only [replyLines, List.mem_cons, List.mem_map] at among
      rcases among with rfl | rfl | ⟨info, present, rfl⟩
      · decide
      · exact decimal_clean (by decide)
      · exact (readable info present).newline_not_mem
    · simp [List.mem_singleton.mp last]
  have filled : ∀ line ∈ (replyLines node.router.getAllPhysicalNodes).map ofUtf8, line ≠ [] := by
    intro line member
    simp only [replyLines, List.map_cons, List.map_map, List.mem_cons, List.mem_map, Function.comp_apply] at member
    rcases member with rfl | rfl | ⟨info, present, rfl⟩
    · decide
    · rw [ofUtf8_ascii (fun byte member => decimal_ascii member)]
      simp [widen, decimal_ne_nil]
    · rw [(readable info present).text_row]
      simp
  have parts := splitOn_ofUtf8 node.handleRingQuery ascii10
  rw [handleRingQuery_eq, List.splitOn_intercalate 10 clean (by simp), ← handleRingQuery_eq, List.map_append] at parts
  have broken : newline ∈ ofUtf8 node.handleRingQuery := by
    by_contra whole
    have single := congrArg List.length (parts.symm.trans (List.splitOn_eq_singleton whole))
    simp [replyLines] at single
  rw [splitLines, if_pos broken]
  have cut : (ofUtf8 node.handleRingQuery).splitOn newline = _ := parts
  rw [cut, List.map_singleton, List.rdropWhile_concat_pos _ _ _ rfl, List.rdropWhile_eq_self_iff]
  intro some
  simpa using filled _ (List.getLast_mem some)

/-- The gateway reads the nodes of the ring from the reply of a node. -/
theorem parseRing_handleRingQuery (node : Node) (readable : ∀ info ∈ node.router.getAllPhysicalNodes, Readable info) :
    parseRing (ofUtf8 node.handleRingQuery) = some (node.router.getAllPhysicalNodes.map seenAs) := by
  have title : trim (ofUtf8 (ascii "RING")) = text "RING" := by decide
  have rows : (node.router.getAllPhysicalNodes.map (fun info => ofUtf8 (row info))).filterMap
      (fun line => if (trim line).isEmpty then none else parseRow line) =
        node.router.getAllPhysicalNodes.map seenAs := by
    rw [List.filterMap_map, ← List.filterMap_eq_map]
    refine List.filterMap_congr (fun info member => ?_)
    have filled : trim (ofUtf8 (row info)) ≠ [] := by
      rw [(readable info member).trim_row, (readable info member).text_row]
      simp
    rw [Function.comp_apply, if_neg (by simpa using filled), (readable info member).parseRow_row]
    rfl
  rw [parseRing, splitLines_handleRingQuery node readable, replyLines, List.map_cons]
  simp only [title, ne_eq, not_true_eq_false, ↓reduceIte, List.map_cons, List.drop_succ_cons, List.drop_zero,
    List.map_map]
  exact congrArg some rows

end Reply

section Rebuild

variable {virtualNodes : Int} {ring : LongMap}

theorem lookup_putVNodes {node other : RingNode} {key : Int64}
    (found : (putVNodes virtualNodes ring node)[key]? = some other) : other = node ∨ ring[key]? = some other := by
  unfold putVNodes at found
  generalize List.range virtualNodes.toNat = indices at found
  induction indices generalizing ring with
  | nil => exact .inr found
  | cons i rest ih =>
    rcases ih found with mine | before
    · exact .inl mine
    · rw [Std.ExtTreeMap.getElem?_insert] at before
      split at before
      · exact .inl (Option.some.inj before).symm
      · exact .inr before

theorem lookup_rebuild {nodes : List RingNode} {other : RingNode} {key : Int64}
    (found : (nodes.foldl (putVNodes virtualNodes) ring)[key]? = some other) :
    other ∈ nodes ∨ ring[key]? = some other := by
  induction nodes generalizing ring with
  | nil => exact .inr found
  | cons node rest ih =>
    rcases ih found with later | now
    · exact .inl (List.mem_cons_of_mem node later)
    · rcases lookup_putVNodes now with rfl | before
      · exact .inl List.mem_cons_self
      · exact .inr before

/-- The rebuilt ring holds nodes that were shown. -/
theorem mem_rebuild {nodes : List RingNode} {node : RingNode}
    (member : node ∈ (nodes.foldl (putVNodes virtualNodes) ∅).toList.map Prod.snd) : node ∈ nodes := by
  obtain ⟨⟨key, _⟩, entry, rfl⟩ := List.mem_map.mp member
  rcases lookup_rebuild (Std.ExtTreeMap.mem_toList_iff_getElem?_eq_some.mp entry) with listed | before
  · exact listed
  · simp at before

theorem alike_rebuild {points : OrderedMap UInt64 Bytes} (nodes : List NodeInfo)
    (valid : ∀ info ∈ nodes, isValidNodeId info.nodeId = true) (alike : Alike ring points) :
    Alike ((nodes.map seenAs).foldl (putVNodes virtualNodes) ring)
      (nodes.foldl (fun points info => Router.insertVNodes info.nodeId points virtualNodes.toNat) points) := by
  induction nodes generalizing ring points with
  | nil => exact alike
  | cons info rest ih =>
    have next := alike.putVNodes virtualNodes (seenAs info)
    rw [show utf8 (seenAs info).id = info.nodeId from utf8_widen (valid_ascii (valid info List.mem_cons_self))] at next
    exact ih (fun other member => valid other (List.mem_cons_of_mem info member)) next

theorem handleRequest_ringPayload (node : Node) :
    node.handleRequest (utf8 ringPayload) = some (.reply node.handleRingQuery) := by
  have fields : Wire.splitAll (utf8 ringPayload) = [ascii "RING", ascii "gateway"] := by decide +kernel
  have type : Wire.field [ascii "RING", ascii "gateway"] 0 = ascii "RING" := rfl
  rw [Node.handleRequest, fields]
  simp only [type]
  rw [if_neg (by decide), if_neg (by decide), if_neg (by decide), if_neg (by decide), if_neg (by decide),
    if_neg (by decide), if_pos trivial]

/-- The nodes of the rebuilt ring are told apart by their ids. -/
theorem rebuild_faithful {router : Router}
    (valid : ∀ info ∈ router.getAllPhysicalNodes, isValidNodeId info.nodeId = true)
    {first second : RingNode}
    (one : first ∈ ((router.getAllPhysicalNodes.map seenAs).foldl (putVNodes virtualNodes) ∅).toList.map Prod.snd)
    (two : second ∈ ((router.getAllPhysicalNodes.map seenAs).foldl (putVNodes virtualNodes) ∅).toList.map Prod.snd)
    (same : utf8 first.id = utf8 second.id) : first = second := by
  have origin : ∀ {node : RingNode},
      node ∈ ((router.getAllPhysicalNodes.map seenAs).foldl (putVNodes virtualNodes) ∅).toList.map Prod.snd →
      ∃ info ∈ router.getAllPhysicalNodes, node = seenAs info ∧ utf8 node.id = info.nodeId := by
    intro node member
    obtain ⟨info, present, rfl⟩ := List.mem_map.mp (mem_rebuild member)
    exact ⟨info, present, rfl, utf8_widen (valid_ascii (valid info present))⟩
  obtain ⟨info, present, rfl, name⟩ := origin one
  obtain ⟨other, there, rfl, title⟩ := origin two
  have found := Router.mem_getAllPhysicalNodes.mp present
  rw [name, title] at same
  rw [same, Router.mem_getAllPhysicalNodes.mp there] at found
  rw [Option.some.inj found]

/-- The ring rebuilt from the nodes of an exact one names its owners. -/
theorem rebuild_owners {router : Router} {ids : List Bytes} (free : Router.CollisionFree virtualNodes ids)
    (built : router.Exact ∧ router.virtualNodes = virtualNodes ∧ ∀ id, router.Contains id → id ∈ ids)
    (valid : ∀ info ∈ router.getAllPhysicalNodes, isValidNodeId info.nodeId = true) (key : Utf16) (n : Int) :
    ∃ owners nodes, router.findOwners (utf8 key) n = some owners ∧
      (rebuild virtualNodes (router.getAllPhysicalNodes.map seenAs)).ownersFor key n = some nodes ∧
      nodes.map (fun node => utf8 node.id) = owners.map NodeInfo.nodeId := by
  obtain ⟨exact, points, known⟩ := built
  have start : Alike ∅ ∅ := fun _ => by simp
  have alike : Alike ((router.getAllPhysicalNodes.map seenAs).foldl (putVNodes virtualNodes) ∅) _ :=
    alike_rebuild router.getAllPhysicalNodes valid start
  rw [← Router.ring_eq_adds free exact points known] at alike
  exact alike.ownersFor exact (fun _ one _ two => rebuild_faithful valid one two) key n

/-- The gateway's ring names the owners the cluster's does, for every key and replica count. -/
theorem gateway_owners (gossip : GossipNode) (virtualNodes : Int) (calls : List Router.Call)
    (reached : gossip.router = .after virtualNodes calls)
    (free : Router.CollisionFree virtualNodes (Router.added calls)) (node : Node) (shared : node.router = gossip.router)
    (hosts : ∀ info ∈ node.router.getAllPhysicalNodes, pipe ∉ info.host ∧ 10 ∉ info.host) (key : Utf16) (n : Int) :
    ∃ reply ring owners nodes, node.handleRequest (utf8 ringPayload) = some (.reply reply) ∧
      parseRing (ofUtf8 reply) = some ring ∧ (rebuild virtualNodes ring).ownersFor key n = some nodes ∧
      node.router.findOwners (utf8 key) n = some owners ∧
      nodes.map (fun node => utf8 node.id) = owners.map NodeInfo.nodeId := by
  have built := Router.exact_after free (List.Subset.refl (Router.added calls))
  rw [← reached, ← shared] at built
  have valid : ∀ info ∈ node.router.getAllPhysicalNodes, isValidNodeId info.nodeId = true := by
    intro info member
    rw [shared] at member
    exact gossip.isValid_of_contains (by simp [Router.Contains, Router.mem_getAllPhysicalNodes.mp member])
  have readable : ∀ info ∈ node.router.getAllPhysicalNodes, Readable info := fun info member =>
    ⟨valid info member, (hosts info member).1, (hosts info member).2⟩
  obtain ⟨owners, nodes, found, named, same⟩ := rebuild_owners free built valid key n
  exact ⟨_, _, owners, nodes, handleRequest_ringPayload node, parseRing_handleRingQuery node readable, named, found,
    same⟩

/-- The request of a second node to join. -/
def joinOfY : MemberEvent := { type := .join, nodeId := ascii "y", host := ascii "h", port := 2 }

theorem valid_joinOfY (id : Bytes) (named : (Operation.applyDirectJoin joinOfY).introduces = some id) :
    isValidNodeId id = true := by
  obtain rfl := Option.some.inj named
  decide

/-- A node that a second has joined, at the same host. -/
def coupled : GossipNode :=
  (GossipNode.start ⟨ascii "x", ascii "h", 1⟩ 2 {} (by decide)).perform (.applyDirectJoin joinOfY) valid_joinOfY

theorem router_coupled :
    coupled.router = .after 2 [.add ⟨ascii "x", ascii "h", 1⟩, .add ⟨ascii "y", ascii "h", 2⟩] := by
  have fired : ((Operation.applyDirectJoin joinOfY).react (.start ⟨ascii "x", ascii "h", 1⟩)).2 =
      [(⟨ascii "y", ascii "h", 2⟩, .alive)] := by decide +kernel
  simp only [coupled, GossipNode.perform, GossipThread.perform, GossipNode.start, GossipThread.start, fired]
  rfl

/-- The key is outside ASCII. -/
theorem gateway_owners_coupled :
    ∃ reply ring owners nodes,
      Node.handleRequest ⟨⟨ascii "x", ascii "h", 1⟩, coupled.router, ⟨3, 2, 2⟩⟩ (utf8 ringPayload) =
        some (.reply reply) ∧
      parseRing (ofUtf8 reply) = some ring ∧ (rebuild 2 ring).ownersFor [0xE9] 2 = some nodes ∧
      coupled.router.findOwners (utf8 [0xE9]) 2 = some owners ∧
      nodes.map (fun node => utf8 node.id) = owners.map NodeInfo.nodeId :=
  gateway_owners coupled 2 _ router_coupled (by decide +kernel) ⟨⟨ascii "x", ascii "h", 1⟩, coupled.router, ⟨3, 2, 2⟩⟩
    rfl (by decide +kernel) [0xE9] 2

end Rebuild

end Gateway

end MiniDynamo
