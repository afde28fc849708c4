import MiniDynamo.Gateway.ClientView

/-! How the gateway keeps up with the ring: the poller with its snapshot, the registry of nodes in the database,
and the targets that calls get from the polled ring. -/

namespace MiniDynamo.Gateway

open Utf16 ClusterClient

/-- A row of the registry. -/
structure NodeEntity where
  id : Utf16
  host : Utf16
  port : Int
  addedAt : Int
  lastSeen : Int
  deriving DecidableEq

abbrev NodeRegistry := OrderedMap Utf16 NodeEntity

namespace NodeRegistryService

/-- A node that is known keeps the time it was added at. -/
def save (now : Int) (registry : NodeRegistry) (rn : RingNode) : NodeRegistry :=
  match registry[rn.id]? with
  | none => registry.insert rn.id ⟨rn.id, rn.host, rn.port, now, now⟩
  | some existing => registry.insert rn.id { existing with host := rn.host, port := rn.port, lastSeen := now }

/-- The loop, a `findById` and a `save` for each node, until a call of the database throws; whether it gets to the
end, and the rows. -/
def persist (now : Int) : List DatabaseCall → NodeRegistry → List RingNode → Bool × NodeRegistry
  | _, registry, [] => (true, registry)
  | calls, registry, rn :: rest =>
    match calls.headD .done, calls.tail.headD .done with
    | .done, .done => persist now calls.tail.tail (save now registry rn) rest
    | .done, .unconfirmed => (false, save now registry rn)
    | _, _ => (false, registry)

/-- `@Transactional`: the whole loop is committed, or rolled back. -/
def transactional (commit : DatabaseCall) (before : NodeRegistry) (result : Bool × NodeRegistry) : NodeRegistry :=
  if result.1 ∧ commit ≠ .failed then result.2 else before

end NodeRegistryService

/-- The nodes of a `RING` exchange, where `none` is an exception. -/
def ClusterClient.ring (outcome : Exchanged) : Option (List RingNode) :=
  match outcome with
  | .reply resp => parseRing resp
  | _ => none

/-- The poller's router and the registry. -/
structure RingState where
  snapshot : Snapshot
  registry : NodeRegistry

/-- A tick of the poller or the sync at the start, with what the exchange gave, the time, and how the calls of the
database go. The sync calls itself past the proxy, so no transaction spans its calls. -/
inductive RingEvent where
  | poll (outcome : Exchanged) (now : Int) (calls : List DatabaseCall) (commit : DatabaseCall)
  | syncOnStartup (outcome : Exchanged) (now : Int) (calls : List DatabaseCall)

namespace RingState

def start : RingState := ⟨.of ∅, ∅⟩

/-- Whatever is thrown is caught: the last good ring stays if the exchange fails or shows no nodes, and so do the
rows if their transaction fails, by which time the router has the new ring. -/
def step (virtualNodes : Int) (state : RingState) : RingEvent → RingState
  | .poll outcome now calls commit =>
    match ClusterClient.ring outcome with
    | none => state
    | some ring =>
      if ring.isEmpty then state
      else ⟨rebuild virtualNodes ring, NodeRegistryService.transactional commit state.registry
        (NodeRegistryService.persist now calls state.registry ring)⟩
  | .syncOnStartup outcome now calls =>
    match ClusterClient.ring outcome with
    | none => state
    | some ring => { state with registry := (NodeRegistryService.persist now calls state.registry ring).2 }

def run (virtualNodes : Int) (events : List RingEvent) : RingState := events.foldl (step virtualNodes) start

end RingState

/-! ### The registry is its history -/

/-- The nodes that are saved one by one, each for good, until a call of the database throws; the second call for
a node is its `save`. -/
def savedNodes : List DatabaseCall → List RingNode → List RingNode
  | _, [] => []
  | calls, rn :: rest =>
    match calls.headD .done, calls.tail.headD .done with
    | .done, .done => rn :: savedNodes calls.tail.tail rest
    | .done, .unconfirmed => [rn]
    | _, _ => []

/-- Every call of the database for so many nodes is done. -/
def undisturbed (calls : List DatabaseCall) (ring : List RingNode) : Bool :=
  (calls.take (2 * ring.length)).all (· = .done)

/-- The nodes whose sighting an event saves, with the time: a poll all that it was shown or none, the sync at the
start those before the first failure. -/
def RingEvent.sightings : RingEvent → List (Int × RingNode)
  | .poll outcome now calls commit =>
    let ring := (ClusterClient.ring outcome).getD []
    if undisturbed calls ring ∧ commit ≠ .failed then ring.map (now, ·) else []
  | .syncOnStartup outcome now calls => (savedNodes calls ((ClusterClient.ring outcome).getD [])).map (now, ·)

/-- What the registry should say of a node that was seen so often: added when it was first seen, and as it
was last seen. -/
def recorded (id : Utf16) (seen : List (Int × RingNode)) : Option NodeEntity :=
  seen.head?.bind (fun first =>
    seen.getLast?.map (fun last => ⟨id, last.2.host, last.2.port, first.1, last.1⟩))

/-- The registry after one sighting. -/
def NodeRegistry.see (registry : NodeRegistry) (sighting : Int × RingNode) : NodeRegistry :=
  NodeRegistryService.save sighting.1 registry sighting.2

section Registry

variable {registry : NodeRegistry} {id : Utf16}

/-- A row after one more sighting. -/
def NodeEntity.refreshed (row : Option NodeEntity) (now : Int) (rn : RingNode) : NodeEntity :=
  match row with
  | none => ⟨rn.id, rn.host, rn.port, now, now⟩
  | some existing => { existing with host := rn.host, port := rn.port, lastSeen := now }

theorem lookup_save (now : Int) (rn : RingNode) :
    (NodeRegistryService.save now registry rn)[id]? =
      if rn.id = id then some (NodeEntity.refreshed registry[id]? now rn) else registry[id]? := by
  unfold NodeRegistryService.save
  split
  · rename_i unknown
    rw [OrderedMap.lookup_insert]
    split
    · rename_i own
      rw [← own, unknown]
      rfl
    · rfl
  · rename_i existing known
    rw [OrderedMap.lookup_insert]
    split
    · rename_i own
      rw [← own, known]
      rfl
    · rfl

theorem recorded_concat (seen : List (Int × RingNode)) (now : Int) {rn : RingNode} (own : rn.id = id) :
    recorded id (seen ++ [(now, rn)]) = some (NodeEntity.refreshed (recorded id seen) now rn) := by
  cases seen with
  | nil => simp [recorded, NodeEntity.refreshed, own]
  | cons first rest =>
    have last : (first :: rest).getLast? = some ((first :: rest).getLast (List.cons_ne_nil first rest)) :=
      List.getLast?_eq_some_getLast _
    rw [recorded, recorded, last, List.getLast?_concat]
    rfl

theorem lookup_sightings (seen : List (Int × RingNode)) :
    (seen.foldl NodeRegistry.see ∅)[id]? =
      recorded id (seen.filter (fun sighting => decide (sighting.2.id = id))) := by
  induction seen using List.reverseRecOn with
  | nil => simp [recorded]
  | append_singleton seen sighting ih =>
    obtain ⟨now, rn⟩ := sighting
    rw [List.foldl_append, List.filter_append, List.foldl_cons, List.foldl_nil, NodeRegistry.see, lookup_save, ih]
    split
    · rename_i own
      rw [List.filter_cons_of_pos (by simpa using own), List.filter_nil, recorded_concat _ now own]
    · rename_i other
      rw [List.filter_cons_of_neg (by simpa using other), List.filter_nil, List.append_nil]

theorem undisturbed_cons (calls : List DatabaseCall) (rn : RingNode) (rest : List RingNode) :
    undisturbed calls (rn :: rest) = (decide (calls.headD .done = .done) &&
      (decide (calls.tail.headD .done = .done) && undisturbed calls.tail.tail rest)) := by
  rw [undisturbed, undisturbed, List.length_cons, show 2 * (rest.length + 1) = 2 * rest.length + 1 + 1 by omega]
  match calls with
  | [] => simp
  | [first] => simp
  | first :: second :: more => simp

/-- The loop gets to its end exactly if nothing disturbs it, and leaves the rows that were saved by then. -/
theorem persist_eq (now : Int) (calls : List DatabaseCall) (ring : List RingNode) :
    NodeRegistryService.persist now calls registry ring =
      (undisturbed calls ring, (savedNodes calls ring).foldl (NodeRegistryService.save now) registry) := by
  induction ring generalizing calls registry with
  | nil => simp [NodeRegistryService.persist, undisturbed, savedNodes]
  | cons rn rest ih =>
    rw [NodeRegistryService.persist, savedNodes, undisturbed_cons]
    cases calls.headD .done with
    | failed => rfl
    | unconfirmed => rfl
    | done =>
      cases calls.tail.headD .done with
      | failed => rfl
      | unconfirmed => rfl
      | done => exact ih calls.tail.tail

theorem savedNodes_undisturbed {calls : List DatabaseCall} {ring : List RingNode}
    (fine : undisturbed calls ring = true) : savedNodes calls ring = ring := by
  induction ring generalizing calls with
  | nil => rfl
  | cons rn rest ih =>
    rw [undisturbed_cons, Bool.and_eq_true, Bool.and_eq_true, decide_eq_true_eq, decide_eq_true_eq] at fine
    obtain ⟨found, saved, later⟩ := fine
    rw [savedNodes, found, saved]
    exact congrArg (rn :: ·) (ih later)

theorem registry_step (virtualNodes : Int) (state : RingState) (event : RingEvent) :
    (state.step virtualNodes event).registry = event.sightings.foldl NodeRegistry.see state.registry := by
  have folded : ∀ (now : Int) (nodes : List RingNode), (nodes.map (now, ·)).foldl NodeRegistry.see state.registry =
      nodes.foldl (NodeRegistryService.save now) state.registry := by
    intro now nodes
    rw [List.foldl_map]
    rfl
  cases event with
  | poll outcome now calls commit =>
    simp only [RingState.step, RingEvent.sightings]
    cases ClusterClient.ring outcome with
    | none => simp
    | some ring =>
      cases ring with
      | nil => simp
      | cons first rest =>
        simp only [List.isEmpty_cons, Bool.false_eq_true, ↓reduceIte, Option.getD_some, persist_eq,
          NodeRegistryService.transactional]
        split
        · rename_i committed
          rw [folded, savedNodes_undisturbed committed.1]
        · rfl
  | syncOnStartup outcome now calls =>
    simp only [RingState.step, RingEvent.sightings]
    cases ClusterClient.ring outcome with
    | none => rfl
    | some ring => simp only [Option.getD_some, folded, persist_eq]

end Registry

/-- After any run of polls and syncs, with failed exchanges and failed calls of the database, the registry is given
by the sightings that were saved: a node has a row exactly if one of it was, added at the first of them and as it
was at the last. -/
theorem registry_history (virtualNodes : Int) (events : List RingEvent) (id : Utf16) :
    (RingState.run virtualNodes events).registry[id]? =
      recorded id ((events.flatMap RingEvent.sightings).filter (fun sighting => decide (sighting.2.id = id))) := by
  have folded : ∀ state : RingState, (events.foldl (RingState.step virtualNodes) state).registry =
      (events.flatMap RingEvent.sightings).foldl NodeRegistry.see state.registry := by
    induction events with
    | nil => exact fun _ => rfl
    | cons event rest ih =>
      intro state
      rw [List.foldl_cons, ih, registry_step, List.flatMap_cons, List.foldl_append]
  rw [RingState.run, folded]
  exact lookup_sightings _

/-! ### The ring of the last poll -/

/-- A node whose ring was built by such calls, without a collision, and can be read off its reply. -/
structure Announces (virtualNodes : Int) (calls : List Router.Call) (node : Node) : Prop where
  reached : node.router = .after virtualNodes calls
  free : Router.CollisionFree virtualNodes (Router.added calls)
  positive : 0 < virtualNodes
  readable : ∀ info ∈ node.router.getAllPhysicalNodes, Readable info
  nonempty : node.router.getAllPhysicalNodes ≠ []

namespace Announces

variable {virtualNodes : Int} {calls : List Router.Call} {node : Node}

theorem exact (announces : Announces virtualNodes calls node) :
    node.router.Exact ∧ node.router.virtualNodes = virtualNodes ∧
      ∀ id, node.router.Contains id → id ∈ Router.added calls := by
  rw [announces.reached]
  exact Router.exact_after announces.free (List.Subset.refl (Router.added calls))

/-- Whatever the number of replicas, the first owner is the primary. -/
theorem primary (announces : Announces virtualNodes calls node) (key : Bytes) (n : Int) :
    ∃ primary rest, node.router.findOwners key 1 = some [primary] ∧
      node.router.findOwners key n = some (primary :: rest) := by
  obtain ⟨exact, points, -⟩ := announces.exact
  obtain ⟨info, rest, listed⟩ := List.exists_cons_of_ne_nil announces.nonempty
  have present : info ∈ node.router.getAllPhysicalNodes := by
    rw [listed]
    exact List.mem_cons_self
  have met : info.nodeId ∈ node.router.turn (hash64 key) := by
    apply (exact.mem_turn_iff (points ▸ announces.positive)).mpr
    simp [Router.Contains, Router.mem_getAllPhysicalNodes.mp present]
  obtain ⟨first, others, shape⟩ := List.exists_cons_of_ne_nil
    (List.ne_nil_of_mem (List.mem_eraseDups.mpr met))
  have contained : node.router.Contains first := by
    apply (exact.mem_turn_iff (points ▸ announces.positive)).mp
    exact List.mem_eraseDups.mp (shape ▸ List.mem_cons_self)
  obtain ⟨owner, known⟩ := Option.ne_none_iff_exists'.mp contained
  obtain ⟨more, count⟩ : ∃ more, (max n 1).toNat = more + 1 := ⟨(max n 1).toNat - 1, by omega⟩
  refine ⟨owner, Router.infos node.router.nodes (others.take more), ?_, ?_⟩
  · rw [exact.findOwners_eq, shape]
    simp [Router.infos, known]
  · rw [exact.findOwners_eq, shape, count, List.take_succ_cons]
    simp [Router.infos, known]

/-- Nodes of the ring are told apart by their ids. -/
theorem eq_seenAs_of_ids {router : Router} {nodes : List RingNode} {owners : List NodeInfo}
    (origin : ∀ seen ∈ nodes, ∃ info, router.nodes[info.nodeId]? = some info ∧ seen = seenAs info ∧
      utf8 seen.id = info.nodeId)
    (owned : ∀ owner ∈ owners, router.nodes[owner.nodeId]? = some owner)
    (ids : nodes.map (fun node => utf8 node.id) = owners.map NodeInfo.nodeId) : nodes = owners.map seenAs := by
  induction nodes generalizing owners with
  | nil => simpa using ids
  | cons first rest ih =>
    cases owners with
    | nil => simp at ids
    | cons owner others =>
      have same : utf8 first.id = owner.nodeId := (List.cons.inj ids).1
      have tails := (List.cons.inj ids).2
      obtain ⟨info, known, seen, name⟩ := origin first List.mem_cons_self
      have found := owned owner List.mem_cons_self
      rw [← same, name, known] at found
      rw [List.map_cons, seen, Option.some.inj found,
        ih (fun other member => origin other (List.mem_cons_of_mem first member))
          (fun other member => owned other (List.mem_cons_of_mem owner member)) tails]

/-- The gateway has the owners of the cluster with their addresses. -/
theorem ownersFor (announces : Announces virtualNodes calls node) {key : Utf16} {n : Int} {owners : List NodeInfo}
    (found : node.router.findOwners (utf8 key) n = some owners) :
    (rebuild virtualNodes (node.router.getAllPhysicalNodes.map seenAs)).ownersFor key n =
      some (owners.map seenAs) := by
  have valid : ∀ info ∈ node.router.getAllPhysicalNodes, isValidNodeId info.nodeId = true :=
    fun info member => (announces.readable info member).valid
  obtain ⟨theirs, nodes, same, named, ids⟩ := rebuild_owners announces.free announces.exact valid key n
  obtain rfl := Option.some.inj (found.symm.trans same)
  have origin : ∀ seen ∈ nodes, ∃ info, node.router.nodes[info.nodeId]? = some info ∧ seen = seenAs info ∧
      utf8 seen.id = info.nodeId := by
    intro seen member
    obtain ⟨info, present, rfl⟩ := List.mem_map.mp (mem_rebuild (mem_ownersFor named member))
    exact ⟨info, Router.mem_getAllPhysicalNodes.mp present, rfl, utf8_widen (valid_ascii (valid info present))⟩
  rw [named, eq_seenAs_of_ids origin (Router.findOwners_spec found).1 ids]

/-- The ring that the gateway routes by once it has the node's reply. -/
def table (announces : Announces virtualNodes calls node) : RoutingTable where
  snapshot := rebuild virtualNodes (node.router.getAllPhysicalNodes.map seenAs)
  owned key n := by
    obtain ⟨primary, rest, -, found⟩ := announces.primary (utf8 key) n
    rw [announces.ownersFor found]
    exact Option.some_ne_none _
  dialable entry member := by
    obtain ⟨info, -, same⟩ := List.mem_map.mp (mem_rebuild (List.mem_map_of_mem member))
    have small := info.port.toNat_lt
    rw [← same]
    exact ⟨Int.natCast_nonneg _, by simp only [seenAs]; omega⟩

end Announces

/-- The event leaves the router's ring as it is: no nodes came of it, or it is a sync of the registry. -/
def RingEvent.Idle : RingEvent → Prop
  | .poll outcome _ _ _ => (ClusterClient.ring outcome).getD [] = []
  | .syncOnStartup _ _ _ => True

theorem snapshot_idle {virtualNodes : Int} {events : List RingEvent} (idle : ∀ event ∈ events, event.Idle)
    (state : RingState) : (events.foldl (RingState.step virtualNodes) state).snapshot = state.snapshot := by
  induction events generalizing state with
  | nil => rfl
  | cons event rest ih =>
    rw [List.foldl_cons, ih (fun other member => idle other (List.mem_cons_of_mem event member))]
    have still := idle event List.mem_cons_self
    cases event with
    | poll outcome now calls commit =>
      simp only [RingEvent.Idle] at still
      simp only [RingState.step]
      cases shown : ClusterClient.ring outcome with
      | none => rfl
      | some ring =>
        rw [shown, Option.getD_some] at still
        rw [still]
        rfl
    | syncOnStartup outcome now calls =>
      simp only [RingState.step]
      cases ClusterClient.ring outcome with
      | none => rfl
      | some ring => rfl

/-- The last poll that showed any nodes is the ring that calls are routed by. -/
theorem snapshot_run {virtualNodes : Int} {calls : List Router.Call} {node : Node}
    (announces : Announces virtualNodes calls node) (before : List RingEvent) (time : Int)
    (queries : List DatabaseCall) (commit : DatabaseCall) {after : List RingEvent}
    (idle : ∀ event ∈ after, event.Idle) :
    (RingState.run virtualNodes
        (before ++ .poll (.reply (ofUtf8 node.handleRingQuery)) time queries commit :: after)).snapshot =
      announces.table.snapshot := by
  have shown : ClusterClient.ring (.reply (ofUtf8 node.handleRingQuery)) =
      some (node.router.getAllPhysicalNodes.map seenAs) := parseRing_handleRingQuery node announces.readable
  have some : (node.router.getAllPhysicalNodes.map seenAs).isEmpty = false := by
    simpa using announces.nonempty
  rw [RingState.run, List.foldl_append, List.foldl_cons, snapshot_idle idle]
  simp only [RingState.step, shown, some, Bool.false_eq_true, ↓reduceIte]
  rfl

/-- The node that a write comes to first coordinates it itself, if it has the same ring. -/
def Coordinated (peer : Node) (key : Utf16) : Prop :=
  ∀ (value : Bytes) (clock : Option Utf16) (n w r : Int32),
    peer.handleRequest (utf8 (putPayload key (some value) clock n.toInt w.toInt r.toInt)) =
        some (.coordinatePut (utf8 key) value (context clock) (peer.effN n.toInt) (peer.effW w.toInt)) ∧
      peer.handleRequest (utf8 (deletePayload key clock n.toInt w.toInt)) =
        some (.coordinateDelete (utf8 key) (context clock) (peer.effN n.toInt) (peer.effW w.toInt))

theorem coordinated_primary {peer : Node} {key : Utf16} {primary : NodeInfo} {rest : List NodeInfo}
    (found : peer.router.findOwners (utf8 key) 1 = some (primary :: rest)) (own : peer.info.nodeId = primary.nodeId)
    (clean : bar ∉ key) : Coordinated peer key := by
  have here : ∀ raw coordinate, peer.atPrimary (utf8 key) raw coordinate = some coordinate := by
    intro raw coordinate
    rw [Node.atPrimary, found]
    exact if_neg (fun different => different own.symm)
  intro value clock n w r
  rw [decodes_put peer clean, decodes_delete peer clean, here, here]
  exact ⟨rfl, rfl⟩

/-- With the ring of a node's last reply the first target of a call is the primary of the key, which
coordinates a write without another hop; the other owners and the seeds follow, each endpoint once. -/
theorem calls_reach_primary {virtualNodes : Int} {calls : List Router.Call} {node : Node}
    (announces : Announces virtualNodes calls node) (before after : List RingEvent) (time : Int)
    (queries : List DatabaseCall) (commit : DatabaseCall) (idle : ∀ event ∈ after, event.Idle) (nodes : List Utf16)
    (seeds : List Endpoint) (parsed : seedEndpoints nodes = some seeds) (key : Utf16) (n : Int) :
    ∃ primary rest targets, node.router.findOwners (utf8 key) n = some (primary :: rest) ∧
      targetsForKey (RingState.run virtualNodes
          (before ++ .poll (.reply (ofUtf8 node.handleRingQuery)) time queries commit :: after)).snapshot nodes key n =
        some (ownerEndpoint (seenAs primary) :: targets) ∧
      ((ownerEndpoint (seenAs primary) :: targets).map Endpoint.key).Nodup ∧
      (∀ endpoint ∈ rest.map (fun owner => ownerEndpoint (seenAs owner)) ++ seeds,
        endpoint.key ∈ (ownerEndpoint (seenAs primary) :: targets).map Endpoint.key) ∧
      targets ⊆ rest.map (fun owner => ownerEndpoint (seenAs owner)) ++ seeds ∧
      (bar ∉ key → ∀ peer : Node, peer.info.nodeId = primary.nodeId → peer.router = node.router →
        Coordinated peer key) := by
  obtain ⟨primary, rest, first, found⟩ := announces.primary (utf8 key) n
  have targeted : targetsForKey announces.table.snapshot nodes key n =
      some (addTargets (addTargets [] (((primary :: rest).map seenAs).map ownerEndpoint)) seeds) :=
    targetsForKey_eq (announces.ownersFor found) parsed
  -- the endpoint of the primary is the first to be added, and nothing is added before it
  let owners := addTargets [ownerEndpoint (seenAs primary)] ((rest.map seenAs).map ownerEndpoint)
  obtain ⟨others, front, amongOwners⟩ :=
    sublist_addTargets [ownerEndpoint (seenAs primary)] ((rest.map seenAs).map ownerEndpoint)
  obtain ⟨fallback, back, amongSeeds⟩ := sublist_addTargets owners seeds
  have shape : ownerEndpoint (seenAs primary) :: (others ++ fallback) = addTargets owners seeds := by
    rw [back, show owners = _ from front]
    rfl
  rw [List.map_map] at amongOwners
  have single : ([ownerEndpoint (seenAs primary)].map Endpoint.key).Nodup := List.nodup_singleton _
  have distinct : ((addTargets owners seeds).map Endpoint.key).Nodup :=
    nodup_addTargets (nodup_addTargets single _) seeds
  refine ⟨primary, rest, others ++ fallback, found, ?_, shape ▸ distinct, ?_,
    (amongOwners.append amongSeeds).subset, ?_⟩
  · rw [snapshot_run announces before time queries commit idle, targeted, shape]
    rfl
  · intro endpoint asked
    rw [shape]
    rcases List.mem_append.mp asked with owner | seed
    · rw [← Function.comp_def, ← List.map_map] at owner
      exact ((prefix_addTargets owners seeds).map Endpoint.key).subset (mem_addTargets owner)
    · exact mem_addTargets seed
  · intro clean peer own shared
    exact coordinated_primary (shared ▸ first) own clean

theorem announces_coupled :
    Announces 2 [.add ⟨ascii "x", ascii "h", 1⟩, .add ⟨ascii "y", ascii "h", 2⟩]
      ⟨⟨ascii "x", ascii "h", 1⟩, coupled.router, ⟨3, 2, 2⟩⟩ where
  reached := router_coupled
  free := by decide +kernel
  positive := by decide
  readable := by
    have fine : ∀ info ∈ coupled.router.getAllPhysicalNodes,
        isValidNodeId info.nodeId = true ∧ pipe ∉ info.host ∧ (10 : UInt8) ∉ info.host := by
      decide +kernel
    exact fun info member => ⟨(fine info member).1, (fine info member).2.1, (fine info member).2.2⟩
  nonempty := by decide +kernel

/-- One poll reached a node of a ring of two, though its rows could not be saved; the next one reached nobody. -/
theorem calls_reach_primary_coupled :
    ∃ primary rest targets, coupled.router.findOwners (utf8 [0xE9]) 2 = some (primary :: rest) ∧
      targetsForKey (RingState.run 2 [.poll (.reply (ofUtf8 (Node.handleRingQuery
          ⟨⟨ascii "x", ascii "h", 1⟩, coupled.router, ⟨3, 2, 2⟩⟩))) 5 [] .failed,
          .poll .unavailable 9 [] .done]).snapshot [text "h:1"] [0xE9] 2 =
        some (ownerEndpoint (seenAs primary) :: targets) := by
  have idle : ∀ event ∈ [RingEvent.poll .unavailable 9 [] .done], event.Idle := by
    intro event member
    obtain rfl := List.mem_singleton.mp member
    rfl
  obtain ⟨primary, rest, targets, found, asked, -⟩ := calls_reach_primary announces_coupled []
    [.poll .unavailable 9 [] .done] 5 [] .failed idle [text "h:1"] [⟨text "h", 1⟩] rfl [0xE9] 2
  exact ⟨primary, rest, targets, found, asked⟩

end MiniDynamo.Gateway
