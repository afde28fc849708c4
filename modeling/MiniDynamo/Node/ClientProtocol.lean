import MiniDynamo.Coordinator.Coordinator

/-! The protocol edge of a node: what it reads from the payload of a request, what it does
with it, and the replies it writes. -/

namespace MiniDynamo

/-- The quorum a node works with where a request does not name its own. -/
structure QuorumConfig where
  n : Int
  w : Int
  r : Int

structure Node where
  info : NodeInfo
  router : Router
  cfg : QuorumConfig

/-- What a request comes to on the node that receives it: an answer at once, one hop further,
a call of the coordinator, or one of the cluster's own messages. -/
inductive Handling where
  | ignored
  | reply (payload : Bytes)
  | forward (primary : NodeInfo) (payload : Bytes)
  | coordinatePut (key value : Bytes) (context : VectorClock) (n w : Int)
  | coordinateGet (key : Bytes) (n r : Int)
  | coordinateDelete (key : Bytes) (context : VectorClock) (n w : Int)
  | replicate (fields : List Bytes)
  | readReplica (fields : List Bytes)
  | leave (fields : List Bytes)
  | gossip (payload : Bytes)
  deriving DecidableEq

namespace Node

open Wire

/-- A missing, empty or unreadable field counts as zero. -/
def toInt (fields : List Bytes) (index : Nat) : Int :=
  if Wire.field fields index = [] then 0 else (stoi (Wire.field fields index)).getD 0

def effN (node : Node) (requested : Int) : Int := if 0 < requested then requested else node.cfg.n

def effW (node : Node) (requested : Int) : Int := if 0 < requested then requested else node.cfg.w

def effR (node : Node) (requested : Int) : Int := if 0 < requested then requested else node.cfg.r

/-- How `handlePut` and `handleDelete` begin: the primary of the key coordinates the write, any
other node forwards the payload to it. It never returns where `findOwners` does not. -/
def atPrimary (node : Node) (key rawPayload : Bytes) (coordinate : Handling) : Option Handling :=
  match node.router.findOwners key 1 with
  | none => none
  | some [] => some (.reply (ascii "RESPONSE|ERROR|no_nodes_in_ring"))
  | some (primary :: _) =>
    if primary.nodeId ≠ node.info.nodeId then some (.forward primary rawPayload) else some coordinate

def handlePut (node : Node) (fields : List Bytes) (rawPayload : Bytes) : Option Handling :=
  node.atPrimary (Wire.field fields 1) rawPayload
    (.coordinatePut (Wire.field fields 1) (Base64.decode (Wire.field fields 2))
      (VectorClock.parse (Wire.field fields 7)) (node.effN (toInt fields 4)) (node.effW (toInt fields 5)))

def handleGet (node : Node) (fields : List Bytes) : Handling :=
  .coordinateGet (Wire.field fields 1) (node.effN (toInt fields 3)) (node.effR (toInt fields 4))

def handleDelete (node : Node) (fields : List Bytes) (rawPayload : Bytes) : Option Handling :=
  node.atPrimary (Wire.field fields 1) rawPayload
    (.coordinateDelete (Wire.field fields 1) (VectorClock.parse (Wire.field fields 5)) (node.effN (toInt fields 3))
      (node.effW (toInt fields 4)))

/-- One line of the answer to `RING`. -/
def ringLine (node : NodeInfo) : Bytes :=
  node.nodeId ++ ascii "|" ++ node.host ++ ascii "|" ++ decimal node.port.toNat ++ [10]

def handleRingQuery (node : Node) : Bytes :=
  let nodes := node.router.getAllPhysicalNodes
  ascii "RING" ++ [10] ++ decimal nodes.length ++ [10] ++ (nodes.map ringLine).flatten

def gossipVerbs : List Bytes :=
  ["SWIM_PING", "SWIM_PING_REQ", "SWIM_ACK", "SWIM_JOIN", "SWIM_SYNC", "SWIM_SYNC_ACK"].map ascii

def handleRequest (node : Node) (payload : Bytes) : Option Handling :=
  let fields := splitAll payload
  let type := Wire.field fields 0
  if type = [] then some .ignored
  else if type = ascii "PUT" then node.handlePut fields payload
  else if type = ascii "GET" then some (node.handleGet fields)
  else if type = ascii "DELETE" then node.handleDelete fields payload
  else if type = ascii "REPLICATE" then some (.replicate fields)
  else if type = ascii "READ" then some (.readReplica fields)
  else if type = ascii "RING" then some (.reply node.handleRingQuery)
  else if type = ascii "LEAVE" then some (.leave fields)
  else if type ∈ gossipVerbs then some (.gossip payload)
  else some (.reply (ascii "RESPONSE|ERROR|unknown_command"))

/-- The reply of `handlePut` and of `handleDelete` once the write is coordinated. -/
def putReply (result : PutResult) : Bytes :=
  if result.ok then ascii "RESPONSE|OK|" ++ result.clock.serialize else ascii "RESPONSE|ERROR|" ++ result.error

/-- The reply of `handleGet`. It takes the front of the values where there is one version. -/
def getReply (result : GetResult) : Option Bytes :=
  match result.status with
  | .ok => result.values.head?.map (fun value =>
      ascii "RESPONSE|OK|" ++ Base64.encode value.data ++ ascii "|" ++ value.clock.serialize)
  | .siblings => some (ascii "RESPONSE|SIBLINGS|" ++ decimal result.values.length ++
      (result.values.map (fun value =>
        ascii "|" ++ Base64.encode value.data ++ ascii "|" ++ value.clock.serialize)).flatten)
  | .notFound => some (ascii "RESPONSE|NOTFOUND")
  | .error => some (ascii "RESPONSE|ERROR|" ++ result.error)

variable {node : Node} {payload raw key data : Bytes} {primary : NodeInfo} {context : VectorClock} {n w : Int}

/-- A write finds no node, goes on to another primary, or is coordinated here. -/
theorem atPrimary_cases {coordinate handling : Handling}
    (handled : node.atPrimary key raw coordinate = some handling) :
    handling = .reply (ascii "RESPONSE|ERROR|no_nodes_in_ring") ∨
      (∃ primary rest, node.router.findOwners key 1 = some (primary :: rest) ∧
        primary.nodeId ≠ node.info.nodeId ∧ handling = .forward primary raw) ∨
      handling = coordinate := by
  unfold atPrimary at handled
  split at handled
  · cases handled
  · exact .inl (Option.some.inj handled).symm
  · rename_i first rest found
    split at handled
    · rename_i stranger
      exact .inr (.inl ⟨first, rest, found, stranger, (Option.some.inj handled).symm⟩)
    · exact .inr (.inr (Option.some.inj handled).symm)

/-- A put or delete that is coordinated or passed on. -/
def IsWrite : Handling → Prop
  | .forward _ _ => True
  | .coordinatePut _ _ _ _ _ => True
  | .coordinateDelete _ _ _ _ => True
  | _ => False

/-- A write comes as a `PUT` or as a `DELETE`. -/
theorem isWrite_of_handleRequest {handling : Handling} (handled : node.handleRequest payload = some handling)
    (write : IsWrite handling) :
    (Wire.field (splitAll payload) 0 = ascii "PUT" ∧ node.handlePut (splitAll payload) payload = some handling) ∨
      node.handleDelete (splitAll payload) payload = some handling := by
  unfold handleRequest at handled
  simp only at handled
  split at handled
  · obtain rfl := Option.some.inj handled
    exact write.elim
  split at handled
  · rename_i put
    exact .inl ⟨put, handled⟩
  split at handled
  · obtain rfl := Option.some.inj handled
    exact write.elim
  split at handled
  · exact .inr handled
  all_goals repeat' split at handled
  all_goals
    obtain rfl := Option.some.inj handled
    exact write.elim

/-- Only a write is passed on, as it came, and only to the primary the node's own ring names. -/
theorem forward_of_handleRequest (forwarded : node.handleRequest payload = some (.forward primary raw)) :
    raw = payload ∧ primary.nodeId ≠ node.info.nodeId ∧
      ∃ rest, node.router.findOwners (Wire.field (splitAll payload) 1) 1 = some (primary :: rest) := by
  have step : ∀ coordinate, Handling.forward primary raw ≠ coordinate →
      node.atPrimary (Wire.field (splitAll payload) 1) payload coordinate = some (.forward primary raw) →
      raw = payload ∧ primary.nodeId ≠ node.info.nodeId ∧
        ∃ rest, node.router.findOwners (Wire.field (splitAll payload) 1) 1 = some (primary :: rest) := by
    intro coordinate other sent
    rcases atPrimary_cases sent with replied | ⟨first, rest, found, stranger, same⟩ | coordinated
    · cases replied
    · obtain ⟨rfl, rfl⟩ := Handling.forward.inj same
      exact ⟨rfl, stranger, rest, found⟩
    · exact absurd coordinated other
  rcases isWrite_of_handleRequest forwarded trivial with ⟨-, put⟩ | delete
  · exact step _ (by simp) put
  · exact step _ (by simp) delete

/-- What is coordinated as a put came as a `PUT`, with the key, value and context of its fields. -/
theorem coordinatePut_of_handleRequest
    (handled : node.handleRequest payload = some (.coordinatePut key data context n w)) :
    Wire.field (splitAll payload) 0 = ascii "PUT" ∧ key = Wire.field (splitAll payload) 1 ∧
      data = Base64.decode (Wire.field (splitAll payload) 2) ∧
      context = VectorClock.parse (Wire.field (splitAll payload) 7) := by
  rcases isWrite_of_handleRequest handled trivial with ⟨verb, put⟩ | delete
  · rcases atPrimary_cases put with replied | ⟨_, _, _, _, forwarded⟩ | coordinated
    · cases replied
    · cases forwarded
    · obtain ⟨same, decoded, parsed, -, -⟩ := Handling.coordinatePut.inj coordinated
      exact ⟨verb, same, decoded, parsed⟩
  · rcases atPrimary_cases delete with replied | ⟨_, _, _, _, forwarded⟩ | coordinated
    · cases replied
    · cases forwarded
    · cases coordinated

end Node

end MiniDynamo
