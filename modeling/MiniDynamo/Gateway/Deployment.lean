import MiniDynamo.Gateway.KvService
import MiniDynamo.Gateway.Targets
import MiniDynamo.Library.Failover
import MiniDynamo.Net.TCPServer
import MiniDynamo.Node.Results

/-! The gateway in front of the nodes: what a call sends goes out on the sockets of its transport, to one target
after the other until a reply comes back, and whatever arrives at a node is served there. A request whose reply
is lost is sent again, so the same write may be coordinated more than once. -/

namespace MiniDynamo.Gateway

open Utf16 ClusterClient Framing

/-! ### The exchange of the transport is that of a pooled client -/

/-- How an exchange ends that returns or throws: the `IOException` of the last target is not passed on. -/
def Exchanged.of : Except Thrown Utf16 → Exchanged
  | .ok resp => .reply resp
  | .error .ioException => .unavailable
  | .error thrown => .escaped thrown

namespace Transport

/-- The transport as it stands, with what its streams hold. -/
def client (maxConnections : Int) (payload : Utf16) : PooledClient Transport Endpoint Nat Thrown Utf16 where
  poll endpoint transport := transport.pollPooled endpoint.key
  dial _ transport := transport.dial
  roundTrip _ socket transport := transport.roundTrip socket payload
  checkin endpoint socket transport := transport.checkin maxConnections endpoint.key socket
  close socket transport := transport.closeQuietly socket
  failed := .ioException

variable {maxConnections : Int} {payload : Utf16}

theorem client_settle (endpoint : Endpoint) (socket : Nat) (result : Except Thrown Utf16 × Transport) :
    (client maxConnections payload).settle endpoint socket result =
      settle maxConnections endpoint.key socket result := by
  obtain ⟨answer, after⟩ := result
  cases answer with
  | ok reply => rfl
  | error thrown => cases thrown <;> rfl

theorem client_tripFresh (endpoint : Endpoint) (transport : Transport) :
    (client maxConnections payload).tripFresh endpoint transport =
      transport.tripFresh maxConnections endpoint.key payload := by
  cases dialled : transport.dial with
  | mk socket after =>
    have same : (client maxConnections payload).dial endpoint transport = (socket, after) := dialled
    cases socket with
    | none => rw [PooledClient.tripFresh, same, tripFresh, dialled]; rfl
    | some socket => rw [PooledClient.tripFresh, same, tripFresh_eq dialled]; exact client_settle endpoint socket _

theorem client_trip (endpoint : Endpoint) (transport : Transport) :
    (client maxConnections payload).trip endpoint transport =
      transport.roundTripPooled maxConnections endpoint.key payload := by
  cases polled : transport.pollPooled endpoint.key with
  | mk socket after =>
    have same : (client maxConnections payload).poll endpoint transport = (socket, after) := polled
    cases socket with
    | none => rw [PooledClient.trip, same, roundTripPooled, polled]; exact client_tripFresh endpoint after
    | some socket =>
      rw [PooledClient.trip, same]
      simp only [client_settle, roundTripPooled, polled]
      change (client maxConnections payload).orElse
        (settle maxConnections endpoint.key socket (after.roundTrip socket payload)) _ = _
      obtain ⟨answer, last⟩ := after.roundTrip socket payload
      cases answer with
      | ok reply => rfl
      | error thrown =>
        cases thrown with
        | ioException => exact client_tripFresh endpoint _
        | numberFormatException => rfl

theorem exchange_eq (targets : List Endpoint) (transport : Transport) :
    exchange maxConnections payload targets transport =
      (.of ((client maxConnections payload).exchange targets transport).1,
        ((client maxConnections payload).exchange targets transport).2) := by
  induction targets generalizing transport with
  | nil => rfl
  | cons endpoint rest ih =>
    rw [exchange, PooledClient.exchange, client_trip]
    obtain ⟨answer, after⟩ := transport.roundTripPooled maxConnections endpoint.key payload
    cases answer with
    | ok reply => rfl
    | error thrown =>
      cases thrown with
      | ioException => exact ih after
      | numberFormatException => rfl

/-- What a round trip makes of a part of a node's reply: it fails, or has the reply, or throws for its length. -/
inductive Hears (reply : Bytes) : Except Thrown Utf16 → Prop where
  | failed : Hears reply (.error .ioException)
  | whole (fits : reply.length ≤ kMaxFrame) : Hears reply (.ok (ofUtf8 reply))
  | overlong (large : 2 ^ 31 ≤ reply.length) : Hears reply (.error .numberFormatException)

theorem hears_recvFramed {fd : Descriptor} {reply : Bytes} (part : fd.incoming <+: frame reply) :
    Hears reply (recvFramed fd).1 := by
  by_cases oversized : Oversized fd
  · obtain ⟨line, after, header, large⟩ := oversized
    obtain ⟨digits, rfl, front, all⟩ := readHeader_took header
    obtain ⟨rfl, -⟩ := line_part all (front ▸ part)
    rw [recvFramed_oversized ⟨_, after, header, large⟩]
    exact .overlong (by simpa [digitsValue_decimal] using large)
  · rw [recvFramed_within oversized]
    cases received : Framing.recvFramed fd with
    | mk payload after =>
      cases payload with
      | none => exact .failed
      | some payload =>
        obtain ⟨rfl, -⟩ := recvFramed_part part received
        exact .whole (recvFramed_length (congrArg Prod.fst received))

theorem hears_roundTrip (transport : Transport) (socket : Nat) (stream : Descriptor) (payload : Utf16) {reply : Bytes}
    (part : stream.incoming <+: frame reply) :
    Hears reply ((transport.setStream socket stream).roundTrip socket payload).1 := by
  have loaded : (transport.setStream socket stream).streams socket = stream := if_pos rfl
  have written := onlyWritten_sendFramed stream (utf8 payload)
  rw [roundTrip, loaded, sendFramed_eq]
  generalize Framing.sendFramed stream (utf8 payload) = sent at written
  obtain ⟨done, after⟩ := sent
  cases done with
  | false => exact .failed
  | true => exact hears_recvFramed (written.incoming.symm ▸ part)

/-- Without a byte there is no reply. -/
theorem roundTrip_silent (transport : Transport) (socket : Nat) (stream : Descriptor) (payload : Utf16)
    (silent : stream.incoming = []) :
    ((transport.setStream socket stream).roundTrip socket payload).1 = .error .ioException := by
  have heard : ∀ reply, Hears reply ((transport.setStream socket stream).roundTrip socket payload).1 :=
    fun reply => hears_roundTrip transport socket stream payload (silent ▸ List.nil_prefix)
  -- what has no byte could be part of either reply
  generalize ((transport.setStream socket stream).roundTrip socket payload).1 = result at heard
  cases heard [97] with
  | failed => rfl
  | overlong large => exact absurd large (by decide)
  | whole fits =>
    generalize shown : (Except.ok (ofUtf8 [97]) : Except Thrown Utf16) = result at heard
    cases heard [98] with
    | failed => rfl
    | overlong large => exact absurd large (by decide)
    | whole fits => exact absurd shown (by decide)

end Transport

/-! ### The nodes and the network -/

/-- How the one hop of a forwarded write ends: without a connection, with a write whose reply is lost, or
with the reply. -/
inductive Hop where
  | unreachable
  | unanswered
  | relayed

/-- How the network carries one round trip: how the calls on the gateway's socket and on the node's go, how many
bytes get to the node and how many get back, and the hop of a write that the node forwards. -/
structure Passage where
  reads : List Descriptor.Call
  writes : List Descriptor.Call
  arriving : Nat
  nodeReads : List Descriptor.Call
  nodeWrites : List Descriptor.Call
  returning : Nat
  hop : Hop

/-- Nothing gets through. -/
def Passage.broken : Passage := ⟨[], [], 0, [], [], 0, .unreachable⟩

/-- The sockets of the gateway with the connects to come, the round trips to come, and the state of the cluster
behind them. Past the end of the list nothing gets through. -/
structure Sockets (τ : Type) where
  transport : Transport
  passages : List Passage
  state : τ

/-- The gateway's sockets, and the rings that the poller will have for the next exchanges; past the end of the
list the ring is unbuilt. -/
structure Site (τ : Type) where
  rings : List RoutingTable
  sockets : Sockets τ

/-- The nodes of a cluster over some state, on one ring, with their coordinators, and the gateway's
configuration: endpoints that it can read and dial. -/
structure Deployment (τ : Type) where
  router : Router
  nodes : Bytes → Node
  nodeAt : Endpoint → Option Bytes
  seeds : List Utf16
  maxConnections : Int
  coordinatePut : Bytes → (key value : Bytes) → VectorClock → (n w : Int) → τ → PutResult × τ
  coordinateDelete : Bytes → (key : Bytes) → VectorClock → (n w : Int) → τ → PutResult × τ
  coordinateGet : Bytes → (key : Bytes) → (n r : Int) → τ → GetResult × τ
  named : ∀ id, (nodes id).info.nodeId = id
  agreed : ∀ id, (nodes id).router = router
  routed : ∀ key, router.findOwners key 1 ≠ none
  configured : ∃ endpoints, seedEndpoints seeds = some endpoints ∧ ∀ endpoint ∈ endpoints, Dialable endpoint.port
  put_written : ∀ id key value clock n w state, router.Contains id → clock.WireSafe →
    Coordinator.Written VectorClock.WireSafe (coordinatePut id key value clock n w state).1
  delete_written : ∀ id key clock n w state, router.Contains id → clock.WireSafe →
    Coordinator.Written VectorClock.WireSafe (coordinateDelete id key clock n w state).1
  get_concluded : ∀ id key n r state, Coordinator.Concluded (coordinateGet id key n r state).1

namespace Deployment

variable {τ : Type} (cluster : Deployment τ)

/-- What a node does with a request it does not forward, and the reply it writes. The messages of the
cluster itself are none of the gateway's. -/
def perform (id : Bytes) (state : τ) : Handling → Option Bytes × τ
  | .reply payload => (some payload, state)
  | .coordinatePut key value clock n w =>
    let (result, after) := cluster.coordinatePut id key value clock n w state
    (some (Node.putReply result), after)
  | .coordinateDelete key clock n w =>
    let (result, after) := cluster.coordinateDelete id key clock n w state
    (some (Node.putReply result), after)
  | .coordinateGet key n r =>
    let (result, after) := cluster.coordinateGet id key n r state
    (Node.getReply result, after)
  | _ => (none, state)

/-- The request at the primary it was forwarded to. -/
def atTarget (id payload : Bytes) (state : τ) : Option Bytes × τ :=
  match (cluster.nodes id).handleRequest payload with
  | some handling => cluster.perform id state handling
  | none => (none, state)

def forwardFailed : Bytes := ascii "RESPONSE|ERROR|forward_failed"

/-- What `sendAndReceiveFramed` has of the primary's reply goes back; an empty one is none, and one above the
limit of a frame is not received. -/
def relay (reply : Option Bytes) : Bytes :=
  if reply.getD [] = [] ∨ kMaxFrame < (reply.getD []).length then forwardFailed else reply.getD []

/-- The reply of the node that a request reaches. -/
def answer (id : Bytes) (hop : Hop) (state : τ) (payload : Bytes) : Option Bytes × τ :=
  match (cluster.nodes id).handleRequest payload with
  | some (.forward primary raw) =>
    match hop with
    | .unreachable => (some forwardFailed, state)
    | .unanswered => (some forwardFailed, (cluster.atTarget primary.nodeId raw state).2)
    | .relayed =>
      let (reply, after) := cluster.atTarget primary.nodeId raw state
      (some (relay reply), after)
  | some handling => cluster.perform id state handling
  | none => (none, state)

/-- The connection at the node's end, with the bytes that get there. -/
def connection (endpoint : Endpoint) (passage : Passage) (state : τ) (bytes : Bytes) : τ × Descriptor :=
  match cluster.nodeAt endpoint with
  | some id =>
    TCPServer.handleConnection (cluster.answer id passage.hop) state
      ⟨bytes, [], passage.nodeReads, passage.nodeWrites⟩
  | none => (state, ⟨[], [], [], []⟩)

/-- One round trip of the transport. The node serves what has got there of the frame, and the socket holds what
has got back of its reply. -/
def roundTrip (payload : Utf16) (endpoint : Endpoint) (socket : Nat) (sockets : Sockets τ) :
    Except Thrown Utf16 × Sockets τ :=
  let passage := sockets.passages.headD .broken
  let written := (sendFramed ⟨[], [], passage.reads, passage.writes⟩ payload).2.outgoing
  let (state, node) := cluster.connection endpoint passage sockets.state (written.take passage.arriving)
  let stream := ⟨node.outgoing.take passage.returning, [], passage.reads, passage.writes⟩
  (((sockets.transport.setStream socket stream).roundTrip socket payload).1,
    { sockets with passages := sockets.passages.tail, state })

/-- The transport of the gateway in front of the nodes. -/
def client (payload : Utf16) : PooledClient (Sockets τ) Endpoint Nat Thrown Utf16 where
  poll endpoint sockets :=
    let (socket, transport) := sockets.transport.pollPooled endpoint.key
    (socket, { sockets with transport })
  dial _ sockets :=
    let (socket, transport) := sockets.transport.dial
    (socket, { sockets with transport })
  roundTrip := cluster.roundTrip payload
  checkin endpoint socket sockets :=
    { sockets with transport := sockets.transport.checkin cluster.maxConnections endpoint.key socket }
  close socket sockets := { sockets with transport := sockets.transport.closeQuietly socket }
  failed := .ioException

theorem targeted (ring : RoutingTable) (key : Utf16) (n : Int) :
    (targetsForKey ring.snapshot cluster.seeds key n).isSome := by
  obtain ⟨owners, found⟩ := Option.ne_none_iff_exists'.mp (ring.owned key n)
  obtain ⟨endpoints, parsed, -⟩ := cluster.configured
  rw [targetsForKey_eq found parsed]
  rfl

def targets (ring : RoutingTable) (key : Utf16) (n : Int) : List Endpoint :=
  (targetsForKey ring.snapshot cluster.seeds key n).get (cluster.targeted ring key n)

/-- No connect throws for its port. -/
theorem dialable_targets (ring : RoutingTable) (key : Utf16) (n : Int) :
    ∀ endpoint ∈ cluster.targets ring key n, Dialable endpoint.port := by
  obtain ⟨owners, found⟩ := Option.ne_none_iff_exists'.mp (ring.owned key n)
  obtain ⟨seeds, parsed, fine⟩ := cluster.configured
  simp only [targets, targetsForKey_eq found parsed, Option.get_some]
  obtain ⟨others, back, amongSeeds⟩ := sublist_addTargets (addTargets [] (owners.map ownerEndpoint)) seeds
  obtain ⟨first, front, amongOwners⟩ := sublist_addTargets [] (owners.map ownerEndpoint)
  rw [back, front]
  intro endpoint member
  rcases List.mem_append.mp member with own | seed
  · obtain ⟨owner, listed, rfl⟩ := List.mem_map.mp (amongOwners.subset own)
    obtain ⟨entry, held, rfl⟩ := List.mem_map.mp (mem_ownersFor found listed)
    exact ring.dialable entry held
  · exact fine endpoint (amongSeeds.subset seed)

def exchangeForKey (site : Site τ) (key payload : Utf16) (n : Int) : Exchanged × Site τ :=
  let targets := cluster.targets (site.rings.headD .unbuilt) key n
  let (outcome, sockets) := (cluster.client payload).exchange targets site.sockets
  (.of outcome, ⟨site.rings.tail, sockets⟩)

end Deployment

end MiniDynamo.Gateway
