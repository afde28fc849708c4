import MiniDynamo.Gateway.Deployment

/-! The gateway and the nodes' protocol between a client and the coordinators. What a run of REST calls
comes to is what it would come to if the gateway called the coordinators itself, with no payload, no reply
and no field in between: whatever stands in a key, a value, a clock or a quorum, it is never read as
anything else. -/

namespace MiniDynamo.Gateway

open Utf16 ClusterClient Wire

/-! ### Replies -/

section Replies

/-- A version as the gateway passes it on. -/
def shown (version : VersionedValue) : KvValueResponse := ⟨ofUtf8 version.data, ofUtf8 version.clock.serialize⟩

def refusal (reason : Bytes) : Raised :=
  if reason ∈ quorumReasons then .quorumNotMet else .clusterProtocol (some (ofUtf8 reason))

/-- What the result of a write means to a client. -/
def writeAnswer (result : PutResult) : Except Raised (Option Utf16) :=
  if result.ok then .ok (some (ofUtf8 result.clock.serialize)) else .error (refusal result.error)

/-- What the result of a read means to a client. -/
def readAnswer (key : Utf16) (result : GetResult) : Except Raised KvValueResponse :=
  match result.status with
  | .ok =>
    match result.values with
    | version :: _ => .ok (shown version)
    | [] => .error .indexOutOfBounds
  | .siblings => .error (.siblingsConflict (result.values.map shown))
  | .notFound => .error (.keyNotFound key)
  | .error => .error (refusal result.error)

/-- The value a read found, if it found one version. -/
def earlier (result : GetResult) : Option Utf16 :=
  match result.status with
  | .ok => result.values.head?.map (fun version => ofUtf8 version.data)
  | _ => none

/-- The result of a write has no bar where it is written into a reply. -/
structure WriteReadable (result : PutResult) : Prop where
  clock : result.ok = true → pipe ∉ result.clock.serialize
  reason : result.ok = false → pipe ∉ result.error

theorem pipe_not_mem_refusal {reason : Bytes} (known : reason ∈ Coordinator.refusals) : pipe ∉ reason := by
  have clean : ∀ reason ∈ Coordinator.refusals, pipe ∉ reason := by decide
  exact clean reason known

theorem writeReadable {result : PutResult} (written : Coordinator.Written VectorClock.WireSafe result) :
    WriteReadable result :=
  ⟨fun fine => VectorClock.pipe_not_mem_serialize (written.fine fine),
    fun failed => pipe_not_mem_refusal (written.refused failed)⟩

theorem written_putReply {result : PutResult} (readable : WriteReadable result) :
    KvService.written (parseWrite (ofUtf8 (Node.putReply result))) = writeAnswer result := by
  obtain ⟨first, rest, shape, parsed⟩ := parseWrite_putReply result
  rw [parsed, writeAnswer]
  cases fine : result.ok with
  | true =>
    rw [fine, if_pos rfl, List.splitOn_eq_singleton (readable.clock fine)] at shape
    obtain rfl := (List.cons.inj shape).1
    rfl
  | false =>
    rw [fine, if_neg Bool.false_ne_true, List.splitOn_eq_singleton (readable.reason fine)] at shape
    obtain rfl := (List.cons.inj shape).1
    rw [if_neg Bool.false_ne_true, if_neg Bool.false_ne_true, refusal]
    split <;> rfl

theorem versions_siblingFields {values : List VersionedValue} (clean : ∀ value ∈ values, pipe ∉ value.clock.serialize) :
    versions ((siblingFields values).map ofUtf8) =
      some (values.map (fun value => ⟨value.data, ofUtf8 value.clock.serialize⟩)) := by
  induction values with
  | nil => rfl
  | cons value rest ih =>
    have others := ih (fun other member => clean other (List.mem_cons_of_mem value member))
    have fields : siblingFields (value :: rest) =
        Base64.encode value.data :: value.clock.serialize :: siblingFields rest := by
      rw [siblingFields, List.flatMap_cons, List.splitOn_eq_singleton (clean value List.mem_cons_self)]
      rfl
    rw [fields, List.map_cons, List.map_cons, versions, decode_ofUtf8_encode, others]
    rfl

/-- The result of a read as the gateway has it. -/
def parsedRead (result : GetResult) : ReadResult :=
  let values := result.values.map (fun value => ⟨value.data, ofUtf8 value.clock.serialize⟩)
  match result.status with
  | .ok => ⟨.ok, values, none⟩
  | .siblings => .siblings values
  | .notFound => .notFound
  | .error => if result.error ∈ quorumReasons then .quorumFailed else .failed (ofUtf8 result.error)

theorem parseRead_getReply {result : GetResult} (concluded : Coordinator.Concluded result) :
    ∃ reply, Node.getReply result = some reply ∧ parseRead (ofUtf8 reply) = some (parsedRead result) := by
  have clean : ∀ version ∈ result.values, pipe ∉ version.clock.serialize := fun version member =>
    VectorClock.pipe_not_mem_serialize (concluded.safe version member)
  obtain ⟨status, values, reason⟩ := result
  cases status with
  | ok =>
    obtain ⟨version, same, -⟩ := concluded.single rfl
    obtain rfl : values = [version] := same
    exact ⟨_, rfl, parseRead_ok (List.splitOn_eq_singleton (clean version List.mem_cons_self))⟩
  | siblings =>
    refine ⟨_, rfl, ?_⟩
    rw [parseRead_siblings, versions_siblingFields clean]
    rfl
  | notFound => exact ⟨_, rfl, show parseRead (ofUtf8 (ascii "RESPONSE|NOTFOUND")) = some .notFound by decide⟩
  | error =>
    exact ⟨_, rfl, parseRead_error (List.splitOn_eq_singleton (pipe_not_mem_refusal (concluded.refused rfl).2))⟩

theorem fetched_parsedRead (key : Utf16) (result : GetResult) :
    KvService.fetched key (parsedRead result) = readAnswer key result := by
  obtain ⟨status, values, reason⟩ := result
  cases status with
  | ok =>
    cases values with
    | nil => rfl
    | cons version rest => rfl
  | siblings =>
    simp only [parsedRead, ReadResult.siblings, KvService.fetched, readAnswer, List.map_map]
    rfl
  | notFound => rfl
  | error =>
    simp only [parsedRead, readAnswer, refusal]
    split <;> rfl

theorem earlier_parsedRead (result : GetResult) :
    (if (parsedRead result).status = .ok then (parsedRead result).values.head?.map (fun version => ofUtf8 version.value)
      else none) = earlier result := by
  obtain ⟨status, values, reason⟩ := result
  cases status with
  | ok =>
    cases values with
    | nil => rfl
    | cons version rest => rfl
  | siblings => rfl
  | notFound => rfl
  | error =>
    simp only [parsedRead, earlier]
    split <;> rfl

end Replies

/-! ### Calls without the wire -/

/-- The state of the cluster, and the rings of the next exchanges. -/
structure Direct (τ : Type) where
  rings : List RoutingTable
  state : τ

def Site.direct {τ : Type} (site : Site τ) : Direct τ := ⟨site.rings, site.sockets.state⟩

def KvService.direct {τ : Type} (service : KvService (Site τ)) : KvService (Direct τ) :=
  ⟨service.cluster.direct, service.config, service.audit, service.database⟩

/-- What is left of an exception when it leaves the client. -/
def raised : Thrown → Raised
  | .ioException => .clusterUnavailable
  | .numberFormatException => .illegalArgument .library

namespace Deployment

variable {τ Result : Type} (cluster : Deployment τ)

def refused (reason : String) : PutResult := ⟨false, .empty, ascii reason⟩

/-- A write that reaches a node is coordinated by the primary of its key. -/
def write (key : Bytes) (operation : Bytes → τ → PutResult × τ) (id : Bytes) (hop : Hop) (state : τ) : PutResult × τ :=
  match cluster.router.findOwners key 1 with
  | some (primary :: _) =>
    if primary.nodeId = id then operation id state
    else
      match hop with
      | .unreachable => (refused "forward_failed", state)
      | .unanswered => (refused "forward_failed", (operation primary.nodeId state).2)
      | .relayed => operation primary.nodeId state
  | _ => (refused "no_nodes_in_ring", state)

/-- One attempt at an endpoint, with replies of some length: it does not get to the node, it is carried out there
and the reply is lost, or the reply comes back. A reply whose length is no `int` throws. -/
inductive Attempt (size : Result → Nat) (operation : Bytes → Hop → τ → Result × τ) :
    Endpoint → τ → Except Thrown Result → τ → Prop where
  | lost (endpoint : Endpoint) (state : τ) : Attempt size operation endpoint state (.error .ioException) state
  | unanswered {endpoint : Endpoint} {id : Bytes} (there : cluster.nodeAt endpoint = some id) (hop : Hop) (state : τ) :
      Attempt size operation endpoint state (.error .ioException) (operation id hop state).2
  | answered {endpoint : Endpoint} {id : Bytes} (there : cluster.nodeAt endpoint = some id) (hop : Hop) (state : τ)
      (fits : size (operation id hop state).1 ≤ Framing.kMaxFrame) :
      Attempt size operation endpoint state (.ok (operation id hop state).1) (operation id hop state).2
  | overlong {endpoint : Endpoint} {id : Bytes} (there : cluster.nodeAt endpoint = some id) (hop : Hop) (state : τ)
      (large : 2 ^ 31 ≤ size (operation id hop state).1) :
      Attempt size operation endpoint state (.error .numberFormatException) (operation id hop state).2

/-- A call on a key is tried at targets of the key, in their order and at most twice at each, until it is answered. -/
def Asks (size : Result → Nat) (operation : Bytes → Hop → τ → Result × τ) (key : Utf16) (n : Int32)
    (direct : Direct τ) (result : Except Raised Result) (after : Direct τ) : Prop :=
  ∃ tried outcome,
    tried.Sublist ((cluster.targets (direct.rings.headD .unbuilt) key n.toInt).flatMap
      (fun endpoint => [endpoint, endpoint])) ∧
    Course (cluster.Attempt size operation) .ioException tried direct.state outcome after.state ∧
    after.rings = direct.rings.tail ∧ result = outcome.mapError raised

def writeSize (result : PutResult) : Nat := (Node.putReply result).length

def readSize (result : GetResult) : Nat := ((Node.getReply result).getD []).length

/-- The coordination of a put at a node. -/
def putAt (key : Utf16) (value : Bytes) (clock : VectorClock) (n w : Int32) (id : Bytes) : τ → PutResult × τ :=
  cluster.coordinatePut id (utf8 key) value clock ((cluster.nodes id).effN n.toInt) ((cluster.nodes id).effW w.toInt)

def deleteAt (key : Utf16) (clock : VectorClock) (n w : Int32) (id : Bytes) : τ → PutResult × τ :=
  cluster.coordinateDelete id (utf8 key) clock ((cluster.nodes id).effN n.toInt) ((cluster.nodes id).effW w.toInt)

def getAt (key : Utf16) (n r : Int32) (id : Bytes) (_ : Hop) : τ → GetResult × τ :=
  cluster.coordinateGet id (utf8 key) ((cluster.nodes id).effN n.toInt) ((cluster.nodes id).effR r.toInt)

def Put (direct : Direct τ) (key : Utf16) (value : Bytes) (clock : VectorClock) (n w : Int32) :
    Except Raised PutResult → Direct τ → Prop :=
  cluster.Asks writeSize (cluster.write (utf8 key) (cluster.putAt key value clock n w)) key n direct

def Delete (direct : Direct τ) (key : Utf16) (clock : VectorClock) (n w : Int32) :
    Except Raised PutResult → Direct τ → Prop :=
  cluster.Asks writeSize (cluster.write (utf8 key) (cluster.deleteAt key clock n w)) key n direct

def Get (direct : Direct τ) (key : Utf16) (n r : Int32) : Except Raised GetResult → Direct τ → Prop :=
  cluster.Asks readSize (cluster.getAt key n r) key n direct

open KvService KvController GlobalExceptionHandler

/-- A call of the data plane as the coordinators and the database see it. -/
inductive Serves : KvService (Direct τ) → RestCall → HttpResponse → KvService (Direct τ) → Prop where
  | rejected {service : KvService (Direct τ)} {call : RestCall} {raised : Raised}
      (invalid : validate call = .error raised) : Serves service call (handle raised) service
  | unconfigured {service : KvService (Direct τ)} {call : RestCall} (valid : validate call = .ok ())
      (down : service.nextCall ≠ .done) : Serves service call ⟨500, .framework⟩ service.queried
  | put {service : KvService (Direct τ)} {key : Utf16} {body : KvWriteRequest} {n w r : Option Int32}
      {result : Except Raised PutResult} {after : Direct τ} (valid : validate (.put key body n w r) = .ok ())
      (up : service.nextCall = .done)
      (done : cluster.Put service.cluster key (utf8 (body.value.getD [])) (context body.clock)
        (orDefault n service.quorum.n) (orDefault w service.quorum.w) result after) :
      Serves service (.put key body n w r) (respond .written (result.bind writeAnswer))
        { service.queried with cluster := after }
  | get {service : KvService (Direct τ)} {key : Utf16} {n r : Option Int32} {result : Except Raised GetResult}
      {after : Direct τ} (valid : validate (.get key n r) = .ok ()) (up : service.nextCall = .done)
      (done : cluster.Get service.cluster key (orDefault n service.quorum.n) (orDefault r service.quorum.r)
        result after) :
      Serves service (.get key n r) (respond .value (result.bind (readAnswer key)))
        { service.queried with cluster := after }
  | delete {service last : KvService (Direct τ)} {key : Utf16} {clock : Option Utf16} {n w : Option Int32}
      {principal : Option Utf16} {found : Except Raised GetResult} {result : Except Raised PutResult}
      {middle after : Direct τ} {answer : Except Raised (Option Utf16)}
      (valid : validate (.delete key clock n w principal) = .ok ()) (up : service.nextCall = .done)
      (read : cluster.Get service.cluster key (orDefault n service.quorum.n) service.quorum.r found middle)
      (done : cluster.Delete middle key (context clock) (orDefault n service.quorum.n) (orDefault w service.quorum.w)
        result after)
      (ended : { service.queried with cluster := after }.finishDelete
        ⟨actor principal, text "DELETE", key, found.toOption.bind earlier, none⟩ (result.bind writeAnswer) =
          (answer, last)) :
      Serves service (.delete key clock n w principal) (respond .written answer) last

/-- One call after the other. -/
inductive Runs : KvService (Direct τ) → List RestCall → List HttpResponse → KvService (Direct τ) → Prop where
  | nil (service : KvService (Direct τ)) : Runs service [] [] service
  | cons {service after last : KvService (Direct τ)} {call : RestCall} {rest : List RestCall} {response : HttpResponse}
      {responses : List HttpResponse} (first : cluster.Serves service call response after)
      (later : Runs after rest responses last) : Runs service (call :: rest) (response :: responses) last

/-! ### Both are one -/

section Exchanges

variable {cluster} {payload : Utf16} {size : Result → Nat} {reads : Result → Bytes}
variable {operation : Bytes → Hop → τ → Result × τ}

/-- Whichever node the payload reaches, its reply is the result of the operation. The hop may have failed for a
reply that is too long. -/
def Answers (cluster : Deployment τ) (payload : Utf16) (reads : Result → Bytes)
    (operation : Bytes → Hop → τ → Result × τ) : Prop :=
  ∀ id hop state, ∃ other, cluster.answer id hop state (utf8 payload) =
    (some (reads (operation id other state).1), (operation id other state).2)

/-- What arrives of the payload is part of its frame. -/
theorem written_front (passage : Passage) (payload : Utf16) :
    ((sendFramed ⟨[], [], passage.reads, passage.writes⟩ payload).2.outgoing.take passage.arriving) <+:
      Framing.frame (utf8 payload) := by
  rw [sendFramed_eq]
  obtain ⟨part, written, front⟩ :=
    Framing.sendFramed_part ⟨[], [], passage.reads, passage.writes⟩ (utf8 payload)
  rw [written]
  exact (List.take_prefix _ _).trans front

/-- A round trip is an attempt, and its reply is read off the result. -/
theorem Answers.roundTrip (answers : cluster.Answers payload reads operation)
    (measured : ∀ result, size result = (reads result).length) (endpoint : Endpoint) (socket : Nat)
    (sockets : Sockets τ) :
    ∃ meant, cluster.Attempt size operation endpoint sockets.state meant
        (cluster.roundTrip payload endpoint socket sockets).2.state ∧
      (cluster.roundTrip payload endpoint socket sockets).1 = meant.map (fun result => ofUtf8 (reads result)) := by
  have arrives := written_front (sockets.passages.headD .broken) payload
  unfold Deployment.roundTrip connection
  dsimp only
  generalize sockets.passages.headD .broken = passage at arrives ⊢
  generalize (sendFramed ⟨[], [], passage.reads, passage.writes⟩ payload).2.outgoing.take passage.arriving = bytes
    at arrives ⊢
  cases there : cluster.nodeAt endpoint with
  | none =>
    refine ⟨.error .ioException, .lost endpoint sockets.state, ?_⟩
    exact Transport.roundTrip_silent _ _ _ _ List.take_nil
  | some id =>
    obtain ⟨other, answered⟩ := answers id passage.hop sockets.state
    have handled := TCPServer.handleConnection_part (cluster.answer id passage.hop) sockets.state
      (show (⟨bytes, [], passage.nodeReads, passage.nodeWrites⟩ : Descriptor).outgoing = [] from rfl) arrives
    rw [answered] at handled
    dsimp only
    generalize TCPServer.handleConnection (cluster.answer id passage.hop) sockets.state
      ⟨bytes, [], passage.nodeReads, passage.nodeWrites⟩ = served at handled
    obtain ⟨state, node⟩ := served
    rcases handled with ⟨rfl, silent⟩ | ⟨rfl, replied⟩
    · refine ⟨.error .ioException, .lost endpoint sockets.state, ?_⟩
      exact Transport.roundTrip_silent _ _ _ _ (by rw [silent]; exact List.take_nil)
    · have part : node.outgoing.take passage.returning <+:
          Framing.frame (reads (operation id other sockets.state).1) :=
        (List.take_prefix _ _).trans (by simpa [Framing.stream] using replied)
      have heard := Transport.hears_roundTrip sockets.transport socket
        ⟨node.outgoing.take passage.returning, [], passage.reads, passage.writes⟩ payload part
      dsimp only
      generalize ((sockets.transport.setStream socket ⟨node.outgoing.take passage.returning, [], passage.reads,
        passage.writes⟩).roundTrip socket payload).1 = outcome at heard
      cases heard with
      | failed => exact ⟨.error .ioException, .unanswered there other sockets.state, rfl⟩
      | whole fits => exact ⟨.ok _, .answered there other sockets.state (by rwa [measured]), rfl⟩
      | overlong large =>
        exact ⟨.error .numberFormatException, .overlong there other sockets.state (by rwa [measured]), rfl⟩

theorem Answers.attempts (answers : cluster.Answers payload reads operation)
    (measured : ∀ result, size result = (reads result).length) :
    (cluster.client payload).Attempts Sockets.state (fun endpoint state result after =>
      ∃ meant, cluster.Attempt size operation endpoint state meant after ∧
        result = meant.map (fun result => ofUtf8 (reads result))) where
  poll _ _ := rfl
  dial _ _ := rfl
  checkin _ _ _ := rfl
  close _ _ := rfl
  roundTrip endpoint socket sockets := answers.roundTrip measured endpoint socket sockets

theorem received_of (outcome : Except Thrown Utf16) : received (.of outcome) = outcome.mapError raised := by
  cases outcome with
  | ok reply => rfl
  | error thrown => cases thrown <;> rfl

/-- An exchange asks the targets for the operation, and its reply is read off the result. -/
theorem Answers.exchange (answers : cluster.Answers payload reads operation)
    (measured : ∀ result, size result = (reads result).length) (site : Site τ) (key : Utf16) (n : Int32) :
    ∃ result, cluster.Asks size operation key n site.direct result
        (cluster.exchangeForKey site key payload n.toInt).2.direct ∧
      received (cluster.exchangeForKey site key payload n.toInt).1 =
        result.map (fun result => ofUtf8 (reads result)) := by
  obtain ⟨tried, among, course⟩ := (answers.attempts measured).exchange
    (cluster.targets (site.rings.headD .unbuilt) key n.toInt) site.sockets
  obtain ⟨meant, followed, same⟩ := course.transfer _ (fun _ _ _ _ attempt => attempt)
  refine ⟨meant.mapError raised, ⟨tried, meant, among, followed, rfl, rfl⟩, ?_⟩
  have heard : received (cluster.exchangeForKey site key payload n.toInt).1 = _ := received_of _
  rw [heard, same]
  cases meant <;> rfl

/-- The result of a call is that of the operation somewhere. -/
theorem Asks.result {key : Utf16} {n : Int32} {direct after : Direct τ} {result : Except Raised Result}
    (asks : cluster.Asks size operation key n direct result after) :
    (∃ id hop state, result = .ok (operation id hop state).1) ∨ result = .error .clusterUnavailable ∨
      (result = .error (.illegalArgument .library) ∧ ∃ id hop state, 2 ^ 31 ≤ size (operation id hop state).1) := by
  obtain ⟨tried, outcome, -, course, -, rfl⟩ := asks
  generalize after.state = ended at course
  rcases course.last with rfl | ⟨endpoint, state, attempt⟩
  · exact .inr (.inl rfl)
  · cases attempt with
    | lost => exact .inr (.inl rfl)
    | unanswered there hop state => exact .inr (.inl rfl)
    | answered there hop state fits => exact .inl ⟨_, hop, state, rfl⟩
    | overlong there hop state large => exact .inr (.inr ⟨rfl, _, hop, state, large⟩)

end Exchanges

section Writes

variable {cluster} {key payload : Bytes} {coordinate : Bytes → Handling} {operation : Bytes → τ → PutResult × τ}

/-- A request that is not forwarded is answered where it arrives. -/
theorem answer_here {id : Bytes} {handling : Handling} (hop : Hop) (state : τ)
    (handled : (cluster.nodes id).handleRequest payload = some handling)
    (here : ∀ primary raw, handling ≠ .forward primary raw) :
    cluster.answer id hop state payload = cluster.perform id state handling := by
  unfold answer
  split
  · rename_i primary raw forwarded
    exact absurd (Option.some.inj (handled.symm.trans forwarded)) (here primary raw)
  · rename_i other _ same
    rw [Option.some.inj (handled.symm.trans same)]
  · rename_i nothing
    exact nomatch handled.symm.trans nothing

theorem writeReadable_refused (reason : String) (clean : pipe ∉ ascii reason) : WriteReadable (refused reason) :=
  ⟨nofun, fun _ => clean⟩

/-- Every node of the ring gives such results. -/
def Yields (cluster : Deployment τ) (operation : Bytes → τ → PutResult × τ) : Prop :=
  ∀ id state, cluster.router.Contains id → Coordinator.Written VectorClock.WireSafe (operation id state).1

theorem contains_primary {primary : NodeInfo} {rest : List NodeInfo}
    (found : cluster.router.findOwners key 1 = some (primary :: rest)) : cluster.router.Contains primary.nodeId := by
  have known := (Router.findOwners_spec found).1 primary List.mem_cons_self
  rw [Router.Contains, known]
  exact Option.some_ne_none primary

/-- A write is answered by a node of the ring, or refused on the way there. -/
theorem Yields.write (yields : cluster.Yields operation) (id : Bytes) (hop : Hop) (state : τ) :
    Coordinator.Written VectorClock.WireSafe (cluster.write key operation id hop state).1 ∨
      (cluster.write key operation id hop state).1 = refused "forward_failed" := by
  unfold Deployment.write
  split
  · rename_i primary rest found
    have contained := contains_primary found
    split
    · rename_i own
      exact .inl (yields id state (own ▸ contained))
    · split
      · exact .inr rfl
      · exact .inr rfl
      · exact .inl (yields _ state contained)
  · exact .inl (Coordinator.written_refused (by decide))

theorem Yields.readable (yields : cluster.Yields operation) (id : Bytes) (hop : Hop) (state : τ) :
    WriteReadable (cluster.write key operation id hop state).1 := by
  rcases yields.write id hop state with written | failed
  · exact writeReadable written
  · rw [failed]
    exact writeReadable_refused "forward_failed" (by decide)

theorem putReply_ne_nil (result : PutResult) : Node.putReply result ≠ [] := by
  unfold Node.putReply
  split <;> exact List.append_ne_nil_of_left_ne_nil (by decide) _

/-- A write that every node would coordinate alike, or forward. -/
structure Coordinates (cluster : Deployment τ) (key payload : Bytes) (coordinate : Bytes → Handling)
    (operation : Bytes → τ → PutResult × τ) : Prop where
  decoded : ∀ id, (cluster.nodes id).handleRequest payload = (cluster.nodes id).atPrimary key payload (coordinate id)
  here : ∀ id primary raw, coordinate id ≠ .forward primary raw
  performed : ∀ id state, cluster.perform id state (coordinate id) =
    (some (Node.putReply (operation id state).1), (operation id state).2)

/-- What the primary makes of the write. -/
theorem Coordinates.at_primary (coordinates : cluster.Coordinates key payload coordinate operation)
    {primary : NodeInfo} {rest : List NodeInfo} (found : cluster.router.findOwners key 1 = some (primary :: rest)) :
    (cluster.nodes primary.nodeId).handleRequest payload = some (coordinate primary.nodeId) := by
  rw [coordinates.decoded, Node.atPrimary, cluster.agreed, found]
  exact if_neg (fun different => different (cluster.named primary.nodeId).symm)

theorem Coordinates.atTarget (coordinates : cluster.Coordinates key payload coordinate operation)
    {primary : NodeInfo} {rest : List NodeInfo} (found : cluster.router.findOwners key 1 = some (primary :: rest))
    (state : τ) : cluster.atTarget primary.nodeId payload state =
      (some (Node.putReply (operation primary.nodeId state).1), (operation primary.nodeId state).2) := by
  rw [Deployment.atTarget, coordinates.at_primary found]
  exact coordinates.performed primary.nodeId state

/-- The reply to a forwarded write; one above the limit is as good as lost. -/
theorem Coordinates.forwarded (coordinates : cluster.Coordinates key payload coordinate operation) {id : Bytes}
    {primary : NodeInfo} {rest : List NodeInfo} (found : cluster.router.findOwners key 1 = some (primary :: rest))
    (own : primary.nodeId ≠ id) (hop : Hop) (state : τ) :
    ∃ other, cluster.answer id hop state payload =
      (some (Node.putReply (cluster.write key operation id other state).1),
        (cluster.write key operation id other state).2) := by
  have handled : (cluster.nodes id).handleRequest payload = some (.forward primary payload) := by
    rw [coordinates.decoded, Node.atPrimary, cluster.agreed, found]
    exact if_pos (fun same => own (same.trans (cluster.named id)))
  simp only [Deployment.answer, handled, Deployment.write, found, if_neg own, coordinates.atTarget found]
  cases hop with
  | unreachable => exact ⟨.unreachable, rfl⟩
  | unanswered => exact ⟨.unanswered, rfl⟩
  | relayed =>
    by_cases large : Framing.kMaxFrame < (Node.putReply (operation primary.nodeId state).1).length
    · exact ⟨.unanswered, by simp only [relay, Option.getD_some, large, or_true, ↓reduceIte]; rfl⟩
    · exact ⟨.relayed, by simp only [relay, Option.getD_some, large, putReply_ne_nil, or_self, ↓reduceIte]⟩

/-- The reply to a write is the result of the write without the wire. -/
theorem Coordinates.answers {key payload : Utf16}
    (coordinates : cluster.Coordinates (utf8 key) (utf8 payload) coordinate operation) :
    cluster.Answers payload Node.putReply (cluster.write (utf8 key) operation) := by
  intro id hop state
  cases found : cluster.router.findOwners (utf8 key) 1 with
  | none => exact absurd found (cluster.routed (utf8 key))
  | some owners =>
    cases owners with
    | nil =>
      have handled : (cluster.nodes id).handleRequest (utf8 payload) =
          some (.reply (ascii "RESPONSE|ERROR|no_nodes_in_ring")) := by
        rw [coordinates.decoded, Node.atPrimary, cluster.agreed, found]
      refine ⟨hop, ?_⟩
      rw [answer_here hop state handled (fun _ _ => nofun), Deployment.write, found]
      rfl
    | cons primary rest =>
      by_cases own : primary.nodeId = id
      · subst own
        refine ⟨hop, ?_⟩
        rw [answer_here hop state (coordinates.at_primary found) (coordinates.here primary.nodeId),
          coordinates.performed, Deployment.write, found]
        dsimp only
        rw [if_pos rfl]
      · exact coordinates.forwarded found own hop state

/-- The exchange of a write, read as the client reads it. -/
theorem Coordinates.exchange {key payload : Utf16}
    (coordinates : cluster.Coordinates (utf8 key) (utf8 payload) coordinate operation)
    (yields : cluster.Yields operation) (site : Site τ) (n : Int32) :
    ∃ result, cluster.Asks writeSize (cluster.write (utf8 key) operation) key n site.direct result
        (cluster.exchangeForKey site key payload n.toInt).2.direct ∧
      ((received (cluster.exchangeForKey site key payload n.toInt).1).map parseWrite).bind KvService.written =
        result.bind writeAnswer := by
  have measured : ∀ result, writeSize result = (Node.putReply result).length := fun _ => rfl
  obtain ⟨result, asks, heard⟩ := coordinates.answers.exchange measured site key n
  refine ⟨result, asks, ?_⟩
  rw [heard]
  rcases asks.result with ⟨id, hop, state, rfl⟩ | rfl | ⟨rfl, -⟩
  · exact written_putReply (yields.readable id hop state)
  · rfl
  · rfl

end Writes

section Calls

variable {cluster} {key : Utf16}

theorem yields_put {value : Bytes} {clock : VectorClock} {n w : Int32} (safe : clock.WireSafe) :
    cluster.Yields (cluster.putAt key value clock n w) :=
  fun id state contained => cluster.put_written id _ _ _ _ _ state contained safe

theorem yields_delete {clock : VectorClock} {n w : Int32} (safe : clock.WireSafe) :
    cluster.Yields (cluster.deleteAt key clock n w) :=
  fun id state contained => cluster.delete_written id _ _ _ _ state contained safe

theorem put_direct (clean : bar ∉ key) (site : Site τ) (value : Bytes) (clock : Option Utf16) (n w r : Int32) :
    ∃ result, cluster.Put site.direct key value (context clock) n w result
        (ClusterClient.put cluster.exchangeForKey site key value clock n w r).2.direct ∧
      (ClusterClient.put cluster.exchangeForKey site key value clock n w r).1.bind KvService.written =
        result.bind writeAnswer := by
  have coordinates : cluster.Coordinates (utf8 key)
      (utf8 (putPayload key (some value) clock n.toInt w.toInt r.toInt))
      (fun id => .coordinatePut (utf8 key) value (context clock) ((cluster.nodes id).effN n.toInt)
        ((cluster.nodes id).effW w.toInt)) (cluster.putAt key value (context clock) n w) :=
    ⟨fun id => decodes_put (cluster.nodes id) clean (some value) clock n w r.toInt, fun _ _ _ => nofun, fun _ _ => rfl⟩
  exact coordinates.exchange (yields_put (context_wireSafe clock)) site n

theorem delete_direct (clean : bar ∉ key) (site : Site τ) (clock : Option Utf16) (n w : Int32) :
    ∃ result, cluster.Delete site.direct key (context clock) n w result
        (ClusterClient.delete cluster.exchangeForKey site key clock n w).2.direct ∧
      (ClusterClient.delete cluster.exchangeForKey site key clock n w).1.bind KvService.written =
        result.bind writeAnswer := by
  have coordinates : cluster.Coordinates (utf8 key) (utf8 (deletePayload key clock n.toInt w.toInt))
      (fun id => .coordinateDelete (utf8 key) (context clock) ((cluster.nodes id).effN n.toInt)
        ((cluster.nodes id).effW w.toInt)) (cluster.deleteAt key (context clock) n w) :=
    ⟨fun id => decodes_delete (cluster.nodes id) clean clock n w, fun _ _ _ => nofun, fun _ _ => rfl⟩
  exact coordinates.exchange (yields_delete (context_wireSafe clock)) site n

theorem answers_get (clean : bar ∉ key) (n r : Int32) :
    cluster.Answers (getPayload key n.toInt r.toInt) (fun result => (Node.getReply result).getD [])
      (cluster.getAt key n r) := by
  intro id hop state
  obtain ⟨reply, replied, -⟩ := parseRead_getReply (cluster.get_concluded id (utf8 key)
    ((cluster.nodes id).effN n.toInt) ((cluster.nodes id).effR r.toInt) state)
  refine ⟨hop, ?_⟩
  rw [answer_here hop state (decodes_get (cluster.nodes id) clean n r) (fun _ _ => nofun), perform]
  simp only [getAt, replied, Option.getD_some]

/-- The client has the result of a read as the coordinator gave it. -/
theorem get_direct (clean : bar ∉ key) (site : Site τ) (n r : Int32) :
    ∃ result, cluster.Get site.direct key n r result
        (ClusterClient.get cluster.exchangeForKey site key n r).2.direct ∧
      (ClusterClient.get cluster.exchangeForKey site key n r).1 = result.map parsedRead := by
  have measured : ∀ result, readSize result = ((Node.getReply result).getD []).length := fun _ => rfl
  obtain ⟨result, asks, heard⟩ := (answers_get clean n r).exchange measured site key n
  refine ⟨result, asks, ?_⟩
  rw [ClusterClient.get]
  dsimp only
  rw [heard]
  rcases asks.result with ⟨id, hop, state, rfl⟩ | rfl | ⟨rfl, -⟩
  · obtain ⟨reply, replied, parsed⟩ := parseRead_getReply (cluster.get_concluded id (utf8 key)
      ((cluster.nodes id).effN n.toInt) ((cluster.nodes id).effR r.toInt) state)
    simp only [getAt, Except.map, Except.bind, replied, Option.getD_some, parsed]
  · rfl
  · rfl

theorem bar_not_mem_of_validateKey (valid : validateKey key = .ok ()) : bar ∉ key := by
  unfold validateKey at valid
  split at valid
  · cases valid
  · split at valid
    · cases valid
    · assumption

theorem captureBefore_direct (clean : bar ∉ key) (site : Site τ) (n r : Int32) :
    ∃ result, cluster.Get site.direct key n r result
        (captureBefore cluster.exchangeForKey site key n r).2.direct ∧
      (captureBefore cluster.exchangeForKey site key n r).1 = result.toOption.bind earlier := by
  obtain ⟨result, asks, same⟩ := @get_direct τ cluster key clean site n r
  refine ⟨result, ?_⟩
  unfold captureBefore
  generalize ClusterClient.get cluster.exchangeForKey site key n r = read at asks same
  obtain ⟨found, after⟩ := read
  obtain rfl : found = result.map parsedRead := same
  cases result with
  | error raised => exact ⟨asks, rfl⟩
  | ok result => exact ⟨asks, earlier_parsedRead result⟩

theorem bar_not_mem_of_validate {call : RestCall} (valid : validate call = .ok ()) : bar ∉ call.key := by
  cases call with
  | put key body n w r =>
    cases given : body.value with
    | none => rw [validate, given] at valid; cases valid
    | some value => rw [validate, given] at valid; exact bar_not_mem_of_validateKey valid
  | get key n r => exact bar_not_mem_of_validateKey valid
  | delete key clock n w principal => exact bar_not_mem_of_validateKey valid

theorem fetched_direct (key : Utf16) (result : Except Raised GetResult) :
    (result.map parsedRead).bind (fetched key) = result.bind (readAnswer key) := by
  cases result with
  | error raised => rfl
  | ok result => exact fetched_parsedRead key result

theorem put_served {service : KvService (Site τ)} {body : KvWriteRequest} {n w r : Option Int32}
    (valid : validate (.put key body n w r) = .ok ()) (up : service.nextCall = .done) :
    cluster.Serves service.direct (.put key body n w r)
      (respond .written (service.put cluster.exchangeForKey key body n w r).1)
      (service.put cluster.exchangeForKey key body n w r).2.direct := by
  obtain ⟨result, asks, same⟩ := @put_direct τ cluster key (bar_not_mem_of_validate valid) service.cluster
    (utf8 (body.value.getD [])) body.clock (orDefault n service.quorum.n) (orDefault w service.quorum.w)
    (orDefault r service.quorum.r)
  simp only [KvService.put, defaults, if_pos up]
  rw [show service.queried.cluster = service.cluster from rfl, same]
  exact .put valid up asks

theorem get_served {service : KvService (Site τ)} {n r : Option Int32} (valid : validate (.get key n r) = .ok ())
    (up : service.nextCall = .done) :
    cluster.Serves service.direct (.get key n r) (respond .value (service.get cluster.exchangeForKey key n r).1)
      (service.get cluster.exchangeForKey key n r).2.direct := by
  obtain ⟨result, asks, same⟩ := @get_direct τ cluster key (bar_not_mem_of_validate valid) service.cluster
    (orDefault n service.quorum.n) (orDefault r service.quorum.r)
  simp only [KvService.get, defaults, if_pos up]
  rw [show service.queried.cluster = service.cluster from rfl, same, fetched_direct]
  exact .get valid up asks

theorem finishDelete_direct (service : KvService (Site τ)) (row : AuditLogEntity)
    (answer : Except Raised (Option Utf16)) : service.direct.finishDelete row answer =
      ((service.finishDelete row answer).1, (service.finishDelete row answer).2.direct) := by
  cases answer with
  | error raised => rfl
  | ok clock =>
    simp only [finishDelete, record, show service.direct.nextCall = service.nextCall from rfl]
    cases service.nextCall <;> rfl

theorem delete_served {service : KvService (Site τ)} {clock : Option Utf16} {n w : Option Int32}
    {principal : Option Utf16} (valid : validate (.delete key clock n w principal) = .ok ())
    (up : service.nextCall = .done) :
    cluster.Serves service.direct (.delete key clock n w principal)
      (respond .written (service.delete cluster.exchangeForKey key clock n w (actor principal)).1)
      (service.delete cluster.exchangeForKey key clock n w (actor principal)).2.direct := by
  have clean := bar_not_mem_of_validate valid
  obtain ⟨found, read, before⟩ := @captureBefore_direct τ cluster key clean service.cluster
    (orDefault n service.quorum.n) service.quorum.r
  simp only [KvService.delete, defaults, if_pos up]
  rw [show service.queried.cluster = service.cluster from rfl]
  generalize captureBefore cluster.exchangeForKey service.cluster key (orDefault n service.quorum.n)
    service.quorum.r = captured at read before
  obtain ⟨value, site⟩ := captured
  obtain rfl : value = _ := before
  obtain ⟨result, asks, same⟩ := @delete_direct τ cluster key clean site clock (orDefault n service.quorum.n)
    (orDefault w service.quorum.w)
  generalize ClusterClient.delete cluster.exchangeForKey site key clock (orDefault n service.quorum.n)
    (orDefault w service.quorum.w) = deleted at asks same
  obtain ⟨outcome, after⟩ := deleted
  dsimp only at same ⊢
  rw [same]
  exact .delete valid up read asks (finishDelete_direct { service.queried with cluster := after } _ _)

theorem serve_direct (service : KvService (Site τ)) (call : RestCall) :
    cluster.Serves service.direct call (KvController.serve cluster.exchangeForKey service call).1
      (KvController.serve cluster.exchangeForKey service call).2.direct := by
  unfold KvController.serve
  cases valid : validate call with
  | error raised => exact .rejected valid
  | ok done =>
    by_cases up : service.nextCall = .done
    · cases call with
      | put key body n w r => exact put_served valid up
      | get key n r => exact get_served valid up
      | delete key clock n w principal => exact delete_served valid up
    · cases call with
      | put key body n w r =>
        simp only [dispatch, KvService.put, defaults, if_neg up]
        exact .unconfigured valid up
      | get key n r =>
        simp only [dispatch, KvService.get, defaults, if_neg up]
        exact .unconfigured valid up
      | delete key clock n w principal =>
        simp only [dispatch, KvService.delete, defaults, if_neg up]
        exact .unconfigured valid up

end Calls

end Deployment

end MiniDynamo.Gateway
