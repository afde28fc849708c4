import MiniDynamo.Library.ClusterFacts
import MiniDynamo.Replication.QuorumRead

/-! Where the versions in a cluster come from. Clients write and read through any node, replicas are written
and repaired, hints are kept for nodes that are away and handed over later, and requests are lost, repeated
and late: whatever happens, every version there is goes back to writes of its own key. -/

namespace MiniDynamo

open ReplicaOps (replicateThen)

/-- What a node is busy with: a client's call, with the ring and the liveness of the members as its
coordinator finds them, or a hint that the handoff thread delivers. -/
inductive Duty where
  | client (coordinator : Coordinator) (call : ClientCall)
  | handoff (target : NodeInfo) (key : Bytes) (value : VersionedValue)

inductive DutyResult where
  | client (outcome : Outcome)
  | delivered (ok : Bool)
  deriving DecidableEq

namespace Duty

def key : Duty → Bytes
  | .client _ call => call.key
  | .handoff _ key _ => key

/-- `deliver_fn`. The origin of its payload says `hint`, which no replica reads. -/
def deliverHint (target : NodeInfo) (key : Bytes) (value : VersionedValue) : NodeProgram DutyResult := do
  Process.emit [.request (.writeReplica target key value)]
  let replies ← Process.receive
  return .delivered (decide (.write ⟨true⟩ ∈ replies.map Prod.snd))

def program (client : ReplicaClient) : Duty → NodeProgram DutyResult
  | .client coordinator call => do return .client (← call.program coordinator client)
  | .handoff target key value => deliverHint target key value

end Duty

abbrev DutyCluster := Cluster Bytes Bytes Bytes Duty Request Reply Outgoing DutyResult

def dutyProtocol (client : ReplicaClient) : Protocol Bytes Bytes Bytes Duty Request Reply Outgoing DutyResult where
  call _ duty := duty.program client
  serve ticket request := do return .client (← client.serve ticket request)
  target request := request.peer.nodeId
  request
    | .request request => some request
    | .storeHint _ _ _ => none
  answer
    | .client (.served ticket reply) => some (ticket, reply)
    | _ => none
  failed
    | .write result => !result.ok
    | .read result => !result.ok

/-- A hint in the store of a node. -/
structure KeptHint where
  node : Bytes
  target : Bytes
  key : Bytes
  value : VersionedValue

/-- The nodes, and every hint that any of them has stored. A hint may be delivered at any time and, if its
delivery fails, again. -/
structure HintedCluster where
  cluster : DutyCluster
  hints : List KeptHint

inductive StoreAction where
  | call (node : Bytes) (coordinator : Coordinator) (call : ClientCall)
  | handoff (index : Nat) (host : Bytes) (port : UInt16)
  | deliver (index : Nat)
  | lose (index : Nat)
  | run (node : Bytes) (thread : Nat) (replies : Replies)

namespace HintedCluster

/-- The event of the cluster that an action is. -/
def event (hints : List KeptHint) : StoreAction → Option (Event Bytes Duty Reply)
  | .call node coordinator call => some (.call node (.client coordinator call))
  | .handoff index host port => hints[index]?.map (fun hint =>
      .call hint.node (.handoff ⟨hint.target, host, port⟩ hint.key hint.value))
  | .deliver index => some (.deliver index)
  | .lose index => some (.lose index)
  | .run node thread replies => some (.run node thread replies)

/-- The hints among the messages of a node. -/
def hintsIn (node : Bytes) (sent : List Outgoing) : List KeptHint :=
  sent.filterMap (fun message =>
    match message with
    | .storeHint target key value => some ⟨node, target, key, value⟩
    | .request _ => none)

/-- The hints that an event stores. -/
def newHints (cluster : DutyCluster) : Event Bytes Duty Reply → List KeptHint
  | .run node thread replies =>
    match (cluster.nodes node).step thread replies with
    | some (_, sent) => hintsIn node sent
    | none => []
  | _ => []

def step (client : ReplicaClient) (world : HintedCluster) (action : StoreAction) : Option HintedCluster := do
  let event ← event world.hints action
  let next ← Cluster.step (dutyProtocol client) world.cluster event
  return ⟨next, world.hints ++ newHints world.cluster event⟩

def run (client : ReplicaClient) : HintedCluster → List StoreAction → Option HintedCluster
  | world, [] => some world
  | world, action :: rest => (step client world action).bind (fun next => next.run client rest)

/-- Nobody has called yet. -/
def start (stores : Bytes → Storage) : HintedCluster := ⟨Cluster.start stores, []⟩

theorem run_concat {client : ReplicaClient} {world middle next : HintedCluster} {actions : List StoreAction}
    {action : StoreAction} (ran : world.run client actions = some middle)
    (stepped : step client middle action = some next) : world.run client (actions ++ [action]) = some next := by
  induction actions generalizing world with
  | nil =>
    cases ran
    simp [run, stepped]
  | cons first rest ih =>
    obtain ⟨after, moved, continues⟩ := Option.bind_eq_some_iff.mp ran
    exact Option.bind_eq_some_iff.mpr ⟨after, moved, ih continues⟩

end HintedCluster

/-- At some point of the run this is what the node holds under the key. -/
def FoundAt (client : ReplicaClient) (stores : Bytes → Storage) (actions : List StoreAction) (node key : Bytes)
    (copy : Option Bytes) : Prop :=
  ∃ earlier world, earlier <+: actions ∧ (HintedCluster.start stores).run client earlier = some world ∧
    world.cluster.held node key = copy

/-- Where a version of a key comes from: it was there from the start, a client's write made it of the copy that its
node held, or it is what arrives of such a version at another node. -/
inductive Origin {client : ReplicaClient} (transport : Transport client) (stores : Bytes → Storage)
    (actions : List StoreAction) (key : Bytes) : VersionedValue → Prop
  | initial (node bytes : Bytes) (held : (stores node)[key]? = some bytes) :
      Origin transport stores actions key (VersionedValue.deserialize bytes)
  | written (node : Bytes) (coordinator : Coordinator) (operation : Write) (copy : Option Bytes)
      (called : .call node coordinator (.write key operation) ∈ actions)
      (found : FoundAt client stores actions node key copy)
      (known : ∀ bytes, copy = some bytes → Origin transport stores actions key (VersionedValue.deserialize bytes)) :
      Origin transport stores actions key (operation.version coordinator copy)
  | carried (version : VersionedValue) (origin : Origin transport stores actions key version) :
      Origin transport stores actions key (transport.carry version)

section Programs

variable {Result : Type} (Found : Bytes → Option Bytes → Prop) (Genuine : Bytes → VersionedValue → Prop) (key : Bytes)

/-- A message about the key with a version that is genuine, if it carries one. -/
def BackedMessage : Outgoing → Prop
  | .request (.writeReplica _ target value) => target = key ∧ Genuine key value
  | .request (.readReplica _ target) => target = key
  | .storeHint _ target value => target = key ∧ Genuine key value

def BackedReply : Reply → Prop
  | .write _ => True
  | .read result => result.ok = true → result.found = true → Genuine key result.value

/-- What a program about the key relies on and guarantees. -/
def backing (returns : Result → Prop) : Contract Bytes Bytes Replies Outgoing Result where
  readable target held :=
    (∀ bytes, held = some bytes → Genuine target (VersionedValue.deserialize bytes)) ∧ Found target held
  receivable replies := ∀ reply ∈ replies, BackedReply Genuine key reply.2
  writes _ target bytes := Genuine target (VersionedValue.deserialize bytes)
  sends messages := ∀ message ∈ messages, BackedMessage Genuine key message
  returns := returns

/-- Every version among the responses is genuine. -/
def BackedResponses (responses : List Resp) : Prop :=
  ∀ response ∈ responses, response.found = true → Genuine key response.vv

variable {Found Genuine key} {coordinator : Coordinator} {seen : Option Bytes} {vv : VersionedValue}

variable (sound : ∀ target value, Genuine target value → value.clock.WireSafe)
include sound

/-- A genuine version is still genuine when it is read from the store again. -/
theorem genuine_stored (genuine : Genuine key vv) : Genuine key (VersionedValue.deserialize vv.serialize) := by
  rwa [VersionedValue.deserialize_serialize (sound key vv genuine)]

/-- A program that only spreads a genuine version of the key. -/
theorem backing_of_only {returns : Result → Prop} {program : NodeProgram Result} (genuine : Genuine key vv)
    (only : program.Only (fun target bytes => target = key ∧ bytes = vv.serialize) (Coordinator.Carries key vv)
      returns) : program.Keeps (backing Found Genuine key returns) seen := by
  refine only.keeps ?_ ?_ (fun _ returned => returned)
  · rintro target bytes ⟨rfl, rfl⟩
    exact genuine_stored sound genuine
  · intro sent carries message member
    have carried := carries message member
    cases message with
    | storeHint target other value =>
      obtain ⟨rfl, rfl⟩ := carried
      exact ⟨rfl, genuine⟩
    | request request =>
      cases request with
      | writeReplica peer other value =>
        obtain ⟨rfl, rfl⟩ := carried
        exact ⟨rfl, genuine⟩
      | readReplica peer other => exact carried.elim

theorem Coordinator.conclude_backing {responses : List Resp} (backed : BackedResponses Genuine key responses) :
    (coordinator.conclude key responses).Keeps
      (backing Found Genuine key fun result => ∀ version ∈ result.values, Genuine key version) seen := by
  have found : ∀ version ∈ maximalVersions responses, Genuine key version := by
    intro version member
    obtain ⟨response, present, found, rfl⟩ := mem_maximalVersions member
    exact backed response present found
  unfold conclude
  split
  · exact nofun
  · rename_i dominant only
    rw [only] at found
    have repairs : (coordinator.repairStale key dominant responses).Only
        (fun target bytes => target = key ∧ bytes = dominant.serialize) (Carries key dominant) (fun _ => True) :=
      repairStale_only (fun _ _ _ _ => ⟨rfl, rfl⟩) (fun _ _ _ _ => ⟨rfl, rfl⟩)
    refine (backing_of_only sound (found dominant (List.mem_singleton_self dominant)) repairs).bind (fun _ _ _ => ?_)
    split
    · exact nofun
    · exact found
  · exact found

omit sound in
theorem Coordinator.placeReads_backing (rest : List NodeInfo) (responses : List Resp) (remotes : List NodeInfo)
    (backed : BackedResponses Genuine key responses) :
    (coordinator.placeReads key rest responses remotes).Keeps
      (backing Found Genuine key fun placed => BackedResponses Genuine key placed.1) seen := by
  induction rest generalizing responses remotes seen with
  | nil => exact backed
  | cons owner rest ih =>
    rw [placeReads]
    split
    · intro stored readable
      apply ih
      intro response member found
      rcases List.mem_append.mp member with old | own
      · exact backed response old found
      · obtain rfl := List.mem_singleton.mp own
        cases stored with
        | none => cases found
        | some bytes => exact readable.1 bytes rfl
    · split
      · exact ih responses remotes backed
      · exact ih responses _ backed

theorem Coordinator.coordinateGet_backing (n r : Int) :
    (coordinator.coordinateGet key n r).Keeps
      (backing Found Genuine key fun result => ∀ version ∈ result.values, Genuine key version) seen := by
  unfold coordinateGet
  split
  · trivial
  · exact nofun
  · refine (placeReads_backing _ [] [] nofun).bind (fun later placed own => ⟨?_, fun replies told => ?_⟩)
    · intro message member
      obtain ⟨peer, -, rfl⟩ := List.mem_map.mp member
      rfl
    · show (coordinator.settle key r placed.1 placed.2 replies).Keeps _ later
      unfold settle
      dsimp only
      split
      · exact nofun
      · apply conclude_backing sound
        intro response member found
        rcases List.mem_append.mp member with mine | remote
        · exact own response mine found
        · obtain ⟨position, result, present, -, ok, same, value⟩ := mem_answers remote
          rw [value]
          exact told _ present ok (same ▸ found)

/-- The versions that a call returns are genuine, and it answers nobody. -/
def BackedOutcome (Genuine : Bytes → VersionedValue → Prop) (key : Bytes) : Outcome → Prop
  | .read result => ∀ version ∈ result.values, Genuine key version
  | .written _ => True
  | .served _ _ => False

theorem ClientCall.program_backing (client : ReplicaClient) (call : ClientCall)
    (made : ∀ key operation stored, call = .write key operation →
      (∀ bytes, stored = some bytes → Genuine key (VersionedValue.deserialize bytes)) → Found key stored →
        Genuine key (operation.version coordinator stored)) :
    (call.program coordinator client).Keeps (backing Found Genuine call.key (BackedOutcome Genuine call.key)) none := by
  cases call with
  | write key operation =>
    rw [ClientCall.program, Call.program, operation.program_eq]
    rintro stored ⟨known, found⟩
    exact (backing_of_only sound (made key operation stored rfl known found)
      (coordinator.writeQuorum_carries key _ operation.n operation.w)).bind (fun _ _ _ => trivial)
  | get key n r => exact (Coordinator.coordinateGet_backing sound n r).bind (fun _ _ found => found)

end Programs

section Provenance

variable {client : ReplicaClient} (transport : Transport client) (stores : Bytes → Storage)
variable (actions : List StoreAction)

/-- The version goes back to writes of its key, and its clock is one that a token can carry. -/
def Genuine (key : Bytes) (version : VersionedValue) : Prop :=
  version.clock.WireSafe ∧ Origin transport stores actions key version

/-- The node and the key of a call can be put into messages, and the context of a write into clocks. -/
def Fit : StoreAction → Prop
  | .call node coordinator call => transport.Clean node ∧ transport.Clean call.key ∧
      ∀ key operation, call = .write key operation →
        isValidNodeId coordinator.self.nodeId = true ∧ operation.context.WireSafe
  | _ => True

/-- What a node may be busy with: calls of the run, and genuine hints. -/
def Permitted (node : Bytes) : Duty → Prop
  | .client coordinator call => .call node coordinator call ∈ actions ∧ Fit transport (.call node coordinator call)
  | .handoff _ key value => transport.Clean node ∧ transport.Clean key ∧ Genuine transport stores actions key value

def provenance : Facts Bytes Bytes Bytes Duty Reply Outgoing DutyResult where
  stored _ key bytes := Genuine transport stores actions key (VersionedValue.deserialize bytes)
  found node key copy := FoundAt client stores actions node key copy
  sent duty message := BackedMessage (Genuine transport stores actions) duty.key message
  replied duty reply := BackedReply (Genuine transport stores actions) duty.key reply
  result duty
    | .client (.read result) => ∀ version ∈ result.values, Genuine transport stores actions duty.key version
    | _ => True

variable {transport stores actions} {key : Bytes}

theorem Genuine.carried {version : VersionedValue} (genuine : Genuine transport stores actions key version) :
    Genuine transport stores actions key (transport.carry version) :=
  ⟨by rw [transport.carry_clock]; exact genuine.1, .carried version genuine.2⟩

theorem Permitted.clean {node : Bytes} {duty : Duty} (permitted : Permitted transport stores actions node duty) :
    transport.Clean node ∧ transport.Clean duty.key := by
  cases duty with
  | client coordinator call => exact ⟨permitted.2.1, permitted.2.2.1⟩
  | handoff target key value => exact ⟨permitted.1, permitted.2.1⟩

theorem provenance_call (node : Bytes) (duty : Duty) (permitted : Permitted transport stores actions node duty) :
    (duty.program client).Keeps ((provenance transport stores actions).calling (dutyProtocol client) node duty)
      none := by
  cases duty with
  | client coordinator call =>
    obtain ⟨called, -, -, fit⟩ := permitted
    have made : ∀ key operation stored, call = .write key operation →
        (∀ bytes, stored = some bytes → Genuine transport stores actions key (VersionedValue.deserialize bytes)) →
        FoundAt client stores actions node key stored →
          Genuine transport stores actions key (operation.version coordinator stored) := by
      rintro key operation stored rfl known found
      obtain ⟨valid, safe⟩ := fit key operation rfl
      exact ⟨Write.version_wireSafe valid safe,
        .written node coordinator operation stored called found (fun bytes held => (known bytes held).2)⟩
    refine (ClientCall.program_backing (fun _ _ genuine => genuine.1) client call made).bind ?_
    intro _ outcome backed
    cases outcome with
    | written result => exact ⟨trivial, rfl⟩
    | read result => exact ⟨backed, rfl⟩
    | served ticket reply => exact backed.elim
  | handoff target key value =>
    refine ⟨?_, fun _ _ => ⟨trivial, rfl⟩⟩
    intro message member
    obtain rfl := List.mem_singleton.mp member
    exact ⟨rfl, permitted.2.2⟩

/-- A replica stores what it is sent, as it arrives. -/
theorem provenance_write (node : Bytes) {ticket : Ticket Bytes} {duty : Duty} {peer : NodeInfo}
    {value : VersionedValue} (clean : transport.Clean ticket.origin ∧ transport.Clean duty.key)
    (genuine : Genuine transport stores actions duty.key value) :
    ((dutyProtocol client).serve ticket (.writeReplica peer duty.key value)).Keeps
      ((provenance transport stores actions).serving (dutyProtocol client) node ticket duty) none := by
  obtain ⟨incoming, same, carried⟩ := transport.serve_write clean.1 clean.2 peer value
  have answered : ∀ entry, some (ticket, Reply.write ⟨true⟩) = some entry →
      entry.1 = ticket ∧ BackedReply (Genuine transport stores actions) duty.key entry.2 := by
    rintro entry ⟨⟩
    exact ⟨rfl, trivial⟩
  show (client.serve ticket (.writeReplica peer duty.key value) >>= fun outcome =>
    .done (DutyResult.client outcome)).Keeps _ none
  rw [same, ReplicaOps.replicateThen_bind, carried genuine.1]
  intro stored _
  dsimp only
  split
  · exact answered
  · exact ⟨genuine_stored (fun _ _ genuine => genuine.1) genuine.carried, answered⟩

/-- A replica reports what it holds. -/
theorem provenance_read (node : Bytes) {ticket : Ticket Bytes} {duty : Duty} {peer : NodeInfo}
    (clean : transport.Clean ticket.origin ∧ transport.Clean duty.key) :
    ((dutyProtocol client).serve ticket (.readReplica peer duty.key)).Keeps
      ((provenance transport stores actions).serving (dutyProtocol client) node ticket duty) none := by
  show (client.serve ticket (.readReplica peer duty.key) >>= fun outcome =>
    .done (DutyResult.client outcome)).Keeps _ none
  rw [transport.serve_read clean.1 clean.2 peer]
  rintro stored readable entry ⟨⟩
  refine ⟨rfl, fun _ found => ?_⟩
  cases stored with
  | none =>
    rw [Option.map_none, transport.report_none] at found
    cases found
  | some bytes =>
    have copy := readable bytes rfl
    rw [Option.map_some] at found ⊢
    rw [transport.report_some _ copy.1 found]
    exact copy.carried

theorem provenance_upheld :
    (provenance transport stores actions).Upheld (dutyProtocol client) (Permitted transport stores actions) where
  call := provenance_call
  serve ticket duty message request permitted backed asked := by
    cases message with
    | storeHint target key value => cases asked
    | request sent =>
      cases asked
      cases request with
      | writeReplica peer key value =>
        obtain ⟨rfl, genuine⟩ := backed
        exact provenance_write peer.nodeId permitted.clean genuine
      | readReplica peer key =>
        cases backed
        exact provenance_read peer.nodeId permitted.clean
  failed duty reply failed := by
    cases reply with
    | write result => trivial
    | read result =>
      intro ok
      simp [dutyProtocol, ok] at failed

/-- The facts hold, and the hints that are kept are genuine. -/
structure Traced (transport : Transport client) (stores : Bytes → Storage) (actions : List StoreAction)
    (world : HintedCluster) : Prop where
  established : (provenance transport stores actions).Established (dutyProtocol client)
    (Permitted transport stores actions) world.cluster
  hints : ∀ hint ∈ world.hints, transport.Clean hint.node ∧ transport.Clean hint.key ∧
    Genuine transport stores actions hint.key hint.value

variable {world next final : HintedCluster}

theorem traced_start : Traced transport stores actions (HintedCluster.start stores) := by
  refine ⟨Facts.established_start (fun node key bytes held => ?_), nofun⟩
  exact ⟨VersionedValue.deserialize_wireSafe bytes, .initial node bytes held⟩

/-- The hints that an event stores are genuine. -/
theorem Traced.newHints (traced : Traced transport stores actions world)
    (visited : ∀ node key, FoundAt client stores actions node key (world.cluster.held node key))
    {event : Event Bytes Duty Reply} {after : DutyCluster}
    (stepped : Cluster.step (dutyProtocol client) world.cluster event = some after)
    {hint : KeptHint} (member : hint ∈ HintedCluster.newHints world.cluster event) :
    transport.Clean hint.node ∧ transport.Clean hint.key ∧ Genuine transport stores actions hint.key hint.value := by
  cases event with
  | call node duty => cases member
  | deliver index => cases member
  | lose index => cases member
  | run node thread replies =>
    rw [HintedCluster.newHints] at member
    split at member
    · rename_i pool sent moved
      obtain ⟨message, posted, kept⟩ := List.mem_filterMap.mp member
      have proper := traced.established.proper provenance_upheld visited (Cluster.receivable_of_step stepped) moved
      obtain ⟨started, called, rfl, rfl, backed⟩ := proper.sends message posted
      have clean := (traced.established.calls started called).1.clean
      cases message with
      | request request => cases kept
      | storeHint target key value =>
        cases kept
        obtain ⟨rfl, genuine⟩ := backed
        exact ⟨clean.1, clean.2, genuine⟩
    · cases member

theorem Traced.step (traced : Traced transport stores actions world)
    (visited : ∀ node key, FoundAt client stores actions node key (world.cluster.held node key))
    {action : StoreAction} (member : action ∈ actions) (fit : Fit transport action)
    (stepped : HintedCluster.step client world action = some next) : Traced transport stores actions next := by
  obtain ⟨event, occurs, moved⟩ := Option.bind_eq_some_iff.mp stepped
  obtain ⟨after, advanced, same⟩ := Option.bind_eq_some_iff.mp moved
  cases same
  refine ⟨traced.established.step provenance_upheld visited ?_ advanced, fun hint kept => ?_⟩
  · rintro node duty rfl
    cases action with
    | call node coordinator call =>
      cases occurs
      exact ⟨member, fit⟩
    | handoff index host port =>
      obtain ⟨hint, found, same⟩ := Option.map_eq_some_iff.mp occurs
      cases same
      exact traced.hints hint (List.mem_of_getElem? found)
    | deliver index => cases occurs
    | lose index => cases occurs
    | run node thread replies => cases occurs
  · rcases List.mem_append.mp kept with before | new
    · exact traced.hints hint before
    · exact traced.newHints visited advanced new

/-- From any point that the run reaches to its end. -/
theorem Traced.run {earlier rest : List StoreAction} (whole : earlier ++ rest = actions)
    (reached : (HintedCluster.start stores).run client earlier = some world)
    (traced : Traced transport stores actions world) (fit : ∀ action ∈ actions, Fit transport action)
    (ran : world.run client rest = some final) : Traced transport stores actions final := by
  induction rest generalizing world earlier with
  | nil =>
    cases ran
    exact traced
  | cons action rest ih =>
    obtain ⟨next, stepped, continues⟩ := Option.bind_eq_some_iff.mp ran
    have member : action ∈ actions := by simp [← whole]
    have visited : ∀ node key, FoundAt client stores actions node key (world.cluster.held node key) :=
      fun node key => ⟨earlier, world, ⟨_, whole⟩, reached, rfl⟩
    have longer : (earlier ++ [action]) ++ rest = actions := by rw [List.append_assoc]; exact whole
    exact ih longer (HintedCluster.run_concat reached stepped)
      (traced.step visited member (fit action member) stepped) continues

end Provenance

/-- Nothing is made up: over any run of client calls, replica requests, read repairs and handoffs, in any
order, with requests lost, repeated or late, every version that a node holds, that waits as a hint or that a
read returns was there from the start or was made by a write of the same key from the copy its node held, or is
what another node received of such a version. -/
theorem nothing_made_up {client : ReplicaClient} (transport : Transport client) (stores : Bytes → Storage)
    (actions : List StoreAction) (fit : ∀ action ∈ actions, Fit transport action) {final : HintedCluster}
    (ran : (HintedCluster.start stores).run client actions = some final) :
    (∀ node key bytes, final.cluster.held node key = some bytes →
      Genuine transport stores actions key (VersionedValue.deserialize bytes)) ∧
    (∀ hint ∈ final.hints, Genuine transport stores actions hint.key hint.value) ∧
    ∀ started ∈ final.cluster.called, ∀ coordinator key n r result,
      started.call = .client coordinator (.get key n r) →
      final.cluster.returned started.node started.thread = some (.client (.read result)) →
        ∀ version ∈ result.values, Genuine transport stores actions key version := by
  have traced : Traced transport stores actions final :=
    Traced.run (List.nil_append actions) rfl traced_start fit ran
  refine ⟨traced.established.stores, fun hint kept => (traced.hints hint kept).2.2, ?_⟩
  intro started member coordinator key n r result same returned
  have found := traced.established.returned member returned
  rw [same] at found
  exact found

/-- A node of three that takes `c` for dead. -/
def withoutThird (id : Bytes) : Coordinator :=
  { nodeOfThree id with isAliveFn := some (· ≠ ascii "c"), hintStore := true }

/-- Node `b` writes while `c` is away, hands its hint over when `c` is back, and `c` reads. -/
def handedOver : List StoreAction :=
  [.call (ascii "b") (withoutThird (ascii "b")) (.write (ascii "k") ⟨some (ascii "x"), .empty, 3, 1, 5⟩),
    .run (ascii "b") 0 [], .run (ascii "b") 0 [], .run (ascii "b") 0 [], .run (ascii "b") 0 [], .run (ascii "b") 0 [],
    .handoff 0 (ascii "h") 3, .run (ascii "b") 1 [], .deliver 1, .run (ascii "c") 0 [], .run (ascii "c") 0 [],
    .run (ascii "b") 1 [(0, .write ⟨true⟩)], .call (ascii "c") (nodeOfThree (ascii "c")) (.get (ascii "k") 3 1),
    .run (ascii "c") 1 [], .run (ascii "c") 1 [], .run (ascii "c") 1 []]

theorem fit_handedOver : ∀ action ∈ handedOver, Fit Transport.pooled action := by
  have clean : pipe ∉ ascii "b" ∧ pipe ∉ ascii "c" ∧ pipe ∉ ascii "k" := by decide
  have valid : isValidNodeId (ascii "b") = true ∧ VectorClock.empty.WireSafe := by decide
  simp only [handedOver, List.forall_mem_cons]
  refine ⟨⟨clean.1, clean.2.2, ?_⟩, trivial, trivial, trivial, trivial, trivial, trivial, trivial, trivial, trivial,
    trivial, trivial, ⟨clean.2.1, clean.2.2, fun key operation same => by cases same⟩, trivial, trivial, trivial, nofun⟩
  rintro key operation ⟨⟩
  exact valid

def afterHandover : HintedCluster :=
  ((HintedCluster.start fun _ => ∅).run .pooled handedOver).getD (HintedCluster.start fun _ => ∅)

theorem nothing_made_up_handedOver :
    afterHandover.cluster.returned (ascii "c") 1 = some (.client (.read ⟨.ok, [Wire.arrived firstVersion], []⟩)) ∧
      Genuine Transport.pooled (fun _ => ∅) handedOver (ascii "k") (Wire.arrived firstVersion) := by
  have returned : afterHandover.cluster.returned (ascii "c") 1 =
      some (.client (.read ⟨.ok, [Wire.arrived firstVersion], []⟩)) := by decide +kernel
  refine ⟨returned, ?_⟩
  have called : (⟨ascii "c", 1, .client (nodeOfThree (ascii "c")) (.get (ascii "k") 3 1)⟩ : Started Bytes Duty) ∈
      afterHandover.cluster.called := List.mem_of_getElem? (i := 2) rfl
  exact (nothing_made_up Transport.pooled (fun _ => ∅) handedOver fit_handedOver rfl).2.2 _ called _ (ascii "k") 3 1 _
    rfl returned _ (List.mem_singleton_self _)

end MiniDynamo
