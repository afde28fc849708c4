import MiniDynamo.Library.ClusterInvariant
import MiniDynamo.Node.Calls

/-! The nodes of the store as one cluster: clients call any node, coordinators ask the
replicas, and the replicas answer. -/

namespace MiniDynamo

/-- A client's call of one node. -/
inductive ClientCall where
  | write (key : Bytes) (operation : Write)
  | get (key : Bytes) (n r : Int)

namespace ClientCall

def key : ClientCall → Bytes
  | .write key _ => key
  | .get key _ _ => key

def program (coordinator : Coordinator) (client : ReplicaClient) : ClientCall → NodeProgram Outcome
  | .write key operation => (Call.write operation).program coordinator client key
  | .get key n r => (Call.get n r).program coordinator client key

end ClientCall

namespace Request

def peer : Request → NodeInfo
  | .writeReplica peer _ _ => peer
  | .readReplica peer _ => peer

def key : Request → Bytes
  | .writeReplica _ key _ => key
  | .readReplica _ key => key

end Request

abbrev StoreCluster := Cluster Bytes Bytes Bytes ClientCall Request Reply Outgoing Outcome

abbrev StoreEvent := Event Bytes ClientCall Reply

def storeProtocol (coordinators : Bytes → Coordinator) (client : ReplicaClient) :
    Protocol Bytes Bytes Bytes ClientCall Request Reply Outgoing Outcome where
  call node call := call.program (coordinators node) client
  serve := client.serve
  target request := request.peer.nodeId
  request
    | .request request => some request
    | .storeHint _ _ _ => none
  answer
    | .served ticket reply => some (ticket, reply)
    | _ => none
  failed
    | .write result => !result.ok
    | .read result => !result.ok

theorem served_of_answer {coordinators : Bytes → Coordinator} {client : ReplicaClient} {outcome : Outcome}
    {ticket : Ticket Bytes} {reply : Reply}
    (answers : (storeProtocol coordinators client).answer outcome = some (ticket, reply)) :
    outcome = .served ticket reply := by
  cases outcome with
  | written result => cases answers
  | read result => cases answers
  | served own given =>
    cases answers
    rfl

theorem storeProtocol_lawful (coordinators : Bytes → Coordinator) (client : ReplicaClient) :
    Cluster.Lawful (storeProtocol coordinators client) where
  call node call := by
    cases call with
    | write key operation =>
      exact (Process.keeps_returning_true (operation.program (coordinators node) key) none).bind (fun _ _ _ => rfl)
    | get key n r =>
      exact (Process.keeps_returning_true ((coordinators node).coordinateGet key n r) none).bind (fun _ _ _ => rfl)
  serve ticket request := by
    cases request with
    | writeReplica peer key value =>
      refine (Process.keeps_returning_true (client.writeReplica ticket.origin key value) none).bind (fun _ _ _ => ?_)
      rintro entry ⟨⟩
      rfl
    | readReplica peer key =>
      refine (Process.keeps_returning_true (client.readReplica ticket.origin key) none).bind (fun _ _ _ => ?_)
      rintro entry ⟨⟩
      rfl

section About

variable {Result : Type}

/-- Writes and requests are all of one key. -/
def about (key : Bytes) : Contract Bytes Bytes Replies Outgoing Result where
  readable _ _ := True
  receivable _ := True
  writes _ target _ := target = key
  sends messages := ∀ request, .request request ∈ messages → request.key = key
  returns _ := True

variable {coordinator : Coordinator} {key : Bytes} {seen : Option Bytes}

theorem Coordinator.writeQuorum_about (vv : VersionedValue) (n w : Int) (seen : Option Bytes) :
    (coordinator.writeQuorum key vv n w).Keeps (about key) seen := by
  refine (coordinator.writeQuorum_carries key vv n w).keeps (fun _ _ written => written.1) ?_ (fun _ _ => trivial)
  intro sent carries request member
  cases request with
  | writeReplica peer target value => exact (carries _ member).1
  | readReplica peer target => exact (carries _ member).elim

theorem Coordinator.placeReads_about (rest : List NodeInfo) (responses : List Resp) (remotes : List NodeInfo)
    (seen : Option Bytes) : (coordinator.placeReads key rest responses remotes).Keeps (about key) seen := by
  induction rest generalizing responses remotes seen with
  | nil => exact trivial
  | cons owner rest ih =>
    rw [placeReads]
    split
    · exact fun stored _ => ih _ _ _
    · split
      · exact ih _ _ _
      · exact ih _ _ _

theorem Coordinator.conclude_about (responses : List Resp) (seen : Option Bytes) :
    (coordinator.conclude key responses).Keeps (about key) seen := by
  have only : (coordinator.conclude key responses).Only (fun target _ => target = key)
      (fun message => ∀ request, message = .request request → request.key = key) (fun _ => True) := by
    refine conclude_only (fun _ => trivial) (fun dominant _ => ⟨?_, trivial⟩) (fun _ _ _ _ => trivial)
    refine repairStale_only (fun _ _ _ _ => rfl) (fun response _ _ _ request same => ?_)
    rw [← Outgoing.request.inj same]
    rfl
  exact only.keeps (fun _ _ written => written) (fun _ sent request member => sent _ member request rfl)
    (fun _ _ => trivial)

theorem Coordinator.coordinateGet_about (n r : Int) (seen : Option Bytes) :
    (coordinator.coordinateGet key n r).Keeps (about key) seen := by
  unfold coordinateGet
  split
  · trivial
  · trivial
  · refine (coordinator.placeReads_about _ [] [] seen).bind (fun later placed _ => ⟨?_, fun replies _ => ?_⟩)
    · intro request member
      obtain ⟨peer, -, same⟩ := List.mem_map.mp member
      cases same
      rfl
    · show (coordinator.settle key r placed.1 placed.2 replies).Keeps (about key) later
      unfold settle
      simp only
      split
      · trivial
      · exact coordinator.conclude_about _ later

theorem ClientCall.program_about (coordinator : Coordinator) (client : ReplicaClient) (call : ClientCall) :
    (call.program coordinator client).Keeps (about call.key) none := by
  cases call with
  | write key operation =>
    rw [ClientCall.program, Call.program, operation.program_eq]
    exact fun stored _ => (coordinator.writeQuorum_about _ operation.n operation.w stored).bind (fun _ _ _ => trivial)
  | get key n r => exact (coordinator.coordinateGet_about n r none).bind (fun _ _ _ => trivial)

end About

end MiniDynamo
