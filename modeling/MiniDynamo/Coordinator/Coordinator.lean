import MiniDynamo.Net.Wire
import MiniDynamo.Ring.Router

/-! The coordinator: quorum writes, quorum reads and read repair, as programs of one
thread of a node. A fan-out is one `send`; the wait for it receives the replies that were
there when the thread went on, in their order of arrival, each with the position of its
request in the fan-out. -/

namespace MiniDynamo

/-- A request to a replica. -/
inductive Request where
  | writeReplica (peer : NodeInfo) (key : Bytes) (value : VersionedValue)
  | readReplica (peer : NodeInfo) (key : Bytes)
  deriving DecidableEq

/-- What a coordinator starts on its way: requests to replicas, and hints for its own store. -/
inductive Outgoing where
  | request (request : Request)
  | storeHint (target key : Bytes) (value : VersionedValue)
  deriving DecidableEq

inductive Reply where
  | write (result : ReplicaWriteResult)
  | read (result : ReplicaReadResult)
  deriving DecidableEq

abbrev Replies := List (Nat × Reply)

abbrev NodeProgram (Result : Type) := StorageProgram Replies Outgoing Result

/-- The threads of one node over its storage. -/
abbrev NodePool (Result : Type) := Pool Bytes Bytes Replies Outgoing Result

abbrev NodeThread (Result : Type) := Thread Bytes Bytes Replies Outgoing Result

structure PutResult where
  ok : Bool
  clock : VectorClock
  error : Bytes
  deriving DecidableEq

inductive GetStatus where
  | ok
  | siblings
  | notFound
  | error
  deriving DecidableEq

structure GetResult where
  status : GetStatus
  values : List VersionedValue
  error : Bytes
  deriving DecidableEq

/-- A replica's answer to a read. -/
structure Resp where
  peer : NodeInfo
  found : Bool
  vv : VersionedValue
  deriving DecidableEq

/-- What a coordinator is built with. Without a liveness check nobody counts as dead. -/
structure Coordinator where
  self : NodeInfo
  router : Router
  isAliveFn : Option (Bytes → Bool)
  hintStore : Bool
  maxClockEntries : Nat

namespace Coordinator

/-- The clock of a stored copy, empty if there is none. -/
def clockOf (stored : Option Bytes) : VectorClock :=
  match stored with
  | none => .empty
  | some bytes => (VersionedValue.deserialize bytes).clock

def localClock (key : Bytes) : NodeProgram VectorClock := do
  let stored ← Process.fetch key
  return clockOf stored

/-- The larger of the context's and the local copy's counter for this node. -/
def base (coordinator : Coordinator) (context copy : VectorClock) : UInt64 :=
  let self := coordinator.self.nodeId
  if context.get self < copy.get self then copy.get self else context.get self

/-- The context with the coordinator's own entry bumped above it and the local copy. -/
def bump (coordinator : Coordinator) (context copy : VectorClock) (now : UInt64) : VectorClock :=
  (context.set coordinator.self.nodeId (coordinator.base context copy + 1) now).prune coordinator.maxClockEntries

def bumpedClock (coordinator : Coordinator) (key : Bytes) (context : VectorClock) (now : UInt64) :
    NodeProgram VectorClock := do
  let copy ← localClock key
  return coordinator.bump context copy now

def dead (coordinator : Coordinator) (nodeId : Bytes) : Bool :=
  match coordinator.isAliveFn with
  | none => false
  | some alive => !alive nodeId

/-- The scan for a node to take a dead owner's write. -/
def standIn (coordinator : Coordinator) (owners : List NodeInfo) (owner : NodeInfo) : Option NodeInfo :=
  coordinator.router.getAllPhysicalNodes.find? (fun candidate =>
    decide (candidate.nodeId ≠ coordinator.self.nodeId) && decide (candidate.nodeId ≠ owner.nodeId) &&
      !owners.any (fun other => decide (other.nodeId = candidate.nodeId)) && !coordinator.dead candidate.nodeId)

/-- The loop of `writeQuorum` over the owners: it writes the local copy, stores the hints
and counts out the remote targets. -/
def placeWrites (coordinator : Coordinator) (key : Bytes) (vv : VersionedValue) (owners : List NodeInfo) :
    List NodeInfo → Nat → List NodeInfo → NodeProgram (Nat × List NodeInfo)
  | [], localAcks, remotes => return (localAcks, remotes)
  | owner :: rest, localAcks, remotes =>
    if owner.nodeId = coordinator.self.nodeId then do
      Process.store key vv.serialize
      coordinator.placeWrites key vv owners rest (localAcks + 1) remotes
    else if coordinator.dead owner.nodeId then do
      -- the hint is stored whether or not a stand-in was found
      if coordinator.hintStore then Process.emit [.storeHint owner.nodeId key vv]
      coordinator.placeWrites key vv owners rest localAcks (remotes ++ (coordinator.standIn owners owner).toList)
    else coordinator.placeWrites key vv owners rest localAcks (remotes ++ [owner])

/-- The acknowledgements among the replies to a write. -/
def acks (replies : Replies) : Nat := replies.countP (fun reply => decide (reply.2 = .write ⟨true⟩))

/-- The result of a write once its wait is over. -/
def verdict (vv : VersionedValue) (w : Int) (localAcks : Nat) (replies : Replies) : PutResult :=
  let finalAcks := localAcks + acks replies
  if w ≤ finalAcks then ⟨true, vv.clock, []⟩ else ⟨false, .empty, ascii "quorum_not_met"⟩

def writeQuorum (coordinator : Coordinator) (key : Bytes) (vv : VersionedValue) (n w : Int) :
    NodeProgram PutResult :=
  match coordinator.router.findOwners key n with
  | none => .diverge
  | some [] => return ⟨false, .empty, ascii "no_nodes_in_ring"⟩
  | some owners => do
    let (localAcks, remotes) ← coordinator.placeWrites key vv owners owners 0 []
    Process.emit (remotes.map (.request <| .writeReplica · key vv))
    let replies ← Process.receive
    return verdict vv w localAcks replies

def coordinatePut (coordinator : Coordinator) (key value : Bytes) (context : VectorClock) (n w : Int)
    (now : UInt64) : NodeProgram PutResult := do
  let clock ← coordinator.bumpedClock key context now
  coordinator.writeQuorum key ⟨value, clock, false⟩ n w

def coordinateDelete (coordinator : Coordinator) (key : Bytes) (context : VectorClock) (n w : Int)
    (now : UInt64) : NodeProgram PutResult := do
  let clock ← coordinator.bumpedClock key context now
  coordinator.writeQuorum key ⟨[], clock, true⟩ n w

/-- The versions no response strictly dominates, equal clocks collapsed to the first. -/
def maximalVersions (responses : List Resp) : List VersionedValue :=
  let found := responses.filterMap (fun response => if response.found then some response.vv else none)
  found.foldl (fun maximal cand =>
    if found.any (fun other => decide (other.clock.compare cand.clock = .aDominates)) then maximal
    else if maximal.any (fun kept => decide (kept.clock.compare cand.clock = .equal)) then maximal
    else maximal ++ [cand]) []

def repairAsync (coordinator : Coordinator) (peer : NodeInfo) (key : Bytes) (value : VersionedValue) :
    NodeProgram Unit :=
  if peer.nodeId = coordinator.self.nodeId then Process.store key value.serialize
  else Process.emit [.request (.writeReplica peer key value)]

/-- A response the dominant version should replace. -/
def stale (dominant : VersionedValue) (response : Resp) : Bool :=
  !response.found || decide (dominant.clock.compare response.vv.clock = .aDominates)

def repairStale (coordinator : Coordinator) (key : Bytes) (dominant : VersionedValue) :
    List Resp → NodeProgram Unit
  | [] => return ()
  | response :: rest => do
    if stale dominant response then coordinator.repairAsync response.peer key dominant
    coordinator.repairStale key dominant rest

/-- The coordinator's own response to its read. -/
def localResp (owner : NodeInfo) (stored : Option Bytes) : Resp :=
  match stored with
  | some bytes => ⟨owner, true, VersionedValue.deserialize bytes⟩
  | none => ⟨owner, false, ⟨[], .empty, false⟩⟩

/-- The loop of `coordinateGet` over the owners: it reads the local copy, skips the dead
owners and counts out the remote ones. -/
def placeReads (coordinator : Coordinator) (key : Bytes) :
    List NodeInfo → List Resp → List NodeInfo → NodeProgram (List Resp × List NodeInfo)
  | [], responses, remotes => return (responses, remotes)
  | owner :: rest, responses, remotes =>
    if owner.nodeId = coordinator.self.nodeId then do
      let stored ← Process.fetch key
      coordinator.placeReads key rest (responses ++ [localResp owner stored]) remotes
    else if coordinator.dead owner.nodeId then coordinator.placeReads key rest responses remotes
    else coordinator.placeReads key rest responses (remotes ++ [owner])

/-- The replicas that answered, in order of arrival. A failed read is not a response. -/
def answers (remotes : List NodeInfo) (replies : Replies) : List Resp :=
  replies.filterMap (fun reply =>
    match reply.2, remotes[reply.1]? with
    | .read result, some peer => if result.ok then some ⟨peer, result.found, result.value⟩ else none
    | _, _ => none)

/-- What a met read quorum comes to: the reconciliation and its repairs. -/
def conclude (coordinator : Coordinator) (key : Bytes) (responses : List Resp) : NodeProgram GetResult :=
  match maximalVersions responses with
  | [] => return ⟨.notFound, [], []⟩
  | [dominant] => do
    coordinator.repairStale key dominant responses
    if dominant.deleted then return ⟨.notFound, [], []⟩
    return ⟨.ok, [dominant], []⟩
  | siblings => return ⟨.siblings, siblings, []⟩

/-- The rest of a read once its wait is over. -/
def settle (coordinator : Coordinator) (key : Bytes) (r : Int) (own : List Resp) (remotes : List NodeInfo)
    (replies : Replies) : NodeProgram GetResult :=
  let responses := own ++ answers remotes replies
  if responses.length < r then return ⟨.error, [], ascii "quorum_not_met"⟩
  else coordinator.conclude key responses

def coordinateGet (coordinator : Coordinator) (key : Bytes) (n r : Int) : NodeProgram GetResult :=
  match coordinator.router.findOwners key n with
  | none => .diverge
  | some [] => return ⟨.error, [], ascii "no_nodes_in_ring"⟩
  | some owners => do
    let (own, remotes) ← coordinator.placeReads key owners [] []
    Process.emit (remotes.map (.request <| .readReplica · key))
    let replies ← Process.receive
    coordinator.settle key r own remotes replies

end Coordinator

end MiniDynamo
