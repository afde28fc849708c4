import MiniDynamo.Coordinator.ReadPath
import MiniDynamo.Library.Cluster

/-! What runs on one node: the calls of clients that it coordinates, and the requests of
other coordinators that it serves as a replica. -/

namespace MiniDynamo

/-- How requests reach a replica: what a delivered request makes the peer do, and the
result its sender gets back. -/
structure ReplicaClient where
  writeReplica : (origin key : Bytes) → VersionedValue → NodeProgram ReplicaWriteResult
  readReplica : (origin key : Bytes) → NodeProgram ReplicaReadResult

namespace ReplicaClient

/-- The in-process client: the peer works on the version itself. -/
def inProcess : ReplicaClient where
  writeReplica _ key value := do
    let _ ← ReplicaOps.applyReplicate key value
    return ⟨true⟩
  readReplica _ key := do
    let copy ← ReplicaOps.readLocal key
    return .ofCopy copy

/-- The pooled client: the peer works on the payload, the sender on its reply. -/
def pooled : ReplicaClient where
  writeReplica origin key value := do
    let reply ← Wire.handleReplicate (Wire.splitAll (Wire.replicatePayload origin key value))
    return Wire.parseWriteReply reply
  readReplica origin key := do
    let reply ← Wire.handleReadReplica (Wire.splitAll (Wire.readPayload origin key))
    return Wire.parseReadReply reply

end ReplicaClient

inductive Outcome where
  | written (result : PutResult)
  | read (result : GetResult)
  | served (ticket : Ticket Bytes) (reply : Reply)
  deriving DecidableEq

/-- Serve a request as a replica, and answer it under its ticket. -/
def ReplicaClient.serve (client : ReplicaClient) (ticket : Ticket Bytes) : Request → NodeProgram Outcome
  | .writeReplica _ key value => do return .served ticket (.write (← client.writeReplica ticket.origin key value))
  | .readReplica _ key => do return .served ticket (.read (← client.readReplica ticket.origin key))

inductive Call where
  | write (write : Write)
  | get (n r : Int)
  | serve (ticket : Ticket Bytes) (request : Request)

namespace Call

/-- The program of a call; writes and reads are of the given key. -/
def program (coordinator : Coordinator) (client : ReplicaClient) (key : Bytes) : Call → NodeProgram Outcome
  | .write operation => do return .written (← operation.program coordinator key)
  | .get n r => do return .read (← coordinator.coordinateGet key n r)
  | .serve ticket request => client.serve ticket request

end Call

end MiniDynamo
