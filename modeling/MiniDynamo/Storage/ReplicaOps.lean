import MiniDynamo.Library.Process
import MiniDynamo.Clock.Causality
import MiniDynamo.Storage.VersionedValue

/-! What a replica does with a version it is sent, independent of the transport.
`get` and `put` of the storage engine hold its lock separately, so they are the
atomic steps; `applyReplicate` is a read and a later write. -/

namespace MiniDynamo

/-- The storage engine's contents. -/
abbrev Storage := OrderedMap Bytes Bytes

/-- A program over the storage engine. -/
abbrev StorageProgram (Input Message Result : Type) := Process Bytes Bytes Input Message Result

namespace ReplicaOps

variable {Input Message : Type}

/-- The never-regress test: the local copy strictly dominates the incoming version. -/
def localDominates (stored : Option Bytes) (incoming : VersionedValue) : Bool :=
  match stored with
  | some bytes => decide ((VersionedValue.deserialize bytes).clock.compare incoming.clock = .aDominates)
  | none => false

def applyReplicate (key : Bytes) (incoming : VersionedValue) : StorageProgram Input Message Bool := do
  let stored ← Process.fetch key
  if localDominates stored incoming then return false
  Process.store key incoming.serialize
  return true

def readLocal (key : Bytes) : StorageProgram Input Message (Option VersionedValue) := do
  let stored ← Process.fetch key
  return stored.map VersionedValue.deserialize

theorem applyReplicate_eq (key : Bytes) (incoming : VersionedValue) :
    (applyReplicate key incoming : StorageProgram Input Message Bool) =
      .get key (fun stored => if localDominates stored incoming then .done false
        else .put key incoming.serialize (.done true)) := by
  simp only [applyReplicate, Process.fetch, Process.store, Process.get_bind, Process.done_bind]
  congr 1

theorem localDominates_iff {stored : Option Bytes} {incoming : VersionedValue} :
    localDominates stored incoming = true ↔
      ∃ bytes, stored = some bytes ∧ incoming.clock < (VersionedValue.deserialize bytes).clock := by
  cases stored with
  | none => simp [localDominates]
  | some bytes => simp [localDominates, VectorClock.compare_aDominates_iff]

/-- The storage one `applyReplicate` leaves when nothing else runs. -/
def replicate (key : Bytes) (storage : Storage) (incoming : VersionedValue) : Storage :=
  ((applyReplicate key incoming : StorageProgram Unit Empty Bool).exec () storage).2

theorem replicate_eq (key : Bytes) (storage : Storage) (incoming : VersionedValue) :
    replicate key storage incoming =
      if localDominates storage[key]? incoming then storage else storage.insert key incoming.serialize := by
  rw [replicate, applyReplicate_eq, Process.exec]
  split <;> rfl

/-- `applyReplicate` followed by the answer of whoever called it. -/
def replicateThen {Result : Type} (answer : Bool → Result) (key : Bytes) (incoming : VersionedValue) :
    StorageProgram Input Message Result :=
  .get key (fun stored => if localDominates stored incoming then .done (answer false)
    else .put key incoming.serialize (.done (answer true)))

theorem applyReplicate_bind {Result : Type} (answer : Bool → Result) (key : Bytes) (incoming : VersionedValue) :
    ((applyReplicate key incoming >>= fun written => .done (answer written)) :
      StorageProgram Input Message Result) = replicateThen answer key incoming := by
  rw [applyReplicate_eq, Process.get_bind, replicateThen]
  congr 1
  funext stored
  split <;> rfl

end ReplicaOps

end MiniDynamo
