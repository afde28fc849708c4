import MiniDynamo.Storage.NeverRegress
import Mathlib.Data.Set.Basic

/-! Replicas that are sent versions of one key in any order end up with the newest one. -/

namespace MiniDynamo.ReplicaOps

/-- Versions of one key whose clocks can be stored, and one among them that is ahead of all the others. -/
structure Newest (versions : Set VersionedValue) (newest : VersionedValue) : Prop where
  member : newest ∈ versions
  ahead : ∀ version ∈ versions, version ≠ newest → newest.clock.compare version.clock = .aDominates
  safe : ∀ version ∈ versions, version.clock.WireSafe

/-- The replica has no copy of the key, or one of these versions. -/
def Holds (versions : Set VersionedValue) (key : Bytes) (storage : Storage) : Prop :=
  storage[key]? = none ∨ ∃ version ∈ versions, storage[key]? = some version.serialize

variable {versions : Set VersionedValue} {newest incoming : VersionedValue} {key : Bytes} {storage : Storage}

theorem Newest.not_ahead (top : Newest versions newest) {version : VersionedValue} (member : version ∈ versions) :
    ¬ newest.clock < version.clock := by
  intro behind
  by_cases same : version = newest
  · exact lt_irrefl _ (same ▸ behind)
  · exact lt_asymm behind (VectorClock.compare_aDominates_iff.mp (top.ahead version member same))

theorem Holds.replicate (holds : Holds versions key storage) (member : incoming ∈ versions) :
    Holds versions key (replicate key storage incoming) := by
  rw [replicate_eq]
  split
  · exact holds
  · exact .inr ⟨incoming, member, by simp⟩

/-- The newest version is stored, whatever the replica held before. -/
theorem Newest.replicate_self (top : Newest versions newest) (holds : Holds versions key storage) :
    (replicate key storage newest)[key]? = some newest.serialize := by
  have passes : ¬ localDominates storage[key]? newest = true := by
    rw [localDominates_iff]
    rintro ⟨bytes, found, behind⟩
    rcases holds with none | ⟨version, member, some⟩
    · rw [none] at found
      cases found
    · rw [some] at found
      rw [← Option.some.inj found, VersionedValue.deserialize_serialize (top.safe version member)] at behind
      exact top.not_ahead member behind
  rw [replicate_eq, if_neg passes]
  simp

/-- Once stored, the newest version stays. -/
theorem Newest.replicate_keeps (top : Newest versions newest) (member : incoming ∈ versions)
    (stored : storage[key]? = some newest.serialize) :
    (replicate key storage incoming)[key]? = some newest.serialize := by
  by_cases same : incoming = newest
  · rw [same]
    exact top.replicate_self (.inr ⟨newest, top.member, stored⟩)
  · have dominated : localDominates storage[key]? incoming = true := by
      refine localDominates_iff.mpr ⟨newest.serialize, stored, ?_⟩
      rw [VersionedValue.deserialize_serialize (top.safe newest top.member)]
      exact VectorClock.compare_aDominates_iff.mp (top.ahead incoming member same)
    rw [replicate_eq, if_pos dominated]
    exact stored

theorem Newest.replicateAll_keeps (top : Newest versions newest) {messages : List VersionedValue}
    (drawn : ∀ message ∈ messages, message ∈ versions) (stored : storage[key]? = some newest.serialize) :
    (replicateAll key storage messages)[key]? = some newest.serialize := by
  induction messages generalizing storage with
  | nil => exact stored
  | cons incoming rest ih =>
    simp only [List.forall_mem_cons] at drawn
    exact ih drawn.2 (top.replicate_keeps drawn.1 stored)

theorem Newest.replicateAll_reaches (top : Newest versions newest) {messages : List VersionedValue}
    (holds : Holds versions key storage) (drawn : ∀ message ∈ messages, message ∈ versions)
    (received : newest ∈ messages) :
    (replicateAll key storage messages)[key]? = some newest.serialize := by
  induction messages generalizing storage with
  | nil => cases received
  | cons incoming rest ih =>
    simp only [List.forall_mem_cons] at drawn
    rcases List.mem_cons.mp received with same | later
    · subst same
      have kept := top.replicateAll_keeps drawn.2 (top.replicate_self holds)
      exact kept
    · exact ih (holds.replicate drawn.1) drawn.2 later

/-- Whatever order the versions arrive in and however often each of them does, a replica that
receives the newest one ends with it, so two that do agree. -/
theorem replicas_converge (key : Bytes) (versions : Set VersionedValue) (newest : VersionedValue)
    (top : Newest versions newest) (storage other : Storage) (messages others : List VersionedValue)
    (holds : Holds versions key storage) (otherHolds : Holds versions key other)
    (drawn : ∀ message ∈ messages, message ∈ versions) (otherDrawn : ∀ message ∈ others, message ∈ versions)
    (received : newest ∈ messages) (otherReceived : newest ∈ others) :
    (replicateAll key storage messages)[key]? = some newest.serialize ∧
      held key (replicateAll key storage messages) = some newest ∧
      (replicateAll key storage messages)[key]? = (replicateAll key other others)[key]? := by
  have here := top.replicateAll_reaches holds drawn received
  have there := top.replicateAll_reaches otherHolds otherDrawn otherReceived
  refine ⟨here, ?_, here.trans there.symm⟩
  rw [held, here, Option.map_some, VersionedValue.deserialize_serialize (top.safe newest top.member)]

/-- Two concurrent versions and one that has seen both. -/
def mergedWrites : List VersionedValue :=
  [⟨ascii "one", VectorClock.empty.set (ascii "a") 1 0, false⟩,
   ⟨ascii "two", VectorClock.empty.set (ascii "b") 1 0, false⟩,
   ⟨ascii "both", (VectorClock.empty.set (ascii "a") 1 0).set (ascii "b") 2 0, false⟩]

def mergedWrite : VersionedValue :=
  ⟨ascii "both", (VectorClock.empty.set (ascii "a") 1 0).set (ascii "b") 2 0, false⟩

theorem mergedWrite_newest : Newest { version | version ∈ mergedWrites } mergedWrite where
  member := by decide +kernel
  ahead := show ∀ version ∈ mergedWrites, version ≠ mergedWrite → _ by decide +kernel
  safe := show ∀ version ∈ mergedWrites, version.clock.WireSafe by decide +kernel

theorem replicas_converge_reversed :
    (replicateAll (ascii "k") ∅ mergedWrites)[ascii "k"]? = some mergedWrite.serialize ∧
      held (ascii "k") (replicateAll (ascii "k") ∅ mergedWrites) = some mergedWrite ∧
      (replicateAll (ascii "k") ∅ mergedWrites)[ascii "k"]? =
        (replicateAll (ascii "k") ∅ (mergedWrites.reverse ++ mergedWrites.reverse))[ascii "k"]? :=
  replicas_converge (ascii "k") { version | version ∈ mergedWrites } mergedWrite mergedWrite_newest ∅ ∅ mergedWrites
    (mergedWrites.reverse ++ mergedWrites.reverse) (.inl (by simp)) (.inl (by simp)) (by decide +kernel)
    (by decide +kernel) (by decide +kernel) (by decide +kernel)

end MiniDynamo.ReplicaOps
