import MiniDynamo.Storage.ReplicaOps

/-! The never-regress rule over whole runs of one replica: messages handled one
after another. -/

namespace MiniDynamo.ReplicaOps

def replicateAll (key : Bytes) (storage : Storage) (messages : List VersionedValue) : Storage :=
  messages.foldl (replicate key) storage

/-- The version a replica holds, as `readLocal` would return it. -/
def held (key : Bytes) (storage : Storage) : Option VersionedValue :=
  storage[key]?.map VersionedValue.deserialize

theorem replicateAll_append (key : Bytes) (storage : Storage) (early late : List VersionedValue) :
    replicateAll key storage (early ++ late) = replicateAll key (replicateAll key storage early) late :=
  List.foldl_append

theorem replicateAll_singleton (key : Bytes) (storage : Storage) (incoming : VersionedValue) :
    replicateAll key storage [incoming] = replicate key storage incoming := rfl

/-- What a replica holds after one message: its own copy or the message. -/
theorem held_replicate {key : Bytes} {incoming : VersionedValue} (safe : incoming.clock.WireSafe)
    (storage : Storage) :
    held key (replicate key storage incoming) =
      if localDominates storage[key]? incoming then held key storage else some incoming := by
  rw [replicate_eq]
  split
  · rfl
  · simp [held, VersionedValue.deserialize_serialize safe]

/-- Every message of the run can be ordered against the copy it meets. -/
def NoConflict (key : Bytes) : Storage → List VersionedValue → Prop
  | _, [] => True
  | storage, incoming :: rest =>
    (∀ copy, held key storage = some copy → copy.clock.compare incoming.clock ≠ .concurrent) ∧
      NoConflict key (replicate key storage incoming) rest

instance NoConflict.decidable (key : Bytes) : ∀ storage messages, Decidable (NoConflict key storage messages)
  | _, [] => .isTrue trivial
  | storage, incoming :: rest =>
    have : Decidable (∀ copy, held key storage = some copy → copy.clock.compare incoming.clock ≠ .concurrent) :=
      inferInstanceAs (Decidable (∀ copy ∈ held key storage, _))
    have : Decidable (NoConflict key (replicate key storage incoming) rest) :=
      NoConflict.decidable key (replicate key storage incoming) rest
    inferInstanceAs (Decidable (_ ∧ _))

theorem held_replicate_cases {key : Bytes} {storage : Storage} {incoming before : VersionedValue}
    (safe : incoming.clock.WireSafe) (holds : held key storage = some before) :
    held key (replicate key storage incoming) = some before ∨
      held key (replicate key storage incoming) = some incoming ∧ ¬ incoming.clock < before.clock := by
  rw [held_replicate safe]
  split
  · exact .inl holds
  · rename_i passed
    refine .inr ⟨rfl, fun behind => passed ?_⟩
    obtain ⟨bytes, found, same⟩ := Option.map_eq_some_iff.mp holds
    exact localDominates_iff.mpr ⟨bytes, found, same ▸ behind⟩

/-- Without a concurrent message the copy only moves forward. -/
theorem replicateAll_mono {key : Bytes} {messages : List VersionedValue} {before : VersionedValue}
    (safe : ∀ incoming ∈ messages, incoming.clock.WireSafe) :
    ∀ {storage : Storage}, held key storage = some before → NoConflict key storage messages →
      ∃ after, held key (replicateAll key storage messages) = some after ∧ before.clock ≤ after.clock := by
  induction messages generalizing before with
  | nil =>
    intro storage holds _
    exact ⟨before, holds, le_refl _⟩
  | cons incoming rest ih =>
    intro storage holds ordered
    obtain ⟨comparable, later⟩ := ordered
    have restSafe : ∀ message ∈ rest, message.clock.WireSafe := fun message member => safe message (by simp [member])
    rcases held_replicate_cases (safe incoming (by simp)) holds with kept | ⟨moved, notBehind⟩
    · exact ih restSafe kept later
    · obtain ⟨after, holdsAfter, forward⟩ := ih restSafe moved later
      refine ⟨after, holdsAfter, le_trans ?_ forward⟩
      have verdict := comparable before holds
      rw [Ne, VectorClock.compare_concurrent_iff] at verdict
      by_contra unordered
      exact verdict ⟨unordered, fun back => notBehind ⟨back, unordered⟩⟩

/-- A replica keeps one version of a key, so a `CONCURRENT` message replaces it and
the history before that is forgotten. Up to that, nothing regresses: over a
stretch of messages none of which is concurrent with the copy it meets, the held
version is never strictly dominated by one held earlier, and no single message,
concurrent or not, replaces a copy that strictly dominates it. -/
theorem replicate_run_never_regresses (key : Bytes) (storage : Storage) (early late : List VersionedValue)
    (safe : ∀ incoming ∈ late, incoming.clock.WireSafe) (before after : VersionedValue)
    (holdsBefore : held key (replicateAll key storage early) = some before)
    (holdsAfter : held key (replicateAll key storage (early ++ late)) = some after)
    (stretch : NoConflict key (replicateAll key storage early) late ∨ late.length = 1) :
    before.clock.compare after.clock ≠ .aDominates := by
  rw [Ne, VectorClock.compare_aDominates_iff]
  rw [replicateAll_append] at holdsAfter
  rcases stretch with ordered | single
  · obtain ⟨last, holdsLast, forward⟩ := replicateAll_mono safe holdsBefore ordered
    rw [holdsAfter] at holdsLast
    cases holdsLast
    exact fun behind => behind.2 forward
  · obtain ⟨incoming, rfl⟩ := List.length_eq_one_iff.mp single
    rw [replicateAll_singleton] at holdsAfter
    rcases held_replicate_cases (safe incoming (by simp)) holdsBefore with kept | ⟨moved, notBehind⟩
    · rw [kept] at holdsAfter
      cases holdsAfter
      exact lt_irrefl _
    · rw [moved] at holdsAfter
      cases holdsAfter
      exact notBehind

/-- The second write of `a` arrives, then the first, which is refused, and then the third. -/
theorem replicate_run_never_regresses_chain :
    (VectorClock.empty.set (ascii "a") 2 0).compare (VectorClock.empty.set (ascii "a") 3 0) ≠ .aDominates :=
  replicate_run_never_regresses (ascii "k") ∅
    [⟨ascii "new", VectorClock.empty.set (ascii "a") 2 0, false⟩]
    [⟨ascii "old", VectorClock.empty.set (ascii "a") 1 0, false⟩,
      ⟨ascii "newer", VectorClock.empty.set (ascii "a") 3 0, false⟩] (by decide)
    ⟨ascii "new", VectorClock.empty.set (ascii "a") 2 0, false⟩
    ⟨ascii "newer", VectorClock.empty.set (ascii "a") 3 0, false⟩ (by decide) (by decide) (.inl (by decide))

/-- `a` writes twice, `b` once, and the first write of `a` arrives late: the copy
of `a`'s second write is gone by then. -/
def lateWrites : List VersionedValue :=
  [⟨ascii "new", VectorClock.empty.set (ascii "a") 2 0, false⟩,
   ⟨ascii "other", VectorClock.empty.set (ascii "b") 1 0, false⟩,
   ⟨ascii "old", VectorClock.empty.set (ascii "a") 1 0, false⟩]

theorem replicate_run_regresses_after_conflict :
    ¬ ∀ (key : Bytes) (storage : Storage) (early late : List VersionedValue) (before after : VersionedValue),
      (∀ incoming ∈ early ++ late, incoming.clock.OverValidIds) →
      held key (replicateAll key storage early) = some before →
      held key (replicateAll key storage (early ++ late)) = some after →
      before.clock.compare after.clock ≠ .aDominates := by
  intro never
  exact never (ascii "k") ∅ (lateWrites.take 1) (lateWrites.drop 1)
    ⟨ascii "new", VectorClock.empty.set (ascii "a") 2 0, false⟩
    ⟨ascii "old", VectorClock.empty.set (ascii "a") 1 0, false⟩ (by decide) (by decide) (by decide) (by decide)

end MiniDynamo.ReplicaOps
