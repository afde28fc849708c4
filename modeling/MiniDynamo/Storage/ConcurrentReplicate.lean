import MiniDynamo.Storage.ReplicaOps

/-! Several `applyReplicate` calls for one key on the worker pool of one node. -/

namespace MiniDynamo.ReplicaOps

variable {Input Message Result : Type}

/-- Where a thread running `applyReplicate` stands. -/
inductive Stage (answer : Bool → Result) (key : Bytes) (incoming : VersionedValue) :
    Thread Bytes Bytes Input Message Result → Prop where
  | reading (seen : Option Bytes) : Stage answer key incoming ⟨replicateThen answer key incoming, seen⟩
  | writing (seen : Option Bytes) (passed : localDominates seen incoming = false) :
      Stage answer key incoming ⟨.put key incoming.serialize (.done (answer true)), seen⟩
  | kept (seen : Option Bytes) (dominated : localDominates seen incoming = true) :
      Stage answer key incoming ⟨.done (answer false), seen⟩
  | stored (seen : Option Bytes) : Stage answer key incoming ⟨.done (answer true), seen⟩

/-- The two steps of a replicate thread: the read that decides, and the write that
acts on the decision without looking again. -/
theorem Stage.step {answer : Bool → Result} {key : Bytes} {incoming : VersionedValue}
    {pool next : Pool Bytes Bytes Input Message Result} {index : Nat} {input : Input} {sent : List Message}
    {thread : Thread Bytes Bytes Input Message Result} (stage : Stage answer key incoming thread)
    (found : pool.threads[index]? = some thread) (stepped : pool.step index input = some (next, sent)) :
    sent = [] ∧
      ((∃ after : Thread Bytes Bytes Input Message Result, after.seen = pool.store[key]? ∧
          Stage answer key incoming after ∧
          (∀ result, after.program = .done result → localDominates pool.store[key]? incoming = true) ∧
          next = { pool with threads := pool.threads.set index after }) ∨
       (localDominates thread.seen incoming = false ∧
          next = { store := pool.store.insert key incoming.serialize
                   threads := pool.threads.set index ⟨.done (answer true), thread.seen⟩
                   log := pool.log ++ [⟨index, key, thread.seen, pool.store[key]?, incoming.serialize⟩] })) := by
  obtain ⟨actual, same, moves⟩ := Pool.step_cases stepped
  rw [found] at same
  cases same
  cases stage with
  | reading seen =>
    obtain ⟨_, rest, shape, rfl, rfl⟩ | ⟨_, _, _, shape, _⟩ | ⟨_, shape, _⟩ | ⟨_, shape, _⟩ := moves
    · cases shape
      refine ⟨rfl, .inl ⟨_, rfl, ?_, ?_, rfl⟩⟩
      · by_cases dominated : localDominates pool.store[key]? incoming = true
        · simpa [dominated] using Stage.kept _ dominated
        · simpa [dominated] using Stage.writing _ (Bool.eq_false_iff.mpr dominated)
      · intro result finished
        by_contra passed
        simp [passed] at finished
    all_goals cases shape
  | writing seen passed =>
    obtain ⟨_, _, shape, _⟩ | ⟨_, _, _, shape, rfl, rfl⟩ | ⟨_, shape, _⟩ | ⟨_, shape, _⟩ := moves
    · cases shape
    · cases shape
      exact ⟨rfl, .inr ⟨passed, rfl⟩⟩
    all_goals cases shape
  | kept seen dominated =>
    obtain ⟨_, _, shape, _⟩ | ⟨_, _, _, shape, _⟩ | ⟨_, shape, _⟩ | ⟨_, shape, _⟩ := moves
    all_goals cases shape
  | stored seen =>
    obtain ⟨_, _, shape, _⟩ | ⟨_, _, _, shape, _⟩ | ⟨_, shape, _⟩ | ⟨_, shape, _⟩ := moves
    all_goals cases shape

/-- A stored copy that `newest` may replace: nothing, a dominated version, or itself. -/
def Behind (newest : VersionedValue) (stored : Option Bytes) : Prop :=
  stored = some newest.serialize ∨
    ∀ bytes, stored = some bytes → (VersionedValue.deserialize bytes).clock < newest.clock

theorem Behind.not_localDominates {newest : VersionedValue} {stored : Option Bytes}
    (safe : newest.clock.WireSafe) (behind : Behind newest stored) : localDominates stored newest = false := by
  by_contra dominates
  rw [Bool.not_eq_false, localDominates_iff] at dominates
  obtain ⟨bytes, found, ahead⟩ := dominates
  rcases behind with same | below
  · rw [found] at same
    cases same
    rw [VersionedValue.deserialize_serialize safe] at ahead
    exact lt_irrefl _ ahead
  · exact lt_irrefl _ (ahead.trans (below bytes found))

theorem localDominates_of_lt {newest older : VersionedValue} (safe : newest.clock.WireSafe)
    (below : older.clock < newest.clock) : localDominates (some newest.serialize) older = true :=
  localDominates_iff.mpr ⟨_, rfl, by rwa [VersionedValue.deserialize_serialize safe]⟩

/-- The calls in flight, the copy they race for, and the promise to the newest one. -/
structure Racing (key : Bytes) (versions : List VersionedValue) (newest : VersionedValue)
    (pool : Pool Bytes Bytes Unit Empty Bool) : Prop where
  stages : ∀ {index : Nat} {thread : Thread Bytes Bytes Unit Empty Bool},
    pool.threads[index]? = some thread → ∃ incoming, versions[index]? = some incoming ∧ Stage id key incoming thread
  copy : Behind newest pool.store[key]?
  finished : ∀ {index : Nat} {thread : Thread Bytes Bytes Unit Empty Bool} {result : Bool},
    versions[index]? = some newest → pool.threads[index]? = some thread → thread.program = .done result →
      pool.store[key]? = some newest.serialize

section Race

variable {key : Bytes} {versions : List VersionedValue} {newest : VersionedValue}
variable {pool next : Pool Bytes Bytes Unit Empty Bool}

/-- One step keeps the race going, as long as no write lands on a copy its thread
has not read: a dominated version then never gets past the newest one. -/
theorem Racing.step (safe : ∀ incoming ∈ versions, incoming.clock.WireSafe) (member : newest ∈ versions)
    (newestOf : ∀ incoming ∈ versions, incoming ≠ newest → incoming.clock < newest.clock)
    {index : Nat} {input : Unit} {sent : List Empty} (racing : Racing key versions newest pool)
    (fresh : next.Fresh) (stepped : pool.step index input = some (next, sent)) :
    Racing key versions newest next := by
  obtain ⟨thread, found, -⟩ := Pool.step_cases stepped
  obtain ⟨incoming, version, stage⟩ := racing.stages found
  have present := List.mem_of_getElem? version
  obtain ⟨-, ⟨after, seen, stageAfter, decided, rfl⟩ | ⟨passed, rfl⟩⟩ := stage.step found stepped
  · refine ⟨fun held => ?_, racing.copy, fun newestThere held finished => ?_⟩
    · rcases Thread.set_cases held with ⟨rfl, rfl⟩ | ⟨-, before⟩
      · exact ⟨incoming, version, stageAfter⟩
      · exact racing.stages before
    · rcases Thread.set_cases held with ⟨rfl, rfl⟩ | ⟨-, before⟩
      · cases newestThere.symm.trans version
        have refused := racing.copy.not_localDominates (safe newest member)
        cases refused.symm.trans (decided _ finished)
      · exact racing.finished newestThere before finished
  · have unstale : pool.store[key]? = thread.seen :=
      fresh ⟨index, key, thread.seen, pool.store[key]?, incoming.serialize⟩ (by simp)
    have mine : (pool.store.insert key incoming.serialize)[key]? = some incoming.serialize := by simp
    refine ⟨fun held => ?_, ?_, fun newestThere held finished => ?_⟩
    · rcases Thread.set_cases held with ⟨rfl, rfl⟩ | ⟨-, before⟩
      · exact ⟨incoming, version, .stored _⟩
      · exact racing.stages before
    · show Behind newest (pool.store.insert key incoming.serialize)[key]?
      by_cases same : incoming = newest
      · exact .inl (by rw [mine, same])
      · refine .inr (fun bytes stored => ?_)
        cases mine.symm.trans stored
        rw [VersionedValue.deserialize_serialize (safe incoming present)]
        exact newestOf incoming present same
    · show (pool.store.insert key incoming.serialize)[key]? = some newest.serialize
      rcases Thread.set_cases held with ⟨rfl, rfl⟩ | ⟨-, before⟩
      · cases newestThere.symm.trans version
        exact mine
      · by_cases same : incoming = newest
        · rw [mine, same]
        · -- the newest version is already there, and the fresh read would have seen it
          have holding := racing.finished newestThere before finished
          have dominated := localDominates_of_lt (safe newest member) (newestOf incoming present same)
          rw [← holding, unstale, passed] at dominated
          cases dominated

/-- Of several versions delivered at once, the one that dominates the others and the copy
held before is the one stored when all calls are over, in every interleaving in which no
call's write lands on a copy it has not read. -/
theorem concurrent_replicates_keep_newest (key : Bytes) (store : Storage) (versions : List VersionedValue)
    (newest : VersionedValue) (schedule : List (Nat × Unit)) (final : Pool Bytes Bytes Unit Empty Bool)
    (safe : ∀ incoming ∈ versions, incoming.clock.WireSafe) (member : newest ∈ versions)
    (newestOf : ∀ incoming ∈ versions, incoming ≠ newest → newest.clock.compare incoming.clock = .aDominates)
    (initial : ∀ bytes, store[key]? = some bytes →
      newest.clock.compare (VersionedValue.deserialize bytes).clock = .aDominates)
    (ran : (Pool.start store (versions.map (applyReplicate key))).run schedule = some final)
    (ended : ∀ thread ∈ final.threads, thread.program.Finished) (fresh : final.Fresh) :
    final.store[key]? = some newest.serialize := by
  simp only [VectorClock.compare_aDominates_iff] at newestOf initial
  have started : Racing key versions newest (Pool.start store (versions.map (applyReplicate key))) := by
    have opened {index : Nat} {thread : Thread Bytes Bytes Unit Empty Bool}
        (held : (Pool.start store (versions.map (applyReplicate key))).threads[index]? = some thread) :
        ∃ incoming, versions[index]? = some incoming ∧ thread = ⟨replicateThen id key incoming, none⟩ := by
      simp only [Pool.start, List.getElem?_map, Option.map_eq_some_iff] at held
      obtain ⟨_, ⟨incoming, version, rfl⟩, rfl⟩ := held
      exact ⟨incoming, version, by rw [applyReplicate_eq]; rfl⟩
    refine ⟨fun held => ?_, .inr initial, fun _ held finished => ?_⟩
    · obtain ⟨incoming, version, rfl⟩ := opened held
      exact ⟨incoming, version, .reading none⟩
    · obtain ⟨incoming, -, rfl⟩ := opened held
      cases finished
  have racing : Racing key versions newest final :=
    Pool.logged_run_invariant (fun racing fresh stepped => racing.step safe member newestOf fresh stepped)
      started ran fresh
  obtain ⟨index, version⟩ := List.mem_iff_getElem?.mp member
  have bound : index < final.threads.length := by
    rw [Pool.run_length ran]
    simpa [Pool.start] using (List.getElem?_eq_some_iff.mp version).1
  obtain ⟨result, finished⟩ := ended _ (List.getElem_mem bound)
  exact racing.finished version (List.getElem?_eq_getElem bound) finished

end Race

/-- Two writes of `a`, the second having seen the first. -/
def older : VersionedValue := ⟨ascii "old", VectorClock.empty.set (ascii "a") 1 0, false⟩

def newer : VersionedValue := ⟨ascii "new", VectorClock.empty.set (ascii "a") 2 0, false⟩

theorem concurrent_replicates_keep_newest_in_turn :
    ∃ final : Pool Bytes Bytes Unit Empty Bool, (Pool.start ∅ ([older, newer].map (applyReplicate (ascii "k")))).run
        [(1, ()), (1, ()), (0, ())] = some final ∧ final.store[ascii "k"]? = some newer.serialize :=
  ⟨_, rfl, concurrent_replicates_keep_newest (ascii "k") ∅ [older, newer] newer [(1, ()), (1, ()), (0, ())] _
    (by decide) (by decide) (by decide) (by simp) rfl (by decide) (by decide)⟩

/-- Both calls read before either writes, and the dominated version is written last. -/
theorem concurrent_replicates_lose_newest :
    ¬ ∀ (key : Bytes) (store : Storage) (versions : List VersionedValue) (newest : VersionedValue)
        (schedule : List (Nat × Unit)) (final : Pool Bytes Bytes Unit Empty Bool),
      (∀ incoming ∈ versions, incoming.clock.OverValidIds) → newest ∈ versions →
      (∀ incoming ∈ versions, incoming ≠ newest → newest.clock.compare incoming.clock = .aDominates) →
      (∀ bytes, store[key]? = some bytes →
        newest.clock.compare (VersionedValue.deserialize bytes).clock = .aDominates) →
      (Pool.start store (versions.map (applyReplicate key))).run schedule = some final →
      (∀ thread ∈ final.threads, thread.program.Finished) → final.store[key]? = some newest.serialize := by
  intro keeps
  have kept := keeps (ascii "k") ∅ [older, newer] newer [(0, ()), (1, ()), (1, ()), (0, ())] _
    (by decide) (by decide) (by decide) (by simp) rfl (by decide)
  revert kept
  decide

end MiniDynamo.ReplicaOps
