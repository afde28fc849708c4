import Mathlib.Data.List.Pairwise
import MiniDynamo.Coordinator.WritePath

/-! Several writes of one key coordinated by one node at the same time. Each reads the
local copy, computes its clock from it and writes the new copy later, with no lock between. -/

namespace MiniDynamo

namespace Coordinator

/-- The coordinator's own counter in a stored copy. -/
def ownCounter (coordinator : Coordinator) (stored : Option Bytes) : Nat :=
  ((clockOf stored).get coordinator.self.nodeId).toNat

end Coordinator

/-- A write that has read the local copy: it puts its one version and does not return before. -/
structure Committed (coordinator : Coordinator) (key : Bytes) (write : Write) (index : Nat)
    (log : List (Overwrite Bytes Bytes)) (thread : NodeThread PutResult) : Prop where
  only : thread.program.Only
    (fun target bytes => target = key ∧ bytes = (write.version coordinator thread.seen).serialize)
    (fun _ => True) (fun result => result.ok = true → result.clock = (write.version coordinator thread.seen).clock)
  due : thread.program.Owes key (write.version coordinator thread.seen).serialize ∨
    ∃ entry ∈ log, entry.thread = index ∧ entry.after = (write.version coordinator thread.seen).serialize

/-- What holds along a run of writes: the node's own counter rises with every put. -/
structure Rising (coordinator : Coordinator) (key : Bytes) (writes : List Write)
    (pool : NodePool PutResult) : Prop where
  stages : ∀ {index : Nat} {thread : NodeThread PutResult},
    pool.threads[index]? = some thread → ∃ write, writes[index]? = some write ∧
      (thread.program = write.program coordinator key ∨ Committed coordinator key write index pool.log thread)
  rising : pool.log.Pairwise
    (fun earlier later => coordinator.ownCounter (some earlier.after) < coordinator.ownCounter (some later.after))
  top : ∀ entry ∈ pool.log, coordinator.ownCounter (some entry.after) ≤ coordinator.ownCounter pool.store[key]?

section Race

variable {coordinator : Coordinator} {key : Bytes} {writes : List Write}

/-- The put lands on the copy its call read, and the bump from there takes hold. -/
def Settled (coordinator : Coordinator) (writes : List Write) (entry : Overwrite Bytes Bytes) : Prop :=
  entry.Fresh ∧ ∀ write ∈ writes[entry.thread]?,
    coordinator.Steady write.context (Coordinator.clockOf entry.seen) write.now

instance (coordinator : Coordinator) (writes : List Write) (entry : Overwrite Bytes Bytes) :
    Decidable (Settled coordinator writes entry) :=
  inferInstanceAs (Decidable (_ ∧ _))

theorem clockOf_version {write : Write} {stored : Option Bytes}
    (valid : isValidNodeId coordinator.self.nodeId = true) (safe : write.context.WireSafe) :
    Coordinator.clockOf (some (write.version coordinator stored).serialize) =
      (write.version coordinator stored).clock := by
  rw [Coordinator.clockOf, VersionedValue.deserialize_serialize (Write.version_wireSafe valid safe)]

theorem ownCounter_version {write : Write} {stored : Option Bytes}
    (valid : isValidNodeId coordinator.self.nodeId = true) (safe : write.context.WireSafe)
    (steady : coordinator.Steady write.context (Coordinator.clockOf stored) write.now) :
    coordinator.ownCounter stored <
      coordinator.ownCounter (some (write.version coordinator stored).serialize) := by
  have ahead := (Coordinator.ahead_of_bump steady).2
  rw [Coordinator.ownCounter, Coordinator.ownCounter, clockOf_version valid safe, Write.version]
  exact UInt64.lt_iff_toNat_lt.mp ahead

theorem Committed.mono {write : Write} {index : Nat} {log longer : List (Overwrite Bytes Bytes)}
    {thread : NodeThread PutResult}
    (committed : Committed coordinator key write index log thread) (grown : ∀ entry ∈ log, entry ∈ longer) :
    Committed coordinator key write index longer thread := by
  refine ⟨committed.only, committed.due.imp id ?_⟩
  rintro ⟨entry, logged, facts⟩
  exact ⟨entry, grown entry logged, facts⟩

/-- The first step of a write: it reads the local copy and is committed to one version. -/
theorem step_start {write : Write} (primary : coordinator.Primary key)
    {pool next : NodePool PutResult} {index : Nat} {input : Replies} {sent : List Outgoing}
    {thread : NodeThread PutResult} (start : thread.program = write.program coordinator key)
    (found : pool.threads[index]? = some thread) (stepped : pool.step index input = some (next, sent)) :
    ∃ after, Committed coordinator key write index pool.log after ∧
      next = { pool with threads := pool.threads.set index after } := by
  obtain ⟨actual, same, moves⟩ := Pool.step_cases stepped
  cases found.symm.trans same
  rw [start, write.program_eq] at moves
  obtain ⟨_, _, shape, -, rfl⟩ | ⟨_, _, _, shape, -⟩ | ⟨_, shape, -⟩ | ⟨_, shape, -⟩ := moves
  · cases shape
    exact ⟨_, ⟨coordinator.writeQuorum_only key _ write.n write.w,
      .inl (Coordinator.writeQuorum_owes primary _ write.n write.w)⟩, rfl⟩
  all_goals cases shape

/-- A later step of a write: its debt is unchanged or has just been paid. -/
theorem Committed.step {write : Write} {pool next : NodePool PutResult} {index : Nat}
    {input : Replies} {sent : List Outgoing} {thread : NodeThread PutResult}
    (committed : Committed coordinator key write index pool.log thread)
    (found : pool.threads[index]? = some thread) (stepped : pool.step index input = some (next, sent)) :
    ∃ after, Committed coordinator key write index next.log after ∧
      (next = { pool with threads := pool.threads.set index after } ∨
       next = { store := pool.store.insert key (write.version coordinator thread.seen).serialize
                threads := pool.threads.set index after
                log := pool.log ++ [⟨index, key, thread.seen, pool.store[key]?,
                  (write.version coordinator thread.seen).serialize⟩] }) := by
  have bound := (List.getElem?_eq_some_iff.mp found).1
  obtain ⟨after, seen, only, -, moved⟩ := Pool.step_only committed.only found stepped
  have there : next.threads[index]? = some after := by
    rcases moved with rfl | ⟨_, _, -, -, rfl⟩ <;> exact List.getElem?_set_self bound
  have due : after.program.Owes key (write.version coordinator after.seen).serialize ∨
      ∃ entry ∈ next.log, entry.thread = index ∧ entry.after = (write.version coordinator after.seen).serialize := by
    rw [seen]
    rcases committed.due with owes | ⟨entry, logged, facts⟩
    · rcases Pool.step_owes owes found stepped with ⟨later, held, still⟩ | paid
      · cases there.symm.trans held
        exact .inl still
      · exact .inr ⟨_, paid, rfl, rfl⟩
    · exact .inr ⟨entry, Pool.mem_log_of_step stepped logged, facts⟩
  refine ⟨after, ⟨seen ▸ only, due⟩, moved.imp id ?_⟩
  rintro ⟨_, _, ⟨rfl, rfl⟩, -, rfl⟩
  rfl

theorem Rising.step (valid : isValidNodeId coordinator.self.nodeId = true) (primary : coordinator.Primary key)
    (safe : ∀ write ∈ writes, write.context.WireSafe)
    {pool next : NodePool PutResult} {index : Nat} {input : Replies} {sent : List Outgoing}
    (rising : Rising coordinator key writes pool) (settled : ∀ entry ∈ next.log, Settled coordinator writes entry)
    (stepped : pool.step index input = some (next, sent)) : Rising coordinator key writes next := by
  obtain ⟨thread, found, -⟩ := Pool.step_cases stepped
  obtain ⟨write, called, stage⟩ := rising.stages found
  -- the moving thread ends up committed, the others keep their stage
  have staged {after : NodeThread PutResult}
      (committed : Committed coordinator key write index next.log after) {other : Nat}
      {held : NodeThread PutResult}
      (there : (pool.threads.set index after)[other]? = some held) : ∃ write, writes[other]? = some write ∧
        (held.program = write.program coordinator key ∨ Committed coordinator key write other next.log held) := by
    rcases Thread.set_cases there with ⟨rfl, rfl⟩ | ⟨-, before⟩
    · exact ⟨write, called, .inr committed⟩
    · obtain ⟨write, called, stage⟩ := rising.stages before
      exact ⟨write, called, stage.imp id
        (fun held => held.mono (fun entry logged => Pool.mem_log_of_step stepped logged))⟩
  rcases stage with start | committed
  · obtain ⟨after, committed, rfl⟩ := step_start primary start found stepped
    exact ⟨staged committed, rising.rising, rising.top⟩
  · obtain ⟨after, committed, rfl | rfl⟩ := committed.step found stepped
    · exact ⟨staged committed, rising.rising, rising.top⟩
    · obtain ⟨fresh, steady⟩ := settled _ (List.mem_append_right _ (List.mem_singleton_self _))
      have unstale : pool.store[key]? = thread.seen := fresh
      have higher := ownCounter_version valid (safe write (List.mem_of_getElem? called)) (steady write called)
      have below : ∀ entry ∈ pool.log, coordinator.ownCounter (some entry.after) <
          coordinator.ownCounter (some (write.version coordinator thread.seen).serialize) := by
        intro entry logged
        have known := rising.top entry logged
        rw [unstale] at known
        exact Nat.lt_of_le_of_lt known higher
      refine ⟨staged committed, ?_, ?_⟩
      · rw [List.pairwise_append]
        refine ⟨rising.rising, List.pairwise_singleton _ _, ?_⟩
        intro earlier logged later last
        rw [List.mem_singleton.mp last]
        exact below earlier logged
      · intro entry logged
        show _ ≤ coordinator.ownCounter (pool.store.insert key _)[key]?
        rw [Std.ExtTreeMap.getElem?_insert_self]
        rcases List.mem_append.mp logged with before | last
        · exact Nat.le_of_lt (below entry before)
        · rw [List.mem_singleton.mp last]

/-- The clock call `index` gave its version, once it has returned. -/
def Produced (coordinator : Coordinator) (writes : List Write)
    (pool : NodePool PutResult) (index : Nat) (clock : VectorClock) : Prop :=
  ∃ write thread, writes[index]? = some write ∧ pool.threads[index]? = some thread ∧ thread.program.Finished ∧
    clock = (write.version coordinator thread.seen).clock

theorem Rising.logged {pool : NodePool PutResult} {index : Nat} {clock : VectorClock}
    (valid : isValidNodeId coordinator.self.nodeId = true) (safe : ∀ write ∈ writes, write.context.WireSafe)
    (rising : Rising coordinator key writes pool) (produced : Produced coordinator writes pool index clock) :
    ∃ entry ∈ pool.log, entry.thread = index ∧
      coordinator.ownCounter (some entry.after) = (clock.get coordinator.self.nodeId).toNat := by
  obtain ⟨write, thread, called, held, ⟨result, ended⟩, rfl⟩ := produced
  obtain ⟨other, again, stage⟩ := rising.stages held
  cases called.symm.trans again
  rcases stage with start | committed
  · rw [ended, write.program_eq] at start
    cases start
  · rcases committed.due with owes | ⟨entry, logged, mine, after⟩
    · rw [ended] at owes
      exact owes.elim
    · refine ⟨entry, logged, mine, ?_⟩
      rw [after, Coordinator.ownCounter, clockOf_version valid (safe write (List.mem_of_getElem? called))]

/-- Writes coordinated by the key's primary get pairwise different clocks, in every
interleaving in which each local put lands on the copy its call had read and each bump
takes hold. -/
theorem concurrent_writes_never_share_version (coordinator : Coordinator) (key : Bytes) (store : Storage)
    (writes : List Write) (schedule : List (Nat × Replies)) (final : NodePool PutResult)
    (valid : isValidNodeId coordinator.self.nodeId = true) (primary : coordinator.Primary key)
    (safe : ∀ write ∈ writes, write.context.WireSafe)
    (ran : (Pool.start store (writes.map (·.program coordinator key))).run schedule = some final)
    (settled : ∀ entry ∈ final.log, Settled coordinator writes entry)
    (first second : Nat) (different : first ≠ second) (one two : VectorClock)
    (producedOne : Produced coordinator writes final first one)
    (producedTwo : Produced coordinator writes final second two) : one.compare two ≠ .equal := by
  have started : Rising coordinator key writes (Pool.start store (writes.map (·.program coordinator key))) := by
    refine ⟨fun held => ?_, List.Pairwise.nil, by simp [Pool.start]⟩
    simp only [Pool.start, List.getElem?_map, Option.map_eq_some_iff] at held
    obtain ⟨_, ⟨write, called, rfl⟩, rfl⟩ := held
    exact ⟨write, called, .inl rfl⟩
  have rising : Rising coordinator key writes final :=
    Pool.logged_run_invariant (fun rising settled stepped => rising.step valid primary safe settled stepped)
      started ran settled
  obtain ⟨entryOne, loggedOne, mineOne, counterOne⟩ := rising.logged valid safe producedOne
  obtain ⟨entryTwo, loggedTwo, mineTwo, counterTwo⟩ := rising.logged valid safe producedTwo
  have apart : entryOne ≠ entryTwo := fun same => different (by rw [← mineOne, ← mineTwo, same])
  have symmetric : Std.Symm (fun left right : Overwrite Bytes Bytes =>
      coordinator.ownCounter (some left.after) ≠ coordinator.ownCounter (some right.after)) :=
    ⟨fun _ _ => Ne.symm⟩
  have unequal := (rising.rising.imp Nat.ne_of_lt).forall loggedOne loggedTwo apart
  intro equal
  obtain ⟨below, above⟩ := VectorClock.compare_equal_iff.mp equal
  have low := UInt64.le_iff_toNat_le.mp (below coordinator.self.nodeId)
  have high := UInt64.le_iff_toNat_le.mp (above coordinator.self.nodeId)
  omega

end Race

/-- A node alone on its ring, coordinating every key. -/
def loneNode : Coordinator where
  self := ⟨ascii "a", ascii "h", 1⟩
  router := (Router.empty 1).addPhysicalNode ⟨ascii "a", ascii "h", 1⟩
  isAliveFn := none
  hintStore := false
  maxClockEntries := 20

/-- Two clients that write without a context. -/
def blindWrites : List Write :=
  [⟨some (ascii "x"), .empty, 1, 1, 5⟩, ⟨some (ascii "y"), .empty, 1, 1, 6⟩]

/-- Both writes under a schedule; nobody else answers. -/
def blindRun (schedule : List Nat) : Option (NodePool PutResult) :=
  (Pool.start ∅ (blindWrites.map (·.program loneNode (ascii "k")))).run (schedule.map (·, []))

def blindFinal (schedule : List Nat) : NodePool PutResult :=
  (blindRun schedule).getD (Pool.start ∅ [])

/-- The clock of one of the two writes at the end. -/
def blindClock (schedule : List Nat) (index : Nat) : Option VectorClock := do
  let write ← blindWrites[index]?
  let thread ← (blindFinal schedule).threads[index]?
  return (write.version loneNode thread.seen).clock

theorem concurrent_writes_never_share_version_in_turn :
    ((blindClock [0, 0, 0, 0, 1, 1, 1, 1] 0).get (by decide +kernel)).compare
      ((blindClock [0, 0, 0, 0, 1, 1, 1, 1] 1).get (by decide +kernel)) ≠ .equal := by
  exact concurrent_writes_never_share_version loneNode (ascii "k") ∅ blindWrites
    ([0, 0, 0, 0, 1, 1, 1, 1].map (·, [])) (blindFinal [0, 0, 0, 0, 1, 1, 1, 1]) (by decide)
    ⟨_, by decide +kernel, rfl⟩ (by decide) rfl (by decide +kernel) 0 1 (by decide) _ _
    ⟨_, _, rfl, rfl, by decide +kernel, rfl⟩ ⟨_, _, rfl, rfl, by decide +kernel, rfl⟩

/-- Both calls read the empty copy before either puts, and both versions carry `a:1`. -/
theorem concurrent_writes_share_version :
    ¬ ∀ (coordinator : Coordinator) (key : Bytes) (store : Storage) (one two : Write)
        (schedule : List (Nat × Replies)) (final : NodePool PutResult)
        (first second : VectorClock),
      isValidNodeId coordinator.self.nodeId = true → coordinator.Primary key →
      one.context.OverValidIds → two.context.OverValidIds →
      (Pool.start store ([one, two].map (·.program coordinator key))).run schedule = some final →
      Produced coordinator [one, two] final 0 first → Produced coordinator [one, two] final 1 second →
      first.compare second ≠ .equal := by
  intro distinct
  refine distinct loneNode (ascii "k") ∅ ⟨some (ascii "x"), .empty, 1, 1, 5⟩ ⟨some (ascii "y"), .empty, 1, 1, 6⟩
    ([0, 1, 0, 1, 0, 1, 0, 1].map (·, [])) (blindFinal [0, 1, 0, 1, 0, 1, 0, 1]) _ _ (by decide)
    ⟨_, by decide +kernel, rfl⟩ (by decide) (by decide) rfl
    ⟨_, _, rfl, rfl, by decide +kernel, rfl⟩ ⟨_, _, rfl, rfl, by decide +kernel, rfl⟩ ?_
  decide +kernel

end MiniDynamo
