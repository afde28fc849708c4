import MiniDynamo.Coordinator.ReadPath
import MiniDynamo.Library.Monitor

/-! The threads behind a coordinated call: one per remote replica, an accumulator under a mutex that they add
their results to, the wait for a quorum with its deadline, and the counter that the destructor waits for. The
coordinator's programs, which receive a list of replies, stand for exactly what these threads can do. -/

namespace MiniDynamo

/-- The accumulator of a quorum write. -/
structure WriteQuorum where
  acks : Int
  completed : Int

/-- The accumulator of a quorum read. -/
structure ReadQuorum where
  responses : List Resp
  completed : Int

/-- What each replica thread of a write does with its result, and what the coordinator waits for. -/
def WriteQuorum.guard (w : Int) (remotes : List NodeInfo) : Guard WriteQuorum Nat ReplicaWriteResult where
  record q _ r := ⟨if r.ok then q.acks + 1 else q.acks, q.completed + 1⟩
  ready q := decide (w ≤ q.acks) || decide (q.completed = remotes.length)
  timed := true

/-- The same for a read. A replica that failed to answer is not a response. -/
def ReadQuorum.guard (r : Int) (remotes : List NodeInfo) : Guard ReadQuorum Nat ReplicaReadResult where
  record q position rr :=
    ⟨match remotes[position]? with
      | some peer => if rr.ok then q.responses ++ [⟨peer, rr.found, rr.value⟩] else q.responses
      | none => q.responses, q.completed + 1⟩
  ready q := decide (r ≤ q.responses.length) || decide (q.completed = remotes.length)
  timed := true

namespace Coordinator

/-- The fan-out of `writeQuorum` and its wait, for any order of what the threads do. -/
def awaitWrites (w : Int) (localAcks : Nat) (remotes : List NodeInfo) (turns : List (MonitorTurn ReplicaWriteResult)) :
    Monitor WriteQuorum Nat ReplicaWriteResult :=
  (WriteQuorum.guard w remotes).run (Guard.start ⟨localAcks, 0⟩ (List.range remotes.length)) turns

/-- The end of `writeQuorum`, with the accumulator as the wait left it. -/
def writeResult (vv : VersionedValue) (w : Int) (q : WriteQuorum) : PutResult :=
  if w ≤ q.acks then ⟨true, vv.clock, []⟩ else ⟨false, .empty, ascii "quorum_not_met"⟩

/-- The fan-out of `coordinateGet` and its wait. -/
def awaitReads (r : Int) (own : List Resp) (remotes : List NodeInfo) (turns : List (MonitorTurn ReplicaReadResult)) :
    Monitor ReadQuorum Nat ReplicaReadResult :=
  (ReadQuorum.guard r remotes).run (Guard.start ⟨own, 0⟩ (List.range remotes.length)) turns

/-- The rest of `coordinateGet`, with the snapshot of the responses. -/
def readRest (coordinator : Coordinator) (key : Bytes) (r : Int) (q : ReadQuorum) : NodeProgram GetResult :=
  if q.responses.length < r then return ⟨.error, [], ascii "quorum_not_met"⟩
  else coordinator.conclude key q.responses

/-- At most one reply for each remote replica. -/
def Answerable (remotes : List NodeInfo) (replies : Replies) : Prop :=
  (replies.map Prod.fst).Nodup ∧ ∀ reply ∈ replies, reply.1 < remotes.length

section Replies

variable {Outcome : Type} {remotes : List NodeInfo} {wrap : Outcome → Reply}

/-- The results of replica threads, as the replies that a program receives. -/
def repliesOf (wrap : Outcome → Reply) (entries : List (Nat × Outcome)) : Replies :=
  entries.map (fun entry => (entry.1, wrap entry.2))

theorem positions_repliesOf (entries : List (Nat × Outcome)) :
    (repliesOf wrap entries).map Prod.fst = entries.map Prod.fst := by
  simp [repliesOf]

theorem answerable_repliesOf {early later : List (Nat × Outcome)} {running : List Nat}
    (once : (((early ++ later).map Prod.fst) ++ running).Perm (List.range remotes.length)) :
    Answerable remotes (repliesOf wrap early) := by
  have distinct := once.nodup_iff.mpr List.nodup_range
  rw [List.map_append, List.append_assoc] at distinct
  refine ⟨?_, ?_⟩
  · rw [positions_repliesOf]
    exact distinct.of_append_left
  · intro reply member
    obtain ⟨entry, present, rfl⟩ := List.mem_map.mp member
    have inside : entry.1 ∈ ((early ++ later).map Prod.fst) ++ running :=
      List.mem_append_left _ (List.mem_map_of_mem (List.mem_append_left _ present))
    exact List.mem_range.mp (once.mem_iff.mp inside)

/-- The threads that are not in time are the other ones. -/
theorem others_of_answerable {entries : List (Nat × Outcome)}
    (answerable : Answerable remotes (repliesOf wrap entries)) :
    ∃ others, (List.range remotes.length).Perm (entries.map Prod.fst ++ others) := by
  have distinct : (entries.map Prod.fst).Nodup := by
    rw [← @positions_repliesOf Outcome wrap entries]
    exact answerable.1
  have within : entries.map Prod.fst ⊆ List.range remotes.length := by
    intro position member
    obtain ⟨entry, present, rfl⟩ := List.mem_map.mp member
    exact List.mem_range.mpr (answerable.2 (entry.1, wrap entry.2) (List.mem_map_of_mem present))
  obtain ⟨part, same, sub⟩ := distinct.subperm within
  obtain ⟨others, whole⟩ := sub.exists_perm_append
  exact ⟨others, whole.trans (same.append_right others)⟩

end Replies

theorem replay_writes (w : Int) (remotes : List NodeInfo) (q : WriteQuorum)
    (entries : List (Nat × ReplicaWriteResult)) :
    (WriteQuorum.guard w remotes).replay q entries =
      ⟨q.acks + acks (repliesOf .write entries), q.completed + entries.length⟩ := by
  induction entries generalizing q with
  | nil => simp [Guard.replay, repliesOf, acks]
  | cons entry rest ih =>
    obtain ⟨position, ok⟩ := entry
    show (WriteQuorum.guard w remotes).replay _ rest = _
    rw [ih]
    cases ok with
    | mk ok => cases ok <;> simp [WriteQuorum.guard, repliesOf, acks] <;> omega

theorem replay_reads (r : Int) (remotes : List NodeInfo) (q : ReadQuorum)
    (entries : List (Nat × ReplicaReadResult)) :
    (ReadQuorum.guard r remotes).replay q entries =
      ⟨q.responses ++ answers remotes (repliesOf .read entries), q.completed + entries.length⟩ := by
  induction entries generalizing q with
  | nil => simp [Guard.replay, repliesOf, answers]
  | cons entry rest ih =>
    obtain ⟨position, result⟩ := entry
    show (ReadQuorum.guard r remotes).replay _ rest = _
    rw [ih]
    cases found : remotes[position]? with
    | none => simp [ReadQuorum.guard, repliesOf, answers, found]; omega
    | some peer => by_cases ok : result.ok <;> simp [ReadQuorum.guard, repliesOf, answers, found, ok] <;> omega

theorem writeResult_replay (vv : VersionedValue) (w : Int) (localAcks : Nat) (remotes : List NodeInfo)
    (entries : List (Nat × ReplicaWriteResult)) :
    writeResult vv w ((WriteQuorum.guard w remotes).replay ⟨localAcks, 0⟩ entries) =
      verdict vv w localAcks (repliesOf .write entries) := by
  rw [replay_writes, writeResult, verdict]
  simp

theorem readRest_replay (coordinator : Coordinator) (key : Bytes) (r : Int) (own : List Resp) (remotes : List NodeInfo)
    (entries : List (Nat × ReplicaReadResult)) :
    coordinator.readRest key r ((ReadQuorum.guard r remotes).replay ⟨own, 0⟩ entries) =
      coordinator.settle key r own remotes (repliesOf .read entries) := by
  rw [replay_reads]
  rfl

/-- What a wait saw: the results of some of the replicas, in the order of their arrival. -/
theorem seen_entries {Shared Outcome : Type} {guard : Guard Shared Nat Outcome} {shared seen : Shared}
    {remotes : List NodeInfo} {turns : List (MonitorTurn Outcome)} (wrap : Outcome → Reply)
    (through : (guard.run (Guard.start shared (List.range remotes.length)) turns).waiter = .through seen) :
    ∃ entries, Answerable remotes (repliesOf wrap entries) ∧ seen = guard.replay shared entries := by
  have sound : guard.Sound shared (List.range remotes.length) (guard.run (Guard.start shared _) turns) :=
    Guard.sound_run shared (List.range remotes.length) turns
  obtain ⟨early, later, split, saw, -⟩ := sound.through seen through
  have once := sound.once
  rw [split] at once
  exact ⟨early, answerable_repliesOf once, saw⟩

/-- The waits are what the programs make of them: over every order in which the replica threads, the waiting
thread and the deadline can go, a write returns and a read goes on exactly as the coordinator's program does
for some list of replies, at most one from each remote replica; and every such list can come about. -/
theorem waits_exact (coordinator : Coordinator) (key : Bytes) (remotes : List NodeInfo) :
    (∀ vv w localAcks result,
      (∃ turns seen, (awaitWrites w localAcks remotes turns).waiter = .through seen ∧ writeResult vv w seen = result) ↔
        ∃ entries, Answerable remotes (repliesOf .write entries) ∧
          verdict vv w localAcks (repliesOf .write entries) = result) ∧
    ∀ r own rest,
      (∃ turns seen, (awaitReads r own remotes turns).waiter = .through seen ∧ coordinator.readRest key r seen = rest) ↔
        ∃ entries, Answerable remotes (repliesOf .read entries) ∧
          coordinator.settle key r own remotes (repliesOf .read entries) = rest := by
  refine ⟨fun vv w localAcks result => ⟨?_, ?_⟩, fun r own rest => ⟨?_, ?_⟩⟩
  · rintro ⟨turns, seen, through, rfl⟩
    obtain ⟨entries, answerable, rfl⟩ := seen_entries .write through
    exact ⟨entries, answerable, (writeResult_replay vv w localAcks remotes entries).symm⟩
  · rintro ⟨entries, answerable, rfl⟩
    obtain ⟨others, within⟩ := others_of_answerable answerable
    obtain ⟨turns, through⟩ := @Guard.seen_of_entries _ _ _ (WriteQuorum.guard w remotes) ⟨localAcks, 0⟩ _ rfl entries _
      within
    exact ⟨turns, _, through, writeResult_replay vv w localAcks remotes entries⟩
  · rintro ⟨turns, seen, through, rfl⟩
    obtain ⟨entries, answerable, rfl⟩ := seen_entries .read through
    exact ⟨entries, answerable, (readRest_replay coordinator key r own remotes entries).symm⟩
  · rintro ⟨entries, answerable, rfl⟩
    obtain ⟨others, within⟩ := others_of_answerable answerable
    obtain ⟨turns, through⟩ := @Guard.seen_of_entries _ _ _ (ReadQuorum.guard r remotes) ⟨own, 0⟩ _ rfl entries _ within
    exact ⟨turns, _, through, readRest_replay coordinator key r own remotes entries⟩

/-- A wait ends when it should: a state in which it has ended was due, and from a state that is due the waiting
thread gets to the end by itself. -/
structure Ends {Shared Outcome : Type} (guard : Guard Shared Nat Outcome) (state : Monitor Shared Nat Outcome)
    (met : Shared → Prop) (all : Shared → Prop) : Prop where
  due : ∀ seen, state.waiter = .through seen → met seen ∨ all seen ∨ state.expired = true
  ends : met state.shared ∨ state.running = [] ∨ state.expired = true →
    ∃ turns, (∀ turn ∈ turns, turn = .check ∨ turn = .timeout) ∧ turns.length ≤ 3 ∧
      ∃ seen, (guard.run state turns).waiter = .through seen

/-- It is enough to know when the record is ready. -/
theorem ends_of_sound {Shared Outcome : Type} {guard : Guard Shared Nat Outcome} {shared : Shared}
    {remotes : List NodeInfo} {state : Monitor Shared Nat Outcome} {met all : Shared → Prop}
    (sound : guard.Sound shared (List.range remotes.length) state)
    (ready : ∀ record, guard.ready record = true ↔ met record ∨ all record)
    (counted : ∀ entries, entries.length = remotes.length → all (guard.replay shared entries)) :
    Ends guard state met all where
  due seen through := by
    obtain ⟨early, later, -, -, stops⟩ := sound.through seen through
    rcases stops with stops | expired
    · exact ((ready seen).mp stops).elim .inl (fun every => .inr (.inl every))
    · exact .inr (.inr expired)
  ends := by
    rintro (quorum | answered | expired)
    · exact sound.released (.inl ((ready _).mpr (.inl quorum)))
    · have every : state.finished.length = remotes.length := by
        have once := sound.once.length_eq
        simpa [answered] using once
      apply sound.released
      left
      rw [ready, sound.record]
      exact .inr (counted state.finished every)
    · exact sound.released (.inr expired)

/-- Nobody waits in vain: whatever the threads do, a write or read stops waiting only with its quorum, with the
results of all replicas or after its deadline, and once it has one of these no wakeup is missing for it to go on. -/
theorem waits_end (remotes : List NodeInfo) :
    (∀ w localAcks turns, Ends (WriteQuorum.guard w remotes) (awaitWrites w localAcks remotes turns)
      (w ≤ ·.acks) (·.completed = remotes.length)) ∧
    ∀ r own turns, Ends (ReadQuorum.guard r remotes) (awaitReads r own remotes turns)
      (r ≤ ·.responses.length) (·.completed = remotes.length) := by
  refine ⟨fun w localAcks turns => ?_, fun r own turns => ?_⟩
  · have sound : (WriteQuorum.guard w remotes).Sound ⟨localAcks, 0⟩ (List.range remotes.length)
        (awaitWrites w localAcks remotes turns) := Guard.sound_run _ _ turns
    apply ends_of_sound sound
    · intro record
      simp [WriteQuorum.guard]
    · intro entries every
      rw [replay_writes, every]
      simp
  · have sound : (ReadQuorum.guard r remotes).Sound ⟨own, 0⟩ (List.range remotes.length)
        (awaitReads r own remotes turns) := Guard.sound_run _ _ turns
    apply ends_of_sound sound
    · intro record
      simp [ReadQuorum.guard]
    · intro entries every
      rw [replay_reads, every]
      simp

/-! ### The destructor -/

/-- A background thread is started, or has counted itself out as the last thing it does. -/
inductive BackgroundEvent where
  | spawn
  | retire (index : Nat)

/-- `outstanding`, and the threads there are, by the order in which they were started. -/
structure Background where
  outstanding : Int
  threads : List Nat
  spawned : Nat

namespace Background

def step (background : Background) : BackgroundEvent → Background
  | .spawn =>
    { outstanding := background.outstanding + 1
      threads := background.threads ++ [background.spawned]
      spawned := background.spawned + 1 }
  | .retire index =>
    if index < background.threads.length then
      { background with
        outstanding := background.outstanding - 1
        threads := background.threads.eraseIdx index }
    else background

def after (events : List BackgroundEvent) : Background := events.foldl step ⟨0, [], 0⟩

/-- The counter is the number of threads. -/
def Counted (background : Background) : Prop := background.outstanding = background.threads.length

theorem Counted.step {background : Background} (counted : background.Counted) (event : BackgroundEvent) :
    (background.step event).Counted := by
  have same : background.outstanding = background.threads.length := counted
  cases event with
  | spawn => simp [Background.step, Counted, same]
  | retire index =>
    rw [Background.step]
    split
    · rename_i inside
      have shorter := List.length_eraseIdx_of_lt inside
      simp only [Counted, shorter, same]
      omega
    · exact counted

theorem counted_after (events : List BackgroundEvent) : (after events).Counted :=
  List.foldlRecOn events Background.step (show Counted ⟨0, [], 0⟩ from rfl)
    (fun _ counted event _ => counted.step event)

/-- What the destructor waits for. -/
def guard : Guard Int Nat Unit where
  record outstanding _ _ := outstanding - 1
  ready outstanding := decide (outstanding = 0)
  timed := false

/-- The destructor: no call is under way any more, so that no thread is started. -/
def destroy (background : Background) (turns : List (MonitorTurn Unit)) : Monitor Int Nat Unit :=
  guard.run (Guard.start background.outstanding background.threads) turns

theorem replay_guard (outstanding : Int) (entries : List (Nat × Unit)) :
    guard.replay outstanding entries = outstanding - entries.length := by
  induction entries generalizing outstanding with
  | nil => simp [Guard.replay]
  | cons entry rest ih =>
    show guard.replay (outstanding - 1) rest = _
    rw [ih]
    simp
    omega

end Background

/-- The destructor drains: whatever background threads were started and however they end, the destructor returns
only when none of them is left, and it does return then. -/
theorem destructor_drains (events : List BackgroundEvent) (turns : List (MonitorTurn Unit)) :
    (∀ seen, ((Background.after events).destroy turns).waiter = .through seen →
      ((Background.after events).destroy turns).running = []) ∧
    (((Background.after events).destroy turns).running = [] →
      ∃ own, (∀ turn ∈ own, turn = .check ∨ turn = .timeout) ∧ own.length ≤ 3 ∧
        ∃ seen, ((Background.after events).destroy (turns ++ own)).waiter = .through seen) := by
  have sound : Background.guard.Sound (Background.after events).outstanding (Background.after events).threads
      ((Background.after events).destroy turns) := Guard.sound_run _ _ turns
  have counted : (Background.after events).outstanding = (Background.after events).threads.length :=
    Background.counted_after events
  have total := sound.once.length_eq
  rw [List.length_append, List.length_map] at total
  refine ⟨fun seen through => ?_, fun none => ?_⟩
  · obtain ⟨early, later, split, rfl, stops⟩ := sound.through seen through
    have zero : Background.guard.replay (Background.after events).outstanding early = 0 := by
      rcases stops with ready | expired
      · simpa [Background.guard] using ready
      · rw [sound.untimed rfl] at expired
        cases expired
    rw [Background.replay_guard, counted] at zero
    rw [split, List.length_append] at total
    exact List.length_eq_zero_iff.mp (by omega)
  · have ready : Background.guard.ready ((Background.after events).destroy turns).shared = true := by
      rw [sound.record, Background.replay_guard, counted]
      rw [none, List.length_nil] at total
      simp only [Background.guard, decide_eq_true_eq]
      omega
    obtain ⟨own, alone, short, seen, through⟩ := sound.released (.inl ready)
    refine ⟨own, alone, short, seen, ?_⟩
    rw [Background.destroy, Guard.run, List.foldl_append]
    exact through

end Coordinator

end MiniDynamo
