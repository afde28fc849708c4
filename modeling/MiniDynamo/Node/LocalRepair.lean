import MiniDynamo.Node.Calls

/-! The read repair of the local copy among the other calls of a node. It is decided on the
copy read before the fan-out and written after it, and nothing looks at the copy again. -/

namespace MiniDynamo

variable {coordinator : Coordinator} {client : ReplicaClient} {key : Bytes}

/-- The version in a reply can be stored and read back. -/
def SafeReply : Reply → Prop
  | .write _ => True
  | .read result => result.value.clock.WireSafe

instance (reply : Reply) : Decidable (SafeReply reply) :=
  match reply with
  | .write _ => inferInstanceAs (Decidable True)
  | .read result => inferInstanceAs (Decidable result.value.clock.WireSafe)

def SafeReplies (replies : Replies) : Prop := ∀ reply ∈ replies, SafeReply reply.2

instance (replies : Replies) : Decidable (SafeReplies replies) :=
  inferInstanceAs (Decidable (∀ reply ∈ replies, SafeReply reply.2))

theorem SafeReplies.reported {replies : Replies} {version : VersionedValue} (safe : SafeReplies replies)
    (reported : Coordinator.Reported version replies) : version.clock.WireSafe := by
  obtain ⟨position, result, member, rfl⟩ := reported
  exact safe _ member

/-- What a read still puts: versions ahead of the copy it saw. -/
def Forward (key : Bytes) (seen : Option Bytes) (target bytes : Bytes) : Prop :=
  target = key ∧ ∃ version : VersionedValue,
    bytes = version.serialize ∧ version.clock.WireSafe ∧ Coordinator.Ahead version seen

/-- Where a thread running `coordinateGet` stands. -/
inductive Reading (coordinator : Coordinator) (key : Bytes) (n r : Int) : NodeThread Outcome → Prop where
  | start (seen : Option Bytes) :
      Reading coordinator key n r ⟨coordinator.coordinateGet key n r >>= fun result => .done (.read result), seen⟩
  | asking (owners : List NodeInfo) (owner : NodeInfo) (seen : Option Bytes) :
      Reading coordinator key n r
        ⟨coordinator.gather key r owners [Coordinator.localResp owner seen] >>= fun result => .done (.read result), seen⟩
  | waiting (owners : List NodeInfo) (owner : NodeInfo) (seen : Option Bytes) :
      Reading coordinator key n r
        ⟨.await (fun replies => coordinator.settle key r [Coordinator.localResp owner seen]
          (coordinator.liveOwners owners) replies >>= fun result => .done (.read result)), seen⟩
  | settling (program : NodeProgram Outcome) (seen : Option Bytes)
      (only : program.Only (Forward key seen) (fun _ => True) (fun _ => True)) :
      Reading coordinator key n r ⟨program, seen⟩

/-- A read that does not own the key never writes. -/
theorem gather_remote_only (owners : List NodeInfo) (r : Int) (seen : Option Bytes) :
    (coordinator.gather key r owners [] >>= fun result => .done (.read result)).Only (Forward key seen)
      (fun _ => True) (fun _ : Outcome => True) := by
  refine ⟨fun _ _ => trivial, fun replies => ?_⟩
  refine ((Coordinator.settle_puts [] r replies).mono ?_ (fun _ _ => trivial) (fun _ _ => trivial)).bind
    (fun _ _ => trivial)
  rintro target bytes ⟨-, version, -, -, response, impossible, -⟩
  cases impossible

theorem settle_forward {owners : List NodeInfo} (owner : NodeInfo) (seen : Option Bytes) (r : Int) {replies : Replies}
    (safe : SafeReplies replies) :
    (coordinator.settle key r [Coordinator.localResp owner seen] (coordinator.liveOwners owners) replies >>=
      fun result => .done (.read result)).Only (Forward key seen) (fun _ => True) (fun _ : Outcome => True) := by
  refine ((Coordinator.settle_puts_ahead owner seen r replies).mono ?_ (fun _ _ => trivial)
    (fun _ _ => trivial)).bind (fun _ _ => trivial)
  rintro target bytes ⟨rfl, version, rfl, reported, ahead⟩
  exact ⟨rfl, version, rfl, safe.reported reported, ahead⟩

/-- A read's first step, or the lack of one. -/
theorem coordinateGet_cases (coordinator : Coordinator) (key : Bytes) (n r : Int) :
    (∃ owners owner, coordinator.coordinateGet key n r = .get key (fun stored =>
      coordinator.gather key r owners [Coordinator.localResp owner stored])) ∨
    ∀ seen, (coordinator.coordinateGet key n r >>= fun result => .done (.read result)).Only (Forward key seen)
      (fun _ => True) (fun _ : Outcome => True) := by
  cases found : coordinator.router.findOwners key n with
  | none => exact .inr (fun seen => by simp only [Coordinator.coordinateGet, found]; trivial)
  | some owners =>
    cases owners with
    | nil => exact .inr (fun seen => by simp only [Coordinator.coordinateGet, found]; trivial)
    | cons first rest =>
      have shape := Coordinator.coordinateGet_eq found (by simp) r
      cases own : coordinator.ownOwner (first :: rest) with
      | none =>
        rw [own] at shape
        exact .inr (fun seen => shape ▸ gather_remote_only (first :: rest) r seen)
      | some owner =>
        rw [own] at shape
        exact .inl ⟨first :: rest, owner, shape⟩

section Steps

variable {n r : Int} {pool next : NodePool Outcome} {index : Nat} {input : Replies} {sent : List Outgoing}

/-- What one step of a read leaves: the read further on, and in the log at most one put,
ahead of the copy it saw. -/
def Moved (coordinator : Coordinator) (key : Bytes) (n r : Int) (index : Nat) (seen : Option Bytes)
    (pool next : NodePool Outcome) : Prop :=
  ∃ after, Reading coordinator key n r after ∧ next.threads = pool.threads.set index after ∧
    (next.log = pool.log ∨ ∃ target bytes, Forward key seen target bytes ∧
      next.log = pool.log ++ [⟨index, target, seen, pool.store[target]?, bytes⟩])

theorem moved_of_only {thread : NodeThread Outcome}
    (only : thread.program.Only (Forward key thread.seen) (fun _ => True) (fun _ => True))
    (found : pool.threads[index]? = some thread) (stepped : pool.step index input = some (next, sent)) :
    Moved coordinator key n r index thread.seen pool next := by
  obtain ⟨after, seen, onlyAfter, -, moved⟩ := Pool.step_only only found stepped
  have reading : Reading coordinator key n r after := .settling after.program after.seen (seen ▸ onlyAfter)
  rcases moved with rfl | ⟨target, bytes, forward, -, rfl⟩
  · exact ⟨after, reading, rfl, .inl rfl⟩
  · exact ⟨after, reading, rfl, .inr ⟨target, bytes, forward, rfl⟩⟩

theorem Reading.step {thread : NodeThread Outcome} (reading : Reading coordinator key n r thread)
    (safe : SafeReplies input) (found : pool.threads[index]? = some thread)
    (stepped : pool.step index input = some (next, sent)) :
    Moved coordinator key n r index thread.seen pool next := by
  obtain ⟨actual, same, moves⟩ := Pool.step_cases stepped
  cases found.symm.trans same
  cases reading with
  | start seen =>
    rcases coordinateGet_cases coordinator key n r with ⟨owners, owner, shape⟩ | only
    · simp only [shape, Process.get_bind] at moves
      obtain ⟨_, _, shape, -, rfl⟩ | ⟨_, _, _, shape, -⟩ | ⟨_, shape, -⟩ | ⟨_, shape, -⟩ := moves
      · cases shape
        exact ⟨_, .asking owners owner _, rfl, .inl rfl⟩
      all_goals cases shape
    · exact moved_of_only (only seen) found stepped
  | asking owners owner seen =>
    simp only [Coordinator.gather, Process.send_bind, Process.await_bind] at moves
    obtain ⟨_, _, shape, -⟩ | ⟨_, _, _, shape, -⟩ | ⟨_, shape, rfl⟩ | ⟨_, shape, -⟩ := moves
    · cases shape
    · cases shape
    · cases shape
      exact ⟨_, .waiting owners owner seen, rfl, .inl rfl⟩
    · cases shape
  | waiting owners owner seen =>
    obtain ⟨_, _, shape, -⟩ | ⟨_, _, _, shape, -⟩ | ⟨_, shape, -⟩ | ⟨_, shape, -, rfl⟩ := moves
    · cases shape
    · cases shape
    · cases shape
    · cases shape
      exact ⟨_, .settling _ seen (settle_forward owner seen r safe), rfl, .inl rfl⟩
  | settling program seen only => exact moved_of_only only found stepped

end Steps

/-- Along a run, reads stand where they should and have only put versions ahead of what they saw. -/
structure Repairing (coordinator : Coordinator) (key : Bytes) (calls : List Call) (pool : NodePool Outcome) : Prop where
  reads : ∀ {index : Nat} {thread : NodeThread Outcome} {n r : Int}, pool.threads[index]? = some thread →
    calls[index]? = some (.get n r) → Reading coordinator key n r thread
  forward : ∀ entry ∈ pool.log, ∀ {n r : Int}, calls[entry.thread]? = some (.get n r) →
    Forward key entry.seen entry.key entry.after

theorem Repairing.step {calls : List Call} {pool next : NodePool Outcome} {index : Nat} {input : Replies}
    {sent : List Outgoing} (repairing : Repairing coordinator key calls pool) (safe : SafeReplies input)
    (stepped : pool.step index input = some (next, sent)) : Repairing coordinator key calls next := by
  obtain ⟨thread, found, -⟩ := Pool.step_cases stepped
  obtain ⟨after, added, threads, grown, own⟩ := Pool.step_frame stepped
  have moved {n r : Int} (called : calls[index]? = some (.get n r)) :
      Moved coordinator key n r index thread.seen pool next :=
    (repairing.reads found called).step safe found stepped
  refine ⟨@fun other thread n r held called => ?_, fun entry logged => ?_⟩
  · by_cases same : index = other
    · subst same
      obtain ⟨reader, reading, threads, -⟩ := moved called
      rw [threads] at held
      rcases Thread.set_cases held with ⟨-, rfl⟩ | ⟨other, -⟩
      · exact reading
      · exact absurd rfl other
    · rw [threads, List.getElem?_set_ne same] at held
      exact repairing.reads held called
  · intro n r called
    rw [grown] at logged
    rcases List.mem_append.mp logged with before | last
    · exact repairing.forward entry before called
    · rw [own entry last] at called
      obtain ⟨reader, -, -, quiet | ⟨target, bytes, forward, put⟩⟩ := moved called
      · have none : added = [] := by simpa [quiet] using grown
        rw [none] at last
        cases last
      · rw [List.append_cancel_left (grown.symm.trans put), List.mem_singleton] at last
        rw [last]
        exact forward

/-- Among any calls of a node, a read that repairs the local copy does not replace a version
that strictly dominates the one it writes, if the copy is still the one it read. -/
theorem local_repair_never_regresses (coordinator : Coordinator) (client : ReplicaClient) (key : Bytes)
    (store : Storage) (calls : List Call) (schedule : List (Nat × Replies)) (final : NodePool Outcome)
    (safe : ∀ label ∈ schedule, SafeReplies label.2)
    (ran : (Pool.start store (calls.map (·.program coordinator client key))).run schedule = some final)
    (repair : Overwrite Bytes Bytes) (logged : repair ∈ final.log) (n r : Int)
    (reader : calls[repair.thread]? = some (.get n r)) (fresh : repair.Fresh)
    (bytes : Bytes) (replaced : repair.before = some bytes) :
    (VersionedValue.deserialize bytes).clock.compare (VersionedValue.deserialize repair.after).clock ≠
      .aDominates := by
  have started : Repairing coordinator key calls (Pool.start store (calls.map (·.program coordinator client key))) := by
    refine ⟨fun held called => ?_, by simp [Pool.start]⟩
    simp only [Pool.start, List.getElem?_map, Option.map_eq_some_iff] at held
    obtain ⟨_, ⟨call, again, rfl⟩, rfl⟩ := held
    cases called.symm.trans again
    exact .start none
  have repairing : Repairing coordinator key calls final :=
    Pool.guarded_run_invariant (fun held allowed stepped => held.step allowed stepped) started safe ran
  obtain ⟨-, version, same, wireSafe, ahead⟩ := repairing.forward repair logged reader
  have below := ahead bytes (fresh.symm.trans replaced)
  rw [same, VersionedValue.deserialize_serialize wireSafe, Ne, VectorClock.compare_aDominates_iff]
  exact lt_asymm below

/-- Node `a` of a ring of two. -/
def nodeOfTwo : Coordinator where
  self := ⟨ascii "a", ascii "h", 1⟩
  router := ([⟨ascii "a", ascii "h", 1⟩, ⟨ascii "b", ascii "h", 2⟩] : List NodeInfo).foldl Router.addPhysicalNode
    (Router.empty 1)
  isAliveFn := none
  hintStore := false
  maxClockEntries := 20

/-- The versions `b` makes of a key, one after the other. -/
def versionOfB (count : UInt64) : VersionedValue :=
  ⟨ascii "v", .set .empty (ascii "b") count 0, false⟩

/-- A read of `k` at `a`, and a version of `b` arriving there. -/
def readAndReplicate (count : UInt64) : List Call :=
  [.get 2 2, .serve ⟨ascii "b", 0, 0⟩ (.writeReplica ⟨ascii "a", ascii "h", 1⟩ (ascii "k") (versionOfB count))]

/-- Replica `b` answers the read with one of its versions. -/
def answerOfB (count : UInt64) : Replies := [(0, .read ⟨true, true, versionOfB count⟩)]

def repairFinal (store : Storage) (calls : List Call) (schedule : List (Nat × Replies)) : NodePool Outcome :=
  ((Pool.start store (calls.map (·.program nodeOfTwo .inProcess (ascii "k")))).run schedule).getD (Pool.start ∅ [])

theorem local_repair_never_regresses_alone :
    (VersionedValue.deserialize (versionOfB 1).serialize).clock.compare
      (VersionedValue.deserialize (versionOfB 2).serialize).clock ≠ .aDominates :=
  local_repair_never_regresses nodeOfTwo .inProcess (ascii "k")
    ((∅ : Storage).insert (ascii "k") (versionOfB 1).serialize) [.get 2 2]
    [(0, []), (0, []), (0, answerOfB 2), (0, [])]
    (repairFinal ((∅ : Storage).insert (ascii "k") (versionOfB 1).serialize) [.get 2 2]
      [(0, []), (0, []), (0, answerOfB 2), (0, [])])
    (by decide) rfl
    ⟨0, ascii "k", some (versionOfB 1).serialize, some (versionOfB 1).serialize, (versionOfB 2).serialize⟩
    (by decide +kernel) 2 2 rfl rfl _ rfl

/-- The read sees no local copy; then `b:2` arrives, and the repair with the stale `b:1` of
the other replica is written over it. -/
theorem local_repair_loses_newer_write :
    ¬ ∀ (coordinator : Coordinator) (client : ReplicaClient) (key : Bytes) (store : Storage) (calls : List Call)
        (schedule : List (Nat × Replies)) (final : NodePool Outcome) (repair : Overwrite Bytes Bytes) (n r : Int)
        (bytes : Bytes),
      (∀ label ∈ schedule, SafeReplies label.2) →
      (Pool.start store (calls.map (·.program coordinator client key))).run schedule = some final →
      repair ∈ final.log → calls[repair.thread]? = some (.get n r) → repair.before = some bytes →
      (VersionedValue.deserialize bytes).clock.compare (VersionedValue.deserialize repair.after).clock ≠
        .aDominates := by
  intro never
  refine never nodeOfTwo .inProcess (ascii "k") ∅ (readAndReplicate 2)
    [(0, []), (1, []), (1, []), (0, []), (0, answerOfB 1), (0, [])]
    (repairFinal ∅ (readAndReplicate 2) [(0, []), (1, []), (1, []), (0, []), (0, answerOfB 1), (0, [])])
    ⟨0, ascii "k", none, some (versionOfB 2).serialize, (versionOfB 1).serialize⟩ 2 2 (versionOfB 2).serialize
    (by decide) rfl (by decide +kernel) rfl rfl ?_
  decide +kernel

end MiniDynamo
