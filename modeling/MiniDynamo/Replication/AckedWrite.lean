import MiniDynamo.Replication.QuorumWrite
import MiniDynamo.Replication.ReadPhase

/-! Runs in which a write of a key succeeds and the key is only read afterwards. -/

namespace MiniDynamo

open ReplicaOps (Stage)

variable {client : ReplicaClient} {transport : Transport client}

/-- A run of the cluster in three parts: what came before the write, the write until it has
returned, and what came after it. Of the calls of the key, the earlier ones are over when the
write starts, none overlaps it, and the later ones are reads. Every other version of the key
is older than the write's, also those on their way. -/
structure AckedWrite (transport : Transport client) where
  coordinators : Bytes → Coordinator
  stores : Bytes → Storage
  key : Bytes
  home : Bytes
  operation : Write
  owners : List NodeInfo
  clock : VectorClock
  history : List StoreEvent
  during : List StoreEvent
  later : List StoreEvent
  before : StoreCluster
  written : StoreCluster
  final : StoreCluster
  self : ∀ node, (coordinators node).self.nodeId = node
  ring : ∀ node, (coordinators node).router.findOwners key operation.n = some owners
  alive : ∀ node, ∀ owner ∈ owners, (coordinators node).dead owner.nodeId = false
  valid : isValidNodeId home = true
  safe : operation.context.WireSafe
  sound : ∀ event ∈ history ++ .call home (.write key operation) :: (during ++ later), transport.Sound event
  begins : Cluster.run (storeProtocol coordinators client) (Cluster.start stores) history = some before
  writes : Cluster.run (storeProtocol coordinators client) before
    (.call home (.write key operation) :: during) = some written
  continues : Cluster.run (storeProtocol coordinators client) written later = some final
  ended : ∀ started ∈ before.called, started.call.key = key →
    (before.returned started.node started.thread).isSome = true
  alone : ∀ node call, .call node call ∈ during → call.key ≠ key
  reads : ∀ node call, .call node call ∈ later → call.key = key → ∃ n r, call = .get key n r
  ok : written.returned home (before.nodes home).threads.length = some (.written ⟨true, clock, []⟩)
  copies : ∀ node bytes, before.held node key = some bytes →
    (VersionedValue.deserialize bytes).clock < clock ∧ (VersionedValue.deserialize bytes).clock.WireSafe
  packets : ∀ packet ∈ before.network, ∀ peer value, packet.request = .writeReplica peer key value →
    value.clock < clock ∧ value.clock.WireSafe
  handlers : ∀ node index thread ticket incoming, before.thread node index = some thread →
    Stage (fun _ => .served ticket (.write ⟨true⟩)) key incoming thread → ¬ thread.program.Finished →
      incoming.clock < clock ∧ incoming.clock.WireSafe

namespace AckedWrite

variable (run : AckedWrite transport)

/-- The version the write made. -/
def version : VersionedValue := ⟨run.operation.value.getD [], run.clock, run.operation.value.isNone⟩

/-- The thread that ran the write. -/
def thread : Nat := (run.before.nodes run.home).threads.length

/-- The writes of a node since the write was called are of its version, or find the copy
their thread had read. -/
def CarefulAt (node : Bytes) : Prop :=
  ∀ write ∈ run.final.writesSince run.before node, write.key = run.key →
    write.after = run.version.serialize ∨ write.after = (transport.carry run.version).serialize ∨ write.Fresh

instance (node : Bytes) : Decidable (run.CarefulAt node) :=
  inferInstanceAs (Decidable (∀ write ∈ _, _ → _ ∨ _ ∨ _))

/-- What the write returned was made of a clock that can be stored and sent. -/
theorem clock_wireSafe : run.clock.WireSafe := by
  obtain ⟨called, stepped, later⟩ := Option.bind_eq_some_iff.mp run.writes
  have promises : ((ClientCall.write run.key run.operation).program (run.coordinators run.home) client).Keeps
      (.returning fun outcome => ∀ result, outcome = .written result → result.ok = true → result.clock.WireSafe)
      none := by
    rw [QuorumWrite.program_eq]
    intro stored _
    have makes := (run.coordinators run.home).writeQuorum_only run.key
      (run.operation.version (run.coordinators run.home) stored) run.operation.n run.operation.w
    refine (makes.bind (fun result clocks => ?_)).keeps (fun _ _ _ => trivial) (fun _ _ => trivial)
      (fun _ promised => promised)
    rintro _ ⟨⟩ ok
    rw [clocks ok]
    exact Write.version_wireSafe (by rw [run.self]; exact run.valid) run.safe
  obtain ⟨after, found, keeps⟩ := Cluster.keeps_run (Cluster.thread_called stepped) promises later
  obtain ⟨thread, there, done⟩ := Cluster.returned_eq_some.mp run.ok
  cases found.symm.trans there
  rw [done] at keeps
  exact keeps _ rfl rfl

/-- The node that holds the version as it was made: the writing node, if it is an owner. -/
def root : Option Bytes := if run.home ∈ run.owners.map NodeInfo.nodeId then some run.home else none

theorem root_eq_some {node : Bytes} :
    run.root = some node ↔ node = run.home ∧ run.home ∈ run.owners.map NodeInfo.nodeId := by
  unfold root
  split
  · rename_i owner
    simpa [owner] using eq_comm
  · rename_i outside
    simp [outside]

def latest : Latest transport := ⟨run.key, run.version, run.root, run.clock_wireSafe⟩

def quorumWrite : QuorumWrite transport run.coordinators where
  toLatest := run.latest
  home := run.home
  operation := run.operation
  thread := run.thread
  owners := run.owners
  rooted := rfl
  self := run.self run.home
  found := run.ring run.home
  alive := run.alive run.home
  makes := rfl

theorem unrivalled : run.latest.Unrivalled run.before := by
  refine ⟨run.copies, run.packets, run.handlers, fun started logged same => ?_⟩
  obtain ⟨outcome, returned⟩ := Option.isSome_iff_exists.mp (run.ended started logged same)
  obtain ⟨thread, found, done⟩ := Cluster.returned_eq_some.mp returned
  exact ⟨thread, found, outcome, done⟩

theorem sound_history : ∀ event ∈ run.history, transport.Sound event :=
  fun event member => run.sound event (List.mem_append_left _ member)

theorem sound_writes : ∀ event ∈ .call run.home (.write run.key run.operation) :: run.during, transport.Sound event := by
  intro event member
  refine run.sound event (List.mem_append_right _ ?_)
  rw [← List.cons_append]
  exact List.mem_append_left _ member

theorem sound_later : ∀ event ∈ run.later, transport.Sound event :=
  fun event member => run.sound event (List.mem_append_right _ (List.mem_cons_of_mem _ (List.mem_append_right _ member)))

theorem orderly_before : Orderly transport run.key run.before :=
  (Orderly.start run.stores).run run.sound_history run.begins

theorem orderly_written : Orderly transport run.key run.written :=
  run.orderly_before.run run.sound_writes run.writes

theorem ticketed_before : Cluster.Ticketed (storeProtocol run.coordinators client) run.before :=
  (Cluster.Ticketed.start run.stores).run (storeProtocol_lawful run.coordinators client) run.begins

theorem ticketed_written : Cluster.Ticketed (storeProtocol run.coordinators client) run.written :=
  run.ticketed_before.run (storeProtocol_lawful run.coordinators client) run.writes

theorem writesSince_final (node : Bytes) : run.final.writesSince run.before node =
    run.written.writesSince run.before node ++ run.final.writesSince run.written node :=
  Cluster.writesSince_run (Cluster.log_run run.writes node) run.continues

/-- When the write has returned, the version is where its result says. -/
theorem stored (careful : ∀ owner ∈ run.owners, run.CarefulAt owner.nodeId) :
    run.quorumWrite.Underway run.written ∧ run.quorumWrite.Stored run.written := by
  obtain ⟨called, stepped, rest⟩ := Option.bind_eq_some_iff.mp run.writes
  have begun : run.quorumWrite.Underway called :=
    .start run.unrivalled run.orderly_before run.ticketed_before rfl stepped
  have goes : run.quorumWrite.Underway run.written ∨
      ∃ thread, run.written.thread run.home run.thread = some thread ∧ run.quorumWrite.Strays thread := by
    refine begun.run (run.orderly_before.step (run.sound_writes _ List.mem_cons_self) stepped)
      (fun event member => ⟨run.sound_writes event (List.mem_cons_of_mem _ member), ?_⟩) rest ?_
    · rintro node call rfl
      exact run.alone node call member
    · intro node entry logged owner
      obtain ⟨info, present, rfl⟩ := List.mem_map.mp owner
      refine careful info present entry ?_
      rw [run.writesSince_final, Cluster.writesSince_run (Cluster.log_step stepped _) rest]
      exact List.mem_append_left _ (List.mem_append_right _ logged)
  obtain ⟨⟨program, seen⟩, found, done⟩ := Cluster.returned_eq_some.mp run.ok
  obtain rfl : program = .done _ := done
  rcases goes with underway | ⟨thread, there, strays⟩
  · exact ⟨underway, underway.stored found rfl⟩
  · cases found.symm.trans there
    exact absurd rfl (strays _ rfl rfl)

theorem quorum_holds (careful : ∀ owner ∈ run.owners, run.CarefulAt owner.nodeId) :
    ∃ nodes : List Bytes, nodes.Nodup ∧ nodes ⊆ run.owners.map NodeInfo.nodeId ∧ run.operation.w ≤ nodes.length ∧
      ∀ node ∈ nodes, run.latest.Current node (run.written.held node run.key) :=
  (run.stored careful).2.quorum

/-- The version, with the nodes that are known to hold it. -/
def pledge (Pledged : Bytes → Prop)
    (atRoot : ∀ node, run.root = some node → Pledged node ∨ transport.carry run.version = run.version)
    (visible : ∀ copy, copy = run.version ∨ copy = transport.carry run.version →
      (transport.report (some copy)).found = true) : Pledge transport :=
  { run.latest with Pledged := Pledged, atRoot := atRoot, visible := visible }

section Reads

variable {run} {Pledged : Bytes → Prop}
variable {atRoot : ∀ node, run.root = some node → Pledged node ∨ transport.carry run.version = run.version}
variable {visible : ∀ copy, copy = run.version ∨ copy = transport.carry run.version →
  (transport.report (some copy)).found = true}
variable {goal : Bytes → Int → Int → Outcome → Prop}

/-- The read phase starts when the write has returned. -/
theorem readPhase_start (underway : run.quorumWrite.Underway run.written)
    (holds : ∀ node, Pledged node → run.latest.Current node (run.written.held node run.key)) :
    (run.pledge Pledged atRoot visible).ReadPhase run.coordinators goal run.written run.written := by
  obtain ⟨thread, found, done⟩ := Cluster.returned_eq_some.mp run.ok
  have none : run.written.callsSince run.written = [] := List.drop_length
  refine ⟨Nat.le_refl _, run.ticketed_written, run.orderly_written, ⟨underway.calm.copies, underway.calm.packets,
    @fun node index running there _ => ?_⟩, holds, fun member => ?_⟩
  · by_cases own : run.quorumWrite.Own node index
    · obtain ⟨rfl, rfl⟩ := own
      cases found.symm.trans there
      exact Latest.finished_keeps ⟨_, done⟩
    · exact underway.calm.threads there own
  · rw [none] at member
    cases member

theorem readPhase_final (underway : run.quorumWrite.Underway run.written)
    (holds : ∀ node, Pledged node → run.latest.Current node (run.written.held node run.key))
    (careful : ∀ node, Pledged node → run.CarefulAt node)
    (keeps : ∀ node n r, ((ClientCall.get run.key n r).program (run.coordinators node) client).Keeps
      ((run.pledge Pledged atRoot visible).reading ((run.coordinators node).readTargets run.key n) node
        (goal node n r)) none) :
    (run.pledge Pledged atRoot visible).ReadPhase run.coordinators goal run.written run.final := by
  have cleanKey : transport.Clean run.key := (run.sound_writes _ List.mem_cons_self).2
  refine Cluster.run_invariant (run.pledge Pledged atRoot visible).Admits
    (fun node write => Pledged node → run.latest.Careful write)
    ((run.pledge Pledged atRoot visible).ReadPhase run.coordinators goal run.written)
    (fun phase admits good stepped => phase.step keeps cleanKey admits
      (fun node promised write logged => good node write logged promised) stepped)
    (readPhase_start underway holds) (fun event member => ⟨run.sound_later event member, ?_⟩) run.continues ?_
  · rintro node call rfl same
    exact run.reads node call member same
  · intro node write logged promised
    exact careful node promised write (run.writesSince_final node ▸ List.mem_append_right _ logged)

/-- Every read after the write returns as it should. -/
theorem returned_of_readPhase
    (phase : (run.pledge Pledged atRoot visible).ReadPhase run.coordinators goal run.written run.final)
    {node : Bytes} {index : Nat} {n r : Int} {outcome : Outcome}
    (called : ⟨node, index, .get run.key n r⟩ ∈ run.final.callsSince run.written)
    (returned : run.final.returned node index = some outcome) : goal node n r outcome := by
  obtain ⟨_, _, same, reader⟩ := phase.reads called rfl
  cases same
  obtain ⟨thread, found, keeps⟩ := reader.thread
  obtain ⟨actual, there, done⟩ := Cluster.returned_eq_some.mp returned
  cases found.symm.trans there
  rw [done] at keeps
  exact keeps

end Reads

end AckedWrite

end MiniDynamo
