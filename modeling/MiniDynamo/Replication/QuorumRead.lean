import MiniDynamo.Replication.AckedWrite

/-! Read and write quorums that overlap: with a client that hands versions over as they are,
reads return the last write. -/

namespace MiniDynamo

open Coordinator (answers maximalVersions foundVersions)

variable {client : ReplicaClient} {transport : Transport client}

namespace Pledge

variable {pledge : Pledge transport} {node : Bytes} {newest : VersionedValue} {responses : List Resp}

theorem tops_of_fits (known : pledge.Known node newest)
    (fits : ∀ response ∈ responses, pledge.Fits node response) :
    Coordinator.Tops newest (foundVersions responses) := by
  intro version member
  obtain ⟨response, present, found, rfl⟩ := Coordinator.mem_foundVersions.mp member
  rw [known.same.clock]
  rcases (fits response present).1 found with older | known
  · exact .inl older.1
  · exact .inr known.same.clock

/-- Where a read gets to know the version in one form only, one response with it decides. -/
theorem maximalVersions_of_found (known : pledge.Known node newest)
    (only : ∀ version, pledge.Known node version → version = newest)
    (fits : ∀ response ∈ responses, pledge.Fits node response) {witness : Resp} (member : witness ∈ responses)
    (found : witness.found = true) (same : pledge.Known node witness.vv) : maximalVersions responses = [newest] := by
  refine Coordinator.maximalVersions_newest (tops_of_fits known fits) ?_
  have present := Coordinator.mem_foundVersions.mpr ⟨witness, member, found, only _ same⟩
  cases first : (foundVersions responses).find? (fun cand => decide (cand.clock = newest.clock)) with
  | none => exact absurd (by simp) (List.find?_eq_none.mp first _ present)
  | some version =>
    have equal : version.clock = newest.clock := by simpa using List.find?_some first
    obtain ⟨response, there, found, rfl⟩ := Coordinator.mem_foundVersions.mp (List.mem_of_find?_eq_some first)
    rcases (fits response there).1 found with older | same
    · exact absurd older.1 (known.same.clock ▸ equal ▸ lt_irrefl _)
    · rw [only _ same]

/-- What is promised of the reads with certain numbers is left to show where a read has these numbers
and meets its quorum. -/
theorem settles_of_asked {n copies needed r : Int} {holds : GetResult → Prop}
    (failed : holds ⟨.error, [], ascii "quorum_not_met"⟩)
    (newest : n = copies → needed = r → ¬ (responses.length : Int) < needed →
      ∃ version, maximalVersions responses = [version] ∧ holds (resultOf version)) :
    Settles needed (fun outcome => n = copies → needed = r → ∀ result, outcome = .read result → holds result)
      responses := by
  unfold Settles
  split
  · rintro - - result ⟨⟩
    exact failed
  · rename_i met
    by_cases asked : n = copies ∧ needed = r
    · obtain ⟨version, maximal, good⟩ := newest asked.1 asked.2 met
      refine .inl ⟨version, maximal, ?_⟩
      rintro - - result ⟨⟩
      exact good
    · exact .inr (fun result same needs => absurd ⟨same, needs⟩ asked)

/-- The responses of a read come from as many owners. -/
theorem responders_nodup {coordinator : Coordinator} {owners : List NodeInfo} {own : List Resp} {seen : Option Bytes}
    {replies : Replies} (names : (owners.map NodeInfo.nodeId).Nodup)
    (mine : pledge.OwnResponse coordinator owners own seen) (distinct : (replies.map Prod.fst).Nodup) :
    ((own ++ answers (coordinator.liveOwners owners) replies).map (·.peer.nodeId)).Nodup ∧
      (own ++ answers (coordinator.liveOwners owners) replies).map (·.peer.nodeId) ⊆ owners.map NodeInfo.nodeId := by
  have remote : ∀ id ∈ (answers (coordinator.liveOwners owners) replies).map (·.peer.nodeId),
      id ∈ owners.map NodeInfo.nodeId ∧ id ≠ coordinator.self.nodeId := by
    intro id member
    obtain ⟨response, present, rfl⟩ := List.mem_map.mp member
    obtain ⟨position, -, -, peer, -⟩ := Coordinator.mem_answers present
    exact Coordinator.liveOwners_subset _ (List.mem_map_of_mem (List.mem_of_getElem? peer))
  have nodup := Coordinator.answers_nodup coordinator distinct names
  rcases mine with ⟨-, rfl⟩ | ⟨owner, own, rfl, -⟩
  · exact ⟨nodup, fun id member => (remote id member).1⟩
  · rw [List.singleton_append, List.map_cons, Coordinator.localResp_peer]
    refine ⟨List.nodup_cons.mpr ⟨fun member => (remote _ member).2 (ownOwner_self own), nodup⟩, ?_⟩
    exact List.cons_subset.mpr
      ⟨List.mem_map_of_mem (List.mem_of_find?_eq_some own), fun id member => (remote id member).1⟩

/-- A read quorum has one of the nodes of the write quorum among its responders. -/
theorem maximalVersions_of_overlap {nodes : List Bytes} {n w r : Int} (known : pledge.Known node newest)
    (only : ∀ version, pledge.Known node version → version = newest) (one : 1 ≤ n) (overlap : n < w + r)
    {coordinator : Coordinator} {owners : List NodeInfo}
    (found : coordinator.router.findOwners pledge.key n = some owners) (distinct : nodes.Nodup)
    (within : nodes ⊆ owners.map NodeInfo.nodeId) (enough : w ≤ nodes.length)
    (promised : ∀ node ∈ nodes, pledge.Pledged node) {own : List Resp} {seen : Option Bytes} {replies : Replies}
    (mine : pledge.OwnResponse coordinator owners own seen) (positions : (replies.map Prod.fst).Nodup)
    (fits : ∀ response ∈ own ++ answers (coordinator.liveOwners owners) replies, pledge.Fits node response)
    (met : ¬ ((own ++ answers (coordinator.liveOwners owners) replies).length : Int) < r) :
    maximalVersions (own ++ answers (coordinator.liveOwners owners) replies) = [newest] := by
  obtain ⟨-, names, few⟩ := Router.findOwners_spec found
  obtain ⟨responders, part⟩ := responders_nodup names mine positions
  obtain ⟨place, stored, responded⟩ := Quorum.intersect distinct responders within part (by
    rw [List.length_map, List.length_map]
    omega)
  obtain ⟨response, member, rfl⟩ := List.mem_map.mp responded
  obtain ⟨there, same⟩ := (fits response member).2 (promised _ stored)
  exact maximalVersions_of_found known only fits member there same

end Pledge

namespace AckedWrite

variable (run : AckedWrite transport)

/-- What a read that finds the write returns. -/
def result : GetResult :=
  if run.operation.value.isNone then ⟨.notFound, [], []⟩ else ⟨.ok, [run.version], []⟩

/-- What the reads with the same numbers of replicas and responses return. -/
def Agrees (r : Int) (_ : Bytes) (n needed : Int) (outcome : Outcome) : Prop :=
  n = run.operation.n → needed = r → ∀ result, outcome = .read result →
    result = ⟨.error, [], ascii "quorum_not_met"⟩ ∨ result = run.result

variable {run : AckedWrite Transport.inProcess}

/-- The in-process client hands the version over, so any nodes that hold it may be counted on. -/
def witnesses (run : AckedWrite Transport.inProcess) (nodes : List Bytes) : Pledge Transport.inProcess :=
  run.pledge (· ∈ nodes) (fun _ _ => .inr rfl) (fun _ _ => rfl)

theorem witnesses_known {nodes : List Bytes} {node : Bytes} (version : VersionedValue)
    (known : (run.witnesses nodes).Known node version) : version = run.version := by
  rcases known.same with same | same
  · exact same
  · exact same

theorem quorum_read_returns_last_write (run : AckedWrite Transport.inProcess) (r : Int) (copies : 1 ≤ run.operation.n)
    (acks : 1 ≤ run.operation.w) (overlap : run.operation.n < run.operation.w + r)
    (careful : ∀ owner ∈ run.owners, run.CarefulAt owner.nodeId) (node : Bytes) (index : Nat)
    (called : ⟨node, index, .get run.key run.operation.n r⟩ ∈ run.final.callsSince run.written) (result : GetResult)
    (returned : run.final.returned node index = some (.read result)) :
    result = ⟨.error, [], ascii "quorum_not_met"⟩ ∨ result = run.result := by
  obtain ⟨nodes, distinct, within, enough, current⟩ := run.quorum_holds careful
  have phase : (run.witnesses nodes).ReadPhase run.coordinators (run.Agrees r) run.written run.final := by
    refine readPhase_final (run.stored careful).1 current (fun place member => ?_) (fun place n needed => ?_)
    · obtain ⟨owner, present, rfl⟩ := List.mem_map.mp (within member)
      exact careful owner present
    · refine Pledge.get_keeps (run.self place) (fun empty same => ?_)
        (fun owners own seen replies found mine positions fits => ?_)
      · -- a write that was acknowledged has owners
        rw [same] at empty
        have none : run.owners = [] := Option.some.inj ((run.ring place).symm.trans empty)
        rw [none, List.map_nil, List.subset_nil] at within
        rw [within, List.length_nil] at enough
        omega
      · refine Pledge.settles_of_asked (.inl rfl) ?_
        rintro rfl rfl met
        obtain rfl := Option.some.inj ((run.ring place).symm.trans found)
        exact ⟨run.version, Pledge.maximalVersions_of_overlap (.inr rfl) witnesses_known copies overlap found distinct
          within enough (fun _ member => member) mine positions fits met, .inr rfl⟩
  exact returned_of_readPhase phase called returned rfl rfl result rfl

end AckedWrite

/-- A ring of three nodes. -/
def ringOfThree : Router :=
  ([⟨ascii "a", ascii "h", 1⟩, ⟨ascii "b", ascii "h", 2⟩, ⟨ascii "c", ascii "h", 3⟩] : List NodeInfo).foldl
    Router.addPhysicalNode (Router.empty 1)

def nodeOfThree (id : Bytes) : Coordinator where
  self := ⟨id, ascii "h", 0⟩
  router := ringOfThree
  isAliveFn := none
  hintStore := false
  maxClockEntries := 20

/-- The owners of the key `k` on that ring. -/
def ownersOfThree : List NodeInfo :=
  [⟨ascii "b", ascii "h", 2⟩, ⟨ascii "c", ascii "h", 3⟩, ⟨ascii "a", ascii "h", 1⟩]

theorem nodeOfThree_self : ∀ node, (nodeOfThree node).self.nodeId = node := fun _ => rfl

theorem ownersOfThree_alive : ∀ node, ∀ owner ∈ ownersOfThree, (nodeOfThree node).dead owner.nodeId = false :=
  fun _ _ _ => rfl

theorem isValidNodeId_home : isValidNodeId (ascii "b") = true := by
  decide

theorem findOwners_ringOfThree : ringOfThree.findOwners (ascii "k") 3 = some ownersOfThree := by
  decide +kernel

/-- A write that asks for two acknowledgements of three. -/
def writeOf (value : Option Bytes) (now : UInt64) : Write := ⟨value, .empty, 3, 2, now⟩

theorem writeOf_safe (value : Option Bytes) (now : UInt64) : (writeOf value now).context.WireSafe := by
  show VectorClock.empty.WireSafe
  decide

def clusterAfter (client : ReplicaClient) (events : List StoreEvent) : StoreCluster :=
  (Cluster.run (storeProtocol nodeOfThree client) (Cluster.start fun _ => ∅) events).getD (Cluster.start fun _ => ∅)

/-- What `b` makes of `x` as the first version of the key. -/
def firstVersion : VersionedValue := (writeOf (some (ascii "x")) 5).version (nodeOfThree (ascii "b")) none

/-- Node `b` writes and `c` acknowledges. -/
def steadyWriting : List StoreEvent :=
  [.run (ascii "b") 0 [], .run (ascii "b") 0 [], .run (ascii "b") 0 [], .deliver 0, .run (ascii "c") 0 [],
    .run (ascii "c") 0 [], .run (ascii "b") 0 [(0, .write ⟨true⟩)]]

/-- Node `a` reads, and `c` responds with this version. -/
def steadyReading (value : VersionedValue) : List StoreEvent :=
  [.call (ascii "a") (.get (ascii "k") 3 2), .run (ascii "a") 0 [], .run (ascii "a") 0 [], .deliver 3,
    .run (ascii "c") 1 [], .run (ascii "a") 0 [(1, .read ⟨true, true, value⟩)], .run (ascii "a") 0 []]

theorem steadyWriting_alone : ∀ node call, .call node call ∈ steadyWriting → call.key ≠ ascii "k" := by
  simp [steadyWriting]

theorem start_ended : ∀ started ∈ (Cluster.start (fun _ => ∅) : StoreCluster).called, started.call.key = ascii "k" →
    ((Cluster.start (fun _ => ∅) : StoreCluster).returned started.node started.thread).isSome = true := by
  simp [Cluster.start]

theorem steadyWriting_ok : (clusterAfter .inProcess
    (.call (ascii "b") (.write (ascii "k") (writeOf (some (ascii "x")) 5)) :: steadyWriting)).returned (ascii "b") 0 =
      some (.written ⟨true, firstVersion.clock, []⟩) := by
  decide +kernel

def steadyWrite : AckedWrite Transport.inProcess where
  coordinators := nodeOfThree
  stores _ := ∅
  key := ascii "k"
  home := ascii "b"
  operation := writeOf (some (ascii "x")) 5
  owners := ownersOfThree
  clock := firstVersion.clock
  history := []
  during := steadyWriting
  later := steadyReading firstVersion
  before := Cluster.start fun _ => ∅
  written := clusterAfter .inProcess
    (.call (ascii "b") (.write (ascii "k") (writeOf (some (ascii "x")) 5)) :: steadyWriting)
  final := clusterAfter .inProcess (.call (ascii "b") (.write (ascii "k") (writeOf (some (ascii "x")) 5)) ::
    (steadyWriting ++ steadyReading firstVersion))
  self := nodeOfThree_self
  ring _ := findOwners_ringOfThree
  alive := ownersOfThree_alive
  valid := isValidNodeId_home
  safe := writeOf_safe _ _
  sound event _ := by cases event <;> simp [Transport.Sound, Transport.inProcess]
  begins := rfl
  writes := rfl
  continues := rfl
  ended := start_ended
  alone := steadyWriting_alone
  reads := by simp [steadyReading]
  ok := steadyWriting_ok
  copies := by simp [Cluster.start, Cluster.held, Pool.start]
  packets := by simp [Cluster.start]
  handlers := by simp [Cluster.start, Cluster.thread, Pool.start]

theorem quorum_read_returns_last_write_steady :
    steadyWrite.final.returned (ascii "a") 0 = some (.read ⟨.ok, [firstVersion], []⟩) ∧
      ((⟨.ok, [firstVersion], []⟩ : GetResult) = ⟨.error, [], ascii "quorum_not_met"⟩ ∨
        (⟨.ok, [firstVersion], []⟩ : GetResult) = steadyWrite.result) := by
  have returned : steadyWrite.final.returned (ascii "a") 0 = some (.read ⟨.ok, [firstVersion], []⟩) := by
    decide +kernel
  exact ⟨returned, AckedWrite.quorum_read_returns_last_write steadyWrite 2 (by decide) (by decide) (by decide)
    (by decide +kernel) (ascii "a") 0 List.mem_cons_self _ returned⟩

/-- An earlier write of `b` that nobody acknowledges; its requests are still on their way. -/
def lonelyWriting : List StoreEvent :=
  [.call (ascii "b") (.write (ascii "k") (writeOf (some (ascii "x")) 5)), .run (ascii "b") 0 [],
    .run (ascii "b") 0 [], .run (ascii "b") 0 [], .run (ascii "b") 0 []]

/-- The old request reaches `c`, which reads its copy; then `c` stores and acknowledges the
next write of `b`. -/
def racedWriting : List StoreEvent :=
  [.deliver 0, .run (ascii "c") 0 [], .run (ascii "b") 1 [], .run (ascii "b") 1 [], .run (ascii "b") 1 [], .deliver 2,
    .run (ascii "c") 1 [], .run (ascii "c") 1 [], .run (ascii "b") 1 [(0, .write ⟨true⟩)]]

/-- Node `c` goes on with the old request; then `a` reads, and `c` responds. -/
def racedReading : List StoreEvent :=
  [.run (ascii "c") 0 [], .call (ascii "a") (.get (ascii "k") 3 2), .run (ascii "a") 0 [], .run (ascii "a") 0 [],
    .deliver 5, .run (ascii "c") 2 [], .run (ascii "a") 0 [(1, .read ⟨true, true, firstVersion⟩)],
    .run (ascii "a") 0 []]

theorem nodes_lonelyWriting {node : Bytes} (other : node ≠ ascii "b") :
    (clusterAfter .inProcess lonelyWriting).nodes node = Pool.start ∅ [] := by
  have away : ∀ event ∈ lonelyWriting, Cluster.Away node event := by
    simp [lonelyWriting, Cluster.Away, Ne.symm other]
  have ran : Cluster.run (storeProtocol nodeOfThree .inProcess) (Cluster.start fun _ => ∅) lonelyWriting =
      some (clusterAfter .inProcess lonelyWriting) := rfl
  exact Cluster.nodes_run_away away ran

/-- What `b` makes of `y` over that. -/
def secondVersion : VersionedValue :=
  (writeOf (some (ascii "y")) 6).version (nodeOfThree (ascii "b")) (some firstVersion.serialize)

theorem firstVersion_older :
    firstVersion.clock < secondVersion.clock ∧ firstVersion.clock.WireSafe :=
  ⟨VectorClock.compare_bDominates_iff.mp (by decide +kernel), by decide +kernel⟩

def racedWrite : AckedWrite Transport.inProcess where
  coordinators := nodeOfThree
  stores _ := ∅
  key := ascii "k"
  home := ascii "b"
  operation := writeOf (some (ascii "y")) 6
  owners := ownersOfThree
  clock := secondVersion.clock
  history := lonelyWriting
  during := racedWriting
  later := racedReading
  before := clusterAfter .inProcess lonelyWriting
  written := clusterAfter .inProcess
    (lonelyWriting ++ .call (ascii "b") (.write (ascii "k") (writeOf (some (ascii "y")) 6)) :: racedWriting)
  final := clusterAfter .inProcess (lonelyWriting ++
    .call (ascii "b") (.write (ascii "k") (writeOf (some (ascii "y")) 6)) :: (racedWriting ++ racedReading))
  self := nodeOfThree_self
  ring _ := findOwners_ringOfThree
  alive := ownersOfThree_alive
  valid := isValidNodeId_home
  safe := writeOf_safe _ _
  sound event _ := by cases event <;> simp [Transport.Sound, Transport.inProcess]
  begins := rfl
  writes := rfl
  continues := rfl
  ended := by
    intro started member _
    obtain rfl := List.mem_singleton.mp member
    decide +kernel
  alone := by simp [racedWriting]
  reads := by simp [racedReading]
  ok := by decide +kernel
  copies := by
    intro node bytes held
    by_cases home : node = ascii "b"
    · have stored : (clusterAfter .inProcess lonelyWriting).held (ascii "b") (ascii "k") =
          some firstVersion.serialize := by decide +kernel
      rw [home, stored] at held
      rw [← Option.some.inj held, VersionedValue.deserialize_serialize firstVersion_older.2]
      exact firstVersion_older
    · rw [Cluster.held, nodes_lonelyWriting home] at held
      simp [Pool.start] at held
  packets := by
    intro packet member peer value asked
    have sent : (clusterAfter .inProcess lonelyWriting).network.map Packet.request =
        [.writeReplica ⟨ascii "c", ascii "h", 3⟩ (ascii "k") firstVersion,
          .writeReplica ⟨ascii "a", ascii "h", 1⟩ (ascii "k") firstVersion] := by decide +kernel
    have listed := List.mem_map_of_mem (f := Packet.request) member
    rw [sent, asked] at listed
    have same : value = firstVersion := by
      rcases List.mem_cons.mp listed with first | rest
      · exact (Request.writeReplica.inj first).2.2
      · exact (Request.writeReplica.inj (List.mem_singleton.mp rest)).2.2
    exact same ▸ firstVersion_older
  handlers := by
    intro node index thread ticket incoming found _ running
    by_cases home : node = ascii "b"
    · have ended : ∀ thread ∈ ((clusterAfter .inProcess lonelyWriting).nodes (ascii "b")).threads,
          thread.program.Finished := by decide +kernel
      rw [home] at found
      exact absurd (ended thread (List.mem_of_getElem? found)) running
    · rw [Cluster.thread, nodes_lonelyWriting home] at found
      simp [Pool.start] at found

/-- The old version is written over the one that `c` acknowledged, and a read that meets its
quorum returns it. -/
theorem quorum_read_returns_overwritten_version :
    ¬ ∀ (run : AckedWrite Transport.inProcess) (r : Int), 1 ≤ run.operation.n → 1 ≤ run.operation.w → 1 ≤ r →
      run.operation.n < run.operation.w + r → ∀ (node : Bytes) (index : Nat),
      ⟨node, index, .get run.key run.operation.n r⟩ ∈ run.final.callsSince run.written → ∀ result : GetResult,
      run.final.returned node index = some (.read result) →
        result = ⟨.error, [], ascii "quorum_not_met"⟩ ∨ result = run.result := by
  intro agrees
  have stale := agrees racedWrite 2 (by decide) (by decide) (by decide) (by decide) (ascii "a") 0 List.mem_cons_self
    ⟨.ok, [firstVersion], []⟩ (by decide +kernel)
  revert stale
  decide +kernel

end MiniDynamo
