import MiniDynamo.Replication.QuorumRead

/-! Deletes over the wire: only the node that made a tombstone knows it as one, and only its
reads return that the key is gone. -/

namespace MiniDynamo

open Coordinator (answers maximalVersions foundVersions localResp)

namespace AckedWrite

variable {run : AckedWrite Transport.pooled}

/-- A version without data is reported by every replica that holds it. -/
theorem tombstone_visible (deletes : run.operation.value = none) (copy : VersionedValue)
    (same : copy = run.version ∨ copy = Transport.pooled.carry run.version) :
    (Transport.pooled.report (some copy)).found = true := by
  have text : ([] : Bytes) ≠ Base64.decode (ascii "NOTFOUND") := by decide
  have shape : copy.data = [] ∧ copy.clock = run.clock := by
    rcases same with rfl | rfl
    · exact ⟨by simp [version, deletes], rfl⟩
    · exact ⟨by simp [version, deletes, Transport.pooled, Wire.arrived], rfl⟩
  show (Wire.parseReadReply (Wire.readReply (some copy))).found = true
  rw [Wire.parseReadReply_readReply (shape.2 ▸ run.clock_wireSafe), shape.1, if_neg text]

/-- The nodes of the write quorum hold the tombstone, and so does the deleting node if it is
an owner. -/
def tombstone (run : AckedWrite Transport.pooled) (deletes : run.operation.value = none) (nodes : List Bytes) :
    Pledge Transport.pooled :=
  run.pledge (fun node => node ∈ nodes ∨ run.root = some node) (fun _ root => .inl (.inr root))
    (tombstone_visible deletes)

/-- What the reads with the same numbers of replicas and responses return. -/
def Reveals (run : AckedWrite Transport.pooled) (r : Int) (node : Bytes) (n needed : Int) (outcome : Outcome) : Prop :=
  n = run.operation.n → needed = r → ∀ result, outcome = .read result →
    result.status = .error ∨ (result.status = .notFound ↔ run.root = some node)

section Tombstone

variable (deletes : run.operation.value = none) {nodes : List Bytes} {node : Bytes}

theorem form_root (root : run.root = some node) : (run.tombstone deletes nodes).form node = run.version :=
  if_pos root

/-- Everywhere else the tombstone is known as the live version that the wire carried. -/
theorem known_elsewhere (other : run.root ≠ some node) (version : VersionedValue)
    (known : (run.tombstone deletes nodes).Known node version) : version = Wire.arrived run.version := by
  have form : (run.tombstone deletes nodes).form node = Wire.arrived run.version := if_neg other
  rcases known with same | same
  · exact same.trans form
  · exact same

/-- The tombstone is the first response of the deleting node's own reads. -/
theorem maximalVersions_of_own {coordinator : Coordinator} {own : List Resp} {seen : Option Bytes} {replies : Replies}
    (self : coordinator.self.nodeId = node) (root : run.root = some node)
    (mine : (run.tombstone deletes nodes).OwnResponse coordinator run.owners own seen)
    (fits : ∀ response ∈ own ++ answers (coordinator.liveOwners run.owners) replies,
      (run.tombstone deletes nodes).Fits node response) :
    maximalVersions (own ++ answers (coordinator.liveOwners run.owners) replies) = [run.version] := by
  refine Coordinator.maximalVersions_newest (Pledge.tops_of_fits (.inl (form_root deletes root).symm) fits) ?_
  obtain ⟨home, owner⟩ := run.root_eq_some.mp root
  rcases mine with ⟨none, -⟩ | ⟨entry, found, rfl, -, pledged⟩
  · obtain ⟨entry, member, same⟩ := List.mem_map.mp owner
    exact absurd (by simpa [self, home] using same) (List.find?_eq_none.mp none entry member)
  · have here : entry.nodeId = node := (Pledge.ownOwner_self found).trans self
    have held : seen = some run.version.serialize := by
      rw [← form_root deletes root, ← here]
      exact pledged (.inr (here ▸ root))
    have read : localResp entry seen = ⟨entry, true, run.version⟩ := by
      rw [held, localResp, VersionedValue.deserialize_serialize run.clock_wireSafe]
    rw [read]
    simp [foundVersions]

end Tombstone

theorem deleted_key_is_gone_only_at_home (run : AckedWrite Transport.pooled) (r : Int)
    (deletes : run.operation.value = none) (copies : 1 ≤ run.operation.n)
    (overlap : run.operation.n < run.operation.w + r) (careful : ∀ owner ∈ run.owners, run.CarefulAt owner.nodeId)
    (node : Bytes) (index : Nat)
    (called : ⟨node, index, .get run.key run.operation.n r⟩ ∈ run.final.callsSince run.written) (result : GetResult)
    (returned : run.final.returned node index = some (.read result)) :
    result.status = .error ∨
      (result.status = .notFound ↔ node = run.home ∧ run.home ∈ run.owners.map NodeInfo.nodeId) := by
  obtain ⟨nodes, distinct, within, enough, current⟩ := run.quorum_holds careful
  obtain ⟨underway, stored⟩ := run.stored careful
  have phase : (run.tombstone deletes nodes).ReadPhase run.coordinators (run.Reveals r) run.written run.final := by
    refine readPhase_final underway (fun place promised => ?_) (fun place promised => ?_) (fun place n needed => ?_)
    · rcases promised with member | root
      · exact current place member
      · obtain ⟨rfl, owner⟩ := run.root_eq_some.mp root
        exact stored.atHome owner
    · have owner : place ∈ run.owners.map NodeInfo.nodeId := by
        rcases promised with member | root
        · exact within member
        · obtain ⟨rfl, owner⟩ := run.root_eq_some.mp root
          exact owner
      obtain ⟨info, present, rfl⟩ := List.mem_map.mp owner
      exact careful info present
    · refine Pledge.get_keeps (run.self place) (fun _ => ?_) (fun owners own seen replies found mine positions fits => ?_)
      · rintro - - result ⟨⟩
        exact .inl rfl
      · refine Pledge.settles_of_asked (.inl rfl) ?_
        rintro rfl rfl met
        obtain rfl := Option.some.inj ((run.ring place).symm.trans found)
        by_cases root : run.root = some place
        · refine ⟨run.version, maximalVersions_of_own deletes (run.self place) root mine fits, ?_⟩
          simp [Pledge.resultOf, version, deletes, root]
        · refine ⟨Wire.arrived run.version, Pledge.maximalVersions_of_overlap (.inr rfl) (known_elsewhere deletes root)
            copies overlap found distinct within enough (fun _ member => .inl member) mine positions fits met, ?_⟩
          simp [Pledge.resultOf, Wire.arrived, root]
  rw [← run.root_eq_some]
  exact returned_of_readPhase phase called returned rfl rfl result rfl

end AckedWrite

instance : DecidablePred Transport.pooled.Sound
  | .call node call => inferInstanceAs (Decidable (pipe ∉ node ∧ pipe ∉ call.key))
  | .deliver _ => isTrue trivial
  | .lose _ => isTrue trivial
  | .run node _ _ => inferInstanceAs (Decidable (pipe ∉ node))

/-- The tombstone that `b` makes of an absent key. -/
def firstTombstone : VersionedValue := (writeOf none 5).version (nodeOfThree (ascii "b")) none

theorem deletedWriting_ok : (clusterAfter .pooled
    (.call (ascii "b") (.write (ascii "k") (writeOf none 5)) :: steadyWriting)).returned (ascii "b") 0 =
      some (.written ⟨true, firstTombstone.clock, []⟩) := by
  decide +kernel

/-- Node `b` deletes and `c` acknowledges; then `a` reads, and `c` responds. -/
def deletedWrite : AckedWrite Transport.pooled where
  coordinators := nodeOfThree
  stores _ := ∅
  key := ascii "k"
  home := ascii "b"
  operation := writeOf none 5
  owners := ownersOfThree
  clock := firstTombstone.clock
  history := []
  during := steadyWriting
  later := steadyReading (Wire.arrived firstTombstone)
  before := Cluster.start fun _ => ∅
  written := clusterAfter .pooled (.call (ascii "b") (.write (ascii "k") (writeOf none 5)) :: steadyWriting)
  final := clusterAfter .pooled (.call (ascii "b") (.write (ascii "k") (writeOf none 5)) ::
    (steadyWriting ++ steadyReading (Wire.arrived firstTombstone)))
  self := nodeOfThree_self
  ring _ := findOwners_ringOfThree
  alive := ownersOfThree_alive
  valid := isValidNodeId_home
  safe := writeOf_safe _ _
  sound := by decide +kernel
  begins := rfl
  writes := rfl
  continues := rfl
  ended := start_ended
  alone := steadyWriting_alone
  reads := by simp [steadyReading]
  ok := deletedWriting_ok
  copies := by simp [Cluster.start, Cluster.held, Pool.start]
  packets := by simp [Cluster.start]
  handlers := by simp [Cluster.start, Cluster.thread, Pool.start]

/-- Node `b` reads the key it has deleted, and `c` responds. -/
def homeReading : List StoreEvent :=
  [.call (ascii "b") (.get (ascii "k") 3 2), .run (ascii "b") 1 [], .run (ascii "b") 1 [], .deliver 2,
    .run (ascii "c") 1 [], .run (ascii "b") 1 [(0, .read ⟨true, true, Wire.arrived firstTombstone⟩)]]

/-- The same delete, read at `b`. -/
def deletedAtHome : AckedWrite Transport.pooled :=
  { deletedWrite with
    later := homeReading
    final := clusterAfter .pooled (.call (ascii "b") (.write (ascii "k") (writeOf none 5)) ::
      (steadyWriting ++ homeReading))
    sound := by decide +kernel
    continues := rfl
    reads := by simp [homeReading, deletedWrite] }

theorem deleted_key_is_gone_only_at_home_steady :
    deletedAtHome.final.returned (ascii "b") 1 = some (.read ⟨.notFound, [], []⟩) ∧
      ((⟨.notFound, [], []⟩ : GetResult).status = .error ∨ ((⟨.notFound, [], []⟩ : GetResult).status = .notFound ↔
        ascii "b" = deletedAtHome.home ∧ deletedAtHome.home ∈ deletedAtHome.owners.map NodeInfo.nodeId)) := by
  have returned : deletedAtHome.final.returned (ascii "b") 1 = some (.read ⟨.notFound, [], []⟩) := by
    decide +kernel
  exact ⟨returned, AckedWrite.deleted_key_is_gone_only_at_home deletedAtHome 2 rfl (by decide) (by decide)
    (by decide +kernel) (ascii "b") 1 List.mem_cons_self _ returned⟩

/-- The replica stored the tombstone as a live version without data, and a read elsewhere
that meets its quorum returns it as a value. -/
theorem deleted_key_comes_back_elsewhere :
    ¬ ∀ (run : AckedWrite Transport.pooled) (r : Int), run.operation.value = none → 1 ≤ run.operation.n →
      1 ≤ run.operation.w → 1 ≤ r → run.operation.n < run.operation.w + r → ∀ (node : Bytes) (index : Nat),
      ⟨node, index, .get run.key run.operation.n r⟩ ∈ run.final.callsSince run.written → ∀ result : GetResult,
      run.final.returned node index = some (.read result) →
        result.status = .notFound ∨ result.status = .error := by
  intro gone
  have back := gone deletedWrite 2 rfl (by decide) (by decide) (by decide) (by decide) (ascii "a") 0
    List.mem_cons_self ⟨.ok, [Wire.arrived firstTombstone], []⟩ (by decide +kernel)
  revert back
  decide

end MiniDynamo
