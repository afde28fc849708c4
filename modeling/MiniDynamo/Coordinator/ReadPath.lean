import MiniDynamo.Coordinator.WritePath
import MiniDynamo.Library.Frontier

/-! The shape of a read's program, and what its repairs write. -/

namespace MiniDynamo.Coordinator

variable {coordinator : Coordinator} {key : Bytes} {owners : List NodeInfo}

/-- The remote owners a read of the key asks. -/
def readTargets (coordinator : Coordinator) (key : Bytes) (n : Int) : List NodeInfo :=
  ((coordinator.router.findOwners key n).map coordinator.liveOwners).getD []

/-- A read from its fan-out on, with the local responses it starts from. -/
def gather (coordinator : Coordinator) (key : Bytes) (r : Int) (owners : List NodeInfo) (own : List Resp) :
    NodeProgram GetResult :=
  .send ((coordinator.liveOwners owners).map (.request <| .readReplica · key))
    (.await (coordinator.settle key r own (coordinator.liveOwners owners)))

theorem placeReads_remote {rest : List NodeInfo} (none : coordinator.ownOwner rest = none)
    (responses : List Resp) (remotes : List NodeInfo) :
    coordinator.placeReads key rest responses remotes = .done (responses, remotes ++ coordinator.liveOwners rest) := by
  induction rest generalizing remotes with
  | nil => simp [placeReads, liveOwners]
  | cons owner rest ih =>
    obtain ⟨other, later⟩ := ownOwner_cons_none none
    rw [placeReads, if_neg other]
    split
    · rename_i gone
      rw [ih later]
      simp [liveOwners, gone]
    · rename_i alive
      rw [ih later]
      simp [liveOwners, other, alive]

/-- The loop over the owners reads the local copy at most once. -/
theorem placeReads_own {rest : List NodeInfo} {owner : NodeInfo} (distinct : (rest.map NodeInfo.nodeId).Nodup)
    (own : coordinator.ownOwner rest = some owner) (responses : List Resp) (remotes : List NodeInfo) :
    coordinator.placeReads key rest responses remotes = .get key (fun stored =>
      .done (responses ++ [localResp owner stored], remotes ++ coordinator.liveOwners rest)) := by
  induction rest generalizing remotes with
  | nil => cases own
  | cons first rest ih =>
    rw [placeReads]
    split
    · rename_i mine
      have same : first = owner := by simpa [ownOwner, mine] using own
      have none := ownOwner_tail distinct mine
      have live : coordinator.liveOwners (first :: rest) = coordinator.liveOwners rest := by
        simp [liveOwners, mine]
      simp only [Process.fetch, Process.get_bind, Process.done_bind, placeReads_remote none]
      rw [live, same]
    · rename_i other
      have later : coordinator.ownOwner rest = some owner := by simpa [ownOwner, other] using own
      split
      · rename_i gone
        rw [ih (List.nodup_cons.mp distinct).2 later]
        simp [liveOwners, gone]
      · rename_i alive
        rw [ih (List.nodup_cons.mp distinct).2 later]
        simp [liveOwners, other, alive]

theorem localResp_peer (owner : NodeInfo) (stored : Option Bytes) : (localResp owner stored).peer = owner := by
  cases stored with
  | none => rfl
  | some bytes => rfl

/-- A read is a fan-out, preceded by one read of the local copy when this node is an owner. -/
theorem coordinateGet_eq {n : Int} (found : coordinator.router.findOwners key n = some owners)
    (nonempty : owners ≠ []) (r : Int) :
    coordinator.coordinateGet key n r =
      match coordinator.ownOwner owners with
      | none => coordinator.gather key r owners []
      | some owner => .get key (fun stored => coordinator.gather key r owners [localResp owner stored]) := by
  obtain ⟨-, distinct, -⟩ := Router.findOwners_spec found
  unfold coordinateGet
  rw [found]
  cases owners with
  | nil => exact absurd rfl nonempty
  | cons first rest =>
    cases own : coordinator.ownOwner (first :: rest) with
    | none =>
      simp only [placeReads_remote own, Process.done_bind]
      rfl
    | some owner =>
      simp only [placeReads_own distinct own, Process.get_bind, Process.done_bind]
      rfl

/-- The versions found by a read. -/
def foundVersions (responses : List Resp) : List VersionedValue :=
  responses.filterMap (fun response => if response.found then some response.vv else none)

theorem mem_foundVersions {responses : List Resp} {version : VersionedValue} :
    version ∈ foundVersions responses ↔ ∃ response ∈ responses, response.found = true ∧ response.vv = version := by
  simp [foundVersions]

theorem beaten_iff (one other : VersionedValue) :
    decide (other.clock.compare one.clock = .aDominates) = true ↔ one.clock < other.clock :=
  decide_eq_true_iff.trans VectorClock.compare_aDominates_iff

theorem equal_iff (one other : VersionedValue) :
    decide (one.clock.compare other.clock = .equal) = true ↔ one.clock ≤ other.clock ∧ other.clock ≤ one.clock :=
  decide_eq_true_iff.trans VectorClock.compare_equal_iff

/-- Reconciliation returns the top of the versions found, in the causal order. -/
theorem frontier_maximalVersions (responses : List Resp) :
    Frontier VersionedValue.clock (foundVersions responses) (maximalVersions responses) :=
  frontier_takeTop beaten_iff equal_iff (foundVersions responses)

/-- Of the versions with equal clocks it returns the first. -/
theorem firstOfClass_maximalVersions {responses : List Resp} {version : VersionedValue}
    (member : version ∈ maximalVersions responses) :
    FirstOfClass VersionedValue.clock (foundVersions responses) version :=
  firstOfClass_takeTop beaten_iff equal_iff member

/-- What reconciliation returns was found by some replica. -/
theorem mem_maximalVersions {responses : List Resp} {version : VersionedValue}
    (member : version ∈ maximalVersions responses) :
    ∃ response ∈ responses, response.found = true ∧ response.vv = version :=
  mem_foundVersions.mp ((frontier_maximalVersions responses).part member)

section Repairs

variable {puts : Bytes → Bytes → Prop} {sends : Outgoing → Prop} {dominant : VersionedValue} {responses : List Resp}

theorem repairStale_only
    (own : ∀ response ∈ responses, stale dominant response = true →
      response.peer.nodeId = coordinator.self.nodeId → puts key dominant.serialize)
    (remote : ∀ response ∈ responses, stale dominant response = true →
      response.peer.nodeId ≠ coordinator.self.nodeId → sends (.request (.writeReplica response.peer key dominant))) :
    (coordinator.repairStale key dominant responses).Only puts sends (fun _ => True) := by
  induction responses with
  | nil => trivial
  | cons response rest ih =>
    have later := ih (fun other member => own other (List.mem_cons_of_mem response member))
      (fun other member => remote other (List.mem_cons_of_mem response member))
    rw [repairStale]
    split
    · rename_i behind
      have repaired : (coordinator.repairAsync response.peer key dominant).Only puts sends (fun _ => True) := by
        unfold repairAsync
        split
        · rename_i mine
          exact ⟨own response List.mem_cons_self behind mine, trivial⟩
        · rename_i other
          exact ⟨by simpa using remote response List.mem_cons_self behind other, trivial⟩
      exact repaired.bind (fun _ _ => later)
    · exact later

/-- The end of a read, case by case on what reconciliation left. -/
theorem conclude_only {results : GetResult → Prop}
    (nothing : maximalVersions responses = [] → results ⟨.notFound, [], []⟩)
    (single : ∀ dominant, maximalVersions responses = [dominant] →
      (coordinator.repairStale key dominant responses).Only puts sends (fun _ => True) ∧
        results (if dominant.deleted then ⟨.notFound, [], []⟩ else ⟨.ok, [dominant], []⟩))
    (several : ∀ first second rest, maximalVersions responses = first :: second :: rest →
      results ⟨.siblings, first :: second :: rest, []⟩) :
    (coordinator.conclude key responses).Only puts sends results := by
  unfold conclude
  split
  · rename_i none
    exact nothing none
  · rename_i dominant one
    obtain ⟨repaired, result⟩ := single dominant one
    refine repaired.bind (fun _ _ => ?_)
    split
    · rename_i deleted
      rwa [if_pos deleted] at result
    · rename_i live
      rwa [if_neg live] at result
  · rename_i versions notNil notOne
    cases shape : maximalVersions responses with
    | nil => exact absurd shape notNil
    | cons first rest =>
      cases rest with
      | nil => exact absurd shape (notOne first)
      | cons second rest => exact several first second rest shape

end Repairs

/-- Some replica reported this version. -/
def Reported (version : VersionedValue) (replies : Replies) : Prop :=
  ∃ position result, (position, Reply.read result) ∈ replies ∧ result.value = version

theorem mem_answers {remotes : List NodeInfo} {replies : Replies} {response : Resp}
    (member : response ∈ answers remotes replies) : ∃ position result,
      (position, Reply.read result) ∈ replies ∧ remotes[position]? = some response.peer ∧ result.ok = true ∧
        response.found = result.found ∧ response.vv = result.value := by
  obtain ⟨⟨position, reply⟩, present, shape⟩ := List.mem_filterMap.mp member
  simp only at shape
  split at shape
  · rename_i result peer known
    split at shape
    · rename_i ok
      cases shape
      exact ⟨position, result, present, known, ok, rfl, rfl⟩
    · cases shape
  · cases shape

/-- The local copy as the reader saw it is nothing, or older than this version. -/
def Ahead (version : VersionedValue) (stored : Option Bytes) : Prop :=
  ∀ bytes, stored = some bytes → (VersionedValue.deserialize bytes).clock < version.clock

theorem stale_localResp_iff {dominant : VersionedValue} {owner : NodeInfo} {stored : Option Bytes} :
    stale dominant (localResp owner stored) = true ↔ Ahead dominant stored := by
  cases stored with
  | none => simp [stale, localResp, Ahead]
  | some bytes =>
    simp only [stale, localResp, Ahead, Bool.not_true, Bool.false_or, Option.some.injEq, forall_eq']
    exact beaten_iff _ dominant

/-- The local repair of a read writes a version it found and that some local response lacks. -/
theorem settle_puts (own : List Resp) (r : Int) (replies : Replies) :
    (coordinator.settle key r own (coordinator.liveOwners owners) replies).Only
      (fun target bytes => target = key ∧ ∃ version, bytes = version.serialize ∧
        version ∈ foundVersions (own ++ answers (coordinator.liveOwners owners) replies) ∧
        ∃ response ∈ own, stale version response = true) (fun _ => True) (fun _ => True) := by
  unfold settle
  simp only
  split
  · trivial
  · refine conclude_only (fun _ => trivial) (fun dominant one => ⟨?_, trivial⟩) (fun _ _ _ _ => trivial)
    refine repairStale_only (fun response member behind mine => ?_) (fun _ _ _ _ => trivial)
    have found := mem_foundVersions.mpr (mem_maximalVersions (one ▸ List.mem_singleton_self dominant))
    refine ⟨rfl, dominant, rfl, found, ?_⟩
    rcases List.mem_append.mp member with mine | remote
    · exact ⟨response, mine, behind⟩
    · obtain ⟨position, -, -, peer, -⟩ := mem_answers remote
      have other := (liveOwners_subset _ (List.mem_map_of_mem (List.mem_of_getElem? peer))).2
      exact absurd mine other

/-- With one local response, that version was reported by a replica and is ahead of the copy
the read itself saw. -/
theorem settle_puts_ahead (owner : NodeInfo) (stored : Option Bytes) (r : Int) (replies : Replies) :
    (coordinator.settle key r [localResp owner stored] (coordinator.liveOwners owners) replies).Only
      (fun target bytes => target = key ∧ ∃ version, bytes = version.serialize ∧ Reported version replies ∧
        Ahead version stored) (fun _ => True) (fun _ => True) := by
  refine (settle_puts _ r replies).mono ?_ (fun _ _ => trivial) (fun _ _ => trivial)
  rintro target bytes ⟨rfl, version, rfl, found, response, own, behind⟩
  rw [List.mem_singleton.mp own] at behind
  have ahead := stale_localResp_iff.mp behind
  refine ⟨rfl, version, rfl, ?_, ahead⟩
  obtain ⟨source, present, found, same⟩ := mem_foundVersions.mp found
  rcases List.mem_append.mp present with own | remote
  · -- the local copy is not ahead of itself
    rw [List.mem_singleton.mp own] at found same
    cases stored with
    | none => cases found
    | some bytes => exact absurd (ahead bytes rfl) (same ▸ lt_irrefl _)
  · obtain ⟨position, result, reply, -, -, -, value⟩ := mem_answers remote
    exact ⟨position, result, reply, value ▸ same⟩

end MiniDynamo.Coordinator
