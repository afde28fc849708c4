import MiniDynamo.Clock.Lattice
import MiniDynamo.Coordinator.ReadPath

/-! What a read makes of its responses: the versions reconciliation returns are the top of those
found, and neither they nor the report depend on the order in which the replicas answered. -/

namespace MiniDynamo.Coordinator

variable {coordinator : Coordinator} {key : Bytes} {owners : List NodeInfo} {n r : Int} {responses : List Resp}

/-- The report for what reconciliation returned. -/
def reportOf : List VersionedValue → GetResult
  | [] => ⟨.notFound, [], []⟩
  | [dominant] => if dominant.deleted then ⟨.notFound, [], []⟩ else ⟨.ok, [dominant], []⟩
  | siblings => ⟨.siblings, siblings, []⟩

/-- The report of a read for its responses. -/
def report (r : Int) (responses : List Resp) : GetResult :=
  if responses.length < r then ⟨.error, [], ascii "quorum_not_met"⟩ else reportOf (maximalVersions responses)

/-- The two reports name the same outcome and the same versions. -/
structure SameReport (one other : GetResult) : Prop where
  status : one.status = other.status
  values : one.values.Perm other.values
  error : one.error = other.error

theorem SameReport.refl (result : GetResult) : SameReport result result := ⟨rfl, .refl _, rfl⟩

theorem reportOf_perm {left right : List VersionedValue} (same : left.Perm right) :
    SameReport (reportOf left) (reportOf right) := by
  cases left with
  | nil =>
    rw [List.nil_perm.mp same]
    exact .refl _
  | cons first rest =>
    cases rest with
    | nil =>
      rw [List.singleton_perm.mp same]
      exact .refl _
    | cons second rest =>
      cases right with
      | nil => cases List.perm_nil.mp same
      | cons one others =>
        cases others with
        | nil => cases List.perm_singleton.mp same
        | cons two others => exact ⟨rfl, same, rfl⟩

/-- Versions with equal clocks are the same version. -/
def Agreeing (responses : List Resp) : Prop :=
  ∀ first ∈ foundVersions responses, ∀ second ∈ foundVersions responses,
    first.clock.compare second.clock = .equal → first = second

instance (responses : List Resp) : Decidable (Agreeing responses) :=
  inferInstanceAs (Decidable (∀ first ∈ foundVersions responses, ∀ second ∈ foundVersions responses,
    first.clock.compare second.clock = .equal → first = second))

theorem mem_foundVersions_perm {permuted : List Resp} (same : permuted.Perm responses) (version : VersionedValue) :
    version ∈ foundVersions permuted ↔ version ∈ foundVersions responses :=
  (same.filterMap _).mem_iff

theorem maximalVersions_perm {permuted : List Resp} (same : permuted.Perm responses) (agree : Agreeing responses) :
    (maximalVersions permuted).Perm (maximalVersions responses) := by
  apply (frontier_maximalVersions permuted).perm (frontier_maximalVersions responses) (mem_foundVersions_perm same)
  intro first one second two forward backward
  apply agree first ((mem_foundVersions_perm same first).mp one) second ((mem_foundVersions_perm same second).mp two)
  exact VectorClock.compare_equal_iff.mpr ⟨forward, backward⟩

theorem report_perm {permuted : List Resp} (same : permuted.Perm responses) (agree : Agreeing responses) (r : Int) :
    SameReport (report r permuted) (report r responses) := by
  unfold report
  rw [same.length_eq]
  split
  · exact .refl _
  · exact reportOf_perm (maximalVersions_perm same agree)

/-- Every replica responded with this version. -/
def Unanimous (version : VersionedValue) (responses : List Resp) : Prop :=
  ∀ response ∈ responses, response.found = true ∧ response.vv = version

theorem Unanimous.maximalVersions {version : VersionedValue} (unanimous : Unanimous version responses)
    (nonempty : responses ≠ []) : maximalVersions responses = [version] := by
  obtain ⟨response, member⟩ := List.exists_mem_of_ne_nil responses nonempty
  have found : response.vv ∈ foundVersions responses :=
    mem_foundVersions.mpr ⟨response, member, (unanimous response member).1, rfl⟩
  apply (frontier_maximalVersions responses).eq_singleton (List.ne_nil_of_mem found)
  intro top kept
  obtain ⟨source, present, -, rfl⟩ := mem_maximalVersions kept
  exact (unanimous source present).2

theorem Unanimous.not_stale {version : VersionedValue} (unanimous : Unanimous version responses) {response : Resp}
    (member : response ∈ responses) : ¬ stale version response = true := by
  obtain ⟨found, rfl⟩ := unanimous response member
  simp [stale, found, VectorClock.compare_aDominates_iff]

section Run

/-- The responses a read has when its wait is over: the local copy, and what arrived. -/
def gathered (coordinator : Coordinator) (key : Bytes) (owners : List NodeInfo) (replies : Replies)
    (storage : Storage) : List Resp :=
  (coordinator.ownOwner owners).toList.map (localResp · storage[key]?) ++
    answers (coordinator.liveOwners owners) replies

/-- The only version, if there is just one. -/
def single : List VersionedValue → Option VersionedValue
  | [version] => some version
  | _ => none

/-- The version a read repairs the replicas with: the only one reconciliation left. -/
def winner (r : Int) (responses : List Resp) : Option VersionedValue :=
  if responses.length < r then none else single (maximalVersions responses)

theorem single_eq_some {versions : List VersionedValue} {version : VersionedValue} :
    single versions = some version ↔ versions = [version] := by
  unfold single
  split
  · simp
  · rename_i several
    exact ⟨nofun, fun one => absurd one (several version)⟩

theorem winner_eq_some {version : VersionedValue} :
    winner r responses = some version ↔ ¬ responses.length < r ∧ maximalVersions responses = [version] := by
  unfold winner
  split
  · rename_i short
    exact ⟨nofun, fun both => absurd short both.1⟩
  · rename_i enough
    exact single_eq_some.trans ⟨fun one => ⟨enough, one⟩, And.right⟩

/-- Nothing is repaired when there are siblings, when nothing was found, or on an error. -/
theorem winner_eq_none (outcome : (report r responses).status = .siblings ∨
      (report r responses).status = .notFound ∧ foundVersions responses = [] ∨ (report r responses).status = .error) :
    winner r responses = none := by
  apply Option.eq_none_iff_forall_ne_some.mpr
  intro version won
  obtain ⟨enough, one⟩ := winner_eq_some.mp won
  have found : version ∈ foundVersions responses :=
    (frontier_maximalVersions responses).part (one ▸ List.mem_singleton_self version)
  rw [report, if_neg enough, one, reportOf] at outcome
  rcases outcome with siblings | ⟨-, nothing⟩ | error
  · split at siblings <;> cases siblings
  · rw [nothing] at found
    cases found
  · split at error <;> cases error

theorem report_error_iff : (report r responses).status = .error ↔ responses.length < r := by
  unfold report
  split
  · rename_i short
    exact ⟨fun _ => short, fun _ => rfl⟩
  · rename_i enough
    refine ⟨fun error => ?_, fun short => absurd short enough⟩
    unfold reportOf at error
    split at error
    · cases error
    · split at error <;> cases error
    · cases error

theorem winner_perm {permuted : List Resp} (same : permuted.Perm responses) (agree : Agreeing responses) (r : Int) :
    winner r permuted = winner r responses := by
  have maximal := maximalVersions_perm same agree
  apply Option.ext
  intro version
  rw [winner_eq_some, winner_eq_some, same.length_eq]
  constructor
  · rintro ⟨enough, one⟩
    rw [one] at maximal
    exact ⟨enough, (List.singleton_perm.mp maximal).symm⟩
  · rintro ⟨enough, one⟩
    rw [one] at maximal
    exact ⟨enough, List.perm_singleton.mp maximal⟩

/-- The local repairs of a read. -/
def ownRepairs (coordinator : Coordinator) (key : Bytes) (responses : List Resp) (dominant : VersionedValue) :
    List (Bytes × Bytes) :=
  (responses.filter (fun response =>
    stale dominant response && decide (response.peer.nodeId = coordinator.self.nodeId))).map
      (fun _ => (key, dominant.serialize))

/-- The repairs a read sends to other nodes. -/
def remoteRepairs (coordinator : Coordinator) (key : Bytes) (responses : List Resp) (dominant : VersionedValue) :
    List Outgoing :=
  (responses.filter (fun response =>
    stale dominant response && decide (response.peer.nodeId ≠ coordinator.self.nodeId))).map
      (fun response => .request (.writeReplica response.peer key dominant))

theorem mem_ownRepairs {dominant : VersionedValue} {write : Bytes × Bytes} :
    write ∈ coordinator.ownRepairs key responses dominant ↔ ∃ response ∈ responses, stale dominant response = true ∧
      response.peer.nodeId = coordinator.self.nodeId ∧ (key, dominant.serialize) = write := by
  simp only [ownRepairs, List.mem_map, List.mem_filter, Bool.and_eq_true, decide_eq_true_eq, and_assoc]

theorem mem_remoteRepairs {dominant : VersionedValue} {message : Outgoing} :
    message ∈ coordinator.remoteRepairs key responses dominant ↔ ∃ response ∈ responses,
      stale dominant response = true ∧ response.peer.nodeId ≠ coordinator.self.nodeId ∧
        .request (.writeReplica response.peer key dominant) = message := by
  simp only [remoteRepairs, List.mem_map, List.mem_filter, Bool.and_eq_true, decide_eq_true_eq, and_assoc]

/-- Nothing is repaired when no response is stale. -/
theorem repairs_nil (coordinator : Coordinator) (key : Bytes) {dominant : VersionedValue}
    (current : ∀ response ∈ responses, ¬ stale dominant response = true) :
    coordinator.ownRepairs key responses dominant = [] ∧ coordinator.remoteRepairs key responses dominant = [] := by
  constructor
  · apply List.eq_nil_iff_forall_not_mem.mpr
    intro write member
    obtain ⟨response, present, behind, -⟩ := mem_ownRepairs.mp member
    exact current response present behind
  · apply List.eq_nil_iff_forall_not_mem.mpr
    intro message member
    obtain ⟨response, present, behind, -⟩ := mem_remoteRepairs.mp member
    exact current response present behind

theorem does_repairStale (coordinator : Coordinator) (key : Bytes) (dominant : VersionedValue)
    (responses : List Resp) (replies : Replies) (storage : Storage) :
    (coordinator.repairStale key dominant responses).Does replies storage ()
      (coordinator.ownRepairs key responses dominant) (coordinator.remoteRepairs key responses dominant) := by
  induction responses generalizing storage with
  | nil => exact ⟨rfl, rfl, rfl⟩
  | cons response rest ih =>
    rw [repairStale]
    by_cases behind : stale dominant response = true
    · rw [if_pos behind]
      by_cases own : response.peer.nodeId = coordinator.self.nodeId
      · have repaired : (coordinator.repairAsync response.peer key dominant).Does replies storage ()
            [(key, dominant.serialize)] [] := by
          rw [repairAsync, if_pos own]
          exact ⟨rfl, rfl, rfl⟩
        rw [ownRepairs, remoteRepairs, List.filter_cons_of_pos (by simp [behind, own]),
          List.filter_cons_of_neg (by simp [own])]
        exact repaired.bind (ih _)
      · have repaired : (coordinator.repairAsync response.peer key dominant).Does replies storage ()
            [] [.request (.writeReplica response.peer key dominant)] := by
          rw [repairAsync, if_neg own]
          exact ⟨rfl, rfl, rfl⟩
        rw [ownRepairs, remoteRepairs, List.filter_cons_of_neg (by simp [own]),
          List.filter_cons_of_pos (by simp [behind, own])]
        exact repaired.bind (ih _)
    · rw [if_neg behind, ownRepairs, remoteRepairs, List.filter_cons_of_neg (by simp [behind]),
        List.filter_cons_of_neg (by simp [behind])]
      exact ih storage

theorem does_conclude (coordinator : Coordinator) (key : Bytes) (responses : List Resp) (replies : Replies)
    (storage : Storage) :
    (coordinator.conclude key responses).Does replies storage (reportOf (maximalVersions responses))
      ((single (maximalVersions responses)).elim [] (coordinator.ownRepairs key responses))
      ((single (maximalVersions responses)).elim [] (coordinator.remoteRepairs key responses)) := by
  unfold conclude
  cases maximalVersions responses with
  | nil => exact ⟨rfl, rfl, rfl⟩
  | cons dominant rest =>
    cases rest with
    | nil =>
      refine (does_repairStale coordinator key dominant responses replies storage).bind_quiet ?_
      unfold reportOf
      by_cases gone : dominant.deleted = true
      · simp only [gone, if_true]
        exact ⟨rfl, rfl, rfl⟩
      · simp only [gone]
        exact ⟨rfl, rfl, rfl⟩
    | cons second rest => exact ⟨rfl, rfl, rfl⟩

/-- Once its wait is over, a read reports on its responses and repairs with the winner. -/
theorem does_settle (coordinator : Coordinator) (key : Bytes) (r : Int) (own : List Resp) (remotes : List NodeInfo)
    (replies : Replies) (storage : Storage) {responses : List Resp} (all : own ++ answers remotes replies = responses) :
    (coordinator.settle key r own remotes replies).Does replies storage (report r responses)
      ((winner r responses).elim [] (coordinator.ownRepairs key responses))
      ((winner r responses).elim [] (coordinator.remoteRepairs key responses)) := by
  subst all
  unfold settle report winner
  simp only
  split
  · exact ⟨rfl, rfl, rfl⟩
  · exact does_conclude coordinator key (own ++ answers remotes replies) replies storage

/-- A read that found owners reports on what it gathered, repairs its own copy with the winner and
sends it to the stale replicas. -/
theorem does_coordinateGet (found : coordinator.router.findOwners key n = some owners) (nonempty : owners ≠ [])
    (r : Int) (replies : Replies) (storage : Storage) {responses : List Resp}
    (all : coordinator.gathered key owners replies storage = responses) :
    (coordinator.coordinateGet key n r).Does replies storage (report r responses)
      ((winner r responses).elim [] (coordinator.ownRepairs key responses))
      ((coordinator.liveOwners owners).map (.request <| .readReplica · key) ++
        (winner r responses).elim [] (coordinator.remoteRepairs key responses)) := by
  rw [coordinateGet_eq found nonempty]
  unfold gathered at all
  cases own : coordinator.ownOwner owners with
  | none =>
    rw [own] at all
    have settled := does_settle coordinator key r [] (coordinator.liveOwners owners) replies storage all
    exact ⟨settled.returned, settled.wrote, congrArg _ settled.sent⟩
  | some owner =>
    rw [own] at all
    have settled := does_settle coordinator key r [localResp owner storage[key]?] (coordinator.liveOwners owners)
      replies storage all
    exact ⟨settled.returned, settled.wrote, congrArg _ settled.sent⟩

/-- A read on an empty ring. -/
theorem does_coordinateGet_nil (found : coordinator.router.findOwners key n = some []) (r : Int) (replies : Replies)
    (storage : Storage) : (coordinator.coordinateGet key n r).Does replies storage
      ⟨.error, [], ascii "no_nodes_in_ring"⟩ [] [] := by
  unfold coordinateGet
  rw [found]
  exact ⟨rfl, rfl, rfl⟩

/-- Responses that arrive in another order are reported on alike. -/
theorem exec_coordinateGet_perm (found : coordinator.router.findOwners key n = some owners) (r : Int)
    (replies others : Replies) (storage elsewhere : Storage)
    (same : (coordinator.gathered key owners others elsewhere).Perm (coordinator.gathered key owners replies storage))
    (agree : Agreeing (coordinator.gathered key owners replies storage)) :
    ∃ one other, ((coordinator.coordinateGet key n r).exec others elsewhere).1 = some one ∧
      ((coordinator.coordinateGet key n r).exec replies storage).1 = some other ∧ SameReport one other := by
  by_cases nonempty : owners = []
  · subst nonempty
    exact ⟨_, _, (does_coordinateGet_nil found r others elsewhere).returned,
      (does_coordinateGet_nil found r replies storage).returned, .refl _⟩
  · exact ⟨_, _, (does_coordinateGet found nonempty r others elsewhere rfl).returned,
      (does_coordinateGet found nonempty r replies storage rfl).returned, report_perm same agree r⟩

end Run

/-- Reconciliation returns exactly the versions that no found version is ahead of, one for each
clock, and the order of the responses shows neither in the clocks nor, when equal clocks carry
identical versions, in what the read reports. -/
theorem reconciliation_exact (responses : List Resp) :
    maximalVersions responses ⊆ foundVersions responses ∧
    (maximalVersions responses).Pairwise (fun one other => one.clock.compare other.clock = .concurrent) ∧
    (∀ version ∈ foundVersions responses, ∃ top ∈ maximalVersions responses,
      top.clock.compare version.clock = .aDominates ∨ top.clock.compare version.clock = .equal) ∧
    (∀ top ∈ maximalVersions responses, ∀ version ∈ foundVersions responses,
      version.clock.compare top.clock ≠ .aDominates) ∧
    ∀ permuted : List Resp, permuted.Perm responses →
      ((maximalVersions permuted).map (·.clock.get)).Perm ((maximalVersions responses).map (·.clock.get)) ∧
      (Agreeing responses → ∀ (coordinator : Coordinator) (key : Bytes) (n r : Int) (owners : List NodeInfo)
        (replies others : Replies) (storage elsewhere : Storage),
        coordinator.router.findOwners key n = some owners →
        coordinator.gathered key owners replies storage = responses →
        coordinator.gathered key owners others elsewhere = permuted →
        ∃ one other, ((coordinator.coordinateGet key n r).exec others elsewhere).1 = some one ∧
          ((coordinator.coordinateGet key n r).exec replies storage).1 = some other ∧ SameReport one other) := by
  have frontier := frontier_maximalVersions responses
  refine ⟨frontier.part, ?_, ?_, ?_, ?_⟩
  · apply frontier.apart.imp
    intro one other unrelated
    exact VectorClock.compare_concurrent_iff.mpr unrelated
  · intro version member
    obtain ⟨top, kept, below⟩ := frontier.covers version member
    exact ⟨top, kept, (VectorClock.covers_iff.mpr below).symm⟩
  · intro top kept version member ahead
    exact frontier.top top kept version member (VectorClock.compare_aDominates_iff.mp ahead)
  · intro permuted same
    constructor
    · apply (frontier_maximalVersions permuted).map_perm frontier (mem_foundVersions_perm same)
      intro one _ other _
      exact funext_iff.trans VectorClock.le_and_le_iff.symm
    · rintro agree coordinator key n r owners replies others storage elsewhere found rfl rfl
      exact exec_coordinateGet_perm found r replies others storage elsewhere same agree

/-- A node outside a ring of two. -/
private def outsider : Coordinator where
  self := ⟨ascii "c", ascii "h", 3⟩
  router := ([⟨ascii "a", ascii "h", 1⟩, ⟨ascii "b", ascii "h", 2⟩] : List NodeInfo).foldl Router.addPhysicalNode
    (Router.empty 1)
  isAliveFn := none
  hintStore := false
  maxClockEntries := 20

/-- The answers of the two owners, each with a write of its own. -/
private def conflicting : Replies :=
  [(0, .read ⟨true, true, ⟨ascii "x", .set .empty (ascii "a") 1 0, false⟩⟩),
    (1, .read ⟨true, true, ⟨ascii "y", .set .empty (ascii "b") 1 0, false⟩⟩)]

theorem reconciliation_exact_conflicting :
    ∃ one other, ((outsider.coordinateGet (ascii "k") 2 2).exec conflicting.reverse ∅).1 = some one ∧
      ((outsider.coordinateGet (ascii "k") 2 2).exec conflicting ∅).1 = some other ∧ SameReport one other := by
  have swapped : (outsider.gathered (ascii "k") [⟨ascii "b", ascii "h", 2⟩, ⟨ascii "a", ascii "h", 1⟩]
      conflicting.reverse ∅).Perm
        (outsider.gathered (ascii "k") [⟨ascii "b", ascii "h", 2⟩, ⟨ascii "a", ascii "h", 1⟩] conflicting ∅) :=
    List.Perm.append_left _ ((List.reverse_perm conflicting).filterMap _)
  exact ((reconciliation_exact _).2.2.2.2 _ swapped).2 (by decide +kernel) outsider (ascii "k") 2 2
    [⟨ascii "b", ascii "h", 2⟩, ⟨ascii "a", ascii "h", 1⟩] conflicting conflicting.reverse ∅ ∅ (by decide +kernel)
    rfl rfl

end MiniDynamo.Coordinator
