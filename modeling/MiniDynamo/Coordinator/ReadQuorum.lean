import MiniDynamo.Library.Quorum
import MiniDynamo.Coordinator.ReadPath

/-! What a read makes of its responses when one version is ahead of all others, and how
many owners stand behind them. -/

namespace MiniDynamo.Coordinator

section Newest

variable {newest : VersionedValue}

/-- No version has a clock that is neither older than this one nor equal to it. -/
def Tops (newest : VersionedValue) (found : List VersionedValue) : Prop :=
  ∀ version ∈ found, version.clock < newest.clock ∨ version.clock = newest.clock

/-- Reconciliation returns the first version with the newest clock. -/
theorem maximalVersions_newest {responses : List Resp} (tops : Tops newest (foundVersions responses))
    (first : (foundVersions responses).find? (fun cand => decide (cand.clock = newest.clock)) = some newest) :
    maximalVersions responses = [newest] := by
  have frontier := frontier_maximalVersions responses
  have found := List.mem_of_find?_eq_some first
  apply frontier.eq_singleton (List.ne_nil_of_mem found)
  intro top kept
  have same : top.clock = newest.clock :=
    (tops top (frontier.part kept)).resolve_left (frontier.top top kept newest found)
  obtain ⟨before, after, split, others⟩ := firstOfClass_maximalVersions kept
  have earliest : (foundVersions responses).find? (fun cand => decide (cand.clock = newest.clock)) = some top := by
    rw [List.find?_eq_some_iff_append]
    refine ⟨decide_eq_true same, before, after, split, ?_⟩
    intro item early
    have different : item.clock ≠ newest.clock := by
      intro equal
      apply others item early
      rw [equal, same]
      exact ⟨le_rfl, le_rfl⟩
    simp [different]
  exact Option.some.inj (earliest.symm.trans first)

end Newest

section Responders

variable {coordinator : Coordinator} {owners : List NodeInfo} {replies : Replies}

/-- The peers of the responses stand at distinct positions of the fan-out. -/
theorem answers_sublist (remotes : List NodeInfo) (replies : Replies) :
    ((answers remotes replies).map Resp.peer).Sublist ((replies.map Prod.fst).filterMap (remotes[·]?)) := by
  induction replies with
  | nil => exact List.Sublist.slnil
  | cons reply rest ih =>
    obtain ⟨position, reply⟩ := reply
    cases known : remotes[position]? with
    | none => simpa [answers, known] using ih
    | some peer =>
      have skipped := ih.trans (List.sublist_cons_self peer _)
      cases reply with
      | write result => simpa [answers, known] using skipped
      | read result =>
        by_cases ok : result.ok = true
        · simpa [answers, known, ok] using ih
        · simpa [answers, known, ok] using skipped

/-- Every response comes from another owner. -/
theorem answers_nodup (coordinator : Coordinator) (distinct : (replies.map Prod.fst).Nodup)
    (names : (owners.map NodeInfo.nodeId).Nodup) :
    ((answers (coordinator.liveOwners owners) replies).map (·.peer.nodeId)).Nodup := by
  obtain ⟨ordered, same, part⟩ := Quorum.picks_subperm distinct (coordinator.liveOwners owners)
  have picked := (same.map NodeInfo.nodeId).nodup_iff.mp ((liveOwners_nodup names).sublist (part.map NodeInfo.nodeId))
  have peers := picked.sublist ((answers_sublist (coordinator.liveOwners owners) replies).map NodeInfo.nodeId)
  rwa [List.map_map] at peers

end Responders

end MiniDynamo.Coordinator
