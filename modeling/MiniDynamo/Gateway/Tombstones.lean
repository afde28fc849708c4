import MiniDynamo.Coordinator.Reconciliation
import MiniDynamo.Gateway.Agreement

/-! What a client sees of deleted versions. If one version is newest and deleted, the key is not
found. The reply with siblings has no place for the flag, and a deleted one among them is read as a
value like any other. -/

namespace MiniDynamo.Gateway

open Utf16 ClusterClient Wire Coordinator

/-- What the gateway reads of the reply to a read. -/
def view (result : GetResult) : Option ReadResult :=
  (Node.getReply result).bind (fun reply => parseRead (ofUtf8 reply))

/-- The gateway reads the version as one of the values. -/
def Shown (result : GetResult) (version : VersionedValue) : Prop :=
  version ∈ result.values ∧ ∃ parsed ∈ view result, ∃ value ∈ parsed.values,
    value.value = version.data ∧ utf8 value.clock = version.clock.serialize

/-- The reply tells that the version is deleted: no read with this version alive looks the same. -/
def Marked (result : GetResult) (version : VersionedValue) : Prop :=
  ∀ other, view other = view result → { version with deleted := false } ∉ other.values

/-- No deleted version is shown as a value without a mark. -/
def Discerning (result : GetResult) : Prop :=
  ∀ version, Shown result version → version.deleted = true → Marked result version

/-- The same versions, all alive. -/
def revived (result : GetResult) : GetResult :=
  { result with values := result.values.map (fun version => { version with deleted := false }) }

section Replies

variable {result : GetResult} {version : VersionedValue}

theorem getReply_revived (result : GetResult) : Node.getReply (revived result) = Node.getReply result := by
  obtain ⟨status, values, error⟩ := result
  cases status with
  | ok => cases values <;> rfl
  | siblings => simp [Node.getReply, revived, Function.comp_def]
  | notFound => rfl
  | error => rfl

theorem not_marked (member : version ∈ result.values) : ¬ Marked result version := by
  intro marked
  refine marked (revived result) ?_ (List.mem_map_of_mem member)
  rw [view, view, getReply_revived]

theorem discerning_iff : Discerning result ↔ ∀ version, Shown result version → version.deleted = false := by
  constructor
  · intro discerning version shown
    by_contra gone
    exact not_marked shown.1 (discerning version shown (Bool.not_eq_false _ ▸ gone))
  · intro alive version shown deleted
    cases (alive version shown).symm.trans deleted

theorem transparent_serialize {clock : VectorClock} (valid : clock.OverValidIds) : Transparent clock.serialize :=
  ⟨VectorClock.pipe_not_mem_serialize valid.wireSafe, utf8_ofUtf8_iff.mp (utf8_token valid)⟩

/-- With clocks over valid ids every version of the reply is shown. -/
theorem shown_iff (fits : Fits result) (quiet : result.status ≠ .error)
    (valid : ∀ version ∈ result.values, version.clock.OverValidIds) :
    Shown result version ↔ version ∈ result.values := by
  refine ⟨And.left, fun member => ⟨member, ?_⟩⟩
  have transparent : ReadTransparent result :=
    ⟨fits, fun version member => transparent_serialize (valid version member), fun failed => absurd failed quiet⟩
  obtain ⟨reply, parsed, replied, read, -, values⟩ := (readAgrees_iff result).mpr transparent
  have inside : (version.data, version.clock.serialize) ∈
      parsed.values.map (fun value => (value.value, utf8 value.clock)) := by
    rw [values]
    exact List.mem_map_of_mem member
  obtain ⟨value, held, same⟩ := List.mem_map.mp inside
  refine ⟨parsed, ?_, value, held, (Prod.mk.inj same).1, (Prod.mk.inj same).2⟩
  rw [Option.mem_def, view, replied]
  exact read

end Replies

/-- Enough replicas answered, and of two or more newest versions this one is deleted. -/
def DeleteConflict (r : Int) (responses : List Resp) (version : VersionedValue) : Prop :=
  r ≤ responses.length ∧ 2 ≤ (maximalVersions responses).length ∧ version ∈ maximalVersions responses ∧
    version.deleted = true

section Reads

variable {r : Int} {responses : List Resp} {version : VersionedValue}

theorem reportOf_siblings {versions : List VersionedValue} (several : 2 ≤ versions.length) :
    reportOf versions = ⟨.siblings, versions, []⟩ := by
  match versions, several with
  | _ :: _ :: _, _ => rfl

/-- A deleted version is reported with siblings only. -/
theorem deleted_report_iff : version ∈ (report r responses).values ∧ version.deleted = true ↔
    DeleteConflict r responses version := by
  unfold report DeleteConflict
  split
  · rename_i short
    refine iff_of_false (fun both => absurd both.1 List.not_mem_nil) (fun conflict => ?_)
    exact absurd short (Int.not_lt.mpr conflict.1)
  · rename_i enough
    rw [and_iff_right (Int.not_lt.mp enough)]
    by_cases several : 2 ≤ (maximalVersions responses).length
    · rw [reportOf_siblings several, and_iff_right several]
    · refine iff_of_false ?_ (fun conflict => several conflict.1)
      rintro ⟨member, deleted⟩
      generalize maximalVersions responses = versions at several member
      match versions with
      | [] => cases member
      | [dominant] =>
        rw [reportOf] at member
        split at member
        · cases member
        · rename_i alive
          rw [List.mem_singleton.mp member] at deleted
          exact alive deleted
      | _ :: _ :: _ => exact several (by simp)

theorem report_of_conflict (conflict : DeleteConflict r responses version) :
    report r responses = ⟨.siblings, maximalVersions responses, []⟩ := by
  rw [report, if_neg (Int.not_lt.mpr conflict.1), reportOf_siblings conflict.2.1]

/-- A deleted version is shown as a value without a mark exactly in a conflict with another write
whose reply the gateway can read, and with clocks over valid ids it can read every one. -/
theorem tombstone_marked_iff (r : Int) (responses : List Resp) :
    (Discerning (report r responses) ↔
      ¬ ∃ version, DeleteConflict r responses version ∧ Shown (report r responses) version) ∧
    ((∀ response ∈ responses, response.found = true → response.vv.clock.OverValidIds) →
      (Discerning (report r responses) ↔ ¬ ∃ version, DeleteConflict r responses version)) := by
  have whole : Discerning (report r responses) ↔
      ¬ ∃ version, DeleteConflict r responses version ∧ Shown (report r responses) version := by
    rw [discerning_iff]
    constructor
    · rintro alive ⟨version, conflict, shown⟩
      cases (alive version shown).symm.trans conflict.2.2.2
    · intro none version shown
      by_contra gone
      exact none ⟨version, deleted_report_iff.mp ⟨shown.1, Bool.not_eq_false _ ▸ gone⟩, shown⟩
  refine ⟨whole, fun valid => whole.trans (not_congr (exists_congr (fun version => ?_)))⟩
  refine and_iff_left_of_imp (fun conflict => ?_)
  rw [report_of_conflict conflict]
  refine (shown_iff ?_ ?_ (fun other member => ?_)).mpr conflict.2.2.1
  · exact trivial
  · simp
  · obtain ⟨response, asked, found, rfl⟩ := mem_maximalVersions member
    exact valid response asked found

/-- A write that two replicas answer with versions neither of which is newer; the first is deleted or not. -/
def divided (deleted : Bool) : List Resp :=
  [⟨⟨ascii "a", ascii "h", 1⟩, true, ⟨[], VectorClock.empty.set (ascii "a") 1 0, deleted⟩⟩,
    ⟨⟨ascii "b", ascii "h", 2⟩, true, ⟨ascii "w", VectorClock.empty.set (ascii "b") 1 0, false⟩⟩]

theorem tombstone_marked_iff_divided :
    ¬ Discerning (report 2 (divided true)) ∧ Discerning (report 2 (divided false)) := by
  constructor
  · intro discerning
    refine ((tombstone_marked_iff 2 (divided true)).2 (by decide +kernel)).mp discerning ?_
    exact ⟨⟨[], VectorClock.empty.set (ascii "a") 1 0, true⟩, by decide, by decide +kernel, by decide +kernel, rfl⟩
  · refine ((tombstone_marked_iff 2 (divided false)).2 (by decide +kernel)).mpr ?_
    rintro ⟨version, -, -, member, deleted⟩
    obtain ⟨response, asked, -, rfl⟩ := mem_maximalVersions member
    simp [divided] at asked
    rcases asked with rfl | rfl <;> cases deleted

/-- The client is told the same of a conflict with a delete as of one with an empty value. -/
theorem tombstone_shown_as_empty_value :
    view (report 2 (divided true)) = some (.siblings [⟨[], text "a:1:0"⟩, ⟨ascii "w", text "b:1:0"⟩]) ∧
      view (report 2 (divided true)) = view (report 2 (divided false)) ∧ ¬ Discerning (report 2 (divided true)) := by
  have told : view (report 2 (divided true)) = some (.siblings [⟨[], text "a:1:0"⟩, ⟨ascii "w", text "b:1:0"⟩]) := by
    decide +kernel
  have member : ⟨[], VectorClock.empty.set (ascii "a") 1 0, true⟩ ∈ (report 2 (divided true)).values := by
    decide +kernel
  refine ⟨told, by decide +kernel, fun discerning => ?_⟩
  refine not_marked member (discerning _ ⟨member, _, told, ⟨[], text "a:1:0"⟩, ?_, rfl, ?_⟩ rfl)
  · exact List.mem_cons_self
  · decide +kernel

end Reads

end MiniDynamo.Gateway
