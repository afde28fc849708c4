import MiniDynamo.Coordinator.ReadQuorum
import MiniDynamo.Replication.Latest

/-! Reads of a key whose latest version some nodes are known to hold: what their replicas
answer, what their repairs may do, and what they return. -/

namespace MiniDynamo

open Coordinator (localResp answers stale maximalVersions foundVersions)

variable {client : ReplicaClient} {transport : Transport client}

/-- A version, and nodes that hold it and report it. Where the transport does not carry the
version as it is, the node that made it is one of them, so that no read repairs it there. -/
structure Pledge (transport : Transport client) extends Latest transport where
  Pledged : Bytes → Prop
  atRoot : ∀ node, root = some node → Pledged node ∨ transport.carry version = version
  visible : ∀ copy, copy = version ∨ copy = transport.carry version → (transport.report (some copy)).found = true

namespace Pledge

variable (pledge : Pledge transport)

/-- What a read may find at a node. -/
def Rely (node : Bytes) (stored : Option Bytes) : Prop :=
  pledge.Copy node stored ∧ (pledge.Pledged node → pledge.Current node stored)

/-- The version as a read at this node gets to know it: from the node's own copy, or carried. -/
def Known (node : Bytes) (version : VersionedValue) : Prop :=
  version = pledge.form node ∨ version = transport.carry pledge.version

/-- What a response to a read at this node may say. -/
def Fits (node : Bytes) (response : Resp) : Prop :=
  (response.found = true → pledge.Older response.vv ∨ pledge.Known node response.vv) ∧
    (pledge.Pledged response.peer.nodeId → response.found = true ∧ pledge.Known node response.vv)

/-- A read asks the targets in their order, and its repairs are writes. -/
def Asked (targets : List NodeInfo) (position : Nat) : Request → Prop
  | .readReplica peer key => key = pledge.key ∧ targets[position]? = some peer
  | .writeReplica _ _ _ => True

def Replied (targets : List NodeInfo) (position : Nat) : Reply → Prop
  | .read result => ∃ peer, targets[position]? = some peer ∧
      ∀ node, pledge.Fits node ⟨peer, result.found, result.value⟩
  | .write _ => True

def link (targets : List NodeInfo) (origin : Bytes) (thread : Nat) : Cluster.Link Bytes Bytes Bytes Request Reply where
  origin := origin
  thread := thread
  asked := pledge.Asked targets
  rely node key stored := key = pledge.key → pledge.Rely node stored
  replied := pledge.Replied targets

/-- What is asked of a read at a node. -/
def reading (targets : List NodeInfo) (node : Bytes) (returns : Outcome → Prop) :
    Contract Bytes Bytes Replies Outgoing Outcome where
  readable key stored := key = pledge.key → pledge.Rely node stored
  receivable replies := (replies.map Prod.fst).Nodup ∧
    ∀ position result, (position, Reply.read result) ∈ replies → result.ok = true →
      pledge.Replied targets position (.read result)
  writes seen key bytes := key = pledge.key → pledge.Written node seen bytes
  sends messages := ∀ position request, messages[position]? = some (.request request) →
    pledge.Addressed request ∧ pledge.Asked targets position request
  returns := returns

variable {pledge} {node : Bytes}

theorem Known.same {version : VersionedValue} (known : pledge.Known node version) : pledge.Same version := by
  rcases known with rfl | rfl
  · exact Latest.form_same node
  · exact .inr rfl

theorem not_current_none : ¬ pledge.Current node none := nofun

theorem fits_localResp {owner : NodeInfo} {stored : Option Bytes} (rely : pledge.Rely owner.nodeId stored) :
    pledge.Fits owner.nodeId (localResp owner stored) := by
  obtain ⟨copy, pledged⟩ := rely
  cases stored with
  | none => exact ⟨nofun, fun promised => absurd (pledged promised) not_current_none⟩
  | some bytes =>
    refine ⟨fun _ => ?_, fun promised => ⟨rfl, .inl (pledged promised).version⟩⟩
    rcases copy with current | older
    · exact .inr (.inl current.version)
    · exact .inl (older bytes rfl)

/-- What a replica reports of its copy. -/
theorem fits_report {peer : NodeInfo} {stored : Option Bytes} (rely : pledge.Rely peer.nodeId stored) :
    pledge.Fits node ⟨peer, (transport.report (stored.map VersionedValue.deserialize)).found,
      (transport.report (stored.map VersionedValue.deserialize)).value⟩ := by
  obtain ⟨copy, pledged⟩ := rely
  cases stored with
  | none =>
    refine ⟨fun found => ?_, fun promised => absurd (pledged promised) not_current_none⟩
    cases transport.report_none.symm.trans found
  | some bytes =>
    have carries (current : pledge.Current peer.nodeId (some bytes)) :
        (transport.report (some (VersionedValue.deserialize bytes))).found = true ∧
          (transport.report (some (VersionedValue.deserialize bytes))).value = transport.carry pledge.version := by
      have same : pledge.Same (pledge.form peer.nodeId) := Latest.form_same peer.nodeId
      rw [current.version]
      refine ⟨pledge.visible _ same, ?_⟩
      rw [transport.report_some _ (same.clock ▸ pledge.safe) (pledge.visible _ same), same.carry]
    refine ⟨fun found => ?_, fun promised => ?_⟩
    · rcases copy with current | older
      · exact .inr (.inr (carries current).2)
      · refine .inl ?_
        have reported := transport.report_some _ (older bytes rfl).2 found
        show pledge.Older (transport.report (some _)).value
        rw [reported, Latest.Older, transport.carry_clock]
        exact older bytes rfl
    · obtain ⟨found, carried⟩ := carries (pledged promised)
      exact ⟨found, .inr carried⟩

section Repairs

variable {dominant : VersionedValue} {response : Resp}

theorem not_stale (fits : pledge.Fits node response) (promised : pledge.Pledged response.peer.nodeId)
    (same : pledge.Same dominant) : ¬ stale dominant response = true := by
  obtain ⟨found, known⟩ := fits.2 promised
  intro behind
  simp only [stale, found, Bool.not_true, Bool.false_or, decide_eq_true_eq,
    VectorClock.compare_aDominates_iff, known.same.clock, same.clock] at behind
  exact lt_irrefl _ behind

/-- A node that lacks the version holds it, once repaired, in the form the transport carries. -/
theorem repair_form (fits : pledge.Fits node response) (behind : stale dominant response = true)
    (same : pledge.Same dominant) : transport.carry pledge.version = pledge.form response.peer.nodeId := by
  unfold Latest.form
  split
  · rename_i root
    rcases pledge.atRoot _ root with promised | carried
    · exact absurd behind (not_stale fits promised same)
    · exact carried
  · rfl

theorem repair_addressed (fits : pledge.Fits node response) (behind : stale dominant response = true)
    (known : pledge.Older dominant ∨ pledge.Known node dominant) :
    pledge.Addressed (.writeReplica response.peer pledge.key dominant) := by
  intro _
  rcases known with older | known
  · exact .inl older
  · exact .inr ⟨known.same, repair_form fits behind known.same⟩

/-- The local repair of a read that saw this copy. -/
theorem repair_written {owner : NodeInfo} {seen : Option Bytes}
    (fits : pledge.Fits owner.nodeId (localResp owner seen)) (behind : stale dominant (localResp owner seen) = true)
    (known : pledge.Older dominant ∨ pledge.Known owner.nodeId dominant) :
    pledge.Written owner.nodeId seen dominant.serialize := by
  rcases known with older | known
  · have ahead := Coordinator.stale_localResp_iff.mp behind
    refine .inr ⟨by rwa [VersionedValue.deserialize_serialize older.2], fun current => ?_⟩
    have newer := ahead _ current
    rw [(Latest.form_same owner.nodeId).deserialize, (Latest.form_same owner.nodeId).clock] at newer
    exact lt_irrefl _ (newer.trans older.1)
  · have form := repair_form fits behind known.same
    rw [Coordinator.localResp_peer] at form
    rcases known with rfl | rfl
    · exact .inl rfl
    · exact .inl (by rw [form]; rfl)

end Repairs

section Program

variable {coordinator : Coordinator} {owners : List NodeInfo} {n r : Int} {returns : Outcome → Prop}

/-- What a read that is left with one version returns. -/
def resultOf (version : VersionedValue) : GetResult :=
  if version.deleted then ⟨.notFound, [], []⟩ else ⟨.ok, [version], []⟩

/-- These responses lead to a result as it should be. -/
def Settles (r : Int) (returns : Outcome → Prop) (responses : List Resp) : Prop :=
  if responses.length < r then returns (.read ⟨.error, [], ascii "quorum_not_met"⟩)
  else (∃ version, maximalVersions responses = [version] ∧ returns (.read (resultOf version))) ∨
    ∀ result, returns (.read result)

/-- The coordinator's own response, made of what it has just read. -/
def OwnResponse (pledge : Pledge transport) (coordinator : Coordinator) (owners : List NodeInfo) (own : List Resp)
    (seen : Option Bytes) : Prop :=
  coordinator.ownOwner owners = none ∧ own = [] ∨
    ∃ owner, coordinator.ownOwner owners = some owner ∧ own = [localResp owner seen] ∧ pledge.Rely owner.nodeId seen

theorem ownOwner_self {owner : NodeInfo} (own : coordinator.ownOwner owners = some owner) :
    owner.nodeId = coordinator.self.nodeId := by
  simpa using List.find?_some own

theorem settle_only (self : coordinator.self.nodeId = node) {own : List Resp} {seen : Option Bytes} {replies : Replies}
    (mine : pledge.OwnResponse coordinator owners own seen)
    (fits : ∀ response ∈ own ++ answers (coordinator.liveOwners owners) replies, pledge.Fits node response)
    (settles : Settles r returns (own ++ answers (coordinator.liveOwners owners) replies)) :
    (coordinator.settle pledge.key r own (coordinator.liveOwners owners) replies).Only
      (fun key bytes => key = pledge.key ∧ pledge.Written node seen bytes)
      (fun message => ∃ peer value, message = .request (.writeReplica peer pledge.key value) ∧
        pledge.Addressed (.writeReplica peer pledge.key value))
      (fun result => returns (.read result)) := by
  unfold Coordinator.settle
  unfold Settles at settles
  simp only
  split
  · rename_i short
    rwa [if_pos short] at settles
  · rename_i enough
    rw [if_neg enough] at settles
    refine Coordinator.conclude_only (fun none => ?_) (fun dominant one => ⟨?_, ?_⟩) (fun first second rest many => ?_)
    · rcases settles with ⟨version, one, -⟩ | any
      · cases none.symm.trans one
      · exact any _
    · obtain ⟨source, present, found, same⟩ :=
        Coordinator.mem_maximalVersions (one ▸ List.mem_singleton_self dominant)
      have known : pledge.Older dominant ∨ pledge.Known node dominant := same ▸ (fits source present).1 found
      refine Coordinator.repairStale_only (fun response member behind here => ⟨rfl, ?_⟩)
        (fun response member behind _ =>
          ⟨response.peer, dominant, rfl, repair_addressed (fits response member) behind known⟩)
      rcases List.mem_append.mp member with mineOnly | remote
      · rcases mine with ⟨-, rfl⟩ | ⟨owner, own, rfl, -⟩
        · cases mineOnly
        · obtain rfl := List.mem_singleton.mp mineOnly
          have home : owner.nodeId = node := (ownOwner_self own).trans self
          subst home
          exact repair_written (fits _ member) behind known
      · obtain ⟨position, -, -, peer, -⟩ := Coordinator.mem_answers remote
        have other := (Coordinator.liveOwners_subset _ (List.mem_map_of_mem (List.mem_of_getElem? peer))).2
        exact absurd here other
    · rcases settles with ⟨version, only, right⟩ | any
      · obtain rfl := List.singleton_inj.mp (one.symm.trans only)
        exact right
      · exact any _
    · rcases settles with ⟨version, one, -⟩ | any
      · cases many.symm.trans one
      · exact any _

theorem settle_keeps (self : coordinator.self.nodeId = node) {own : List Resp} {seen : Option Bytes}
    {replies : Replies} (mine : pledge.OwnResponse coordinator owners own seen)
    (fits : ∀ response ∈ own ++ answers (coordinator.liveOwners owners) replies, pledge.Fits node response)
    (settles : Settles r returns (own ++ answers (coordinator.liveOwners owners) replies)) :
    (coordinator.settle pledge.key r own (coordinator.liveOwners owners) replies >>=
      fun result => .done (.read result)).Keeps (pledge.reading (coordinator.liveOwners owners) node returns) seen := by
  refine ((settle_only self mine fits settles).bind (fun result right => ?_)).keeps ?_ ?_ (fun _ right => right)
  · exact right
  · rintro key bytes ⟨-, written⟩ -
    exact written
  · intro sent repairs position request found
    obtain ⟨peer, value, same, addressed⟩ := repairs _ (List.mem_of_getElem? found)
    cases same
    exact ⟨addressed, trivial⟩

/-- What the replicas replied and the coordinator read itself are fitting responses. -/
theorem responses_fit (self : coordinator.self.nodeId = node) {own : List Resp} {seen : Option Bytes}
    {replies : Replies} (mine : pledge.OwnResponse coordinator owners own seen)
    (replied : ∀ position result, (position, Reply.read result) ∈ replies → result.ok = true →
      pledge.Replied (coordinator.liveOwners owners) position (.read result)) :
    ∀ response ∈ own ++ answers (coordinator.liveOwners owners) replies, pledge.Fits node response := by
  intro response member
  rcases List.mem_append.mp member with mineOnly | remote
  · rcases mine with ⟨-, rfl⟩ | ⟨owner, own, rfl, rely⟩
    · cases mineOnly
    · have home : owner.nodeId = node := (ownOwner_self own).trans self
      subst home
      rw [List.mem_singleton.mp mineOnly]
      exact fits_localResp rely
  · obtain ⟨position, result, reply, known, ok, found, value⟩ := Coordinator.mem_answers remote
    obtain ⟨peer, there, fits⟩ := replied position result reply ok
    cases known.symm.trans there
    rw [← found, ← value] at fits
    exact fits node

/-- A read keeps to its contract if all responses it can get settle it. -/
theorem get_keeps (self : coordinator.self.nodeId = node)
    (empty : coordinator.router.findOwners pledge.key n = some [] →
      returns (.read ⟨.error, [], ascii "no_nodes_in_ring"⟩))
    (settles : ∀ owners own seen replies, coordinator.router.findOwners pledge.key n = some owners →
      pledge.OwnResponse coordinator owners own seen → (replies.map Prod.fst).Nodup →
      (∀ response ∈ own ++ answers (coordinator.liveOwners owners) replies, pledge.Fits node response) →
      Settles r returns (own ++ answers (coordinator.liveOwners owners) replies)) :
    ((ClientCall.get pledge.key n r).program coordinator client).Keeps
      (pledge.reading (coordinator.readTargets pledge.key n) node returns) none := by
  show (coordinator.coordinateGet pledge.key n r >>= fun result => .done (Outcome.read result)).Keeps _ none
  cases found : coordinator.router.findOwners pledge.key n with
  | none =>
    unfold Coordinator.coordinateGet
    rw [found]
    trivial
  | some owners =>
    by_cases nonempty : owners = []
    · subst nonempty
      unfold Coordinator.coordinateGet
      rw [found]
      exact empty found
    · have targets : coordinator.readTargets pledge.key n = coordinator.liveOwners owners := by
        simp [Coordinator.readTargets, found]
      have gathers {own : List Resp} {seen : Option Bytes} (mine : pledge.OwnResponse coordinator owners own seen) :
          (coordinator.gather pledge.key r owners own >>= fun result => .done (.read result)).Keeps
            (pledge.reading (coordinator.liveOwners owners) node returns) seen := by
        refine ⟨fun position request there => ?_, fun replies receivable => ?_⟩
        · rw [List.getElem?_map, Option.map_eq_some_iff] at there
          obtain ⟨peer, known, same⟩ := there
          cases same
          exact ⟨trivial, rfl, known⟩
        · have fits := responses_fit self mine receivable.2
          exact settle_keeps self mine fits (settles owners own seen replies found mine receivable.1 fits)
      rw [targets, Coordinator.coordinateGet_eq found nonempty]
      split
      · rename_i alone
        exact gathers (.inl ⟨alone, rfl⟩)
      · rename_i owner own
        intro stored rely
        refine gathers (.inr ⟨owner, own, rfl, ?_⟩)
        rw [ownOwner_self own, self]
        exact rely rfl

end Program

end Pledge

end MiniDynamo
