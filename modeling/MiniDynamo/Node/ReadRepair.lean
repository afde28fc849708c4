import Mathlib.Logic.Function.Basic
import MiniDynamo.Coordinator.Reconciliation
import MiniDynamo.Node.Calls

/-! Read repair over the storages of all replicas: a read that nothing else runs beside, its
repairs, and the same read once they have been applied. -/

namespace MiniDynamo

open Coordinator (Agreeing SameReport gathered localResp stale winner report maximalVersions foundVersions)

/-- The storage of each node. -/
abbrev Stores := Bytes → Storage

namespace ReplicaClient

/-- The client hands the version as it is to the peer, and the peer's copy as it is to the reader. -/
structure Unchanged (client : ReplicaClient) : Prop where
  write : ∀ origin key value storage,
    ((client.writeReplica origin key value).exec [] storage).2 = ReplicaOps.replicate key storage value
  read : ∀ origin key storage, (client.readReplica origin key).exec [] storage =
    (some (.ofCopy (storage[key]?.map VersionedValue.deserialize)), storage)

theorem inProcess_unchanged : inProcess.Unchanged where
  write origin key value storage := by
    have run : inProcess.writeReplica origin key value = ReplicaOps.replicateThen (fun _ => ⟨true⟩) key value :=
      ReplicaOps.applyReplicate_bind (fun _ => (⟨true⟩ : ReplicaWriteResult)) key value
    rw [run, ReplicaOps.replicateThen, ReplicaOps.replicate_eq, Process.exec]
    split <;> rfl
  read _ _ _ := rfl

variable {client : ReplicaClient}

/-- A message arrives: the peer serves a write, and nobody's storage changes by anything else. -/
def deliver (client : ReplicaClient) (origin : Bytes) (stores : Stores) : Outgoing → Stores
  | .request (.writeReplica peer key value) => Function.update stores peer.nodeId
      ((client.writeReplica origin key value).exec [] (stores peer.nodeId)).2
  | _ => stores

end ReplicaClient

section Delivery

variable {client : ReplicaClient} {origin key node : Bytes} {dominant : VersionedValue} {stores : Stores}
variable {messages : List Outgoing} {storage : Storage}

/-- The copy of the key is this version. -/
def Holds (key : Bytes) (version : VersionedValue) (storage : Storage) : Prop :=
  storage[key]?.map VersionedValue.deserialize = some version

/-- A repair with this version would be accepted. -/
def Accepts (key : Bytes) (version : VersionedValue) (storage : Storage) : Prop :=
  ReplicaOps.localDominates storage[key]? version = false

/-- Of the writes among the messages, each is of this version of the key. -/
def OnlyRepairs (key : Bytes) (version : VersionedValue) (messages : List Outgoing) : Prop :=
  ∀ peer target value, .request (.writeReplica peer target value) ∈ messages → target = key ∧ value = version

theorem Holds.accepts (holds : Holds key dominant storage) : Accepts key dominant storage := by
  obtain ⟨bytes, held, rfl⟩ := Option.map_eq_some_iff.mp holds
  rw [Accepts, held, Bool.eq_false_iff, Ne, ReplicaOps.localDominates_iff]
  rintro ⟨_, same, ahead⟩
  cases same
  exact lt_irrefl _ ahead

theorem holds_insert (safe : dominant.clock.WireSafe) (storage : Storage) :
    Holds key dominant (storage.insert key dominant.serialize) := by
  rw [Holds, OrderedMap.lookup_insert, if_pos rfl, Option.map_some, VersionedValue.deserialize_serialize safe]

theorem holds_putAll (safe : dominant.clock.WireSafe) {writes : List (Bytes × Bytes)}
    (only : ∀ write ∈ writes, write = (key, dominant.serialize)) (enough : Holds key dominant storage ∨ writes ≠ []) :
    Holds key dominant (Process.putAll storage writes) := by
  induction writes generalizing storage with
  | nil => exact enough.resolve_right (fun nonempty => nonempty rfl)
  | cons write rest ih =>
    rw [only write List.mem_cons_self]
    apply ih (fun other member => only other (List.mem_cons_of_mem write member))
    exact .inl (holds_insert safe storage)

theorem deliver_write (unchanged : client.Unchanged) (peer : NodeInfo) (value : VersionedValue) :
    client.deliver origin stores (.request (.writeReplica peer key value)) =
      Function.update stores peer.nodeId (ReplicaOps.replicate key (stores peer.nodeId) value) := by
  rw [ReplicaClient.deliver, unchanged.write]

/-- One repair arrives. -/
theorem holds_deliver (unchanged : client.Unchanged) (safe : dominant.clock.WireSafe) (peer : NodeInfo)
    (accepts : Accepts key dominant (stores node)) (here : peer.nodeId = node ∨ Holds key dominant (stores node)) :
    Holds key dominant (client.deliver origin stores (.request (.writeReplica peer key dominant)) node) := by
  rw [deliver_write unchanged]
  by_cases same : peer.nodeId = node
  · subst same
    rw [Function.update_self, ReplicaOps.replicate_eq, accepts]
    exact holds_insert safe _
  · rw [Function.update_of_ne (Ne.symm same)]
    exact here.resolve_left same

theorem accepts_deliver (unchanged : client.Unchanged) (safe : dominant.clock.WireSafe) (peer : NodeInfo)
    (accepts : Accepts key dominant (stores node)) :
    Accepts key dominant (client.deliver origin stores (.request (.writeReplica peer key dominant)) node) := by
  by_cases same : peer.nodeId = node
  · exact (holds_deliver unchanged safe peer accepts (.inl same)).accepts
  · rw [deliver_write unchanged, Function.update_of_ne (Ne.symm same)]
    exact accepts

/-- Whatever the order in which they arrive, the repairs leave the version at every node that
has one or is sent one. -/
theorem holds_delivered (unchanged : client.Unchanged) (safe : dominant.clock.WireSafe)
    (only : OnlyRepairs key dominant messages) (accepts : Accepts key dominant (stores node))
    (reached : Holds key dominant (stores node) ∨
      ∃ peer, .request (.writeReplica peer key dominant) ∈ messages ∧ peer.nodeId = node) :
    Holds key dominant (messages.foldl (client.deliver origin) stores node) := by
  induction messages generalizing stores with
  | nil => exact reached.resolve_right (by simp)
  | cons message rest ih =>
    have later : OnlyRepairs key dominant rest :=
      fun peer target value member => only peer target value (List.mem_cons_of_mem message member)
    rw [List.foldl_cons]
    cases message with
    | storeHint target key value =>
      apply ih later accepts
      simpa using reached
    | request request =>
      cases request with
      | readReplica peer target =>
        apply ih later accepts
        simpa using reached
      | writeReplica peer target value =>
        obtain ⟨rfl, rfl⟩ := only peer target value List.mem_cons_self
        apply ih later (accepts_deliver unchanged safe peer accepts)
        rcases reached with holds | ⟨other, member, there⟩
        · exact .inl (holds_deliver unchanged safe peer accepts (.inr holds))
        · rcases List.mem_cons.mp member with same | after
          · cases same
            exact .inl (holds_deliver unchanged safe peer accepts (.inl there))
          · exact .inr ⟨other, after, there⟩

/-- A node that no write is sent to keeps its storage. -/
theorem delivered_away (away : ∀ peer key value, .request (.writeReplica peer key value) ∈ messages →
      peer.nodeId ≠ node) : messages.foldl (client.deliver origin) stores node = stores node := by
  induction messages generalizing stores with
  | nil => rfl
  | cons message rest ih =>
    rw [List.foldl_cons, ih (fun peer key value member => away peer key value (List.mem_cons_of_mem message member))]
    cases message with
    | storeHint target key value => rfl
    | request request =>
      cases request with
      | readReplica peer target => rfl
      | writeReplica peer target value =>
        exact Function.update_of_ne (Ne.symm (away peer target value List.mem_cons_self)) _ _

end Delivery

/-- The replies to the fan-out of a read are failures, or what the peers hold. -/
def Honest (client : ReplicaClient) (coordinator : Coordinator) (key : Bytes) (owners : List NodeInfo)
    (stores : Stores) (replies : Replies) : Prop :=
  ∀ position result peer, (position, .read result) ∈ replies → result.ok = true →
    (coordinator.liveOwners owners)[position]? = some peer →
    ((client.readReplica coordinator.self.nodeId key).exec [] (stores peer.nodeId)).1 = some result

/-- A read with nothing else running, and the delivery of all it sent. The stores hold anything,
but where two of the responses carry equal clocks they carry the same version. -/
structure RepairedRead (client : ReplicaClient) where
  coordinator : Coordinator
  key : Bytes
  n : Int
  r : Int
  owners : List NodeInfo
  stores : Stores
  replies : Replies
  delivered : List Outgoing
  unchanged : client.Unchanged
  ring : coordinator.router.findOwners key n = some owners
  honest : Honest client coordinator key owners stores replies
  agree : Agreeing (coordinator.gathered key owners replies (stores coordinator.self.nodeId))
  all : delivered.Perm ((coordinator.coordinateGet key n r).sent replies (stores coordinator.self.nodeId))

namespace RepairedRead

variable {client : ReplicaClient} (read : RepairedRead client)

def self : Bytes := read.coordinator.self.nodeId

def program : NodeProgram GetResult := read.coordinator.coordinateGet read.key read.n read.r

/-- The read requests. -/
def fanOut : List Outgoing := (read.coordinator.liveOwners read.owners).map (.request <| .readReplica · read.key)

/-- The responses of the same read, on given stores. -/
def responsesOf (replies : Replies) (stores : Stores) : List Resp :=
  read.coordinator.gathered read.key read.owners replies (stores read.self)

def responses : List Resp := read.responsesOf read.replies read.stores

/-- The stores when all the read sent has been delivered. -/
def after : Stores :=
  read.delivered.foldl (client.deliver read.self)
    (Function.update read.stores read.self (read.program.exec read.replies (read.stores read.self)).2)

theorem resp_ofCopy (peer : NodeInfo) (stored : Option Bytes) :
    (⟨peer, (ReplicaReadResult.ofCopy (stored.map VersionedValue.deserialize)).found,
      (ReplicaReadResult.ofCopy (stored.map VersionedValue.deserialize)).value⟩ : Resp) = localResp peer stored := by
  cases stored with
  | none => rfl
  | some bytes => rfl

/-- A response says what its peer holds. -/
theorem eq_localResp {replies : Replies} {stores : Stores}
    (honest : Honest client read.coordinator read.key read.owners stores replies) {response : Resp}
    (member : response ∈ read.responsesOf replies stores) :
    response = localResp response.peer (stores response.peer.nodeId)[read.key]? := by
  rcases List.mem_append.mp member with own | remote
  · obtain ⟨owner, present, rfl⟩ := List.mem_map.mp own
    have mine := List.find?_some (Option.mem_toList.mp present)
    rw [Coordinator.localResp_peer, of_decide_eq_true mine]
    rfl
  · obtain ⟨position, result, reply, known, ok, found, value⟩ := Coordinator.mem_answers remote
    have copy := honest position result response.peer reply ok known
    rw [read.unchanged.read] at copy
    calc response = ⟨response.peer, result.found, result.value⟩ := by rw [← found, ← value]
      _ = localResp response.peer (stores response.peer.nodeId)[read.key]? := by
        rw [← Option.some.inj copy]
        exact resp_ofCopy _ _

theorem responsesOf_eq {replies : Replies} {stores : Stores}
    (honest : Honest client read.coordinator read.key read.owners stores replies) :
    read.responsesOf replies stores = ((read.responsesOf replies stores).map Resp.peer).map
      (fun peer => localResp peer (stores peer.nodeId)[read.key]?) := by
  rw [List.map_map]
  conv_lhs => rw [← List.map_id (read.responsesOf replies stores)]
  exact List.map_congr_left (fun response member => read.eq_localResp honest member)

/-- The same read on given stores. -/
theorem does (nonempty : read.owners ≠ []) (replies : Replies) (stores : Stores) :
    read.program.Does replies (stores read.self) (report read.r (read.responsesOf replies stores))
      ((winner read.r (read.responsesOf replies stores)).elim []
        (read.coordinator.ownRepairs read.key (read.responsesOf replies stores)))
      (read.fanOut ++ (winner read.r (read.responsesOf replies stores)).elim []
        (read.coordinator.remoteRepairs read.key (read.responsesOf replies stores))) :=
  Coordinator.does_coordinateGet read.ring nonempty read.r replies (stores read.self) rfl

theorem mem_delivered {result : GetResult} {writes : List (Bytes × Bytes)} {messages : List Outgoing}
    (does : read.program.Does read.replies (read.stores read.self) result writes messages) (message : Outgoing) :
    message ∈ read.delivered ↔ message ∈ messages := by
  rw [← does.sent]
  exact read.all.mem_iff

/-- A read that finds nothing stale writes nothing and sends nothing but its read requests. -/
theorem does_quiet (nonempty : read.owners ≠ []) {replies : Replies} {stores : Stores}
    (current : ∀ dominant, winner read.r (read.responsesOf replies stores) = some dominant →
      ∀ response ∈ read.responsesOf replies stores, ¬ stale dominant response = true) :
    read.program.Does replies (stores read.self) (report read.r (read.responsesOf replies stores)) [] read.fanOut := by
  have does := read.does nonempty replies stores
  cases won : winner read.r (read.responsesOf replies stores) with
  | none => simpa only [won, Option.elim_none, List.append_nil] using does
  | some dominant =>
    obtain ⟨own, remote⟩ := Coordinator.repairs_nil read.coordinator read.key (current dominant won)
    simpa only [won, Option.elim_some, own, remote, List.append_nil] using does

theorem does_quiet_of_none (nonempty : read.owners ≠ []) {replies : Replies} {stores : Stores}
    (lost : winner read.r (read.responsesOf replies stores) = none) :
    read.program.Does replies (stores read.self) (report read.r (read.responsesOf replies stores)) [] read.fanOut := by
  apply read.does_quiet nonempty
  intro dominant won
  cases lost.symm.trans won

theorem after_of_quiet {result : GetResult}
    (quiet : read.program.Does read.replies (read.stores read.self) result [] read.fanOut) :
    read.after = read.stores := by
  funext node
  unfold after
  rw [quiet.final, show Process.putAll (read.stores read.self) [] = read.stores read.self from rfl,
    Function.update_eq_self]
  apply delivered_away
  intro peer key value member
  obtain ⟨_, -, shape⟩ := List.mem_map.mp ((read.mem_delivered quiet _).mp member)
  cases shape

section Winner

variable {dominant : VersionedValue} {response : Resp} (one : maximalVersions read.responses = [dominant])

include one

theorem winner_safe : dominant.clock.WireSafe := by
  have kept : dominant ∈ maximalVersions read.responses := one ▸ List.mem_singleton_self dominant
  obtain ⟨response, member, found, rfl⟩ := Coordinator.mem_maximalVersions kept
  rw [read.eq_localResp read.honest member] at found ⊢
  cases stored : (read.stores response.peer.nodeId)[read.key]? with
  | none =>
    rw [stored] at found
    cases found
  | some bytes => exact VersionedValue.deserialize_wireSafe bytes

/-- No responder is ahead of the winner. -/
theorem le_winner (member : response ∈ read.responses) {bytes : Bytes}
    (held : (read.stores response.peer.nodeId)[read.key]? = some bytes) :
    VersionedValue.deserialize bytes ∈ foundVersions read.responses ∧
      (VersionedValue.deserialize bytes).clock ≤ dominant.clock := by
  have shape := read.eq_localResp read.honest member
  rw [held] at shape
  have found : VersionedValue.deserialize bytes ∈ foundVersions read.responses :=
    Coordinator.mem_foundVersions.mpr ⟨response, member, by rw [shape]; rfl, by rw [shape]; rfl⟩
  obtain ⟨top, kept, below⟩ := (Coordinator.frontier_maximalVersions read.responses).covers _ found
  rw [one, List.mem_singleton] at kept
  exact ⟨found, kept ▸ below⟩

theorem accepts_winner (member : response ∈ read.responses) :
    Accepts read.key dominant (read.stores response.peer.nodeId) := by
  rw [Accepts, Bool.eq_false_iff, Ne, ReplicaOps.localDominates_iff]
  rintro ⟨bytes, held, ahead⟩
  exact ahead.not_ge (read.le_winner one member held).2

/-- A responder that is not stale has the winner already. -/
theorem holds_of_current (member : response ∈ read.responses) (current : ¬ stale dominant response = true) :
    Holds read.key dominant (read.stores response.peer.nodeId) := by
  rw [read.eq_localResp read.honest member, Coordinator.stale_localResp_iff] at current
  simp only [Coordinator.Ahead, not_forall] at current
  obtain ⟨bytes, held, behind⟩ := current
  obtain ⟨found, below⟩ := read.le_winner one member held
  have above : dominant.clock ≤ (VersionedValue.deserialize bytes).clock := by
    by_contra strict
    exact behind (lt_of_le_not_ge below strict)
  have kept : dominant ∈ maximalVersions read.responses := one ▸ List.mem_singleton_self dominant
  have same := read.agree _ found dominant ((Coordinator.frontier_maximalVersions read.responses).part kept)
    (VectorClock.compare_equal_iff.mpr ⟨below, above⟩)
  rw [Holds, held, Option.map_some, same]

/-- Once the repairs are applied, every responder has the winner. -/
theorem holds_after (nonempty : read.owners ≠ []) (enough : ¬ read.responses.length < read.r)
    (member : response ∈ read.responses) : Holds read.key dominant (read.after response.peer.nodeId) := by
  have safe := read.winner_safe one
  have accepts := read.accepts_winner one member
  have won : winner read.r read.responses = some dominant := Coordinator.winner_eq_some.mpr ⟨enough, one⟩
  have does := read.does nonempty read.replies read.stores
  rw [show read.responsesOf read.replies read.stores = read.responses from rfl, won] at does
  have only : OnlyRepairs read.key dominant read.delivered := by
    intro peer target value sent
    rcases List.mem_append.mp ((read.mem_delivered does _).mp sent) with asked | repair
    · obtain ⟨_, -, shape⟩ := List.mem_map.mp asked
      cases shape
    · obtain ⟨_, -, -, -, shape⟩ := Coordinator.mem_remoteRepairs.mp repair
      cases shape
      exact ⟨rfl, rfl⟩
  unfold after
  rw [does.final]
  by_cases own : response.peer.nodeId = read.self
  · rw [own] at accepts ⊢
    have holds : Holds read.key dominant (Process.putAll (read.stores read.self)
        (read.coordinator.ownRepairs read.key read.responses dominant)) := by
      apply holds_putAll safe
      · intro write repair
        obtain ⟨_, -, -, -, shape⟩ := Coordinator.mem_ownRepairs.mp repair
        exact shape.symm
      · by_cases behind : stale dominant response = true
        · right
          exact List.ne_nil_of_mem (Coordinator.mem_ownRepairs.mpr ⟨response, member, behind, own, rfl⟩)
        · exact .inl (own ▸ read.holds_of_current one member behind)
    apply holds_delivered read.unchanged safe only
    · rw [Function.update_self]
      exact holds.accepts
    · rw [Function.update_self]
      exact .inl holds
  · apply holds_delivered read.unchanged safe only
    · rw [Function.update_of_ne own]
      exact accepts
    · rw [Function.update_of_ne own]
      by_cases behind : stale dominant response = true
      · right
        refine ⟨response.peer, ?_, rfl⟩
        apply (read.mem_delivered does _).mpr
        apply List.mem_append_right
        exact Coordinator.mem_remoteRepairs.mpr ⟨response, member, behind, own, rfl⟩
      · exact .inl (read.holds_of_current one member behind)

/-- The same replicas, read again, all respond with the winner. -/
theorem unanimous_again (nonempty : read.owners ≠ []) (enough : ¬ read.responses.length < read.r) {again : Replies}
    (honest : Honest client read.coordinator read.key read.owners read.after again)
    (same : ((read.responsesOf again read.after).map Resp.peer).Perm (read.responses.map Resp.peer)) :
    Coordinator.Unanimous dominant (read.responsesOf again read.after) := by
  intro response member
  obtain ⟨before, asked, peer⟩ := List.mem_map.mp (same.subset (List.mem_map_of_mem member))
  have holds := read.holds_after one nonempty enough asked
  rw [peer] at holds
  obtain ⟨bytes, held, rfl⟩ := Option.map_eq_some_iff.mp holds
  rw [read.eq_localResp honest member, held]
  exact ⟨rfl, rfl⟩

/-- Read again, the same replicas need no repair and give the same result. -/
theorem does_again (nonempty : read.owners ≠ []) (enough : ¬ read.responses.length < read.r) {again : Replies}
    (honest : Honest client read.coordinator read.key read.owners read.after again)
    (same : ((read.responsesOf again read.after).map Resp.peer).Perm (read.responses.map Resp.peer)) :
    read.program.Does again (read.after read.self) (report read.r read.responses) [] read.fanOut := by
  have unanimous := read.unanimous_again one nonempty enough honest same
  have length : (read.responsesOf again read.after).length = read.responses.length := by
    simpa using same.length_eq
  have asked : read.responsesOf again read.after ≠ [] := by
    intro none
    rw [none] at length
    rw [List.eq_nil_of_length_eq_zero length.symm] at one
    cases one
  have settled := unanimous.maximalVersions asked
  have result : report read.r (read.responsesOf again read.after) = report read.r read.responses := by
    rw [report, report, length, settled, one]
  rw [← result]
  apply read.does_quiet nonempty
  intro winner won response member
  obtain ⟨-, last⟩ := Coordinator.winner_eq_some.mp won
  cases settled.symm.trans last
  exact unanimous.not_stale member

end Winner

/-- When nothing was repaired, the same replicas respond as before. -/
theorem responses_again (kept : read.after = read.stores) {again : Replies}
    (honest : Honest client read.coordinator read.key read.owners read.after again)
    (same : ((read.responsesOf again read.after).map Resp.peer).Perm (read.responses.map Resp.peer)) :
    (read.responsesOf again read.after).Perm read.responses ∧
      ((read.responsesOf again read.after).map Resp.peer = read.responses.map Resp.peer →
        read.responsesOf again read.after = read.responses) := by
  have first := read.responsesOf_eq read.honest
  have second := read.responsesOf_eq honest
  rw [kept] at second same ⊢
  constructor
  · rw [second, responses, first]
    exact same.map _
  · intro ordered
    rw [second, responses, first]
    exact congrArg _ ordered

/-- Once the repairs of a read are applied, every replica that responded has the winner, if there
was a single one; a read without a winner changes nothing; and the same replicas, read again,
need no repair and give the same result. -/
theorem repair_reaches_fixpoint (read : RepairedRead client) :
    ∃ result, (read.program.exec read.replies (read.stores read.self)).1 = some result ∧
      (result.status ≠ .error → ∀ dominant, maximalVersions read.responses = [dominant] →
        ∀ response ∈ read.responses, Holds read.key dominant (read.after response.peer.nodeId)) ∧
      (result.status = .siblings ∨ result.status = .notFound ∧ foundVersions read.responses = [] ∨
          result.status = .error →
        read.program.Does read.replies (read.stores read.self) result [] read.fanOut ∧ read.after = read.stores) ∧
      ∀ again, Honest client read.coordinator read.key read.owners read.after again →
        ((read.responsesOf again read.after).map Resp.peer).Perm (read.responses.map Resp.peer) →
        ∃ second, read.program.Does again (read.after read.self) second [] read.fanOut ∧ SameReport second result ∧
          ((read.responsesOf again read.after).map Resp.peer = read.responses.map Resp.peer → second = result) := by
  by_cases nonempty : read.owners = []
  · have quiet (replies : Replies) (storage : Storage) : read.program.Does replies storage
        ⟨.error, [], ascii "no_nodes_in_ring"⟩ [] read.fanOut := by
      have nothing := Coordinator.does_coordinateGet_nil (nonempty ▸ read.ring) read.r replies storage
      rw [fanOut, nonempty]
      exact nothing
    refine ⟨_, (quiet _ _).returned, fun ok => absurd rfl ok, fun _ => ⟨quiet _ _, read.after_of_quiet (quiet _ _)⟩, ?_⟩
    intro again honest same
    exact ⟨_, quiet _ _, .refl _, fun _ => rfl⟩
  · refine ⟨_, (read.does nonempty read.replies read.stores).returned, ?_, ?_, ?_⟩
    · intro ok dominant one response member
      exact read.holds_after one nonempty (fun short => ok (Coordinator.report_error_iff.mpr short)) member
    · intro outcome
      have quiet := read.does_quiet_of_none nonempty (Coordinator.winner_eq_none outcome)
      exact ⟨quiet, read.after_of_quiet quiet⟩
    · intro again honest same
      cases won : winner read.r read.responses with
      | none =>
        have kept := read.after_of_quiet (read.does_quiet_of_none nonempty won)
        obtain ⟨permuted, ordered⟩ := read.responses_again kept honest same
        have lost := (Coordinator.winner_perm permuted read.agree read.r).trans won
        refine ⟨_, read.does_quiet_of_none nonempty lost, Coordinator.report_perm permuted read.agree read.r, ?_⟩
        intro inOrder
        rw [ordered inOrder]
        rfl
      | some dominant =>
        obtain ⟨enough, one⟩ := Coordinator.winner_eq_some.mp won
        exact ⟨_, read.does_again one nonempty enough honest same, .refl _, fun _ => rfl⟩

/-- Node `a` of a ring of two. -/
private def reader : Coordinator where
  self := ⟨ascii "a", ascii "h", 1⟩
  router := ([⟨ascii "a", ascii "h", 1⟩, ⟨ascii "b", ascii "h", 2⟩] : List NodeInfo).foldl Router.addPhysicalNode
    (Router.empty 1)
  isAliveFn := none
  hintStore := false
  maxClockEntries := 20

/-- A version `b` made. -/
private def made (count : UInt64) : VersionedValue := ⟨ascii "v", .set .empty (ascii "b") count 0, false⟩

/-- The reader's own copy is one write behind. -/
private def staleRead : RepairedRead .inProcess where
  coordinator := reader
  key := ascii "k"
  n := 2
  r := 2
  owners := [⟨ascii "b", ascii "h", 2⟩, ⟨ascii "a", ascii "h", 1⟩]
  stores node := (∅ : Storage).insert (ascii "k") (made (if node = ascii "a" then 1 else 2)).serialize
  replies := [(0, .read ⟨true, true, made 2⟩)]
  delivered := [.request (.readReplica ⟨ascii "b", ascii "h", 2⟩ (ascii "k"))]
  unchanged := ReplicaClient.inProcess_unchanged
  ring := by decide +kernel
  honest := by
    intro position result peer member _ known
    obtain ⟨rfl, same⟩ := Prod.mk.inj (List.mem_singleton.mp member)
    cases same
    have remotes : reader.liveOwners [⟨ascii "b", ascii "h", 2⟩, ⟨ascii "a", ascii "h", 1⟩] =
        [⟨ascii "b", ascii "h", 2⟩] := by decide +kernel
    rw [remotes] at known
    cases known
    decide +kernel
  agree := by decide +kernel
  all := .of_eq (by decide +kernel)

theorem repair_reaches_fixpoint_stale :
    Holds (ascii "k") (made 1) (staleRead.stores (ascii "a")) ∧
      Holds (ascii "k") (made 2) (staleRead.after (ascii "a")) := by
  constructor
  · unfold Holds
    decide +kernel
  · obtain ⟨result, returned, held, -⟩ := repair_reaches_fixpoint staleRead
    have ok : result = ⟨.ok, [made 2], []⟩ := by
      have ran : (staleRead.program.exec staleRead.replies (staleRead.stores staleRead.self)).1 =
          some ⟨.ok, [made 2], []⟩ := by decide +kernel
      exact Option.some.inj (returned.symm.trans ran)
    exact held (by rw [ok]; decide) (made 2) (by decide +kernel) ⟨⟨ascii "a", ascii "h", 1⟩, true, made 1⟩
      (by decide +kernel)

end RepairedRead

end MiniDynamo
