import MiniDynamo.Replication.Orderly

/-! One version of a key that is ahead of every other: what the nodes may hold, send and
write while nothing newer is made, and why a node that has it keeps it. -/

namespace MiniDynamo

open ReplicaOps (Stage localDominates localDominates_iff localDominates_of_lt replicateThen)

variable {client : ReplicaClient} {transport : Transport client}

/-- A version of a key, and the node, if any, that holds it as it was made: a replica that
was sent it holds what the transport carried. -/
structure Latest (transport : Transport client) where
  key : Bytes
  version : VersionedValue
  root : Option Bytes
  safe : version.clock.WireSafe

namespace Latest

variable (latest : Latest transport)

/-- The version as one node knows it. -/
def form (node : Bytes) : VersionedValue :=
  if latest.root = some node then latest.version else transport.carry latest.version

def Older (version : VersionedValue) : Prop :=
  version.clock < latest.version.clock ∧ version.clock.WireSafe

def Same (version : VersionedValue) : Prop :=
  version = latest.version ∨ version = transport.carry latest.version

/-- The node holds the version itself. -/
def Current (node : Bytes) (stored : Option Bytes) : Prop := stored = some (latest.form node).serialize

/-- The node holds the version itself, an older one or none. -/
def Copy (node : Bytes) (stored : Option Bytes) : Prop :=
  latest.Current node stored ∨ ∀ bytes, stored = some bytes → latest.Older (VersionedValue.deserialize bytes)

/-- A request to store an older version, or the version itself in the form it has at the
peer; or any request for another key. -/
def Addressed : Request → Prop
  | .writeReplica peer key value => key = latest.key → latest.Older value ∨
      latest.Same value ∧ transport.carry latest.version = latest.form peer.nodeId
  | .readReplica _ _ => True

/-- A write of the version itself, or of an older one by a thread that has not seen it. -/
def Written (node : Bytes) (seen : Option Bytes) (bytes : Bytes) : Prop :=
  latest.Current node (some bytes) ∨
    latest.Older (VersionedValue.deserialize bytes) ∧ ¬ latest.Current node seen

/-- What is asked of the threads of a node. -/
def contract (node : Bytes) : Contract Bytes Bytes Replies Outgoing Outcome where
  readable key stored := key = latest.key → latest.Copy node stored
  receivable _ := True
  writes seen key bytes := key = latest.key → latest.Written node seen bytes
  sends messages := ∀ request, .request request ∈ messages → latest.Addressed request
  returns _ := True

variable {latest}

theorem form_same (node : Bytes) : latest.Same (latest.form node) := by
  unfold form
  split
  · exact .inl rfl
  · exact .inr rfl

theorem Same.clock {version : VersionedValue} (same : latest.Same version) :
    version.clock = latest.version.clock := by
  rcases same with rfl | rfl
  · rfl
  · exact transport.carry_clock _

theorem Same.carry {version : VersionedValue} (same : latest.Same version) :
    transport.carry version = transport.carry latest.version := by
  rcases same with rfl | rfl
  · rfl
  · exact transport.carry_carry _

theorem Same.deserialize {version : VersionedValue} (same : latest.Same version) :
    VersionedValue.deserialize version.serialize = version :=
  VersionedValue.deserialize_serialize (same.clock ▸ latest.safe)

theorem Current.version {node bytes : Bytes} (current : latest.Current node (some bytes)) :
    VersionedValue.deserialize bytes = latest.form node := by
  rw [Option.some.inj current, (form_same node).deserialize]

/-- An older version is not stored with the same bytes. -/
theorem Older.ne {bytes : Bytes} (older : latest.Older (VersionedValue.deserialize bytes)) {version : VersionedValue}
    (same : latest.Same version) : bytes ≠ version.serialize := by
  rintro rfl
  rw [same.deserialize, Older, same.clock] at older
  exact lt_irrefl _ older.1

theorem Older.localDominates {version : VersionedValue} (older : latest.Older version) {node : Bytes}
    {stored : Option Bytes} (current : latest.Current node stored) : localDominates stored version = true := by
  rw [current]
  refine localDominates_of_lt ?_ ?_
  · rw [(form_same node).clock]
    exact latest.safe
  · rw [(form_same node).clock]
    exact older.1

theorem Written.copy {node bytes : Bytes} {seen : Option Bytes} (written : latest.Written node seen bytes) :
    latest.Copy node (some bytes) := by
  rcases written with current | ⟨older, -⟩
  · exact .inl current
  · exact .inr (by simpa using older)

/-- A replica that holds the version or an older one does not turn the version away. -/
theorem Copy.not_localDominates {node : Bytes} {stored : Option Bytes} (copy : latest.Copy node stored) :
    localDominates stored (transport.carry latest.version) = false := by
  by_contra dominates
  rw [Bool.not_eq_false, localDominates_iff] at dominates
  obtain ⟨bytes, rfl, ahead⟩ := dominates
  rw [transport.carry_clock] at ahead
  rcases copy with current | older
  · rw [current.version, (form_same node).clock] at ahead
    exact lt_irrefl _ ahead
  · exact lt_irrefl _ (ahead.trans (older bytes rfl).1)

theorem about_keeps {other : Bytes} (different : other ≠ latest.key) {program : NodeProgram Outcome}
    {seen : Option Bytes} (keeps : program.Keeps (about other) seen) (node : Bytes) :
    program.Keeps (latest.contract node) seen := by
  refine keeps.mono ⟨fun _ _ _ => trivial, fun _ _ => trivial, ?_, ?_, fun _ _ => trivial⟩
  · intro seen key value about same
    exact absurd (about.symm.trans same) different
  · intro messages about request member
    have asked := about request member
    cases request with
    | writeReplica peer key value => exact fun same => absurd (asked.symm.trans same) different
    | readReplica peer key => trivial

/-- A replica that stores the version, or tries an older one, keeps to the contract. -/
theorem stage_keeps {node : Bytes} {answer : Bool → Outcome} {incoming : VersionedValue}
    {thread : NodeThread Outcome} (stage : Stage answer latest.key incoming thread)
    (fits : latest.Older incoming ∨ latest.Current node (some incoming.serialize)) :
    thread.program.Keeps (latest.contract node) thread.seen := by
  have writes {seen : Option Bytes} (passed : localDominates seen incoming = false) :
      latest.Written node seen incoming.serialize := by
    rcases fits with older | current
    · refine .inr ⟨?_, fun current => ?_⟩
      · rwa [VersionedValue.deserialize_serialize older.2]
      · cases passed.symm.trans (older.localDominates current)
    · exact .inl current
  cases stage with
  | reading seen =>
    intro stored _
    by_cases dominated : localDominates stored incoming = true
    · simp only [dominated, ↓reduceIte]
      trivial
    · simp only [dominated, Bool.false_eq_true, ↓reduceIte]
      exact ⟨fun _ => writes (Bool.eq_false_iff.mpr dominated), trivial⟩
  | writing seen passed => exact ⟨fun _ => writes passed, trivial⟩
  | kept seen _ => trivial
  | stored seen => trivial

/-- What a node stores of a request addressed to it. -/
theorem Addressed.fits {peer : NodeInfo} {value : VersionedValue}
    (addressed : latest.Addressed (.writeReplica peer latest.key value)) :
    value.clock.WireSafe ∧ (latest.Older (transport.carry value) ∨
      latest.Current peer.nodeId (some (transport.carry value).serialize)) := by
  rcases addressed rfl with older | ⟨same, form⟩
  · refine ⟨older.2, .inl ?_⟩
    rw [Older, transport.carry_clock]
    exact older
  · refine ⟨same.clock ▸ latest.safe, .inr ?_⟩
    rw [same.carry, form]
    rfl

theorem serve_keeps {ticket : Ticket Bytes} {request : Request} (cleanOrigin : transport.Clean ticket.origin)
    (cleanKey : transport.Clean request.key) (addressed : latest.Addressed request) :
    (client.serve ticket request).Keeps (latest.contract request.peer.nodeId) none := by
  cases request with
  | writeReplica peer asked value =>
    have cleanAsked : transport.Clean asked := cleanKey
    obtain ⟨incoming, same, carried⟩ := transport.serve_write cleanOrigin cleanAsked peer value
    rw [same]
    by_cases here : asked = latest.key
    · subst here
      obtain ⟨safe, fits⟩ := addressed.fits
      rw [← carried safe] at fits
      exact stage_keeps
        (Stage.reading none : Stage (fun _ => .served ticket (.write ⟨true⟩)) latest.key incoming _) fits
    · exact about_keeps here (replicateThen_about asked (fun _ => .served ticket (.write ⟨true⟩)) incoming none) _
  | readReplica peer asked =>
    have cleanAsked : transport.Clean asked := cleanKey
    rw [transport.serve_read cleanOrigin cleanAsked]
    exact fun _ _ => trivial

/-- Everything in the cluster is the version itself or older; the threads exempted here
are accounted for elsewhere. -/
structure Calm (latest : Latest transport) (exempt : Bytes → Nat → Prop) (cluster : StoreCluster) : Prop where
  copies : ∀ node, latest.Copy node (cluster.held node latest.key)
  packets : ∀ packet ∈ cluster.network, latest.Addressed packet.request
  threads : ∀ {node : Bytes} {index : Nat} {thread : NodeThread Outcome},
    cluster.thread node index = some thread → ¬ exempt node index →
      thread.program.Keeps (latest.contract node) thread.seen

/-- The part of a step that concerns the key: nothing, or one write that is in the log. -/
structure Effect (latest : Latest transport) (node : Bytes) (before after : NodePool Outcome)
    (sent : List Outgoing) : Prop where
  sends : ∀ request, .request request ∈ sent → latest.Addressed request
  stores : after.store[latest.key]? = before.store[latest.key]? ∨
    ∃ index seen bytes, latest.Written node seen bytes ∧ after.store[latest.key]? = some bytes ∧
      after.log = before.log ++ [⟨index, latest.key, seen, before.store[latest.key]?, bytes⟩]

variable {cluster next : StoreCluster} {exempt : Bytes → Nat → Prop}

/-- A thread that keeps a contract which promises as much has such an effect. -/
theorem effect_of_keeps {node : Bytes} {index : Nat} {replies : Replies} {thread : NodeThread Outcome}
    {pool : NodePool Outcome} {sent : List Outgoing} {contract : Contract Bytes Bytes Replies Outgoing Outcome}
    (keeps : thread.program.Keeps contract thread.seen)
    (readable : ∀ key, contract.readable key (cluster.held node key)) (receivable : contract.receivable replies)
    (writes : ∀ seen bytes, contract.writes seen latest.key bytes → latest.Written node seen bytes)
    (sends : ∀ messages, contract.sends messages → ∀ request, .request request ∈ messages → latest.Addressed request)
    (running : cluster.thread node index = some thread)
    (moved : (cluster.nodes node).step index replies = some (pool, sent)) :
    latest.Effect node (cluster.nodes node) pool sent := by
  obtain ⟨after, -, -, sending, storing⟩ := Pool.step_keeps keeps readable receivable running moved
  refine ⟨?_, ?_⟩
  · rcases sending with rfl | sending
    · simp
    · exact sends sent sending
  · rcases storing with ⟨store, -⟩ | ⟨key, bytes, written, -, store, log⟩
    · exact .inl (by rw [store])
    · by_cases here : key = latest.key
      · subst here
        refine .inr ⟨index, thread.seen, bytes, writes _ _ written, ?_, log⟩
        rw [store, OrderedMap.lookup_insert, if_pos rfl]
      · refine .inl ?_
        rw [store, OrderedMap.lookup_insert, if_neg here]

/-- Whatever a step does to the key, the node still holds the version or an older one. -/
theorem Effect.copy {node : Bytes} {before after : NodePool Outcome} {sent : List Outgoing}
    (effect : latest.Effect node before after sent) (copy : latest.Copy node before.store[latest.key]?) :
    latest.Copy node after.store[latest.key]? := by
  rcases effect.stores with same | ⟨_, seen, bytes, written, store, -⟩
  · rwa [same]
  · rw [store]
    exact written.copy

/-- Everything of the key that is stored, on its way or about to be stored is older than the
version, and no call of the key is under way. -/
structure Unrivalled (latest : Latest transport) (cluster : StoreCluster) : Prop where
  copies : ∀ node bytes, cluster.held node latest.key = some bytes → latest.Older (VersionedValue.deserialize bytes)
  packets : ∀ packet ∈ cluster.network, ∀ peer value, packet.request = .writeReplica peer latest.key value →
    latest.Older value
  handlers : ∀ node index thread ticket incoming, cluster.thread node index = some thread →
    Stage (fun _ => .served ticket (.write ⟨true⟩)) latest.key incoming thread → ¬ thread.program.Finished →
      latest.Older incoming
  calls : ∀ started ∈ cluster.called, started.call.key = latest.key →
    ∃ thread, cluster.thread started.node started.thread = some thread ∧ thread.program.Finished

theorem finished_keeps {node : Bytes} {seen : Option Bytes} {program : NodeProgram Outcome}
    (finished : program.Finished) : program.Keeps (latest.contract node) seen := by
  obtain ⟨outcome, rfl⟩ := finished
  trivial

theorem Unrivalled.calm (unrivalled : latest.Unrivalled cluster) (orderly : Orderly transport latest.key cluster)
    (exempt : Bytes → Nat → Prop) : latest.Calm exempt cluster := by
  refine ⟨fun node => .inr (unrivalled.copies node), fun packet present => ?_, @fun node index thread found _ => ?_⟩
  · obtain ⟨ticket, request⟩ := packet
    cases request with
    | writeReplica peer key value =>
      rintro rfl
      exact .inl (unrivalled.packets _ present peer value rfl)
    | readReplica peer key => trivial
  · cases orderly.threads found with
    | elsewhere other different clean keeps => exact about_keeps different keeps _
    | calling call logged same clean keeps =>
      obtain ⟨thread, there, finished⟩ := unrivalled.calls _ logged same
      cases found.symm.trans there
      exact finished_keeps finished
    | storing ticket incoming stage =>
      by_cases finished : thread.program.Finished
      · exact finished_keeps finished
      · exact stage_keeps stage (.inl (unrivalled.handlers _ _ _ ticket incoming found stage finished))
    | reading ticket seen => exact fun _ _ => trivial
    | ended outcome seen => trivial

section Steps

variable {coordinators : Bytes → Coordinator} {event : StoreEvent}

theorem Calm.effect (calm : latest.Calm exempt cluster) {node : Bytes} {index : Nat} {replies : Replies}
    {pool : NodePool Outcome} {sent : List Outgoing} (bound : ¬ exempt node index)
    (moved : (cluster.nodes node).step index replies = some (pool, sent)) :
    latest.Effect node (cluster.nodes node) pool sent := by
  obtain ⟨thread, running, -⟩ := Pool.step_cases moved
  refine effect_of_keeps (calm.threads running bound) ?_ trivial (fun _ _ writes => writes rfl) (fun _ sends => sends)
    running moved
  rintro key rfl
  exact calm.copies node

/-- An event keeps the cluster calm if no exempted thread does otherwise, and if the calls
of the key are exempted. -/
theorem Calm.step (calm : latest.Calm exempt cluster) (orderly : Orderly transport latest.key cluster)
    (calls : ∀ node call, event = .call node call → call.key = latest.key →
      exempt node (cluster.nodes node).threads.length)
    (effects : ∀ node index replies pool sent, event = .run node index replies →
      (cluster.nodes node).step index replies = some (pool, sent) → latest.Effect node (cluster.nodes node) pool sent)
    (stepped : Cluster.step (storeProtocol coordinators client) cluster event = some next) :
    latest.Calm exempt next := by
  obtain ⟨node, call, rfl, rfl⟩ | ⟨packet, present, rfl⟩ | ⟨index, rfl⟩ |
    ⟨node, index, replies, pool, sent, rfl, -, moved, rfl⟩ := Cluster.step_cases stepped
  · refine ⟨fun place => ?_, calm.packets, @fun place index thread found bound => ?_⟩
    · show latest.Copy place ((cluster.spawn node _).held place latest.key)
      rw [Cluster.held_spawn]
      exact calm.copies place
    rcases Cluster.thread_spawn found with ⟨same, last, rfl⟩ | before
    · subst same last
      have other : call.key ≠ latest.key := fun here => bound (calls _ call rfl here)
      exact about_keeps other (call.program_about (coordinators place) client) place
    · exact calm.threads before bound
  · refine ⟨fun place => ?_, calm.packets, @fun place index thread found bound => ?_⟩
    · rw [Cluster.held_spawn]
      exact calm.copies place
    rcases Cluster.thread_spawn found with ⟨same, last, rfl⟩ | before
    · obtain ⟨cleanOrigin, cleanKey⟩ := orderly.packets packet present
      subst same
      exact serve_keeps cleanOrigin cleanKey (calm.packets packet present)
    · exact calm.threads before bound
  · exact ⟨calm.copies, fun packet member => calm.packets packet (List.mem_of_mem_eraseIdx member), calm.threads⟩
  · have effect := effects node index replies pool sent rfl moved
    obtain ⟨thread, running, -⟩ := Pool.step_cases moved
    refine ⟨fun place => ?_, fun packet member => ?_, @fun place index thread found bound => ?_⟩
    · by_cases here : place = node
      · subst here
        rw [Cluster.held_advance_self]
        exact effect.copy (calm.copies place)
      · rw [Cluster.held_advance_other here]
        exact calm.copies place
    · rcases List.mem_append.mp member with before | new
      · exact calm.packets packet before
      · obtain ⟨position, message, found, asked, -⟩ := Cluster.mem_fanOut.mp new
        cases message with
        | request request =>
          cases asked
          exact effect.sends _ (List.mem_of_getElem? found)
        | storeHint target key value => cases asked
    · rcases Cluster.thread_advance moved found with ⟨rfl, rfl, held⟩ | ⟨-, before⟩
      · refine Cluster.keeps_moved running (calm.threads running bound) ?_ trivial moved held
        rintro key rfl
        exact calm.copies place
      · exact calm.threads before bound

/-- A write of the version itself, or one that finds the copy its thread had read. -/
def Careful (latest : Latest transport) (write : Overwrite Bytes Bytes) : Prop :=
  write.key = latest.key → write.after = latest.version.serialize ∨
    write.after = (transport.carry latest.version).serialize ∨ write.Fresh

/-- A node that has the version keeps it. -/
theorem current_step {node : Bytes} (current : latest.Current node (cluster.held node latest.key))
    (effects : ∀ node index replies pool sent, event = .run node index replies →
      (cluster.nodes node).step index replies = some (pool, sent) → latest.Effect node (cluster.nodes node) pool sent)
    (careful : ∀ write ∈ next.writesSince cluster node, latest.Careful write)
    (stepped : Cluster.step (storeProtocol coordinators client) cluster event = some next) :
    latest.Current node (next.held node latest.key) := by
  obtain ⟨_, _, -, rfl⟩ | ⟨_, -, rfl⟩ | ⟨_, rfl⟩ | ⟨actor, index, replies, pool, sent, rfl, -, moved, rfl⟩ :=
    Cluster.step_cases stepped
  · show latest.Current node ((cluster.spawn _ _).held node latest.key)
    rwa [Cluster.held_spawn]
  · rwa [Cluster.held_spawn]
  · exact current
  · by_cases here : node = actor
    · subst here
      have effect := effects node index replies pool sent rfl moved
      rw [Cluster.held_advance_self]
      rcases effect.stores with same | ⟨place, seen, bytes, written, store, log⟩
      · rwa [same]
      · rw [store]
        rcases written with made | ⟨older, unseen⟩
        · exact made
        · -- an older version would have to overwrite a copy that its thread had not read
          have logged : ⟨place, latest.key, seen, (cluster.nodes node).store[latest.key]?, bytes⟩ ∈
              (Cluster.advance (storeProtocol coordinators client) cluster node index pool sent).writesSince
                cluster node := by
            simp [Cluster.writesSince, Cluster.advance, log]
          rcases careful _ logged rfl with same | same | fresh
          · exact absurd same (older.ne (.inl rfl))
          · exact absurd same (older.ne (.inr rfl))
          · have unchanged : (cluster.nodes node).store[latest.key]? = seen := fresh
            rw [Cluster.held, unchanged] at current
            exact absurd current unseen
    · rw [Cluster.held_advance_other here]
      exact current

end Steps

end Latest

end MiniDynamo
