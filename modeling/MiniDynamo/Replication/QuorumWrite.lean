import MiniDynamo.Coordinator.DistinctAcks
import MiniDynamo.Replication.Latest

/-! A write that makes the latest version of its key, from its call until it has returned:
when it succeeds, a quorum of the owners holds that version. -/

namespace MiniDynamo

open ReplicaOps (Stage)

variable {client : ReplicaClient} {transport : Transport client} {coordinators : Bytes → Coordinator}

/-- A write with live owners, the version it is to make and the thread that runs it. -/
structure QuorumWrite (transport : Transport client) (coordinators : Bytes → Coordinator) extends
    Latest transport where
  home : Bytes
  operation : Write
  thread : Nat
  owners : List NodeInfo
  rooted : root = if home ∈ owners.map NodeInfo.nodeId then some home else none
  self : (coordinators home).self.nodeId = home
  found : (coordinators home).router.findOwners key operation.n = some owners
  alive : ∀ owner ∈ owners, (coordinators home).dead owner.nodeId = false
  makes : version = ⟨operation.value.getD [], version.clock, operation.value.isNone⟩

namespace QuorumWrite

variable (write : QuorumWrite transport coordinators)

/-- The remote owners, in the order of the fan-out. -/
def targets : List NodeInfo := (coordinators write.home).liveOwners write.owners

def ticket (position : Nat) : Ticket Bytes := ⟨write.home, write.thread, position⟩

def Own (node : Bytes) (index : Nat) : Prop := node = write.home ∧ index = write.thread

/-- A quorum of the owners holds the version, and so does the writing node if it is one. -/
structure Stored (cluster : StoreCluster) : Prop where
  quorum : ∃ nodes : List Bytes, nodes.Nodup ∧ nodes ⊆ write.owners.map NodeInfo.nodeId ∧
    write.operation.w ≤ nodes.length ∧ ∀ node ∈ nodes, write.Current node (cluster.held node write.key)
  atHome : write.home ∈ write.owners.map NodeInfo.nodeId →
    write.Current write.home (cluster.held write.home write.key)

/-- The local copies the write made before it asks the others. -/
def Placed (cluster : StoreCluster) (own : List Bytes) : Prop :=
  own = [] ∧ write.home ∉ write.owners.map NodeInfo.nodeId ∨
    own = [write.home] ∧ write.home ∈ write.owners.map NodeInfo.nodeId ∧
      write.Current write.home (cluster.held write.home write.key)

def requests : List Outgoing := write.targets.map (.request <| .writeReplica · write.key write.version)

/-- The wait of the write, with its local acknowledgements. -/
def wait (acks : Nat) : NodeProgram Outcome :=
  .await (fun replies => .done (.written (Coordinator.verdict write.version write.operation.w acks replies)))

/-- Where the thread of the write stands. -/
inductive Progress (cluster : StoreCluster) : NodeThread Outcome → Prop
  | calling (seen : Option Bytes) :
      Progress cluster ⟨(ClientCall.write write.key write.operation).program (coordinators write.home) client, seen⟩
  | placing (seen : Option Bytes) (owner : write.home ∈ write.owners.map NodeInfo.nodeId) :
      Progress cluster ⟨.put write.key write.version.serialize (.send write.requests (write.wait 1)), seen⟩
  | asking (seen : Option Bytes) (own : List Bytes) (placed : write.Placed cluster own) :
      Progress cluster ⟨.send write.requests (write.wait own.length), seen⟩
  | waiting (seen : Option Bytes) (own : List Bytes) (placed : write.Placed cluster own) :
      Progress cluster ⟨write.wait own.length, seen⟩
  | ended (seen : Option Bytes) (result : PutResult) (stored : result.ok = true → write.Stored cluster) :
      Progress cluster ⟨.done (.written result), seen⟩

/-- The thread will not succeed with the version: it has made another one. -/
def Strays (thread : NodeThread Outcome) : Prop :=
  thread.program.Keeps (.returning fun outcome => ∀ result, outcome = .written result → result.ok = true →
    result.clock ≠ write.version.clock) thread.seen

/-- The thread will not answer the write. -/
def Mute (thread : NodeThread Outcome) : Prop :=
  thread.program.Keeps (.returning fun outcome => ∀ position reply, outcome ≠ .served (write.ticket position) reply)
    thread.seen

/-- The thread stores the version for the write. -/
def Serving (node : Bytes) (thread : NodeThread Outcome) : Prop :=
  ∃ position peer, write.targets[position]? = some peer ∧ peer.nodeId = node ∧
    Stage (fun _ => .served (write.ticket position) (.write ⟨true⟩)) write.key (transport.carry write.version) thread

/-- The write is on its way to make the version, and the replicas that answered it hold it. -/
structure Underway (cluster : StoreCluster) : Prop where
  calm : write.Calm write.Own cluster
  progress : ∃ thread, cluster.thread write.home write.thread = some thread ∧ write.Progress cluster thread
  packets : ∀ packet ∈ cluster.network, ∀ position, packet.ticket = write.ticket position →
    ∃ peer, write.targets[position]? = some peer ∧ packet.request = .writeReplica peer write.key write.version
  threads : ∀ {node : Bytes} {index : Nat} {thread : NodeThread Outcome}, cluster.thread node index = some thread →
    ¬ write.Own node index → write.Mute thread ∨ write.Serving node thread
  answers : ∀ position reply, (write.ticket position, reply) ∈ cluster.answered →
    ∃ peer, write.targets[position]? = some peer ∧ write.Current peer.nodeId (cluster.held peer.nodeId write.key)

variable {write} {cluster next : StoreCluster}

theorem mem_targets {position : Nat} {peer : NodeInfo} (known : write.targets[position]? = some peer) :
    peer.nodeId ∈ write.owners.map NodeInfo.nodeId ∧ peer.nodeId ≠ write.home := by
  have member := Coordinator.liveOwners_subset _ (List.mem_map_of_mem (List.mem_of_getElem? known))
  rwa [write.self] at member

/-- The owner that makes the version holds it as it was made. -/
theorem form_home (owner : write.home ∈ write.owners.map NodeInfo.nodeId) : write.form write.home = write.version := by
  rw [Latest.form, write.rooted, if_pos owner, if_pos rfl]

theorem form_target {position : Nat} {peer : NodeInfo} (known : write.targets[position]? = some peer) :
    write.form peer.nodeId = transport.carry write.version := by
  have other : write.root ≠ some peer.nodeId := by
    rw [write.rooted]
    split
    · exact fun same => (mem_targets known).2 (Option.some.inj same).symm
    · exact nofun
  rw [Latest.form, if_neg other]

theorem targets_nodup : (write.targets.map NodeInfo.nodeId).Nodup :=
  Coordinator.liveOwners_nodup (Router.findOwners_spec write.found).2.1

section Kept

/-- The owners that hold the version go on holding it. -/
def Kept (write : QuorumWrite transport coordinators) (cluster next : StoreCluster) : Prop :=
  ∀ node ∈ write.owners.map NodeInfo.nodeId, write.Current node (cluster.held node write.key) →
    write.Current node (next.held node write.key)

variable (kept : write.Kept cluster next)

include kept

theorem Stored.mono (stored : write.Stored cluster) : write.Stored next := by
  obtain ⟨⟨nodes, distinct, within, enough, current⟩, atHome⟩ := stored
  exact ⟨⟨nodes, distinct, within, enough, fun node member => kept node (within member) (current node member)⟩,
    fun owner => kept _ owner (atHome owner)⟩

theorem Placed.mono {own : List Bytes} (placed : write.Placed cluster own) : write.Placed next own := by
  rcases placed with none | ⟨one, owner, current⟩
  · exact .inl none
  · exact .inr ⟨one, owner, kept _ owner current⟩

theorem Progress.mono {thread : NodeThread Outcome} (progress : write.Progress cluster thread) :
    write.Progress next thread := by
  cases progress with
  | calling seen => exact .calling seen
  | placing seen owner => exact .placing seen owner
  | asking seen own placed => exact .asking seen own (placed.mono kept)
  | waiting seen own placed => exact .waiting seen own (placed.mono kept)
  | ended seen result stored => exact .ended seen result (fun ok => (stored ok).mono kept)

end Kept

/-- The program of the write: a read of the local copy, then the quorum write of its version. -/
theorem program_eq (key : Bytes) (operation : Write) (coordinator : Coordinator) :
    (ClientCall.write key operation).program coordinator client = .get key (fun stored =>
      (coordinator.writeQuorum key (operation.version coordinator stored) operation.n operation.w >>=
        fun result => .done (.written result))) := by
  rw [ClientCall.program, Call.program, operation.program_eq]
  rfl

/-- After its read the write goes on to make the version, or it strays. -/
theorem after_read (cluster : StoreCluster) (stored : Option Bytes) :
    write.Progress cluster ⟨(coordinators write.home).writeQuorum write.key
      (write.operation.version (coordinators write.home) stored) write.operation.n write.operation.w >>=
        fun result => .done (.written result), stored⟩ ∨
    write.Strays ⟨(coordinators write.home).writeQuorum write.key
      (write.operation.version (coordinators write.home) stored) write.operation.n write.operation.w >>=
        fun result => .done (.written result), stored⟩ := by
  by_cases nonempty : write.owners = []
  · refine .inr ?_
    have empty := write.found
    rw [nonempty] at empty
    unfold Coordinator.writeQuorum
    rw [empty]
    rintro result ⟨⟩ ⟨⟩
  by_cases same : write.operation.version (coordinators write.home) stored = write.version
  · refine .inl ?_
    rw [same, Coordinator.writeQuorum_eq write.found nonempty write.alive]
    split
    · rename_i none
      refine .asking stored [] (.inl ⟨rfl, fun owner => ?_⟩)
      obtain ⟨entry, member, mine⟩ := List.mem_map.mp owner
      exact List.find?_eq_none.mp none entry member (by simpa [write.self] using mine)
    · rename_i owner own
      refine .placing stored ?_
      have mine := List.find?_some own
      rw [decide_eq_true_eq, write.self] at mine
      exact mine ▸ List.mem_map_of_mem (List.mem_of_find?_eq_some own)
  · -- the data are the operation's, so another version has another clock
    have other : (write.operation.version (coordinators write.home) stored).clock ≠ write.version.clock := by
      intro clocks
      refine same ?_
      rw [write.makes, ← clocks]
      rfl
    have makes := (coordinators write.home).writeQuorum_only write.key
      (write.operation.version (coordinators write.home) stored) write.operation.n write.operation.w
    refine .inr ((makes.bind (fun result clocks => ?_)).keeps (fun _ _ _ => trivial) (fun _ _ => trivial)
      (fun _ strays => strays))
    rintro _ ⟨⟩ ok
    rw [clocks ok]
    exact other

/-- Every step of the write's own thread. -/
theorem Progress.moves {thread : NodeThread Outcome} {pool : NodePool Outcome} {replies : Replies}
    {sent : List Outgoing} (progress : write.Progress cluster thread)
    (verdicts : ∀ own, write.Placed cluster own →
      (Coordinator.verdict write.version write.operation.w own.length replies).ok = true → write.Stored cluster)
    (running : cluster.thread write.home write.thread = some thread)
    (moved : (cluster.nodes write.home).step write.thread replies = some (pool, sent)) :
    ∃ after, pool.threads[write.thread]? = some after ∧
      ((pool.store = (cluster.nodes write.home).store ∧ (sent = [] ∨ sent = write.requests) ∧
        (write.Progress cluster after ∨ write.Strays after)) ∨
       (write.home ∈ write.owners.map NodeInfo.nodeId ∧ sent = [] ∧
        after = ⟨.send write.requests (write.wait 1), thread.seen⟩ ∧
        pool.store = (cluster.nodes write.home).store.insert write.key write.version.serialize ∧
        pool.log = (cluster.nodes write.home).log ++ [⟨write.thread, write.key, thread.seen,
          (cluster.nodes write.home).store[write.key]?, write.version.serialize⟩])) := by
  have bound := (List.getElem?_eq_some_iff.mp running).1
  obtain ⟨actual, same, moves⟩ := Pool.step_cases moved
  cases running.symm.trans same
  cases progress with
  | calling seen =>
    rw [program_eq] at moves
    obtain ⟨_, rest, shape, rfl, rfl⟩ | ⟨_, _, _, shape, _⟩ | ⟨_, shape, _⟩ | ⟨_, shape, _⟩ := moves
    · cases shape
      exact ⟨_, List.getElem?_set_self bound, .inl ⟨rfl, .inl rfl, after_read cluster _⟩⟩
    all_goals cases shape
  | placing seen owner =>
    obtain ⟨_, _, shape, _⟩ | ⟨_, _, _, shape, rfl, rfl⟩ | ⟨_, shape, _⟩ | ⟨_, shape, _⟩ := moves
    · cases shape
    · cases shape
      exact ⟨_, List.getElem?_set_self bound, .inr ⟨owner, rfl, rfl, rfl, rfl⟩⟩
    all_goals cases shape
  | asking seen own placed =>
    obtain ⟨_, _, shape, _⟩ | ⟨_, _, _, shape, _⟩ | ⟨_, shape, rfl⟩ | ⟨_, shape, _⟩ := moves
    · cases shape
    · cases shape
    · cases shape
      exact ⟨_, List.getElem?_set_self bound, .inl ⟨rfl, .inr rfl, .inl (.waiting seen own placed)⟩⟩
    · cases shape
  | waiting seen own placed =>
    obtain ⟨_, _, shape, _⟩ | ⟨_, _, _, shape, _⟩ | ⟨_, shape, _⟩ | ⟨_, shape, rfl, rfl⟩ := moves
    · cases shape
    · cases shape
    · cases shape
    · cases shape
      exact ⟨_, List.getElem?_set_self bound, .inl ⟨rfl, .inl rfl, .inl (.ended seen _ (verdicts own placed))⟩⟩
  | ended seen result stored =>
    obtain ⟨_, _, shape, _⟩ | ⟨_, _, _, shape, _⟩ | ⟨_, shape, _⟩ | ⟨_, shape, _⟩ := moves
    all_goals cases shape

/-- Enough acknowledgements come from as many owners that hold the version. -/
theorem stored_of_verdict {replies : Replies} {own : List Bytes}
    (answers : ∀ position reply, (write.ticket position, reply) ∈ cluster.answered →
      ∃ peer, write.targets[position]? = some peer ∧ write.Current peer.nodeId (cluster.held peer.nodeId write.key))
    (receivable : Cluster.Receivable (storeProtocol coordinators client) cluster write.home write.thread replies)
    (placed : write.Placed cluster own)
    (ok : (Coordinator.verdict write.version write.operation.w own.length replies).ok = true) :
    write.Stored cluster := by
  have known : ∀ position ∈ Coordinator.acked replies, ∃ peer, write.targets[position]? = some peer ∧
      write.Current peer.nodeId (cluster.held peer.nodeId write.key) := by
    intro position member
    rcases receivable.2 _ (Coordinator.mem_acked.mp member) with failed | answered
    · cases failed
    · exact answers position _ answered
  obtain ⟨distinct, many⟩ := Quorum.picks_names NodeInfo.nodeId (Coordinator.acked_nodup receivable.1)
    write.targets_nodup (fun position member => by
      obtain ⟨peer, there, -⟩ := known position member
      simp [there])
  have remote : ∀ node ∈ ((Coordinator.acked replies).filterMap (write.targets[·]?)).map NodeInfo.nodeId,
      (node ∈ write.owners.map NodeInfo.nodeId ∧ node ≠ write.home) ∧
        write.Current node (cluster.held node write.key) := by
    intro node member
    obtain ⟨peer, picked, rfl⟩ := List.mem_map.mp member
    obtain ⟨position, acked, there⟩ := List.mem_filterMap.mp picked
    obtain ⟨same, known, current⟩ := known position acked
    cases there.symm.trans known
    exact ⟨mem_targets there, current⟩
  have enough := Coordinator.verdict_enough ok
  rw [← Coordinator.length_acked, ← many] at enough
  rcases placed with ⟨rfl, outside⟩ | ⟨rfl, owner, current⟩
  · exact ⟨⟨_, distinct, fun node member => (remote node member).1.1, by simpa using enough,
      fun node member => (remote node member).2⟩, fun owner => absurd owner outside⟩
  · refine ⟨⟨write.home :: ((Coordinator.acked replies).filterMap (write.targets[·]?)).map NodeInfo.nodeId,
      List.nodup_cons.mpr ⟨fun member => (remote _ member).1.2 rfl, distinct⟩, ?_, ?_, ?_⟩, fun _ => current⟩
    · exact List.cons_subset.mpr ⟨owner, fun node member => (remote node member).1.1⟩
    · rw [List.length_cons]
      rw [List.length_singleton] at enough
      omega
    · intro node member
      rcases List.mem_cons.mp member with rfl | member
      · exact current
      · exact (remote node member).2

theorem requests_addressed {request : Request} (member : .request request ∈ write.requests) :
    write.Addressed request := by
  obtain ⟨peer, target, same⟩ := List.mem_map.mp member
  obtain ⟨position, known⟩ := List.getElem?_of_mem target
  cases same
  exact fun _ => .inr ⟨.inl rfl, (form_target known).symm⟩

/-- Nothing newer is made while the write is under way. -/
theorem Underway.effect (underway : write.Underway cluster) {node : Bytes} {index : Nat} {replies : Replies}
    {pool : NodePool Outcome} {sent : List Outgoing}
    (receivable : Cluster.Receivable (storeProtocol coordinators client) cluster node index replies)
    (moved : (cluster.nodes node).step index replies = some (pool, sent)) :
    write.Effect node (cluster.nodes node) pool sent := by
  by_cases own : write.Own node index
  · obtain ⟨rfl, rfl⟩ := own
    obtain ⟨thread, running, progress⟩ := underway.progress
    obtain ⟨after, -, ⟨store, sends, -⟩ | ⟨owner, rfl, -, store, log⟩⟩ :=
      progress.moves (fun own => stored_of_verdict underway.answers receivable) running moved
    · refine ⟨fun request member => ?_, .inl (by rw [store])⟩
      rcases sends with rfl | rfl
      · cases member
      · exact requests_addressed member
    · refine ⟨by simp, .inr ⟨_, _, _, .inl ?_, ?_, log⟩⟩
      · rw [Latest.Current, form_home owner]
      · rw [store, OrderedMap.lookup_insert, if_pos rfl]
  · exact underway.calm.effect own moved

/-- A replica answers the write only once it holds the version. -/
theorem Serving.step {node : Bytes} {index : Nat} {thread after : NodeThread Outcome} {pool : NodePool Outcome}
    {replies : Replies} {sent : List Outgoing} (serving : write.Serving node thread)
    (copy : write.Copy node (cluster.held node write.key)) (running : cluster.thread node index = some thread)
    (moved : (cluster.nodes node).step index replies = some (pool, sent)) (held : pool.threads[index]? = some after) :
    write.Serving node after ∧ ∀ outcome, after.program = .done outcome → ∃ position peer,
      write.targets[position]? = some peer ∧ peer.nodeId = node ∧
        outcome = .served (write.ticket position) (.write ⟨true⟩) ∧ write.Current node pool.store[write.key]? := by
  have bound := (List.getElem?_eq_some_iff.mp running).1
  obtain ⟨position, peer, known, rfl, stage⟩ := serving
  obtain ⟨-, ⟨kept, -, stageAfter, decided, rfl⟩ | ⟨-, rfl⟩⟩ := stage.step running moved
  · rw [List.getElem?_set_self bound] at held
    cases held
    refine ⟨⟨position, peer, known, rfl, stageAfter⟩, fun outcome done => ?_⟩
    cases (decided outcome done).symm.trans copy.not_localDominates
  · rw [List.getElem?_set_self bound] at held
    cases held
    refine ⟨⟨position, peer, known, rfl, .stored _⟩, ?_⟩
    rintro outcome ⟨⟩
    refine ⟨position, peer, known, rfl, rfl, ?_⟩
    rw [Latest.Current, form_target known, OrderedMap.lookup_insert, if_pos rfl]

theorem Progress.written {thread : NodeThread Outcome} {outcome : Outcome} (progress : write.Progress cluster thread)
    (done : thread.program = .done outcome) :
    ∃ result, outcome = .written result ∧ (result.ok = true → write.Stored cluster) := by
  cases progress with
  | calling seen =>
    rw [program_eq] at done
    cases done
  | placing seen owner => cases done
  | asking seen own placed => cases done
  | waiting seen own placed => cases done
  | ended seen result stored =>
    cases done
    exact ⟨result, rfl, stored⟩

/-- The thread that serves a request of the write stores its version; others stay mute. -/
theorem serve_role {packet : Packet Bytes Request} (cleanOrigin : transport.Clean packet.ticket.origin)
    (cleanKey : transport.Clean packet.request.key)
    (asked : ∀ position, packet.ticket = write.ticket position →
      ∃ peer, write.targets[position]? = some peer ∧ packet.request = .writeReplica peer write.key write.version) :
    write.Mute ⟨client.serve packet.ticket packet.request, none⟩ ∨
      write.Serving packet.request.peer.nodeId ⟨client.serve packet.ticket packet.request, none⟩ := by
  by_cases mine : ∃ position, packet.ticket = write.ticket position
  · obtain ⟨position, ticket⟩ := mine
    obtain ⟨peer, known, request⟩ := asked position ticket
    rw [ticket] at cleanOrigin
    rw [request] at cleanKey
    have cleanAsked : transport.Clean write.key := cleanKey
    rw [ticket, request]
    obtain ⟨incoming, same, carried⟩ := transport.serve_write cleanOrigin cleanAsked peer write.version
    rw [same, carried write.safe]
    exact .inr ⟨position, peer, known, rfl, .reading none⟩
  · refine .inl (((storeProtocol_lawful coordinators client).serve packet.ticket packet.request).returning ?_)
    rintro outcome own position reply rfl
    exact mine ⟨position, (own _ rfl).symm⟩

section Steps

variable {event : StoreEvent} {node : Bytes} {index : Nat} {replies : Replies} {pool : NodePool Outcome}
  {sent : List Outgoing}

theorem Underway.answers_kept (underway : write.Underway cluster) (kept : write.Kept cluster next) (position : Nat)
    (reply : Reply) (answered : (write.ticket position, reply) ∈ cluster.answered) :
    ∃ peer, write.targets[position]? = some peer ∧ write.Current peer.nodeId (next.held peer.nodeId write.key) := by
  obtain ⟨peer, known, current⟩ := underway.answers position reply answered
  exact ⟨peer, known, kept _ (mem_targets known).1 current⟩

/-- A step of the write's own thread. -/
theorem Underway.advance_own (underway : write.Underway cluster)
    (receivable : Cluster.Receivable (storeProtocol coordinators client) cluster write.home write.thread replies)
    (moved : (cluster.nodes write.home).step write.thread replies = some (pool, sent))
    (advanced : next = Cluster.advance (storeProtocol coordinators client) cluster write.home write.thread pool sent)
    (calm : write.Calm write.Own next) (kept : write.Kept cluster next) :
    write.Underway next ∨ ∃ thread, next.thread write.home write.thread = some thread ∧ write.Strays thread := by
  obtain ⟨mine, running, progress⟩ := underway.progress
  obtain ⟨after, held, moves⟩ :=
    progress.moves (fun own => stored_of_verdict underway.answers receivable) running moved
  have now : next.thread write.home write.thread = some after := by
    rw [advanced]
    exact Cluster.thread_advance_self.trans held
  have sends : sent = [] ∨ sent = write.requests := by
    rcases moves with ⟨-, sends, -⟩ | ⟨-, none, -⟩
    · exact sends
    · exact .inl none
  have next_progress : write.Progress next after ∨ write.Strays after := by
    rcases moves with ⟨-, -, goes | strays⟩ | ⟨owner, -, rfl, store, -⟩
    · exact .inl (goes.mono kept)
    · exact .inr strays
    · refine .inl (.asking _ [write.home] (.inr ⟨rfl, owner, ?_⟩))
      rw [Latest.Current, form_home owner, advanced, Cluster.held_advance_self, store, OrderedMap.lookup_insert,
        if_pos rfl]
  rcases next_progress with goes | strays
  · refine .inl ⟨calm, ⟨after, now, goes⟩, fun packet member position ticket => ?_, fun found other => ?_,
      fun position reply answered => ?_⟩
    · rw [advanced] at member
      rcases List.mem_append.mp member with before | new
      · exact underway.packets packet before position ticket
      · obtain ⟨place, message, there, asked, own⟩ := Cluster.mem_fanOut.mp new
        obtain ⟨-, -, rfl⟩ := Ticket.mk.inj (own.symm.trans ticket)
        rcases sends with rfl | rfl
        · cases there
        · rw [requests, List.getElem?_map, Option.map_eq_some_iff] at there
          obtain ⟨peer, known, rfl⟩ := there
          exact ⟨peer, known, (Option.some.inj asked).symm⟩
    · rw [advanced] at found
      rcases Cluster.thread_advance moved found with ⟨same, last, -⟩ | ⟨-, before⟩
      · exact absurd ⟨same, last⟩ other
      · exact underway.threads before other
    · rw [advanced] at answered
      rcases List.mem_append.mp answered with before | new
      · exact underway.answers_kept kept position reply before
      · -- the write itself answers nobody
        obtain ⟨outcome, seen, last, answers⟩ := Cluster.mem_answersOf new
        cases held.symm.trans last
        obtain ⟨result, rfl, -⟩ := goes.written rfl
        cases answers
  · exact .inr ⟨after, now, strays⟩

/-- A step of another thread. -/
theorem Underway.advance_other (underway : write.Underway cluster) (other : ¬ write.Own node index)
    (moved : (cluster.nodes node).step index replies = some (pool, sent))
    (advanced : next = Cluster.advance (storeProtocol coordinators client) cluster node index pool sent)
    (calm : write.Calm write.Own next) (kept : write.Kept cluster next) : write.Underway next := by
  obtain ⟨mine, own, progress⟩ := underway.progress
  obtain ⟨thread, running, -⟩ := Pool.step_cases moved
  have role := underway.threads running other
  have apart : ¬ (write.home = node ∧ write.thread = index) := fun both => other ⟨both.1.symm, both.2.symm⟩
  have mute {after : NodeThread Outcome} (silent : write.Mute thread) (held : pool.threads[index]? = some after) :
      write.Mute after :=
    Cluster.keeps_moved running silent (fun _ => trivial) trivial moved held
  refine ⟨calm, ⟨mine, ?_, progress.mono kept⟩, fun packet member position ticket => ?_, fun found outside => ?_,
    fun position reply answered => ?_⟩
  · rw [advanced]
    exact (Cluster.thread_advance_other moved apart).trans own
  · rw [advanced] at member
    rcases List.mem_append.mp member with before | new
    · exact underway.packets packet before position ticket
    · obtain ⟨_, _, -, -, sender⟩ := Cluster.mem_fanOut.mp new
      obtain ⟨same, last, -⟩ := Ticket.mk.inj (sender.symm.trans ticket)
      exact absurd ⟨same, last⟩ other
  · rw [advanced] at found
    rcases Cluster.thread_advance moved found with ⟨rfl, rfl, held⟩ | ⟨-, before⟩
    · rcases role with silent | serving
      · exact .inl (mute silent held)
      · exact .inr (serving.step (underway.calm.copies _) running moved held).1
    · exact underway.threads before outside
  · rw [advanced] at answered
    rcases List.mem_append.mp answered with before | new
    · exact underway.answers_kept kept position reply before
    · obtain ⟨outcome, seen, held, answers⟩ := Cluster.mem_answersOf new
      obtain rfl := served_of_answer answers
      rcases role with silent | serving
      · exact absurd rfl (mute silent held position reply)
      · obtain ⟨place, peer, known, rfl, same, current⟩ :=
          (serving.step (underway.calm.copies _) running moved held).2 _ rfl
        cases same
        refine ⟨peer, known, ?_⟩
        rw [advanced, Cluster.held_advance_self]
        exact current

/-- One event: the write goes on to make the version, or it strays. -/
theorem Underway.step (underway : write.Underway cluster) (orderly : Orderly transport write.key cluster)
    (quiet : ∀ node call, event = .call node call → call.key ≠ write.key)
    (careful : ∀ node ∈ write.owners.map NodeInfo.nodeId, ∀ entry ∈ next.writesSince cluster node, write.Careful entry)
    (stepped : Cluster.step (storeProtocol coordinators client) cluster event = some next) :
    write.Underway next ∨ ∃ thread, next.thread write.home write.thread = some thread ∧ write.Strays thread := by
  have effects : ∀ node index replies pool sent, event = .run node index replies →
      (cluster.nodes node).step index replies = some (pool, sent) →
        write.Effect node (cluster.nodes node) pool sent := by
    rintro node index replies pool sent rfl moved
    exact underway.effect (Cluster.receivable_of_step stepped) moved
  have calm := underway.calm.step orderly (fun node call same here => absurd here (quiet node call same)) effects stepped
  have kept : write.Kept cluster next :=
    fun node member current => Latest.current_step current effects (careful node member) stepped
  obtain ⟨mine, running, progress⟩ := underway.progress
  obtain ⟨node, call, rfl, rfl⟩ | ⟨packet, present, rfl⟩ | ⟨index, rfl⟩ |
    ⟨node, index, replies, pool, sent, rfl, receivable, moved, rfl⟩ := Cluster.step_cases stepped
  · refine .inl ⟨calm, ⟨mine, Cluster.thread_spawn_old running, progress.mono kept⟩, underway.packets,
      fun found other => ?_, underway.answers_kept kept⟩
    rcases Cluster.thread_spawn found with ⟨-, -, rfl⟩ | before
    · refine .inl (((storeProtocol_lawful coordinators client).call node call).returning ?_)
      rintro outcome silent position reply rfl
      cases silent
    · exact underway.threads before other
  · refine .inl ⟨calm, ⟨mine, Cluster.thread_spawn_old running, progress.mono kept⟩, underway.packets,
      fun found other => ?_, underway.answers_kept kept⟩
    rcases Cluster.thread_spawn found with ⟨rfl, -, rfl⟩ | before
    · obtain ⟨cleanOrigin, cleanKey⟩ := orderly.packets packet present
      exact serve_role cleanOrigin cleanKey (underway.packets packet present)
    · exact underway.threads before other
  · exact .inl ⟨calm, ⟨mine, running, progress.mono kept⟩,
      fun packet member => underway.packets packet (List.mem_of_mem_eraseIdx member), underway.threads,
      underway.answers_kept kept⟩
  · by_cases own : write.Own node index
    · obtain ⟨rfl, rfl⟩ := own
      exact underway.advance_own receivable moved rfl calm kept
    · exact .inl (underway.advance_other own moved rfl calm kept)

/-- The write is under way as soon as it is called. -/
theorem Underway.start (unrivalled : write.Unrivalled cluster) (orderly : Orderly transport write.key cluster)
    (ticketed : Cluster.Ticketed (storeProtocol coordinators client) cluster)
    (last : write.thread = (cluster.nodes write.home).threads.length)
    (stepped : Cluster.step (storeProtocol coordinators client) cluster
      (.call write.home (.write write.key write.operation)) = some next) : write.Underway next := by
  have unissued (position : Nat) : ¬ cluster.Issued (write.ticket position) :=
    Nat.not_lt.mpr (Nat.le_of_eq last.symm)
  have calm : write.Calm write.Own next := by
    refine (unrivalled.calm orderly write.Own).step orderly ?_ ?_ stepped
    · rintro node call ⟨⟩ -
      exact ⟨rfl, last.symm⟩
    · rintro node index replies pool sent ⟨⟩
  have called := Cluster.thread_called stepped
  rw [← last] at called
  cases stepped
  refine ⟨calm, ⟨_, called, .calling none⟩, fun packet member position ticket => ?_, fun found other => ?_,
    fun position reply answered => ?_⟩
  · exact absurd (ticket ▸ ticketed.packets packet member) (unissued position)
  · rcases Cluster.thread_spawn found with ⟨same, index, -⟩ | before
    · exact absurd ⟨same, index.trans last.symm⟩ other
    · refine .inl ((ticketed.threads before).returning ?_)
      rintro outcome issued position reply rfl
      exact unissued position (issued _ rfl)
  · exact absurd (ticketed.answers _ answered) (unissued position)

/-- A run from the call on: the write is under way, or it has strayed. -/
theorem Underway.run {events : List StoreEvent} {final : StoreCluster} (underway : write.Underway cluster)
    (orderly : Orderly transport write.key cluster)
    (allowed : ∀ event ∈ events, transport.Sound event ∧ ∀ node call, event = .call node call → call.key ≠ write.key)
    (ran : Cluster.run (storeProtocol coordinators client) cluster events = some final)
    (careful : ∀ node, ∀ entry ∈ final.writesSince cluster node, node ∈ write.owners.map NodeInfo.nodeId →
      write.Careful entry) :
    write.Underway final ∨ ∃ thread, final.thread write.home write.thread = some thread ∧ write.Strays thread := by
  refine (Cluster.run_invariant _ (fun node entry => node ∈ write.owners.map NodeInfo.nodeId → write.Careful entry)
    (fun cluster => Orderly transport write.key cluster ∧ (write.Underway cluster ∨
      ∃ thread, cluster.thread write.home write.thread = some thread ∧ write.Strays thread))
    ?_ ⟨orderly, .inl underway⟩ allowed ran careful).2
  rintro cluster next event ⟨orderly, underway | ⟨thread, found, strays⟩⟩ ⟨sound, quiet⟩ careful stepped
  · exact ⟨orderly.step sound stepped, underway.step orderly quiet
      (fun node member entry logged => careful node entry logged member) stepped⟩
  · exact ⟨orderly.step sound stepped,
      .inr (Cluster.keeps_step found strays (fun _ => trivial) (fun _ _ => trivial) stepped)⟩

/-- A write that has returned with the version has stored it. -/
theorem Underway.stored {result : PutResult} {seen : Option Bytes} (underway : write.Underway cluster)
    (returned : cluster.thread write.home write.thread = some ⟨.done (.written result), seen⟩) (ok : result.ok = true) :
    write.Stored cluster := by
  obtain ⟨thread, running, progress⟩ := underway.progress
  obtain rfl := Option.some.inj (running.symm.trans returned)
  obtain ⟨_, same, stored⟩ := progress.written rfl
  cases same
  exact stored ok

end Steps

end QuorumWrite

end MiniDynamo
