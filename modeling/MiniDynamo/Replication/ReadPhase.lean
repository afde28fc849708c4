import MiniDynamo.Replication.Reads

/-! The time after a write in which its key is only read: the nodes that hold the version
keep it, and every read keeps to its contract. -/

namespace MiniDynamo

variable {client : ReplicaClient} {transport : Transport client} {pledge : Pledge transport}
variable {coordinators : Bytes → Coordinator} {goal : Bytes → Int → Int → Outcome → Prop}
variable {cluster next earlier : StoreCluster} {event : StoreEvent}

namespace Pledge

/-- A read of the key in the cluster, with what it asked for and got so far. -/
structure Reader (pledge : Pledge transport) (coordinators : Bytes → Coordinator)
    (goal : Bytes → Int → Int → Outcome → Prop) (cluster : StoreCluster) (node : Bytes) (index : Nat) (n r : Int) :
    Prop where
  clean : transport.Clean node
  linked : Cluster.Linked (storeProtocol coordinators client)
    (pledge.link ((coordinators node).readTargets pledge.key n) node index) cluster
  thread : ∃ thread, cluster.thread node index = some thread ∧ thread.program.Keeps
    (pledge.reading ((coordinators node).readTargets pledge.key n) node (goal node n r)) thread.seen

/-- A replica that serves a request of a read answers with a fitting response. -/
theorem serve_answers {targets : List NodeInfo} {origin : Bytes} {thread position : Nat} {request : Request}
    (cleanOrigin : transport.Clean origin) (cleanKey : transport.Clean pledge.key)
    (asked : pledge.Asked targets position request) :
    (client.serve ⟨origin, thread, position⟩ request).Keeps
      ((pledge.link targets origin thread).answering (storeProtocol coordinators client) request.peer.nodeId) none := by
  cases request with
  | writeReplica peer key value =>
    have writes : (client.serve ⟨origin, thread, position⟩ (.writeReplica peer key value)).Keeps
        (.returning fun outcome => ∃ result, outcome = .served ⟨origin, thread, position⟩ (.write result)) none :=
      (Process.keeps_returning_true (client.writeReplica origin key value) none).bind (fun _ result _ => ⟨result, rfl⟩)
    refine writes.mono ⟨fun _ _ _ => trivial, fun _ _ => trivial, fun _ _ _ _ => trivial, fun _ _ => trivial, ?_⟩
    rintro outcome ⟨result, rfl⟩ place reply ⟨⟩
    trivial
  | readReplica peer key =>
    obtain ⟨rfl, known⟩ := asked
    have cleanTicket : transport.Clean (Ticket.mk origin thread position).origin := cleanOrigin
    rw [transport.serve_read cleanTicket cleanKey]
    intro stored rely place reply
    rintro ⟨⟩
    exact ⟨peer, known, fun node => fits_report (rely rfl)⟩

namespace Reader

variable {node : Bytes} {index : Nat} {n r : Int}

theorem receivable (reader : pledge.Reader coordinators goal cluster node index n r) {replies : Replies}
    (allowed : Cluster.Receivable (storeProtocol coordinators client) cluster node index replies) :
    (pledge.reading ((coordinators node).readTargets pledge.key n) node (goal node n r)).receivable replies := by
  refine ⟨allowed.1, fun position result member ok => ?_⟩
  rcases allowed.2 _ member with failed | answered
  · have failed : (!result.ok) = true := failed
    rw [ok] at failed
    cases failed
  · exact reader.linked.answers position _ answered

theorem effect (reader : pledge.Reader coordinators goal cluster node index n r)
    (relies : ∀ place, pledge.Rely place (cluster.held place pledge.key)) {replies : Replies}
    {pool : NodePool Outcome} {sent : List Outgoing}
    (allowed : Cluster.Receivable (storeProtocol coordinators client) cluster node index replies)
    (moved : (cluster.nodes node).step index replies = some (pool, sent)) :
    pledge.Effect node (cluster.nodes node) pool sent := by
  obtain ⟨thread, running, keeps⟩ := reader.thread
  refine Latest.effect_of_keeps keeps ?_ (reader.receivable allowed) (fun _ _ writes => writes rfl) ?_ running moved
  · rintro key rfl
    exact relies node
  · intro messages sends request member
    obtain ⟨position, there⟩ := List.getElem?_of_mem member
    exact (sends position request there).1

theorem step (reader : pledge.Reader coordinators goal cluster node index n r)
    (cleanKey : transport.Clean pledge.key) (relies : ∀ place, pledge.Rely place (cluster.held place pledge.key))
    (stepped : Cluster.step (storeProtocol coordinators client) cluster event = some next) :
    pledge.Reader coordinators goal next node index n r := by
  obtain ⟨thread, running, keeps⟩ := reader.thread
  have readable : ∀ key, (pledge.reading ((coordinators node).readTargets pledge.key n) node
      (goal node n r)).readable key (cluster.held node key) := by
    rintro key rfl
    exact relies node
  refine ⟨reader.clean, ?_, Cluster.keeps_step running keeps readable (fun _ => reader.receivable) stepped⟩
  refine reader.linked.step (storeProtocol_lawful coordinators client)
    (fun position request => serve_answers reader.clean cleanKey) ?_ ?_ stepped
  · rintro place key rfl
    exact relies place
  · rintro replies pool sent rfl moved position message request there asked
    obtain ⟨-, -, -, sends, -⟩ :=
      Pool.step_keeps keeps readable (reader.receivable (Cluster.receivable_of_step stepped)) running moved
    rcases sends with rfl | sends
    · cases there
    · cases message with
      | request sentRequest =>
        cases asked
        exact (sends position request there).2
      | storeHint target key value => cases asked

/-- A read that is called starts as a reader. -/
theorem start (keeps : ((ClientCall.get pledge.key n r).program (coordinators node) client).Keeps
      (pledge.reading ((coordinators node).readTargets pledge.key n) node (goal node n r)) none)
    (clean : transport.Clean node) (cleanKey : transport.Clean pledge.key)
    (ticketed : Cluster.Ticketed (storeProtocol coordinators client) cluster)
    (relies : ∀ place, pledge.Rely place (cluster.held place pledge.key))
    (stepped : Cluster.step (storeProtocol coordinators client) cluster
      (.call node (.get pledge.key n r)) = some next) :
    pledge.Reader coordinators goal next node (cluster.nodes node).threads.length n r := by
  refine ⟨clean, ?_, ⟨_, Cluster.thread_called stepped, keeps⟩⟩
  refine (ticketed.linked (Nat.le_refl _)).step (storeProtocol_lawful coordinators client)
    (fun position request => serve_answers clean cleanKey) ?_ ?_ stepped
  · rintro place key rfl
    exact relies place
  · rintro replies pool sent ⟨⟩

end Reader

/-- The calls of the key since an earlier point. -/
def Recent (pledge : Pledge transport) (earlier cluster : StoreCluster) (node : Bytes) (index : Nat) : Prop :=
  ∃ call, ⟨node, index, call⟩ ∈ cluster.callsSince earlier ∧ call.key = pledge.key

/-- The key has only been read since an earlier point, and what was pledged is kept. -/
structure ReadPhase (pledge : Pledge transport) (coordinators : Bytes → Coordinator)
    (goal : Bytes → Int → Int → Outcome → Prop) (earlier cluster : StoreCluster) : Prop where
  longer : earlier.called.length ≤ cluster.called.length
  ticketed : Cluster.Ticketed (storeProtocol coordinators client) cluster
  orderly : Orderly transport pledge.key cluster
  calm : pledge.Calm (pledge.Recent earlier cluster) cluster
  pledged : ∀ node, pledge.Pledged node → pledge.Current node (cluster.held node pledge.key)
  reads : ∀ {node : Bytes} {index : Nat} {call : ClientCall}, ⟨node, index, call⟩ ∈ cluster.callsSince earlier →
    call.key = pledge.key →
      ∃ n r, call = .get pledge.key n r ∧ pledge.Reader coordinators goal cluster node index n r

/-- What may happen in the read phase. -/
def Admits (pledge : Pledge transport) (event : StoreEvent) : Prop :=
  transport.Sound event ∧ ∀ node call, event = .call node call → call.key = pledge.key →
    ∃ n r, call = .get pledge.key n r

theorem ReadPhase.effects (phase : pledge.ReadPhase coordinators goal earlier cluster)
    (stepped : Cluster.step (storeProtocol coordinators client) cluster event = some next) (node : Bytes) (index : Nat)
    (replies : Replies) (pool : NodePool Outcome) (sent : List Outgoing) (running : event = .run node index replies)
    (moved : (cluster.nodes node).step index replies = some (pool, sent)) :
    pledge.Effect node (cluster.nodes node) pool sent := by
  subst running
  by_cases recent : pledge.Recent earlier cluster node index
  · obtain ⟨call, logged, same⟩ := recent
    obtain ⟨n, r, rfl, reader⟩ := phase.reads logged same
    exact reader.effect (fun place => ⟨phase.calm.copies place, phase.pledged place⟩)
      (Cluster.receivable_of_step stepped) moved
  · exact phase.calm.effect recent moved

theorem ReadPhase.step (keeps : ∀ node n r, ((ClientCall.get pledge.key n r).program (coordinators node) client).Keeps
      (pledge.reading ((coordinators node).readTargets pledge.key n) node (goal node n r)) none)
    (cleanKey : transport.Clean pledge.key) (phase : pledge.ReadPhase coordinators goal earlier cluster)
    (admits : pledge.Admits event)
    (careful : ∀ node, pledge.Pledged node → ∀ write ∈ next.writesSince cluster node, pledge.Careful write)
    (stepped : Cluster.step (storeProtocol coordinators client) cluster event = some next) :
    pledge.ReadPhase coordinators goal earlier next := by
  obtain ⟨longer, since⟩ := Cluster.callsSince_step phase.longer stepped
  have lawful := storeProtocol_lawful coordinators client
  have relies (place : Bytes) : pledge.Rely place (cluster.held place pledge.key) :=
    ⟨phase.calm.copies place, phase.pledged place⟩
  have calm : pledge.Calm (pledge.Recent earlier next) cluster :=
    ⟨phase.calm.copies, phase.calm.packets, fun found other => phase.calm.threads found (fun recent => other (by
      obtain ⟨call, logged, same⟩ := recent
      exact ⟨call, (since _).mpr (.inl logged), same⟩))⟩
  refine ⟨longer, phase.ticketed.step lawful stepped, phase.orderly.step admits.1 stepped,
    calm.step phase.orderly ?_ (phase.effects stepped) stepped,
    fun node promised => Latest.current_step (phase.pledged node promised) (phase.effects stepped)
      (careful node promised) stepped, @fun node index call logged same => ?_⟩
  · rintro node call rfl same
    exact ⟨call, (since _).mpr (.inr ⟨rfl, rfl⟩), same⟩
  · rcases (since _).mp logged with before | ⟨called, last⟩
    · obtain ⟨n, r, rfl, reader⟩ := phase.reads before same
      exact ⟨n, r, rfl, reader.step cleanKey relies stepped⟩
    · simp only at called last
      subst called last
      obtain ⟨n, r, rfl⟩ := admits.2 node call rfl same
      exact ⟨n, r, rfl, .start (keeps node n r) admits.1.1 cleanKey phase.ticketed relies stepped⟩

end Pledge

end MiniDynamo
