import MiniDynamo.Replication.Transport
import MiniDynamo.Storage.ConcurrentReplicate

/-! What the threads of a reachable cluster are doing with one key: serving a request for
it, running a call for it, or working on other keys. -/

namespace MiniDynamo

open ReplicaOps (Stage replicateThen)

variable {client : ReplicaClient}

/-- The node that acts and the key it is asked for can be named in a message. -/
def Transport.Sound (transport : Transport client) : StoreEvent → Prop
  | .call node call => transport.Clean node ∧ transport.Clean call.key
  | .run node _ _ => transport.Clean node
  | _ => True

/-- What a thread is doing, seen from one key. -/
inductive Role (transport : Transport client) (key : Bytes) (cluster : StoreCluster) (node : Bytes) (index : Nat) :
    NodeThread Outcome → Prop
  | elsewhere {thread : NodeThread Outcome} (other : Bytes) (different : other ≠ key) (clean : transport.Clean other)
      (keeps : thread.program.Keeps (about other) thread.seen) : Role transport key cluster node index thread
  | calling {thread : NodeThread Outcome} (call : ClientCall) (logged : ⟨node, index, call⟩ ∈ cluster.called)
      (same : call.key = key) (clean : transport.Clean key) (keeps : thread.program.Keeps (about key) thread.seen) :
      Role transport key cluster node index thread
  | storing {thread : NodeThread Outcome} (ticket : Ticket Bytes) (incoming : VersionedValue)
      (stage : Stage (fun _ => .served ticket (.write ⟨true⟩)) key incoming thread) :
      Role transport key cluster node index thread
  | reading (ticket : Ticket Bytes) (seen : Option Bytes) :
      Role transport key cluster node index ⟨.get key (fun stored =>
        .done (.served ticket (.read (transport.report (stored.map VersionedValue.deserialize))))), seen⟩
  | ended (outcome : Outcome) (seen : Option Bytes) : Role transport key cluster node index ⟨.done outcome, seen⟩

structure Orderly (transport : Transport client) (key : Bytes) (cluster : StoreCluster) : Prop where
  packets : ∀ packet ∈ cluster.network, transport.Clean packet.ticket.origin ∧ transport.Clean packet.request.key
  threads : ∀ {node : Bytes} {index : Nat} {thread : NodeThread Outcome},
    cluster.thread node index = some thread → Role transport key cluster node index thread

variable {transport : Transport client} {key : Bytes} {cluster next : StoreCluster}

theorem Orderly.start (stores : Bytes → Storage) : Orderly transport key (Cluster.start stores) :=
  ⟨by simp [Cluster.start], by simp [Cluster.start, Cluster.thread, Pool.start]⟩

theorem Role.mono {node : Bytes} {index : Nat} {thread : NodeThread Outcome}
    (role : Role transport key cluster node index thread)
    (grows : ∀ started ∈ cluster.called, started ∈ next.called) : Role transport key next node index thread := by
  cases role with
  | elsewhere other different clean keeps => exact .elsewhere other different clean keeps
  | calling call logged same clean keeps => exact .calling call (grows _ logged) same clean keeps
  | storing ticket incoming stage => exact .storing ticket incoming stage
  | reading ticket seen => exact .reading ticket seen
  | ended outcome seen => exact .ended outcome seen

theorem replicateThen_about (key : Bytes) (answer : Bool → Outcome) (incoming : VersionedValue)
    (seen : Option Bytes) : (replicateThen answer key incoming : NodeProgram Outcome).Keeps (about key) seen := by
  intro stored _
  simp only
  split
  · trivial
  · exact ⟨rfl, trivial⟩

/-- The thread that serves a request plays a role. -/
theorem Role.serve {ticket : Ticket Bytes} {request : Request} (cleanOrigin : transport.Clean ticket.origin)
    (cleanKey : transport.Clean request.key) (node : Bytes) (index : Nat) :
    Role transport key cluster node index ⟨client.serve ticket request, none⟩ := by
  cases request with
  | writeReplica peer asked value =>
    have cleanAsked : transport.Clean asked := cleanKey
    obtain ⟨incoming, same, -⟩ := transport.serve_write cleanOrigin cleanAsked peer value
    rw [same]
    by_cases here : asked = key
    · subst here
      exact .storing ticket incoming (.reading none)
    · exact .elsewhere asked here cleanKey
        (replicateThen_about asked (fun _ => .served ticket (.write ⟨true⟩)) incoming none)
  | readReplica peer asked =>
    have cleanAsked : transport.Clean asked := cleanKey
    rw [transport.serve_read cleanOrigin cleanAsked]
    by_cases here : asked = key
    · subst here
      exact .reading ticket none
    · exact .elsewhere asked here cleanKey (fun _ _ => trivial)

/-- One step of a thread: it goes on in its role, and asks for keys it can name. -/
theorem Role.step {node : Bytes} {index : Nat} {thread after : NodeThread Outcome} {pool : NodePool Outcome}
    {replies : Replies} {sent : List Outgoing} (role : Role transport key cluster node index thread)
    (running : cluster.thread node index = some thread)
    (moved : (cluster.nodes node).step index replies = some (pool, sent)) (held : pool.threads[index]? = some after) :
    Role transport key cluster node index after ∧
      ∀ request, .request request ∈ sent → transport.Clean request.key := by
  have bound := (List.getElem?_eq_some_iff.mp running).1
  have asks {other : Bytes} (clean : transport.Clean other)
      (keeps : thread.program.Keeps (about other) thread.seen) :
      after.program.Keeps (about other) after.seen ∧ ∀ request, .request request ∈ sent → transport.Clean request.key := by
    obtain ⟨kept, keepsAfter, threads, sends, -⟩ := Pool.step_keeps keeps (fun _ => trivial) trivial running moved
    rw [threads, List.getElem?_set_self bound] at held
    refine ⟨Option.some.inj held ▸ keepsAfter, fun request member => ?_⟩
    rcases sends with rfl | sends
    · cases member
    · rw [sends request member]
      exact clean
  cases role with
  | elsewhere other different clean keeps =>
    obtain ⟨keepsAfter, cleanSends⟩ := asks clean keeps
    exact ⟨.elsewhere other different clean keepsAfter, cleanSends⟩
  | calling call logged same clean keeps =>
    obtain ⟨keepsAfter, cleanSends⟩ := asks clean keeps
    exact ⟨.calling call logged same clean keepsAfter, cleanSends⟩
  | storing ticket incoming stage =>
    obtain ⟨rfl, ⟨kept, -, stageAfter, -, rfl⟩ | ⟨-, rfl⟩⟩ := stage.step running moved
    · rw [List.getElem?_set_self bound] at held
      exact ⟨.storing ticket incoming (Option.some.inj held ▸ stageAfter), by simp⟩
    · rw [List.getElem?_set_self bound] at held
      cases held
      exact ⟨.ended _ _, by simp⟩
  | reading ticket seen =>
    obtain ⟨thread, same, moves⟩ := Pool.step_cases moved
    cases running.symm.trans same
    obtain ⟨_, rest, shape, rfl, rfl⟩ | ⟨_, _, _, shape, _⟩ | ⟨_, shape, _⟩ | ⟨_, shape, _⟩ := moves
    · cases shape
      rw [List.getElem?_set_self bound] at held
      cases held
      exact ⟨.ended _ _, by simp⟩
    all_goals cases shape
  | ended outcome seen =>
    obtain ⟨thread, same, moves⟩ := Pool.step_cases moved
    cases running.symm.trans same
    obtain ⟨_, _, shape, _⟩ | ⟨_, _, _, shape, _⟩ | ⟨_, shape, _⟩ | ⟨_, shape, _⟩ := moves
    all_goals cases shape

theorem Orderly.step {coordinators : Bytes → Coordinator} {event : StoreEvent}
    (orderly : Orderly transport key cluster) (sound : transport.Sound event)
    (stepped : Cluster.step (storeProtocol coordinators client) cluster event = some next) :
    Orderly transport key next := by
  obtain ⟨node, call, rfl, rfl⟩ | ⟨packet, present, rfl⟩ | ⟨index, rfl⟩ |
    ⟨node, index, replies, pool, sent, rfl, -, moved, rfl⟩ := Cluster.step_cases stepped
  · refine ⟨orderly.packets, @fun place index thread found => ?_⟩
    rcases Cluster.thread_spawn found with ⟨same, last, rfl⟩ | before
    · have keeps := call.program_about (coordinators node) client
      subst same last
      by_cases here : call.key = key
      · exact .calling call (List.mem_append_right _ (List.mem_singleton_self _)) here (here ▸ sound.2) (here ▸ keeps)
      · exact .elsewhere call.key here sound.2 keeps
    · exact (orderly.threads before).mono (fun _ logged => List.mem_append_left _ logged)
  · refine ⟨orderly.packets, fun found => ?_⟩
    rcases Cluster.thread_spawn found with ⟨-, -, rfl⟩ | before
    · obtain ⟨cleanOrigin, cleanKey⟩ := orderly.packets packet present
      exact Role.serve cleanOrigin cleanKey _ _
    · exact (orderly.threads before).mono (fun _ logged => logged)
  · exact ⟨fun packet member => orderly.packets packet (List.mem_of_mem_eraseIdx member),
      fun found => (orderly.threads found).mono (fun _ logged => logged)⟩
  · obtain ⟨thread, running, -⟩ := Pool.step_cases moved
    have role := orderly.threads running
    refine ⟨fun packet member => ?_, fun found => ?_⟩
    · rcases List.mem_append.mp member with before | new
      · exact orderly.packets packet before
      · obtain ⟨position, message, found, asked, ticket⟩ := Cluster.mem_fanOut.mp new
        have bound := (List.getElem?_eq_some_iff.mp running).1
        rw [← Pool.step_length moved] at bound
        obtain ⟨-, clean⟩ := role.step running moved (List.getElem?_eq_getElem bound)
        rw [ticket]
        refine ⟨sound, clean packet.request ?_⟩
        cases message with
        | request request =>
          cases asked
          exact List.mem_of_getElem? found
        | storeHint target key value => cases asked
    · rcases Cluster.thread_advance moved found with ⟨rfl, rfl, held⟩ | ⟨-, before⟩
      · exact (role.step running moved held).1.mono (fun _ logged => logged)
      · exact (orderly.threads before).mono (fun _ logged => logged)

theorem Orderly.run {coordinators : Bytes → Coordinator} {events : List StoreEvent} {final : StoreCluster}
    (orderly : Orderly transport key cluster) (sound : ∀ event ∈ events, transport.Sound event)
    (ran : Cluster.run (storeProtocol coordinators client) cluster events = some final) :
    Orderly transport key final :=
  Cluster.run_invariant transport.Sound (fun _ _ => True) (Orderly transport key)
    (fun orderly sound _ stepped => orderly.step sound stepped) orderly sound ran (fun _ _ _ => trivial)

end MiniDynamo
