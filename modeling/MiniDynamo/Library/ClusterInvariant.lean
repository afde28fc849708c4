import MiniDynamo.Library.Cluster

/-! What events leave alone, and the invariant rules for runs of a cluster. -/

namespace MiniDynamo.Cluster

variable {Node Key Value Call Request Reply Message Result : Type}
variable {protocol : Protocol Node Key Value Call Request Reply Message Result}
variable {node other : Node} {index place : Nat} {replies : List (Nat × Reply)} {sent : List Message}
variable {program : Process Key Value (List (Nat × Reply)) Message Result}
variable {thread : Thread Key Value (List (Nat × Reply)) Message Result}

theorem mem_fanOut {packet : Packet Node Request} : packet ∈ fanOut protocol node index sent ↔
    ∃ position message, sent[position]? = some message ∧ protocol.request message = some packet.request ∧
      packet.ticket = ⟨node, index, position⟩ := by
  simp only [fanOut, List.mem_filterMap, Prod.exists, List.mem_zipIdx_iff_getElem?, Option.map_eq_some_iff]
  constructor
  · rintro ⟨message, position, found, request, asked, rfl⟩
    exact ⟨position, message, found, asked, rfl⟩
  · rintro ⟨position, message, found, asked, ticket⟩
    exact ⟨message, position, found, packet.request, asked, by rw [← ticket]⟩

variable [Ord Key] {pool : Pool Key Value (List (Nat × Reply)) Message Result}

theorem mem_answersOf {entry : Ticket Node × Reply} (member : entry ∈ answersOf protocol pool index) :
    ∃ result seen, pool.threads[index]? = some ⟨.done result, seen⟩ ∧ protocol.answer result = some entry := by
  unfold answersOf at member
  split at member
  · rename_i result seen found
    exact ⟨result, seen, found, by simpa using member⟩
  · cases member

theorem returned_eq_some {cluster : Cluster Node Key Value Call Request Reply Message Result} {result : Result} :
    cluster.returned node index = some result ↔
      ∃ thread, cluster.thread node index = some thread ∧ thread.program = .done result := by
  simp only [returned, Option.bind_eq_some_iff, Process.outcome_eq_some]

variable [DecidableEq Node] {cluster next final : Cluster Node Key Value Call Request Reply Message Result}

theorem thread_spawn (found : (cluster.spawn node program).thread other index = some thread) :
    (other = node ∧ index = (cluster.nodes node).threads.length ∧ thread = ⟨program, none⟩) ∨
      cluster.thread other index = some thread := by
  rw [Cluster.thread, spawn] at found
  by_cases same : other = node
  · subst same
    simp only [Function.update_self, List.getElem?_append] at found
    split at found
    · exact .inr found
    · rename_i beyond
      obtain ⟨low, rfl⟩ := List.getElem?_eq_some_iff.mp found
      refine .inl ⟨rfl, ?_, by simp⟩
      simp only [List.length_singleton] at low
      omega
  · simp only [Function.update_of_ne same] at found
    exact .inr found

theorem thread_spawn_old (found : cluster.thread other index = some thread) :
    (cluster.spawn node program).thread other index = some thread := by
  rw [Cluster.thread] at found
  rw [Cluster.thread, spawn]
  by_cases same : other = node
  · subst same
    simp only [Function.update_self]
    rw [List.getElem?_append_left (List.getElem?_eq_some_iff.mp found).1, found]
  · simpa only [Function.update_of_ne same] using found

theorem thread_spawn_new :
    (cluster.spawn node program).thread node (cluster.nodes node).threads.length = some ⟨program, none⟩ := by
  simp [Cluster.thread, spawn]

theorem length_le_spawn : (cluster.nodes other).threads.length ≤
    ((cluster.spawn node program).nodes other).threads.length := by
  by_cases same : other = node
  · subst same
    simp [spawn]
  · simp [spawn, Function.update_of_ne same]

theorem log_spawn : ((cluster.spawn node program).nodes other).log = (cluster.nodes other).log := by
  by_cases same : other = node
  · subst same
    simp [spawn]
  · simp [spawn, Function.update_of_ne same]

theorem thread_advance_self :
    (advance protocol cluster node index pool sent).thread node index = pool.threads[index]? := by
  simp [Cluster.thread, advance]

variable [Std.TransOrd Key]

theorem held_spawn (key : Key) : (cluster.spawn node program).held other key = cluster.held other key := by
  by_cases same : other = node
  · subst same
    simp [held, spawn]
  · simp [held, spawn, Function.update_of_ne same]

theorem thread_advance (moved : (cluster.nodes node).step index replies = some (pool, sent))
    (found : (advance protocol cluster node index pool sent).thread other place = some thread) :
    (other = node ∧ place = index ∧ pool.threads[index]? = some thread) ∨
      ¬ (other = node ∧ place = index) ∧ cluster.thread other place = some thread := by
  rw [Cluster.thread, advance] at found
  by_cases same : other = node
  · subst same
    simp only [Function.update_self] at found
    obtain ⟨after, _, threads, -⟩ := Pool.step_frame moved
    rw [threads] at found ⊢
    rcases Thread.set_cases found with ⟨rfl, -⟩ | ⟨different, before⟩
    · exact .inl ⟨rfl, rfl, found⟩
    · exact .inr ⟨fun both => different both.2, before⟩
  · simp only [Function.update_of_ne same] at found
    exact .inr ⟨fun both => same both.1, found⟩

theorem thread_advance_other (moved : (cluster.nodes node).step index replies = some (pool, sent))
    (apart : ¬ (other = node ∧ place = index)) :
    (advance protocol cluster node index pool sent).thread other place = cluster.thread other place := by
  rw [Cluster.thread, Cluster.thread, advance]
  by_cases same : other = node
  · subst same
    obtain ⟨after, _, threads, -⟩ := Pool.step_frame moved
    simp only [Function.update_self, threads]
    exact List.getElem?_set_ne (fun equal => apart ⟨rfl, equal.symm⟩)
  · simp only [Function.update_of_ne same]

theorem held_advance_self (key : Key) :
    (advance protocol cluster node index pool sent).held node key = pool.store[key]? := by
  simp [held, advance]

theorem held_advance_other (different : other ≠ node) (key : Key) :
    (advance protocol cluster node index pool sent).held other key = cluster.held other key := by
  simp [held, advance, Function.update_of_ne different]

theorem length_advance (moved : (cluster.nodes node).step index replies = some (pool, sent)) :
    ((advance protocol cluster node index pool sent).nodes other).threads.length =
      (cluster.nodes other).threads.length := by
  by_cases same : other = node
  · subst same
    simpa [advance] using Pool.step_length moved
  · simp [advance, Function.update_of_ne same]


omit [DecidableEq Node] in
/-- A thread that takes a step goes on keeping its contract. -/
theorem keeps_moved {contract : Contract Key Value (List (Nat × Reply)) Message Result}
    (found : cluster.thread node index = some thread) (keeps : thread.program.Keeps contract thread.seen)
    (readable : ∀ key, contract.readable key (cluster.held node key)) (receivable : contract.receivable replies)
    (moved : (cluster.nodes node).step index replies = some (pool, sent))
    {after : Thread Key Value (List (Nat × Reply)) Message Result} (held : pool.threads[index]? = some after) :
    after.program.Keeps contract after.seen := by
  obtain ⟨kept, keeps, threads, -⟩ := Pool.step_keeps keeps readable receivable found moved
  rw [threads, List.getElem?_set_self (List.getElem?_eq_some_iff.mp found).1] at held
  exact Option.some.inj held ▸ keeps

variable [DecidableEq Reply] {event : Event Node Call Reply}

/-- A call starts as the last thread of its node. -/
theorem thread_called {call : Call} (stepped : step protocol cluster (.call node call) = some next) :
    next.thread node (cluster.nodes node).threads.length = some ⟨protocol.call node call, none⟩ := by
  cases stepped
  exact thread_spawn_new

/-- A node's log only grows. -/
theorem log_step (stepped : step protocol cluster event = some next) (other : Node) :
    ∃ added, (next.nodes other).log = (cluster.nodes other).log ++ added := by
  obtain ⟨node, call, -, rfl⟩ | ⟨packet, -, rfl⟩ | ⟨index, rfl⟩ | ⟨node, index, replies, pool, sent, -, -, moved, rfl⟩ :=
    step_cases stepped
  · exact ⟨[], by simp [log_spawn]⟩
  · exact ⟨[], by simp [log_spawn]⟩
  · exact ⟨[], by simp⟩
  · by_cases same : other = node
    · subst same
      obtain ⟨_, added, -, grown, -⟩ := Pool.step_frame moved
      exact ⟨added, by simpa [advance] using grown⟩
    · exact ⟨[], by simp [advance, Function.update_of_ne same]⟩

theorem log_run {events : List (Event Node Call Reply)} (ran : run protocol cluster events = some final)
    (other : Node) : ∃ added, (final.nodes other).log = (cluster.nodes other).log ++ added := by
  induction events generalizing cluster with
  | nil =>
    cases ran
    exact ⟨[], by simp⟩
  | cons event rest ih =>
    obtain ⟨next, stepped, later⟩ := Option.bind_eq_some_iff.mp ran
    obtain ⟨first, grown⟩ := log_step stepped other
    obtain ⟨second, more⟩ := ih later
    exact ⟨first ++ second, by rw [more, grown, List.append_assoc]⟩

theorem writesSince_run {events : List (Event Node Call Reply)} (grown : ∃ added,
      (next.nodes other).log = (cluster.nodes other).log ++ added) (ran : run protocol next events = some final) :
    final.writesSince cluster other = next.writesSince cluster other ++ final.writesSince next other := by
  obtain ⟨first, grown⟩ := grown
  obtain ⟨second, more⟩ := log_run ran other
  simp [writesSince, more, grown]

/-- The calls after an event are those before it and the one it made. -/
theorem callsSince_step {earlier : Cluster Node Key Value Call Request Reply Message Result}
    (longer : earlier.called.length ≤ cluster.called.length) (stepped : step protocol cluster event = some next) :
    earlier.called.length ≤ next.called.length ∧
      ∀ started, started ∈ next.callsSince earlier ↔ started ∈ cluster.callsSince earlier ∨
        event = .call started.node started.call ∧ started.thread = (cluster.nodes started.node).threads.length := by
  cases event with
  | call node call =>
    cases stepped
    constructor
    · simp only [List.length_append]
      omega
    · rintro ⟨place, index, made⟩
      simp only [callsSince, List.drop_append_of_le_length longer, List.mem_append, List.mem_singleton,
        Started.mk.injEq, Event.call.injEq]
      constructor
      · rintro (before | ⟨rfl, rfl, rfl⟩)
        · exact .inl before
        · exact .inr ⟨⟨rfl, rfl⟩, rfl⟩
      · rintro (before | ⟨⟨rfl, rfl⟩, rfl⟩)
        · exact .inl before
        · exact .inr ⟨rfl, rfl, rfl⟩
  | deliver index =>
    obtain ⟨packet, -, rfl⟩ := Option.map_eq_some_iff.mp stepped
    exact ⟨longer, by simp [callsSince, spawn]⟩
  | lose index =>
    cases stepped
    exact ⟨longer, by simp [callsSince]⟩
  | run node index replies =>
    rw [step] at stepped
    split at stepped
    · obtain ⟨moved, -, rfl⟩ := Option.map_eq_some_iff.mp stepped
      exact ⟨longer, by simp [callsSince, advance]⟩
    · cases stepped

/-- The invariant rule: what every allowed event with good writes keeps, every run of such
events keeps. -/
theorem run_invariant (Allowed : Event Node Call Reply → Prop) (Good : Node → Overwrite Key Value → Prop)
    (Inv : Cluster Node Key Value Call Request Reply Message Result → Prop)
    (keeps : ∀ {cluster next : Cluster Node Key Value Call Request Reply Message Result}
      {event : Event Node Call Reply}, Inv cluster → Allowed event →
      (∀ node, ∀ write ∈ next.writesSince cluster node, Good node write) →
      step protocol cluster event = some next → Inv next)
    {events : List (Event Node Call Reply)} (holds : Inv cluster) (allowed : ∀ event ∈ events, Allowed event)
    (ran : run protocol cluster events = some final)
    (good : ∀ node, ∀ write ∈ final.writesSince cluster node, Good node write) : Inv final := by
  induction events generalizing cluster with
  | nil =>
    cases ran
    exact holds
  | cons event rest ih =>
    obtain ⟨next, stepped, later⟩ := Option.bind_eq_some_iff.mp ran
    -- the writes of the run are those of its first event and those of the rest
    have split (node : Node) := writesSince_run (log_step stepped node) later
    refine ih (keeps holds (allowed _ List.mem_cons_self) ?_ stepped)
      (fun event member => allowed event (List.mem_cons_of_mem _ member)) later ?_
    · exact fun node write member => good node write (split node ▸ List.mem_append_left _ member)
    · exact fun node write member => good node write (split node ▸ List.mem_append_right _ member)

/-- An event leaves a thread keeping its contract, where what it relies on is the case. -/
theorem keeps_step {contract : Contract Key Value (List (Nat × Reply)) Message Result}
    (found : cluster.thread node index = some thread) (keeps : thread.program.Keeps contract thread.seen)
    (readable : ∀ key, contract.readable key (cluster.held node key))
    (receivable : ∀ replies, Receivable protocol cluster node index replies → contract.receivable replies)
    (stepped : step protocol cluster event = some next) :
    ∃ after, next.thread node index = some after ∧ after.program.Keeps contract after.seen := by
  obtain ⟨_, _, -, rfl⟩ | ⟨_, -, rfl⟩ | ⟨_, rfl⟩ | ⟨actor, moving, replies, pool, sent, -, allowed, moved, rfl⟩ :=
    step_cases stepped
  · exact ⟨thread, thread_spawn_old found, keeps⟩
  · exact ⟨thread, thread_spawn_old found, keeps⟩
  · exact ⟨thread, found, keeps⟩
  · by_cases mine : node = actor ∧ index = moving
    · obtain ⟨rfl, rfl⟩ := mine
      have bound := (List.getElem?_eq_some_iff.mp found).1
      rw [← Pool.step_length moved] at bound
      have held := List.getElem?_eq_getElem bound
      exact ⟨_, thread_advance_self.trans held,
        keeps_moved found keeps readable (receivable replies allowed) moved held⟩
    · exact ⟨thread, (thread_advance_other moved mine).trans found, keeps⟩

/-- Nothing happens at the node: no call, no step of its threads, and no request that arrives
anywhere. -/
def Away (node : Node) : Event Node Call Reply → Prop
  | .call place _ => place ≠ node
  | .deliver _ => False
  | .lose _ => True
  | .run place _ _ => place ≠ node

theorem nodes_run_away {events : List (Event Node Call Reply)} (away : ∀ event ∈ events, Away node event)
    (ran : run protocol cluster events = some final) : final.nodes node = cluster.nodes node := by
  refine run_invariant (Away node) (fun _ _ => True) (fun later => later.nodes node = cluster.nodes node) ?_ rfl away
    ran (fun _ _ _ => trivial)
  rintro later next event same away - stepped
  cases event with
  | call place call =>
    cases stepped
    exact (Function.update_of_ne (Ne.symm away) _ _).trans same
  | deliver index => exact away.elim
  | lose index =>
    cases stepped
    exact same
  | run place index replies =>
    rw [step] at stepped
    split at stepped
    · obtain ⟨moved, -, rfl⟩ := Option.map_eq_some_iff.mp stepped
      exact (Function.update_of_ne (Ne.symm away) _ _).trans same
    · cases stepped

/-- What a thread promises to return whatever happens, it promises in every later cluster. -/
theorem keeps_run {returns : Result → Prop} (found : cluster.thread node index = some thread)
    (keeps : thread.program.Keeps (.returning returns) thread.seen) {events : List (Event Node Call Reply)}
    (ran : run protocol cluster events = some final) :
    ∃ after, final.thread node index = some after ∧ after.program.Keeps (.returning returns) after.seen := by
  refine run_invariant (fun _ => True) (fun _ _ => True)
    (fun cluster => ∃ thread, cluster.thread node index = some thread ∧
      thread.program.Keeps (.returning returns) thread.seen) ?_ ⟨thread, found, keeps⟩ (fun _ _ => trivial) ran
    (fun _ _ _ => trivial)
  rintro cluster next event ⟨thread, found, keeps⟩ - - stepped
  exact keeps_step found keeps (fun _ => trivial) (fun _ _ => trivial) stepped

/-- Calls answer nobody, and a request is answered under its own ticket. -/
structure Lawful (protocol : Protocol Node Key Value Call Request Reply Message Result) : Prop where
  call : ∀ node call, (protocol.call node call).Keeps
    (.returning fun result => protocol.answer result = none) none
  serve : ∀ ticket request, (protocol.serve ticket request).Keeps
    (.returning fun result => ∀ entry, protocol.answer result = some entry → entry.1 = ticket) none

/-- The ticket belongs to a thread that has been started. -/
def Issued (cluster : Cluster Node Key Value Call Request Reply Message Result) (ticket : Ticket Node) : Prop :=
  ticket.thread < (cluster.nodes ticket.origin).threads.length

theorem issued_step (stepped : step protocol cluster event = some next) {ticket : Ticket Node}
    (issued : cluster.Issued ticket) : next.Issued ticket := by
  obtain ⟨node, call, -, rfl⟩ | ⟨packet, -, rfl⟩ | ⟨index, rfl⟩ | ⟨node, index, replies, pool, sent, -, -, moved, rfl⟩ :=
    step_cases stepped
  · exact Nat.lt_of_lt_of_le issued length_le_spawn
  · exact Nat.lt_of_lt_of_le issued length_le_spawn
  · exact issued
  · rw [Issued, length_advance moved]
    exact issued

/-- Nothing in the cluster carries a ticket of a thread yet to be started. -/
structure Ticketed (protocol : Protocol Node Key Value Call Request Reply Message Result)
    (cluster : Cluster Node Key Value Call Request Reply Message Result) : Prop where
  packets : ∀ packet ∈ cluster.network, cluster.Issued packet.ticket
  threads : ∀ {node : Node} {index : Nat} {thread : Thread Key Value (List (Nat × Reply)) Message Result},
    cluster.thread node index = some thread → thread.program.Keeps
      (.returning fun result => ∀ entry, protocol.answer result = some entry → cluster.Issued entry.1) thread.seen
  answers : ∀ entry ∈ cluster.answered, cluster.Issued entry.1

omit [DecidableEq Node] [Std.TransOrd Key] [DecidableEq Reply] in
theorem Ticketed.start (stores : Node → OrderedMap Key Value) : Ticketed protocol (start stores) :=
  ⟨by simp [Cluster.start], by simp [Cluster.start, Cluster.thread, Pool.start], by simp [Cluster.start]⟩

theorem Ticketed.step (lawful : Lawful protocol) (ticketed : Ticketed protocol cluster)
    (stepped : step protocol cluster event = some next) : Ticketed protocol next := by
  have grow {ticket : Ticket Node} : cluster.Issued ticket → next.Issued ticket := issued_step stepped
  have old {thread : Thread Key Value (List (Nat × Reply)) Message Result} {node : Node} {index : Nat}
      (found : cluster.thread node index = some thread) : thread.program.Keeps
        (.returning fun result => ∀ entry, protocol.answer result = some entry → next.Issued entry.1) thread.seen :=
    (ticketed.threads found).returning (fun _ issued entry answers => grow (issued entry answers))
  obtain ⟨node, call, -, rfl⟩ | ⟨packet, present, rfl⟩ | ⟨index, rfl⟩ |
    ⟨node, index, replies, pool, sent, -, -, moved, rfl⟩ := step_cases stepped
  · refine ⟨fun packet member => grow (ticketed.packets packet member), fun found => ?_,
      fun entry member => grow (ticketed.answers entry member)⟩
    rcases thread_spawn found with ⟨-, -, rfl⟩ | before
    · refine (lawful.call node call).returning (fun _ mute entry answers => ?_)
      cases mute.symm.trans answers
    · exact old before
  · refine ⟨fun packet member => grow (ticketed.packets packet member), fun found => ?_,
      fun entry member => grow (ticketed.answers entry member)⟩
    rcases thread_spawn found with ⟨-, -, rfl⟩ | before
    · refine (lawful.serve packet.ticket packet.request).returning (fun _ own entry answers => ?_)
      rw [own entry answers]
      exact grow (ticketed.packets packet present)
    · exact old before
  · exact ⟨fun packet member => ticketed.packets packet (List.mem_of_mem_eraseIdx member),
      fun found => ticketed.threads found, ticketed.answers⟩
  · obtain ⟨thread, running, -⟩ := Pool.step_cases moved
    have kept {after : Thread Key Value (List (Nat × Reply)) Message Result} (held : pool.threads[index]? = some after) :=
      keeps_moved running (old running) (fun _ => trivial) trivial moved held
    refine ⟨fun packet member => ?_, fun found => ?_, fun entry member => ?_⟩
    · rcases List.mem_append.mp member with before | new
      · exact grow (ticketed.packets packet before)
      · obtain ⟨position, -, -, -, ticket⟩ := mem_fanOut.mp new
        rw [ticket]
        exact grow (List.getElem?_eq_some_iff.mp running).1
    · rcases thread_advance moved found with ⟨rfl, rfl, held⟩ | ⟨-, before⟩
      · exact kept held
      · exact old before
    · rcases List.mem_append.mp member with before | new
      · exact grow (ticketed.answers entry before)
      · obtain ⟨result, seen, held, answers⟩ := mem_answersOf new
        exact kept held entry answers

theorem Ticketed.run (lawful : Lawful protocol) (ticketed : Ticketed protocol cluster)
    {events : List (Event Node Call Reply)} (ran : run protocol cluster events = some final) :
    Ticketed protocol final :=
  run_invariant (fun _ => True) (fun _ _ => True) (Ticketed protocol)
    (fun ticketed _ _ stepped => ticketed.step lawful stepped) ticketed (fun _ _ => trivial) ran (fun _ _ _ => trivial)

/-- What one thread asks for and gets: the requests under its tickets, and the answers to
them, which may rely on what the nodes hold. -/
structure Link (Node Key Value Request Reply : Type) where
  origin : Node
  thread : Nat
  asked : Nat → Request → Prop
  rely : Node → Key → Option Value → Prop
  replied : Nat → Reply → Prop

/-- What a link demands of a thread of a node that might answer it. -/
def Link.answering (link : Link Node Key Value Request Reply)
    (protocol : Protocol Node Key Value Call Request Reply Message Result) (node : Node) :
    Contract Key Value (List (Nat × Reply)) Message Result where
  readable := link.rely node
  receivable _ := True
  writes _ _ _ := True
  sends _ := True
  returns result := ∀ position reply,
    protocol.answer result = some (⟨link.origin, link.thread, position⟩, reply) → link.replied position reply

structure Linked (protocol : Protocol Node Key Value Call Request Reply Message Result)
    (link : Link Node Key Value Request Reply)
    (cluster : Cluster Node Key Value Call Request Reply Message Result) : Prop where
  packets : ∀ packet ∈ cluster.network, ∀ position, packet.ticket = ⟨link.origin, link.thread, position⟩ →
    link.asked position packet.request
  threads : ∀ {node : Node} {index : Nat} {thread : Thread Key Value (List (Nat × Reply)) Message Result},
    cluster.thread node index = some thread → thread.program.Keeps (link.answering protocol node) thread.seen
  answers : ∀ position reply, (⟨link.origin, link.thread, position⟩, reply) ∈ cluster.answered →
    link.replied position reply

variable {link : Link Node Key Value Request Reply}

omit [Ord Key] [DecidableEq Node] [Std.TransOrd Key] [DecidableEq Reply] in
theorem keeps_answering {returns : Result → Prop} {seen : Option Value}
    (keeps : program.Keeps (.returning returns) seen)
    (silent : ∀ result position reply, returns result →
      protocol.answer result ≠ some (⟨link.origin, link.thread, position⟩, reply)) :
    program.Keeps (link.answering protocol node) seen :=
  keeps.mono ⟨fun _ _ _ => trivial, fun _ _ => trivial, fun _ _ _ _ => trivial, fun _ _ => trivial,
    fun result returned position reply answers => absurd answers (silent result position reply returned)⟩

omit [DecidableEq Node] [Std.TransOrd Key] [DecidableEq Reply] in
/-- A thread yet to be started has asked for nothing and got nothing. -/
theorem Ticketed.linked (ticketed : Ticketed protocol cluster)
    (ahead : (cluster.nodes link.origin).threads.length ≤ link.thread) : Linked protocol link cluster := by
  have unissued (position : Nat) : ¬ cluster.Issued ⟨link.origin, link.thread, position⟩ := Nat.not_lt.mpr ahead
  refine ⟨fun packet member position ticket => ?_, fun found => ?_, fun position reply member => ?_⟩
  · exact absurd (ticket ▸ ticketed.packets packet member) (unissued position)
  · exact keeps_answering (ticketed.threads found)
      (fun _ position _ issued answers => unissued position (issued _ answers))
  · exact absurd (ticketed.answers _ member) (unissued position)

/-- The rule for links: a node that serves a request of the link answers as the link says,
the nodes hold what the link relies on, and the thread itself sends what the link says. -/
theorem Linked.step (lawful : Lawful protocol) (linked : Linked protocol link cluster)
    (serves : ∀ position request, link.asked position request →
      (protocol.serve ⟨link.origin, link.thread, position⟩ request).Keeps
        (link.answering protocol (protocol.target request)) none)
    (reliable : ∀ node key, link.rely node key (cluster.held node key))
    (sends : ∀ replies pool sent, event = .run link.origin link.thread replies →
      (cluster.nodes link.origin).step link.thread replies = some (pool, sent) →
      ∀ position message request, sent[position]? = some message → protocol.request message = some request →
        link.asked position request)
    (stepped : step protocol cluster event = some next) : Linked protocol link next := by
  obtain ⟨node, call, -, rfl⟩ | ⟨packet, present, rfl⟩ | ⟨index, rfl⟩ |
    ⟨node, index, replies, pool, sent, rfl, -, moved, rfl⟩ := step_cases stepped
  · refine ⟨linked.packets, fun found => ?_, linked.answers⟩
    rcases thread_spawn found with ⟨-, -, rfl⟩ | before
    · refine keeps_answering (lawful.call node call) (fun _ _ _ mute answers => ?_)
      cases mute.symm.trans answers
    · exact linked.threads before
  · refine ⟨linked.packets, fun found => ?_, linked.answers⟩
    rcases thread_spawn found with ⟨rfl, -, rfl⟩ | before
    · by_cases mine : ∃ position, packet.ticket = ⟨link.origin, link.thread, position⟩
      · obtain ⟨position, ticket⟩ := mine
        rw [ticket]
        exact serves position packet.request (linked.packets packet present position ticket)
      · exact keeps_answering (lawful.serve packet.ticket packet.request)
          (fun _ position _ own answers => mine ⟨position, (own _ answers).symm⟩)
    · exact linked.threads before
  · exact ⟨fun packet member => linked.packets packet (List.mem_of_mem_eraseIdx member), linked.threads,
      linked.answers⟩
  · obtain ⟨thread, running, -⟩ := Pool.step_cases moved
    have kept {after : Thread Key Value (List (Nat × Reply)) Message Result} (held : pool.threads[index]? = some after) :=
      keeps_moved running (linked.threads running) (reliable node) trivial moved held
    refine ⟨fun packet member position ticket => ?_, fun found => ?_, fun position reply member => ?_⟩
    · rcases List.mem_append.mp member with before | new
      · exact linked.packets packet before position ticket
      · obtain ⟨place, message, found, asked, own⟩ := mem_fanOut.mp new
        obtain ⟨rfl, rfl, rfl⟩ := Ticket.mk.inj (own.symm.trans ticket)
        exact sends replies pool sent rfl moved place message packet.request found asked
    · rcases thread_advance moved found with ⟨rfl, rfl, held⟩ | ⟨-, before⟩
      · exact kept held
      · exact linked.threads before
    · rcases List.mem_append.mp member with before | new
      · exact linked.answers position reply before
      · obtain ⟨result, seen, held, answers⟩ := mem_answersOf new
        exact kept held position reply answers

end MiniDynamo.Cluster
