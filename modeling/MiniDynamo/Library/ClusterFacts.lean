import MiniDynamo.Library.ClusterInvariant

/-! Facts about what is stored, sent and returned that the threads of a cluster uphold together: each thread
relies on them for what it reads and receives, and guarantees them for what it writes, sends and returns. -/

namespace MiniDynamo

/-- What is true of the values a node stores, of what it is found to hold, and of the messages, the replies and
the result of a call. -/
structure Facts (Node Key Value Call Reply Message Result : Type) where
  stored : Node → Key → Value → Prop
  found : Node → Key → Option Value → Prop
  sent : Call → Message → Prop
  replied : Call → Reply → Prop
  result : Call → Result → Prop

namespace Facts

variable {Node Key Value Call Request Reply Message Result : Type}
variable (facts : Facts Node Key Value Call Reply Message Result)
variable (protocol : Protocol Node Key Value Call Request Reply Message Result)

/-- What is asked of the thread that runs a call. -/
def calling (node : Node) (call : Call) : Contract Key Value (List (Nat × Reply)) Message Result where
  readable key held := (∀ value, held = some value → facts.stored node key value) ∧ facts.found node key held
  receivable replies := ∀ reply ∈ replies, facts.replied call reply.2
  writes _ key value := facts.stored node key value
  sends messages := ∀ message ∈ messages, facts.sent call message
  returns result := facts.result call result ∧ protocol.answer result = none

/-- What is asked of a thread that serves a request of a call. -/
def serving (node : Node) (ticket : Ticket Node) (call : Call) :
    Contract Key Value (List (Nat × Reply)) Message Result where
  readable key held := ∀ value, held = some value → facts.stored node key value
  receivable _ := True
  writes _ key value := facts.stored node key value
  sends messages := messages = []
  returns result := ∀ entry, protocol.answer result = some entry → entry.1 = ticket ∧ facts.replied call entry.2

/-- The programs of a protocol uphold the facts, for the calls that are allowed. -/
structure Upheld (allowed : Node → Call → Prop) : Prop where
  call : ∀ node call, allowed node call → (protocol.call node call).Keeps (facts.calling protocol node call) none
  serve : ∀ (ticket : Ticket Node) call message request, allowed ticket.origin call → facts.sent call message →
    protocol.request message = some request →
      (protocol.serve ticket request).Keeps (facts.serving protocol (protocol.target request) ticket call) none
  failed : ∀ call reply, protocol.failed reply = true → facts.replied call reply

variable [Ord Key] [Std.TransOrd Key]

/-- The ticket belongs to the call. -/
def Owns (started : Started Node Call) (ticket : Ticket Node) : Prop :=
  ticket.origin = started.node ∧ ticket.thread = started.thread

/-- The facts are established in a cluster, and its threads go on upholding them. -/
structure Established (allowed : Node → Call → Prop)
    (cluster : Cluster Node Key Value Call Request Reply Message Result) : Prop where
  stores : ∀ node key value, cluster.held node key = some value → facts.stored node key value
  calls : ∀ started ∈ cluster.called, allowed started.node started.call ∧
    ∃ thread, cluster.thread started.node started.thread = some thread ∧
      thread.program.Keeps (facts.calling protocol started.node started.call) thread.seen
  single : ∀ one ∈ cluster.called, ∀ other ∈ cluster.called, one.node = other.node → one.thread = other.thread →
    one.call = other.call
  servers : ∀ node index thread, cluster.thread node index = some thread →
    (∃ started ∈ cluster.called, started.node = node ∧ started.thread = index) ∨
      ∃ started ∈ cluster.called, ∃ ticket, Owns started ticket ∧
        thread.program.Keeps (facts.serving protocol node ticket started.call) thread.seen
  packets : ∀ packet ∈ cluster.network, ∃ started ∈ cluster.called, Owns started packet.ticket ∧
    ∃ message, protocol.request message = some packet.request ∧ facts.sent started.call message
  answers : ∀ entry ∈ cluster.answered, ∃ started ∈ cluster.called, Owns started entry.1 ∧
    facts.replied started.call entry.2

variable {facts protocol} {allowed : Node → Call → Prop}
variable {cluster next final : Cluster Node Key Value Call Request Reply Message Result}

theorem established_start {stores : Node → OrderedMap Key Value}
    (stored : ∀ node key value, (stores node)[key]? = some value → facts.stored node key value) :
    facts.Established protocol allowed (Cluster.start stores) :=
  ⟨stored, by simp [Cluster.start], by simp [Cluster.start], by simp [Cluster.start, Cluster.thread, Pool.start],
    by simp [Cluster.start], by simp [Cluster.start]⟩

/-- The thread of a call is started. -/
theorem Established.started (established : facts.Established protocol allowed cluster) {started : Started Node Call}
    (member : started ∈ cluster.called) : started.thread < (cluster.nodes started.node).threads.length := by
  obtain ⟨-, thread, running, -⟩ := established.calls started member
  exact (List.getElem?_eq_some_iff.mp running).1

/-- A call gets replies to its own requests. -/
theorem Established.receivable (upheld : facts.Upheld protocol allowed)
    (established : facts.Established protocol allowed cluster) {started : Started Node Call}
    (member : started ∈ cluster.called) {replies : List (Nat × Reply)}
    (receivable : Cluster.Receivable protocol cluster started.node started.thread replies) :
    ∀ reply ∈ replies, facts.replied started.call reply.2 := by
  intro reply present
  rcases receivable.2 reply present with failed | answered
  · exact upheld.failed started.call reply.2 failed
  · obtain ⟨asker, asked, owns, replied⟩ := established.answers _ answered
    rw [established.single started member asker asked owns.1 owns.2]
    exact replied

section Steps

variable [Std.LawfulEqOrd Key] [DecidableEq Key]
variable {node : Node} {index : Nat} {replies : List (Nat × Reply)} {sent : List Message}
variable {pool : Pool Key Value (List (Nat × Reply)) Message Result}

/-- What a step of a thread sends, stores and answers, and that the thread goes on as before. -/
structure Proper (facts : Facts Node Key Value Call Reply Message Result)
    (protocol : Protocol Node Key Value Call Request Reply Message Result)
    (cluster : Cluster Node Key Value Call Request Reply Message Result) (node : Node) (index : Nat)
    (pool : Pool Key Value (List (Nat × Reply)) Message Result) (sent : List Message) : Prop where
  sends : ∀ message ∈ sent, ∃ started ∈ cluster.called, started.node = node ∧ started.thread = index ∧
    facts.sent started.call message
  stores : ∀ key value, pool.store[key]? = some value → facts.stored node key value
  answers : ∀ entry ∈ Cluster.answersOf protocol pool index, ∃ started ∈ cluster.called, Owns started entry.1 ∧
    facts.replied started.call entry.2
  calls : ∀ started ∈ cluster.called, started.node = node → started.thread = index → ∃ thread,
    pool.threads[index]? = some thread ∧
      thread.program.Keeps (facts.calling protocol node started.call) thread.seen
  servers : ∀ thread, pool.threads[index]? = some thread →
    (∃ started ∈ cluster.called, started.node = node ∧ started.thread = index) ∨
      ∃ started ∈ cluster.called, ∃ ticket, Owns started ticket ∧
        thread.program.Keeps (facts.serving protocol node ticket started.call) thread.seen

/-- A write of a value that the facts admit leaves only such values. -/
theorem stored_after {before after : OrderedMap Key Value}
    (stores : ∀ key value, before[key]? = some value → facts.stored node key value)
    (effect : after = before ∨ ∃ key value, facts.stored node key value ∧ after = before.insert key value) :
    ∀ key value, after[key]? = some value → facts.stored node key value := by
  intro key value found
  rcases effect with rfl | ⟨target, written, admitted, rfl⟩
  · exact stores key value found
  · rw [OrderedMap.lookup_insert] at found
    split at found
    · rename_i same
      cases same
      cases found
      exact admitted
    · exact stores key value found

theorem Established.proper_call (upheld : facts.Upheld protocol allowed)
    (established : facts.Established protocol allowed cluster)
    (visited : ∀ node key, facts.found node key (cluster.held node key)) {started : Started Node Call}
    (member : started ∈ cluster.called)
    (receivable : Cluster.Receivable protocol cluster started.node started.thread replies)
    (moved : (cluster.nodes started.node).step started.thread replies = some (pool, sent)) :
    Proper facts protocol cluster started.node started.thread pool sent := by
  obtain ⟨-, thread, running, keeps⟩ := established.calls started member
  obtain ⟨after, kept, threads, sends, effect⟩ := Pool.step_keeps keeps
    (fun key => ⟨fun value found => established.stores started.node key value found, visited started.node key⟩)
    (established.receivable upheld member receivable) running moved
  have now : pool.threads[started.thread]? = some after := by
    rw [threads, List.getElem?_set_self (established.started member)]
  refine ⟨?_, ?_, ?_, ?_, fun _ _ => .inl ⟨started, member, rfl, rfl⟩⟩
  · intro message inside
    rcases sends with rfl | sends
    · cases inside
    · exact ⟨started, member, rfl, rfl, sends message inside⟩
  · apply stored_after (fun key value found => established.stores started.node key value found)
    rcases effect with ⟨same, -⟩ | ⟨key, value, admitted, -, written, -⟩
    · exact .inl same
    · exact .inr ⟨key, value, admitted, written⟩
  · intro entry answered
    obtain ⟨result, seen, held, answers⟩ := Cluster.mem_answersOf answered
    cases now.symm.trans held
    cases kept.2.symm.trans answers
  · intro other present sameNode sameThread
    rw [established.single other present started member sameNode sameThread]
    exact ⟨after, now, kept⟩

theorem Established.proper_serve (established : facts.Established protocol allowed cluster)
    {started : Started Node Call} (member : started ∈ cluster.called) {ticket : Ticket Node}
    (owns : Owns started ticket) {thread : Thread Key Value (List (Nat × Reply)) Message Result}
    (running : cluster.thread node index = some thread)
    (keeps : thread.program.Keeps (facts.serving protocol node ticket started.call) thread.seen)
    (apart : ¬ ∃ other ∈ cluster.called, other.node = node ∧ other.thread = index)
    (moved : (cluster.nodes node).step index replies = some (pool, sent)) :
    Proper facts protocol cluster node index pool sent := by
  obtain ⟨after, kept, threads, sends, effect⟩ := Pool.step_keeps keeps
    (fun key value found => established.stores node key value found) trivial running moved
  have now : pool.threads[index]? = some after := by
    rw [threads, List.getElem?_set_self (List.getElem?_eq_some_iff.mp running).1]
  refine ⟨?_, ?_, ?_, fun other present sameNode sameThread => absurd ⟨other, present, sameNode, sameThread⟩ apart, ?_⟩
  · intro message inside
    have none : sent = [] := sends.elim id id
    rw [none] at inside
    cases inside
  · apply stored_after (fun key value found => established.stores node key value found)
    rcases effect with ⟨same, -⟩ | ⟨key, value, admitted, -, written, -⟩
    · exact .inl same
    · exact .inr ⟨key, value, admitted, written⟩
  · intro entry answered
    obtain ⟨result, seen, held, answers⟩ := Cluster.mem_answersOf answered
    cases now.symm.trans held
    obtain ⟨own, replied⟩ := kept entry answers
    exact ⟨started, member, own ▸ owns, replied⟩
  · intro other held
    cases now.symm.trans held
    exact .inr ⟨started, member, ticket, owns, kept⟩

/-- Whatever a thread is doing, its steps are proper. -/
theorem Established.proper (upheld : facts.Upheld protocol allowed)
    (established : facts.Established protocol allowed cluster)
    (visited : ∀ node key, facts.found node key (cluster.held node key))
    (receivable : Cluster.Receivable protocol cluster node index replies)
    (moved : (cluster.nodes node).step index replies = some (pool, sent)) :
    Proper facts protocol cluster node index pool sent := by
  by_cases called : ∃ started ∈ cluster.called, started.node = node ∧ started.thread = index
  · obtain ⟨started, member, rfl, rfl⟩ := called
    exact established.proper_call upheld visited member receivable moved
  · obtain ⟨thread, running, -⟩ := Pool.step_cases moved
    rcases established.servers node index thread running with call | ⟨started, member, ticket, owns, keeps⟩
    · exact absurd call called
    · exact established.proper_serve member owns running keeps called moved

variable [DecidableEq Node]

omit [Std.LawfulEqOrd Key] [DecidableEq Key] in
theorem Established.call (upheld : facts.Upheld protocol allowed)
    (established : facts.Established protocol allowed cluster) {call : Call} (permitted : allowed node call) :
    facts.Established protocol allowed { cluster.spawn node (protocol.call node call) with
      called := cluster.called ++ [⟨node, (cluster.nodes node).threads.length, call⟩] } := by
  have older {started : Started Node Call} (member : started ∈ cluster.called) :
      started ∈ cluster.called ++ [⟨node, (cluster.nodes node).threads.length, call⟩] :=
    List.mem_append_left _ member
  refine ⟨?_, ?_, ?_, ?_, ?_, ?_⟩
  · intro other key value found
    exact established.stores other key value ((Cluster.held_spawn key).symm.trans found)
  · intro started member
    rcases List.mem_append.mp member with before | new
    · obtain ⟨sound, thread, running, keeps⟩ := established.calls started before
      exact ⟨sound, thread, Cluster.thread_spawn_old running, keeps⟩
    · obtain rfl := List.mem_singleton.mp new
      exact ⟨permitted, _, Cluster.thread_spawn_new, upheld.call node call permitted⟩
  · intro one first other second sameNode sameThread
    have fresh {started : Started Node Call} (before : started ∈ cluster.called) (here : started.node = node) :
        started.thread ≠ (cluster.nodes node).threads.length :=
      Nat.ne_of_lt (here ▸ established.started before)
    rcases List.mem_append.mp first with before | new
    · rcases List.mem_append.mp second with earlier | new
      · exact established.single one before other earlier sameNode sameThread
      · obtain rfl := List.mem_singleton.mp new
        exact absurd sameThread (fresh before sameNode)
    · obtain rfl := List.mem_singleton.mp new
      rcases List.mem_append.mp second with earlier | new
      · exact absurd sameThread.symm (fresh earlier sameNode.symm)
      · obtain rfl := List.mem_singleton.mp new
        rfl
  · intro other place thread found
    rcases Cluster.thread_spawn found with ⟨rfl, rfl, -⟩ | before
    · exact .inl ⟨_, List.mem_append_right _ (List.mem_singleton_self _), rfl, rfl⟩
    · rcases established.servers other place thread before with ⟨started, member, own⟩ | ⟨started, member, serves⟩
      · exact .inl ⟨started, older member, own⟩
      · exact .inr ⟨started, older member, serves⟩
  · intro packet member
    obtain ⟨started, asked, rest⟩ := established.packets packet member
    exact ⟨started, older asked, rest⟩
  · intro entry member
    obtain ⟨started, asked, rest⟩ := established.answers entry member
    exact ⟨started, older asked, rest⟩

omit [Std.LawfulEqOrd Key] [DecidableEq Key] in
theorem Established.deliver (upheld : facts.Upheld protocol allowed)
    (established : facts.Established protocol allowed cluster) {packet : Packet Node Request}
    (present : packet ∈ cluster.network) :
    facts.Established protocol allowed
      (cluster.spawn (protocol.target packet.request) (protocol.serve packet.ticket packet.request)) := by
  refine ⟨?_, ?_, established.single, ?_, established.packets, established.answers⟩
  · intro other key value found
    exact established.stores other key value ((Cluster.held_spawn key).symm.trans found)
  · intro started member
    obtain ⟨sound, thread, running, keeps⟩ := established.calls started member
    exact ⟨sound, thread, Cluster.thread_spawn_old running, keeps⟩
  · intro other place thread found
    rcases Cluster.thread_spawn found with ⟨rfl, rfl, rfl⟩ | before
    · obtain ⟨started, asked, owns, message, same, sent⟩ := established.packets packet present
      have sound := (established.calls started asked).1
      rw [← owns.1] at sound
      exact .inr ⟨started, asked, packet.ticket, owns,
        upheld.serve packet.ticket started.call message packet.request sound sent same⟩
    · exact established.servers other place thread before

omit [Std.LawfulEqOrd Key] [DecidableEq Key] in
theorem Established.advance (established : facts.Established protocol allowed cluster)
    (proper : Proper facts protocol cluster node index pool sent)
    (moved : (cluster.nodes node).step index replies = some (pool, sent)) :
    facts.Established protocol allowed (Cluster.advance protocol cluster node index pool sent) := by
  refine ⟨?_, ?_, established.single, ?_, ?_, ?_⟩
  · intro other key value found
    by_cases here : other = node
    · subst here
      rw [Cluster.held_advance_self] at found
      exact proper.stores key value found
    · rw [Cluster.held_advance_other here] at found
      exact established.stores other key value found
  · intro started member
    obtain ⟨sound, thread, running, keeps⟩ := established.calls started member
    refine ⟨sound, ?_⟩
    by_cases here : started.node = node ∧ started.thread = index
    · obtain ⟨rfl, rfl⟩ := here
      rw [Cluster.thread_advance_self]
      exact proper.calls started member rfl rfl
    · rw [Cluster.thread_advance_other moved here]
      exact ⟨thread, running, keeps⟩
  · intro other place thread found
    rcases Cluster.thread_advance moved found with ⟨rfl, rfl, held⟩ | ⟨-, before⟩
    · exact proper.servers thread held
    · exact established.servers other place thread before
  · intro packet member
    rcases List.mem_append.mp member with before | new
    · exact established.packets packet before
    · obtain ⟨position, message, found, same, ticket⟩ := Cluster.mem_fanOut.mp new
      obtain ⟨started, asked, rfl, rfl, sent⟩ := proper.sends message (List.mem_of_getElem? found)
      exact ⟨started, asked, by simp [Owns, ticket], message, same, sent⟩
  · intro entry member
    rcases List.mem_append.mp member with before | new
    · exact established.answers entry before
    · exact proper.answers entry new

/-- The rule: where the programs uphold the facts, every event keeps them established. -/
theorem Established.step [DecidableEq Reply] (upheld : facts.Upheld protocol allowed)
    (established : facts.Established protocol allowed cluster)
    (visited : ∀ node key, facts.found node key (cluster.held node key)) {event : Event Node Call Reply}
    (permitted : ∀ node call, event = .call node call → allowed node call)
    (stepped : Cluster.step protocol cluster event = some next) : facts.Established protocol allowed next := by
  obtain ⟨node, call, rfl, rfl⟩ | ⟨packet, present, rfl⟩ | ⟨index, rfl⟩ |
    ⟨node, index, replies, pool, sent, -, receivable, moved, rfl⟩ := Cluster.step_cases stepped
  · exact established.call upheld (permitted node call rfl)
  · exact established.deliver upheld present
  · exact { established with
      packets := fun packet member => established.packets packet (List.mem_of_mem_eraseIdx member) }
  · exact established.advance (established.proper upheld visited receivable moved) moved

omit [Std.LawfulEqOrd Key] [DecidableEq Key] [DecidableEq Node] in
/-- What a call has returned is as the facts say. -/
theorem Established.returned (established : facts.Established protocol allowed cluster) {started : Started Node Call}
    (member : started ∈ cluster.called) {result : Result}
    (returned : cluster.returned started.node started.thread = some result) : facts.result started.call result := by
  obtain ⟨-, thread, running, keeps⟩ := established.calls started member
  obtain ⟨ended, found, done⟩ := Cluster.returned_eq_some.mp returned
  cases running.symm.trans found
  rw [done] at keeps
  exact keeps.1

end Steps

end Facts

end MiniDynamo
