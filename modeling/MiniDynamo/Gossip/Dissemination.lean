import MiniDynamo.Gossip.Node

/-! Why gossip dies out: an event is accepted only below its rank, acceptance brings the
record up to it, and while nobody joins no record comes down again. -/

namespace MiniDynamo

namespace Swim

variable {swim : Swim} {event : MemberEvent}

theorem refuses_ranked (now : Int) (other : event.nodeId ≠ swim.self.nodeId)
    (high : event.rank ≤ Record.rank swim.members[event.nodeId]?) : (swim.applyEvent event now).result = false := by
  rw [applyEvent_result now other]
  by_contra taken
  have below := MemberEvent.accepts_rank (Bool.not_eq_false _ ▸ taken)
  omega

theorem ranked_of_accepted {now : Int} (other : event.nodeId ≠ swim.self.nodeId)
    (accepted : (swim.applyEvent event now).result = true) :
    event.rank ≤ Record.rank (swim.applyEvent event now).swim.members[event.nodeId]? := by
  rw [applyEvent_result now other] at accepted
  rw [lookup_applyEvent now other, if_pos ⟨rfl, accepted⟩, Record.rank_some, MemberEvent.update_rank now accepted]

end Swim

theorem Operation.relayed_of_silent {operation : Operation} (silent : operation.introduces = none) :
    operation.Relayed := by
  cases operation with
  | applyDirectJoin event => cases silent
  | _ => trivial

namespace GossipThread

theorem self_run (thread : GossipThread) (operations : List Operation) :
    (thread.run operations).swim.self = thread.swim.self := by
  induction operations generalizing thread with
  | nil => rfl
  | cons operation rest ih => exact (ih _).trans (operation.steps thread.swim).self

theorem rank_le_run (thread : GossipThread) {operations : List Operation}
    (relayed : ∀ operation ∈ operations, operation.Relayed) (id : Bytes) :
    Record.rank thread.swim.members[id]? ≤ Record.rank (thread.run operations).swim.members[id]? := by
  induction operations generalizing thread with
  | nil => exact le_refl _
  | cons operation rest ih =>
    have step := (operation.changes (relayed operation (List.mem_cons_self ..)) thread.swim id).rank_le
    have rest := ih (thread.perform operation)
      (fun later member => relayed later (List.mem_cons_of_mem _ member))
    exact step.trans rest

end GossipThread

/-- What a node does while nobody joins: it hears what others relay, or performs an
operation that brings no news from outside. -/
inductive Activity where
  | relay (event : MemberEvent) (now : Int)
  | own (operation : Operation) (silent : operation.introduces = none)

namespace GossipNode

variable {node : GossipNode} {event : MemberEvent}

def proceed (node : GossipNode) : Activity → GossipNode
  | .relay event now => node.ingest event now
  | .own operation silent => node.act operation silent

/-- The event that goes back on the queue because it changed the view. -/
def passedOn (node : GossipNode) : Activity → List MemberEvent
  | .relay event now =>
    if isValidNodeId event.nodeId = true ∧ (node.swim.applyEvent event now).result = true then [event] else []
  | .own _ _ => []

/-- All that goes back on the queue in a run. -/
def allPassedOn (node : GossipNode) : List Activity → List MemberEvent
  | [] => []
  | activity :: rest => node.passedOn activity ++ (node.proceed activity).allPassedOn rest

theorem self_proceed (node : GossipNode) (activity : Activity) :
    (node.proceed activity).swim.self = node.swim.self := by
  cases activity with
  | relay event now => exact node.self_ingest event now
  | own operation silent => exact (operation.steps node.swim).self

theorem rank_le_proceed (node : GossipNode) (activity : Activity) (id : Bytes) :
    Record.rank node.swim.members[id]? ≤ Record.rank (node.proceed activity).swim.members[id]? := by
  cases activity with
  | relay event now =>
    have higher := Swim.rank_le_applyEvent node.swim event now id
    rw [proceed, swim_ingest]
    split
    · split <;> exact higher
    · exact le_refl _
  | own operation silent =>
    exact (operation.changes (Operation.relayed_of_silent silent) node.swim id).rank_le

/-- An event that the record ranks with is not passed on. -/
theorem passedOn_ranked {activity : Activity} (other : event.nodeId ≠ node.swim.self.nodeId)
    (high : event.rank ≤ Record.rank node.swim.members[event.nodeId]?) : event ∉ node.passedOn activity := by
  cases activity with
  | relay heard now =>
    rw [passedOn]
    split
    · rename_i passed
      rw [List.mem_singleton]
      rintro rfl
      exact Bool.false_ne_true ((Swim.refuses_ranked now other high).symm.trans passed.2)
    · exact List.not_mem_nil
  | own operation silent => exact List.not_mem_nil

theorem allPassedOn_ranked (activities : List Activity) (other : event.nodeId ≠ node.swim.self.nodeId)
    (high : event.rank ≤ Record.rank node.swim.members[event.nodeId]?) : event ∉ node.allPassedOn activities := by
  induction activities generalizing node with
  | nil => exact List.not_mem_nil
  | cons activity rest ih =>
    rw [allPassedOn, List.mem_append, not_or]
    refine ⟨passedOn_ranked other high, ih ?_ ?_⟩
    · rwa [self_proceed]
    · exact high.trans (rank_le_proceed node activity _)

/-- What a step passes on, the record ranks with after it. -/
theorem ranked_of_passedOn {activity : Activity} (other : event.nodeId ≠ node.swim.self.nodeId)
    (passed : event ∈ node.passedOn activity) :
    node.passedOn activity = [event] ∧
      event.rank ≤ Record.rank (node.proceed activity).swim.members[event.nodeId]? := by
  cases activity with
  | relay heard now =>
    rw [passedOn] at passed ⊢
    split at passed
    · rename_i taken
      obtain rfl := List.mem_singleton.mp passed
      refine ⟨if_pos taken, ?_⟩
      rw [proceed, swim_ingest, if_pos taken.1, if_pos taken.2]
      exact Swim.ranked_of_accepted other taken.2
    · cases passed
  | own operation silent => cases passed

theorem count_allPassedOn (node : GossipNode) (activities : List Activity) (event : MemberEvent)
    (other : event.nodeId ≠ node.swim.self.nodeId) : (node.allPassedOn activities).count event ≤ 1 := by
  induction activities generalizing node with
  | nil => exact Nat.zero_le 1
  | cons activity rest ih =>
    rw [allPassedOn, List.count_append]
    have peer : event.nodeId ≠ (node.proceed activity).swim.self.nodeId := by rwa [self_proceed]
    by_cases passed : event ∈ node.passedOn activity
    · obtain ⟨once, high⟩ := ranked_of_passedOn other passed
      rw [once, List.count_singleton_self, List.count_eq_zero_of_not_mem (allPassedOn_ranked rest peer high)]
    · rw [List.count_eq_zero_of_not_mem passed, Nat.zero_add]
      exact ih _ peer

/-- An event about another node is accepted once: while nobody joins it is refused ever
after, so no run puts it back on the queue twice. -/
theorem gossip_dies_out (node : GossipNode) (event : MemberEvent) (other : event.nodeId ≠ node.swim.self.nodeId) :
    (∀ now, (node.swim.applyEvent event now).result = true →
      ∀ operations : List Operation, (∀ operation ∈ operations, operation.Relayed) → ∀ later,
        (((node.toGossipThread.perform (.applyEvent event now)).run operations).swim.applyEvent event later).result =
          false) ∧
    ∀ activities : List Activity, (node.allPassedOn activities).count event ≤ 1 := by
  refine ⟨fun now accepted operations relayed later => ?_, fun activities => node.count_allPassedOn activities event other⟩
  have self : (node.toGossipThread.perform (.applyEvent event now)).swim.self = node.swim.self :=
    (Swim.applyEvent_step event now).self
  refine Swim.refuses_ranked later (by rwa [GossipThread.self_run, self]) ?_
  have ranked := Swim.ranked_of_accepted other accepted
  have kept := GossipThread.rank_le_run (node.toGossipThread.perform (.applyEvent event now)) relayed event.nodeId
  exact ranked.trans kept

/-- A node hears twice that `b` is up, and suspects it in between. -/
theorem gossip_dies_out_suspected :
    let node := start ⟨[97], [104], 1⟩ 2 {} (by decide)
    let news : MemberEvent := ⟨.alive, [98], [104], 2, 1⟩
    (node.swim.applyEvent news 0).result = true ∧
      (((node.toGossipThread.perform (.applyEvent news 0)).run [.suspect [98] 5]).swim.applyEvent news 9).result = false ∧
      (node.allPassedOn [.relay news 0, .own (.suspect [98] 5) rfl, .relay news 9]).count news ≤ 1 := by
  intro node news
  have accepted : (node.swim.applyEvent news 0).result = true := by decide +kernel
  have dies := gossip_dies_out node news (by decide)
  exact ⟨accepted, dies.1 0 accepted [.suspect [98] 5] (by simp [Operation.Relayed]) 9, dies.2 _⟩

end GossipNode

end MiniDynamo
