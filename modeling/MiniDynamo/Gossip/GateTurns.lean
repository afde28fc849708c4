import MiniDynamo.Gossip.SyncGate
import MiniDynamo.Gossip.Moves

/-! Whatever happens to a node is a run of ticks and comparisons: the gate's runs cover those of the
gossip thread. -/

namespace MiniDynamo

namespace Session

/-- What holds between a session and the later one if it holds over every comparison with a peer and over all
that leaves the counters alone. -/
structure CounterRule (keeps : Session → Session → Prop) : Prop where
  still {before after : Session} : after.node.counters = before.node.counters → keeps before after
  trans {first second third : Session} : keeps first second → keeps second third → keeps first third
  maybeSync (session : Session) (peer : NodeInfo) (digestField : Bytes) :
    keeps session (session.maybeSync peer digestField)

namespace CounterRule

variable {keeps : Session → Session → Prop} (rule : CounterRule keeps)

include rule

theorem refl (session : Session) : keeps session session := rule.still rfl

theorem probes : ProbeRule keeps where
  refl := rule.refl
  trans := rule.trans
  incoming session _ _ := rule.still (session.counters_applyIncomingEvents _)
  maybeSync := rule.maybeSync
  ping _ _ _ _ := rule.still rfl
  pingReq _ _ _ _ := rule.still rfl
  shuffled _ := rule.still rfl
  suspect _ _ := rule.still rfl

end CounterRule

theorem counters_handleJoin (session : Session) (f : List Bytes) :
    (session.handleJoin f).2.node.counters = session.node.counters := by
  unfold handleJoin
  simp only
  split
  · split <;> exact (GossipNode.counters_enroll _ _ _).trans (session.counters_applyIncomingEvents _)
  · rfl

theorem counters_handlePingReq (session : Session) (f : List Bytes) :
    (session.handlePingReq f).2.node.counters = session.node.counters := by
  have heard := session.counters_applyIncomingEvents (field f 4)
  unfold handlePingReq
  simp only
  split
  · exact heard
  · split <;> exact heard

theorem counters_handleMessage (session : Session) (payload : Bytes) :
    (session.handleMessage payload).2.node.counters = session.node.counters := by
  have heard := session.counters_applyIncomingEvents
  unfold handleMessage
  simp only
  split
  · exact heard _
  · split
    · exact session.counters_handlePingReq _
    · split
      · exact heard _
      · split
        · exact heard _
        · split
          · exact heard _
          · split
            · exact session.counters_handleJoin _
            · rfl

theorem counters_joinViaSeeds (seeds : List Bytes) (session : Session) :
    (joinViaSeeds seeds session).node.counters = session.node.counters := by
  induction seeds generalizing session with
  | nil => rfl
  | cons seed rest ih =>
    rw [joinViaSeeds]
    simp only
    split
    · split
      · exact counters_applyIncomingEvents _ _
      · exact ih _
    · exact ih session

/-- Only a tick counts, compares or moves on to the next peer. -/
theorem counters_turn (session : Session) {turn : GossipTurn} (other : turn.call ≠ .tick) :
    (session.turn turn).node.counters = session.node.counters := by
  obtain ⟨call, answers, times, shuffles⟩ := turn
  cases call with
  | tick => exact absurd rfl other
  | joinViaSeeds seeds => exact counters_joinViaSeeds seeds { session with answers, times, shuffles }
  | handleMessage payload =>
    have handled := counters_handleMessage { session with answers, times, shuffles } payload
    show (answered _).node.counters = _
    unfold answered
    split <;> exact handled
  | requestLeave nodeId =>
    show (requestLeave _ _).2.node.counters = _
    unfold requestLeave
    split <;> rfl

/-- The second session comes from the first by comparisons and what leaves the gate alone. -/
def Compares (before after : Session) : Prop :=
  ∀ (start : Session) (ticks : Nat) (history : List Compared), SyncRun start before ticks history →
    ∃ more, SyncRun start after ticks (history ++ more)

theorem compares_rule : CounterRule Compares where
  still same _ _ _ run := ⟨[], by rw [List.append_nil]; exact run.other (.of_counters same)⟩
  trans one two start ticks history run := by
    obtain ⟨more, middle⟩ := one start ticks history run
    obtain ⟨last, after⟩ := two start ticks _ middle
    exact ⟨more ++ last, by rwa [← List.append_assoc]⟩
  maybeSync _ peer digestField _ _ _ run := ⟨_, run.compare peer digestField⟩

theorem compares_pingNext (session : Session) : Compares session session.pingNext := by
  unfold pingNext
  simp only
  split
  · exact compares_rule.refl session
  · -- moving on to the next peer is nothing to the gate
    have advanced : Compares session { session with node := { session.node with idx := session.node.idx + 1 } } :=
      fun _ _ _ run => ⟨[], by rw [List.append_nil]; exact run.other ⟨rfl, rfl⟩⟩
    exact compares_rule.trans advanced (compares_rule.probes.pingTarget _ _)

/-- A tick of a node that has not left, after it is counted. -/
theorem compares_probes (session : Session) : Compares session session.expireSuspects.probeNextDead.pingNext := by
  have expired : Compares session session.expireSuspects := compares_rule.still rfl
  exact compares_rule.trans (compares_rule.trans expired (compares_rule.probes.probeNextDead _)) (compares_pingNext _)

end Session

namespace SyncRun

variable {start session : Session} {ticks : Nat} {history : List Compared}

/-- All comparisons of a tick come after it has been counted. -/
theorem ticked (run : SyncRun start session ticks history) :
    ∃ more, SyncRun start session.tick (ticks + 1) (history ++ more) := by
  have counted := run.tick
  unfold Session.tick
  simp only
  split
  · exact ⟨[], by rwa [List.append_nil]⟩
  · exact Session.compares_probes _ start (ticks + 1) history counted

/-- The ticks among the turns of a node. -/
def tickTurns (turns : List GossipTurn) : Nat :=
  turns.countP (fun turn => match turn.call with
    | .tick => true
    | _ => false)

theorem turned (run : SyncRun start session ticks history) (turn : GossipTurn) :
    ∃ more, SyncRun start (session.turn turn) (ticks + tickTurns [turn]) (history ++ more) := by
  by_cases ticks : turn.call = .tick
  · obtain ⟨call, answers, times, shuffles⟩ := turn
    obtain rfl : call = .tick := ticks
    have begun : SyncRun start { session with answers, times, shuffles } _ history := run.other ⟨rfl, rfl⟩
    exact begun.ticked
  · have none : tickTurns [turn] = 0 := by
      refine List.countP_eq_zero.mpr (fun other member => ?_)
      obtain rfl := List.mem_singleton.mp member
      split
      · exact absurd (by assumption) ticks
      · exact Bool.false_ne_true
    refine ⟨[], ?_⟩
    rw [none, List.append_nil]
    exact run.other (.of_counters (session.counters_turn ticks))

/-- The turns of a node are a run of as many ticks. -/
theorem of_turns (turns : List GossipTurn) (run : SyncRun start session ticks history) :
    ∃ more, SyncRun start (session.run turns) (ticks + tickTurns turns) (history ++ more) := by
  induction turns generalizing session ticks history with
  | nil => exact ⟨[], by rwa [List.append_nil]⟩
  | cons turn rest ih =>
    obtain ⟨more, turned⟩ := run.turned turn
    obtain ⟨last, after⟩ := ih turned
    refine ⟨more ++ last, ?_⟩
    have count : tickTurns (turn :: rest) = tickTurns [turn] + tickTurns rest := by
      rw [tickTurns, ← List.singleton_append, List.countP_append]
      rfl
    rw [count, ← Nat.add_assoc, ← List.append_assoc]
    exact after

end SyncRun

end MiniDynamo
