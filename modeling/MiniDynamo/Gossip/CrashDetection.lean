import MiniDynamo.Gossip.Farewell
import MiniDynamo.Gossip.ProbeOrder
import MiniDynamo.Gossip.Suspicion

/-! A peer that has crashed is found out: its turn comes, nobody can reach it, it falls under suspicion,
and when the suspicion expires it is dead. -/

namespace MiniDynamo

/-- How far gone a member is. -/
def MemberState.severity : MemberState → Nat
  | .alive => 0
  | .suspect => 1
  | .dead => 2
  | .left => 3

/-- The record has not got better. -/
def Record.Sinks (before after : Record) : Prop :=
  ∀ later, after = some later →
    2 ≤ later.state.severity ∨ ∃ earlier, before = some earlier ∧ earlier.state.severity ≤ later.state.severity

namespace Record.Sinks

variable {before after : Record} {first second third : Record}

theorem refl (record : Record) : Sinks record record :=
  fun later held => .inr ⟨later, held, Nat.le_refl _⟩

theorem trans (one : Sinks first second) (two : Sinks second third) : Sinks first third := by
  intro later held
  rcases two later held with gone | ⟨middle, known, worse⟩
  · exact .inl gone
  · rcases one middle known with gone | ⟨earlier, known, before⟩
    · exact .inl (gone.trans worse)
    · exact .inr ⟨earlier, known, before.trans worse⟩

/-- A member that is far gone stays so. -/
theorem kept (sinks : Sinks before after) {depth : Nat} (shallow : depth ≤ 2)
    (deep : ∀ entry, before = some entry → depth ≤ entry.state.severity) :
    ∀ entry, after = some entry → depth ≤ entry.state.severity := by
  intro entry held
  rcases sinks entry held with gone | ⟨earlier, known, worse⟩
  · exact shallow.trans gone
  · exact (deep earlier known).trans worse

end Record.Sinks

/-- Only news of its being up does a member good. -/
theorem Change.sinks {hears : MemberEvent → Prop} {id : Bytes} {before after : Record}
    (change : Change hears id before after) (quiet : ∀ event, hears event → ¬ event.Revives id) :
    before.Sinks after := by
  cases change with
  | heard told now about accepted =>
    rename_i event
    have silent := quiet event told
    intro later held
    obtain rfl := Option.some.inj held
    obtain ⟨type, nodeId, host, port, incarnation⟩ := event
    cases type with
    | join => exact absurd ⟨about, .inl rfl⟩ silent
    | alive => exact absurd ⟨about, .inr rfl⟩ silent
    | suspect =>
      cases before with
      | none => cases accepted
      | some entry =>
        refine .inr ⟨entry, rfl, ?_⟩
        rcases of_decide_eq_true accepted with ⟨alive, -⟩ | ⟨suspect, -⟩
        · rw [alive]
          exact Nat.zero_le _
        · rw [suspect]
          exact Nat.le_refl _
    | dead => cases before <;> exact .inl (Nat.le_refl 2)
    | leave => cases before <;> exact .inl (Nat.le_succ 2)
    | other byte => cases before <;> cases accepted
  | suspected now alive =>
    intro later held
    obtain rfl := Option.some.inj held
    exact .inr ⟨_, rfl, by rw [alive]; exact Nat.zero_le _⟩
  | buried member =>
    intro later held
    obtain rfl := Option.some.inj held
    exact .inl (Nat.le_refl 2)
  | retired member =>
    intro later held
    obtain rfl := Option.some.inj held
    exact .inl (Nat.le_succ 2)

theorem Changes.sinks {hears : MemberEvent → Prop} {id : Bytes} {before after : Record}
    (changes : Changes hears id before after) (quiet : ∀ event, hears event → ¬ event.Revives id) :
    before.Sinks after := by
  induction changes with
  | refl => exact .refl before
  | tail _ change ih => exact ih.trans (change.sinks quiet)

/-- The hearing speaks for the member: it is news that the member is up, or the member's own join. -/
def Hearing.VouchesFor (hearing : Hearing) (id : Bytes) : Prop :=
  hearing.event.nodeId = id ∧ (hearing.direct = true ∨ hearing.event.type = .join ∨ hearing.event.type = .alive)

instance (hearing : Hearing) (id : Bytes) : Decidable (hearing.VouchesFor id) :=
  inferInstanceAs (Decidable (_ ∧ _))

namespace GossipNode

variable {node : GossipNode} {event : MemberEvent} {id : Bytes}

theorem sinks_ingest (now : Int) (quiet : ¬ Hearing.VouchesFor ⟨node, event, false⟩ id) :
    Record.Sinks node.swim.members[id]? (node.ingest event now).swim.members[id]? := by
  have changes : Changes (fun told => told = event) id node.swim.members[id]?
      (node.swim.applyEvent event now).swim.members[id]? := by
    apply Swim.applyEvent_changes
    rfl
  have heard := changes.sinks (fun told same revives => quiet ⟨same ▸ revives.1, .inr (same ▸ revives.2)⟩)
  rw [swim_ingest]
  split
  · split <;> exact heard
  · exact .refl _

theorem sinks_enroll (checked : isValidNodeId event.nodeId = true)
    (quiet : ¬ Hearing.VouchesFor ⟨node, event, true⟩ id) :
    Record.Sinks node.swim.members[id]? (node.enroll event checked).2.swim.members[id]? := by
  have elsewhere : event.nodeId ≠ id := fun same => quiet ⟨same, .inl rfl⟩
  have kept : (node.swim.applyDirectJoin event).swim.members[id]? = node.swim.members[id]? := by
    by_cases own : event.nodeId = node.swim.self.nodeId
    · rw [Swim.applyDirectJoin, dif_pos own]
    · rw [Swim.lookup_applyDirectJoin own, if_neg (fun both => elsewhere both.1)]
  rw [swim_enroll]
  split <;> exact kept ▸ .refl _

end GossipNode

theorem Operation.Own.sinks {operation : Operation} (own : operation.Own) (swim : Swim) (id : Bytes) :
    Record.Sinks swim.members[id]? (operation.react swim).1.members[id]? := by
  have relayed : operation.Relayed := by cases own <;> trivial
  refine (operation.changes relayed swim id).sinks (fun event heard => ?_)
  obtain ⟨now, rfl⟩ := heard
  cases own

namespace Session

variable {session : Session} {turn : GossipTurn} {target : NodeInfo} {peer : Bytes}

def record (session : Session) (id : Bytes) : Record := session.node.swim.members[id]?

/-- Whatever happens to a node, a member gets no better as long as nobody speaks for it. -/
theorem sinks_rule (id : Bytes) :
    Rule (fun _ => True) (fun before after => before.heard ⊆ after.heard ∧
      ((∀ hearing ∈ after.heard, ¬ hearing.VouchesFor id) → (before.record id).Sinks (after.record id))) where
  refl session := ⟨List.Subset.refl _, fun _ => .refl _⟩
  trans one two := ⟨List.Subset.trans one.1 two.1, fun quiet =>
    (one.2 (fun hearing member => quiet hearing (two.1 member))).trans (two.2 quiet)⟩
  book thread heard _ := ⟨heard ▸ List.Subset.refl _, fun _ => by
    unfold record
    rw [thread]
    exact .refl _⟩
  ingest session event now _ := ⟨List.subset_append_left _ _, fun quiet =>
    GossipNode.sinks_ingest now (quiet _ (List.mem_append_right _ (List.mem_singleton_self _)))⟩
  enroll session event checked _ _ := ⟨List.subset_append_left _ _, fun quiet =>
    GossipNode.sinks_enroll checked (quiet _ (List.mem_append_right _ (List.mem_singleton_self _)))⟩
  own session _ own _ := ⟨List.Subset.refl _, fun _ => own.sinks _ _⟩
  piggyback _ _ _ _ := ⟨List.Subset.refl _, fun _ => .refl _⟩
  sync _ _ _ _ := ⟨List.Subset.refl _, fun _ => .refl _⟩
  welcome _ _ _ _ _ _ _ _ _ := ⟨List.Subset.refl _, fun _ => .refl _⟩
  refuse _ _ _ _ _ _ := ⟨List.Subset.refl _, fun _ => .refl _⟩
  call _ _ _ _ := ⟨List.Subset.refl _, fun _ => .refl _⟩

/-- A ping of the peer: the answer to it, and the node then. -/
def pinged (session : Session) (target : NodeInfo) : Bytes × Session :=
  (session.buildPing target.nodeId).2.sendFn target.host target.port (session.buildPing target.nodeId).1

theorem pingTarget_eq (session : Session) (target : NodeInfo) :
    session.pingTarget target =
      if (session.pinged target).1 ≠ [] then ((session.pinged target).2.handleAck target (session.pinged target).1).2
      else (session.pinged target).2.probeIndirectly target :=
  rfl

/-- No proxy acks the request to ping the peer. -/
def Abandons (session : Session) (target : NodeInfo) : Prop :=
  ∃ proxies, session.node.swim.randomPeers session.node.config.indirectProbeCount [target.nodeId]
      (session.shuffles.headD id) = some proxies ∧
    (probeVia target proxies { session with shuffles := session.shuffles.tail }).1 = false

/-- Neither the peer itself nor a proxy answers for it. -/
def Misses (session : Session) (target : NodeInfo) : Prop :=
  (session.pinged target).1 = [] ∧ (session.pinged target).2.Abandons target

theorem probeIndirectly_abandoned (abandons : session.Abandons target) :
    ∃ probed : Session,
      session.probeIndirectly target = (probed.act (.suspect target.nodeId probed.now) rfl).laterOn := by
  obtain ⟨proxies, drawn, refused⟩ := abandons
  refine ⟨(probeVia target proxies { session with shuffles := session.shuffles.tail }).2, ?_⟩
  unfold probeIndirectly
  rw [drawn]
  simp only [refused, Bool.false_eq_true, ↓reduceIte]

/-- A peer that cannot be reached falls under suspicion, if it is not worse off already. -/
theorem suspected_of_misses (misses : session.Misses target) :
    ∀ entry, (session.pingTarget target).record target.nodeId = some entry → 1 ≤ entry.state.severity := by
  intro entry held
  obtain ⟨probed, same⟩ := probeIndirectly_abandoned misses.2
  rw [pingTarget_eq, if_neg (not_not.mpr misses.1), same] at held
  replace held := (Swim.lookup_suspect _ target.nodeId _ target.nodeId).symm.trans held
  rw [if_pos rfl] at held
  obtain ⟨before, -, same⟩ := Option.map_eq_some_iff.mp held
  split at same
  · subst same
    exact Nat.le_refl 1
  · rename_i other
    subst same
    cases state : before.state with
    | alive => exact absurd state other
    | suspect => exact Nat.le_refl 1
    | dead => exact Nat.le_succ 1
    | left => exact Nat.le_add_left 1 2

/-- Whenever its turn comes, the peer cannot be reached. -/
def Unreachable (peer : Bytes) : Session → List GossipTurn → Prop
  | _, [] => True
  | session, turn :: rest =>
    (∀ target, session.aim turn = some target → target.nodeId = peer → (session.pinging turn).Misses target) ∧
      Unreachable peer (session.turn turn) rest

/-- Once its turn has come and it could not be reached, a peer is under suspicion or worse. -/
theorem suspected_of_aimed {turns : List GossipTurn} (aimed : peer ∈ (aims session turns).map NodeInfo.nodeId)
    (unreachable : Unreachable peer session turns)
    (quiet : ∀ hearing ∈ (session.run turns).heard, ¬ hearing.VouchesFor peer) :
    ∀ entry, (session.run turns).record peer = some entry → 1 ≤ entry.state.severity := by
  induction turns generalizing session with
  | nil => cases aimed
  | cons turn rest ih =>
    obtain ⟨target, member, rfl⟩ := List.mem_map.mp aimed
    rcases List.mem_append.mp member with now | later
    · have hit := Option.mem_toList.mp now
      have suspected := suspected_of_misses (unreachable.1 target hit rfl)
      rw [← turn_aimed hit] at suspected
      have sinks := ((sinks_rule target.nodeId).run (session.turn turn)
        (fun turn _ => turn.joinsFrom_any)).2 quiet
      exact sinks.kept (Nat.le_succ 1) suspected
    · exact ih (List.mem_map_of_mem later) unreachable.2 quiet

/-- After an expiry that comes late enough, a suspect is dead. -/
theorem buried_of_suspected (suspected : ∀ entry, session.record peer = some entry → 1 ≤ entry.state.severity)
    (overdue : ∀ entry, session.record peer = some entry →
      session.node.config.protocolPeriod * session.node.config.suspicionMult ≤
        (session.now - entry.suspectSince).tdiv 1000000) :
    ∀ entry, session.expireSuspects.record peer = some entry → 2 ≤ entry.state.severity := by
  intro entry held
  replace held := (Swim.lookup_expireSuspects _ _ _ peer).symm.trans held
  obtain ⟨before, known, same⟩ := Option.map_eq_some_iff.mp held
  split at same
  · subst same
    exact Nat.le_refl 2
  · rename_i early
    subst same
    have depth := suspected before known
    cases state : before.state with
    | alive =>
      rw [state] at depth
      exact absurd depth (by decide)
    | suspect => exact absurd ⟨state, overdue before known⟩ early
    | dead => exact Nat.le_refl 2
    | left => exact Nat.le_succ 2

/-- So it is after a tick that begins with the expiry, unless somebody speaks for it. -/
theorem buried_of_tick (ticks : turn.call = .tick) (stays : session.node.swim.hasLeft = false)
    (suspected : ∀ entry, session.record peer = some entry → 1 ≤ entry.state.severity)
    (overdue : ∀ entry, session.record peer = some entry →
      session.node.config.protocolPeriod * session.node.config.suspicionMult ≤
        (turn.times.headD 0 - entry.suspectSince).tdiv 1000000)
    (quiet : ∀ hearing ∈ (session.turn turn).heard, ¬ hearing.VouchesFor peer) :
    ∀ entry, (session.turn turn).record peer = some entry → 2 ≤ entry.state.severity := by
  rw [turn_tick ticks stays] at quiet ⊢
  have rule := sinks_rule peer
  exact ((rule.trans (rule.probes.probeNextDead _) (rule.pingNext (session.atPing turn))).2 quiet).kept (Nat.le_refl 2)
    (buried_of_suspected suspected overdue)

theorem not_isAlive_of_gone (swim : Swim)
    (gone : ∀ entry, swim.members[peer]? = some entry → 2 ≤ entry.state.severity) : swim.isAlive peer = false := by
  unfold Swim.isAlive
  split
  · rfl
  · rename_i entry held
    have depth := gone entry held
    cases state : entry.state with
    | alive =>
      rw [state] at depth
      exact absurd depth (by decide)
    | suspect =>
      rw [state] at depth
      exact absurd depth (by decide)
    | dead => rfl
    | left => rfl

/-- A peer that is up in the view, cannot be reached when its turn comes, and for which nobody speaks,
is no longer up after one round of the peers and a tick that comes the timeout after the suspicion. -/
theorem crash_detected (node : GossipNode) (turns later : List GossipTurn) (last : GossipTurn) (ups : List Bytes)
    (peer : Bytes) (steady : Steady ups (begin node) turns) (round : SyncRun.tickTurns turns = ups.length)
    (room : node.idx.toNat + ups.length ≤ 2 ^ 64) (member : peer ∈ ups)
    (unreachable : Unreachable peer (begin node) turns)
    (quiet : ∀ hearing ∈ ((begin node).run (turns ++ later ++ [last])).heard, ¬ hearing.VouchesFor peer)
    (ticks : last.call = .tick) (stays : ((begin node).run (turns ++ later)).node.swim.hasLeft = false)
    (overdue : ∀ entry, ((begin node).run (turns ++ later)).record peer = some entry →
      ((begin node).run (turns ++ later)).node.config.protocolPeriod *
          ((begin node).run (turns ++ later)).node.config.suspicionMult ≤
        (last.times.headD 0 - entry.suspectSince).tdiv 1000000) :
    ((begin node).run (turns ++ later ++ [last])).node.swim.isAlive peer = false := by
  have rule := sinks_rule peer
  have heard (first second : List GossipTurn) :=
    (rule.run ((begin node).run first) (fun turn (_ : turn ∈ second) => turn.joinsFrom_any)).1
  have split (first second : List GossipTurn) :
      (begin node).run (first ++ second) = ((begin node).run first).run second := List.foldl_append
  have aimed : peer ∈ (aims (begin node) turns).map NodeInfo.nodeId := by
    rw [aims_round steady round room]
    exact List.mem_rotate.mpr member
  rw [split] at quiet
  have calm : ∀ hearing ∈ ((begin node).run (turns ++ later)).heard, ¬ hearing.VouchesFor peer :=
    fun hearing known => quiet hearing (heard (turns ++ later) [last] known)
  have calmer : ∀ hearing ∈ ((begin node).run turns).heard, ¬ hearing.VouchesFor peer := by
    intro hearing known
    refine calm hearing ?_
    rw [split]
    exact heard turns later known
  have suspected := suspected_of_aimed aimed unreachable calmer
  have still : ∀ entry, ((begin node).run (turns ++ later)).record peer = some entry → 1 ≤ entry.state.severity := by
    rw [split] at calm ⊢
    exact ((rule.run ((begin node).run turns) (fun turn _ => turn.joinsFrom_any)).2 calm).kept (Nat.le_succ 1)
      suspected
  rw [split]
  generalize (begin node).run (turns ++ later) = session at quiet stays overdue still
  refine not_isAlive_of_gone (session.run [last]).node.swim ?_
  exact buried_of_tick ticks stays still overdue quiet

/-- Nobody answers in the two rounds of pings. -/
def quietTurns : List GossipTurn := [{ call := .tick }, { call := .tick }]

theorem quietTurns_unreachable : Unreachable [98] (begin watcher) quietTurns := by
  have first : (begin watcher).aim { call := .tick } = some ⟨[98], [], 0⟩ := by decide +kernel
  have second : ((begin watcher).turn { call := .tick }).aim { call := .tick } = some ⟨[99], [], 0⟩ := by
    decide +kernel
  refine ⟨fun target aimed _ => ?_, fun target aimed named => ?_, trivial⟩
  · obtain rfl := Option.some.inj (first.symm.trans aimed)
    exact ⟨by decide +kernel, [⟨[99], [], 0⟩], by decide +kernel, by decide +kernel⟩
  · obtain rfl := Option.some.inj (second.symm.trans aimed)
    exact absurd named (by decide)

theorem crash_detected_silent :
    ((begin watcher).run (quietTurns ++ [] ++ [{ call := .tick, times := [5000000000] }])).node.swim.isAlive [98] =
      false := by
  have suspected : ((begin watcher).run (quietTurns ++ [])).record [98] = some ⟨⟨[98], [], 0⟩, .suspect, 2, 0⟩ := by
    decide +kernel
  refine crash_detected watcher quietTurns [] { call := .tick, times := [5000000000] } [[98], [99]] [98]
    ⟨fun _ => ⟨by decide +kernel, by decide +kernel⟩, fun _ => ⟨by decide +kernel, by decide +kernel⟩, trivial⟩
    rfl (by decide +kernel) List.mem_cons_self quietTurns_unreachable (by decide +kernel) rfl (by decide +kernel) ?_
  intro entry held
  obtain rfl := Option.some.inj (suspected.symm.trans held)
  decide +kernel

end Session

end MiniDynamo
