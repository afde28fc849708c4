import MiniDynamo.Gossip.Moves
import MiniDynamo.Gossip.Dissemination
import MiniDynamo.Gossip.Queue

/-! What a node sends about members it holds as left, and about itself once it has retired. -/

namespace MiniDynamo

namespace Swim

variable {swim : Swim} {id : Bytes}

/-- A full state reports the departed as departed. -/
theorem fullState_buries (left : swim.stateOf id = some .left) : Buries id swim.fullState := by
  refine answered_of_silent (fun event member revives => ?_)
  rcases List.mem_cons.mp member with rfl | listed
  · have retired := retired_of_left left revives.1.symm
    simp [MemberEvent.Revives, selfEvent, selfClass, retired, StateClass.eventType] at revives
  · obtain ⟨⟨place, entry⟩, filed, rfl⟩ := List.mem_map.mp listed
    have found := OrderedMap.mem_entries.mp filed
    obtain rfl : place = id := revives.1
    have state : entry.state = .left := Option.some.inj ((stateOf_of_found found).symm.trans left)
    simp [MemberEvent.Revives, memberEvent, state, MemberState.stateClass, StateClass.eventType] at revives

end Swim

theorem Session.joinEvents_buries {node : GossipNode} {id : Bytes} (left : node.swim.stateOf id = some .left)
    (peer : id ≠ node.swim.self.nodeId) : Buries id (joinEvents node) := by
  refine answered_of_silent (fun event member revives => ?_)
  rcases List.mem_cons.mp member with rfl | listed
  · exact peer revives.1.symm
  · obtain ⟨entry, shown, rfl⟩ := List.mem_map.mp listed
    obtain ⟨filed, stays⟩ := List.mem_filter.mp shown
    obtain rfl : entry.info.nodeId = id := revives.1
    simp [Swim.left_of_filed filed left] at stays

/-- The hearing does not make a retired node speak up for itself: it is no accusation that
the node would answer, and no join request that it would welcome. -/
def Hearing.Harmless (hearing : Hearing) : Prop :=
  hearing.node.swim.selfLeft = true →
    if hearing.direct then Record.Departed hearing.node.swim.members[hearing.event.nodeId]?
    else ¬ hearing.node.swim.Accused hearing.event

instance (hearing : Hearing) : Decidable hearing.Harmless :=
  inferInstanceAs (Decidable (hearing.node.swim.selfLeft = true →
    if hearing.direct then Record.Departed hearing.node.swim.members[hearing.event.nodeId]?
    else ¬ hearing.node.swim.Accused hearing.event))

namespace Session

variable {before after session : Session} {id : Bytes}

/-- Nothing queued or sent brings back a departed member. -/
structure Discreet (session : Session) (id : Bytes) : Prop where
  queue : session.node.swim.Orderly id
  lists : ∀ sending ∈ session.sent, sending.node.swim.stateOf id = some .left → Buries id sending.message.events

theorem Discreet.post (discreet : session.Discreet id) (address : Option (Bytes × UInt16)) (message : Message)
    (buries : session.node.swim.stateOf id = some .left → Buries id message.events) :
    (session.post address message).Discreet id where
  queue := discreet.queue
  lists sending member left := by
    rcases List.mem_append.mp member with earlier | last
    · exact discreet.lists sending earlier left
    · obtain rfl := List.mem_singleton.mp last
      exact buries left

theorem Move.heard (move : Move before after) : before.heard ⊆ after.heard := by
  cases move with
  | book _ heard _ => rw [heard]; exact List.Subset.refl _
  | ingest => exact List.subset_append_left _ _
  | enroll => exact List.subset_append_left _ _
  | _ => exact List.Subset.refl _

/-- The session is this node's, and so is all that was sent in it. -/
structure Owned (session : Session) (owner : NodeInfo) : Prop where
  node : session.node.swim.self = owner
  sent : ∀ sending ∈ session.sent, sending.node.swim.self = owner

theorem Owned.post {self : NodeInfo} (owned : session.Owned self) (address : Option (Bytes × UInt16))
    (message : Message) : (session.post address message).Owned self where
  node := owned.node
  sent sending member := by
    rcases List.mem_append.mp member with earlier | last
    · exact owned.sent sending earlier
    · rw [List.mem_singleton.mp last]
      exact owned.node

theorem Move.owned {self : NodeInfo} (move : Move before after) (owned : before.Owned self) : after.Owned self := by
  cases move with
  | book thread _ sent =>
    refine ⟨?_, by rw [sent]; exact owned.sent⟩
    rw [thread]
    exact owned.node
  | ingest event now => exact ⟨(GossipNode.self_ingest _ event now).trans owned.node, owned.sent⟩
  | enroll event checked => exact ⟨(GossipNode.enroll_own _ event checked).1.trans owned.node, owned.sent⟩
  | own own silent => exact ⟨(Operation.steps _ _).self.trans owned.node, owned.sent⟩
  | piggyback address message _ =>
    have drained : (before.act .getEventsToSend rfl).Owned self := ⟨owned.node, owned.sent⟩
    exact drained.post address message
  | sync address message _ => exact owned.post address message
  | welcome address message => exact owned.post address message
  | refuse address message => exact owned.post address message
  | call address message => exact owned.post address message

theorem own_orderly {swim : Swim} (orderly : swim.Orderly id) {operation : Operation} (own : operation.Own) :
    (operation.react swim).1.Orderly id := by
  cases own with
  | suspect nodeId now => exact orderly.suspect nodeId now
  | leave nodeId => exact orderly.leave nodeId
  | expireSuspects timeout now => exact orderly.expireSuspects timeout now

theorem ingest_orderly {node : GossipNode} (orderly : node.swim.Orderly id) (event : MemberEvent) (now : Int)
    (harmless : id = node.swim.self.nodeId → Hearing.Harmless ⟨node, event, false⟩) :
    (node.ingest event now).swim.Orderly id := by
  rw [GossipNode.swim_ingest]
  split
  · refine orderly.relay event now (fun self retired => ?_)
    simpa using harmless self retired
  · exact orderly

theorem enroll_orderly {node : GossipNode} (orderly : node.swim.Orderly id) (event : MemberEvent)
    (checked : isValidNodeId event.nodeId = true)
    (harmless : id = node.swim.self.nodeId → Hearing.Harmless ⟨node, event, true⟩) :
    (node.enroll event checked).2.swim.Orderly id := by
  rw [GossipNode.swim_enroll]
  split
  · rename_i refused
    by_cases own : event.nodeId = node.swim.self.nodeId
    · rwa [Swim.applyDirectJoin, dif_pos own]
    · by_cases departed : Record.Departed node.swim.members[event.nodeId]?
      · rwa [Swim.applyDirectJoin_refused own departed]
      · obtain ⟨peer, same⟩ := Swim.applyDirectJoin_taken own departed
        rw [same] at refused
        cases refused
  · rename_i eff taken
    refine orderly.join taken (fun self retired same => ?_)
    have departed : Record.Departed node.swim.members[event.nodeId]? := by simpa using harmless self retired
    rw [same, self, node.swim.others] at departed
    cases departed

theorem Move.discreet (move : Move before after) (discreet : before.Discreet id)
    (harmless : id = before.node.swim.self.nodeId → ∀ hearing ∈ after.heard, hearing.Harmless) :
    after.Discreet id := by
  cases move with
  | book thread heard sent =>
    refine ⟨?_, by rw [sent]; exact discreet.lists⟩
    rw [thread]
    exact discreet.queue
  | ingest event now =>
    refine ⟨ingest_orderly discreet.queue event now (fun self => harmless self _ ?_), discreet.lists⟩
    exact List.mem_append_right _ (List.mem_singleton_self _)
  | enroll event checked =>
    refine ⟨enroll_orderly discreet.queue event checked (fun self => harmless self _ ?_), discreet.lists⟩
    exact List.mem_append_right _ (List.mem_singleton_self _)
  | own own silent => exact ⟨own_orderly discreet.queue own, discreet.lists⟩
  | piggyback address message events =>
    have drained : (before.act .getEventsToSend rfl).Discreet id := ⟨discreet.queue.drain, discreet.lists⟩
    refine drained.post address message (fun left => ?_)
    rw [events]
    exact discreet.queue.buried left
  | sync address message events =>
    refine discreet.post address message (fun left => ?_)
    rw [events]
    exact Swim.fullState_buries left
  | welcome address message events hearing asked direct flag taken =>
    refine discreet.post address message (fun left => ?_)
    rw [events]
    refine joinEvents_buries left (fun self => taken ?_)
    -- a retired node that is asked only by departed nodes welcomes nobody
    have departed := harmless self hearing asked (flag.trans (Swim.retired_of_left left self))
    rw [if_pos direct] at departed
    rw [Swim.applyDirectJoin_refused (fun own => ?_) departed]
    rw [own, hearing.node.swim.others] at departed
    cases departed
  | refuse address message place events =>
    refine discreet.post address message (fun _ => ?_)
    rw [events]
    exact answered_of_silent (by simp [MemberEvent.Revives])
  | call address message events =>
    refine discreet.post address message (fun _ => ?_)
    rw [events]
    trivial

/-- The whole run: what has been heard by its end decides what may have been sent. -/
theorem Moves.discreet {self : NodeInfo} (moves : Moves before after) (discreet : before.Discreet id)
    (owned : before.Owned self)
    (harmless : id = self.nodeId → ∀ hearing ∈ after.heard, hearing.Harmless) :
    after.Discreet id ∧ after.Owned self := by
  induction moves with
  | refl => exact ⟨discreet, owned⟩
  | tail _ move ih =>
    obtain ⟨soFar, ours⟩ := ih (fun own hearing member => harmless own hearing (move.heard member))
    exact ⟨move.discreet soFar (by rwa [ours.node]), move.owned ours⟩

theorem run_discreet (self : NodeInfo) (virtualNodes : Int) (config : GossipConfig)
    (named : isValidNodeId self.nodeId = true) (turns : List GossipTurn)
    (harmless : id = self.nodeId →
      ∀ hearing ∈ ((begin (.start self virtualNodes config named)).run turns).heard, hearing.Harmless) :
    ((begin (.start self virtualNodes config named)).run turns).Discreet id ∧
      ((begin (.start self virtualNodes config named)).run turns).Owned self :=
  (run_moves _ turns).discreet ⟨Swim.orderly_start self id, fun _ sent => absurd sent List.not_mem_nil⟩
    ⟨rfl, fun _ sent => absurd sent List.not_mem_nil⟩ harmless

end Session

/-- The member is neither alive nor suspect. -/
def Record.Down (record : Record) : Prop := ∀ entry, record = some entry → entry.state = .dead ∨ entry.state = .left

namespace MemberEvent

variable {event : MemberEvent} {id : Bytes} {record : Record}

/-- Nothing but news that it is up brings a member up. -/
theorem down_of_update (now : Int) (quiet : ¬ event.Revives id) (about : event.nodeId = id) (down : record.Down)
    (accepted : event.accepts record = true) : Record.Down (some (event.update now record)) := by
  rintro _ ⟨⟩
  cases record with
  | none => cases type : event.type <;> simp_all [accepts, update, entryState, Revives]
  | some entry =>
    have state := down entry rfl
    cases type : event.type <;> rcases state with state | state <;> simp_all [accepts, update, Revives]

end MemberEvent

namespace GossipNode

variable {node : GossipNode} {event : MemberEvent} {id : Bytes}

/-- Whoever does not hold the member up, and takes a list that buries it, still does not;
nor does one that holds it up if the list has a leave. -/
theorem applyEvents_down (events : List MemberEvent) (times : List Int) (other : id ≠ node.swim.self.nodeId)
    (valid : isValidNodeId id = true) (buries : Buries id events)
    (down : Record.Down node.swim.members[id]? ∨ ∃ event ∈ events, event.Leaves id) :
    Record.Down (node.applyEvents events times).swim.members[id]? := by
  induction events generalizing node times with
  | nil => simpa [applyEvents] using down
  | cons event rest ih =>
    have self : id ≠ (node.ingest event (times.headD 0)).swim.self.nodeId := by rwa [node.self_ingest]
    refine ih times.tail self buries.2 ?_
    by_cases leaves : ∃ later ∈ rest, later.Leaves id
    · exact .inr leaves
    left
    have quiet : ¬ event.Revives id := fun revives => leaves (buries.1 revives)
    rw [lookup_ingest _ other valid]
    split
    · rename_i taken
      by_cases leaving : event.Leaves id
      · rintro _ ⟨⟩
        cases found : node.swim.members[id]? <;> simp [MemberEvent.update, MemberEvent.entryState, leaving.2]
      · refine MemberEvent.down_of_update _ quiet taken.1 (down.resolve_right ?_) taken.2
        rintro ⟨later, member, gone⟩
        rcases List.mem_cons.mp member with rfl | member
        · exact leaving gone
        · exact leaves ⟨later, member, gone⟩
    · rename_i refused
      rcases down with down | ⟨later, member, gone⟩
      · exact down
      · rcases List.mem_cons.mp member with rfl | member
        · intro entry found
          rw [found] at refused
          have taken : later.accepts (some entry) ≠ true := fun accepted => refused ⟨gone.1, accepted⟩
          right
          simpa [MemberEvent.accepts, gone.2] using taken
        · exact absurd ⟨later, member, gone⟩ leaves

end GossipNode

namespace Session

/-- No list of events that a node sends while it holds a member as left brings that member
up anywhere else. -/
theorem departed_never_spread (self : NodeInfo) (virtualNodes : Int) (config : GossipConfig)
    (named : isValidNodeId self.nodeId = true) (turns : List GossipTurn) (sending : Sending)
    (sent : sending ∈ ((begin (.start self virtualNodes config named)).run turns).sent) (id : Bytes)
    (other : id ≠ self.nodeId) (left : sending.node.swim.stateOf id = some .left) (receiver : GossipNode)
    (elsewhere : id ≠ receiver.swim.self.nodeId) (unknown : receiver.swim.members[id]? = none) (times : List Int) :
    (receiver.applyEvents sending.message.events times).swim.isAlive id = false := by
  have discreet := (run_discreet self virtualNodes config named turns (fun own => absurd own other)).1
  have buries := discreet.lists sending sent left
  unfold Swim.isAlive
  split
  · rfl
  · rename_i entry found
    have valid := (receiver.applyEvents sending.message.events times).valid id entry found
    have down := GossipNode.applyEvents_down sending.message.events times elsewhere valid buries
      (.inl (by simp [Record.Down, unknown])) entry found
    rcases down with state | state <;> simp [state]

/-- What a message brings to a node. -/
def arrival (message : Message) : GossipTurn := { call := .handleMessage message.payload }

/-- A node hears that `b` is up, retires it on an operator's word, and is pinged. -/
def retiring : List GossipTurn :=
  [arrival (.ping [99] [97] [{ nodeId := [98], host := [104], port := 2, incarnation := 1 }]),
    { call := .requestLeave [98] }, arrival (.ping [99] [97] [])]

theorem departed_never_spread_queued :
    ∃ sending ∈ ((begin (.start ⟨[97], [104], 1⟩ 2 {} (by decide))).run retiring).sent,
      sending.node.swim.stateOf [98] = some .left ∧
      sending.message.events = [{ nodeId := [98], host := [104], port := 2, incarnation := 1 },
        { type := .leave, nodeId := [98], incarnation := 1 }] ∧
      ((GossipNode.start ⟨[100], [104], 4⟩ 2 {} (by decide)).applyEvents sending.message.events []).swim.isAlive [98] =
        false := by
  have sends : ∃ sending ∈ ((begin (.start ⟨[97], [104], 1⟩ 2 {} (by decide))).run retiring).sent,
      sending.node.swim.stateOf [98] = some .left ∧
      sending.message.events = [{ nodeId := [98], host := [104], port := 2, incarnation := 1 },
        { type := .leave, nodeId := [98], incarnation := 1 }] := by decide +kernel
  obtain ⟨sending, sent, left, events⟩ := sends
  exact ⟨sending, sent, left, events, departed_never_spread ⟨[97], [104], 1⟩ 2 {} (by decide) retiring sending sent [98]
    (by decide) left (.start ⟨[100], [104], 4⟩ 2 {} (by decide)) (by decide) (by decide) []⟩

/-- A retired node that hears nothing to speak up against never again says that it is up
without saying later in the same list that it has left. -/
theorem retired_stays_silent (self : NodeInfo) (virtualNodes : Int) (config : GossipConfig)
    (named : isValidNodeId self.nodeId = true) (turns : List GossipTurn)
    (harmless : ∀ hearing ∈ ((begin (.start self virtualNodes config named)).run turns).heard, hearing.Harmless)
    (sending : Sending) (sent : sending ∈ ((begin (.start self virtualNodes config named)).run turns).sent)
    (retired : sending.node.swim.hasLeft = true) : Buries self.nodeId sending.message.events := by
  obtain ⟨discreet, owned⟩ := run_discreet self virtualNodes config named turns (fun _ => harmless)
  refine discreet.lists sending sent ?_
  have gone : sending.node.swim.selfLeft = true := retired
  rw [Swim.stateOf, owned.sent sending sent, if_pos rfl, gone, if_pos rfl]

/-- A node hears an accusation and answers it, retires, hears of a newcomer and is pinged
again. -/
def retirement : List GossipTurn :=
  [arrival (.ping [99] [97] [{ type := .suspect, nodeId := [97] }]), { call := .requestLeave [97] },
    arrival (.ping [99] [97] [{ nodeId := [98], host := [104], port := 2, incarnation := 1 }])]

theorem retired_stays_silent_pinged :
    ∃ sending ∈ ((begin (.start ⟨[97], [104], 1⟩ 2 {} (by decide))).run retirement).sent,
      sending.node.swim.hasLeft = true ∧
      { nodeId := [97], host := [104], port := 1, incarnation := 1 } ∈ sending.message.events ∧
      Buries [97] sending.message.events := by
  have sends : ∃ sending ∈ ((begin (.start ⟨[97], [104], 1⟩ 2 {} (by decide))).run retirement).sent,
      sending.node.swim.hasLeft = true ∧
      { nodeId := [97], host := [104], port := 1, incarnation := 1 } ∈ sending.message.events := by
    decide +kernel
  obtain ⟨sending, sent, retired, told⟩ := sends
  exact ⟨sending, sent, retired, told, retired_stays_silent ⟨[97], [104], 1⟩ 2 {} (by decide) retirement
    (by decide +kernel) sending sent retired⟩

/-- A retired node that is suspected answers the next ping with `Leave`, then `Alive`; and it
acks a join request with a list that has itself alive. -/
theorem retired_speaks_up :
    (∃ sending ∈ ((begin (.start ⟨[97], [104], 1⟩ 2 {} (by decide))).run
        [{ call := .requestLeave [97] }, arrival (.ping [99] [97] [{ type := .suspect, nodeId := [97] }])]).sent,
      sending.node.swim.hasLeft = true ∧ ¬ Buries [97] sending.message.events) ∧
    ∃ sending ∈ ((begin (.start ⟨[97], [104], 1⟩ 2 {} (by decide))).run
        [{ call := .requestLeave [97] }, arrival (.join [98] [104] 2 0)]).sent,
      sending.node.swim.hasLeft = true ∧ ¬ Buries [97] sending.message.events := by
  decide +kernel

end Session

end MiniDynamo
