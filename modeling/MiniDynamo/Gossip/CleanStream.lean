import MiniDynamo.Gossip.Moves
import MiniDynamo.Gossip.Sync

/-! The events a node sends arrive as they were meant: none of their fields holds a delimiter. Ids
are checked wherever they enter, and the hosts of relayed events come out of a text that was cut at
the delimiters; the host of a join request is neither. -/

namespace MiniDynamo

theorem MemberEvent.portable_of_valid {event : MemberEvent} (named : event.type.Named)
    (valid : isValidNodeId event.nodeId = true) (plain : PlainHost event.host) : event.Portable where
  named := named
  nodeId := ⟨not_mem_of_isValidNodeId valid (by decide), not_mem_of_isValidNodeId valid (by decide)⟩
  host := ⟨plain.1, plain.2.1⟩
  pipes := ⟨not_mem_of_isValidNodeId valid (by decide), plain.2.2⟩

theorem MemberEvent.named_of_accepts {event : MemberEvent} {record : Record} (accepted : event.accepts record = true) :
    event.type.Named := by
  cases type : event.type with
  | other byte => cases record <;> simp [accepts, type] at accepted
  | _ => trivial

theorem MemberEvent.plain_readdress {event : MemberEvent} {info : NodeInfo} (plain : PlainHost event.host)
    (before : PlainHost info.host) : PlainHost (event.readdress info).host := by
  unfold readdress
  split
  · exact before
  · exact plain

theorem MemberEvent.plain_update {event : MemberEvent} {record : Record} (plain : PlainHost event.host)
    (before : ∀ entry ∈ record, PlainHost entry.info.host) (now : Int) :
    PlainHost (event.update now record).info.host := by
  cases record with
  | none => exact plain
  | some entry =>
    have old := before entry rfl
    cases type : event.type with
    | suspect | dead | leave => simpa [update, type] using old
    | join | alive | other => simpa [update, type] using plain_readdress plain old

theorem MemberEvent.plain_joined {event : MemberEvent} {record : Record} (plain : PlainHost event.host)
    (before : ∀ entry ∈ record, PlainHost entry.info.host) : PlainHost (event.joined record).info.host := by
  cases record with
  | none => exact plain
  | some entry => exact plain_readdress plain (before entry rfl)

theorem StateClass.named_eventType (kind : StateClass) : kind.eventType.Named := by
  cases kind <;> trivial

namespace Swim

variable {swim : Swim} {event : MemberEvent}

/-- The ids on record are valid and the hosts plain, and what is queued can be sent. -/
structure Spotless (swim : Swim) : Prop where
  named : isValidNodeId swim.self.nodeId = true
  host : PlainHost swim.self.host
  members : ∀ (id : Bytes) (entry : MemberEntry), swim.members[id]? = some entry →
    isValidNodeId id = true ∧ PlainHost entry.info.host
  queue : ∀ waiting ∈ swim.pending, waiting.event.Portable

namespace Spotless

theorem tell (spotless : swim.Spotless) (portable : event.Portable) : (swim.enqueueEvent event).Spotless where
  named := spotless.named
  host := spotless.host
  members := spotless.members
  queue waiting member := by
    rcases List.mem_append.mp member with before | last
    · exact spotless.queue waiting before
    · rw [List.mem_singleton.mp last]
      exact portable

/-- The node says something of itself. -/
theorem own (spotless : swim.Spotless) (named : event.type.Named) (id : event.nodeId = swim.self.nodeId)
    (host : event.host = swim.self.host) : event.Portable :=
  MemberEvent.portable_of_valid named (id ▸ spotless.named) (host ▸ spotless.host)

theorem record (spotless : swim.Spotless) {entry : MemberEntry} (other : entry.info.nodeId ≠ swim.self.nodeId)
    (valid : isValidNodeId entry.info.nodeId = true) (plain : PlainHost entry.info.host) :
    (swim.record entry other).Spotless where
  named := spotless.named
  host := spotless.host
  members id found known := by
    rw [Swim.record, OrderedMap.lookup_insert] at known
    split at known
    · rename_i same
      obtain rfl := Option.some.inj known
      exact ⟨same ▸ valid, plain⟩
    · exact spotless.members id found known
  queue := spotless.queue

/-- The record of a member changes, but not its address, and everyone is told. -/
theorem announce (spotless : swim.Spotless) {id : Bytes} {entry changed : MemberEntry}
    (found : swim.members[id]? = some entry) (same : changed.info = entry.info) {type : EventType}
    (named : type.Named) (incarnation : UInt64) :
    ((swim.amend found changed (by rw [same])).enqueueEvent { type, nodeId := id, incarnation }).Spotless := by
  obtain ⟨valid, plain⟩ := spotless.members id entry found
  have amended : (swim.amend found changed (by rw [same])).Spotless := by
    refine spotless.record _ ?_ (by rwa [same])
    rwa [same, swim.keyed _ _ found]
  exact amended.tell (MemberEvent.portable_of_valid named valid plainHost_nil)

theorem applyEvent (spotless : swim.Spotless) (valid : isValidNodeId event.nodeId = true)
    (plain : PlainHost event.host) (now : Int) : (swim.applyEvent event now).swim.Spotless := by
  by_cases own : event.nodeId = swim.self.nodeId
  · rw [Swim.applyEvent, dif_pos own]
    have retired : Spotless { swim with selfLeft := true } :=
      ⟨spotless.named, spotless.host, spotless.members, spotless.queue⟩
    have refuted : Spotless { swim with incarnation := event.incarnation + 1 } :=
      ⟨spotless.named, spotless.host, spotless.members, spotless.queue⟩
    unfold applySelfEvent
    split
    · split
      · exact spotless
      · exact retired
    · split
      · exact spotless
      · exact refuted.tell (spotless.own trivial rfl rfl)
    · split
      · exact spotless
      · exact refuted.tell (spotless.own trivial rfl rfl)
    · exact spotless
  · obtain ⟨self, -, -, pending⟩ := applyEvent_own now own
    refine ⟨self ▸ spotless.named, self ▸ spotless.host, fun id entry found => ?_, pending ▸ spotless.queue⟩
    rw [lookup_applyEvent now own] at found
    split at found
    · rename_i taken
      obtain ⟨rfl, accepted⟩ := taken
      obtain rfl := Option.some.inj found
      exact ⟨valid, MemberEvent.plain_update plain (fun entry known => (spotless.members _ entry known).2) now⟩
    · exact spotless.members id entry found

/-- An event that changes the view is one of the five the program names. -/
theorem named_of_applied {now : Int} (applied : (swim.applyEvent event now).result = true) : event.type.Named := by
  by_cases own : event.nodeId = swim.self.nodeId
  · rw [Swim.applyEvent, dif_pos own, applySelfEvent] at applied
    cases type : event.type with
    | other byte =>
      rw [type] at applied
      cases applied
    | _ => trivial
  · rw [applyEvent_result now own] at applied
    exact MemberEvent.named_of_accepts applied

theorem applyDirectJoin (spotless : swim.Spotless) (valid : isValidNodeId event.nodeId = true)
    (plain : PlainHost event.host) : (swim.applyDirectJoin event).swim.Spotless := by
  by_cases own : event.nodeId = swim.self.nodeId
  · rw [Swim.applyDirectJoin, dif_pos own]
    exact spotless
  · obtain ⟨self, -, -, pending⟩ := swim.applyDirectJoin_own event
    refine ⟨self ▸ spotless.named, self ▸ spotless.host, fun id entry found => ?_, pending ▸ spotless.queue⟩
    rw [lookup_applyDirectJoin own] at found
    split at found
    · rename_i taken
      obtain ⟨rfl, -⟩ := taken
      obtain rfl := Option.some.inj found
      exact ⟨valid, MemberEvent.plain_joined plain (fun entry known => (spotless.members _ entry known).2)⟩
    · exact spotless.members id entry found

theorem bury (spotless : swim.Spotless) {id : Bytes} {entry : MemberEntry} (found : swim.members[id]? = some entry) :
    (swim.bury found).swim.Spotless :=
  spotless.announce found (by rfl) (by trivial) entry.incarnation

theorem expireSuspects (spotless : swim.Spotless) (timeout now : Int) :
    (swim.expireSuspects timeout now).swim.Spotless := by
  have loop : ∀ (ids : List Bytes) (progress : Reaction (List Bytes)), progress.swim.Spotless →
      (ids.foldl (expireSuspect timeout now) progress).swim.Spotless := by
    intro ids
    induction ids with
    | nil => exact fun _ holds => holds
    | cons id rest ih =>
      intro progress holds
      apply ih
      unfold expireSuspect
      split
      · exact holds
      · split
        · exact holds.bury _
        · exact holds
  exact loop _ _ spotless

theorem suspect (spotless : swim.Spotless) (nodeId : Bytes) (now : Int) : (swim.suspect nodeId now).swim.Spotless := by
  unfold Swim.suspect
  split
  · exact spotless
  · rename_i entry found
    split
    · exact spotless
    · exact spotless.announce found (by rfl) (by trivial) entry.incarnation

theorem leave (spotless : swim.Spotless) (nodeId : Bytes) : (swim.leave nodeId).swim.Spotless := by
  unfold Swim.leave
  split
  · rename_i own
    split
    · exact spotless
    · have retired : Spotless { swim with selfLeft := true } :=
        ⟨spotless.named, spotless.host, spotless.members, spotless.queue⟩
      exact retired.tell (MemberEvent.portable_of_valid trivial (own ▸ spotless.named) plainHost_nil)
  · split
    · exact spotless
    · rename_i entry found
      split
      · exact spotless
      · exact spotless.announce found (by rfl) (by trivial) entry.incarnation

theorem drain (spotless : swim.Spotless) : swim.getEventsToSend.swim.Spotless where
  named := spotless.named
  host := spotless.host
  members := spotless.members
  queue waiting member := by
    obtain ⟨before, present, kept⟩ := List.mem_filterMap.mp member
    split at kept
    · cases kept
    · rw [← Option.some.inj kept]
      exact spotless.queue before present

theorem react (spotless : swim.Spotless) {operation : Operation} (own : operation.Own) :
    (operation.react swim).1.Spotless := by
  cases own with
  | suspect nodeId now => exact spotless.suspect nodeId now
  | leave nodeId => exact spotless.leave nodeId
  | expireSuspects timeout now => exact spotless.expireSuspects timeout now

theorem ingest {node : GossipNode} (spotless : node.swim.Spotless) (plain : PlainHost event.host) (now : Int) :
    (node.ingest event now).swim.Spotless := by
  rw [GossipNode.swim_ingest]
  split
  · rename_i valid
    have applied := spotless.applyEvent valid plain now
    split
    · rename_i changed
      exact applied.tell (MemberEvent.portable_of_valid (named_of_applied changed) valid plain)
    · exact applied
  · exact spotless

theorem enroll {node : GossipNode} (spotless : node.swim.Spotless) (checked : isValidNodeId event.nodeId = true)
    (plain : PlainHost event.host) : (node.enroll event checked).2.swim.Spotless := by
  rw [GossipNode.swim_enroll]
  have joined := spotless.applyDirectJoin checked plain
  split
  · exact joined
  · exact joined.tell (MemberEvent.portable_of_valid trivial checked plain)

theorem fullState (spotless : swim.Spotless) : ∀ event ∈ swim.fullState, event.Portable := by
  intro event member
  rcases List.mem_cons.mp member with rfl | listed
  · exact spotless.own (StateClass.named_eventType _) rfl rfl
  · obtain ⟨⟨id, entry⟩, filed, rfl⟩ := List.mem_map.mp listed
    obtain ⟨valid, plain⟩ := spotless.members id entry (OrderedMap.mem_entries.mp filed)
    exact MemberEvent.portable_of_valid (StateClass.named_eventType _) valid plain

theorem joinEvents {node : GossipNode} (spotless : node.swim.Spotless) :
    ∀ event ∈ Session.joinEvents node, event.Portable := by
  intro event member
  rcases List.mem_cons.mp member with rfl | listed
  · exact spotless.own trivial rfl rfl
  · obtain ⟨entry, shown, rfl⟩ := List.mem_map.mp listed
    obtain ⟨⟨id, _⟩, filed, rfl⟩ := List.mem_map.mp (List.mem_of_mem_filter shown)
    have found := OrderedMap.mem_entries.mp filed
    obtain ⟨valid, plain⟩ := spotless.members id _ found
    refine MemberEvent.portable_of_valid trivial ?_ plain
    rwa [node.swim.keyed _ _ found]

end Spotless

end Swim

namespace Session

variable {session : Session}

/-- So is the view, and all that has been sent could be sent. -/
structure Spotless (session : Session) : Prop where
  view : session.node.swim.Spotless
  sent : ∀ sending ∈ session.sent, ∀ event ∈ sending.message.events, event.Portable

theorem Spotless.post (spotless : session.Spotless) (address : Option (Bytes × UInt16)) {message : Message}
    (portable : ∀ event ∈ message.events, event.Portable) : (session.post address message).Spotless where
  view := spotless.view
  sent sending member := by
    rcases List.mem_append.mp member with before | last
    · exact spotless.sent sending before
    · rw [List.mem_singleton.mp last]
      exact portable

theorem spotless_rule :
    Rule (fun host => colon ∉ host ∧ semicolon ∉ host) (fun before after => before.Spotless → after.Spotless) where
  refl _ spotless := spotless
  trans first second spotless := second (first spotless)
  book thread _ sent spotless := ⟨by rw [thread]; exact spotless.view, by rw [sent]; exact spotless.sent⟩
  ingest _ _ now plain spotless := ⟨spotless.view.ingest plain now, spotless.sent⟩
  enroll _ _ checked allowed whole spotless :=
    ⟨spotless.view.enroll checked ⟨allowed.1, allowed.2, whole⟩, spotless.sent⟩
  own _ _ own _ spotless := ⟨spotless.view.react own, spotless.sent⟩
  piggyback session address message events spotless := by
    have drained : (session.act .getEventsToSend rfl).Spotless := ⟨spotless.view.drain, spotless.sent⟩
    refine drained.post address (fun event member => ?_)
    rw [events] at member
    obtain ⟨waiting, queued, rfl⟩ := List.mem_map.mp member
    exact spotless.view.queue waiting queued
  sync _ address _ events spotless := spotless.post address (by rw [events]; exact spotless.view.fullState)
  welcome _ address _ events _ _ _ _ _ spotless :=
    spotless.post address (by rw [events]; exact spotless.view.joinEvents)
  refuse _ address _ id valid events spotless := by
    refine spotless.post address (fun event member => ?_)
    rw [events] at member
    rw [List.mem_singleton.mp member]
    exact MemberEvent.portable_of_valid trivial valid plainHost_nil
  call _ address _ events spotless := spotless.post address (by simp [events])

theorem spotless_begin {self : NodeInfo} {named : isValidNodeId self.nodeId = true} (host : PlainHost self.host)
    (virtualNodes : Int) (config : GossipConfig) : (begin (.start self virtualNodes config named)).Spotless := by
  refine ⟨⟨named, host, fun id entry found => ?_, fun _ waiting => ?_⟩, fun _ before => ?_⟩
  · simp [begin, GossipNode.start, GossipThread.start, Swim.start] at found
  · exact absurd waiting List.not_mem_nil
  · exact absurd before List.not_mem_nil

/-- If no join request has a host with a delimiter, then peers read from every list of events that
a node sends just these events, and the list is one field of its message. -/
theorem stream_intact (self : NodeInfo) (virtualNodes : Int) (config : GossipConfig)
    (named : isValidNodeId self.nodeId = true) (host : PlainHost self.host) (turns : List GossipTurn)
    (joins : ∀ turn ∈ turns, turn.JoinsFrom (fun host => colon ∉ host ∧ semicolon ∉ host)) (sending : Sending)
    (sent : sending ∈ ((begin (.start self virtualNodes config named)).run turns).sent) :
    deserializeEvents (serializeEvents sending.message.events) = sending.message.events ∧
      pipe ∉ serializeEvents sending.message.events := by
  have portable := (spotless_rule.run _ joins (spotless_begin host virtualNodes config)).sent sending sent
  exact ⟨deserializeEvents_serializeEvents (fun event member => (portable event member).toClean),
    pipe_not_mem_serializeEvents portable⟩

/-- A member joins, and a ping brings news of another. -/
def wellFormed : List GossipTurn :=
  [{ call := .handleMessage (ascii "SWIM_JOIN|b|h|5000|0|") },
    { call := .handleMessage (ascii "SWIM_PING|b|a|A:c:h:5001:7") }]

theorem stream_intact_wellFormed :
    ∃ sending ∈ ((begin (.start ⟨ascii "a", ascii "h", 1⟩ 2 {} (by decide))).run wellFormed).sent,
      ⟨.alive, ascii "c", ascii "h", 5001, 7⟩ ∈ sending.message.events ∧
      deserializeEvents (serializeEvents sending.message.events) = sending.message.events ∧
      pipe ∉ serializeEvents sending.message.events := by
  have sends : ∃ sending ∈ ((begin (.start ⟨ascii "a", ascii "h", 1⟩ 2 {} (by decide))).run wellFormed).sent,
      ⟨.alive, ascii "c", ascii "h", 5001, 7⟩ ∈ sending.message.events := by decide +kernel
  obtain ⟨sending, sent, told⟩ := sends
  exact ⟨sending, sent, told, stream_intact ⟨ascii "a", ascii "h", 1⟩ 2 {} (by decide) (by decide) wellFormed
    (by decide +kernel) sending sent⟩

/-- The welcome of a member that joins from an IPv6 address reads as something else, and that of
one whose host holds a semicolon reads as the departure of a third. -/
theorem join_host_corrupts_stream :
    (∃ sending ∈ ((begin (.start ⟨ascii "a", ascii "h", 1⟩ 2 {} (by decide))).run
        [{ call := .handleMessage (ascii "SWIM_JOIN|b|::1|5000|0|") }]).sent,
      deserializeEvents (serializeEvents sending.message.events) ≠ sending.message.events) ∧
    ∃ sending ∈ ((begin (.start ⟨ascii "a", ascii "h", 1⟩ 2 {} (by decide))).run
        [{ call := .handleMessage (ascii "SWIM_JOIN|b|h;L:c::0:0|5000|0|") }]).sent,
      (∀ event ∈ sending.message.events, event.type ≠ .leave) ∧
      ∃ event ∈ deserializeEvents (serializeEvents sending.message.events), event.Leaves (ascii "c") := by
  decide +kernel

end Session

end MiniDynamo
