import MiniDynamo.Gossip.Handlers
import MiniDynamo.Gossip.Standing

/-! The push-pull exchange of full states, as events and as the messages that carry them,
and the digest that calls for it. -/

namespace MiniDynamo

namespace Standing

/-- What the digest counts of a report. -/
def count (report : StateClass × UInt64) : StateClass × UInt64 :=
  (report.1, if report.1 = .alive then report.2 else 0)

theorem count_of_agree {one other : Standing} (agree : Agree one other) : one.map count = other.map count := by
  obtain ⟨⟨mineClass, mine⟩, ⟨theirClass, theirs⟩, rfl, rfl, classes, incarnations⟩ := agree
  obtain rfl : mineClass = theirClass := classes
  by_cases alive : mineClass = .alive
  · obtain rfl : mine = theirs := incarnations alive
    rfl
  · simp [count, alive]

end Standing

namespace Swim

variable {one other : Swim}

/-- What the digest counts of a view, node by node. -/
def counts (swim : Swim) : List (Bytes × StateClass × UInt64) :=
  (swim.self.nodeId, Standing.count swim.own) :: swim.members.toList.map
    (fun member => (member.1, Standing.count (member.2.state.stateClass, member.2.incarnation)))

theorem mem_counts {swim : Swim} {id : Bytes} {report : StateClass × UInt64} :
    (id, report) ∈ swim.counts ↔ (swim.standing id).map Standing.count = some report := by
  rw [counts, List.mem_cons]
  by_cases self : id = swim.self.nodeId
  · subst self
    rw [standing_self, Option.map_some, Option.some.injEq]
    constructor
    · rintro (same | listed)
      · exact (congrArg Prod.snd same).symm
      · obtain ⟨member, filed, same⟩ := List.mem_map.mp listed
        exact absurd (List.mem_map.mpr ⟨member, filed, (Prod.mk.inj same).1⟩) swim.self_not_listed
    · rintro rfl
      exact .inl rfl
  · have peer : (id, report) ≠ (swim.self.nodeId, Standing.count swim.own) := fun same => self (congrArg Prod.fst same)
    rw [standing_peer self, or_iff_right peer, List.mem_map, Record.standing, Option.map_map, Option.map_eq_some_iff]
    constructor
    · rintro ⟨⟨place, entry⟩, filed, same⟩
      obtain ⟨rfl, rfl⟩ := Prod.mk.inj same
      exact ⟨entry, OrderedMap.mem_entries.mp filed, rfl⟩
    · rintro ⟨entry, found, rfl⟩
      exact ⟨(id, entry), OrderedMap.mem_entries.mpr found, rfl⟩

theorem counts_nodup (swim : Swim) : swim.counts.Nodup := by
  refine List.Nodup.of_map Prod.fst ?_
  rw [counts, List.map_cons, List.map_map, List.nodup_cons]
  exact ⟨swim.self_not_listed, OrderedMap.entries_keys_nodup⟩

theorem digest_eq_fold (swim : Swim) :
    swim.digest = swim.counts.foldl (fun h node => h ^^^ entryDigest node.1 node.2.1 node.2.2) 0 := by
  have own : entryDigest swim.self.nodeId swim.selfClass (if swim.selfLeft then 0 else swim.incarnation) =
      0 ^^^ entryDigest swim.self.nodeId (Standing.count swim.own).1 (Standing.count swim.own).2 := by
    rw [UInt64.zero_xor]
    cases left : swim.selfLeft <;> simp [Standing.count, Swim.own, selfClass, left]
  rw [counts, List.foldl_cons, List.foldl_map, ← own]
  rfl

/-- The digest does not depend on which of the nodes is oneself. -/
theorem digest_eq_of_counts
    (same : ∀ id, (one.standing id).map Standing.count = (other.standing id).map Standing.count) :
    one.digest = other.digest := by
  have perm : one.counts.Perm other.counts := by
    refine (List.perm_ext_iff_of_nodup one.counts_nodup other.counts_nodup).mpr ?_
    rintro ⟨id, report⟩
    rw [mem_counts, mem_counts, same id]
  rw [digest_eq_fold, digest_eq_fold]
  refine perm.foldl_eq' ?_ 0
  intro first _ second _ h
  rw [UInt64.xor_assoc, UInt64.xor_comm (entryDigest _ _ _), ← UInt64.xor_assoc]

end Swim

namespace GossipNode

/-- A `SWIM_SYNC` and its ack: the responder applies what the initiator knows and answers
with what it then knows itself. The clocks of both are given. -/
def exchange (initiator responder : GossipNode) (asked answered : List Int) : GossipNode × GossipNode :=
  let responder := responder.applyEvents initiator.swim.fullState asked
  (initiator.applyEvents responder.swim.fullState answered, responder)

variable {initiator responder : GossipNode} {id : Bytes}

theorem self_exchange (initiator responder : GossipNode) (asked answered : List Int) :
    (initiator.exchange responder asked answered).1.swim.self = initiator.swim.self ∧
      (initiator.exchange responder asked answered).2.swim.self = responder.swim.self :=
  ⟨self_applyEvents _ _ _, self_applyEvents _ _ _⟩

/-- What is held of a third node: the responder takes it first, then the initiator. -/
theorem standing_exchange (asked answered : List Int) (here : id ≠ initiator.swim.self.nodeId)
    (there : id ≠ responder.swim.self.nodeId) :
    (initiator.exchange responder asked answered).1.swim.standing id =
      Standing.push (Standing.push (initiator.swim.standing id) (responder.swim.standing id))
        (initiator.swim.standing id) ∧
    (initiator.exchange responder asked answered).2.swim.standing id =
      Standing.push (initiator.swim.standing id) (responder.swim.standing id) := by
  have pushed := standing_fullState responder initiator asked id
  rw [if_neg there] at pushed
  refine ⟨?_, pushed⟩
  rw [exchange, standing_fullState, if_neg here, pushed]

/-- After an exchange both sides count the same of every third node. -/
theorem counts_exchange (asked answered : List Int) (here : id ≠ initiator.swim.self.nodeId)
    (there : id ≠ responder.swim.self.nodeId) :
    ((initiator.exchange responder asked answered).1.swim.standing id).map Standing.count =
      ((initiator.exchange responder asked answered).2.swim.standing id).map Standing.count := by
  obtain ⟨first, second⟩ := standing_exchange asked answered here there
  rw [first, second]
  by_cases unknown : initiator.swim.standing id = none ∧ responder.swim.standing id = none
  · rw [unknown.1, unknown.2]
    rfl
  · exact Standing.count_of_agree (Standing.agree_of_exchange (not_and_or.mp unknown))

/-- One exchange settles every third node that either side knows: both hold it, in one class
and, if that is alive, at one incarnation. -/
theorem sync_settles_others (initiator responder : GossipNode) (asked answered : List Int) (id : Bytes)
    (here : id ≠ initiator.swim.self.nodeId) (there : id ≠ responder.swim.self.nodeId)
    (known : initiator.swim.members[id]? ≠ none ∨ responder.swim.members[id]? ≠ none) :
    ∃ mine theirs, (initiator.exchange responder asked answered).1.swim.members[id]? = some mine ∧
      (initiator.exchange responder asked answered).2.swim.members[id]? = some theirs ∧
      mine.state.stateClass = theirs.state.stateClass ∧
      (mine.state.stateClass = .alive → mine.incarnation = theirs.incarnation) := by
  obtain ⟨first, second⟩ := standing_exchange asked answered here there
  have either : initiator.swim.standing id ≠ none ∨ responder.swim.standing id ≠ none := by
    simpa [Swim.standing_peer here, Swim.standing_peer there, Record.standing] using known
  have agree := Standing.agree_of_exchange either
  obtain ⟨selfFirst, selfSecond⟩ := self_exchange initiator responder asked answered
  rw [← first, ← second, Swim.standing_peer (by rwa [selfFirst]), Swim.standing_peer (by rwa [selfSecond])] at agree
  obtain ⟨mine, theirs, foundMine, foundTheirs, classes, incarnations⟩ := agree
  obtain ⟨entry, mineFound, rfl⟩ := Option.map_eq_some_iff.mp foundMine
  obtain ⟨other, theirsFound, rfl⟩ := Option.map_eq_some_iff.mp foundTheirs
  exact ⟨entry, other, mineFound, theirsFound, classes, incarnations⟩

theorem valid_a : isValidNodeId [97] = true := by decide

theorem valid_b : isValidNodeId [98] = true := by decide

/-- Node `a` has heard that `x` is up. -/
def hopeful : GossipNode :=
  (start ⟨[97], [104], 1⟩ 2 {} valid_a).applyEvents [{ nodeId := [120], incarnation := 2 }] []

/-- Node `b` has heard that `x` is dead. -/
def mournful : GossipNode :=
  (start ⟨[98], [104], 2⟩ 2 {} valid_b).applyEvents [{ type := .dead, nodeId := [120], incarnation := 2 }] []

theorem sync_settles_others_dead :
    ∃ mine theirs : MemberEntry, (hopeful.exchange mournful [] []).1.swim.members[([120] : Bytes)]? = some mine ∧
      (hopeful.exchange mournful [] []).2.swim.members[([120] : Bytes)]? = some theirs ∧
      mine.state.stateClass = theirs.state.stateClass ∧
      (mine.state.stateClass = .alive → mine.incarnation = theirs.incarnation) :=
  sync_settles_others hopeful mournful [] [] [120] (by decide +kernel) (by decide +kernel) (by decide +kernel)

end GossipNode

namespace MemberEvent

/-- The event survives its way through a message: it holds none of the delimiters. -/
structure Portable (event : MemberEvent) : Prop extends event.Clean where
  pipes : pipe ∉ event.nodeId ∧ pipe ∉ event.host

theorem pipe_not_mem_serialize {event : MemberEvent} (portable : event.Portable) : pipe ∉ event.serialize := by
  obtain ⟨type, nodeId, host, port, incarnation⟩ := event
  have kind : pipe ≠ type.toByte := by
    cases type with
    | other byte => exact portable.named.elim
    | _ => decide
  have digits (value : Nat) : pipe ∉ decimal value := decimal_clean (by decide)
  have delimiter : pipe ≠ colon := by decide
  simp [serialize, kind, delimiter, portable.pipes.1, portable.pipes.2, digits]

end MemberEvent

theorem pipe_not_mem_serializeEvents {events : List MemberEvent} (portable : ∀ event ∈ events, event.Portable) :
    pipe ∉ serializeEvents events := by
  induction events with
  | nil => simp [serializeEvents]
  | cons first rest ih =>
    have here := MemberEvent.pipe_not_mem_serialize (portable first (List.mem_cons_self ..))
    have later := ih (fun event member => portable event (List.mem_cons_of_mem _ member))
    have delimiter : pipe ≠ semicolon := by decide
    cases rest with
    | nil => simpa [serializeEvents] using here
    | cons second more => simpa [serializeEvents, List.intercalate_cons_cons, here, delimiter] using later

/-- The three fields of a sync message and of its ack. -/
theorem split_three {kind sender events : Bytes} (kinds : pipe ∉ kind) (senders : pipe ∉ sender)
    (rest : pipe ∉ events) :
    split (kind ++ pipe :: (sender ++ pipe :: events)) pipe = [kind, sender, events] := by
  rw [split, List.splitOn_append_cons_self_of_not_mem kinds, List.splitOn_append_cons_self_of_not_mem senders,
    List.splitOn_eq_singleton rest]

theorem Message.split_sync {sender : Bytes} {events : List MemberEvent} (named : pipe ∉ sender)
    (portable : ∀ event ∈ events, event.Portable) :
    split (Message.sync sender events).payload pipe = [ascii "SWIM_SYNC", sender, serializeEvents events] := by
  have kind : ascii "SWIM_SYNC|" = ascii "SWIM_SYNC" ++ [pipe] := by decide
  have bar : ascii "|" = [pipe] := by decide
  rw [← split_three (by decide) named (pipe_not_mem_serializeEvents portable)]
  simp [payload, kind, bar]

theorem Message.split_syncAck {sender : Bytes} {events : List MemberEvent} (named : pipe ∉ sender)
    (portable : ∀ event ∈ events, event.Portable) :
    split (Message.syncAck sender events).payload pipe = [ascii "SWIM_SYNC_ACK", sender, serializeEvents events] := by
  have kind : ascii "SWIM_SYNC_ACK|" = ascii "SWIM_SYNC_ACK" ++ [pipe] := by decide
  have bar : ascii "|" = [pipe] := by decide
  rw [← split_three (by decide) named (pipe_not_mem_serializeEvents portable)]
  simp [payload, kind, bar]

namespace Session

theorem applyIncomingEvents_serializeEvents (session : Session) {events : List MemberEvent}
    (portable : ∀ event ∈ events, event.Portable) :
    (session.applyIncomingEvents (serializeEvents events)).node = session.node.applyEvents events session.times := by
  have read := deserializeEvents_serializeEvents (fun event member => (portable event member).toClean)
  by_cases empty : serializeEvents events = []
  · rw [empty] at read
    rw [applyIncomingEvents, if_pos empty, ← read]
    rfl
  · rw [applyIncomingEvents, if_neg empty, read]

theorem handleMessage_sync (session : Session) {sender : Bytes} {events : List MemberEvent} (named : pipe ∉ sender)
    (portable : ∀ event ∈ events, event.Portable) :
    ∃ served, session.handleMessage (Message.sync sender events).payload =
        (some (.syncAck served.selfId served.node.swim.fullState), served) ∧
      served.node = session.node.applyEvents events session.times := by
  refine ⟨session.applyIncomingEvents (serializeEvents events), ?_,
    applyIncomingEvents_serializeEvents session portable⟩
  rw [handleMessage, Message.split_sync named portable]
  rfl

theorem performSync_answered (session : Session) (peer : NodeInfo) {sender : Bytes} {events : List MemberEvent}
    {more : List Bytes} (answers : session.answers = (Message.syncAck sender events).payload :: more)
    (named : pipe ∉ sender) (portable : ∀ event ∈ events, event.Portable) :
    (session.performSync peer).sent = session.sent ++
        [⟨session.node, some (peer.host, peer.port), .sync session.selfId session.node.swim.fullState⟩] ∧
      (session.performSync peer).node = session.node.applyEvents events session.times := by
  have spoken : (Message.syncAck sender events).payload ≠ [] := by simp [Message.payload, ascii]
  have applied : session.performSync peer = ({ session.post (some (peer.host, peer.port))
      (.sync session.selfId session.node.swim.fullState) with answers := more }).applyIncomingEvents
        (serializeEvents events) := by
    rw [performSync, sendFn, answers]
    simp only [List.headD_cons, List.tail_cons, spoken, ↓reduceIte, Message.split_syncAck named portable]
    rfl
  rw [applied]
  exact ⟨sent_applyIncomingEvents _ _, applyIncomingEvents_serializeEvents _ portable⟩

/-- The messages of a sync carry the exchange: what `performSync` sends makes the answerer
the responder, and the reply makes the asker the initiator. -/
theorem performSync_exchange (asker answerer : Session) (peer : NodeInfo)
    (mine : ∀ event ∈ asker.node.swim.fullState, event.Portable)
    (theirs : ∀ event ∈ (asker.node.exchange answerer.node answerer.times asker.times).2.swim.fullState,
      event.Portable) :
    ∃ (request reply : Message) (served : Session), answerer.handleMessage request.payload = (some reply, served) ∧
      served.node = (asker.node.exchange answerer.node answerer.times asker.times).2 ∧
      ∀ more, asker.answers = reply.payload :: more →
        (asker.performSync peer).sent = asker.sent ++ [⟨asker.node, some (peer.host, peer.port), request⟩] ∧
        (asker.performSync peer).node = (asker.node.exchange answerer.node answerer.times asker.times).1 := by
  have sender : pipe ∉ asker.selfId := not_mem_of_isValidNodeId asker.node.named (by decide)
  obtain ⟨served, handled, applied⟩ := answerer.handleMessage_sync sender mine
  have responder : pipe ∉ served.selfId := not_mem_of_isValidNodeId served.node.named (by decide)
  have reached : served.node = (asker.node.exchange answerer.node answerer.times asker.times).2 := applied
  rw [← reached] at theirs
  refine ⟨_, _, served, handled, reached, fun more answers => ?_⟩
  obtain ⟨sent, node⟩ := asker.performSync_answered peer answers responder theirs
  refine ⟨sent, node.trans ?_⟩
  rw [reached]
  rfl

/-- An ack with the digest the node has itself calls for no sync. -/
theorem maybeSync_same (session : Session) (peer : NodeInfo) {digest : UInt64}
    (same : digest = session.node.swim.digest) : (session.maybeSync peer (decimal digest.toNat)).sent = session.sent := by
  rw [maybeSync, if_neg (decimal_ne_nil _), stoull_decimal]
  simp only [same, ↓reduceIte]
  rfl

end Session

end MiniDynamo
