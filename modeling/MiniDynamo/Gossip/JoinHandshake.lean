import MiniDynamo.Gossip.CleanStream

/-! The handshake between a node that joins and a seed, as the messages that carry it: what each of the
two holds of the cluster afterwards, and what becomes of a node that the seed holds as left. -/

namespace MiniDynamo

namespace Message

theorem split_join {sender host : Bytes} (named : pipe ∉ sender) (whole : pipe ∉ host) (port : UInt16)
    (incarnation : UInt64) :
    split (Message.join sender host port incarnation).payload pipe =
      [ascii "SWIM_JOIN", sender, host, decimal port.toNat, decimal incarnation.toNat, []] := by
  have kind : ascii "SWIM_JOIN|" = ascii "SWIM_JOIN" ++ [pipe] := by decide
  have bar : ascii "|" = [pipe] := by decide
  have digits (value : Nat) : pipe ∉ decimal value := decimal_clean (by decide)
  have text : (Message.join sender host port incarnation).payload = ascii "SWIM_JOIN" ++ pipe :: (sender ++
      pipe :: (host ++ pipe :: (decimal port.toNat ++ pipe :: (decimal incarnation.toNat ++ pipe :: [])))) := by
    simp [payload, kind, bar]
  rw [text, split, List.splitOn_append_cons_self_of_not_mem (by decide),
    List.splitOn_append_cons_self_of_not_mem named, List.splitOn_append_cons_self_of_not_mem whole,
    List.splitOn_append_cons_self_of_not_mem (digits _), List.splitOn_append_cons_self_of_not_mem (digits _)]
  rfl

theorem split_ack {sender target : Bytes} {events : List MemberEvent} (named : pipe ∉ sender) (about : pipe ∉ target)
    (portable : ∀ event ∈ events, event.Portable) :
    split (Message.ack sender target events none).payload pipe =
      [ascii "SWIM_ACK", sender, target, serializeEvents events] := by
  have kind : ascii "SWIM_ACK|" = ascii "SWIM_ACK" ++ [pipe] := by decide
  have bar : ascii "|" = [pipe] := by decide
  have text : (Message.ack sender target events none).payload = ascii "SWIM_ACK" ++ pipe :: (sender ++
      pipe :: (target ++ pipe :: serializeEvents events)) := by
    simp [payload, kind, bar]
  rw [text, split, List.splitOn_append_cons_self_of_not_mem (by decide),
    List.splitOn_append_cons_self_of_not_mem named, List.splitOn_append_cons_self_of_not_mem about,
    List.splitOn_eq_singleton (pipe_not_mem_serializeEvents portable)]

end Message

namespace GossipNode

variable {node : GossipNode} {id : Bytes}

/-- The request of a node that joins, as the seed takes it. -/
def joinRequest (self : NodeInfo) (incarnation : UInt64) : MemberEvent :=
  ⟨.join, self.nodeId, self.host, self.port, incarnation⟩

/-- What a seed answers a join request with. -/
def welcome (seed : GossipNode) (event : MemberEvent) (checked : isValidNodeId event.nodeId = true) :
    List MemberEvent :=
  match (seed.enroll event checked).1 with
  | none => [{ type := .leave, nodeId := event.nodeId }]
  | some _ => Session.joinEvents (seed.enroll event checked).2

theorem router_ingest (node : GossipNode) {event : MemberEvent} (valid : isValidNodeId event.nodeId = true)
    (now : Int) :
    (node.ingest event now).router =
      (node.swim.applyEvent event now).fired.foldl Router.onMemberChange node.router := by
  rw [ingest, dif_pos valid]
  simp only
  split <;> rfl

/-- The ring has the node itself and all it has on record, at the addresses on record. -/
def Mirrors (node : GossipNode) : Prop :=
  ∀ id, node.router.nodes[id]? =
    if node.swim.self.nodeId = id then some node.swim.self else node.swim.members[id]?.map MemberEntry.info

theorem mirrors_start (self : NodeInfo) (virtualNodes : Int) (config : GossipConfig)
    (named : isValidNodeId self.nodeId = true) : (start self virtualNodes config named).Mirrors := by
  intro id
  refine (Router.lookup_addPhysicalNode (.empty virtualNodes) self id).trans ?_
  simp [Router.empty, start, GossipThread.start, Swim.start]

/-- The news that a member is up says nothing to the member itself. -/
theorem ingest_of_self {event : MemberEvent} (now : Int) (own : event.nodeId = node.swim.self.nodeId)
    (up : event.type = .alive) :
    (node.ingest event now).swim = node.swim ∧ (node.ingest event now).router = node.router := by
  have valid : isValidNodeId event.nodeId = true := own ▸ node.named
  have ignored : node.swim.applyEvent event now = node.swim.unchanged := by
    rw [Swim.applyEvent, dif_pos own, Swim.applySelfEvent, up]
  rw [swim_ingest, router_ingest node valid, if_pos valid, ignored]
  exact ⟨rfl, rfl⟩

/-- A peer nobody has told of comes up. -/
theorem lookup_ingest_new {event : MemberEvent} (now : Int) (peer : event.nodeId ≠ node.swim.self.nodeId)
    (valid : isValidNodeId event.nodeId = true) (up : event.type = .alive)
    (unknown : node.swim.members[event.nodeId]? = none) (id : Bytes) :
    (node.ingest event now).swim.members[id]? =
      if event.nodeId = id then some ⟨event.info, .alive, event.incarnation, 0⟩ else node.swim.members[id]? := by
  have taken : event.accepts none = true := by rw [MemberEvent.accepts, up]
  have left : event.update now none = ⟨event.info, .alive, event.incarnation, 0⟩ := by
    rw [MemberEvent.update, up]
    rfl
  rw [swim_ingest, if_pos valid]
  have heard : (node.swim.applyEvent event now).swim.members[id]? =
      if event.nodeId = id then some ⟨event.info, .alive, event.incarnation, 0⟩ else node.swim.members[id]? := by
    rw [Swim.lookup_applyEvent now peer id]
    by_cases here : event.nodeId = id
    · subst here
      rw [unknown, if_pos ⟨rfl, taken⟩, if_pos rfl, left]
    · rw [if_neg (fun both => here both.1), if_neg here]
  split <;> exact heard

theorem mirrors_ingest_new {event : MemberEvent} (mirrors : node.Mirrors) (now : Int)
    (peer : event.nodeId ≠ node.swim.self.nodeId) (valid : isValidNodeId event.nodeId = true) (up : event.type = .alive)
    (unknown : node.swim.members[event.nodeId]? = none) : (node.ingest event now).Mirrors := by
  intro id
  have told : (node.swim.applyEvent event now).fired = [(event.info, .alive)] := by
    rw [Swim.applyEvent_fired now peer, unknown, MemberEvent.accepts, MemberEvent.notices, up]
    rfl
  rw [self_ingest, lookup_ingest_new now peer valid up unknown, router_ingest node valid, told, List.foldl_cons,
    List.foldl_nil, Router.lookup_onMemberChange]
  simp only
  rw [mirrors id]
  by_cases here : event.nodeId = id
  · subst here
    simp [unknown, Ne.symm peer, MemberEvent.info]
  · simp [here, MemberEvent.info]

/-- A list of members that are up, each named once and none known before. -/
structure Roll (node : GossipNode) (events : List MemberEvent) : Prop where
  up : ∀ event ∈ events, event.type = .alive
  valid : ∀ event ∈ events, isValidNodeId event.nodeId = true
  distinct : (events.map MemberEvent.nodeId).Nodup
  unknown : ∀ event ∈ events, node.swim.members[event.nodeId]? = none

/-- The rest of the list is news still. -/
theorem Roll.tail {event : MemberEvent} {rest : List MemberEvent} (roll : node.Roll (event :: rest)) (now : Int) :
    (node.ingest event now).Roll rest := by
  obtain ⟨fresh, distinct⟩ := List.nodup_cons.mp roll.distinct
  refine ⟨fun other member => roll.up other (.tail _ member), fun other member => roll.valid other (.tail _ member),
    distinct, fun other member => ?_⟩
  have before := roll.unknown other (.tail _ member)
  by_cases own : event.nodeId = node.swim.self.nodeId
  · rw [(ingest_of_self now own (roll.up event (.head _))).1]
    exact before
  · rw [lookup_ingest_new now own (roll.valid event (.head _)) (roll.up event (.head _)) (roll.unknown event (.head _)),
      if_neg]
    · exact before
    · intro same
      exact fresh (same ▸ List.mem_map_of_mem member)

/-- Whoever is called is on record, and nobody else comes to be. -/
theorem lookup_roll {events : List MemberEvent} (roll : node.Roll events) (times : List Int) :
    (∀ event ∈ events, event.nodeId ≠ node.swim.self.nodeId →
      (node.applyEvents events times).swim.members[event.nodeId]? = some ⟨event.info, .alive, event.incarnation, 0⟩) ∧
    ∀ id, id ∉ events.map MemberEvent.nodeId →
      (node.applyEvents events times).swim.members[id]? = node.swim.members[id]? := by
  induction events generalizing node times with
  | nil => exact ⟨fun event member => absurd member List.not_mem_nil, fun _ _ => rfl⟩
  | cons event rest ih =>
    obtain ⟨fresh, -⟩ := List.nodup_cons.mp roll.distinct
    have self := self_ingest node event (times.headD 0)
    obtain ⟨called, others⟩ := ih (roll.tail (times.headD 0)) times.tail
    have step (id : Bytes) : event.nodeId ≠ id →
        (node.ingest event (times.headD 0)).swim.members[id]? = node.swim.members[id]? := by
      intro elsewhere
      by_cases own : event.nodeId = node.swim.self.nodeId
      · rw [(ingest_of_self _ own (roll.up event (.head _))).1]
      · rw [lookup_ingest_new _ own (roll.valid event (.head _)) (roll.up event (.head _))
          (roll.unknown event (.head _)), if_neg elsewhere]
    constructor
    · intro other member peer
      rcases List.mem_cons.mp member with rfl | later
      · rw [applyEvents, others _ fresh, lookup_ingest_new _ peer (roll.valid other (.head _))
          (roll.up other (.head _)) (roll.unknown other (.head _)), if_pos rfl]
      · exact called other later (by rw [self]; exact peer)
    · intro id absent
      rw [List.map_cons, List.mem_cons, not_or] at absent
      rw [applyEvents, others id absent.2]
      exact step id (Ne.symm absent.1)

theorem mirrors_roll {events : List MemberEvent} (mirrors : node.Mirrors) (roll : node.Roll events) (times : List Int) :
    (node.applyEvents events times).Mirrors := by
  induction events generalizing node times with
  | nil => exact mirrors
  | cons event rest ih =>
    refine ih ?_ (roll.tail (times.headD 0)) times.tail
    by_cases own : event.nodeId = node.swim.self.nodeId
    · obtain ⟨swim, router⟩ := ingest_of_self (times.headD 0) own (roll.up event (.head _))
      intro id
      rw [swim, router]
      exact mirrors id
    · exact mirrors_ingest_new mirrors _ own (roll.valid event (.head _)) (roll.up event (.head _))
        (roll.unknown event (.head _))

/-- What the ack of a join tells of a member with this record. -/
def told (record : Record) : Record :=
  record.bind (fun entry =>
    if entry.state = .alive ∨ entry.state = .suspect then some ⟨entry.info, .alive, entry.incarnation, 0⟩ else none)

theorem ids_entries (swim : Swim) :
    swim.entries.map (fun entry => entry.info.nodeId) = swim.members.toList.map Prod.fst := by
  rw [Swim.entries, List.map_map]
  refine List.map_congr_left (fun member listed => ?_)
  exact swim.keyed member.1 member.2 (OrderedMap.mem_entries.mp listed)

theorem mem_joinEvents {seed : GossipNode} {event : MemberEvent} :
    event ∈ Session.joinEvents seed ↔
      event = ⟨.alive, seed.swim.self.nodeId, seed.swim.self.host, seed.swim.self.port, seed.swim.incarnation⟩ ∨
        ∃ entry, seed.swim.members[event.nodeId]? = some entry ∧ (entry.state = .alive ∨ entry.state = .suspect) ∧
          event = ⟨.alive, entry.info.nodeId, entry.info.host, entry.info.port, entry.incarnation⟩ := by
  rw [Session.joinEvents, List.mem_cons]
  refine or_congr Iff.rfl ?_
  constructor
  · intro listed
    obtain ⟨entry, shown, rfl⟩ := List.mem_map.mp listed
    obtain ⟨filed, stays⟩ := List.mem_filter.mp shown
    obtain ⟨⟨id, _⟩, member, rfl⟩ := List.mem_map.mp filed
    have found := OrderedMap.mem_entries.mp member
    have kept := of_decide_eq_true stays
    refine ⟨_, ?_, MemberState.up_of_kept kept.1 kept.2, rfl⟩
    rw [seed.swim.keyed _ _ found]
    exact found
  · rintro ⟨entry, found, up, same⟩
    refine List.mem_map.mpr ⟨entry, List.mem_filter.mpr ⟨?_, ?_⟩, same.symm⟩
    · exact List.mem_map.mpr ⟨(event.nodeId, entry), OrderedMap.mem_entries.mpr found, rfl⟩
    · rcases up with alive | suspect
      · simp [alive]
      · simp [suspect]

theorem ids_joinEvents_nodup (seed : GossipNode) : ((Session.joinEvents seed).map MemberEvent.nodeId).Nodup := by
  rw [Session.joinEvents, List.map_cons, List.map_map]
  have within : (seed.swim.allMembers.map (fun entry => entry.info.nodeId)).Sublist
      (seed.swim.members.toList.map Prod.fst) := by
    rw [← ids_entries]
    exact List.filter_sublist.map _
  refine List.nodup_cons.mpr ⟨fun listed => ?_, within.nodup OrderedMap.entries_keys_nodup⟩
  exact seed.swim.self_not_listed (within.subset listed)

/-- To a node that knows nobody, the members of a seed are a roll of strangers. -/
theorem roll_joinEvents (seed : GossipNode) (alone : ∀ id : Bytes, node.swim.members[id]? = none) :
    node.Roll (Session.joinEvents seed) := by
  refine ⟨fun event member => ?_, fun event member => ?_, ids_joinEvents_nodup seed, fun event _ => alone _⟩
  · rcases mem_joinEvents.mp member with rfl | ⟨entry, -, -, same⟩
    · rfl
    · rw [same]
  · rcases mem_joinEvents.mp member with rfl | ⟨entry, found, -, -⟩
    · exact seed.named
    · exact seed.valid _ entry found

/-- What a node that knew nobody holds after the ack of its join. -/
theorem lookup_joinEvents {seed : GossipNode} (alone : ∀ id : Bytes, node.swim.members[id]? = none)
    (apart : seed.swim.self.nodeId ≠ node.swim.self.nodeId) (times : List Int) (id : Bytes) :
    (node.applyEvents (Session.joinEvents seed) times).swim.members[id]? =
      if id = node.swim.self.nodeId then none
      else if id = seed.swim.self.nodeId then some ⟨seed.swim.self, .alive, seed.swim.incarnation, 0⟩
      else told seed.swim.members[id]? := by
  obtain ⟨called, others⟩ := lookup_roll (roll_joinEvents seed alone) times
  split
  · rename_i own
    rw [own, ← self_applyEvents node (Session.joinEvents seed) times]
    exact (node.applyEvents (Session.joinEvents seed) times).swim.others
  · rename_i peer
    split
    · rename_i there
      rw [there]
      exact called _ (mem_joinEvents.mpr (.inl rfl)) apart
    · rename_i third
      have silent (unheard : ∀ entry, seed.swim.members[id]? = some entry →
          ¬ (entry.state = .alive ∨ entry.state = .suspect)) :
          (node.applyEvents (Session.joinEvents seed) times).swim.members[id]? = none := by
        rw [others id, alone id]
        intro listed
        obtain ⟨event, member, rfl⟩ := List.mem_map.mp listed
        rcases mem_joinEvents.mp member with own | ⟨entry, found, up, -⟩
        · exact third (congrArg MemberEvent.nodeId own)
        · exact unheard entry found up
      cases record : seed.swim.members[id]? with
      | none => exact silent (fun entry found => by rw [record] at found; cases found)
      | some entry =>
        rw [told, Option.bind_some]
        have keyed := seed.swim.keyed id entry record
        split
        · rename_i up
          have member :
              (⟨.alive, entry.info.nodeId, entry.info.host, entry.info.port, entry.incarnation⟩ : MemberEvent) ∈
              Session.joinEvents seed :=
            mem_joinEvents.mpr (.inr ⟨entry, by rw [keyed]; exact record, up, rfl⟩)
          have shown := called _ member (by rw [keyed]; exact peer)
          rw [keyed] at shown
          rw [shown]
          simp [MemberEvent.info, ← keyed]
        · rename_i down
          exact silent (fun other found => by rwa [← Option.some.inj (record.symm.trans found)])

/-- The seed has left the joiner's record alone, and everybody's. -/
theorem enroll_refused {event : MemberEvent} (checked : isValidNodeId event.nodeId = true)
    (apart : event.nodeId ≠ node.swim.self.nodeId) (departed : Record.Departed node.swim.members[event.nodeId]?) :
    (node.enroll event checked).1 = none ∧ (node.enroll event checked).2.swim = node.swim ∧
      (node.enroll event checked).2.router = node.router := by
  have refused := Swim.applyDirectJoin_refused apart departed
  have none : (node.enroll event checked).1 = none := by
    unfold enroll
    simp only [refused]
  refine ⟨none, by rw [swim_enroll, refused], ?_⟩
  unfold enroll
  simp only [refused, perform, GossipThread.perform, Operation.react]
  rfl

theorem enroll_self (node : GossipNode) (event : MemberEvent) (checked : isValidNodeId event.nodeId = true) :
    (node.enroll event checked).2.swim.self = node.swim.self ∧
      (node.enroll event checked).2.swim.incarnation = node.swim.incarnation := by
  obtain ⟨self, number, -, -⟩ := node.swim.applyDirectJoin_own event
  rw [swim_enroll]
  split <;> exact ⟨self, number⟩

theorem joined_state (event : MemberEvent) (record : Record) : (event.joined record).state = .alive := by
  cases record <;> rfl

/-- A joiner that says where it is is held there. -/
theorem joined_info {self : NodeInfo} {incarnation : UInt64} (spoken : self.host ≠ []) (swim : Swim) :
    ((joinRequest self incarnation).joined swim.members[self.nodeId]?).info = self := by
  cases record : swim.members[self.nodeId]? with
  | none => rfl
  | some entry =>
    have keyed := swim.keyed _ _ record
    simp [MemberEvent.joined, MemberEvent.readdress, joinRequest, spoken, keyed]

theorem enroll_accepted (event : MemberEvent) (checked : isValidNodeId event.nodeId = true)
    (apart : event.nodeId ≠ node.swim.self.nodeId) (member : ¬ Record.Departed node.swim.members[event.nodeId]?) :
    (node.enroll event checked).1 = some (event.joined node.swim.members[event.nodeId]?).incarnation ∧
    (∀ id, (node.enroll event checked).2.swim.members[id]? =
      if event.nodeId = id then some (event.joined node.swim.members[event.nodeId]?) else node.swim.members[id]?) ∧
    (⟨.alive, event.nodeId, event.host, event.port,
        (event.joined node.swim.members[event.nodeId]?).incarnation⟩ : MemberEvent) ∈
      (node.enroll event checked).2.swim.pending.map PendingEvent.event := by
  obtain ⟨peer, taken⟩ := Swim.applyDirectJoin_taken apart member
  have eff : (node.swim.applyDirectJoin event).result =
      some (event.joined node.swim.members[event.nodeId]?).incarnation := by rw [taken]
  have swim := swim_enroll node event checked
  rw [eff] at swim
  refine ⟨?_, fun id => ?_, ?_⟩
  · unfold enroll
    simp only [eff]
  · rw [swim]
    refine (Swim.lookup_applyDirectJoin apart id).trans ?_
    by_cases here : event.nodeId = id
    · subst here
      rw [if_pos ⟨rfl, member⟩, if_pos rfl]
    · rw [if_neg (fun both => here both.1), if_neg here]
  · rw [swim]
    exact List.mem_map.mpr ⟨_, List.mem_append_right _ (List.mem_singleton_self _), rfl⟩

end GossipNode

namespace Session

variable {session : Session}

/-- A join request without further news. -/
theorem handleJoin_plain (session : Session) {f : List Bytes} (event : MemberEvent) (alone : field f 5 = [])
    (read : event = ⟨.join, field f 1, field f 2, ((stoi (field f 3)).map UInt16.ofInt).getD 0,
      (stoull (field f 4)).getD 0⟩) (checked : isValidNodeId event.nodeId = true) :
    ∃ served, session.handleJoin f =
        (some (.ack session.selfId event.nodeId (session.node.welcome event checked) none), served) ∧
      served.node = (session.node.enroll event checked).2 := by
  subst read
  have named : isValidNodeId (field f 1) = true := checked
  have quiet : session.applyIncomingEvents (field f 5) = session := by
    rw [alone]
    rfl
  have self (event : MemberEvent) (valid : isValidNodeId event.nodeId = true) :
      (session.node.enroll event valid).2.swim.self = session.node.swim.self :=
    (GossipNode.enroll_own session.node event valid).1
  unfold handleJoin
  simp only [named, ↓reduceDIte, quiet]
  unfold GossipNode.welcome
  split
  · rename_i refused
    rw [refused]
    exact ⟨_, by rw [selfId, self]; rfl, rfl⟩
  · rename_i eff taken
    rw [taken]
    exact ⟨_, by rw [selfId, self]; rfl, rfl⟩

/-- The seed enrolls the joiner and welcomes it. -/
theorem handleMessage_join (session : Session) {self : NodeInfo} (valid : isValidNodeId self.nodeId = true)
    (whole : pipe ∉ self.host) (incarnation : UInt64) :
    ∃ served, session.handleMessage (Message.join self.nodeId self.host self.port incarnation).payload =
        (some (.ack session.selfId self.nodeId
          (session.node.welcome (GossipNode.joinRequest self incarnation) valid) none), served) ∧
      served.node = (session.node.enroll (GossipNode.joinRequest self incarnation) valid).2 := by
  have small : self.port.toNat < 2 ^ 31 := self.port.toNat_lt.trans (by decide)
  have port : ((stoi (decimal self.port.toNat)).map UInt16.ofInt).getD 0 = self.port := by
    have wrapped : ((self.port.toNat : Int) % 65536).toNat = self.port.toNat := by
      have bound := self.port.toNat_lt
      omega
    rw [stoi_decimal small, Option.map_some, Option.getD_some]
    simp [UInt16.ofInt, wrapped]
  have count : (stoull (decimal incarnation.toNat)).getD 0 = incarnation := by
    rw [stoull_decimal, Option.getD_some]
  rw [handleMessage, Message.split_join (not_mem_of_isValidNodeId valid (by decide)) whole]
  refine session.handleJoin_plain (GossipNode.joinRequest self incarnation) rfl ?_ valid
  rw [GossipNode.joinRequest]
  change _ = (⟨.join, self.nodeId, self.host, ((stoi (decimal self.port.toNat)).map UInt16.ofInt).getD 0,
    (stoull (decimal incarnation.toNat)).getD 0⟩ : MemberEvent)
  rw [port, count]

/-- The address a seed is given by, if it is one. -/
def seedAddress (seed : Bytes) : Option (Bytes × UInt16) :=
  match (split seed colon)[0]?, (split seed colon)[1]?.bind stoi with
  | some host, some port => some (host, UInt16.ofInt port)
  | _, _ => none

/-- The answer is the ack of a join. -/
def Acks (answer : Bytes) : Prop := answer ≠ [] ∧ field (split answer pipe) 0 = ascii "SWIM_ACK"

theorem joinViaSeeds_cons (seed : Bytes) (rest : List Bytes) (session : Session) :
    joinViaSeeds (seed :: rest) session =
      match seedAddress seed with
      | none => joinViaSeeds rest session
      | some (host, port) =>
        let asked := session.sendFn host port (.join session.node.swim.self.nodeId session.node.swim.self.host
          session.node.swim.self.port session.node.swim.incarnation)
        if asked.1 ≠ [] ∧ field (split asked.1 pipe) 0 = ascii "SWIM_ACK" then
          asked.2.applyIncomingEvents (field (split asked.1 pipe) 3)
        else joinViaSeeds rest asked.2 := by
  rw [joinViaSeeds, seedAddress]
  cases (split seed colon)[0]? with
  | none => rfl
  | some host => cases (split seed colon)[1]?.bind stoi <;> rfl

/-- Seeds that are no addresses or do not ack are passed over. -/
theorem joinViaSeeds_skips {skipped : List Bytes} (rest : List Bytes) {front back : List Bytes}
    (contacts : front.length = skipped.countP (fun seed => (seedAddress seed).isSome))
    (silent : ∀ answer ∈ front, ¬ Acks answer) (answers : session.answers = front ++ back) :
    ∃ later : Session, joinViaSeeds (skipped ++ rest) session = joinViaSeeds rest later ∧ later.node = session.node ∧
      later.times = session.times ∧ later.answers = back := by
  induction skipped generalizing session front with
  | nil =>
    obtain rfl := List.eq_nil_of_length_eq_zero contacts
    exact ⟨session, rfl, rfl, rfl, answers⟩
  | cons seed others ih =>
    rw [List.cons_append, joinViaSeeds_cons]
    cases address : seedAddress seed with
    | none =>
      rw [List.countP_cons_of_neg (by simp [address])] at contacts
      exact ih contacts silent answers
    | some place =>
      rw [List.countP_cons_of_pos (by simp [address])] at contacts
      obtain ⟨first, front, rfl⟩ := List.exists_cons_of_length_eq_add_one contacts
      have refused : ¬ ((session.sendFn place.1 place.2 (.join session.node.swim.self.nodeId
          session.node.swim.self.host session.node.swim.self.port session.node.swim.incarnation)).1 ≠ [] ∧
          field (split (session.sendFn place.1 place.2 (.join session.node.swim.self.nodeId
            session.node.swim.self.host session.node.swim.self.port session.node.swim.incarnation)).1 pipe) 0 =
            ascii "SWIM_ACK") := by
        rw [sendFn, answers]
        exact silent first (.head _)
      simp only [refused, ↓reduceIte]
      refine ih (Nat.succ.inj contacts) (fun answer member => silent answer (.tail _ member)) ?_
      rw [sendFn, answers]
      rfl

/-- The first seed that acks is taken at its word. -/
theorem joinViaSeeds_reached {skipped : List Bytes} (rest : List Bytes) {front more : List Bytes}
    {seed sender target : Bytes}
    {events : List MemberEvent} (contacts : front.length = skipped.countP (fun seed => (seedAddress seed).isSome))
    (silent : ∀ answer ∈ front, ¬ Acks answer) (address : (seedAddress seed).isSome = true) (named : pipe ∉ sender)
    (about : pipe ∉ target) (portable : ∀ event ∈ events, event.Portable)
    (answers : session.answers = front ++ (Message.ack sender target events none).payload :: more) :
    (joinViaSeeds (skipped ++ seed :: rest) session).node = session.node.applyEvents events session.times := by
  obtain ⟨later, skips, node, times, next⟩ := joinViaSeeds_skips (seed :: rest) contacts silent answers
  have spoken : (Message.ack sender target events none).payload ≠ [] := by simp [Message.payload, ascii]
  obtain ⟨place, known⟩ := Option.isSome_iff_exists.mp address
  rw [skips, joinViaSeeds_cons, known]
  simp only [sendFn, next, List.headD_cons, Message.split_ack named about portable]
  rw [if_pos ⟨spoken, rfl⟩, ← node, ← times]
  exact applyIncomingEvents_serializeEvents _ portable

/-- The seed has enrolled the joiner and knows what it knew; the joiner knows the seed and the members
that the seed holds up, and its ring has them all. -/
structure Introduced (self : NodeInfo) (seed joined served : GossipNode) : Prop where
  view : ∀ id, joined.swim.members[id]? =
    if id = self.nodeId then none
    else if id = seed.swim.self.nodeId then some ⟨seed.swim.self, .alive, seed.swim.incarnation, 0⟩
    else GossipNode.told seed.swim.members[id]?
  ring : ∀ id, joined.router.nodes[id]? =
    if self.nodeId = id then some self else joined.swim.members[id]?.map MemberEntry.info
  kept : ∀ id, id ≠ self.nodeId → served.swim.members[id]? = seed.swim.members[id]?
  enrolled : ∃ entry, served.swim.members[self.nodeId]? = some entry ∧ entry.state = .alive ∧
    (self.host ≠ [] → entry.info = self) ∧
    (⟨.alive, self.nodeId, self.host, self.port, entry.incarnation⟩ : MemberEvent) ∈
      served.swim.pending.map PendingEvent.event

/-- A node that has just been started joins through the first of its seeds that answers. -/
theorem join_introduces (self : NodeInfo) (virtualNodes : Int) (config : GossipConfig)
    (named : isValidNodeId self.nodeId = true) (host : PlainHost self.host) (joiner seed : Session)
    (fresh : joiner.node = .start self virtualNodes config named) (spotless : seed.node.swim.Spotless)
    (apart : seed.selfId ≠ self.nodeId) (member : ¬ Record.Departed seed.node.swim.members[self.nodeId]?) :
    ∃ (reply : Message) (served : Session),
      seed.handleMessage (Message.join self.nodeId self.host self.port 0).payload = (some reply, served) ∧
      ∀ (skipped rest front more : List Bytes) (address : Bytes),
        front.length = skipped.countP (fun seed => (seedAddress seed).isSome) → (∀ answer ∈ front, ¬ Acks answer) →
        (seedAddress address).isSome = true → joiner.answers = front ++ reply.payload :: more →
        Introduced self seed.node (joinViaSeeds (skipped ++ address :: rest) joiner).node served.node := by
  obtain ⟨served, handled, enrolled⟩ := seed.handleMessage_join named host.2.2 0
  have other : self.nodeId ≠ seed.node.swim.self.nodeId := Ne.symm apart
  obtain ⟨eff, lookup, queued⟩ := GossipNode.enroll_accepted (GossipNode.joinRequest self 0) named other member
  have events : seed.node.welcome (GossipNode.joinRequest self 0) named =
      joinEvents (seed.node.enroll (GossipNode.joinRequest self 0) named).2 := by
    unfold GossipNode.welcome
    rw [eff]
  have enrolls : (seed.node.enroll (GossipNode.joinRequest self 0) named).2.swim.Spotless := spotless.enroll named host
  rw [events] at handled
  refine ⟨_, served, handled, fun skipped rest front more address contacts silent reached answers => ?_⟩
  have joined := joinViaSeeds_reached rest contacts silent reached
    (not_mem_of_isValidNodeId seed.node.named (by decide)) (not_mem_of_isValidNodeId named (by decide))
    enrolls.joinEvents answers
  rw [fresh] at joined
  have alone (id : Bytes) : (GossipNode.start self virtualNodes config named).swim.members[id]? = none := by
    simp [GossipNode.start, GossipThread.start, Swim.start]
  obtain ⟨own, number⟩ := seed.node.enroll_self (GossipNode.joinRequest self 0) named
  refine ⟨fun id => ?_, fun id => ?_, fun id elsewhere => ?_, ?_⟩
  · rw [joined, GossipNode.lookup_joinEvents alone (by rw [own]; exact apart), own, number, lookup id]
    change (if id = self.nodeId then none else _) = _
    by_cases here : self.nodeId = id
    · rw [if_pos here.symm, if_pos here.symm]
    · rw [if_neg (show ¬ (GossipNode.joinRequest self 0).nodeId = id from here)]
  · have mirrors := GossipNode.mirrors_roll (GossipNode.mirrors_start self virtualNodes config named)
      (GossipNode.roll_joinEvents (seed.node.enroll (GossipNode.joinRequest self 0) named).2 alone) joiner.times id
    rw [joined, mirrors, GossipNode.self_applyEvents]
    rfl
  · rw [enrolled, lookup id]
    exact if_neg (Ne.symm elsewhere)
  · refine ⟨_, by rw [enrolled, lookup self.nodeId]; exact if_pos rfl, ?_, fun spoken => ?_, ?_⟩
    · exact GossipNode.joined_state _ _
    · exact GossipNode.joined_info spoken seed.node.swim
    · rw [enrolled]
      exact queued

/-- Node `a`, which has enrolled `b` and heard of `c`. -/
def established : Session := (begin (.start ⟨ascii "a", ascii "h", 1⟩ 2 {} (by decide))).run wellFormed

theorem spotless_established : established.Spotless :=
  spotless_rule.run _ (by decide +kernel) (spotless_begin (by decide) _ _)

/-- A node that the seed is the first to answer. -/
def guest (seed : Session) (self : NodeInfo) (named : isValidNodeId self.nodeId = true) : Session :=
  { begin (.start self 2 {} named) with
    answers := [((seed.handleMessage (Message.join self.nodeId self.host self.port 0).payload).1.map
      Message.payload).getD []] }

theorem join_introduces_guest :
    ∃ served, Introduced ⟨ascii "d", ascii "h", 2⟩ established.node
      (joinViaSeeds ([ascii "h"] ++ [ascii "h:1"]) (guest established ⟨ascii "d", ascii "h", 2⟩ (by decide))).node
      served := by
  obtain ⟨reply, served, handled, introduced⟩ := join_introduces ⟨ascii "d", ascii "h", 2⟩ 2 {} (by decide) (by decide)
    (guest established ⟨ascii "d", ascii "h", 2⟩ (by decide)) established rfl spotless_established.view
    (by decide +kernel) (by decide +kernel)
  refine ⟨served.node, introduced [ascii "h"] [] [] [] (ascii "h:1") (by decide) (fun _ => nofun) (by decide) ?_⟩
  simp [guest, handled]

/-- Whom a node holds as left, itself included, it holds as left from then on. -/
theorem left_rule (id : Bytes) :
    Rule (fun _ => True) (fun before after =>
      before.node.swim.stateOf id = some .left → after.node.swim.stateOf id = some .left) where
  refl _ := fun left => left
  trans one two := fun left => two (one left)
  book thread _ _ := fun left => by rwa [thread]
  ingest session event now _ := fun left => by
    have applied := (Operation.steps session.node.swim (.applyEvent event now)).left left
    rw [GossipNode.swim_ingest]
    split
    · split <;> exact applied
    · exact left
  enroll session event checked _ _ := fun left => by
    have applied := (Operation.steps session.node.swim (.applyDirectJoin event)).left left
    rw [GossipNode.swim_enroll]
    split <;> exact applied
  own session _ _ _ := fun left => (Operation.steps session.node.swim _).left left
  piggyback session _ _ _ := fun left => (Operation.steps session.node.swim .getEventsToSend).left left
  sync _ _ _ _ := fun left => left
  welcome _ _ _ _ _ _ _ _ _ := fun left => left
  refuse _ _ _ _ _ _ := fun left => left
  call _ _ _ _ := fun left => left

/-- A node that is told it has left retires. -/
theorem stateOf_ingest_leave (node : GossipNode) (now : Int) :
    (node.ingest { type := .leave, nodeId := node.swim.self.nodeId } now).swim.stateOf node.swim.self.nodeId =
      some .left := by
  have retired : (node.swim.applyEvent { type := .leave, nodeId := node.swim.self.nodeId } now).swim.stateOf
      node.swim.self.nodeId = some .left := by
    rw [Swim.applyEvent, dif_pos rfl, Swim.applySelfEvent]
    by_cases left : node.swim.selfLeft = true
    · simp [left, Swim.unchanged, Swim.stateOf]
    · simp [left, Swim.stateOf]
  rw [GossipNode.swim_ingest, if_pos node.named]
  split <;> exact retired

/-- A node that asks to join where it is held as left changes nothing there, and retires: it stays out of
its own ring and its own lists of peers from then on. -/
theorem departed_joiner_retires (joiner seed : Session) (host : pipe ∉ joiner.node.swim.self.host)
    (apart : seed.selfId ≠ joiner.selfId) (departed : Record.Departed seed.node.swim.members[joiner.selfId]?) :
    ∃ (reply : Message) (served : Session),
      seed.handleMessage (Message.join joiner.selfId joiner.node.swim.self.host joiner.node.swim.self.port
        joiner.node.swim.incarnation).payload = (some reply, served) ∧
      served.node.swim = seed.node.swim ∧ served.node.router = seed.node.router ∧
      ∀ (skipped rest front more : List Bytes) (address : Bytes),
        front.length = skipped.countP (fun seed => (seedAddress seed).isSome) → (∀ answer ∈ front, ¬ Acks answer) →
        (seedAddress address).isSome = true → joiner.answers = front ++ reply.payload :: more →
        ∀ turns : List GossipTurn,
          ((joinViaSeeds (skipped ++ address :: rest) joiner).run turns).node.toGossipThread.Gone joiner.selfId := by
  have named := joiner.node.named
  obtain ⟨served, handled, enrolled⟩ := seed.handleMessage_join named host joiner.node.swim.incarnation
  have checked : isValidNodeId
      (GossipNode.joinRequest joiner.node.swim.self joiner.node.swim.incarnation).nodeId = true := named
  obtain ⟨refused, swim, router⟩ := GossipNode.enroll_refused checked (Ne.symm apart) departed
  have events : seed.node.welcome (GossipNode.joinRequest joiner.node.swim.self joiner.node.swim.incarnation) named =
      [{ type := .leave, nodeId := joiner.selfId }] := by
    unfold GossipNode.welcome
    rw [refused]
    rfl
  rw [events] at handled
  refine ⟨_, served, handled, enrolled ▸ swim, enrolled ▸ router,
    fun skipped rest front more address contacts silent reached answers turns => ?_⟩
  have portable : ∀ event ∈ [({ type := .leave, nodeId := joiner.selfId } : MemberEvent)], event.Portable := by
    intro event member
    rw [List.mem_singleton.mp member]
    exact MemberEvent.portable_of_valid trivial named plainHost_nil
  have joined := joinViaSeeds_reached rest contacts silent reached
    (not_mem_of_isValidNodeId seed.node.named (by decide)) (not_mem_of_isValidNodeId named (by decide)) portable answers
  have left : (joinViaSeeds (skipped ++ address :: rest) joiner).node.swim.stateOf joiner.selfId = some .left := by
    rw [joined]
    exact stateOf_ingest_leave joiner.node _
  exact GossipThread.gone_of_left ((left_rule joiner.selfId).run _ (fun turn _ => turn.joinsFrom_any) left)

theorem departed_joiner_retires_leaver :
    ∃ turns : List GossipTurn, turns ≠ [] ∧
      ((joinViaSeeds ([ascii "h"] ++ [ascii "h:1"]) (guest
        (established.turn { call := .handleMessage (ascii "SWIM_PING|b|a|L:c:h:5001:9") })
        ⟨ascii "c", ascii "h", 5001⟩ (by decide))).run turns).node.toGossipThread.Gone (ascii "c") := by
  obtain ⟨reply, served, handled, -, -, gone⟩ := departed_joiner_retires (guest
    (established.turn { call := .handleMessage (ascii "SWIM_PING|b|a|L:c:h:5001:9") })
    ⟨ascii "c", ascii "h", 5001⟩ (by decide))
    (established.turn { call := .handleMessage (ascii "SWIM_PING|b|a|L:c:h:5001:9") })
    (by decide) (by decide +kernel) (by decide +kernel)
  refine ⟨[{ call := .tick }], by simp,
    gone [ascii "h"] [] [] [] (ascii "h:1") (by decide) (fun _ => nofun) (by decide) ?_ [{ call := .tick }]⟩
  exact congrArg (fun answer => [(Option.map Message.payload answer).getD []]) (congrArg Prod.fst handled)

end Session

end MiniDynamo
