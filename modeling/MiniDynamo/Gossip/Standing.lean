import MiniDynamo.Gossip.Node

/-! What a full state tells of a member, and what becomes of it on the other side: only the
member's class and its incarnation matter. -/

namespace MiniDynamo

/-- The class and the incarnation of a member, if it is known. -/
abbrev Standing := Option (StateClass × UInt64)

namespace Standing

/-- What is left of a standing when a report of the member is applied to it. -/
def take (report : StateClass × UInt64) : Standing → Standing
  | none => some report
  | some held =>
    match report.1, held.1 with
    | _, .left => some held
    | .left, _ => some (.left, held.2)
    | .dead, .dead => some held
    | .dead, .alive => if report.2 < held.2 then some held else some report
    | .alive, _ => if report.2 ≤ held.2 then some held else some report

/-- The sender reports what it knows. -/
def push (sender receiver : Standing) : Standing :=
  match sender with
  | none => receiver
  | some report => take report receiver

/-- What becomes of the node's own standing when it hears a report of itself: it obeys a
leave and refutes its death. -/
def heed (own : StateClass × UInt64) : Standing → StateClass × UInt64
  | some (.left, _) => (.left, own.2)
  | some (.dead, incarnation) => if incarnation < own.2 then own else (own.1, incarnation + 1)
  | _ => own

/-- Both sides hold the member, in one class and, if that is alive, at one incarnation. -/
def Agree (one other : Standing) : Prop :=
  ∃ mine theirs, one = some mine ∧ other = some theirs ∧ mine.1 = theirs.1 ∧ (mine.1 = .alive → mine.2 = theirs.2)

/-- One push and one pull settle what both sides hold of a third. -/
theorem agree_of_exchange {one other : Standing} (known : one ≠ none ∨ other ≠ none) :
    Agree (push (push one other) one) (push one other) := by
  rcases one with - | ⟨mineClass, mine⟩ <;> rcases other with - | ⟨theirClass, theirs⟩
  · simp at known
  · exact ⟨_, _, rfl, rfl, rfl, fun _ => rfl⟩
  · cases mineClass <;> simp [push, take, Agree]
  · cases mineClass <;> cases theirClass <;> simp only [push, take, Agree]
    case alive.alive =>
      by_cases later : mine ≤ theirs
      · simp only [later, ↓reduceIte]
        by_cases same : theirs ≤ mine
        · simp [UInt64.le_antisymm later same]
        · simp [same]
      · simp [later]
    case alive.dead =>
      by_cases later : mine ≤ theirs
      · simp [later, UInt64.not_lt.mpr later]
      · simp [later]
    case dead.alive =>
      by_cases later : mine < theirs
      · simp [later, UInt64.not_le.mpr later]
      · simp [later]
    all_goals simp

end Standing

/-- What a record says of its member. -/
def Record.standing (record : Record) : Standing :=
  record.map (fun entry => (entry.state.stateClass, entry.incarnation))

/-- A report travels as an event and is taken as one. -/
theorem Record.standing_applied {event : MemberEvent} {reported : StateClass} (type : event.type = reported.eventType)
    (now : Int) (record : Record) :
    Record.standing (if event.accepts record = true then some (event.update now record) else record) =
      Standing.take (reported, event.incarnation) record.standing := by
  cases record with
  | none => cases reported <;> simp [MemberEvent.accepts, type, StateClass.eventType, standing, Standing.take,
      MemberEvent.update, MemberEvent.entryState, MemberState.stateClass]
  | some entry =>
    cases reported with
    | left =>
      simp only [MemberEvent.accepts, type, StateClass.eventType, MemberEvent.update]
      cases state : entry.state <;> simp [standing, Standing.take, state, MemberState.stateClass]
    | dead =>
      simp only [MemberEvent.accepts, type, StateClass.eventType, MemberEvent.update]
      by_cases early : event.incarnation < entry.incarnation
      · cases state : entry.state <;>
          simp [standing, Standing.take, state, MemberState.stateClass, early, UInt64.not_le.mpr early]
      · cases state : entry.state <;>
          simp [standing, Standing.take, state, MemberState.stateClass, early, UInt64.not_lt.mp early]
    | alive =>
      simp only [MemberEvent.accepts, type, StateClass.eventType, MemberEvent.update]
      by_cases early : event.incarnation ≤ entry.incarnation
      · cases state : entry.state <;>
          simp [standing, Standing.take, state, MemberState.stateClass, early, UInt64.not_lt.mpr early]
      · cases state : entry.state <;>
          simp [standing, Standing.take, state, MemberState.stateClass, early, UInt64.not_le.mp early]

namespace Swim

variable {swim : Swim} {event : MemberEvent} {id : Bytes}

theorem self_not_listed (swim : Swim) : swim.self.nodeId ∉ swim.members.toList.map Prod.fst := by
  intro listed
  obtain ⟨⟨place, entry⟩, filed, rfl⟩ := List.mem_map.mp listed
  cases (OrderedMap.mem_entries.mp filed).symm.trans swim.others

/-- What the node says of itself. -/
def own (swim : Swim) : StateClass × UInt64 := (swim.selfClass, swim.incarnation)

/-- What the view says of a node, its own among them. -/
def standing (swim : Swim) (id : Bytes) : Standing :=
  if id = swim.self.nodeId then some swim.own else Record.standing swim.members[id]?

theorem standing_self (swim : Swim) : swim.standing swim.self.nodeId = some swim.own := if_pos rfl

theorem standing_peer (peer : id ≠ swim.self.nodeId) : swim.standing id = Record.standing swim.members[id]? :=
  if_neg peer

theorem own_applySelfEvent {reported : StateClass} (type : event.type = reported.eventType) :
    (swim.applySelfEvent event).swim.own = Standing.heed swim.own (some (reported, event.incarnation)) := by
  cases reported with
  | alive => simp [applySelfEvent, type, StateClass.eventType, unchanged, Standing.heed]
  | dead =>
    by_cases stale : event.incarnation < swim.own.2
    · have early : event.incarnation < swim.incarnation := stale
      rw [Standing.heed, if_pos stale]
      simp [applySelfEvent, type, StateClass.eventType, early, unchanged]
    · have late : ¬ event.incarnation < swim.incarnation := stale
      rw [Standing.heed, if_neg stale]
      simp only [applySelfEvent, type, StateClass.eventType, late, ↓reduceIte]
      rfl
  | left =>
    simp only [applySelfEvent, type, StateClass.eventType, Standing.heed, own]
    split
    · rename_i retired
      simp [unchanged, selfClass, retired]
    · simp [selfClass]

end Swim

namespace GossipNode

variable {node sender : GossipNode} {event : MemberEvent} {id : Bytes}

/-- What the node hears of one node does not change what it holds of another. -/
theorem standing_ingest_elsewhere (now : Int) (elsewhere : event.nodeId ≠ id) :
    (node.ingest event now).swim.standing id = node.swim.standing id := by
  have kept : (node.swim.applyEvent event now).swim.standing id = node.swim.standing id := by
    by_cases self : id = node.swim.self.nodeId
    · obtain ⟨same, incarnation, flag, -⟩ := Swim.applyEvent_own now (self ▸ elsewhere)
      rw [Swim.standing, Swim.standing, same, if_pos self, if_pos self, Swim.own, Swim.own, Swim.selfClass,
        Swim.selfClass, incarnation, flag]
    · have peer : id ≠ (node.swim.applyEvent event now).swim.self.nodeId := by rwa [Swim.applyEvent_self]
      rw [Swim.standing_peer peer, Swim.standing_peer self, Swim.lookup_applyEvent_peer now self,
        if_neg (fun taken => elsewhere taken.1)]
  rw [swim_ingest]
  split
  · split <;> exact kept
  · rfl

theorem standing_ingest_peer {reported : StateClass} (now : Int) (type : event.type = reported.eventType)
    (peer : event.nodeId ≠ node.swim.self.nodeId) (valid : isValidNodeId event.nodeId = true) :
    (node.ingest event now).swim.standing event.nodeId =
      Standing.take (reported, event.incarnation) (node.swim.standing event.nodeId) := by
  rw [Swim.standing_peer peer, Swim.standing_peer (by rwa [self_ingest]), lookup_ingest now peer valid]
  simpa using Record.standing_applied type now node.swim.members[event.nodeId]?

theorem standing_ingest_own {reported : StateClass} (now : Int) (type : event.type = reported.eventType)
    (own : event.nodeId = node.swim.self.nodeId) :
    (node.ingest event now).swim.standing event.nodeId =
      some (Standing.heed node.swim.own (some (reported, event.incarnation))) := by
  have heeded : (node.swim.applyEvent event now).swim.own =
      Standing.heed node.swim.own (some (reported, event.incarnation)) := by
    rw [Swim.applyEvent, dif_pos own, Swim.own_applySelfEvent type]
  have self : event.nodeId = (node.ingest event now).swim.self.nodeId := by rwa [self_ingest]
  rw [Swim.standing, if_pos self, ← heeded, swim_ingest, if_pos (own ▸ node.named)]
  split <;> rfl

theorem standing_applyEvents_elsewhere (events : List MemberEvent) (times : List Int)
    (elsewhere : ∀ event ∈ events, event.nodeId ≠ id) :
    (node.applyEvents events times).swim.standing id = node.swim.standing id := by
  induction events generalizing node times with
  | nil => rfl
  | cons event rest ih =>
    rw [applyEvents, ih times.tail (fun later member => elsewhere later (List.mem_cons_of_mem _ member))]
    exact standing_ingest_elsewhere _ (elsewhere event (List.mem_cons_self ..))

theorem self_applyEvents (node : GossipNode) (events : List MemberEvent) (times : List Int) :
    (node.applyEvents events times).swim.self = node.swim.self := by
  induction events generalizing node times with
  | nil => rfl
  | cons event rest ih => exact (ih _ _).trans (node.self_ingest event _)

/-- A list with one report of a node. -/
theorem standing_applyEvents_once {reported : StateClass} (before after : List MemberEvent) (times : List Int)
    (type : event.type = reported.eventType) (valid : isValidNodeId event.nodeId = true)
    (sooner : ∀ other ∈ before, other.nodeId ≠ event.nodeId) (later : ∀ other ∈ after, other.nodeId ≠ event.nodeId) :
    (node.applyEvents (before ++ event :: after) times).swim.standing event.nodeId =
      if event.nodeId = node.swim.self.nodeId then
        some (Standing.heed node.swim.own (some (reported, event.incarnation)))
      else Standing.take (reported, event.incarnation) (node.swim.standing event.nodeId) := by
  induction before generalizing node times with
  | nil =>
    rw [List.nil_append, applyEvents, standing_applyEvents_elsewhere after times.tail later]
    split
    · rename_i own
      exact standing_ingest_own _ type own
    · rename_i peer
      exact standing_ingest_peer _ type peer valid
  | cons first rest ih =>
    have elsewhere := sooner first (List.mem_cons_self ..)
    rw [List.cons_append, applyEvents, ih times.tail (fun other member => sooner other (List.mem_cons_of_mem _ member)),
      self_ingest, standing_ingest_elsewhere _ elsewhere]
    split
    · rename_i own
      have kept : (node.ingest first (times.headD 0)).swim.standing event.nodeId = _ :=
        standing_ingest_elsewhere _ elsewhere
      rw [own, Swim.standing_self, Swim.standing, self_ingest, if_pos rfl, Option.some.injEq] at kept
      rw [kept]
    · rfl

/-- A full state has one report of every node in the view. -/
theorem fullState_split {report : StateClass × UInt64} (known : sender.swim.standing id = some report) :
    isValidNodeId id = true ∧ ∃ before event after, sender.swim.fullState = before ++ event :: after ∧
      event.nodeId = id ∧ event.type = report.1.eventType ∧ event.incarnation = report.2 ∧
      (∀ other ∈ before, other.nodeId ≠ id) ∧ ∀ other ∈ after, other.nodeId ≠ id := by
  by_cases self : id = sender.swim.self.nodeId
  · subst self
    rw [Swim.standing_self, Option.some.injEq] at known
    subst known
    refine ⟨sender.named, [], sender.swim.selfEvent, _, rfl, rfl, rfl, rfl, by simp, ?_⟩
    intro other listed same
    obtain ⟨member, filed, rfl⟩ := List.mem_map.mp listed
    exact sender.swim.self_not_listed (List.mem_map.mpr ⟨member, filed, same⟩)
  · rw [Swim.standing_peer self] at known
    obtain ⟨entry, found, rfl⟩ := Option.map_eq_some_iff.mp known
    have filed : (id, entry) ∈ sender.swim.members.toList := OrderedMap.mem_entries.mpr found
    obtain ⟨before, after, split⟩ := List.append_of_mem filed
    -- no other entry has the same key
    have distinct : (sender.swim.members.toList.map Prod.fst).Nodup := OrderedMap.entries_keys_nodup
    rw [split, List.map_append, List.map_cons, List.nodup_append, List.nodup_cons] at distinct
    refine ⟨sender.valid id entry found, sender.swim.selfEvent :: before.map (fun member =>
        Swim.memberEvent member.1 member.2), Swim.memberEvent id entry,
      after.map (fun member => Swim.memberEvent member.1 member.2), ?_, rfl, rfl, rfl, ?_, ?_⟩
    · rw [Swim.fullState, split]
      simp
    · intro other listed same
      rcases List.mem_cons.mp listed with rfl | listed
      · exact self same.symm
      · obtain ⟨member, present, rfl⟩ := List.mem_map.mp listed
        exact distinct.2.2 member.1 (List.mem_map_of_mem present) id (List.mem_cons_self ..) same
    · intro other listed same
      obtain ⟨member, present, rfl⟩ := List.mem_map.mp listed
      exact distinct.2.1.1 (List.mem_map.mpr ⟨member, present, same⟩)

theorem fullState_silent (unknown : sender.swim.standing id = none) :
    ∀ event ∈ sender.swim.fullState, event.nodeId ≠ id := by
  rintro event listed rfl
  rcases List.mem_cons.mp listed with rfl | listed
  · cases (Swim.standing_self sender.swim).symm.trans unknown
  · obtain ⟨⟨place, entry⟩, filed, rfl⟩ := List.mem_map.mp listed
    have found : sender.swim.members[place]? = some entry := OrderedMap.mem_entries.mp filed
    have peer : place ≠ sender.swim.self.nodeId :=
      sender.swim.keyed _ _ found ▸ sender.swim.other_of_found found
    rw [show (Swim.memberEvent place entry).nodeId = place from rfl, Swim.standing_peer peer, found] at unknown
    cases unknown

/-- What a full state leaves of every standing on the other side. -/
theorem standing_fullState (node sender : GossipNode) (times : List Int) (id : Bytes) :
    (node.applyEvents sender.swim.fullState times).swim.standing id =
      if id = node.swim.self.nodeId then some (Standing.heed node.swim.own (sender.swim.standing id))
      else Standing.push (sender.swim.standing id) (node.swim.standing id) := by
  cases known : sender.swim.standing id with
  | none =>
    rw [standing_applyEvents_elsewhere _ _ (fullState_silent known)]
    split
    · rename_i own
      rw [own, Swim.standing_self]
      rfl
    · rfl
  | some report =>
    obtain ⟨valid, before, event, after, split, rfl, type, incarnation, sooner, later⟩ := fullState_split known
    rw [split, standing_applyEvents_once before after times type valid sooner later, incarnation]
    rfl

end GossipNode

end MiniDynamo
