import MiniDynamo.Gossip.Swim
import Mathlib.Order.Basic

/-! The record of one member on its own: which events change it and how, and the rank it
climbs with every change. -/

namespace MiniDynamo

/-- What a view holds of one member. -/
abbrev Record := Option MemberEntry

namespace MemberEvent

/-- What an event of this type makes of a member nobody has heard of. -/
def entryState : EventType → MemberState
  | .dead => .dead
  | .leave => .left
  | .suspect => .suspect
  | _ => .alive

/-- Whether `applyEvent` takes the event about a member with this record. -/
def accepts (event : MemberEvent) : Record → Bool
  | none =>
    match event.type with
    | .join | .alive | .dead | .leave => true
    | _ => false
  | some entry =>
    match event.type with
    | .join | .alive => entry.state ≠ .left ∧ entry.incarnation < event.incarnation
    | .suspect =>
      entry.state = .alive ∧ entry.incarnation ≤ event.incarnation ∨
        entry.state = .suspect ∧ entry.incarnation < event.incarnation
    | .dead => (entry.state = .alive ∨ entry.state = .suspect) ∧ entry.incarnation ≤ event.incarnation
    | .leave => entry.state ≠ .left
    | .other _ => false

/-- The record an accepted event leaves. -/
def update (event : MemberEvent) (now : Int) : Record → MemberEntry
  | none => ⟨event.info, entryState event.type, event.incarnation, 0⟩
  | some entry =>
    match event.type with
    | .suspect => { entry with state := .suspect, incarnation := event.incarnation, suspectSince := now }
    | .dead => { entry with state := .dead, incarnation := event.incarnation }
    | .leave => { entry with state := .left }
    | _ => { entry with state := .alive, incarnation := event.incarnation, info := event.readdress entry.info }

/-- What the callbacks hear of an accepted event. -/
def notices (event : MemberEvent) : Record → List Notice
  | none =>
    match event.type with
    | .join | .alive => [(event.info, .alive)]
    | _ => []
  | some entry =>
    match event.type with
    | .suspect => []
    | .dead => [(entry.info, .dead)]
    | .leave => [(entry.info, .left)]
    | _ => [(event.readdress entry.info, .alive)]

/-- The record a join handshake leaves of a member that has not left. -/
def joined (event : MemberEvent) : Record → MemberEntry
  | none => ⟨event.info, .alive, event.incarnation, 0⟩
  | some entry =>
    { entry with
      state := .alive
      incarnation := max event.incarnation (entry.incarnation + 1)
      info := event.readdress entry.info }

/-- What the callbacks hear of a join handshake. -/
def joinNotices (event : MemberEvent) : Record → List Notice
  | none => [(event.info, .alive)]
  | some entry => if entry.state = .alive then [] else [(event.readdress entry.info, .alive)]

/-- The event says that the member is up. -/
def Revives (event : MemberEvent) (id : Bytes) : Prop :=
  event.nodeId = id ∧ (event.type = .join ∨ event.type = .alive)

/-- The event says that the member has left. -/
def Leaves (event : MemberEvent) (id : Bytes) : Prop := event.nodeId = id ∧ event.type = .leave

instance (event : MemberEvent) (id : Bytes) : Decidable (event.Revives id) :=
  inferInstanceAs (Decidable (event.nodeId = id ∧ (event.type = .join ∨ event.type = .alive)))

instance (event : MemberEvent) (id : Bytes) : Decidable (event.Leaves id) :=
  inferInstanceAs (Decidable (event.nodeId = id ∧ event.type = .leave))

theorem accepts_of_revives {event : MemberEvent} {id : Bytes} (revives : event.Revives id)
    (entry : MemberEntry) :
    event.accepts (some entry) = true ↔ entry.state ≠ .left ∧ entry.incarnation < event.incarnation := by
  rcases revives.2 with type | type <;> simp [accepts, type]

end MemberEvent

/-- The member has left. -/
def Record.Departed (record : Record) : Prop := record.map MemberEntry.state = some .left

instance (record : Record) : Decidable record.Departed :=
  inferInstanceAs (Decidable (record.map MemberEntry.state = some .left))

namespace Swim

variable {swim : Swim} {event : MemberEvent} {record : Record}

theorem update_nodeId (swim : Swim) (event : MemberEvent) (now : Int) :
    (event.update now swim.members[event.nodeId]?).info.nodeId = event.nodeId := by
  cases found : swim.members[event.nodeId]? with
  | none => rfl
  | some entry =>
    have named := swim.keyed _ _ found
    cases type : event.type <;> simpa [MemberEvent.update, type] using named

/-- The reaction to an event about a member with this record: the record it leaves is filed
and the callbacks hear of it, or nothing happens. -/
def Heeds (swim : Swim) (event : MemberEvent) (now : Int) (record : Record) (reaction : Reaction Bool) : Prop :=
  (event.accepts record = true → ∃ peer, reaction =
    ⟨true, swim.record (event.update now record) peer, event.notices record⟩) ∧
  (event.accepts record = false → reaction = swim.unchanged)

theorem heeds_unchanged {now : Int} (refused : event.accepts record = false) :
    swim.Heeds event now record swim.unchanged :=
  ⟨fun accepted => by simp [refused] at accepted, fun _ => rfl⟩

theorem heeds_record {now : Int} {entry : MemberEntry} {fired : List Notice}
    {peer : entry.info.nodeId ≠ swim.self.nodeId} (accepted : event.accepts record = true)
    (same : entry = event.update now record) (heard : fired = event.notices record) :
    swim.Heeds event now record ⟨true, swim.record entry peer, fired⟩ := by
  subst same heard
  exact ⟨fun _ => ⟨peer, rfl⟩, fun refused => by simp [refused] at accepted⟩

theorem applyAlive_heeds (now : Int) (other : event.nodeId ≠ swim.self.nodeId)
    (type : event.type = .join ∨ event.type = .alive) (found : swim.members[event.nodeId]? = record) :
    swim.Heeds event now record (swim.applyAlive event other) := by
  unfold applyAlive
  split
  · rename_i unknown
    obtain rfl := unknown.symm.trans found
    rcases type with type | type <;>
      exact heeds_record (by simp [MemberEvent.accepts, type])
        (by simp [MemberEvent.update, MemberEvent.entryState, type]) (by simp [MemberEvent.notices, type])
  · rename_i entry known
    obtain rfl := known.symm.trans found
    split
    · rename_i left
      refine heeds_unchanged ?_
      rcases type with type | type <;> simp [MemberEvent.accepts, type, left]
    · rename_i member
      split
      · rename_i stale
        refine heeds_unchanged ?_
        rcases type with type | type <;> simp [MemberEvent.accepts, type, stale]
      · rename_i newer
        have ahead := UInt64.not_le.mp newer
        rcases type with type | type <;>
          exact heeds_record (by simp [MemberEvent.accepts, type, member, ahead])
            (by simp [MemberEvent.update, type]) (by simp [MemberEvent.notices, type])

theorem applySuspect_heeds (now : Int) (type : event.type = .suspect)
    (found : swim.members[event.nodeId]? = record) :
    swim.Heeds event now record (swim.applySuspect event now) := by
  unfold applySuspect
  split
  · rename_i unknown
    obtain rfl := unknown.symm.trans found
    exact heeds_unchanged (by simp [MemberEvent.accepts, type])
  · rename_i entry known
    obtain rfl := known.symm.trans found
    split
    · rename_i stale
      have behind := UInt64.not_le.mpr stale
      exact heeds_unchanged (by simp [MemberEvent.accepts, type, behind, UInt64.le_of_lt stale])
    · rename_i current
      have ahead := UInt64.not_lt.mp current
      split
      · rename_i dead
        exact heeds_unchanged (by simp [MemberEvent.accepts, type, dead])
      · rename_i notDead
        split
        · rename_i left
          exact heeds_unchanged (by simp [MemberEvent.accepts, type, left])
        · rename_i member
          split
          · rename_i known
            exact heeds_unchanged (by simp [MemberEvent.accepts, type, known])
          · rename_i fresh
            refine heeds_record ?_ (by simp [MemberEvent.update, type]) (by simp [MemberEvent.notices, type])
            cases state : entry.state with
            | alive => simp [MemberEvent.accepts, type, state, ahead]
            | suspect => simpa [MemberEvent.accepts, type, state] using fresh
            | dead => exact absurd state notDead
            | left => exact absurd state member

theorem applyDead_heeds (now : Int) (other : event.nodeId ≠ swim.self.nodeId) (type : event.type = .dead)
    (found : swim.members[event.nodeId]? = record) :
    swim.Heeds event now record (swim.applyDead event other) := by
  unfold applyDead
  split
  · rename_i unknown
    obtain rfl := unknown.symm.trans found
    exact heeds_record (by simp [MemberEvent.accepts, type])
      (by simp [MemberEvent.update, MemberEvent.entryState, type]) (by simp [MemberEvent.notices, type])
  · rename_i entry known
    obtain rfl := known.symm.trans found
    split
    · rename_i dead
      exact heeds_unchanged (by simp [MemberEvent.accepts, type, dead])
    · rename_i notDead
      split
      · rename_i left
        exact heeds_unchanged (by simp [MemberEvent.accepts, type, left])
      · rename_i member
        split
        · rename_i stale
          exact heeds_unchanged (by simp [MemberEvent.accepts, type, stale])
        · rename_i current
          refine heeds_record ?_ (by simp [MemberEvent.update, type]) (by simp [MemberEvent.notices, type])
          have ahead := UInt64.not_lt.mp current
          cases state : entry.state with
          | alive => simp [MemberEvent.accepts, type, state, ahead]
          | suspect => simp [MemberEvent.accepts, type, state, ahead]
          | dead => exact absurd state notDead
          | left => exact absurd state member

theorem applyLeave_heeds (now : Int) (other : event.nodeId ≠ swim.self.nodeId) (type : event.type = .leave)
    (found : swim.members[event.nodeId]? = record) :
    swim.Heeds event now record (swim.applyLeave event other) := by
  unfold applyLeave
  split
  · rename_i unknown
    obtain rfl := unknown.symm.trans found
    exact heeds_record (by simp [MemberEvent.accepts, type])
      (by simp [MemberEvent.update, MemberEvent.entryState, type]) (by simp [MemberEvent.notices, type])
  · rename_i entry known
    obtain rfl := known.symm.trans found
    split
    · rename_i left
      exact heeds_unchanged (by simp [MemberEvent.accepts, type, left])
    · rename_i member
      exact heeds_record (by simp [MemberEvent.accepts, type, member]) (by simp [MemberEvent.update, type])
        (by simp [MemberEvent.notices, type])

/-- All `applyEvent` does about another node, it does to that node's record. -/
theorem applyEvent_heeds (now : Int) (other : event.nodeId ≠ swim.self.nodeId) :
    swim.Heeds event now swim.members[event.nodeId]? (swim.applyEvent event now) := by
  unfold applyEvent
  rw [dif_neg other]
  split
  · rename_i type
    exact applyAlive_heeds now other (.inl type) rfl
  · rename_i type
    exact applyAlive_heeds now other (.inr type) rfl
  · rename_i type
    exact applySuspect_heeds now type rfl
  · rename_i type
    exact applyDead_heeds now other type rfl
  · rename_i type
    exact applyLeave_heeds now other type rfl
  · rename_i type
    refine heeds_unchanged ?_
    cases swim.members[event.nodeId]? <;> simp [MemberEvent.accepts, type]

theorem applyEvent_result (now : Int) (other : event.nodeId ≠ swim.self.nodeId) :
    (swim.applyEvent event now).result = event.accepts swim.members[event.nodeId]? := by
  have heeds := applyEvent_heeds now other
  cases answer : event.accepts swim.members[event.nodeId]? with
  | false => rw [heeds.2 answer, unchanged]
  | true =>
    obtain ⟨peer, same⟩ := heeds.1 answer
    rw [same]

theorem applyEvent_fired (now : Int) (other : event.nodeId ≠ swim.self.nodeId) :
    (swim.applyEvent event now).fired =
      if event.accepts swim.members[event.nodeId]? = true then event.notices swim.members[event.nodeId]? else [] := by
  have heeds := applyEvent_heeds now other
  cases answer : event.accepts swim.members[event.nodeId]? with
  | false => rw [heeds.2 answer, unchanged, if_neg Bool.false_ne_true]
  | true =>
    obtain ⟨peer, same⟩ := heeds.1 answer
    rw [same, if_pos rfl]

theorem lookup_applyEvent (now : Int) (other : event.nodeId ≠ swim.self.nodeId) (id : Bytes) :
    (swim.applyEvent event now).swim.members[id]? =
      if event.nodeId = id ∧ event.accepts swim.members[id]? = true then some (event.update now swim.members[id]?)
      else swim.members[id]? := by
  have heeds := applyEvent_heeds now other
  cases answer : event.accepts swim.members[event.nodeId]? with
  | false =>
    rw [heeds.2 answer, unchanged, if_neg]
    rintro ⟨rfl, accepted⟩
    simp [answer] at accepted
  | true =>
    obtain ⟨peer, same⟩ := heeds.1 answer
    rw [same, record, OrderedMap.lookup_insert, update_nodeId]
    by_cases here : event.nodeId = id
    · subst here
      simp [answer]
    · simp [here]

/-- An event about another node leaves alone what the node says of itself and its queue. -/
theorem applyEvent_own (now : Int) (other : event.nodeId ≠ swim.self.nodeId) :
    (swim.applyEvent event now).swim.self = swim.self ∧
      (swim.applyEvent event now).swim.incarnation = swim.incarnation ∧
      (swim.applyEvent event now).swim.selfLeft = swim.selfLeft ∧
      (swim.applyEvent event now).swim.pending = swim.pending := by
  have heeds := applyEvent_heeds now other
  cases answer : event.accepts swim.members[event.nodeId]? with
  | false =>
    rw [heeds.2 answer]
    exact ⟨rfl, rfl, rfl, rfl⟩
  | true =>
    obtain ⟨peer, same⟩ := heeds.1 answer
    rw [same]
    exact ⟨rfl, rfl, rfl, rfl⟩

theorem members_applySelfEvent (event : MemberEvent) :
    (swim.applySelfEvent event).swim.members = swim.members ∧ (swim.applySelfEvent event).swim.self = swim.self := by
  unfold applySelfEvent
  split
  · split <;> exact ⟨rfl, rfl⟩
  · split <;> exact ⟨rfl, rfl⟩
  · split <;> exact ⟨rfl, rfl⟩
  · exact ⟨rfl, rfl⟩

/-- What a view holds of a peer after any event. -/
theorem lookup_applyEvent_peer {id : Bytes} (now : Int) (peer : id ≠ swim.self.nodeId) :
    (swim.applyEvent event now).swim.members[id]? =
      if event.nodeId = id ∧ event.accepts swim.members[id]? = true
      then some (event.update now swim.members[id]?) else swim.members[id]? := by
  by_cases own : event.nodeId = swim.self.nodeId
  · have elsewhere : event.nodeId ≠ id := fun same => peer (same.symm.trans own)
    rw [applyEvent, dif_pos own, (members_applySelfEvent event).1, if_neg (fun taken => elsewhere taken.1)]
  · exact lookup_applyEvent now own id

theorem joined_nodeId (swim : Swim) (event : MemberEvent) :
    (event.joined swim.members[event.nodeId]?).info.nodeId = event.nodeId := by
  cases found : swim.members[event.nodeId]? with
  | none => rfl
  | some entry => simpa [MemberEvent.joined] using swim.keyed _ _ found

theorem applyDirectJoin_refused (other : event.nodeId ≠ swim.self.nodeId)
    (departed : Record.Departed swim.members[event.nodeId]?) :
    swim.applyDirectJoin event = ⟨none, swim, []⟩ := by
  unfold applyDirectJoin
  rw [dif_neg other]
  split
  · rename_i unknown
    simp [Record.Departed, unknown] at departed
  · rename_i entry found
    have left : entry.state = .left := by simpa [Record.Departed, found] using departed
    rw [if_pos left]

theorem applyDirectJoin_taken (other : event.nodeId ≠ swim.self.nodeId)
    (member : ¬ Record.Departed swim.members[event.nodeId]?) :
    ∃ peer, swim.applyDirectJoin event =
      ⟨some (event.joined swim.members[event.nodeId]?).incarnation,
        swim.record (event.joined swim.members[event.nodeId]?) peer,
        event.joinNotices swim.members[event.nodeId]?⟩ := by
  have peer : (event.joined swim.members[event.nodeId]?).info.nodeId ≠ swim.self.nodeId := by
    rwa [joined_nodeId]
  refine ⟨peer, ?_⟩
  unfold applyDirectJoin
  rw [dif_neg other]
  split
  · rename_i unknown
    simp only [unknown, MemberEvent.joined, MemberEvent.joinNotices]
  · rename_i entry found
    have stays : entry.state ≠ .left := by simpa [Record.Departed, found] using member
    simp only [stays, ↓reduceIte, found, MemberEvent.joined, MemberEvent.joinNotices]
    rfl

theorem applyDirectJoin_fired (other : event.nodeId ≠ swim.self.nodeId) :
    (swim.applyDirectJoin event).fired =
      if Record.Departed swim.members[event.nodeId]? then [] else event.joinNotices swim.members[event.nodeId]? := by
  split
  · rename_i departed
    rw [applyDirectJoin_refused other departed]
  · rename_i member
    obtain ⟨peer, same⟩ := applyDirectJoin_taken other member
    rw [same]

theorem lookup_applyDirectJoin (other : event.nodeId ≠ swim.self.nodeId) (id : Bytes) :
    (swim.applyDirectJoin event).swim.members[id]? =
      if event.nodeId = id ∧ ¬ Record.Departed swim.members[id]? then some (event.joined swim.members[id]?)
      else swim.members[id]? := by
  by_cases departed : Record.Departed swim.members[event.nodeId]?
  · rw [applyDirectJoin_refused other departed, if_neg]
    rintro ⟨rfl, member⟩
    exact member departed
  · obtain ⟨peer, same⟩ := applyDirectJoin_taken other departed
    rw [same, record, OrderedMap.lookup_insert, joined_nodeId]
    by_cases here : event.nodeId = id
    · subst here
      simp [departed]
    · simp [here]

/-- A join handshake leaves alone what the node says of itself and its queue. -/
theorem applyDirectJoin_own (swim : Swim) (event : MemberEvent) :
    (swim.applyDirectJoin event).swim.self = swim.self ∧
      (swim.applyDirectJoin event).swim.incarnation = swim.incarnation ∧
      (swim.applyDirectJoin event).swim.selfLeft = swim.selfLeft ∧
      (swim.applyDirectJoin event).swim.pending = swim.pending := by
  by_cases own : event.nodeId = swim.self.nodeId
  · rw [applyDirectJoin, dif_pos own]
    exact ⟨rfl, rfl, rfl, rfl⟩
  · by_cases departed : Record.Departed swim.members[event.nodeId]?
    · rw [applyDirectJoin_refused own departed]
      exact ⟨rfl, rfl, rfl, rfl⟩
    · obtain ⟨peer, same⟩ := applyDirectJoin_taken own departed
      rw [same]
      exact ⟨rfl, rfl, rfl, rfl⟩

end Swim

end MiniDynamo
