import MiniDynamo.Library.Answered
import MiniDynamo.Gossip.Node

/-! The queue of events to piggyback. Budgets never fall towards its end, so that what is
dropped when messages go out comes off the front, and a leave outlasts all that was queued
before it. -/

namespace MiniDynamo

/-- Whoever takes these events in order and hears that the member is up hears later that it
has left. -/
abbrev Buries (id : Bytes) (events : List MemberEvent) : Prop :=
  Answered (MemberEvent.Revives · id) (MemberEvent.Leaves · id) events

/-- Only a leave makes a member's record left. -/
theorem MemberEvent.leave_of_update {event : MemberEvent} {now : Int} {record : Record}
    (accepted : event.accepts record = true) (left : (event.update now record).state = .left) :
    event.type = .leave := by
  cases record with
  | none => cases type : event.type <;> simp_all [accepts, update, entryState]
  | some entry => cases type : event.type <;> simp_all [accepts, update]

namespace Swim

variable {swim after : Swim} {id : Bytes} {event : MemberEvent}

theorem size_le_record {entry : MemberEntry} {other : entry.info.nodeId ≠ swim.self.nodeId} :
    swim.members.size ≤ (swim.record entry other).members.size :=
  Std.ExtTreeMap.size_le_size_insert

theorem disseminationLimit_mono (grown : swim.members.size ≤ after.members.size) :
    swim.disseminationLimit ≤ after.disseminationLimit := by
  have mono : Nat.clog 2 (swim.members.size + 1 + 1) ≤ Nat.clog 2 (after.members.size + 1 + 1) :=
    Nat.clog_mono_right 2 (by omega)
  unfold disseminationLimit
  simp only
  omega

/-- The queue is in order, and has a leave after all that says a departed member is up. -/
structure Orderly (swim : Swim) (id : Bytes) : Prop where
  sorted : swim.pending.Pairwise (fun earlier later => earlier.remaining ≤ later.remaining)
  bounded : ∀ waiting ∈ swim.pending, waiting.remaining ≤ swim.disseminationLimit
  buried : swim.stateOf id = some .left → Buries id (swim.pending.map PendingEvent.event)

theorem orderly_start (self : NodeInfo) (id : Bytes) : (start self).Orderly id :=
  ⟨List.Pairwise.nil, fun _ waiting => absurd waiting List.not_mem_nil, fun _ => trivial⟩

/-- A change that is announced keeps the order if it takes no departed member for alive and
says so if one departs. -/
theorem Orderly.tell (orderly : swim.Orderly id) (after : Swim) (queue : after.pending = swim.pending)
    (grown : swim.members.size ≤ after.members.size)
    (spared : after.stateOf id = some .left →
      (swim.stateOf id = some .left ∨ event.Leaves id) ∧ ¬ event.Revives id) :
    (after.enqueueEvent event).Orderly id where
  sorted := by
    rw [enqueueEvent, queue, List.pairwise_append]
    refine ⟨orderly.sorted, List.pairwise_singleton .., fun waiting member last added => ?_⟩
    rw [List.mem_singleton.mp added]
    exact (orderly.bounded waiting member).trans (disseminationLimit_mono grown)
  bounded waiting member := by
    rw [enqueueEvent, queue, List.mem_append] at member
    rcases member with member | added
    · exact (orderly.bounded waiting member).trans (disseminationLimit_mono grown)
    · rw [List.mem_singleton.mp added]
      exact le_refl after.disseminationLimit
  buried gone := by
    obtain ⟨told, quiet⟩ := spared gone
    rw [enqueueEvent, queue, List.map_append]
    exact answered_snoc (told.imp_left orderly.buried) quiet

/-- The node retires, and says so. -/
theorem Orderly.retire (orderly : swim.Orderly id) (leaves : event.Leaves swim.self.nodeId) :
    ({ swim with selfLeft := true }.enqueueEvent event).Orderly id := by
  refine orderly.tell { swim with selfLeft := true } rfl (le_refl _) (fun gone => ⟨?_, ?_⟩)
  · by_cases self : id = swim.self.nodeId
    · exact .inr (self ▸ leaves)
    · rw [stateOf, if_neg self] at gone
      exact .inl (by rwa [stateOf, if_neg self])
  · simp [MemberEvent.Revives, leaves.2]

/-- Nothing is dropped while all have messages to go. -/
theorem drain_kept {waiting : List PendingEvent} (lasting : ∀ kept ∈ waiting, 1 < kept.remaining) :
    (waiting.filterMap (fun kept =>
      if kept.remaining - 1 ≤ 0 then none else some ⟨kept.event, kept.remaining - 1⟩)).map PendingEvent.event =
      waiting.map PendingEvent.event := by
  induction waiting with
  | nil => rfl
  | cons kept rest ih =>
    have more : ¬ kept.remaining - 1 ≤ 0 := by
      have := lasting kept (List.mem_cons_self ..)
      omega
    rw [List.filterMap_cons, if_neg more]
    simp only [List.map_cons]
    rw [ih (fun later member => lasting later (List.mem_cons_of_mem _ member))]

theorem drain_suffix {waiting : List PendingEvent}
    (sorted : waiting.Pairwise (fun earlier later => earlier.remaining ≤ later.remaining)) :
    (waiting.filterMap (fun kept =>
      if kept.remaining - 1 ≤ 0 then none else some ⟨kept.event, kept.remaining - 1⟩)).map PendingEvent.event <:+
      waiting.map PendingEvent.event := by
  induction waiting with
  | nil => exact List.suffix_refl _
  | cons first rest ih =>
    obtain ⟨least, ordered⟩ := List.pairwise_cons.mp sorted
    by_cases spent : first.remaining - 1 ≤ 0
    · rw [List.filterMap_cons, if_pos spent]
      exact (ih ordered).trans (List.suffix_cons ..)
    · rw [drain_kept]
      intro kept member
      rcases List.mem_cons.mp member with rfl | later
      · omega
      · have := least kept later
        omega

theorem Orderly.drain (orderly : swim.Orderly id) : swim.getEventsToSend.swim.Orderly id where
  sorted := by
    refine orderly.sorted.filterMap _ ?_
    intro earlier later order first kept second keptLater
    simp only [Option.ite_none_left_eq_some, Option.some.injEq] at kept keptLater
    rw [← kept.2, ← keptLater.2]
    exact Int.sub_le_sub_right order 1
  bounded waiting member := by
    obtain ⟨before, present, kept⟩ := List.mem_filterMap.mp member
    simp only [Option.ite_none_left_eq_some, Option.some.injEq] at kept
    have bound : before.remaining ≤ swim.getEventsToSend.swim.disseminationLimit := orderly.bounded before present
    rw [← kept.2]
    exact (Int.sub_le_self _ (by decide)).trans bound
  buried gone := (orderly.buried gone).suffix (drain_suffix orderly.sorted)

/-- The node hears of itself that it is failing, and has to answer. -/
def Accused (swim : Swim) (event : MemberEvent) : Prop :=
  event.nodeId = swim.self.nodeId ∧ (event.type = .suspect ∨ event.type = .dead) ∧
    swim.incarnation ≤ event.incarnation

instance (swim : Swim) (event : MemberEvent) : Decidable (swim.Accused event) :=
  inferInstanceAs (Decidable (event.nodeId = swim.self.nodeId ∧ (event.type = .suspect ∨ event.type = .dead) ∧
    swim.incarnation ≤ event.incarnation))

/-- The view after a relayed event, with the event back on the queue if it changed anything. -/
def relay (swim : Swim) (event : MemberEvent) (now : Int) : Swim :=
  if (swim.applyEvent event now).result then (swim.applyEvent event now).swim.enqueueEvent event
  else (swim.applyEvent event now).swim

theorem Orderly.refuted (orderly : swim.Orderly id) (answer : MemberEvent) (about : answer.nodeId = swim.self.nodeId)
    (type : event.type = .suspect ∨ event.type = .dead)
    (quiet : id = swim.self.nodeId → swim.selfLeft = false) (incarnation : UInt64) :
    (({ swim with incarnation := incarnation }.enqueueEvent answer).enqueueEvent event).Orderly id := by
  have silent : ¬ event.Revives id ∧ ¬ event.Leaves id := by
    rcases type with type | type <;> simp [MemberEvent.Revives, MemberEvent.Leaves, type]
  have answered : ({ swim with incarnation := incarnation }.enqueueEvent answer).Orderly id := by
    refine orderly.tell _ rfl (le_refl _) (fun gone => ⟨.inl gone, ?_⟩)
    rintro ⟨same, -⟩
    have self := same.symm.trans about
    exact Bool.false_ne_true ((quiet self).symm.trans (retired_of_left gone self))
  exact answered.tell _ rfl (le_refl _) (fun gone => ⟨.inl gone, silent.1⟩)

theorem Orderly.relay_own (orderly : swim.Orderly id) (now : Int) (own : event.nodeId = swim.self.nodeId)
    (quiet : id = swim.self.nodeId → swim.selfLeft = true → ¬ swim.Accused event) :
    (swim.relay event now).Orderly id := by
  have accused (type : event.type = .suspect ∨ event.type = .dead) (late : ¬ event.incarnation < swim.incarnation) :
      id = swim.self.nodeId → swim.selfLeft = false := by
    intro self
    by_contra retired
    exact quiet self (Bool.not_eq_false _ ▸ retired) ⟨own, type, UInt64.not_lt.mp late⟩
  rw [relay, applyEvent, dif_pos own, applySelfEvent]
  split
  · rename_i type
    split
    · exact orderly
    · exact orderly.retire ⟨own, type⟩
  · rename_i type
    split
    · exact orderly
    · rename_i late
      exact orderly.refuted _ rfl (.inl type) (accused (.inl type) late) _
  · rename_i type
    split
    · exact orderly
    · rename_i late
      exact orderly.refuted _ rfl (.inr type) (accused (.inr type) late) _
  · exact orderly

theorem Orderly.relay_other (orderly : swim.Orderly id) (now : Int) (other : event.nodeId ≠ swim.self.nodeId) :
    (swim.relay event now).Orderly id := by
  have heeds := applyEvent_heeds now other
  rw [relay]
  cases answer : event.accepts swim.members[event.nodeId]? with
  | false =>
    rw [heeds.2 answer]
    exact orderly
  | true =>
    obtain ⟨peer, same⟩ := heeds.1 answer
    rw [same]
    refine orderly.tell (swim.record _ peer) rfl size_le_record (fun gone => ?_)
    rw [stateOf_record, update_nodeId] at gone
    split at gone
    · rename_i here
      have type := MemberEvent.leave_of_update answer (Option.some.inj gone)
      exact ⟨.inr ⟨here, type⟩, by simp [MemberEvent.Revives, type]⟩
    · rename_i elsewhere
      exact ⟨.inl gone, fun revives => elsewhere revives.1⟩

theorem Orderly.relay (orderly : swim.Orderly id) (event : MemberEvent) (now : Int)
    (quiet : id = swim.self.nodeId → swim.selfLeft = true → ¬ swim.Accused event) :
    (swim.relay event now).Orderly id := by
  by_cases own : event.nodeId = swim.self.nodeId
  · exact orderly.relay_own now own quiet
  · exact orderly.relay_other now own

/-- A joiner that has not left is announced. -/
theorem Orderly.join (orderly : swim.Orderly id) {eff : UInt64}
    (taken : (swim.applyDirectJoin event).result = some eff)
    (quiet : id = swim.self.nodeId → swim.selfLeft = true → event.nodeId ≠ id) :
    ((swim.applyDirectJoin event).swim.enqueueEvent { event with type := .alive, incarnation := eff }).Orderly id := by
  by_cases own : event.nodeId = swim.self.nodeId
  · rw [applyDirectJoin, dif_pos own]
    refine orderly.tell _ rfl (le_refl _) (fun gone => ⟨.inl gone, ?_⟩)
    rintro ⟨same, -⟩
    have self := same.symm.trans own
    exact quiet self (retired_of_left gone self) same
  · by_cases departed : Record.Departed swim.members[event.nodeId]?
    · rw [applyDirectJoin_refused own departed] at taken
      cases taken
    · obtain ⟨peer, same⟩ := applyDirectJoin_taken own departed
      rw [same]
      refine orderly.tell (swim.record _ peer) rfl size_le_record (fun gone => ?_)
      rw [stateOf_record, joined_nodeId] at gone
      split at gone
      · cases found : swim.members[event.nodeId]? <;> simp [found, MemberEvent.joined] at gone
      · rename_i elsewhere
        exact ⟨.inl gone, fun revives => elsewhere revives.1⟩

/-- A member's record changes to one that has not left, and everyone is told so. -/
theorem Orderly.amend (orderly : swim.Orderly id) {place : Bytes} {entry changed : MemberEntry}
    (found : swim.members[place]? = some entry) (same : changed.info.nodeId = entry.info.nodeId)
    (spared : changed.state = .left → event.Leaves place) (quiet : ∀ id, ¬ event.Revives id) :
    ((swim.amend found changed same).enqueueEvent event).Orderly id := by
  refine orderly.tell (swim.amend found changed same) rfl size_le_record (fun gone => ⟨?_, quiet id⟩)
  rw [Swim.amend, stateOf_record, same, swim.keyed _ _ found] at gone
  split at gone
  · rename_i here
    exact .inr (here ▸ spared (Option.some.inj gone))
  · exact .inl gone

theorem Orderly.suspect (orderly : swim.Orderly id) (nodeId : Bytes) (now : Int) :
    (swim.suspect nodeId now).swim.Orderly id := by
  unfold Swim.suspect
  split
  · exact orderly
  · rename_i entry found
    split
    · exact orderly
    · exact orderly.amend found (by rfl) (by simp) (by simp [MemberEvent.Revives])

theorem Orderly.bury (orderly : swim.Orderly id) {place : Bytes} {entry : MemberEntry}
    (found : swim.members[place]? = some entry) : (swim.bury found).swim.Orderly id :=
  orderly.amend found (by rfl) (by simp) (by simp [MemberEvent.Revives])

theorem Orderly.leave (orderly : swim.Orderly id) (nodeId : Bytes) : (swim.leave nodeId).swim.Orderly id := by
  unfold Swim.leave
  split
  · rename_i own
    split
    · exact orderly
    · exact orderly.retire ⟨own, rfl⟩
  · split
    · exact orderly
    · rename_i entry found
      split
      · exact orderly
      · exact orderly.amend found (by rfl) (fun _ => ⟨rfl, rfl⟩) (by simp [MemberEvent.Revives])

theorem Orderly.expireSuspects (orderly : swim.Orderly id) (timeout now : Int) :
    (swim.expireSuspects timeout now).swim.Orderly id := by
  have loop : ∀ (ids : List Bytes) (progress : Reaction (List Bytes)), progress.swim.Orderly id →
      (ids.foldl (expireSuspect timeout now) progress).swim.Orderly id := by
    intro ids
    induction ids with
    | nil => exact fun _ kept => kept
    | cons place rest ih =>
      intro progress kept
      refine ih _ ?_
      unfold expireSuspect
      split
      · exact kept
      · rename_i entry found
        split
        · exact kept.bury found
        · exact kept
  exact loop _ _ orderly

end Swim

end MiniDynamo
