import MiniDynamo.Library.Budgets
import MiniDynamo.Gossip.Queue

/-! How long events are piggybacked: each goes out with as many messages as the limit said when it
was queued, whatever is queued in between. -/

namespace MiniDynamo

namespace Swim

variable {swim after : Swim}

/-- The queue grows at its end by some events, with the limit of the view they leave as budget. -/
def Tells (swim after : Swim) (events : List MemberEvent) : Prop :=
  after.pending = swim.pending ++ events.map (⟨·, after.disseminationLimit⟩)

theorem tells_nothing (queue : after.pending = swim.pending) : swim.Tells after [] := by
  rw [Tells, queue, List.map_nil, List.append_nil]

theorem tells_event (queue : after.pending = swim.pending) (event : MemberEvent) :
    swim.Tells (after.enqueueEvent event) [event] := by
  rw [Tells, enqueueEvent, queue]
  rfl

theorem size_amend {id : Bytes} {entry changed : MemberEntry} (found : swim.members[id]? = some entry)
    (same : changed.info.nodeId = entry.info.nodeId) :
    (swim.amend found changed same).members.size = swim.members.size := by
  have present : swim.members.contains changed.info.nodeId = true := by
    rw [same, swim.keyed id entry found, Std.ExtTreeMap.contains_eq_isSome_getElem?, found]
    rfl
  rw [amend, record, Std.ExtTreeMap.size_insert, if_pos present]

theorem disseminationLimit_congr (size : after.members.size = swim.members.size) :
    after.disseminationLimit = swim.disseminationLimit := by
  rw [disseminationLimit, disseminationLimit, size]

theorem three_le_disseminationLimit (swim : Swim) : 3 ≤ swim.disseminationLimit := le_max_left ..

theorem tells_applySelfEvent (event : MemberEvent) : ∃ events, swim.Tells (swim.applySelfEvent event).swim events := by
  unfold applySelfEvent
  split
  · split <;> exact ⟨_, tells_nothing rfl⟩
  · split
    · exact ⟨_, tells_nothing rfl⟩
    · exact ⟨_, tells_event rfl _⟩
  · split
    · exact ⟨_, tells_nothing rfl⟩
    · exact ⟨_, tells_event rfl _⟩
  · exact ⟨_, tells_nothing rfl⟩

theorem tells_applyEvent (event : MemberEvent) (now : Int) :
    ∃ events, swim.Tells (swim.applyEvent event now).swim events := by
  by_cases own : event.nodeId = swim.self.nodeId
  · rw [applyEvent, dif_pos own]
    exact tells_applySelfEvent event
  · exact ⟨_, tells_nothing (applyEvent_own now own).2.2.2⟩

theorem tells_leave (nodeId : Bytes) : ∃ events, swim.Tells (swim.leave nodeId).swim events := by
  unfold leave
  split
  · split
    · exact ⟨_, tells_nothing rfl⟩
    · exact ⟨_, tells_event rfl _⟩
  · split
    · exact ⟨_, tells_nothing rfl⟩
    · split
      · exact ⟨_, tells_nothing rfl⟩
      · exact ⟨_, tells_event rfl _⟩

theorem tells_suspect (nodeId : Bytes) (now : Int) : ∃ events, swim.Tells (swim.suspect nodeId now).swim events := by
  unfold suspect
  split
  · exact ⟨_, tells_nothing rfl⟩
  · split
    · exact ⟨_, tells_nothing rfl⟩
    · exact ⟨_, tells_event rfl _⟩

theorem tells_confirmDead (nodeId : Bytes) : ∃ events, swim.Tells (swim.confirmDead nodeId).swim events := by
  unfold confirmDead
  split
  · exact ⟨_, tells_nothing rfl⟩
  · split
    · exact ⟨_, tells_nothing rfl⟩
    · split
      · exact ⟨_, tells_nothing rfl⟩
      · exact ⟨_, tells_event rfl _⟩

/-- One more event, from a view of the same size. -/
theorem Tells.event {later : Swim} {events : List MemberEvent} (tells : swim.Tells after events)
    (queue : later.pending = after.pending) (size : later.members.size = after.members.size) (event : MemberEvent) :
    swim.Tells (later.enqueueEvent event) (events ++ [event]) := by
  have limit : (later.enqueueEvent event).disseminationLimit = after.disseminationLimit := disseminationLimit_congr size
  rw [Tells, limit, List.map_append, ← List.append_assoc, ← tells, enqueueEvent, queue, disseminationLimit_congr size]
  rfl

theorem Tells.bury {events : List MemberEvent} (tells : swim.Tells after events) {id : Bytes} {entry : MemberEntry}
    (found : after.members[id]? = some entry) :
    ∃ events, swim.Tells (after.bury found).swim events := by
  rw [Swim.bury]
  refine ⟨_, tells.event ?_ ?_ _⟩
  · rfl
  · exact size_amend found _

theorem tells_expireSuspects (timeout now : Int) :
    ∃ events, swim.Tells (swim.expireSuspects timeout now).swim events := by
  have loop : ∀ (ids : List Bytes) (progress : Reaction (List Bytes)),
      (∃ events, swim.Tells progress.swim events) →
      ∃ events, swim.Tells (ids.foldl (expireSuspect timeout now) progress).swim events := by
    intro ids
    induction ids with
    | nil => exact fun _ tells => tells
    | cons place rest ih =>
      rintro progress ⟨events, tells⟩
      refine ih _ ?_
      unfold expireSuspect
      split
      · exact ⟨events, tells⟩
      · rename_i entry found
        split
        · exact tells.bury found
        · exact ⟨events, tells⟩
  exact loop _ _ ⟨[], tells_nothing rfl⟩

end Swim

/-- Only `getEventsToSend` takes anything off the queue. -/
theorem Operation.tells (swim : Swim) {operation : Operation} (queues : operation ≠ .getEventsToSend) :
    ∃ events, swim.Tells (operation.react swim).1 events := by
  cases operation with
  | applyEvent event now => exact Swim.tells_applyEvent event now
  | applyDirectJoin event => exact ⟨_, Swim.tells_nothing (swim.applyDirectJoin_own event).2.2.2⟩
  | suspect nodeId now => exact Swim.tells_suspect nodeId now
  | confirmDead nodeId => exact Swim.tells_confirmDead nodeId
  | leave nodeId => exact Swim.tells_leave nodeId
  | refute => exact ⟨_, Swim.tells_event rfl _⟩
  | expireSuspects timeout now => exact Swim.tells_expireSuspects timeout now
  | enqueueEvent event => exact ⟨_, Swim.tells_event rfl event⟩
  | getEventsToSend => exact absurd rfl queues

/-- A view with a log: every event ever queued, with the limit then and the number of calls of
`getEventsToSend` before it, and what these calls returned. -/
structure Dissemination where
  swim : Swim
  queued : List (Budgeted MemberEvent)
  returned : List (List MemberEvent)

namespace Dissemination

def start (self : NodeInfo) : Dissemination := ⟨.start self, [], []⟩

/-- What an operation queues stands behind what was queued before. -/
def note (state : Dissemination) (operation : Operation) : Dissemination :=
  let after := (operation.react state.swim).1
  let events := (after.pending.drop state.swim.pending.length).map PendingEvent.event
  { state with
    swim := after
    queued := state.queued ++ events.map (⟨·, after.disseminationLimit, state.returned.length⟩) }

def step (state : Dissemination) : Operation → Dissemination
  | .getEventsToSend =>
    let sent := state.swim.getEventsToSend
    { state with swim := sent.swim, returned := state.returned ++ [sent.result] }
  | operation => state.note operation

def run (state : Dissemination) (operations : List Operation) : Dissemination := operations.foldl step state

/-- The queue holds what has budget left, and every call returned what was due. -/
structure Exact (state : Dissemination) : Prop where
  queue : state.swim.pending.map (fun kept => (kept.event, kept.remaining)) =
    Budgeted.waiting state.queued state.returned.length
  past : ∀ queued ∈ state.queued, queued.queuedAt ≤ state.returned.length
  enough : ∀ queued ∈ state.queued, 3 ≤ queued.budget
  due : ∀ call result, state.returned[call]? = some result → result = Budgeted.due state.queued call

theorem exact_start (self : NodeInfo) : (start self).Exact :=
  ⟨rfl, by simp [start], by simp [start], by simp [start]⟩

variable {state : Dissemination}

/-- The queue as pairs is spent as pairs are. -/
theorem pending_getEventsToSend (swim : Swim) :
    swim.getEventsToSend.swim.pending.map (fun kept => (kept.event, kept.remaining)) =
      Budgeted.spend (swim.pending.map (fun kept => (kept.event, kept.remaining))) := by
  rw [Swim.getEventsToSend, Budgeted.spend, List.filterMap_map, List.map_filterMap]
  refine List.filterMap_congr (fun kept _ => ?_)
  by_cases spent : kept.remaining - 1 ≤ 0
  · simp only [spent, ↓reduceIte, Option.map_none, Function.comp_apply]
  · simp only [spent, ↓reduceIte, Option.map_some, Function.comp_apply]

theorem Exact.send (holds : state.Exact) : (state.step .getEventsToSend).Exact := by
  have result : state.swim.getEventsToSend.result = Budgeted.due state.queued state.returned.length := by
    rw [Budgeted.due_eq holds.past, ← holds.queue, List.map_map]
    rfl
  rw [step]
  refine ⟨?_, fun queued member => ?_, holds.enough, fun call found returned => ?_⟩
  · rw [List.length_append, List.length_singleton, ← Budgeted.spend_waiting, ← holds.queue]
    exact pending_getEventsToSend state.swim
  · have before := holds.past queued member
    simp only [List.length_append, List.length_singleton]
    omega
  · rcases Nat.lt_trichotomy call state.returned.length with before | rfl | beyond
    · rw [List.getElem?_append_left before] at returned
      exact holds.due call found returned
    · rw [List.getElem?_concat_length] at returned
      exact (Option.some.inj returned).symm.trans result
    · rw [List.getElem?_eq_none (by simp; omega)] at returned
      cases returned

theorem Exact.note (holds : state.Exact) {operation : Operation} (queues : operation ≠ .getEventsToSend) :
    (state.note operation).Exact := by
  obtain ⟨events, tells⟩ := Operation.tells state.swim queues
  have enough := Swim.three_le_disseminationLimit (operation.react state.swim).1
  have new : (((operation.react state.swim).1.pending.drop state.swim.pending.length).map PendingEvent.event) =
      events := by
    rw [tells, List.drop_left, List.map_map]
    exact List.map_id events
  rw [Dissemination.note, new]
  refine ⟨?_, fun queued member => ?_, fun queued member => ?_, fun call found returned => ?_⟩
  · rw [Budgeted.waiting_append events (by omega), ← holds.queue, tells, List.map_append, List.map_map]
    rfl
  · rcases List.mem_append.mp member with before | added
    · exact holds.past queued before
    · obtain ⟨event, -, rfl⟩ := List.mem_map.mp added
      exact Nat.le_refl _
  · rcases List.mem_append.mp member with before | added
    · exact holds.enough queued before
    · obtain ⟨event, -, rfl⟩ := List.mem_map.mp added
      exact enough
  · have before : call < state.returned.length := (List.getElem?_eq_some_iff.mp returned).1
    rw [Budgeted.due_append events _ before]
    exact holds.due call found returned

theorem Exact.step (holds : state.Exact) (operation : Operation) : (state.step operation).Exact := by
  cases operation with
  | getEventsToSend => exact holds.send
  | _ => exact holds.note (by simp)

theorem Exact.run (holds : state.Exact) (operations : List Operation) : (state.run operations).Exact := by
  induction operations generalizing state with
  | nil => exact holds
  | cons operation rest ih => exact ih (holds.step operation)

theorem queued_enqueueEvent (state : Dissemination) (event : MemberEvent) :
    (state.step (.enqueueEvent event)).queued =
      state.queued ++ [⟨event, state.swim.disseminationLimit, state.returned.length⟩] := by
  have new : (state.swim.enqueueEvent event).pending.drop state.swim.pending.length =
      [⟨event, state.swim.disseminationLimit⟩] := List.drop_left
  show state.queued ++ (((state.swim.enqueueEvent event).pending.drop _).map PendingEvent.event).map _ = _
  rw [new]
  rfl

/-- Every call of `getEventsToSend` returns, in the order in which they were queued, the events for
which it is among the next calls after they were queued, as many as the limit was then. -/
theorem dissemination_budgets_exact (self : NodeInfo) (operations : List Operation) :
    let state := (start self).run operations
    (∀ queued ∈ state.queued, 3 ≤ queued.budget) ∧
    (∀ call result, state.returned[call]? = some result → result = Budgeted.due state.queued call) ∧
    ∀ event, (state.step (.enqueueEvent event)).queued =
      state.queued ++ [⟨event, state.swim.disseminationLimit, state.returned.length⟩] := by
  intro state
  have holds : state.Exact := (exact_start self).run operations
  exact ⟨holds.enough, holds.due, queued_enqueueEvent state⟩

/-- A node that is alone refutes twice, with a call in between; the fourth call returns only the
second answer. -/
theorem dissemination_budgets_exact_refuted :
    let state := (start ⟨[97], [104], 1⟩).run
      [.refute, .getEventsToSend, .refute, .getEventsToSend, .getEventsToSend, .getEventsToSend]
    [⟨.alive, [97], [104], 1, 2⟩] = Budgeted.due state.queued 3 :=
  (dissemination_budgets_exact ⟨[97], [104], 1⟩
    [.refute, .getEventsToSend, .refute, .getEventsToSend, .getEventsToSend, .getEventsToSend]).2.1 3 _
    (by decide +kernel)

end Dissemination

end MiniDynamo
