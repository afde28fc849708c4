import MiniDynamo.Gossip.Changes
import MiniDynamo.Hints.Custody

/-! Hints and membership: a writer that finds an owner dead leaves a hint, and the owner's return
makes the handoff thread deliver it. -/

namespace MiniDynamo

/-- A member is alive in the view. -/
def Swim.Up (swim : Swim) (id : Bytes) : Prop := swim.members[id]?.map MemberEntry.state = some .alive

instance (swim : Swim) (id : Bytes) : Decidable (swim.Up id) := inferInstanceAs (Decidable (_ = _))

section Returns

variable {swim : Swim} {id : Bytes}

/-- Unless an event brings a member back, it is alive only if it was. -/
theorem Changes.alive_before {hears : MemberEvent → Prop} {before after : Record}
    (changes : Changes hears id before after) (silent : ∀ event, ¬ hears event)
    (alive : after.map MemberEntry.state = some .alive) : before.map MemberEntry.state = some .alive := by
  induction changes with
  | refl => exact alive
  | tail _ change ih =>
    cases change with
    | heard told => exact absurd told (silent _)
    | suspected => cases alive
    | buried => cases alive
    | retired => cases alive

/-- An event that makes a member alive is heard of as such. -/
theorem MemberEvent.notices_of_alive {event : MemberEvent} {record : Record} {now : Int}
    (accepted : event.accepts record = true) (alive : (event.update now record).state = .alive)
    (keyed : ∀ entry ∈ record, entry.info.nodeId = event.nodeId) :
    ∃ info : NodeInfo, info.nodeId = event.nodeId ∧ (info, .alive) ∈ event.notices record := by
  cases record with
  | none =>
    refine ⟨event.info, rfl, ?_⟩
    cases type : event.type <;> simp_all [accepts, update, entryState, notices]
  | some entry =>
    refine ⟨event.readdress entry.info, by rw [readdress_nodeId, keyed entry rfl], ?_⟩
    cases type : event.type <;> simp_all [accepts, update, notices]

theorem Swim.up_of_applyEvent {event : MemberEvent} {now : Int} (up : (swim.applyEvent event now).swim.Up id) :
    swim.Up id ∨ ∃ notice ∈ (swim.applyEvent event now).fired, notice.1.nodeId = id ∧ notice.2 = .alive := by
  by_cases own : event.nodeId = swim.self.nodeId
  · rw [applyEvent, dif_pos own, Up, (members_applySelfEvent event).1] at up
    exact .inl up
  · rw [Up, lookup_applyEvent now own] at up
    split at up
    · rename_i taken
      obtain ⟨rfl, accepted⟩ := taken
      obtain ⟨info, same, heard⟩ := MemberEvent.notices_of_alive accepted (Option.some.inj up)
        (fun entry found => swim.keyed _ entry found)
      rw [applyEvent_fired now own, if_pos accepted]
      exact .inr ⟨_, heard, same, rfl⟩
    · exact .inl up

theorem Swim.up_of_applyDirectJoin {event : MemberEvent} (up : (swim.applyDirectJoin event).swim.Up id) :
    swim.Up id ∨ ∃ notice ∈ (swim.applyDirectJoin event).fired, notice.1.nodeId = id ∧ notice.2 = .alive := by
  by_cases own : event.nodeId = swim.self.nodeId
  · rw [applyDirectJoin, dif_pos own] at up
    exact .inl up
  · rw [Up, lookup_applyDirectJoin own] at up
    split at up
    · rename_i taken
      obtain ⟨rfl, member⟩ := taken
      rw [applyDirectJoin_fired own, if_neg member]
      cases found : swim.members[event.nodeId]? with
      | none => exact .inr ⟨(event.info, .alive), List.mem_singleton_self _, rfl, rfl⟩
      | some entry =>
        by_cases alive : entry.state = .alive
        · exact .inl (by rw [Up, found, Option.map_some, alive])
        · refine .inr ⟨(event.readdress entry.info, .alive), ?_, ?_, rfl⟩
          · rw [MemberEvent.joinNotices, if_neg alive]
            exact List.mem_singleton_self _
          · rw [MemberEvent.readdress_nodeId, swim.keyed _ entry found]
    · exact .inl up

/-- A member that an operation makes alive is heard of as such. -/
theorem Operation.up_before {operation : Operation} (up : (operation.react swim).1.Up id) :
    swim.Up id ∨ ∃ notice ∈ (operation.react swim).2, notice.1.nodeId = id ∧ notice.2 = .alive := by
  have quiet : operation.Relayed → (∀ event, ¬ operation.Hears event) → swim.Up id := fun relayed silent =>
    (operation.changes relayed swim id).alive_before silent up
  cases operation with
  | applyEvent event now => exact Swim.up_of_applyEvent up
  | applyDirectJoin event => exact Swim.up_of_applyDirectJoin up
  | suspect | confirmDead | leave | refute | expireSuspects | enqueueEvent | getEventsToSend =>
    exact .inl (quiet trivial (fun _ heard => by simp [Operation.Hears] at heard))

end Returns

/-- A write that found its owner dead and has not left its hint yet. -/
structure CheckedWrite where
  target : Bytes
  key : Bytes
  value : VersionedValue

/-- A node's view, its hints, the recoveries its handoff thread has been told of and those it is
working off, and the writers between their liveness check and their hint. -/
structure Recovery where
  swim : Swim
  handoff : Handoff
  recoveryQueue : List NodeInfo
  targets : List NodeInfo
  checked : List CheckedWrite

inductive RecoveryAction where
  | change (operation : Operation)
  | check (owner key : Bytes) (value : VersionedValue)
  | hint (place : Nat) (now : Int)
  | swap
  | drain
  | deliver (ok : Bool) (now : Int)
  | expireOld (now : Int)

namespace Recovery

/-- `main` sets up the hints of a node that gossips already. -/
def start (swim : Swim) (ttl : Int) (maxPerTarget : Nat) : Recovery := ⟨swim, .start ttl maxPerTarget, [], [], []⟩

/-- The callback for the hints: a member that is alive is to get them, one that has left never will. -/
def onMemberChange (state : Recovery) (notice : Notice) : Recovery :=
  match notice.2 with
  | .alive => { state with recoveryQueue := state.recoveryQueue ++ [notice.1] }
  | .left => { state with handoff := state.handoff.step (.dropTarget notice.1.nodeId) }
  | _ => state

def step (state : Recovery) : RecoveryAction → Recovery
  -- the callbacks run under the lock of the view
  | .change operation =>
    let (swim, fired) := operation.react state.swim
    fired.foldl onMemberChange { state with swim }
  | .check owner key value =>
    if owner ≠ state.swim.self.nodeId ∧ state.swim.isAlive owner = false then
      { state with checked := state.checked ++ [⟨owner, key, value⟩] }
    else state
  | .hint place now =>
    match state.checked[place]? with
    | none => state
    | some write =>
      { state with
        checked := state.checked.eraseIdx place
        handoff := state.handoff.step (.store write.target write.key write.value now) }
  | .swap =>
    if state.targets = [] ∧ state.handoff.delivery.isNone then
      { state with targets := state.recoveryQueue, recoveryQueue := [] }
    else state
  | .drain =>
    match state.handoff.delivery, state.targets with
    | none, target :: rest => { state with targets := rest, handoff := state.handoff.step (.drain target) }
    | _, _ => state
  | .deliver ok now => { state with handoff := state.handoff.step (.deliver ok now) }
  | .expireOld now => { state with handoff := state.handoff.step (.expireOld now) }

def listFor (state : Recovery) (target : Bytes) : List Hint := state.handoff.store.listFor target

/-- The handoff thread has been told that the target is back, and has not turned to it yet. -/
def Queued (state : Recovery) (target : Bytes) : Prop :=
  target ∈ (state.recoveryQueue ++ state.targets).map NodeInfo.nodeId

instance (state : Recovery) (target : Bytes) : Decidable (state.Queued target) :=
  inferInstanceAs (Decidable (_ ∈ _))

/-- A target that is alive, with no recovery queued and no delivery under way, has no hints. -/
def NoneStranded (state : Recovery) : Prop :=
  ∀ target, state.swim.Up target → ¬ state.Queued target →
    (∀ delivery ∈ state.handoff.delivery, delivery.target.nodeId ≠ target) → state.listFor target = []

/-- The return of the target is still to come, or still to be worked off. -/
def Awaits (state : Recovery) (target : Bytes) : Prop := ¬ state.swim.Up target ∨ state.Queued target

instance (state : Recovery) (target : Bytes) : Decidable (state.Awaits target) :=
  inferInstanceAs (Decidable (_ ∨ _))

/-- A hint goes into the store, from a writer or back from a failed delivery, only while the
return of its target is awaited. -/
def Timely (state : Recovery) : RecoveryAction → Prop
  | .hint place _ => ∀ write ∈ state.checked[place]?, state.Awaits write.target
  | .deliver false _ => ∀ delivery ∈ state.handoff.delivery, state.Awaits delivery.target.nodeId
  | _ => True

instance (state : Recovery) : (action : RecoveryAction) → Decidable (state.Timely action)
  | .hint place _ => inferInstanceAs (Decidable (∀ write ∈ state.checked[place]?, state.Awaits write.target))
  | .deliver false _ =>
    inferInstanceAs (Decidable (∀ delivery ∈ state.handoff.delivery, state.Awaits delivery.target.nodeId))
  | .deliver true _ | .change _ | .check _ _ _ | .swap | .drain | .expireOld _ => isTrue trivial

/-- Every target with a hint is awaited. -/
def Awaited (state : Recovery) : Prop := ∀ target, ∀ hint ∈ state.listFor target, state.Awaits target

variable {state : Recovery}

theorem Awaited.noneStranded (awaited : state.Awaited) : state.NoneStranded := by
  intro target up idle _
  refine List.eq_nil_iff_forall_not_mem.mpr (fun hint member => ?_)
  rcases awaited target hint member with away | queued
  · exact away up
  · exact idle queued

theorem awaited_start (swim : Swim) (ttl : Int) (maxPerTarget : Nat) : (start swim ttl maxPerTarget).Awaited := by
  intro target hint member
  simp [start, listFor, Handoff.start, HintStore.start, HintStore.listFor, Multimap.list_empty] at member

/-- What the callbacks leave of the queue, and that they bring no hints. -/
theorem foldl_onMemberChange (fired : List Notice) (state : Recovery) :
    (fired.foldl onMemberChange state).swim = state.swim ∧
      (∀ target, (fired.foldl onMemberChange state).listFor target ⊆ state.listFor target) ∧
      ∀ target, state.Queued target ∨ (∃ notice ∈ fired, notice.1.nodeId = target ∧ notice.2 = .alive) →
        (fired.foldl onMemberChange state).Queued target := by
  induction fired generalizing state with
  | nil => exact ⟨rfl, fun _ _ member => member, fun _ queued => queued.resolve_right (by simp)⟩
  | cons notice rest ih =>
    obtain ⟨view, lists, queue⟩ := ih (state.onMemberChange notice)
    have first : (state.onMemberChange notice).swim = state.swim ∧
        (∀ target, (state.onMemberChange notice).listFor target ⊆ state.listFor target) ∧
        ∀ target, state.Queued target ∨ notice.1.nodeId = target ∧ notice.2 = .alive →
          (state.onMemberChange notice).Queued target := by
      unfold onMemberChange
      split
      · refine ⟨rfl, fun _ _ member => member, fun target queued => ?_⟩
        rcases queued with before | ⟨rfl, _⟩
        · simp only [Queued, List.map_append, List.mem_append] at before ⊢
          exact before.imp_left .inl
        · simp [Queued]
      · rename_i left
        exact ⟨rfl, fun _ _ member => HintStore.dropTarget_subset member,
          fun target queued => queued.resolve_right (by simp [left])⟩
      · rename_i notAlive _
        exact ⟨rfl, fun _ _ member => member, fun _ queued => queued.resolve_right (fun heard => notAlive heard.2)⟩
    refine ⟨view.trans first.1, fun target _ member => first.2.1 target (lists target member), fun target queued => ?_⟩
    apply queue target
    rcases queued with before | ⟨heard, member, about⟩
    · exact .inl (first.2.2 target (.inl before))
    · rcases List.mem_cons.mp member with rfl | later
      · exact .inl (first.2.2 target (.inr about))
      · exact .inr ⟨heard, later, about⟩

theorem Awaited.change (awaited : state.Awaited) (operation : Operation) :
    (state.step (.change operation)).Awaited := by
  intro target hint member
  obtain ⟨view, lists, queue⟩ := foldl_onMemberChange (operation.react state.swim).2
    { state with swim := (operation.react state.swim).1 }
  by_cases up : (operation.react state.swim).1.Up target
  · refine .inr (queue target ?_)
    rcases awaited target hint (lists target member) with away | queued
    · exact .inr ((Operation.up_before up).resolve_left away)
    · exact .inl queued
  · have same : (state.step (.change operation)).swim = (operation.react state.swim).1 := view
    exact .inl (by rwa [same])

/-- A step of the hints alone, by which only hints of awaited targets come in. -/
theorem Awaited.handoff (awaited : state.Awaited) {action : HandoffAction}
    (stored : ∀ target key value now, action = .store target key value now → state.Awaits target)
    (returned : ∀ now, action = .deliver false now →
      ∀ delivery ∈ state.handoff.delivery, state.Awaits delivery.target.nodeId)
    {target : Bytes} {hint : Hint} (member : hint ∈ (state.handoff.step action).store.listFor target) :
    state.Awaits target := by
  rcases (Handoff.step_move _ _).mem_before member with
    before | ⟨key, value, now, rfl⟩ | ⟨now, rfl, delivery, under, rfl⟩
  · exact awaited target hint before
  · exact stored target key value now rfl
  · exact returned now rfl delivery under

theorem Awaited.step (awaited : state.Awaited) {action : RecoveryAction} (timely : state.Timely action) :
    (state.step action).Awaited := by
  cases action with
  | change operation => exact awaited.change operation
  | check owner key value =>
    rw [Recovery.step]
    split <;> exact awaited
  | hint place now =>
    rw [Recovery.step]
    split
    · exact awaited
    · rename_i write found
      intro target hint member
      refine awaited.handoff (fun other key value now same => ?_) (fun _ same => by cases same) member
      obtain ⟨rfl, -⟩ := HandoffAction.store.inj same
      exact timely write found
  | swap =>
    rw [Recovery.step]
    split
    · rename_i free
      intro target hint member
      rcases awaited target hint member with away | queued
      · exact .inl away
      · exact .inr (by simpa [Queued, free.1] using queued)
    · exact awaited
  | drain =>
    rw [Recovery.step]
    split
    · rename_i next rest free waiting
      intro target hint member
      have before := awaited.handoff (fun _ _ _ _ same => by cases same) (fun _ same => by cases same) member
      have other : target ≠ next.nodeId := by
        rintro rfl
        rw [listFor, Handoff.step, free] at member
        simp [HintStore.listFor_drain] at member
      rcases before with away | queued
      · exact .inl away
      · exact .inr (by simpa [Queued, waiting, other] using queued)
    · exact awaited
  | deliver ok now =>
    intro target hint member
    refine awaited.handoff (fun _ _ _ _ same => by cases same) (fun _ same delivery under => ?_) member
    obtain ⟨rfl, -⟩ := HandoffAction.deliver.inj same
    exact timely delivery under
  | expireOld now =>
    intro target hint member
    exact awaited.handoff (fun _ _ _ _ same => by cases same) (fun _ same => by cases same) member

theorem Awaited.run (awaited : state.Awaited) {actions : List RecoveryAction}
    (timely : Throughout Recovery.step Timely state actions) : (actions.foldl Recovery.step state).Awaited := by
  induction actions generalizing state with
  | nil => exact awaited
  | cons action rest ih => exact ih (awaited.step timely.1) timely.2

/-- In a run whose hints all go into the store while the return of their target is awaited, no
state has a hint for a target that is alive, not queued and not being delivered to. -/
theorem no_hint_stranded (swim : Swim) (ttl : Int) (maxPerTarget : Nat) (actions : List RecoveryAction)
    (timely : Throughout step Timely (start swim ttl maxPerTarget) actions) (before after : List RecoveryAction)
    (split : actions = before ++ after) : (before.foldl step (start swim ttl maxPerTarget)).NoneStranded := by
  rw [split, throughout_append] at timely
  exact ((awaited_start swim ttl maxPerTarget).run timely.1).noneStranded

/-- A member joins, dies, and is found dead by a write. -/
def wentAway : List RecoveryAction :=
  [.change (.applyDirectJoin { nodeId := ascii "b", host := ascii "h" }), .swap, .drain,
    .change (.confirmDead (ascii "b")), .check (ascii "b") (ascii "k") ⟨ascii "v", .empty, false⟩]

/-- It joins again, and the handoff thread turns to it. -/
def cameBack : List RecoveryAction :=
  [.change (.applyDirectJoin { nodeId := ascii "b", host := ascii "h" }), .swap, .drain]

/-- The view of a node that has met nobody yet. -/
def aloneView : Swim := .start ⟨ascii "a", ascii "h", 1⟩

/-- The writer leaves its hint before the member is back, and its delivery goes well or not. -/
def handedOver (ok : Bool) : List RecoveryAction := wentAway ++ [.hint 0 0] ++ cameBack ++ [.deliver ok 1]

/-- The writer leaves its hint after the member's return was worked off. -/
def lateHint : List RecoveryAction := wentAway ++ cameBack ++ [.hint 0 0]

theorem no_hint_stranded_handedOver : ((handedOver true).foldl step (start aloneView 10 5)).NoneStranded :=
  no_hint_stranded aloneView 10 5 (handedOver true) (by decide +kernel) (handedOver true) [] (List.append_nil _).symm

theorem not_noneStranded {target : Bytes} (up : state.swim.Up target) (idle : ¬ state.Queued target)
    (free : state.handoff.delivery.isNone) (held : state.listFor target ≠ []) : ¬ state.NoneStranded := by
  intro stranded
  refine held (stranded target up idle (fun delivery under => ?_))
  rw [Option.isNone_iff_eq_none.mp free] at under
  cases under

/-- A hint that comes after the member's return was worked off stays behind, and so does one that
a failed delivery puts back. -/
theorem hints_stranded :
    ¬ (lateHint.foldl step (start aloneView 10 5)).NoneStranded ∧
      ¬ ((handedOver false).foldl step (start aloneView 10 5)).NoneStranded := by
  constructor
  · have up : (lateHint.foldl step (start aloneView 10 5)).swim.Up (ascii "b") := by decide +kernel
    exact not_noneStranded up (by decide +kernel) (by decide +kernel) (by decide +kernel)
  · have up : ((handedOver false).foldl step (start aloneView 10 5)).swim.Up (ascii "b") := by decide +kernel
    exact not_noneStranded up (by decide +kernel) (by decide +kernel) (by decide +kernel)

end Recovery

end MiniDynamo
