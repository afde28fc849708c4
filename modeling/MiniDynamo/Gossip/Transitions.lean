import MiniDynamo.Gossip.Swim

/-! What the operations on a membership view can do to it, and what they tell the
callbacks about it. -/

namespace MiniDynamo

theorem MemberState.up_of_kept {state : MemberState} (notDead : state ≠ .dead) (member : state ≠ .left) :
    state = .alive ∨ state = .suspect := by
  cases state <;> simp at notDead member ⊢

namespace Swim

variable {swim : Swim}

theorem stateOf_record {entry : MemberEntry} {other : entry.info.nodeId ≠ swim.self.nodeId} (id : Bytes) :
    (swim.record entry other).stateOf id =
      if entry.info.nodeId = id then some entry.state else swim.stateOf id := by
  rw [stateOf, stateOf, record, OrderedMap.lookup_insert]
  by_cases same : entry.info.nodeId = id
  · have peer : id ≠ swim.self.nodeId := same ▸ other
    simp [same, peer]
  · simp [same]

theorem stateOf_of_found {id : Bytes} {entry : MemberEntry} (found : swim.members[id]? = some entry) :
    swim.stateOf id = some entry.state := by
  have peer : id ≠ swim.self.nodeId := swim.keyed id entry found ▸ swim.other_of_found found
  simp [stateOf, peer, found]

theorem retired_of_left {id : Bytes} (left : swim.stateOf id = some .left) (own : id = swim.self.nodeId) :
    swim.selfLeft = true := by
  rw [stateOf, if_pos own] at left
  by_contra stays
  simp [Bool.not_eq_true _ ▸ stays] at left

theorem stateOf_congr {later : Swim} (self : later.self = swim.self) (members : later.members = swim.members)
    (flag : later.selfLeft = swim.selfLeft) (id : Bytes) : later.stateOf id = swim.stateOf id := by
  rw [stateOf, stateOf, self, members, flag]

/-- One change of a view, with what the callbacks hear of it: a new member, of which they
hear if it is alive; a change to a member that has not left, of which they hear at least if
it leaves; the node's own retirement. Numbers and queued events may change with each. -/
inductive Step (swim : Swim) : Swim → List Notice → Prop
  | kept : Step swim swim []
  | entered (entry : MemberEntry) (other : entry.info.nodeId ≠ swim.self.nodeId)
      (unknown : swim.members[entry.info.nodeId]? = none) :
      Step swim (swim.record entry other) (if entry.state = .alive then [(entry.info, .alive)] else [])
  | amended {id : Bytes} {entry : MemberEntry} (found : swim.members[id]? = some entry) (changed : MemberEntry)
      (same : changed.info.nodeId = entry.info.nodeId) (member : entry.state ≠ .left) (fired : List Notice)
      (heard : fired = [(changed.info, changed.state)] ∨ fired = [] ∧ changed.state ≠ .left) :
      Step swim (swim.amend found changed same) fired
  | retired : Step swim { swim with selfLeft := true } [(swim.self, .left)]
  | booked {after later : Swim} {fired : List Notice} (step : Step swim after fired)
      (self : later.self = after.self) (members : later.members = after.members)
      (flag : later.selfLeft = after.selfLeft) : Step swim later fired

theorem lookup_record {entry : MemberEntry} {other : entry.info.nodeId ≠ swim.self.nodeId} :
    (swim.record entry other).members[entry.info.nodeId]? = some entry := by
  rw [record, OrderedMap.lookup_insert, if_pos rfl]

/-- Whoever the callbacks call alive is on record as they heard of it. -/
theorem Step.heard_alive {after : Swim} {fired : List Notice} (step : Step swim after fired) :
    ∀ notice ∈ fired, notice.2 = .alive →
      ∃ entry, after.members[notice.1.nodeId]? = some entry ∧ entry.info = notice.1 ∧ entry.state = .alive := by
  induction step with
  | kept => exact fun _ heard => absurd heard List.not_mem_nil
  | entered entry other unknown =>
    intro notice heard alive
    split at heard
    · rename_i up
      rw [List.mem_singleton.mp heard]
      exact ⟨entry, lookup_record, rfl, up⟩
    · cases heard
  | amended found changed same member fired heard =>
    intro notice told alive
    rcases heard with rfl | ⟨rfl, -⟩
    · rw [List.mem_singleton.mp told] at alive ⊢
      exact ⟨changed, lookup_record, rfl, alive⟩
    · cases told
  | retired =>
    intro notice heard alive
    rw [List.mem_singleton.mp heard] at alive
    cases alive
  | booked _ _ members _ ih => rwa [members]

theorem Step.tell {after : Swim} {fired : List Notice} (step : Step swim after fired) (event : MemberEvent) :
    Step swim (after.enqueueEvent event) fired :=
  step.booked rfl rfl rfl

theorem applySelfEvent_step (event : MemberEvent) :
    Step swim (swim.applySelfEvent event).swim (swim.applySelfEvent event).fired := by
  unfold applySelfEvent
  split
  · split
    · exact .kept
    · exact .retired
  · split
    · exact .kept
    · exact Step.kept.booked rfl rfl rfl
  · split
    · exact .kept
    · exact Step.kept.booked rfl rfl rfl
  · exact .kept

theorem applyAlive_step (event : MemberEvent) (other : event.nodeId ≠ swim.self.nodeId) :
    Step swim (swim.applyAlive event other).swim (swim.applyAlive event other).fired := by
  unfold applyAlive
  split
  · rename_i unknown
    exact .entered _ other unknown
  · rename_i entry found
    split
    · exact .kept
    · rename_i member
      split
      · exact .kept
      · exact .amended found _ (event.readdress_nodeId entry.info) member _ (.inl rfl)

theorem applySuspect_step (event : MemberEvent) (now : Int) :
    Step swim (swim.applySuspect event now).swim (swim.applySuspect event now).fired := by
  unfold applySuspect
  split
  · exact .kept
  · rename_i entry found
    split
    · exact .kept
    · split
      · exact .kept
      · split
        · exact .kept
        · rename_i member
          split
          · exact .kept
          · exact .amended found _ (by rfl) member _ (.inr ⟨rfl, by simp⟩)

theorem applyDead_step (event : MemberEvent) (other : event.nodeId ≠ swim.self.nodeId) :
    Step swim (swim.applyDead event other).swim (swim.applyDead event other).fired := by
  unfold applyDead
  split
  · rename_i unknown
    exact .entered ⟨event.info, .dead, event.incarnation, 0⟩ other unknown
  · rename_i entry found
    split
    · exact .kept
    · split
      · exact .kept
      · rename_i member
        split
        · exact .kept
        · exact .amended found _ (by rfl) member _ (.inl rfl)

theorem applyLeave_step (event : MemberEvent) (other : event.nodeId ≠ swim.self.nodeId) :
    Step swim (swim.applyLeave event other).swim (swim.applyLeave event other).fired := by
  unfold applyLeave
  split
  · rename_i unknown
    exact .entered ⟨event.info, .left, event.incarnation, 0⟩ other unknown
  · rename_i entry found
    split
    · exact .kept
    · rename_i member
      exact .amended found _ (by rfl) member _ (.inl rfl)

theorem applyEvent_step (event : MemberEvent) (now : Int) :
    Step swim (swim.applyEvent event now).swim (swim.applyEvent event now).fired := by
  unfold applyEvent
  split
  · exact applySelfEvent_step event
  · rename_i other
    split
    · exact applyAlive_step event other
    · exact applyAlive_step event other
    · exact applySuspect_step event now
    · exact applyDead_step event other
    · exact applyLeave_step event other
    · exact .kept

theorem applyDirectJoin_step (event : MemberEvent) :
    Step swim (swim.applyDirectJoin event).swim (swim.applyDirectJoin event).fired := by
  unfold applyDirectJoin
  split
  · exact .kept
  · rename_i other
    split
    · rename_i unknown
      exact .entered _ other unknown
    · rename_i entry found
      split
      · exact .kept
      · rename_i member
        refine .amended found _ (event.readdress_nodeId entry.info) member _ ?_
        split
        · exact .inr ⟨rfl, by simp⟩
        · exact .inl rfl

theorem leave_step (nodeId : Bytes) : Step swim (swim.leave nodeId).swim (swim.leave nodeId).fired := by
  unfold leave
  split
  · split
    · exact .kept
    · exact Step.retired.tell _
  · split
    · exact .kept
    · rename_i entry found
      split
      · exact .kept
      · rename_i member
        exact (Step.amended found _ (by rfl) member _ (.inl rfl)).tell _

theorem suspect_step (nodeId : Bytes) (now : Int) :
    Step swim (swim.suspect nodeId now).swim (swim.suspect nodeId now).fired := by
  unfold suspect
  split
  · exact .kept
  · rename_i entry found
    split
    · exact .kept
    · rename_i alive
      exact (Step.amended found _ (by rfl) (by simp [not_not.mp alive]) _ (.inr ⟨rfl, by simp⟩)).tell _

theorem bury_step {id : Bytes} {entry : MemberEntry} (found : swim.members[id]? = some entry)
    (member : entry.state ≠ .left) : Step swim (swim.bury found).swim (swim.bury found).fired :=
  (Step.amended found _ (by rfl) member _ (.inl rfl)).tell _

theorem confirmDead_step (nodeId : Bytes) :
    Step swim (swim.confirmDead nodeId).swim (swim.confirmDead nodeId).fired := by
  unfold confirmDead
  split
  · exact .kept
  · rename_i entry found
    split
    · exact .kept
    · split
      · exact .kept
      · rename_i member
        exact bury_step found member

theorem refute_step : Step swim swim.refute.swim swim.refute.fired :=
  .booked .kept rfl rfl rfl

theorem getEventsToSend_step : Step swim swim.getEventsToSend.swim swim.getEventsToSend.fired :=
  .booked .kept rfl rfl rfl

/-- Changes one after the other. -/
inductive Steps (swim : Swim) : Swim → List Notice → Prop
  | none : Steps swim swim []
  | snoc {middle after : Swim} {fired more : List Notice} (steps : Steps swim middle fired)
      (step : Step middle after more) : Steps swim after (fired ++ more)

theorem Step.steps {after : Swim} {fired : List Notice} (step : Step swim after fired) : Steps swim after fired :=
  Steps.none.snoc step

theorem Step.self {after : Swim} {fired : List Notice} (step : Step swim after fired) : after.self = swim.self := by
  induction step with
  | booked _ self _ _ ih => exact self.trans ih
  | _ => rfl

theorem Steps.self {after : Swim} {fired : List Notice} (steps : Steps swim after fired) :
    after.self = swim.self := by
  induction steps with
  | none => rfl
  | snoc _ step ih => exact step.self.trans ih

theorem applyEvent_self (swim : Swim) (event : MemberEvent) (now : Int) :
    (swim.applyEvent event now).swim.self = swim.self :=
  (applyEvent_step event now).self

theorem expireSuspects_steps (timeout now : Int) :
    Steps swim (swim.expireSuspects timeout now).swim (swim.expireSuspects timeout now).fired := by
  -- the loop keeps, as its invariant, that what it has done so far is a sequence of changes
  have loop : ∀ (ids : List Bytes) (progress : Reaction (List Bytes)), Steps swim progress.swim progress.fired →
      Steps swim (ids.foldl (expireSuspect timeout now) progress).swim
        (ids.foldl (expireSuspect timeout now) progress).fired := by
    intro ids
    induction ids with
    | nil => exact fun _ steps => steps
    | cons id rest ih =>
      intro progress steps
      refine ih _ ?_
      unfold expireSuspect
      split
      · exact steps
      · rename_i entry found
        split
        · rename_i due
          exact steps.snoc (bury_step found (by simp [due.1]))
        · exact steps
  exact loop _ _ .none

/-- An expiry tells of deaths only. -/
theorem expireSuspects_dead (timeout now : Int) :
    ∀ notice ∈ (swim.expireSuspects timeout now).fired, notice.2 = .dead := by
  have loop : ∀ (ids : List Bytes) (progress : Reaction (List Bytes)), (∀ notice ∈ progress.fired, notice.2 = .dead) →
      ∀ notice ∈ (ids.foldl (expireSuspect timeout now) progress).fired, notice.2 = .dead := by
    intro ids
    induction ids with
    | nil => exact fun _ dead => dead
    | cons id rest ih =>
      intro progress dead
      refine ih _ ?_
      unfold expireSuspect
      split
      · exact dead
      · split
        · intro notice heard
          rcases List.mem_append.mp heard with before | last
          · exact dead notice before
          · rw [List.mem_singleton.mp last]
        · exact dead
  exact loop _ ⟨[], swim, []⟩ (fun _ heard => absurd heard List.not_mem_nil)

end Swim

end MiniDynamo
