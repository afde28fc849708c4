import MiniDynamo.Ring.Placement
import MiniDynamo.Gossip.FullState
import MiniDynamo.Gossip.Tombstone

/-! Who has a place in the ring: every member that has ever been up here and has not left.
A member that is dead may or may not have been up, so the ring is not a function of the
view. -/

namespace MiniDynamo

namespace Router

variable {router : Router} {fired : List Notice}

theorem contains_onMemberChange_iff (notice : Notice) (id : Bytes) :
    (router.onMemberChange notice).Contains id ↔
      match notice.2 with
      | .alive => notice.1.nodeId = id ∨ router.Contains id
      | .left => notice.1.nodeId ≠ id ∧ router.Contains id
      | _ => router.Contains id := by
  obtain ⟨info, state⟩ := notice
  cases state with
  | alive => exact contains_addPhysicalNode_iff info id
  | left => exact contains_removePhysicalNode_iff info.nodeId id
  | _ => exact Iff.rfl

theorem exact_fold {present : Bytes → Prop} (exact : router.Exact) (scattered : Scattered router.virtualNodes present)
    (others : ∀ id, router.Contains id → present id)
    (news : ∀ notice ∈ fired, notice.2 = .alive → present notice.1.nodeId) :
    (fired.foldl onMemberChange router).Exact ∧
      (fired.foldl onMemberChange router).virtualNodes = router.virtualNodes := by
  induction fired generalizing router with
  | nil => exact ⟨exact, rfl⟩
  | cons notice rest ih =>
    have later := fun told heard => news told (List.mem_cons_of_mem notice heard)
    have known : ∀ id, (router.onMemberChange notice).Contains id → present id := by
      intro id contained
      rw [contains_onMemberChange_iff] at contained
      split at contained
      · rename_i alive
        rcases contained with rfl | before
        · exact news notice (List.mem_cons_self ..) alive
        · exact others id before
      · exact others id contained.2
      · exact others id contained
    have step : (router.onMemberChange notice).Exact ∧
        (router.onMemberChange notice).virtualNodes = router.virtualNodes := by
      unfold onMemberChange
      split
      · rename_i alive
        exact ⟨exact.addPhysicalNode scattered notice.1 (news notice (List.mem_cons_self ..) alive) others,
          virtualNodes_addPhysicalNode router notice.1⟩
      · exact ⟨exact.removePhysicalNode notice.1.nodeId, virtualNodes_removePhysicalNode router notice.1.nodeId⟩
      · exact ⟨exact, rfl⟩
    rw [← step.2] at scattered
    obtain ⟨exactly, points⟩ := ih step.1 scattered known later
    exact ⟨exactly, points.trans step.2⟩

end Router

namespace Swim

variable {swim : Swim} {router : Router} {ever : Bytes → Prop} {fired : List Notice}

/-- The ring has the members that are up, and of the others those that have been and have
not left. -/
structure RingKept (swim : Swim) (router : Router) (ever : Bytes → Prop) : Prop where
  up : ∀ id, swim.stateOf id = some .alive ∨ swim.stateOf id = some .suspect → router.Contains id
  seen : ∀ id, router.Contains id → ever id
  kept : ∀ id, ever id → swim.stateOf id ≠ some .left → router.Contains id

theorem RingKept.congr {other : Bytes → Prop} (kept : swim.RingKept router ever) (same : ∀ id, ever id ↔ other id) :
    swim.RingKept router other where
  up := kept.up
  seen id contained := (same id).mp (kept.seen id contained)
  kept id before := kept.kept id ((same id).mpr before)

/-- Whoever is alive has been up. -/
theorem RingKept.now (kept : swim.RingKept router ever) :
    swim.RingKept router (fun id => ever id ∨ swim.stateOf id = some .alive) :=
  kept.congr (fun id => (or_iff_left_of_imp (fun alive => kept.seen id (kept.up id (.inl alive)))).symm)

theorem RingKept.booked {later : Swim} (kept : swim.RingKept router ever)
    (same : ∀ id, later.stateOf id = swim.stateOf id) : later.RingKept router ever where
  up id := by rw [same]; exact kept.up id
  seen := kept.seen
  kept id := by rw [same]; exact kept.kept id

theorem RingKept.tell (kept : swim.RingKept router ever) (event : MemberEvent) :
    (swim.enqueueEvent event).RingKept router ever :=
  kept.booked (fun _ => rfl)

theorem RingKept.record {later : Router} (kept : swim.RingKept router ever) {entry : MemberEntry}
    (other : entry.info.nodeId ≠ swim.self.nodeId) (member : swim.stateOf entry.info.nodeId ≠ some .left)
    (elsewhere : ∀ id, entry.info.nodeId ≠ id → (later.Contains id ↔ router.Contains id))
    (here : later.Contains entry.info.nodeId ↔
      entry.state ≠ .left ∧ (router.Contains entry.info.nodeId ∨ entry.state = .alive))
    (suspected : entry.state = .suspect → router.Contains entry.info.nodeId) :
    (swim.record entry other).RingKept later (fun id => ever id ∨ entry.info.nodeId = id ∧ entry.state = .alive) where
  up id state := by
    rw [stateOf_record] at state
    by_cases same : entry.info.nodeId = id
    · subst same
      rw [if_pos rfl, Option.some.injEq, Option.some.injEq] at state
      rcases state with alive | suspect
      · exact here.mpr ⟨by simp [alive], .inr alive⟩
      · exact here.mpr ⟨by simp [suspect], .inl (suspected suspect)⟩
    · rw [if_neg same] at state
      exact (elsewhere id same).mpr (kept.up id state)
  seen id contained := by
    by_cases same : entry.info.nodeId = id
    · subst same
      rcases (here.mp contained).2 with before | alive
      · exact .inl (kept.seen _ before)
      · exact .inr ⟨rfl, alive⟩
    · exact .inl (kept.seen id ((elsewhere id same).mp contained))
  kept id before state := by
    rw [stateOf_record] at state
    by_cases same : entry.info.nodeId = id
    · subst same
      rw [if_pos rfl, ne_eq, Option.some.injEq] at state
      exact here.mpr ⟨state, before.imp (fun seen => kept.kept _ seen member) And.right⟩
    · rw [if_neg same] at state
      have seen := before.resolve_right (fun now => same now.1)
      exact (elsewhere id same).mpr (kept.kept id seen state)

/-- A change that the ring hears of. -/
theorem RingKept.told (kept : swim.RingKept router ever) {entry : MemberEntry}
    (other : entry.info.nodeId ≠ swim.self.nodeId) (member : swim.stateOf entry.info.nodeId ≠ some .left)
    {info : NodeInfo} (about : info.nodeId = entry.info.nodeId) (certain : entry.state ≠ .suspect) :
    (swim.record entry other).RingKept (router.onMemberChange (info, entry.state))
      (fun id => ever id ∨ entry.info.nodeId = id ∧ entry.state = .alive) := by
  refine kept.record other member (fun id elsewhere => ?_) ?_ (fun suspect => absurd suspect certain)
  · rw [Router.contains_onMemberChange_iff]
    cases entry.state <;> simp [about, elsewhere]
  · rw [Router.contains_onMemberChange_iff]
    cases entry.state <;> simp [about]

/-- A change that the ring does not hear of. -/
theorem RingKept.silent (kept : swim.RingKept router ever) {entry : MemberEntry}
    (other : entry.info.nodeId ≠ swim.self.nodeId) (member : swim.stateOf entry.info.nodeId ≠ some .left)
    (placed : entry.state = .alive ∨ entry.state = .suspect → router.Contains entry.info.nodeId)
    (unplaced : entry.state = .left → ¬ router.Contains entry.info.nodeId) :
    (swim.record entry other).RingKept router
      (fun id => ever id ∨ entry.info.nodeId = id ∧ entry.state = .alive) := by
  refine kept.record other member (fun _ _ => Iff.rfl) ?_ (fun suspect => placed (.inr suspect))
  constructor
  · exact fun contained => ⟨fun left => unplaced left contained, .inl contained⟩
  · rintro ⟨-, contained | alive⟩
    · exact contained
    · exact placed (.inl alive)

/-- What is alive after a change is what was or what the change made so. -/
theorem RingKept.recorded {later : Router} {entry : MemberEntry} {other : entry.info.nodeId ≠ swim.self.nodeId}
    (kept : (swim.record entry other).RingKept later (fun id => ever id ∨ entry.info.nodeId = id ∧ entry.state = .alive)) :
    (swim.record entry other).RingKept later
      (fun id => ever id ∨ (swim.record entry other).stateOf id = some .alive) := by
  refine kept.now.congr (fun id => ⟨?_, ?_⟩)
  · rintro ((seen | ⟨here, alive⟩) | now)
    · exact .inl seen
    · exact .inr (by rw [stateOf_record, if_pos here, alive])
    · exact .inr now
  · rintro (seen | now)
    · exact .inl (.inl seen)
    · exact .inr now

/-- A node that has retired takes nobody else for gone because of it. -/
theorem stateOf_retired {id : Bytes} (member : { swim with selfLeft := true }.stateOf id ≠ some .left) :
    id ≠ swim.self.nodeId ∧ { swim with selfLeft := true }.stateOf id = swim.stateOf id := by
  have peer : id ≠ swim.self.nodeId := by
    rintro rfl
    simp [stateOf] at member
  exact ⟨peer, by simp [stateOf, peer]⟩

theorem RingKept.retired (kept : swim.RingKept router ever) :
    { swim with selfLeft := true }.RingKept (router.onMemberChange (swim.self, .left)) ever where
  up id state := by
    have member : { swim with selfLeft := true }.stateOf id ≠ some .left := by
      rcases state with up | up <;> simp [up]
    obtain ⟨peer, same⟩ := stateOf_retired member
    rw [Router.contains_onMemberChange_iff]
    exact ⟨Ne.symm peer, kept.up id (same ▸ state)⟩
  seen id contained := by
    rw [Router.contains_onMemberChange_iff] at contained
    exact kept.seen id contained.2
  kept id seen state := by
    obtain ⟨peer, same⟩ := stateOf_retired state
    rw [Router.contains_onMemberChange_iff]
    exact ⟨Ne.symm peer, kept.kept id seen (same ▸ state)⟩

end Swim

/-- The callbacks leave the ring kept, with all that has been up before or is now. -/
def Reaction.Kept {Result : Type} (reaction : Reaction Result) (router : Router) (ever : Bytes → Prop) : Prop :=
  reaction.swim.RingKept (reaction.fired.foldl Router.onMemberChange router)
    (fun id => ever id ∨ reaction.swim.stateOf id = some .alive)

namespace Swim

variable {swim : Swim} {router : Router} {ever : Bytes → Prop}

theorem member_of_found {id : Bytes} {entry : MemberEntry} (found : swim.members[id]? = some entry)
    (member : entry.state ≠ .left) : swim.stateOf id ≠ some .left := by
  rw [stateOf_of_found found, ne_eq, Option.some.injEq]
  exact member

theorem member_of_unknown {id : Bytes} (other : id ≠ swim.self.nodeId) (unknown : swim.members[id]? = none) :
    swim.stateOf id = none := by
  rw [stateOf, if_neg other, unknown]
  rfl

/-- A change to the record of a known member that the ring hears of. -/
theorem RingKept.amend_told (kept : swim.RingKept router ever) {place : Bytes} {entry changed : MemberEntry}
    (found : swim.members[place]? = some entry) (same : changed.info.nodeId = entry.info.nodeId)
    (member : entry.state ≠ .left) {info : NodeInfo} (about : info.nodeId = entry.info.nodeId)
    (certain : changed.state ≠ .suspect) :
    (swim.amend found changed same).RingKept (router.onMemberChange (info, changed.state))
      (fun id => ever id ∨ changed.info.nodeId = id ∧ changed.state = .alive) := by
  have named := same.trans (swim.keyed place entry found)
  exact kept.told _ (by rw [named]; exact member_of_found found member) (about.trans same.symm) certain

/-- A change to the record of a member that is up and stays so, which the ring does not hear
of. -/
theorem RingKept.amend_silent (kept : swim.RingKept router ever) {place : Bytes} {entry changed : MemberEntry}
    (found : swim.members[place]? = some entry) (same : changed.info.nodeId = entry.info.nodeId)
    (up : entry.state = .alive ∨ entry.state = .suspect) (stays : changed.state ≠ .left) :
    (swim.amend found changed same).RingKept router
      (fun id => ever id ∨ changed.info.nodeId = id ∧ changed.state = .alive) := by
  have named := same.trans (swim.keyed place entry found)
  have placed : router.Contains changed.info.nodeId := by
    rw [named]
    exact kept.up place (by rw [stateOf_of_found found]; simpa using up)
  refine kept.silent _ ?_ (fun _ => placed) (fun left => absurd left stays)
  rw [named]
  exact member_of_found found (by rcases up with state | state <;> simp [state])

/-- A member nobody knew comes up. -/
theorem RingKept.enrolled (kept : swim.RingKept router ever) {event : MemberEvent}
    (other : event.nodeId ≠ swim.self.nodeId) (unknown : swim.members[event.nodeId]? = none) {Result : Type}
    (result : Result) :
    Reaction.Kept ⟨result, swim.record ⟨event.info, .alive, event.incarnation, 0⟩ other, [(event.info, .alive)]⟩
      router ever := by
  refine RingKept.recorded (kept.told other ?_ rfl (by simp))
  simp [MemberEvent.info, member_of_unknown other unknown]

theorem applyAlive_kept (kept : swim.RingKept router ever) (event : MemberEvent)
    (other : event.nodeId ≠ swim.self.nodeId) :
    (swim.applyAlive event other).Kept router ever := by
  unfold applyAlive
  split
  · rename_i unknown
    exact kept.enrolled other unknown _
  · rename_i entry found
    split
    · exact kept.now
    · rename_i member
      split
      · exact kept.now
      · exact RingKept.recorded (kept.amend_told found (event.readdress_nodeId entry.info) member
          (event.readdress_nodeId entry.info) (by simp))

theorem applySuspect_kept (kept : swim.RingKept router ever) (event : MemberEvent) (now : Int) :
    (swim.applySuspect event now).Kept router ever := by
  unfold applySuspect
  split
  · exact kept.now
  · rename_i entry found
    split
    · exact kept.now
    · split
      · exact kept.now
      · rename_i notDead
        split
        · exact kept.now
        · rename_i member
          split
          · exact kept.now
          · have up := MemberState.up_of_kept notDead member
            exact RingKept.recorded (kept.amend_silent found (by rfl) up (by simp))

theorem applyDead_kept (kept : swim.RingKept router ever) (event : MemberEvent)
    (other : event.nodeId ≠ swim.self.nodeId) :
    (swim.applyDead event other).Kept router ever := by
  unfold applyDead
  split
  · rename_i unknown
    refine RingKept.recorded (kept.silent other ?_ (by simp) (by simp))
    simp [MemberEvent.info, member_of_unknown other unknown]
  · rename_i entry found
    split
    · exact kept.now
    · split
      · exact kept.now
      · rename_i member
        split
        · exact kept.now
        · exact RingKept.recorded (kept.amend_told found (by rfl) member rfl (by simp))

theorem applyLeave_kept (kept : swim.RingKept router ever) (follows : swim.RingFollows router) (event : MemberEvent)
    (other : event.nodeId ≠ swim.self.nodeId) :
    (swim.applyLeave event other).Kept router ever := by
  unfold applyLeave
  split
  · rename_i unknown
    have nobody := member_of_unknown other unknown
    refine RingKept.recorded (kept.silent other ?_ (by simp) (fun _ contained => ?_))
    · simp [MemberEvent.info, nobody]
    · obtain ⟨state, known, -⟩ := follows _ contained
      cases nobody.symm.trans known
  · rename_i entry found
    split
    · exact kept.now
    · rename_i member
      exact RingKept.recorded (kept.amend_told found (by rfl) member rfl (by simp))

theorem applySelfEvent_kept (kept : swim.RingKept router ever) (event : MemberEvent) :
    (swim.applySelfEvent event).Kept router ever := by
  unfold applySelfEvent
  split
  · split
    · exact kept.now
    · exact kept.retired.now
  · split
    · exact kept.now
    · exact RingKept.now (RingKept.booked kept (fun _ => rfl))
  · split
    · exact kept.now
    · exact RingKept.now (RingKept.booked kept (fun _ => rfl))
  · exact kept.now

theorem applyEvent_kept (kept : swim.RingKept router ever) (follows : swim.RingFollows router) (event : MemberEvent)
    (now : Int) : (swim.applyEvent event now).Kept router ever := by
  unfold applyEvent
  split
  · exact applySelfEvent_kept kept event
  · rename_i other
    split
    · exact applyAlive_kept kept event other
    · exact applyAlive_kept kept event other
    · exact applySuspect_kept kept event now
    · exact applyDead_kept kept event other
    · exact applyLeave_kept kept follows event other
    · exact kept.now

theorem applyDirectJoin_kept (kept : swim.RingKept router ever) (event : MemberEvent) :
    (swim.applyDirectJoin event).Kept router ever := by
  unfold applyDirectJoin
  split
  · exact kept.now
  · rename_i other
    split
    · rename_i unknown
      exact kept.enrolled other unknown _
    · rename_i entry found
      split
      · exact kept.now
      · rename_i member
        by_cases alive : entry.state = .alive
        · simp only [Reaction.Kept, alive, ↓reduceIte, List.foldl_nil]
          exact RingKept.recorded (kept.amend_silent found (event.readdress_nodeId entry.info) (.inl alive) (by simp))
        · simp only [Reaction.Kept, alive, ↓reduceIte, List.foldl_cons, List.foldl_nil]
          exact RingKept.recorded (kept.amend_told found (event.readdress_nodeId entry.info) member
            (event.readdress_nodeId entry.info) (by simp))

theorem leave_kept (kept : swim.RingKept router ever) (nodeId : Bytes) : (swim.leave nodeId).Kept router ever := by
  unfold leave
  split
  · split
    · exact kept.now
    · exact (kept.retired.tell _).now
  · split
    · exact kept.now
    · rename_i entry found
      split
      · exact kept.now
      · rename_i member
        exact RingKept.tell (RingKept.recorded (kept.amend_told found (by rfl) member rfl (by simp))) _

theorem suspect_kept (kept : swim.RingKept router ever) (nodeId : Bytes) (now : Int) :
    (swim.suspect nodeId now).Kept router ever := by
  unfold suspect
  split
  · exact kept.now
  · rename_i entry found
    split
    · exact kept.now
    · rename_i alive
      exact RingKept.tell (RingKept.recorded
        (kept.amend_silent found (by rfl) (.inl (not_not.mp alive)) (by simp))) _

/-- A burial makes nobody alive. -/
theorem bury_kept (kept : swim.RingKept router ever) {id : Bytes} {entry : MemberEntry}
    (found : swim.members[id]? = some entry) (member : entry.state ≠ .left) :
    (swim.bury found).swim.RingKept ((swim.bury found).fired.foldl Router.onMemberChange router) ever := by
  refine RingKept.tell (RingKept.congr (kept.amend_told found (by rfl) member rfl (by simp)) ?_) _
  simp

theorem confirmDead_kept (kept : swim.RingKept router ever) (nodeId : Bytes) :
    (swim.confirmDead nodeId).Kept router ever := by
  unfold confirmDead
  split
  · exact kept.now
  · rename_i entry found
    split
    · exact kept.now
    · split
      · exact kept.now
      · rename_i member
        exact (bury_kept kept found member).now

theorem expireSuspects_kept (kept : swim.RingKept router ever) (timeout now : Int) :
    (swim.expireSuspects timeout now).Kept router ever := by
  have loop : ∀ (ids : List Bytes) (progress : Reaction (List Bytes)),
      progress.swim.RingKept (progress.fired.foldl Router.onMemberChange router) ever →
      (ids.foldl (expireSuspect timeout now) progress).swim.RingKept
        ((ids.foldl (expireSuspect timeout now) progress).fired.foldl Router.onMemberChange router) ever := by
    intro ids
    induction ids with
    | nil => exact fun _ kept => kept
    | cons id rest ih =>
      intro progress kept
      refine ih _ ?_
      unfold expireSuspect
      split
      · exact kept
      · rename_i entry found
        split
        · rename_i due
          simp only [List.foldl_append]
          exact bury_kept kept found (by simp [due.1])
        · exact kept
  exact (loop _ ⟨[], swim, []⟩ kept).now

end Swim

end MiniDynamo
