import MiniDynamo.Gossip.Transitions
import MiniDynamo.Ring.Router

/-! A member that has left stays away: from the view, from every list of peers and from
the ring that follows the view. -/

namespace MiniDynamo

/-- The callback that keeps the ring: a dead member keeps its place. -/
def Router.onMemberChange (router : Router) (notice : Notice) : Router :=
  match notice.2 with
  | .alive => router.addPhysicalNode notice.1
  | .left => router.removePhysicalNode notice.1.nodeId
  | _ => router

theorem Router.contains_onMemberChange {router : Router} {notice : Notice} {id : Bytes}
    (contained : (router.onMemberChange notice).Contains id) :
    (router.Contains id ∨ id = notice.1.nodeId) ∧ (id = notice.1.nodeId → notice.2 ≠ .left) := by
  unfold onMemberChange at contained
  split at contained
  · rename_i alive
    exact ⟨(contains_addPhysicalNode contained).symm, by simp [alive]⟩
  · obtain ⟨other, before⟩ := contains_removePhysicalNode contained
    exact ⟨.inl before, fun same => absurd same other⟩
  · rename_i notLeft
    exact ⟨.inl contained, fun _ => notLeft⟩

/-- Where the ring has a node after a callback. -/
theorem Router.lookup_onMemberChange (router : Router) (notice : Notice) (id : Bytes) :
    (router.onMemberChange notice).nodes[id]? =
      match notice.2 with
      | .alive => if notice.1.nodeId = id ∧ router.nodes[id]? = none then some notice.1 else router.nodes[id]?
      | .left => if notice.1.nodeId = id then none else router.nodes[id]?
      | _ => router.nodes[id]? := by
  unfold onMemberChange
  split
  · exact lookup_addPhysicalNode router notice.1 id
  · exact lookup_removePhysicalNode router notice.1.nodeId id
  · rfl

namespace Swim

variable {swim after : Swim} {fired : List Notice} {id : Bytes}

/-- A place in the ring is held only by nodes the view knows and that have not left. -/
def RingFollows (swim : Swim) (router : Router) : Prop :=
  ∀ id, router.Contains id → ∃ state, swim.stateOf id = some state ∧ state ≠ .left

theorem Step.left (step : Step swim after fired) (left : swim.stateOf id = some .left) :
    after.stateOf id = some .left := by
  induction step with
  | kept => exact left
  | entered entry other unknown =>
    rw [stateOf_record]
    split
    · rename_i same
      rw [← same, stateOf, if_neg other, unknown] at left
      cases left
    · exact left
  | amended found changed same member _ _ =>
    rw [amend, stateOf_record]
    split
    · rename_i here
      rw [← here, same, swim.keyed _ _ found, stateOf_of_found found] at left
      exact absurd (Option.some.inj left) member
    · exact left
  | retired =>
    rw [stateOf] at left ⊢
    split at left
    · rename_i own
      simp [own]
    · rename_i other
      simpa [other] using left
  | booked _ self members flag ih => rw [stateOf_congr self members flag, ih]

theorem RingFollows.record {router later : Router} (follows : swim.RingFollows router) {entry : MemberEntry}
    {other : entry.info.nodeId ≠ swim.self.nodeId}
    (elsewhere : ∀ id, later.Contains id → router.Contains id ∨ id = entry.info.nodeId)
    (here : later.Contains entry.info.nodeId → entry.state ≠ .left) :
    (swim.record entry other).RingFollows later := by
  intro id contained
  rw [stateOf_record]
  split
  · rename_i same
    exact ⟨entry.state, rfl, here (same ▸ contained)⟩
  · rename_i different
    exact follows id ((elsewhere id contained).resolve_right (Ne.symm different))

theorem Step.ringFollows (step : Step swim after fired) {router : Router} (follows : swim.RingFollows router) :
    after.RingFollows (fired.foldl Router.onMemberChange router) := by
  induction step with
  | kept => exact follows
  | entered entry other unknown =>
    split
    · rename_i alive
      rw [List.foldl_cons, List.foldl_nil]
      refine follows.record (fun _ contained => (Router.contains_onMemberChange contained).1) ?_
      simp [alive]
    · refine follows.record (fun _ contained => .inl contained) (fun contained => ?_)
      obtain ⟨state, known, -⟩ := follows _ contained
      rw [stateOf, if_neg other, unknown] at known
      cases known
  | amended found changed same member fired heard =>
    rcases heard with rfl | ⟨rfl, stays⟩
    · exact follows.record (fun _ contained => (Router.contains_onMemberChange contained).1)
        (fun contained => (Router.contains_onMemberChange contained).2 rfl)
    · exact follows.record (fun _ contained => .inl contained) (fun _ => stays)
  | retired =>
    intro id contained
    obtain ⟨other, before⟩ := Router.contains_removePhysicalNode contained
    obtain ⟨state, known, stays⟩ := follows id before
    refine ⟨state, ?_, stays⟩
    rw [stateOf, if_neg other] at known ⊢
    exact known
  | booked _ self members flag ih =>
    intro id contained
    rw [stateOf_congr self members flag]
    exact ih id contained

theorem Steps.left (steps : Steps swim after fired) (left : swim.stateOf id = some .left) :
    after.stateOf id = some .left := by
  induction steps with
  | none => exact left
  | snoc _ step ih => exact step.left ih

theorem Steps.ringFollows (steps : Steps swim after fired) {router : Router} (follows : swim.RingFollows router) :
    after.RingFollows (fired.foldl Router.onMemberChange router) := by
  induction steps with
  | none => exact follows
  | snoc _ step ih =>
    rw [List.foldl_append]
    exact step.ringFollows ih

theorem left_of_filed {entry : MemberEntry} (filed : entry ∈ swim.entries)
    (left : swim.stateOf entry.info.nodeId = some .left) : entry.state = .left := by
  obtain ⟨⟨place, _⟩, member, rfl⟩ := List.mem_map.mp filed
  have found := OrderedMap.mem_entries.mp member
  rw [swim.keyed _ _ found, stateOf_of_found found] at left
  exact Option.some.inj left

theorem mem_randomPeers {k : Int} {exclude : List Bytes} {shuffle : List NodeInfo → List NodeInfo}
    {peers : List NodeInfo} {peer : NodeInfo} (fair : ∀ candidates, (shuffle candidates).Perm candidates)
    (drawn : swim.randomPeers k exclude shuffle = some peers) (member : peer ∈ peers) :
    ∃ entry ∈ swim.entries, entry.info = peer ∧ entry.state ≠ .left := by
  have candidate : peer ∈ swim.candidates exclude := by
    rw [← (fair _).mem_iff]
    unfold randomPeers at drawn
    split at drawn
    · split at drawn
      · cases drawn
      · exact List.mem_of_mem_take (Option.some.inj drawn ▸ member)
    · exact Option.some.inj drawn ▸ member
  obtain ⟨⟨place, entry⟩, chosen, rfl⟩ := List.mem_map.mp candidate
  obtain ⟨listed, allowed⟩ := List.mem_filter.mp chosen
  refine ⟨entry, List.mem_map.mpr ⟨_, listed, rfl⟩, rfl, ?_⟩
  simp only [decide_eq_true_eq, not_or] at allowed
  exact allowed.1.2

end Swim

/-- The operations that change the view. -/
inductive Operation where
  | applyEvent (event : MemberEvent) (now : Int)
  | applyDirectJoin (event : MemberEvent)
  | suspect (nodeId : Bytes) (now : Int)
  | confirmDead (nodeId : Bytes)
  | leave (nodeId : Bytes)
  | refute
  | expireSuspects (timeout now : Int)
  | enqueueEvent (event : MemberEvent)
  | getEventsToSend

namespace Operation

/-- The view an operation leaves, and what the callbacks hear. -/
def react (swim : Swim) : Operation → Swim × List Notice
  | .applyEvent event now => let done := swim.applyEvent event now; (done.swim, done.fired)
  | .applyDirectJoin event => let done := swim.applyDirectJoin event; (done.swim, done.fired)
  | .suspect nodeId now => let done := swim.suspect nodeId now; (done.swim, done.fired)
  | .confirmDead nodeId => let done := swim.confirmDead nodeId; (done.swim, done.fired)
  | .leave nodeId => let done := swim.leave nodeId; (done.swim, done.fired)
  | .refute => let done := swim.refute; (done.swim, done.fired)
  | .expireSuspects timeout now => let done := swim.expireSuspects timeout now; (done.swim, done.fired)
  | .enqueueEvent event => (swim.enqueueEvent event, [])
  | .getEventsToSend => let done := swim.getEventsToSend; (done.swim, done.fired)

theorem steps (swim : Swim) (operation : Operation) :
    swim.Steps (operation.react swim).1 (operation.react swim).2 := by
  cases operation with
  | applyEvent event now => exact (Swim.applyEvent_step event now).steps
  | applyDirectJoin event => exact (Swim.applyDirectJoin_step event).steps
  | suspect nodeId now => exact (Swim.suspect_step nodeId now).steps
  | confirmDead nodeId => exact (Swim.confirmDead_step nodeId).steps
  | leave nodeId => exact (Swim.leave_step nodeId).steps
  | refute => exact Swim.refute_step.steps
  | expireSuspects timeout now => exact Swim.expireSuspects_steps timeout now
  | enqueueEvent event => exact (Swim.Step.kept.tell event).steps
  | getEventsToSend => exact Swim.getEventsToSend_step.steps

theorem heard_alive (swim : Swim) (operation : Operation) :
    ∀ notice ∈ (operation.react swim).2, notice.2 = .alive →
      ∃ entry, (operation.react swim).1.members[notice.1.nodeId]? = some entry ∧ entry.info = notice.1 ∧
        entry.state = .alive := by
  cases operation with
  | applyEvent event now => exact (Swim.applyEvent_step event now).heard_alive
  | applyDirectJoin event => exact (Swim.applyDirectJoin_step event).heard_alive
  | suspect nodeId now => exact (Swim.suspect_step nodeId now).heard_alive
  | confirmDead nodeId => exact (Swim.confirmDead_step nodeId).heard_alive
  | leave nodeId => exact (Swim.leave_step nodeId).heard_alive
  | refute => exact Swim.refute_step.heard_alive
  | expireSuspects timeout now =>
    intro notice heard alive
    cases alive.symm.trans (Swim.expireSuspects_dead timeout now notice heard)
  | enqueueEvent event => exact (Swim.Step.kept.tell event).heard_alive
  | getEventsToSend => exact Swim.getEventsToSend_step.heard_alive

end Operation

/-- A node's view and the ring its callback keeps. -/
structure GossipThread where
  swim : Swim
  router : Router
  follows : swim.RingFollows router

namespace GossipThread

/-- A process starts alone in its ring. -/
def start (self : NodeInfo) (virtualNodes : Int) : GossipThread where
  swim := .start self
  router := (Router.empty virtualNodes).addPhysicalNode self
  follows := by
    intro id contained
    rcases Router.contains_addPhysicalNode contained with rfl | before
    · exact ⟨.alive, by simp [Swim.stateOf, Swim.start], by decide⟩
    · simp [Router.Contains, Router.empty] at before

def perform (thread : GossipThread) (operation : Operation) : GossipThread where
  swim := (operation.react thread.swim).1
  router := (operation.react thread.swim).2.foldl Router.onMemberChange thread.router
  follows := (operation.steps thread.swim).ringFollows thread.follows

def run (thread : GossipThread) (operations : List Operation) : GossipThread :=
  operations.foldl perform thread

theorem run_left {thread : GossipThread} {id : Bytes} (left : thread.swim.stateOf id = some .left)
    (operations : List Operation) : (thread.run operations).swim.stateOf id = some .left := by
  induction operations generalizing thread with
  | nil => exact left
  | cons operation rest ih => exact ih ((operation.steps thread.swim).left left)

/-- The member has left, and no list of peers and no point of the ring shows it. -/
structure Gone (thread : GossipThread) (id : Bytes) : Prop where
  left : thread.swim.stateOf id = some .left
  alivePeers : ∀ peer ∈ thread.swim.alivePeers, peer.nodeId ≠ id
  deadPeers : ∀ peer ∈ thread.swim.deadPeers, peer.nodeId ≠ id
  allMembers : ∀ entry ∈ thread.swim.allMembers, entry.info.nodeId ≠ id
  randomPeers : ∀ (k : Int) (exclude : List Bytes) (shuffle : List NodeInfo → List NodeInfo) (peers : List NodeInfo),
    (∀ candidates, (shuffle candidates).Perm candidates) →
    thread.swim.randomPeers k exclude shuffle = some peers → ∀ peer ∈ peers, peer.nodeId ≠ id
  isAlive : thread.swim.isAlive id = false
  ring : ¬ thread.router.Contains id
  points : ∀ point : UInt64, thread.router.ring[point]? ≠ some id

theorem gone_of_left {thread : GossipThread} {id : Bytes} (left : thread.swim.stateOf id = some .left) :
    thread.Gone id where
  left := left
  alivePeers := by
    simp only [Swim.alivePeers, List.mem_map, List.mem_filter]
    rintro _ ⟨entry, ⟨filed, shown⟩, rfl⟩ rfl
    simp [Swim.left_of_filed filed left] at shown
  deadPeers := by
    simp only [Swim.deadPeers, List.mem_map, List.mem_filter]
    rintro _ ⟨entry, ⟨filed, shown⟩, rfl⟩ rfl
    simp [Swim.left_of_filed filed left] at shown
  allMembers := by
    simp only [Swim.allMembers, List.mem_filter]
    rintro entry ⟨filed, shown⟩ rfl
    simp [Swim.left_of_filed filed left] at shown
  randomPeers := by
    rintro k exclude shuffle peers fair drawn peer member rfl
    obtain ⟨entry, filed, rfl, shown⟩ := Swim.mem_randomPeers fair drawn member
    exact shown (Swim.left_of_filed filed left)
  isAlive := by
    unfold Swim.isAlive
    split
    · rfl
    · rename_i entry found
      have same := left.symm.trans (Swim.stateOf_of_found found)
      simp [← Option.some.inj same]
  ring := by
    intro contained
    obtain ⟨state, known, stays⟩ := thread.follows id contained
    exact stays (Option.some.inj (known.symm.trans left))
  points := by
    intro point placed
    obtain ⟨state, known, stays⟩ := thread.follows id (thread.router.placed point id placed)
    exact stays (Option.some.inj (known.symm.trans left))

/-- Once a node holds a member, or itself, as left, it does so for good: the member never
again shows among its peers, and its ring never again has a place for it. -/
theorem left_is_terminal (self : NodeInfo) (virtualNodes : Int) (before later : List Operation) (id : Bytes)
    (left : ((start self virtualNodes).run before).swim.stateOf id = some .left) :
    ((start self virtualNodes).run (before ++ later)).Gone id := by
  apply gone_of_left
  rw [run, List.foldl_append]
  exact run_left left later

/-- What might bring a member back. -/
def revivals : List Operation :=
  [.applyEvent { type := .alive, nodeId := ascii "b", host := ascii "h", incarnation := 9 } 1,
    .applyDirectJoin { nodeId := ascii "b", host := ascii "h", incarnation := 12 },
    .applyEvent { type := .dead, nodeId := ascii "b", incarnation := 20 } 2, .suspect (ascii "b") 3,
    .confirmDead (ascii "b"), .expireSuspects 0 10, .refute]

theorem left_is_terminal_after_revivals :
    ((start ⟨ascii "a", ascii "h", 1⟩ 2).run
      ([.applyEvent { type := .leave, nodeId := ascii "b" } 0] ++ (revivals ++ revivals))).Gone (ascii "b") :=
  left_is_terminal ⟨ascii "a", ascii "h", 1⟩ 2 [.applyEvent { type := .leave, nodeId := ascii "b" } 0]
    (revivals ++ revivals) (ascii "b") (by decide +kernel)

end GossipThread

end MiniDynamo
