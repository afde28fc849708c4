import MiniDynamo.Gossip.RingHistory

/-! Two nodes with equal views: when they have the same nodes in their rings, and the same
owners for every key. -/

namespace MiniDynamo

namespace Swim

/-- Both views have the same ids in the same class, the nodes themselves among them. -/
def SameView (one other : Swim) : Prop :=
  ∀ id, (one.stateOf id).map MemberState.stateClass = (other.stateOf id).map MemberState.stateClass

/-- The class of every id in the view. -/
def classes (swim : Swim) : OrderedMap Bytes StateClass :=
  (swim.members.map (fun _ entry => entry.state.stateClass)).insert swim.self.nodeId swim.selfClass

theorem lookup_classes (swim : Swim) (id : Bytes) :
    swim.classes[id]? = (swim.stateOf id).map MemberState.stateClass := by
  rw [classes, OrderedMap.lookup_insert, Std.ExtTreeMap.getElem?_map, stateOf]
  by_cases own : id = swim.self.nodeId
  · cases left : swim.selfLeft <;> simp [own, selfClass, left, MemberState.stateClass]
  · simp [own, Ne.symm own, Function.comp_def]

theorem sameView_of_classes {one other : Swim} (same : one.classes = other.classes) : one.SameView other := by
  intro id
  rw [← lookup_classes, same, lookup_classes]

end Swim

/-- Whoever the callbacks call alive is alive. -/
theorem Operation.alive_of_heard (swim : Swim) (operation : Operation) :
    ∀ notice ∈ (operation.react swim).2, notice.2 = .alive →
      (operation.react swim).1.stateOf notice.1.nodeId = some .alive := by
  intro notice heard alive
  obtain ⟨entry, found, -, up⟩ := operation.heard_alive swim notice heard alive
  rw [Swim.stateOf_of_found found, up]

namespace GossipThread

variable {thread : GossipThread} {ever : Bytes → Prop} {operations : List Operation} {id : Bytes}

theorem perform_kept (kept : thread.swim.RingKept thread.router ever) (operation : Operation) :
    (thread.perform operation).swim.RingKept (thread.perform operation).router
      (fun id => ever id ∨ (thread.perform operation).swim.stateOf id = some .alive) := by
  cases operation with
  | applyEvent event now => exact Swim.applyEvent_kept kept thread.follows event now
  | applyDirectJoin event => exact Swim.applyDirectJoin_kept kept event
  | suspect nodeId now => exact Swim.suspect_kept kept nodeId now
  | confirmDead nodeId => exact Swim.confirmDead_kept kept nodeId
  | leave nodeId => exact Swim.leave_kept kept nodeId
  | refute => exact Swim.RingKept.now (Swim.RingKept.booked kept (fun _ => rfl))
  | expireSuspects timeout now => exact Swim.expireSuspects_kept kept timeout now
  | enqueueEvent event => exact (kept.tell event).now
  | getEventsToSend => exact Swim.RingKept.now (Swim.RingKept.booked kept (fun _ => rfl))

/-- At some point of the run the node has held the member as alive. -/
def EverUp (thread : GossipThread) (operations : List Operation) (id : Bytes) : Prop :=
  ∃ before after, operations = before ++ after ∧ (thread.run before).swim.stateOf id = some .alive

theorem everUp_nil : thread.EverUp [] id ↔ thread.swim.stateOf id = some .alive := by
  refine ⟨?_, fun alive => ⟨[], [], rfl, alive⟩⟩
  rintro ⟨before, after, split, alive⟩
  rwa [(List.append_eq_nil_iff.mp split.symm).1] at alive

theorem run_snoc (thread : GossipThread) (operations : List Operation) (last : Operation) :
    thread.run (operations ++ [last]) = (thread.run operations).perform last := by
  rw [run, List.foldl_append]
  rfl

theorem everUp_snoc (last : Operation) :
    thread.EverUp (operations ++ [last]) id ↔
      thread.EverUp operations id ∨ (thread.run (operations ++ [last])).swim.stateOf id = some .alive := by
  constructor
  · rintro ⟨before, after, split, alive⟩
    rcases List.prefix_concat_iff.mp (⟨after, split.symm⟩ : before <+: operations ++ [last]) with rfl | ⟨rest, rfl⟩
    · exact .inr alive
    · exact .inl ⟨before, rest, rfl, alive⟩
  · rintro (⟨before, after, rfl, alive⟩ | alive)
    · exact ⟨before, after ++ [last], by simp, alive⟩
    · exact ⟨operations ++ [last], [], by simp, alive⟩

theorem contains_start {self : NodeInfo} {virtualNodes : Int} :
    (start self virtualNodes).router.Contains id ↔ self.nodeId = id := by
  refine (Router.contains_addPhysicalNode_iff self id).trans (or_iff_left ?_)
  simp [Router.Contains, Router.empty]

theorem stateOf_start {self : NodeInfo} {virtualNodes : Int} :
    (start self virtualNodes).swim.stateOf id = if id = self.nodeId then some .alive else none := by
  simp [start, Swim.start, Swim.stateOf]

theorem start_kept (self : NodeInfo) (virtualNodes : Int) :
    (start self virtualNodes).swim.RingKept (start self virtualNodes).router
      ((start self virtualNodes).EverUp []) where
  up id state := by
    rw [stateOf_start] at state
    rw [contains_start]
    by_contra other
    simp [Ne.symm other] at state
  seen id contained := by
    rw [everUp_nil, stateOf_start, if_pos (contains_start.mp contained).symm]
  kept id seen _ := by
    rw [everUp_nil, stateOf_start] at seen
    rw [contains_start]
    by_contra other
    simp [Ne.symm other] at seen

/-- The ring of a run: who has been up in it, and has not left. -/
theorem run_kept (self : NodeInfo) (virtualNodes : Int) (operations : List Operation) :
    ((start self virtualNodes).run operations).swim.RingKept ((start self virtualNodes).run operations).router
      ((start self virtualNodes).EverUp operations) := by
  induction operations using List.reverseRecOn with
  | nil => exact start_kept self virtualNodes
  | append_singleton operations last ih =>
    have kept := perform_kept ih last
    rw [← run_snoc] at kept
    exact kept.congr (fun id => (everUp_snoc last).symm)

/-- As long as no two nodes that have been up collide, every point of the ring is its
node's own. -/
theorem run_exact (self : NodeInfo) (virtualNodes : Int) (operations : List Operation)
    (scattered : Router.Scattered virtualNodes ((start self virtualNodes).EverUp operations)) :
    ((start self virtualNodes).run operations).router.Exact ∧
      ((start self virtualNodes).run operations).router.virtualNodes = virtualNodes := by
  induction operations using List.reverseRecOn with
  | nil =>
    have points : (start self virtualNodes).router.virtualNodes = virtualNodes :=
      Router.virtualNodes_addPhysicalNode _ self
    refine ⟨(Router.exact_empty virtualNodes).addPhysicalNode scattered self ?_ ?_, points⟩
    · exact (start_kept self virtualNodes).seen _ (contains_start.mpr rfl)
    · simp [Router.Contains, Router.empty]
  | append_singleton operations last ih =>
    have sooner : ∀ id, (start self virtualNodes).EverUp operations id →
        (start self virtualNodes).EverUp (operations ++ [last]) id := fun id up => (everUp_snoc last).mpr (.inl up)
    obtain ⟨exact, points⟩ := ih (fun first second point one other => scattered first second point
      (sooner first one) (sooner second other))
    have news : ∀ notice ∈ (last.react ((start self virtualNodes).run operations).swim).2, notice.2 = .alive →
        (start self virtualNodes).EverUp (operations ++ [last]) notice.1.nodeId := by
      intro notice heard alive
      refine (everUp_snoc last).mpr (.inr ?_)
      rw [run_snoc]
      exact last.alive_of_heard _ notice heard alive
    obtain ⟨now, unchanged⟩ := Router.exact_fold exact (by rw [points]; exact scattered)
      (fun id contained => sooner id ((run_kept self virtualNodes operations).seen id contained)) news
    rw [run_snoc]
    exact ⟨now, unchanged.trans points⟩

end GossipThread

/-- A node and all that has happened to it. -/
structure History where
  self : NodeInfo
  virtualNodes : Int
  operations : List Operation

namespace History

variable {mine theirs : History}

def thread (history : History) : GossipThread :=
  (GossipThread.start history.self history.virtualNodes).run history.operations

/-- At some point the node has held the member as alive. -/
def EverUp (history : History) (id : Bytes) : Prop :=
  (GossipThread.start history.self history.virtualNodes).EverUp history.operations id

theorem kept (history : History) : history.thread.swim.RingKept history.thread.router history.EverUp :=
  GossipThread.run_kept history.self history.virtualNodes history.operations

/-- The nodes agree, for each member that they hold dead, on whether it has ever been up. -/
def SameDead (mine theirs : History) : Prop :=
  ∀ id, mine.thread.swim.stateOf id = some .dead → (mine.EverUp id ↔ theirs.EverUp id)

theorem class_dead {state : MemberState} (dead : state.stateClass = .dead) : state = .dead := by
  cases state <;> simp [MemberState.stateClass] at dead ⊢

/-- Equal views hold the same members dead. -/
theorem dead_of_sameView (same : mine.thread.swim.SameView theirs.thread.swim) {id : Bytes}
    (dead : mine.thread.swim.stateOf id = some .dead) : theirs.thread.swim.stateOf id = some .dead := by
  have view := same id
  rw [dead] at view
  obtain ⟨state, found, died⟩ := Option.map_eq_some_iff.mp view.symm
  rw [found, class_dead died]

/-- The class of a member decides its place in the ring, unless the member is dead. -/
theorem contains_of_sameView (same : mine.thread.swim.SameView theirs.thread.swim) (dead : mine.SameDead theirs)
    {id : Bytes} (contained : mine.thread.router.Contains id) : theirs.thread.router.Contains id := by
  obtain ⟨state, known, stays⟩ := mine.thread.follows id contained
  have view := same id
  rw [known] at view
  obtain ⟨its, found, agrees⟩ := Option.map_eq_some_iff.mp view.symm
  cases its with
  | alive => exact theirs.kept.up id (.inl found)
  | suspect => exact theirs.kept.up id (.inr found)
  | dead =>
    have died := class_dead agrees.symm
    exact theirs.kept.kept id ((dead id (died ▸ known)).mp (mine.kept.seen id contained)) (by simp [found])
  | left => cases state <;> simp [MemberState.stateClass] at agrees stays

theorem same_nodes_iff (same : mine.thread.swim.SameView theirs.thread.swim) :
    (∀ id, mine.thread.router.Contains id ↔ theirs.thread.router.Contains id) ↔ mine.SameDead theirs := by
  constructor
  · intro nodes id dead
    have buried := dead_of_sameView same dead
    constructor
    · intro seen
      exact theirs.kept.seen id ((nodes id).mp (mine.kept.kept id seen (by simp [dead])))
    · intro seen
      exact mine.kept.seen id ((nodes id).mpr (theirs.kept.kept id seen (by simp [buried])))
  · intro dead id
    have mirrored : theirs.thread.swim.SameView mine.thread.swim := fun id => (same id).symm
    refine ⟨contains_of_sameView same dead, contains_of_sameView mirrored (fun id buried => ?_)⟩
    exact (dead id (dead_of_sameView mirrored buried)).symm

theorem exact_of_scattered {present : Bytes → Prop} (history : History)
    (scattered : Router.Scattered history.virtualNodes present) (up : ∀ id, history.EverUp id → present id) :
    history.thread.router.Exact ∧ history.thread.router.virtualNodes = history.virtualNodes :=
  GossipThread.run_exact history.self history.virtualNodes history.operations
    (fun first second point one other => scattered first second point (up first one) (up second other))

/-- Two nodes with equal views have the same nodes in their rings exactly if they agree, for
each member that they hold dead, on whether it has ever been up. If they do, and their
virtual nodes are as many and do not collide, they name the same owners for every key. -/
theorem equal_views_equal_rings_iff (mine theirs : History)
    (same : mine.thread.swim.SameView theirs.thread.swim) :
    ((∀ id, mine.thread.router.Contains id ↔ theirs.thread.router.Contains id) ↔ mine.SameDead theirs) ∧
    (mine.SameDead theirs → mine.virtualNodes = theirs.virtualNodes →
      Router.Scattered mine.virtualNodes (fun id => mine.EverUp id ∨ theirs.EverUp id) →
      ∀ (key : Bytes) (replicas : Int),
        (mine.thread.router.findOwners key replicas).map (List.map NodeInfo.nodeId) =
          (theirs.thread.router.findOwners key replicas).map (List.map NodeInfo.nodeId)) := by
  refine ⟨same_nodes_iff same, fun dead points scattered key replicas => ?_⟩
  obtain ⟨exactMine, pointsMine⟩ := mine.exact_of_scattered scattered (fun _ => .inl)
  obtain ⟨exactTheirs, pointsTheirs⟩ := theirs.exact_of_scattered (points ▸ scattered) (fun _ => .inr)
  exact Router.findOwners_ids ((same_nodes_iff same).mpr dead) (by rw [pointsMine, pointsTheirs, points])
    exactMine exactTheirs key replicas

/-- Nodes `a` and `b`, each of which has heard of the other. -/
def nodeA (more : List Operation) : History :=
  ⟨⟨[97], [104], 1⟩, 1, .applyEvent { nodeId := [98], host := [104], port := 2 } 0 :: more⟩

def nodeB (more : List Operation) : History :=
  ⟨⟨[98], [104], 2⟩, 1, .applyEvent { nodeId := [97], host := [104], port := 1 } 0 :: more⟩

def death : Operation := .applyEvent { type := .dead, nodeId := [120] } 5

def birth : Operation := .applyEvent { nodeId := [120], host := [104], port := 3 } 4

/-- Whoever has ever been up is still in the view. -/
theorem listed_of_everUp (history : History) {id : Bytes} (up : history.EverUp id) :
    id ∈ history.thread.swim.classes.toList.map Prod.fst := by
  have known : ∃ state, history.thread.swim.stateOf id = some state := by
    by_cases left : history.thread.swim.stateOf id = some .left
    · exact ⟨.left, left⟩
    · obtain ⟨state, found, -⟩ := history.thread.follows id (history.kept.kept id up left)
      exact ⟨state, found⟩
  obtain ⟨state, found⟩ := known
  refine List.mem_map.mpr ⟨(id, state.stateClass), OrderedMap.mem_entries.mpr ?_, rfl⟩
  rw [Swim.lookup_classes, found]
  rfl

theorem scattered_three :
    Router.Scattered 1 (fun id => (nodeA [birth, death]).EverUp id ∨ (nodeB [birth, death]).EverUp id) := by
  have three (id : Bytes) (up : (nodeA [birth, death]).EverUp id ∨ (nodeB [birth, death]).EverUp id) :
      id ∈ ([[97], [98], [120]] : List Bytes) := by
    rcases up with up | up
    · exact (by decide +kernel : (nodeA [birth, death]).thread.swim.classes.toList.map Prod.fst =
        [[97], [98], [120]]) ▸ listed_of_everUp _ up
    · exact (by decide +kernel : (nodeB [birth, death]).thread.swim.classes.toList.map Prod.fst =
        [[97], [98], [120]]) ▸ listed_of_everUp _ up
  have apart : ∀ first ∈ ([[97], [98], [120]] : List Bytes), ∀ second ∈ ([[97], [98], [120]] : List Bytes),
      hash64 (Router.vnodeKey first 0) = hash64 (Router.vnodeKey second 0) → first = second := by decide +kernel
  rintro first second point one other ⟨index, low, here⟩ ⟨place, below, there⟩
  obtain rfl : index = 0 := Nat.lt_one_iff.mp low
  obtain rfl : place = 0 := Nat.lt_one_iff.mp below
  exact apart first (three first one) second (three second other) (here.trans there.symm)

/-- Both hear that `x` is up and that it is dead. -/
theorem equal_views_equal_rings_both :
    (∀ id, (nodeA [birth, death]).thread.router.Contains id ↔ (nodeB [birth, death]).thread.router.Contains id) ∧
      ∀ (key : Bytes) (replicas : Int),
        ((nodeA [birth, death]).thread.router.findOwners key replicas).map (List.map NodeInfo.nodeId) =
          ((nodeB [birth, death]).thread.router.findOwners key replicas).map (List.map NodeInfo.nodeId) := by
  have rings := equal_views_equal_rings_iff (nodeA [birth, death]) (nodeB [birth, death])
    (Swim.sameView_of_classes (by decide +kernel))
  have dead : (nodeA [birth, death]).SameDead (nodeB [birth, death]) := by
    intro id dead
    have listed : (id, StateClass.dead) ∈ (nodeA [birth, death]).thread.swim.classes.toList := by
      rw [OrderedMap.mem_entries, Swim.lookup_classes, dead]
      rfl
    rw [(by decide +kernel : (nodeA [birth, death]).thread.swim.classes.toList =
      [([97], .alive), ([98], .alive), ([120], .dead)])] at listed
    obtain rfl : id = [120] := by simpa using listed
    refine iff_of_true ⟨_ :: [birth], [death], rfl, ?_⟩ ⟨_ :: [birth], [death], rfl, ?_⟩ <;> decide +kernel
  exact ⟨rings.1.mpr dead, rings.2 dead rfl scattered_three⟩

/-- Only `a` hears that `x` is up before both hear that it is dead: the views are equal, and
`x` owns keys at `a` alone. -/
theorem dead_stranger_has_no_place :
    (nodeA [birth, death]).thread.swim.SameView (nodeB [death]).thread.swim ∧
      (nodeA [birth, death]).thread.router.Contains [120] ∧ ¬ (nodeB [death]).thread.router.Contains [120] ∧
      ((nodeA [birth, death]).thread.router.findOwners [107] 3).map (List.map NodeInfo.nodeId) ≠
        ((nodeB [death]).thread.router.findOwners [107] 3).map (List.map NodeInfo.nodeId) := by
  refine ⟨Swim.sameView_of_classes (by decide +kernel), ?_⟩
  decide +kernel

end History

end MiniDynamo
