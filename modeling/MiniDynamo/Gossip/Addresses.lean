import MiniDynamo.Library.Runs
import MiniDynamo.Gossip.Changes

/-! The addresses of the peers, in the view and in the ring that follows it. The ring takes
an address when a node enters it, and never again. -/

namespace MiniDynamo

/-- The host and port of a node. -/
def NodeInfo.address (info : NodeInfo) : Bytes × UInt16 := (info.host, info.port)

/-- Without an event about the member, nothing changes its address. -/
theorem Changes.info {id : Bytes} {before after : Record} (changes : Changes (fun _ => False) id before after)
    {entry : MemberEntry} (found : before = some entry) : ∃ later, after = some later ∧ later.info = entry.info := by
  induction changes with
  | refl => exact ⟨entry, found, rfl⟩
  | tail _ change ih =>
    obtain ⟨middle, rfl, same⟩ := ih
    cases change with
    | heard told => exact told.elim
    | suspected => exact ⟨_, rfl, same⟩
    | buried => exact ⟨_, rfl, same⟩
    | retired => exact ⟨_, rfl, same⟩

namespace Swim

variable {swim after : Swim} {router : Router} {fired : List Notice} {event : MemberEvent}

/-- The ring has every peer at the address the view has for it. -/
def AgreesWith (swim : Swim) (router : Router) : Prop :=
  ∀ (id : Bytes) (info : NodeInfo), router.nodes[id]? = some info → id ≠ swim.self.nodeId →
    ∃ entry, swim.members[id]? = some entry ∧ entry.info.address = info.address

/-- No peer in the ring changes its address. -/
def Unmoved (swim : Swim) (router : Router) (after : Swim) : Prop :=
  ∀ (id : Bytes) (entry : MemberEntry), router.Contains id → swim.members[id]? = some entry →
    ∃ later, after.members[id]? = some later ∧ later.info.address = entry.info.address

/-- What enters the ring enters at the address the view has for it. -/
def Announces (swim : Swim) (fired : List Notice) : Prop :=
  ∀ notice ∈ fired, notice.2 = .alive →
    ∃ entry, swim.members[notice.1.nodeId]? = some entry ∧ entry.info.address = notice.1.address

theorem AgreesWith.fold (agrees : swim.AgreesWith router) (announces : swim.Announces fired) :
    swim.AgreesWith (fired.foldl Router.onMemberChange router) := by
  induction fired generalizing router with
  | nil => exact agrees
  | cons notice rest ih =>
    refine ih ?_ (fun later heard => announces later (List.mem_cons_of_mem _ heard))
    intro id info placed other
    rw [Router.lookup_onMemberChange] at placed
    split at placed
    · rename_i alive
      split at placed
      · rename_i new
        obtain ⟨entry, found, same⟩ := announces notice (List.mem_cons_self ..) alive
        rw [← Option.some.inj placed, ← new.1]
        exact ⟨entry, found, same⟩
      · exact agrees id info placed other
    · split at placed
      · cases placed
      · exact agrees id info placed other
    · exact agrees id info placed other

theorem AgreesWith.unmoved (agrees : swim.AgreesWith router) (unmoved : swim.Unmoved router after)
    (self : after.self = swim.self) : after.AgreesWith router := by
  intro id info placed other
  rw [self] at other
  obtain ⟨entry, found, same⟩ := agrees id info placed other
  obtain ⟨later, known, kept⟩ := unmoved id entry (by simp [Router.Contains, placed]) found
  exact ⟨later, known, kept.trans same⟩

end Swim

theorem Operation.announces (swim : Swim) (operation : Operation) :
    (operation.react swim).1.Announces (operation.react swim).2 := by
  intro notice heard alive
  obtain ⟨entry, found, same, -⟩ := operation.heard_alive swim notice heard alive
  exact ⟨entry, found, congrArg NodeInfo.address same⟩

/-- A place in the ring stays, with its address, until its node leaves. -/
theorem Router.lookup_fold {router : Router} {fired : List Notice} {id : Bytes} {info : NodeInfo}
    (placed : router.nodes[id]? = some info) (stays : ∀ notice ∈ fired, notice.2 ≠ .left) :
    (fired.foldl onMemberChange router).nodes[id]? = some info := by
  induction fired generalizing router with
  | nil => exact placed
  | cons notice rest ih =>
    refine ih ?_ (fun later heard => stays later (List.mem_cons_of_mem _ heard))
    have member := stays notice (List.mem_cons_self ..)
    rw [lookup_onMemberChange]
    split
    · simp [placed]
    · rename_i left
      exact absurd left member
    · exact placed

namespace GossipThread

variable {thread : GossipThread} {event : MemberEvent} {entry : MemberEntry}

/-- The ring and the view agree on the addresses of the peers in the ring. -/
def Agrees (thread : GossipThread) : Prop := thread.swim.AgreesWith thread.router

/-- The event has another address for a peer in the ring than the view has. -/
structure Relocates (thread : GossipThread) (event : MemberEvent) (entry : MemberEntry) : Prop where
  placed : thread.router.Contains event.nodeId
  known : thread.swim.members[event.nodeId]? = some entry
  given : event.host ≠ []
  differs : (event.host, event.port) ≠ entry.info.address

end GossipThread

/-- The operation gives a peer in the ring another address: it brings later news that the
peer is up, or its own request to join. -/
def Operation.Readdresses (thread : GossipThread) : Operation → Prop
  | .applyEvent event _ =>
    ∃ entry, thread.Relocates event entry ∧ event.Revives event.nodeId ∧ entry.incarnation < event.incarnation
  | .applyDirectJoin event => ∃ entry, thread.Relocates event entry
  | _ => False

theorem MemberEvent.address_readdress (event : MemberEvent) (info : NodeInfo) :
    (event.readdress info).address = if event.host = [] then info.address else (event.host, event.port) := by
  unfold readdress
  cases host : event.host <;> simp [NodeInfo.address]

/-- Only news that a member is up gives it another address. -/
theorem MemberEvent.info_update (event : MemberEvent) (now : Int) (entry : MemberEntry)
    (accepted : event.accepts (some entry) = true) :
    (event.update now (some entry)).info =
      if event.Revives event.nodeId then event.readdress entry.info else entry.info := by
  cases type : event.type <;> simp_all [update, Revives, accepts]

namespace GossipThread

variable {thread : GossipThread} {event : MemberEvent} {entry : MemberEntry}

/-- An event with no other address for a peer in the ring leaves it where it is. -/
theorem address_kept (contained : thread.router.Contains event.nodeId)
    (found : thread.swim.members[event.nodeId]? = some entry) (calm : ¬ thread.Relocates event entry) :
    (event.readdress entry.info).address = entry.info.address := by
  rw [MemberEvent.address_readdress]
  split
  · rfl
  · rename_i given
    by_contra differs
    exact calm ⟨contained, found, given, differs⟩

theorem applyEvent_unmoved (now : Int) (calm : ¬ Operation.Readdresses thread (.applyEvent event now)) :
    thread.swim.Unmoved thread.router (thread.swim.applyEvent event now).swim := by
  intro id entry contained found
  have peer : id ≠ thread.swim.self.nodeId := thread.swim.keyed _ _ found ▸ thread.swim.other_of_found found
  rw [Swim.lookup_applyEvent_peer now peer, found]
  split
  · rename_i taken
    obtain ⟨rfl, accepted⟩ := taken
    refine ⟨_, rfl, ?_⟩
    rw [event.info_update now entry accepted]
    split
    · rename_i revives
      refine address_kept contained found (fun relocates => calm ⟨entry, relocates, revives, ?_⟩)
      exact ((MemberEvent.accepts_of_revives revives entry).mp accepted).2
    · rfl
  · exact ⟨entry, rfl, rfl⟩

theorem applyDirectJoin_unmoved (calm : ¬ Operation.Readdresses thread (.applyDirectJoin event)) :
    thread.swim.Unmoved thread.router (thread.swim.applyDirectJoin event).swim := by
  intro id entry contained found
  by_cases own : event.nodeId = thread.swim.self.nodeId
  · rw [Swim.applyDirectJoin, dif_pos own]
    exact ⟨entry, found, rfl⟩
  · rw [Swim.lookup_applyDirectJoin own, found]
    split
    · rename_i joins
      obtain ⟨rfl, -⟩ := joins
      exact ⟨_, rfl, address_kept contained found (fun relocates => calm ⟨entry, relocates⟩)⟩
    · exact ⟨entry, rfl, rfl⟩

theorem unmoved_of_changes {after : Swim}
    (changes : ∀ id : Bytes, Changes (fun _ => False) id thread.swim.members[id]? after.members[id]?) :
    thread.swim.Unmoved thread.router after := by
  intro id entry _ found
  obtain ⟨later, known, same⟩ := (changes id).info found
  exact ⟨later, known, by rw [same]⟩

theorem agrees_of_calm {operation : Operation} (agrees : thread.Agrees) (calm : ¬ operation.Readdresses thread) :
    (thread.perform operation).Agrees := by
  have unmoved : thread.swim.Unmoved thread.router (operation.react thread.swim).1 := by
    cases operation with
    | applyEvent event now => exact applyEvent_unmoved now calm
    | applyDirectJoin event => exact applyDirectJoin_unmoved calm
    | suspect nodeId now => exact unmoved_of_changes (fun _ => Swim.suspect_changes nodeId now)
    | confirmDead nodeId => exact unmoved_of_changes (fun _ => Swim.confirmDead_changes nodeId)
    | leave nodeId => exact unmoved_of_changes (fun _ => Swim.leave_changes nodeId)
    | expireSuspects timeout now => exact unmoved_of_changes (fun _ => Swim.expireSuspects_changes timeout now)
    | refute => exact unmoved_of_changes (fun _ => .refl)
    | enqueueEvent event => exact unmoved_of_changes (fun _ => .refl)
    | getEventsToSend => exact unmoved_of_changes (fun _ => .refl)
  exact (Swim.AgreesWith.unmoved agrees unmoved (operation.steps thread.swim).self).fold
    (operation.announces thread.swim)

/-- A peer in the ring that the view has at another address than before: the ring still has
the old one. -/
theorem disagrees_of_relocated {operation : Operation} {later : MemberEntry} (agrees : thread.Agrees)
    (relocates : thread.Relocates event entry)
    (found : (operation.react thread.swim).1.members[event.nodeId]? = some later)
    (moved : later.info = event.readdress entry.info)
    (stays : ∀ notice ∈ (operation.react thread.swim).2, notice.2 ≠ .left) :
    ¬ (thread.perform operation).Agrees := by
  intro still
  have peer : event.nodeId ≠ thread.swim.self.nodeId :=
    thread.swim.keyed _ _ relocates.known ▸ thread.swim.other_of_found relocates.known
  obtain ⟨info, placed⟩ := Option.ne_none_iff_exists'.mp relocates.placed
  have kept : (thread.perform operation).router.nodes[event.nodeId]? = some info := Router.lookup_fold placed stays
  have self : (thread.perform operation).swim.self = thread.swim.self := (operation.steps thread.swim).self
  obtain ⟨before, known, old⟩ := agrees event.nodeId info placed peer
  obtain ⟨after, held, new⟩ := still event.nodeId info kept (by rwa [self])
  obtain rfl : entry = before := Option.some.inj (relocates.known.symm.trans known)
  obtain rfl : later = after := Option.some.inj (found.symm.trans held)
  rw [moved, MemberEvent.address_readdress, if_neg relocates.given] at new
  exact relocates.differs (new.trans old.symm)

/-- A peer in the ring has not left. -/
theorem Relocates.stays (relocates : thread.Relocates event entry) : entry.state ≠ .left := by
  obtain ⟨state, known, stays⟩ := thread.follows _ relocates.placed
  rw [Swim.stateOf_of_found relocates.known] at known
  exact Option.some.inj known ▸ stays

theorem disagrees_of_readdressed {operation : Operation} (agrees : thread.Agrees)
    (readdresses : operation.Readdresses thread) : ¬ (thread.perform operation).Agrees := by
  cases operation with
  | applyEvent event now =>
    obtain ⟨entry, relocates, revives, later⟩ := readdresses
    have accepted := (MemberEvent.accepts_of_revives revives entry).mpr ⟨relocates.stays, later⟩
    have peer : event.nodeId ≠ thread.swim.self.nodeId :=
      thread.swim.keyed _ _ relocates.known ▸ thread.swim.other_of_found relocates.known
    have found : (thread.swim.applyEvent event now).swim.members[event.nodeId]? =
        some (event.update now (some entry)) := by
      rw [Swim.lookup_applyEvent now peer, relocates.known, if_pos ⟨rfl, accepted⟩]
    refine disagrees_of_relocated agrees relocates found ?_ ?_
    · rw [event.info_update now entry accepted, if_pos revives]
    · rw [Operation.react, Swim.applyEvent_fired now peer, relocates.known, if_pos accepted]
      rcases revives.2 with type | type <;> simp [MemberEvent.notices, type]
  | applyDirectJoin event =>
    obtain ⟨entry, relocates⟩ := readdresses
    have peer : event.nodeId ≠ thread.swim.self.nodeId :=
      thread.swim.keyed _ _ relocates.known ▸ thread.swim.other_of_found relocates.known
    have member : ¬ Record.Departed thread.swim.members[event.nodeId]? := by
      simpa [Record.Departed, relocates.known] using relocates.stays
    have found : (thread.swim.applyDirectJoin event).swim.members[event.nodeId]? =
        some (event.joined (some entry)) := by
      rw [Swim.lookup_applyDirectJoin peer, if_pos ⟨rfl, member⟩, relocates.known]
    refine disagrees_of_relocated agrees relocates found rfl ?_
    rw [Operation.react, Swim.applyDirectJoin_fired peer, if_neg member, relocates.known, MemberEvent.joinNotices]
    split <;> simp
  | _ => exact readdresses.elim

theorem agrees_start (self : NodeInfo) (virtualNodes : Int) : (start self virtualNodes).Agrees := by
  intro id info placed other
  have contained : ((Router.empty virtualNodes).addPhysicalNode self).Contains id := by
    rw [Router.Contains, show ((Router.empty virtualNodes).addPhysicalNode self).nodes[id]? = some info from placed]
    simp
  rcases Router.contains_addPhysicalNode contained with own | before
  · exact absurd own other
  · simp [Router.Contains, Router.empty] at before

/-- The ring and the view agree on every peer's address throughout a run exactly if the run
never gives a peer in the ring another address. -/
theorem addresses_agree_iff (self : NodeInfo) (virtualNodes : Int) (operations : List Operation) :
    (∀ before after, operations = before ++ after → ((start self virtualNodes).run before).Agrees) ↔
      Throughout perform (fun thread operation => ¬ operation.Readdresses thread) (start self virtualNodes)
        operations := by
  refine always_iff_throughout (fun thread operation agrees => ?_) (agrees_start self virtualNodes)
  exact ⟨fun still readdresses => disagrees_of_readdressed agrees readdresses still, agrees_of_calm agrees⟩

/-- `b` joins from one port and, restarted, from another: the view follows, the ring does
not. -/
theorem stale_address_after_restart :
    let thread := (start ⟨[97], [104], 1⟩ 2).run
      [.applyDirectJoin { type := .join, nodeId := [98], host := [104], port := 5000 },
        .applyDirectJoin { type := .join, nodeId := [98], host := [104], port := 6000 }]
    thread.router.nodes[([98] : Bytes)]? = some ⟨[98], [104], 5000⟩ ∧
      thread.swim.members[([98] : Bytes)]?.map MemberEntry.info = some ⟨[98], [104], 6000⟩ := by
  decide +kernel

end GossipThread

end MiniDynamo
