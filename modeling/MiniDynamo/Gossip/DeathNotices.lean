import MiniDynamo.Gossip.Changes

/-! What a death notice settles: which later gossip can still bring the member back. -/

namespace MiniDynamo

theorem MemberEvent.rank_of_revives {event : MemberEvent} {id : Bytes} (revives : event.Revives id) :
    event.rank = 3 * event.incarnation.toNat + 1 := by
  rcases revives.2 with type | type <;> simp [rank, type]

/-- Only news that a member is up makes its record alive. -/
theorem MemberEvent.revives_of_update {event : MemberEvent} {id : Bytes} {now : Int} {record : Record}
    (about : event.nodeId = id) (accepted : event.accepts record = true)
    (alive : (event.update now record).state = .alive) : event.Revives id := by
  refine ⟨about, ?_⟩
  cases record with
  | none => cases type : event.type <;> simp_all [accepts, update, entryState]
  | some entry => cases type : event.type <;> simp_all [accepts, update]

namespace Swim

/-- The view after a run of relayed events, each with the time it is applied at. -/
def hear (swim : Swim) (events : List (MemberEvent × Int)) : Swim :=
  events.foldl (fun swim heard => (swim.applyEvent heard.1 heard.2).swim) swim

/-- What a node may expect of a death notice at this incarnation: no relayed news that the
member is up is accepted later unless it is newer, and without newer news the member does
not turn alive. -/
structure Settled (swim : Swim) (id : Bytes) (incarnation : UInt64) : Prop where
  refuses : ∀ (later : List (MemberEvent × Int)) (event : MemberEvent) (now : Int), event.Revives id →
    event.incarnation ≤ incarnation → ((swim.hear later).applyEvent event now).result = false
  stays : ∀ later : List (MemberEvent × Int),
    (∀ heard ∈ later, heard.1.Revives id → heard.1.incarnation ≤ incarnation) →
    (swim.hear later).stateOf id = some .alive → swim.stateOf id = some .alive

variable {swim : Swim} {id : Bytes} {incarnation : UInt64}

theorem hear_self (swim : Swim) (events : List (MemberEvent × Int)) : (swim.hear events).self = swim.self := by
  induction events generalizing swim with
  | nil => rfl
  | cons heard rest ih => exact (ih _).trans (applyEvent_self swim heard.1 heard.2)

theorem hear_snoc (swim : Swim) (events : List (MemberEvent × Int)) (last : MemberEvent) (now : Int) :
    swim.hear (events ++ [(last, now)]) = ((swim.hear events).applyEvent last now).swim := by
  rw [hear, List.foldl_append]
  rfl

theorem rank_le_hear (swim : Swim) (events : List (MemberEvent × Int)) (id : Bytes) :
    Record.rank swim.members[id]? ≤ Record.rank (swim.hear events).members[id]? := by
  induction events generalizing swim with
  | nil => exact le_refl _
  | cons heard rest ih => exact (rank_le_applyEvent swim heard.1 heard.2 id).trans (ih _)

/-- A record that ranks with the notice has settled the matter. -/
theorem refuses_of_rank (high : 3 * incarnation.toNat + 3 ≤ Record.rank swim.members[id]?)
    (later : List (MemberEvent × Int)) {event : MemberEvent} (revives : event.Revives id) (old : event.incarnation ≤ incarnation) :
    event.accepts (swim.hear later).members[id]? = false := by
  by_contra taken
  have below := MemberEvent.accepts_rank (Bool.not_eq_false _ ▸ taken)
  rw [MemberEvent.rank_of_revives revives] at below
  have above := high.trans (rank_le_hear swim later id)
  rw [UInt64.le_iff_toNat_le] at old
  omega

theorem stateOf_applyEvent {event : MemberEvent} {now : Int} (other : id ≠ swim.self.nodeId)
    (refused : event.Revives id → event.accepts swim.members[id]? = false)
    (alive : (swim.applyEvent event now).swim.stateOf id = some .alive) : swim.stateOf id = some .alive := by
  rw [stateOf, applyEvent_self, if_neg other] at alive
  rw [stateOf, if_neg other]
  rw [lookup_applyEvent_peer now other] at alive
  split at alive
  · rename_i taken
    have revives := MemberEvent.revives_of_update taken.1 taken.2 (Option.some.inj alive)
    rw [refused revives] at taken
    cases taken.2
  · exact alive

theorem settled_of_rank (other : id ≠ swim.self.nodeId)
    (high : 3 * incarnation.toNat + 3 ≤ Record.rank swim.members[id]?) : swim.Settled id incarnation where
  refuses later event now revives old := by
    rw [applyEvent_result now (by rw [revives.1, hear_self]; exact other), revives.1]
    exact refuses_of_rank high later revives old
  stays later := by
    -- from the last event back: each was refused, so the member was alive before it too
    induction later using List.reverseRecOn with
    | nil => exact fun _ alive => alive
    | append_singleton early last ih =>
      intro old alive
      refine ih (fun heard member => old heard (List.mem_append_left _ member)) ?_
      rw [hear_snoc] at alive
      refine stateOf_applyEvent (by rw [hear_self]; exact other) (fun revives => ?_) alive
      exact refuses_of_rank high early revives (old last (by simp) revives)

theorem settled_of_notice {notice : MemberEvent} (now : Int) (type : notice.type = .dead)
    (other : notice.nodeId ≠ swim.self.nodeId)
    (fresh : ¬ ∃ entry, swim.members[notice.nodeId]? = some entry ∧ entry.state = .dead ∧
      entry.incarnation < notice.incarnation) :
    (swim.applyEvent notice now).swim.Settled notice.nodeId notice.incarnation := by
  refine settled_of_rank (by rwa [applyEvent_self]) ?_
  rw [lookup_applyEvent now other]
  split
  · rename_i taken
    rw [Record.rank_some, MemberEvent.update_rank now taken.2]
    simp [MemberEvent.rank, type]
  · -- a refused notice: the member has left, or was dead or better known already
    rename_i refused
    simp only [true_and, Bool.not_eq_true] at refused
    cases found : swim.members[notice.nodeId]? with
    | none => simp [MemberEvent.accepts, type, found] at refused
    | some entry =>
      have bound := notice.incarnation.toNat_lt
      simp only [found, MemberEvent.accepts, type, decide_eq_false_iff_not, UInt64.le_iff_toNat_le] at refused
      rw [Record.rank_some, MemberEntry.rank]
      cases state : entry.state with
      | alive =>
        simp [state] at refused ⊢
        omega
      | suspect =>
        simp [state] at refused ⊢
        omega
      | dead =>
        have kept : ¬ entry.incarnation < notice.incarnation := fun lower => fresh ⟨entry, found, state, lower⟩
        rw [UInt64.lt_iff_toNat_lt] at kept
        simp only [ge_iff_le]
        omega
      | left =>
        simp only [topRank, ge_iff_le]
        omega

/-- A death notice settles what it says, unless the node already holds the member dead at a
lower incarnation: it then forgets the notice, and older news brings the member back. -/
theorem dead_notice_settles_iff (swim : Swim) (before : List (MemberEvent × Int)) (notice : MemberEvent) (now : Int)
    (type : notice.type = .dead) (other : notice.nodeId ≠ swim.self.nodeId) :
    (swim.hear (before ++ [(notice, now)])).Settled notice.nodeId notice.incarnation ↔
      ¬ ∃ entry, (swim.hear before).members[notice.nodeId]? = some entry ∧ entry.state = .dead ∧
        entry.incarnation < notice.incarnation := by
  rw [hear_snoc]
  rw [← hear_self swim before] at other
  refine ⟨?_, settled_of_notice now type other⟩
  rintro settled ⟨entry, found, dead, lower⟩
  have refused : notice.accepts (swim.hear before).members[notice.nodeId]? = false := by
    simp [MemberEvent.accepts, type, found, dead]
  have news : MemberEvent.Revives { notice with type := .alive } notice.nodeId := ⟨rfl, .inr rfl⟩
  have answer := settled.refuses [] { notice with type := .alive } now news (UInt64.le_refl _)
  rw [(applyEvent_heeds now other).2 refused] at answer
  have taken := (MemberEvent.accepts_of_revives news entry).mpr ⟨by simp [dead], lower⟩
  have result : ((swim.hear before).applyEvent { notice with type := .alive } now).result = _ :=
    applyEvent_result now other
  rw [← found, ← result] at taken
  exact Bool.noConfusion (answer.symm.trans taken)

/-- Node `a` hears that `b` is up and then that it is dead. -/
theorem dead_notice_settles_once :
    ((start ⟨[97], [], 0⟩).hear ([({ nodeId := [98] }, 0)] ++ [({ type := .dead, nodeId := [98] }, 1)])).Settled
      [98] 0 := by
  refine (dead_notice_settles_iff (start ⟨[97], [], 0⟩) [({ nodeId := [98] }, 0)] { type := .dead, nodeId := [98] } 1
    rfl (by decide)).mpr ?_
  rintro ⟨entry, found, dead, -⟩
  have held : ((start ⟨[97], [], 0⟩).hear [({ nodeId := [98] }, 0)]).members[([98] : Bytes)]? =
      some ⟨⟨[98], [], 0⟩, .alive, 0, 0⟩ := by decide +kernel
  rw [held] at found
  cases found
  cases dead

/-- Node `a` hears that `b` died at incarnation 1 and then that it died at 5; it forgets the
second notice, so that an older rumour, of incarnation 3, revives `b`. -/
theorem forgotten_notice_revives :
    ((start ⟨[97], [], 0⟩).hear [({ type := .dead, nodeId := [98], incarnation := 1 }, 0),
      ({ type := .dead, nodeId := [98], incarnation := 5 }, 1)]).stateOf [98] = some .dead ∧
    ((start ⟨[97], [], 0⟩).hear [({ type := .dead, nodeId := [98], incarnation := 1 }, 0),
      ({ type := .dead, nodeId := [98], incarnation := 5 }, 1),
      ({ nodeId := [98], incarnation := 3 }, 2)]).stateOf [98] = some .alive := by
  decide +kernel

end Swim

end MiniDynamo
