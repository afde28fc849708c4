import MiniDynamo.Library.Runs
import MiniDynamo.Gossip.Queue

/-! Which way incarnations go. They are numbers of 64 bits, and three operations count up
from one that another node may have chosen. -/

namespace MiniDynamo

/-- No later incarnation fits in 64 bits. -/
def lastIncarnation : UInt64 := 18446744073709551615

theorem lt_succ_incarnation {incarnation : UInt64} : incarnation < incarnation + 1 ↔ incarnation ≠ lastIncarnation := by
  refine ⟨?_, UInt64.lt_add_one⟩
  rintro above rfl
  exact absurd above (by decide)

theorem le_succ_incarnation {incarnation : UInt64} : incarnation ≤ incarnation + 1 ↔ incarnation ≠ lastIncarnation := by
  refine ⟨?_, fun early => UInt64.le_of_lt (lt_succ_incarnation.mpr early)⟩
  rintro above rfl
  exact absurd above (by decide)

/-- Counting past a held incarnation, or taking a claimed one that is later. -/
theorem le_max_succ_incarnation {held claimed : UInt64} :
    held ≤ max claimed (held + 1) ↔ (held = lastIncarnation → claimed = lastIncarnation) := by
  have choice : max claimed (held + 1) = if claimed ≤ held + 1 then held + 1 else claimed := rfl
  have bound := claimed.toNat_lt
  rw [choice]
  by_cases last : held = lastIncarnation
  · subst last
    have zero : lastIncarnation + 1 = 0 := by decide
    have top : lastIncarnation.toNat = 2 ^ 64 - 1 := by decide
    simp only [zero, UInt64.le_iff_toNat_le, ← UInt64.toNat_inj, top, UInt64.toNat_zero, forall_const]
    split
    · simp only [UInt64.toNat_zero]
      omega
    · omega
  · have above := le_succ_incarnation.mpr last
    refine iff_of_true ?_ (fun same => absurd same last)
    split
    · exact above
    · rename_i higher
      exact UInt64.le_trans above (UInt64.le_of_lt (UInt64.not_le.mp higher))

/-- A record that is kept, at the same incarnation or a later one. -/
def Record.Behind (earlier later : Record) : Prop :=
  ∀ entry, earlier = some entry → ∃ now, later = some now ∧ entry.incarnation ≤ now.incarnation

namespace Record.Behind

variable {first second third : Record}

theorem refl (record : Record) : record.Behind record := fun entry found => ⟨entry, found, UInt64.le_refl _⟩

theorem trans (early : first.Behind second) (late : second.Behind third) : first.Behind third := by
  intro entry found
  obtain ⟨middle, between, above⟩ := early entry found
  obtain ⟨now, known, further⟩ := late middle between
  exact ⟨now, known, UInt64.le_trans above further⟩

end Record.Behind

theorem MemberEvent.behind_of_update {event : MemberEvent} {record : Record} (now : Int)
    (accepted : event.accepts record = true) : record.Behind (some (event.update now record)) := by
  rintro entry rfl
  refine ⟨_, rfl, ?_⟩
  cases type : event.type with
  | leave => simp [update, type]
  | other byte => simp [accepts, type] at accepted
  | _ =>
    simp only [accepts, type, decide_eq_true_eq] at accepted
    simp only [update, type, UInt64.le_iff_toNat_le, UInt64.lt_iff_toNat_lt] at accepted ⊢
    omega

theorem Change.behind {hears : MemberEvent → Prop} {id : Bytes} {before after : Record}
    (change : Change hears id before after) : before.Behind after := by
  cases change with
  | heard told now about accepted => exact MemberEvent.behind_of_update now accepted
  | suspected now alive =>
    rintro _ ⟨⟩
    exact ⟨_, rfl, UInt64.le_refl _⟩
  | buried member =>
    rintro _ ⟨⟩
    exact ⟨_, rfl, UInt64.le_refl _⟩
  | retired member =>
    rintro _ ⟨⟩
    exact ⟨_, rfl, UInt64.le_refl _⟩

theorem Changes.behind {hears : MemberEvent → Prop} {id : Bytes} {before after : Record}
    (changes : Changes hears id before after) : before.Behind after := by
  induction changes with
  | refl => exact .refl before
  | tail _ change ih => exact ih.trans change.behind

/-- No incarnation has gone backwards between the views: not the node's own, and not that
of any member. -/
structure Swim.Behind (earlier later : Swim) : Prop where
  own : earlier.incarnation ≤ later.incarnation
  held : ∀ id : Bytes, Record.Behind earlier.members[id]? later.members[id]?

theorem Swim.Behind.refl (swim : Swim) : swim.Behind swim := ⟨UInt64.le_refl _, fun _ => .refl _⟩

theorem Swim.Behind.trans {first second third : Swim} (early : first.Behind second) (late : second.Behind third) :
    first.Behind third :=
  ⟨UInt64.le_trans early.own late.own, fun id => (early.held id).trans (late.held id)⟩

namespace Operation

/-- An accepted accusation puts an answer on the queue that is later than itself. -/
def Answers (swim : Swim) (operation : Operation) : Prop :=
  ∀ event now, operation = .applyEvent event now → event.nodeId = swim.self.nodeId →
    event.type = .suspect ∨ event.type = .dead → (swim.applyEvent event now).result = true →
    ∃ answer, (swim.applyEvent event now).swim.pending = swim.pending ++ [answer] ∧
      answer.event.Revives swim.self.nodeId ∧ event.incarnation < answer.event.incarnation

/-- The operation counts up from the last incarnation and starts again at zero: in answer to
an accusation, past the record of a joiner that claims less, or past the node's own. -/
def Wraps (swim : Swim) : Operation → Prop
  | .applyEvent event _ => swim.Accused event ∧ event.incarnation = lastIncarnation
  | .applyDirectJoin event =>
    ∃ entry, swim.members[event.nodeId]? = some entry ∧ entry.state ≠ .left ∧
      entry.incarnation = lastIncarnation ∧ event.incarnation ≠ lastIncarnation
  | .refute => swim.incarnation = lastIncarnation
  | _ => False

end Operation

namespace Swim

variable {swim : Swim} {event : MemberEvent}

theorem applySelfEvent_accused (accused : swim.Accused event) :
    swim.applySelfEvent event =
      ⟨true, { swim with incarnation := event.incarnation + 1 }.enqueueEvent
        ⟨.alive, swim.self.nodeId, swim.self.host, swim.self.port, event.incarnation + 1⟩, []⟩ := by
  obtain ⟨-, type, late⟩ := accused
  rcases type with type | type <;> simp [applySelfEvent, type, UInt64.not_lt.mpr late]

/-- What the node hears of itself and need not answer leaves its incarnation, and is not an
accepted accusation. -/
theorem applySelfEvent_spared (own : event.nodeId = swim.self.nodeId) (spared : ¬ swim.Accused event) :
    (swim.applySelfEvent event).swim.incarnation = swim.incarnation ∧
      (event.type = .suspect ∨ event.type = .dead → (swim.applySelfEvent event).result = false) := by
  have stale (type : event.type = .suspect ∨ event.type = .dead) : event.incarnation < swim.incarnation :=
    UInt64.not_le.mp (fun late => spared ⟨own, type, late⟩)
  cases type : event.type with
  | suspect => simp [applySelfEvent, type, stale (.inl type), unchanged]
  | dead => simp [applySelfEvent, type, stale (.inr type), unchanged]
  | leave =>
    simp only [applySelfEvent, type]
    split <;> simp [unchanged]
  | _ => simp [applySelfEvent, type, unchanged]

theorem answers_of_other {operation : Operation} (other : ∀ event now, operation ≠ .applyEvent event now) :
    operation.Answers swim :=
  fun event now same => absurd same (other event now)

theorem accused_advances_iff (now : Int) (accused : swim.Accused event) :
    swim.incarnation ≤ (swim.applyEvent event now).swim.incarnation ∧ Operation.Answers swim (.applyEvent event now) ↔
      event.incarnation ≠ lastIncarnation := by
  have reaction : swim.applyEvent event now = _ := (dif_pos accused.1).trans (applySelfEvent_accused accused)
  constructor
  · rintro ⟨-, answers⟩
    obtain ⟨answer, queue, -, later⟩ := answers event now rfl accused.1 accused.2.1 (by rw [reaction])
    rw [reaction] at queue
    rw [← (List.cons.inj (List.append_cancel_left queue)).1] at later
    exact lt_succ_incarnation.mp later
  · intro early
    have later := lt_succ_incarnation.mpr early
    refine ⟨?_, ?_⟩
    · rw [reaction]
      exact UInt64.le_trans accused.2.2 (UInt64.le_of_lt later)
    · rintro _ _ ⟨⟩ - - -
      exact ⟨_, by rw [reaction]; rfl, ⟨rfl, .inr rfl⟩, later⟩

/-- Relayed events count up only in answer to an accusation. -/
theorem applyEvent_advances_iff (event : MemberEvent) (now : Int) :
    swim.Behind (swim.applyEvent event now).swim ∧ Operation.Answers swim (.applyEvent event now) ↔
      ¬ Operation.Wraps swim (.applyEvent event now) := by
  have held (id : Bytes) : Record.Behind swim.members[id]? (swim.applyEvent event now).swim.members[id]? := by
    have changes : Changes (fun _ => True) id swim.members[id]? (swim.applyEvent event now).swim.members[id]? :=
      applyEvent_changes trivial now
    exact changes.behind
  by_cases accused : swim.Accused event
  · have answered := accused_advances_iff now accused
    refine ⟨fun advances wraps => ?_, fun early => ?_⟩
    · exact answered.mp ⟨advances.1.own, advances.2⟩ wraps.2
    · obtain ⟨own, answers⟩ := answered.mpr (fun last => early ⟨accused, last⟩)
      exact ⟨⟨own, held⟩, answers⟩
  · refine iff_of_true ?_ (fun wraps => accused wraps.1)
    by_cases own : event.nodeId = swim.self.nodeId
    · obtain ⟨same, quiet⟩ := applySelfEvent_spared own accused
      have reaction : swim.applyEvent event now = _ := dif_pos own
      rw [← reaction] at same quiet
      refine ⟨⟨by rw [same]; exact UInt64.le_refl _, held⟩, ?_⟩
      rintro _ _ ⟨⟩ - type taken
      exact absurd (quiet type) (by simp [taken])
    · refine ⟨⟨by rw [(applyEvent_own now own).2.1]; exact UInt64.le_refl _, held⟩, ?_⟩
      rintro _ _ ⟨⟩ about - -
      exact absurd about own

/-- A join handshake counts up from the record it finds. -/
theorem applyDirectJoin_behind_iff (event : MemberEvent) :
    swim.Behind (swim.applyDirectJoin event).swim ↔ ¬ Operation.Wraps swim (.applyDirectJoin event) := by
  have own : swim.incarnation ≤ (swim.applyDirectJoin event).swim.incarnation := by
    rw [(applyDirectJoin_own swim event).2.1]
    exact UInt64.le_refl _
  constructor
  · rintro behind ⟨entry, found, member, last, less⟩
    have other : event.nodeId ≠ swim.self.nodeId := swim.keyed _ _ found ▸ swim.other_of_found found
    obtain ⟨later, known, above⟩ := behind.held event.nodeId entry found
    have stays : ¬ Record.Departed (some entry) := by simpa [Record.Departed] using member
    rw [lookup_applyDirectJoin other, found, if_pos ⟨rfl, stays⟩, Option.some.injEq] at known
    rw [← known] at above
    exact less (le_max_succ_incarnation.mp above last)
  · intro early
    refine ⟨own, fun id => ?_⟩
    by_cases about : event.nodeId = swim.self.nodeId
    · rw [applyDirectJoin, dif_pos about]
      exact .refl _
    · rw [lookup_applyDirectJoin about]
      split
      · rename_i joins
        obtain ⟨rfl, member⟩ := joins
        intro entry found
        refine ⟨_, rfl, ?_⟩
        rw [found] at member ⊢
        have stays : entry.state ≠ .left := by simpa [Record.Departed] using member
        refine le_max_succ_incarnation.mpr (fun last => ?_)
        by_contra less
        exact early ⟨entry, found, stays, last, less⟩
      · exact .refl _

theorem refute_behind_iff : swim.Behind swim.refute.swim ↔ ¬ Operation.Wraps swim .refute := by
  refine ⟨fun behind => le_succ_incarnation.mp behind.own, fun early => ⟨le_succ_incarnation.mpr early, fun _ => .refl _⟩⟩

theorem suspect_incarnation (nodeId : Bytes) (now : Int) :
    (swim.suspect nodeId now).swim.incarnation = swim.incarnation := by
  unfold suspect
  split
  · rfl
  · split <;> rfl

theorem confirmDead_incarnation (nodeId : Bytes) : (swim.confirmDead nodeId).swim.incarnation = swim.incarnation := by
  unfold confirmDead
  split
  · rfl
  · split
    · rfl
    · split <;> rfl

theorem leave_incarnation (nodeId : Bytes) : (swim.leave nodeId).swim.incarnation = swim.incarnation := by
  unfold leave
  split
  · split <;> rfl
  · split
    · rfl
    · split <;> rfl

theorem expireSuspects_incarnation (timeout now : Int) :
    (swim.expireSuspects timeout now).swim.incarnation = swim.incarnation := by
  have loop : ∀ (ids : List Bytes) (progress : Reaction (List Bytes)),
      (ids.foldl (expireSuspect timeout now) progress).swim.incarnation = progress.swim.incarnation := by
    intro ids
    induction ids with
    | nil => exact fun _ => rfl
    | cons place rest ih =>
      intro progress
      rw [List.foldl_cons, ih]
      unfold expireSuspect
      split
      · rfl
      · split <;> rfl
  exact loop _ ⟨[], swim, []⟩

end Swim

namespace Operation

theorem behind_of_relayed {operation : Operation} {swim : Swim} (relayed : operation.Relayed)
    (own : (operation.react swim).1.incarnation = swim.incarnation) : swim.Behind (operation.react swim).1 :=
  ⟨by rw [own]; exact UInt64.le_refl _, fun id => (operation.changes relayed swim id).behind⟩

/-- One operation keeps incarnations from going backwards, and answers accusations, unless
it wraps. -/
theorem advances_iff (swim : Swim) (operation : Operation) :
    swim.Behind (operation.react swim).1 ∧ operation.Answers swim ↔ ¬ operation.Wraps swim := by
  cases operation with
  | applyEvent event now => exact Swim.applyEvent_advances_iff event now
  | applyDirectJoin event =>
    exact (and_iff_left (Swim.answers_of_other (by simp))).trans (Swim.applyDirectJoin_behind_iff event)
  | refute => exact (and_iff_left (Swim.answers_of_other (by simp))).trans Swim.refute_behind_iff
  | suspect nodeId now =>
    exact iff_of_true ⟨behind_of_relayed trivial (Swim.suspect_incarnation nodeId now),
      Swim.answers_of_other (by simp)⟩ id
  | confirmDead nodeId =>
    exact iff_of_true ⟨behind_of_relayed trivial (Swim.confirmDead_incarnation nodeId),
      Swim.answers_of_other (by simp)⟩ id
  | leave nodeId =>
    exact iff_of_true ⟨behind_of_relayed trivial (Swim.leave_incarnation nodeId), Swim.answers_of_other (by simp)⟩ id
  | expireSuspects timeout now =>
    exact iff_of_true ⟨behind_of_relayed trivial (Swim.expireSuspects_incarnation timeout now),
      Swim.answers_of_other (by simp)⟩ id
  | enqueueEvent event => exact iff_of_true ⟨behind_of_relayed trivial rfl, Swim.answers_of_other (by simp)⟩ id
  | getEventsToSend => exact iff_of_true ⟨behind_of_relayed trivial rfl, Swim.answers_of_other (by simp)⟩ id

end Operation

namespace GossipThread

/-- From any point of the run to any later one no incarnation goes backwards, and every
accusation on the way is answered with a later incarnation. -/
structure Advances (thread : GossipThread) (operations : List Operation) : Prop where
  forward : ∀ before between after, operations = before ++ between ++ after →
    (thread.run before).swim.Behind (thread.run (before ++ between)).swim
  answers : Throughout perform (fun thread operation => operation.Answers thread.swim) thread operations

theorem throughout_behind {thread : GossipThread} {operations : List Operation}
    (forward : ∀ before between after, operations = before ++ between ++ after →
      (thread.run before).swim.Behind (thread.run (before ++ between)).swim) :
    Throughout perform (fun thread operation => thread.swim.Behind (thread.perform operation).swim) thread
      operations := by
  induction operations generalizing thread with
  | nil => trivial
  | cons operation rest ih =>
    refine ⟨forward [] [operation] rest rfl, ih (fun before between after split => ?_)⟩
    have later := forward (operation :: before) between after (by rw [split]; rfl)
    exact later

/-- Incarnations advance in a run exactly if none of its operations counts up from the last
one. -/
theorem incarnations_advance_iff (thread : GossipThread) (operations : List Operation) :
    thread.Advances operations ↔
      Throughout perform (fun thread operation => ¬ operation.Wraps thread.swim) thread operations := by
  rw [← throughout_congr (fun thread operation => operation.advances_iff thread.swim), throughout_and]
  constructor
  · rintro ⟨forward, answers⟩
    exact ⟨throughout_behind forward, answers⟩
  · rintro ⟨steps, answers⟩
    refine ⟨?_, answers⟩
    rintro before between after rfl
    rw [List.append_assoc, throughout_append, throughout_append] at steps
    rw [run, run, List.foldl_append]
    exact Throughout.related (fun earlier later : GossipThread => earlier.swim.Behind later.swim)
      (fun _ => .refl _) (fun _ _ _ early late => early.trans late) steps.2.1

/-- A node at incarnation 4 is suspected at the last incarnation, and starts again at 0; a
member that has joined at the last incarnation joins again, and is held at 0. -/
theorem last_incarnation_wraps :
    let accused := (start ⟨[97], [104], 1⟩ 2).run
      [.applyEvent { type := .suspect, nodeId := [97], incarnation := 3 } 0]
    let joined := (start ⟨[97], [104], 1⟩ 2).run
      [.applyDirectJoin { type := .join, nodeId := [98], incarnation := 18446744073709551615 }]
    MemberEvent.deserialize (ascii "S:a::0:18446744073709551615") =
        { type := .suspect, nodeId := [97], incarnation := 18446744073709551615 } ∧
      accused.swim.incarnation = 4 ∧
      (accused.perform (.applyEvent
        { type := .suspect, nodeId := [97], incarnation := 18446744073709551615 } 1)).swim.incarnation = 0 ∧
      joined.swim.members[([98] : Bytes)]?.map MemberEntry.incarnation = some 18446744073709551615 ∧
      (joined.perform (.applyDirectJoin
        { type := .join, nodeId := [98] })).swim.members[([98] : Bytes)]?.map MemberEntry.incarnation = some 0 := by
  decide +kernel

end GossipThread

end MiniDynamo
