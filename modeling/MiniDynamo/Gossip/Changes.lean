import MiniDynamo.Gossip.Record
import MiniDynamo.Gossip.Tombstone
import Mathlib.Logic.Relation

/-! Every operation on a view, seen from one member's record, and the rank that the record
climbs: later incarnations above earlier ones, `Alive` below `Suspect` below `Dead` within
one, and `Left` on top of all. -/

namespace MiniDynamo

/-- One change of a member's record by anything but the join handshake, when these are the
events that are heard. -/
inductive Change (hears : MemberEvent → Prop) (id : Bytes) : Record → Record → Prop
  | heard {record : Record} {event : MemberEvent} (told : hears event) (now : Int) (about : event.nodeId = id)
      (accepted : event.accepts record = true) : Change hears id record (some (event.update now record))
  | suspected {entry : MemberEntry} (now : Int) (alive : entry.state = .alive) :
      Change hears id (some entry) (some { entry with state := .suspect, suspectSince := now })
  | buried {entry : MemberEntry} (member : entry.state = .alive ∨ entry.state = .suspect) :
      Change hears id (some entry) (some { entry with state := .dead })
  | retired {entry : MemberEntry} (member : entry.state ≠ .left) :
      Change hears id (some entry) (some { entry with state := .left })

abbrev Changes (hears : MemberEvent → Prop) (id : Bytes) : Record → Record → Prop :=
  Relation.ReflTransGen (Change hears id)

variable {hears : MemberEvent → Prop}

/-- What was unknown is known because an event told of it. -/
theorem Changes.heard_of_new {id : Bytes} {before after : Record} (changes : Changes hears id before after)
    (unknown : before = none) : after = none ∨ ∃ event, hears event ∧ event.nodeId = id := by
  induction changes with
  | refl => exact .inl unknown
  | tail _ change ih =>
    rcases ih with rfl | known
    · cases change with
      | heard told _ about _ => exact .inr ⟨_, told, about⟩
    · exact .inr known

namespace Swim

variable {swim : Swim} {id : Bytes}

theorem lookup_amend {place : Bytes} {entry : MemberEntry} (found : swim.members[place]? = some entry)
    (changed : MemberEntry) (same : changed.info.nodeId = entry.info.nodeId) (id : Bytes) :
    (swim.amend found changed same).members[id]? = if place = id then some changed else swim.members[id]? := by
  rw [amend, record, OrderedMap.lookup_insert, same, swim.keyed _ _ found]

/-- A change of one member's record is a change or nothing to any member. -/
theorem changes_amend {place : Bytes} {entry : MemberEntry} (found : swim.members[place]? = some entry)
    {changed : MemberEntry} (same : changed.info.nodeId = entry.info.nodeId)
    (change : Change hears place (some entry) (some changed)) :
    Changes hears id swim.members[id]? (swim.amend found changed same).members[id]? := by
  rw [lookup_amend]
  split
  · rename_i here
    subst here
    rw [found]
    exact .single change
  · exact .refl

theorem applyEvent_changes {event : MemberEvent} (told : hears event) (now : Int) :
    Changes hears id swim.members[id]? (swim.applyEvent event now).swim.members[id]? := by
  by_cases own : event.nodeId = swim.self.nodeId
  · rw [applyEvent, dif_pos own, (members_applySelfEvent _).1]
  · rw [lookup_applyEvent now own]
    split
    · rename_i taken
      exact .single (.heard told now taken.1 taken.2)
    · exact .refl

theorem suspect_changes (nodeId : Bytes) (now : Int) :
    Changes hears id swim.members[id]? (swim.suspect nodeId now).swim.members[id]? := by
  unfold suspect
  split
  · exact .refl
  · rename_i entry found
    split
    · exact .refl
    · rename_i alive
      exact changes_amend found (by rfl) (.suspected now (not_not.mp alive))

theorem bury_changes {place : Bytes} {entry : MemberEntry} (found : swim.members[place]? = some entry)
    (member : entry.state = .alive ∨ entry.state = .suspect) :
    Changes hears id swim.members[id]? (swim.bury found).swim.members[id]? :=
  changes_amend found (by rfl) (.buried member)

theorem confirmDead_changes (nodeId : Bytes) :
    Changes hears id swim.members[id]? (swim.confirmDead nodeId).swim.members[id]? := by
  unfold confirmDead
  split
  · exact .refl
  · rename_i entry found
    split
    · exact .refl
    · rename_i notDead
      split
      · exact .refl
      · rename_i member
        exact bury_changes found (MemberState.up_of_kept notDead member)

theorem leave_changes (nodeId : Bytes) :
    Changes hears id swim.members[id]? (swim.leave nodeId).swim.members[id]? := by
  unfold leave
  split
  · split <;> exact .refl
  · split
    · exact .refl
    · rename_i entry found
      split
      · exact .refl
      · rename_i member
        exact changes_amend found (by rfl) (.retired member)

theorem expireSuspects_changes (timeout now : Int) :
    Changes hears id swim.members[id]? (swim.expireSuspects timeout now).swim.members[id]? := by
  have loop : ∀ (ids : List Bytes) (progress : Reaction (List Bytes)),
      Changes hears id swim.members[id]? progress.swim.members[id]? →
      Changes hears id swim.members[id]? (ids.foldl (expireSuspect timeout now) progress).swim.members[id]? := by
    intro ids
    induction ids with
    | nil => exact fun _ changes => changes
    | cons place rest ih =>
      intro progress changes
      refine ih _ ?_
      unfold expireSuspect
      split
      · exact changes
      · rename_i entry found
        split
        · rename_i due
          exact changes.trans (bury_changes found (.inr due.1))
        · exact changes
  exact loop _ _ .refl

end Swim

/-- The event an operation brings. -/
def Operation.Hears (operation : Operation) (event : MemberEvent) : Prop := ∃ now, operation = .applyEvent event now

/-- Any operation but the join handshake. -/
def Operation.Relayed : Operation → Prop
  | .applyDirectJoin _ => False
  | _ => True

theorem Operation.changes {operation : Operation} (relayed : operation.Relayed) (swim : Swim) (id : Bytes) :
    Changes operation.Hears id swim.members[id]? (operation.react swim).1.members[id]? := by
  cases operation with
  | applyEvent event now => exact Swim.applyEvent_changes ⟨now, rfl⟩ now
  | applyDirectJoin event => exact relayed.elim
  | suspect nodeId now => exact Swim.suspect_changes nodeId now
  | confirmDead nodeId => exact Swim.confirmDead_changes nodeId
  | leave nodeId => exact Swim.leave_changes nodeId
  | refute => exact .refl
  | expireSuspects timeout now => exact Swim.expireSuspects_changes timeout now
  | enqueueEvent event => exact .refl
  | getEventsToSend => exact .refl

/-- The rank of a member that has left. -/
def topRank : Nat := 3 * 2 ^ 64 + 1

def MemberEntry.rank (entry : MemberEntry) : Nat :=
  match entry.state with
  | .alive => 3 * entry.incarnation.toNat + 1
  | .suspect => 3 * entry.incarnation.toNat + 2
  | .dead => 3 * entry.incarnation.toNat + 3
  | .left => topRank

def Record.rank : Record → Nat
  | none => 0
  | some entry => entry.rank

@[simp]
theorem Record.rank_some (entry : MemberEntry) : Record.rank (some entry) = entry.rank := rfl

/-- The rank of the record an accepted event leaves. -/
def MemberEvent.rank (event : MemberEvent) : Nat :=
  match event.type with
  | .join | .alive => 3 * event.incarnation.toNat + 1
  | .suspect => 3 * event.incarnation.toNat + 2
  | .dead => 3 * event.incarnation.toNat + 3
  | .leave => topRank
  | .other _ => 0

theorem MemberEntry.rank_le (entry : MemberEntry) : entry.rank ≤ topRank := by
  have small := entry.incarnation.toNat_lt
  unfold rank topRank
  split <;> omega

theorem MemberEntry.rank_lt (entry : MemberEntry) (member : entry.state ≠ .left) : entry.rank < topRank := by
  have small := entry.incarnation.toNat_lt
  unfold rank topRank
  split
  · omega
  · omega
  · omega
  · exact absurd ‹entry.state = .left› member

/-- An event is accepted only below its own rank. -/
theorem MemberEvent.accepts_rank {event : MemberEvent} {record : Record} (accepted : event.accepts record = true) :
    Record.rank record < event.rank := by
  cases record with
  | none =>
    cases type : event.type <;> simp_all [accepts, rank, Record.rank, topRank]
  | some entry =>
    have below := entry.rank_lt
    cases type : event.type with
    | leave =>
      simp only [accepts, type, decide_eq_true_eq] at accepted
      simpa [rank, type] using below accepted
    | other byte => simp [accepts, type] at accepted
    | _ =>
      simp only [accepts, type, decide_eq_true_eq, UInt64.lt_iff_toNat_lt, UInt64.le_iff_toNat_le] at accepted
      simp only [rank, type, Record.rank_some, MemberEntry.rank]
      cases state : entry.state <;> simp [state] at accepted ⊢ <;> omega

theorem MemberEvent.update_rank {event : MemberEvent} {record : Record} (now : Int)
    (accepted : event.accepts record = true) : (event.update now record).rank = event.rank := by
  cases record with
  | none =>
    cases type : event.type <;>
      simp_all [accepts, update, entryState, rank, MemberEntry.rank]
  | some entry =>
    cases type : event.type <;> simp_all [accepts, update, rank, MemberEntry.rank]

/-- No change takes a record down. -/
theorem Change.rank_le {id : Bytes} {before after : Record} (change : Change hears id before after) :
    Record.rank before ≤ Record.rank after := by
  cases change with
  | heard told now about accepted =>
    rw [Record.rank_some, MemberEvent.update_rank now accepted]
    exact (MemberEvent.accepts_rank accepted).le
  | suspected now alive => simp [Record.rank, MemberEntry.rank, alive]
  | buried member => rcases member with state | state <;> simp [Record.rank, MemberEntry.rank, state]
  | @retired entry member => exact entry.rank_le

theorem Changes.rank_le {id : Bytes} {before after : Record} (changes : Changes hears id before after) :
    Record.rank before ≤ Record.rank after := by
  induction changes with
  | refl => exact le_refl _
  | tail _ change ih => exact ih.trans change.rank_le

theorem Swim.rank_le_applyEvent (swim : Swim) (event : MemberEvent) (now : Int) (id : Bytes) :
    Record.rank swim.members[id]? ≤ Record.rank (swim.applyEvent event now).swim.members[id]? := by
  have changes : Changes (fun _ => True) id swim.members[id]? (swim.applyEvent event now).swim.members[id]? :=
    applyEvent_changes trivial now
  exact changes.rank_le

end MiniDynamo
