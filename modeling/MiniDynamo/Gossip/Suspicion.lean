import MiniDynamo.Gossip.Changes

/-! Suspicion and its expiry: a suspect dies once its record has stood unchanged for the timeout, and
not before. -/

namespace MiniDynamo

/-- The member has been under suspicion for the timeout, which is in milliseconds. -/
def MemberEntry.Overdue (entry : MemberEntry) (timeout now : Int) : Prop :=
  entry.state = .suspect ∧ timeout ≤ (now - entry.suspectSince).tdiv 1000000

instance (entry : MemberEntry) (timeout now : Int) : Decidable (entry.Overdue timeout now) :=
  inferInstanceAs (Decidable (_ ∧ _))

/-- What an expiry makes of a record. -/
def Record.expired (timeout now : Int) (record : Record) : Record :=
  record.map (fun entry => if entry.Overdue timeout now then { entry with state := .dead } else entry)

theorem Record.expired_of_due {timeout now : Int} {record : Record} {entry : MemberEntry} (held : record = some entry)
    (due : entry.Overdue timeout now) : record.expired timeout now = some { entry with state := .dead } := by
  rw [held, expired, Option.map_some, if_pos due]

theorem Record.expired_of_early {timeout now : Int} {record : Record} {entry : MemberEntry} (held : record = some entry)
    (early : ¬ entry.Overdue timeout now) : record.expired timeout now = some entry := by
  rw [held, expired, Option.map_some, if_neg early]

/-- The dead are not suspects. -/
theorem Record.expired_expired (timeout now : Int) (record : Record) :
    (record.expired timeout now).expired timeout now = record.expired timeout now := by
  cases record with
  | none => rfl
  | some entry =>
    by_cases due : entry.Overdue timeout now
    · rw [expired_of_due rfl due]
      exact expired_of_early rfl (fun again => by cases again.1)
    · rw [expired_of_early rfl due]
      exact expired_of_early rfl due

namespace Swim

variable {swim : Swim} {id : Bytes} {timeout now : Int}

theorem lookup_bury {place : Bytes} {entry : MemberEntry} (found : swim.members[place]? = some entry) (id : Bytes) :
    (swim.bury found).swim.members[id]? =
      if place = id then some { entry with state := .dead } else swim.members[id]? :=
  lookup_amend found { entry with state := .dead } rfl id

theorem lookup_expireSuspect (progress : Reaction (List Bytes)) (place : Bytes) :
    (expireSuspect timeout now progress place).swim.members[id]? =
      if place = id then Record.expired timeout now progress.swim.members[id]? else progress.swim.members[id]? := by
  unfold expireSuspect
  split
  · rename_i unknown
    split
    · rename_i here
      rw [← here, unknown]
      rfl
    · rfl
  · rename_i entry found
    split
    · rename_i due
      rw [lookup_bury found]
      split
      · rename_i here
        exact (Record.expired_of_due (here ▸ found) due).symm
      · rfl
    · rename_i early
      split
      · rename_i here
        rw [← here, Record.expired_of_early found early]
        exact found
      · rfl

theorem result_expireSuspect (progress : Reaction (List Bytes)) (place : Bytes) :
    (expireSuspect timeout now progress place).result = progress.result ++
      (if ∃ entry, progress.swim.members[place]? = some entry ∧ entry.Overdue timeout now then [place] else []) := by
  unfold expireSuspect
  split
  · rename_i unknown
    rw [if_neg (by simp [unknown]), List.append_nil]
  · rename_i entry found
    split
    · rename_i due
      rw [if_pos ⟨entry, found, due⟩]
    · rename_i early
      rw [if_neg, List.append_nil]
      rintro ⟨other, same, due⟩
      obtain rfl := Option.some.inj (found.symm.trans same)
      exact early due

/-- The loop over the members, by what it does to each record. -/
theorem lookup_expired_loop (ids : List Bytes) (progress : Reaction (List Bytes)) :
    (ids.foldl (expireSuspect timeout now) progress).swim.members[id]? =
      if id ∈ ids then Record.expired timeout now progress.swim.members[id]? else progress.swim.members[id]? := by
  induction ids generalizing progress with
  | nil => simp
  | cons place rest ih =>
    rw [List.foldl_cons, ih, lookup_expireSuspect]
    by_cases here : place = id
    · subst here
      simp [Record.expired_expired]
    · simp [here, Ne.symm here]

theorem mem_expired_loop {ids : List Bytes} (distinct : ids.Nodup) (progress : Reaction (List Bytes)) :
    id ∈ (ids.foldl (expireSuspect timeout now) progress).result ↔
      id ∈ progress.result ∨
        id ∈ ids ∧ ∃ entry, progress.swim.members[id]? = some entry ∧ entry.Overdue timeout now := by
  induction ids generalizing progress with
  | nil => simp
  | cons place rest ih =>
    obtain ⟨fresh, others⟩ := List.nodup_cons.mp distinct
    rw [List.foldl_cons, ih others, result_expireSuspect, List.mem_append, lookup_expireSuspect, List.mem_cons]
    by_cases here : place = id
    · subst here
      have once : ¬ place ∈ rest := fresh
      split <;> simp_all
    · have later : id ≠ place := Ne.symm here
      split <;> simp [later]

/-- An expiry buries the overdue suspects and touches nobody else. -/
theorem lookup_expireSuspects (swim : Swim) (timeout now : Int) (id : Bytes) :
    (swim.expireSuspects timeout now).swim.members[id]? = Record.expired timeout now swim.members[id]? := by
  rw [expireSuspects, lookup_expired_loop]
  split
  · rfl
  · rename_i unlisted
    cases record : swim.members[id]? with
    | none => rfl
    | some entry => exact absurd (List.mem_map.mpr ⟨(id, entry), OrderedMap.mem_entries.mpr record, rfl⟩) unlisted

theorem mem_expireSuspects (swim : Swim) (timeout now : Int) (id : Bytes) :
    id ∈ (swim.expireSuspects timeout now).result ↔
      ∃ entry, swim.members[id]? = some entry ∧ entry.Overdue timeout now := by
  rw [expireSuspects, mem_expired_loop OrderedMap.entries_keys_nodup]
  constructor
  · rintro (none | ⟨-, due⟩)
    · cases none
    · exact due
  · rintro ⟨entry, found, due⟩
    exact .inr ⟨List.mem_map.mpr ⟨(id, entry), OrderedMap.mem_entries.mpr found, rfl⟩, entry, found, due⟩

theorem lookup_suspect (swim : Swim) (nodeId : Bytes) (now : Int) (id : Bytes) :
    (swim.suspect nodeId now).swim.members[id]? =
      if nodeId = id then
        swim.members[id]?.map (fun entry =>
          if entry.state = .alive then { entry with state := .suspect, suspectSince := now } else entry)
      else swim.members[id]? := by
  unfold suspect
  split
  · rename_i unknown
    split
    · rename_i here
      rw [← here, unknown]
      rfl
    · rfl
  · rename_i entry found
    split
    · rename_i other
      split
      · rename_i here
        rw [← here, found, Option.map_some, if_neg other]
      · rfl
    · rename_i alive
      refine (lookup_amend found { entry with state := .suspect, suspectSince := now } rfl id).trans ?_
      split
      · rename_i here
        rw [← here, found, Option.map_some, if_pos (not_not.mp alive)]
      · rfl

/-- No suspicion begins with a confirmed death, nor with a leave. -/
theorem confirmDead_suspects {nodeId : Bytes} {entry : MemberEntry}
    (after : (swim.confirmDead nodeId).swim.members[id]? = some entry) (suspect : entry.state = .suspect) :
    swim.members[id]? = some entry := by
  unfold confirmDead at after
  split at after
  · exact after
  · rename_i before found
    split at after
    · exact after
    · split at after
      · exact after
      · rw [lookup_bury found] at after
        split at after
        · obtain rfl := Option.some.inj after
          cases suspect
        · exact after

theorem leave_suspects {nodeId : Bytes} {entry : MemberEntry}
    (after : (swim.leave nodeId).swim.members[id]? = some entry) (suspect : entry.state = .suspect) :
    swim.members[id]? = some entry := by
  unfold leave at after
  split at after
  · split at after <;> exact after
  · split at after
    · exact after
    · rename_i before found
      split at after
      · exact after
      · replace after := (lookup_amend found { before with state := .left } rfl id).symm.trans after
        split at after
        · obtain rfl := Option.some.inj after
          cases suspect
        · exact after

theorem dead_expireSuspects (swim : Swim) (timeout now : Int) (id : Bytes) :
    (swim.expireSuspects timeout now).swim.stateOf id = some .dead ↔
      swim.stateOf id = some .dead ∨ ∃ entry, swim.members[id]? = some entry ∧ entry.Overdue timeout now := by
  have self : (swim.expireSuspects timeout now).swim.self = swim.self := (expireSuspects_steps timeout now).self
  unfold stateOf
  rw [self, lookup_expireSuspects]
  split
  · rename_i own
    have unknown : swim.members[id]? = none := own ▸ swim.others
    have alive : ∀ flag : Bool, (some (if flag then MemberState.left else .alive)) ≠ some .dead := by decide
    simp [unknown, alive]
  · cases record : swim.members[id]? with
    | none => simp [Record.expired]
    | some entry =>
      by_cases due : entry.Overdue timeout now
      · simp [Record.expired_of_due rfl due, due]
      · simp [Record.expired_of_early rfl due, due]

end Swim

/-- Only an event of suspicion leaves a suspect. -/
theorem MemberEvent.suspect_of_update {event : MemberEvent} {now : Int} {record : Record}
    (accepted : event.accepts record = true) (suspect : (event.update now record).state = .suspect) :
    event.type = .suspect ∧ (event.update now record).suspectSince = now := by
  obtain ⟨type, nodeId, host, port, incarnation⟩ := event
  cases record <;> cases type <;> simp_all [accepts, update, entryState]

/-- The operation puts the member under suspicion at this time. -/
def Operation.Suspects (id : Bytes) (began : Int) : Operation → Prop
  | .suspect nodeId now => nodeId = id ∧ now = began
  | .applyEvent event now => event.type = .suspect ∧ event.nodeId = id ∧ now = began
  | _ => False

theorem Operation.suspects_unique {operation : Operation} {id : Bytes} {one other : Int}
    (first : operation.Suspects id one) (second : operation.Suspects id other) : one = other := by
  cases operation with
  | suspect nodeId now => exact first.2.symm.trans second.2
  | applyEvent event now => exact first.2.2.symm.trans second.2.2
  | _ => exact first.elim

/-- A record that reads suspect and did not before was made so by an operation of that time. -/
theorem Operation.suspects_of_changed (operation : Operation) {swim : Swim} {id : Bytes} {entry : MemberEntry}
    (after : (operation.react swim).1.members[id]? = some entry) (suspect : entry.state = .suspect) :
    swim.members[id]? = some entry ∨ operation.Suspects id entry.suspectSince := by
  cases operation with
  | applyEvent event now =>
    by_cases own : event.nodeId = swim.self.nodeId
    · rw [react, Swim.applyEvent, dif_pos own, (Swim.members_applySelfEvent _).1] at after
      exact .inl after
    · rw [react, Swim.lookup_applyEvent now own] at after
      split at after
      · rename_i taken
        obtain rfl := Option.some.inj after
        obtain ⟨type, since⟩ := MemberEvent.suspect_of_update taken.2 suspect
        exact .inr ⟨type, taken.1, since.symm⟩
      · exact .inl after
  | applyDirectJoin event =>
    by_cases own : event.nodeId = swim.self.nodeId
    · rw [react, Swim.applyDirectJoin, dif_pos own] at after
      exact .inl after
    · rw [react, Swim.lookup_applyDirectJoin own] at after
      split at after
      · obtain rfl := Option.some.inj after
        exact absurd suspect (by cases swim.members[id]? <;> simp [MemberEvent.joined])
      · exact .inl after
  | suspect nodeId now =>
    rw [react, Swim.lookup_suspect] at after
    split at after
    · rename_i here
      obtain ⟨before, held, same⟩ := Option.map_eq_some_iff.mp after
      split at same
      · subst same
        exact .inr ⟨here, rfl⟩
      · subst same
        exact .inl held
    · exact .inl after
  | confirmDead nodeId => exact .inl (Swim.confirmDead_suspects after suspect)
  | leave nodeId => exact .inl (Swim.leave_suspects after suspect)
  | refute => exact .inl after
  | expireSuspects timeout now =>
    rw [react, Swim.lookup_expireSuspects] at after
    obtain ⟨before, held, same⟩ := Option.map_eq_some_iff.mp after
    split at same
    · subst same
      cases suspect
    · subst same
      exact .inl held
  | enqueueEvent event => exact .inl after
  | getEventsToSend => exact .inl after

namespace GossipThread

variable {thread : GossipThread} {id : Bytes}

/-- The last of the operations that changed the record of the member put it under suspicion, at this time. -/
def SuspectSince (thread : GossipThread) (operations : List Operation) (id : Bytes) (began : Int) : Prop :=
  ∃ before operation after entry, operations = before ++ operation :: after ∧ operation.Suspects id began ∧
    entry.state = .suspect ∧ (thread.run before).swim.members[id]? ≠ some entry ∧
    ∀ part, part <+: after → (thread.run (before ++ operation :: part)).swim.members[id]? = some entry

theorem run_append (thread : GossipThread) (before after : List Operation) :
    thread.run (before ++ after) = (thread.run before).run after :=
  List.foldl_append

/-- Every suspicion in a run has a beginning in it. -/
theorem suspectSince_of_held (fresh : thread.swim.members[id]? = none) {operations : List Operation}
    {entry : MemberEntry} (held : (thread.run operations).swim.members[id]? = some entry)
    (suspect : entry.state = .suspect) : thread.SuspectSince operations id entry.suspectSince := by
  induction operations using List.reverseRecOn generalizing entry with
  | nil =>
    rw [show (thread.run []).swim.members[id]? = none from fresh] at held
    cases held
  | append_singleton operations operation ih =>
    by_cases same : (thread.run operations).swim.members[id]? = some entry
    · obtain ⟨before, first, after, kept, rfl, suspects, state, changed, since⟩ := ih same suspect
      obtain rfl : kept = entry := Option.some.inj ((since after (List.prefix_refl _)).symm.trans same)
      refine ⟨before, first, after ++ [operation], kept, by simp, suspects, state, changed, fun part within => ?_⟩
      rcases List.prefix_concat_iff.mp within with rfl | shorter
      · simpa using held
      · exact since part shorter
    · rw [run_append] at held
      have suspects := (operation.suspects_of_changed held suspect).resolve_left same
      refine ⟨operations, operation, [], entry, rfl, suspects, suspect, same, fun part within => ?_⟩
      rw [List.prefix_nil.mp within, run_append]
      exact held

/-- The suspicion is the one on record. -/
theorem SuspectSince.held {operations : List Operation} {began : Int}
    (since : thread.SuspectSince operations id began) :
    ∃ entry, (thread.run operations).swim.members[id]? = some entry ∧ entry.state = .suspect ∧
      entry.suspectSince = began := by
  obtain ⟨before, operation, after, entry, rfl, suspects, state, changed, since⟩ := since
  refine ⟨entry, since after (List.prefix_refl _), state, ?_⟩
  have first := since [] (List.nil_prefix)
  rw [run_append] at first
  have now := (operation.suspects_of_changed first state).resolve_left changed
  exact Operation.suspects_unique now suspects

/-- An expiry buries those members, and only those, who have been under suspicion for the timeout: their
record was last changed, that long ago, by an operation that suspected them. -/
theorem expiry_exact (self : NodeInfo) (virtualNodes : Int) (operations : List Operation) (timeout now : Int)
    (id : Bytes) :
    (id ∈ (((start self virtualNodes).run operations).swim.expireSuspects timeout now).result ↔
      ∃ began, (start self virtualNodes).SuspectSince operations id began ∧
        timeout ≤ (now - began).tdiv 1000000) ∧
    (((start self virtualNodes).run (operations ++ [.expireSuspects timeout now])).swim.stateOf id = some .dead ↔
      ((start self virtualNodes).run operations).swim.stateOf id = some .dead ∨
        ∃ began, (start self virtualNodes).SuspectSince operations id began ∧
          timeout ≤ (now - began).tdiv 1000000) := by
  have overdue : (∃ entry, ((start self virtualNodes).run operations).swim.members[id]? = some entry ∧
      entry.Overdue timeout now) ↔ ∃ began, (start self virtualNodes).SuspectSince operations id began ∧
        timeout ≤ (now - began).tdiv 1000000 := by
    constructor
    · rintro ⟨entry, held, suspect, late⟩
      exact ⟨entry.suspectSince, suspectSince_of_held (by simp [start, Swim.start]) held suspect, late⟩
    · rintro ⟨began, since, late⟩
      obtain ⟨entry, held, suspect, rfl⟩ := since.held
      exact ⟨entry, held, suspect, late⟩
  refine ⟨(Swim.mem_expireSuspects _ timeout now id).trans overdue, ?_⟩
  rw [run_append, ← overdue]
  exact Swim.dead_expireSuspects _ timeout now id

end GossipThread

end MiniDynamo
