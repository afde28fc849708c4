import MiniDynamo.Hints.Custody

/-! How old hints get. A failed delivery puts its hint back as a new one, whose age starts again, so
that only the hints that were never put back are sure to go when their time is up. -/

namespace MiniDynamo

/-- A handoff with the times: when each hint was first accepted, by its serial, and when hints were
put back, the last time first. -/
structure Ageing where
  handoff : Handoff
  acceptedAt : List Int
  putBack : List (Nat × Int)

namespace Ageing

def start (ttl : Int) (maxPerTarget : Nat) : Ageing := ⟨.start ttl maxPerTarget, [], []⟩

def accepting (state : Ageing) : HandoffAction → List Int
  | .store target _ _ now => if state.handoff.store.HasRoom target then [now] else []
  | _ => []

def puttingBack (state : Ageing) : HandoffAction → List (Nat × Int)
  | .deliver false now =>
    match state.handoff.delivery with
    | none => []
    | some ⟨target, hint, _⟩ => if state.handoff.store.HasRoom target.nodeId then [(hint.serial, now)] else []
  | _ => []

def step (state : Ageing) (action : HandoffAction) : Ageing :=
  ⟨state.handoff.step action, state.acceptedAt ++ state.accepting action, state.puttingBack action ++ state.putBack⟩

def run (state : Ageing) (actions : List HandoffAction) : Ageing := actions.foldl step state

/-- When a hint was stored last. -/
def storedAt (state : Ageing) (serial : Nat) : Option Int := (state.putBack.lookup serial).or state.acceptedAt[serial]?

/-- No hint of the store was first accepted longer ago than hints are kept. -/
def Respects (state : Ageing) (ttl now : Int) : Prop :=
  ∀ target, ∀ hint ∈ state.handoff.store.listFor target, ∀ first,
    state.acceptedAt[hint.serial]? = some first → now - first ≤ ttl

/-- No hint that was put back lately was first accepted longer ago than hints are kept. -/
def Unrenewed (state : Ageing) (ttl now : Int) : Prop :=
  ∀ target, ∀ hint ∈ state.handoff.store.listFor target, ∀ first back,
    state.acceptedAt[hint.serial]? = some first → state.putBack.lookup hint.serial = some back →
      now - back ≤ ttl → now - first ≤ ttl

/-- Every hint of the store bears the time it was stored last. -/
structure Dated (state : Ageing) : Prop where
  known : state.handoff.Known
  once : ∀ serial target, state.handoff.accepted[serial]? = some target → state.handoff.places serial target ≤ 1
  timed : state.acceptedAt.length = state.handoff.accepted.length
  logged : ∀ entry ∈ state.putBack, entry.1 < state.handoff.accepted.length
  stamped : ∀ target, ∀ hint ∈ state.handoff.store.listFor target, state.storedAt hint.serial = some hint.createdAt

theorem dated_start (ttl : Int) (maxPerTarget : Nat) : (start ttl maxPerTarget).Dated where
  known := Handoff.known_start ttl maxPerTarget
  once := by simp [start, Handoff.start]
  timed := rfl
  logged := by simp [start]
  stamped := by simp [start, Handoff.start, HintStore.listFor, HintStore.start, Multimap.list_empty]

section Steps

variable {state : Ageing} {action : HandoffAction} {target : Bytes} {hint : Hint}

/-- A hint of the store was there before, is the one accepted, or is the one put back. -/
theorem mem_step (member : hint ∈ (state.step action).handoff.store.listFor target) :
    hint ∈ state.handoff.store.listFor target ∨
      state.accepting action = [hint.createdAt] ∧ state.puttingBack action = [] ∧
        hint.serial = state.handoff.accepted.length ∨
      state.puttingBack action = [(hint.serial, hint.createdAt)] := by
  cases action with
  | store other key value now =>
    have stored :
        hint ∈ (state.handoff.store.store other key value now state.handoff.accepted.length).2.listFor target := by
      simp only [step, Handoff.step] at member
      split at member <;> exact member
    rcases HintStore.mem_store stored with before | ⟨-, room, rfl⟩
    · exact .inl before
    · exact .inr (.inl ⟨if_pos room, rfl, rfl⟩)
  | drain other =>
    simp only [step, Handoff.step] at member
    split at member
    · exact .inl member
    · exact .inl (HintStore.drain_subset member)
  | deliver ok now =>
    simp only [step, Handoff.step] at member
    split at member
    · exact .inl member
    · rename_i other failed rest under
      cases ok with
      | true => exact .inl member
      | false =>
        rcases HintStore.mem_store member with before | ⟨-, room, rfl⟩
        · exact .inl before
        · exact .inr (.inr (by simp [puttingBack, under, room]))
  | expireOld now => exact .inl (HintStore.expireOld_subset member)
  | dropTarget other => exact .inl (HintStore.dropTarget_subset member)

theorem length_accepted (state : Ageing) (action : HandoffAction) :
    (state.handoff.step action).accepted.length = state.handoff.accepted.length + (state.accepting action).length := by
  cases action with
  | store other key value now =>
    by_cases room : state.handoff.store.HasRoom other
    · simp [Handoff.step, accepting, room, HintStore.accepted_store.mpr room]
    · have refused : ¬ (state.handoff.store.store other key value now state.handoff.accepted.length).1 = true :=
        mt HintStore.accepted_store.mp room
      simp [Handoff.step, accepting, room, refused]
  | drain other =>
    rw [Handoff.step]
    split <;> rfl
  | deliver ok now =>
    rw [Handoff.step]
    split
    · rfl
    · cases ok <;> rfl
  | expireOld now => rfl
  | dropTarget other => rfl

/-- What is put back was on its way. -/
theorem mem_puttingBack {entry : Nat × Int} (member : entry ∈ state.puttingBack action) :
    ∃ delivery ∈ state.handoff.delivery, entry.1 = delivery.hint.serial := by
  unfold puttingBack at member
  split at member
  · split at member
    · cases member
    · rename_i other failed rest under
      split at member
      · rw [List.mem_singleton.mp member]
        exact ⟨_, under, rfl⟩
      · cases member
  · cases member

/-- A hint that is on its way is not in the store as well. -/
theorem Dated.elsewhere (dated : state.Dated) (member : hint ∈ state.handoff.store.listFor target)
    {delivery : Delivery} (under : delivery ∈ state.handoff.delivery) : delivery.hint.serial ≠ hint.serial := by
  intro same
  have once := dated.once hint.serial target (dated.known.stored target hint member)
  have stored : 0 < (Hint.serials (state.handoff.store.listFor target)).count hint.serial :=
    List.count_pos_iff.mpr (List.mem_map_of_mem member)
  have flying : 0 < (Hint.serials state.handoff.inFlight).count hint.serial := by
    refine List.count_pos_iff.mpr (same ▸ List.mem_map_of_mem ?_)
    rw [Handoff.inFlight, Option.mem_def.mp under]
    exact List.mem_cons_self
  unfold Handoff.places at once
  omega

theorem Dated.storedAt_old (dated : state.Dated) (member : hint ∈ state.handoff.store.listFor target) :
    (state.step action).storedAt hint.serial = state.storedAt hint.serial := by
  have other : (state.puttingBack action).lookup hint.serial = none := by
    refine List.lookup_eq_none_iff.mpr (fun entry putting => ?_)
    obtain ⟨delivery, under, same⟩ := mem_puttingBack putting
    simpa [same] using (dated.elsewhere member under).symm
  have bound : hint.serial < state.acceptedAt.length := dated.timed ▸ dated.known.lt member
  rw [storedAt, step, List.lookup_append, other, Option.none_or, List.getElem?_append_left bound, ← storedAt]

theorem Dated.step (dated : state.Dated) (action : HandoffAction) : (state.step action).Dated where
  known := (state.handoff.step_move action).known dated.known
  once := by
    intro serial target found
    have move := state.handoff.step_move action
    rcases move.accepted_before found with before | new
    · have once := dated.once serial target before
      have kept := move.places dated.known before
      exact (Nat.le_add_right _ _).trans (kept.trans_le once)
    · exact (new.2 dated.known).le
  timed := by
    rw [Ageing.step, List.length_append, length_accepted, dated.timed]
  logged := by
    intro entry member
    have grown := length_accepted state action
    rcases List.mem_append.mp member with new | before
    · obtain ⟨delivery, under, same⟩ := mem_puttingBack new
      have own := dated.known.flying delivery under delivery.hint List.mem_cons_self
      have bound := (List.getElem?_eq_some_iff.mp own).1
      simp only [Ageing.step]
      omega
    · have bound := dated.logged entry before
      simp only [Ageing.step]
      omega
  stamped := by
    intro target hint member
    rcases mem_step member with before | ⟨accepted, nothing, new⟩ | returned
    · rw [dated.storedAt_old before]
      exact dated.stamped target hint before
    · have fresh : state.putBack.lookup hint.serial = none := by
        refine List.lookup_eq_none_iff.mpr (fun entry logged => ?_)
        have bound := dated.logged entry logged
        have other : hint.serial ≠ entry.1 := by omega
        simpa using other
      rw [storedAt, Ageing.step, accepted, nothing, List.nil_append, fresh, Option.none_or, new, ← dated.timed,
        List.getElem?_concat_length]
    · rw [storedAt, Ageing.step, returned, List.singleton_append, List.lookup_cons_self, Option.some_or]

theorem Dated.run (dated : state.Dated) (actions : List HandoffAction) : (state.run actions).Dated := by
  induction actions generalizing state with
  | nil => exact dated
  | cons action rest ih => exact ih (dated.step action)

theorem ttl_step (state : Handoff) (action : HandoffAction) : (state.step action).store.ttl = state.store.ttl := by
  cases action with
  | store target key value now =>
    have kept : (state.store.store target key value now state.accepted.length).2.ttl = state.store.ttl := by
      unfold HintStore.store
      split <;> rfl
    rw [Handoff.step]
    dsimp only
    split <;> exact kept
  | drain target =>
    rw [Handoff.step]
    split <;> rfl
  | deliver ok now =>
    rw [Handoff.step]
    split
    · rfl
    · rename_i target hint rest under
      cases ok with
      | true => rfl
      | false =>
        change (state.store.store target.nodeId hint.key hint.value now hint.serial).2.ttl = state.store.ttl
        unfold HintStore.store
        split <;> rfl
  | expireOld now => rfl
  | dropTarget target => rfl

theorem ttl_run (state : Ageing) (actions : List HandoffAction) :
    (state.run actions).handoff.store.ttl = state.handoff.store.ttl := by
  induction actions generalizing state with
  | nil => rfl
  | cons action rest ih => exact (ih _).trans (ttl_step state.handoff action)

theorem Dated.respects_iff (dated : state.Dated) (now : Int) :
    (state.step (.expireOld now)).Respects state.handoff.store.ttl now ↔
      state.Unrenewed state.handoff.store.ttl now := by
  have kept : ∀ target hint, hint ∈ (state.step (.expireOld now)).handoff.store.listFor target ↔
      hint ∈ state.handoff.store.listFor target ∧ now - hint.createdAt ≤ state.handoff.store.ttl := by
    intro target hint
    rw [Ageing.step, Handoff.step, HintStore.listFor_expireOld, List.mem_filter]
    simp [HintStore.hasExpired]
  have times : (state.step (.expireOld now)).acceptedAt = state.acceptedAt := List.append_nil _
  unfold Respects Unrenewed
  simp only [kept, times]
  constructor
  · intro respects target hint member first back accepted returned late
    have stamp := dated.stamped target hint member
    rw [storedAt, returned, Option.some_or] at stamp
    exact respects target hint ⟨member, Option.some.inj stamp ▸ late⟩ first accepted
  · rintro unrenewed target hint ⟨member, fresh⟩ first accepted
    have stamp := dated.stamped target hint member
    cases returned : state.putBack.lookup hint.serial with
    | none =>
      rw [storedAt, returned, Option.none_or, accepted] at stamp
      exact Option.some.inj stamp ▸ fresh
    | some back =>
      rw [storedAt, returned, Option.some_or] at stamp
      exact unrenewed target hint member first back accepted returned (Option.some.inj stamp ▸ fresh)

end Steps

/-- After any run, `expireOld` leaves no hint that was first accepted longer ago than the TTL exactly
if no hint of the store that is that old was put back by a failed delivery within the TTL. -/
theorem hints_respect_lifetime_iff (ttl : Int) (maxPerTarget : Nat) (actions : List HandoffAction) (now : Int) :
    (((start ttl maxPerTarget).run actions).step (.expireOld now)).Respects ttl now ↔
      ((start ttl maxPerTarget).run actions).Unrenewed ttl now := by
  have dated := (dated_start ttl maxPerTarget).run actions
  have same : ((start ttl maxPerTarget).run actions).handoff.store.ttl = ttl := ttl_run _ actions
  have whole := dated.respects_iff now
  rwa [same] at whole

/-- A hint of time 0 that a failed delivery puts back at time 8. -/
def renewed : List HandoffAction :=
  [.store (ascii "t") (ascii "k") ⟨ascii "v", .empty, false⟩ 0, .drain ⟨ascii "t", ascii "h", 1⟩, .deliver false 8]

/-- With a TTL of 10, it is still there after `expireOld` at time 15. -/
theorem put_back_hint_outlives_ttl :
    (((start 10 100).run renewed).step (.expireOld 15)).handoff.store.listFor (ascii "t") =
        [⟨ascii "t", ascii "k", ⟨ascii "v", .empty, false⟩, 8, 0⟩] ∧
      (((start 10 100).run renewed).step (.expireOld 15)).acceptedAt = [0] ∧
      ¬ (((start 10 100).run renewed).step (.expireOld 15)).Respects 10 15 := by
  have stored : (((start 10 100).run renewed).step (.expireOld 15)).handoff.store.listFor (ascii "t") =
      [⟨ascii "t", ascii "k", ⟨ascii "v", .empty, false⟩, 8, 0⟩] := by decide +kernel
  have times : (((start 10 100).run renewed).step (.expireOld 15)).acceptedAt = [0] := by decide +kernel
  refine ⟨stored, times, fun respects => ?_⟩
  have young := respects (ascii "t") _ (stored ▸ List.mem_singleton_self _) 0 (by rw [times]; rfl)
  omega

end Ageing

end MiniDynamo
