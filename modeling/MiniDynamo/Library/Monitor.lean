import Mathlib.Data.List.Perm.Basic

/-! A mutex, a condition variable and what they protect: workers record their outcomes, each under the mutex
and with a notification, and one thread waits until the record is ready or a deadline has passed. -/

namespace MiniDynamo

/-- Where the waiting thread is: about to look at the record with the mutex held, woken by the deadline or
not; asleep on the condition variable; or through with it, having seen the record as it was then. -/
inductive Waiter (Shared : Type) where
  | checking (late : Bool)
  | asleep
  | through (seen : Shared)

/-- How an outcome is recorded, when the record is ready, and whether the wait has a deadline. -/
structure Guard (Shared Worker Outcome : Type) where
  record : Shared → Worker → Outcome → Shared
  ready : Shared → Bool
  timed : Bool

/-- The record, the workers that have yet to write to it, the outcomes in the order they were recorded, the
waiting thread, and whether the deadline has passed. -/
structure Monitor (Shared Worker Outcome : Type) where
  shared : Shared
  running : List Worker
  finished : List (Worker × Outcome)
  waiter : Waiter Shared
  expired : Bool

/-- Who goes next: a worker with its outcome, the waiting thread with the mutex, a spurious wakeup, the
deadline, or the wakeup that it causes. -/
inductive MonitorTurn (Outcome : Type) where
  | work (index : Nat) (outcome : Outcome)
  | check
  | stir
  | expire
  | timeout

variable {Shared Worker Outcome : Type}

def Waiter.notified : Waiter Shared → Waiter Shared
  | .asleep => .checking false
  | waiter => waiter

namespace Guard

variable (guard : Guard Shared Worker Outcome)

/-- What a turn does. A turn of somebody who cannot go now changes nothing. -/
def step (state : Monitor Shared Worker Outcome) : MonitorTurn Outcome → Monitor Shared Worker Outcome
  | .work index outcome =>
    match state.running[index]? with
    | none => state
    | some worker =>
      { state with
        shared := guard.record state.shared worker outcome
        running := state.running.eraseIdx index
        finished := state.finished ++ [(worker, outcome)]
        waiter := state.waiter.notified }
  | .check =>
    match state.waiter with
    | .checking late =>
      { state with waiter := if guard.ready state.shared || late then .through state.shared else .asleep }
    | _ => state
  | .stir => { state with waiter := state.waiter.notified }
  | .expire => { state with expired := state.expired || guard.timed }
  | .timeout =>
    match state.waiter with
    | .asleep => if state.expired then { state with waiter := .checking true } else state
    | _ => state

def run (state : Monitor Shared Worker Outcome) (turns : List (MonitorTurn Outcome)) :
    Monitor Shared Worker Outcome := turns.foldl guard.step state

/-- The workers are started, and the wait begins. -/
def start (shared : Shared) (workers : List Worker) : Monitor Shared Worker Outcome :=
  ⟨shared, workers, [], .checking false, false⟩

/-- The record after some outcomes. -/
def replay (shared : Shared) (finished : List (Worker × Outcome)) : Shared :=
  finished.foldl (fun shared entry => guard.record shared entry.1 entry.2) shared

/-- The record is made of the outcomes, every worker writes once, nobody sleeps on a record that is ready, and
a wait that is finished saw the record ready or the deadline passed. -/
structure Sound (shared : Shared) (workers : List Worker) (state : Monitor Shared Worker Outcome) : Prop where
  record : state.shared = guard.replay shared state.finished
  once : (state.finished.map Prod.fst ++ state.running).Perm workers
  asleep : state.waiter = .asleep → guard.ready state.shared = false
  late : state.waiter = .checking true → state.expired = true
  through : ∀ seen, state.waiter = .through seen → ∃ early later, state.finished = early ++ later ∧
    seen = guard.replay shared early ∧ (guard.ready seen = true ∨ state.expired = true)
  untimed : guard.timed = false → state.expired = false

variable {guard} {shared : Shared} {workers : List Worker} {state : Monitor Shared Worker Outcome}

theorem sound_start : guard.Sound shared workers (start shared workers) :=
  ⟨rfl, List.Perm.refl workers, nofun, nofun, nofun, fun _ => rfl⟩

theorem step_work {index : Nat} {worker : Worker} (found : state.running[index]? = some worker) (outcome : Outcome) :
    guard.step state (.work index outcome) =
      { state with
        shared := guard.record state.shared worker outcome
        running := state.running.eraseIdx index
        finished := state.finished ++ [(worker, outcome)]
        waiter := state.waiter.notified } := by
  simp [step, found]

theorem step_check {late : Bool} (waits : state.waiter = .checking late) :
    guard.step state .check =
      { state with waiter := if guard.ready state.shared || late then .through state.shared else .asleep } := by
  simp [step, waits]

theorem step_timeout (sleeping : state.waiter = .asleep) (expired : state.expired = true) :
    guard.step state .timeout = { state with waiter := .checking true } := by
  simp [step, sleeping, expired]

theorem replay_append (first second : List (Worker × Outcome)) :
    guard.replay shared (first ++ second) = guard.replay (guard.replay shared first) second :=
  List.foldl_append

theorem notified_eq_asleep {waiter : Waiter Shared} : waiter.notified ≠ .asleep := by
  cases waiter <;> simp [Waiter.notified]

theorem notified_eq_late {waiter : Waiter Shared} (late : waiter.notified = .checking true) :
    waiter = .checking true := by
  cases waiter <;> simp_all [Waiter.notified]

theorem notified_eq_through {waiter : Waiter Shared} {seen : Shared} (through : waiter.notified = .through seen) :
    waiter = .through seen := by
  cases waiter <;> simp_all [Waiter.notified]

theorem Sound.work (sound : guard.Sound shared workers state) {index : Nat} {worker : Worker}
    (found : state.running[index]? = some worker) (outcome : Outcome) :
    guard.Sound shared workers
      { state with
        shared := guard.record state.shared worker outcome
        running := state.running.eraseIdx index
        finished := state.finished ++ [(worker, outcome)]
        waiter := state.waiter.notified } where
  record := by
    rw [replay_append, ← sound.record]
    rfl
  once := by
    obtain ⟨inside, rfl⟩ := List.getElem?_eq_some_iff.mp found
    refine List.Perm.trans ?_ sound.once
    rw [List.map_append, List.append_assoc]
    exact (List.getElem_cons_eraseIdx_perm inside).append_left _
  asleep sleeping := absurd sleeping notified_eq_asleep
  late awake := sound.late (notified_eq_late awake)
  through seen ended := by
    obtain ⟨early, later, same, rest⟩ := sound.through seen (notified_eq_through ended)
    refine ⟨early, later ++ [(worker, outcome)], ?_, rest⟩
    rw [← List.append_assoc, ← same]
  untimed := sound.untimed

theorem Sound.check (sound : guard.Sound shared workers state) {late : Bool} (waits : state.waiter = .checking late) :
    guard.Sound shared workers
      { state with waiter := if guard.ready state.shared || late then .through state.shared else .asleep } where
  record := sound.record
  once := sound.once
  asleep sleeping := by
    split at sleeping
    · cases sleeping
    · rename_i goes
      exact (Bool.or_eq_false_iff.mp (Bool.not_eq_true _ ▸ goes)).1
  late awake := by
    split at awake <;> cases awake
  through seen ended := by
    split at ended
    · rename_i stops
      cases ended
      refine ⟨state.finished, [], (List.append_nil _).symm, sound.record, ?_⟩
      rcases Bool.or_eq_true_iff.mp stops with ready | rfl
      · exact .inl ready
      · exact .inr (sound.late waits)
    · cases ended
  untimed := sound.untimed

theorem Sound.step (sound : guard.Sound shared workers state) (turn : MonitorTurn Outcome) :
    guard.Sound shared workers (guard.step state turn) := by
  cases turn with
  | work index outcome =>
    rw [Guard.step]
    split
    · exact sound
    · rename_i worker found
      exact sound.work found outcome
  | check =>
    rw [Guard.step]
    split
    · rename_i late waits
      exact sound.check waits
    · exact sound
  | stir =>
    exact { sound with
      asleep := fun sleeping => absurd sleeping notified_eq_asleep
      late := fun awake => sound.late (notified_eq_late awake)
      through := fun seen ended => sound.through seen (notified_eq_through ended) }
  | expire =>
    refine { sound with late := fun awake => ?_, through := fun seen ended => ?_, untimed := fun untimed => ?_ }
    · simp [Guard.step, sound.late awake]
    · obtain ⟨early, later, same, saw, why⟩ := sound.through seen ended
      refine ⟨early, later, same, saw, why.imp_right (fun expired => ?_)⟩
      simp [Guard.step, expired]
    · simp [Guard.step, untimed, sound.untimed untimed]
  | timeout =>
    rw [Guard.step]
    split
    · split
      · rename_i expired
        exact { sound with asleep := nofun, late := fun _ => expired, through := nofun }
      · exact sound
    · exact sound

/-- The invariant of every run. -/
theorem sound_run (shared : Shared) (workers : List Worker) (turns : List (MonitorTurn Outcome)) :
    guard.Sound shared workers (guard.run (start shared workers) turns) :=
  List.foldlRecOn turns guard.step sound_start (fun _ sound turn _ => sound.step turn)

/-- A wait that its deadline wakes ends with the next look. -/
theorem run_timeout (sleeping : state.waiter = .asleep) (expired : state.expired = true) :
    (guard.run state [.timeout, .check]).waiter = .through state.shared := by
  show (guard.step (guard.step state .timeout) .check).waiter = .through state.shared
  rw [step_timeout sleeping expired, step_check rfl]
  simp

/-- No wakeup is lost: once the record is ready or the deadline has passed, the waiting thread needs nobody
else to get to the end of its wait. -/
theorem Sound.released (sound : guard.Sound shared workers state)
    (due : guard.ready state.shared = true ∨ state.expired = true) :
    ∃ turns, (∀ turn ∈ turns, turn = .check ∨ turn = .timeout) ∧ turns.length ≤ 3 ∧
      ∃ seen, (guard.run state turns).waiter = .through seen := by
  have expired (waits : guard.ready state.shared = false) : state.expired = true :=
    due.resolve_left (fun ready => by simp [waits] at ready)
  match waits : state.waiter with
  | .through seen => exact ⟨[], nofun, Nat.zero_le _, seen, waits⟩
  | .asleep =>
    exact ⟨[.timeout, .check], by simp, by simp, state.shared, run_timeout waits (expired (sound.asleep waits))⟩
  | .checking late =>
    by_cases stops : (guard.ready state.shared || late) = true
    · refine ⟨[.check], by simp, by simp, state.shared, ?_⟩
      show (guard.step state .check).waiter = .through state.shared
      rw [step_check waits, if_pos stops]
    · refine ⟨[.check, .timeout, .check], by simp, by simp, state.shared, ?_⟩
      show (guard.run (guard.step state .check) [.timeout, .check]).waiter = .through state.shared
      rw [step_check waits, if_neg stops]
      exact run_timeout rfl (expired (Bool.or_eq_false_iff.mp (Bool.not_eq_true _ ▸ stops)).1)

/-- The workers can write in any order, and any of them can be too late. -/
theorem run_works (entries : List (Worker × Outcome)) {others : List Worker}
    (awake : ∃ late, state.waiter = .checking late)
    (within : state.running.Perm (entries.map Prod.fst ++ others)) :
    ∃ turns left, guard.run state turns =
      { state with
        shared := guard.replay state.shared entries, running := left, finished := state.finished ++ entries } := by
  induction entries generalizing state with
  | nil => exact ⟨[], state.running, by simp [run, replay]⟩
  | cons entry rest ih =>
    have inside : entry.1 ∈ state.running := within.mem_iff.mpr List.mem_cons_self
    obtain ⟨index, found⟩ := List.mem_iff_getElem?.mp inside
    obtain ⟨late, waits⟩ := awake
    have worked : guard.step state (.work index entry.2) =
        { state with
          shared := guard.record state.shared entry.1 entry.2
          running := state.running.eraseIdx index
          finished := state.finished ++ [entry] } := by
      rw [step_work found, waits]
      simp [Waiter.notified]
    obtain ⟨bound, same⟩ := List.getElem?_eq_some_iff.mp found
    have shorter : (state.running.eraseIdx index).Perm (rest.map Prod.fst ++ others) := by
      have front := (List.getElem_cons_eraseIdx_perm bound).trans within
      rw [same, List.map_cons, List.cons_append] at front
      exact front.cons_inv
    obtain ⟨turns, left, reached⟩ := @ih (guard.step state (.work index entry.2)) (by rw [worked]; exact ⟨late, waits⟩)
      (by rw [worked]; exact shorter)
    refine ⟨.work index entry.2 :: turns, left, ?_⟩
    show guard.run (guard.step state (.work index entry.2)) turns = _
    rw [reached, worked]
    simp [replay]

/-- Every choice of workers that were in time, in any order, is what some wait with a deadline sees. -/
theorem seen_of_entries (timed : guard.timed = true) (entries : List (Worker × Outcome)) {others : List Worker}
    (within : workers.Perm (entries.map Prod.fst ++ others)) :
    ∃ turns, (guard.run (start shared workers) turns).waiter = .through (guard.replay shared entries) := by
  obtain ⟨turns, left, reached⟩ :=
    @run_works _ _ _ guard (start shared workers) entries others ⟨false, rfl⟩ within
  refine ⟨turns ++ [.expire, .check, .timeout, .check], ?_⟩
  rw [run, List.foldl_append]
  show (guard.run (guard.run (start shared workers) turns) _).waiter = _
  rw [reached]
  by_cases ready : guard.ready (guard.replay shared entries) = true
  · simp [run, step, start, timed, ready]
  · simp [run, step, start, timed, ready]

end Guard

end MiniDynamo
