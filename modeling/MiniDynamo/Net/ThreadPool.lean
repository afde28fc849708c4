import MiniDynamo.Library.Handles

/-! `thread_pool.cpp`: workers, producers and a shutdown around one queue, where each part under
the mutex is one step. A worker leaves only when it finds the queue empty, so that what was queued
before the shutdown still runs. -/

namespace MiniDynamo

/-- Where a worker is in its loop. -/
inductive Worker (Task : Type) where
  | waiting
  | running (task : Task)
  | exited
  deriving DecidableEq

/-- The task a worker holds. -/
def Worker.held {Task : Type} : Worker Task → List Task
  | .running task => [task]
  | .waiting => []
  | .exited => []

structure ThreadPool (Task : Type) where
  workers : List (Worker Task)
  tasks : List Task
  stopping : Bool

namespace ThreadPool

variable {Task : Type}

def start (workers : Nat) : ThreadPool Task :=
  ⟨List.replicate (if workers = 0 then 1 else workers) .waiting, [], false⟩

def enqueue (pool : ThreadPool Task) (task : Task) : Bool × ThreadPool Task :=
  if pool.stopping then (false, pool) else (true, { pool with tasks := pool.tasks ++ [task] })

/-- `shutdown` up to its joins, which wait for every worker to exit. -/
def shutdown (pool : ThreadPool Task) : ThreadPool Task :=
  if pool.stopping then pool else { pool with stopping := true }

/-- A worker that waits has the lock: it waits on, takes a task, or exits. -/
def workerLoop (pool : ThreadPool Task) (index : Nat) : Option Task × ThreadPool Task :=
  if pool.stopping = false ∧ pool.tasks = [] then (none, pool)
  else
    match pool.tasks with
    | [] => (none, { pool with workers := pool.workers.set index .exited })
    | task :: rest => (some task, { pool with workers := pool.workers.set index (.running task), tasks := rest })

end ThreadPool

/-- Whoever calls `enqueue` or `shutdown`, a producer or a task that runs, keeps nothing between
two calls. -/
inductive TaskTurn where
  | enqueue
  | shutdown
  | wake (worker : Nat)
  | finish (worker : Nat)

/-- The pool with a log: what `enqueue` answered to every call, whose number is the task it
brought, the tasks begun and those that have returned. -/
structure TaskHistory where
  pool : ThreadPool Nat
  answers : List Bool
  begun : List Nat
  finished : List Nat

namespace TaskHistory

def start (workers : Nat) : TaskHistory := ⟨.start workers, [], [], []⟩

/-- What a worker cannot do now changes nothing. -/
def step (state : TaskHistory) : TaskTurn → TaskHistory
  | .enqueue =>
    let (answer, pool) := state.pool.enqueue state.answers.length
    { state with pool, answers := state.answers ++ [answer] }
  | .shutdown => { state with pool := state.pool.shutdown }
  | .wake worker =>
    match state.pool.workers[worker]? with
    | some .waiting =>
      let (task, pool) := state.pool.workerLoop worker
      { state with pool, begun := task.toList ++ state.begun }
    | _ => state
  | .finish worker =>
    match state.pool.workers[worker]? with
    | some (.running task) =>
      { state with
        pool := { state.pool with workers := state.pool.workers.set worker .waiting }
        finished := task :: state.finished }
    | _ => state

def run (state : TaskHistory) (turns : List TaskTurn) : TaskHistory := turns.foldl step state

/-- All that a step can do. -/
inductive Move (state : TaskHistory) : TaskHistory → Prop
  | idle : Move state state
  | accepted (going : state.pool.stopping = false) :
      Move state
        { state with
          pool := { state.pool with tasks := state.pool.tasks ++ [state.answers.length] }
          answers := state.answers ++ [true] }
  | refused (stopped : state.pool.stopping = true) : Move state { state with answers := state.answers ++ [false] }
  | stopped : Move state { state with pool := { state.pool with stopping := true } }
  | began (worker task : Nat) (rest : List Nat) (free : state.pool.workers[worker]? = some .waiting)
      (queue : state.pool.tasks = task :: rest) :
      Move state
        { state with
          pool := { state.pool with workers := state.pool.workers.set worker (.running task), tasks := rest }
          begun := task :: state.begun }
  | exited (worker : Nat) (free : state.pool.workers[worker]? = some .waiting)
      (stopped : state.pool.stopping = true) (empty : state.pool.tasks = []) :
      Move state { state with pool := { state.pool with workers := state.pool.workers.set worker .exited } }
  | ended (worker task : Nat) (busy : state.pool.workers[worker]? = some (.running task)) :
      Move state
        { state with
          pool := { state.pool with workers := state.pool.workers.set worker .waiting }
          finished := task :: state.finished }

theorem step_wake {state : TaskHistory} {worker : Nat} (free : state.pool.workers[worker]? = some .waiting) :
    Move state (state.step (.wake worker)) := by
  simp only [step, free, ThreadPool.workerLoop]
  split
  · exact .idle
  · rename_i awake
    split
    · rename_i empty
      refine .exited worker free ?_ empty
      by_contra going
      exact awake ⟨Bool.not_eq_true _ ▸ going, empty⟩
    · rename_i task rest queue
      exact .began worker task rest free queue

theorem step_move (state : TaskHistory) (turn : TaskTurn) : Move state (state.step turn) := by
  cases turn with
  | enqueue =>
    cases stopping : state.pool.stopping with
    | false =>
      have move := Move.accepted stopping
      simpa [step, ThreadPool.enqueue, stopping] using move
    | true =>
      have move := Move.refused stopping
      simpa [step, ThreadPool.enqueue, stopping] using move
  | shutdown =>
    cases stopping : state.pool.stopping with
    | false =>
      have move : Move state _ := Move.stopped
      simpa [step, ThreadPool.shutdown, stopping] using move
    | true =>
      have move : Move state _ := Move.idle
      simpa [step, ThreadPool.shutdown, stopping] using move
  | wake worker =>
    cases found : state.pool.workers[worker]? with
    | none =>
      rw [step, found]
      exact .idle
    | some doing =>
      cases doing with
      | waiting => exact step_wake found
      | running task =>
        rw [step, found]
        exact .idle
      | exited =>
        rw [step, found]
        exact .idle
  | finish worker =>
    cases found : state.pool.workers[worker]? with
    | none =>
      rw [step, found]
      exact .idle
    | some doing =>
      cases doing with
      | running task =>
        rw [step, found]
        exact .ended worker task found
      | waiting =>
        rw [step, found]
        exact .idle
      | exited =>
        rw [step, found]
        exact .idle

/-- An accepted task is queued or was begun, once in all, and one begun is held by a worker or has
returned. No worker has left while there was anything to do. -/
structure Accounted (state : TaskHistory) : Prop where
  queued : ∀ task, state.pool.tasks.count task + state.begun.count task =
    if state.answers[task]? = some true then 1 else 0
  held : ∀ task, (state.pool.workers.flatMap Worker.held).count task + state.finished.count task =
    state.begun.count task
  drained : .exited ∈ state.pool.workers → state.pool.stopping = true ∧ state.pool.tasks = []
  staffed : state.pool.workers ≠ []

theorem accounted_start (workers : Nat) : (start workers).Accounted where
  queued := by simp [start, ThreadPool.start]
  held := by
    intro task
    have free : (start workers).pool.workers.flatMap Worker.held = [] := by
      simp [start, ThreadPool.start, List.flatMap_eq_nil_iff, Worker.held]
    rw [free]
    rfl
  drained := by simp [start, ThreadPool.start]
  staffed := by
    by_cases none : workers = 0
    · simp [start, ThreadPool.start, none]
    · simp [start, ThreadPool.start, none]

section Steps

variable {state after : TaskHistory}

/-- The number of the next call is not among the answers, which it extends. -/
theorem answer_append (answers : List Bool) (answer : Bool) (task : Nat) :
    (if (answers ++ [answer])[task]? = some true then 1 else 0) =
      (if answers[task]? = some true then 1 else 0) + if task = answers.length ∧ answer = true then 1 else 0 := by
  rcases Nat.lt_trichotomy task answers.length with before | rfl | beyond
  · rw [List.getElem?_append_left before]
    simp [Nat.ne_of_lt before]
  · simp
  · rw [List.getElem?_eq_none (by simp; omega), List.getElem?_eq_none (by omega)]
    simp [Nat.ne_of_gt beyond]

theorem Move.accounted (move : Move state after) (accounted : state.Accounted) : after.Accounted := by
  cases move with
  | idle => exact accounted
  | accepted going =>
    refine ⟨fun task => ?_, accounted.held, fun left => ?_, accounted.staffed⟩
    · have before := accounted.queued task
      rw [answer_append, ← before, List.count_append, List.count_singleton]
      simp only [and_true, beq_iff_eq, eq_comm (a := state.answers.length)]
      omega
    · exact absurd (accounted.drained left).1 (by simp [going])
  | refused stopped =>
    refine ⟨fun task => ?_, accounted.held, accounted.drained, accounted.staffed⟩
    rw [answer_append, ← accounted.queued task]
    simp
  | stopped =>
    exact ⟨accounted.queued, accounted.held, fun left => ⟨rfl, (accounted.drained left).2⟩, accounted.staffed⟩
  | began worker task rest free queue =>
    refine ⟨fun other => ?_, fun other => ?_, fun left => ?_, ?_⟩
    · have before := accounted.queued other
      rw [queue, List.count_cons] at before
      rw [← before, List.count_cons]
      dsimp only
      omega
    · have before := accounted.held other
      have moved := count_flatMap_set Worker.held free (.running task) other
      simp only [Worker.held, List.count_nil, List.count_singleton] at moved
      rw [List.count_cons, ← before]
      dsimp only
      omega
    · rcases List.mem_or_eq_of_mem_set left with before | same
      · have nothing := (accounted.drained before).2
        rw [queue] at nothing
        cases nothing
      · cases same
    · simpa using accounted.staffed
  | exited worker free stopped empty =>
    refine ⟨accounted.queued, fun other => ?_, fun _ => ⟨stopped, empty⟩, ?_⟩
    · have moved := count_flatMap_set Worker.held free .exited other
      rw [← accounted.held other]
      simp only [Worker.held, List.count_nil] at moved
      dsimp only
      omega
    · simpa using accounted.staffed
  | ended worker task busy =>
    refine ⟨accounted.queued, fun other => ?_, fun left => ?_, ?_⟩
    · have before := accounted.held other
      have moved := count_flatMap_set Worker.held busy .waiting other
      simp only [Worker.held, List.count_nil, List.count_singleton] at moved
      rw [← before, List.count_cons]
      dsimp only
      omega
    · rcases List.mem_or_eq_of_mem_set left with before | same
      · exact accounted.drained before
      · cases same
    · simpa using accounted.staffed

theorem Accounted.run (accounted : state.Accounted) (turns : List TaskTurn) : (state.run turns).Accounted := by
  induction turns generalizing state with
  | nil => exact accounted
  | cons turn rest ih => exact ih ((state.step_move turn).accounted accounted)

/-- Once every worker has left, what was begun has returned. -/
theorem Accounted.finished (accounted : state.Accounted) (left : ∀ worker ∈ state.pool.workers, worker = .exited)
    (task : Nat) : state.finished.count task = state.begun.count task := by
  have none : state.pool.workers.flatMap Worker.held = [] :=
    List.flatMap_eq_nil_iff.mpr (fun worker member => by rw [left worker member]; rfl)
  have all := accounted.held task
  rwa [none, List.count_nil, Nat.zero_add] at all

end Steps

/-- However workers, producers and a shutdown interleave, no task is begun twice and no refused one
at all, and once every worker has left, each accepted task has run to its end once. -/
theorem accepted_tasks_run_once (workers : Nat) (turns : List TaskTurn) :
    let state := (start workers).run turns
    (∀ task, state.begun.count task ≤ 1) ∧
    (∀ task, state.answers[task]? = some false → task ∉ state.begun) ∧
    ((∀ worker ∈ state.pool.workers, worker = .exited) →
      state.pool.tasks = [] ∧
        ∀ task, state.answers[task]? = some true → state.begun.count task = 1 ∧ state.finished.count task = 1) := by
  intro state
  have accounted : state.Accounted := (accounted_start workers).run turns
  refine ⟨fun task => ?_, fun task refused begun => ?_, fun left => ?_⟩
  · have once := accounted.queued task
    split at once <;> omega
  · have never := accounted.queued task
    have some := List.count_pos_iff.mpr begun
    rw [refused, if_neg (by simp)] at never
    omega
  · obtain ⟨worker, member⟩ := List.exists_mem_of_ne_nil _ accounted.staffed
    have empty := (accounted.drained (left worker member ▸ member)).2
    refine ⟨empty, fun task accepted => ?_⟩
    have once := accounted.queued task
    rw [empty, List.count_nil, Nat.zero_add, if_pos accepted] at once
    exact ⟨once, (accounted.finished left task).trans once⟩

/-- Two workers, of which one still runs what was queued when the pool was shut down. -/
theorem accepted_tasks_run_once_drained :
    let state := (start 2).run
      [.enqueue, .enqueue, .wake 0, .shutdown, .enqueue, .wake 1, .finish 0, .wake 0, .finish 1, .wake 1]
    state.answers = [true, true, false] ∧ state.begun.count 1 = 1 ∧ state.finished.count 1 = 1 ∧ 2 ∉ state.begun := by
  intro state
  obtain ⟨-, refused, drained⟩ := accepted_tasks_run_once 2
    [.enqueue, .enqueue, .wake 0, .shutdown, .enqueue, .wake 1, .finish 0, .wake 0, .finish 1, .wake 1]
  obtain ⟨begun, finished⟩ := (drained (by decide)).2 1 (by decide)
  exact ⟨by decide, begun, finished, refused 2 (by decide)⟩

end TaskHistory

end MiniDynamo
