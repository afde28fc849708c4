import MiniDynamo.Library.OrderedMap

/-! Programs over one shared store, as the threads of a process run them: each
access to the store is one atomic step, and everything between two accesses is
local to the thread. A program is written once; running it alone and running it
among other threads are two readings of the same text. -/

namespace MiniDynamo

/-- One thread's program. `send` starts messages on their way without waiting,
`await` blocks until some input is there, `diverge` loops without touching the store. -/
inductive Process (Key Value Input Message Result : Type) where
  | done (result : Result)
  | get (key : Key) (next : Option Value → Process Key Value Input Message Result)
  | put (key : Key) (value : Value) (next : Process Key Value Input Message Result)
  | send (messages : List Message) (next : Process Key Value Input Message Result)
  | await (next : Input → Process Key Value Input Message Result)
  | diverge

namespace Process

variable {Key Value Input Message Result Other : Type}

def bind : Process Key Value Input Message Result → (Result → Process Key Value Input Message Other) →
    Process Key Value Input Message Other
  | done result, rest => rest result
  | get key next, rest => get key (fun found => (next found).bind rest)
  | put key value next, rest => put key value (next.bind rest)
  | send messages next, rest => send messages (next.bind rest)
  | await next, rest => await (fun input => (next input).bind rest)
  | diverge, _ => diverge

instance : Monad (Process Key Value Input Message) where
  pure := done
  bind := bind

/-- Read one key. -/
def fetch (key : Key) : Process Key Value Input Message (Option Value) := get key done

/-- Overwrite one key. -/
def store (key : Key) (value : Value) : Process Key Value Input Message Unit := put key value (done ())

def emit (messages : List Message) : Process Key Value Input Message Unit := send messages (done ())

def receive : Process Key Value Input Message Input := await done

@[simp] theorem pure_eq (result : Result) :
    (pure result : Process Key Value Input Message Result) = done result := rfl

@[simp] theorem done_bind (result : Result) (rest : Result → Process Key Value Input Message Other) :
    done result >>= rest = rest result := rfl

@[simp] theorem get_bind (key : Key) (next : Option Value → Process Key Value Input Message Result)
    (rest : Result → Process Key Value Input Message Other) :
    get key next >>= rest = get key (fun found => next found >>= rest) := rfl

@[simp] theorem put_bind (key : Key) (value : Value) (next : Process Key Value Input Message Result)
    (rest : Result → Process Key Value Input Message Other) :
    put key value next >>= rest = put key value (next >>= rest) := rfl

@[simp] theorem send_bind (messages : List Message) (next : Process Key Value Input Message Result)
    (rest : Result → Process Key Value Input Message Other) :
    send messages next >>= rest = send messages (next >>= rest) := rfl

@[simp] theorem await_bind (next : Input → Process Key Value Input Message Result)
    (rest : Result → Process Key Value Input Message Other) :
    await next >>= rest = await (fun input => next input >>= rest) := rfl

@[simp] theorem diverge_bind (rest : Result → Process Key Value Input Message Other) :
    (diverge : Process Key Value Input Message Result) >>= rest = diverge := rfl

/-- The program has returned. -/
def Finished (program : Process Key Value Input Message Result) : Prop := ∃ result, program = .done result

instance (program : Process Key Value Input Message Result) : Decidable program.Finished :=
  match program with
  | .done result => isTrue ⟨result, rfl⟩
  | .get _ _ => isFalse nofun
  | .put _ _ _ => isFalse nofun
  | .send _ _ => isFalse nofun
  | .await _ => isFalse nofun
  | .diverge => isFalse nofun

/-- The result of a program that has returned. -/
def outcome : Process Key Value Input Message Result → Option Result
  | done result => some result
  | _ => none

theorem outcome_eq_some {program : Process Key Value Input Message Result} {result : Result} :
    program.outcome = some result ↔ program = .done result := by
  cases program with
  | done actual => simp [outcome]
  | get _ _ => simp [outcome]
  | put _ _ _ => simp [outcome]
  | send _ _ => simp [outcome]
  | await _ => simp [outcome]
  | diverge => simp [outcome]

/-- Whatever it receives, the program reads nothing more, and its writes, messages and
results are of these kinds. -/
def Only (puts : Key → Value → Prop) (sends : Message → Prop) (results : Result → Prop) :
    Process Key Value Input Message Result → Prop
  | done result => results result
  | get _ _ => False
  | put key value next => puts key value ∧ next.Only puts sends results
  | send messages next => (∀ message ∈ messages, sends message) ∧ next.Only puts sends results
  | await next => ∀ input, (next input).Only puts sends results
  | diverge => True

/-- The program cannot return before it has written this value. -/
def Owes (key : Key) (value : Value) : Process Key Value Input Message Result → Prop
  | done _ => False
  | get _ _ => False
  | put target written _ => target = key ∧ written = value
  | send _ next => next.Owes key value
  | await next => ∀ input, (next input).Owes key value
  | diverge => True

theorem Only.mono {puts morePuts : Key → Value → Prop} {sends moreSends : Message → Prop}
    {results moreResults : Result → Prop} {program : Process Key Value Input Message Result}
    (only : program.Only puts sends results) (put : ∀ key value, puts key value → morePuts key value)
    (send : ∀ message, sends message → moreSends message) (result : ∀ value, results value → moreResults value) :
    program.Only morePuts moreSends moreResults := by
  induction program with
  | done value => exact result value only
  | get _ _ => exact only.elim
  | put key value next ih => exact ⟨put key value only.1, ih only.2⟩
  | send messages next ih => exact ⟨fun message member => send message (only.1 message member), ih only.2⟩
  | await next ih => exact fun input => ih input (only input)
  | diverge => exact trivial

theorem Owes.bind {key : Key} {value : Value} {program : Process Key Value Input Message Result}
    (owes : program.Owes key value) (rest : Result → Process Key Value Input Message Other) :
    (program >>= rest).Owes key value := by
  induction program with
  | done result => exact owes.elim
  | get _ _ => exact owes.elim
  | put _ _ _ _ => exact owes
  | send _ _ ih => exact ih owes
  | await next ih => exact fun input => ih input (owes input)
  | diverge => exact trivial

theorem Only.bind {puts : Key → Value → Prop} {sends : Message → Prop} {between : Result → Prop}
    {results : Other → Prop} {program : Process Key Value Input Message Result}
    {rest : Result → Process Key Value Input Message Other} (first : program.Only puts sends between)
    (later : ∀ result, between result → (rest result).Only puts sends results) :
    (program >>= rest).Only puts sends results := by
  induction program with
  | done result => exact later result first
  | get _ _ => exact first.elim
  | put key value next ih => exact ⟨first.1, ih first.2⟩
  | send messages next ih => exact ⟨first.1, ih first.2⟩
  | await next ih => exact fun input => ih input (first input)
  | diverge => exact trivial

section Alone

variable [Ord Key] [Std.TransOrd Key]

/-- Run a program alone, with the same input at every `await`: its result, if it
returns, and the store it leaves. -/
def exec (input : Input) : Process Key Value Input Message Result → OrderedMap Key Value →
    Option Result × OrderedMap Key Value
  | done result, store => (some result, store)
  | get key next, store => exec input (next store[key]?) store
  | put key value next, store => exec input next (store.insert key value)
  | send _ next, store => exec input next store
  | await next, store => exec input (next input) store
  | diverge, store => (none, store)

/-- Run a program alone on a store of another make, by how that is read and written. -/
def runOn {State : Type} (read : State → Key → Option Value × State) (write : State → Key → Value → State)
    (input : Input) : Process Key Value Input Message Result → State → Option Result × State
  | done result, state => (some result, state)
  | get key next, state => runOn read write input (next (read state key).1) (read state key).2
  | put key value next, state => runOn read write input next (write state key value)
  | send _ next, state => runOn read write input next state
  | await next, state => runOn read write input (next input) state
  | diverge, state => (none, state)

/-- The messages a program sends when it runs alone. -/
def sent (input : Input) : Process Key Value Input Message Result → OrderedMap Key Value → List Message
  | done _, _ => []
  | get key next, store => sent input (next store[key]?) store
  | put key value next, store => sent input next (store.insert key value)
  | send messages next, store => messages ++ sent input next store
  | await next, store => sent input (next input) store
  | diverge, _ => []

/-- The writes a program makes when it runs alone. -/
def wrote (input : Input) : Process Key Value Input Message Result → OrderedMap Key Value → List (Key × Value)
  | done _, _ => []
  | get key next, store => wrote input (next store[key]?) store
  | put key value next, store => (key, value) :: wrote input next (store.insert key value)
  | send _ next, store => wrote input next store
  | await next, store => wrote input (next input) store
  | diverge, _ => []

/-- The store after a list of writes. -/
def putAll (store : OrderedMap Key Value) (writes : List (Key × Value)) : OrderedMap Key Value :=
  writes.foldl (fun store write => store.insert write.1 write.2) store

/-- Run alone, the program returns this result, having made these writes and sent these messages. -/
structure Does (program : Process Key Value Input Message Result) (input : Input) (store : OrderedMap Key Value)
    (result : Result) (writes : List (Key × Value)) (messages : List Message) : Prop where
  returned : (program.exec input store).1 = some result
  wrote : program.wrote input store = writes
  sent : program.sent input store = messages

section Does

variable {program : Process Key Value Input Message Result} {rest : Result → Process Key Value Input Message Other}
variable {input : Input} {store : OrderedMap Key Value} {result : Result} {other : Other}
variable {writes later : List (Key × Value)} {messages answers : List Message}

theorem exec_store (program : Process Key Value Input Message Result) (input : Input) (store : OrderedMap Key Value) :
    (program.exec input store).2 = putAll store (program.wrote input store) := by
  induction program generalizing store with
  | done _ => rfl
  | get key next ih => exact ih store[key]? store
  | put key value next ih => exact ih (store.insert key value)
  | send _ next ih => exact ih store
  | await next ih => exact ih input store
  | diverge => rfl

/-- A store that is read and written as its contents are runs every program as they do. -/
theorem runOn_eq_exec {State : Type} {read : State → Key → Option Value × State} {write : State → Key → Value → State}
    {contents : State → OrderedMap Key Value} {sound : State → Prop}
    (reads : ∀ {state} key, sound state → (read state key).1 = (contents state)[key]? ∧
      contents (read state key).2 = contents state ∧ sound (read state key).2)
    (writes : ∀ {state} key value, sound state →
      contents (write state key value) = (contents state).insert key value ∧ sound (write state key value))
    (program : Process Key Value Input Message Result) (input : Input) {state : State} (fine : sound state) :
    (program.runOn read write input state).1 = (program.exec input (contents state)).1 ∧
      contents (program.runOn read write input state).2 = (program.exec input (contents state)).2 ∧
      sound (program.runOn read write input state).2 := by
  induction program generalizing state with
  | done _ => exact ⟨rfl, rfl, fine⟩
  | get key next ih =>
    obtain ⟨found, same, still⟩ := reads key fine
    rw [runOn, found, exec, ← same]
    exact ih _ still
  | put key value next ih =>
    obtain ⟨written, still⟩ := writes key value fine
    rw [runOn, exec, ← written]
    exact ih still
  | send _ next ih => exact ih fine
  | await next ih => exact ih input fine
  | diverge => exact ⟨rfl, rfl, fine⟩

theorem Does.final (does : program.Does input store result writes messages) :
    (program.exec input store).2 = putAll store writes := by
  rw [exec_store, does.wrote]

/-- What follows starts from the result, on the store the writes left. -/
theorem Does.bind (first : program.Does input store result writes messages)
    (second : (rest result).Does input (putAll store writes) other later answers) :
    (program >>= rest).Does input store other (writes ++ later) (messages ++ answers) := by
  induction program generalizing store writes messages with
  | done actual =>
    obtain ⟨returned, rfl, rfl⟩ := first
    cases returned
    exact second
  | get key next ih =>
    have after := ih store[key]? ⟨first.returned, first.wrote, first.sent⟩ second
    exact ⟨after.returned, after.wrote, after.sent⟩
  | put key value next ih =>
    obtain ⟨returned, rfl, rfl⟩ := first
    have after := ih ⟨returned, rfl, rfl⟩ second
    exact ⟨after.returned, congrArg ((key, value) :: ·) after.wrote, after.sent⟩
  | send said next ih =>
    obtain ⟨returned, rfl, rfl⟩ := first
    have after := ih ⟨returned, rfl, rfl⟩ second
    refine ⟨after.returned, after.wrote, ?_⟩
    show said ++ (next >>= rest).sent input store = said ++ next.sent input store ++ answers
    rw [after.sent, List.append_assoc]
  | await next ih =>
    have after := ih input ⟨first.returned, first.wrote, first.sent⟩ second
    exact ⟨after.returned, after.wrote, after.sent⟩
  | diverge => cases first.returned

theorem Does.bind_quiet (first : program.Does input store result writes messages)
    (second : (rest result).Does input (putAll store writes) other [] []) :
    (program >>= rest).Does input store other writes messages := by
  have both := first.bind second
  rwa [List.append_nil, List.append_nil] at both

end Does

variable [Std.LawfulEqOrd Key] [DecidableEq Key]
variable {puts : Key → Value → Prop} {sends : Message → Prop} {results : Result → Prop}
variable {program : Process Key Value Input Message Result}

/-- Run alone, such a program leaves a key as it was or with one of its values. -/
theorem Only.exec_lookup (only : program.Only puts sends results) (input : Input) (store : OrderedMap Key Value)
    (key : Key) : (program.exec input store).2[key]? = store[key]? ∨
      ∃ value, puts key value ∧ (program.exec input store).2[key]? = some value := by
  induction program generalizing store with
  | done _ => exact .inl rfl
  | get _ _ => exact only.elim
  | put target value next ih =>
    rcases ih only.2 (store.insert target value) with same | written
    · rw [OrderedMap.lookup_insert] at same
      split at same
      · rename_i own
        exact .inr ⟨value, own ▸ only.1, same⟩
      · exact .inl same
    · exact .inr written
  | send _ next ih => exact ih only.2 store
  | await next ih => exact ih input (only input) store
  | diverge => exact .inl rfl

/-- Run alone to its end, a program leaves the value it owes. -/
theorem Owes.exec_lookup {key : Key} {value : Value} (owes : program.Owes key value)
    (only : program.Only (fun target written => target = key ∧ written = value) sends results) {input : Input}
    {store : OrderedMap Key Value} {result : Result} (returned : (program.exec input store).1 = some result) :
    (program.exec input store).2[key]? = some value := by
  induction program generalizing store with
  | done _ => exact owes.elim
  | get _ _ => exact owes.elim
  | put target written next _ =>
    obtain ⟨rfl, rfl⟩ := owes
    rcases only.2.exec_lookup input (store.insert target written) target with same | ⟨_, ⟨-, rfl⟩, kept⟩
    · rw [OrderedMap.lookup_insert, if_pos rfl] at same
      exact same
    · exact kept
  | send _ next ih => exact ih owes only.2 returned
  | await next ih => exact ih input (owes input) (only input) returned
  | diverge => cases returned

end Alone

end Process

/-- A thread with the value its last read returned. -/
structure Thread (Key Value Input Message Result : Type) where
  program : Process Key Value Input Message Result
  seen : Option Value

/-- After a step, a thread is the one that moved or one that stood still. -/
theorem Thread.set_cases {Key Value Input Message Result : Type}
    {threads : List (Thread Key Value Input Message Result)} {index other : Nat}
    {after thread : Thread Key Value Input Message Result} (held : (threads.set index after)[other]? = some thread) :
    other = index ∧ thread = after ∨ other ≠ index ∧ threads[other]? = some thread := by
  rw [List.getElem?_set] at held
  split at held
  · rename_i same
    split at held
    · exact .inl ⟨same.symm, (Option.some.inj held).symm⟩
    · cases held
  · rename_i different
    exact .inr ⟨Ne.symm different, held⟩

/-- One `put` as it happened: what the thread had read, and what it replaced. -/
structure Overwrite (Key Value : Type) where
  thread : Nat
  key : Key
  seen : Option Value
  before : Option Value
  after : Value
  deriving DecidableEq

/-- No other thread changed the key between this thread's read and its write. -/
def Overwrite.Fresh {Key Value : Type} (write : Overwrite Key Value) : Prop := write.before = write.seen

instance {Key Value : Type} [DecidableEq Value] (write : Overwrite Key Value) : Decidable write.Fresh :=
  inferInstanceAs (Decidable (write.before = write.seen))

/-- Threads over one store. `log` records every `put` since the pool started. -/
structure Pool (Key Value Input Message Result : Type) [Ord Key] where
  store : OrderedMap Key Value
  threads : List (Thread Key Value Input Message Result)
  log : List (Overwrite Key Value)

namespace Pool

variable {Key Value Input Message Result : Type} [Ord Key] [Std.TransOrd Key]

/-- Let one thread take its next step; `input` is what an `await` receives. -/
def step (pool : Pool Key Value Input Message Result) (index : Nat) (input : Input) :
    Option (Pool Key Value Input Message Result × List Message) :=
  match pool.threads[index]? with
  | none => none
  | some thread =>
    match thread.program with
    | .done _ => none
    | .diverge => none
    | .get key next =>
      some ({ pool with threads := pool.threads.set index ⟨next pool.store[key]?, pool.store[key]?⟩ }, [])
    | .put key value next =>
      some ({ store := pool.store.insert key value
              threads := pool.threads.set index ⟨next, thread.seen⟩
              log := pool.log ++ [⟨index, key, thread.seen, pool.store[key]?, value⟩] }, [])
    | .send messages next =>
      some ({ pool with threads := pool.threads.set index ⟨next, thread.seen⟩ }, messages)
    | .await next =>
      some ({ pool with threads := pool.threads.set index ⟨next input, thread.seen⟩ }, [])

/-- A schedule names the thread of each step and the input it would receive. -/
def run (pool : Pool Key Value Input Message Result) :
    List (Nat × Input) → Option (Pool Key Value Input Message Result)
  | [] => some pool
  | (index, input) :: rest => (pool.step index input).bind (fun stepped => stepped.1.run rest)

/-- Start the given programs on a store. -/
def start (store : OrderedMap Key Value) (programs : List (Process Key Value Input Message Result)) :
    Pool Key Value Input Message Result :=
  ⟨store, programs.map (fun program => ⟨program, none⟩), []⟩

/-- Every write of the run found the copy its own thread had read. -/
def Fresh (pool : Pool Key Value Input Message Result) : Prop := ∀ write ∈ pool.log, write.Fresh

instance [DecidableEq Value] (pool : Pool Key Value Input Message Result) : Decidable pool.Fresh :=
  inferInstanceAs (Decidable (∀ write ∈ pool.log, write.Fresh))

/-- Everything one step can do. -/
theorem step_cases {pool next : Pool Key Value Input Message Result} {index : Nat} {input : Input}
    {sent : List Message} (stepped : pool.step index input = some (next, sent)) :
    ∃ thread, pool.threads[index]? = some thread ∧
      ((∃ key rest, thread.program = .get key rest ∧ sent = [] ∧
          next = { pool with threads := pool.threads.set index ⟨rest pool.store[key]?, pool.store[key]?⟩ }) ∨
       (∃ key value rest, thread.program = .put key value rest ∧ sent = [] ∧
          next = { store := pool.store.insert key value
                   threads := pool.threads.set index ⟨rest, thread.seen⟩
                   log := pool.log ++ [⟨index, key, thread.seen, pool.store[key]?, value⟩] }) ∨
       (∃ rest, thread.program = .send sent rest ∧
          next = { pool with threads := pool.threads.set index ⟨rest, thread.seen⟩ }) ∨
       (∃ rest, thread.program = .await rest ∧ sent = [] ∧
          next = { pool with threads := pool.threads.set index ⟨rest input, thread.seen⟩ })) := by
  unfold step at stepped
  split at stepped
  · cases stepped
  · rename_i thread found
    refine ⟨thread, found, ?_⟩
    split at stepped
    · cases stepped
    · cases stepped
    · rename_i key rest shape
      obtain ⟨rfl, rfl⟩ := Prod.mk.inj (Option.some.inj stepped)
      exact .inl ⟨key, rest, shape, rfl, rfl⟩
    · rename_i key value rest shape
      obtain ⟨rfl, rfl⟩ := Prod.mk.inj (Option.some.inj stepped)
      exact .inr (.inl ⟨key, value, rest, shape, rfl, rfl⟩)
    · rename_i messages rest shape
      obtain ⟨rfl, rfl⟩ := Prod.mk.inj (Option.some.inj stepped)
      exact .inr (.inr (.inl ⟨rest, shape, rfl⟩))
    · rename_i rest shape
      obtain ⟨rfl, rfl⟩ := Prod.mk.inj (Option.some.inj stepped)
      exact .inr (.inr (.inr ⟨rest, shape, rfl, rfl⟩))

/-- A step moves one thread, and the log grows by that thread's write at most. -/
theorem step_frame {pool next : Pool Key Value Input Message Result} {index : Nat} {input : Input}
    {sent : List Message} (stepped : pool.step index input = some (next, sent)) :
    ∃ after added, next.threads = pool.threads.set index after ∧ next.log = pool.log ++ added ∧
      ∀ write ∈ added, write.thread = index := by
  obtain ⟨thread, -, ⟨key, rest, -, -, rfl⟩ | ⟨key, value, rest, -, -, rfl⟩ | ⟨rest, -, rfl⟩ | ⟨rest, -, -, rfl⟩⟩ :=
    step_cases stepped
  · exact ⟨_, [], rfl, by simp, by simp⟩
  · exact ⟨_, _, rfl, rfl, by simp⟩
  · exact ⟨_, [], rfl, by simp, by simp⟩
  · exact ⟨_, [], rfl, by simp, by simp⟩

theorem mem_log_of_step {pool next : Pool Key Value Input Message Result} {index : Nat} {input : Input}
    {sent : List Message} (stepped : pool.step index input = some (next, sent)) {write : Overwrite Key Value}
    (logged : write ∈ pool.log) : write ∈ next.log := by
  obtain ⟨_, added, -, grown, -⟩ := step_frame stepped
  exact grown ▸ List.mem_append_left added logged

/-- One step of a thread that reads nothing more. -/
theorem step_only {pool next : Pool Key Value Input Message Result} {index : Nat} {input : Input}
    {sent : List Message} {thread : Thread Key Value Input Message Result} {puts : Key → Value → Prop}
    {sends : Message → Prop} {results : Result → Prop} (only : thread.program.Only puts sends results)
    (found : pool.threads[index]? = some thread) (stepped : pool.step index input = some (next, sent)) :
    ∃ after, after.seen = thread.seen ∧ after.program.Only puts sends results ∧
      (∀ message ∈ sent, sends message) ∧
      (next = { pool with threads := pool.threads.set index after } ∨
       ∃ key value, puts key value ∧ sent = [] ∧
         next = { store := pool.store.insert key value
                  threads := pool.threads.set index after
                  log := pool.log ++ [⟨index, key, thread.seen, pool.store[key]?, value⟩] }) := by
  obtain ⟨actual, same, moves⟩ := step_cases stepped
  cases found.symm.trans same
  obtain ⟨key, rest, shape, rfl, rfl⟩ | ⟨key, value, rest, shape, rfl, rfl⟩ | ⟨rest, shape, rfl⟩ |
    ⟨rest, shape, rfl, rfl⟩ := moves
  all_goals rw [shape] at only
  · exact only.elim
  · exact ⟨⟨rest, thread.seen⟩, rfl, only.2, by simp, .inr ⟨key, value, only.1, rfl, rfl⟩⟩
  · exact ⟨⟨rest, thread.seen⟩, rfl, only.2, only.1, .inl rfl⟩
  · exact ⟨⟨rest input, thread.seen⟩, rfl, only input, by simp, .inl rfl⟩

/-- A thread that owes a write still owes it after a step, or has just made it. -/
theorem step_owes {pool next : Pool Key Value Input Message Result} {index : Nat} {input : Input}
    {sent : List Message} {thread : Thread Key Value Input Message Result} {key : Key} {value : Value}
    (owes : thread.program.Owes key value) (found : pool.threads[index]? = some thread)
    (stepped : pool.step index input = some (next, sent)) :
    (∃ after, next.threads[index]? = some after ∧ after.program.Owes key value) ∨
      ⟨index, key, thread.seen, pool.store[key]?, value⟩ ∈ next.log := by
  have bound := (List.getElem?_eq_some_iff.mp found).1
  obtain ⟨actual, same, moves⟩ := step_cases stepped
  cases found.symm.trans same
  obtain ⟨_, _, shape, rfl, rfl⟩ | ⟨_, _, rest, shape, rfl, rfl⟩ | ⟨rest, shape, rfl⟩ |
    ⟨rest, shape, rfl, rfl⟩ := moves
  all_goals rw [shape] at owes
  · exact owes.elim
  · obtain ⟨rfl, rfl⟩ := owes
    exact .inr (List.mem_append_right _ (List.mem_singleton_self _))
  · exact .inl ⟨_, List.getElem?_set_self bound, owes⟩
  · exact .inl ⟨_, List.getElem?_set_self bound, owes input⟩

theorem step_length {pool next : Pool Key Value Input Message Result} {index : Nat} {input : Input}
    {sent : List Message} (stepped : pool.step index input = some (next, sent)) :
    next.threads.length = pool.threads.length := by
  obtain ⟨_, _, threads, -⟩ := step_frame stepped
  rw [threads, List.length_set]

/-- The invariant rule for runs whose inputs are all of one kind. -/
theorem guarded_run_invariant {Allowed : Input → Prop} {Inv : Pool Key Value Input Message Result → Prop}
    (keeps : ∀ {pool next : Pool Key Value Input Message Result} {index : Nat} {input : Input} {sent : List Message},
      Inv pool → Allowed input → pool.step index input = some (next, sent) → Inv next)
    {pool final : Pool Key Value Input Message Result} {schedule : List (Nat × Input)}
    (holds : Inv pool) (allowed : ∀ label ∈ schedule, Allowed label.2) (ran : pool.run schedule = some final) :
    Inv final := by
  induction schedule generalizing pool with
  | nil =>
    cases ran
    exact holds
  | cons label rest ih =>
    obtain ⟨index, input⟩ := label
    rw [run] at ran
    obtain ⟨⟨next, sent⟩, stepped, later⟩ := Option.bind_eq_some_iff.mp ran
    exact ih (keeps holds (allowed _ List.mem_cons_self) stepped)
      (fun label member => allowed label (List.mem_cons_of_mem _ member)) later

/-- The invariant rule: what every step keeps, every run keeps. -/
theorem run_invariant {Inv : Pool Key Value Input Message Result → Prop}
    (keeps : ∀ {pool next : Pool Key Value Input Message Result} {index : Nat} {input : Input} {sent : List Message},
      Inv pool → pool.step index input = some (next, sent) → Inv next)
    {pool final : Pool Key Value Input Message Result} {schedule : List (Nat × Input)}
    (holds : Inv pool) (ran : pool.run schedule = some final) : Inv final :=
  guarded_run_invariant (fun held (_ : True) stepped => keeps held stepped) holds (fun _ _ => trivial) ran

theorem run_length {pool final : Pool Key Value Input Message Result} {schedule : List (Nat × Input)}
    (ran : pool.run schedule = some final) : final.threads.length = pool.threads.length :=
  run_invariant (fun same stepped => (step_length stepped).trans same) rfl ran

/-- The invariant rule for runs all of whose writes are good: the log only grows, so they
were good at every earlier point. -/
theorem logged_run_invariant {Good : Overwrite Key Value → Prop} {Inv : Pool Key Value Input Message Result → Prop}
    (keeps : ∀ {pool next : Pool Key Value Input Message Result} {index : Nat} {input : Input} {sent : List Message},
      Inv pool → (∀ write ∈ next.log, Good write) → pool.step index input = some (next, sent) → Inv next)
    {pool final : Pool Key Value Input Message Result} {schedule : List (Nat × Input)}
    (holds : Inv pool) (ran : pool.run schedule = some final) (good : ∀ write ∈ final.log, Good write) :
    Inv final := by
  have carried : (∀ write ∈ final.log, Good write) → Inv final := by
    refine @run_invariant _ _ _ _ _ _ _ (fun pool => (∀ write ∈ pool.log, Good write) → Inv pool) ?_ _ _ _
      (fun _ => holds) ran
    intro pool next index input sent held stepped goodNext
    have goodBefore : ∀ write ∈ pool.log, Good write :=
      fun write logged => goodNext write (mem_log_of_step stepped logged)
    exact keeps (held goodBefore) goodNext stepped
  exact carried good

end Pool

end MiniDynamo
