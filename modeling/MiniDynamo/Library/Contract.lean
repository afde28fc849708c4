import MiniDynamo.Library.Process

/-! Contracts between one thread and everything around it: what the thread may rely on
when it reads or receives, and what it guarantees when it writes, sends or returns. -/

namespace MiniDynamo

/-- `readable` and `receivable` are relied on, the others are guaranteed. A write is judged
by what the thread saw last. -/
structure Contract (Key Value Input Message Result : Type) where
  readable : Key → Option Value → Prop
  receivable : Input → Prop
  writes : Option Value → Key → Value → Prop
  sends : List Message → Prop
  returns : Result → Prop

namespace Contract

variable {Key Value Input Message Result : Type}

/-- The contract that relies on nothing and guarantees only a result. -/
def returning (returns : Result → Prop) : Contract Key Value Input Message Result :=
  ⟨fun _ _ => True, fun _ => True, fun _ _ _ => True, fun _ => True, returns⟩

/-- A contract that relies on more and guarantees less. -/
structure Weaker (strong weak : Contract Key Value Input Message Result) : Prop where
  readable : ∀ key stored, weak.readable key stored → strong.readable key stored
  receivable : ∀ input, weak.receivable input → strong.receivable input
  writes : ∀ seen key value, strong.writes seen key value → weak.writes seen key value
  sends : ∀ messages, strong.sends messages → weak.sends messages
  returns : ∀ result, strong.returns result → weak.returns result

end Contract

namespace Process

variable {Key Value Input Message Result Other : Type}

/-- The program keeps the contract, having last seen the given value. -/
def Keeps (contract : Contract Key Value Input Message Result) :
    Option Value → Process Key Value Input Message Result → Prop
  | _, done result => contract.returns result
  | _, get key next => ∀ stored, contract.readable key stored → (next stored).Keeps contract stored
  | seen, put key value next => contract.writes seen key value ∧ next.Keeps contract seen
  | seen, send messages next => contract.sends messages ∧ next.Keeps contract seen
  | seen, await next => ∀ input, contract.receivable input → (next input).Keeps contract seen
  | _, diverge => True

theorem Keeps.mono {strong weak : Contract Key Value Input Message Result} (weaker : strong.Weaker weak)
    {seen : Option Value} {program : Process Key Value Input Message Result} (keeps : program.Keeps strong seen) :
    program.Keeps weak seen := by
  induction program generalizing seen with
  | done result => exact weaker.returns result keeps
  | get key next ih => exact fun stored readable => ih stored (keeps stored (weaker.readable key stored readable))
  | put key value next ih => exact ⟨weaker.writes seen key value keeps.1, ih keeps.2⟩
  | send messages next ih => exact ⟨weaker.sends messages keeps.1, ih keeps.2⟩
  | await next ih => exact fun input receivable => ih input (keeps input (weaker.receivable input receivable))
  | diverge => exact trivial

theorem Keeps.returning {returns more : Result → Prop} {seen : Option Value}
    {program : Process Key Value Input Message Result} (keeps : program.Keeps (.returning returns) seen)
    (implies : ∀ result, returns result → more result) : program.Keeps (.returning more) seen :=
  keeps.mono ⟨fun _ _ _ => trivial, fun _ _ => trivial, fun _ _ _ _ => trivial, fun _ _ => trivial, implies⟩

/-- Every program returns something. -/
theorem keeps_returning_true (program : Process Key Value Input Message Result) (seen : Option Value) :
    program.Keeps (.returning fun _ => True) seen := by
  induction program generalizing seen with
  | done _ => exact trivial
  | get _ _ ih => exact fun stored _ => ih stored stored
  | put _ _ _ ih => exact ⟨trivial, ih seen⟩
  | send _ _ ih => exact ⟨trivial, ih seen⟩
  | await _ ih => exact fun input _ => ih input seen
  | diverge => exact trivial

/-- A program that reads nothing more keeps every contract that admits its writes, its
messages and its results. -/
theorem Only.keeps {puts : Key → Value → Prop} {sends : Message → Prop} {results : Result → Prop}
    {contract : Contract Key Value Input Message Result} {seen : Option Value}
    {program : Process Key Value Input Message Result} (only : program.Only puts sends results)
    (writes : ∀ key value, puts key value → contract.writes seen key value)
    (messages : ∀ sent, (∀ message ∈ sent, sends message) → contract.sends sent)
    (returns : ∀ result, results result → contract.returns result) : program.Keeps contract seen := by
  induction program with
  | done result => exact returns result only
  | get _ _ _ => exact only.elim
  | put key value _ ih => exact ⟨writes key value only.1, ih only.2⟩
  | send sent _ ih => exact ⟨messages sent only.1, ih only.2⟩
  | await _ ih => exact fun input _ => ih input (only input)
  | diverge => exact trivial

/-- One program after another: the second starts from whatever the first saw last. -/
theorem Keeps.bind {contract : Contract Key Value Input Message Other} {between : Result → Prop}
    {seen : Option Value} {program : Process Key Value Input Message Result}
    {rest : Result → Process Key Value Input Message Other}
    (first : program.Keeps
      ⟨contract.readable, contract.receivable, contract.writes, contract.sends, between⟩ seen)
    (later : ∀ seen result, between result → (rest result).Keeps contract seen) :
    (program >>= rest).Keeps contract seen := by
  induction program generalizing seen with
  | done result => exact later seen result first
  | get key next ih => exact fun stored readable => ih stored (first stored readable)
  | put key value next ih => exact ⟨first.1, ih first.2⟩
  | send messages next ih => exact ⟨first.1, ih first.2⟩
  | await next ih => exact fun input receivable => ih input (first input receivable)
  | diverge => exact trivial

end Process

namespace Pool

variable {Key Value Input Message Result : Type} [Ord Key] [Std.TransOrd Key]

/-- One step of a thread that keeps a contract, where what it relies on is the case. -/
theorem step_keeps {pool next : Pool Key Value Input Message Result} {index : Nat} {input : Input}
    {sent : List Message} {thread : Thread Key Value Input Message Result}
    {contract : Contract Key Value Input Message Result} (keeps : thread.program.Keeps contract thread.seen)
    (readable : ∀ key, contract.readable key pool.store[key]?) (receivable : contract.receivable input)
    (found : pool.threads[index]? = some thread) (stepped : pool.step index input = some (next, sent)) :
    ∃ after : Thread Key Value Input Message Result, after.program.Keeps contract after.seen ∧
      next.threads = pool.threads.set index after ∧ (sent = [] ∨ contract.sends sent) ∧
      (next.store = pool.store ∧ next.log = pool.log ∨
       ∃ key value, contract.writes thread.seen key value ∧ sent = [] ∧ next.store = pool.store.insert key value ∧
         next.log = pool.log ++ [⟨index, key, thread.seen, pool.store[key]?, value⟩]) := by
  obtain ⟨actual, same, moves⟩ := step_cases stepped
  cases found.symm.trans same
  obtain ⟨key, rest, shape, rfl, rfl⟩ | ⟨key, value, rest, shape, rfl, rfl⟩ | ⟨rest, shape, rfl⟩ |
    ⟨rest, shape, rfl, rfl⟩ := moves
  all_goals rw [shape] at keeps
  · exact ⟨⟨rest _, _⟩, keeps _ (readable key), rfl, .inl rfl, .inl ⟨rfl, rfl⟩⟩
  · exact ⟨⟨rest, thread.seen⟩, keeps.2, rfl, .inl rfl, .inr ⟨key, value, keeps.1, rfl, rfl, rfl⟩⟩
  · exact ⟨⟨rest, thread.seen⟩, keeps.2, rfl, .inr keeps.1, .inl ⟨rfl, rfl⟩⟩
  · exact ⟨⟨rest input, thread.seen⟩, keeps input receivable, rfl, .inl rfl, .inl ⟨rfl, rfl⟩⟩

end Pool

end MiniDynamo
