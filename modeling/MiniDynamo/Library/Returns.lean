import MiniDynamo.Library.Process

/-! Programs that return, and what they return, whatever they find in the store and whichever of the
expected inputs they are given. -/

namespace MiniDynamo.Process

variable {Key Value Input Message Result Other : Type}

/-- The program comes to an end with such a result. -/
def Returns (expected : Input → Prop) (results : Result → Prop) : Process Key Value Input Message Result → Prop
  | done result => results result
  | get _ next => ∀ found, (next found).Returns expected results
  | put _ _ next => next.Returns expected results
  | send _ next => next.Returns expected results
  | await next => ∀ input, expected input → (next input).Returns expected results
  | diverge => False

variable {expected : Input → Prop} {results between : Result → Prop} {others : Other → Prop}
variable {program : Process Key Value Input Message Result}

theorem Returns.bind {rest : Result → Process Key Value Input Message Other}
    (first : program.Returns expected between)
    (second : ∀ result, between result → (rest result).Returns expected others) :
    (program >>= rest).Returns expected others := by
  induction program with
  | done result => exact second result first
  | get key next ih => exact fun found => ih found (first found)
  | put key value next ih => exact ih first
  | send messages next ih => exact ih first
  | await next ih => exact fun input fine => ih input (first input fine)
  | diverge => exact first.elim

theorem Returns.mono {more : Result → Prop} (returns : program.Returns expected results)
    (wider : ∀ result, results result → more result) : program.Returns expected more := by
  induction program with
  | done result => exact wider result returns
  | get key next ih => exact fun found => ih found (returns found)
  | put key value next ih => exact ih returns
  | send messages next ih => exact ih returns
  | await next ih => exact fun input fine => ih input (returns input fine)
  | diverge => exact returns.elim

/-- Run alone, it returns such a result. -/
theorem Returns.exec [Ord Key] [Std.TransOrd Key] (returns : program.Returns expected results) {input : Input}
    (fine : expected input) (store : OrderedMap Key Value) :
    ∃ result, (program.exec input store).1 = some result ∧ results result := by
  induction program generalizing store with
  | done result => exact ⟨result, rfl, returns⟩
  | get key next ih => exact ih _ (returns _) store
  | put key value next ih => exact ih returns _
  | send messages next ih => exact ih returns store
  | await next ih => exact ih input (returns input fine) store
  | diverge => exact returns.elim

end MiniDynamo.Process
