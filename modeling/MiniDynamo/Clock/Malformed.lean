import MiniDynamo.Clock.Token

/-! Which entries of a clock token count. The format has digits for the number and the stamp;
the parser takes whatever `stoull` takes. -/

namespace MiniDynamo

namespace VectorClock

/-- The id, the number and the stamp of an entry, as texts. -/
def entryFields (token : Bytes) : Option (Bytes × Bytes × Bytes) :=
  match Bytes.cut colon token with
  | none => none
  | some (node, tail) =>
    if node = [] ∨ tail = [] ∨ (splitTail tail).1 = [] then none else some (node, splitTail tail)

/-- Nothing but digits. -/
def Digits (text : Bytes) : Prop := ∀ byte ∈ text, isDigit byte = true

instance (text : Bytes) : Decidable (Digits text) := inferInstanceAs (Decidable (∀ byte ∈ text, isDigit byte = true))

/-- An entry of the format: an id, the digits of the counter and, if there is a third field,
the digits of the stamp. -/
inductive PlainEntry (node : Bytes) (counter : UInt64) : Bytes → Prop
  | bare {num : Bytes} (name : node ≠ [] ∧ colon ∉ node) (some : num ≠ []) (digits : Digits num)
      (value : digitsValue num = counter.toNat) : PlainEntry node counter (node ++ colon :: num)
  | stamped {num stamp : Bytes} (name : node ≠ [] ∧ colon ∉ node) (some : num ≠ []) (digits : Digits num)
      (value : digitsValue num = counter.toNat) (stampDigits : Digits stamp) (small : digitsValue stamp < 2 ^ 64) :
      PlainEntry node counter (node ++ colon :: (num ++ colon :: stamp))

/-- The parser takes the entry for a counter of the node. -/
def Reads (token node : Bytes) (counter updatedMs : UInt64) : Prop :=
  ∃ num stamp, entryFields token = some (node, num, stamp) ∧ stoull num = some counter ∧ stoull stamp = some updatedMs

/-- Both numbers of the entry are taken, but one of them has more than digits. -/
def Loose (token : Bytes) : Prop :=
  match entryFields token with
  | none => False
  | some (_, num, stamp) =>
    (stoull num).isSome = true ∧ (stoull stamp).isSome = true ∧ ¬ (Digits num ∧ Digits stamp)

instance (token : Bytes) : Decidable (Loose token) := by
  unfold Loose
  split <;> infer_instance

/-- Every counter that is held stood in an entry of the format, and no other entry does
anything to a clock. -/
structure IgnoresMalformed (text : Bytes) : Prop where
  counters : ∀ node, (parse text).get node ≠ 0 →
    ∃ token ∈ text.splitOn comma, PlainEntry node ((parse text).get node) token
  others : ∀ token ∈ text.splitOn comma, (¬ ∃ node counter, PlainEntry node counter token) →
    ∀ clock, parseEntry clock token = clock

theorem parseEntry_eq (clock : VectorClock) (token : Bytes) :
    parseEntry clock token =
      match entryFields token with
      | none => clock
      | some (node, num, stamp) =>
        match stoull num, stoull stamp with
        | some counter, some updatedMs => clock.set node counter updatedMs
        | _, _ => clock := by
  unfold parseEntry entryFields
  cases Bytes.cut colon token with
  | none => rfl
  | some parts =>
    obtain ⟨node, tail⟩ := parts
    by_cases lacking : node = [] ∨ tail = []
    · simp [lacking, ← or_assoc]
    · by_cases none : (splitTail tail).1 = []
      · simp [lacking, none]
      · cases number : stoull (splitTail tail).1 <;> cases time : stoull (splitTail tail).2 <;>
          simp [lacking, none, number, time]

theorem parseEntry_of_reads (clock : VectorClock) {token node : Bytes} {counter updatedMs : UInt64}
    (reads : Reads token node counter updatedMs) : parseEntry clock token = clock.set node counter updatedMs := by
  obtain ⟨num, stamp, fields, number, time⟩ := reads
  rw [parseEntry_eq, fields]
  simp only [number, time]

/-- An entry is taken for a counter, or it leaves every clock as it is. -/
theorem reads_or_inert (token : Bytes) :
    (∃ node counter updatedMs, Reads token node counter updatedMs) ∨ ∀ clock, parseEntry clock token = clock := by
  cases fields : entryFields token with
  | none => exact .inr (fun clock => by rw [parseEntry_eq, fields])
  | some parts =>
    obtain ⟨node, num, stamp⟩ := parts
    cases number : stoull num with
    | none => exact .inr (fun clock => by rw [parseEntry_eq, fields]; simp only [number])
    | some counter =>
      cases time : stoull stamp with
      | none => exact .inr (fun clock => by rw [parseEntry_eq, fields]; simp only [number, time])
      | some updatedMs => exact .inl ⟨node, counter, updatedMs, num, stamp, fields, number, time⟩

/-- An entry that is taken does something to some clock. -/
theorem not_inert_of_reads {token node : Bytes} {counter updatedMs : UInt64}
    (reads : Reads token node counter updatedMs) : ¬ ∀ clock, parseEntry clock token = clock := by
  intro inert
  have changed (clock : VectorClock) : clock.get node = counter := by
    rw [← inert clock, parseEntry_of_reads clock reads, get_set, if_pos rfl]
  have zero := changed empty
  have one := changed (empty.set node 1 0)
  rw [get_empty] at zero
  rw [get_set, if_pos rfl, ← zero] at one
  exact absurd one (by decide)

theorem Digits.clean {text : Bytes} (digits : Digits text) : colon ∉ text := by
  intro member
  exact absurd (digits colon member) (by decide)

/-- The fields of an entry of the format hold digits alone. -/
theorem PlainEntry.fields {token node : Bytes} {counter : UInt64} (plain : PlainEntry node counter token) :
    ∃ num stamp, entryFields token = some (node, num, stamp) ∧ Digits num ∧ Digits stamp := by
  have zero : Digits (ascii "0") := by decide +kernel
  cases plain with
  | @bare num name filled digits value =>
    refine ⟨num, ascii "0", ?_, digits, zero⟩
    simp [entryFields, Bytes.cut_append name.2, splitTail, Bytes.cut_none digits.clean, name.1, filled]
  | @stamped num stamp name filled digits value stampDigits small =>
    refine ⟨num, if stamp = [] then ascii "0" else stamp, ?_, digits, ?_⟩
    · simp [entryFields, Bytes.cut_append name.2, splitTail, Bytes.cut_append digits.clean, name.1, filled]
    · split
      · exact zero
      · exact stampDigits

/-- What an entry that has fields was cut from. -/
theorem entryFields_eq_some {token node num stamp : Bytes} (fields : entryFields token = some (node, num, stamp)) :
    (node ≠ [] ∧ colon ∉ node) ∧ num ≠ [] ∧
      (token = node ++ colon :: num ∨
        ∃ back, token = node ++ colon :: (num ++ colon :: back) ∧ stamp = if back = [] then ascii "0" else back) := by
  unfold entryFields at fields
  split at fields
  · cases fields
  · rename_i id tail parts
    split at fields
    · cases fields
    · rename_i filled
      simp only [not_or] at filled
      obtain ⟨rfl, split⟩ := Prod.mk.inj (Option.some.inj fields)
      obtain ⟨rfl, noColon⟩ := Bytes.cut_eq_some parts
      refine ⟨⟨filled.1, noColon⟩, by simpa [split] using filled.2.2, ?_⟩
      unfold splitTail at split
      cases cut : Bytes.cut colon tail with
      | none =>
        simp only [cut] at split
        exact .inl (by rw [(Prod.mk.inj split).1])
      | some rest =>
        simp only [cut] at split
        obtain ⟨rfl, rfl⟩ := Prod.mk.inj split
        exact .inr ⟨rest.2, by rw [← (Bytes.cut_eq_some cut).1], rfl⟩

theorem plainEntry_of_fields {token node num stamp : Bytes} {counter updatedMs : UInt64}
    (fields : entryFields token = some (node, num, stamp)) (number : stoull num = some counter)
    (time : stoull stamp = some updatedMs) (digits : Digits num) (stampDigits : Digits stamp) :
    PlainEntry node counter token := by
  obtain ⟨name, filled, rfl | ⟨back, rfl, rfl⟩⟩ := entryFields_eq_some fields
  · exact .bare name filled digits ((stoull_digits digits filled counter).mp number)
  · have value := (stoull_digits digits filled counter).mp number
    by_cases none : back = []
    · subst none
      exact .stamped name filled digits value (by simp [Digits]) (by decide)
    · rw [if_neg none] at time stampDigits
      have read := (stoull_digits stampDigits none updatedMs).mp time
      exact .stamped name filled digits value stampDigits (read ▸ updatedMs.toNat_lt)

theorem Reads.plain {token node : Bytes} {counter updatedMs : UInt64} (reads : Reads token node counter updatedMs)
    (strict : ¬ Loose token) : PlainEntry node counter token := by
  obtain ⟨num, stamp, fields, number, time⟩ := reads
  simp only [Loose, fields, number, time, Option.isSome_some, true_and, not_not] at strict
  exact plainEntry_of_fields fields number time strict.1 strict.2

/-- A loose entry is taken, and it is not of the format. -/
theorem Loose.reads {token : Bytes} (loose : Loose token) :
    (∃ node counter updatedMs, Reads token node counter updatedMs) ∧
      ¬ ∃ node counter, PlainEntry node counter token := by
  unfold Loose at loose
  split at loose
  · exact loose.elim
  · rename_i node num stamp fields
    obtain ⟨number, time, mixed⟩ := loose
    obtain ⟨counter, number⟩ := Option.isSome_iff_exists.mp number
    obtain ⟨updatedMs, time⟩ := Option.isSome_iff_exists.mp time
    refine ⟨⟨node, counter, updatedMs, num, stamp, fields, number, time⟩, ?_⟩
    rintro ⟨other, value, plain⟩
    obtain ⟨otherNum, otherStamp, same, digits, stampDigits⟩ := plain.fields
    rw [fields] at same
    obtain ⟨rfl, rfl, rfl⟩ : node = other ∧ num = otherNum ∧ stamp = otherStamp := by simpa using same
    exact mixed ⟨digits, stampDigits⟩

/-- A counter that one round of the loop leaves was there before, or the entry was taken for it. -/
theorem get_parseEntry (clock : VectorClock) (token node : Bytes) :
    (parseEntry clock token).get node = clock.get node ∨
      ∃ updatedMs, Reads token node ((parseEntry clock token).get node) updatedMs := by
  rcases reads_or_inert token with ⟨id, counter, updatedMs, reads⟩ | inert
  · rw [parseEntry_of_reads clock reads, get_set]
    split
    · rename_i same
      exact .inr ⟨updatedMs, same ▸ reads⟩
    · exact .inl rfl
  · exact .inl (by rw [inert])

/-- Over the whole loop. -/
theorem get_parse_of_strict (tokens : List Bytes) (strict : ∀ token ∈ tokens, ¬ Loose token) (clock : VectorClock)
    (node : Bytes) :
    (tokens.foldl parseEntry clock).get node = clock.get node ∨
      ∃ token ∈ tokens, PlainEntry node ((tokens.foldl parseEntry clock).get node) token := by
  induction tokens generalizing clock with
  | nil => exact .inl rfl
  | cons token rest ih =>
    have later : ∀ token ∈ rest, ¬ Loose token := fun token member => strict token (List.mem_cons_of_mem _ member)
    rw [List.foldl_cons]
    rcases ih later (parseEntry clock token) with kept | ⟨source, member, plain⟩
    · rw [kept]
      rcases get_parseEntry clock token node with same | ⟨updatedMs, reads⟩
      · exact .inl same
      · exact .inr ⟨token, List.mem_cons_self, reads.plain (strict token List.mem_cons_self)⟩
    · exact .inr ⟨source, List.mem_cons_of_mem token member, plain⟩

/-- Malformed entries are ignored exactly where `stoull` takes no more than digits. -/
theorem ignores_malformed_iff (text : Bytes) :
    IgnoresMalformed text ↔ ∀ token ∈ text.splitOn comma, ¬ Loose token := by
  constructor
  · intro ignores token member loose
    obtain ⟨⟨node, counter, updatedMs, reads⟩, malformed⟩ := loose.reads
    exact not_inert_of_reads reads (ignores.others token member malformed)
  · intro strict
    refine ⟨fun node held => ?_, fun token member malformed => ?_⟩
    · rcases get_parse_of_strict _ strict empty node with absent | plain
      · rw [get_empty] at absent
        exact absurd absent held
      · exact plain
    · rcases reads_or_inert token with ⟨node, counter, updatedMs, reads⟩ | inert
      · exact absurd ⟨node, counter, reads.plain (strict token member)⟩ malformed
      · exact inert

/-- Bytes after the number are dropped, and a minus sign makes a counter of 2^64 - 1. -/
theorem malformed_entries_count :
    (parse (ascii "n:5x,m:-1")).get (ascii "n") = 5 ∧ (parse (ascii "n:5x,m:-1")).get (ascii "m") = 2 ^ 64 - 1 ∧
      ¬ IgnoresMalformed (ascii "n:5x,m:-1") := by
  refine ⟨by decide +kernel, by decide +kernel, fun ignores => ?_⟩
  have loose : Loose (ascii "n:5x") := by decide +kernel
  obtain ⟨⟨node, counter, updatedMs, reads⟩, malformed⟩ := loose.reads
  exact not_inert_of_reads reads (ignores.others (ascii "n:5x") (by decide +kernel) malformed)

end VectorClock

end MiniDynamo
