import MiniDynamo.Library.Decimal
import MiniDynamo.Clock.VectorClock
import MiniDynamo.Codec.NodeId

/-! The clock token `node:counter:stamp,...` that travels in messages and in the
stored form of a value. -/

namespace MiniDynamo

def comma : UInt8 := 44
def colon : UInt8 := 58
def pipe : UInt8 := 124

namespace VectorClock

def entryToken (node : Bytes) (entry : Entry) : Bytes :=
  node ++ colon :: (decimal entry.counter.toNat ++ colon :: decimal entry.updatedMs.toNat)

def serialize (clock : VectorClock) : Bytes :=
  [comma].intercalate (clock.counts.toList.map (fun entry => entryToken entry.1 entry.2))

/-- The number and the stamp of an entry's tail; the two-field form of older
values has stamp 0, and so has an empty third field. -/
def splitTail (tail : Bytes) : Bytes × Bytes :=
  match Bytes.cut colon tail with
  | none => (tail, ascii "0")
  | some (num, stamp) => (num, if stamp = [] then ascii "0" else stamp)

/-- One round of the parsing loop: a malformed entry leaves the clock as it is. -/
def parseEntry (clock : VectorClock) (entry : Bytes) : VectorClock :=
  match Bytes.cut colon entry with
  | none => clock
  | some (node, tail) =>
    if node = [] ∨ tail = [] then clock
    else
      let (num, stamp) := splitTail tail
      if num = [] then clock
      else
        match stoull num, stoull stamp with
        | some counter, some updatedMs => clock.set node counter updatedMs
        | _, _ => clock

/-- The `getline` loop skips empty entries, among them the one a trailing comma
would leave; an empty entry has no colon, so `parseEntry` skips it as well. -/
def parse (text : Bytes) : VectorClock := (text.splitOn comma).foldl parseEntry empty

/-- An id the token can carry. -/
def TokenId (node : Bytes) : Prop := node ≠ [] ∧ colon ∉ node ∧ comma ∉ node

/-- Every id of the clock can stand in a token. -/
def Tokenizable (clock : VectorClock) : Prop :=
  ∀ (node : Bytes) (entry : Entry), clock.counts[node]? = some entry → TokenId node

/-- The token also stands as one field of a `|`-separated message. -/
def WireSafe (clock : VectorClock) : Prop :=
  clock.Tokenizable ∧ ∀ (node : Bytes) (entry : Entry), clock.counts[node]? = some entry → pipe ∉ node

/-- A clock over valid node ids. -/
def OverValidIds (clock : VectorClock) : Prop :=
  ∀ (node : Bytes) (entry : Entry), clock.counts[node]? = some entry → isValidNodeId node = true

private theorem forall_ids_iff (clock : VectorClock) (good : Bytes → Prop) :
    (∀ entry ∈ clock.counts.toList, good entry.1) ↔
      ∀ (node : Bytes) (entry : Entry), clock.counts[node]? = some entry → good node := by
  constructor
  · intro all node entry found
    exact all (node, entry) (OrderedMap.mem_entries.mpr found)
  · intro all entry member
    exact all entry.1 entry.2 (OrderedMap.mem_entries.mp member)

instance (node : Bytes) : Decidable (TokenId node) :=
  inferInstanceAs (Decidable (node ≠ [] ∧ colon ∉ node ∧ comma ∉ node))

instance (clock : VectorClock) : Decidable clock.Tokenizable :=
  decidable_of_iff _ (forall_ids_iff clock TokenId)

instance (clock : VectorClock) : Decidable clock.OverValidIds :=
  decidable_of_iff _ (forall_ids_iff clock (fun node => isValidNodeId node = true))

instance (clock : VectorClock) : Decidable clock.WireSafe :=
  @instDecidableAnd _ _ _ (decidable_of_iff _ (forall_ids_iff clock (fun node => pipe ∉ node)))

/-- A clock whose ids all come from a safe one or are valid is safe. -/
theorem WireSafe.of_ids {clock other : VectorClock} (safe : clock.WireSafe)
    (ids : ∀ (node : Bytes) (entry : Entry), other.counts[node]? = some entry →
      isValidNodeId node = true ∨ ∃ entry, clock.counts[node]? = some entry) : other.WireSafe := by
  refine ⟨fun node entry found => ?_, fun node entry found => ?_⟩
  · rcases ids node entry found with valid | ⟨before, present⟩
    · exact ⟨isValidNodeId_ne_nil valid, not_mem_of_isValidNodeId valid (by decide),
        not_mem_of_isValidNodeId valid (by decide)⟩
    · exact safe.1 node before present
  · rcases ids node entry found with valid | ⟨before, present⟩
    · exact not_mem_of_isValidNodeId valid (by decide)
    · exact safe.2 node before present

theorem OverValidIds.wireSafe {clock : VectorClock} (valid : clock.OverValidIds) : clock.WireSafe := by
  have none : empty.WireSafe := ⟨by simp [Tokenizable, empty], by simp [empty]⟩
  exact none.of_ids (fun node entry found => .inl (valid node entry found))

theorem entryToken_clean {node : Bytes} {entry : Entry} {delim : UInt8} (clean : delim ∉ node)
    (other : delim ≠ colon) (outside : isDigit delim = false) : delim ∉ entryToken node entry := by
  simp [entryToken, clean, other, decimal_clean outside]

theorem parseEntry_entryToken (clock : VectorClock) {node : Bytes} (id : TokenId node) (entry : Entry) :
    parseEntry clock (entryToken node entry) = clock.set node entry.counter entry.updatedMs := by
  obtain ⟨nonempty, noColon, -⟩ := id
  have digits : colon ∉ decimal entry.counter.toNat := decimal_clean (by decide)
  have tail : splitTail (decimal entry.counter.toNat ++ colon :: decimal entry.updatedMs.toNat) =
      (decimal entry.counter.toNat, decimal entry.updatedMs.toNat) := by
    simp [splitTail, Bytes.cut_append digits, decimal_ne_nil]
  rw [parseEntry, entryToken, Bytes.cut_append noColon]
  simp [nonempty, tail, decimal_ne_nil, stoull_decimal]

private def setEntry (clock : VectorClock) (entry : Bytes × Entry) : VectorClock :=
  clock.set entry.1 entry.2.counter entry.2.updatedMs

private theorem lookup_setEntry_absent (entries : List (Bytes × Entry)) (clock : VectorClock) (node : Bytes)
    (positive : ∀ entry ∈ entries, entry.2.counter ≠ 0) (absent : node ∉ entries.map Prod.fst) :
    (entries.foldl setEntry clock).counts[node]? = clock.counts[node]? := by
  induction entries generalizing clock with
  | nil => rfl
  | cons first rest ih =>
    simp only [List.map_cons, List.mem_cons, not_or] at absent
    rw [List.foldl_cons, ih _ (fun entry member => positive entry (by simp [member])) absent.2,
      setEntry, lookup_set (positive first (by simp))]
    simp [Ne.symm absent.1]

private theorem lookup_setEntry_present (entries : List (Bytes × Entry)) (clock : VectorClock)
    {node : Bytes} {entry : Entry} (positive : ∀ entry ∈ entries, entry.2.counter ≠ 0)
    (distinct : (entries.map Prod.fst).Nodup) (member : (node, entry) ∈ entries) :
    (entries.foldl setEntry clock).counts[node]? = some entry := by
  induction entries generalizing clock with
  | nil => simp at member
  | cons first rest ih =>
    have later : ∀ entry ∈ rest, entry.2.counter ≠ 0 := fun entry inside => positive entry (by simp [inside])
    simp only [List.map_cons, List.nodup_cons] at distinct
    rw [List.foldl_cons]
    rcases List.mem_cons.mp member with same | inside
    · subst first
      rw [lookup_setEntry_absent rest _ node later distinct.1, setEntry,
        lookup_set (positive (node, entry) (by simp))]
      simp
    · exact ih _ later distinct.2 inside

/-- Ids, counters and stamps survive the token. -/
theorem parse_serialize {clock : VectorClock} (safe : clock.Tokenizable) : parse clock.serialize = clock := by
  have ids : ∀ entry ∈ clock.counts.toList, TokenId entry.1 := fun entry member =>
    safe entry.1 entry.2 (OrderedMap.mem_entries.mp member)
  have positive : ∀ entry ∈ clock.counts.toList, entry.2.counter ≠ 0 := fun entry member =>
    clock.nonzero entry.1 entry.2 (OrderedMap.mem_entries.mp member)
  have rounds (entries : List (Bytes × Entry)) (tokens : ∀ entry ∈ entries, TokenId entry.1)
      (start : VectorClock) :
      (entries.map (fun entry => entryToken entry.1 entry.2)).foldl parseEntry start =
        entries.foldl setEntry start := by
    induction entries generalizing start with
    | nil => rfl
    | cons first rest ih =>
      rw [List.map_cons, List.foldl_cons, parseEntry_entryToken start (tokens first (by simp)),
        ih (fun entry member => tokens entry (by simp [member]))]
      rfl
  have folded : parse clock.serialize = clock.counts.toList.foldl setEntry empty := by
    by_cases none : clock.counts.toList = []
    · simp [parse, serialize, none, parseEntry, Bytes.cut]
    · rw [parse, serialize, List.splitOn_intercalate, rounds _ ids]
      · intro token member
        obtain ⟨entry, present, same⟩ := List.mem_map.mp member
        subst token
        exact entryToken_clean (ids entry present).2.2 (by decide) (by decide)
      · simpa using none
  apply VectorClock.ext
  apply Std.ExtTreeMap.ext_getElem?
  intro node
  rw [folded]
  cases found : clock.counts[node]? with
  | none =>
    rw [lookup_setEntry_absent _ _ _ positive]
    · simp [empty]
    · intro present
      obtain ⟨entry, member, same⟩ := List.mem_map.mp present
      have lookup := OrderedMap.mem_entries.mp member
      rw [same, found] at lookup
      cases lookup
  | some entry =>
    exact lookup_setEntry_present _ _ positive OrderedMap.entries_keys_nodup (OrderedMap.mem_entries.mpr found)

/-- What one entry of a token adds to a clock is the id at the front of the entry. -/
theorem parseEntry_ids {clock : VectorClock} {token node : Bytes} {entry : Entry}
    (found : (parseEntry clock token).counts[node]? = some entry) :
    (∃ before, clock.counts[node]? = some before) ∨
      node ≠ [] ∧ colon ∉ node ∧ ∃ tail, token = node ++ colon :: tail := by
  unfold parseEntry at found
  split at found
  · exact .inl ⟨entry, found⟩
  · rename_i id tail shape
    obtain ⟨rfl, clean⟩ := Bytes.cut_eq_some shape
    split at found
    · exact .inl ⟨entry, found⟩
    · rename_i filled
      by_cases same : id = node
      · subst same
        exact .inr ⟨fun empty => filled (.inl empty), clean, tail, rfl⟩
      · refine .inl ⟨entry, ?_⟩
        simp only at found
        split at found
        · exact found
        · split at found
          · rwa [lookup_set_other same] at found
          · exact found

theorem parseEntries_ids (tokens : List Bytes) (clock : VectorClock) {node : Bytes} {entry : Entry}
    (found : (tokens.foldl parseEntry clock).counts[node]? = some entry) :
    (∃ before, clock.counts[node]? = some before) ∨
      ∃ token ∈ tokens, node ≠ [] ∧ colon ∉ node ∧ ∃ tail, token = node ++ colon :: tail := by
  induction tokens generalizing clock with
  | nil => exact .inl ⟨entry, found⟩
  | cons token rest ih =>
    rcases ih _ found with ⟨before, present⟩ | ⟨later, member, stood⟩
    · rcases parseEntry_ids present with earlier | stood
      · exact .inl earlier
      · exact .inr ⟨token, List.mem_cons_self, stood⟩
    · exact .inr ⟨later, List.mem_cons_of_mem token member, stood⟩

/-- Whatever text a clock is read from, each of its ids is the front of an entry there. -/
theorem parse_fronts {text node : Bytes} {entry : Entry} (found : (parse text).counts[node]? = some entry) :
    ∃ token ∈ text.splitOn comma, node ≠ [] ∧ colon ∉ node ∧ ∃ tail, token = node ++ colon :: tail :=
  (parseEntries_ids _ _ found).resolve_left (by simp [empty])

/-- Whatever text a clock is read from, its ids stood between the delimiters there. -/
theorem parse_ids {text node : Bytes} {entry : Entry} (found : (parse text).counts[node]? = some entry) :
    TokenId node ∧ ∀ byte ∈ node, byte ∈ text := by
  obtain ⟨token, member, nonempty, noColon, tail, rfl⟩ := parse_fronts found
  obtain ⟨noComma, part⟩ := Bytes.mem_splitOn member
  exact ⟨⟨nonempty, noColon, fun inside => noComma (List.mem_append_left _ inside)⟩,
    fun byte inside => part byte (List.mem_append_left _ inside)⟩

theorem parse_tokenizable (text : Bytes) : (parse text).Tokenizable :=
  fun _ _ found => (parse_ids found).1

/-- A clock read from one field of a message can be stored and sent on. -/
theorem parse_wireSafe {text : Bytes} (clean : pipe ∉ text) : (parse text).WireSafe :=
  ⟨parse_tokenizable text, fun _ _ found inside => clean ((parse_ids found).2 pipe inside)⟩

/-- The token loses nothing of a clock it can carry, and a clock read from any text is one. -/
theorem token_lossless (clock : VectorClock) (text : Bytes) :
    (clock.Tokenizable → parse clock.serialize = clock) ∧ parse (parse text).serialize = parse text :=
  ⟨parse_serialize, parse_serialize (parse_tokenizable text)⟩

private theorem mem_intercalate {tokens : List Bytes} {sep byte : UInt8}
    (member : byte ∈ [sep].intercalate tokens) : byte = sep ∨ ∃ token ∈ tokens, byte ∈ token := by
  induction tokens with
  | nil => simp at member
  | cons token rest ih =>
    cases rest with
    | nil => exact .inr ⟨token, by simp, by simpa using member⟩
    | cons next later =>
      rw [List.intercalate_cons_cons, List.append_assoc] at member
      rcases List.mem_append.mp member with inside | rest
      · exact .inr ⟨token, by simp, inside⟩
      · rcases List.mem_append.mp rest with separator | rest
        · exact .inl (by simpa using separator)
        · rcases ih rest with same | ⟨other, present, inside⟩
          · exact .inl same
          · exact .inr ⟨other, by simp [present], inside⟩

/-- A byte of a token belongs to an id or a number, or stands between them. -/
theorem mem_serialize {clock : VectorClock} {byte : UInt8} (member : byte ∈ clock.serialize) :
    byte = comma ∨ byte = colon ∨ isDigit byte = true ∨
      ∃ (node : Bytes) (entry : Entry), clock.counts[node]? = some entry ∧ byte ∈ node := by
  rcases mem_intercalate member with same | ⟨token, present, inside⟩
  · exact .inl same
  · obtain ⟨⟨node, entry⟩, held, rfl⟩ := List.mem_map.mp present
    rw [entryToken, List.mem_append, List.mem_cons, List.mem_append, List.mem_cons] at inside
    rcases inside with name | same | digit | same | digit
    · exact .inr (.inr (.inr ⟨node, entry, OrderedMap.mem_entries.mp held, name⟩))
    · exact .inr (.inl same)
    · exact .inr (.inr (.inl (decimal_isDigit digit)))
    · exact .inr (.inl same)
    · exact .inr (.inr (.inl (decimal_isDigit digit)))

/-- What an entry takes in a token: its id, its two numbers, two colons and a comma. -/
def entrySize (entry : Bytes × Entry) : Nat :=
  entry.1.length + (decimal entry.2.counter.toNat).length + (decimal entry.2.updatedMs.toNat).length + 3

theorem entrySize_le (entry : Bytes × Entry) : entrySize entry ≤ entry.1.length + 43 := by
  have number (value : UInt64) : (decimal value.toNat).length ≤ 20 :=
    length_decimal_le (by omega) (Nat.lt_trans value.toNat_lt (by decide))
  have first := number entry.2.counter
  have second := number entry.2.updatedMs
  rw [entrySize]
  omega

private theorem lengths_entryToken (entries : List (Bytes × Entry)) :
    ((entries.map (fun entry => entryToken entry.1 entry.2)).map List.length).sum + entries.length =
      (entries.map entrySize).sum := by
  induction entries with
  | nil => rfl
  | cons entry rest ih =>
    simp only [List.map_cons, List.sum_cons, List.length_cons, entryToken, entrySize, List.length_append] at ih ⊢
    omega

/-- The last entry has no comma. -/
theorem length_serialize (clock : VectorClock) :
    clock.serialize.length = (clock.counts.toList.map entrySize).sum - 1 := by
  have tokens := lengths_entryToken clock.counts.toList
  rw [serialize, Bytes.length_intercalate, List.length_map, ← tokens]
  cases clock.counts.toList with
  | nil => rfl
  | cons entry rest =>
    rw [List.length_cons]
    omega

/-- An entry takes its id, two numbers of 64 bits and three delimiters at most. -/
theorem length_serialize_le (clock : VectorClock) :
    clock.serialize.length ≤ (clock.counts.keys.map List.length).sum + 43 * clock.size := by
  have sums : ∀ entries : List (Bytes × Entry), (entries.map entrySize).sum ≤
      ((entries.map Prod.fst).map List.length).sum + 43 * entries.length := by
    intro entries
    induction entries with
    | nil => exact Nat.zero_le _
    | cons entry rest ih =>
      have first := entrySize_le entry
      simp only [List.map_cons, List.sum_cons, List.length_cons]
      omega
  have tokens := sums clock.counts.toList
  have count : clock.counts.toList.length = clock.size := Std.ExtTreeMap.length_toList
  rw [Std.ExtTreeMap.map_fst_toList_eq_keys] at tokens
  rw [length_serialize]
  omega

theorem pipe_not_mem_serialize {clock : VectorClock} (safe : clock.WireSafe) : pipe ∉ clock.serialize := by
  intro member
  rcases mem_serialize member with same | same | digit | ⟨node, entry, held, inside⟩
  · exact absurd same (by decide)
  · exact absurd same (by decide)
  · exact absurd digit (by decide)
  · exact safe.2 node entry held inside

end VectorClock

end MiniDynamo
