import MiniDynamo.Library.Bytes

/-! Text as a sequence of UTF-16 code units, and its way to UTF-8 and back. Neither direction
fails: an unpaired surrogate is written as a question mark, and a malformed sequence of bytes
is read as a replacement character. -/

namespace MiniDynamo

abbrev Utf16 := List UInt16

namespace Utf16

def isHigh (unit : UInt16) : Bool := 0xD800 ≤ unit.toNat && unit.toNat < 0xDC00

def isLow (unit : UInt16) : Bool := 0xDC00 ≤ unit.toNat && unit.toNat < 0xE000

def replacement : UInt16 := 0xFFFD

/-- The UTF-8 sequence of a code point. -/
def encodePoint (point : Nat) : Bytes :=
  if point < 0x80 then [.ofNat point]
  else if point < 0x800 then [.ofNat (0xC0 + point / 64), .ofNat (0x80 + point % 64)]
  else if point < 0x10000 then
    [.ofNat (0xE0 + point / 4096), .ofNat (0x80 + point / 64 % 64), .ofNat (0x80 + point % 64)]
  else
    [.ofNat (0xF0 + point / 262144), .ofNat (0x80 + point / 4096 % 64), .ofNat (0x80 + point / 64 % 64),
      .ofNat (0x80 + point % 64)]

/-- The code units of a code point. A surrogate is not one. -/
def units (point : Nat) : Utf16 :=
  if 0xD800 ≤ point ∧ point < 0xE000 then [replacement]
  else if point < 0x10000 then [.ofNat point]
  else [.ofNat (0xD800 + (point - 0x10000) / 1024 % 1024), .ofNat (0xDC00 + (point - 0x10000) % 1024)]

/-- A code unit on its own. -/
def encodeUnit (unit : UInt16) : Bytes := if isHigh unit || isLow unit then [63] else encodePoint unit.toNat

/-- `getBytes(UTF_8)`. -/
def utf8 : Utf16 → Bytes
  | [] => []
  | [unit] => encodeUnit unit
  | unit :: next :: rest =>
    if isHigh unit && isLow next then
      encodePoint (0x10000 + (unit.toNat - 0xD800) * 1024 + (next.toNat - 0xDC00)) ++ utf8 rest
    else encodeUnit unit ++ utf8 (next :: rest)

/-- Where a decoder stands: between characters, or within one, with the range of the next byte
and the number of bytes after it. -/
inductive Decoder where
  | start
  | more (point low high left : Nat)

namespace Decoder

/-- The first byte of a character. -/
def begin (byte : Nat) : Utf16 × Decoder :=
  if byte < 0x80 then ([.ofNat byte], start)
  else if byte < 0xC2 then ([replacement], start)
  else if byte < 0xE0 then ([], more (byte - 0xC0) 0x80 0xC0 0)
  else if byte < 0xF0 then ([], more (byte - 0xE0) (if byte = 0xE0 then 0xA0 else 0x80) 0xC0 1)
  else if byte < 0xF5 then
    ([], more (byte - 0xF0) (if byte = 0xF0 then 0x90 else 0x80) (if byte = 0xF4 then 0x90 else 0xC0) 2)
  else ([replacement], start)

/-- The character with one byte more, and so many to come. -/
def extend (point : Nat) : Nat → Utf16 × Decoder
  | 0 => (units point, start)
  | left + 1 => ([], more point 0x80 0xC0 left)

/-- One byte. One that cannot continue the character ends it, and begins the next. -/
def feed : Decoder → Nat → Utf16 × Decoder
  | start, byte => begin byte
  | more point low high left, byte =>
    if 0x80 ≤ byte ∧ low ≤ byte ∧ byte < high then extend (point * 64 + (byte - 0x80)) left
    else (replacement :: (begin byte).1, (begin byte).2)

/-- What the end of the text makes of an unfinished character. -/
def flush : Decoder → Utf16
  | start => []
  | more _ _ _ _ => [replacement]

def read : Decoder → Bytes → Utf16
  | state, [] => state.flush
  | state, byte :: rest => (state.feed byte.toNat).1 ++ (state.feed byte.toNat).2.read rest

end Decoder

/-- `new String(bytes, UTF_8)`. -/
def ofUtf8 (bytes : Bytes) : Utf16 := Decoder.start.read bytes

/-- The code units of ASCII bytes. -/
def widen (bytes : Bytes) : Utf16 := bytes.map UInt8.toUInt16

section Encode

theorem encodeUnit_ascii {byte : UInt8} (ascii : byte.toNat < 0x80) : encodeUnit byte.toUInt16 = [byte] := by
  have small : byte.toUInt16.toNat = byte.toNat := by simp
  simp [encodeUnit, isHigh, isLow, encodePoint, small, ascii, show ¬ 0xD800 ≤ byte.toNat by omega,
    show ¬ 0xDC00 ≤ byte.toNat by omega]

/-- The encoding of a text in two parts, unless they are cut between two surrogates. -/
theorem utf8_append (front : Utf16) {unit : UInt16} (back : Utf16) (whole : isLow unit = false) :
    utf8 (front ++ unit :: back) = utf8 front ++ utf8 (unit :: back) := by
  induction front using utf8.induct with
  | case1 => rfl
  | case2 single => simp [utf8, whole]
  | case3 high low rest pair ih => simp [utf8, pair, ih]
  | case4 first next rest apart ih =>
    rw [List.cons_append, List.cons_append, utf8, if_neg apart, utf8, if_neg apart, List.append_assoc]
    exact congrArg _ ih

theorem isLow_ascii {byte : UInt8} (ascii : byte.toNat < 0x80) : isLow byte.toUInt16 = false := by
  simp [isLow, show ¬ 0xDC00 ≤ byte.toNat by omega]

theorem utf8_cons {unit : UInt16} (back : Utf16) (whole : isHigh unit = false) :
    utf8 (unit :: back) = encodeUnit unit ++ utf8 back := by
  cases back with
  | nil => simp [utf8]
  | cons next rest => simp [utf8, whole]

theorem utf8_ascii_cons {byte : UInt8} (ascii : byte.toNat < 0x80) (back : Utf16) :
    utf8 (byte.toUInt16 :: back) = byte :: utf8 back := by
  rw [utf8_cons back (by simp [isHigh, show ¬ 0xD800 ≤ byte.toNat by omega]), encodeUnit_ascii ascii]
  rfl

/-- An ASCII byte cuts the encoding of a text. -/
theorem utf8_cut (front : Utf16) {byte : UInt8} (back : Utf16) (ascii : byte.toNat < 0x80) :
    utf8 (front ++ byte.toUInt16 :: back) = utf8 front ++ byte :: utf8 back := by
  rw [utf8_append front back (isLow_ascii ascii), utf8_ascii_cons ascii]

theorem utf8_intercalate (pieces : List Utf16) {byte : UInt8} (ascii : byte.toNat < 0x80) :
    utf8 ([byte.toUInt16].intercalate pieces) = [byte].intercalate (pieces.map utf8) := by
  induction pieces with
  | nil => rfl
  | cons first rest ih =>
    cases rest with
    | nil => simp
    | cons second others =>
      rw [List.intercalate_cons_cons, List.append_assoc, List.singleton_append, utf8_cut _ _ ascii, ih]
      simp

theorem utf8_append_widen (front : Utf16) {bytes : Bytes} (ascii : ∀ byte ∈ bytes, byte.toNat < 0x80) :
    utf8 (front ++ widen bytes) = utf8 front ++ bytes := by
  induction bytes generalizing front with
  | nil => simp [widen]
  | cons byte rest ih =>
    have here := ascii byte List.mem_cons_self
    have after : utf8 (widen rest) = rest := by
      simpa [utf8] using ih [] (fun other member => ascii other (List.mem_cons_of_mem byte member))
    rw [widen, List.map_cons, utf8_cut front _ here]
    exact congrArg (fun rest => utf8 front ++ byte :: rest) after

theorem utf8_widen {bytes : Bytes} (ascii : ∀ byte ∈ bytes, byte.toNat < 0x80) : utf8 (widen bytes) = bytes := by
  simpa [utf8] using utf8_append_widen [] ascii

theorem mem_encodePoint {point : Nat} {byte : UInt8} (small : point < 0x110000) (member : byte ∈ encodePoint point)
    (ascii : byte.toNat < 0x80) : byte.toNat = point := by
  unfold encodePoint at member
  split at member
  · rename_i little
    rw [List.mem_singleton] at member
    rw [member, UInt8.toNat_ofNat', Nat.mod_eq_of_lt (by omega)]
  · -- every byte of a longer sequence is above the ASCII range
    exfalso
    split at member
    · simp only [List.mem_cons, List.not_mem_nil, or_false] at member
      rcases member with rfl | rfl <;> rw [UInt8.toNat_ofNat'] at ascii <;> omega
    · split at member
      · simp only [List.mem_cons, List.not_mem_nil, or_false] at member
        rcases member with rfl | rfl | rfl <;> rw [UInt8.toNat_ofNat'] at ascii <;> omega
      · simp only [List.mem_cons, List.not_mem_nil, or_false] at member
        rcases member with rfl | rfl | rfl | rfl <;> rw [UInt8.toNat_ofNat'] at ascii <;> omega

theorem mem_encodeUnit {unit : UInt16} {byte : UInt8} (member : byte ∈ encodeUnit unit) (ascii : byte.toNat < 0x80)
    (other : byte ≠ 63) : byte.toUInt16 = unit := by
  unfold encodeUnit at member
  split at member
  · exact absurd (List.mem_singleton.mp member) other
  · have bound := unit.toNat_lt
    rw [← UInt16.toNat_inj, UInt8.toNat_toUInt16]
    exact mem_encodePoint (by omega) member ascii

/-- An ASCII byte of the encoding, unless it is a question mark, is a character of the text. -/
theorem mem_of_mem_utf8 {text : Utf16} {byte : UInt8} (member : byte ∈ utf8 text) (ascii : byte.toNat < 0x80)
    (other : byte ≠ 63) : byte.toUInt16 ∈ text := by
  induction text using utf8.induct with
  | case1 => cases member
  | case2 unit => exact List.mem_singleton.mpr (mem_encodeUnit member ascii other)
  | case3 high low rest pair ih =>
    rw [utf8, if_pos pair] at member
    rcases List.mem_append.mp member with here | later
    · simp only [isHigh, isLow, Bool.and_eq_true, decide_eq_true_eq] at pair
      have same := mem_encodePoint (by omega) here ascii
      omega
    · exact List.mem_cons_of_mem _ (List.mem_cons_of_mem _ (ih later))
  | case4 first next rest apart ih =>
    rw [utf8, if_neg apart] at member
    rcases List.mem_append.mp member with here | later
    · rw [mem_encodeUnit here ascii other]
      exact List.mem_cons_self
    · exact List.mem_cons_of_mem _ (ih later)

end Encode

section Decode

variable {state : Decoder} {byte : UInt8}

theorem Decoder.feed_ascii (state : Decoder) (ascii : byte.toNat < 0x80) :
    state.feed byte.toNat = (state.flush ++ [byte.toUInt16], .start) := by
  have unit : UInt16.ofNat byte.toNat = byte.toUInt16 := by simp
  have first : begin byte.toNat = ([byte.toUInt16], .start) := by rw [begin, if_pos ascii, unit]
  cases state with
  | start => exact first
  | more point low high left => rw [feed, if_neg (by omega), first]; rfl

/-- An ASCII byte cuts what is read, whatever stands before it. -/
theorem Decoder.read_cut (front : Bytes) (back : Bytes) (ascii : byte.toNat < 0x80) :
    state.read (front ++ byte :: back) = state.read front ++ byte.toUInt16 :: ofUtf8 back := by
  induction front generalizing state with
  | nil => simp [read, feed_ascii state ascii, ofUtf8]
  | cons first rest ih => simp [read, ih]

theorem ofUtf8_cut (front back : Bytes) (ascii : byte.toNat < 0x80) :
    ofUtf8 (front ++ byte :: back) = ofUtf8 front ++ byte.toUInt16 :: ofUtf8 back :=
  Decoder.read_cut front back ascii

theorem ofUtf8_ascii {bytes : Bytes} (ascii : ∀ byte ∈ bytes, byte.toNat < 0x80) : ofUtf8 bytes = widen bytes := by
  induction bytes with
  | nil => rfl
  | cons byte rest ih =>
    have cut := ofUtf8_cut [] rest (ascii byte List.mem_cons_self)
    rw [List.nil_append] at cut
    rw [cut, ih (fun other member => ascii other (List.mem_cons_of_mem byte member))]
    rfl

/-- What the decoder has begun will not come out as an ASCII character. -/
def Decoder.Wide : Decoder → Prop
  | .start => True
  | .more point low _ left => 0x80 ≤ (point * 64 + (low - 0x80)) * 64 ^ left

theorem units_wide {point : Nat} {unit : UInt16} (wide : 0x80 ≤ point) (member : unit ∈ units point) :
    0x80 ≤ unit.toNat := by
  unfold units at member
  split at member
  · rw [List.mem_singleton.mp member]
    decide
  · split at member
    · rw [List.mem_singleton.mp member, UInt16.toNat_ofNat']
      omega
    · simp only [List.mem_cons, List.not_mem_nil, or_false] at member
      rcases member with rfl | rfl <;> rw [UInt16.toNat_ofNat'] <;> omega

theorem Decoder.begin_wide (byte : Nat) : (begin byte).2.Wide ∧
    ∀ unit ∈ (begin byte).1, unit.toNat < 0x80 → unit.toNat = byte := by
  have other : ¬ replacement.toNat < 0x80 := by decide
  unfold begin
  split
  · refine ⟨trivial, fun unit member _ => ?_⟩
    rw [List.mem_singleton.mp member, UInt16.toNat_ofNat']
    omega
  · split
    · exact ⟨trivial, by simp [other]⟩
    · split
      · exact ⟨by simp only [Wide]; omega, by simp⟩
      · split
        · exact ⟨by simp only [Wide]; split <;> omega, by simp⟩
        · split
          · exact ⟨by simp only [Wide]; split <;> omega, by simp⟩
          · exact ⟨trivial, by simp [other]⟩

theorem Decoder.Wide.feed (wide : state.Wide) (byte : Nat) : (state.feed byte).2.Wide ∧
    ∀ unit ∈ (state.feed byte).1, unit.toNat < 0x80 → unit.toNat = byte := by
  have other : ¬ replacement.toNat < 0x80 := by decide
  cases state with
  | start => exact begin_wide byte
  | more point low high left =>
    rw [Decoder.feed]
    split
    · rename_i inside
      have grown : 0x80 ≤ (point * 64 + (byte - 0x80)) * 64 ^ left :=
        Nat.le_trans wide (Nat.mul_le_mul_right _ (by omega))
      cases left with
      | zero =>
        rw [Nat.pow_zero, Nat.mul_one] at grown
        refine ⟨trivial, fun unit member small => ?_⟩
        simp only [extend] at member
        have bound := units_wide grown member
        omega
      | succ left => exact ⟨by simpa [extend, Wide, Nat.pow_succ', Nat.mul_assoc] using grown, by simp [extend]⟩
    · obtain ⟨next, ascii⟩ := begin_wide byte
      refine ⟨next, fun unit member small => ?_⟩
      rcases List.mem_cons.mp member with rfl | member
      · exact absurd small other
      · exact ascii unit member small

/-- An ASCII character of what was read was there as a byte. -/
theorem mem_of_mem_ofUtf8 {bytes : Bytes} {unit : UInt16} (member : unit ∈ ofUtf8 bytes) (ascii : unit.toNat < 0x80) :
    ∃ byte ∈ bytes, byte.toUInt16 = unit := by
  have walk : ∀ (bytes : Bytes) (state : Decoder), state.Wide → unit ∈ state.read bytes →
      ∃ byte ∈ bytes, byte.toUInt16 = unit := by
    intro bytes
    induction bytes with
    | nil =>
      intro state _ member
      cases state with
      | start => cases member
      | more => simp [List.mem_singleton.mp member, replacement] at ascii
    | cons byte rest ih =>
      intro state wide member
      obtain ⟨next, here⟩ := wide.feed byte.toNat
      rcases List.mem_append.mp member with now | later
      · refine ⟨byte, List.mem_cons_self, ?_⟩
        rw [← UInt16.toNat_inj, UInt8.toNat_toUInt16, here unit now ascii]
      · obtain ⟨found, present, same⟩ := ih _ next later
        exact ⟨found, List.mem_cons_of_mem byte present, same⟩
  exact walk bytes .start trivial member

/-- What the decoder has begun comes out first, as no ASCII character. -/
theorem Decoder.read_more {point low high left : Nat} (wide : (more point low high left).Wide) (bytes : Bytes) :
    ∃ unit rest, (more point low high left).read bytes = unit :: rest ∧ 0x80 ≤ unit.toNat := by
  induction bytes generalizing point low high left with
  | nil => exact ⟨replacement, [], rfl, by decide⟩
  | cons byte rest ih =>
    obtain ⟨next, here⟩ := wide.feed byte.toNat
    rw [read]
    rw [feed] at next here ⊢
    split
    · rename_i inside
      rw [if_pos inside] at next
      cases left with
      | zero =>
        have grown : 0x80 ≤ point * 64 + (byte.toNat - 0x80) := by
          simp only [Wide, Nat.pow_zero, Nat.mul_one] at wide
          omega
        cases shape : units (point * 64 + (byte.toNat - 0x80)) with
        | nil =>
          unfold units at shape
          split at shape
          · cases shape
          · split at shape <;> cases shape
        | cons unit others =>
          refine ⟨unit, others ++ start.read rest, by rw [extend, shape]; rfl, ?_⟩
          exact units_wide grown (shape ▸ List.mem_cons_self)
      | succ left => exact ih next
    · exact ⟨replacement, _, rfl, by decide⟩

/-- A text of ASCII characters only was read from the same bytes. -/
theorem eq_of_ofUtf8_eq_widen {bytes text : Bytes} (ascii : ∀ byte ∈ text, byte.toNat < 0x80)
    (same : ofUtf8 bytes = widen text) : bytes = text := by
  induction bytes generalizing text with
  | nil =>
    cases text with
    | nil => rfl
    | cons => cases same
  | cons byte rest ih =>
    by_cases small : byte.toNat < 0x80
    · have cut := ofUtf8_cut [] rest small
      rw [List.nil_append] at cut
      rw [cut] at same
      cases text with
      | nil => cases same
      | cons first others =>
        obtain ⟨head, tail⟩ := List.cons.inj same
        rw [UInt8.toUInt16_inj.mp head, ih (fun other member => ascii other (List.mem_cons_of_mem first member)) tail]
    · -- a byte above the range would show in the text
      exfalso
      have shown : ∃ unit others, ofUtf8 (byte :: rest) = unit :: others ∧ 0x80 ≤ unit.toNat := by
        obtain ⟨wide, -⟩ := Decoder.begin_wide byte.toNat
        rw [ofUtf8, Decoder.read, Decoder.feed]
        unfold Decoder.begin at wide ⊢
        rw [if_neg small] at wide ⊢
        repeat' split
        all_goals first
          | exact ⟨replacement, _, rfl, by decide⟩
          | simp_all only [↓reduceIte]; exact Decoder.read_more wide rest
      obtain ⟨unit, others, shape, large⟩ := shown
      rw [shape] at same
      cases text with
      | nil => cases same
      | cons first left =>
        have bound := ascii first List.mem_cons_self
        rw [(List.cons.inj same).1, UInt8.toNat_toUInt16] at large
        omega

theorem not_mem_ofUtf8 {bytes : Bytes} (ascii : byte.toNat < 0x80) (clean : byte ∉ bytes) :
    byte.toUInt16 ∉ ofUtf8 bytes := by
  intro member
  obtain ⟨other, present, same⟩ := mem_of_mem_ofUtf8 member (by simpa using ascii)
  obtain rfl := UInt8.toUInt16_inj.mp same
  exact clean present

theorem ofUtf8_intercalate (pieces : List Bytes) (ascii : byte.toNat < 0x80) :
    ofUtf8 ([byte].intercalate pieces) = [byte.toUInt16].intercalate (pieces.map ofUtf8) := by
  induction pieces with
  | nil => rfl
  | cons first rest ih =>
    cases rest with
    | nil => simp
    | cons second others =>
      rw [List.intercalate_cons_cons, List.append_assoc, List.singleton_append, ofUtf8_cut _ _ ascii, ih]
      simp

/-- Cutting at an ASCII byte commutes with reading. -/
theorem splitOn_ofUtf8 (text : Bytes) (ascii : byte.toNat < 0x80) :
    (ofUtf8 text).splitOn byte.toUInt16 = (text.splitOn byte).map ofUtf8 := by
  have whole : [byte].intercalate (text.splitOn byte) = text := List.intercalate_splitOn byte
  conv_lhs => rw [← whole, ofUtf8_intercalate _ ascii]
  rw [List.splitOn_intercalate]
  · intro piece member
    obtain ⟨bytes, present, rfl⟩ := List.mem_map.mp member
    exact not_mem_ofUtf8 ascii (Bytes.mem_splitOn present).1
  · simp

end Decode

section RoundTrip

/-- The code points of characters are those that are no surrogates. -/
theorem char_scalar (letter : Char) :
    letter.toNat < 0xD800 ∨ 0xE000 ≤ letter.toNat ∧ letter.toNat < 0x110000 := by
  have valid := letter.valid
  simp only [UInt32.isValidChar, Nat.isValidChar] at valid
  rcases valid with low | ⟨above, below⟩
  · exact .inl low
  · exact .inr ⟨above, below⟩

theorem Decoder.feed_more {point low high left byte : Nat} (inside : 0x80 ≤ byte ∧ low ≤ byte ∧ byte < high) :
    (more point low high left).feed byte = extend (point * 64 + (byte - 0x80)) left := by
  rw [feed, if_pos inside]

/-- The decoder reads a code point back from its encoding, and stands between characters. -/
theorem ofUtf8_encodePoint (letter : Char) (rest : Bytes) :
    ofUtf8 (encodePoint letter.toNat ++ rest) = units letter.toNat ++ ofUtf8 rest := by
  have scalar := char_scalar letter
  generalize letter.toNat = point at scalar ⊢
  have byte : ∀ value, value < 256 → (UInt8.ofNat value).toNat = value := by
    intro value small
    rw [UInt8.toNat_ofNat', Nat.mod_eq_of_lt small]
  unfold encodePoint
  split
  · rename_i one
    have single : units point = [(UInt8.ofNat point).toUInt16] := by
      rw [units, if_neg (by omega), if_pos (by omega), List.cons.injEq, ← UInt16.toNat_inj, UInt8.toNat_toUInt16,
        byte point (by omega), UInt16.toNat_ofNat', Nat.mod_eq_of_lt (by omega)]
      exact ⟨rfl, rfl⟩
    rw [single]
    exact ofUtf8_cut [] rest (by rw [byte point (by omega)]; exact one)
  · split
    · simp only [ofUtf8, List.cons_append, List.nil_append, Decoder.read]
      rw [byte _ (by omega), byte _ (by omega)]
      have first : Decoder.start.feed (0xC0 + point / 64) = ([], .more (point / 64) 0x80 0xC0 0) := by
        rw [Decoder.feed, Decoder.begin, if_neg (by omega), if_neg (by omega), if_pos (by omega),
          Nat.add_sub_cancel_left]
      rw [first]
      simp only
      rw [Decoder.feed_more (by omega), show point / 64 * 64 + (0x80 + point % 64 - 0x80) = point by omega]
      rfl
    · split
      · simp only [ofUtf8, List.cons_append, List.nil_append, Decoder.read]
        rw [byte _ (by omega), byte _ (by omega), byte _ (by omega)]
        have first : Decoder.start.feed (0xE0 + point / 4096) =
            ([], .more (point / 4096) (if 0xE0 + point / 4096 = 0xE0 then 0xA0 else 0x80) 0xC0 1) := by
          rw [Decoder.feed, Decoder.begin, if_neg (by omega), if_neg (by omega), if_neg (by omega), if_pos (by omega),
            Nat.add_sub_cancel_left]
        rw [first]
        simp only
        rw [Decoder.feed_more (by split <;> omega)]
        simp only [Decoder.extend]
        rw [Decoder.feed_more (by omega), show (point / 4096 * 64 + (0x80 + point / 64 % 64 - 0x80)) * 64 +
          (0x80 + point % 64 - 0x80) = point by omega]
        rfl
      · simp only [ofUtf8, List.cons_append, List.nil_append, Decoder.read]
        rw [byte _ (by omega), byte _ (by omega), byte _ (by omega), byte _ (by omega)]
        have first : Decoder.start.feed (0xF0 + point / 262144) =
            ([], .more (point / 262144) (if 0xF0 + point / 262144 = 0xF0 then 0x90 else 0x80)
              (if 0xF0 + point / 262144 = 0xF4 then 0x90 else 0xC0) 2) := by
          rw [Decoder.feed, Decoder.begin, if_neg (by omega), if_neg (by omega), if_neg (by omega), if_neg (by omega),
            if_pos (by omega), Nat.add_sub_cancel_left]
        rw [first]
        simp only
        rw [Decoder.feed_more (by split <;> split <;> omega)]
        simp only [Decoder.extend]
        rw [Decoder.feed_more (by omega)]
        simp only [Decoder.extend]
        rw [Decoder.feed_more (by omega), show ((point / 262144 * 64 + (0x80 + point / 4096 % 64 - 0x80)) * 64 +
          (0x80 + point / 64 % 64 - 0x80)) * 64 + (0x80 + point % 64 - 0x80) = point by omega]
        rfl

/-- The bytes are the encoding of some text. -/
def ValidUtf8 (bytes : Bytes) : Prop :=
  ∃ letters : List Char, bytes = letters.flatMap (fun letter => encodePoint letter.toNat)

theorem ofUtf8_encode (letters : List Char) :
    ofUtf8 (letters.flatMap (fun letter => encodePoint letter.toNat)) =
      letters.flatMap (fun letter => units letter.toNat) := by
  induction letters with
  | nil => rfl
  | cons letter rest ih => rw [List.flatMap_cons, List.flatMap_cons, ofUtf8_encodePoint, ih]

theorem utf8_units (letter : Char) (rest : Utf16) :
    utf8 (units letter.toNat ++ rest) = encodePoint letter.toNat ++ utf8 rest := by
  have scalar := char_scalar letter
  generalize letter.toNat = point at scalar ⊢
  have unit : ∀ value, value < 0x10000 → (UInt16.ofNat value).toNat = value := by
    intro value small
    rw [UInt16.toNat_ofNat', Nat.mod_eq_of_lt small]
  rw [units, if_neg (by omega)]
  split
  · rename_i small
    have alone : isHigh (.ofNat point) = false ∧ isLow (.ofNat point) = false := by
      simp only [isHigh, isLow, unit point small, Bool.and_eq_false_iff, decide_eq_false_iff_not]
      omega
    rw [List.singleton_append, utf8_cons rest alone.1, encodeUnit, alone.1, alone.2, unit point small]
    rfl
  · have high := unit (0xD800 + (point - 0x10000) / 1024 % 1024) (by omega)
    have low := unit (0xDC00 + (point - 0x10000) % 1024) (by omega)
    have pair : (isHigh (.ofNat (0xD800 + (point - 0x10000) / 1024 % 1024)) &&
        isLow (.ofNat (0xDC00 + (point - 0x10000) % 1024))) = true := by
      simp only [isHigh, isLow, high, low, Bool.and_eq_true, decide_eq_true_eq]
      omega
    have joined : 0x10000 + (0xD800 + (point - 0x10000) / 1024 % 1024 - 0xD800) * 1024 +
        (0xDC00 + (point - 0x10000) % 1024 - 0xDC00) = point := by omega
    rw [List.cons_append, List.singleton_append, utf8, if_pos pair, high, low, joined]

theorem utf8_encode (letters : List Char) :
    utf8 (letters.flatMap (fun letter => units letter.toNat)) =
      letters.flatMap (fun letter => encodePoint letter.toNat) := by
  induction letters with
  | nil => rfl
  | cons letter rest ih => rw [List.flatMap_cons, List.flatMap_cons, utf8_units, ih]

/-- Valid bytes survive being read and written back. -/
theorem ValidUtf8.utf8_ofUtf8 {bytes : Bytes} (valid : ValidUtf8 bytes) : utf8 (ofUtf8 bytes) = bytes := by
  obtain ⟨letters, rfl⟩ := valid
  rw [ofUtf8_encode, utf8_encode]

theorem ValidUtf8.append {front back : Bytes} (first : ValidUtf8 front) (second : ValidUtf8 back) :
    ValidUtf8 (front ++ back) := by
  obtain ⟨letters, rfl⟩ := first
  obtain ⟨others, rfl⟩ := second
  exact ⟨letters ++ others, by rw [List.flatMap_append]⟩

theorem validUtf8_encodePoint {point : Nat} (scalar : point < 0xD800 ∨ 0xE000 ≤ point ∧ point < 0x110000) :
    ValidUtf8 (encodePoint point) := by
  have valid : point.isValidChar := by
    rcases scalar with low | ⟨above, below⟩
    · exact .inl low
    · exact .inr ⟨by omega, below⟩
  refine ⟨[Char.ofNatAux point valid], ?_⟩
  rw [List.flatMap_singleton]
  rfl

theorem validUtf8_encodeUnit (unit : UInt16) : ValidUtf8 (encodeUnit unit) := by
  have bound := unit.toNat_lt
  unfold encodeUnit
  split
  · exact ⟨['?'], by decide⟩
  · rename_i whole
    simp only [isHigh, isLow, Bool.or_eq_true, Bool.and_eq_true, decide_eq_true_eq] at whole
    exact validUtf8_encodePoint (by omega)

/-- Whatever the text, its bytes are valid. -/
theorem validUtf8_utf8 (text : Utf16) : ValidUtf8 (utf8 text) := by
  induction text using utf8.induct with
  | case1 => exact ⟨[], rfl⟩
  | case2 unit => exact validUtf8_encodeUnit unit
  | case3 unit next rest pair ih =>
    rw [utf8, if_pos pair]
    simp only [isHigh, isLow, Bool.and_eq_true, decide_eq_true_eq] at pair
    exact (validUtf8_encodePoint (by omega)).append ih
  | case4 unit next rest single ih =>
    rw [utf8, if_neg single]
    exact (validUtf8_encodeUnit unit).append ih

theorem utf8_ofUtf8_iff {bytes : Bytes} : utf8 (ofUtf8 bytes) = bytes ↔ ValidUtf8 bytes := by
  constructor
  · intro same
    rw [← same]
    exact validUtf8_utf8 _
  · exact ValidUtf8.utf8_ofUtf8

instance (bytes : Bytes) : Decidable (ValidUtf8 bytes) := decidable_of_iff _ utf8_ofUtf8_iff

end RoundTrip

end Utf16

end MiniDynamo
