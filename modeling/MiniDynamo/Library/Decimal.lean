import Mathlib.Data.Nat.Digits.Defs
import MiniDynamo.Library.Bytes

/-! Decimal numbers as the C++ standard library writes and reads them. -/

namespace MiniDynamo

/-- `operator<<` and `std::to_string` on an unsigned integer. -/
def decimal (value : Nat) : Bytes :=
  (Nat.toDigits 10 value).map (fun letter => UInt8.ofNat letter.toNat)

/-- `isspace` in the C locale. -/
def isSpace (byte : UInt8) : Bool := byte == 32 || (9 ≤ byte && byte ≤ 13)

def isDigit (byte : UInt8) : Bool := 48 ≤ byte && byte ≤ 57

def digitsValue (digits : Bytes) : Nat :=
  digits.foldl (fun value digit => 10 * value + (digit.toNat - 48)) 0

/-- The sign and the digits `strtol` and `strtoull` see: white space is skipped,
one sign is taken, and the digits end at the first other byte. -/
def scanNumber (text : Bytes) : Bool × Bytes :=
  match text.dropWhile isSpace with
  | 45 :: rest => (true, rest.takeWhile isDigit)
  | 43 :: rest => (false, rest.takeWhile isDigit)
  | rest => (false, rest.takeWhile isDigit)

/-- `std::stoull`. Both exceptions, no digits and a value past `ULLONG_MAX`, are
`none`; a minus sign negates modulo 2^64, as `strtoull` does. -/
def stoull (text : Bytes) : Option UInt64 :=
  let (negative, digits) := scanNumber text
  if digits = [] then none
  else if 2 ^ 64 ≤ digitsValue digits then none
  else some (if negative then 0 - UInt64.ofNat (digitsValue digits) else UInt64.ofNat (digitsValue digits))

/-- `std::stoi`. Both exceptions, no digits and a value outside `int`, are `none`. -/
def stoi (text : Bytes) : Option Int :=
  let (negative, digits) := scanNumber text
  let value : Int := if negative then -(digitsValue digits : Int) else digitsValue digits
  if digits = [] then none
  else if value < -(2 ^ 31) ∨ 2 ^ 31 ≤ value then none
  else some value

private theorem isDigit_bounds {letter : Char} (digit : letter.isDigit = true) :
    48 ≤ letter.toNat ∧ letter.toNat ≤ 57 := by
  simp only [Char.isDigit, Bool.and_eq_true, decide_eq_true_eq, ge_iff_le, UInt32.le_iff_toNat_le] at digit
  exact digit

theorem mem_decimal {value : Nat} {byte : UInt8} (member : byte ∈ decimal value) :
    48 ≤ byte.toNat ∧ byte.toNat ≤ 57 := by
  obtain ⟨letter, present, same⟩ := List.mem_map.mp member
  have digit := Nat.isDigit_of_mem_toDigits (b := 10) (by omega) (by omega) present
  have bounds := isDigit_bounds digit
  subst byte
  rw [UInt8.toNat_ofNat', Nat.mod_eq_of_lt (by omega)]
  exact bounds

theorem decimal_isDigit {value : Nat} {byte : UInt8} (member : byte ∈ decimal value) :
    isDigit byte = true := by
  have bounds := mem_decimal member
  simp [isDigit, UInt8.le_iff_toNat_le, bounds]

theorem decimal_ne_nil (value : Nat) : decimal value ≠ [] := by
  simp [decimal, Nat.toDigits_ne_nil]

private theorem digitsValue_fold (letters : List Char) (small : ∀ letter ∈ letters, letter.toNat < 256)
    (value : Nat) :
    (letters.map (fun letter => UInt8.ofNat letter.toNat)).foldl
      (fun value digit => 10 * value + (digit.toNat - 48)) value = Nat.ofDigitChars 10 letters value := by
  induction letters generalizing value with
  | nil => simp
  | cons letter rest ih =>
    have bound := small letter (by simp)
    rw [List.map_cons, List.foldl_cons, Nat.ofDigitChars_cons,
      ih (fun other member => small other (by simp [member])),
      UInt8.toNat_ofNat', Nat.mod_eq_of_lt (by simpa using bound)]
    rfl

theorem digitsValue_decimal (value : Nat) : digitsValue (decimal value) = value := by
  have small : ∀ letter ∈ Nat.toDigits 10 value, letter.toNat < 256 := by
    intro letter present
    have bounds := isDigit_bounds (Nat.isDigit_of_mem_toDigits (b := 10) (by omega) (by omega) present)
    omega
  rw [digitsValue, decimal, digitsValue_fold _ small, Nat.ofDigitChars_ten_toDigits]

theorem decimal_clean {value : Nat} {delim : UInt8} (outside : isDigit delim = false) :
    delim ∉ decimal value := by
  intro member
  simp [decimal_isDigit member] at outside

/-- A text of digits is scanned as a whole. -/
theorem scanNumber_digits {text : Bytes} (digits : ∀ byte ∈ text, isDigit byte = true) :
    scanNumber text = (false, text) := by
  have all : text.takeWhile isDigit = text := List.takeWhile_eq_self_iff.mpr digits
  cases text with
  | nil => rfl
  | cons first rest =>
    have bounds : 48 ≤ first.toNat ∧ first.toNat ≤ 57 := by
      simpa [isDigit, UInt8.le_iff_toNat_le] using digits first List.mem_cons_self
    have notSpace : isSpace first = false := by
      simp only [isSpace, Bool.or_eq_false_iff, beq_eq_false_iff_ne, Bool.and_eq_false_iff,
        decide_eq_false_iff_not, UInt8.le_iff_toNat_le]
      refine ⟨?_, Or.inr ?_⟩
      · intro same
        simp [same] at bounds
      · simpa using (show 13 < first.toNat by omega)
    rw [scanNumber, List.dropWhile_cons_of_neg (by simp [notSpace])]
    split
    · rename_i same
      cases same
      simp at bounds
    · rename_i same
      cases same
      simp at bounds
    · rename_i same
      rw [all]

theorem length_decimal_le {value digits : Nat} (some : 0 < digits) (small : value < 10 ^ digits) :
    (decimal value).length ≤ digits := by
  rw [decimal, List.length_map]
  exact Nat.toDigits_length 10 value digits some small

theorem scanNumber_decimal (value : Nat) : scanNumber (decimal value) = (false, decimal value) :=
  scanNumber_digits (fun _ member => decimal_isDigit member)

/-- Digits alone are read as their value, if it is a number of 64 bits. -/
theorem stoull_digits {text : Bytes} (digits : ∀ byte ∈ text, isDigit byte = true) (some : text ≠ []) (value : UInt64) :
    stoull text = Option.some value ↔ digitsValue text = value.toNat := by
  simp only [stoull, scanNumber_digits digits, some, Bool.false_eq_true, ↓reduceIte]
  split
  · rename_i large
    have small : value.toNat < 2 ^ 64 := value.toNat_lt
    exact iff_of_false (by simp) (by omega)
  · rename_i small
    rw [Option.some.injEq, ← UInt64.toNat_inj, UInt64.toNat_ofNat', Nat.mod_eq_of_lt (Nat.lt_of_not_le small)]

theorem stoi_decimal {value : Nat} (small : value < 2 ^ 31) : stoi (decimal value) = some (value : Int) := by
  simp only [stoi, scanNumber_decimal, decimal_ne_nil, digitsValue_decimal, Bool.false_eq_true, ↓reduceIte]
  rw [if_neg (by omega)]

/-- Every 64-bit number survives being written and read back. -/
theorem stoull_decimal (value : UInt64) : stoull (decimal value.toNat) = some value := by
  have small : value.toNat < 2 ^ 64 := value.toNat_lt
  simpa [stoull, scanNumber_decimal, decimal_ne_nil, digitsValue_decimal] using small

end MiniDynamo
