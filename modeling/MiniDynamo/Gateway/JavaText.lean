import Mathlib.Data.List.DropRight
import MiniDynamo.Library.Decimal
import MiniDynamo.Library.Unicode

/-! What the gateway does with its strings, as the Java library has it: cutting at a character,
trimming and reading numbers. -/

namespace MiniDynamo.Gateway

open Utf16

/-- A string literal; every literal of the gateway is ASCII. -/
def text (literal : String) : Utf16 := widen (ascii literal)

def bar : UInt16 := 124

def newline : UInt16 := 10

/-- `split("\\|", -1)`: empty fields are kept. -/
def splitBar (string : Utf16) : List Utf16 := string.splitOn bar

/-- `split("\n")`: without a match the string itself, otherwise the parts up to the last one
that is not empty. -/
def splitLines (string : Utf16) : List Utf16 :=
  if newline ∈ string then (string.splitOn newline).rdropWhile (·.isEmpty) else [string]

def trim (string : Utf16) : Utf16 := (string.dropWhile (·.toNat ≤ 32)).rdropWhile (·.toNat ≤ 32)

/-- `Integer.toString`. -/
def toText (value : Int) : Utf16 :=
  if value < 0 then 45 :: widen (decimal value.natAbs) else widen (decimal value.natAbs)

/-- The zeros among the decimal digits that are one `char`; the other nine of each script follow its zero. -/
def zeros : List Nat :=
  [0x30, 0x660, 0x6F0, 0x7C0, 0x966, 0x9E6, 0xA66, 0xAE6, 0xB66, 0xBE6, 0xC66, 0xCE6, 0xD66, 0xDE6, 0xE50, 0xED0, 0xF20,
    0x1040, 0x1090, 0x17E0, 0x1810, 0x1946, 0x19D0, 0x1A80, 0x1A90, 0x1B50, 0x1BB0, 0x1C40, 0x1C50, 0xA620, 0xA8D0,
    0xA900, 0xA9D0, 0xA9F0, 0xAA50, 0xABF0, 0xFF10]

/-- `Character.digit` of a `char` in base ten. -/
def digit (unit : UInt16) : Option Nat :=
  (zeros.find? (fun first => first ≤ unit.toNat ∧ unit.toNat < first + 10)).map (unit.toNat - ·)

def digits (value : Nat) : Utf16 → Option Nat
  | [] => some value
  | unit :: rest => (digit unit).bind (fun next => digits (10 * value + next) rest)

/-- Whether the number is negative, and what follows its sign. -/
def signed : Utf16 → Bool × Utf16
  | [] => (false, [])
  | first :: rest => if first = 45 then (true, rest) else if first = 43 then (false, rest) else (false, first :: rest)

/-- `Integer.parseInt`, where `none` is the `NumberFormatException`. -/
def parseInt (string : Utf16) : Option Int :=
  let (negative, number) := signed string
  if number = [] then none
  else
    (digits 0 number).bind (fun value =>
      let value : Int := if negative then -(value : Int) else value
      if -(2 ^ 31) ≤ value ∧ value < 2 ^ 31 then some value else none)

theorem splitBar_ofUtf8 (bytes : Bytes) : splitBar (ofUtf8 bytes) = (bytes.splitOn 124).map ofUtf8 := by
  have ascii : (124 : UInt8).toNat < 0x80 := by decide
  exact splitOn_ofUtf8 bytes ascii

theorem decimal_ascii {value : Nat} {byte : UInt8} (member : byte ∈ decimal value) : byte.toNat < 0x80 := by
  have bounds := mem_decimal member
  omega

theorem digits_widen (value : Nat) {bytes : Bytes} (all : ∀ byte ∈ bytes, isDigit byte = true) :
    digits value (widen bytes) = some (bytes.foldl (fun value digit => 10 * value + (digit.toNat - 48)) value) := by
  induction bytes generalizing value with
  | nil => rfl
  | cons byte rest ih =>
    have here := all byte List.mem_cons_self
    simp only [isDigit, Bool.and_eq_true, decide_eq_true_eq, UInt8.le_iff_toNat_le] at here
    have read : digit byte.toUInt16 = some (byte.toNat - 48) := by
      have low : 48 ≤ byte.toNat := here.1
      have high : byte.toNat ≤ 57 := here.2
      rw [digit, zeros, UInt8.toNat_toUInt16, List.find?_cons_of_pos (by simp; omega), Option.map_some]
    rw [widen, List.map_cons, digits, read, Option.bind_some]
    exact ih _ (fun other member => all other (List.mem_cons_of_mem byte member))

theorem signed_widen {bytes : Bytes} (all : ∀ byte ∈ bytes, isDigit byte = true) :
    signed (widen bytes) = (false, widen bytes) := by
  cases bytes with
  | nil => rfl
  | cons first rest =>
    have bounds := all first List.mem_cons_self
    simp only [isDigit, Bool.and_eq_true, decide_eq_true_eq, UInt8.le_iff_toNat_le] at bounds
    have low : 48 ≤ first.toNat := bounds.1
    have other : ∀ sign : UInt16, sign.toNat < 48 → first.toUInt16 ≠ sign := by
      rintro sign small rfl
      rw [UInt8.toNat_toUInt16] at small
      omega
    rw [widen, List.map_cons, signed, if_neg (other 45 (by decide)), if_neg (other 43 (by decide))]

/-- A line of digits is a number if it is small enough for an `int`. -/
theorem parseInt_digits {bytes : Bytes} (some : bytes ≠ []) (all : ∀ byte ∈ bytes, isDigit byte = true) :
    parseInt (widen bytes) = if digitsValue bytes < 2 ^ 31 then Option.some (digitsValue bytes : Int) else none := by
  have read : digits 0 (widen bytes) = Option.some (digitsValue bytes) := digits_widen 0 all
  have nonempty : widen bytes ≠ [] := by simpa [widen] using some
  rw [parseInt, signed_widen all]
  dsimp only
  rw [if_neg nonempty, read, Option.bind_some, if_neg Bool.false_ne_true]
  by_cases small : digitsValue bytes < 2 ^ 31
  · rw [if_pos small, if_pos (by omega)]
  · rw [if_neg small, if_neg (by omega)]

theorem parseInt_decimal {value : Nat} (small : value < 2 ^ 31) :
    parseInt (widen (decimal value)) = some (value : Int) := by
  rw [parseInt_digits (decimal_ne_nil value) (fun byte member => decimal_isDigit member), digitsValue_decimal,
    if_pos small]

theorem toText_nonneg {value : Nat} : toText value = widen (decimal value) := by
  simp [toText]

end MiniDynamo.Gateway
