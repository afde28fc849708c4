import MiniDynamo.Codec.Base64
import MiniDynamo.Gateway.JavaText

/-! `java.util.Base64`, basic scheme: the encoder pads, the decoder takes what the cluster's
encoder writes and refuses what is not in the alphabet. -/

namespace MiniDynamo.Gateway.JavaBase64

open Utf16

def toBase64 : Utf16 := text "ABCDEFGHIJKLMNOPQRSTUVWXYZabcdefghijklmnopqrstuvwxyz0123456789+/"

def padding : UInt16 := 61

def symbol (value : Nat) : UInt16 := toBase64.getD (value % 64) 0

def encode : Bytes → Utf16
  | first :: second :: third :: rest =>
    let bits := first.toNat * 65536 + second.toNat * 256 + third.toNat
    symbol (bits / 262144) :: symbol (bits / 4096) :: symbol (bits / 64) :: symbol bits :: encode rest
  | [first, second] =>
    [symbol (first.toNat / 4), symbol (first.toNat * 16 + second.toNat / 16), symbol (second.toNat * 4), padding]
  | [first] => [symbol (first.toNat / 4), symbol (first.toNat * 16), padding, padding]
  | [] => []

/-- `fromBase64`: the value of a symbol. -/
def fromBase64 (unit : UInt16) : Option Nat := toBase64.idxOf? unit

/-- The decoding loop, with the symbols of a group read so far as a number, and their count. A
group may end without its padding. -/
def decodeFrom (bits count : Nat) : Utf16 → Option Bytes
  | [] =>
    if count = 0 then some []
    else if count = 2 then some [.ofNat (bits / 16)]
    else if count = 3 then some [.ofNat (bits / 1024), .ofNat (bits / 4)]
    else none
  | unit :: rest =>
    if unit = padding then
      if count = 2 ∧ rest = [padding] then some [.ofNat (bits / 16)]
      else if count = 3 ∧ rest = [] then some [.ofNat (bits / 1024), .ofNat (bits / 4)]
      else none
    else
      match fromBase64 unit with
      | none => none
      | some value =>
        if count = 3 then
          let bits := bits * 64 + value
          (decodeFrom 0 0 rest).map ([.ofNat (bits / 65536), .ofNat (bits / 256), .ofNat bits] ++ ·)
        else decodeFrom (bits * 64 + value) (count + 1) rest

/-- `decode`, where `none` is the `IllegalArgumentException`. -/
def decode (string : Utf16) : Option Bytes := decodeFrom 0 0 string

theorem toBase64_eq : toBase64 = Base64.kAlphabet.map UInt8.toUInt16 := rfl

theorem fromBase64_symbol (value : Nat) : fromBase64 (symbol value) = some (value % 64) ∧ symbol value ≠ padding := by
  have table : ∀ index < 64, fromBase64 (toBase64.getD index 0) = some index ∧ toBase64.getD index 0 ≠ padding := by
    simp only [fromBase64, toBase64_eq, Base64.kAlphabet_eq]
    decide +kernel
  exact table (value % 64) (Nat.mod_lt _ (by decide))

/-- The cluster's symbols are the gateway's. -/
theorem symbol_eq (n shift : UInt32) (small : shift.toNat < 32) :
    (Base64.symbol n shift).toUInt16 = symbol (n.toNat / 2 ^ shift.toNat) := by
  have same : ∀ index < 64, (Base64.kAlphabet.getD index 0).toUInt16 = toBase64.getD index 0 := by
    simp only [toBase64_eq, Base64.kAlphabet_eq]
    decide +kernel
  rw [Base64.symbol, Base64.mask_toNat, UInt32.toNat_shiftRight, Nat.mod_eq_of_lt small, Nat.shiftRight_eq_div_pow]
  exact same _ (Nat.mod_lt _ (by decide))

theorem symbol_congr (left right : Nat) (same : left % 64 = right % 64) : symbol left = symbol right := by
  rw [symbol, symbol, same]

/-- Both sides write a value the same way. -/
theorem widen_encode (raw : Bytes) : widen (Base64.encode raw) = encode raw := by
  have rest : ∀ (byte : UInt8) (bytes : Bytes), widen (byte :: bytes) = byte.toUInt16 :: widen bytes := fun _ _ => rfl
  have padded : Base64.pad.toUInt16 = padding := rfl
  induction raw using Base64.encode.induct with
  | case1 first second third bytes ih =>
    have value := Base64.group_toNat first second third
    rw [Base64.encode, encode, rest, rest, rest, rest, ih]
    rw [symbol_eq _ 18 (by decide), symbol_eq _ 12 (by decide), symbol_eq _ 6 (by decide), symbol_eq _ 0 (by decide),
      value]
    simp only [UInt32.reduceToNat, Nat.reducePow, Nat.div_one]
  | case2 first second =>
    have bound := second.toNat_lt
    rw [Base64.encode, encode, rest, rest, rest, rest, padded]
    rw [symbol_eq _ 18 (by decide), symbol_eq _ 12 (by decide), symbol_eq _ 6 (by decide),
      Base64.pair_toNat]
    simp only [UInt32.reduceToNat, Nat.reducePow]
    rw [symbol_congr ((first.toNat * 65536 + second.toNat * 256) / 262144) (first.toNat / 4) (by omega),
      symbol_congr ((first.toNat * 65536 + second.toNat * 256) / 4096) (first.toNat * 16 + second.toNat / 16) (by omega),
      symbol_congr ((first.toNat * 65536 + second.toNat * 256) / 64) (second.toNat * 4) (by omega)]
    rfl
  | case3 first =>
    rw [Base64.encode, encode, rest, rest, rest, rest, padded]
    rw [symbol_eq _ 18 (by decide), symbol_eq _ 12 (by decide), Base64.single_toNat]
    simp only [UInt32.reduceToNat, Nat.reducePow]
    rw [symbol_congr (first.toNat * 65536 / 262144) (first.toNat / 4) (by omega),
      symbol_congr (first.toNat * 65536 / 4096) (first.toNat * 16) (by omega)]
    rfl
  | case4 => rfl

private theorem read_symbol {bits count : Nat} (value : Nat) (rest : Utf16) (early : count ≠ 3) :
    decodeFrom bits count (symbol value :: rest) = decodeFrom (bits * 64 + value % 64) (count + 1) rest := by
  obtain ⟨read, other⟩ := fromBase64_symbol value
  rw [decodeFrom, if_neg other, read]
  simp only
  rw [if_neg early]

private theorem read_last {bits : Nat} (value : Nat) (rest : Utf16) :
    decodeFrom bits 3 (symbol value :: rest) =
      (decodeFrom 0 0 rest).map ([.ofNat ((bits * 64 + value % 64) / 65536),
        .ofNat ((bits * 64 + value % 64) / 256), .ofNat (bits * 64 + value % 64)] ++ ·) := by
  obtain ⟨read, other⟩ := fromBase64_symbol value
  rw [decodeFrom, if_neg other, read]
  rfl

private theorem ofNat_byte (byte : UInt8) {value : Nat} (same : value % 256 = byte.toNat) :
    UInt8.ofNat value = byte := by
  apply UInt8.toNat_inj.mp
  rw [UInt8.toNat_ofNat', same]

theorem decode_encode (raw : Bytes) : decode (encode raw) = some raw := by
  unfold decode
  induction raw using encode.induct with
  | case1 first second third bytes ih =>
    have one := first.toNat_lt
    have two := second.toNat_lt
    have three := third.toNat_lt
    rw [encode, read_symbol _ _ (by decide), read_symbol _ _ (by decide), read_symbol _ _ (by decide), read_last, ih]
    simp only [Option.map_some, List.cons_append, List.nil_append]
    rw [ofNat_byte first (by omega), ofNat_byte second (by omega), ofNat_byte third (by omega)]
  | case2 first second =>
    have one := first.toNat_lt
    have two := second.toNat_lt
    rw [encode, read_symbol _ _ (by decide), read_symbol _ _ (by decide), read_symbol _ _ (by decide), decodeFrom,
      if_pos rfl, if_neg (by simp), if_pos ⟨rfl, rfl⟩]
    rw [ofNat_byte first (by omega), ofNat_byte second (by omega)]
  | case3 first =>
    have one := first.toNat_lt
    rw [encode, read_symbol _ _ (by decide), read_symbol _ _ (by decide), decodeFrom, if_pos rfl, if_pos ⟨rfl, rfl⟩,
      ofNat_byte first (by omega)]
  | case4 => rfl

end MiniDynamo.Gateway.JavaBase64
