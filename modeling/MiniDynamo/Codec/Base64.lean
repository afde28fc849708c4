import MiniDynamo.Library.Bytes

/-! `base64.cpp`: the encoder's three-byte groups with their padded tail, and the
decoder's 32-bit accumulator, which is never cleared and wraps. -/

namespace MiniDynamo.Base64

def kAlphabet : Bytes := ascii "ABCDEFGHIJKLMNOPQRSTUVWXYZabcdefghijklmnopqrstuvwxyz0123456789+/"

/-- `kAlphabet[(n >> shift) & 0x3F]`. -/
def symbol (n shift : UInt32) : UInt8 := kAlphabet.getD ((n >>> shift) &&& 0x3F).toNat 0

def pad : UInt8 := 61

def encode : Bytes → Bytes
  | first :: second :: third :: rest =>
    let n := (first.toUInt32 <<< 16) ||| (second.toUInt32 <<< 8) ||| third.toUInt32
    symbol n 18 :: symbol n 12 :: symbol n 6 :: symbol n 0 :: encode rest
  | [first, second] =>
    let n := (first.toUInt32 <<< 16) ||| (second.toUInt32 <<< 8)
    [symbol n 18, symbol n 12, symbol n 6, pad]
  | [first] =>
    let n := first.toUInt32 <<< 16
    [symbol n 18, symbol n 12, pad, pad]
  | [] => []

/-- `kDecode`: the six-bit value of a symbol, 0xFF for every other byte. -/
def kDecode (byte : UInt8) : UInt8 :=
  match kAlphabet.idxOf? byte with
  | some index => UInt8.ofNat index
  | none => 0xFF

/-- The decoding loop from a given accumulator and count of unread bits. -/
def decodeFrom (buffer bits : UInt32) : Bytes → Bytes
  | [] => []
  | byte :: rest =>
    let value := kDecode byte
    if value = 0xFF then decodeFrom buffer bits rest
    else
      let buffer := (buffer <<< 6) ||| value.toUInt32
      let bits := bits + 6
      if 8 ≤ bits then
        let bits := bits - 8
        ((buffer >>> bits) &&& 0xFF).toUInt8 :: decodeFrom buffer bits rest
      else decodeFrom buffer bits rest

def decode (encoded : Bytes) : Bytes := decodeFrom 0 0 encoded

/-- The alphabet as bytes, so that what is decided about it does not read the literal again. -/
theorem kAlphabet_eq : kAlphabet =
    [65, 66, 67, 68, 69, 70, 71, 72, 73, 74, 75, 76, 77, 78, 79, 80, 81, 82, 83, 84, 85, 86, 87, 88, 89, 90,
      97, 98, 99, 100, 101, 102, 103, 104, 105, 106, 107, 108, 109, 110, 111, 112, 113, 114, 115, 116, 117, 118, 119,
      120, 121, 122, 48, 49, 50, 51, 52, 53, 54, 55, 56, 57, 43, 47] := by
  simp [kAlphabet, ascii]

private theorem kDecode_kAlphabet : ∀ index < 64,
    kDecode (kAlphabet.getD index 0) = UInt8.ofNat index ∧ UInt8.ofNat index ≠ 0xFF := by
  simp only [kDecode, kAlphabet_eq]
  decide +kernel

theorem kDecode_stray {byte : UInt8} (outside : byte ∉ kAlphabet) : kDecode byte = 0xFF := by
  rw [kDecode, List.idxOf?_eq_none_iff.mpr outside]

theorem kAlphabet_clean : ∀ byte ∈ kAlphabet, byte ≠ 124 ∧ byte ≠ pad ∧ byte.toNat < 0x80 := by
  have table : kAlphabet.all (fun byte => byte ≠ 124 ∧ byte ≠ pad ∧ byte.toNat < 0x80) = true := by
    rw [kAlphabet_eq]
    rfl
  intro byte member
  simpa using List.all_eq_true.mp table byte member

theorem mask_toNat (n shift : UInt32) : ((n >>> shift) &&& 0x3F).toNat = (n >>> shift).toNat % 64 := by
  simpa using Nat.and_two_pow_sub_one_eq_mod (n >>> shift).toNat 6

private theorem symbol_index (n shift : UInt32) : ((n >>> shift) &&& 0x3F).toNat < 64 := by
  rw [mask_toNat]
  exact Nat.mod_lt _ (by decide)

theorem kDecode_symbol (n shift : UInt32) (small : shift.toNat < 32) :
    (kDecode (symbol n shift)).toNat = n.toNat / 2 ^ shift.toNat % 64 ∧ kDecode (symbol n shift) ≠ 0xFF := by
  have index := symbol_index n shift
  obtain ⟨found, inside⟩ := kDecode_kAlphabet _ index
  rw [symbol, found]
  refine ⟨?_, inside⟩
  rw [UInt8.toNat_ofNat', Nat.mod_eq_of_lt (by omega), mask_toNat, UInt32.toNat_shiftRight,
    Nat.mod_eq_of_lt small, Nat.shiftRight_eq_div_pow]

/-- The accumulator after six more bits. -/
def push (buffer : UInt32) (value : UInt8) : UInt32 := (buffer <<< 6) ||| value.toUInt32

/-- Pushing six bits keeps the low 26 bits of the accumulator above them. -/
theorem push_toNat (buffer : UInt32) {value : UInt8} (small : value.toNat < 64) :
    (push buffer value).toNat = buffer.toNat * 64 % 2 ^ 32 + value.toNat := by
  have shifted : (buffer <<< 6).toNat = (buffer.toNat % 2 ^ 26) <<< 6 := by
    simp [UInt32.toNat_shiftLeft, Nat.shiftLeft_eq]
    omega
  rw [push, UInt32.toNat_or, shifted, UInt8.toNat_toUInt32,
    ← Nat.shiftLeft_add_eq_or_of_lt (by simpa using small), Nat.shiftLeft_eq]
  omega

/-- Taking a byte out: eight bits of the accumulator above the unread ones. -/
theorem pull_toNat (buffer bits : UInt32) (small : bits.toNat < 32) :
    ((buffer >>> bits) &&& 0xFF).toUInt8.toNat = buffer.toNat / 2 ^ bits.toNat % 256 := by
  have mask : ((buffer >>> bits) &&& 0xFF).toNat = (buffer >>> bits).toNat % 256 := by
    simpa using Nat.and_two_pow_sub_one_eq_mod (buffer >>> bits).toNat 8
  rw [UInt32.toNat_toUInt8, mask, UInt32.toNat_shiftRight, Nat.mod_eq_of_lt small, Nat.shiftRight_eq_div_pow]
  omega

theorem decodeFrom_skip (buffer bits : UInt32) {byte : UInt8} (outside : kDecode byte = 0xFF) (rest : Bytes) :
    decodeFrom buffer bits (byte :: rest) = decodeFrom buffer bits rest := by
  simp [decodeFrom, outside]

theorem decodeFrom_keep (buffer : UInt32) {byte : UInt8} (inside : kDecode byte ≠ 0xFF) (rest : Bytes) :
    decodeFrom buffer 0 (byte :: rest) = decodeFrom (push buffer (kDecode byte)) 6 rest := by
  simp [decodeFrom, inside, push]

theorem decodeFrom_emit (buffer bits left : UInt32) {byte : UInt8} (inside : kDecode byte ≠ 0xFF)
    (enough : 8 ≤ bits + 6) (remaining : bits + 6 - 8 = left) (rest : Bytes) :
    decodeFrom buffer bits (byte :: rest) =
      ((push buffer (kDecode byte) >>> left) &&& 0xFF).toUInt8 ::
        decodeFrom (push buffer (kDecode byte)) left rest := by
  simp [decodeFrom, inside, enough, remaining, push]

theorem group_toNat (first second third : UInt8) :
    ((first.toUInt32 <<< 16) ||| (second.toUInt32 <<< 8) ||| third.toUInt32).toNat =
      first.toNat * 65536 + second.toNat * 256 + third.toNat := by
  have one := first.toNat_lt
  have two := second.toNat_lt
  have three := third.toNat_lt
  have high : (first.toUInt32 <<< 16).toNat = first.toNat <<< 16 := by
    simp [UInt32.toNat_shiftLeft, Nat.shiftLeft_eq]
    omega
  have middle : (second.toUInt32 <<< 8).toNat = second.toNat <<< 8 := by
    simp [UInt32.toNat_shiftLeft, Nat.shiftLeft_eq]
    omega
  rw [UInt32.toNat_or, UInt32.toNat_or, high, middle, UInt8.toNat_toUInt32, Nat.or_assoc,
    ← Nat.shiftLeft_add_eq_or_of_lt (i := 8) (by simpa using three),
    ← Nat.shiftLeft_add_eq_or_of_lt (i := 16) (by rw [Nat.shiftLeft_eq]; omega),
    Nat.shiftLeft_eq, Nat.shiftLeft_eq]
  omega

theorem pair_toNat (first second : UInt8) : ((first.toUInt32 <<< 16) ||| (second.toUInt32 <<< 8)).toNat =
    first.toNat * 65536 + second.toNat * 256 := by
  simpa using group_toNat first second 0

theorem single_toNat (first : UInt8) : (first.toUInt32 <<< 16).toNat = first.toNat * 65536 := by
  simpa using pair_toNat first 0

section Groups

variable (buffer n : UInt32) (rest : Bytes)

/-- The accumulator after the leading symbols of a group. -/
def pushed1 : UInt32 := push buffer (kDecode (symbol n 18))
def pushed2 : UInt32 := push (pushed1 buffer n) (kDecode (symbol n 12))
def pushed3 : UInt32 := push (pushed2 buffer n) (kDecode (symbol n 6))
def pushed4 : UInt32 := push (pushed3 buffer n) (kDecode (symbol n 0))

private theorem pushed_toNat :
    (pushed2 buffer n).toNat % 4096 = n.toNat / 4096 % 4096 ∧
    (pushed3 buffer n).toNat % 262144 = n.toNat / 64 % 262144 ∧
    (pushed4 buffer n).toNat % 16777216 = n.toNat % 16777216 := by
  have one := (kDecode_symbol n 18 (by decide)).1
  have two := (kDecode_symbol n 12 (by decide)).1
  have three := (kDecode_symbol n 6 (by decide)).1
  have four := (kDecode_symbol n 0 (by decide)).1
  simp only [UInt32.reduceToNat, Nat.reducePow] at one two three four
  have first : (pushed1 buffer n).toNat = _ := push_toNat buffer (by omega)
  have second : (pushed2 buffer n).toNat = _ := push_toNat (pushed1 buffer n) (by omega)
  have third : (pushed3 buffer n).toNat = _ := push_toNat (pushed2 buffer n) (by omega)
  have fourth : (pushed4 buffer n).toNat = _ := push_toNat (pushed3 buffer n) (by omega)
  have secondValue : (pushed2 buffer n).toNat % 4096 = n.toNat / 4096 % 4096 := by omega
  have thirdValue : (pushed3 buffer n).toNat % 262144 = n.toNat / 64 % 262144 := by omega
  exact ⟨secondValue, thirdValue, by omega⟩

/-- Two symbols give the first byte of a group, whatever the accumulator held. -/
theorem decodeFrom_first : decodeFrom buffer 0 (symbol n 18 :: symbol n 12 :: rest) =
    UInt8.ofNat (n.toNat / 65536) :: decodeFrom (pushed2 buffer n) 4 rest := by
  rw [decodeFrom_keep _ (kDecode_symbol n 18 (by decide)).2,
    decodeFrom_emit _ 6 4 (kDecode_symbol n 12 (by decide)).2 (by decide) (by decide)]
  congr 1
  apply UInt8.toNat_inj.mp
  rw [pull_toNat _ _ (by decide), UInt8.toNat_ofNat']
  have value := (pushed_toNat buffer n).1
  simp only [pushed2, pushed1] at value
  simp only [UInt32.reduceToNat]
  omega

theorem decodeFrom_second : decodeFrom (pushed2 buffer n) 4 (symbol n 6 :: rest) =
    UInt8.ofNat (n.toNat / 256) :: decodeFrom (pushed3 buffer n) 2 rest := by
  rw [decodeFrom_emit _ 4 2 (kDecode_symbol n 6 (by decide)).2 (by decide) (by decide), ← pushed3]
  congr 1
  apply UInt8.toNat_inj.mp
  rw [pull_toNat _ _ (by decide), UInt8.toNat_ofNat']
  have value := (pushed_toNat buffer n).2.1
  simp only [UInt32.reduceToNat]
  omega

theorem decodeFrom_third : decodeFrom (pushed3 buffer n) 2 (symbol n 0 :: rest) =
    UInt8.ofNat n.toNat :: decodeFrom (pushed4 buffer n) 0 rest := by
  rw [decodeFrom_emit _ 2 0 (kDecode_symbol n 0 (by decide)).2 (by decide) (by decide), ← pushed4]
  congr 1
  apply UInt8.toNat_inj.mp
  rw [pull_toNat _ _ (by decide), UInt8.toNat_ofNat']
  have value := (pushed_toNat buffer n).2.2
  simp only [UInt32.reduceToNat]
  omega

end Groups

private theorem kDecode_pad : kDecode pad = 0xFF :=
  kDecode_stray (fun inside => (kAlphabet_clean pad inside).2.1 rfl)

private theorem ofNat_toNat_add (byte : UInt8) (count low : Nat) (value : low = byte.toNat + 256 * count) :
    UInt8.ofNat low = byte := by
  apply UInt8.toNat_inj.mp
  have bound := byte.toNat_lt
  rw [UInt8.toNat_ofNat']
  omega

/-- The accumulator is never cleared, so the round trip holds from any value of it. -/
theorem decodeFrom_encode (buffer : UInt32) (raw : Bytes) : decodeFrom buffer 0 (encode raw) = raw := by
  induction raw using encode.induct generalizing buffer with
  | case1 first second third rest ih =>
    have value := group_toNat first second third
    have two := second.toNat_lt
    have three := third.toNat_lt
    rw [encode, decodeFrom_first, decodeFrom_second, decodeFrom_third, ih,
      ofNat_toNat_add first 0, ofNat_toNat_add second first.toNat,
      ofNat_toNat_add third (first.toNat * 256 + second.toNat)]
    all_goals omega
  | case2 first second =>
    have value := pair_toNat first second
    have two := second.toNat_lt
    rw [encode, decodeFrom_first, decodeFrom_second, decodeFrom_skip _ _ kDecode_pad, decodeFrom,
      ofNat_toNat_add first 0, ofNat_toNat_add second first.toNat]
    all_goals omega
  | case3 first =>
    have value := single_toNat first
    rw [encode, decodeFrom_first, decodeFrom_skip _ _ kDecode_pad, decodeFrom_skip _ _ kDecode_pad,
      decodeFrom, ofNat_toNat_add first 0]
    omega
  | case4 => rfl

theorem decode_encode (raw : Bytes) : decode (encode raw) = raw := decodeFrom_encode 0 raw

private theorem symbol_mem (n shift : UInt32) : symbol n shift ∈ kAlphabet := by
  have index : ((n >>> shift) &&& 0x3F).toNat < kAlphabet.length := by
    rw [kAlphabet_eq]
    exact symbol_index n shift
  rw [symbol, List.getD_eq_getElem?_getD, List.getElem?_eq_getElem index]
  exact List.getElem_mem index

/-- The encoder writes symbols and padding only. -/
theorem mem_encode {raw : Bytes} {byte : UInt8} (member : byte ∈ encode raw) :
    byte ∈ kAlphabet ∨ byte = pad := by
  induction raw using encode.induct with
  | case1 first second third rest ih =>
    simp only [encode, List.mem_cons] at member
    rcases member with same | same | same | same | later
    all_goals first | exact .inl (same ▸ symbol_mem _ _) | exact ih later
  | case2 first second =>
    simp only [encode, List.mem_cons, List.not_mem_nil, or_false] at member
    rcases member with same | same | same | same
    all_goals first | exact .inl (same ▸ symbol_mem _ _) | exact .inr same
  | case3 first =>
    simp only [encode, List.mem_cons, List.not_mem_nil, or_false] at member
    rcases member with same | same | same | same
    all_goals first | exact .inl (same ▸ symbol_mem _ _) | exact .inr same
  | case4 => simp [encode] at member

/-- The field separator of every message and stored value is never written. -/
theorem pipe_not_mem_encode (raw : Bytes) : 124 ∉ encode raw := by
  intro member
  rcases mem_encode member with inside | same
  · exact (kAlphabet_clean 124 inside).1 rfl
  · simp [pad] at same

/-- Every group of three bytes begun takes four characters. -/
theorem length_encode (raw : Bytes) : (encode raw).length = 4 * ((raw.length + 2) / 3) := by
  induction raw using encode.induct with
  | case1 first second third rest ih =>
    simp only [encode, List.length_cons, ih]
    omega
  | case2 first second => simp [encode]
  | case3 first => simp [encode]
  | case4 => simp [encode]

/-- The symbols come first, then as much padding as the last group is short of bytes. -/
theorem encode_shape (raw : Bytes) :
    ∃ symbols, encode raw = symbols ++ List.replicate ((3 - raw.length % 3) % 3) pad ∧
      ∀ byte ∈ symbols, byte ∈ kAlphabet := by
  induction raw using encode.induct with
  | case1 first second third rest ih =>
    obtain ⟨symbols, shape, inside⟩ := ih
    have same : (rest.length + 1 + 1 + 1) % 3 = rest.length % 3 := by omega
    simp only [encode, shape, List.length_cons, same]
    refine ⟨_ :: _ :: _ :: _ :: symbols, rfl, ?_⟩
    simp only [List.forall_mem_cons, symbol_mem, true_and]
    exact inside
  | case2 first second => exact ⟨[_, _, _], rfl, by simp [symbol_mem]⟩
  | case3 first => exact ⟨[_, _], rfl, by simp [symbol_mem]⟩
  | case4 => exact ⟨[], rfl, by simp⟩

/-- Bytes outside the alphabet put anywhere between those of an encoding. -/
inductive Strewn : Bytes → Bytes → Prop
  | nil : Strewn [] []
  | keep (byte : UInt8) {encoded strewn : Bytes} (rest : Strewn encoded strewn) :
      Strewn (byte :: encoded) (byte :: strewn)
  | stray {byte : UInt8} (outside : byte ∉ kAlphabet) {encoded strewn : Bytes} (rest : Strewn encoded strewn) :
      Strewn encoded (byte :: strewn)

/-- Six bits come with each byte at most, and eight go with each byte decoded. -/
theorem length_decodeFrom_le (buffer bits : UInt32) (few : bits.toNat < 8) (encoded : Bytes) :
    8 * (decodeFrom buffer bits encoded).length ≤ bits.toNat + 6 * encoded.length := by
  induction encoded generalizing buffer bits with
  | nil => simp [decodeFrom]
  | cons byte rest ih =>
    have more : (bits + 6).toNat = bits.toNat + 6 := by
      rw [UInt32.toNat_add]
      simp only [UInt32.reduceToNat]
      omega
    rw [decodeFrom, List.length_cons]
    simp only [UInt32.le_iff_toNat_le, more, UInt32.reduceToNat]
    split
    · have later := ih buffer bits few
      omega
    · split
      · rename_i full
        have left : (bits + 6 - 8).toNat = bits.toNat + 6 - 8 := by
          rw [UInt32.toNat_sub_of_le _ _ (by rwa [UInt32.le_iff_toNat_le, more]), more]
          simp only [UInt32.reduceToNat]
        have later := ih (buffer <<< 6 ||| (kDecode byte).toUInt32) (bits + 6 - 8) (by omega)
        rw [List.length_cons]
        omega
      · have later := ih (buffer <<< 6 ||| (kDecode byte).toUInt32) (bits + 6) (by omega)
        omega

/-- Writing out again what was read from any text adds the missing padding at most. -/
theorem length_encode_decode_le (encoded : Bytes) : (encode (decode encoded)).length ≤ encoded.length + 2 := by
  have decoded := length_decodeFrom_le 0 0 (by decide) encoded
  rw [UInt32.toNat_zero] at decoded
  rw [length_encode, decode]
  omega

/-- A byte of the encoding does the same to the accumulator whatever stands behind it. -/
theorem decodeFrom_cons {encoded strewn : Bytes}
    (same : ∀ buffer bits, decodeFrom buffer bits strewn = decodeFrom buffer bits encoded)
    (buffer bits : UInt32) (byte : UInt8) :
    decodeFrom buffer bits (byte :: strewn) = decodeFrom buffer bits (byte :: encoded) := by
  simp only [decodeFrom, same]

theorem decodeFrom_strewn {encoded strewn : Bytes} (between : Strewn encoded strewn) (buffer bits : UInt32) :
    decodeFrom buffer bits strewn = decodeFrom buffer bits encoded := by
  induction between generalizing buffer bits with
  | nil => rfl
  | keep byte rest ih => exact decodeFrom_cons ih buffer bits byte
  | stray outside rest ih => rw [decodeFrom_skip _ _ (kDecode_stray outside), ih]

/-- Encoding loses nothing, is as long as its groups say, pads at the end only, and is decoded the
same with stray bytes in it. -/
theorem base64_lossless (raw : Bytes) :
    decode (encode raw) = raw ∧
    (encode raw).length = 4 * ((raw.length + 2) / 3) ∧
    (∃ symbols padding, encode raw = symbols ++ List.replicate padding pad ∧ padding ≤ 2 ∧
      ∀ byte ∈ symbols, byte ∈ kAlphabet) ∧
    ∀ strewn, Strewn (encode raw) strewn → decode strewn = decode (encode raw) := by
  obtain ⟨symbols, shape, inside⟩ := encode_shape raw
  refine ⟨decode_encode raw, length_encode raw, ⟨symbols, _, shape, ?_, inside⟩, ?_⟩
  · omega
  · intro strewn between
    exact decodeFrom_strewn between 0 0

/-- `hi` with a newline before its padding. -/
theorem base64_lossless_newline : decode (ascii "aGk\n=") = decode (encode (ascii "hi")) := by
  have between : Strewn (encode (ascii "hi")) (ascii "aGk\n=") :=
    .keep 97 (.keep 71 (.keep 107 (.stray (by decide) (.keep 61 .nil))))
  exact (base64_lossless (ascii "hi")).2.2.2 _ between

end MiniDynamo.Base64
