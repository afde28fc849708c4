import MiniDynamo.Coordinator.ConcurrentWrites
import MiniDynamo.Gateway.SameRing

/-! The gateway and a node agree on what they tell each other: a node decodes the requests as
they were meant, and the gateway reads the replies as they were, as long as their clock tokens
survive the way into a Java string. -/

namespace MiniDynamo.Gateway

open Utf16 ClusterClient Wire

/-! ### Requests -/

section Requests

variable {clock : VectorClock}

theorem utf8_text (literal : String) (small : ∀ byte ∈ ascii literal, byte.toNat < 0x80) :
    utf8 (text literal) = ascii literal := utf8_widen small

theorem encode_ascii {raw : Bytes} : ∀ byte ∈ Base64.encode raw, byte.toNat < 0x80 := by
  intro byte member
  rcases Base64.mem_encode member with symbol | rfl
  · exact (Base64.kAlphabet_clean byte symbol).2.2
  · decide

theorem serialize_ascii (valid : clock.OverValidIds) : ∀ byte ∈ clock.serialize, byte.toNat < 0x80 := by
  intro byte member
  rcases VectorClock.mem_serialize member with rfl | rfl | digit | ⟨node, entry, held, inside⟩
  · decide
  · decide
  · simp only [isDigit, Bool.and_eq_true, decide_eq_true_eq, UInt8.le_iff_toNat_le] at digit
    have upper : byte.toNat ≤ 57 := digit.2
    omega
  · exact valid_ascii (valid node entry held) byte inside

theorem utf8_b64 (value : Option Bytes) : utf8 (b64 value) = Base64.encode (value.getD []) := by
  rw [b64, ← JavaBase64.widen_encode, utf8_widen encode_ascii]

theorem utf8_toText (value : Nat) : utf8 (toText value) = decimal value := by
  rw [toText_nonneg, utf8_widen (fun _ member => decimal_ascii member)]

theorem not_mem_widen {bytes : Bytes} {byte : UInt8} (clean : byte ∉ bytes) : byte.toUInt16 ∉ widen bytes := by
  intro member
  obtain ⟨other, held, same⟩ := List.mem_map.mp member
  exact clean (UInt8.toUInt16_inj.mp same ▸ held)

theorem bar_not_mem_b64 (value : Option Bytes) : bar ∉ b64 value := by
  rw [b64, ← JavaBase64.widen_encode]
  exact not_mem_widen (Base64.pipe_not_mem_encode _)

theorem bar_not_mem_toText (value : Nat) : bar ∉ toText value := by
  have clean : (124 : UInt8) ∉ decimal value := decimal_clean (by decide)
  rw [toText_nonneg]
  exact not_mem_widen clean

/-- The node cuts a payload where the gateway joined it. -/
theorem splitAll_join {parts : List Utf16} (some : parts ≠ []) (clean : ∀ part ∈ parts, bar ∉ part) :
    splitAll (utf8 (join parts)) = parts.map utf8 := by
  have ascii : pipe.toNat < 0x80 := by decide
  have joined : utf8 (join parts) = [pipe].intercalate (parts.map utf8) := utf8_intercalate parts ascii
  rw [splitAll, joined, List.splitOn_intercalate]
  · intro part member inside
    obtain ⟨source, held, rfl⟩ := List.mem_map.mp member
    exact clean source held (mem_of_mem_utf8 inside ascii (by decide))
  · simpa using some

theorem utf8_token (valid : clock.OverValidIds) : utf8 (ofUtf8 clock.serialize) = clock.serialize := by
  rw [ofUtf8_ascii (serialize_ascii valid), utf8_widen (serialize_ascii valid)]

/-- The first field of a text is the text up to a bar, if it has one. -/
theorem first_field (bytes : Bytes) : ∃ first rest, bytes.splitOn pipe = first :: rest ∧ pipe ∉ first ∧
    ((rest = [] ∧ first = bytes) ∨ (rest ≠ [] ∧ first ++ [pipe] <+: bytes)) := by
  obtain ⟨first, rest, shape⟩ := List.exists_cons_of_ne_nil (List.splitOn_ne_nil pipe bytes)
  have back : [pipe].intercalate (bytes.splitOn pipe) = bytes := List.intercalate_splitOn pipe
  rw [shape] at back
  refine ⟨first, rest, shape, (Bytes.mem_splitOn (shape ▸ List.mem_cons_self)).1, ?_⟩
  cases rest with
  | nil => exact .inl ⟨rfl, by simpa using back⟩
  | cons second others =>
    refine .inr ⟨by simp, [pipe].intercalate (second :: others), ?_⟩
    rw [← back]
    simp [List.intercalate]

/-- The text up to the first bar. -/
def leading (bytes : Bytes) : Bytes := bytes.takeWhile (· ≠ pipe)

/-- The context a node reads from the clock of a call. The clock is the last field of a payload, so a bar
in it ends it. -/
def context (clock : Option Utf16) : VectorClock := VectorClock.parse (leading (utf8 (nz clock)))

theorem ne_pipe_of_clean {bytes : Bytes} (clean : pipe ∉ bytes) : ∀ byte ∈ bytes, decide (byte ≠ pipe) = true := by
  intro byte member
  simpa using fun (same : byte = pipe) => clean (same ▸ member)

theorem leading_clean {bytes : Bytes} (clean : pipe ∉ bytes) : leading bytes = bytes :=
  List.takeWhile_eq_self_iff.mpr (ne_pipe_of_clean clean)

theorem splitAll_leading (bytes : Bytes) : ∃ rest, splitAll bytes = leading bytes :: rest := by
  obtain ⟨first, rest, shape, clean, ⟨-, rfl⟩ | ⟨-, back, rfl⟩⟩ := first_field bytes
  · exact ⟨rest, by rw [splitAll, shape, leading_clean clean]⟩
  · refine ⟨rest, ?_⟩
    rw [splitAll, shape, leading, List.append_assoc, List.takeWhile_append_of_pos (ne_pipe_of_clean clean),
      List.singleton_append, List.takeWhile_cons_of_neg (by simp), List.append_nil]

theorem pipe_not_mem_leading (bytes : Bytes) : pipe ∉ leading bytes := by
  intro member
  simpa using List.mem_takeWhile_imp member

theorem context_wireSafe (clock : Option Utf16) : (context clock).WireSafe :=
  VectorClock.parse_wireSafe (pipe_not_mem_leading _)

/-- Only the last of the parts may hold bars. -/
theorem splitAll_join_last (front : List Utf16) (clean : ∀ part ∈ front, bar ∉ part) (last : Utf16) :
    splitAll (utf8 (join (front ++ [last]))) = front.map utf8 ++ splitAll (utf8 last) := by
  have small : pipe.toNat < 0x80 := by decide
  induction front with
  | nil => simp [join]
  | cons part rest ih =>
    have inner := ih (fun other member => clean other (List.mem_cons_of_mem part member))
    have joined : join (part :: rest ++ [last]) = part ++ pipe.toUInt16 :: join (rest ++ [last]) := by
      cases rest with
      | nil => rfl
      | cons next others => rfl
    have free : pipe ∉ utf8 part := by
      intro member
      exact clean part List.mem_cons_self (mem_of_mem_utf8 member small (by decide))
    rw [joined, utf8_cut part _ small, splitAll_cons free, List.map_cons, List.cons_append, ← inner]

theorem utf8_toText_neg {value : Nat} (positive : 0 < value) : utf8 (toText (-value)) = 45 :: decimal value := by
  have digits : ∀ byte ∈ 45 :: decimal value, byte.toNat < 0x80 := by
    intro byte member
    rcases List.mem_cons.mp member with rfl | member
    · decide
    · exact decimal_ascii member
  rw [toText, if_pos (by omega), Int.natAbs_neg, Int.natAbs_natCast]
  exact utf8_widen digits

theorem scanNumber_negative (value : Nat) : scanNumber (45 :: decimal value) = (true, decimal value) := by
  have digits : (decimal value).takeWhile isDigit = decimal value :=
    List.takeWhile_eq_self_iff.mpr (fun _ member => decimal_isDigit member)
  rw [scanNumber, List.dropWhile_cons_of_neg (by decide)]
  exact congrArg (Prod.mk true) digits

/-- A node reads the number the gateway wrote, whatever its sign. -/
theorem stoi_toText (value : Int32) : stoi (utf8 (toText value.toInt)) = some value.toInt := by
  have low := value.le_toInt
  have high := value.toInt_lt
  obtain ⟨size, same | same⟩ := Int.eq_nat_or_neg value.toInt
  · rw [same, utf8_toText, stoi_decimal (by omega)]
  · rcases Nat.eq_zero_or_pos size with rfl | positive
    · rw [same]
      decide
    · rw [same, utf8_toText_neg positive, stoi, scanNumber_negative]
      simp only [decimal_ne_nil, digitsValue_decimal, ↓reduceIte]
      rw [if_neg (by omega)]

theorem utf8_toText_ne_nil (value : Int32) : utf8 (toText value.toInt) ≠ [] := by
  intro empty
  have read := stoi_toText value
  rw [empty] at read
  cases read

theorem toInt_toText {fields : List Bytes} {index : Nat} (value : Int32)
    (here : Wire.field fields index = utf8 (toText value.toInt)) : Node.toInt fields index = value.toInt := by
  rw [Node.toInt, here, if_neg (utf8_toText_ne_nil value), stoi_toText, Option.getD_some]

theorem bar_not_mem_int (value : Int) : bar ∉ toText value := by
  obtain ⟨size, rfl | rfl⟩ := Int.eq_nat_or_neg value
  · exact bar_not_mem_toText size
  · rcases Nat.eq_zero_or_pos size with rfl | positive
    · exact bar_not_mem_toText 0
    · have digits := bar_not_mem_toText size
      rw [toText_nonneg] at digits
      rw [toText, if_pos (by omega), Int.natAbs_neg, Int.natAbs_natCast, List.mem_cons]
      rintro (sign | member)
      · exact absurd sign (by decide)
      · exact digits member

variable (node : Node) {key : Utf16}

/-- The fields a node cuts a payload into, if its last part is a clock. -/
theorem fields_of_payload (front : List Utf16) (clean : ∀ part ∈ front, bar ∉ part) (clock : Option Utf16) :
    ∃ rest, splitAll (utf8 (join (front ++ [nz clock]))) = front.map utf8 ++ leading (utf8 (nz clock)) :: rest := by
  obtain ⟨rest, shape⟩ := splitAll_leading (utf8 (nz clock))
  exact ⟨rest, by rw [splitAll_join_last front clean, shape]⟩

theorem decodes_put (clean : bar ∉ key) (value : Option Bytes) (clock : Option Utf16) (n w : Int32) (r : Int) :
    node.handleRequest (utf8 (putPayload key value clock n.toInt w.toInt r)) =
      node.atPrimary (utf8 key) (utf8 (putPayload key value clock n.toInt w.toInt r))
        (.coordinatePut (utf8 key) (value.getD []) (context clock) (node.effN n.toInt) (node.effW w.toInt)) := by
  have verb : bar ∉ text "PUT" := by decide
  have gateway : bar ∉ origin := by decide
  obtain ⟨rest, shape⟩ := fields_of_payload
    [text "PUT", key, b64 value, origin, toText n.toInt, toText w.toInt, toText r]
    (by simp [verb, gateway, clean, bar_not_mem_b64, bar_not_mem_int]) clock
  have fields : splitAll (utf8 (putPayload key value clock n.toInt w.toInt r)) =
      ascii "PUT" :: utf8 key :: Base64.encode (value.getD []) :: ascii "gateway" :: utf8 (toText n.toInt) ::
        utf8 (toText w.toInt) :: utf8 (toText r) :: leading (utf8 (nz clock)) :: rest := by
    refine shape.trans ?_
    simp only [List.map_cons, List.map_nil, utf8_b64, origin, utf8_text "PUT" (by simp [ascii]),
      utf8_text "gateway" (by simp [ascii]), List.cons_append, List.nil_append]
  unfold Node.handleRequest
  rw [fields]
  refine Eq.trans (show _ = Node.handlePut node _ _ from rfl) ?_
  rw [Node.handlePut, toInt_toText n rfl, toInt_toText w rfl]
  simp only [Wire.field, List.getD_cons_succ, List.getD_cons_zero, Base64.decode_encode, context]

theorem decodes_delete (clean : bar ∉ key) (clock : Option Utf16) (n w : Int32) :
    node.handleRequest (utf8 (deletePayload key clock n.toInt w.toInt)) =
      node.atPrimary (utf8 key) (utf8 (deletePayload key clock n.toInt w.toInt))
        (.coordinateDelete (utf8 key) (context clock) (node.effN n.toInt) (node.effW w.toInt)) := by
  have verb : bar ∉ text "DELETE" := by decide
  have gateway : bar ∉ origin := by decide
  obtain ⟨rest, shape⟩ := fields_of_payload [text "DELETE", key, origin, toText n.toInt, toText w.toInt]
    (by simp [verb, gateway, clean, bar_not_mem_int]) clock
  have fields : splitAll (utf8 (deletePayload key clock n.toInt w.toInt)) =
      ascii "DELETE" :: utf8 key :: ascii "gateway" :: utf8 (toText n.toInt) :: utf8 (toText w.toInt) ::
        leading (utf8 (nz clock)) :: rest := by
    refine shape.trans ?_
    simp only [List.map_cons, List.map_nil, origin, utf8_text "DELETE" (by simp [ascii]),
      utf8_text "gateway" (by simp [ascii]), List.cons_append, List.nil_append]
  unfold Node.handleRequest
  rw [fields]
  refine Eq.trans (show _ = Node.handleDelete node _ _ from rfl) ?_
  rw [Node.handleDelete, toInt_toText n rfl, toInt_toText w rfl]
  simp only [Wire.field, List.getD_cons_succ, List.getD_cons_zero, context]

theorem decodes_get (clean : bar ∉ key) (n r : Int32) :
    node.handleRequest (utf8 (getPayload key n.toInt r.toInt)) =
      some (.coordinateGet (utf8 key) (node.effN n.toInt) (node.effR r.toInt)) := by
  have verb : bar ∉ text "GET" := by decide
  have gateway : bar ∉ origin := by decide
  have fields : splitAll (utf8 (getPayload key n.toInt r.toInt)) =
      [ascii "GET", utf8 key, ascii "gateway", utf8 (toText n.toInt), utf8 (toText r.toInt)] := by
    rw [getPayload, splitAll_join (by simp) (by simp [verb, gateway, clean, bar_not_mem_int])]
    simp only [List.map_cons, List.map_nil, origin, utf8_text "GET" (by simp [ascii]),
      utf8_text "gateway" (by simp [ascii])]
  unfold Node.handleRequest
  rw [fields]
  refine Eq.trans (show _ = some (Node.handleGet node _) from rfl) ?_
  rw [Node.handleGet, toInt_toText n rfl, toInt_toText r rfl]
  simp only [Wire.field, List.getD_cons_succ, List.getD_cons_zero]

variable {token : Option Utf16} {n w r : Nat}

/-- The token of a clock is read as that clock, as long as it arrives as it was. -/
theorem context_token (safe : clock.WireSafe) (sent : utf8 (nz token) = clock.serialize) : context token = clock := by
  rw [context, sent, leading_clean (VectorClock.pipe_not_mem_serialize safe), VectorClock.parse_serialize safe.1]

theorem context_of_token (valid : clock.OverValidIds) (same : nz token = ofUtf8 clock.serialize) :
    context token = clock :=
  context_token valid.wireSafe (by rw [same, utf8_token valid])

theorem exists_int32 (fits : 0 < n ∧ n < 2 ^ 31) : ∃ value : Int32, value.toInt = n ∧ 0 < value.toInt := by
  have same : (Int32.ofNat n).toInt = n := Int32.toInt_ofNat_of_lt fits.2
  exact ⟨Int32.ofNat n, same, by omega⟩

theorem handleRequest_putPayload (clean : bar ∉ key) (value : Option Bytes) (valid : clock.OverValidIds)
    (same : nz token = ofUtf8 clock.serialize) (replicas : 0 < n ∧ n < 2 ^ 31) (writes : 0 < w ∧ w < 2 ^ 31) :
    node.handleRequest (utf8 (putPayload key value token n w r)) =
      node.atPrimary (utf8 key) (utf8 (putPayload key value token n w r))
        (.coordinatePut (utf8 key) (value.getD []) clock n w) := by
  obtain ⟨number, sameN, positiveN⟩ := exists_int32 replicas
  obtain ⟨quorum, sameW, positiveW⟩ := exists_int32 writes
  rw [← sameN, ← sameW, decodes_put node clean, context_of_token valid same, Node.effN, Node.effW, if_pos positiveN,
    if_pos positiveW]

theorem handleRequest_deletePayload (clean : bar ∉ key) (valid : clock.OverValidIds)
    (same : nz token = ofUtf8 clock.serialize) (replicas : 0 < n ∧ n < 2 ^ 31) (writes : 0 < w ∧ w < 2 ^ 31) :
    node.handleRequest (utf8 (deletePayload key token n w)) =
      node.atPrimary (utf8 key) (utf8 (deletePayload key token n w)) (.coordinateDelete (utf8 key) clock n w) := by
  obtain ⟨number, sameN, positiveN⟩ := exists_int32 replicas
  obtain ⟨quorum, sameW, positiveW⟩ := exists_int32 writes
  rw [← sameN, ← sameW, decodes_delete node clean, context_of_token valid same, Node.effN, Node.effW, if_pos positiveN,
    if_pos positiveW]

theorem handleRequest_getPayload (clean : bar ∉ key) (replicas : 0 < n ∧ n < 2 ^ 31) (reads : 0 < r ∧ r < 2 ^ 31) :
    node.handleRequest (utf8 (getPayload key n r)) = some (.coordinateGet (utf8 key) n r) := by
  obtain ⟨number, sameN, positiveN⟩ := exists_int32 replicas
  obtain ⟨quorum, sameR, positiveR⟩ := exists_int32 reads
  rw [← sameN, ← sameR, decodes_get node clean, Node.effN, Node.effR, if_pos positiveN, if_pos positiveR]

end Requests

/-! ### Replies -/

section Replies

/-- The token stands in a reply as one field that a Java string can hold. -/
def Transparent (token : Bytes) : Prop := pipe ∉ token ∧ ValidUtf8 token

instance (token : Bytes) : Decidable (Transparent token) :=
  inferInstanceAs (Decidable (pipe ∉ token ∧ ValidUtf8 token))

/-- The reasons that mean a quorum was not met. -/
def quorumReasons : List Bytes := [ascii "quorum_not_met", ascii "no_nodes_in_ring"]

/-- The field that is read of a reason says something else than the reason. -/
def Misread (reason : Bytes) : Prop := ∃ known ∈ quorumReasons, known ++ [pipe] <+: reason

/-- The gateway has the status of the write, with the class of its error, and the token of its clock. -/
def WriteAgrees (result : PutResult) (parsed : WriteResult) : Prop :=
  if result.ok then parsed.status = .ok ∧ parsed.clock.map utf8 = some result.clock.serialize
  else parsed.status = if result.error ∈ quorumReasons then .quorumFailed else .error

instance (result : PutResult) (parsed : WriteResult) : Decidable (WriteAgrees result parsed) :=
  inferInstanceAs (Decidable (ite _ _ _))

/-- The status a read has at the gateway. -/
def readStatus (result : GetResult) : ReadStatus :=
  match result.status with
  | .ok => .ok
  | .siblings => .siblings
  | .notFound => .notFound
  | .error => if result.error ∈ quorumReasons then .quorumFailed else .error

def ReadAgrees (result : GetResult) (parsed : ReadResult) : Prop :=
  parsed.status = readStatus result ∧
    parsed.values.map (fun version => (version.value, utf8 version.clock)) =
      result.values.map (fun version => (version.data, version.clock.serialize))

/-- As many values as the status has. -/
def Fits (result : GetResult) : Prop :=
  match result.status with
  | .ok => result.values.length = 1
  | .siblings => True
  | .notFound => result.values = []
  | .error => result.values = []

variable {bytes : Bytes}

/-- The first field read back is the whole token exactly when the token is transparent. -/
theorem utf8_first_field {first : Bytes} {rest : List Bytes} (shape : bytes.splitOn pipe = first :: rest) :
    utf8 (ofUtf8 first) = bytes ↔ Transparent bytes := by
  obtain ⟨head, tail, same, clean, whole⟩ := first_field bytes
  obtain ⟨rfl, rfl⟩ := List.cons.inj (shape.symm.trans same)
  constructor
  · intro read
    have bars : pipe ∉ bytes := by
      rw [← read]
      intro inside
      have ascii : pipe.toNat < 0x80 := by decide
      exact not_mem_ofUtf8 ascii clean (mem_of_mem_utf8 inside ascii (by decide))
    rcases whole with ⟨-, rfl⟩ | ⟨-, cut⟩
    · exact ⟨bars, utf8_ofUtf8_iff.mp read⟩
    · exact absurd (cut.subset (by simp)) bars
  · rintro ⟨bars, valid⟩
    rcases whole with ⟨-, rfl⟩ | ⟨-, cut⟩
    · exact valid.utf8_ofUtf8
    · exact absurd (cut.subset (by simp)) bars

theorem isQuorumFailure_ofUtf8 (reason : Bytes) :
    isQuorumFailure (ofUtf8 reason) = decide (reason ∈ quorumReasons) := by
  have same : ∀ known ∈ quorumReasons, (ofUtf8 reason = widen known ↔ reason = known) := by
    intro known member
    have ascii : ∀ byte ∈ known, byte.toNat < 0x80 := by
      have table : ∀ known ∈ quorumReasons, ∀ byte ∈ known, byte.toNat < 0x80 := by
        simp [quorumReasons, MiniDynamo.ascii]
      exact table known member
    exact ⟨eq_of_ofUtf8_eq_widen ascii, by rintro rfl; exact ofUtf8_ascii ascii⟩
  have first := same (ascii "quorum_not_met") (by simp [quorumReasons])
  have second := same (ascii "no_nodes_in_ring") (by simp [quorumReasons])
  simp [isQuorumFailure, text, first, second, quorumReasons]

/-- The class of a reason is read off its first field. -/
theorem class_first_field {first : Bytes} {rest : List Bytes} (shape : bytes.splitOn pipe = first :: rest) :
    (first ∈ quorumReasons ↔ bytes ∈ quorumReasons) ↔ ¬ Misread bytes := by
  obtain ⟨head, tail, same, clean, whole⟩ := first_field bytes
  obtain ⟨rfl, rfl⟩ := List.cons.inj (shape.symm.trans same)
  have bars : ∀ known ∈ quorumReasons, pipe ∉ known := by decide
  rcases whole with ⟨-, rfl⟩ | ⟨-, cut⟩
  · refine iff_of_true Iff.rfl ?_
    rintro ⟨known, -, ahead⟩
    exact clean (ahead.subset (by simp))
  · have outside : bytes ∉ quorumReasons := fun member => bars bytes member (cut.subset (by simp))
    have other : first ∈ quorumReasons ↔ Misread bytes := by
      constructor
      · exact fun member => ⟨first, member, cut⟩
      · rintro ⟨known, member, ahead⟩
        obtain ⟨back, rfl⟩ := ahead
        rw [List.append_assoc, List.singleton_append, Bytes.splitOn_append_delim,
          List.splitOn_eq_singleton (bars known member)] at shape
        rwa [(List.cons.inj shape).1] at member
    rw [iff_false_right outside, other]

/-- A field in front of a bar. -/
theorem splitOn_cons {front : Bytes} (clean : pipe ∉ front) (back : Bytes) :
    (front ++ pipe :: back).splitOn pipe = front :: back.splitOn pipe := splitAll_cons clean back

/-- The fields of a reply, as the gateway cuts them. -/
theorem splitBar_reply {start : Bytes} (verb : String) (back : Bytes)
    (shape : start = ascii "RESPONSE" ++ pipe :: (ascii verb ++ [pipe]))
    (plain : ∀ byte ∈ ascii verb, byte.toNat < 0x80 ∧ byte ≠ pipe) :
    splitBar (ofUtf8 (start ++ back)) = text "RESPONSE" :: text verb :: (back.splitOn pipe).map ofUtf8 := by
  have whole : start ++ back = ascii "RESPONSE" ++ pipe :: (ascii verb ++ pipe :: back) := by
    rw [shape]
    simp
  rw [splitBar_ofUtf8, whole]
  change List.map ofUtf8 (List.splitOn pipe _) = _
  rw [splitOn_cons (by decide), splitOn_cons (fun inside => (plain pipe inside).2 rfl), List.map_cons, List.map_cons,
    ofUtf8_ascii (fun byte member => (plain byte member).1)]
  rfl

theorem parseWrite_putReply (result : PutResult) : ∃ first rest,
    (if result.ok then result.clock.serialize else result.error).splitOn pipe = first :: rest ∧
      parseWrite (ofUtf8 (Node.putReply result)) =
        if result.ok then .ok (ofUtf8 first)
        else if first ∈ quorumReasons then .quorumFailed else .failed (ofUtf8 first) := by
  obtain ⟨first, rest, shape, -⟩ := first_field (if result.ok then result.clock.serialize else result.error)
  refine ⟨first, rest, shape, ?_⟩
  cases done : result.ok with
  | true =>
    rw [done, if_pos rfl] at shape
    have fields : splitBar (ofUtf8 (Node.putReply result)) =
        text "RESPONSE" :: text "OK" :: ofUtf8 first :: rest.map ofUtf8 := by
      rw [Node.putReply, done, if_pos rfl, splitBar_reply "OK" _ (by decide) (by simp [ascii, pipe]), shape,
        List.map_cons]
    simp [parseWrite, fields, fieldOr]
  | false =>
    rw [done, if_neg Bool.false_ne_true] at shape
    have fields : splitBar (ofUtf8 (Node.putReply result)) =
        text "RESPONSE" :: text "ERROR" :: ofUtf8 first :: rest.map ofUtf8 := by
      rw [Node.putReply, done, if_neg Bool.false_ne_true, splitBar_reply "ERROR" _ (by decide) (by simp [ascii, pipe]),
        shape, List.map_cons]
    have other : text "ERROR" ≠ text "OK" := by decide
    simp [parseWrite, fields, fieldOr, other, isQuorumFailure_ofUtf8]

theorem writeAgrees_iff (result : PutResult) :
    WriteAgrees result (parseWrite (ofUtf8 (Node.putReply result))) ↔
      if result.ok then Transparent result.clock.serialize else ¬ Misread result.error := by
  obtain ⟨first, rest, shape, parsed⟩ := parseWrite_putReply result
  rw [parsed, WriteAgrees]
  cases done : result.ok with
  | true =>
    rw [done, if_pos rfl] at shape
    simp only [↓reduceIte, WriteResult.ok, Option.map_some, Option.some.injEq, true_and]
    exact utf8_first_field shape
  | false =>
    rw [done, if_neg Bool.false_ne_true] at shape
    rw [if_neg Bool.false_ne_true, if_neg Bool.false_ne_true, if_neg Bool.false_ne_true, ← class_first_field shape]
    by_cases known : first ∈ quorumReasons <;> by_cases whole : result.error ∈ quorumReasons <;>
      simp [known, whole, WriteResult.quorumFailed, WriteResult.failed]

/-! The list of siblings: a token that holds a bar shifts the fields of every later sibling. -/

/-- The fields of one sibling after the other. -/
def siblingFields (values : List VersionedValue) : List Bytes :=
  values.flatMap (fun value => Base64.encode value.data :: value.clock.serialize.splitOn pipe)

theorem splitOn_siblings {front : Bytes} (values : List VersionedValue) :
    (front ++ (values.map (fun value =>
      ascii "|" ++ Base64.encode value.data ++ ascii "|" ++ value.clock.serialize)).flatten).splitOn pipe =
      front.splitOn pipe ++ siblingFields values := by
  induction values generalizing front with
  | nil => simp [siblingFields]
  | cons value rest ih =>
    have bar : ascii "|" = [pipe] := by decide
    have shape : ∀ others : Bytes, front ++ (ascii "|" ++ Base64.encode value.data ++ ascii "|" ++
        value.clock.serialize ++ others) =
        front ++ pipe :: (Base64.encode value.data ++ pipe :: (value.clock.serialize ++ others)) := by
      simp [bar]
    rw [List.map_cons, List.flatten_cons, shape, Bytes.splitOn_append_delim,
      splitOn_cons (Base64.pipe_not_mem_encode value.data), ih]
    simp [siblingFields]

theorem decode_ofUtf8_encode (raw : Bytes) : JavaBase64.decode (ofUtf8 (Base64.encode raw)) = some raw := by
  rw [ofUtf8_ascii encode_ascii, JavaBase64.widen_encode, JavaBase64.decode_encode]

theorem versions_agree_iff (values : List VersionedValue) :
    (∃ parsed, versions ((siblingFields values).map ofUtf8) = some parsed ∧
      parsed.map (fun version => (version.value, utf8 version.clock)) =
        values.map (fun version => (version.data, version.clock.serialize))) ↔
      ∀ value ∈ values, Transparent value.clock.serialize := by
  induction values with
  | nil => exact iff_of_true ⟨[], rfl, rfl⟩ (by simp)
  | cons value rest ih =>
    obtain ⟨first, tail, shape, -, whole⟩ := first_field value.clock.serialize
    have fields : (siblingFields (value :: rest)).map ofUtf8 = ofUtf8 (Base64.encode value.data) :: ofUtf8 first ::
        (tail.map ofUtf8 ++ (siblingFields rest).map ofUtf8) := by
      simp [siblingFields, shape]
    have read : versions ((siblingFields (value :: rest)).map ofUtf8) =
        (versions (tail.map ofUtf8 ++ (siblingFields rest).map ofUtf8)).map (⟨value.data, ofUtf8 first⟩ :: ·) := by
      rw [fields, versions, decode_ofUtf8_encode]
      cases versions (tail.map ofUtf8 ++ (siblingFields rest).map ofUtf8) <;> rfl
    -- a transparent token is one field, and the next sibling follows it
    have single : Transparent value.clock.serialize → tail = [] := by
      intro transparent
      rcases whole with ⟨none, -⟩ | ⟨-, cut⟩
      · exact none
      · exact absurd (cut.subset (by simp)) transparent.1
    rw [read, List.forall_mem_cons, ← ih]
    constructor
    · rintro ⟨parsed, found, agree⟩
      obtain ⟨others, later, rfl⟩ := Option.map_eq_some_iff.mp found
      obtain ⟨here, there⟩ := List.cons.inj agree
      have transparent := (utf8_first_field shape).mp (congrArg Prod.snd here)
      rw [single transparent, List.map_nil, List.nil_append] at later
      exact ⟨transparent, others, later, there⟩
    · rintro ⟨transparent, others, later, there⟩
      refine ⟨⟨value.data, ofUtf8 first⟩ :: others, ?_, ?_⟩
      · rw [single transparent, List.map_nil, List.nil_append, later]
        rfl
      · rw [List.map_cons, List.map_cons, there, (utf8_first_field shape).mpr transparent]

theorem parseRead_ok {raw bytes first : Bytes} {rest : List Bytes} (shape : bytes.splitOn pipe = first :: rest) :
    parseRead (ofUtf8 (ascii "RESPONSE|OK|" ++ Base64.encode raw ++ ascii "|" ++ bytes)) =
      some (.ok ⟨raw, ofUtf8 first⟩) := by
  have bar : ascii "|" = [pipe] := by decide
  have fields : splitBar (ofUtf8 (ascii "RESPONSE|OK|" ++ Base64.encode raw ++ ascii "|" ++ bytes)) =
      text "RESPONSE" :: text "OK" :: ofUtf8 (Base64.encode raw) :: ofUtf8 first :: rest.map ofUtf8 := by
    rw [List.append_assoc, List.append_assoc, splitBar_reply "OK" _ (by decide) (by simp [ascii, pipe]), bar,
      List.singleton_append, splitOn_cons (Base64.pipe_not_mem_encode raw), shape, List.map_cons, List.map_cons]
  rw [parseRead, fields]
  simp [decode_ofUtf8_encode]

theorem parseRead_siblings (values : List VersionedValue) :
    parseRead (ofUtf8 (ascii "RESPONSE|SIBLINGS|" ++ decimal values.length ++ (values.map (fun value =>
      ascii "|" ++ Base64.encode value.data ++ ascii "|" ++ value.clock.serialize)).flatten)) =
      (versions ((siblingFields values).map ofUtf8)).map .siblings := by
  have count : (decimal values.length).splitOn pipe = [decimal values.length] :=
    List.splitOn_eq_singleton (decimal_clean (by decide))
  have other : text "SIBLINGS" ≠ text "OK" := by decide
  rw [List.append_assoc, parseRead, splitBar_reply "SIBLINGS" _ (by decide) (by simp [ascii, pipe]), splitOn_siblings,
    count]
  simp [other]

theorem parseRead_error {first : Bytes} {rest : List Bytes} (shape : bytes.splitOn pipe = first :: rest) :
    parseRead (ofUtf8 (ascii "RESPONSE|ERROR|" ++ bytes)) =
      some (if first ∈ quorumReasons then .quorumFailed else .failed (ofUtf8 first)) := by
  have ok : text "ERROR" ≠ text "OK" := by decide
  have siblings : text "ERROR" ≠ text "SIBLINGS" := by decide
  have notFound : text "ERROR" ≠ text "NOTFOUND" := by decide
  rw [parseRead, splitBar_reply "ERROR" _ (by decide) (by simp [ascii, pipe]), shape, List.map_cons]
  simp [ok, siblings, notFound, fieldOr, isQuorumFailure_ofUtf8]

/-- What the reply to a read needs to be read as it was meant. -/
def ReadTransparent (result : GetResult) : Prop :=
  Fits result ∧ (∀ value ∈ result.values, Transparent value.clock.serialize) ∧
    (result.status = .error → ¬ Misread result.error)

theorem readAgrees_reply_iff {result : GetResult} {reply : Bytes} (replied : Node.getReply result = some reply) :
    (∃ parsed, parseRead (ofUtf8 reply) = some parsed ∧ ReadAgrees result parsed) ↔ ReadTransparent result := by
  obtain ⟨status, values, error⟩ := result
  unfold Node.getReply at replied
  cases status with
  | ok =>
    obtain ⟨value, front, rfl⟩ := Option.map_eq_some_iff.mp replied
    obtain ⟨rest, rfl⟩ := List.head?_eq_some_iff.mp front
    obtain ⟨first, tail, shape, -⟩ := first_field value.clock.serialize
    simp only [parseRead_ok shape, Option.some.injEq, exists_eq_left', ReadAgrees, ReadResult.ok, readStatus,
      List.map_cons, List.map_nil, List.cons.injEq, Prod.mk.injEq, true_and, utf8_first_field shape, ReadTransparent,
      Fits, List.length_cons]
    constructor
    · rintro ⟨transparent, none⟩
      obtain rfl := List.map_eq_nil_iff.mp none.symm
      simpa using transparent
    · rintro ⟨single, transparent, -⟩
      obtain rfl := List.eq_nil_of_length_eq_zero (Nat.succ.inj single)
      exact ⟨transparent value List.mem_cons_self, rfl⟩
  | siblings =>
    obtain rfl := Option.some.inj replied
    rw [parseRead_siblings]
    simp only [ReadTransparent, Fits, true_and, reduceCtorEq, false_implies, and_true, ← versions_agree_iff]
    constructor
    · rintro ⟨parsed, found, -, agree⟩
      obtain ⟨versions, read, rfl⟩ := Option.map_eq_some_iff.mp found
      exact ⟨versions, read, agree⟩
    · rintro ⟨versions, read, agree⟩
      exact ⟨.siblings versions, by rw [read]; rfl, rfl, agree⟩
  | notFound =>
    obtain rfl := Option.some.inj replied
    have read : parseRead (ofUtf8 (ascii "RESPONSE|NOTFOUND")) = some .notFound := by decide +kernel
    rw [read]
    cases values <;> simp [ReadAgrees, ReadResult.notFound, readStatus, ReadTransparent, Fits]
  | error =>
    obtain rfl := Option.some.inj replied
    obtain ⟨first, tail, shape, -⟩ := first_field error
    simp only [parseRead_error shape, Option.some.injEq, exists_eq_left', ReadAgrees, readStatus, ReadTransparent, Fits,
      ← class_first_field shape, forall_const]
    by_cases known : first ∈ quorumReasons <;> by_cases whole : error ∈ quorumReasons <;>
      cases values <;> simp [known, whole, ReadResult.quorumFailed, ReadResult.failed]

theorem readAgrees_iff (result : GetResult) :
    (∃ reply parsed, Node.getReply result = some reply ∧ parseRead (ofUtf8 reply) = some parsed ∧
      ReadAgrees result parsed) ↔ ReadTransparent result := by
  cases replied : Node.getReply result with
  | some reply => simpa using readAgrees_reply_iff replied
  | none =>
    -- only a read that found a version and names none has no reply
    obtain ⟨status, values, error⟩ := result
    cases status <;> simp_all [Node.getReply, ReadTransparent, Fits]

end Replies

/-- The node decodes from every payload of the gateway the key, the value, the clock and the
quorum it was built from; and the gateway reads the reply to a write or a read as it was
meant exactly when its clock tokens are valid UTF-8 without a bar, its error is not a quorum
reason with more behind a bar, and it has the values its status has. -/
theorem gateway_node_agree (node : Node) (key : Utf16) (value : Option Bytes) (clock : VectorClock)
    (token : Option Utf16) (n w r : Nat) (put : PutResult) (get : GetResult) :
    (key ≠ [] → bar ∉ key → clock.OverValidIds → nz token = ofUtf8 clock.serialize →
      0 < n ∧ n < 2 ^ 31 → 0 < w ∧ w < 2 ^ 31 → 0 < r ∧ r < 2 ^ 31 →
      node.handleRequest (utf8 (putPayload key value token n w r)) =
          node.atPrimary (utf8 key) (utf8 (putPayload key value token n w r))
            (.coordinatePut (utf8 key) (value.getD []) clock n w) ∧
        node.handleRequest (utf8 (deletePayload key token n w)) =
          node.atPrimary (utf8 key) (utf8 (deletePayload key token n w)) (.coordinateDelete (utf8 key) clock n w) ∧
        node.handleRequest (utf8 (getPayload key n r)) = some (.coordinateGet (utf8 key) n r)) ∧
    (WriteAgrees put (parseWrite (ofUtf8 (Node.putReply put))) ↔
      if put.ok then Transparent put.clock.serialize else ¬ Misread put.error) ∧
    ((∃ reply parsed, Node.getReply get = some reply ∧
      parseRead (ofUtf8 reply) = some parsed ∧ ReadAgrees get parsed) ↔ ReadTransparent get) := by
  refine ⟨fun _ clean valid same replicas writes reads => ?_, writeAgrees_iff put, readAgrees_iff get⟩
  exact ⟨handleRequest_putPayload node clean value valid same replicas writes,
    handleRequest_deletePayload node clean valid same replicas writes,
    handleRequest_getPayload node clean replicas reads⟩

section Foreign

/-- The node alone on its ring, as it is addressed. -/
def hermit : Node := ⟨loneNode.self, loneNode.router, ⟨1, 1, 1⟩⟩

/-- A clock over an id that no node can have, as any client of the port may send it. -/
def foreignToken : Bytes := 0xFF :: ascii ":1:0"

/-- The result of a write with that context. -/
def foreignPut : PutResult :=
  Coordinator.verdict ⟨ascii "v", loneNode.bump (VectorClock.parse foreignToken) .empty 7, false⟩ 1 1 []

theorem gateway_node_agree_put_get :
    hermit.handleRequest (utf8 (putPayload [0xE9] (some (ascii "v")) (some (text "b:4:9")) 3 2 2)) =
        some (.coordinatePut [0xC3, 0xA9] (ascii "v") (VectorClock.empty.set (ascii "b") 4 9) 3 2) ∧
      hermit.handleRequest (utf8 (getPayload [0xE9] 3 2)) = some (.coordinateGet [0xC3, 0xA9] 3 2) := by
  have agree := (gateway_node_agree hermit [0xE9] (some (ascii "v")) (VectorClock.empty.set (ascii "b") 4 9)
    (some (text "b:4:9")) 3 2 2 foreignPut ⟨.notFound, [], []⟩).1 (by decide) (by decide) (by decide)
    (by decide +kernel) (by decide) (by decide) (by decide)
  exact ⟨agree.1, agree.2.2⟩

/-- The node takes the clock in and sends it back, and the gateway reads another one. -/
theorem foreign_clock_misread :
    hermit.handleRequest (ascii "PUT|k|dg==|c|1|1|1|" ++ foreignToken) =
        some (.coordinatePut (ascii "k") (ascii "v") (VectorClock.parse foreignToken) 1 1) ∧
      Node.putReply foreignPut = ascii "RESPONSE|OK|a:1:7," ++ foreignToken ∧
      parseWrite (ofUtf8 (Node.putReply foreignPut)) = .ok (text "a:1:7," ++ 0xFFFD :: text ":1:0") ∧
      ¬ WriteAgrees foreignPut (parseWrite (ofUtf8 (Node.putReply foreignPut))) := by
  decide +kernel

end Foreign

end MiniDynamo.Gateway
