import MiniDynamo.Library.Decimal
import MiniDynamo.Library.Descriptor

/-! Frames on a stream: a decimal length, a newline, and exactly that many bytes. However the
stream is cut into reads and writes, the receiver gets the payloads that were sent. -/

namespace MiniDynamo

namespace Framing

open Descriptor

/-- Write the whole buffer, tolerating partial writes and interrupts. -/
def writeAll (fd : Descriptor) (data : Bytes) : Bool × Descriptor :=
  if data = [] then (true, fd)
  else
    match _ : fd.write data with
    | (.interrupted, after) => writeAll after data
    | (.failed, after) => (false, after)
    | (.moved [], after) => (false, after)
    | (.moved (first :: rest), after) => writeAll after (data.drop (first :: rest).length)
termination_by data.length + fd.writes.length
decreasing_by
  · have fewer := write_interrupted ‹_›
    omega
  · have fewer := write_moved ‹_›
    have positive := List.length_pos_of_ne_nil ‹data ≠ []›
    rw [List.length_drop, List.length_cons]
    omega

/-- Read until the buffer of `len` bytes is full, tolerating partial reads and interrupts. -/
def readAll (fd : Descriptor) (len : Nat) (got : Bytes) : Option Bytes × Descriptor :=
  if got.length < len then
    match _ : fd.read (len - got.length) with
    | (.interrupted, after) => readAll after len got
    | (.failed, after) => (none, after)
    | (.moved [], after) => (none, after)
    | (.moved (first :: rest), after) => readAll after len (got ++ first :: rest)
  else (some got, fd)
termination_by len - got.length + fd.reads.length
decreasing_by
  · have fewer := read_interrupted ‹_›
    omega
  · have fewer := read_moved ‹_›
    rw [List.length_append, List.length_cons]
    omega

def newline : UInt8 := 10

def sendFramed (fd : Descriptor) (payload : Bytes) : Bool × Descriptor :=
  match writeAll fd (decimal payload.length ++ [newline]) with
  | (false, after) => (false, after)
  | (true, after) => writeAll after payload

/-- One payload after the other, until one cannot be sent. -/
def sendAll {α : Type} (send : Descriptor → α → Bool × Descriptor) : List α → Descriptor → Bool × Descriptor
  | [], fd => (true, fd)
  | payload :: rest, fd =>
    match send fd payload with
    | (false, after) => (false, after)
    | (true, after) => sendAll send rest after

/-- The length line, byte by byte: at most 20 digits and a newline. -/
def readHeader (fd : Descriptor) (lenStr : Bytes) : Option Bytes × Descriptor :=
  match _ : fd.read 1 with
  | (.interrupted, after) => readHeader after lenStr
  | (.failed, after) => (none, after)
  | (.moved [], after) => (none, after)
  | (.moved (c :: _), after) =>
    if c = newline then (some lenStr, after)
    else if isDigit c = false then (none, after)
    else if 20 < (lenStr ++ [c]).length then (none, after)
    else readHeader after (lenStr ++ [c])
termination_by fd.incoming.length + fd.reads.length
decreasing_by
  · have fewer := read_interrupted ‹_›
    rw [fewer.1]
    omega
  · have fewer := read_moved ‹_›
    rw [fewer.1, List.length_append, List.length_cons]
    omega

def kMaxFrame : Nat := 16 * 1024 * 1024

/-- `std::strtoull` of digits. -/
def strtoull (digits : Bytes) : Nat := min (digitsValue digits) (2 ^ 64 - 1)

def recvFramed (fd : Descriptor) : Option Bytes × Descriptor :=
  match readHeader fd [] with
  | (none, after) => (none, after)
  | (some lenStr, after) =>
    if lenStr = [] then (none, after)
    else
      let len := strtoull lenStr
      if kMaxFrame < len then (none, after)
      else if len = 0 then (some [], after)
      else readAll after len []

section Spec

variable {fd : Descriptor} {len : Nat} {got : Bytes}

theorem writeAll_spec (writable : fd.Writable) (data : Bytes) :
    ∃ after, writeAll fd data = (true, after) ∧ after.outgoing = fd.outgoing ++ data ∧ after.Writable := by
  fun_induction writeAll fd data with
  | case1 fd => exact ⟨fd, rfl, by simp, writable⟩
  | case2 fd data some after result ih =>
    obtain ⟨kept, still⟩ := writable.interrupted result
    rw [← kept]
    exact ih still
  | case3 fd data some after result => exact absurd result writable.not_failed
  | case4 fd data some after result => exact absurd rfl (writable.moved some result).1
  | case5 fd data some first rest after result ih =>
    obtain ⟨-, ⟨left, rfl⟩, written, still⟩ := writable.moved some result
    rw [List.drop_left] at ih ⊢
    obtain ⟨last, done, all, open'⟩ := ih still
    exact ⟨last, done, by rw [all, written, List.append_assoc], open'⟩

theorem readAll_length (within : got.length ≤ len) {bytes : Bytes} (read : (readAll fd len got).1 = some bytes) :
    bytes.length = len := by
  fun_induction readAll fd len got with
  | case1 fd got missing after result ih => exact ih within read
  | case2 fd got missing after result => cases read
  | case3 fd got missing after result => cases read
  | case4 fd got missing first others after result ih =>
    have few := (read_moved result).2.1
    refine ih ?_ read
    rw [List.length_append]
    omega
  | case5 fd got full =>
    obtain rfl := Option.some.inj read
    omega

/-- The receiver takes no payload above its limit. -/
theorem recvFramed_length {payload : Bytes} (received : (recvFramed fd).1 = some payload) :
    payload.length ≤ kMaxFrame := by
  unfold recvFramed at received
  split at received
  · cases received
  · simp only at received
    split at received
    · cases received
    · split at received
      · cases received
      · rename_i small
        split at received
        · obtain rfl := Option.some.inj received
          exact Nat.zero_le _
        · rw [readAll_length (Nat.zero_le _) received]
          omega

/-- What is asked for comes, in however many pieces. -/
theorem readAll_spec (readable : fd.Readable) {body rest : Bytes} (stream : fd.incoming = body ++ rest)
    (wanted : got.length + body.length = len) :
    ∃ after, readAll fd len got = (some (got ++ body), after) ∧ after.incoming = rest ∧ after.Readable := by
  fun_induction readAll fd len got generalizing body with
  | case1 fd got missing after result ih =>
    exact ih (readable.interrupted result) ((read_interrupted result).1.trans stream) wanted
  | case2 fd got missing after result => exact absurd result readable.not_failed
  | case3 fd got missing after result =>
    have ended := (readable.moved (by omega) result).1 rfl
    rw [stream] at ended
    obtain rfl := (List.append_eq_nil_iff.mp ended).1
    simp at wanted
    omega
  | case4 fd got missing first others after result ih =>
    obtain ⟨front, short, -⟩ := read_moved result
    have cut := front.symm.trans stream
    obtain ⟨left, rfl⟩ : (first :: others) <+: body :=
      List.prefix_of_prefix_length_le ⟨_, rfl⟩ ⟨_, cut.symm⟩ (by omega)
    rw [List.append_assoc] at cut
    have later : (got ++ first :: others).length + left.length = len := by
      rw [List.length_append] at wanted ⊢
      omega
    obtain ⟨last, done, kept, open'⟩ := ih (readable.moved (by omega) result).2 (List.append_cancel_left cut) later
    exact ⟨last, by rw [done, List.append_assoc], kept, open'⟩
  | case5 fd got full =>
    obtain rfl := List.eq_nil_of_length_eq_zero (show body.length = 0 by omega)
    exact ⟨fd, by simp, stream, readable⟩

/-- A stream that ends too early is noticed. -/
theorem readAll_short (readable : fd.Readable) (short : got.length + fd.incoming.length < len) :
    ∃ after, readAll fd len got = (none, after) := by
  fun_induction readAll fd len got with
  | case1 fd got missing after result ih =>
    exact ih (readable.interrupted result) (by rwa [(read_interrupted result).1])
  | case2 fd got missing after result => exact absurd result readable.not_failed
  | case3 fd got missing after result => exact ⟨after, rfl⟩
  | case4 fd got missing first others after result ih =>
    refine ih (readable.moved (by omega) result).2 ?_
    rw [(read_moved result).1, List.length_append] at short
    rw [List.length_append]
    omega
  | case5 fd got full => omega

/-- A read of one byte. -/
theorem read_byte (readable : fd.Readable) {c : UInt8} {others : Bytes} {after : Descriptor}
    (result : fd.read 1 = (.moved (c :: others), after)) : fd.incoming = c :: after.incoming ∧ after.Readable := by
  obtain ⟨front, short, -⟩ := read_moved result
  obtain rfl := List.eq_nil_of_length_eq_zero (show others.length = 0 by rw [List.length_cons] at short; omega)
  exact ⟨front, (readable.moved (by omega) result).2⟩

/-- Only digits are taken for a length. -/
theorem readHeader_digits {lenStr line : Bytes} {after : Descriptor} (read : readHeader fd lenStr = (some line, after))
    (all : ∀ digit ∈ lenStr, isDigit digit = true) : ∀ digit ∈ line, isDigit digit = true := by
  fun_induction readHeader fd lenStr with
  | case1 fd lenStr next result ih => exact ih read all
  | case2 => cases read
  | case3 => cases read
  | case4 fd lenStr others next result =>
    cases read
    exact all
  | case5 => cases read
  | case6 => cases read
  | case7 fd lenStr c others next result different inside short ih =>
    refine ih read (fun digit member => ?_)
    rcases List.mem_append.mp member with before | last
    · exact all digit before
    · rw [List.mem_singleton.mp last]
      exact Bool.not_eq_false _ ▸ inside

theorem readHeader_spec {lenStr digits rest : Bytes} (readable : fd.Readable)
    (stream : fd.incoming = digits ++ newline :: rest) (all : ∀ digit ∈ digits, isDigit digit = true)
    (short : lenStr.length + digits.length ≤ 20) :
    ∃ after, readHeader fd lenStr = (some (lenStr ++ digits), after) ∧ after.incoming = rest ∧ after.Readable := by
  fun_induction readHeader fd lenStr generalizing digits with
  | case1 fd lenStr after result ih =>
    exact ih (readable.interrupted result) ((read_interrupted result).1.trans stream) all short
  | case2 fd lenStr after result => exact absurd result readable.not_failed
  | case3 fd lenStr after result =>
    have ended := (readable.moved (by omega) result).1 rfl
    simp [stream] at ended
  | case4 fd lenStr others after result =>
    obtain ⟨first, still⟩ := read_byte readable result
    cases digits with
    | nil => exact ⟨after, by simp, (List.cons.inj (first.symm.trans stream)).2, still⟩
    | cons digit digits =>
      have other := all digit List.mem_cons_self
      rw [← (List.cons.inj (first.symm.trans stream)).1] at other
      exact absurd other (by decide)
  | case5 fd lenStr c others after result different outside =>
    obtain ⟨first, -⟩ := read_byte readable result
    cases digits with
    | nil => exact absurd (List.cons.inj (first.symm.trans stream)).1 different
    | cons digit digits =>
      have inside := all digit List.mem_cons_self
      rw [← (List.cons.inj (first.symm.trans stream)).1, outside] at inside
      cases inside
  | case6 fd lenStr c others after result different inside long =>
    obtain ⟨first, -⟩ := read_byte readable result
    cases digits with
    | nil => exact absurd (List.cons.inj (first.symm.trans stream)).1 different
    | cons digit digits =>
      rw [List.length_append, List.length_singleton] at long
      rw [List.length_cons] at short
      omega
  | case7 fd lenStr c others after result different inside fits ih =>
    obtain ⟨first, still⟩ := read_byte readable result
    cases digits with
    | nil => exact absurd (List.cons.inj (first.symm.trans stream)).1 different
    | cons digit digits =>
      obtain ⟨rfl, left⟩ := List.cons.inj (first.symm.trans stream)
      rw [List.length_cons] at short
      obtain ⟨last, done, kept, open'⟩ := ih still left (fun other member => all other (List.mem_cons_of_mem c member))
        (by rw [List.length_append, List.length_singleton]; omega)
      exact ⟨last, by rw [done, List.append_assoc, List.singleton_append], kept, open'⟩

theorem readHeader_short {lenStr : Bytes} (readable : fd.Readable) (cut : newline ∉ fd.incoming) :
    ∃ after, readHeader fd lenStr = (none, after) := by
  fun_induction readHeader fd lenStr with
  | case1 fd lenStr after result ih =>
    exact ih (readable.interrupted result) (by rwa [(read_interrupted result).1])
  | case2 fd lenStr after result => exact absurd result readable.not_failed
  | case3 fd lenStr after result => exact ⟨after, rfl⟩
  | case4 fd lenStr others after result =>
    rw [(read_byte readable result).1] at cut
    exact absurd List.mem_cons_self cut
  | case5 fd lenStr c others after result different outside => exact ⟨after, rfl⟩
  | case6 fd lenStr c others after result different inside long => exact ⟨after, rfl⟩
  | case7 fd lenStr c others after result different inside fits ih =>
    obtain ⟨first, still⟩ := read_byte readable result
    rw [first] at cut
    exact ih still (fun member => cut (List.mem_cons_of_mem c member))

end Spec

/-- One payload on the wire. -/
def frame (payload : Bytes) : Bytes := decimal payload.length ++ newline :: payload

/-- Payloads on the wire, one after the other. -/
def stream (payloads : List Bytes) : Bytes := payloads.flatMap frame

section Frames

variable {fd : Descriptor} {payload rest : Bytes}

theorem sendFramed_spec (writable : fd.Writable) (payload : Bytes) :
    ∃ after, sendFramed fd payload = (true, after) ∧ after.outgoing = fd.outgoing ++ frame payload ∧
      after.Writable := by
  obtain ⟨next, headed, outgoing, open'⟩ := writeAll_spec writable (decimal payload.length ++ [newline])
  obtain ⟨last, done, sent, still⟩ := writeAll_spec open' payload
  refine ⟨last, by rw [sendFramed, headed]; exact done, ?_, still⟩
  rw [sent, outgoing, frame]
  simp

theorem decimal_length {value : Nat} (small : value ≤ kMaxFrame) : (decimal value).length ≤ 20 := by
  unfold kMaxFrame at small
  exact length_decimal_le (by omega) (by omega)

theorem strtoull_decimal {value : Nat} (small : value ≤ kMaxFrame) : strtoull (decimal value) = value := by
  rw [strtoull, digitsValue_decimal]
  unfold kMaxFrame at small
  omega

/-- The length line of a frame, whatever follows it. -/
theorem readHeader_frame (readable : fd.Readable) (small : payload.length ≤ kMaxFrame) {body : Bytes}
    (stream : fd.incoming = decimal payload.length ++ newline :: body) :
    ∃ after, readHeader fd [] = (some (decimal payload.length), after) ∧ after.incoming = body ∧ after.Readable :=
  readHeader_spec readable stream (fun _ member => decimal_isDigit member) (by
    rw [List.length_nil, Nat.zero_add]
    exact decimal_length small)

/-- A stream that ends within a frame has its length line, or no end of it. -/
theorem frame_cut {front : Bytes} (cut : front <+: frame payload) (short : front.length < (frame payload).length) :
    newline ∉ front ∨
      ∃ body, front = decimal payload.length ++ newline :: body ∧ body.length < payload.length := by
  have clean : newline ∉ decimal payload.length := decimal_clean (by decide)
  by_cases inside : front.length ≤ (decimal payload.length).length
  · have digits : front <+: decimal payload.length := List.prefix_of_prefix_length_le cut ⟨_, rfl⟩ inside
    exact .inl (fun member => clean (digits.subset member))
  · have whole : frame payload = (decimal payload.length ++ [newline]) ++ payload := by simp [frame]
    obtain ⟨body, rfl⟩ : decimal payload.length ++ [newline] <+: front :=
      List.prefix_of_prefix_length_le ⟨payload, whole.symm⟩ cut (by simp; omega)
    refine .inr ⟨body, by simp, ?_⟩
    rw [whole] at short
    simpa using short

theorem recvFramed_frame (readable : fd.Readable) (small : payload.length ≤ kMaxFrame)
    (stream : fd.incoming = frame payload ++ rest) :
    ∃ after, recvFramed fd = (some payload, after) ∧ after.incoming = rest ∧ after.Readable := by
  rw [frame, List.append_assoc, List.cons_append] at stream
  obtain ⟨next, header, left, still⟩ := readHeader_frame readable small stream
  rw [recvFramed, header]
  simp only [decimal_ne_nil, ↓reduceIte, strtoull_decimal small, Nat.not_lt.mpr small]
  split
  · rename_i none
    obtain rfl := List.eq_nil_of_length_eq_zero none
    exact ⟨next, rfl, left, still⟩
  · exact readAll_spec still left (by simp)

/-- Wherever its frame arrives, the receiver takes the payload. -/
def Receivable (payload : Bytes) : Prop :=
  ∀ (fd : Descriptor) (rest : Bytes), fd.Readable → fd.incoming = frame payload ++ rest →
    (recvFramed fd).1 = some payload

theorem receivable_iff : Receivable payload ↔ payload.length ≤ kMaxFrame := by
  constructor
  · intro receivable
    exact recvFramed_length (receivable ⟨frame payload, [], [], []⟩ [] List.not_mem_nil (List.append_nil _).symm)
  · intro small fd rest readable stream
    obtain ⟨after, received, -⟩ := recvFramed_frame readable small stream
    rw [received]

theorem recvFramed_cut (readable : fd.Readable) (small : payload.length ≤ kMaxFrame)
    (cut : fd.incoming <+: frame payload) (short : fd.incoming.length < (frame payload).length) :
    ∃ after, recvFramed fd = (none, after) := by
  rcases frame_cut cut short with headless | ⟨body, shape, missing⟩
  · obtain ⟨after, header⟩ : ∃ after, readHeader fd [] = (none, after) := readHeader_short readable headless
    exact ⟨after, by rw [recvFramed, header]⟩
  · obtain ⟨next, header, rfl, still⟩ := readHeader_frame readable small shape
    rw [recvFramed, header]
    simp only [decimal_ne_nil, ↓reduceIte, strtoull_decimal small, Nat.not_lt.mpr small]
    rw [if_neg (by omega)]
    exact readAll_short still (by simpa using missing)

end Frames

/-! ### Any receiver of frames -/

/-- A receiver takes a frame off the stream, or is refused where the stream ends within one. -/
structure Unframes {α : Type} (receive : Descriptor → Option α × Descriptor) (decode : Bytes → α) : Prop where
  whole : ∀ {fd payload rest}, Descriptor.Readable fd → payload.length ≤ kMaxFrame →
    fd.incoming = frame payload ++ rest →
    ∃ after, receive fd = (some (decode payload), after) ∧ after.incoming = rest ∧ after.Readable
  cut : ∀ {fd payload}, Descriptor.Readable fd → payload.length ≤ kMaxFrame →
    fd.incoming <+: frame payload → fd.incoming.length < (frame payload).length →
    ∃ after, receive fd = (none, after)

section Receivers

variable {α : Type} {receive : Descriptor → Option α × Descriptor} {decode : Bytes → α} {fd : Descriptor}
  {payloads : List Bytes}

theorem unframes_recvFramed : Unframes recvFramed id := ⟨recvFramed_frame, recvFramed_cut⟩

theorem Unframes.receives_stream (unframes : Unframes receive decode) (readable : fd.Readable)
    (small : ∀ payload ∈ payloads, payload.length ≤ kMaxFrame) (whole : fd.incoming = stream payloads) :
    ∃ last, Receives receive fd (payloads.map decode) last := by
  induction payloads generalizing fd with
  | nil =>
    have ended : fd.incoming = [] := whole
    have front : fd.incoming <+: frame [] := ended ▸ List.nil_prefix
    obtain ⟨after, refused⟩ := unframes.cut readable (Nat.zero_le _) front (by simp [ended, frame])
    exact ⟨after, .refused refused⟩
  | cons payload rest ih =>
    obtain ⟨here, later⟩ := List.forall_mem_cons.mp small
    obtain ⟨after, received, left, still⟩ := unframes.whole readable here whole
    obtain ⟨last, others⟩ := ih still later left
    exact ⟨last, .received received others⟩

/-- Of a stream that is cut, exactly the frames before the cut arrive. -/
theorem Unframes.receives_cut (unframes : Unframes receive decode) (readable : fd.Readable)
    (small : ∀ payload ∈ payloads, payload.length ≤ kMaxFrame) {cut : Nat} (early : cut < (stream payloads).length)
    (part : fd.incoming = (stream payloads).take cut) :
    ∃ count < payloads.length, (stream (payloads.take count)).length ≤ cut ∧
      cut < (stream (payloads.take (count + 1))).length ∧
      ∃ last, Receives receive fd ((payloads.take count).map decode) last := by
  induction payloads generalizing fd cut with
  | nil => exact absurd early (Nat.not_lt_zero cut)
  | cons payload rest ih =>
    obtain ⟨here, later⟩ := List.forall_mem_cons.mp small
    have shape : stream (payload :: rest) = frame payload ++ stream rest := rfl
    rw [shape] at part early
    by_cases inside : cut < (frame payload).length
    · rw [List.take_append_of_le_length (Nat.le_of_lt inside)] at part
      obtain ⟨after, refused⟩ := unframes.cut readable here (part ▸ List.take_prefix cut _)
        (by rw [part, List.length_take]; omega)
      refine ⟨0, by simp, by simp [stream], ?_, after, .refused refused⟩
      simpa [stream] using inside
    · rw [List.take_append, List.take_of_length_le (by omega)] at part
      obtain ⟨after, received, left, still⟩ := unframes.whole readable here part
      rw [List.length_append] at early
      obtain ⟨count, less, before, behind, last, others⟩ := ih still later (by omega) left
      refine ⟨count + 1, by simpa using less, ?_, ?_, last, .received received others⟩
      · rw [List.take_succ_cons, stream, List.flatMap_cons, List.length_append]
        change _ + (stream (rest.take count)).length ≤ cut
        omega
      · rw [List.take_succ_cons, stream, List.flatMap_cons, List.length_append]
        change cut < _ + (stream (rest.take (count + 1))).length
        omega

end Receivers

/-- A sender that writes frames writes the stream. -/
theorem sendAll_spec {α : Type} {send : Descriptor → α → Bool × Descriptor} (encode : α → Bytes)
    (frames : ∀ {fd : Descriptor}, fd.Writable → ∀ message : α, ∃ after, send fd message = (true, after) ∧
      after.outgoing = fd.outgoing ++ frame (encode message) ∧ after.Writable)
    (messages : List α) {fd : Descriptor} (writable : fd.Writable) :
    ∃ after, sendAll send messages fd = (true, after) ∧
      after.outgoing = fd.outgoing ++ stream (messages.map encode) := by
  induction messages generalizing fd with
  | nil => exact ⟨fd, rfl, by simp [stream]⟩
  | cons message rest ih =>
    obtain ⟨next, sent, framed, still⟩ := frames writable message
    obtain ⟨last, done, all⟩ := ih still
    refine ⟨last, by rw [sendAll, sent]; exact done, ?_⟩
    rw [all, framed]
    simp [stream]

end Framing

end MiniDynamo
