import MiniDynamo.Gateway.JavaText
import MiniDynamo.Net.Framing

/-! The gateway's end of a connection: the same frames, around the UTF-8 of a string. -/

namespace MiniDynamo.Gateway

open Utf16 Descriptor Framing

/-- `getBytes(US_ASCII)`. -/
def usAscii (string : Utf16) : Bytes := string.map (fun unit => if unit.toNat < 0x80 then unit.toUInt8 else 63)

/-- `InputStream.readNBytes`: what comes until there are `len` bytes or the stream ends. -/
def readNBytes (fd : Descriptor) (len : Nat) (got : Bytes) : Option Bytes × Descriptor :=
  if got.length < len then
    match _ : fd.read (len - got.length) with
    | (.interrupted, after) => readNBytes after len got
    | (.failed, after) => (none, after)
    | (.moved [], after) => (some got, after)
    | (.moved (first :: rest), after) => readNBytes after len (got ++ first :: rest)
  else (some got, fd)
termination_by len - got.length + fd.reads.length
decreasing_by
  · have fewer := read_interrupted ‹_›
    omega
  · have fewer := read_moved ‹_›
    rw [List.length_append, List.length_cons]
    omega

namespace ClusterClient

def maxFrame : Int := 16 * 1024 * 1024

/-- The stream's `write` loops as `writeAll` does. -/
def sendFramed (fd : Descriptor) (payload : Utf16) : Bool × Descriptor :=
  let body := utf8 payload
  match writeAll fd (usAscii (toText body.length ++ [newline])) with
  | (false, after) => (false, after)
  | (true, after) => writeAll after body

/-- Where `none` is an exception. The length line is read as the node reads it. -/
def recvFramed (fd : Descriptor) : Option Utf16 × Descriptor :=
  match readHeader fd [] with
  | (none, after) => (none, after)
  | (some len, after) =>
    if len = [] then (none, after)
    else
      match parseInt (widen len) with
      | none => (none, after)
      | some n =>
        if n < 0 ∨ maxFrame < n then (none, after)
        else
          match readNBytes after n.toNat [] with
          | (none, after) => (none, after)
          | (some body, after) => if body.length ≠ n.toNat then (none, after) else (some (ofUtf8 body), after)

end ClusterClient

/-- The node's loop, told apart by the length of what came. -/
theorem readAll_eq_readNBytes {fd : Descriptor} {len : Nat} {got : Bytes} (within : got.length ≤ len) :
    readAll fd len got =
      ((readNBytes fd len got).1.filter (fun body => body.length = len), (readNBytes fd len got).2) := by
  fun_induction readNBytes fd len got with
  | case1 fd got missing after result ih =>
    rw [readAll, if_pos missing]
    split <;> rename_i same <;> cases result.symm.trans same
    exact ih within
  | case2 fd got missing after result =>
    rw [readAll, if_pos missing]
    split <;> rename_i same <;> cases result.symm.trans same
    rfl
  | case3 fd got missing after result =>
    rw [readAll, if_pos missing]
    split <;> rename_i same <;> cases result.symm.trans same
    rw [Option.filter_some_neg]
    simpa using Nat.ne_of_lt missing
  | case4 fd got missing first others after result ih =>
    rw [readAll, if_pos missing]
    split <;> rename_i same <;> cases result.symm.trans same
    have short := (read_moved result).2.1
    exact ih (by rw [List.length_append]; omega)
  | case5 fd got full =>
    rw [readAll, if_neg full, Option.filter_some_pos]
    simpa using Nat.le_antisymm within (Nat.not_lt.mp full)

section Frames

variable {fd : Descriptor} {payload : Bytes}

theorem usAscii_widen {bytes : Bytes} (ascii : ∀ byte ∈ bytes, byte.toNat < 0x80) : usAscii (widen bytes) = bytes := by
  rw [usAscii, widen, List.map_map]
  conv_rhs => rw [← List.map_id bytes]
  refine List.map_congr_left (fun byte member => ?_)
  simp [ascii byte member]

/-- The gateway writes the frame the node would. -/
theorem sendFramed_eq (fd : Descriptor) (payload : Utf16) :
    ClusterClient.sendFramed fd payload = Framing.sendFramed fd (utf8 payload) := by
  have whole : toText (utf8 payload).length ++ [newline] =
      widen (decimal (utf8 payload).length ++ [Framing.newline]) := by
    rw [toText_nonneg]
    simp [widen, newline, Framing.newline]
  have ascii : ∀ byte ∈ decimal (utf8 payload).length ++ [Framing.newline], byte.toNat < 0x80 := by
    intro byte member
    rcases List.mem_append.mp member with digit | last
    · exact decimal_ascii digit
    · rw [List.mem_singleton.mp last]
      decide
  cases sent : writeAll fd (decimal (utf8 payload).length ++ [Framing.newline]) with
  | mk done after =>
    cases done <;> simp only [ClusterClient.sendFramed, Framing.sendFramed, whole, usAscii_widen ascii, sent]

theorem sendFramed_utf8 (writable : fd.Writable) (payload : Utf16) :
    ∃ after, ClusterClient.sendFramed fd payload = (true, after) ∧
      after.outgoing = fd.outgoing ++ frame (utf8 payload) ∧ after.Writable := by
  rw [sendFramed_eq]
  exact sendFramed_spec writable (utf8 payload)

/-- Past the length line of a frame, the gateway reads as many bytes as it says. -/
theorem recvFramed_eq (small : payload.length ≤ kMaxFrame) {after : Descriptor}
    (header : readHeader fd [] = (some (decimal payload.length), after)) :
    ClusterClient.recvFramed fd =
      ((readAll after payload.length []).1.map ofUtf8, (readAll after payload.length []).2) := by
  have bound : payload.length ≤ 16 * 1024 * 1024 := small
  have length : parseInt (widen (decimal payload.length)) = some (payload.length : Int) := parseInt_decimal (by omega)
  have fits : ¬ ((payload.length : Int) < 0 ∨ ClusterClient.maxFrame < payload.length) := by
    unfold ClusterClient.maxFrame
    omega
  rw [ClusterClient.recvFramed, header, readAll_eq_readNBytes (Nat.zero_le _)]
  simp only [decimal_ne_nil, ↓reduceIte, length, fits, Int.toNat_natCast]
  obtain ⟨body, last⟩ := readNBytes after payload.length []
  cases body with
  | none => rfl
  | some body =>
    by_cases whole : body.length = payload.length
    · simp [whole]
    · simp [whole]

theorem unframes_recvFramed : Unframes ClusterClient.recvFramed ofUtf8 where
  whole := by
    intro fd payload rest readable small stream
    rw [frame, List.append_assoc, List.cons_append] at stream
    obtain ⟨next, header, left, still⟩ := readHeader_frame readable small stream
    obtain ⟨last, body, kept, open'⟩ :=
      readAll_spec still left (show [].length + payload.length = payload.length by simp)
    exact ⟨last, by rw [recvFramed_eq small header, body]; rfl, kept, open'⟩
  cut := by
    intro fd payload readable small cut short
    rcases frame_cut cut short with headless | ⟨body, shape, missing⟩
    · obtain ⟨after, header⟩ : ∃ after, readHeader fd [] = (none, after) := readHeader_short readable headless
      exact ⟨after, by rw [ClusterClient.recvFramed, header]⟩
    · obtain ⟨next, header, rfl, still⟩ := readHeader_frame readable small shape
      obtain ⟨last, refused⟩ := readAll_short still (show [].length + next.incoming.length < payload.length by simpa)
      exact ⟨last, by rw [recvFramed_eq small header, refused]; rfl⟩

end Frames

/-- Payloads sent as frames arrive as they were sent, however the stream is fragmented, and a
stream that is cut gives exactly the payloads before the cut. The gateway may stand at either
end, as long as the payloads are text. -/
theorem framing_lossless (payloads : List Bytes) (small : ∀ payload ∈ payloads, payload.length ≤ kMaxFrame) :
    (∀ fd : Descriptor, fd.Writable →
      ∃ after, sendAll Framing.sendFramed payloads fd = (true, after) ∧
        after.outgoing = fd.outgoing ++ stream payloads) ∧
    (∀ fd : Descriptor, fd.Readable → fd.incoming = stream payloads →
      ∃ last, Receives Framing.recvFramed fd payloads last) ∧
    (∀ cut < (stream payloads).length, ∀ fd : Descriptor, fd.Readable → fd.incoming = (stream payloads).take cut →
      ∃ count < payloads.length, (stream (payloads.take count)).length ≤ cut ∧
        cut < (stream (payloads.take (count + 1))).length ∧
        ∃ last, Receives Framing.recvFramed fd (payloads.take count) last) ∧
    ((∀ payload ∈ payloads, ValidUtf8 payload) →
      (∀ fd : Descriptor, fd.Writable →
        ∃ after, sendAll ClusterClient.sendFramed (payloads.map ofUtf8) fd = (true, after) ∧
          after.outgoing = fd.outgoing ++ stream payloads) ∧
      (∀ fd : Descriptor, fd.Readable → fd.incoming = stream payloads →
        ∃ strings last, Receives ClusterClient.recvFramed fd strings last ∧ strings.map utf8 = payloads) ∧
      (∀ cut < (stream payloads).length, ∀ fd : Descriptor, fd.Readable → fd.incoming = (stream payloads).take cut →
        ∃ count < payloads.length, (stream (payloads.take count)).length ≤ cut ∧
          cut < (stream (payloads.take (count + 1))).length ∧
          ∃ strings last, Receives ClusterClient.recvFramed fd strings last ∧
            strings.map utf8 = payloads.take count)) := by
  have back : (∀ payload ∈ payloads, ValidUtf8 payload) → ∀ part ⊆ payloads, (part.map ofUtf8).map utf8 = part := by
    intro valid part inside
    rw [List.map_map]
    conv_rhs => rw [← List.map_id part]
    exact List.map_congr_left (fun payload member => (valid payload (inside member)).utf8_ofUtf8)
  refine ⟨?_, ?_, ?_, fun valid => ⟨?_, ?_, ?_⟩⟩
  · intro fd writable
    simpa using sendAll_spec id sendFramed_spec payloads writable
  · intro fd readable whole
    simpa using Framing.unframes_recvFramed.receives_stream readable small whole
  · intro cut early fd readable part
    simpa using Framing.unframes_recvFramed.receives_cut readable small early part
  · intro fd writable
    have frames := sendAll_spec utf8 sendFramed_utf8 (payloads.map ofUtf8) writable
    rwa [back valid payloads (List.Subset.refl _)] at frames
  · intro fd readable whole
    obtain ⟨last, received⟩ := unframes_recvFramed.receives_stream readable small whole
    exact ⟨_, last, received, back valid payloads (List.Subset.refl _)⟩
  · intro cut early fd readable part
    obtain ⟨count, less, before, behind, last, received⟩ :=
      unframes_recvFramed.receives_cut readable small early part
    exact ⟨count, less, before, behind, _, last, received, back valid _ (List.take_subset count payloads)⟩

/-- Two frames, one of them empty, in reads of one byte with an interrupt between. -/
theorem framing_lossless_bytewise :
    (∃ last, Receives Framing.recvFramed
      ⟨stream [ascii "a|1", []], [], [.moves 1, .interrupted, .moves 1, .moves 1], []⟩ [ascii "a|1", []] last) ∧
    ∃ strings last, Receives ClusterClient.recvFramed
      ⟨stream [ascii "a|1", []], [], [.moves 1, .interrupted, .moves 1, .moves 1], []⟩ strings last ∧
        strings.map utf8 = [ascii "a|1", []] :=
  have lossless := framing_lossless [ascii "a|1", []] (by decide)
  ⟨lossless.2.1 _ (by decide) rfl, (lossless.2.2.2 (by decide +kernel)).2.1 _ (by decide) rfl⟩

end MiniDynamo.Gateway
