import MiniDynamo.Net.Framing

/-! One connection of the server: frames are read, handled and answered one after the other, until
the stream ends or cannot be read as frames. -/

namespace MiniDynamo

namespace Descriptor

variable {fd after next : Descriptor}

/-- Only reads lie between the two. -/
structure OnlyRead (fd after : Descriptor) : Prop where
  outgoing : after.outgoing = fd.outgoing
  writes : after.writes = fd.writes

/-- Only writes lie between the two. -/
structure OnlyWritten (fd after : Descriptor) : Prop where
  incoming : after.incoming = fd.incoming
  reads : after.reads = fd.reads

theorem OnlyRead.trans (first : OnlyRead fd after) (second : OnlyRead after next) : OnlyRead fd next :=
  ⟨second.outgoing.trans first.outgoing, second.writes.trans first.writes⟩

theorem OnlyWritten.trans (first : OnlyWritten fd after) (second : OnlyWritten after next) : OnlyWritten fd next :=
  ⟨second.incoming.trans first.incoming, second.reads.trans first.reads⟩

theorem OnlyWritten.readable (written : OnlyWritten fd after) (readable : fd.Readable) : after.Readable := by
  unfold Readable
  rw [written.reads]
  exact readable

theorem OnlyRead.writable (read : OnlyRead fd after) (writable : fd.Writable) : after.Writable := by
  unfold Writable
  rw [read.writes]
  exact writable

theorem onlyRead_read {len : Nat} {transfer : Transfer} (result : fd.read len = (transfer, after)) :
    OnlyRead fd after := by
  unfold read at result
  split at result <;> cases result <;> exact ⟨rfl, rfl⟩

/-- The bytes a write moves. -/
def Transfer.bytes : Transfer → Bytes
  | .moved bytes => bytes
  | _ => []

theorem write_result {data : Bytes} {transfer : Transfer} (result : fd.write data = (transfer, after)) :
    after.outgoing = fd.outgoing ++ transfer.bytes ∧ transfer.bytes <+: data := by
  unfold write at result
  split at result <;> cases result
  · exact ⟨rfl, List.prefix_rfl⟩
  · exact ⟨(List.append_nil _).symm, List.nil_prefix⟩
  · exact ⟨(List.append_nil _).symm, List.nil_prefix⟩
  · exact ⟨rfl, List.take_prefix _ _⟩

theorem onlyWritten_write {data : Bytes} {transfer : Transfer} (result : fd.write data = (transfer, after)) :
    OnlyWritten fd after := by
  unfold write at result
  split at result <;> cases result <;> exact ⟨rfl, rfl⟩

end Descriptor

namespace Framing

open Descriptor

variable {fd after : Descriptor} {payload : Bytes}

theorem onlyWritten_writeAll (fd : Descriptor) (data : Bytes) : OnlyWritten fd (writeAll fd data).2 := by
  fun_induction writeAll fd data with
  | case1 fd => exact ⟨rfl, rfl⟩
  | case2 fd data some after result ih => exact (onlyWritten_write result).trans ih
  | case3 fd data some after result => exact onlyWritten_write result
  | case4 fd data some after result => exact onlyWritten_write result
  | case5 fd data some first rest after result ih => exact (onlyWritten_write result).trans ih

theorem onlyWritten_sendFramed (fd : Descriptor) (payload : Bytes) : OnlyWritten fd (sendFramed fd payload).2 := by
  have header := onlyWritten_writeAll fd (decimal payload.length ++ [newline])
  unfold sendFramed
  split
  · rename_i after result
    rw [result] at header
    exact header
  · rename_i after result
    rw [result] at header
    exact header.trans (onlyWritten_writeAll after payload)

theorem onlyRead_readAll (fd : Descriptor) (len : Nat) (got : Bytes) : OnlyRead fd (readAll fd len got).2 := by
  fun_induction readAll fd len got with
  | case1 fd got missing after result ih => exact (onlyRead_read result).trans ih
  | case2 fd got missing after result => exact onlyRead_read result
  | case3 fd got missing after result => exact onlyRead_read result
  | case4 fd got missing first others after result ih => exact (onlyRead_read result).trans ih
  | case5 fd got full => exact ⟨rfl, rfl⟩

theorem onlyRead_readHeader (fd : Descriptor) (lenStr : Bytes) : OnlyRead fd (readHeader fd lenStr).2 := by
  fun_induction readHeader fd lenStr with
  | case1 fd lenStr after result ih => exact (onlyRead_read result).trans ih
  | case7 fd lenStr c others after result different inside short ih => exact (onlyRead_read result).trans ih
  | _ => exact onlyRead_read (by assumption)

/-- What is read is taken off the front of the stream. -/
theorem readAll_took {len : Nat} {got bytes : Bytes} (read : readAll fd len got = (some bytes, after)) :
    ∃ body, bytes = got ++ body ∧ fd.incoming = body ++ after.incoming := by
  fun_induction readAll fd len got with
  | case1 fd got missing next result ih =>
    obtain ⟨body, whole, front⟩ := ih read
    exact ⟨body, whole, (read_interrupted result).1 ▸ front⟩
  | case2 => cases read
  | case3 => cases read
  | case4 fd got missing first others next result ih =>
    obtain ⟨body, whole, front⟩ := ih read
    refine ⟨first :: others ++ body, by rw [whole, List.append_assoc], ?_⟩
    rw [(read_moved result).1, front, List.append_assoc]
  | case5 fd got full =>
    cases read
    exact ⟨[], by simp, rfl⟩

/-- A length line is taken off the front of the stream. -/
theorem readHeader_took {lenStr line : Bytes} (read : readHeader fd lenStr = (some line, after)) :
    ∃ digits, line = lenStr ++ digits ∧ fd.incoming = digits ++ newline :: after.incoming ∧
      ∀ digit ∈ digits, isDigit digit = true := by
  fun_induction readHeader fd lenStr with
  | case1 fd lenStr next result ih =>
    obtain ⟨digits, whole, front, all⟩ := ih read
    exact ⟨digits, whole, (read_interrupted result).1 ▸ front, all⟩
  | case4 fd lenStr others next result =>
    cases read
    obtain ⟨front, few, -⟩ := read_moved result
    obtain rfl := List.eq_nil_of_length_eq_zero (Nat.le_zero.mp (Nat.le_of_succ_le_succ few))
    exact ⟨[], by simp, front, by simp⟩
  | case7 fd lenStr c others next result different inside short ih =>
    obtain ⟨digits, whole, front, all⟩ := ih read
    obtain ⟨here, few, -⟩ := read_moved result
    obtain rfl := List.eq_nil_of_length_eq_zero (Nat.le_zero.mp (Nat.le_of_succ_le_succ few))
    refine ⟨c :: digits, by rw [whole, List.append_assoc]; rfl, by rw [here, front]; rfl, ?_⟩
    exact List.forall_mem_cons.mpr ⟨Bool.not_eq_false _ ▸ inside, all⟩
  | _ => cases read

/-- A payload comes off the stream behind a line with its length. -/
theorem recvFramed_took (received : recvFramed fd = (some payload, after)) :
    ∃ digits, (∀ digit ∈ digits, isDigit digit = true) ∧ strtoull digits = payload.length ∧
      fd.incoming = digits ++ newline :: (payload ++ after.incoming) := by
  unfold recvFramed at received
  split at received
  · cases received
  · rename_i lenStr next header
    obtain ⟨digits, line, front, all⟩ := readHeader_took header
    obtain rfl : lenStr = digits := line
    refine ⟨lenStr, all, ?_⟩
    simp only at received
    split at received
    · cases received
    split at received
    · cases received
    split at received
    · rename_i empty
      cases received
      exact ⟨empty, front⟩
    · obtain ⟨body, same, rest⟩ := readAll_took received
      obtain rfl : payload = body := same
      have whole := readAll_length (Nat.zero_le _) (congrArg Prod.fst received)
      exact ⟨whole.symm, by rw [front, rest]⟩

theorem onlyRead_recvFramed (fd : Descriptor) : OnlyRead fd (recvFramed fd).2 := by
  have header := onlyRead_readHeader fd []
  unfold recvFramed
  split
  · rename_i next result
    rw [result] at header
    exact header
  · rename_i lenStr next result
    rw [result] at header
    simp only
    split
    · exact header
    split
    · exact header
    split
    · exact header
    · exact header.trans (onlyRead_readAll next _ _)

/-- Two length lines that begin the same bytes are the same. -/
theorem line_eq {digits rest body : Bytes} {size : Nat} (all : ∀ digit ∈ digits, isDigit digit = true)
    (same : digits ++ newline :: rest = decimal size ++ newline :: body) : digits = decimal size ∧ rest = body := by
  have clean : newline ∉ digits := by
    intro member
    have digit := all newline member
    exact absurd digit (by decide)
  have line := congrArg (Bytes.cut newline) same
  rw [Bytes.cut_append clean, Bytes.cut_append (decimal_clean (by decide))] at line
  exact Prod.mk.inj (Option.some.inj line)

/-- The line that begins a part of a frame, and what is missing behind it. -/
theorem line_part {digits rest sent : Bytes} (all : ∀ digit ∈ digits, isDigit digit = true)
    (part : digits ++ newline :: rest <+: frame sent) :
    digits = decimal sent.length ∧ ∃ missing, rest ++ missing = sent := by
  obtain ⟨missing, whole⟩ := part
  rw [List.append_assoc, List.cons_append] at whole
  obtain ⟨line, body⟩ := line_eq all whole
  exact ⟨line, missing, body⟩

/-- A payload with the length of the line it stands behind. -/
theorem length_of_line {size : Nat} (line : strtoull (decimal size) = payload.length)
    (small : payload.length ≤ kMaxFrame) : payload.length = size := by
  rw [strtoull, digitsValue_decimal] at line
  unfold kMaxFrame at small
  omega

/-- Where a frame is next, a payload that comes off the stream is its payload. -/
theorem recvFramed_taken {sent rest : Bytes} (next : fd.incoming = frame sent ++ rest)
    (received : recvFramed fd = (some payload, after)) : payload = sent ∧ after.incoming = rest := by
  obtain ⟨digits, all, length, front⟩ := recvFramed_took received
  have small := recvFramed_length (congrArg Prod.fst received)
  have same : digits ++ newline :: (payload ++ after.incoming) = decimal sent.length ++ newline :: (sent ++ rest) := by
    rw [← front, next, frame, List.append_assoc]
    rfl
  obtain ⟨rfl, body⟩ := line_eq all same
  exact List.append_inj body (length_of_line length small)

/-- A payload that comes off a part of a frame is its payload, and the part was all of it. -/
theorem recvFramed_part {sent : Bytes} (part : fd.incoming <+: frame sent)
    (received : recvFramed fd = (some payload, after)) : payload = sent ∧ after.incoming = [] := by
  obtain ⟨digits, all, length, front⟩ := recvFramed_took received
  have small := recvFramed_length (congrArg Prod.fst received)
  obtain ⟨rfl, missing, body⟩ := line_part all (front ▸ part)
  rw [List.append_assoc] at body
  obtain ⟨rfl, nothing⟩ := List.append_inj (body.trans (List.append_nil sent).symm) (length_of_line length small)
  exact ⟨rfl, (List.append_eq_nil_iff.mp nothing).1⟩

/-- An empty stream gives nothing. -/
theorem recvFramed_empty (empty : fd.incoming = []) : (recvFramed fd).1 = none := by
  cases received : recvFramed fd with
  | mk payload after =>
    cases payload with
    | none => rfl
    | some payload =>
      obtain ⟨digits, -, -, front⟩ := recvFramed_took received
      simp [empty] at front

/-- What is reported as written was written. -/
theorem writeAll_written {data : Bytes} (written : writeAll fd data = (true, after)) :
    after.outgoing = fd.outgoing ++ data := by
  fun_induction writeAll fd data with
  | case1 fd =>
    cases written
    simp
  | case2 fd data some next result ih =>
    rw [ih written, (write_result result).1]
    exact congrArg (· ++ data) (List.append_nil _)
  | case3 => cases written
  | case4 => cases written
  | case5 fd data some first rest next result ih =>
    obtain ⟨shown, front⟩ := write_result result
    rw [ih written, shown, List.append_assoc]
    exact congrArg (fd.outgoing ++ ·) (List.prefix_iff_eq_append.mp front)

theorem sendFramed_sent (sent : sendFramed fd payload = (true, after)) :
    after.outgoing = fd.outgoing ++ frame payload := by
  unfold sendFramed at sent
  split at sent
  · cases sent
  · rename_i next header
    rw [writeAll_written sent, writeAll_written header]
    simp [frame]

/-- What is written is a part of the data, from its front. -/
theorem writeAll_part (fd : Descriptor) (data : Bytes) :
    ∃ part, (writeAll fd data).2.outgoing = fd.outgoing ++ part ∧ part <+: data := by
  fun_induction writeAll fd data with
  | case1 fd => exact ⟨[], (List.append_nil _).symm, List.nil_prefix⟩
  | case2 fd data some next result ih =>
    obtain ⟨part, written, front⟩ := ih
    refine ⟨part, ?_, front⟩
    rw [written, (write_result result).1]
    exact congrArg (· ++ part) (List.append_nil _)
  | case3 fd data some next result => exact ⟨[], (write_result result).1, List.nil_prefix⟩
  | case4 fd data some next result => exact ⟨[], (write_result result).1, List.nil_prefix⟩
  | case5 fd data some first rest next result ih =>
    obtain ⟨part, written, front⟩ := ih
    obtain ⟨shown, moved⟩ := write_result result
    refine ⟨first :: rest ++ part, by rw [written, shown, List.append_assoc]; rfl, ?_⟩
    rw [← List.prefix_iff_eq_append.mp moved]
    exact (List.prefix_append_right_inj _).mpr front

theorem sendFramed_part (fd : Descriptor) (payload : Bytes) :
    ∃ part, (sendFramed fd payload).2.outgoing = fd.outgoing ++ part ∧ part <+: frame payload := by
  have shape : frame payload = decimal payload.length ++ [newline] ++ payload := by simp [frame]
  unfold sendFramed
  split
  · rename_i after cut
    obtain ⟨part, written, front⟩ := writeAll_part fd (decimal payload.length ++ [newline])
    rw [cut] at written
    exact ⟨part, written, shape ▸ front.trans (List.prefix_append _ _)⟩
  · rename_i after whole
    obtain ⟨part, written, front⟩ := writeAll_part after payload
    refine ⟨decimal payload.length ++ [newline] ++ part, ?_, shape ▸ (List.prefix_append_right_inj _).mpr front⟩
    rw [written, writeAll_written whole, List.append_assoc]

/-- A part of a stream is whole frames and less than a frame behind them. -/
theorem stream_front {payloads : List Bytes} {bytes : Bytes} (front : bytes <+: stream payloads) :
    ∃ count ≤ payloads.length, ∃ tail next, bytes = stream (payloads.take count) ++ tail ∧ tail <+: frame next ∧
      tail.length < (frame next).length ∧ (payloads[count]? = some next ∨ payloads.length = count ∧ next = []) := by
  induction payloads generalizing bytes with
  | nil =>
    obtain rfl := List.prefix_nil.mp front
    exact ⟨0, Nat.le_refl 0, [], [], rfl, List.nil_prefix, by simp [frame], .inr ⟨rfl, rfl⟩⟩
  | cons payload rest ih =>
    by_cases short : bytes.length < (frame payload).length
    · have within : bytes <+: frame payload :=
        List.prefix_of_prefix_length_le front (List.prefix_append _ _) (Nat.le_of_lt short)
      exact ⟨0, Nat.zero_le _, bytes, payload, rfl, within, short, .inl rfl⟩
    · have whole : frame payload <+: bytes :=
        List.prefix_of_prefix_length_le (List.prefix_append _ _) front (Nat.le_of_not_lt short)
      obtain ⟨more, rfl⟩ := whole
      obtain ⟨count, within, tail, next, split, cut, less, place⟩ := ih ((List.prefix_append_right_inj _).mp front)
      refine ⟨count + 1, Nat.succ_le_succ within, tail, next, ?_, cut, less, ?_⟩
      · rw [split, List.take_succ_cons, stream, stream, List.flatMap_cons, List.append_assoc]
      · rcases place with here | ⟨last, empty⟩
        · exact .inl here
        · exact .inr ⟨congrArg Nat.succ last, empty⟩

end Framing

namespace TCPServer

open Framing

variable {σ : Type}

/-- The node's `reply`: one frame, and whether it could be sent is not looked at. -/
def reply (fd : Descriptor) : Option Bytes → Descriptor
  | none => fd
  | some payload => (sendFramed fd payload).2

theorem onlyWritten_reply (fd : Descriptor) (answer : Option Bytes) : fd.OnlyWritten (reply fd answer) := by
  cases answer with
  | none => exact ⟨rfl, rfl⟩
  | some payload => exact onlyWritten_sendFramed fd payload

/-- The loop of `handleConnection`, over what the node does with a request: its reply, if it gives
one, and what becomes of it. The descriptor is closed afterwards. -/
def handleConnection (handleRequest : σ → Bytes → Option Bytes × σ) (node : σ) (clientFd : Descriptor) :
    σ × Descriptor :=
  match _ : recvFramed clientFd with
  | (none, after) => (node, after)
  | (some payload, after) =>
    handleConnection handleRequest (handleRequest node payload).2 (reply after (handleRequest node payload).1)
termination_by clientFd.incoming.length
decreasing_by
  obtain ⟨digits, -, -, front⟩ := recvFramed_took ‹_›
  rw [(onlyWritten_reply after _).incoming, front]
  simp only [List.length_append, List.length_cons]
  omega

/-- The replies to requests handled one after the other, and the node after them. -/
def answers (handleRequest : σ → Bytes → Option Bytes × σ) (node : σ) : List Bytes → List Bytes × σ
  | [] => ([], node)
  | payload :: rest =>
    let (more, last) := answers handleRequest (handleRequest node payload).2 rest
    ((handleRequest node payload).1.toList ++ more, last)

variable {handleRequest : σ → Bytes → Option Bytes × σ} {node : σ} {clientFd : Descriptor} {payloads : List Bytes}

theorem reply_spec {fd : Descriptor} (writable : fd.Writable) (answer : Option Bytes) :
    (reply fd answer).outgoing = fd.outgoing ++ stream answer.toList ∧ (reply fd answer).Writable := by
  cases answer with
  | none => exact ⟨by simp [reply, stream], writable⟩
  | some payload =>
    obtain ⟨after, sent, framed, still⟩ := sendFramed_spec writable payload
    rw [reply, sent]
    exact ⟨by simp [framed, stream], still⟩

theorem handleConnection_empty (handleRequest : σ → Bytes → Option Bytes × σ) (node : σ)
    (empty : clientFd.incoming = []) :
    (handleConnection handleRequest node clientFd).1 = node ∧
      (handleConnection handleRequest node clientFd).2.outgoing = clientFd.outgoing := by
  have nothing := recvFramed_empty empty
  have kept := (onlyRead_recvFramed clientFd).outgoing
  rw [handleConnection]
  split
  · rename_i after result
    rw [result] at kept
    exact ⟨rfl, kept⟩
  · rename_i payload after result
    rw [result] at nothing
    cases nothing

/-- Of a part of one request either nothing comes, or the request is handled, and a part of its reply is written. -/
theorem handleConnection_part (handleRequest : σ → Bytes → Option Bytes × σ) (node : σ) {request : Bytes}
    (fresh : clientFd.outgoing = []) (arrives : clientFd.incoming <+: frame request) :
    ((handleConnection handleRequest node clientFd).1 = node ∧
        (handleConnection handleRequest node clientFd).2.outgoing = []) ∨
      ((handleConnection handleRequest node clientFd).1 = (handleRequest node request).2 ∧
        (handleConnection handleRequest node clientFd).2.outgoing <+: stream (handleRequest node request).1.toList) := by
  have kept := (onlyRead_recvFramed clientFd).outgoing
  rw [handleConnection]
  split
  · rename_i after result
    rw [result, fresh] at kept
    exact .inl ⟨rfl, kept⟩
  · rename_i payload after result
    obtain ⟨rfl, empty⟩ := recvFramed_part arrives result
    rw [result, fresh] at kept
    have written := onlyWritten_reply after (handleRequest node payload).1
    obtain ⟨state, sent⟩ := handleConnection_empty handleRequest (handleRequest node payload).2
      (written.incoming.trans empty)
    refine .inr ⟨state, ?_⟩
    rw [sent]
    cases (handleRequest node payload).1 with
    | none => exact kept ▸ List.nil_prefix
    | some answer =>
      obtain ⟨part, shown, front⟩ := sendFramed_part after answer
      rw [reply, shown, show after.outgoing = [] from kept]
      simpa [stream] using front

/-- The frames on the stream are answered in order, and what follows them ends the connection. -/
theorem handleConnection_stream (readable : clientFd.Readable) (writable : clientFd.Writable)
    (small : ∀ payload ∈ payloads, payload.length ≤ kMaxFrame) {tail : Bytes}
    (arrives : clientFd.incoming = stream payloads ++ tail)
    (ends : ∀ fd : Descriptor, fd.Readable → fd.incoming = tail → (recvFramed fd).1 = none) :
    (handleConnection handleRequest node clientFd).1 = (answers handleRequest node payloads).2 ∧
      (handleConnection handleRequest node clientFd).2.outgoing =
        clientFd.outgoing ++ stream (answers handleRequest node payloads).1 := by
  induction payloads generalizing node clientFd with
  | nil =>
    have ended := ends clientFd readable arrives
    have kept := (onlyRead_recvFramed clientFd).outgoing
    rw [handleConnection]
    split
    · rename_i after result
      rw [result] at kept
      exact ⟨rfl, by simpa [answers, stream] using kept⟩
    · rename_i payload after result
      rw [result] at ended
      cases ended
  | cons payload rest ih =>
    obtain ⟨here, later⟩ := List.forall_mem_cons.mp small
    have front : clientFd.incoming = frame payload ++ (stream rest ++ tail) := by
      rw [arrives, stream, List.flatMap_cons, List.append_assoc]
      rfl
    obtain ⟨after, received, left, still⟩ := recvFramed_frame readable here front
    have kept := onlyRead_recvFramed clientFd
    rw [received] at kept
    have written := onlyWritten_reply after (handleRequest node payload).1
    obtain ⟨answered, open'⟩ := reply_spec (kept.writable writable) (handleRequest node payload).1
    obtain ⟨state, sent⟩ := @ih (handleRequest node payload).2 _ (written.readable still) open' later
      (written.incoming.trans left)
    rw [handleConnection]
    split
    · rename_i refused
      rw [received] at refused
      cases refused
    · rename_i again next result
      rw [received] at result
      cases result
      refine ⟨state, ?_⟩
      rw [sent, answered, kept.outgoing, List.append_assoc, answers]
      simp [stream]

/-- Requests sent back to back are answered in order, each once: of a stream that breaks off anywhere the
requests that have arrived whole, and the client reads just their replies off the connection. -/
theorem pipeline_answered (handleRequest : σ → Bytes → Option Bytes × σ) (node : σ) (requests : List Bytes)
    (small : ∀ request ∈ requests, request.length ≤ kMaxFrame) (clientFd : Descriptor) (readable : clientFd.Readable)
    (writable : clientFd.Writable) (arrives : clientFd.incoming <+: stream requests)
    (fresh : clientFd.outgoing = []) :
    ∃ count ≤ requests.length, stream (requests.take count) <+: clientFd.incoming ∧
      (count < requests.length → ¬ stream (requests.take (count + 1)) <+: clientFd.incoming) ∧
      (handleConnection handleRequest node clientFd).1 = (answers handleRequest node (requests.take count)).2 ∧
      (handleConnection handleRequest node clientFd).2.outgoing =
        stream (answers handleRequest node (requests.take count)).1 ∧
      ∀ client : Descriptor, client.Readable →
        client.incoming = (handleConnection handleRequest node clientFd).2.outgoing →
        (∀ answer ∈ (answers handleRequest node (requests.take count)).1, answer.length ≤ kMaxFrame) →
        ∃ last, Descriptor.Receives recvFramed client (answers handleRequest node (requests.take count)).1 last := by
  obtain ⟨count, within, tail, next, split, cut, less, place⟩ := stream_front arrives
  have bound : next.length ≤ kMaxFrame := by
    rcases place with here | ⟨-, rfl⟩
    · exact small next (List.mem_of_getElem? here)
    · exact Nat.zero_le _
  have ends (fd : Descriptor) (reads : fd.Readable) (left : fd.incoming = tail) : (recvFramed fd).1 = none := by
    obtain ⟨after, refused⟩ := recvFramed_cut reads bound (left ▸ cut) (left ▸ less)
    rw [refused]
  obtain ⟨state, sent⟩ := @handleConnection_stream σ handleRequest node clientFd _ readable writable
    (fun request member => small request (List.mem_of_mem_take member)) tail split ends
  rw [fresh, List.nil_append] at sent
  refine ⟨count, within, ⟨tail, split.symm⟩, fun more => ?_, state, sent, fun client reads carried fits => ?_⟩
  · intro whole
    rcases place with here | ⟨last, -⟩
    · rw [List.take_add_one, here, stream, List.flatMap_append, split] at whole
      have inside : frame next <+: tail := by
        simpa [stream] using (List.prefix_append_right_inj _).mp whole
      exact absurd inside.length_le (Nat.not_le_of_lt less)
    · exact absurd more (by rw [last]; exact Nat.lt_irrefl _)
  · obtain ⟨last, received⟩ := unframes_recvFramed.receives_stream reads fits (carried.trans sent)
    rw [List.map_id] at received
    exact ⟨last, received⟩

/-- A node that counts its requests and answers all but the empty one with their text. -/
def echo (seen : Nat) (payload : Bytes) : Option Bytes × Nat :=
  (if payload = [] then none else some payload, seen + 1)

/-- Three requests, of which the last breaks off, one byte at a time. -/
def brokenOff : Descriptor := ⟨ascii "1\na0\n2\nb", [], [.moves 1, .interrupted, .moves 1], [.moves 1, .interrupted]⟩

theorem pipeline_answered_brokenOff :
    ∃ count ≤ 3, (handleConnection echo 0 brokenOff).1 = (answers echo 0 ([[97], [], [98, 99]].take count)).2 := by
  obtain ⟨count, within, -, -, state, -⟩ := pipeline_answered echo 0 [[97], [], [98, 99]] (by decide) brokenOff
    (by decide) (by decide) (by decide +kernel) rfl
  exact ⟨count, within, state⟩

end TCPServer

end MiniDynamo
