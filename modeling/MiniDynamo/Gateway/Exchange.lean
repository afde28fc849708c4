import MiniDynamo.Gateway.JavaFraming

/-! How the gateway talks to the nodes: one exchange over pooled sockets, with the next target tried
when one fails. Failing means an `IOException`. A length line whose number is no `int` throws another
exception, which nothing on the way catches. -/

namespace MiniDynamo.Gateway

open Utf16 Descriptor Framing

/-- What the transport may throw; only the first is ever caught. -/
inductive Thrown where
  | ioException
  | numberFormatException
  deriving DecidableEq

/-- An endpoint, and the key of its pool. -/
structure Endpoint where
  host : Utf16
  port : Int

def Endpoint.key (endpoint : Endpoint) : Utf16 := endpoint.host ++ text ":" ++ toText endpoint.port

/-- The sockets of the client, numbered as they were opened: the idle ones of each pool, the stream
behind each, what the next connects give (nothing where they throw), and the closed ones. The log has
the streams as they were when a reply was read. -/
structure Transport where
  pools : Utf16 → List Nat
  streams : Nat → Descriptor
  dials : List (Option Descriptor)
  opened : Nat
  closed : List Nat
  received : List Descriptor

namespace Transport

/-- `recvFramed` with the exceptions told apart. -/
def recvFramed (fd : Descriptor) : Except Thrown Utf16 × Descriptor :=
  match readHeader fd [] with
  | (none, after) => (.error .ioException, after)
  | (some len, after) =>
    if len = [] then (.error .ioException, after)
    else
      match parseInt (widen len) with
      | none => (.error .numberFormatException, after)
      | some n =>
        if n < 0 ∨ ClusterClient.maxFrame < n then (.error .ioException, after)
        else
          match readNBytes after n.toNat [] with
          | (none, after) => (.error .ioException, after)
          | (some body, after) =>
            if body.length ≠ n.toNat then (.error .ioException, after) else (.ok (ofUtf8 body), after)

def start (dials : List (Option Descriptor)) : Transport := ⟨fun _ => [], fun _ => ⟨[], [], [], []⟩, dials, 0, [], []⟩

def setPool (transport : Transport) (key : Utf16) (sockets : List Nat) : Transport :=
  { transport with pools := fun other => if other = key then sockets else transport.pools other }

def setStream (transport : Transport) (socket : Nat) (stream : Descriptor) : Transport :=
  { transport with streams := fun other => if other = socket then stream else transport.streams other }

def closeQuietly (transport : Transport) (socket : Nat) : Transport :=
  { transport with closed := socket :: transport.closed }

/-- The loop of `pollPooled`, which closes again what is closed. -/
def poll (closed : List Nat) : List Nat → Option Nat × List Nat
  | [] => (none, [])
  | socket :: rest => if socket ∈ closed then poll closed rest else (some socket, rest)

def pollPooled (transport : Transport) (key : Utf16) : Option Nat × Transport :=
  let (socket, rest) := poll transport.closed (transport.pools key)
  (socket, transport.setPool key rest)

/-- A pool keeps as many sockets as it may, the last one first. -/
def checkin (transport : Transport) (maxConnections : Int) (key : Utf16) (socket : Nat) : Transport :=
  if ((transport.pools key).length : Int) < maxConnections then transport.setPool key (socket :: transport.pools key)
  else transport.closeQuietly socket

def dial (transport : Transport) : Option Nat × Transport :=
  match transport.dials with
  | [] => (none, transport)
  | none :: rest => (none, { transport with dials := rest })
  | some stream :: rest =>
    (some transport.opened,
      { transport with dials := rest, opened := transport.opened + 1 }.setStream transport.opened stream)

def roundTrip (transport : Transport) (socket : Nat) (payload : Utf16) : Except Thrown Utf16 × Transport :=
  match ClusterClient.sendFramed (transport.streams socket) payload with
  | (false, stream) => (.error .ioException, transport.setStream socket stream)
  | (true, stream) =>
    let (reply, after) := recvFramed stream
    (reply, { transport.setStream socket after with received := transport.received ++ [stream] })

/-- A round trip on a new socket. -/
def tripFresh (transport : Transport) (maxConnections : Int) (key payload : Utf16) : Except Thrown Utf16 × Transport :=
  match transport.dial with
  | (none, after) => (.error .ioException, after)
  | (some fresh, after) =>
    match after.roundTrip fresh payload with
    | (.ok reply, after) => (.ok reply, after.checkin maxConnections key fresh)
    | (.error .ioException, after) => (.error .ioException, after.closeQuietly fresh)
    | (.error thrown, after) => (.error thrown, after)

def roundTripPooled (transport : Transport) (maxConnections : Int) (key payload : Utf16) :
    Except Thrown Utf16 × Transport :=
  match transport.pollPooled key with
  | (none, after) => after.tripFresh maxConnections key payload
  | (some pooled, after) =>
    match after.roundTrip pooled payload with
    | (.ok reply, after) => (.ok reply, after.checkin maxConnections key pooled)
    | (.error .ioException, after) => (after.closeQuietly pooled).tripFresh maxConnections key payload
    | (.error thrown, after) => (.error thrown, after)

end Transport

/-- How an exchange ends: with a reply, with the `ClusterUnavailableException` after the last target,
or with an exception that was meant for neither. -/
inductive Exchanged where
  | reply (reply : Utf16)
  | unavailable
  | escaped (thrown : Thrown)
  deriving DecidableEq

namespace Transport

def exchange (maxConnections : Int) (payload : Utf16) : List Endpoint → Transport → Exchanged × Transport
  | [], transport => (.unavailable, transport)
  | endpoint :: rest, transport =>
    match transport.roundTripPooled maxConnections endpoint.key payload with
    | (.ok reply, after) => (.reply reply, after)
    | (.error .ioException, after) => exchange maxConnections payload rest after
    | (.error thrown, after) => (.escaped thrown, after)

/-- One exchange after the other, each with its targets and its payload. -/
def exchanges (maxConnections : Int) : List (List Endpoint × Utf16) → Transport → List Exchanged × Transport
  | [], transport => ([], transport)
  | call :: rest, transport =>
    let (outcome, after) := exchange maxConnections call.2 call.1 transport
    let (outcomes, last) := exchanges maxConnections rest after
    (outcome :: outcomes, last)

/-- The length line of the next reply has a number that is no `int`. -/
def Oversized (fd : Descriptor) : Prop :=
  ∃ line after, readHeader fd [] = (some line, after) ∧ 2 ^ 31 ≤ digitsValue line

/-- What the node would receive, as the gateway would have it. -/
def expected : Option Bytes → Except Thrown Utf16
  | some payload => .ok (ofUtf8 payload)
  | none => .error .ioException

section Frames

variable {fd : Descriptor}

theorem recvFramed_oversized (oversized : Oversized fd) : (recvFramed fd).1 = .error .numberFormatException := by
  obtain ⟨line, after, header, large⟩ := oversized
  have nonempty : line ≠ [] := by
    rintro rfl
    simp [digitsValue] at large
  have refused : parseInt (widen line) = none := by
    rw [parseInt_digits nonempty (readHeader_digits header (by simp)), if_neg (by omega)]
  simp only [recvFramed, header, nonempty, ↓reduceIte, refused]

/-- The receiver of the lossless framing is this one with every exception the same. -/
theorem recvFramed_toOption (fd : Descriptor) :
    ClusterClient.recvFramed fd = ((recvFramed fd).1.toOption, (recvFramed fd).2) := by
  cases header : readHeader fd [] with
  | mk line after =>
    cases line with
    | none => simp only [ClusterClient.recvFramed, recvFramed, header, Except.toOption]
    | some line =>
      by_cases empty : line = []
      · simp only [ClusterClient.recvFramed, recvFramed, header, empty, ↓reduceIte, Except.toOption]
      · simp only [ClusterClient.recvFramed, recvFramed, header, empty, ↓reduceIte]
        cases parseInt (widen line) with
        | none => rfl
        | some n =>
          by_cases outside : n < 0 ∨ ClusterClient.maxFrame < n
          · simp only [outside, ↓reduceIte, Except.toOption]
          · simp only [outside, ↓reduceIte]
            obtain ⟨read, last⟩ := readNBytes after n.toNat []
            cases read with
            | none => rfl
            | some body => by_cases whole : body.length = n.toNat <;> simp [whole, Except.toOption]

theorem readAll_zero (fd : Descriptor) : readAll fd 0 [] = (some [], fd) := by
  rw [readAll, if_neg (by simp)]

/-- Past the length line the gateway takes what the node takes. -/
theorem recvFramed_line {line : Bytes} {after : Descriptor} (header : readHeader fd [] = (some line, after))
    (nonempty : line ≠ []) (small : digitsValue line < 2 ^ 31) :
    (recvFramed fd).1 = expected (Framing.recvFramed fd).1 := by
  have number : parseInt (widen line) = some (digitsValue line : Int) := by
    rw [parseInt_digits nonempty (readHeader_digits header (by simp)), if_pos small]
  have length : strtoull line = digitsValue line := Nat.min_eq_left (by omega)
  have body : (if digitsValue line = 0 then (some [], after) else readAll after (digitsValue line) []) =
      readAll after (digitsValue line) [] := by
    split
    · rename_i nothing
      rw [nothing, readAll_zero]
    · rfl
  simp only [recvFramed, Framing.recvFramed, header, nonempty, ↓reduceIte, number, length, body]
  by_cases large : kMaxFrame < digitsValue line
  · have outside : (digitsValue line : Int) < 0 ∨ ClusterClient.maxFrame < digitsValue line :=
      .inr (by unfold ClusterClient.maxFrame; unfold kMaxFrame at large; omega)
    rw [if_pos outside, if_pos large, expected]
  · have inside : ¬ ((digitsValue line : Int) < 0 ∨ ClusterClient.maxFrame < digitsValue line) := by
      unfold ClusterClient.maxFrame
      unfold kMaxFrame at large
      omega
    rw [if_neg inside, if_neg large, readAll_eq_readNBytes (Nat.zero_le _), Int.toNat_natCast]
    obtain ⟨read, last⟩ := readNBytes after (digitsValue line) []
    cases read with
    | none => rfl
    | some read =>
      by_cases whole : read.length = digitsValue line
      · rw [Option.filter_some_pos (by simpa using whole)]
        simp [whole, expected]
      · rw [Option.filter_some_neg (by simpa using whole)]
        simp [whole, expected]

theorem recvFramed_within (within : ¬ Oversized fd) :
    (recvFramed fd).1 = expected (Framing.recvFramed fd).1 := by
  cases header : readHeader fd [] with
  | mk line after =>
    cases line with
    | none => simp only [recvFramed, Framing.recvFramed, header, expected]
    | some line =>
      by_cases empty : line = []
      · simp only [recvFramed, Framing.recvFramed, header, empty, ↓reduceIte, expected]
      · refine recvFramed_line header empty ?_
        by_contra large
        exact within ⟨line, after, header, Nat.not_lt.mp large⟩

theorem numberFormat_iff : (recvFramed fd).1 = .error .numberFormatException ↔ Oversized fd := by
  refine ⟨fun thrown => ?_, recvFramed_oversized⟩
  by_contra within
  rw [recvFramed_within within] at thrown
  cases received : (Framing.recvFramed fd).1 <;> simp [received, expected] at thrown

/-- The gateway returns what the node would have received, or throws an `IOException`. -/
def FailsOver (fd : Descriptor) : Prop :=
  (∃ payload, (Framing.recvFramed fd).1 = some payload ∧ (recvFramed fd).1 = .ok (ofUtf8 payload)) ∨
    (recvFramed fd).1 = .error .ioException

theorem failsOver_iff : FailsOver fd ↔ ¬ Oversized fd := by
  constructor
  · rintro failsOver oversized
    have thrown := recvFramed_oversized oversized
    rcases failsOver with ⟨payload, -, returned⟩ | io
    · cases returned.symm.trans thrown
    · cases io.symm.trans thrown
  · intro within
    have same := recvFramed_within within
    cases received : (Framing.recvFramed fd).1 with
    | none =>
      rw [received] at same
      exact .inr same
    | some payload =>
      rw [received] at same
      exact .inl ⟨payload, received, same⟩

end Frames

/-- Every socket ever opened is idle in a pool or closed, but the one that is held. -/
def Tidy (transport : Transport) (held : Option Nat) : Prop :=
  ∀ socket < transport.opened, held ≠ some socket →
    (∃ key, socket ∈ transport.pools key) ∨ socket ∈ transport.closed

/-- The replies that were read on the way; what was thrown was no `IOException` exactly if one of them
was oversized. -/
def Heard (before after : Transport) (escaped : Prop) : Prop :=
  ∃ replies, after.received = before.received ++ replies ∧ (escaped ↔ ∃ reply ∈ replies, Oversized reply)

section Sockets

variable {transport after : Transport} {key payload : Utf16} {socket : Nat} {maxConnections : Int}

theorem heard_nothing (same : after.received = transport.received) : Heard transport after False :=
  ⟨[], by rw [same, List.append_nil], by simp⟩

theorem Heard.trans {last : Transport} {first second escaped : Prop} (here : Heard transport after first)
    (there : Heard after last second) (either : escaped ↔ first ∨ second) : Heard transport last escaped := by
  obtain ⟨replies, grown, thrown⟩ := here
  obtain ⟨others, further, later⟩ := there
  refine ⟨replies ++ others, by rw [further, grown, List.append_assoc], ?_⟩
  rw [either, thrown, later]
  simp only [List.mem_append, or_and_right, exists_or]

theorem mem_poll {closed sockets : List Nat} (member : socket ∈ sockets) :
    socket ∈ closed ∨ (poll closed sockets).1 = some socket ∨ socket ∈ (poll closed sockets).2 := by
  induction sockets with
  | nil => cases member
  | cons first rest ih =>
    rw [poll]
    split
    · rename_i gone
      rcases List.mem_cons.mp member with rfl | later
      · exact .inl gone
      · exact ih later
    · rcases List.mem_cons.mp member with rfl | later
      · exact .inr (.inl rfl)
      · exact .inr (.inr later)

theorem Tidy.pollPooled (tidy : transport.Tidy none) (key : Utf16) :
    (transport.pollPooled key).2.Tidy (transport.pollPooled key).1 := by
  intro socket opened other
  rcases tidy socket opened (by simp) with ⟨place, idle⟩ | closed
  · by_cases here : place = key
    · subst here
      rcases mem_poll idle with closed | taken | left
      · exact .inr closed
      · exact absurd taken other
      · exact .inl ⟨place, by simpa [Transport.pollPooled, setPool] using left⟩
    · exact .inl ⟨place, by simpa [Transport.pollPooled, setPool, here] using idle⟩
  · exact .inr closed

theorem Tidy.dial (tidy : transport.Tidy none) : transport.dial.2.Tidy transport.dial.1 := by
  unfold Transport.dial
  split
  · exact tidy
  · exact tidy
  · intro socket opened other
    refine tidy socket ?_ (by simp)
    have different : transport.opened ≠ socket := fun same => other (congrArg some same)
    change socket < transport.opened + 1 at opened
    omega

theorem Tidy.checkin (tidy : transport.Tidy (some socket)) (maxConnections : Int) (key : Utf16) :
    (transport.checkin maxConnections key socket).Tidy none := by
  intro other opened _
  unfold Transport.checkin at opened ⊢
  by_cases same : other = socket
  · subst same
    split
    · exact .inl ⟨key, by simp [setPool]⟩
    · exact .inr (by simp [closeQuietly])
  · have before := tidy other (by split at opened <;> exact opened) (by simpa using Ne.symm same)
    split
    · refine before.imp_left (fun ⟨place, idle⟩ => ⟨place, ?_⟩)
      by_cases here : place = key
      · subst here
        simp [setPool, idle]
      · simpa [setPool, here] using idle
    · exact before.imp_right (List.mem_cons_of_mem socket)

theorem Tidy.closeQuietly (tidy : transport.Tidy (some socket)) : (transport.closeQuietly socket).Tidy none := by
  intro other opened _
  by_cases same : other = socket
  · exact .inr (by simp [Transport.closeQuietly, same])
  · exact (tidy other opened (by simpa using Ne.symm same)).imp_right (List.mem_cons_of_mem socket)

theorem Tidy.roundTrip {held : Option Nat} (tidy : transport.Tidy held) (socket : Nat) (payload : Utf16) :
    (transport.roundTrip socket payload).2.Tidy held := by
  unfold Transport.roundTrip
  split <;> exact tidy

theorem heard_roundTrip (transport : Transport) (socket : Nat) (payload : Utf16) :
    Heard transport (transport.roundTrip socket payload).2
      ((transport.roundTrip socket payload).1 = .error .numberFormatException) := by
  unfold Transport.roundTrip
  split
  · exact ⟨[], (List.append_nil _).symm, by simp⟩
  · rename_i stream sent
    refine ⟨[stream], rfl, ?_⟩
    simp [numberFormat_iff]

theorem received_dial (transport : Transport) : transport.dial.2.received = transport.received := by
  unfold dial
  split <;> rfl

theorem received_checkin (maxConnections : Int) (key : Utf16) (socket : Nat) :
    (transport.checkin maxConnections key socket).received = transport.received := by
  unfold checkin
  split <;> rfl

/-- What a round trip leaves: an oversized reply is what it throws for, and otherwise no socket is
left behind. -/
structure Trip (before : Transport) (result : Except Thrown Utf16 × Transport) : Prop where
  heard : Heard before result.2 (result.1 = .error .numberFormatException)
  tidy : result.1 ≠ .error .numberFormatException → before.Tidy none → result.2.Tidy none

/-- The end of a round trip, with the socket back in its pool, closed, or lost. -/
def settle (maxConnections : Int) (key : Utf16) (socket : Nat) :
    Except Thrown Utf16 × Transport → Except Thrown Utf16 × Transport
  | (.ok reply, after) => (.ok reply, after.checkin maxConnections key socket)
  | (.error .ioException, after) => (.error .ioException, after.closeQuietly socket)
  | (.error thrown, after) => (.error thrown, after)

theorem tripFresh_eq (fresh : transport.dial = (some socket, after)) :
    transport.tripFresh maxConnections key payload =
      settle maxConnections key socket (after.roundTrip socket payload) := by
  rw [tripFresh, fresh]
  rfl

theorem trip_settle (maxConnections : Int) (key : Utf16) (socket : Nat) {result : Except Thrown Utf16 × Transport}
    (heard : Heard transport result.2 (result.1 = .error .numberFormatException)) :
    Heard transport (settle maxConnections key socket result).2
        ((settle maxConnections key socket result).1 = .error .numberFormatException) ∧
      (result.2.Tidy (some socket) → (settle maxConnections key socket result).1 ≠ .error .numberFormatException →
        (settle maxConnections key socket result).2.Tidy none) := by
  obtain ⟨answer, after⟩ := result
  cases answer with
  | ok reply =>
    refine ⟨?_, fun tidy _ => tidy.checkin maxConnections key⟩
    obtain ⟨replies, grown, thrown⟩ := heard
    exact ⟨replies, (received_checkin maxConnections key socket).trans grown, by simpa [settle] using thrown⟩
  | error thrown =>
    cases thrown with
    | ioException => exact ⟨heard, fun tidy _ => tidy.closeQuietly⟩
    | numberFormatException => exact ⟨heard, fun _ other => absurd rfl other⟩

theorem trip_fresh (transport : Transport) (maxConnections : Int) (key payload : Utf16) :
    Trip transport (transport.tripFresh maxConnections key payload) := by
  have same := received_dial transport
  have held : transport.Tidy none → transport.dial.2.Tidy transport.dial.1 := Tidy.dial
  cases dialled : transport.dial with
  | mk socket after =>
    rw [dialled] at same held
    cases socket with
    | none =>
      rw [tripFresh, dialled]
      exact ⟨(heard_nothing same).trans (heard_nothing rfl) (by simp), fun _ => held⟩
    | some fresh =>
      have heard : Heard transport (after.roundTrip fresh payload).2 _ :=
        (heard_nothing same).trans (heard_roundTrip after fresh payload) (iff_of_eq (false_or _)).symm
      obtain ⟨told, kept⟩ := trip_settle maxConnections key fresh heard
      rw [tripFresh_eq dialled]
      exact ⟨told, fun other tidy => kept ((held tidy).roundTrip fresh payload) other⟩

theorem trip_pooled (transport : Transport) (maxConnections : Int) (key payload : Utf16) :
    Trip transport (transport.roundTripPooled maxConnections key payload) := by
  have held : transport.Tidy none → (transport.pollPooled key).2.Tidy (transport.pollPooled key).1 :=
    fun tidy => tidy.pollPooled key
  have same : (transport.pollPooled key).2.received = transport.received := rfl
  cases polled : transport.pollPooled key with
  | mk socket after =>
    rw [polled] at same held
    cases socket with
    | none =>
      have trip := trip_fresh after maxConnections key payload
      rw [roundTripPooled, polled]
      exact ⟨(heard_nothing same).trans trip.heard (by simp), fun other tidy => trip.tidy other (held tidy)⟩
    | some pooled =>
      have heard : Heard transport (after.roundTrip pooled payload).2 _ :=
        (heard_nothing same).trans (heard_roundTrip after pooled payload) (iff_of_eq (false_or _)).symm
      have kept : transport.Tidy none → (after.roundTrip pooled payload).2.Tidy (some pooled) :=
        fun tidy => (held tidy).roundTrip pooled payload
      simp only [roundTripPooled, polled]
      cases round : after.roundTrip pooled payload with
      | mk answer last =>
        rw [round] at heard kept
        cases answer with
        | ok reply =>
          obtain ⟨told, tidied⟩ := trip_settle maxConnections key pooled heard
          exact ⟨told, fun other tidy => tidied (kept tidy) other⟩
        | error thrown =>
          cases thrown with
          | ioException =>
            -- the stale socket is closed, and a new one tried
            have trip := trip_fresh (last.closeQuietly pooled) maxConnections key payload
            refine ⟨heard.trans trip.heard (by simp), fun other tidy => trip.tidy other (kept tidy).closeQuietly⟩
          | numberFormatException => exact ⟨heard, fun other => absurd rfl other⟩

theorem exchange_spec (maxConnections : Int) (payload : Utf16) (targets : List Endpoint) (transport : Transport) :
    Heard transport (exchange maxConnections payload targets transport).2
        (∃ thrown, (exchange maxConnections payload targets transport).1 = .escaped thrown) ∧
      ((∀ thrown, (exchange maxConnections payload targets transport).1 ≠ .escaped thrown) → transport.Tidy none →
        (exchange maxConnections payload targets transport).2.Tidy none) := by
  induction targets generalizing transport with
  | nil => exact ⟨⟨[], by simp [exchange], by simp [exchange]⟩, fun _ tidy => tidy⟩
  | cons endpoint rest ih =>
    have trip := trip_pooled transport maxConnections endpoint.key payload
    rw [exchange]
    cases done : transport.roundTripPooled maxConnections endpoint.key payload with
    | mk answer after =>
      rw [done] at trip
      cases answer with
      | ok reply => exact ⟨trip.heard.trans (heard_nothing rfl) (by simp), fun _ => trip.tidy (by simp)⟩
      | error thrown =>
        cases thrown with
        | ioException =>
          obtain ⟨told, tidied⟩ := ih after
          exact ⟨trip.heard.trans told (by simp), fun none tidy => tidied none (trip.tidy (by simp) tidy)⟩
        | numberFormatException =>
          exact ⟨trip.heard.trans (heard_nothing rfl) (by simp), fun none => absurd rfl (none _)⟩

theorem exchanges_spec (maxConnections : Int) (calls : List (List Endpoint × Utf16)) (transport : Transport) :
    Heard transport (exchanges maxConnections calls transport).2
        (∃ thrown, .escaped thrown ∈ (exchanges maxConnections calls transport).1) ∧
      ((∀ thrown, .escaped thrown ∉ (exchanges maxConnections calls transport).1) → transport.Tidy none →
        (exchanges maxConnections calls transport).2.Tidy none) := by
  induction calls generalizing transport with
  | nil => exact ⟨⟨[], by simp [exchanges], by simp [exchanges]⟩, fun _ tidy => tidy⟩
  | cons call rest ih =>
    obtain ⟨told, tidied⟩ := exchange_spec maxConnections call.2 call.1 transport
    obtain ⟨later, kept⟩ := ih (exchange maxConnections call.2 call.1 transport).2
    refine ⟨told.trans later ?_, fun none tidy => ?_⟩
    · simp only [exchanges, List.mem_cons, exists_or, eq_comm]
    · simp only [exchanges, List.mem_cons, not_or, forall_and] at none
      exact kept none.2 (tidied (fun thrown same => none.1 thrown same.symm) tidy)

/-! A socket goes back to its pool with a reply only. -/

theorem pools_roundTrip (transport : Transport) (socket : Nat) (payload : Utf16) :
    (transport.roundTrip socket payload).2.pools = transport.pools := by
  unfold Transport.roundTrip
  split <;> rfl

theorem pools_dial (transport : Transport) : transport.dial.2.pools = transport.pools := by
  unfold dial
  split <;> rfl

theorem poll_subset (closed sockets : List Nat) : (poll closed sockets).2 ⊆ sockets := by
  induction sockets with
  | nil => exact List.Subset.refl _
  | cons first rest ih =>
    rw [poll]
    split
    · exact List.subset_cons_of_subset first ih
    · exact List.subset_cons_self first rest

theorem pools_tripFresh {thrown : Thrown}
    (failed : (transport.tripFresh maxConnections key payload).1 = .error thrown) :
    (transport.tripFresh maxConnections key payload).2.pools = transport.pools := by
  have same := pools_dial transport
  unfold tripFresh at failed ⊢
  split
  · rename_i after dialled
    rw [dialled] at same
    exact same
  · rename_i fresh after dialled
    rw [dialled] at same failed
    have kept := pools_roundTrip after fresh payload
    cases round : after.roundTrip fresh payload with
    | mk answer last =>
      rw [round] at kept
      simp only [round] at failed
      cases answer with
      | ok reply => cases failed
      | error reason => cases reason <;> exact kept.trans same

theorem pools_pollPooled (transport : Transport) (key place : Utf16) :
    (transport.pollPooled key).2.pools place ⊆ transport.pools place := by
  unfold pollPooled setPool
  by_cases here : place = key
  · subst here
    simpa using poll_subset transport.closed (transport.pools place)
  · simp [here]

theorem pools_roundTripPooled {thrown : Thrown}
    (failed : (transport.roundTripPooled maxConnections key payload).1 = .error thrown) (place : Utf16) :
    (transport.roundTripPooled maxConnections key payload).2.pools place ⊆ transport.pools place := by
  have less := pools_pollPooled transport key place
  unfold roundTripPooled at failed ⊢
  cases polled : transport.pollPooled key with
  | mk socket after =>
    rw [polled] at less
    simp only [polled] at failed ⊢
    cases socket with
    | none =>
      simp only at failed ⊢
      rw [pools_tripFresh failed]
      exact less
    | some pooled =>
      have kept := pools_roundTrip after pooled payload
      simp only at failed ⊢
      cases round : after.roundTrip pooled payload with
      | mk answer last =>
        rw [round] at kept
        simp only [round] at failed ⊢
        cases answer with
        | ok reply => cases failed
        | error reason =>
          cases reason with
          | ioException =>
            simp only at failed ⊢
            rw [pools_tripFresh failed]
            exact kept ▸ less
          | numberFormatException => exact kept ▸ less

theorem pools_exchange {targets : List Endpoint}
    (failed : ∀ reply, (exchange maxConnections payload targets transport).1 ≠ .reply reply) (place : Utf16) :
    (exchange maxConnections payload targets transport).2.pools place ⊆ transport.pools place := by
  induction targets generalizing transport with
  | nil => exact List.Subset.refl _
  | cons endpoint rest ih =>
    have less : ∀ thrown, (transport.roundTripPooled maxConnections endpoint.key payload).1 = .error thrown →
        (transport.roundTripPooled maxConnections endpoint.key payload).2.pools place ⊆ transport.pools place :=
      fun thrown failed => pools_roundTripPooled failed place
    rw [exchange] at failed ⊢
    cases done : transport.roundTripPooled maxConnections endpoint.key payload with
    | mk answer after =>
      rw [done] at less
      simp only [done] at failed ⊢
      cases answer with
      | ok reply => exact absurd rfl (failed reply)
      | error thrown =>
        cases thrown with
        | ioException => exact List.Subset.trans (ih failed) (less _ rfl)
        | numberFormatException => exact less _ rfl

end Sockets

/-- Of every stream the gateway reads what the node would, or throws an `IOException`, exactly if the
length line is no number beyond an `int`; and in every run of exchanges, with whatever the nodes send,
each ends in a reply or after the last target, with every socket pooled or closed, exactly if no reply
that was read on the way has such a line. -/
theorem gateway_fails_over_iff (stream : Descriptor) (maxConnections : Int) (dials : List (Option Descriptor))
    (calls : List (List Endpoint × Utf16)) :
    (FailsOver stream ↔ ¬ Oversized stream) ∧
    ((∀ thrown, .escaped thrown ∉ (exchanges maxConnections calls (start dials)).1) ∧
        (exchanges maxConnections calls (start dials)).2.Tidy none ↔
      ∀ reply ∈ (exchanges maxConnections calls (start dials)).2.received, ¬ Oversized reply) := by
  obtain ⟨⟨replies, grown, thrown⟩, tidied⟩ := exchanges_spec maxConnections calls (start dials)
  have all : (exchanges maxConnections calls (start dials)).2.received = replies := grown
  refine ⟨failsOver_iff, ?_⟩
  rw [all]
  constructor
  · rintro ⟨none, -⟩ reply member oversized
    obtain ⟨exception, escaped⟩ := thrown.mpr ⟨reply, member, oversized⟩
    exact none exception escaped
  · intro within
    have none : ∀ exception, .escaped exception ∉ (exchanges maxConnections calls (start dials)).1 := by
      intro exception escaped
      obtain ⟨reply, member, oversized⟩ := thrown.mp ⟨exception, escaped⟩
      exact within reply member oversized
    exact ⟨none, tidied none (fun socket opened => absurd opened (Nat.not_lt_zero socket))⟩

/-- A node that answers with a length line one beyond an `int`. -/
def boastful : Descriptor := ⟨ascii "2147483648" ++ [10], [], [], []⟩

/-- An exchange with two such nodes. -/
def boastfulExchange : List Exchanged × Transport :=
  exchanges 4 [([⟨text "a", 1⟩, ⟨text "b", 2⟩], text "RING|gateway")] (start [some boastful, some boastful])

/-- The node's own `recvFramed` rejects the reply. The exchange ends with a `NumberFormatException`, the
second node is never tried, and the socket to the first is neither pooled nor closed. -/
theorem oversized_reply_escapes :
    (Framing.recvFramed boastful).1 = none ∧ boastfulExchange.1 = [.escaped .numberFormatException] ∧
      boastfulExchange.2.opened = 1 ∧ ¬ boastfulExchange.2.Tidy none := by
  have escaped : boastfulExchange.1 = [.escaped .numberFormatException] := by decide +kernel
  have opened : boastfulExchange.2.opened = 1 := by decide +kernel
  have open' : boastfulExchange.2.closed = [] := by decide +kernel
  have noReply : ∀ reply, (exchange 4 (text "RING|gateway") [⟨text "a", 1⟩, ⟨text "b", 2⟩]
      (start [some boastful, some boastful])).1 ≠ .reply reply := by
    intro reply same
    have only : boastfulExchange.1 = [.reply reply] := by rw [← same]; rfl
    cases escaped.symm.trans only
  refine ⟨by decide +kernel, escaped, opened, fun tidy => ?_⟩
  rcases tidy 0 (by omega) (by simp) with ⟨key, pooled⟩ | closed
  · cases pools_exchange noReply key pooled
  · rw [open'] at closed
    cases closed

end Transport

end MiniDynamo.Gateway
