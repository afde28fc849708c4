import MiniDynamo.Net.Framing
import MiniDynamo.Net.PoolCallers
import MiniDynamo.Net.Wire

/-! The replica client over pooled connections. An idle connection may have gone stale in the pool;
the client then tries once more, with whatever the pool hands out next. -/

namespace MiniDynamo

open ConnectionPool

/-- What the client works on: the pool, the stream behind each descriptor, what the next connects
to the peer give, and the descriptors closed so far. A connect that fails gives a negative number. -/
structure Sockets where
  pool : ConnectionPool
  streams : Int → Descriptor
  dials : List (Int × Descriptor)
  closed : List Int

namespace Sockets

def setStream (sockets : Sockets) (fd : Int) (stream : Descriptor) : Sockets :=
  { sockets with streams := fun other => if other = fd then stream else sockets.streams other }

/-- The pool's `connect_`. -/
def connect (sockets : Sockets) : Int × Sockets :=
  match sockets.dials with
  | [] => (-1, sockets)
  | (fd, stream) :: rest => (fd, ({ sockets with dials := rest }).setStream fd stream)

/-- The pool's `close_`. -/
def close (sockets : Sockets) (fd : Int) : Sockets := { sockets with closed := sockets.closed ++ [fd] }

def checkout (sockets : Sockets) (host : Bytes) (port : UInt16) : Int × Sockets :=
  let (reusedFd, pool) := sockets.pool.reuse host port
  if 0 ≤ reusedFd then (reusedFd, { sockets with pool })
  else ({ sockets with pool }).connect

def checkin (sockets : Sockets) (host : Bytes) (port : UInt16) (fd now : Int) : Sockets :=
  if fd < 0 then sockets
  else
    let (closeIt, pool) := sockets.pool.putBack host port fd now
    if closeIt then ({ sockets with pool }).close fd else { sockets with pool }

def discard (sockets : Sockets) (fd : Int) : Sockets := if fd < 0 then sockets else sockets.close fd

end Sockets

namespace PooledReplicaClient

/-- One framed round trip on a connection, which is unusable if no reply comes. -/
def roundTrip (stream : Descriptor) (request : Bytes) : Option Bytes × Descriptor :=
  match Framing.sendFramed stream request with
  | (false, after) => (none, after)
  | (true, after) => Framing.recvFramed after

/-- The loop of `exchange`, with the attempts that are left. -/
def attempts (peer : NodeInfo) (request : Bytes) (now : Int) : Nat → Sockets → Bytes × Sockets
  | 0, sockets => ([], sockets)
  | left + 1, sockets =>
    let (fd, sockets) := sockets.checkout peer.host peer.port
    if fd < 0 then ([], sockets)
    else
      match roundTrip (sockets.streams fd) request with
      | (some reply, stream) => (reply, (sockets.setStream fd stream).checkin peer.host peer.port fd now)
      | (none, stream) => attempts peer request now left ((sockets.setStream fd stream).discard fd)

/-- The peer's reply, or nothing on failure. -/
def exchange (peer : NodeInfo) (request : Bytes) (now : Int) (sockets : Sockets) : Bytes × Sockets :=
  attempts peer request now 2 sockets

def writeReplica (origin : Bytes) (peer : NodeInfo) (key : Bytes) (value : VersionedValue) (now : Int)
    (sockets : Sockets) : ReplicaWriteResult × Sockets :=
  let (reply, sockets) := exchange peer (Wire.replicatePayload origin key value) now sockets
  (Wire.parseWriteReply reply, sockets)

def readReplica (origin : Bytes) (peer : NodeInfo) (key : Bytes) (now : Int) (sockets : Sockets) :
    ReplicaReadResult × Sockets :=
  let (reply, sockets) := exchange peer (Wire.readPayload origin key) now sockets
  (Wire.parseReadReply reply, sockets)

/-- The descriptors idle for a peer. -/
def idleFor (sockets : Sockets) (peer : NodeInfo) : List Int := sockets.pool.idleFds (keyOf peer.host peer.port)

/-- The idle connections to the peer are open and told apart. -/
structure Proper (sockets : Sockets) (peer : NodeInfo) : Prop where
  distinct : (idleFor sockets peer).Nodup
  natural : ∀ fd ∈ idleFor sockets peer, 0 ≤ fd

/-- The next connect to the peer succeeds, and the peer answers on it. -/
def Answers (sockets : Sockets) (request reply : Bytes) : Prop :=
  ∃ fd stream rest, sockets.dials = (fd, stream) :: rest ∧ 0 ≤ fd ∧ (roundTrip stream request).1 = some reply

/-- What comes on the first of these connections that still works. -/
def firstAnswer (sockets : Sockets) (request : Bytes) (fds : List Int) : Option Bytes :=
  fds.findSome? (fun fd => (roundTrip (sockets.streams fd) request).1)

section Attempts

variable {sockets : Sockets} {peer : NodeInfo} {request reply : Bytes} {now : Int}

theorem firstAnswer_congr {after : Sockets} {fds : List Int}
    (same : ∀ fd ∈ fds, after.streams fd = sockets.streams fd) :
    firstAnswer after request fds = firstAnswer sockets request fds := by
  induction fds with
  | nil => rfl
  | cons fd rest ih =>
    obtain ⟨here, later⟩ := List.forall_mem_cons.mp same
    have others := ih later
    unfold firstAnswer at others ⊢
    rw [List.findSome?_cons, List.findSome?_cons, here, others]

/-- An attempt on a connection that works returns what comes on it. -/
theorem attempt_works {fd : Int} {front : List Int} {answer : Bytes} (proper : Proper sockets peer)
    (idle : idleFor sockets peer = front ++ [fd]) (works : (roundTrip (sockets.streams fd) request).1 = some answer)
    (left : Nat) : (attempts peer request now (left + 1) sockets).1 = answer := by
  obtain ⟨next, taken, -⟩ := reuse_last idle
  have natural : 0 ≤ fd := proper.natural fd (by simp [idle])
  obtain ⟨stream, trip⟩ : ∃ stream, roundTrip (sockets.streams fd) request = (some answer, stream) :=
    ⟨_, Prod.ext works rfl⟩
  simp [attempts, Sockets.checkout, taken, natural, Int.not_lt.mpr natural, trip]

/-- An attempt on a stale connection uses it up and leaves the others as they are. -/
theorem attempt_fails {fd : Int} {front : List Int} (proper : Proper sockets peer)
    (idle : idleFor sockets peer = front ++ [fd]) (fails : (roundTrip (sockets.streams fd) request).1 = none)
    (left : Nat) :
    ∃ after, attempts peer request now (left + 1) sockets = attempts peer request now left after ∧
      Proper after peer ∧ idleFor after peer = front ∧ after.dials = sockets.dials ∧
      ∀ other ∈ front, after.streams other = sockets.streams other := by
  obtain ⟨next, taken, remain⟩ := reuse_last idle
  have natural : 0 ≤ fd := proper.natural fd (by simp [idle])
  obtain ⟨stream, trip⟩ : ∃ stream, roundTrip (sockets.streams fd) request = (none, stream) :=
    ⟨_, Prod.ext fails rfl⟩
  have distinct := proper.distinct
  rw [idle, List.nodup_append] at distinct
  refine ⟨(({ sockets with pool := next } : Sockets).setStream fd stream).close fd, ?_, ⟨?_, ?_⟩, remain, rfl, ?_⟩
  · simp [attempts, Sockets.checkout, taken, natural, Int.not_lt.mpr natural, trip, Sockets.discard]
  · change (next.idleFds _).Nodup
    rw [remain]
    exact distinct.1
  · change ∀ other ∈ next.idleFds _, 0 ≤ other
    rw [remain]
    exact fun other member => proper.natural other (by simp [idle, member])
  · exact fun other member => if_neg (distinct.2.2 other member fd List.mem_cons_self)

theorem attempt_dials (none : idleFor sockets peer = []) (answers : Answers sockets request reply) (left : Nat) :
    (attempts peer request now (left + 1) sockets).1 = reply := by
  obtain ⟨fd, stream, rest, dials, natural, replied⟩ := answers
  obtain ⟨after, trip⟩ : ∃ after, roundTrip stream request = (some reply, after) := ⟨_, Prod.ext replied rfl⟩
  simp [attempts, Sockets.checkout, reuse_nothing none, Sockets.connect, dials, Sockets.setStream,
    Int.not_lt.mpr natural, trip]

/-- The idle connections are tried first, as far as the attempts go, from the last one returned. -/
theorem attempts_eq (left : Nat) (proper : Proper sockets peer) (answers : Answers sockets request reply) :
    (attempts peer request now left sockets).1 =
      (firstAnswer sockets request ((idleFor sockets peer).reverse.take left)).getD
        (if left ≤ (idleFor sockets peer).length then [] else reply) := by
  induction left generalizing sockets with
  | zero => rfl
  | succ left ih =>
    rcases List.eq_nil_or_concat (idleFor sockets peer) with none | ⟨front, fd, idle⟩
    · rw [attempt_dials none answers, none]
      rfl
    · rw [List.concat_eq_append] at idle
      rw [idle, List.reverse_concat, List.take_succ_cons, firstAnswer, List.findSome?_cons]
      cases trip : (roundTrip (sockets.streams fd) request).1 with
      | some answer => exact attempt_works proper idle trip left
      | none =>
        obtain ⟨after, next, still, fewer, dials, same⟩ := attempt_fails proper idle trip left
        have kept : ∀ other ∈ front.reverse.take left, after.streams other = sockets.streams other :=
          fun other member => same other (List.mem_reverse.mp (List.mem_of_mem_take member))
        rw [next, ih still (by rwa [Answers, dials]), fewer, firstAnswer_congr kept, List.length_append,
          List.length_singleton]
        simp only [Nat.add_le_add_iff_right]
        rfl

/-! With two stale connections on top a coordinator counts a peer that would answer as silent. -/

theorem exchange_nothing (proper : Proper sockets peer) (answers : Answers sockets request reply)
    (two : 2 ≤ (idleFor sockets peer).length)
    (stale : firstAnswer sockets request ((idleFor sockets peer).reverse.take 2) = none) :
    (exchange peer request now sockets).1 = [] := by
  rw [exchange, attempts_eq 2 proper answers, stale, if_pos two]
  rfl

theorem write_unacknowledged {origin key : Bytes} {value : VersionedValue} (proper : Proper sockets peer)
    (answers : Answers sockets (Wire.replicatePayload origin key value) reply)
    (two : 2 ≤ (idleFor sockets peer).length)
    (stale : firstAnswer sockets (Wire.replicatePayload origin key value) ((idleFor sockets peer).reverse.take 2) =
      none) : (writeReplica origin peer key value now sockets).1 = ⟨false⟩ := by
  change Wire.parseWriteReply (exchange _ _ _ _).1 = _
  rw [exchange_nothing proper answers two stale]
  decide

theorem read_unanswered {origin key : Bytes} (proper : Proper sockets peer)
    (answers : Answers sockets (Wire.readPayload origin key) reply) (two : 2 ≤ (idleFor sockets peer).length)
    (stale : firstAnswer sockets (Wire.readPayload origin key) ((idleFor sockets peer).reverse.take 2) = none) :
    (readReplica origin peer key now sockets).1 = .noReply := by
  change Wire.parseReadReply (exchange _ _ _ _).1 = _
  rw [exchange_nothing proper answers two stale]
  rfl

end Attempts

/-! ### A client is a thread of the pool -/

/-- A thread of the system runs the client: the pool is the system's, and the numbers the next
connects give are not in use. -/
structure Runs (system : PoolSystem) (index : Nat) (caller : Caller) (sockets : Sockets) : Prop where
  found : system.callers[index]? = some caller
  pool : system.pool = sockets.pool
  unused : ∀ dial ∈ sockets.dials, 0 ≤ dial.1 → system.handles.table dial.1 = none
  distinct : sockets.dials.Pairwise (fun one other => one.1 ≠ other.1 ∨ other.1 < 0)

/-- The thread with one more connection in its hands. -/
def holding (caller : Caller) (fd : Int) (host : Bytes) (port : UInt16) : Caller :=
  { caller with held := (fd, host, port) :: caller.held }

section Threads

variable {system : PoolSystem} {index : Nat} {caller other : Caller} {sockets after : Sockets} {host : Bytes}
  {port : UInt16} {fd now : Int} {pool : ConnectionPool} {handles : Handles Peer}

theorem Runs.put (runs : Runs system index caller sockets) (same : pool = after.pool)
    (fewer : after.dials.Sublist sockets.dials)
    (closed : ∀ dial ∈ after.dials, 0 ≤ dial.1 → system.handles.table dial.1 = none →
      handles.table dial.1 = none) :
    Runs (system.put index other pool handles) index other after where
  found := PoolSystem.caller_put runs.found
  pool := same
  unused := fun dial member natural => closed dial member natural (runs.unused dial (fewer.subset member) natural)
  distinct := runs.distinct.sublist fewer

/-- The pool had nothing to reuse, and the thread has the outcome of its connect. -/
theorem run_connected (runs : Runs system index caller sockets) (free : caller.Free) {reused : Int}
    (taken : sockets.pool.reuse host port = (reused, pool)) (nothing : ¬ 0 ≤ reused)
    (unused : 0 ≤ fd → system.handles.table fd = none) :
    system.run [(index, .checkout host port), (index, .connected fd)] =
      if fd < 0 then system.put index caller pool system.handles
      else system.put index (holding caller fd host port) pool (system.handles.issue fd (host, port)) := by
  have first : system.step (index, .checkout host port) =
      system.put index { caller with connecting := some (host, port) } pool system.handles := by
    simp [PoolSystem.step, runs.found, free.1, free.2, PoolSystem.begin, runs.pool, taken, nothing]
  have same : ({ caller with connecting := none } : Caller) = caller := by rw [← free.1]
  rw [PoolSystem.run, List.foldl_cons, List.foldl_cons, List.foldl_nil, first, PoolSystem.step,
    PoolSystem.caller_put runs.found]
  dsimp only
  split
  · rw [PoolSystem.put_put, same]
    rfl
  · rename_i natural
    have table : (system.put index { caller with connecting := some (host, port) } pool
        system.handles).handles.table fd = none := unused (by omega)
    rw [if_pos table, PoolSystem.put_put, ← same]
    rfl

theorem Runs.checkout (runs : Runs system index caller sockets) (free : caller.Free)
    (result : sockets.checkout host port = (fd, after)) :
    ∃ turns, Runs (system.run turns) index (if fd < 0 then caller else holding caller fd host port) after := by
  rcases taken : sockets.pool.reuse host port with ⟨reused, pool⟩
  simp only [Sockets.checkout, taken] at result
  split at result
  · rename_i natural
    obtain ⟨rfl, rfl⟩ := Prod.mk.inj result
    have step : system.run [(index, .checkout host port)] =
        system.put index (holding caller reused host port) pool system.handles := by
      simp [PoolSystem.run, PoolSystem.step, runs.found, free.1, free.2, PoolSystem.begin, runs.pool, taken, natural,
        holding]
    refine ⟨[(index, .checkout host port)], ?_⟩
    rw [step, if_neg (by omega)]
    exact runs.put rfl (List.Sublist.refl _) (fun _ _ _ unused => unused)
  · rename_i nothing
    refine ⟨[(index, .checkout host port), (index, .connected fd)], ?_⟩
    unfold Sockets.connect at result
    split at result
    · obtain ⟨rfl, rfl⟩ := Prod.mk.inj result
      rw [run_connected runs free taken nothing (by omega), if_pos (by omega), if_pos (by omega)]
      exact runs.put rfl (List.Sublist.refl _) (fun _ _ _ unused => unused)
    · rename_i dialled stream rest dials
      obtain ⟨rfl, rfl⟩ := Prod.mk.inj result
      replace dials : sockets.dials = (dialled, stream) :: rest := dials
      have fewer : rest.Sublist sockets.dials := dials ▸ List.sublist_cons_self _ rest
      have unused := runs.unused (dialled, stream) (dials ▸ List.mem_cons_self)
      rw [run_connected runs free taken nothing unused]
      split
      · exact runs.put rfl fewer (fun _ _ _ unused => unused)
      · refine runs.put rfl fewer (fun dial member natural unused => ?_)
        have distinct := runs.distinct
        rw [dials] at distinct
        have different := (List.pairwise_cons.mp distinct).1 dial member
        rw [Handles.table_issue, if_neg (by omega)]
        exact unused

/-- A connection the thread is done with is closed, and its number is free again. -/
theorem Runs.closes (runs : Runs system index caller sockets) (free : other.Free) (same : pool = after.pool)
    (dials : after.dials = sockets.dials) :
    Runs ((system.put index { other with closing := [fd] } pool system.handles).step (index, .close)) index
      other after := by
  obtain ⟨held, connecting, closing⟩ := other
  obtain ⟨rfl, rfl⟩ : connecting = none ∧ closing = [] := free
  have closed : (system.put index ⟨held, none, [fd]⟩ pool system.handles).step (index, .close) =
      system.put index ⟨held, none, []⟩ pool (system.handles.close fd) := by
    simp only [PoolSystem.step, PoolSystem.caller_put runs.found, PoolSystem.put_put]
    rfl
  rw [closed]
  refine runs.put same (dials ▸ List.Sublist.refl _) (fun dial _ _ unused => ?_)
  rw [Handles.table_close, unused, ite_self]

theorem Runs.discard (runs : Runs system index (holding caller fd host port) sockets) (free : caller.Free)
    (natural : ¬ fd < 0) : ∃ turns, Runs (system.run turns) index caller (sockets.discard fd) := by
  have first : system.step (index, .discard 0) =
      system.put index { caller with closing := [fd] } system.pool system.handles := by
    simp [PoolSystem.step, runs.found, holding, free.1, free.2, PoolSystem.begin, natural]
  have same : system.pool = (sockets.discard fd).pool := by
    rw [Sockets.discard, if_neg natural]
    exact runs.pool
  refine ⟨[(index, .discard 0), (index, .close)], ?_⟩
  rw [PoolSystem.run, List.foldl_cons, List.foldl_cons, List.foldl_nil, first]
  exact runs.closes free same (by rw [Sockets.discard, if_neg natural]; rfl)

theorem Runs.checkin (runs : Runs system index (holding caller fd host port) sockets) (free : caller.Free)
    (natural : ¬ fd < 0) : ∃ turns, Runs (system.run turns) index caller (sockets.checkin host port fd now) := by
  rcases returned : sockets.pool.putBack host port fd now with ⟨closeIt, pool⟩
  cases closeIt with
  | false =>
    have step : system.run [(index, .checkin 0 now)] = system.put index caller pool system.handles := by
      obtain ⟨held, connecting, closing⟩ := caller
      obtain ⟨rfl, rfl⟩ : connecting = none ∧ closing = [] := free
      simp [PoolSystem.run, PoolSystem.step, runs.found, holding, PoolSystem.begin, natural, runs.pool, returned]
    refine ⟨[(index, .checkin 0 now)], ?_⟩
    simp only [step, Sockets.checkin, natural, ↓reduceIte, returned, Bool.false_eq_true]
    exact runs.put rfl (List.Sublist.refl _) (fun _ _ _ unused => unused)
  | true =>
    have first : system.step (index, .checkin 0 now) =
        system.put index { caller with closing := [fd] } pool system.handles := by
      simp [PoolSystem.step, runs.found, holding, free.1, free.2, PoolSystem.begin, natural, runs.pool, returned]
    refine ⟨[(index, .checkin 0 now), (index, .close)], ?_⟩
    simp only [PoolSystem.run, List.foldl_cons, List.foldl_nil, first, Sockets.checkin, natural, ↓reduceIte, returned]
    exact runs.closes free rfl rfl

theorem Runs.setStream (runs : Runs system index caller sockets) (fd : Int) (stream : Descriptor) :
    Runs system index caller (sockets.setStream fd stream) := ⟨runs.found, runs.pool, runs.unused, runs.distinct⟩

/-- All that the attempts do to the pool are turns of the thread, which has nothing in its hands at the end. -/
theorem Runs.attempts (runs : Runs system index caller sockets) (free : caller.Free) (peer : NodeInfo)
    (request : Bytes) (now : Int) (left : Nat) :
    ∃ turns, Runs (system.run turns) index caller (attempts peer request now left sockets).2 := by
  induction left generalizing system sockets with
  | zero => exact ⟨[], runs⟩
  | succ left ih =>
    rcases result : sockets.checkout peer.host peer.port with ⟨fd, next⟩
    obtain ⟨taken, holds⟩ := runs.checkout free result
    simp only [PooledReplicaClient.attempts, result]
    split
    · rename_i failed
      rw [if_pos failed] at holds
      exact ⟨taken, holds⟩
    · rename_i natural
      rw [if_neg natural] at holds
      split
      · obtain ⟨returned, done⟩ := (holds.setStream fd _).checkin free natural
        exact ⟨taken ++ returned, by rw [PoolSystem.run, List.foldl_append]; exact done⟩
      · obtain ⟨dropped, again⟩ := (holds.setStream fd _).discard free natural
        obtain ⟨later, done⟩ := ih again
        exact ⟨taken ++ dropped ++ later, by rw [PoolSystem.run, List.foldl_append, List.foldl_append]; exact done⟩

/-- So the pool after an exchange is one that threads can bring about. -/
theorem Runs.exchange (runs : Runs system index caller sockets) (free : caller.Free) (peer : NodeInfo)
    (request : Bytes) (now : Int) :
    ∃ turns, Runs (system.run turns) index caller (exchange peer request now sockets).2 :=
  runs.attempts free peer request now 2

end Threads

/-- In every state of the pool its connections to a peer are open and told apart. -/
theorem idle_distinct {system : PoolSystem} (sound : system.Sound) (key : Bytes) :
    (system.pool.idleFds key).Nodup ∧ ∀ fd ∈ system.pool.idleFds key, 0 ≤ fd := by
  refine ⟨List.nodup_iff_count_le_one.mpr (fun fd => ?_), fun fd member => ?_⟩
  · by_cases member : fd ∈ system.pool.idleFds key
    · obtain ⟨serial, peer, live, rfl⟩ := sound.filed key fd member
      have once := sound.counted fd serial peer live
      omega
    · rw [List.count_eq_zero_of_not_mem member]
      exact Nat.zero_le 1
  · obtain ⟨serial, peer, live, -⟩ := sound.filed key fd member
    exact sound.natural fd serial peer live

/-- However threads used the pool before, if a peer answers on a new connection, its answer is returned
exactly if it comes on the first that works of the two idle connections returned last, or, where none of
them works, if there are no two. The retry goes to the pool again. -/
theorem healthy_peer_reached_iff (maxPerPeer : Nat) (idleTtl : Int) (callers : Nat) (turns : List (Nat × PoolAction))
    (sockets : Sockets) (peer : NodeInfo) (request reply : Bytes) (now : Int)
    (reached : sockets.pool = ((PoolSystem.start maxPerPeer idleTtl callers).run turns).pool)
    (answers : Answers sockets request reply) :
    (exchange peer request now sockets).1 = reply ↔
      (∀ answer, firstAnswer sockets request ((idleFor sockets peer).reverse.take 2) = some answer → answer = reply) ∧
        (firstAnswer sockets request ((idleFor sockets peer).reverse.take 2) = none →
          (idleFor sockets peer).length ≤ 1 ∨ reply = []) := by
  have proper : Proper sockets peer := by
    have idle := idle_distinct ((PoolSystem.sound_start maxPerPeer idleTtl callers).run turns)
      (keyOf peer.host peer.port)
    rw [← reached] at idle
    exact ⟨idle.1, idle.2⟩
  rw [exchange, attempts_eq 2 proper answers]
  cases firstAnswer sockets request ((idleFor sockets peer).reverse.take 2) with
  | some answer => simp
  | none =>
    by_cases few : (idleFor sockets peer).length ≤ 1
    · simp [few, show ¬ 2 ≤ (idleFor sockets peer).length by omega]
    · simp [few, show 2 ≤ (idleFor sockets peer).length by omega, eq_comm]

/-- The peer was restarted: what comes on its old connections is the end of the stream, and on a new
one it acknowledges. -/
def restarted (turns : List (Nat × PoolAction)) : Sockets :=
  ⟨((PoolSystem.start 4 60 2).run turns).pool, fun _ => ⟨[], [], [], []⟩,
    [(7, ⟨Framing.frame (ascii "RESPONSE|OK"), [], [], []⟩)], []⟩

theorem answers_restarted (turns : List (Nat × PoolAction)) :
    Answers (restarted turns) (ascii "REPLICATE|k||a|") (ascii "RESPONSE|OK") :=
  ⟨7, _, [], rfl, by decide, by decide +kernel⟩

theorem stale_restarted (turns : List (Nat × PoolAction)) (fd : Int) :
    (roundTrip ((restarted turns).streams fd) (ascii "REPLICATE|k||a|")).1 = none := by
  have ended : (roundTrip ⟨[], [], [], []⟩ (ascii "REPLICATE|k||a|")).1 = none := by decide +kernel
  exact ended

/-- One stale connection is left behind. -/
theorem healthy_peer_reached_once :
    let sockets := restarted [(0, .checkout (ascii "h") 1), (0, .connected 5), (0, .checkin 0 0)]
    idleFor sockets ⟨ascii "b", ascii "h", 1⟩ = [5] ∧
      (exchange ⟨ascii "b", ascii "h", 1⟩ (ascii "REPLICATE|k||a|") 9 sockets).1 = ascii "RESPONSE|OK" := by
  intro sockets
  have idle : idleFor sockets ⟨ascii "b", ascii "h", 1⟩ = [5] := by decide +kernel
  have stale : firstAnswer sockets (ascii "REPLICATE|k||a|")
      ((idleFor sockets ⟨ascii "b", ascii "h", 1⟩).reverse.take 2) = none := by
    rw [firstAnswer, List.findSome?_eq_none_iff]
    exact fun fd _ => stale_restarted _ fd
  refine ⟨idle, (healthy_peer_reached_iff 4 60 2 _ sockets ⟨ascii "b", ascii "h", 1⟩ (ascii "REPLICATE|k||a|") _ 9
    rfl (answers_restarted _)).mpr ⟨?_, fun _ => .inl ?_⟩⟩
  · simp [stale]
  · rw [idle]
    exact Nat.le_refl 1

/-- Two threads used the pool at once, so that it keeps two connections: the retry takes the second. -/
theorem healthy_peer_hidden :
    let sockets := restarted [(0, .checkout (ascii "h") 1), (0, .connected 5), (1, .checkout (ascii "h") 1),
      (1, .connected 6), (0, .checkin 0 0), (1, .checkin 0 0)]
    idleFor sockets ⟨ascii "b", ascii "h", 1⟩ = [5, 6] ∧
      (∀ fd, (roundTrip (sockets.streams fd) (ascii "REPLICATE|k||a|")).1 = none) ∧
      Answers sockets (ascii "REPLICATE|k||a|") (ascii "RESPONSE|OK") ∧
      (exchange ⟨ascii "b", ascii "h", 1⟩ (ascii "REPLICATE|k||a|") 9 sockets).1 ≠ ascii "RESPONSE|OK" := by
  intro sockets
  exact ⟨by decide +kernel, stale_restarted _, answers_restarted _, by decide +kernel⟩

end PooledReplicaClient

end MiniDynamo
