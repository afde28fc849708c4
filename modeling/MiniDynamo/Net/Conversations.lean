import MiniDynamo.Net.PooledClient
import MiniDynamo.Net.TCPServer

/-! Threads that ask peers over pooled connections, step by step and in any order, while the peers serve
the connections. A connection is returned to the pool only after a whole round trip, so a thread never reads
the reply to a request of another. -/

namespace MiniDynamo

/-- Both directions of a connection, and what the peer has served on it. -/
structure Line where
  up : Bytes
  down : Bytes
  served : List (Bytes × Option Bytes)

namespace Line

def blank : Line := ⟨[], [], []⟩

/-- One round of the peer's loop, with the answer it gives, if there is a whole request. -/
def serve (line : Line) (answer : Option Bytes) : Line :=
  match Framing.recvFramed ⟨line.up, [], [], []⟩ with
  | (none, _) => line
  | (some request, after) =>
    ⟨after.incoming, line.down ++ (TCPServer.reply after answer).outgoing, line.served ++ [(request, answer)]⟩

end Line

/-- Where a thread is in `PooledReplicaClient::exchange`, and the attempts it has left. -/
inductive ExchangeStage where
  | resting
  | acquiring (peer : Peer) (request : Bytes) (left : Nat)
  | sending (peer : Peer) (request : Bytes) (left : Nat)
  | receiving (peer : Peer) (request : Bytes) (left : Nat)
  | returning
  | failed (peer : Peer) (request : Bytes) (left : Nat)

/-- A thread calls `exchange`, works with the pool, sends its request or waits for the reply; a peer serves
one of its connections. -/
inductive ConversationTurn where
  | call (thread : Nat) (peer : Peer) (request : Bytes)
  | pool (thread : Nat) (action : PoolAction)
  | send (thread : Nat) (writes : List Descriptor.Call)
  | recv (thread : Nat) (reads : List Descriptor.Call)
  | serve (serial : Nat) (answer : Option Bytes)

/-- An exchange that came to its reply, and the connection it came on. -/
structure Exchange where
  serial : Nat
  peer : Peer
  request : Bytes
  reply : Bytes

structure Conversations where
  system : PoolSystem
  stages : Nat → ExchangeStage
  lines : Nat → Line
  finished : List Exchange

namespace ExchangeStage

/-- What a thread does with the pool at each stage. Between two exchanges it may be the reaper or destroy
the pool. -/
def permits : ExchangeStage → PoolAction → Bool
  | .resting, .reapExpired _ | .resting, .destroy | .resting, .close => true
  | .acquiring peer _ _, .checkout host port => decide (peer = (host, port))
  | .acquiring _ _ _, .connected _ | .acquiring _ _ _, .close => true
  | .returning, .checkin place _ => decide (place = 0)
  | .failed _ _ _, .discard place => decide (place = 0)
  | _, _ => false

/-- Where a thread goes on after its step with the pool. -/
def next (stage : ExchangeStage) (before after : Caller) : ExchangeStage :=
  match stage with
  | .acquiring peer request left =>
    if after.held ≠ [] then .sending peer request left
    -- no connection could be made, and `exchange` gives up
    else if before.connecting ≠ none ∧ after.connecting = none then .resting
    else .acquiring peer request left
  | .returning => .resting
  | .failed _ _ 0 => .resting
  | .failed peer request (left + 1) => .acquiring peer request left
  | other => other

end ExchangeStage

namespace Conversations

/-- So many threads around a new pool. -/
def start (maxPerPeer : Nat) (idleTtl : Int) (threads : Nat) : Conversations :=
  ⟨.start maxPerPeer idleTtl threads, fun _ => .resting, fun _ => .blank, []⟩

def setStage (talk : Conversations) (thread : Nat) (stage : ExchangeStage) : Conversations :=
  { talk with stages := fun other => if other = thread then stage else talk.stages other }

def setLine (talk : Conversations) (serial : Nat) (line : Line) : Conversations :=
  { talk with lines := fun other => if other = serial then line else talk.lines other }

/-- A thread has used its connection and goes on to a stage, with what exchanges have come to their reply. -/
def speak (talk : Conversations) (thread serial : Nat) (line : Line) (stage : ExchangeStage)
    (finished : List Exchange) : Conversations := { (talk.setLine serial line).setStage thread stage with finished }

/-- The connection a thread has checked out. -/
def serialOf (talk : Conversations) (thread : Nat) : Option Nat :=
  talk.system.callers[thread]?.bind (fun caller =>
    caller.held.head?.bind (fun entry => talk.system.handles.table entry.1))

/-- The pool operation of a thread, and its next stage. -/
def stepPool (talk : Conversations) (thread : Nat) (action : PoolAction) : Conversations :=
  match talk.system.callers[thread]?, (talk.system.step (thread, action)).callers[thread]? with
  | some before, some after =>
    { talk with system := talk.system.step (thread, action) }.setStage thread
      ((talk.stages thread).next before after)
  | _, _ => talk

def step (talk : Conversations) : ConversationTurn → Conversations
  | .call thread peer request =>
    match talk.stages thread with
    | .resting => talk.setStage thread (.acquiring peer request 1)
    | _ => talk
  | .pool thread action => if (talk.stages thread).permits action then talk.stepPool thread action else talk
  | .send thread writes =>
    match talk.stages thread, talk.serialOf thread with
    | .sending peer request left, some serial =>
      let line := talk.lines serial
      let (sent, after) := Framing.sendFramed ⟨line.down, [], [], writes⟩ request
      talk.speak thread serial { line with up := line.up ++ after.outgoing }
        (if sent then .receiving peer request left else .failed peer request left) talk.finished
    | _, _ => talk
  | .recv thread reads =>
    match talk.stages thread, talk.serialOf thread with
    | .receiving peer request left, some serial =>
      let line := talk.lines serial
      match Framing.recvFramed ⟨line.down, [], reads, []⟩ with
      | (none, after) =>
        talk.speak thread serial { line with down := after.incoming } (.failed peer request left) talk.finished
      | (some reply, after) =>
        talk.speak thread serial { line with down := after.incoming } .returning
          (talk.finished ++ [⟨serial, peer, request, reply⟩])
    | _, _ => talk
  | .serve serial answer => talk.setLine serial ((talk.lines serial).serve answer)

def run (talk : Conversations) (turns : List ConversationTurn) : Conversations := turns.foldl step talk

end Conversations

/-! ### Steps of the pool -/

namespace PoolSystem

open ConnectionPool

variable {system after : PoolSystem} {index : Nat} {caller : Caller} {action : PoolAction} {fd : Int}

/-- A step of one thread leaves the others as they are, and opens at most one new connection. -/
structure Local (index : Nat) (system after : PoolSystem) : Prop where
  others : ∀ other, other ≠ index → after.callers[other]? = system.callers[other]?
  opened : ∀ fd serial peer, after.handles.IsOpen fd serial peer →
    system.handles.IsOpen fd serial peer ∨ system.handles.table fd = none ∧ serial = system.handles.issued.length
  issued : system.handles.issued <+: after.handles.issued

theorem Local.refl (index : Nat) (system : PoolSystem) : Local index system system :=
  ⟨fun _ _ => rfl, fun _ _ _ here => .inl here, List.prefix_rfl⟩

theorem isOpen_closes {handles : Handles Peer} {fds : List Int} {serial : Nat} {peer : Peer}
    (here : (fds.foldl .close handles).IsOpen fd serial peer) : handles.IsOpen fd serial peer := by
  induction fds generalizing handles with
  | nil => exact here
  | cons first rest ih => exact (Handles.isOpen_close.mp (ih here)).1

theorem issued_closes {handles : Handles Peer} (fds : List Int) :
    (fds.foldl .close handles).issued = handles.issued := by
  induction fds generalizing handles with
  | nil => rfl
  | cons first rest ih => exact (@ih (handles.close first)).trans Handles.issued_close

theorem local_put {other : Caller} {pool : ConnectionPool} :
    Local index system (system.put index other pool system.handles) where
  others _ different := List.getElem?_set_ne (Ne.symm different)
  opened _ _ _ here := .inl here
  issued := List.prefix_rfl

theorem local_begin (action : PoolAction) : Local index system (system.begin index caller action) := by
  cases action with
  | checkout host port =>
    unfold begin
    simp only
    split <;> exact local_put
  | checkin place now =>
    unfold begin
    simp only
    split
    · exact .refl _ _
    · split
      · exact .refl _ _
      · split <;> exact local_put
  | discard place =>
    unfold begin
    simp only
    split
    · exact .refl _ _
    · split
      · exact .refl _ _
      · exact local_put
  | reapExpired now => exact local_put
  | destroy =>
    exact ⟨fun _ _ => rfl, fun _ _ _ here => .inl (isOpen_closes here), by rw [begin, issued_closes]⟩
  | connected fd => exact .refl _ _
  | close => exact .refl _ _

theorem local_step (sound : system.Sound) (action : PoolAction) : Local index system (system.step (index, action)) := by
  unfold step
  split
  · exact .refl _ _
  · rename_i caller found
    split
    · exact local_begin action
    · rename_i peer fd connecting
      split
      · exact local_put
      · split
        · rename_i free
          refine ⟨fun _ different => List.getElem?_set_ne (Ne.symm different), fun number serial label here => ?_, ?_⟩
          · rcases (Handles.isOpen_issue sound.consistent free).mp here with before | ⟨rfl, last, -⟩
            · exact .inl before
            · exact .inr ⟨free, last⟩
          · exact List.prefix_append _ _
        · exact .refl _ _
    · refine ⟨fun _ different => List.getElem?_set_ne (Ne.symm different), fun number serial label here => ?_, ?_⟩
      · exact .inl (Handles.isOpen_close.mp here).1
      · rw [handles_put, Handles.issued_close]
    · exact .refl _ _

/-- No two threads have one connection in their hands. -/
theorem Sound.exclusive (sound : system.Sound) {other : Nat} {caller' : Caller}
    (found : system.callers[index]? = some caller) (found' : system.callers[other]? = some caller')
    (here : fd ∈ caller.fds) (there : fd ∈ caller'.fds) : index = other := by
  by_contra different
  obtain ⟨serial, peer, live⟩ := sound.isOpen_of_mem found here
  have once := sound.counted fd serial peer live
  have emptied := hands_put ⟨[], none, []⟩ system.pool system.handles found fd
  have left := fds_count_le
    (show (system.put index ⟨[], none, []⟩ system.pool system.handles).callers[other]? = some caller' from
      (List.getElem?_set_ne different).trans found') fd
  have one := List.count_pos_iff.mpr here
  have two := List.count_pos_iff.mpr there
  have none : (Caller.fds ⟨[], none, []⟩).count fd = 0 := rfl
  omega

end PoolSystem

namespace ExchangeStage

open PoolSystem

/-- The connection a thread has checked out may have something under way on it. -/
def loud : ExchangeStage → Bool
  | .receiving _ _ _ | .failed _ _ _ => true
  | _ => false

/-- What a thread has in its hands at each stage. -/
def Fits : ExchangeStage → Caller → Prop
  | .resting, caller => caller.held = [] ∧ caller.connecting = none
  | .acquiring peer _ _, caller =>
    caller.held = [] ∧ (caller.connecting = none ∨ caller.connecting = some peer ∧ caller.closing = [])
  | .sending peer _ _, caller | .receiving peer _ _, caller | .failed peer _ _, caller =>
    ∃ fd, caller = ⟨[(fd, peer)], none, []⟩
  | .returning, caller => ∃ fd peer, caller = ⟨[(fd, peer)], none, []⟩

/-- The descriptors of a thread whose connections may have something under way. -/
def loudFds (stage : ExchangeStage) (caller : Caller) : List Int :=
  (if stage.loud then caller.held.map Prod.fst else []) ++ caller.closing

theorem loudFds_subset (stage : ExchangeStage) (caller : Caller) : stage.loudFds caller ⊆ caller.fds := by
  intro fd member
  rcases List.mem_append.mp member with held | closing
  · split at held
    · exact List.mem_append_left _ held
    · cases held
  · exact List.mem_append_right _ closing

/-- What a step of a thread with the pool comes to: it fits the next stage, and what was loud and is open
still waits to be closed. -/
def Moves (stage : ExchangeStage) (before : Caller) (after : PoolSystem) (thread : Nat) : Prop :=
  ∃ caller, after.callers[thread]? = some caller ∧ (stage.next before caller).Fits caller ∧
    ∀ fd serial peer, fd ∈ stage.loudFds before → after.handles.IsOpen fd serial peer →
      fd ∈ (stage.next before caller).loudFds caller

variable {stage : ExchangeStage} {system : PoolSystem} {thread left : Nat} {before : Caller} {peer : Peer}
variable {request : Bytes}

theorem moves_same (found : system.callers[thread]? = some before) (fits : stage.Fits before)
    (stays : stage.next before before = stage) : stage.Moves before system thread := by
  refine ⟨before, found, ?_, fun fd serial peer loud _ => ?_⟩
  · rwa [stays]
  · rwa [stays]

theorem next_acquiring (fits : (ExchangeStage.acquiring peer request left).Fits before) :
    (ExchangeStage.acquiring peer request left).next before before = .acquiring peer request left := by
  simp [next, fits.1]

/-- A thread that is neither loud nor holds anything closes what it has to close. -/
theorem moves_close (found : system.callers[thread]? = some before) (fits : stage.Fits before)
    (stays : stage.next before before = stage) (quiet : stage.loud = false)
    (closes : ∀ rest, before.connecting = none →
      stage.next before { before with closing := rest } = stage ∧ stage.Fits { before with closing := rest }) :
    stage.Moves before (system.step (thread, .close)) thread := by
  cases connecting : before.connecting with
  | some peer =>
    have same : system.step (thread, .close) = system := by simp [step, found, connecting]
    rw [same]
    exact moves_same found fits stays
  | none =>
    cases closing : before.closing with
    | nil =>
      have same : system.step (thread, .close) = system := by simp [step, found, connecting, closing, begin]
      rw [same]
      exact moves_same found fits stays
    | cons first rest =>
      have closed : system.step (thread, .close) =
          system.put thread { before with closing := rest } system.pool (system.handles.close first) := by
        simp [step, found, connecting, closing]
      obtain ⟨same, fitting⟩ := closes rest connecting
      rw [closed]
      refine ⟨_, caller_put found, by rwa [same], fun fd serial peer loud live => ?_⟩
      rw [same]
      rw [loudFds, quiet, closing] at loud
      rw [loudFds, quiet]
      exact (List.mem_cons.mp loud).resolve_left (Handles.isOpen_close.mp live).2

theorem moves_resting (found : system.callers[thread]? = some before) (fits : ExchangeStage.resting.Fits before)
    {action : PoolAction} (permitted : ExchangeStage.resting.permits action = true) :
    ExchangeStage.resting.Moves before (system.step (thread, action)) thread := by
  have busy (waits : before.closing ≠ []) (other : action ≠ .close) : system.step (thread, action) = system := by
    obtain ⟨first, rest, closing⟩ := List.exists_cons_of_ne_nil waits
    cases action with
    | close => exact absurd rfl other
    | _ => simp [step, found, fits.2, closing]
  by_cases waits : before.closing = []
  · have free : system.step (thread, action) = system.begin thread before action := by
      simp [step, found, fits.2, waits]
    cases action with
    | reapExpired now =>
      rw [free]
      refine ⟨_, caller_put found, fits, fun fd serial peer loud _ => ?_⟩
      rw [loudFds, waits] at loud
      cases loud
    | destroy =>
      rw [free]
      refine ⟨before, found, fits, fun fd serial peer loud _ => ?_⟩
      rw [loudFds, waits] at loud
      cases loud
    | close => exact moves_close found fits rfl rfl (fun rest _ => ⟨rfl, fits⟩)
    | _ => cases permitted
  · cases action with
    | close => exact moves_close found fits rfl rfl (fun rest _ => ⟨rfl, fits⟩)
    | _ =>
      rw [busy waits (fun same => by cases same)]
      exact moves_same found fits rfl

theorem moves_acquiring (found : system.callers[thread]? = some before)
    (fits : (ExchangeStage.acquiring peer request left).Fits before) {action : PoolAction}
    (permitted : (ExchangeStage.acquiring peer request left).permits action = true) :
    (ExchangeStage.acquiring peer request left).Moves before (system.step (thread, action)) thread := by
  have ⟨held, connecting⟩ := fits
  cases action with
  | close =>
    refine moves_close found fits (next_acquiring fits) rfl (fun rest free => ⟨?_, held, .inl free⟩)
    simp [next, held, free]
  | checkout host port =>
    obtain rfl : peer = (host, port) := of_decide_eq_true permitted
    by_cases free : before.connecting = none ∧ before.closing = []
    · have begins : system.step (thread, .checkout host port) = system.begin thread before (.checkout host port) := by
        simp [step, found, free.1, free.2]
      rw [begins, begin]
      simp only
      split
      · refine ⟨_, caller_put found, ?_, fun fd serial peer loud _ => ?_⟩
        · rw [next, if_pos (List.cons_ne_nil _ _), held, free.1, free.2]
          exact ⟨_, rfl⟩
        · rw [loudFds, free.2] at loud
          cases loud
      · refine ⟨_, caller_put found, ?_, fun fd serial peer loud _ => ?_⟩
        · simp [next, held, free.1, free.2, Fits]
        · rw [loudFds, free.2] at loud
          cases loud
    · have same : system.step (thread, .checkout host port) = system := by
        rcases connecting with none | ⟨some, -⟩
        · obtain ⟨first, rest, closing⟩ := List.exists_cons_of_ne_nil (fun empty => free ⟨none, empty⟩)
          simp [step, found, none, closing]
        · simp [step, found, some]
      rw [same]
      exact moves_same found fits (next_acquiring fits)
  | connected fd =>
    rcases connecting with none | ⟨some, closing⟩
    · have same : system.step (thread, .connected fd) = system := by
        cases closing : before.closing <;> simp [step, found, none, closing, begin]
      rw [same]
      exact moves_same found fits (next_acquiring fits)
    · have shape : system.step (thread, .connected fd) =
          if fd < 0 then system.put thread { before with connecting := none } system.pool system.handles
          else if system.handles.table fd = none then
            system.put thread { before with held := (fd, peer) :: before.held, connecting := none } system.pool
              (system.handles.issue fd peer)
          else system := by
        simp only [step, found, some]
      rw [shape]
      split
      · refine ⟨_, caller_put found, ?_, fun fd serial peer loud _ => ?_⟩
        · simp [next, held, some, Fits]
        · rw [loudFds, closing] at loud
          cases loud
      split
      · refine ⟨_, caller_put found, ?_, fun fd serial peer loud _ => ?_⟩
        · rw [next, if_pos (List.cons_ne_nil _ _), held, closing]
          exact ⟨_, rfl⟩
        · rw [loudFds, closing] at loud
          cases loud
      · exact moves_same found fits (next_acquiring fits)
  | _ => cases permitted

theorem moves_returning (sound : system.Sound) (found : system.callers[thread]? = some before)
    (fits : ExchangeStage.returning.Fits before) {action : PoolAction}
    (permitted : ExchangeStage.returning.permits action = true) :
    ExchangeStage.returning.Moves before (system.step (thread, action)) thread := by
  obtain ⟨fd, ⟨host, port⟩, rfl⟩ := fits
  obtain ⟨serial, live⟩ := sound.labelled _ (List.mem_of_getElem? found) _ List.mem_cons_self
  have natural := Int.not_lt.mpr (sound.natural _ _ _ live)
  cases action with
  | checkin place now =>
    obtain rfl : place = 0 := of_decide_eq_true permitted
    have begins : system.step (thread, .checkin 0 now) =
        system.begin thread ⟨[(fd, host, port)], none, []⟩ (.checkin 0 now) := by
      simp [step, found]
    rw [begins, begin]
    simp only [List.getElem?_cons_zero, natural, ↓reduceIte]
    split
    · exact ⟨_, caller_put found, ⟨rfl, rfl⟩, fun fd serial peer loud _ => absurd loud List.not_mem_nil⟩
    · exact ⟨_, caller_put found, ⟨rfl, rfl⟩, fun fd serial peer loud _ => absurd loud List.not_mem_nil⟩
  | _ => cases permitted

theorem moves_failed (sound : system.Sound) (found : system.callers[thread]? = some before)
    (fits : (ExchangeStage.failed peer request left).Fits before) {action : PoolAction}
    (permitted : (ExchangeStage.failed peer request left).permits action = true) :
    (ExchangeStage.failed peer request left).Moves before (system.step (thread, action)) thread := by
  obtain ⟨fd, rfl⟩ := fits
  obtain ⟨serial, live⟩ := sound.labelled _ (List.mem_of_getElem? found) _ List.mem_cons_self
  have natural := Int.not_lt.mpr (sound.natural _ _ _ live)
  cases action with
  | discard place =>
    obtain rfl : place = 0 := of_decide_eq_true permitted
    have begins : system.step (thread, .discard 0) =
        system.put thread ⟨[], none, [fd]⟩ system.pool system.handles := by
      simp [step, found, begin, natural]
    rw [begins]
    cases left with
    | zero => exact ⟨_, caller_put found, ⟨rfl, rfl⟩, fun fd serial peer loud _ => loud⟩
    | succ left => exact ⟨_, caller_put found, ⟨rfl, .inl rfl⟩, fun fd serial peer loud _ => loud⟩
  | _ => cases permitted

/-- No step with the pool leads a thread to wait for a reply. -/
theorem next_not_receiving {action : PoolAction} (permitted : stage.permits action = true) {after : Caller} :
    stage.next before after ≠ .receiving peer request left := by
  cases stage with
  | acquiring =>
    unfold next
    simp only
    split
    · exact nofun
    split <;> exact nofun
  | failed _ _ more => cases more <;> exact nofun
  | sending => cases permitted
  | receiving => cases permitted
  | resting => exact nofun
  | returning => exact nofun

theorem moves_step (sound : system.Sound) (found : system.callers[thread]? = some before) (fits : stage.Fits before)
    {action : PoolAction} (permitted : stage.permits action = true) :
    stage.Moves before (system.step (thread, action)) thread := by
  cases stage with
  | resting => exact moves_resting found fits permitted
  | acquiring peer request left => exact moves_acquiring found fits permitted
  | returning => exact moves_returning sound found fits permitted
  | failed peer request left => exact moves_failed sound found fits permitted
  | sending peer request left => cases permitted
  | receiving peer request left => cases permitted

end ExchangeStage

namespace Conversations

open Framing

variable {talk : Conversations}

/-- The exchanges that came to their reply on a connection, in order. -/
def completed (talk : Conversations) (serial : Nat) : List (Bytes × Option Bytes) :=
  (talk.finished.filter (fun exchange => exchange.serial = serial)).map
    (fun exchange => (exchange.request, some exchange.reply))

/-- Nothing is under way on the connection, and all that was served has been read. -/
def Quiet (talk : Conversations) (serial : Nat) : Prop :=
  (talk.lines serial).up = [] ∧ (talk.lines serial).down = [] ∧ (talk.lines serial).served = talk.completed serial

/-- The request is all that is under way on the connection, or its answer is. -/
def Pending (talk : Conversations) (serial : Nat) (request : Bytes) : Prop :=
  talk.lines serial = ⟨frame request, [], talk.completed serial⟩ ∨
    ∃ answer : Option Bytes,
      talk.lines serial = ⟨[], stream answer.toList, talk.completed serial ++ [(request, answer)]⟩

section Same

variable {after : Conversations} {serial : Nat} (lines : after.lines serial = talk.lines serial)
  (completed : after.completed serial = talk.completed serial)
include lines completed

theorem Quiet.same (quiet : talk.Quiet serial) : after.Quiet serial := by
  unfold Quiet
  rw [lines, completed]
  exact quiet

theorem Pending.same {request : Bytes} (pending : talk.Pending serial request) : after.Pending serial request := by
  unfold Pending
  rw [lines, completed]
  exact pending

end Same

/-- What is under way is known to the thread that asked for it: nothing on a connection that no thread will
close, one request and its answer on the connection of a thread that waits. -/
structure Matched (talk : Conversations) : Prop where
  sound : talk.system.Sound
  fits : ∀ thread caller, talk.system.callers[thread]? = some caller → (talk.stages thread).Fits caller
  quiet : ∀ fd serial peer, talk.system.handles.IsOpen fd serial peer → talk.Quiet serial ∨
    ∃ thread caller, talk.system.callers[thread]? = some caller ∧ fd ∈ (talk.stages thread).loudFds caller
  pending : ∀ thread peer request left fd serial, talk.stages thread = .receiving peer request left →
    talk.system.callers[thread]? = some ⟨[(fd, peer)], none, []⟩ → talk.system.handles.IsOpen fd serial peer →
    talk.Pending serial request
  read : ∀ serial, talk.completed serial <+: (talk.lines serial).served
  blank : ∀ serial, talk.system.handles.issued.length ≤ serial → talk.lines serial = .blank
  peers : ∀ exchange ∈ talk.finished, ∃ fd, talk.system.handles.issued[exchange.serial]? = some (fd, exchange.peer)

theorem matched_start (maxPerPeer : Nat) (idleTtl : Int) (threads : Nat) :
    (start maxPerPeer idleTtl threads).Matched where
  sound := PoolSystem.sound_start maxPerPeer idleTtl threads
  fits thread caller found := by
    obtain ⟨-, rfl⟩ := List.mem_replicate.mp (List.mem_of_getElem? found)
    exact ⟨rfl, rfl⟩
  quiet fd serial peer live := by cases live.1
  pending thread peer request left fd serial waits := by cases waits
  read serial := List.nil_prefix
  blank serial _ := rfl
  peers exchange member := absurd member List.not_mem_nil

/-- A quiet connection is what a blank line is. -/
theorem Matched.quiet_fresh (matched : talk.Matched) {serial : Nat}
    (fresh : talk.system.handles.issued.length ≤ serial) : talk.Quiet serial := by
  have line := matched.blank serial fresh
  have none := List.prefix_nil.mp (show talk.completed serial <+: [] from by
    have read := matched.read serial
    rwa [line] at read)
  exact ⟨by rw [line]; rfl, by rw [line]; rfl, by rw [line, none]; rfl⟩

/-- A thread that holds a connection and is not loud holds a quiet one. -/
theorem Matched.quiet_held (matched : talk.Matched) {thread : Nat} {fd : Int} {serial : Nat} {peer : Peer}
    (found : talk.system.callers[thread]? = some ⟨[(fd, peer)], none, []⟩) (calm : (talk.stages thread).loud = false)
    (live : talk.system.handles.IsOpen fd serial peer) : talk.Quiet serial := by
  rcases matched.quiet fd serial peer live with quiet | ⟨other, caller, found', loud⟩
  · exact quiet
  · have same := matched.sound.exclusive found found' (by simp [Caller.fds])
      (ExchangeStage.loudFds_subset _ _ loud)
    subst same
    obtain rfl := Option.some.inj (found.symm.trans found')
    simp [ExchangeStage.loudFds, calm] at loud

section Pool

variable {thread : Nat} {action : PoolAction} {before : Caller}

theorem Matched.stepPool (matched : talk.Matched) (permitted : (talk.stages thread).permits action = true) :
    (talk.stepPool thread action).Matched := by
  unfold Conversations.stepPool
  split
  · rename_i before after found known
    have step : PoolSystem.Local thread talk.system (talk.system.step (thread, action)) :=
      PoolSystem.local_step matched.sound action
    obtain ⟨caller, there, fitting, loud⟩ :=
      ExchangeStage.moves_step matched.sound found (matched.fits thread before found) permitted
    obtain rfl := Option.some.inj (known.symm.trans there)
    exact {
      sound := matched.sound.step (thread, action)
      fits := by
        intro other one present
        change (if other = thread then (talk.stages thread).next before after else talk.stages other).Fits one
        by_cases same : other = thread
        · subst same
          obtain rfl := Option.some.inj (known.symm.trans present)
          rw [if_pos rfl]
          exact fitting
        · rw [if_neg same]
          exact matched.fits other one ((step.others other same).symm.trans present)
      quiet := by
        intro fd serial peer live
        rcases step.opened fd serial peer live with open' | ⟨-, last⟩
        · rcases matched.quiet fd serial peer open' with quiet | ⟨other, one, present, noisy⟩
          · exact .inl quiet
          · right
            by_cases same : other = thread
            · subst same
              obtain rfl := Option.some.inj (found.symm.trans present)
              refine ⟨other, after, known, ?_⟩
              change fd ∈ (if other = other then _ else _ : ExchangeStage).loudFds after
              rw [if_pos rfl]
              exact loud fd serial peer noisy live
            · refine ⟨other, one, (step.others other same).trans present, ?_⟩
              change fd ∈ (if other = thread then _ else _ : ExchangeStage).loudFds one
              rwa [if_neg same]
        · exact .inl (matched.quiet_fresh (Nat.le_of_eq last.symm))
      pending := by
        intro other peer request left fd serial waits present live
        change (if other = thread then (talk.stages thread).next before after else talk.stages other) = _ at waits
        by_cases same : other = thread
        · rw [if_pos same] at waits
          exact absurd waits (ExchangeStage.next_not_receiving permitted)
        · rw [if_neg same] at waits
          have present' := (step.others other same).symm.trans present
          obtain ⟨serial', live'⟩ := matched.sound.labelled _ (List.mem_of_getElem? present') _ List.mem_cons_self
          rcases step.opened fd serial peer live with open' | ⟨free, -⟩
          · exact matched.pending other peer request left fd serial waits present' open'
          · rw [live'.1] at free
            cases free
      read := matched.read
      blank := fun serial fresh => matched.blank serial (step.issued.length_le.trans fresh)
      peers := by
        intro exchange member
        obtain ⟨fd, issued⟩ := matched.peers exchange member
        obtain ⟨more, longer⟩ := step.issued
        refine ⟨fd, ?_⟩
        change (talk.system.step (thread, action)).handles.issued[exchange.serial]? = _
        rw [← longer, List.getElem?_append_left (List.getElem?_eq_some_iff.mp issued).1]
        exact issued }
  · exact matched

end Pool

section Talk

variable {thread serial left : Nat} {fd : Int} {peer : Peer} {request : Bytes} {line : Line} {stage : ExchangeStage}

/-- The connection of a thread that has one checked out. -/
theorem Matched.holds (matched : talk.Matched) (held : talk.serialOf thread = some serial)
    (out : ∀ caller, (talk.stages thread).Fits caller → ∃ fd, caller = ⟨[(fd, peer)], none, []⟩) :
    ∃ fd, talk.system.callers[thread]? = some ⟨[(fd, peer)], none, []⟩ ∧
      talk.system.handles.IsOpen fd serial peer := by
  obtain ⟨caller, found, entry⟩ := Option.bind_eq_some_iff.mp held
  obtain ⟨fd, rfl⟩ := out caller (matched.fits thread caller found)
  obtain ⟨serial', live⟩ := matched.sound.labelled _ (List.mem_of_getElem? found) _ List.mem_cons_self
  obtain rfl : serial' = serial := Option.some.inj (live.1.symm.trans entry)
  exact ⟨fd, found, live⟩

/-- A thread that uses its own connection leaves all the others matched. -/
theorem Matched.speak (matched : talk.Matched) (found : talk.system.callers[thread]? = some ⟨[(fd, peer)], none, []⟩)
    (live : talk.system.handles.IsOpen fd serial peer) {extra : List Exchange}
    (own : ∀ exchange ∈ extra, exchange.serial = serial ∧ exchange.peer = peer)
    (fits : stage.Fits ⟨[(fd, peer)], none, []⟩)
    (calm : stage.loud = true ∨ (talk.speak thread serial line stage (talk.finished ++ extra)).Quiet serial)
    (waits : ∀ peer request left, stage = .receiving peer request left →
      (talk.speak thread serial line stage (talk.finished ++ extra)).Pending serial request)
    (read : (talk.speak thread serial line stage (talk.finished ++ extra)).completed serial <+: line.served) :
    (talk.speak thread serial line stage (talk.finished ++ extra)).Matched := by
  have lines (other : Nat) (different : other ≠ serial) :
      (talk.speak thread serial line stage (talk.finished ++ extra)).lines other = talk.lines other := if_neg different
  have stages (other : Nat) (different : other ≠ thread) :
      (talk.speak thread serial line stage (talk.finished ++ extra)).stages other = talk.stages other :=
    if_neg different
  have here : (talk.speak thread serial line stage (talk.finished ++ extra)).stages thread = stage := if_pos rfl
  have completed (other : Nat) (different : other ≠ serial) :
      (talk.speak thread serial line stage (talk.finished ++ extra)).completed other = talk.completed other := by
    have none : extra.filter (fun exchange => exchange.serial = other) = [] := by
      refine List.filter_eq_nil_iff.mpr (fun exchange member => ?_)
      simpa [(own exchange member).1] using Ne.symm different
    unfold Conversations.completed
    change ((talk.finished ++ extra).filter _).map _ = _
    rw [List.filter_append, none, List.append_nil]
  -- a connection with this number is this one
  have same {fd' : Int} {peer' : Peer} (there : talk.system.handles.IsOpen fd' serial peer') : fd' = fd :=
    (Prod.mk.inj (Option.some.inj (there.2.symm.trans live.2))).1
  exact {
    sound := matched.sound
    fits := by
      intro other caller present
      by_cases own : other = thread
      · subst own
        obtain rfl := Option.some.inj (found.symm.trans present)
        rwa [here]
      · rw [stages other own]
        exact matched.fits other caller present
    quiet := by
      intro fd' serial' peer' there
      by_cases own : serial' = serial
      · subst own
        obtain rfl := same there
        rcases calm with loud | quiet
        · refine .inr ⟨thread, _, found, ?_⟩
          rw [here]
          simp [ExchangeStage.loudFds, loud]
        · exact .inl quiet
      · rcases matched.quiet fd' serial' peer' there with quiet | ⟨other, caller, present, noisy⟩
        · exact .inl (quiet.same (lines _ own) (completed _ own))
        · refine .inr ⟨other, caller, present, ?_⟩
          rw [stages other]
          · exact noisy
          · rintro rfl
            obtain rfl := Option.some.inj (found.symm.trans present)
            have inside := ExchangeStage.loudFds_subset _ _ noisy
            obtain rfl : fd' = fd := by simpa [Caller.fds] using inside
            exact own (live.unique there).1
    pending := by
      intro other peer' request left fd' serial' asks present there
      by_cases mine : other = thread
      · subst mine
        have held := Option.some.inj (found.symm.trans present)
        simp only [Caller.mk.injEq, List.cons.injEq, Prod.mk.injEq, and_true] at held
        obtain ⟨rfl, rfl⟩ := held
        obtain rfl := (live.unique there).1
        rw [here] at asks
        exact waits peer request left asks
      · rw [stages other mine] at asks
        have pending := matched.pending other peer' request left fd' serial' asks present there
        have elsewhere : serial' ≠ serial := by
          rintro rfl
          obtain rfl := same there
          have one : fd' ∈ Caller.fds ⟨[(fd', peer')], none, []⟩ := List.mem_cons_self
          exact mine (matched.sound.exclusive present found one List.mem_cons_self)
        exact pending.same (lines _ elsewhere) (completed _ elsewhere)
    read := by
      intro other
      by_cases own : other = serial
      · subst own
        refine read.trans ?_
        rw [show (talk.speak thread other line stage (talk.finished ++ extra)).lines other = line from if_pos rfl]
      · rw [lines other own, completed other own]
        exact matched.read other
    blank := by
      intro other fresh
      rw [lines other]
      · exact matched.blank other fresh
      · rintro rfl
        exact absurd live.lt (Nat.not_lt.mpr fresh)
    peers := by
      intro exchange member
      rcases List.mem_append.mp member with before | now
      · exact matched.peers exchange before
      · obtain ⟨number, asked⟩ := own exchange now
        exact ⟨fd, by rw [number, asked]; exact live.2⟩ }

/-- A request goes out whole and is all that is under way, or the connection will be closed. -/
theorem Matched.send (matched : talk.Matched) (asks : talk.stages thread = .sending peer request left)
    (held : talk.serialOf thread = some serial) (writes : List Descriptor.Call) :
    (talk.step (.send thread writes)).Matched := by
  obtain ⟨fd, found, live⟩ := matched.holds held (fun caller fits => by rw [asks] at fits; exact fits)
  obtain ⟨up, down, served⟩ := matched.quiet_held found (by rw [asks]; rfl) live
  unfold Conversations.step
  simp only [asks, held]
  rw [← List.append_nil talk.finished]
  have kept : (talk.finished ++ []).filter (fun exchange => exchange.serial = serial) =
      talk.finished.filter (fun exchange => exchange.serial = serial) := by rw [List.append_nil]
  have completed (line : Line) (stage : ExchangeStage) :
      (talk.speak thread serial line stage (talk.finished ++ [])).completed serial = talk.completed serial :=
    congrArg (List.map _) kept
  cases result : sendFramed ⟨(talk.lines serial).down, [], [], writes⟩ request with
  | mk sent after =>
    refine matched.speak found live (fun exchange member => absurd member List.not_mem_nil) ?_ (.inl ?_) ?_ ?_
    · split <;> exact ⟨fd, rfl⟩
    · split <;> rfl
    · intro peer' request' left' waits
      cases sent with
      | false => cases waits
      | true =>
        obtain ⟨-, rfl, -⟩ := ExchangeStage.receiving.inj waits
        refine .inl ?_
        rw [completed]
        change (if serial = serial then _ else _ : Line) = _
        rw [if_pos rfl, up, down, served, sendFramed_sent result]
        rfl
    · rw [completed, served]

/-- A reply that is read is the answer to the thread's own request, and all that was under way. -/
theorem Matched.recv (matched : talk.Matched) (waits : talk.stages thread = .receiving peer request left)
    (held : talk.serialOf thread = some serial) (reads : List Descriptor.Call) :
    (talk.step (.recv thread reads)).Matched := by
  obtain ⟨fd, found, live⟩ := matched.holds held (fun caller fits => by rw [waits] at fits; exact fits)
  have pending := matched.pending thread peer request left fd serial waits found live
  unfold Conversations.step
  simp only [waits, held]
  split
  · rw [← List.append_nil talk.finished]
    refine matched.speak found live (fun exchange member => absurd member List.not_mem_nil) ⟨fd, rfl⟩ (.inl rfl)
      (fun _ _ _ other => by cases other) ?_
    have read := matched.read serial
    unfold completed
    change ((talk.finished ++ []).filter _).map _ <+: _
    rw [List.append_nil]
    exact read
  · rename_i reply after received
    have own : ∀ exchange ∈ [(⟨serial, peer, request, reply⟩ : Exchange)],
        exchange.serial = serial ∧ exchange.peer = peer := by
      intro exchange member
      rw [List.mem_singleton.mp member]
      exact ⟨rfl, rfl⟩
    -- only an answer that has come can be read
    obtain ⟨answer, line⟩ : ∃ answer : Option Bytes,
        talk.lines serial = ⟨[], stream answer.toList, talk.completed serial ++ [(request, answer)]⟩ := by
      rcases pending with asked | answered
      · rw [asked] at received
        obtain ⟨digits, -, -, front⟩ := recvFramed_took received
        simp at front
      · exact answered
    have completed (line : Line) (stage : ExchangeStage) :
        (talk.speak thread serial line stage (talk.finished ++ [⟨serial, peer, request, reply⟩])).completed serial =
          talk.completed serial ++ [(request, some reply)] := by
      unfold Conversations.completed
      change ((talk.finished ++ _).filter _).map _ = _
      simp
    rw [line] at received ⊢
    cases answer with
    | none =>
      obtain ⟨digits, -, -, front⟩ := recvFramed_took received
      simp [stream] at front
    | some text =>
      obtain ⟨rfl, rest⟩ := recvFramed_taken (show _ = frame text ++ [] from by simp [stream]) received
      refine matched.speak found live own ⟨fd, peer, rfl⟩ (.inr ?_) (fun _ _ _ other => by cases other) ?_
      · refine ⟨?_, ?_, ?_⟩
        · change (if serial = serial then _ else _ : Line).up = _
          rw [if_pos rfl]
        · change (if serial = serial then _ else _ : Line).down = _
          rw [if_pos rfl]
          exact rest
        · rw [completed]
          change (if serial = serial then _ else _ : Line).served = _
          rw [if_pos rfl]
      · rw [completed]

end Talk

/-- A peer that serves a connection takes a whole request off it and answers it behind what it has answered. -/
theorem serve_cases (line : Line) (answer : Option Bytes) :
    line.serve answer = line ∨ ∃ request after, recvFramed ⟨line.up, [], [], []⟩ = (some request, after) ∧
      line.serve answer =
        ⟨after.incoming, line.down ++ stream answer.toList, line.served ++ [(request, answer)]⟩ := by
  unfold Line.serve
  split
  · exact .inl rfl
  · rename_i request after received
    have kept := onlyRead_recvFramed ⟨line.up, [], [], []⟩
    rw [received] at kept
    have writable : after.Writable := kept.writable ⟨List.not_mem_nil, List.not_mem_nil⟩
    have replied := (TCPServer.reply_spec writable answer).1
    rw [kept.outgoing, List.nil_append] at replied
    exact .inr ⟨request, after, received, by rw [replied]⟩

theorem Matched.serve (matched : talk.Matched) (serial : Nat) (answer : Option Bytes) :
    (talk.step (.serve serial answer)).Matched := by
  have here : (talk.step (.serve serial answer)).lines serial = (talk.lines serial).serve answer := if_pos rfl
  have lines (other : Nat) (different : other ≠ serial) :
      (talk.step (.serve serial answer)).lines other = talk.lines other := if_neg different
  rcases serve_cases (talk.lines serial) answer with same | ⟨request, after, received, served⟩
  · have unchanged : talk.step (.serve serial answer) = talk := by
      obtain ⟨system, stages, lines, finished⟩ := talk
      change Conversations.mk _ _ _ _ = _
      congr
      funext other
      split
      · rename_i this
        rw [this]
        exact same
      · rfl
    rw [unchanged]
    exact matched
  · obtain ⟨digits, -, -, front⟩ := recvFramed_took received
    have under : (talk.lines serial).up ≠ [] := by
      intro empty
      rw [empty] at front
      simp at front
    exact {
      sound := matched.sound
      fits := matched.fits
      quiet := by
        intro fd serial' peer live
        rcases matched.quiet fd serial' peer live with quiet | noisy
        · refine .inl (quiet.same (lines serial' ?_) rfl)
          rintro rfl
          exact under quiet.1
        · exact .inr noisy
      pending := by
        intro thread peer request' left fd serial' waits found live
        have pending := matched.pending thread peer request' left fd serial' waits found live
        by_cases own : serial' = serial
        · subst own
          rcases pending with asked | ⟨answer', answered⟩
          · rw [asked] at received served
            obtain ⟨rfl, rest⟩ := recvFramed_taken (List.append_nil _).symm received
            refine .inr ⟨answer, ?_⟩
            rw [here, asked, served, rest]
            rfl
          · exact absurd (by rw [answered]) under
        · exact pending.same (lines serial' own) rfl
      read := by
        intro other
        by_cases own : other = serial
        · subst own
          rw [here, served]
          exact (matched.read other).trans (List.prefix_append _ _)
        · rw [lines other own]
          exact matched.read other
      blank := by
        intro other fresh
        rw [lines other]
        · exact matched.blank other fresh
        · rintro rfl
          exact under (by rw [matched.blank other fresh]; rfl)
      peers := matched.peers }

theorem Matched.step (matched : talk.Matched) (turn : ConversationTurn) : (talk.step turn).Matched := by
  cases turn with
  | call thread peer request =>
    unfold Conversations.step
    simp only
    split
    · rename_i rests
      have stages (other : Nat) : (talk.setStage thread (.acquiring peer request 1)).stages other =
          if other = thread then .acquiring peer request 1 else talk.stages other := rfl
      exact {
        sound := matched.sound
        fits := by
          intro other caller found
          have fits := matched.fits other caller found
          rw [stages]
          split
          · rename_i same
            rw [same, rests] at fits
            exact ⟨fits.1, .inl fits.2⟩
          · exact fits
        quiet := by
          intro fd serial peer' live
          rcases matched.quiet fd serial peer' live with quiet | ⟨other, caller, found, noisy⟩
          · exact .inl quiet
          · refine .inr ⟨other, caller, found, ?_⟩
            rw [stages]
            split
            · rename_i same
              rw [same, rests] at noisy
              exact noisy
            · exact noisy
        pending := by
          intro other peer' request' left fd serial waits
          rw [stages] at waits
          split at waits
          · cases waits
          · exact matched.pending other peer' request' left fd serial waits
        read := matched.read
        blank := matched.blank
        peers := matched.peers }
    · exact matched
  | pool thread action =>
    unfold Conversations.step
    simp only
    split
    · rename_i permitted
      exact matched.stepPool permitted
    · exact matched
  | send thread writes =>
    cases asks : talk.stages thread with
    | sending peer request left =>
      cases held : talk.serialOf thread with
      | some serial => exact matched.send asks held writes
      | none => simpa only [Conversations.step, asks, held] using matched
    | _ => simpa only [Conversations.step, asks] using matched
  | recv thread reads =>
    cases waits : talk.stages thread with
    | receiving peer request left =>
      cases held : talk.serialOf thread with
      | some serial => exact matched.recv waits held reads
      | none => simpa only [Conversations.step, waits, held] using matched
    | _ => simpa only [Conversations.step, waits] using matched
  | serve serial answer => exact matched.serve serial answer

theorem Matched.run (matched : talk.Matched) (turns : List ConversationTurn) : (talk.run turns).Matched := by
  induction turns generalizing talk with
  | nil => exact matched
  | cons turn rest ih => exact ih (matched.step turn)

/-- However threads and peers take turns and whatever fails on the way, the replies that come on a connection
are those its peer gave to the same requests, each used once and in order, and the connection leads to the peer
that was asked. -/
theorem replies_matched (maxPerPeer : Nat) (idleTtl : Int) (threads : Nat) (turns : List ConversationTurn) :
    (∀ serial, ((start maxPerPeer idleTtl threads).run turns).completed serial <+:
      (((start maxPerPeer idleTtl threads).run turns).lines serial).served) ∧
    ∀ exchange ∈ ((start maxPerPeer idleTtl threads).run turns).finished, ∃ fd,
      ((start maxPerPeer idleTtl threads).run turns).system.handles.issued[exchange.serial]? =
        some (fd, exchange.peer) :=
  have matched := (matched_start maxPerPeer idleTtl threads).run turns
  ⟨matched.read, matched.peers⟩

/-- A thread gives up before its answer comes, and another asks the same peer. -/
def lateAnswer : List ConversationTurn :=
  [.call 0 ([104], 1) [97], .pool 0 (.checkout [104] 1), .pool 0 (.connected 3), .send 0 [], .recv 0 [],
    .serve 0 (some [65]), .pool 0 (.discard 0), .pool 0 .close, .call 1 ([104], 1) [98], .pool 1 (.checkout [104] 1),
    .pool 1 (.connected 3), .send 1 [.moves 1], .serve 1 (some [66]), .recv 1 [.moves 1], .pool 1 (.checkin 0 0)]

example : ((start 1 60 2).run lateAnswer).finished.map (fun exchange => (exchange.request, exchange.reply)) =
    [([98], [66])] := by
  decide +kernel

end Conversations

end MiniDynamo
