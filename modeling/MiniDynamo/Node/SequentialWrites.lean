import MiniDynamo.Coordinator.ConcurrentWrites
import MiniDynamo.Node.LocalRepair

/-! Writes and reads of one key at its primary, one after another: which of them conflict
and which supersede each other. -/

namespace MiniDynamo

/-- A call of a client that runs to its end before the next one, with the replies it gets. -/
structure Turn where
  call : Call
  replies : Replies

namespace Turn

/-- A client's call, with a context and replies as they come off the wire. -/
def WellFormed (turn : Turn) : Prop :=
  match turn.call with
  | .write operation => operation.context.WireSafe
  | .get _ _ => SafeReplies turn.replies
  | .serve _ _ => False

end Turn

section Sequence

variable (coordinator : Coordinator) (client : ReplicaClient) (key : Bytes)

def perform (storage : Storage) (turn : Turn) : Storage :=
  ((turn.call.program coordinator client key).exec turn.replies storage).2

def performAll (storage : Storage) (turns : List Turn) : Storage :=
  turns.foldl (perform coordinator client key) storage

/-- Every bump of the run takes hold. -/
def SteadyRun : Storage → List Turn → Prop
  | _, [] => True
  | storage, turn :: rest =>
    (match turn.call with
      | .write operation =>
        coordinator.Steady operation.context (Coordinator.clockOf storage[key]?) operation.now
      | _ => True) ∧ SteadyRun (perform coordinator client key storage turn) rest

end Sequence

variable {coordinator : Coordinator} {client : ReplicaClient} {key : Bytes}

theorem write_only (operation : Write) (stored : Option Bytes) :
    (coordinator.writeQuorum key (operation.version coordinator stored) operation.n operation.w >>=
      fun result => .done (.written result)).Only
      (fun target bytes => target = key ∧ bytes = (operation.version coordinator stored).serialize)
      (fun _ => True) (fun _ : Outcome => True) :=
  (coordinator.writeQuorum_only key _ operation.n operation.w).bind (fun _ _ => trivial)

theorem exec_write (operation : Write) (replies : Replies) (storage : Storage) :
    ((Call.write operation).program coordinator client key).exec replies storage =
      (coordinator.writeQuorum key (operation.version coordinator storage[key]?) operation.n operation.w >>=
        fun result => .done (.written result)).exec replies storage := by
  rw [Call.program, operation.program_eq]
  rfl

/-- A write that returned has stored its version at the primary. -/
theorem perform_write {operation : Write} {replies : Replies} {storage : Storage} {outcome : Outcome}
    (primary : coordinator.Primary key)
    (returned : (((Call.write operation).program coordinator client key).exec replies storage).1 = some outcome) :
    (perform coordinator client key storage ⟨.write operation, replies⟩)[key]? =
      some (operation.version coordinator storage[key]?).serialize := by
  rw [exec_write] at returned
  rw [perform, exec_write]
  exact ((Coordinator.writeQuorum_owes primary _ operation.n operation.w).bind _).exec_lookup
    (write_only operation storage[key]?) returned

theorem exec_get_forward {n r : Int} {replies : Replies} (safe : SafeReplies replies) (storage : Storage) :
    (perform coordinator client key storage ⟨.get n r, replies⟩)[key]? = storage[key]? ∨
      ∃ bytes, Forward key storage[key]? key bytes ∧
        (perform coordinator client key storage ⟨.get n r, replies⟩)[key]? = some bytes := by
  rw [perform, Call.program]
  rcases coordinateGet_cases coordinator key n r with ⟨owners, owner, shape⟩ | only
  · rw [shape]
    exact (settle_forward owner storage[key]? r safe).exec_lookup replies storage key
  · exact (only storage[key]?).exec_lookup replies storage key

theorem ownCounter_forward {stored : Option Bytes} {bytes : Bytes} (forward : Forward key stored key bytes) :
    coordinator.ownCounter stored ≤ coordinator.ownCounter (some bytes) := by
  obtain ⟨-, version, rfl, safe, ahead⟩ := forward
  cases stored with
  | none => simp [Coordinator.ownCounter, Coordinator.clockOf]
  | some copy =>
    have below := (ahead copy rfl).le coordinator.self.nodeId
    rw [Coordinator.ownCounter, Coordinator.ownCounter, Coordinator.clockOf, Coordinator.clockOf,
      VersionedValue.deserialize_serialize safe]
    exact UInt64.le_iff_toNat_le.mp below

/-- In steady turns the primary's own counter does not fall. -/
theorem ownCounter_performAll (valid : isValidNodeId coordinator.self.nodeId = true) {turns : List Turn}
    (wellFormed : ∀ turn ∈ turns, turn.WellFormed) {storage : Storage}
    (steady : SteadyRun coordinator client key storage turns) :
    coordinator.ownCounter storage[key]? ≤
      coordinator.ownCounter (performAll coordinator client key storage turns)[key]? := by
  induction turns generalizing storage with
  | nil => exact Nat.le_refl _
  | cons turn rest ih =>
    refine Nat.le_trans ?_ (ih (fun later member => wellFormed later (List.mem_cons_of_mem turn member)) steady.2)
    obtain ⟨call, replies⟩ := turn
    have formed := wellFormed _ List.mem_cons_self
    cases call with
    | write operation =>
      have lower := ownCounter_version valid formed steady.1
      rw [perform, exec_write]
      rcases (write_only operation storage[key]?).exec_lookup replies storage key with same | ⟨_, ⟨-, rfl⟩, written⟩
      · rw [same]
      · rw [written]
        exact Nat.le_of_lt lower
    | get n r =>
      rcases exec_get_forward formed storage with same | ⟨bytes, forward, written⟩
      · rw [same]
      · rw [written]
        exact ownCounter_forward forward
    | serve ticket request => exact formed.elim

/-- The context lacks a write of another node that the earlier version had seen. -/
def Misses (coordinator : Coordinator) (context earlier : VectorClock) : Prop :=
  ∃ node, node ≠ coordinator.self.nodeId ∧ context.get node < earlier.get node

theorem not_le_bump_of_misses {context copy earlier : VectorClock} {now : UInt64}
    (misses : Misses coordinator context earlier) : ¬ earlier ≤ coordinator.bump context copy now := by
  obtain ⟨node, other, behind⟩ := misses
  intro covers
  have known := UInt64.le_trans (covers node) (Coordinator.get_bump_other other)
  exact UInt64.not_lt.mpr known behind

theorem bump_dominates_of_covers {context copy earlier : VectorClock} {now : UInt64}
    (own : earlier.get coordinator.self.nodeId <
      (coordinator.bump context copy now).get coordinator.self.nodeId)
    (covers : ¬ Misses coordinator context earlier) (room : context.size < coordinator.maxClockEntries) :
    earlier < coordinator.bump context copy now := by
  refine ⟨fun node => ?_, fun back => UInt64.not_lt.mpr (back _) own⟩
  by_cases other : node = coordinator.self.nodeId
  · rw [other]
    exact UInt64.le_of_lt own
  · rw [Coordinator.get_bump_other_eq other room]
    exact UInt64.not_lt.mp (fun behind => covers ⟨node, other, behind⟩)

theorem steadyRun_append {storage : Storage} {early late : List Turn} :
    SteadyRun coordinator client key storage (early ++ late) ↔ SteadyRun coordinator client key storage early ∧
      SteadyRun coordinator client key (performAll coordinator client key storage early) late := by
  induction early generalizing storage with
  | nil => simp [SteadyRun, performAll]
  | cons turn rest ih =>
    rw [List.cons_append, SteadyRun, SteadyRun, ih, and_assoc]
    rfl

/-- Two writes of a run of writes and reads at one node, the first from whatever copy it
found there, and the turns between them. -/
structure WritePair (coordinator : Coordinator) (client : ReplicaClient) (key : Bytes) where
  storage : Storage
  one : Write
  replies : Replies
  between : List Turn
  two : Write
  laterReplies : Replies
  safe : one.context.WireSafe
  wellFormed : ∀ turn ∈ between, turn.WellFormed
  returned : ∃ outcome, (((Call.write one).program coordinator client key).exec replies storage).1 = some outcome

namespace WritePair

variable (pair : WritePair coordinator client key)

def turns : List Turn := ⟨.write pair.one, pair.replies⟩ :: (pair.between ++ [⟨.write pair.two, pair.laterReplies⟩])

/-- The storage the second write starts from. -/
def reached : Storage :=
  performAll coordinator client key (perform coordinator client key pair.storage ⟨.write pair.one, pair.replies⟩)
    pair.between

/-- The clock of the first write's version. -/
def earlier : VectorClock := (pair.one.version coordinator pair.storage[key]?).clock

/-- The clock of the second write's version. -/
def later : VectorClock := (pair.two.version coordinator pair.reached[key]?).clock

theorem later_eq : pair.later = coordinator.bump pair.two.context
    (Coordinator.clockOf pair.reached[key]?) pair.two.now := by
  rw [later, Write.version]

/-- The primary's entry rises from the first write to the second. -/
theorem own_lt (valid : isValidNodeId coordinator.self.nodeId = true) (primary : coordinator.Primary key)
    (steady : SteadyRun coordinator client key pair.storage pair.turns) :
    pair.earlier.get coordinator.self.nodeId < pair.later.get coordinator.self.nodeId := by
  rw [turns, SteadyRun, steadyRun_append, SteadyRun] at steady
  obtain ⟨-, steadyBetween, steadyTwo, -⟩ := steady
  obtain ⟨outcome, returned⟩ := pair.returned
  have risen := ownCounter_performAll valid pair.wellFormed steadyBetween
  rw [perform_write primary returned, Coordinator.ownCounter, clockOf_version valid pair.safe] at risen
  have bumped := (Coordinator.ahead_of_bump steadyTwo).2
  rw [UInt64.lt_iff_toNat_lt] at bumped ⊢
  rw [later_eq]
  exact Nat.lt_of_le_of_lt risen bumped

/-- A write whose context lacks something another node contributed to an earlier version
never supersedes it, and, while the bumps take hold, conflicts with it. One whose context
lacks at most the primary's own writes supersedes it: the primary bumps its entry above its
own copy, so that even a blind write is not born dominated. -/
theorem unseen_write_conflicts (valid : isValidNodeId coordinator.self.nodeId = true)
    (primary : coordinator.Primary key) :
    (Misses coordinator pair.two.context pair.earlier →
      pair.later.compare pair.earlier ≠ .aDominates ∧ pair.later.compare pair.earlier ≠ .equal) ∧
    (SteadyRun coordinator client key pair.storage pair.turns →
      (Misses coordinator pair.two.context pair.earlier → pair.later.compare pair.earlier = .concurrent) ∧
      (¬ Misses coordinator pair.two.context pair.earlier → pair.two.context.size < coordinator.maxClockEntries →
        pair.later.compare pair.earlier = .aDominates)) := by
  have uncovered : Misses coordinator pair.two.context pair.earlier → ¬ pair.earlier ≤ pair.later :=
    fun misses => pair.later_eq ▸ not_le_bump_of_misses misses
  refine ⟨fun misses => ?_, fun steady => ?_⟩
  · rw [Ne, Ne, VectorClock.compare_aDominates_iff, VectorClock.compare_equal_iff]
    exact ⟨fun dominates => uncovered misses dominates.le, fun same => uncovered misses same.2⟩
  · have own := pair.own_lt valid primary steady
    rw [VectorClock.compare_concurrent_iff, VectorClock.compare_aDominates_iff]
    refine ⟨fun misses => ⟨fun back => UInt64.not_lt.mpr (back _) own, uncovered misses⟩, fun covers room => ?_⟩
    rw [later_eq] at own ⊢
    exact bump_dominates_of_covers own covers room

end WritePair

/-- Two blind writes of one key at the only node of a ring. -/
def blindPair : WritePair loneNode .pooled (ascii "k") where
  storage := ∅
  one := ⟨some (ascii "x"), .empty, 1, 1, 5⟩
  replies := []
  between := []
  two := ⟨some (ascii "y"), .empty, 1, 1, 6⟩
  laterReplies := []
  safe := by decide
  wellFormed := by simp
  returned := Option.isSome_iff_exists.mp (by decide +kernel)

/-- The first write has seen `b:1`; a read and a blind write follow. -/
def unseenPair : WritePair loneNode .pooled (ascii "k") :=
  { blindPair with
    one := ⟨some (ascii "x"), VectorClock.empty.set (ascii "b") 1 4, 1, 1, 5⟩
    between := [⟨.get 1 1, []⟩]
    safe := by decide
    wellFormed := by simp [Turn.WellFormed, SafeReplies]
    returned := Option.isSome_iff_exists.mp (by decide +kernel) }

theorem unseen_write_conflicts_after_other_node : unseenPair.later.compare unseenPair.earlier = .concurrent :=
  ((unseenPair.unseen_write_conflicts (by decide) ⟨_, by decide +kernel, rfl⟩).2
    ⟨by decide +kernel, trivial, by decide +kernel, trivial⟩).1 ⟨ascii "b", by decide, by decide +kernel⟩

/-- Two blind writes at the primary get `a:1` and `a:2`: the second has not seen the first
and supersedes it all the same. -/
theorem blind_write_supersedes :
    ¬ ∀ (coordinator : Coordinator) (client : ReplicaClient) (key : Bytes)
      (pair : WritePair coordinator client key),
      isValidNodeId coordinator.self.nodeId = true → coordinator.Primary key →
      pair.two.context.compare pair.earlier ≠ .aDominates → pair.two.context.compare pair.earlier ≠ .equal →
      pair.later.compare pair.earlier ≠ .aDominates := by
  intro detected
  refine detected loneNode .pooled (ascii "k") blindPair (by decide)
    ⟨_, by decide +kernel, rfl⟩ (by decide +kernel) (by decide +kernel) ?_
  decide +kernel

end MiniDynamo
