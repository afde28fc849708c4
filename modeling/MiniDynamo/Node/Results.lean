import MiniDynamo.Library.Returns
import MiniDynamo.Node.LocalRepair

/-! What a coordinator returns. On a ring that names owners for every key, every coordinated write and read
comes to an end, whatever is in the store and whatever the replicas answer, and its result has the shape
that its status promises. -/

namespace MiniDynamo.Coordinator

open Process

/-- The reasons a coordinator refuses with. -/
def refusals : List Bytes := [ascii "quorum_not_met", ascii "no_nodes_in_ring"]

/-- A write went through with one of these clocks, or was refused. -/
structure Written (clocks : VectorClock → Prop) (result : PutResult) : Prop where
  fine : result.ok = true → clocks result.clock
  refused : result.ok = false → result.error ∈ refusals

/-- A read found one live version, several, or none, or was refused; the versions can be stored and sent. -/
structure Concluded (result : GetResult) : Prop where
  single : result.status = .ok → ∃ version, result.values = [version] ∧ version.deleted = false
  several : result.status = .siblings → 2 ≤ result.values.length
  nothing : result.status = .notFound → result.values = []
  refused : result.status = .error → result.values = [] ∧ result.error ∈ refusals
  safe : ∀ version ∈ result.values, version.clock.WireSafe

variable {coordinator : Coordinator} {key : Bytes} {expected : Replies → Prop}

section Writes

variable {vv : VersionedValue} {n w : Int}

theorem returns_placeWrites (owners rest : List NodeInfo) (localAcks : Nat) (remotes : List NodeInfo) :
    (coordinator.placeWrites key vv owners rest localAcks remotes).Returns expected (fun _ => True) := by
  induction rest generalizing localAcks remotes with
  | nil => exact trivial
  | cons owner rest ih =>
    rw [placeWrites]
    split
    · exact ih (localAcks + 1) remotes
    · split
      · split
        · exact ih localAcks _
        · exact ih localAcks _
      · exact ih localAcks _

theorem written_refused {clocks : VectorClock → Prop} {reason : Bytes} (known : reason ∈ refusals) :
    Written clocks ⟨false, .empty, reason⟩ := ⟨nofun, fun _ => known⟩

theorem written_verdict (localAcks : Nat) (replies : Replies) :
    Written (· = vv.clock) (verdict vv w localAcks replies) := by
  unfold verdict
  dsimp only
  split
  · exact ⟨fun _ => rfl, nofun⟩
  · exact written_refused (by decide)

theorem returns_writeQuorum (routed : coordinator.router.findOwners key n ≠ none) :
    (coordinator.writeQuorum key vv n w).Returns expected (Written (· = vv.clock)) := by
  unfold writeQuorum
  split
  · contradiction
  · exact written_refused (by decide)
  · exact (returns_placeWrites _ _ 0 []).bind (fun placed _ replies _ => written_verdict placed.1 replies)

variable {value : Bytes} {context : VectorClock} {now : UInt64}

/-- The clock of a write is a bump of its context. -/
def Bumped (coordinator : Coordinator) (context : VectorClock) (now : UInt64) (clock : VectorClock) : Prop :=
  ∃ copy, clock = coordinator.bump context copy now

theorem returns_bumpedWrite (routed : coordinator.router.findOwners key n ≠ none) (data : Bytes) (deleted : Bool)
    (copy : VectorClock) :
    (coordinator.writeQuorum key ⟨data, coordinator.bump context copy now, deleted⟩ n w).Returns expected
      (Written (coordinator.Bumped context now)) :=
  (returns_writeQuorum routed).mono (fun _ written => ⟨fun fine => ⟨copy, written.fine fine⟩, written.refused⟩)

theorem returns_coordinatePut (routed : coordinator.router.findOwners key n ≠ none) :
    (coordinator.coordinatePut key value context n w now).Returns expected
      (Written (coordinator.Bumped context now)) :=
  fun stored => returns_bumpedWrite routed value false (clockOf stored)

theorem returns_coordinateDelete (routed : coordinator.router.findOwners key n ≠ none) :
    (coordinator.coordinateDelete key context n w now).Returns expected
      (Written (coordinator.Bumped context now)) :=
  fun stored => returns_bumpedWrite routed [] true (clockOf stored)

end Writes

section Reads

variable {n r : Int}

/-- The versions among the responses can be stored and sent. -/
def SafeResponses (responses : List Resp) : Prop :=
  ∀ response ∈ responses, response.found = true → response.vv.clock.WireSafe

theorem safe_localResp (owner : NodeInfo) (stored : Option Bytes) (found : (localResp owner stored).found = true) :
    (localResp owner stored).vv.clock.WireSafe := by
  cases stored with
  | none => cases found
  | some bytes => exact VersionedValue.deserialize_wireSafe bytes

theorem safe_answers {replies : Replies} (safe : SafeReplies replies) (remotes : List NodeInfo) :
    SafeResponses (answers remotes replies) := by
  intro response member _
  obtain ⟨position, result, reply, -, -, -, same⟩ := mem_answers member
  rw [same]
  exact safe _ reply

theorem returns_placeReads (rest : List NodeInfo) (responses : List Resp) (remotes : List NodeInfo)
    (safe : SafeResponses responses) :
    (coordinator.placeReads key rest responses remotes).Returns expected (fun placed => SafeResponses placed.1) := by
  induction rest generalizing responses remotes with
  | nil => exact safe
  | cons owner rest ih =>
    rw [placeReads]
    split
    · intro stored
      apply ih
      intro response member found
      rcases List.mem_append.mp member with old | own
      · exact safe response old found
      · obtain rfl := List.mem_singleton.mp own
        exact safe_localResp owner stored found
    · split
      · exact ih responses remotes safe
      · exact ih responses _ safe

theorem returns_repairStale (dominant : VersionedValue) (responses : List Resp) :
    (coordinator.repairStale key dominant responses).Returns expected (fun _ => True) := by
  induction responses with
  | nil => exact trivial
  | cons response rest ih =>
    rw [repairStale]
    split
    · unfold repairAsync
      split
      · exact ih
      · exact ih
    · exact ih

theorem two_le_length {versions : List VersionedValue} (some : versions ≠ [])
    (several : ∀ version, versions ≠ [version]) : 2 ≤ versions.length := by
  match versions with
  | [] => contradiction
  | [version] => exact absurd rfl (several version)
  | first :: second :: rest => simp

theorem returns_conclude {responses : List Resp} (safe : SafeResponses responses) :
    (coordinator.conclude key responses).Returns expected Concluded := by
  have carried : ∀ version ∈ maximalVersions responses, version.clock.WireSafe := by
    intro version member
    obtain ⟨response, present, found, rfl⟩ := mem_maximalVersions member
    exact safe response present found
  unfold conclude
  split
  · exact ⟨nofun, nofun, fun _ => rfl, nofun, nofun⟩
  · rename_i dominant only
    refine (returns_repairStale dominant responses).bind (fun _ _ => ?_)
    split
    · exact ⟨nofun, nofun, fun _ => rfl, nofun, nofun⟩
    · rename_i live
      exact ⟨fun _ => ⟨dominant, rfl, by simpa using live⟩, nofun, nofun, nofun,
        fun version member => carried version (only ▸ member)⟩
  · rename_i some several
    exact ⟨nofun, fun _ => two_le_length some several, nofun, nofun, carried⟩

theorem returns_settle {own : List Resp} (safe : SafeResponses own) (remotes : List NodeInfo) {replies : Replies}
    (fine : SafeReplies replies) : (coordinator.settle key r own remotes replies).Returns expected Concluded := by
  unfold settle
  dsimp only
  split
  · exact ⟨nofun, nofun, nofun, fun _ => ⟨rfl, by decide⟩, nofun⟩
  · apply returns_conclude
    intro response member
    rcases List.mem_append.mp member with mine | remote
    · exact safe response mine
    · exact safe_answers fine remotes response remote

theorem returns_coordinateGet (routed : coordinator.router.findOwners key n ≠ none) :
    (coordinator.coordinateGet key n r).Returns SafeReplies Concluded := by
  unfold coordinateGet
  split
  · contradiction
  · exact ⟨nofun, nofun, nofun, fun _ => ⟨rfl, by decide⟩, nofun⟩
  · exact (returns_placeReads _ [] [] nofun).bind
      (fun placed safe replies fine => returns_settle safe placed.2 fine)

end Reads

end MiniDynamo.Coordinator
