import MiniDynamo.Clock.Pruning
import MiniDynamo.Coordinator.Coordinator

/-! The clock a write gets, and what its program does to the store. -/

namespace MiniDynamo

namespace Coordinator

variable {coordinator : Coordinator} {context copy : VectorClock} {now : UInt64}

/-- The bump takes hold: the counter does not wrap, and the new entry is not among those
pruning drops, because fewer than `maxClockEntries` entries of the context are stamped later. -/
def Steady (coordinator : Coordinator) (context copy : VectorClock) (now : UInt64) : Prop :=
  (coordinator.base context copy).toNat + 1 < 2 ^ 64 ∧
    (context.newerThan now coordinator.self.nodeId).length < coordinator.maxClockEntries

instance : Decidable (coordinator.Steady context copy now) :=
  inferInstanceAs (Decidable (_ ∧ _))

/-- When pruning drops the fresh entry. -/
theorem own_dropped_iff (positive : coordinator.base context copy + 1 ≠ 0) :
    coordinator.self.nodeId ∈ (context.set coordinator.self.nodeId (coordinator.base context copy + 1) now).dropped
        coordinator.maxClockEntries ↔
      coordinator.maxClockEntries ≤ (context.newerThan now coordinator.self.nodeId).length := by
  have own : (context.set coordinator.self.nodeId (coordinator.base context copy + 1) now).counts[
      coordinator.self.nodeId]? = some ⟨coordinator.base context copy + 1, now⟩ := by
    simp [VectorClock.lookup_set positive]
  rw [VectorClock.mem_dropped_iff own, VectorClock.length_newerThan_set]

theorem get_bump_self (steady : coordinator.Steady context copy now) :
    (coordinator.bump context copy now).get coordinator.self.nodeId = coordinator.base context copy + 1 := by
  have positive : coordinator.base context copy + 1 ≠ 0 := by
    intro wrapped
    have value := congrArg UInt64.toNat wrapped
    rw [UInt64.toNat_add, UInt64.toNat_one, UInt64.toNat_zero, Nat.mod_eq_of_lt steady.1] at value
    omega
  have kept := mt (own_dropped_iff positive).mp (Nat.not_le.mpr steady.2)
  rw [bump, VectorClock.get_prune, if_neg kept, VectorClock.get_set, if_pos rfl]

theorem lt_base_succ (steady : coordinator.Steady context copy now) :
    context.get coordinator.self.nodeId < coordinator.base context copy + 1 ∧
      copy.get coordinator.self.nodeId < coordinator.base context copy + 1 := by
  have bound := steady.1
  simp only [UInt64.lt_iff_toNat_lt, UInt64.toNat_add, UInt64.toNat_one, Nat.mod_eq_of_lt bound]
  unfold base
  simp only [UInt64.lt_iff_toNat_lt]
  split <;> omega

/-- The new version is ahead of the context and of the local copy on the coordinator's entry. -/
theorem ahead_of_bump (steady : coordinator.Steady context copy now) :
    context.get coordinator.self.nodeId < (coordinator.bump context copy now).get coordinator.self.nodeId ∧
      copy.get coordinator.self.nodeId < (coordinator.bump context copy now).get coordinator.self.nodeId := by
  rw [get_bump_self steady]
  exact lt_base_succ steady

/-- On every other entry the new version knows at most what the context knew. -/
theorem get_bump_other {node : Bytes} (other : node ≠ coordinator.self.nodeId) :
    (coordinator.bump context copy now).get node ≤ context.get node := by
  have below := VectorClock.prune_le
    (context.set coordinator.self.nodeId (coordinator.base context copy + 1) now) coordinator.maxClockEntries node
  rwa [VectorClock.get_set, if_neg (Ne.symm other)] at below

/-- Nothing of a context with room for the new entry is pruned. -/
theorem get_bump_other_eq {node : Bytes} (other : node ≠ coordinator.self.nodeId)
    (room : context.size < coordinator.maxClockEntries) :
    (coordinator.bump context copy now).get node = context.get node := by
  have within : (context.set coordinator.self.nodeId (coordinator.base context copy + 1) now).size ≤
      coordinator.maxClockEntries :=
    Nat.le_trans (VectorClock.size_set_le _ _ _ _) room
  rw [bump, VectorClock.prune_of_size_le within, VectorClock.get_set, if_neg (Ne.symm other)]

/-- The only id a write can add to its context is the coordinator's own. -/
theorem bump_ids {node : Bytes} {entry : Entry}
    (found : (coordinator.bump context copy now).counts[node]? = some entry) :
    node = coordinator.self.nodeId ∨ context.counts[node]? = some entry := by
  by_cases own : node = coordinator.self.nodeId
  · exact .inl own
  · rw [bump, VectorClock.lookup_prune] at found
    split at found
    · cases found
    · rw [VectorClock.lookup_set_other (Ne.symm own)] at found
      exact .inr found

theorem bump_wireSafe (valid : isValidNodeId coordinator.self.nodeId = true) (safe : context.WireSafe) :
    (coordinator.bump context copy now).WireSafe := by
  refine safe.of_ids (fun node entry found => ?_)
  rcases bump_ids found with rfl | kept
  · exact .inl valid
  · exact .inr ⟨entry, kept⟩

/-- The remote owners this coordinator calls. -/
def liveOwners (coordinator : Coordinator) (owners : List NodeInfo) : List NodeInfo :=
  owners.filter (fun owner => decide (owner.nodeId ≠ coordinator.self.nodeId) && !coordinator.dead owner.nodeId)

theorem liveOwners_nodup {owners : List NodeInfo} (distinct : (owners.map NodeInfo.nodeId).Nodup) :
    ((coordinator.liveOwners owners).map NodeInfo.nodeId).Nodup :=
  distinct.sublist (List.filter_sublist.map _)

theorem liveOwners_subset {owners : List NodeInfo} : ∀ id ∈ (coordinator.liveOwners owners).map NodeInfo.nodeId,
    id ∈ owners.map NodeInfo.nodeId ∧ id ≠ coordinator.self.nodeId := by
  intro id member
  obtain ⟨owner, live, rfl⟩ := List.mem_map.mp member
  obtain ⟨present, passed⟩ := List.mem_filter.mp live
  simp only [Bool.and_eq_true, decide_eq_true_eq] at passed
  exact ⟨List.mem_map_of_mem present, passed.1⟩

/-- How often the loop of `writeQuorum` meets this node. -/
def localAcks (coordinator : Coordinator) (owners : List NodeInfo) : Nat :=
  owners.countP (fun owner => decide (owner.nodeId = coordinator.self.nodeId))

/-- The remote targets the loop of `writeQuorum` counts out. -/
def writeTargets (coordinator : Coordinator) (owners rest : List NodeInfo) : List NodeInfo :=
  rest.flatMap (fun owner =>
    if owner.nodeId = coordinator.self.nodeId then []
    else if coordinator.dead owner.nodeId then (coordinator.standIn owners owner).toList
    else [owner])

/-- The node that a message asks to take a version. -/
def taker : Outgoing → Option Bytes
  | .request (.writeReplica peer _ _) => some peer.nodeId
  | .request (.readReplica _ _) => none
  | .storeHint _ _ _ => none

/-- The loop stores the version for each of its local acknowledgements, asks nobody yet, and hands on its remote
targets. -/
theorem placeWrites_does (coordinator : Coordinator) (key : Bytes) (vv : VersionedValue)
    (owners rest : List NodeInfo) (acks : Nat) (remotes : List NodeInfo) (replies : Replies) (storage : Storage) :
    ∃ hints : List Outgoing, hints.filterMap taker = [] ∧
      (coordinator.placeWrites key vv owners rest acks remotes).Does replies storage
        (acks + coordinator.localAcks rest, remotes ++ coordinator.writeTargets owners rest)
        (List.replicate (coordinator.localAcks rest) (key, vv.serialize)) hints := by
  induction rest generalizing acks remotes storage with
  | nil => exact ⟨[], rfl, by simp [placeWrites, localAcks, writeTargets, Process.exec], rfl, rfl⟩
  | cons owner rest ih =>
    rw [placeWrites]
    split
    · rename_i own
      obtain ⟨hints, quiet, does⟩ := ih (acks + 1) remotes (storage.insert key vv.serialize)
      have count : coordinator.localAcks (owner :: rest) = coordinator.localAcks rest + 1 := by
        simp [localAcks, own]
      have targets : coordinator.writeTargets owners (owner :: rest) = coordinator.writeTargets owners rest := by
        simp [writeTargets, own]
      have sum : acks + 1 + coordinator.localAcks rest = acks + coordinator.localAcks (owner :: rest) := by omega
      rw [sum] at does
      refine ⟨hints, quiet, ?_⟩
      rw [targets]
      refine ⟨does.returned, ?_, does.sent⟩
      rw [count, List.replicate_succ]
      exact congrArg ((key, vv.serialize) :: ·) does.wrote
    · rename_i other
      have count : coordinator.localAcks (owner :: rest) = coordinator.localAcks rest := by
        simp [localAcks, other]
      split
      · rename_i gone
        obtain ⟨hints, quiet, does⟩ := ih acks (remotes ++ (coordinator.standIn owners owner).toList) storage
        have targets : coordinator.writeTargets owners (owner :: rest) =
            (coordinator.standIn owners owner).toList ++ coordinator.writeTargets owners rest := by
          simp [writeTargets, other, gone]
        rw [count, targets, ← List.append_assoc]
        split
        · refine ⟨.storeHint owner.nodeId key vv :: hints, quiet, does.returned, does.wrote, ?_⟩
          exact congrArg (Outgoing.storeHint owner.nodeId key vv :: ·) does.sent
        · exact ⟨hints, quiet, does⟩
      · rename_i alive
        obtain ⟨hints, quiet, does⟩ := ih acks (remotes ++ [owner]) storage
        have targets : coordinator.writeTargets owners (owner :: rest) =
            [owner] ++ coordinator.writeTargets owners rest := by
          simp [writeTargets, other, alive]
        rw [count, targets, ← List.append_assoc]
        exact ⟨hints, quiet, does⟩

/-- A write stores hints, asks its targets and counts the acknowledgements. -/
theorem writeQuorum_does {key : Bytes} {n : Int} {owners : List NodeInfo}
    (found : coordinator.router.findOwners key n = some owners) (nonempty : owners ≠ []) (vv : VersionedValue)
    (w : Int) (replies : Replies) (storage : Storage) :
    ∃ hints : List Outgoing, hints.filterMap taker = [] ∧
      (coordinator.writeQuorum key vv n w).Does replies storage
        (verdict vv w (coordinator.localAcks owners) replies)
        (List.replicate (coordinator.localAcks owners) (key, vv.serialize))
        (hints ++ (coordinator.writeTargets owners owners).map (.request <| .writeReplica · key vv)) := by
  obtain ⟨hints, quiet, does⟩ := coordinator.placeWrites_does key vv owners owners 0 [] replies storage
  rw [Nat.zero_add, List.nil_append] at does
  refine ⟨hints, quiet, ?_⟩
  unfold writeQuorum
  rw [found]
  cases owners with
  | nil => exact absurd rfl nonempty
  | cons first rest =>
    rw [← List.append_nil (List.replicate _ _)]
    exact does.bind ⟨rfl, rfl, List.append_nil _⟩

theorem writeQuorum_returns {key : Bytes} {n : Int} {owners : List NodeInfo}
    (found : coordinator.router.findOwners key n = some owners) (vv : VersionedValue) (w : Int)
    (replies : Replies) (storage : Storage) :
    ((coordinator.writeQuorum key vv n w).exec replies storage).1 =
      some (if owners = [] then ⟨false, .empty, ascii "no_nodes_in_ring"⟩
        else verdict vv w (coordinator.localAcks owners) replies) := by
  by_cases nonempty : owners = []
  · rw [if_pos nonempty, writeQuorum, found, nonempty]
    rfl
  · obtain ⟨hints, -, does⟩ := writeQuorum_does found nonempty vv w replies storage
    rw [if_neg nonempty, does.returned]

/-- A message that takes this version of the key to a replica or to the hint store. -/
def Carries (key : Bytes) (vv : VersionedValue) : Outgoing → Prop
  | .request (.writeReplica _ target value) => target = key ∧ value = vv
  | .request (.readReplica _ _) => False
  | .storeHint _ target value => target = key ∧ value = vv

theorem placeWrites_only (coordinator : Coordinator) (key : Bytes) (vv : VersionedValue)
    (owners rest : List NodeInfo) (localAcks : Nat) (remotes : List NodeInfo) :
    (coordinator.placeWrites key vv owners rest localAcks remotes).Only
      (fun target bytes => target = key ∧ bytes = vv.serialize) (Carries key vv) (fun _ => True) := by
  induction rest generalizing localAcks remotes with
  | nil => trivial
  | cons owner rest ih =>
    rw [placeWrites]
    split
    · exact ⟨⟨rfl, rfl⟩, ih _ _⟩
    · split
      · split
        · refine ⟨fun message member => ?_, ih _ _⟩
          obtain rfl := List.mem_singleton.mp member
          exact ⟨rfl, rfl⟩
        · exact ih _ _
      · exact ih _ _

theorem verdict_clock {vv : VersionedValue} {w : Int} {localAcks : Nat} {replies : Replies}
    (ok : (verdict vv w localAcks replies).ok = true) : (verdict vv w localAcks replies).clock = vv.clock := by
  unfold verdict at ok ⊢
  simp only at ok ⊢
  split at ok
  · rename_i enough
    rw [if_pos enough]
  · cases ok

theorem verdict_enough {vv : VersionedValue} {w : Int} {localAcks : Nat} {replies : Replies}
    (ok : (verdict vv w localAcks replies).ok = true) : w ≤ (localAcks + acks replies : Nat) := by
  unfold verdict at ok
  simp only at ok
  split at ok
  · assumption
  · cases ok

/-- A write puts and sends nothing but its own version, and returns no other clock. -/
theorem writeQuorum_carries (coordinator : Coordinator) (key : Bytes) (vv : VersionedValue) (n w : Int) :
    (coordinator.writeQuorum key vv n w).Only
      (fun target bytes => target = key ∧ bytes = vv.serialize) (Carries key vv)
      (fun result => result.ok = true → result.clock = vv.clock) := by
  unfold writeQuorum
  split
  · trivial
  · exact fun impossible => by cases impossible
  · refine (coordinator.placeWrites_only key vv _ _ 0 []).bind (fun placed _ => ?_)
    refine ⟨fun message member => ?_, fun replies => verdict_clock⟩
    obtain ⟨peer, -, rfl⟩ := List.mem_map.mp member
    exact ⟨rfl, rfl⟩

theorem writeQuorum_only (coordinator : Coordinator) (key : Bytes) (vv : VersionedValue) (n w : Int) :
    (coordinator.writeQuorum key vv n w).Only
      (fun target bytes => target = key ∧ bytes = vv.serialize) (fun _ => True)
      (fun result => result.ok = true → result.clock = vv.clock) :=
  (coordinator.writeQuorum_carries key vv n w).mono (fun _ _ same => same) (fun _ _ => trivial) (fun _ same => same)

theorem placeWrites_owes {key : Bytes} {vv : VersionedValue} {owners rest : List NodeInfo}
    (owner : ∃ owner ∈ rest, owner.nodeId = coordinator.self.nodeId) (localAcks : Nat) (remotes : List NodeInfo) :
    (coordinator.placeWrites key vv owners rest localAcks remotes).Owes key vv.serialize := by
  induction rest generalizing localAcks remotes with
  | nil => simp at owner
  | cons first rest ih =>
    rw [placeWrites]
    split
    · exact ⟨rfl, rfl⟩
    · rename_i other
      have later : ∃ owner ∈ rest, owner.nodeId = coordinator.self.nodeId := by
        obtain ⟨owner, member, own⟩ := owner
        rcases List.mem_cons.mp member with rfl | member
        · exact absurd own other
        · exact ⟨owner, member, own⟩
      split
      · split
        · exact ih later _ _
        · exact ih later _ _
      · exact ih later _ _

/-- This node is the key's primary: the node every write of the key is forwarded to. -/
def Primary (coordinator : Coordinator) (key : Bytes) : Prop :=
  ∃ owner, coordinator.router.findOwners key 1 = some [owner] ∧ owner.nodeId = coordinator.self.nodeId

/-- At the primary a write does not return without having stored its version locally. -/
theorem writeQuorum_owes {key : Bytes} (primary : coordinator.Primary key) (vv : VersionedValue) (n w : Int) :
    (coordinator.writeQuorum key vv n w).Owes key vv.serialize := by
  obtain ⟨owner, first, own⟩ := primary
  unfold writeQuorum
  split
  · trivial
  · rename_i none
    simpa using Router.primary_mem_findOwners first none
  · rename_i owners _ found
    exact (placeWrites_owes ⟨owner, Router.primary_mem_findOwners first found, own⟩ 0 []).bind _

/-- This node's own entry among the owners. -/
def ownOwner (coordinator : Coordinator) (owners : List NodeInfo) : Option NodeInfo :=
  owners.find? (fun owner => decide (owner.nodeId = coordinator.self.nodeId))

theorem ownOwner_tail {first : NodeInfo} {rest : List NodeInfo}
    (distinct : ((first :: rest).map NodeInfo.nodeId).Nodup) (mine : first.nodeId = coordinator.self.nodeId) :
    coordinator.ownOwner rest = none := by
  rw [List.map_cons, List.nodup_cons] at distinct
  rw [ownOwner, List.find?_eq_none]
  intro other member
  simp only [decide_eq_true_eq]
  intro clash
  exact distinct.1 (List.mem_map.mpr ⟨other, member, clash.trans mine.symm⟩)

theorem ownOwner_cons_none {first : NodeInfo} {rest : List NodeInfo}
    (none : coordinator.ownOwner (first :: rest) = none) :
    first.nodeId ≠ coordinator.self.nodeId ∧ coordinator.ownOwner rest = Option.none := by
  have other : first.nodeId ≠ coordinator.self.nodeId := by
    intro own
    simp [ownOwner, own] at none
  exact ⟨other, by simpa [ownOwner, other] using none⟩

section Alive

variable {key : Bytes} {vv : VersionedValue} {owners rest : List NodeInfo}

theorem placeWrites_remote (alive : ∀ owner ∈ rest, coordinator.dead owner.nodeId = false)
    (none : coordinator.ownOwner rest = none) (acks : Nat) (remotes : List NodeInfo) :
    coordinator.placeWrites key vv owners rest acks remotes =
      .done (acks, remotes ++ coordinator.liveOwners rest) := by
  induction rest generalizing remotes with
  | nil => simp [placeWrites, liveOwners]
  | cons first rest ih =>
    obtain ⟨other, later⟩ := ownOwner_cons_none none
    have lives := alive first List.mem_cons_self
    rw [placeWrites, if_neg other, if_neg (by simp [lives]),
      ih (fun owner member => alive owner (List.mem_cons_of_mem first member)) later]
    simp [liveOwners, other, lives]

/-- With every owner alive, the loop over the owners writes the local copy at most once. -/
theorem placeWrites_own (alive : ∀ owner ∈ rest, coordinator.dead owner.nodeId = false)
    (distinct : (rest.map NodeInfo.nodeId).Nodup) {owner : NodeInfo} (own : coordinator.ownOwner rest = some owner)
    (acks : Nat) (remotes : List NodeInfo) :
    coordinator.placeWrites key vv owners rest acks remotes =
      .put key vv.serialize (.done (acks + 1, remotes ++ coordinator.liveOwners rest)) := by
  induction rest generalizing remotes with
  | nil => cases own
  | cons first rest ih =>
    have later : ∀ owner ∈ rest, coordinator.dead owner.nodeId = false :=
      fun owner member => alive owner (List.mem_cons_of_mem first member)
    rw [placeWrites]
    split
    · rename_i mine
      have live : coordinator.liveOwners (first :: rest) = coordinator.liveOwners rest := by
        simp [liveOwners, mine]
      rw [placeWrites_remote later (ownOwner_tail distinct mine), live]
      rfl
    · rename_i other
      have lives := alive first List.mem_cons_self
      rw [if_neg (by simp [lives]), ih later (List.nodup_cons.mp distinct).2 (by simpa [ownOwner, other] using own)]
      simp [liveOwners, other, lives]

/-- A write from its fan-out on. -/
def spread (coordinator : Coordinator) (key : Bytes) (vv : VersionedValue) (w : Int) (owners : List NodeInfo)
    (localAcks : Nat) : NodeProgram PutResult :=
  .send ((coordinator.liveOwners owners).map (.request <| .writeReplica · key vv))
    (.await (fun replies => .done (verdict vv w localAcks replies)))

/-- With every owner alive, a write is a fan-out, preceded by one local write when this node
is an owner. -/
theorem writeQuorum_eq {n : Int} (found : coordinator.router.findOwners key n = some owners)
    (nonempty : owners ≠ []) (alive : ∀ owner ∈ owners, coordinator.dead owner.nodeId = false) (w : Int) :
    coordinator.writeQuorum key vv n w =
      match coordinator.ownOwner owners with
      | none => coordinator.spread key vv w owners 0
      | some _ => .put key vv.serialize (coordinator.spread key vv w owners 1) := by
  obtain ⟨-, distinct, -⟩ := Router.findOwners_spec found
  unfold writeQuorum
  rw [found]
  cases owners with
  | nil => exact absurd rfl nonempty
  | cons first rest =>
    cases own : coordinator.ownOwner (first :: rest) with
    | none =>
      simp only [placeWrites_remote alive own, Process.done_bind]
      rfl
    | some owner =>
      simp only [placeWrites_own alive distinct own, Process.put_bind, Process.done_bind]
      rfl

end Alive

end Coordinator

/-- One `coordinatePut` or, without a value, `coordinateDelete`. -/
structure Write where
  value : Option Bytes
  context : VectorClock
  n : Int
  w : Int
  now : UInt64

namespace Write

def program (write : Write) (coordinator : Coordinator) (key : Bytes) : NodeProgram PutResult :=
  match write.value with
  | some value => coordinator.coordinatePut key value write.context write.n write.w write.now
  | none => coordinator.coordinateDelete key write.context write.n write.w write.now

/-- The version a write makes of the local copy it read. -/
def version (write : Write) (coordinator : Coordinator) (stored : Option Bytes) : VersionedValue :=
  ⟨write.value.getD [], coordinator.bump write.context (Coordinator.clockOf stored) write.now, write.value.isNone⟩

theorem program_eq (write : Write) (coordinator : Coordinator) (key : Bytes) :
    write.program coordinator key = .get key (fun stored =>
      coordinator.writeQuorum key (write.version coordinator stored) write.n write.w) := by
  obtain ⟨value, context, n, w, now⟩ := write
  cases value <;> rfl

theorem version_wireSafe {write : Write} {coordinator : Coordinator} {stored : Option Bytes}
    (valid : isValidNodeId coordinator.self.nodeId = true) (safe : write.context.WireSafe) :
    (write.version coordinator stored).clock.WireSafe := by
  rw [version]
  exact Coordinator.bump_wireSafe valid safe

end Write

end MiniDynamo
