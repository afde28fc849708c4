import MiniDynamo.Library.Quorum
import MiniDynamo.Coordinator.WritePath

/-! How many different nodes stand behind the acknowledgements of a write. -/

namespace MiniDynamo.Coordinator

variable {coordinator : Coordinator} {owners : List NodeInfo}

/-- Some of the requests of a fan-out were answered, each at most once, in any order. -/
def Answers (requests : Nat) (replies : Replies) : Prop :=
  (replies.map Prod.fst).Nodup ∧ ∀ reply ∈ replies, reply.1 < requests

instance (requests : Nat) (replies : Replies) : Decidable (Answers requests replies) :=
  inferInstanceAs (Decidable (_ ∧ _))

/-- The positions in the fan-out that were acknowledged. -/
def acked (replies : Replies) : List Nat :=
  (replies.filter (fun reply => decide (reply.2 = .write ⟨true⟩))).map Prod.fst

/-- The nodes that a run alone asks to take a version, in the order of its requests. -/
def asked (program : NodeProgram PutResult) (replies : Replies) (storage : Storage) : List Bytes :=
  (program.sent replies storage).filterMap taker

/-- The nodes that accepted the version in a run: this one for each time it stored it, and those whose requests
were acknowledged. -/
def acceptedBy (coordinator : Coordinator) (program : NodeProgram PutResult) (replies : Replies) (storage : Storage) :
    List Bytes :=
  (program.wrote replies storage).map (fun _ => coordinator.self.nodeId) ++
    (acked replies).filterMap (fun position => (asked program replies storage)[position]?)

/-- The remote nodes that acknowledged, once for each acknowledgement. -/
def remoteAcceptors (coordinator : Coordinator) (owners : List NodeInfo) (replies : Replies) : List Bytes :=
  (acked replies).filterMap (fun position =>
    (coordinator.writeTargets owners owners)[position]?.map NodeInfo.nodeId)

/-- The nodes behind the acknowledgements: this one, if it owns the key, and the remote ones. -/
def acceptors (coordinator : Coordinator) (owners : List NodeInfo) (replies : Replies) : List Bytes :=
  (owners.map NodeInfo.nodeId).filter (fun id => decide (id = coordinator.self.nodeId)) ++
    coordinator.remoteAcceptors owners replies

/-- The remote owners reported dead. -/
def deadOwners (coordinator : Coordinator) (owners : List NodeInfo) : List NodeInfo :=
  owners.filter (fun owner => decide (owner.nodeId ≠ coordinator.self.nodeId) && coordinator.dead owner.nodeId)

/-- The first live node that owns nothing of the key. -/
def substitute (coordinator : Coordinator) (owners : List NodeInfo) : Option NodeInfo :=
  coordinator.router.getAllPhysicalNodes.find? (fun candidate =>
    decide (candidate.nodeId ≠ coordinator.self.nodeId) &&
      !owners.any (fun other => decide (other.nodeId = candidate.nodeId)) && !coordinator.dead candidate.nodeId)

/-- The scan does not depend on the owner it is made for: every dead owner gets the same stand-in. -/
theorem standIn_eq_substitute {owner : NodeInfo} (member : owner ∈ owners) :
    coordinator.standIn owners owner = coordinator.substitute owners := by
  rw [standIn, substitute]
  congr 1
  funext candidate
  by_cases same : candidate.nodeId = owner.nodeId
  · have owned : owners.any (fun other => decide (other.nodeId = candidate.nodeId)) = true :=
      List.any_eq_true.mpr ⟨owner, member, by simp [same]⟩
    simp [owned]
  · simp [same]

/-- The targets of a write: the live remote owners, and the one stand-in for each dead owner. -/
theorem writeTargets_perm (coordinator : Coordinator) (owners rest : List NodeInfo) (part : rest ⊆ owners) :
    (coordinator.writeTargets owners rest).Perm (coordinator.liveOwners rest ++
      (coordinator.deadOwners rest).flatMap (fun _ => (coordinator.substitute owners).toList)) := by
  induction rest with
  | nil => simp [writeTargets, liveOwners, deadOwners]
  | cons owner rest ih =>
    have smaller := ih (fun node member => part (List.mem_cons_of_mem owner member))
    by_cases own : owner.nodeId = coordinator.self.nodeId
    · simpa [writeTargets, liveOwners, deadOwners, own] using smaller
    · by_cases gone : coordinator.dead owner.nodeId = true
      · have standIn : coordinator.standIn owners owner = coordinator.substitute owners :=
          standIn_eq_substitute (part List.mem_cons_self)
        have targets : coordinator.writeTargets owners (owner :: rest) =
            (coordinator.substitute owners).toList ++ coordinator.writeTargets owners rest := by
          simp [writeTargets, own, gone, standIn]
        have live : coordinator.liveOwners (owner :: rest) = coordinator.liveOwners rest := by
          simp [liveOwners, gone]
        have dead : coordinator.deadOwners (owner :: rest) = owner :: coordinator.deadOwners rest := by
          simp [deadOwners, own, gone]
        rw [targets, live, dead, List.flatMap_cons]
        exact (smaller.append_left _).trans (List.perm_append_comm_assoc _ _ _)
      · have targets : coordinator.writeTargets owners (owner :: rest) =
            owner :: coordinator.writeTargets owners rest := by
          simp [writeTargets, own, gone]
        have live : coordinator.liveOwners (owner :: rest) = owner :: coordinator.liveOwners rest := by
          simp [liveOwners, own, gone]
        have dead : coordinator.deadOwners (owner :: rest) = coordinator.deadOwners rest := by
          simp [deadOwners, gone]
        rw [targets, live, dead]
        exact smaller.cons owner

/-- The stand-in is neither this node nor an owner. -/
theorem substitute_outside {node : NodeInfo} (found : coordinator.substitute owners = some node) :
    node.nodeId ≠ coordinator.self.nodeId ∧ node.nodeId ∉ owners.map NodeInfo.nodeId := by
  have passed := List.find?_some found
  simp only [Bool.and_eq_true, decide_eq_true_eq, Bool.not_eq_true', List.any_eq_false] at passed
  refine ⟨passed.1.1, fun member => ?_⟩
  obtain ⟨owner, present, same⟩ := List.mem_map.mp member
  exact passed.1.2 owner present same

theorem targets_perm_of_none (alone : coordinator.substitute owners = none) :
    (coordinator.writeTargets owners owners).Perm (coordinator.liveOwners owners) := by
  have shape := coordinator.writeTargets_perm owners owners (List.Subset.refl owners)
  have copies : (coordinator.deadOwners owners).flatMap (fun _ => (coordinator.substitute owners).toList) = [] :=
    List.flatMap_eq_nil_iff.mpr (by simp [alone])
  rwa [copies, List.append_nil] at shape

theorem targets_perm_of_some {node : NodeInfo} (found : coordinator.substitute owners = some node) :
    (coordinator.writeTargets owners owners).Perm
      (coordinator.liveOwners owners ++ List.replicate (coordinator.deadOwners owners).length node) := by
  have shape := coordinator.writeTargets_perm owners owners (List.Subset.refl owners)
  have copies : (coordinator.deadOwners owners).flatMap (fun _ => (coordinator.substitute owners).toList) =
      List.replicate (coordinator.deadOwners owners).length node := by
    induction coordinator.deadOwners owners with
    | nil => rfl
    | cons owner rest ih => rw [List.flatMap_cons, ih, found]; rfl
  rwa [copies] at shape

theorem nodup_filter_replicate {ids : List Bytes} (distinct : ids.Nodup) (count : Nat) (id : Bytes) :
    ((ids ++ List.replicate count id).filter (fun other => decide (other ≠ id))).Nodup := by
  have none : (List.replicate count id).filter (fun other => decide (other ≠ id)) = [] := by simp
  rw [List.filter_append, none, List.append_nil]
  exact distinct.filter _

/-- Among the target ids at most one is repeated, and only when it stands in twice. -/
theorem targets_repeat (coordinator : Coordinator) (distinct : (owners.map NodeInfo.nodeId).Nodup) : ∃ repeated,
    (((coordinator.writeTargets owners owners).map NodeInfo.nodeId).filter (fun id => decide (id ≠ repeated))).Nodup ∧
      (coordinator.substitute owners = none ∨ (coordinator.deadOwners owners).length < 2 →
        ((coordinator.writeTargets owners owners).map NodeInfo.nodeId).count repeated ≤ 1) := by
  cases stood : coordinator.substitute owners with
  | none =>
    have ids := ((targets_perm_of_none stood).map NodeInfo.nodeId).nodup_iff.mpr (liveOwners_nodup distinct)
    exact ⟨[], ids.filter _, fun _ => List.nodup_iff_count_le_one.mp ids []⟩
  | some node =>
    have ids := (targets_perm_of_some stood).map NodeInfo.nodeId
    rw [List.map_append, List.map_replicate] at ids
    have outside : node.nodeId ∉ (coordinator.liveOwners owners).map NodeInfo.nodeId :=
      fun member => (substitute_outside stood).2 (liveOwners_subset _ member).1
    refine ⟨node.nodeId, ?_, fun few => ?_⟩
    · exact (ids.filter _).nodup_iff.mpr (nodup_filter_replicate (liveOwners_nodup distinct) _ _)
    · rw [ids.count_eq, List.count_append, List.count_eq_zero_of_not_mem outside, List.count_replicate_self]
      rcases few with impossible | few
      · cases impossible
      · omega

theorem length_acked (replies : Replies) : (acked replies).length = acks replies := by
  rw [acked, List.length_map, acks, List.countP_eq_length_filter]

theorem acked_nodup {replies : Replies} (distinct : (replies.map Prod.fst).Nodup) : (acked replies).Nodup :=
  distinct.sublist (List.filter_sublist.map _)

theorem mem_acked {replies : Replies} {position : Nat} :
    position ∈ acked replies ↔ (position, Reply.write ⟨true⟩) ∈ replies := by
  simp [acked]

theorem remoteAcceptors_eq (coordinator : Coordinator) (owners : List NodeInfo) (replies : Replies) :
    coordinator.remoteAcceptors owners replies =
      ((acked replies).filterMap ((coordinator.writeTargets owners owners)[·]?)).map NodeInfo.nodeId := by
  rw [remoteAcceptors, List.map_filterMap]

theorem remoteAcceptors_subperm {replies : Replies}
    (answers : Answers (coordinator.writeTargets owners owners).length replies) :
    (coordinator.remoteAcceptors owners replies).Subperm
      ((coordinator.writeTargets owners owners).map NodeInfo.nodeId) := by
  obtain ⟨ordered, same, part⟩ := Quorum.picks_subperm (acked_nodup answers.1) (coordinator.writeTargets owners owners)
  rw [remoteAcceptors_eq]
  exact ⟨ordered.map NodeInfo.nodeId, same.map _, part.map _⟩

theorem length_remoteAcceptors {replies : Replies}
    (answers : Answers (coordinator.writeTargets owners owners).length replies) :
    (coordinator.remoteAcceptors owners replies).length = acks replies := by
  have every : ∀ position ∈ acked replies, ((coordinator.writeTargets owners owners)[position]?).isSome := by
    intro position member
    simpa using answers.2 _ (mem_acked.mp member)
  rw [remoteAcceptors_eq, List.length_map, List.filterMap_length_eq_length.mpr every, length_acked]

/-- This node is one acceptor more, never one of the remote ones. -/
theorem card_acceptors (distinct : (owners.map NodeInfo.nodeId).Nodup) {replies : Replies}
    (answers : Answers (coordinator.writeTargets owners owners).length replies) :
    (coordinator.acceptors owners replies).toFinset.card =
      coordinator.localAcks owners + (coordinator.remoteAcceptors owners replies).toFinset.card := by
  have remote : coordinator.self.nodeId ∉ coordinator.remoteAcceptors owners replies := by
    intro member
    have target := (remoteAcceptors_subperm answers).subset member
    cases stood : coordinator.substitute owners with
    | none =>
      rw [((targets_perm_of_none stood).map NodeInfo.nodeId).mem_iff] at target
      exact (liveOwners_subset _ target).2 rfl
    | some node =>
      rw [((targets_perm_of_some stood).map NodeInfo.nodeId).mem_iff, List.map_append, List.map_replicate,
        List.mem_append] at target
      rcases target with live | copy
      · exact (liveOwners_subset _ live).2 rfl
      · exact (substitute_outside stood).1 (List.eq_of_mem_replicate copy).symm
  have own : ((owners.map NodeInfo.nodeId).filter
      (fun id => decide (id = coordinator.self.nodeId))).toFinset.card = coordinator.localAcks owners := by
    rw [List.toFinset_card_of_nodup (distinct.filter _), ← List.countP_eq_length_filter, List.countP_map]
    rfl
  rw [acceptors, List.toFinset_append, Finset.card_union_of_disjoint, own]
  rw [Finset.disjoint_left]
  intro id mine other
  have same : id = coordinator.self.nodeId := by
    simpa using (List.mem_filter.mp (List.mem_toFinset.mp mine)).2
  exact remote (same ▸ List.mem_toFinset.mp other)

/-- Nothing is counted twice: no stand-in, or too few dead owners for it to stand in twice, or
a `w` that one remote acknowledgement meets, or one that all of them together do not. -/
def CountsOnce (coordinator : Coordinator) (owners : List NodeInfo) (w : Int) : Prop :=
  coordinator.substitute owners = none ∨ (coordinator.deadOwners owners).length < 2 ∨
    w < coordinator.localAcks owners + 2 ∨
    coordinator.localAcks owners + (coordinator.liveOwners owners).length + (coordinator.deadOwners owners).length < w

theorem length_targets_le (coordinator : Coordinator) (owners : List NodeInfo) :
    (coordinator.writeTargets owners owners).length ≤
      (coordinator.liveOwners owners).length + (coordinator.deadOwners owners).length := by
  cases stood : coordinator.substitute owners with
  | none => simp [(targets_perm_of_none stood).length_eq]
  | some node => simp [(targets_perm_of_some stood).length_eq]

theorem distinct_of_countsOnce {w : Int} (distinct : (owners.map NodeInfo.nodeId).Nodup)
    (once : coordinator.CountsOnce owners w) {replies : Replies}
    (answers : Answers (coordinator.writeTargets owners owners).length replies)
    (enough : w ≤ coordinator.localAcks owners + acks replies) :
    w ≤ (coordinator.acceptors owners replies).toFinset.card := by
  obtain ⟨repeated, others, few⟩ := coordinator.targets_repeat distinct
  have part := remoteAcceptors_subperm answers
  have counted : (coordinator.remoteAcceptors owners replies).toFinset.card +
      ((coordinator.remoteAcceptors owners replies).count repeated - 1) = acks replies := by
    rw [← length_remoteAcceptors answers]
    obtain ⟨ordered, same, inside⟩ := part.filter (fun id => decide (id ≠ repeated))
    exact Quorum.card_add_repeats (same.nodup_iff.mp (others.sublist inside))
  have limit := part.length_le
  have most := coordinator.length_targets_le owners
  have repeats := part.count_le repeated
  rw [length_remoteAcceptors answers, List.length_map] at limit
  rw [card_acceptors distinct answers]
  rcases once with alone | single | small | large
  · have once := few (.inl alone)
    omega
  · have once := few (.inr single)
    omega
  · -- one remote acceptor is enough, and any acknowledgement at all comes from one
    have some : acks replies = 0 ∨ 0 < (coordinator.remoteAcceptors owners replies).toFinset.card := by
      rw [Finset.card_pos, List.toFinset_nonempty_iff, ← length_remoteAcceptors answers, List.length_eq_zero_iff]
      exact Decidable.em _
    omega
  · omega

/-- Acknowledgements by chosen targets. -/
def allAck (positions : List Nat) : Replies := positions.map (fun position => (position, .write ⟨true⟩))

theorem acked_allAck (positions : List Nat) : acked (allAck positions) = positions := by
  simp [acked, allAck, List.filter_map, Function.comp_def]

theorem acks_allAck (positions : List Nat) : acks (allAck positions) = positions.length := by
  simp [acks, allAck, List.countP_map, Function.comp_def]

/-- Any part of the targets can be the part that acknowledges. -/
theorem exists_replies {targets : List NodeInfo}
    (part : targets.Subperm (coordinator.writeTargets owners owners)) : ∃ replies,
    Answers (coordinator.writeTargets owners owners).length replies ∧ acks replies = targets.length ∧
      (coordinator.remoteAcceptors owners replies).Perm (targets.map NodeInfo.nodeId) := by
  obtain ⟨ordered, same, inside⟩ := part
  obtain ⟨positions, rfl, increasing⟩ := List.sublist_eq_map_getElem inside
  refine ⟨allAck (positions.map Fin.val), ⟨?_, ?_⟩, ?_, ?_⟩
  · have distinct : (positions.map Fin.val).Nodup := by
      rw [List.nodup_map_iff Fin.val_injective]
      exact increasing.imp (fun less => ne_of_lt less)
    simpa [allAck, Function.comp_def] using distinct
  · simp [allAck]
  · rw [acks_allAck, List.length_map, ← same.length_eq, List.length_map]
  · rw [remoteAcceptors_eq, acked_allAck]
    refine List.Perm.map _ (List.Perm.trans (.of_eq ?_) same)
    rw [List.filterMap_map]
    simp

/-- A group of live owners and all copies of the stand-in are that many nodes and one more. -/
theorem card_live_and_standIn (distinct : (owners.map NodeInfo.nodeId).Nodup) {node : NodeInfo}
    (stood : coordinator.substitute owners = some node) (several : 1 ≤ (coordinator.deadOwners owners).length)
    {live : Nat} (some : live ≤ (coordinator.liveOwners owners).length) :
    (((coordinator.liveOwners owners).take live ++
      List.replicate (coordinator.deadOwners owners).length node).map NodeInfo.nodeId).toFinset.card = live + 1 := by
  have liveIds : (((coordinator.liveOwners owners).take live).map NodeInfo.nodeId).Nodup :=
    (liveOwners_nodup distinct).sublist ((List.take_sublist _ _).map _)
  have outside : node.nodeId ∉ ((coordinator.liveOwners owners).take live).map NodeInfo.nodeId := by
    intro member
    have owner := (liveOwners_subset _ (((List.take_sublist _ _).map _).subset member)).1
    exact (substitute_outside stood).2 owner
  rw [List.map_append, List.map_replicate]
  have counted := @Quorum.card_add_repeats _ _ _ _
    (((coordinator.liveOwners owners).take live).map NodeInfo.nodeId ++
      List.replicate (coordinator.deadOwners owners).length node.nodeId) node.nodeId
    (nodup_filter_replicate liveIds _ _)
  rw [List.count_append, List.count_eq_zero_of_not_mem outside, List.count_replicate_self, List.length_append,
    List.length_map, List.length_take, List.length_replicate] at counted
  omega

/-- The failing case: enough live targets and every copy of the stand-in acknowledge. -/
theorem counted_twice {w : Int} (distinct : (owners.map NodeInfo.nodeId).Nodup)
    (twice : ¬ coordinator.CountsOnce owners w) : ∃ replies,
    Answers (coordinator.writeTargets owners owners).length replies ∧
      w ≤ coordinator.localAcks owners + acks replies ∧
      (coordinator.acceptors owners replies).toFinset.card < w := by
  simp only [CountsOnce, not_or, Int.not_lt, Nat.not_lt] at twice
  obtain ⟨stands, several, above, within⟩ := twice
  obtain ⟨node, stood⟩ := Option.ne_none_iff_exists'.mp stands
  -- as many live owners as keep the distinct count below `w`
  obtain ⟨live, some, low, high⟩ : ∃ live : Nat, live ≤ (coordinator.liveOwners owners).length ∧
      coordinator.localAcks owners + live + 2 ≤ w ∧
      w ≤ coordinator.localAcks owners + live + (coordinator.deadOwners owners).length :=
    ⟨min (coordinator.liveOwners owners).length (w - coordinator.localAcks owners - 2).toNat,
      by omega, by omega, by omega⟩
  have part : ((coordinator.liveOwners owners).take live ++
      List.replicate (coordinator.deadOwners owners).length node).Subperm (coordinator.writeTargets owners owners) :=
    ((List.take_sublist _ _).append_right _).subperm.trans (targets_perm_of_some stood).symm.subperm
  obtain ⟨replies, answers, counted, same⟩ := exists_replies part
  have card := card_live_and_standIn distinct stood (by omega) some
  refine ⟨replies, answers, ?_, ?_⟩
  · rw [counted, List.length_append, List.length_take, List.length_replicate]
    omega
  · rw [card_acceptors distinct answers, List.toFinset_eq_of_perm _ _ same, card]
    omega

section Sent

variable {key : Bytes} {n : Int} (found : coordinator.router.findOwners key n = some owners) (vv : VersionedValue)
  (w : Int) (replies : Replies) (storage : Storage)

include found

theorem asked_writeQuorum : asked (coordinator.writeQuorum key vv n w) replies storage =
    (coordinator.writeTargets owners owners).map NodeInfo.nodeId := by
  by_cases nonempty : owners = []
  · rw [asked, writeQuorum, found, nonempty]
    rfl
  · obtain ⟨hints, quiet, does⟩ := writeQuorum_does found nonempty vv w replies storage
    rw [asked, does.sent, List.filterMap_append, quiet, List.nil_append, List.filterMap_map]
    exact congrFun List.filterMap_eq_map _

theorem wrote_writeQuorum : (coordinator.writeQuorum key vv n w).wrote replies storage =
    List.replicate (coordinator.localAcks owners) (key, vv.serialize) := by
  by_cases nonempty : owners = []
  · rw [writeQuorum, found, nonempty]
    rfl
  · obtain ⟨hints, -, does⟩ := writeQuorum_does found nonempty vv w replies storage
    exact does.wrote

/-- The acceptors of a run are those of the ring. -/
theorem acceptedBy_writeQuorum : coordinator.acceptedBy (coordinator.writeQuorum key vv n w) replies storage =
    coordinator.acceptors owners replies := by
  have own : (owners.map NodeInfo.nodeId).filter (fun id => decide (id = coordinator.self.nodeId)) =
      List.replicate (coordinator.localAcks owners) coordinator.self.nodeId := by
    refine List.eq_replicate_iff.mpr ⟨?_, fun id member => of_decide_eq_true (List.mem_filter.mp member).2⟩
    rw [← List.countP_eq_length_filter, List.countP_map]
    rfl
  rw [acceptedBy, acceptors, remoteAcceptors, wrote_writeQuorum found, asked_writeQuorum found, List.map_replicate, own]
  simp only [List.getElem?_map]

end Sent

/-- A write that returns ok has at least `w` different nodes behind it, whichever replicas
answer and in whatever order, exactly when no stand-in can be counted twice. -/
theorem write_acks_are_distinct_iff (coordinator : Coordinator) (key : Bytes) (vv : VersionedValue) (n w : Int)
    (owners : List NodeInfo) (found : coordinator.router.findOwners key n = some owners) :
    (∀ (replies : Replies) (storage : Storage) (result : PutResult),
      Answers (asked (coordinator.writeQuorum key vv n w) replies storage).length replies →
      ((coordinator.writeQuorum key vv n w).exec replies storage).1 = some result → result.ok = true →
      w ≤ (coordinator.acceptedBy (coordinator.writeQuorum key vv n w) replies storage).toFinset.card) ↔
    coordinator.CountsOnce owners w := by
  obtain ⟨-, distinct, -⟩ := Router.findOwners_spec found
  simp only [asked_writeQuorum found, acceptedBy_writeQuorum found, List.length_map]
  constructor
  · intro always
    by_contra twice
    obtain ⟨replies, answers, enough, few⟩ := counted_twice distinct twice
    have nonempty : owners ≠ [] := by
      rintro rfl
      simp [CountsOnce, deadOwners] at twice
    have returned := writeQuorum_returns found vv w replies ∅
    rw [if_neg nonempty] at returned
    have bound := always replies ∅ _ answers returned (by simp [verdict, enough])
    omega
  · intro once replies storage result answers returned ok
    rw [writeQuorum_returns found] at returned
    cases returned
    split at ok
    · cases ok
    · refine distinct_of_countsOnce distinct once answers ?_
      by_contra short
      simp [verdict, short] at ok

/-- Node `d` of a ring of four, of which some are reported dead. -/
def nodeOfFour (dead : List Bytes) : Coordinator where
  self := ⟨ascii "d", ascii "h", 4⟩
  router := ([⟨ascii "a", ascii "h", 1⟩, ⟨ascii "b", ascii "h", 2⟩, ⟨ascii "c", ascii "h", 3⟩,
    ⟨ascii "d", ascii "h", 4⟩] : List NodeInfo).foldl Router.addPhysicalNode (Router.empty 1)
  isAliveFn := some (fun id => !dead.contains id)
  hintStore := true
  maxClockEntries := 20

/-- The owners of the key `k` on that ring. -/
def ownersOfFour : List NodeInfo :=
  [⟨ascii "d", ascii "h", 4⟩, ⟨ascii "b", ascii "h", 2⟩, ⟨ascii "c", ascii "h", 3⟩]

theorem write_acks_are_distinct_one_dead :
    3 ≤ ((nodeOfFour [ascii "b"]).acceptedBy
      ((nodeOfFour [ascii "b"]).writeQuorum (ascii "k") ⟨ascii "v", .empty, false⟩ 3 3)
      [(1, .write ⟨true⟩), (0, .write ⟨true⟩)] ∅).toFinset.card :=
  Int.ofNat_le.mp <| (write_acks_are_distinct_iff (nodeOfFour [ascii "b"]) (ascii "k") ⟨ascii "v", .empty, false⟩ 3 3
    ownersOfFour (by decide +kernel)).mpr (.inr (.inl (by decide +kernel)))
    [(1, .write ⟨true⟩), (0, .write ⟨true⟩)] ∅ ⟨true, .empty, []⟩ (by decide +kernel) (by decide +kernel) rfl

/-- Both remote owners are dead and the one spare node acknowledges for each of them: three
acknowledgements from two nodes. -/
theorem write_acks_count_standIn_twice :
    ¬ ∀ (coordinator : Coordinator) (key : Bytes) (vv : VersionedValue) (n w : Int) (owners : List NodeInfo)
        (replies : Replies) (storage : Storage) (result : PutResult),
      coordinator.router.findOwners key n = some owners → 1 ≤ w →
      Answers (asked (coordinator.writeQuorum key vv n w) replies storage).length replies →
      ((coordinator.writeQuorum key vv n w).exec replies storage).1 = some result → result.ok = true →
      w ≤ (coordinator.acceptedBy (coordinator.writeQuorum key vv n w) replies storage).toFinset.card := by
  intro distinct
  have three := distinct (nodeOfFour [ascii "b", ascii "c"]) (ascii "k") ⟨ascii "v", .empty, false⟩ 3 3 ownersOfFour
    [(0, .write ⟨true⟩), (1, .write ⟨true⟩)] ∅ ⟨true, .empty, []⟩ (by decide +kernel) (by decide)
    (by decide +kernel) (by decide +kernel) rfl
  revert three
  decide +kernel

end MiniDynamo.Coordinator
