import MiniDynamo.Gossip.Farewell
import MiniDynamo.Gossip.Regard
import MiniDynamo.Gossip.Sync

/-! What two nodes hold of each other after two syncs, whoever begins them. -/

namespace MiniDynamo

namespace GossipNode

variable {holder subject initiator responder one other : GossipNode}

/-- The holder has the subject in the subject's own class and, if that is alive, at its own
incarnation. -/
def HoldsAsIs (holder subject : GossipNode) : Prop :=
  ∃ entry, holder.swim.members[subject.swim.self.nodeId]? = some entry ∧
    entry.state.stateClass = subject.swim.selfClass ∧
    (subject.swim.selfClass = .alive → entry.incarnation = subject.swim.incarnation)

/-- The subject has not left, and the holder has it up at an incarnation that it has not
reached, or dead at the last incarnation there is. -/
def Misjudges (holder subject : GossipNode) : Prop :=
  subject.swim.hasLeft = false ∧ ∃ entry, holder.swim.members[subject.swim.self.nodeId]? = some entry ∧
    (entry.state.stateClass = .alive ∧ subject.swim.incarnation < entry.incarnation ∨
      entry.state.stateClass = .dead ∧ entry.incarnation = lastIncarnation)

/-- What the holder has of the subject beside what the subject says of itself. -/
def regard (holder subject : GossipNode) : Regard :=
  ⟨holder.swim.standing subject.swim.self.nodeId, subject.swim.own⟩

theorem regard_proper (holder subject : GossipNode) : (holder.regard subject).own.1 ≠ .dead := by
  cases left : subject.swim.selfLeft <;> simp [regard, Swim.own, Swim.selfClass, left]

theorem regard_matched_iff (apart : subject.swim.self.nodeId ≠ holder.swim.self.nodeId) :
    (holder.regard subject).Matched ↔ holder.HoldsAsIs subject := by
  rw [Regard.Matched, regard, Swim.standing_peer apart]
  constructor
  · rintro ⟨mine, theirs, found, own, classes, incarnations⟩
    obtain ⟨entry, held, rfl⟩ := Option.map_eq_some_iff.mp found
    obtain rfl := Option.some.inj own
    exact ⟨entry, held, classes, fun alive => incarnations (classes.trans alive)⟩
  · rintro ⟨entry, held, classes, incarnations⟩
    refine ⟨_, _, by rw [held]; rfl, rfl, classes, fun alive => incarnations (classes.symm.trans alive)⟩

theorem regard_stuck_iff (apart : subject.swim.self.nodeId ≠ holder.swim.self.nodeId) :
    (holder.regard subject).Stuck ↔ holder.Misjudges subject := by
  have up : (holder.regard subject).own.1 = .alive ↔ subject.swim.hasLeft = false := by
    cases left : subject.swim.selfLeft <;> simp [regard, Swim.own, Swim.selfClass, Swim.hasLeft, left]
  rw [Regard.Stuck, Misjudges, up, regard, Swim.standing_peer apart]
  refine and_congr_right (fun _ => ⟨?_, ?_⟩)
  · rintro ⟨held, found, wrong⟩
    obtain ⟨entry, known, rfl⟩ := Option.map_eq_some_iff.mp found
    exact ⟨entry, known, wrong⟩
  · rintro ⟨entry, known, wrong⟩
    exact ⟨_, by rw [known]; rfl, wrong⟩

/-- A full state says of the receiver what its sender holds of it. -/
theorem own_fullState (node sender : GossipNode) (times : List Int) :
    (node.applyEvents sender.swim.fullState times).swim.own =
      Standing.heed node.swim.own (sender.swim.standing node.swim.self.nodeId) := by
  have heard := standing_fullState node sender times node.swim.self.nodeId
  rw [if_pos rfl, Swim.standing, self_applyEvents, if_pos rfl] at heard
  exact Option.some.inj heard

theorem regard_exchange (apart : initiator.swim.self.nodeId ≠ responder.swim.self.nodeId) (asked answered : List Int) :
    (initiator.exchange responder asked answered).1.regard (initiator.exchange responder asked answered).2 =
      (initiator.regard responder).round true ∧
    (initiator.exchange responder asked answered).2.regard (initiator.exchange responder asked answered).1 =
      (responder.regard initiator).round false := by
  have told := standing_fullState responder initiator asked initiator.swim.self.nodeId
  rw [if_neg apart, Swim.standing_self] at told
  have heeded := own_fullState responder initiator asked
  have spoke := Swim.standing_self (responder.applyEvents initiator.swim.fullState asked).swim
  rw [self_applyEvents, heeded] at spoke
  constructor
  · rw [regard, regard, exchange, self_applyEvents, standing_fullState, if_neg apart.symm, spoke, heeded]
    rfl
  · rw [regard, regard, exchange, self_applyEvents, told, own_fullState, told]
    rfl

end GossipNode

/-- One sync between two nodes: which of them begins, and what their clocks say. -/
structure SyncRound where
  byFirst : Bool
  asked : List Int := []
  answered : List Int := []

namespace SyncRound

variable {pair : GossipNode × GossipNode}

def run (round : SyncRound) (pair : GossipNode × GossipNode) : GossipNode × GossipNode :=
  if round.byFirst then pair.1.exchange pair.2 round.asked round.answered
  else (pair.2.exchange pair.1 round.asked round.answered).swap

theorem run_self (round : SyncRound) (pair : GossipNode × GossipNode) :
    (round.run pair).1.swim.self = pair.1.swim.self ∧ (round.run pair).2.swim.self = pair.2.swim.self := by
  unfold run
  split
  · exact GossipNode.self_exchange _ _ _ _
  · exact (GossipNode.self_exchange _ _ _ _).symm

theorem run_regard (round : SyncRound) (apart : pair.1.swim.self.nodeId ≠ pair.2.swim.self.nodeId) :
    (round.run pair).1.regard (round.run pair).2 = (pair.1.regard pair.2).round round.byFirst ∧
      (round.run pair).2.regard (round.run pair).1 = (pair.2.regard pair.1).round !round.byFirst := by
  unfold run
  cases round.byFirst with
  | true => exact GossipNode.regard_exchange apart _ _
  | false => exact (GossipNode.regard_exchange apart.symm _ _).symm

/-- After a sync the two count the same of every third node. -/
theorem run_counts (round : SyncRound) {id : Bytes} (here : id ≠ pair.1.swim.self.nodeId)
    (there : id ≠ pair.2.swim.self.nodeId) :
    ((round.run pair).1.swim.standing id).map Standing.count =
      ((round.run pair).2.swim.standing id).map Standing.count := by
  unfold run
  cases round.byFirst with
  | true => exact GossipNode.counts_exchange _ _ here there
  | false => exact (GossipNode.counts_exchange _ _ there here).symm

end SyncRound

/-- Each of the two holds the other as it is, their digests are equal, and an ack of either
calls for no sync at the other. -/
structure Reconciled (pair : GossipNode × GossipNode) : Prop where
  first : pair.1.HoldsAsIs pair.2
  second : pair.2.HoldsAsIs pair.1
  digests : pair.1.swim.digest = pair.2.swim.digest
  quietFirst : ∀ (session : Session) (peer : NodeInfo), session.node = pair.1 →
    (session.maybeSync peer (decimal pair.2.swim.digest.toNat)).sent = session.sent
  quietSecond : ∀ (session : Session) (peer : NodeInfo), session.node = pair.2 →
    (session.maybeSync peer (decimal pair.1.swim.digest.toNat)).sent = session.sent

theorem GossipNode.HoldsAsIs.apart {holder subject : GossipNode} (holds : holder.HoldsAsIs subject) :
    subject.swim.self.nodeId ≠ holder.swim.self.nodeId := by
  obtain ⟨entry, found, -⟩ := holds
  intro same
  rw [same, holder.swim.others] at found
  cases found

namespace Reconciled

variable {pair : GossipNode × GossipNode}

theorem of_digests (first : pair.1.HoldsAsIs pair.2) (second : pair.2.HoldsAsIs pair.1)
    (digests : pair.1.swim.digest = pair.2.swim.digest) : Reconciled pair where
  first := first
  second := second
  digests := digests
  quietFirst := fun session peer here => session.maybeSync_same peer (by rw [here, digests])
  quietSecond := fun session peer here => session.maybeSync_same peer (by rw [here, digests])

/-- After a sync nothing but what the two hold of each other can keep their digests apart. -/
theorem of_holds (round : SyncRound) (first : (round.run pair).1.HoldsAsIs (round.run pair).2)
    (second : (round.run pair).2.HoldsAsIs (round.run pair).1) : Reconciled (round.run pair) := by
  obtain ⟨selfFirst, selfSecond⟩ := round.run_self pair
  refine of_digests first second (Swim.digest_eq_of_counts (fun id => ?_))
  by_cases here : id = (round.run pair).1.swim.self.nodeId
  · subst here
    have counted := Standing.count_of_agree ((GossipNode.regard_matched_iff second.apart).mpr second)
    rw [Swim.standing_self]
    exact counted.symm
  · by_cases there : id = (round.run pair).2.swim.self.nodeId
    · subst there
      rw [Swim.standing_self]
      exact Standing.count_of_agree ((GossipNode.regard_matched_iff first.apart).mpr first)
    · exact round.run_counts (by rwa [← selfFirst]) (by rwa [← selfSecond])

end Reconciled

/-- Two nodes are reconciled by two syncs exactly if neither holds the other, while it has
not left, at an incarnation above its own or dead at the last incarnation. -/
theorem two_syncs_reconcile_iff (one other : GossipNode) (first second : SyncRound) :
    Reconciled (second.run (first.run (one, other))) ↔
      one.swim.self.nodeId ≠ other.swim.self.nodeId ∧ ¬ one.Misjudges other ∧ ¬ other.Misjudges one := by
  obtain ⟨selfOne, selfOther⟩ := first.run_self (one, other)
  obtain ⟨thenOne, thenOther⟩ := second.run_self (first.run (one, other))
  by_cases apart : one.swim.self.nodeId = other.swim.self.nodeId
  · refine iff_of_false (fun reconciled => reconciled.first.apart ?_) (fun holds => holds.1 apart)
    rw [thenOther, thenOne, selfOther, selfOne, apart]
  · have between : (first.run (one, other)).1.swim.self.nodeId ≠ (first.run (one, other)).2.swim.self.nodeId := by
      rwa [selfOne, selfOther]
    have after : (second.run (first.run (one, other))).1.swim.self.nodeId ≠
        (second.run (first.run (one, other))).2.swim.self.nodeId := by rwa [thenOne, thenOther]
    obtain ⟨regardOne, regardOther⟩ := first.run_regard (show (one, other).1.swim.self.nodeId ≠ _ from apart)
    obtain ⟨lastOne, lastOther⟩ := second.run_regard between
    have holdsOne : (second.run (first.run (one, other))).1.HoldsAsIs (second.run (first.run (one, other))).2 ↔
        ¬ one.Misjudges other := by
      rw [← GossipNode.regard_matched_iff after.symm, lastOne, regardOne,
        Regard.matched_round_round_iff (GossipNode.regard_proper _ _),
        GossipNode.regard_stuck_iff (Ne.symm apart)]
    have holdsOther : (second.run (first.run (one, other))).2.HoldsAsIs (second.run (first.run (one, other))).1 ↔
        ¬ other.Misjudges one := by
      rw [← GossipNode.regard_matched_iff after, lastOther, regardOther,
        Regard.matched_round_round_iff (GossipNode.regard_proper _ _), GossipNode.regard_stuck_iff apart]
    constructor
    · intro reconciled
      exact ⟨apart, holdsOne.mp reconciled.first, holdsOther.mp reconciled.second⟩
    · rintro ⟨-, judgesOne, judgesOther⟩
      exact Reconciled.of_holds second (holdsOne.mpr judgesOne) (holdsOther.mpr judgesOther)

namespace Session

/-- Node `a` has been joined by `b` twice: `b` has restarted between. -/
def seed : GossipNode :=
  ((begin (.start ⟨[97], [104], 1⟩ 2 {} GossipNode.valid_a)).run
    [arrival (.join [98] [104] 2 0), arrival (.join [98] [104] 2 0)]).node

/-- Node `b` as it is after its second start and the ack of its second join. -/
def restarted : GossipNode :=
  ((begin (.start ⟨[98], [104], 2⟩ 2 {} GossipNode.valid_b)).run
    [{ call := .joinViaSeeds [ascii "h:1"], answers := [(Message.ack [97] [98] (joinEvents seed) none).payload] }]).node

/-- The two after a sync that the seed begins and one that the restarted node begins. -/
def syncedTwice : GossipNode × GossipNode :=
  SyncRound.run ⟨false, [], []⟩ (SyncRound.run ⟨true, [], []⟩ (seed, restarted))

/-- The seed holds the restarted node at an incarnation of which no sync tells that node. -/
theorem restarted_node_unreconciled :
    (syncedTwice.1.swim.members[([98] : Bytes)]?).map (fun entry => (entry.state, entry.incarnation)) =
      some (.alive, 1) ∧
    syncedTwice.2.swim.hasLeft = false ∧ syncedTwice.2.swim.incarnation = 0 ∧
    syncedTwice.1.swim.digest ≠ syncedTwice.2.swim.digest ∧ ¬ Reconciled syncedTwice := by
  have apart : syncedTwice.1.swim.digest ≠ syncedTwice.2.swim.digest := by decide +kernel
  exact ⟨by decide +kernel, by decide +kernel, by decide +kernel, apart, fun reconciled => apart reconciled.digests⟩

end Session

end MiniDynamo
