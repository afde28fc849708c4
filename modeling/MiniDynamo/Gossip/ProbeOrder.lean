import MiniDynamo.Gossip.GateTurns
import Mathlib.Data.List.Rotate

/-! Whom the ticks ping: as long as the same peers are up, each of them in turn. -/

namespace MiniDynamo

namespace Session

/-- The place of the next ping among the peers has not moved. -/
def SamePlace (before after : Session) : Prop := after.node.idx = before.node.idx

theorem samePlace_of_counters {before after : Session} (same : after.node.counters = before.node.counters) :
    SamePlace before after := by
  injection same with _ places
  injection places

theorem samePlace_rule : CounterRule SamePlace where
  still := samePlace_of_counters
  trans one two := Eq.trans two one
  maybeSync session peer digestField := by
    rw [maybeSync_eq]
    cases session.verdict peer digestField with
    | synced =>
      have noted : SamePlace session
          (session.noteMismatch peer.nodeId (some ⟨0, session.node.tickCount⟩)) := rfl
      exact Eq.trans (samePlace_of_counters (counters_performSync _ peer)) noted
    | _ => rfl

/-- The node within a tick, when it is about to ping the next peer. -/
def atPing (session : Session) (turn : GossipTurn) : Session :=
  { session with
    answers := turn.answers
    times := turn.times
    shuffles := turn.shuffles
    node := { session.node with tickCount := session.node.tickCount + 1 } }.expireSuspects.probeNextDead

/-- The peer that the next ping goes to. -/
def nextTarget (session : Session) : Option NodeInfo :=
  let peers := session.node.swim.alivePeers
  peers[session.node.idx.toNat % peers.length]?

/-- Whom a turn pings in the round of the peers. -/
def aim (session : Session) (turn : GossipTurn) : Option NodeInfo :=
  match turn.call with
  | .tick => if session.node.swim.hasLeft then none else (session.atPing turn).nextTarget
  | _ => none

/-- Whom the turns ping, one after the other. -/
def aims : Session → List GossipTurn → List NodeInfo
  | _, [] => []
  | session, turn :: rest => (session.aim turn).toList ++ aims (session.turn turn) rest

def upIds (session : Session) : List Bytes := session.node.swim.alivePeers.map NodeInfo.nodeId

/-- At every tick the node is a member, and the peers it holds up are these. -/
def Steady (ups : List Bytes) : Session → List GossipTurn → Prop
  | _, [] => True
  | session, turn :: rest =>
    (turn.call = .tick → session.node.swim.hasLeft = false ∧ (session.atPing turn).upIds = ups) ∧
      Steady ups (session.turn turn) rest

variable {session : Session} {turn : GossipTurn}

theorem turn_tick (ticks : turn.call = .tick) (member : session.node.swim.hasLeft = false) :
    session.turn turn = (session.atPing turn).pingNext := by
  obtain ⟨call, answers, times, shuffles⟩ := turn
  obtain rfl : call = .tick := ticks
  exact if_neg (by rw [member]; exact Bool.false_ne_true)

theorem aim_tick (ticks : turn.call = .tick) (member : session.node.swim.hasLeft = false) :
    session.aim turn = (session.atPing turn).nextTarget := by
  unfold aim
  rw [ticks]
  exact if_neg (by rw [member]; exact Bool.false_ne_true)

theorem aim_other (other : turn.call ≠ .tick) : session.aim turn = none := by
  unfold aim
  split
  · rename_i ticks
    exact absurd ticks other
  · rfl

theorem samePlace_atPing (session : Session) (turn : GossipTurn) : SamePlace session (session.atPing turn) :=
  samePlace_rule.trans rfl (samePlace_rule.probes.probeNextDead _)

/-- Only a tick moves on to the next peer. -/
theorem samePlace_turn (other : turn.call ≠ .tick) : SamePlace session (session.turn turn) :=
  samePlace_of_counters (session.counters_turn other)

theorem pingNext_aimed {target : NodeInfo} (aimed : session.nextTarget = some target) :
    session.pingNext =
      { session with node := { session.node with idx := session.node.idx + 1 } }.pingTarget target := by
  unfold pingNext
  unfold nextTarget at aimed
  simp only at aimed ⊢
  rw [aimed]

theorem idx_pingNext {target : NodeInfo} (aimed : session.nextTarget = some target) :
    session.pingNext.node.idx = session.node.idx + 1 := by
  rw [pingNext_aimed aimed]
  exact samePlace_rule.probes.pingTarget _ target

/-- The target is the peer whose turn it is. -/
theorem nextTarget_id (session : Session) :
    session.nextTarget.map NodeInfo.nodeId = session.upIds[session.node.idx.toNat % session.upIds.length]? := by
  rw [nextTarget, upIds, List.length_map, List.getElem?_map]

theorem tickTurns_tick (ticks : turn.call = .tick) (rest : List GossipTurn) :
    SyncRun.tickTurns (turn :: rest) = SyncRun.tickTurns rest + 1 :=
  List.countP_cons_of_pos (by rw [ticks])

theorem tickTurns_other (other : turn.call ≠ .tick) (rest : List GossipTurn) :
    SyncRun.tickTurns (turn :: rest) = SyncRun.tickTurns rest := by
  refine List.countP_cons_of_neg ?_
  split
  · rename_i ticks
    exact absurd ticks other
  · exact Bool.false_ne_true

/-- Tick by tick, the targets are the next of the peers, around and around. -/
theorem aims_steady {ups : List Bytes} {turns : List GossipTurn} (inhabited : 0 < ups.length)
    (steady : Steady ups session turns) (room : session.node.idx.toNat + SyncRun.tickTurns turns ≤ 2 ^ 64) :
    (aims session turns).map NodeInfo.nodeId = (List.range (SyncRun.tickTurns turns)).map
      (fun round => ups.getD ((session.node.idx.toNat + round) % ups.length) []) := by
  induction turns generalizing session with
  | nil => rfl
  | cons turn rest ih =>
    obtain ⟨here, later⟩ := steady
    by_cases ticks : turn.call = .tick
    · obtain ⟨member, same⟩ := here ticks
      have place : (session.atPing turn).node.idx = session.node.idx := samePlace_atPing session turn
      have inside := Nat.mod_lt session.node.idx.toNat inhabited
      have first := (session.atPing turn).nextTarget_id
      rw [same, place, List.getElem?_eq_getElem inside] at first
      obtain ⟨target, aimed, named⟩ := Option.map_eq_some_iff.mp first
      rw [tickTurns_tick ticks] at room ⊢
      rw [aims, aim_tick ticks member, aimed, List.map_append, List.range_succ_eq_map, List.map_cons, List.map_map]
      have moved : (session.turn turn).node.idx = session.node.idx + 1 := by
        rw [turn_tick ticks member, idx_pingNext aimed, place]
      have others : (aims (session.turn turn) rest).map NodeInfo.nodeId = (List.range (SyncRun.tickTurns rest)).map
          (fun round => ups.getD ((session.node.idx.toNat + (round + 1)) % ups.length) []) := by
        rcases Nat.eq_zero_or_pos (SyncRun.tickTurns rest) with none | some
        · have done := ih later (by rw [none]; exact Nat.le_of_lt (UInt64.toNat_lt _))
          rw [none] at done ⊢
          exact done
        · have next : (session.turn turn).node.idx.toNat = session.node.idx.toNat + 1 := by
            rw [moved, UInt64.toNat_add, Nat.mod_eq_of_lt]
            · rfl
            · change session.node.idx.toNat + 1 < 2 ^ 64
              omega
          rw [ih later (by rw [next]; omega), next]
          exact List.map_congr_left (fun round _ => by rw [Nat.add_assoc, Nat.add_comm 1 round])
      rw [others]
      simp [named, Nat.mod_lt _ inhabited]
    · rw [tickTurns_other ticks] at room ⊢
      have same : SamePlace session (session.turn turn) := samePlace_turn ticks
      rw [aims, aim_other ticks, ← same]
      exact ih later (by rw [same]; exact room)

/-- Where nobody is up, nobody is pinged. -/
theorem aims_quiet {turns : List GossipTurn} (steady : Steady [] session turns) :
    (aims session turns).map NodeInfo.nodeId = [] := by
  induction turns generalizing session with
  | nil => rfl
  | cons turn rest ih =>
    obtain ⟨here, later⟩ := steady
    rw [aims, List.map_append, ih later, List.append_nil]
    by_cases ticks : turn.call = .tick
    · obtain ⟨member, alone⟩ := here ticks
      have nobody := (session.atPing turn).nextTarget_id
      rw [alone] at nobody
      rw [aim_tick ticks member, Option.map_eq_none_iff.mp nobody]
      rfl
    · rw [aim_other ticks]
      rfl

/-- As many ticks as there are peers go once around, from whichever peer is next. -/
theorem aims_round {ups : List Bytes} {turns : List GossipTurn} (steady : Steady ups session turns)
    (round : SyncRun.tickTurns turns = ups.length) (room : session.node.idx.toNat + ups.length ≤ 2 ^ 64) :
    (aims session turns).map NodeInfo.nodeId = ups.rotate session.node.idx.toNat := by
  rcases Nat.eq_zero_or_pos ups.length with none | inhabited
  · obtain rfl := List.eq_nil_of_length_eq_zero none
    rw [List.rotate_nil]
    exact aims_quiet steady
  · rw [aims_steady inhabited steady (by omega), round]
    refine List.ext_getElem (by simp) (fun place here there => ?_)
    have inside := Nat.mod_lt (session.node.idx.toNat + place) inhabited
    rw [List.getElem_map, List.getElem_range, List.getD_eq_getElem?_getD, List.getElem?_eq_getElem inside,
      Option.getD_some, List.getElem_rotate]
    exact getElem_congr_idx (by rw [Nat.add_comm])

theorem Move.sent {before after : Session} (move : Move before after) : before.sent <+: after.sent := by
  cases move with
  | book _ _ sent => rw [sent]
  | ingest => exact List.prefix_refl _
  | enroll => exact List.prefix_refl _
  | own => exact List.prefix_refl _
  | _ => exact List.prefix_append _ _

theorem Moves.sent {before after : Session} (moves : Moves before after) : before.sent <+: after.sent := by
  induction moves with
  | refl => exact List.prefix_refl _
  | tail _ move ih => exact ih.trans move.sent

/-- Only a tick aims at a peer, and only while the node is a member. -/
theorem ticks_of_aim {target : NodeInfo} (aimed : session.aim turn = some target) :
    turn.call = .tick ∧ session.node.swim.hasLeft = false := by
  unfold aim at aimed
  split at aimed
  · rename_i ticks
    split at aimed
    · cases aimed
    · rename_i member
      exact ⟨ticks, Bool.eq_false_of_not_eq_true member⟩
  · cases aimed

/-- The node within a tick, as it pings its target. -/
def pinging (session : Session) (turn : GossipTurn) : Session :=
  { session.atPing turn with
    node := { (session.atPing turn).node with idx := (session.atPing turn).node.idx + 1 } }

theorem turn_aimed {target : NodeInfo} (aimed : session.aim turn = some target) :
    session.turn turn = (session.pinging turn).pingTarget target := by
  obtain ⟨ticks, member⟩ := ticks_of_aim aimed
  rw [aim_tick ticks member] at aimed
  rw [turn_tick ticks member, pingNext_aimed aimed]
  rfl

/-- Who is aimed at is pinged. -/
theorem pinged_of_aim {target : NodeInfo} (aimed : session.aim turn = some target) :
    ∃ sending ∈ (session.turn turn).sent, ∃ sender events, sending.address = some (target.host, target.port) ∧
      sending.message = .ping sender target.nodeId events := by
  rw [turn_aimed aimed]
  generalize session.pinging turn = ready
  have pinged := moves_rule.ping ready target.nodeId target.host target.port
  have sent : ∃ sending ∈ ((ready.buildPing target.nodeId).2.sendFn target.host target.port
      (ready.buildPing target.nodeId).1).2.sent, ∃ sender events,
      sending.address = some (target.host, target.port) ∧ sending.message = .ping sender target.nodeId events :=
    ⟨_, List.mem_append_right _ (List.mem_singleton_self _), _, _, rfl, rfl⟩
  obtain ⟨sending, member, ping⟩ := sent
  refine ⟨sending, ?_, ping⟩
  unfold pingTarget
  simp only
  split
  · exact (Moves.sent (moves_rule.probes.handleAck _ _ _)).subset member
  · exact (Moves.sent (moves_rule.probes.probeIndirectly _ _)).subset member

theorem pinged_of_aims {turns : List GossipTurn} {target : NodeInfo} (aimed : target ∈ aims session turns) :
    ∃ sending ∈ (session.run turns).sent, ∃ sender events, sending.address = some (target.host, target.port) ∧
      sending.message = .ping sender target.nodeId events := by
  induction turns generalizing session with
  | nil => cases aimed
  | cons turn rest ih =>
    rcases List.mem_append.mp aimed with now | later
    · obtain ⟨sending, member, ping⟩ := pinged_of_aim (Option.mem_toList.mp now)
      exact ⟨sending, (Moves.sent (run_moves (session.turn turn) rest)).subset member, ping⟩
    · exact ih later

/-- While the same peers are up, as many ticks as there are peers ping each of them once, whatever
else happens between the ticks. -/
theorem peers_pinged_in_turn (node : GossipNode) (turns : List GossipTurn) (ups : List Bytes)
    (steady : Steady ups (begin node) turns) (round : SyncRun.tickTurns turns = ups.length)
    (room : node.idx.toNat + ups.length ≤ 2 ^ 64) :
    (aims (begin node) turns).map NodeInfo.nodeId = ups.rotate node.idx.toNat ∧
      ∀ id ∈ ups, ∃ sending ∈ ((begin node).run turns).sent, ∃ sender events,
        sending.message = .ping sender id events := by
  have rotated : (aims (begin node) turns).map NodeInfo.nodeId = ups.rotate node.idx.toNat :=
    aims_round steady round room
  refine ⟨rotated, fun id member => ?_⟩
  rw [← List.mem_rotate, ← rotated] at member
  obtain ⟨target, aimed, rfl⟩ := List.mem_map.mp member
  obtain ⟨sending, sent, sender, events, -, message⟩ := pinged_of_aims aimed
  exact ⟨sending, sent, sender, events, message⟩

/-- Node `a` holds `b` and `c` up. -/
def watcher : GossipNode :=
  (GossipNode.start ⟨[97], [104], 1⟩ 2 {} (by decide)).applyEvents
    [{ nodeId := [98], incarnation := 2 }, { nodeId := [99], incarnation := 2 }] []

theorem peers_pinged_in_turn_silent :
    (aims (begin watcher) [{ call := .tick }, { call := .tick }]).map NodeInfo.nodeId = [[98], [99]] ∧
      ∀ id ∈ [[98], [99]], ∃ sending ∈ ((begin watcher).run [{ call := .tick }, { call := .tick }]).sent,
        ∃ sender events, sending.message = .ping sender id events :=
  peers_pinged_in_turn watcher [{ call := .tick }, { call := .tick }] [[98], [99]]
    ⟨fun _ => ⟨by decide +kernel, by decide +kernel⟩, fun _ => ⟨by decide +kernel, by decide +kernel⟩, trivial⟩
    rfl (by decide +kernel)

end Session

end MiniDynamo
