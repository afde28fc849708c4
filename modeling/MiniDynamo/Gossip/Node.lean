import MiniDynamo.Gossip.Changes
import MiniDynamo.Gossip.Codec
import MiniDynamo.Gossip.FullState

/-! The gossip thread of a node with its bookkeeping. Ids are checked at every entry, so
only valid ones are on record. -/

namespace MiniDynamo

namespace Operation

/-- The id an operation may put on record. -/
def introduces : Operation → Option Bytes
  | .applyEvent event _ => some event.nodeId
  | .applyDirectJoin event => some event.nodeId
  | _ => none

theorem known_react {operation : Operation} {swim : Swim} {id : Bytes}
    (known : (operation.react swim).1.members[id]? ≠ none) :
    operation.introduces = some id ∨ swim.members[id]? ≠ none := by
  by_cases before : swim.members[id]? = none
  · left
    by_cases relayed : operation.Relayed
    · obtain ⟨event, ⟨now, rfl⟩, rfl⟩ := ((operation.changes relayed swim id).heard_of_new before).resolve_left known
      rfl
    · cases operation with
      | applyDirectJoin event =>
        by_cases own : event.nodeId = swim.self.nodeId
        · rw [react, Swim.applyDirectJoin, dif_pos own] at known
          exact absurd before known
        · rw [react, Swim.lookup_applyDirectJoin own] at known
          split at known
          · rename_i joined
            rw [introduces, joined.1]
          · exact absurd before known
      | _ => exact absurd trivial relayed
  · exact .inr before

end Operation

/-- The periods are milliseconds. -/
structure GossipConfig where
  protocolPeriod : Int := 1000
  indirectProbeCount : Int := 3
  suspicionMult : Int := 5

structure MismatchState where
  consecutive : Int := 0
  lastSyncTick : UInt64 := 0
  deriving DecidableEq

/-- A gossip thread with what it remembers between ticks. -/
structure GossipNode extends GossipThread where
  config : GossipConfig
  mismatch : OrderedMap Bytes MismatchState
  tickCount : UInt64
  idx : UInt64
  named : isValidNodeId swim.self.nodeId = true
  valid : ∀ (id : Bytes) (entry : MemberEntry), swim.members[id]? = some entry → isValidNodeId id = true

/-- An event as it reached a node, with the node as it was before: relayed by a third party,
or from the node it is about, in a join handshake. -/
structure Hearing where
  node : GossipNode
  event : MemberEvent
  direct : Bool

namespace GossipNode

/-- A process refuses to start under an invalid id. -/
def start (self : NodeInfo) (virtualNodes : Int) (config : GossipConfig)
    (named : isValidNodeId self.nodeId = true) : GossipNode where
  toGossipThread := .start self virtualNodes
  config := config
  mismatch := ∅
  tickCount := 0
  idx := 0
  named := named
  valid := by simp [GossipThread.start, Swim.start]

def perform (node : GossipNode) (operation : Operation)
    (checked : ∀ id, operation.introduces = some id → isValidNodeId id = true) : GossipNode where
  toGossipThread := node.toGossipThread.perform operation
  config := node.config
  mismatch := node.mismatch
  tickCount := node.tickCount
  idx := node.idx
  named := by
    rw [GossipThread.perform, (operation.steps node.swim).self]
    exact node.named
  valid := by
    intro id entry found
    have present : (operation.react node.swim).1.members[id]? ≠ none := by
      rw [GossipThread.perform] at found
      simp [found]
    rcases Operation.known_react present with introduced | known
    · exact checked id introduced
    · obtain ⟨before, present⟩ := Option.ne_none_iff_exists'.mp known
      exact node.valid id before present

/-- An operation that names nobody new. -/
def act (node : GossipNode) (operation : Operation) (silent : operation.introduces = none) : GossipNode :=
  node.perform operation (by simp [silent])

/-- The body of the loop of `applyIncomingEvents`: an event under an invalid id is dropped,
one that changes the view is passed on. -/
def ingest (node : GossipNode) (event : MemberEvent) (now : Int) : GossipNode :=
  if checked : isValidNodeId event.nodeId = true then
    let after := node.perform (.applyEvent event now) (by simpa [Operation.introduces] using checked)
    if (node.swim.applyEvent event now).result then after.act (.enqueueEvent event) rfl else after
  else node

/-- The loop of `applyIncomingEvents`, with a reading of the clock for each event. -/
def applyEvents (node : GossipNode) : List MemberEvent → List Int → GossipNode
  | [], _ => node
  | event :: rest, times => (node.ingest event (times.headD 0)).applyEvents rest times.tail

/-- What the loop of `applyIncomingEvents` hears, one event after the other. -/
def hearings (node : GossipNode) : List MemberEvent → List Int → List Hearing
  | [], _ => []
  | event :: rest, times => ⟨node, event, false⟩ :: (node.ingest event (times.headD 0)).hearings rest times.tail

/-- A join request that has passed the check of its id: the joiner is announced as alive,
unless it has left. -/
def enroll (node : GossipNode) (event : MemberEvent) (checked : isValidNodeId event.nodeId = true) :
    Option UInt64 × GossipNode :=
  let after := node.perform (.applyDirectJoin event) (by simpa [Operation.introduces] using checked)
  match (node.swim.applyDirectJoin event).result with
  | none => (none, after)
  | some eff => (some eff, after.act (.enqueueEvent { event with type := .alive, incarnation := eff }) rfl)

theorem swim_ingest (node : GossipNode) (event : MemberEvent) (now : Int) :
    (node.ingest event now).swim =
      if isValidNodeId event.nodeId = true then
        if (node.swim.applyEvent event now).result then (node.swim.applyEvent event now).swim.enqueueEvent event
        else (node.swim.applyEvent event now).swim
      else node.swim := by
  unfold ingest
  split
  · simp only
    split <;> rfl
  · rfl

theorem self_ingest (node : GossipNode) (event : MemberEvent) (now : Int) :
    (node.ingest event now).swim.self = node.swim.self := by
  have same := node.swim.applyEvent_self event now
  rw [swim_ingest]
  split
  · split <;> exact same
  · rfl

/-- A node hears something about a peer. -/
theorem lookup_ingest {node : GossipNode} {event : MemberEvent} {id : Bytes} (now : Int)
    (peer : id ≠ node.swim.self.nodeId) (valid : isValidNodeId id = true) :
    (node.ingest event now).swim.members[id]? =
      if event.nodeId = id ∧ event.accepts node.swim.members[id]? = true
      then some (event.update now node.swim.members[id]?) else node.swim.members[id]? := by
  rw [swim_ingest]
  split
  · split <;> exact Swim.lookup_applyEvent_peer now peer
  · rename_i invalid
    rw [if_neg]
    rintro ⟨rfl, -⟩
    exact invalid valid

theorem swim_enroll (node : GossipNode) (event : MemberEvent) (checked : isValidNodeId event.nodeId = true) :
    (node.enroll event checked).2.swim =
      match (node.swim.applyDirectJoin event).result with
      | none => (node.swim.applyDirectJoin event).swim
      | some eff =>
        (node.swim.applyDirectJoin event).swim.enqueueEvent { event with type := .alive, incarnation := eff } := by
  unfold enroll
  simp only
  split <;> rfl

theorem enroll_own (node : GossipNode) (event : MemberEvent) (checked : isValidNodeId event.nodeId = true) :
    (node.enroll event checked).2.swim.self = node.swim.self ∧
      (node.enroll event checked).2.swim.selfLeft = node.swim.selfLeft := by
  obtain ⟨self, -, flag, -⟩ := node.swim.applyDirectJoin_own event
  rw [swim_enroll]
  split <;> exact ⟨self, flag⟩

theorem enroll_taken {node : GossipNode} {event : MemberEvent} {checked : isValidNodeId event.nodeId = true}
    {eff : UInt64} (enrolled : (node.enroll event checked).1 = some eff) :
    (node.swim.applyDirectJoin event).result = some eff := by
  unfold enroll at enrolled
  simp only at enrolled
  split at enrolled
  · cases enrolled
  · rename_i taken
    rw [taken]
    exact enrolled

end GossipNode

end MiniDynamo
