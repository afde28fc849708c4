import MiniDynamo.Gossip.Moves
import MiniDynamo.Ring.Owners

/-! The ring of a gossiping node: it is built by the calls of the callback, and has valid ids only. -/

namespace MiniDynamo

namespace Router

variable {virtualNodes : Int}

/-- The ring was built by calls on a new one. -/
def Built (virtualNodes : Int) (router : Router) : Prop := ∃ calls, router = after virtualNodes calls

theorem Built.call {router : Router} (built : router.Built virtualNodes) (call : Call) :
    (call.apply router).Built virtualNodes := by
  obtain ⟨calls, rfl⟩ := built
  exact ⟨calls ++ [call], by simp [after]⟩

theorem Built.foldl {router : Router} (built : router.Built virtualNodes) (fired : List Notice) :
    (fired.foldl onMemberChange router).Built virtualNodes := by
  induction fired generalizing router with
  | nil => exact built
  | cons notice rest ih =>
    apply ih
    unfold onMemberChange
    split
    · exact built.call (.add notice.1)
    · exact built.call (.remove notice.1.nodeId)
    · exact built

end Router

namespace GossipNode

variable {virtualNodes : Int}

/-- Ids are checked before they get on record, so only valid ones get into the ring. -/
theorem isValid_of_contains (node : GossipNode) {id : Bytes} (contained : node.router.Contains id) :
    isValidNodeId id = true := by
  obtain ⟨state, known, -⟩ := node.follows id contained
  rw [Swim.stateOf] at known
  split at known
  · rename_i own
    rw [own]
    exact node.named
  · obtain ⟨entry, found, -⟩ := Option.map_eq_some_iff.mp known
    exact node.valid id entry found

theorem built_ingest {node : GossipNode} (built : node.router.Built virtualNodes) (event : MemberEvent) (now : Int) :
    (node.ingest event now).router.Built virtualNodes := by
  unfold ingest
  split
  · have applied := built.foldl ((Operation.applyEvent event now).react node.swim).2
    simp only
    split <;> exact applied
  · exact built

theorem built_enroll {node : GossipNode} (built : node.router.Built virtualNodes) (event : MemberEvent)
    (checked : isValidNodeId event.nodeId = true) : (node.enroll event checked).2.router.Built virtualNodes := by
  have joined := built.foldl ((Operation.applyDirectJoin event).react node.swim).2
  unfold enroll
  simp only
  split <;> exact joined

end GossipNode

namespace Session

theorem built_rule (virtualNodes : Int) : Rule (fun _ => True)
    (fun before after => before.node.router.Built virtualNodes → after.node.router.Built virtualNodes) where
  refl _ built := built
  trans first second built := second (first built)
  book thread _ _ built := by rwa [thread]
  ingest _ event now _ built := GossipNode.built_ingest built event now
  enroll _ event checked _ _ built := GossipNode.built_enroll built event checked
  own session _ _ _ built := built.foldl _
  piggyback _ _ _ _ built := built
  sync _ _ _ _ built := built
  welcome _ _ _ _ _ _ _ _ _ built := built
  refuse _ _ _ _ _ _ built := built
  call _ _ _ _ built := built

/-- Whatever happens to a node, its ring is one that calls have built. -/
theorem run_built (self : NodeInfo) (virtualNodes : Int) (config : GossipConfig)
    (named : isValidNodeId self.nodeId = true) (turns : List GossipTurn) :
    ((begin (.start self virtualNodes config named)).run turns).node.router.Built virtualNodes :=
  (built_rule virtualNodes).run _ (fun turn _ => turn.joinsFrom_any) ⟨[.add self], rfl⟩

end Session

end MiniDynamo
