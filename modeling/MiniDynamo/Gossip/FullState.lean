import MiniDynamo.Gossip.Swim
import MiniDynamo.Ring.Router

/-! A whole view at once: as events for a full-state sync, and as the digest that rides on
every ack. -/

namespace MiniDynamo

/-- Suspicion is a passing judgement: it does not show outside the node. -/
inductive StateClass where
  | alive
  | dead
  | left
  deriving DecidableEq

namespace StateClass

def toByte : StateClass → UInt8
  | .alive => 65
  | .dead => 68
  | .left => 76

def eventType : StateClass → EventType
  | .alive => .alive
  | .dead => .dead
  | .left => .leave

end StateClass

def MemberState.stateClass : MemberState → StateClass
  | .dead => .dead
  | .left => .left
  | _ => .alive

/-- The hash of one entry; the incarnation goes in byte by byte, the lowest one first. -/
def entryDigest (id : Bytes) (stateClass : StateClass) (incarnation : UInt64) : UInt64 :=
  hash64 (id ++ 1 :: stateClass.toByte :: 1 ::
    (List.range 8).map (fun i => ((incarnation >>> UInt64.ofNat (8 * i)) &&& 0xff).toUInt8))

/-- Dead and departed members count by their class alone. -/
def MemberEntry.digest (id : Bytes) (entry : MemberEntry) : UInt64 :=
  entryDigest id entry.state.stateClass (if entry.state.stateClass = .alive then entry.incarnation else 0)

namespace Swim

/-- The class the node itself is in. -/
def selfClass (swim : Swim) : StateClass := if swim.selfLeft then .left else .alive

def digest (swim : Swim) : UInt64 :=
  swim.members.toList.foldl (fun h member => h ^^^ member.2.digest member.1)
    (entryDigest swim.self.nodeId swim.selfClass (if swim.selfLeft then 0 else swim.incarnation))

def selfEvent (swim : Swim) : MemberEvent :=
  ⟨swim.selfClass.eventType, swim.self.nodeId, swim.self.host, swim.self.port, swim.incarnation⟩

/-- A suspect is reported alive. -/
def memberEvent (id : Bytes) (entry : MemberEntry) : MemberEvent :=
  ⟨entry.state.stateClass.eventType, id, entry.info.host, entry.info.port, entry.incarnation⟩

def fullState (swim : Swim) : List MemberEvent :=
  swim.selfEvent :: swim.members.toList.map (fun member => memberEvent member.1 member.2)

end Swim

end MiniDynamo
