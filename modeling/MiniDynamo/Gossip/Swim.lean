import MiniDynamo.Library.OrderedMap
import MiniDynamo.Codec.NodeId
import Mathlib.Data.Nat.Log

/-! The membership view of one node: the SWIM state machine with its tombstones. -/

namespace MiniDynamo

/-- A dead member keeps its place in the ring; one that has left has lost it for good. -/
inductive MemberState where
  | alive
  | suspect
  | dead
  | left
  deriving DecidableEq

/-- The type of an event is a character of the message; any other one is a type too. -/
inductive EventType where
  | join
  | suspect
  | dead
  | leave
  | alive
  | other (byte : UInt8)
  deriving DecidableEq

structure MemberEvent where
  type : EventType := .alive
  nodeId : Bytes := []
  host : Bytes := []
  port : UInt16 := 0
  incarnation : UInt64 := 0
  deriving DecidableEq

namespace MemberEvent

def info (event : MemberEvent) : NodeInfo := ⟨event.nodeId, event.host, event.port⟩

/-- The address an event leaves on record: its own if it has one. -/
def readdress (event : MemberEvent) (info : NodeInfo) : NodeInfo :=
  if event.host.isEmpty then info else { info with host := event.host, port := event.port }

@[simp]
theorem readdress_nodeId (event : MemberEvent) (info : NodeInfo) : (event.readdress info).nodeId = info.nodeId := by
  unfold readdress
  split <;> rfl

end MemberEvent

/-- Times are nanoseconds of the steady clock. -/
structure MemberEntry where
  info : NodeInfo
  state : MemberState := .alive
  incarnation : UInt64 := 0
  suspectSince : Int := 0
  deriving DecidableEq

/-- An event and how many more messages it goes out with. -/
structure PendingEvent where
  event : MemberEvent
  remaining : Int
  deriving DecidableEq

/-- Every member is filed under its own id, and the node itself is not among them. -/
structure Swim where
  self : NodeInfo
  incarnation : UInt64
  selfLeft : Bool
  members : OrderedMap Bytes MemberEntry
  pending : List PendingEvent
  keyed : ∀ (id : Bytes) (entry : MemberEntry), members[id]? = some entry → entry.info.nodeId = id
  others : members[self.nodeId]? = none

/-- What a callback is told. -/
abbrev Notice := NodeInfo × MemberState

/-- An operation returns a result, leaves a view and has fired callbacks. -/
structure Reaction (Result : Type) where
  result : Result
  swim : Swim
  fired : List Notice

namespace Swim

def start (self : NodeInfo) : Swim := ⟨self, 0, false, ∅, [], by simp, by simp⟩

theorem other_of_found (swim : Swim) {id : Bytes} {entry : MemberEntry} (found : swim.members[id]? = some entry) :
    entry.info.nodeId ≠ swim.self.nodeId := by
  intro same
  have absent := swim.others
  rw [← same, swim.keyed id entry found, found] at absent
  cases absent

/-- `members_[id] = entry`. -/
def record (swim : Swim) (entry : MemberEntry) (other : entry.info.nodeId ≠ swim.self.nodeId) : Swim :=
  { swim with
    members := swim.members.insert entry.info.nodeId entry
    keyed := by
      intro id found lookup
      rw [OrderedMap.lookup_insert] at lookup
      split at lookup
      · rename_i same
        rw [← same, ← Option.some.inj lookup]
      · exact swim.keyed id found lookup
    others := by
      rw [OrderedMap.lookup_insert, if_neg other]
      exact swim.others }

/-- The record of a known member changes. -/
def amend (swim : Swim) {id : Bytes} {entry : MemberEntry} (found : swim.members[id]? = some entry)
    (changed : MemberEntry) (same : changed.info.nodeId = entry.info.nodeId) : Swim :=
  swim.record changed (by rw [same]; exact swim.other_of_found found)

/-- `3 * ceil(log2(n + 1))` for a cluster of `n`, and at least 3. -/
def disseminationLimit (swim : Swim) : Int :=
  let n := swim.members.size + 1
  max 3 (3 * (Nat.clog 2 (n + 1) : Int))

def enqueueEvent (swim : Swim) (event : MemberEvent) : Swim :=
  { swim with pending := swim.pending ++ [⟨event, swim.disseminationLimit⟩] }

def unchanged (swim : Swim) : Reaction Bool := ⟨false, swim, []⟩

/-- The part of `applyEvent` about the node itself. -/
def applySelfEvent (swim : Swim) (event : MemberEvent) : Reaction Bool :=
  match event.type with
  | .leave =>
    if swim.selfLeft then swim.unchanged
    else ⟨true, { swim with selfLeft := true }, [(swim.self, .left)]⟩
  | .suspect | .dead =>
    if event.incarnation < swim.incarnation then swim.unchanged
    else
      let refuted := { swim with incarnation := event.incarnation + 1 }
      ⟨true, refuted.enqueueEvent
        ⟨.alive, swim.self.nodeId, swim.self.host, swim.self.port, event.incarnation + 1⟩, []⟩
  | _ => swim.unchanged

/-- The cases `Join` and `Alive` of `applyEvent`. -/
def applyAlive (swim : Swim) (event : MemberEvent) (other : event.nodeId ≠ swim.self.nodeId) : Reaction Bool :=
  match found : swim.members[event.nodeId]? with
  | none => ⟨true, swim.record ⟨event.info, .alive, event.incarnation, 0⟩ other, [(event.info, .alive)]⟩
  | some entry =>
    if entry.state = .left then swim.unchanged
    else if event.incarnation ≤ entry.incarnation then swim.unchanged
    else
      ⟨true, swim.amend found
          { entry with state := .alive, incarnation := event.incarnation, info := event.readdress entry.info }
          (event.readdress_nodeId entry.info),
        [(event.readdress entry.info, .alive)]⟩

/-- The case `Suspect` of `applyEvent`. -/
def applySuspect (swim : Swim) (event : MemberEvent) (now : Int) : Reaction Bool :=
  match found : swim.members[event.nodeId]? with
  | none => swim.unchanged
  | some entry =>
    if event.incarnation < entry.incarnation then swim.unchanged
    else if entry.state = .dead then swim.unchanged
    else if entry.state = .left then swim.unchanged
    else if entry.state = .suspect ∧ event.incarnation ≤ entry.incarnation then swim.unchanged
    else
      ⟨true, swim.amend found
        { entry with state := .suspect, incarnation := event.incarnation, suspectSince := now } rfl, []⟩

/-- The case `Dead` of `applyEvent`. -/
def applyDead (swim : Swim) (event : MemberEvent) (other : event.nodeId ≠ swim.self.nodeId) : Reaction Bool :=
  match found : swim.members[event.nodeId]? with
  | none => ⟨true, swim.record ⟨event.info, .dead, event.incarnation, 0⟩ other, []⟩
  | some entry =>
    if entry.state = .dead then swim.unchanged
    else if entry.state = .left then swim.unchanged
    else if event.incarnation < entry.incarnation then swim.unchanged
    else
      ⟨true, swim.amend found { entry with state := .dead, incarnation := event.incarnation } rfl,
        [(entry.info, .dead)]⟩

/-- The case `Leave` of `applyEvent`: an operator's decision, whatever the incarnation. -/
def applyLeave (swim : Swim) (event : MemberEvent) (other : event.nodeId ≠ swim.self.nodeId) : Reaction Bool :=
  match found : swim.members[event.nodeId]? with
  | none => ⟨true, swim.record ⟨event.info, .left, event.incarnation, 0⟩ other, []⟩
  | some entry =>
    if entry.state = .left then swim.unchanged
    else ⟨true, swim.amend found { entry with state := .left } rfl, [(entry.info, .left)]⟩

/-- An event relayed by a third party. -/
def applyEvent (swim : Swim) (event : MemberEvent) (now : Int) : Reaction Bool :=
  if own : event.nodeId = swim.self.nodeId then swim.applySelfEvent event
  else
    match event.type with
    | .join | .alive => swim.applyAlive event own
    | .suspect => swim.applySuspect event now
    | .dead => swim.applyDead event own
    | .leave => swim.applyLeave event own
    | .other _ => swim.unchanged

/-- The join handshake, where the node speaks for itself: the incarnation to announce it
with, or nothing if it has left. -/
def applyDirectJoin (swim : Swim) (event : MemberEvent) : Reaction (Option UInt64) :=
  if own : event.nodeId = swim.self.nodeId then ⟨some swim.incarnation, swim, []⟩
  else
    match found : swim.members[event.nodeId]? with
    | none =>
      ⟨some event.incarnation, swim.record ⟨event.info, .alive, event.incarnation, 0⟩ own, [(event.info, .alive)]⟩
    | some entry =>
      if entry.state = .left then ⟨none, swim, []⟩
      else
        let eff := max event.incarnation (entry.incarnation + 1)
        ⟨some eff, swim.amend found
            { entry with state := .alive, incarnation := eff, info := event.readdress entry.info }
            (event.readdress_nodeId entry.info),
          if entry.state = .alive then [] else [(event.readdress entry.info, .alive)]⟩

/-- Retire a node for good, on an operator's word. -/
def leave (swim : Swim) (nodeId : Bytes) : Reaction Unit :=
  if nodeId = swim.self.nodeId then
    if swim.selfLeft then ⟨(), swim, []⟩
    else
      let retired := { swim with selfLeft := true }
      ⟨(), retired.enqueueEvent { type := .leave, nodeId := nodeId, incarnation := swim.incarnation },
        [(swim.self, .left)]⟩
  else
    match found : swim.members[nodeId]? with
    | none => ⟨(), swim, []⟩
    | some entry =>
      if entry.state = .left then ⟨(), swim, []⟩
      else
        let retired := swim.amend found { entry with state := .left } rfl
        ⟨(), retired.enqueueEvent { type := .leave, nodeId := nodeId, incarnation := entry.incarnation },
          [(entry.info, .left)]⟩

def suspect (swim : Swim) (nodeId : Bytes) (now : Int) : Reaction Unit :=
  match found : swim.members[nodeId]? with
  | none => ⟨(), swim, []⟩
  | some entry =>
    if entry.state ≠ .alive then ⟨(), swim, []⟩
    else
      let suspected := swim.amend found { entry with state := .suspect, suspectSince := now } rfl
      ⟨(), suspected.enqueueEvent { type := .suspect, nodeId := nodeId, incarnation := entry.incarnation }, []⟩

/-- The record of a member turns dead, and everyone is told. -/
def bury (swim : Swim) {id : Bytes} {entry : MemberEntry} (found : swim.members[id]? = some entry) : Reaction Unit :=
  let buried := swim.amend found { entry with state := .dead } rfl
  ⟨(), buried.enqueueEvent { type := .dead, nodeId := id, incarnation := entry.incarnation }, [(entry.info, .dead)]⟩

def confirmDead (swim : Swim) (nodeId : Bytes) : Reaction Unit :=
  match found : swim.members[nodeId]? with
  | none => ⟨(), swim, []⟩
  | some entry =>
    if entry.state = .dead then ⟨(), swim, []⟩
    else if entry.state = .left then ⟨(), swim, []⟩
    else swim.bury found

def refute (swim : Swim) : Reaction UInt64 :=
  let refuted := { swim with incarnation := swim.incarnation + 1 }
  ⟨swim.incarnation + 1, refuted.enqueueEvent
    ⟨.alive, swim.self.nodeId, swim.self.host, swim.self.port, swim.incarnation + 1⟩, []⟩

/-- The body of the loop of `expireSuspects` for one member. -/
def expireSuspect (timeout now : Int) (progress : Reaction (List Bytes)) (id : Bytes) : Reaction (List Bytes) :=
  match found : progress.swim.members[id]? with
  | none => progress
  | some entry =>
    if entry.state = .suspect ∧ timeout ≤ (now - entry.suspectSince).tdiv 1000000 then
      let buried := progress.swim.bury found
      ⟨progress.result ++ [id], buried.swim, progress.fired ++ buried.fired⟩
    else progress

/-- Every member in turn; the timeout is in milliseconds. -/
def expireSuspects (swim : Swim) (timeout now : Int) : Reaction (List Bytes) :=
  (swim.members.toList.map Prod.fst).foldl (expireSuspect timeout now) ⟨[], swim, []⟩

def getEventsToSend (swim : Swim) : Reaction (List MemberEvent) :=
  ⟨swim.pending.map PendingEvent.event,
    { swim with
      pending := swim.pending.filterMap (fun waiting =>
        if waiting.remaining - 1 ≤ 0 then none else some ⟨waiting.event, waiting.remaining - 1⟩) }, []⟩

def hasLeft (swim : Swim) : Bool := swim.selfLeft

/-- The entries of the members, in the order of their ids. -/
def entries (swim : Swim) : List MemberEntry := swim.members.toList.map Prod.snd

def alivePeers (swim : Swim) : List NodeInfo :=
  (swim.entries.filter (fun entry => entry.state = .alive ∨ entry.state = .suspect)).map MemberEntry.info

def deadPeers (swim : Swim) : List NodeInfo :=
  (swim.entries.filter (fun entry => entry.state = .dead)).map MemberEntry.info

def allMembers (swim : Swim) : List MemberEntry :=
  swim.entries.filter (fun entry => entry.state ≠ .dead ∧ entry.state ≠ .left)

/-- The peers `randomPeers` draws from. -/
def candidates (swim : Swim) (exclude : List Bytes) : List NodeInfo :=
  (swim.members.toList.filter (fun member =>
    ¬ (member.2.state = .dead ∨ member.2.state = .left) ∧ member.1 ∉ exclude)).map (fun member => member.2.info)

/-- `shuffle` is what the generator makes of the candidates. A negative `k` is a `resize`
that throws, unless there is nothing to cut. -/
def randomPeers (swim : Swim) (k : Int) (exclude : List Bytes) (shuffle : List NodeInfo → List NodeInfo) :
    Option (List NodeInfo) :=
  if k < ((swim.candidates exclude).length : Int) then
    if k < 0 then none else some ((shuffle (swim.candidates exclude)).take k.toNat)
  else some (shuffle (swim.candidates exclude))

def isAlive (swim : Swim) (nodeId : Bytes) : Bool :=
  match swim.members[nodeId]? with
  | none => false
  | some entry => entry.state = .alive ∨ entry.state = .suspect

def stateOf (swim : Swim) (nodeId : Bytes) : Option MemberState :=
  if nodeId = swim.self.nodeId then some (if swim.selfLeft then .left else .alive)
  else swim.members[nodeId]?.map MemberEntry.state

end Swim

end MiniDynamo
