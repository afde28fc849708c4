import MiniDynamo.Gossip.Node

/-! What the gossip thread of a node does: the messages it builds, its ticks and its
answers to messages. The network, the clock and the shuffling of peers are inputs: what
each call of them returns stands in a list. -/

namespace MiniDynamo

/-- `split` at a delimiter; `field` is empty past the end. -/
def split (text : Bytes) (delim : UInt8) : List Bytes := text.splitOn delim

def field (fields : List Bytes) (index : Nat) : Bytes := fields.getD index []

inductive Message where
  | ping (sender target : Bytes) (events : List MemberEvent)
  | pingReq (sender target via : Bytes) (events : List MemberEvent)
  | ack (sender target : Bytes) (events : List MemberEvent) (digest : Option UInt64)
  | join (sender host : Bytes) (port : UInt16) (incarnation : UInt64)
  | sync (sender : Bytes) (events : List MemberEvent)
  | syncAck (sender : Bytes) (events : List MemberEvent)

namespace Message

def events : Message → List MemberEvent
  | .ping _ _ events => events
  | .pingReq _ _ _ events => events
  | .ack _ _ events _ => events
  | .join _ _ _ _ => []
  | .sync _ events => events
  | .syncAck _ events => events

/-- The text that goes out. The acks of a join carry no digest. -/
def payload : Message → Bytes
  | .ping sender target events =>
    ascii "SWIM_PING|" ++ sender ++ ascii "|" ++ target ++ ascii "|" ++ serializeEvents events
  | .pingReq sender target via events =>
    ascii "SWIM_PING_REQ|" ++ sender ++ ascii "|" ++ target ++ ascii "|" ++ via ++ ascii "|" ++ serializeEvents events
  | .ack sender target events digest =>
    ascii "SWIM_ACK|" ++ sender ++ ascii "|" ++ target ++ ascii "|" ++ serializeEvents events ++
      match digest with
      | none => []
      | some digest => ascii "|" ++ decimal digest.toNat
  | .join sender host port incarnation =>
    ascii "SWIM_JOIN|" ++ sender ++ ascii "|" ++ host ++ ascii "|" ++ decimal port.toNat ++ ascii "|" ++
      decimal incarnation.toNat ++ ascii "|"
  | .sync sender events => ascii "SWIM_SYNC|" ++ sender ++ ascii "|" ++ serializeEvents events
  | .syncAck sender events => ascii "SWIM_SYNC_ACK|" ++ sender ++ ascii "|" ++ serializeEvents events

end Message

/-- A message on its way, with the node as it was when it sent it; a reply goes back on the
connection it answers. -/
structure Sending where
  node : GossipNode
  address : Option (Bytes × UInt16)
  message : Message

/-- A node at work: what is to come of answers, clock readings and shuffles, and logs of
what it has heard and sent. -/
structure Session where
  node : GossipNode
  answers : List Bytes
  times : List Int
  shuffles : List (List NodeInfo → List NodeInfo)
  heard : List Hearing
  sent : List Sending

namespace Session

def act (session : Session) (operation : Operation) (silent : operation.introduces = none) : Session :=
  { session with node := session.node.act operation silent }

def now (session : Session) : Int := session.times.headD 0

def laterOn (session : Session) : Session := { session with times := session.times.tail }

/-- The message goes out. -/
def post (session : Session) (address : Option (Bytes × UInt16)) (message : Message) : Session :=
  { session with sent := session.sent ++ [⟨session.node, address, message⟩] }

/-- `send_fn_`: the answer is empty when there is none. -/
def sendFn (session : Session) (host : Bytes) (port : UInt16) (message : Message) : Bytes × Session :=
  (session.answers.headD [],
    { session.post (some (host, port)) message with answers := session.answers.tail })

def applyIncomingEvents (session : Session) (eventsField : Bytes) : Session :=
  if eventsField = [] then session
  else
    let events := deserializeEvents eventsField
    { session with
      node := session.node.applyEvents events session.times
      times := session.times.drop events.length
      heard := session.heard ++ session.node.hearings events session.times }

theorem sent_applyIncomingEvents (session : Session) (eventsField : Bytes) :
    (session.applyIncomingEvents eventsField).sent = session.sent := by
  unfold applyIncomingEvents
  split <;> rfl

/-- The queued events, each with one sending less to go. -/
def getEventsToSend (session : Session) : List MemberEvent × Session :=
  (session.node.swim.getEventsToSend.result, session.act .getEventsToSend rfl)

def selfId (session : Session) : Bytes := session.node.swim.self.nodeId

def buildPing (session : Session) (targetId : Bytes) : Message × Session :=
  let (events, session) := session.getEventsToSend
  (.ping session.selfId targetId events, session)

def buildPingReq (session : Session) (targetId : Bytes) : Message × Session :=
  let (events, session) := session.getEventsToSend
  (.pingReq session.selfId targetId session.selfId events, session)

def buildAck (session : Session) (targetId : Bytes) : Message × Session :=
  let (events, session) := session.getEventsToSend
  (.ack session.selfId targetId events (some session.node.swim.digest), session)

def performSync (session : Session) (peer : NodeInfo) : Session :=
  let (resp, session) := session.sendFn peer.host peer.port (.sync session.selfId session.node.swim.fullState)
  if resp = [] then session
  else
    let f := split resp pipe
    if field f 0 ≠ ascii "SWIM_SYNC_ACK" then session else session.applyIncomingEvents (field f 2)

def kSyncMismatchThreshold : Int := 2
def kSyncCooldownTicks : UInt64 := 10
def kDeadProbeEveryTicks : UInt64 := 5

def noteMismatch (session : Session) (id : Bytes) (state : Option MismatchState) : Session :=
  { session with
    node := { session.node with
      mismatch := match state with
        | none => session.node.mismatch.erase id
        | some state => session.node.mismatch.insert id state } }

def maybeSync (session : Session) (peer : NodeInfo) (digestField : Bytes) : Session :=
  if digestField = [] then session
  else
    match stoull digestField with
    | none => session
    | some theirs =>
      if theirs = session.node.swim.digest then session.noteMismatch peer.nodeId none
      else
        let before := session.node.mismatch[peer.nodeId]?.getD {}
        let m := { before with consecutive := before.consecutive + 1 }
        if m.consecutive < kSyncMismatchThreshold then session.noteMismatch peer.nodeId (some m)
        else if m.lastSyncTick ≠ 0 ∧ session.node.tickCount - m.lastSyncTick < kSyncCooldownTicks then
          session.noteMismatch peer.nodeId (some m)
        else (session.noteMismatch peer.nodeId (some ⟨0, session.node.tickCount⟩)).performSync peer

/-- Whether the response is an ack, and what it leaves. -/
def handleAck (session : Session) (peer : NodeInfo) (resp : Bytes) : Bool × Session :=
  if resp = [] then (false, session)
  else
    let f := split resp pipe
    if field f 0 ≠ ascii "SWIM_ACK" then (false, session)
    else (true, (session.applyIncomingEvents (field f 3)).maybeSync peer (field f 4))

def probeDead (session : Session) (target : NodeInfo) : Session :=
  let (ping, session) := session.buildPing target.nodeId
  let (resp, session) := session.sendFn target.host target.port ping
  (session.handleAck target resp).2

/-- The loop over the proxies of an indirect probe, up to the first ack. -/
def probeVia (target : NodeInfo) : List NodeInfo → Session → Bool × Session
  | [], session => (false, session)
  | proxy :: rest, session =>
    let (preq, session) := session.buildPingReq target.nodeId
    let (presp, session) := session.sendFn proxy.host proxy.port preq
    let (acked, session) := session.handleAck proxy presp
    if acked then (true, session) else probeVia target rest session

/-- The second half of `pingTarget`: no answer, so some peers are asked to ping the target. -/
def probeIndirectly (session : Session) (target : NodeInfo) : Session :=
  match session.node.swim.randomPeers session.node.config.indirectProbeCount [target.nodeId]
      (session.shuffles.headD id) with
  | none => session -- the negative count throws, and nothing catches it
  | some proxies =>
    let (gotAck, session) := probeVia target proxies { session with shuffles := session.shuffles.tail }
    if gotAck then session else (session.act (.suspect target.nodeId session.now) rfl).laterOn

def pingTarget (session : Session) (target : NodeInfo) : Session :=
  let (ping, session) := session.buildPing target.nodeId
  let (resp, session) := session.sendFn target.host target.port ping
  if resp ≠ [] then (session.handleAck target resp).2 else session.probeIndirectly target

def expireSuspects (session : Session) : Session :=
  let timeout := session.node.config.protocolPeriod * session.node.config.suspicionMult
  (session.act (.expireSuspects timeout session.now) rfl).laterOn

/-- The resurrection probe of `tick`. -/
def probeNextDead (session : Session) : Session :=
  let dead := session.node.swim.deadPeers
  if session.node.tickCount % kDeadProbeEveryTicks = 0 then
    match dead[(session.node.tickCount / kDeadProbeEveryTicks).toNat % dead.length]? with
    | none => session
    | some target => session.probeDead target
  else session

/-- The last part of `tick`. -/
def pingNext (session : Session) : Session :=
  let peers := session.node.swim.alivePeers
  match peers[session.node.idx.toNat % peers.length]? with
  | none => session
  | some target => { session with node := { session.node with idx := session.node.idx + 1 } }.pingTarget target

/-- A node that has retired only counts. -/
def tick (session : Session) : Session :=
  let session := { session with node := { session.node with tickCount := session.node.tickCount + 1 } }
  if session.node.swim.hasLeft then session else session.expireSuspects.probeNextDead.pingNext

/-- The membership a join is acked with: the node itself and all it holds alive. -/
def joinEvents (node : GossipNode) : List MemberEvent :=
  ⟨.alive, node.swim.self.nodeId, node.swim.self.host, node.swim.self.port, node.swim.incarnation⟩ ::
    node.swim.allMembers.map
      (fun m => ⟨.alive, m.info.nodeId, m.info.host, m.info.port, m.incarnation⟩)

/-- The case `SWIM_JOIN` of `handleMessage`. -/
def handleJoin (session : Session) (f : List Bytes) : Option Message × Session :=
  let senderId := field f 1
  if checked : isValidNodeId senderId = true then
    let port := ((stoi (field f 3)).map UInt16.ofInt).getD 0
    let incarnation := (stoull (field f 4)).getD 0
    let session := session.applyIncomingEvents (field f 5)
    let joinEvent : MemberEvent := ⟨.join, senderId, field f 2, port, incarnation⟩
    let (eff, node) := session.node.enroll joinEvent checked
    let session := { session with node := node, heard := session.heard ++ [⟨session.node, joinEvent, true⟩] }
    match eff with
    | none => (some (.ack session.selfId senderId [{ type := .leave, nodeId := senderId }] none), session)
    | some _ => (some (.ack session.selfId senderId (joinEvents session.node) none), session)
  else (none, session)

/-- The case `SWIM_PING_REQ` of `handleMessage`: the target is pinged for the sender. -/
def handlePingReq (session : Session) (f : List Bytes) : Option Message × Session :=
  let session := session.applyIncomingEvents (field f 4)
  let targetId := field f 2
  match session.node.swim.allMembers.find? (fun m => m.info.nodeId = targetId) with
  | none => (none, session)
  | some m =>
    let (ping, session) := session.buildPing targetId
    let (resp, session) := session.sendFn m.info.host m.info.port ping
    if resp = [] then (none, session)
    else
      let (ack, session) := session.buildAck (field f 1)
      (some ack, session)

/-- The reply, if any, and what the message leaves. -/
def handleMessage (session : Session) (payload : Bytes) : Option Message × Session :=
  let f := split payload pipe
  let type := field f 0
  if type = ascii "SWIM_PING" then
    let (ack, session) := (session.applyIncomingEvents (field f 3)).buildAck (field f 1)
    (some ack, session)
  else if type = ascii "SWIM_PING_REQ" then session.handlePingReq f
  else if type = ascii "SWIM_ACK" then (none, session.applyIncomingEvents (field f 3))
  else if type = ascii "SWIM_SYNC" then
    let session := session.applyIncomingEvents (field f 2)
    (some (.syncAck session.selfId session.node.swim.fullState), session)
  else if type = ascii "SWIM_SYNC_ACK" then (none, session.applyIncomingEvents (field f 2))
  else if type = ascii "SWIM_JOIN" then session.handleJoin f
  else (none, session)

def requestLeave (session : Session) (nodeId : Bytes) : Bool × Session :=
  match session.node.swim.stateOf nodeId with
  | none => (false, session)
  | some _ => (true, session.act (.leave nodeId) rfl)

/-- The seeds in turn, up to the first that acks. -/
def joinViaSeeds : List Bytes → Session → Session
  | [], session => session
  | seed :: rest, session =>
    let parts := split seed colon
    match parts[0]?, parts[1]?.bind stoi with
    | some host, some port =>
      let self := session.node.swim.self
      let (resp, session) := session.sendFn host (UInt16.ofInt port)
        (.join self.nodeId self.host self.port session.node.swim.incarnation)
      let f := split resp pipe
      if resp ≠ [] ∧ field f 0 = ascii "SWIM_ACK" then session.applyIncomingEvents (field f 3)
      else joinViaSeeds rest session
    | _, _ => joinViaSeeds rest session

end Session

/-- What can happen to a node. -/
inductive GossipCall where
  | joinViaSeeds (seeds : List Bytes)
  | tick
  | handleMessage (payload : Bytes)
  | requestLeave (nodeId : Bytes)

/-- One call, taken as a whole, with all that the network, the clock and the shuffling
return to it. -/
structure GossipTurn where
  call : GossipCall
  answers : List Bytes := []
  times : List Int := []
  shuffles : List (List NodeInfo → List NodeInfo) := []

namespace Session

def begin (node : GossipNode) : Session := ⟨node, [], [], [], [], []⟩

/-- The reply to a message, if there is one, goes out. -/
def answered (result : Option Message × Session) : Session :=
  match result.1 with
  | none => result.2
  | some message => result.2.post none message

def serve (session : Session) : GossipCall → Session
  | .joinViaSeeds seeds => joinViaSeeds seeds session
  | .tick => session.tick
  | .handleMessage payload => answered (session.handleMessage payload)
  | .requestLeave nodeId => (session.requestLeave nodeId).2

def turn (session : Session) (turn : GossipTurn) : Session :=
  { session with answers := turn.answers, times := turn.times, shuffles := turn.shuffles }.serve turn.call

def run (session : Session) (turns : List GossipTurn) : Session := turns.foldl turn session

end Session

end MiniDynamo
