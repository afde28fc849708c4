import MiniDynamo.Gossip.Handlers
import Mathlib.Logic.Relation

/-! Every call of a gossip thread is a sequence of a few kinds of moves: it hears an event,
enrolls a joiner, changes its view on its own, or sends one of four kinds of event lists. -/

namespace MiniDynamo

/-- The operations a thread performs by itself. -/
inductive Operation.Own : Operation → Prop
  | suspect (nodeId : Bytes) (now : Int) : Own (.suspect nodeId now)
  | leave (nodeId : Bytes) : Own (.leave nodeId)
  | expireSuspects (timeout now : Int) : Own (.expireSuspects timeout now)

/-- The field of a text cut at a delimiter does not hold it. -/
theorem not_mem_field (text : Bytes) (delim : UInt8) (index : Nat) : delim ∉ field (split text delim) index := by
  rw [field, List.getD_eq_getElem?_getD]
  cases found : (split text delim)[index]? with
  | none => exact List.not_mem_nil
  | some piece => exact (Bytes.mem_splitOn (List.mem_of_getElem? found)).1

/-- A join request in the turn has a host as given. -/
def GossipTurn.JoinsFrom (joins : Bytes → Prop) (turn : GossipTurn) : Prop :=
  match turn.call with
  | .handleMessage payload =>
    field (split payload pipe) 0 = ascii "SWIM_JOIN" → joins (field (split payload pipe) 2)
  | _ => True

instance (joins : Bytes → Prop) [DecidablePred joins] : (turn : GossipTurn) → Decidable (turn.JoinsFrom joins)
  | ⟨.handleMessage payload, _, _, _⟩ =>
    inferInstanceAs
      (Decidable (field (split payload pipe) 0 = ascii "SWIM_JOIN" → joins (field (split payload pipe) 2)))
  | ⟨.joinViaSeeds _, _, _, _⟩ | ⟨.tick, _, _, _⟩ | ⟨.requestLeave _, _, _, _⟩ => isTrue trivial

theorem GossipTurn.joinsFrom_any (turn : GossipTurn) : turn.JoinsFrom (fun _ => True) := by
  unfold JoinsFrom
  split <;> simp

namespace Session

/-- One move. Bookkeeping touches neither the view nor the ring nor the logs. -/
inductive Move : Session → Session → Prop
  | book {before after : Session} (thread : after.node.toGossipThread = before.node.toGossipThread)
      (heard : after.heard = before.heard) (sent : after.sent = before.sent) : Move before after
  | ingest (session : Session) (event : MemberEvent) (now : Int) :
      Move session { session with
        node := session.node.ingest event now
        heard := session.heard ++ [⟨session.node, event, false⟩] }
  | enroll (session : Session) (event : MemberEvent) (checked : isValidNodeId event.nodeId = true) :
      Move session { session with
        node := (session.node.enroll event checked).2
        heard := session.heard ++ [⟨session.node, event, true⟩] }
  | own (session : Session) {operation : Operation} (own : operation.Own) (silent : operation.introduces = none) :
      Move session (session.act operation silent)
  | piggyback (session : Session) (address : Option (Bytes × UInt16)) (message : Message)
      (events : message.events = session.node.swim.getEventsToSend.result) :
      Move session ((session.act .getEventsToSend rfl).post address message)
  | sync (session : Session) (address : Option (Bytes × UInt16)) (message : Message)
      (events : message.events = session.node.swim.fullState) : Move session (session.post address message)
  | welcome (session : Session) (address : Option (Bytes × UInt16)) (message : Message)
      (events : message.events = joinEvents session.node) (hearing : Hearing) (asked : hearing ∈ session.heard)
      (direct : hearing.direct = true) (flag : hearing.node.swim.selfLeft = session.node.swim.selfLeft)
      (taken : (hearing.node.swim.applyDirectJoin hearing.event).result ≠ none) :
      Move session (session.post address message)
  | refuse (session : Session) (address : Option (Bytes × UInt16)) (message : Message) (id : Bytes)
      (events : message.events = [{ type := .leave, nodeId := id }]) :
      Move session (session.post address message)
  | call (session : Session) (address : Option (Bytes × UInt16)) (message : Message) (events : message.events = []) :
      Move session (session.post address message)

abbrev Moves : Session → Session → Prop := Relation.ReflTransGen Move

/-- What holds between a session and the later one if it holds over each step of the probes of a tick. -/
structure ProbeRule (keeps : Session → Session → Prop) : Prop where
  refl (session : Session) : keeps session session
  trans {first second third : Session} : keeps first second → keeps second third → keeps first third
  incoming (session : Session) (text : Bytes) (index : Nat) :
    keeps session (session.applyIncomingEvents (field (split text pipe) index))
  maybeSync (session : Session) (peer : NodeInfo) (digestField : Bytes) :
    keeps session (session.maybeSync peer digestField)
  ping (session : Session) (targetId host : Bytes) (port : UInt16) :
    keeps session ((session.buildPing targetId).2.sendFn host port (session.buildPing targetId).1).2
  pingReq (session : Session) (targetId host : Bytes) (port : UInt16) :
    keeps session ((session.buildPingReq targetId).2.sendFn host port (session.buildPingReq targetId).1).2
  shuffled (session : Session) : keeps session { session with shuffles := session.shuffles.tail }
  suspect (session : Session) (id : Bytes) : keeps session (session.act (.suspect id session.now) rfl).laterOn

namespace ProbeRule

variable {keeps : Session → Session → Prop} (rule : ProbeRule keeps)

include rule

theorem handleAck (session : Session) (peer : NodeInfo) (resp : Bytes) :
    keeps session (session.handleAck peer resp).2 := by
  unfold Session.handleAck
  split
  · exact rule.refl session
  · simp only
    split
    · exact rule.refl session
    · exact rule.trans (rule.incoming _ _ _) (rule.maybeSync _ _ _)

theorem probeDead (session : Session) (target : NodeInfo) : keeps session (session.probeDead target) :=
  rule.trans (rule.ping session _ _ _) (rule.handleAck _ _ _)

theorem probeVia (target : NodeInfo) (proxies : List NodeInfo) (session : Session) :
    keeps session (Session.probeVia target proxies session).2 := by
  induction proxies generalizing session with
  | nil => exact rule.refl session
  | cons proxy rest ih =>
    have asked := rule.trans (rule.pingReq session target.nodeId proxy.host proxy.port) (rule.handleAck _ proxy
      ((session.buildPingReq target.nodeId).2.sendFn proxy.host proxy.port
        (session.buildPingReq target.nodeId).1).1)
    rw [Session.probeVia]
    simp only
    split
    · exact asked
    · exact rule.trans asked (ih _)

theorem probeIndirectly (session : Session) (target : NodeInfo) :
    keeps session (session.probeIndirectly target) := by
  unfold Session.probeIndirectly
  split
  · exact rule.refl session
  · rename_i proxies _
    have probed := rule.trans (rule.shuffled session) (rule.probeVia target proxies _)
    simp only
    split
    · exact probed
    · exact rule.trans probed (rule.suspect _ _)

theorem pingTarget (session : Session) (target : NodeInfo) : keeps session (session.pingTarget target) := by
  have pinged := rule.ping session target.nodeId target.host target.port
  unfold Session.pingTarget
  simp only
  split
  · exact rule.trans pinged (rule.handleAck _ _ _)
  · exact rule.trans pinged (rule.probeIndirectly _ _)

theorem probeNextDead (session : Session) : keeps session session.probeNextDead := by
  unfold Session.probeNextDead
  simp only
  split
  · split
    · exact rule.refl session
    · exact rule.probeDead _ _
  · exact rule.refl session

end ProbeRule

/-- What holds between a session and the later one if it holds over each move, where the hosts of
relayed events hold no delimiter and those of joiners are as given. -/
structure Rule (joins : Bytes → Prop) (keeps : Session → Session → Prop) : Prop where
  refl (session : Session) : keeps session session
  trans {first second third : Session} : keeps first second → keeps second third → keeps first third
  book {before after : Session} (thread : after.node.toGossipThread = before.node.toGossipThread)
    (heard : after.heard = before.heard) (sent : after.sent = before.sent) : keeps before after
  ingest (session : Session) (event : MemberEvent) (now : Int) (plain : PlainHost event.host) :
    keeps session { session with
      node := session.node.ingest event now
      heard := session.heard ++ [⟨session.node, event, false⟩] }
  enroll (session : Session) (event : MemberEvent) (checked : isValidNodeId event.nodeId = true)
    (allowed : joins event.host) (whole : pipe ∉ event.host) :
    keeps session { session with
      node := (session.node.enroll event checked).2
      heard := session.heard ++ [⟨session.node, event, true⟩] }
  own (session : Session) {operation : Operation} (own : operation.Own) (silent : operation.introduces = none) :
    keeps session (session.act operation silent)
  piggyback (session : Session) (address : Option (Bytes × UInt16)) (message : Message)
    (events : message.events = session.node.swim.getEventsToSend.result) :
    keeps session ((session.act .getEventsToSend rfl).post address message)
  sync (session : Session) (address : Option (Bytes × UInt16)) (message : Message)
    (events : message.events = session.node.swim.fullState) : keeps session (session.post address message)
  welcome (session : Session) (address : Option (Bytes × UInt16)) (message : Message)
    (events : message.events = joinEvents session.node) (hearing : Hearing) (asked : hearing ∈ session.heard)
    (direct : hearing.direct = true) (flag : hearing.node.swim.selfLeft = session.node.swim.selfLeft)
    (taken : (hearing.node.swim.applyDirectJoin hearing.event).result ≠ none) :
    keeps session (session.post address message)
  refuse (session : Session) (address : Option (Bytes × UInt16)) (message : Message) (id : Bytes)
    (valid : isValidNodeId id = true) (events : message.events = [{ type := .leave, nodeId := id }]) :
    keeps session (session.post address message)
  call (session : Session) (address : Option (Bytes × UInt16)) (message : Message) (events : message.events = []) :
    keeps session (session.post address message)

theorem moves_rule : Rule (fun _ => True) Moves where
  refl _ := .refl
  trans := .trans
  book thread heard sent := .single (.book thread heard sent)
  ingest session event now _ := .single (.ingest session event now)
  enroll session event checked _ _ := .single (.enroll session event checked)
  own session _ own silent := .single (.own session own silent)
  piggyback session address message events := .single (.piggyback session address message events)
  sync session address message events := .single (.sync session address message events)
  welcome session address message events hearing asked direct flag taken :=
    .single (.welcome session address message events hearing asked direct flag taken)
  refuse session address message id _ events := .single (.refuse session address message id events)
  call session address message events := .single (.call session address message events)

namespace Rule

variable {joins : Bytes → Prop} {keeps : Session → Session → Prop} (rule : Rule joins keeps)

include rule

theorem applyIncomingEvents (session : Session) {eventsField : Bytes} (whole : pipe ∉ eventsField) :
    keeps session (session.applyIncomingEvents eventsField) := by
  have loop : ∀ (events : List MemberEvent) (times : List Int) (session : Session),
      (∀ event ∈ events, PlainHost event.host) →
      keeps session { session with
        node := session.node.applyEvents events times
        heard := session.heard ++ session.node.hearings events times } := by
    intro events
    induction events with
    | nil =>
      intro times session _
      rw [GossipNode.hearings, List.append_nil]
      exact rule.refl session
    | cons event rest ih =>
      intro times session plain
      have next := ih times.tail { session with
        node := session.node.ingest event (times.headD 0)
        heard := session.heard ++ [⟨session.node, event, false⟩] }
        (fun later member => plain later (List.mem_cons_of_mem event member))
      rw [List.append_assoc] at next
      exact rule.trans (rule.ingest session event _ (plain event List.mem_cons_self)) next
  unfold Session.applyIncomingEvents
  split
  · exact rule.refl session
  · have heard := loop (deserializeEvents eventsField) session.times session
      (fun event member => plainHost_of_deserializeEvents whole member)
    exact rule.trans heard (rule.book rfl rfl rfl)

theorem incoming (session : Session) (text : Bytes) (index : Nat) :
    keeps session (session.applyIncomingEvents (field (split text pipe) index)) :=
  rule.applyIncomingEvents session (not_mem_field text pipe index)

theorem ping (session : Session) (targetId host : Bytes) (port : UInt16) :
    keeps session ((session.buildPing targetId).2.sendFn host port (session.buildPing targetId).1).2 :=
  rule.trans (rule.piggyback session (some (host, port)) (session.buildPing targetId).1 rfl) (rule.book rfl rfl rfl)

theorem pingReq (session : Session) (targetId host : Bytes) (port : UInt16) :
    keeps session ((session.buildPingReq targetId).2.sendFn host port (session.buildPingReq targetId).1).2 :=
  rule.trans (rule.piggyback session (some (host, port)) (session.buildPingReq targetId).1 rfl) (rule.book rfl rfl rfl)

theorem performSync (session : Session) (peer : NodeInfo) : keeps session (session.performSync peer) := by
  have sent : keeps session
      (session.sendFn peer.host peer.port (.sync session.selfId session.node.swim.fullState)).2 :=
    rule.trans (rule.sync session (some (peer.host, peer.port)) _ rfl) (rule.book rfl rfl rfl)
  unfold Session.performSync
  simp only
  split
  · exact sent
  · split
    · exact sent
    · exact rule.trans sent (rule.incoming _ _ _)

theorem maybeSync (session : Session) (peer : NodeInfo) (digestField : Bytes) :
    keeps session (session.maybeSync peer digestField) := by
  have noted (state : Option MismatchState) : keeps session (session.noteMismatch peer.nodeId state) :=
    rule.book rfl rfl rfl
  unfold Session.maybeSync
  split
  · exact rule.refl session
  · split
    · exact rule.refl session
    · split
      · exact noted none
      · simp only
        split
        · exact noted _
        · split
          · exact noted _
          · exact rule.trans (noted _) (rule.performSync _ _)

theorem probes : ProbeRule keeps where
  refl := rule.refl
  trans := rule.trans
  incoming := rule.incoming
  maybeSync := rule.maybeSync
  ping := rule.ping
  pingReq := rule.pingReq
  shuffled _ := rule.book rfl rfl rfl
  suspect session _ := rule.trans (rule.own session (.suspect _ _) rfl) (rule.book rfl rfl rfl)

theorem expireSuspects (session : Session) : keeps session session.expireSuspects :=
  rule.trans (rule.own session (.expireSuspects _ _) rfl) (rule.book rfl rfl rfl)

theorem pingNext (session : Session) : keeps session session.pingNext := by
  unfold Session.pingNext
  simp only
  split
  · exact rule.refl session
  · have advanced : keeps session { session with
        node := { session.node with idx := session.node.idx + 1 } } := rule.book rfl rfl rfl
    exact rule.trans advanced (rule.probes.pingTarget _ _)

theorem tick (session : Session) : keeps session session.tick := by
  have counted : keeps session { session with
      node := { session.node with tickCount := session.node.tickCount + 1 } } := rule.book rfl rfl rfl
  unfold Session.tick
  simp only
  split
  · exact counted
  · have expired := rule.trans counted (rule.expireSuspects _)
    exact rule.trans (rule.trans expired (rule.probes.probeNextDead _)) (rule.pingNext _)

theorem buildAck (session : Session) (targetId : Bytes) :
    keeps session (answered (some (session.buildAck targetId).1, (session.buildAck targetId).2)) :=
  rule.piggyback session none (session.buildAck targetId).1 rfl

theorem handlePingReq (session : Session) (payload : Bytes) :
    keeps session (answered (session.handlePingReq (split payload pipe))) := by
  have heard := rule.incoming session payload 4
  unfold Session.handlePingReq
  simp only
  split
  · exact heard
  · rename_i m _
    have pinged := rule.trans heard (rule.ping _ (field (split payload pipe) 2) m.info.host m.info.port)
    split
    · exact pinged
    · exact rule.trans pinged (rule.buildAck _ _)

theorem handleJoin (session : Session) (payload : Bytes) (allowed : joins (field (split payload pipe) 2)) :
    keeps session (answered (session.handleJoin (split payload pipe))) := by
  unfold Session.handleJoin
  simp only
  split
  · rename_i checked
    have heard := rule.incoming session payload 5
    have enrolled := rule.trans heard (rule.enroll _ ⟨.join, field (split payload pipe) 1,
      field (split payload pipe) 2, ((stoi (field (split payload pipe) 3)).map UInt16.ofInt).getD 0,
      (stoull (field (split payload pipe) 4)).getD 0⟩ checked allowed (not_mem_field payload pipe 2))
    split
    · exact rule.trans enrolled (rule.refuse _ none _ (field (split payload pipe) 1) checked rfl)
    · rename_i eff given
      refine rule.trans enrolled
        (rule.welcome _ none _ rfl _ (List.mem_append_right _ (List.mem_singleton_self _)) rfl ?_ ?_)
      · exact (GossipNode.enroll_own _ _ checked).2.symm
      · simp [GossipNode.enroll_taken given]
  · exact rule.refl session

theorem handleMessage (session : Session) (payload : Bytes)
    (allowed : field (split payload pipe) 0 = ascii "SWIM_JOIN" → joins (field (split payload pipe) 2)) :
    keeps session (answered (session.handleMessage payload)) := by
  unfold Session.handleMessage
  simp only
  split
  · exact rule.trans (rule.incoming _ _ _) (rule.buildAck _ _)
  · split
    · exact rule.handlePingReq _ _
    · split
      · exact rule.incoming _ _ _
      · split
        · exact rule.trans (rule.incoming _ _ _) (rule.sync _ none _ rfl)
        · split
          · exact rule.incoming _ _ _
          · split
            · rename_i join
              exact rule.handleJoin _ _ (allowed join)
            · exact rule.refl session

theorem joinViaSeeds (seeds : List Bytes) (session : Session) :
    keeps session (Session.joinViaSeeds seeds session) := by
  induction seeds generalizing session with
  | nil => exact rule.refl session
  | cons seed rest ih =>
    rw [Session.joinViaSeeds]
    simp only
    split
    · rename_i host port _ _
      have sent : keeps session (session.sendFn host (UInt16.ofInt port) (.join session.node.swim.self.nodeId
          session.node.swim.self.host session.node.swim.self.port session.node.swim.incarnation)).2 :=
        rule.trans (rule.call session (some (host, UInt16.ofInt port)) _ rfl) (rule.book rfl rfl rfl)
      split
      · exact rule.trans sent (rule.incoming _ _ _)
      · exact rule.trans sent (ih _)
    · exact ih session

theorem requestLeave (session : Session) (nodeId : Bytes) : keeps session (session.requestLeave nodeId).2 := by
  unfold Session.requestLeave
  split
  · exact rule.refl session
  · exact rule.own session (.leave nodeId) rfl

theorem turn (session : Session) (turn : GossipTurn) (allowed : turn.JoinsFrom joins) :
    keeps session (session.turn turn) := by
  have begun : keeps session { session with
      answers := turn.answers, times := turn.times, shuffles := turn.shuffles } := rule.book rfl rfl rfl
  refine rule.trans begun ?_
  unfold Session.turn serve
  split
  · exact rule.joinViaSeeds _ _
  · exact rule.tick _
  · rename_i payload called
    rw [GossipTurn.JoinsFrom, called] at allowed
    exact rule.handleMessage _ _ allowed
  · exact rule.requestLeave _ _

/-- Whatever happens to a node. -/
theorem run (session : Session) {turns : List GossipTurn} (allowed : ∀ turn ∈ turns, turn.JoinsFrom joins) :
    keeps session (session.run turns) := by
  induction turns generalizing session with
  | nil => exact rule.refl session
  | cons turn rest ih =>
    exact rule.trans (rule.turn session turn (allowed turn List.mem_cons_self))
      (ih _ (fun later member => allowed later (List.mem_cons_of_mem turn member)))

end Rule

theorem run_moves (session : Session) (turns : List GossipTurn) : Moves session (session.run turns) :=
  moves_rule.run session (fun turn _ => turn.joinsFrom_any)

end Session

end MiniDynamo
