import MiniDynamo.Library.Contract
import Mathlib.Logic.Function.Basic

/-! Nodes that each run a pool of threads and serve each other's requests. The network may
lose, repeat, delay and reorder requests, and a thread goes on with any of the answers its
requests have had by then. -/

namespace MiniDynamo

/-- Whose request it is: the node and thread that sent it, and its position in the fan-out. -/
structure Ticket (Node : Type) where
  origin : Node
  thread : Nat
  position : Nat
  deriving DecidableEq

/-- A request on its way. -/
structure Packet (Node Request : Type) where
  ticket : Ticket Node
  request : Request
  deriving DecidableEq

/-- A call and the thread that runs it. -/
structure Started (Node Call : Type) where
  node : Node
  thread : Nat
  call : Call
  deriving DecidableEq

/-- The programs of calls and of requests, which messages are requests and for whom, which
results are answers, and what a thread may take for an answer when none came. -/
structure Protocol (Node Key Value Call Request Reply Message Result : Type) where
  call : Node → Call → Process Key Value (List (Nat × Reply)) Message Result
  serve : Ticket Node → Request → Process Key Value (List (Nat × Reply)) Message Result
  target : Request → Node
  request : Message → Option Request
  answer : Result → Option (Ticket Node × Reply)
  failed : Reply → Bool

/-- All nodes, the requests on their way, the answers given and the calls made so far. -/
structure Cluster (Node Key Value Call Request Reply Message Result : Type) [Ord Key] where
  nodes : Node → Pool Key Value (List (Nat × Reply)) Message Result
  network : List (Packet Node Request)
  answered : List (Ticket Node × Reply)
  called : List (Started Node Call)

/-- What can happen next: a client calls, a request arrives or is lost, a thread takes a
step. A request that arrived may arrive again. -/
inductive Event (Node Call Reply : Type) where
  | call (node : Node) (call : Call)
  | deliver (index : Nat)
  | lose (index : Nat)
  | run (node : Node) (thread : Nat) (replies : List (Nat × Reply))

namespace Cluster

variable {Node Key Value Call Request Reply Message Result : Type} [Ord Key] [Std.TransOrd Key] [DecidableEq Node]

/-- Nobody has called yet. -/
def start (stores : Node → OrderedMap Key Value) : Cluster Node Key Value Call Request Reply Message Result :=
  ⟨fun node => Pool.start (stores node) [], [], [], []⟩

section Access

variable (cluster : Cluster Node Key Value Call Request Reply Message Result)

omit [Std.TransOrd Key] [DecidableEq Node] in
/-- One thread of one node. -/
def thread (node : Node) (index : Nat) : Option (Thread Key Value (List (Nat × Reply)) Message Result) :=
  (cluster.nodes node).threads[index]?

omit [Std.TransOrd Key] [DecidableEq Node] in
/-- What a thread has returned, if it is over. -/
def returned (node : Node) (index : Nat) : Option Result :=
  (cluster.thread node index).bind (·.program.outcome)

/-- The copy of a key one node holds. -/
def held (node : Node) (key : Key) : Option Value := (cluster.nodes node).store[key]?

/-- The writes of one node since an earlier point. -/
def writesSince (earlier : Cluster Node Key Value Call Request Reply Message Result) (node : Node) :
    List (Overwrite Key Value) :=
  (cluster.nodes node).log.drop (earlier.nodes node).log.length

/-- The calls made since an earlier point. -/
def callsSince (earlier : Cluster Node Key Value Call Request Reply Message Result) : List (Started Node Call) :=
  cluster.called.drop earlier.called.length

/-- Start a program as the last thread of a node. -/
def spawn (node : Node) (program : Process Key Value (List (Nat × Reply)) Message Result) :
    Cluster Node Key Value Call Request Reply Message Result :=
  { cluster with
    nodes := Function.update cluster.nodes node
      { cluster.nodes node with threads := (cluster.nodes node).threads ++ [⟨program, none⟩] } }

end Access

variable (protocol : Protocol Node Key Value Call Request Reply Message Result)

/-- The requests among the messages of one fan-out. -/
def fanOut (node : Node) (thread : Nat) (sent : List Message) : List (Packet Node Request) :=
  sent.zipIdx.filterMap (fun message =>
    (protocol.request message.1).map (fun request => ⟨⟨node, thread, message.2⟩, request⟩))

/-- The answer of a thread that has just returned one. -/
def answersOf (pool : Pool Key Value (List (Nat × Reply)) Message Result) (thread : Nat) :
    List (Ticket Node × Reply) :=
  match pool.threads[thread]? with
  | some ⟨.done result, _⟩ => (protocol.answer result).toList
  | _ => []

/-- At most one reply to each request: an answer it had, or the word that none came. -/
def Receivable (cluster : Cluster Node Key Value Call Request Reply Message Result) (node : Node) (thread : Nat)
    (replies : List (Nat × Reply)) : Prop :=
  (replies.map Prod.fst).Nodup ∧ ∀ reply ∈ replies, protocol.failed reply.2 = true ∨
    (⟨node, thread, reply.1⟩, reply.2) ∈ cluster.answered

instance [DecidableEq Reply] (cluster : Cluster Node Key Value Call Request Reply Message Result) (node : Node)
    (thread : Nat) (replies : List (Nat × Reply)) : Decidable (Receivable protocol cluster node thread replies) :=
  inferInstanceAs (Decidable (_ ∧ _))

/-- A node whose thread has taken a step that sent these messages. -/
def advance (cluster : Cluster Node Key Value Call Request Reply Message Result) (node : Node) (thread : Nat)
    (pool : Pool Key Value (List (Nat × Reply)) Message Result) (sent : List Message) :
    Cluster Node Key Value Call Request Reply Message Result :=
  { cluster with
    nodes := Function.update cluster.nodes node pool
    network := cluster.network ++ fanOut protocol node thread sent
    answered := cluster.answered ++ answersOf protocol pool thread }

variable [DecidableEq Reply]

def step (cluster : Cluster Node Key Value Call Request Reply Message Result) :
    Event Node Call Reply → Option (Cluster Node Key Value Call Request Reply Message Result)
  | .call node call =>
    some { cluster.spawn node (protocol.call node call) with
      called := cluster.called ++ [⟨node, (cluster.nodes node).threads.length, call⟩] }
  | .deliver index =>
    cluster.network[index]?.map (fun packet =>
      cluster.spawn (protocol.target packet.request) (protocol.serve packet.ticket packet.request))
  | .lose index => some { cluster with network := cluster.network.eraseIdx index }
  | .run node thread replies =>
    if Receivable protocol cluster node thread replies then
      ((cluster.nodes node).step thread replies).map (fun stepped =>
        advance protocol cluster node thread stepped.1 stepped.2)
    else none

def run (cluster : Cluster Node Key Value Call Request Reply Message Result) :
    List (Event Node Call Reply) → Option (Cluster Node Key Value Call Request Reply Message Result)
  | [] => some cluster
  | event :: rest => (step protocol cluster event).bind (fun next => next.run rest)

variable {protocol} {cluster next final : Cluster Node Key Value Call Request Reply Message Result}

/-- Everything one event can do. -/
theorem step_cases {event : Event Node Call Reply} (stepped : step protocol cluster event = some next) :
    (∃ node call, event = .call node call ∧
      next = { cluster.spawn node (protocol.call node call) with
        called := cluster.called ++ [⟨node, (cluster.nodes node).threads.length, call⟩] }) ∨
    (∃ packet ∈ cluster.network,
      next = cluster.spawn (protocol.target packet.request) (protocol.serve packet.ticket packet.request)) ∨
    (∃ index, next = { cluster with network := cluster.network.eraseIdx index }) ∨
    (∃ node thread replies pool sent, event = .run node thread replies ∧
      Receivable protocol cluster node thread replies ∧
      (cluster.nodes node).step thread replies = some (pool, sent) ∧
      next = advance protocol cluster node thread pool sent) := by
  cases event with
  | call node call => exact .inl ⟨node, call, rfl, (Option.some.inj stepped).symm⟩
  | deliver index =>
    obtain ⟨packet, found, rfl⟩ := Option.map_eq_some_iff.mp stepped
    exact .inr (.inl ⟨packet, List.mem_of_getElem? found, rfl⟩)
  | lose index => exact .inr (.inr (.inl ⟨index, (Option.some.inj stepped).symm⟩))
  | run node thread replies =>
    rw [step] at stepped
    split at stepped
    · rename_i receivable
      obtain ⟨⟨pool, sent⟩, moved, rfl⟩ := Option.map_eq_some_iff.mp stepped
      exact .inr (.inr (.inr ⟨node, thread, replies, pool, sent, rfl, receivable, moved, rfl⟩))
    · cases stepped

theorem receivable_of_step {node : Node} {thread : Nat} {replies : List (Nat × Reply)}
    (stepped : step protocol cluster (.run node thread replies) = some next) :
    Receivable protocol cluster node thread replies := by
  rw [step] at stepped
  split at stepped
  · assumption
  · cases stepped

end Cluster

end MiniDynamo
