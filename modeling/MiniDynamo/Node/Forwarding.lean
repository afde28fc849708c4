import Mathlib.Order.Lattice.Nat
import MiniDynamo.Library.Runs
import MiniDynamo.Node.ClientProtocol
import MiniDynamo.Ring.Walk

/-! The hops a write takes to its primary. Each node decides from its own ring; where every
ring holds the node it belongs to, each hop comes nearer to the key. -/

namespace MiniDynamo

namespace Router

variable {router : Router} {virtualNodes : Int} {hash : UInt64} {id other : Bytes}

/-- How far from the hash the node's nearest virtual node stands. -/
noncomputable def nearest (virtualNodes : Int) (hash : UInt64) (id : Bytes) : Nat :=
  sInf {far | ∃ point, StandsAt virtualNodes id point ∧ distance hash point = far}

theorem nearest_le {point : UInt64} (stands : StandsAt virtualNodes id point) :
    nearest virtualNodes hash id ≤ distance hash point :=
  Nat.sInf_le ⟨point, stands, rfl⟩

theorem exists_nearest (positive : 0 < virtualNodes) (hash : UInt64) (id : Bytes) :
    ∃ point, StandsAt virtualNodes id point ∧ distance hash point = nearest virtualNodes hash id := by
  have some : {far | ∃ point, StandsAt virtualNodes id point ∧ distance hash point = far}.Nonempty :=
    ⟨_, hash64 (vnodeKey id 0), ⟨0, by omega, rfl⟩, rfl⟩
  exact Nat.sInf_mem some

/-- The first node of a turn is nearer than every other node of the ring. -/
theorem Exact.nearest_lt (exact : router.Exact) {rest : List Bytes} (first : router.turn hash = id :: rest)
    (contained : router.Contains other) (different : id ≠ other) :
    nearest router.virtualNodes hash id < nearest router.virtualNodes hash other := by
  have positive := exact.positive (first ▸ List.mem_cons_self : id ∈ router.turn hash)
  obtain ⟨point, stands, far⟩ := exists_nearest positive hash other
  have sorted := turn_sorted router hash
  rw [turn_eq_filter] at first
  obtain ⟨⟨start, name⟩, entries, shape, hit, -⟩ := List.map_eq_cons_iff.mp first
  obtain rfl : name = id := hit
  rw [shape, List.pairwise_cons] at sorted
  have inRing : ∀ entry, entry ∈ (start, name) :: entries ↔ entry ∈ router.ring.toList := by
    intro entry
    rw [← shape, List.mem_append, List.mem_filter, List.mem_filter]
    by_cases less : entry.1 < hash <;> simp [less]
  have mine := OrderedMap.mem_entries.mp ((inRing (start, name)).mp List.mem_cons_self)
  have theirs := (exact point other).mpr ⟨contained, stands⟩
  have later : (point, other) ∈ entries := by
    rcases List.mem_cons.mp ((inRing (point, other)).mpr (OrderedMap.mem_entries.mpr theirs)) with same | later
    · exact absurd (congrArg Prod.snd same).symm different
    · exact later
  calc nearest router.virtualNodes hash name
      ≤ distance hash start := nearest_le ((exact start name).mp mine).2
    _ < distance hash point := sorted.1 (point, other) later
    _ = nearest router.virtualNodes hash other := far

/-- The primary of a key is nearer to it than any other node of an exact ring. -/
theorem Exact.primary_nearest (exact : router.Exact) {key : Bytes} {primary : NodeInfo} {rest : List NodeInfo}
    (found : router.findOwners key 1 = some (primary :: rest)) (contained : router.Contains other)
    (different : primary.nodeId ≠ other) :
    nearest router.virtualNodes (hash64 key) primary.nodeId < nearest router.virtualNodes (hash64 key) other := by
  have ids := (exact.owners_eq found).2
  rw [order, List.map_cons] at ids
  cases first : router.turn (hash64 key) with
  | nil => simp [first] at ids
  | cons head points =>
    have same : primary.nodeId = head := by
      rw [first, List.eraseDups_cons] at ids
      simpa using (List.cons.inj ids).1
    exact exact.nearest_lt (same ▸ first) contained different

end Router

/-- Which node answers at which host and port. The ring of each was built by its own calls. -/
structure Network where
  listening : Bytes → UInt16 → Option Node
  reachable : ∀ host port node, listening host port = some node → ∃ virtualNodes calls,
    node.router = Router.after virtualNodes calls

namespace Network

variable {network : Network} {payload : Bytes} {node next start : Node} {virtualNodes : Int}

/-- The node the request is forwarded to, if it is forwarded and somebody is there. -/
def hop (network : Network) (payload : Bytes) (node : Node) : Option Node :=
  match node.handleRequest payload with
  | some (.forward primary _) => network.listening primary.host primary.port
  | _ => none

theorem forward_of_hop (hopped : network.hop payload node = some next) :
    ∃ primary, node.handleRequest payload = some (.forward primary payload) ∧
      network.listening primary.host primary.port = some next := by
  unfold hop at hopped
  split at hopped
  · rename_i primary raw forwarded
    obtain ⟨rfl, -⟩ := Node.forward_of_handleRequest forwarded
    exact ⟨primary, forwarded, hopped⟩
  · cases hopped

/-- The node stands in its own ring, which holds its nodes' points and no others, and at their
addresses nobody else answers. -/
structure Grounded (network : Network) (virtualNodes : Int) (node : Node) : Prop where
  itself : node.router.Contains node.info.nodeId
  exact : node.router.Exact
  points : node.router.virtualNodes = virtualNodes
  addresses : ∀ (id : Bytes) (info : NodeInfo), node.router.nodes[id]? = some info →
    ∀ other, network.listening info.host info.port = some other → other.info.nodeId = id

theorem Grounded.descends (grounded : network.Grounded virtualNodes node)
    (hopped : network.hop payload node = some next) :
    Router.nearest virtualNodes (hash64 (Wire.field (Wire.splitAll payload) 1)) next.info.nodeId <
      Router.nearest virtualNodes (hash64 (Wire.field (Wire.splitAll payload) 1)) node.info.nodeId := by
  obtain ⟨primary, forwarded, answers⟩ := forward_of_hop hopped
  obtain ⟨-, stranger, rest, found⟩ := Node.forward_of_handleRequest forwarded
  have known := (Router.findOwners_spec found).1 primary List.mem_cons_self
  rw [grounded.addresses primary.nodeId primary known next answers, ← grounded.points]
  exact grounded.exact.primary_nearest found grounded.itself stranger

/-- The request comes to rest, and is at no node twice on its way. -/
def Arrives (network : Network) (payload : Bytes) (start : Node) : Prop :=
  (∃ count, walk (network.hop payload) start count = none) ∧
    ∀ i j first second, walk (network.hop payload) start i = some first →
      walk (network.hop payload) start j = some second → first.info.nodeId = second.info.nodeId → i = j

/-- A request arrives if every node that forwards it is grounded: each hop comes nearer to its key. -/
theorem arrives_of_grounded (network : Network) (virtualNodes : Int) (payload : Bytes) (start : Node)
    (grounded : ∀ count node, walk (network.hop payload) start count = some node →
      network.hop payload node ≠ none → network.Grounded virtualNodes node) : network.Arrives payload start := by
  have descends : ∀ count here there, walk (network.hop payload) start count = some here →
      network.hop payload here = some there →
      Router.nearest virtualNodes (hash64 (Wire.field (Wire.splitAll payload) 1)) there.info.nodeId <
        Router.nearest virtualNodes (hash64 (Wire.field (Wire.splitAll payload) 1)) here.info.nodeId :=
    fun count here there reached hopped => (grounded count here reached (by simp [hopped])).descends hopped
  refine ⟨walk_ends descends, fun i j first second one two same => ?_⟩
  rcases Nat.lt_trichotomy i j with less | equal | more
  · have falls := walk_descends descends i (j - i - 1) one (by rwa [show i + (j - i - 1) + 1 = j by omega])
    rw [same] at falls
    omega
  · exact equal
  · have falls := walk_descends descends j (i - j - 1) two (by rwa [show j + (i - j - 1) + 1 = i by omega])
    rw [same] at falls
    omega

section Pair

def infoA : NodeInfo := ⟨ascii "a", ascii "h", 1⟩

def infoB : NodeInfo := ⟨ascii "b", ascii "h", 2⟩

def member (info : NodeInfo) (calls : List Router.Call) : Node := ⟨info, .after 1 calls, ⟨3, 2, 2⟩⟩

variable (mine theirs : List Router.Call)

def pairListening (host : Bytes) (port : UInt16) : Option Node :=
  if host = infoA.host ∧ port = infoA.port then some (member infoA mine)
  else if host = infoB.host ∧ port = infoB.port then some (member infoB theirs)
  else none

theorem pairListening_cases {host : Bytes} {port : UInt16}
    (answers : pairListening mine theirs host port = some node) :
    node = member infoA mine ∨ node = member infoB theirs := by
  unfold pairListening at answers
  split at answers
  · exact .inl (Option.some.inj answers).symm
  · split at answers
    · exact .inr (Option.some.inj answers).symm
    · cases answers

theorem pair_reachable (host : Bytes) (port : UInt16) (node : Node)
    (answers : pairListening mine theirs host port = some node) :
    ∃ virtualNodes calls, node.router = Router.after virtualNodes calls := by
  rcases pairListening_cases mine theirs answers with rfl | rfl
  · exact ⟨1, mine, rfl⟩
  · exact ⟨1, theirs, rfl⟩

/-- Two nodes at one host, each with the ring its own calls have built. -/
def pair : Network := ⟨pairListening mine theirs, pair_reachable mine theirs⟩

/-- Both nodes know both. -/
def joined : List Router.Call := [.add infoA, .add infoB]

theorem pair_grounded (among : node = member infoA joined ∨ node = member infoB joined) :
    (pair joined joined).Grounded 1 node := by
  have free : Router.CollisionFree 1 (Router.added joined) := by decide +kernel
  obtain ⟨exact, points, -⟩ := Router.exact_after free (List.Subset.refl (Router.added joined))
  have ring : node.router = Router.after 1 joined := by rcases among with rfl | rfl <;> rfl
  have known : ∀ id, (Router.after 1 joined).nodes[id]? =
      if infoB.nodeId = id then some infoB else if infoA.nodeId = id then some infoA else none := by
    intro id
    simp only [Router.after, joined, List.foldl, Router.Call.apply, Router.lookup_addPhysicalNode, Router.empty]
    by_cases a : infoA.nodeId = id
    · simp [← a, infoA, infoB, ascii]
    · by_cases b : infoB.nodeId = id <;> simp [a, b]
  refine ⟨?_, ring ▸ exact, ring ▸ points, ?_⟩
  · rw [ring, Router.Contains, known]
    rcases among with rfl | rfl <;> decide
  · intro id info found other answers
    rw [ring, known] at found
    split at found
    · rename_i b
      obtain rfl := Option.some.inj found
      rw [← b, ← Option.some.inj ((rfl : _ = some (member infoB joined)).symm.trans answers)]
      rfl
    · split at found
      · rename_i a
        obtain rfl := Option.some.inj found
        rw [← a, ← Option.some.inj ((rfl : _ = some (member infoA joined)).symm.trans answers)]
        rfl
      · cases found

/-- The first node forwards a delete of `k` to the second, which coordinates it. -/
theorem arrives_of_grounded_pair :
    (∃ next, (pair joined joined).hop (ascii "DELETE|k|gw|3|2|") (member infoA joined) = some next) ∧
      (pair joined joined).Arrives (ascii "DELETE|k|gw|3|2|") (member infoA joined) := by
  constructor
  · have forwarded : (member infoA joined).handleRequest (ascii "DELETE|k|gw|3|2|") =
        some (.forward infoB (ascii "DELETE|k|gw|3|2|")) := by decide +kernel
    exact ⟨member infoB joined, by rw [hop, forwarded]; rfl⟩
  · refine arrives_of_grounded _ 1 _ _ (fun count node reached _ => pair_grounded ?_)
    cases count with
    | zero => exact .inl (Option.some.inj reached).symm
    | succ count =>
      obtain ⟨before, -, hopped⟩ := walk_succ reached
      obtain ⟨primary, -, answers⟩ := forward_of_hop hopped
      exact pairListening_cases joined joined answers

/-- The second node has been told to leave, and has taken itself off its ring. -/
def departed : List Router.Call := [.add infoB, .add infoA, .remove infoB.nodeId]

def putK : Bytes := ascii "PUT|k|dg==|gw|3|2|2|"

theorem hop_to_departed : (pair joined departed).hop putK (member infoA joined) = some (member infoB departed) := by
  have forwarded : (member infoA joined).handleRequest putK = some (.forward infoB putK) := by decide +kernel
  rw [hop, forwarded]
  rfl

theorem hop_from_departed : (pair joined departed).hop putK (member infoB departed) = some (member infoA joined) := by
  have forwarded : (member infoB departed).handleRequest putK = some (.forward infoA putK) := by decide +kernel
  rw [hop, forwarded]
  rfl

/-- A node that has left its own ring sends the request back to the node that has not heard
of it, which sends it there again. -/
theorem forwarding_circles :
    ¬ ∀ (network : Network) (host : Bytes) (port : UInt16) (start : Node) (payload : Bytes),
        network.listening host port = some start → network.Arrives payload start := by
  intro arrives
  obtain ⟨⟨count, ended⟩, -⟩ := arrives (pair joined departed) infoA.host infoA.port (member infoA joined) putK rfl
  have always : ∀ count, walk ((pair joined departed).hop putK) (member infoA joined) count ∈
      [some (member infoA joined), some (member infoB departed)] := by
    intro count
    induction count with
    | zero => exact List.mem_cons_self
    | succ count ih =>
      rcases List.mem_pair.mp ih with here | here
      · exact List.mem_pair.mpr (.inr (by rw [walk, here]; exact hop_to_departed))
      · exact List.mem_pair.mpr (.inl (by rw [walk, here]; exact hop_from_departed))
  have going := always count
  simp [ended] at going

end Pair

end Network

end MiniDynamo
