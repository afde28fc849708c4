import MiniDynamo.Gateway.JavaText
import MiniDynamo.Ring.Disruption

/-! The gateway's copy of the ring: its hash, how it is built from a list of nodes, and its walk
around it. -/

namespace MiniDynamo.Gateway

open Utf16

structure RingNode where
  id : Utf16
  host : Utf16
  port : Int
  deriving DecidableEq

/-- `>>>` on a `long`. -/
def unsignedShift (value : Int64) (count : UInt64) : Int64 := (value.toUInt64 >>> count).toInt64

def HashUtil.hash64 (s : Utf16) : Int64 :=
  let h := (utf8 s).foldl (fun h byte => (h ^^^ (byte.toInt8.toInt64 &&& 0xff)) * 1099511628211) 1469598103934665603
  let h := (h ^^^ unsignedShift h 33) * 0xff51afd7ed558ccd
  let h := (h ^^^ unsignedShift h 33) * 0xc4ceb9fe1a85ec53
  h ^^^ unsignedShift h 33

/-- `Long.compareUnsigned`. -/
def compareUnsigned (left right : Int64) : Ordering := compare left.toUInt64 right.toUInt64

instance : Std.TransCmp compareUnsigned where
  eq_swap := Std.OrientedOrd.eq_swap
  isLE_trans := Std.TransOrd.isLE_trans

instance : Std.LawfulEqCmp compareUnsigned where
  compare_self := Std.ReflOrd.compare_self
  eq_of_compare same := by
    have bits := congrArg UInt64.toInt64 (Std.LawfulEqOrd.eq_of_compare same)
    simpa using bits

/-- The `TreeMap` of the ring. -/
abbrev LongMap := Std.ExtTreeMap Int64 RingNode compareUnsigned

def countPhysicals (ring : LongMap) : Nat := (ring.toList.map (·.2.id)).eraseDups.length

structure Snapshot where
  ring : LongMap
  physicalCount : Nat

def Snapshot.of (ring : LongMap) : Snapshot := ⟨ring, countPhysicals ring⟩

def putVNodes (virtualNodes : Int) (ring : LongMap) (node : RingNode) : LongMap :=
  (List.range virtualNodes.toNat).foldl
    (fun ring (i : Nat) => ring.insert (HashUtil.hash64 (node.id ++ text "#vn" ++ toText i)) node) ring

def rebuild (virtualNodes : Int) (nodes : List RingNode) : Snapshot :=
  .of (nodes.foldl (putVNodes virtualNodes) ∅)

/-- The nodes met on one turn, from `ceilingEntry` of the hash and over `higherKey` past the end. -/
def Snapshot.turn (snapshot : Snapshot) (h : Int64) : List RingNode :=
  (snapshot.ring.toList.dropWhile (fun entry => (compareUnsigned entry.1 h).isLT) ++
    snapshot.ring.toList.takeWhile (fun entry => (compareUnsigned entry.1 h).isLT)).map Prod.snd

/-- The loop of `ownersFor` over the points of one turn; the next one would add nothing. -/
def gather (physicalCount : Nat) (n : Int) : List RingNode → List RingNode → Option (List RingNode)
  | [], _ => none
  | node :: rest, owners =>
    let owners := if node ∈ owners then owners else owners ++ [node]
    if owners.length = physicalCount then some owners
    else if owners.length < n then gather physicalCount n rest owners
    else some owners

def Snapshot.ownersFor (snapshot : Snapshot) (key : Utf16) (n : Int) : Option (List RingNode) :=
  let n := if n ≤ 0 then 1 else n
  if snapshot.ring.isEmpty then some []
  else gather snapshot.physicalCount n (snapshot.turn (HashUtil.hash64 key)) []

/-- The gateway's hash is the cluster's, bit for bit. -/
theorem toUInt64_hash64 (s : Utf16) : (HashUtil.hash64 s).toUInt64 = hash64 (utf8 s) := by
  have byteValue : ∀ byte : UInt8, (byte.toInt8.toInt64 &&& 0xff).toUInt64 = byte.toUInt64 := by
    rintro ⟨⟨byte⟩⟩
    revert byte
    decide +kernel
  have fold : ∀ (bytes : Bytes) (h : Int64),
      (bytes.foldl (fun h byte => (h ^^^ (byte.toInt8.toInt64 &&& 0xff)) * 1099511628211) h).toUInt64 =
        bytes.foldl (fun h byte => (h ^^^ byte.toUInt64) * 1099511628211) h.toUInt64 := by
    intro bytes
    induction bytes with
    | nil => exact fun _ => rfl
    | cons byte rest ih =>
      intro h
      rw [List.foldl_cons, List.foldl_cons, ih, Int64.toUInt64_mul, Int64.toUInt64_xor, byteValue]
      rfl
  simp only [HashUtil.hash64, hash64, unsignedShift, Int64.toUInt64_mul, Int64.toUInt64_xor, UInt64.toUInt64_toInt64,
    fold]
  rfl

/-- The two maps have the same nodes at the same points. -/
def Alike (ring : LongMap) (points : OrderedMap UInt64 Bytes) : Prop :=
  ∀ key : Int64, ring[key]?.map (fun node => utf8 node.id) = points[key.toUInt64]?

section Alike

variable {ring : LongMap} {points : OrderedMap UInt64 Bytes} {node : RingNode}

theorem Alike.insert (alike : Alike ring points) (key : Int64) (node : RingNode) :
    Alike (ring.insert key node) (points.insert key.toUInt64 (utf8 node.id)) := by
  intro other
  rw [Std.ExtTreeMap.getElem?_insert, Std.ExtTreeMap.getElem?_insert]
  rw [show compareUnsigned key other = compare key.toUInt64 other.toUInt64 from rfl]
  split
  · rfl
  · exact alike other

theorem utf8_vnode (id : Utf16) (i : Nat) :
    utf8 (id ++ text "#vn" ++ toText i) = Router.vnodeKey (utf8 id) i := by
  have sign : ∀ byte ∈ ascii "#vn", byte.toNat < 0x80 := by decide +kernel
  rw [toText_nonneg, utf8_append_widen _ (fun byte member => decimal_ascii member), text, utf8_append_widen _ sign]
  rfl

theorem Alike.putVNodes (alike : Alike ring points) (virtualNodes : Int) (node : RingNode) :
    Alike (putVNodes virtualNodes ring node) (Router.insertVNodes (utf8 node.id) points virtualNodes.toNat) := by
  unfold Gateway.putVNodes Router.insertVNodes
  induction List.range virtualNodes.toNat generalizing ring points with
  | nil => exact alike
  | cons i rest ih =>
    rw [List.foldl_cons, List.foldl_cons]
    refine ih ?_
    have inserted := alike.insert (HashUtil.hash64 (node.id ++ text "#vn" ++ toText i)) node
    rwa [toUInt64_hash64, utf8_vnode] at inserted

theorem Alike.mem_iff (alike : Alike ring points) (point : UInt64) (id : Bytes) :
    (point, id) ∈ ring.toList.map (fun entry => (entry.1.toUInt64, utf8 entry.2.id)) ↔ (point, id) ∈ points.toList := by
  rw [OrderedMap.mem_entries, List.mem_map]
  constructor
  · rintro ⟨⟨key, node⟩, member, same⟩
    obtain ⟨rfl, rfl⟩ := Prod.mk.inj same
    rw [← alike key, Std.ExtTreeMap.mem_toList_iff_getElem?_eq_some.mp member]
    rfl
  · intro found
    have there := alike point.toInt64
    rw [UInt64.toUInt64_toInt64, found, Option.map_eq_some_iff] at there
    obtain ⟨node, present, rfl⟩ := there
    exact ⟨(point.toInt64, node), Std.ExtTreeMap.mem_toList_iff_getElem?_eq_some.mpr present, by simp⟩

/-- Both are walked in the same order. -/
theorem Alike.entries (alike : Alike ring points) :
    ring.toList.map (fun entry => (entry.1.toUInt64, utf8 entry.2.id)) = points.toList := by
  let below : UInt64 × Bytes → UInt64 × Bytes → Prop := fun first second => first.1 < second.1
  have irrefl : Std.Irrefl below := ⟨fun _ => UInt64.lt_irrefl _⟩
  have antisymm : Std.Antisymm below := ⟨fun _ _ less more => absurd (UInt64.lt_trans less more) (UInt64.lt_irrefl _)⟩
  refine List.Pairwise.eq_of_mem_iff (r := below) ?_ ?_ (fun entry => alike.mem_iff entry.1 entry.2)
  · have ordered := Std.ExtTreeMap.ordered_keys_toList (t := ring)
    exact List.pairwise_map.mpr (ordered.imp (fun less => Std.compare_eq_lt.mp less))
  · exact Std.ExtTreeMap.ordered_keys_toList.imp (fun less => Std.compare_eq_lt.mp less)

theorem Alike.turn {router : Router} (alike : Alike ring router.ring) (h : Int64) :
    ((Snapshot.of ring).turn h).map (fun node => utf8 node.id) = router.turn h.toUInt64 := by
  have test : ∀ entry : Int64 × RingNode,
      (compareUnsigned entry.1 h).isLT = decide (entry.1.toUInt64 < h.toUInt64) := by
    intro entry
    rw [Bool.eq_iff_iff, Ordering.isLT_iff_eq_lt, decide_eq_true_iff]
    exact Std.compare_eq_lt
  rw [Router.turn, ← alike.entries, List.dropWhile_map, List.takeWhile_map]
  simp only [Snapshot.turn, Snapshot.of, test, List.map_append, List.map_map, Function.comp_def]

end Alike

section Walk

/-- The walk of `ownersFor` ends with the first distinct nodes of the turn. -/
theorem gather_eq {physicalCount count : Nat} {points owners : List RingNode}
    (size : (owners ++ unseen owners points).length = physicalCount) (room : owners.length < count)
    (missing : owners.length < physicalCount) :
    gather physicalCount count points owners = some ((owners ++ unseen owners points).take count) := by
  induction points generalizing owners with
  | nil =>
    rw [unseen_eq_nil (by simp), List.append_nil] at size
    omega
  | cons node rest ih =>
    rw [gather]
    by_cases seen : node ∈ owners
    · rw [unseen_cons_seen seen] at size ⊢
      simp only [seen, ↓reduceIte]
      rw [if_neg (by omega), if_pos (by omega)]
      exact ih size room missing
    · have moved : owners ++ unseen owners (node :: rest) = (owners ++ [node]) ++ unseen (owners ++ [node]) rest := by
        have order : unseen (node :: owners) rest = unseen (owners ++ [node]) rest :=
          unseen_congr (fun other => by simp [or_comm])
        rw [unseen_cons_fresh seen, order, List.append_assoc, List.singleton_append]
      have length : (owners ++ [node]).length = owners.length + 1 := by simp
      rw [moved] at size ⊢
      simp only [seen, ↓reduceIte, length]
      by_cases full : owners.length + 1 = physicalCount
      · have rest : unseen (owners ++ [node]) rest = [] := by
          rw [List.length_append, length] at size
          exact List.length_eq_zero_iff.mp (by omega)
        rw [if_pos full, rest, List.append_nil, List.take_of_length_le (by omega)]
      · rw [if_neg full]
        by_cases more : owners.length + 1 < count
        · rw [if_pos (by omega)]
          exact ih size (by omega) (by omega)
        · have enough : (owners ++ [node]).length = count := by omega
          rw [if_neg (by omega), ← enough, List.take_left]

end Walk

theorem mem_turn {snapshot : Snapshot} {h : Int64} {node : RingNode} :
    node ∈ snapshot.turn h ↔ node ∈ snapshot.ring.toList.map Prod.snd := by
  conv_rhs =>
    rw [← List.takeWhile_append_dropWhile (p := fun entry => (compareUnsigned entry.1 h).isLT)
      (l := snapshot.ring.toList)]
  rw [Snapshot.turn, List.map_append, List.map_append, List.mem_append, List.mem_append, or_comm]

/-- A gateway whose ring has the cluster's points names the cluster's owners. -/
theorem Alike.ownersFor {ring : LongMap} {router : Router} (alike : Alike ring router.ring) (exact : router.Exact)
    (faithful : ∀ first ∈ ring.toList.map Prod.snd, ∀ second ∈ ring.toList.map Prod.snd,
      utf8 first.id = utf8 second.id → first = second) (key : Utf16) (n : Int) :
    ∃ owners nodes, router.findOwners (utf8 key) n = some owners ∧ (Snapshot.of ring).ownersFor key n = some nodes ∧
      nodes.map (fun node => utf8 node.id) = owners.map NodeInfo.nodeId := by
  have found := exact.findOwners_eq (utf8 key) n
  have ids := (exact.owners_eq found).2
  refine ⟨_, ((Snapshot.of ring).turn (HashUtil.hash64 key)).eraseDups.take (max n 1).toNat, found, ?_, ?_⟩
  · unfold Snapshot.ownersFor
    have asked : (if n ≤ 0 then 1 else n) = ((max n 1).toNat : Int) := by omega
    simp only [asked]
    split
    · rename_i bare
      have none : ring.toList = [] := List.isEmpty_iff.mp (Std.ExtTreeMap.isEmpty_toList.trans bare)
      simp [Snapshot.turn, Snapshot.of, none]
    · rename_i some
      have count : countPhysicals ring = ((Snapshot.of ring).turn (HashUtil.hash64 key)).eraseDups.length := by
        have names : ring.toList.map (·.2.id) = (ring.toList.map Prod.snd).map RingNode.id := by simp
        rw [countPhysicals, names, eraseDups_map RingNode.id _ (fun first one second two same =>
          faithful first one second two (by rw [same])), List.length_map]
        exact length_eraseDups_congr (fun node => (@mem_turn (.of ring) _ node).symm)
      have present : 0 < countPhysicals ring := by
        refine Nat.pos_of_ne_zero (fun zero => some ?_)
        have none : ring.toList = [] := by
          refine List.eq_nil_iff_forall_not_mem.mpr (fun entry member => ?_)
          have counted := List.mem_eraseDups.mpr (List.mem_map_of_mem (f := fun entry => entry.2.id) member)
          rw [List.length_eq_zero_iff.mp zero] at counted
          cases counted
        rw [Snapshot.of, ← Std.ExtTreeMap.isEmpty_toList, none]
        rfl
      rw [← unseen_nil]
      refine gather_eq ?_ (by simp only [List.length_nil]; omega) present
      rw [List.nil_append, unseen_nil]
      exact count.symm
  · rw [ids, Router.order, ← toUInt64_hash64, ← alike.turn, eraseDups_map, List.map_take]
    exact fun first one second two => faithful first (mem_turn.mp one) second (mem_turn.mp two)

end MiniDynamo.Gateway
