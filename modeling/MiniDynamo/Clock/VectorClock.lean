import MiniDynamo.Library.Bytes
import MiniDynamo.Library.OrderedMap
import Mathlib.Data.List.Sort
import Mathlib.Order.Basic

namespace MiniDynamo

/-- One node's contribution to a clock. The stamp is pruning metadata only. -/
structure Entry where
  counter : UInt64
  updatedMs : UInt64
  deriving DecidableEq

/-- Counters by node id. Zero is never stored, so an absent node and an explicit
zero are the same history. -/
@[ext]
structure VectorClock where
  counts : OrderedMap Bytes Entry
  nonzero : ∀ (node : Bytes) (entry : Entry), counts[node]? = some entry → entry.counter ≠ 0

/-- `VectorClock::Ordering`. -/
inductive Causality where
  | equal
  | aDominates
  | bDominates
  | concurrent
  deriving DecidableEq, Repr

/-- `(updated_ms, node id)`, the key pruning sorts by, oldest first. -/
abbrev Age := UInt64 × Bytes

def Age.order : Age → Age → Ordering := compareLex (compareOn Prod.fst) (compareOn Prod.snd)

def Age.before (left right : Age) : Prop := (Age.order left right).isLE = true

instance : DecidableRel Age.before := fun left right =>
  inferInstanceAs (Decidable ((Age.order left right).isLE = true))

instance : Std.TransCmp Age.order := inferInstanceAs (Std.TransCmp (compareLex _ _))

instance : Std.Total Age.before := ⟨fun left right => by
  cases shape : Age.order left right with
  | lt => exact .inl (by simp [Age.before, shape])
  | eq => exact .inl (by simp [Age.before, shape])
  | gt => exact .inr (by rw [Age.before, @Std.OrientedCmp.eq_swap _ Age.order, shape]; rfl)⟩

instance : IsTrans Age Age.before := ⟨fun _ _ _ first second => Std.TransCmp.isLE_trans first second⟩

namespace VectorClock

instance : DecidableEq VectorClock := fun left right =>
  decidable_of_iff (left.counts = right.counts)
    ⟨fun same => VectorClock.ext same, fun same => congrArg counts same⟩

def empty : VectorClock := ⟨∅, by simp⟩

instance : Inhabited VectorClock := ⟨empty⟩

def get (clock : VectorClock) (node : Bytes) : UInt64 :=
  match clock.counts[node]? with
  | some entry => entry.counter
  | none => 0

def erase (clock : VectorClock) (node : Bytes) : VectorClock where
  counts := clock.counts.erase node
  nonzero := by
    intro other entry found
    rw [OrderedMap.lookup_erase] at found
    split at found
    · cases found
    · exact clock.nonzero other entry found

/-- Set a counter with an explicit stamp. The source's two-argument overload
stamps the wall clock, which callers here pass in. -/
def set (clock : VectorClock) (node : Bytes) (counter updatedMs : UInt64) : VectorClock :=
  if zero : counter = 0 then clock.erase node
  else {
    counts := clock.counts.insert node ⟨counter, updatedMs⟩
    nonzero := by
      intro other entry found
      rw [OrderedMap.lookup_insert] at found
      split at found
      · cases found
        exact zero
      · exact clock.nonzero other entry found }

def size (clock : VectorClock) : Nat := clock.counts.size

/-- The entries in the order `prune` drops them. -/
def byAge (clock : VectorClock) : List Age :=
  (clock.counts.toList.map (fun entry => (entry.2.updatedMs, entry.1))).insertionSort Age.before

/-- The ids `prune` erases: the oldest, until `maxEntries` are left. -/
def dropped (clock : VectorClock) (maxEntries : Nat) : List Bytes :=
  (clock.byAge.take (clock.size - maxEntries)).map Prod.snd

def prune (clock : VectorClock) (maxEntries : Nat) : VectorClock :=
  if clock.size ≤ maxEntries then clock else (clock.dropped maxEntries).foldl erase clock

/-- Whether the first clock is ahead of the second on one of its own entries. -/
def aheadSomewhere (left right : VectorClock) : Bool :=
  left.counts.toList.any (fun entry => decide (right.get entry.1 < entry.2.counter))

/-- `compare`: one pass over each side; the second skips the ids the first saw. -/
def compare (left right : VectorClock) : Causality :=
  let aGreaterSomewhere := left.aheadSomewhere right
  let bGreaterSomewhere :=
    left.counts.toList.any (fun entry => decide (entry.2.counter < right.get entry.1)) ||
    right.counts.toList.any (fun entry => !left.counts.contains entry.1)
  match aGreaterSomewhere, bGreaterSomewhere with
  | false, false => .equal
  | true, false => .aDominates
  | false, true => .bDominates
  | true, true => .concurrent

def merge (left right : VectorClock) : VectorClock :=
  right.counts.toList.foldl
    (fun out entry => if out.get entry.1 < entry.2.counter
      then out.set entry.1 entry.2.counter entry.2.updatedMs else out) left

/-- `operator==`: the same ids with the same counters. -/
def equals (left right : VectorClock) : Bool :=
  if left.size ≠ right.size then false
  else left.counts.toList.all (fun entry =>
    match right.counts[entry.1]? with
    | none => false
    | some other => decide (other.counter = entry.2.counter))

@[simp] theorem get_empty (node : Bytes) : empty.get node = 0 := by
  simp [get, empty]

theorem get_erase (clock : VectorClock) (node other : Bytes) :
    (clock.erase node).get other = if node = other then 0 else clock.get other := by
  simp only [get, erase, OrderedMap.lookup_erase]
  by_cases same : node = other <;> simp [same]

theorem lookup_set {clock : VectorClock} {node other : Bytes} {counter updatedMs : UInt64}
    (positive : counter ≠ 0) : (clock.set node counter updatedMs).counts[other]? =
      if node = other then some ⟨counter, updatedMs⟩ else clock.counts[other]? := by
  simp [set, positive, OrderedMap.lookup_insert]

theorem lookup_set_other {clock : VectorClock} {node other : Bytes} {counter updatedMs : UInt64}
    (different : node ≠ other) : (clock.set node counter updatedMs).counts[other]? = clock.counts[other]? := by
  unfold set
  split
  · simp [erase, OrderedMap.lookup_erase, different]
  · simp [OrderedMap.lookup_insert, different]

theorem get_set (clock : VectorClock) (node other : Bytes) (counter updatedMs : UInt64) :
    (clock.set node counter updatedMs).get other = if node = other then counter else clock.get other := by
  unfold set
  split
  · rename_i zero
    rw [get_erase, zero]
  · simp only [get, OrderedMap.lookup_insert]
    by_cases same : node = other <;> simp [same]

theorem size_set_le (clock : VectorClock) (node : Bytes) (counter updatedMs : UInt64) :
    (clock.set node counter updatedMs).size ≤ clock.size + 1 := by
  unfold set size
  split
  · exact Nat.le_succ_of_le Std.ExtTreeMap.size_erase_le
  · exact Std.ExtTreeMap.size_insert_le

theorem get_of_lookup {clock : VectorClock} {node : Bytes} {entry : Entry}
    (found : clock.counts[node]? = some entry) : clock.get node = entry.counter := by
  simp [get, found]

theorem get_eq_zero_iff (clock : VectorClock) (node : Bytes) :
    clock.get node = 0 ↔ clock.counts[node]? = none := by
  unfold get
  cases found : clock.counts[node]? with
  | none => simp
  | some entry => simpa using clock.nonzero node entry found

/-- The causal order: every counter at least as far. Stamps play no part. -/
instance : Preorder VectorClock where
  le left right := ∀ node, left.get node ≤ right.get node
  le_refl _ _ := UInt64.le_refl _
  le_trans _ _ _ first second node := UInt64.le_trans (first node) (second node)

theorem le_def {left right : VectorClock} : left ≤ right ↔ ∀ node, left.get node ≤ right.get node := Iff.rfl

end VectorClock

end MiniDynamo
