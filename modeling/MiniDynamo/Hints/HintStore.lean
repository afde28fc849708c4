import MiniDynamo.Library.Multimap
import MiniDynamo.Storage.VersionedValue

/-! The hints a node keeps for members that are away. -/

namespace MiniDynamo

/-- A write for a node that is away. The code has no serial: it tells which accepted hint this
is, also after a failed delivery has put it back. -/
structure Hint where
  targetNodeId : Bytes
  key : Bytes
  value : VersionedValue
  createdAt : Int
  serial : Nat
  deriving DecidableEq

abbrev HintMap := Multimap Bytes Hint

/-- Every hint is filed under its target, and no target has more than the store keeps. -/
structure HintStore where
  ttl : Int
  maxPerTarget : Nat
  hints : HintMap
  filed : ∀ target, ∀ hint ∈ hints.list target, hint.targetNodeId = target
  capped : ∀ target, (hints.list target).length ≤ maxPerTarget

namespace HintStore

theorem filed_empty (target : Bytes) : ∀ hint ∈ Multimap.list (∅ : HintMap) target, hint.targetNodeId = target := by
  simp [Multimap.list_empty]

theorem capped_empty (maxPerTarget : Nat) (target : Bytes) :
    (Multimap.list (∅ : HintMap) target).length ≤ maxPerTarget := by
  rw [Multimap.list_empty]
  exact Nat.zero_le _

def start (ttl : Int) (maxPerTarget : Nat) : HintStore :=
  ⟨ttl, maxPerTarget, ∅, filed_empty, capped_empty maxPerTarget⟩

section Lists

variable (store : HintStore)

def listFor (target : Bytes) : List Hint := store.hints.list target

def hintCountFor (target : Bytes) : Nat := (store.listFor target).length

variable {store}

theorem filed_less {hints : HintMap} (less : ∀ target, (hints.list target).Sublist (store.listFor target))
    (target : Bytes) : ∀ hint ∈ hints.list target, hint.targetNodeId = target :=
  fun hint member => store.filed target hint ((less target).subset member)

theorem capped_less {hints : HintMap} (less : ∀ target, (hints.list target).Sublist (store.listFor target))
    (target : Bytes) : (hints.list target).length ≤ store.maxPerTarget :=
  (less target).length_le.trans (store.capped target)

/-- The store with some of its hints. -/
def restrict (store : HintStore) (hints : HintMap)
    (less : ∀ target, (hints.list target).Sublist (store.listFor target)) : HintStore :=
  { store with hints, filed := filed_less less, capped := capped_less less }

theorem less_insert {target : Bytes} (other : Bytes) :
    (Multimap.list (store.hints.insert target (store.listFor target)) other).Sublist (store.listFor other) := by
  rw [Multimap.list_insert]
  split
  · rename_i same
    rw [same]
  · exact List.Sublist.refl _

theorem less_erase {target : Bytes} (other : Bytes) :
    (Multimap.list (store.hints.erase target) other).Sublist (store.listFor other) := by
  rw [Multimap.list_erase]
  split
  · exact List.nil_sublist _
  · exact List.Sublist.refl _

theorem filed_push {target : Bytes} {hint : Hint} (own : hint.targetNodeId = target) (other : Bytes) :
    ∀ found ∈ Multimap.list (store.hints.insert target (store.listFor target ++ [hint])) other,
      found.targetNodeId = other := by
  intro found member
  rw [Multimap.list_insert] at member
  split at member
  · rename_i same
    subst same
    rcases List.mem_append.mp member with before | last
    · exact store.filed target found before
    · rw [List.mem_singleton.mp last]
      exact own
  · exact store.filed other found member

theorem capped_push {target : Bytes} (hint : Hint) (room : ¬ store.maxPerTarget ≤ (store.listFor target).length)
    (other : Bytes) :
    (Multimap.list (store.hints.insert target (store.listFor target ++ [hint])) other).length ≤ store.maxPerTarget := by
  rw [Multimap.list_insert]
  split
  · rw [List.length_append, List.length_singleton]
    omega
  · exact store.capped other

end Lists

/-- Whether the hint was accepted, and the store after it. At the cap it is dropped. -/
def store (hints : HintStore) (targetNodeId key : Bytes) (value : VersionedValue) (now : Int) (serial : Nat) :
    Bool × HintStore :=
  if room : hints.maxPerTarget ≤ (hints.listFor targetNodeId).length then
    (false, hints.restrict (hints.hints.insert targetNodeId (hints.listFor targetNodeId)) less_insert)
  else
    (true,
      { hints with
        hints := hints.hints.insert targetNodeId
          (hints.listFor targetNodeId ++ [⟨targetNodeId, key, value, now, serial⟩])
        filed := filed_push rfl
        capped := capped_push _ room })

def drain (hints : HintStore) (targetNodeId : Bytes) : List Hint × HintStore :=
  (hints.listFor targetNodeId, hints.restrict (hints.hints.erase targetNodeId) less_erase)

def dropTarget (hints : HintStore) (targetNodeId : Bytes) : Nat × HintStore :=
  (hints.hintCountFor targetNodeId, hints.restrict (hints.hints.erase targetNodeId) less_erase)

def hasExpired (hints : HintStore) (now : Int) (hint : Hint) : Bool := hints.ttl < now - hint.createdAt

/-- One target of the loop of `expireOld`. -/
def expireTarget (expired : Hint → Bool) (hints : HintMap) (entry : Bytes × List Hint) : HintMap :=
  let list := entry.2.filter (fun hint => !expired hint)
  if list = [] then hints.erase entry.1 else hints.insert entry.1 list

theorem list_expireTarget {expired : Hint → Bool} (hints : HintMap) (entry : Bytes × List Hint) (target : Bytes) :
    Multimap.list (expireTarget expired hints entry) target =
      if entry.1 = target then entry.2.filter (fun hint => !expired hint) else hints.list target := by
  unfold expireTarget
  dsimp only
  split
  · rename_i none
    rw [Multimap.list_erase, none]
  · rw [Multimap.list_insert]

theorem list_expireOld (expired : Hint → Bool) (hints : HintMap) (target : Bytes) :
    Multimap.list (hints.toList.foldl (expireTarget expired) hints) target =
      (hints.list target).filter (fun hint => !expired hint) :=
  Multimap.list_foldl id list_expireTarget rfl hints target

theorem less_expireOld {hints : HintStore} (expired : Hint → Bool) (target : Bytes) :
    (Multimap.list (hints.hints.toList.foldl (expireTarget expired) hints.hints) target).Sublist
      (hints.listFor target) := by
  rw [list_expireOld]
  exact List.filter_sublist

def expireOld (hints : HintStore) (now : Int) : HintStore :=
  hints.restrict (hints.hints.toList.foldl (expireTarget (hints.hasExpired now)) hints.hints) (less_expireOld _)

section Effects

variable {hints : HintStore} {target other key : Bytes} {value : VersionedValue} {now : Int} {serial : Nat}

/-- A target has room for one more hint. -/
def HasRoom (hints : HintStore) (target : Bytes) : Prop := (hints.listFor target).length < hints.maxPerTarget

instance (hints : HintStore) (target : Bytes) : Decidable (hints.HasRoom target) := Nat.decLt _ _

theorem accepted_store : (hints.store target key value now serial).1 = true ↔ hints.HasRoom target := by
  unfold store HasRoom
  split
  · rename_i full
    simpa using full
  · rename_i room
    simpa using room

theorem listFor_store (other : Bytes) : (hints.store target key value now serial).2.listFor other =
    if target = other ∧ hints.HasRoom target then hints.listFor other ++ [⟨target, key, value, now, serial⟩]
    else hints.listFor other := by
  unfold store HasRoom
  split
  · rename_i full
    rw [if_neg (by omega)]
    exact (Multimap.list_insert ..).trans (by split <;> simp_all [listFor])
  · rename_i room
    refine (Multimap.list_insert ..).trans ?_
    by_cases same : target = other
    · subst same
      simp [show (hints.listFor target).length < hints.maxPerTarget by omega]
    · simp [same, listFor]

/-- A hint of the store is the one that was stored last or was there before. -/
theorem mem_store {hint : Hint} (member : hint ∈ (hints.store target key value now serial).2.listFor other) :
    hint ∈ hints.listFor other ∨
      target = other ∧ hints.HasRoom target ∧ hint = ⟨target, key, value, now, serial⟩ := by
  rw [listFor_store] at member
  split at member
  · rename_i here
    rcases List.mem_append.mp member with before | last
    · exact .inl before
    · exact .inr ⟨here.1, here.2, List.mem_singleton.mp last⟩
  · exact .inl member

theorem listFor_drain (other : Bytes) :
    (hints.drain target).2.listFor other = if target = other then [] else hints.listFor other :=
  Multimap.list_erase ..

theorem listFor_dropTarget (other : Bytes) :
    (hints.dropTarget target).2.listFor other = if target = other then [] else hints.listFor other :=
  Multimap.list_erase ..

theorem listFor_expireOld (target : Bytes) :
    (hints.expireOld now).listFor target = (hints.listFor target).filter (fun hint => !hints.hasExpired now hint) :=
  list_expireOld _ _ _

theorem drain_subset : (hints.drain target).2.listFor other ⊆ hints.listFor other := (less_erase other).subset

theorem dropTarget_subset : (hints.dropTarget target).2.listFor other ⊆ hints.listFor other :=
  (less_erase other).subset

theorem expireOld_subset : (hints.expireOld now).listFor other ⊆ hints.listFor other := (less_expireOld _ other).subset

end Effects

end HintStore

end MiniDynamo
