import MiniDynamo.Library.Decimal
import MiniDynamo.Library.Multimap

/-! The pool of idle connections, filed by peer: what its operations do under the lock. -/

namespace MiniDynamo

/-- An idle connection, and when it was returned. -/
structure Idle where
  fd : Int
  returnedAt : Int
  deriving DecidableEq

abbrev IdleMap := Multimap Bytes Idle

/-- No peer has more idle connections than the pool keeps, and none has any once the pool is
being destroyed. -/
structure ConnectionPool where
  maxPerPeer : Nat
  idleTtl : Int
  idle : IdleMap
  stopping : Bool
  capped : ∀ key, (idle.list key).length ≤ maxPerPeer
  emptied : stopping = true → ∀ key, idle.list key = []

namespace ConnectionPool

theorem emptied_empty (key : Bytes) : Multimap.list (∅ : IdleMap) key = [] := Multimap.list_empty key

theorem capped_empty (maxPerPeer : Nat) (key : Bytes) : (Multimap.list (∅ : IdleMap) key).length ≤ maxPerPeer := by
  rw [emptied_empty]
  exact Nat.zero_le _

def start (maxPerPeer : Nat) (idleTtl : Int) : ConnectionPool :=
  ⟨if maxPerPeer = 0 then 1 else maxPerPeer, idleTtl, ∅, false, capped_empty _, fun _ => emptied_empty⟩

def keyOf (host : Bytes) (port : UInt16) : Bytes := host ++ ascii ":" ++ decimal port.toNat

section Lists

variable (pool : ConnectionPool)

def conns (key : Bytes) : List Idle := pool.idle.list key

theorem capped_shrink {idle : IdleMap} (fewer : ∀ key, (idle.list key).length ≤ (pool.conns key).length) (key : Bytes) :
    (idle.list key).length ≤ pool.maxPerPeer := (fewer key).trans (pool.capped key)

theorem emptied_shrink {idle : IdleMap} (fewer : ∀ key, (idle.list key).length ≤ (pool.conns key).length)
    (stopped : pool.stopping = true) (key : Bytes) : idle.list key = [] := by
  have none : pool.conns key = [] := pool.emptied stopped key
  have bound := fewer key
  rw [none] at bound
  exact List.eq_nil_of_length_eq_zero (Nat.le_zero.mp bound)

/-- The pool with no more idle connections under any key. -/
def shrink (idle : IdleMap) (fewer : ∀ key, (idle.list key).length ≤ (pool.conns key).length) : ConnectionPool :=
  { pool with idle, capped := pool.capped_shrink fewer, emptied := pool.emptied_shrink fewer }

theorem fewer_insert {key : Bytes} {list : List Idle} (shorter : list.length ≤ (pool.conns key).length) (other : Bytes) :
    (Multimap.list (pool.idle.insert key list) other).length ≤ (pool.conns other).length := by
  rw [Multimap.list_insert]
  split
  · rename_i same
    exact same ▸ shorter
  · exact Nat.le_refl _

theorem capped_push {key : Bytes} (entry : Idle) (room : (pool.conns key).length < pool.maxPerPeer) (other : Bytes) :
    (Multimap.list (pool.idle.insert key (pool.conns key ++ [entry])) other).length ≤ pool.maxPerPeer := by
  rw [Multimap.list_insert]
  split
  · rw [List.length_append, List.length_singleton]
    exact room
  · exact pool.capped other

theorem emptied_push {idle : IdleMap} (going : ¬ pool.stopping = true) (stopped : pool.stopping = true) (key : Bytes) :
    idle.list key = [] := absurd stopped going

/-- The pool with one more idle connection under a key that has room for it. -/
def push (key : Bytes) (entry : Idle) (going : ¬ pool.stopping = true)
    (room : (pool.conns key).length < pool.maxPerPeer) : ConnectionPool :=
  { pool with
    idle := pool.idle.insert key (pool.conns key ++ [entry])
    capped := pool.capped_push entry room
    emptied := pool.emptied_push going }

end Lists

/-- `checkout` under the lock: the most recently returned connection to the peer, or -1. -/
def reuse (pool : ConnectionPool) (host : Bytes) (port : UInt16) : Int × ConnectionPool :=
  let key := keyOf host port
  match (pool.conns key).getLast? with
  | none => (-1, pool)
  | some last =>
    (last.fd, pool.shrink (pool.idle.insert key (pool.conns key).dropLast)
      (pool.fewer_insert (List.dropLast_sublist _).length_le))

/-- `checkin` under the lock, and whether the connection is to be closed instead. -/
def putBack (pool : ConnectionPool) (host : Bytes) (port : UInt16) (fd now : Int) : Bool × ConnectionPool :=
  let key := keyOf host port
  if going : pool.stopping = true then (true, pool)
  else if full : pool.maxPerPeer ≤ (pool.conns key).length then
    (true, pool.shrink (pool.idle.insert key (pool.conns key)) (pool.fewer_insert (Nat.le_refl _)))
  else (false, pool.push key ⟨fd, now⟩ going (Nat.lt_of_not_le full))

/-! The reaper compacts each list in place: what it keeps moves to the front. -/

/-- The loop over one list, with the connections to close so far and the end of those kept. -/
def reapLoop (expired : Idle → Bool) : List Nat → List Idle → List Int → Nat → List Int × List Idle
  | [], conns, toClose, keepEnd => (toClose, conns.take keepEnd)
  | index :: rest, conns, toClose, keepEnd =>
    match conns[index]? with
    | none => reapLoop expired rest conns toClose keepEnd
    | some c =>
      if expired c then reapLoop expired rest conns (toClose ++ [c.fd]) keepEnd
      else reapLoop expired rest (conns.set keepEnd c) toClose (keepEnd + 1)

def reapPeer (expired : Idle → Bool) (conns : List Idle) (toClose : List Int) : List Int × List Idle :=
  reapLoop expired (List.range conns.length) conns toClose 0

/-- The destructor's loop over one list. -/
def clearPeer (conns : List Idle) (toClose : List Int) : List Int × List Idle := (toClose ++ conns.map Idle.fd, [])

/-- A loop over the peers, which collects connections and changes the lists. -/
def eachPeer (each : List Idle → List Int → List Int × List Idle) (idle : IdleMap) : List Int × IdleMap :=
  idle.toList.foldl (fun state entry => ((each entry.2 state.1).1, state.2.insert entry.1 (each entry.2 state.1).2))
    ([], idle)

/-- What a loop over one list does: the expired connections are collected, the others stay. -/
def Parts (expired : Idle → Bool) (each : List Idle → List Int → List Int × List Idle) : Prop :=
  ∀ conns toClose, each conns toClose =
    (toClose ++ (conns.filter expired).map Idle.fd, conns.filter (fun c => !expired c))

section Loops

variable {expired : Idle → Bool}

/-- What is kept never overtakes what is read. -/
theorem reapLoop_spec (count : Nat) {index keepEnd : Nat} {conns : List Idle} (toClose : List Int)
    (behind : keepEnd ≤ index) (total : index + count = conns.length) :
    reapLoop expired (List.range' index count) conns toClose keepEnd =
      (toClose ++ ((conns.drop index).filter expired).map Idle.fd,
        conns.take keepEnd ++ (conns.drop index).filter (fun c => !expired c)) := by
  induction count generalizing index keepEnd conns toClose with
  | zero => simp [reapLoop, List.drop_of_length_le (show conns.length ≤ index by omega)]
  | succ count ih =>
    have inside : index < conns.length := by omega
    have next : conns.drop index = conns[index] :: conns.drop (index + 1) := List.drop_eq_getElem_cons inside
    rw [List.range'_succ, reapLoop, List.getElem?_eq_getElem inside, next, List.filter_cons, List.filter_cons]
    dsimp only
    cases old : expired conns[index] with
    | true =>
      rw [ih _ (by omega) (by omega)]
      simp only [↓reduceIte, Bool.not_true, Bool.false_eq_true, List.map_cons, List.append_assoc, List.singleton_append]
    | false =>
      have room : keepEnd < conns.length := by omega
      rw [if_neg Bool.false_ne_true, ih _ (by omega) (by rw [List.length_set]; omega), List.drop_set_of_lt (by omega),
        List.take_add_one, List.getElem?_set_self room, List.take_set_of_le (Nat.le_refl _)]
      simp only [Bool.false_eq_true, ↓reduceIte, Bool.not_false, Option.toList_some, List.append_assoc,
        List.singleton_append]

theorem parts_reapPeer (expired : Idle → Bool) : Parts expired (reapPeer expired) := by
  intro conns toClose
  rw [reapPeer, List.range_eq_range', reapLoop_spec conns.length toClose (Nat.le_refl 0) (by omega)]
  simp

theorem parts_clearPeer : Parts (fun _ => true) clearPeer := by
  intro conns toClose
  simp [clearPeer]

variable {each : List Idle → List Int → List Int × List Idle}

private theorem fold_collected (parts : Parts expired each) (entries : List (Bytes × List Idle))
    (state : List Int × IdleMap) :
    (entries.foldl (fun state entry =>
      ((each entry.2 state.1).1, state.2.insert entry.1 (each entry.2 state.1).2)) state).1 =
      state.1 ++ entries.flatMap (fun entry => (entry.2.filter expired).map Idle.fd) := by
  induction entries generalizing state with
  | nil => simp
  | cons entry rest ih => rw [List.foldl_cons, ih, parts, List.flatMap_cons, List.append_assoc]

theorem conns_eachPeer (parts : Parts expired each) (idle : IdleMap) (key : Bytes) :
    Multimap.list (eachPeer each idle).2 key = (idle.list key).filter (fun c => !expired c) := by
  have spec : ∀ (state : List Int × IdleMap) (entry : Bytes × List Idle) (key : Bytes),
      Multimap.list (state.2.insert entry.1 (each entry.2 state.1).2) key =
        if entry.1 = key then entry.2.filter (fun c => !expired c) else state.2.list key := by
    intro state entry key
    rw [Multimap.list_insert, parts]
  exact Multimap.list_foldl Prod.snd spec rfl ([], idle) key

theorem collected_eachPeer (parts : Parts expired each) (idle : IdleMap) :
    (eachPeer each idle).1 = idle.toList.flatMap (fun entry => (entry.2.filter expired).map Idle.fd) := by
  rw [eachPeer, fold_collected parts, List.nil_append]

theorem fewer_eachPeer (parts : Parts expired each) (idle : IdleMap) (key : Bytes) :
    (Multimap.list (eachPeer each idle).2 key).length ≤ (idle.list key).length := by
  rw [conns_eachPeer parts]
  exact List.length_filter_le _ _

theorem capped_clear (pool : ConnectionPool) (key : Bytes) :
    (Multimap.list (eachPeer clearPeer pool.idle).2 key).length ≤ pool.maxPerPeer :=
  (fewer_eachPeer parts_clearPeer pool.idle key).trans (pool.capped key)

theorem emptied_clear (pool : ConnectionPool) (key : Bytes) :
    Multimap.list (eachPeer clearPeer pool.idle).2 key = [] := by
  rw [conns_eachPeer parts_clearPeer]
  simp

end Loops

def hasExpired (pool : ConnectionPool) (now : Int) (c : Idle) : Bool := pool.idleTtl < now - c.returnedAt

/-- `reapExpired` under the lock: the connections it takes out, to close them. -/
def reap (pool : ConnectionPool) (now : Int) : List Int × ConnectionPool :=
  let swept := eachPeer (reapPeer (pool.hasExpired now)) pool.idle
  (swept.1, pool.shrink swept.2 (fewer_eachPeer (parts_reapPeer _) pool.idle))

/-- The destructor under the lock: the connections it closes. -/
def destroy (pool : ConnectionPool) : List Int × ConnectionPool :=
  let swept := eachPeer clearPeer pool.idle
  (swept.1,
    { pool with idle := swept.2, stopping := true, capped := pool.capped_clear, emptied := fun _ => pool.emptied_clear })

/-- Two peers never share a key. -/
theorem keyOf_injective {host host' : Bytes} {port port' : UInt16} (same : keyOf host port = keyOf host' port') :
    host = host' ∧ port = port' := by
  have shape : ∀ (host : Bytes) (port : UInt16),
      (keyOf host port).splitOn 58 = host.splitOn 58 ++ [decimal port.toNat] := by
    intro host port
    have clean : (58 : UInt8) ∉ decimal port.toNat := decimal_clean (by decide)
    have whole : keyOf host port = host ++ 58 :: decimal port.toNat := by simp [keyOf, ascii]
    rw [whole, Bytes.splitOn_append_delim, List.splitOn_eq_singleton clean]
  have pieces := (shape host port).symm.trans ((congrArg (List.splitOn 58) same).trans (shape host' port'))
  obtain ⟨front, back⟩ := List.append_inj' pieces rfl
  constructor
  · have left : [58].intercalate (host.splitOn 58) = host := List.intercalate_splitOn 58
    have right : [58].intercalate (host'.splitOn 58) = host' := List.intercalate_splitOn 58
    rw [← left, ← right, front]
  · have digits := congrArg digitsValue (List.cons.inj back).1
    rw [digitsValue_decimal, digitsValue_decimal] at digits
    exact UInt16.toNat_inj.mp digits

section Effects

variable {pool next : ConnectionPool} {host : Bytes} {port : UInt16} {fd now : Int} {fds : List Int}

/-- The descriptors idle under a key. -/
def idleFds (pool : ConnectionPool) (key : Bytes) : List Int := (pool.conns key).map Idle.fd

theorem conns_shrink {idle : IdleMap} (fewer : ∀ key, (idle.list key).length ≤ (pool.conns key).length) (key : Bytes) :
    (pool.shrink idle fewer).conns key = idle.list key := rfl

/-- A descriptor that is idle for the peer, and the pool without it, or nothing at all. -/
theorem reuse_cases (taken : pool.reuse host port = (fd, next)) :
    fd = -1 ∧ next = pool ∨
      pool.idleFds (keyOf host port) = next.idleFds (keyOf host port) ++ [fd] ∧
        ∀ key ≠ keyOf host port, next.idleFds key = pool.idleFds key := by
  unfold reuse at taken
  dsimp only at taken
  split at taken
  · obtain ⟨rfl, rfl⟩ := Prod.mk.inj taken
    exact .inl ⟨rfl, rfl⟩
  · rename_i last back
    obtain ⟨rfl, rfl⟩ := Prod.mk.inj taken
    obtain ⟨front, shape⟩ := List.getLast?_eq_some_iff.mp back
    refine .inr ⟨?_, fun key different => ?_⟩
    · unfold idleFds
      rw [conns_shrink, Multimap.list_insert, if_pos rfl, shape]
      simp
    · unfold idleFds
      rw [conns_shrink, Multimap.list_insert, if_neg (Ne.symm different)]
      rfl

/-- The most recently returned connection is the one that is reused. -/
theorem reuse_last {front : List Int} (idle : pool.idleFds (keyOf host port) = front ++ [fd]) :
    ∃ next, pool.reuse host port = (fd, next) ∧ next.idleFds (keyOf host port) = front := by
  obtain ⟨kept, last, shape, rfl, single⟩ := List.map_eq_append_iff.mp idle
  obtain ⟨entry, rfl, rfl⟩ := List.map_eq_singleton_iff.mp single
  have back : (pool.conns (keyOf host port)).getLast? = some entry := by rw [shape, List.getLast?_concat]
  refine ⟨_, by simp only [reuse, back]; rfl, ?_⟩
  rw [idleFds, conns_shrink, Multimap.list_insert, if_pos rfl, shape, List.dropLast_concat]

theorem reuse_nothing (empty : pool.idleFds (keyOf host port) = []) : pool.reuse host port = (-1, pool) := by
  have back : (pool.conns (keyOf host port)).getLast? = none := by rw [List.map_eq_nil_iff.mp empty, List.getLast?_nil]
  simp only [reuse, back]

/-- A connection that is put back is idle for its peer, or the pool has what it had. -/
theorem putBack_cases {closeIt : Bool} (returned : pool.putBack host port fd now = (closeIt, next)) :
    closeIt = true ∧ (∀ key, next.idleFds key = pool.idleFds key) ∨
      closeIt = false ∧ pool.stopping = false ∧
        next.idleFds (keyOf host port) = pool.idleFds (keyOf host port) ++ [fd] ∧
        ∀ key ≠ keyOf host port, next.idleFds key = pool.idleFds key := by
  unfold putBack at returned
  dsimp only at returned
  split at returned
  · obtain ⟨rfl, rfl⟩ := Prod.mk.inj returned
    exact .inl ⟨rfl, fun key => rfl⟩
  · rename_i going
    split at returned
    · obtain ⟨rfl, rfl⟩ := Prod.mk.inj returned
      refine .inl ⟨rfl, fun key => ?_⟩
      unfold idleFds
      rw [conns_shrink, Multimap.list_insert]
      split
      · rename_i same
        rw [same]
      · rfl
    · obtain ⟨rfl, rfl⟩ := Prod.mk.inj returned
      refine .inr ⟨rfl, by simpa using going, ?_, fun key different => ?_⟩
      · unfold idleFds
        simp [conns, push, Multimap.list_insert]
      · unfold idleFds
        simp [conns, push, Multimap.list_insert, Ne.symm different]

theorem maxPerPeer_reuse : (pool.reuse host port).2.maxPerPeer = pool.maxPerPeer := by
  unfold reuse
  dsimp only
  split <;> rfl

theorem maxPerPeer_putBack : (pool.putBack host port fd now).2.maxPerPeer = pool.maxPerPeer := by
  unfold putBack
  dsimp only
  split
  · rfl
  · split <;> rfl

theorem putBack_stopped (stopped : pool.stopping = true) : pool.putBack host port fd now = (true, pool) := by
  rw [putBack, dif_pos stopped]

/-- What a sweep over the pool takes out of it. -/
structure Sweeps (pool : ConnectionPool) (expired : Idle → Bool) (fds : List Int) (next : ConnectionPool) : Prop where
  taken : fds = pool.idle.toList.flatMap (fun entry => (entry.2.filter expired).map Idle.fd)
  left : ∀ key, next.conns key = (pool.conns key).filter (fun c => !expired c)

theorem sweeps_reap (pool : ConnectionPool) (now : Int) :
    pool.Sweeps (pool.hasExpired now) (pool.reap now).1 (pool.reap now).2 :=
  ⟨collected_eachPeer (parts_reapPeer _) pool.idle, conns_eachPeer (parts_reapPeer _) pool.idle⟩

theorem sweeps_destroy (pool : ConnectionPool) : pool.Sweeps (fun _ => true) pool.destroy.1 pool.destroy.2 :=
  ⟨collected_eachPeer parts_clearPeer pool.idle, conns_eachPeer parts_clearPeer pool.idle⟩

theorem Sweeps.subset {expired : Idle → Bool} (sweeps : pool.Sweeps expired fds next) (key : Bytes) :
    next.idleFds key ⊆ pool.idleFds key := by
  intro fd member
  rw [idleFds, sweeps.left key] at member
  obtain ⟨c, kept, rfl⟩ := List.mem_map.mp member
  exact List.mem_map_of_mem (List.mem_of_mem_filter kept)

/-- A descriptor that is idle under one key at most is left there or taken, as often as it was there. -/
theorem Sweeps.count {expired : Idle → Bool} (sweeps : pool.Sweeps expired fds next) {key : Bytes}
    (only : ∀ other, fd ∈ pool.idleFds other → other = key) :
    fds.count fd + (next.idleFds key).count fd = (pool.idleFds key).count fd := by
  have taken : fds.count fd = (((pool.conns key).filter expired).map Idle.fd).count fd := by
    rw [sweeps.taken]
    refine Multimap.count_collected (fun list : List Idle => (list.filter expired).map Idle.fd) ?_ rfl
    intro other inside
    obtain ⟨c, kept, rfl⟩ := List.mem_map.mp inside
    exact only other (List.mem_map_of_mem (List.mem_of_mem_filter kept))
  rw [taken, idleFds, sweeps.left key, idleFds, ← List.count_append, ← List.map_append]
  exact ((List.filter_append_perm expired (pool.conns key)).map Idle.fd).count_eq fd

end Effects

end ConnectionPool

end MiniDynamo
