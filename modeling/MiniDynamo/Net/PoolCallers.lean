import MiniDynamo.Library.Handles
import MiniDynamo.Net.ConnectionPool

/-! Threads that share a connection pool. What an operation does under the lock is one step; a
connect and each close outside it are steps of their own. -/

namespace MiniDynamo

/-- Who a connection leads to. -/
abbrev Peer := Bytes × UInt16

/-- A thread: the connections it has checked out, a connect that is under way, and the
descriptors it is about to close. -/
structure Caller where
  held : List (Int × Peer)
  connecting : Option Peer
  closing : List Int

namespace Caller

def fds (caller : Caller) : List Int := caller.held.map Prod.fst ++ caller.closing

/-- Between two operations. -/
def Free (caller : Caller) : Prop := caller.connecting = none ∧ caller.closing = []

instance (caller : Caller) : Decidable caller.Free := inferInstanceAs (Decidable (_ ∧ _))

end Caller

/-- What a thread does next. It returns a connection it holds, by its place among them. -/
inductive PoolAction where
  | checkout (host : Bytes) (port : UInt16)
  | connected (fd : Int)
  | checkin (place : Nat) (now : Int)
  | discard (place : Nat)
  | reapExpired (now : Int)
  | close
  | destroy

structure PoolSystem where
  pool : ConnectionPool
  handles : Handles Peer
  callers : List Caller

namespace PoolSystem

open ConnectionPool

/-- So many threads around a new pool. -/
def start (maxPerPeer : Nat) (idleTtl : Int) (callers : Nat) : PoolSystem :=
  ⟨.start maxPerPeer idleTtl, .empty, List.replicate callers ⟨[], none, []⟩⟩

/-- One thread changes, and the pool or the open connections with it. -/
def put (system : PoolSystem) (index : Nat) (caller : Caller) (pool : ConnectionPool) (handles : Handles Peer) :
    PoolSystem := ⟨pool, handles, system.callers.set index caller⟩

/-- The operation a free thread begins, up to the end of its part under the lock. -/
def begin (system : PoolSystem) (index : Nat) (caller : Caller) : PoolAction → PoolSystem
  | .checkout host port =>
    let (fd, pool) := system.pool.reuse host port
    if 0 ≤ fd then system.put index { caller with held := (fd, host, port) :: caller.held } pool system.handles
    else system.put index { caller with connecting := some (host, port) } pool system.handles
  | .checkin place now =>
    match caller.held[place]? with
    | none => system
    | some (fd, host, port) =>
      if fd < 0 then system
      else
        let (closeIt, pool) := system.pool.putBack host port fd now
        let held := caller.held.eraseIdx place
        if closeIt then system.put index { caller with held, closing := [fd] } pool system.handles
        else system.put index { caller with held } pool system.handles
  | .discard place =>
    match caller.held[place]? with
    | none => system
    | some (fd, _) =>
      if fd < 0 then system
      else
        system.put index { caller with held := caller.held.eraseIdx place, closing := [fd] } system.pool system.handles
  | .reapExpired now =>
    let (toClose, pool) := system.pool.reap now
    system.put index { caller with closing := toClose } pool system.handles
  | .destroy =>
    -- the destructor closes while it holds the lock
    let (toClose, pool) := system.pool.destroy
    { system with pool, handles := toClose.foldl .close system.handles }
  | .connected _ => system
  | .close => system

/-- One step of a thread. What it cannot do now changes nothing, and the system gives a number
to a new connection only if none is open under it. -/
def step (system : PoolSystem) (turn : Nat × PoolAction) : PoolSystem :=
  match system.callers[turn.1]? with
  | none => system
  | some caller =>
    match caller.connecting, caller.closing, turn.2 with
    | none, [], action => system.begin turn.1 caller action
    | some peer, _, .connected fd =>
      if fd < 0 then system.put turn.1 { caller with connecting := none } system.pool system.handles
      else if system.handles.table fd = none then
        system.put turn.1 { caller with held := (fd, peer) :: caller.held, connecting := none } system.pool
          (system.handles.issue fd peer)
      else system
    | none, fd :: rest, .close =>
      system.put turn.1 { caller with closing := rest } system.pool (system.handles.close fd)
    | _, _, _ => system

def run (system : PoolSystem) (turns : List (Nat × PoolAction)) : PoolSystem := turns.foldl step system

/-- How often a descriptor is in the hands of the threads. -/
def hands (system : PoolSystem) (fd : Int) : Nat := (system.callers.flatMap Caller.fds).count fd

/-- Every open connection is in the hands of one thread or idle under its own peer, and nothing
else is in any hands. -/
structure Sound (system : PoolSystem) : Prop where
  consistent : system.handles.Consistent
  tidy : system.handles.stray = 0
  natural : ∀ fd serial peer, system.handles.IsOpen fd serial peer → 0 ≤ fd
  counted : ∀ fd serial peer, system.handles.IsOpen fd serial peer →
    system.hands fd + (system.pool.idleFds (keyOf peer.1 peer.2)).count fd = 1
  absent : ∀ fd, system.handles.table fd = none → system.hands fd = 0
  filed : ∀ key fd, fd ∈ system.pool.idleFds key →
    ∃ serial peer, system.handles.IsOpen fd serial peer ∧ key = keyOf peer.1 peer.2
  labelled : ∀ caller ∈ system.callers, ∀ entry ∈ caller.held, ∃ serial, system.handles.IsOpen entry.1 serial entry.2

section Steps

variable {system : PoolSystem} {index : Nat} {caller other : Caller} {pool : ConnectionPool} {fd : Int}

theorem hands_put (other : Caller) (pool : ConnectionPool) (handles : Handles Peer)
    (found : system.callers[index]? = some caller) (fd : Int) :
    (system.put index other pool handles).hands fd + caller.fds.count fd = system.hands fd + other.fds.count fd :=
  count_flatMap_set Caller.fds found other fd

@[simp]
theorem handles_put {handles : Handles Peer} : (system.put index other pool handles).handles = handles := rfl

theorem fds_count_le (found : system.callers[index]? = some caller) (fd : Int) :
    caller.fds.count fd ≤ system.hands fd := by
  have without := hands_put ⟨[], none, []⟩ system.pool system.handles found fd
  have none : (Caller.fds ⟨[], none, []⟩).count fd = 0 := rfl
  omega

theorem mem_put {one : Caller} {handles : Handles Peer} (member : one ∈ (system.put index other pool handles).callers) :
    one = other ∨ one ∈ system.callers := by
  rcases List.mem_or_eq_of_mem_set member with before | same
  · exact .inr before
  · exact .inl same

/-- What is in somebody's hands is open. -/
theorem Sound.isOpen (sound : system.Sound) (inHands : 0 < system.hands fd) :
    ∃ serial peer, system.handles.IsOpen fd serial peer := by
  cases found : system.handles.table fd with
  | none =>
    have none := sound.absent fd found
    omega
  | some serial =>
    obtain ⟨peer, here⟩ := sound.consistent.numbered fd serial found
    exact ⟨serial, peer, here⟩

theorem Sound.isOpen_of_mem (sound : system.Sound) (found : system.callers[index]? = some caller)
    (member : fd ∈ caller.fds) : ∃ serial peer, system.handles.IsOpen fd serial peer := by
  have here := List.count_pos_iff.mpr member
  have bound := fds_count_le found fd
  exact sound.isOpen (by omega)

/-- A step that moves connections between a thread and the pool. -/
theorem Sound.move (sound : system.Sound) (found : system.callers[index]? = some caller)
    (balance : ∀ fd serial peer, system.handles.IsOpen fd serial peer →
      other.fds.count fd + (pool.idleFds (keyOf peer.1 peer.2)).count fd =
        caller.fds.count fd + (system.pool.idleFds (keyOf peer.1 peer.2)).count fd)
    (known : ∀ fd ∈ other.fds, ∃ serial peer, system.handles.IsOpen fd serial peer)
    (filed : ∀ key fd, fd ∈ pool.idleFds key →
      ∃ serial peer, system.handles.IsOpen fd serial peer ∧ key = keyOf peer.1 peer.2)
    (labelled : ∀ entry ∈ other.held, ∃ serial, system.handles.IsOpen entry.1 serial entry.2) :
    (system.put index other pool system.handles).Sound where
  consistent := sound.consistent
  tidy := sound.tidy
  natural := sound.natural
  counted := by
    intro fd serial peer here
    have before := sound.counted fd serial peer here
    have moved := balance fd serial peer here
    have changed := hands_put other pool system.handles found fd
    change (system.put index other pool system.handles).hands fd + (pool.idleFds _).count fd = 1
    omega
  absent := by
    intro fd shut
    have before := sound.absent fd shut
    have changed := hands_put other pool system.handles found fd
    have none : other.fds.count fd = 0 := by
      refine List.count_eq_zero.mpr (fun member => ?_)
      obtain ⟨serial, peer, here⟩ := known fd member
      cases shut.symm.trans here.1
    omega
  filed := filed
  labelled := by
    intro one member entry held
    rcases mem_put member with rfl | before
    · exact labelled entry held
    · exact sound.labelled one before entry held

variable {host : Bytes} {port : UInt16} {now : Int} {next : ConnectionPool}

/-- A thread with as much in its hands, and the same connections idle. -/
theorem Sound.same (sound : system.Sound) (found : system.callers[index]? = some caller)
    (fds : ∀ fd, other.fds.count fd = caller.fds.count fd) (held : other.held ⊆ caller.held)
    (idle : ∀ key, next.idleFds key = system.pool.idleFds key) : (system.put index other next system.handles).Sound := by
  refine sound.move found (fun fd serial peer here => by rw [fds, idle]) (fun fd member => ?_)
    (fun key fd member => sound.filed key fd (idle key ▸ member)) ?_
  · have present := List.count_pos_iff.mpr member
    rw [fds] at present
    exact sound.isOpen_of_mem found (List.count_pos_iff.mp present)
  · exact fun entry member => sound.labelled caller (List.mem_of_getElem? found) entry (held member)

/-- Two pools that differ in one idle connection, seen at any open one. -/
theorem count_idle {more fewer : ConnectionPool} {serial : Nat} {peer : Peer}
    (live : system.handles.IsOpen fd serial peer)
    (here : more.idleFds (keyOf peer.1 peer.2) = fewer.idleFds (keyOf peer.1 peer.2) ++ [fd])
    (elsewhere : ∀ key ≠ keyOf peer.1 peer.2, more.idleFds key = fewer.idleFds key)
    {item : Int} {serial' : Nat} {peer' : Peer} (there : system.handles.IsOpen item serial' peer') :
    (more.idleFds (keyOf peer'.1 peer'.2)).count item =
      (fewer.idleFds (keyOf peer'.1 peer'.2)).count item + [fd].count item := by
  by_cases same : keyOf peer'.1 peer'.2 = keyOf peer.1 peer.2
  · rw [same, here, List.count_append]
  · have other : item ≠ fd := by
      rintro rfl
      exact same (by rw [(live.unique there).2])
    rw [elsewhere _ same]
    simp [Ne.symm other]

theorem Sound.reuse (sound : system.Sound) (found : system.callers[index]? = some caller)
    (taken : system.pool.reuse host port = (fd, next)) (some : 0 ≤ fd) :
    (system.put index { caller with held := (fd, host, port) :: caller.held } next system.handles).Sound := by
  rcases reuse_cases taken with ⟨rfl, -⟩ | ⟨here, elsewhere⟩
  · omega
  · have fds : ∀ item, (Caller.fds { caller with held := (fd, host, port) :: caller.held }).count item =
        caller.fds.count item + [fd].count item := by
      intro item
      simp only [Caller.fds, List.map_cons, List.cons_append, List.count_cons, List.count_nil]
      omega
    obtain ⟨serial, peer, live, own⟩ := sound.filed (keyOf host port) fd (by rw [here]; simp)
    obtain ⟨rfl, rfl⟩ := keyOf_injective own
    have fewer : ∀ key, next.idleFds key ⊆ system.pool.idleFds key := by
      intro key
      by_cases same : key = keyOf peer.1 peer.2
      · rw [same, here]
        exact List.subset_append_left _ _
      · rw [elsewhere key same]
        exact List.Subset.refl _
    refine sound.move found ?_ ?_ (fun key fd member => sound.filed key fd (fewer key member)) ?_
    · intro item serial' peer' there
      rw [fds, count_idle live here (fun key other => (elsewhere key other).symm) there]
      omega
    · intro item member
      rcases List.mem_append.mp member with held | closing
      · rcases List.mem_cons.mp held with rfl | before
        · exact ⟨serial, peer, live⟩
        · exact sound.isOpen_of_mem found (List.mem_append_left _ before)
      · exact sound.isOpen_of_mem found (List.mem_append_right _ closing)
    · intro entry member
      rcases List.mem_cons.mp member with rfl | before
      · exact ⟨serial, live⟩
      · exact sound.labelled caller (List.mem_of_getElem? found) entry before

section Returns

variable {place : Nat} {peer : Peer}

/-- What is left of the held connections once one is returned. -/
theorem count_eraseIdx {held : List (Int × Peer)} (returned : held[place]? = some (fd, peer)) (item : Int) :
    ((held.eraseIdx place).map Prod.fst).count item + [fd].count item = (held.map Prod.fst).count item := by
  obtain ⟨inside, value⟩ := List.getElem?_eq_some_iff.mp returned
  have perm := (List.getElem_cons_eraseIdx_perm inside).map Prod.fst
  rw [value, List.map_cons] at perm
  rw [← perm.count_eq item]
  simp only [List.count_cons, List.count_nil, Nat.zero_add]

/-- A returned connection that its thread is going to close. -/
theorem Sound.release (sound : system.Sound) (found : system.callers[index]? = some caller)
    (free : caller.Free) (returned : caller.held[place]? = some (fd, peer))
    (idle : ∀ key, next.idleFds key = system.pool.idleFds key) :
    (system.put index { caller with held := caller.held.eraseIdx place, closing := [fd] } next
      system.handles).Sound := by
  refine sound.same found (fun item => ?_) List.eraseIdx_subset idle
  rw [Caller.fds, Caller.fds, free.2, List.count_append, List.append_nil]
  exact count_eraseIdx returned item

/-- A returned connection that is idle again. -/
theorem Sound.putBack (sound : system.Sound) (found : system.callers[index]? = some caller)
    (returned : caller.held[place]? = some (fd, peer))
    (here : next.idleFds (keyOf peer.1 peer.2) = system.pool.idleFds (keyOf peer.1 peer.2) ++ [fd])
    (elsewhere : ∀ key ≠ keyOf peer.1 peer.2, next.idleFds key = system.pool.idleFds key) :
    (system.put index { caller with held := caller.held.eraseIdx place } next system.handles).Sound := by
  obtain ⟨serial, live⟩ : ∃ serial, system.handles.IsOpen fd serial peer :=
    sound.labelled caller (List.mem_of_getElem? found) _ (List.mem_of_getElem? returned)
  have fds : ∀ item, (Caller.fds { caller with held := caller.held.eraseIdx place }).count item + [fd].count item =
      caller.fds.count item := by
    intro item
    have left := count_eraseIdx returned item
    simp only [Caller.fds, List.count_append]
    omega
  refine sound.move found ?_ ?_ ?_ ?_
  · intro item serial' peer' there
    have count := fds item
    rw [count_idle live here elsewhere there]
    omega
  · intro item member
    have count := fds item
    have present := List.count_pos_iff.mpr member
    exact sound.isOpen_of_mem found (List.count_pos_iff.mp (by omega))
  · intro key item member
    by_cases same : key = keyOf peer.1 peer.2
    · rw [same, here] at member
      rcases List.mem_append.mp member with before | last
      · exact same ▸ sound.filed _ item before
      · rw [List.mem_singleton.mp last]
        exact ⟨serial, peer, live, same⟩
    · rw [elsewhere key same] at member
      exact sound.filed key item member
  · intro entry member
    exact sound.labelled caller (List.mem_of_getElem? found) entry (List.eraseIdx_subset member)

end Returns

/-- Connections taken out of the pool, to be closed. -/
theorem Sound.sweep (sound : system.Sound) (found : system.callers[index]? = some caller) (free : caller.Free)
    {expired : Idle → Bool} {fds : List Int} (sweeps : system.pool.Sweeps expired fds next) :
    (system.put index { caller with closing := fds } next system.handles).Sound := by
  have only : ∀ item serial peer, system.handles.IsOpen item serial peer →
      ∀ key, item ∈ system.pool.idleFds key → key = keyOf peer.1 peer.2 := by
    intro item serial peer live key member
    obtain ⟨serial', peer', there, rfl⟩ := sound.filed key item member
    rw [(live.unique there).2]
  refine sound.move found ?_ ?_ (fun key fd member => sound.filed key fd (sweeps.subset key member)) ?_
  · intro item serial peer live
    have moved := sweeps.count (only item serial peer live)
    rw [Caller.fds, Caller.fds, free.2, List.count_append, List.append_nil]
    dsimp only
    omega
  · intro item member
    rcases List.mem_append.mp member with held | taken
    · exact sound.isOpen_of_mem found (List.mem_append_left _ held)
    · rw [sweeps.taken] at taken
      obtain ⟨entry, present, inside⟩ := List.mem_flatMap.mp taken
      obtain ⟨c, kept, rfl⟩ := List.mem_map.mp inside
      have idle : c.fd ∈ system.pool.idleFds entry.1 := by
        rw [idleFds, conns, Multimap.list, OrderedMap.mem_entries.mp present]
        exact List.mem_map_of_mem (List.mem_of_mem_filter kept)
      obtain ⟨serial, peer, live, -⟩ := sound.filed entry.1 c.fd idle
      exact ⟨serial, peer, live⟩
  · exact sound.labelled caller (List.mem_of_getElem? found)

/-- A new connection, under a number that was free. -/
theorem Sound.connect (sound : system.Sound) (found : system.callers[index]? = some caller) {peer : Peer}
    (natural : 0 ≤ fd) (free : system.handles.table fd = none) :
    (system.put index { caller with held := (fd, peer) :: caller.held, connecting := none } system.pool
      (system.handles.issue fd peer)).Sound := by
  generalize grown : ({ caller with held := (fd, peer) :: caller.held, connecting := none } : Caller) = other
  have held : other.held = (fd, peer) :: caller.held := by rw [← grown]
  have hands : ∀ item, (system.put index other system.pool (system.handles.issue fd peer)).hands item =
      system.hands item + [fd].count item := by
    intro item
    have before := hands_put other system.pool (system.handles.issue fd peer) found item
    have fds : other.fds.count item = caller.fds.count item + [fd].count item := by
      simp only [← grown, Caller.fds, List.map_cons, List.cons_append, List.count_cons, List.count_nil]
      omega
    omega
  have unfiled : ∀ key, fd ∉ system.pool.idleFds key := by
    intro key member
    obtain ⟨serial, peer', there, -⟩ := sound.filed key fd member
    cases free.symm.trans there.1
  have opened : ∀ {item serial peer'}, (system.handles.issue fd peer).IsOpen item serial peer' ↔
      system.handles.IsOpen item serial peer' ∨ item = fd ∧ serial = system.handles.issued.length ∧ peer' = peer :=
    Handles.isOpen_issue sound.consistent free
  refine ⟨sound.consistent.issue free, sound.tidy, ?_, ?_, ?_, ?_, ?_⟩
  · intro item serial peer' there
    rcases opened.mp there with before | ⟨rfl, -⟩
    · exact sound.natural item serial peer' before
    · exact natural
  · intro item serial peer' there
    rw [hands]
    rcases opened.mp there with before | ⟨rfl, -, rfl⟩
    · have other : fd ≠ item := by
        rintro rfl
        cases free.symm.trans before.1
      rw [List.count_eq_zero.mpr (by simpa using Ne.symm other)]
      exact sound.counted item serial peer' before
    · have none := sound.absent item free
      have zero := List.count_eq_zero.mpr (unfiled (keyOf peer'.1 peer'.2))
      change _ + (system.pool.idleFds _).count item = 1
      simp [none, zero]
  · intro item shut
    rw [hands]
    rw [handles_put, Handles.table_issue] at shut
    split at shut
    · cases shut
    · rename_i different
      rw [sound.absent item shut, List.count_eq_zero.mpr (by simpa using different)]
  · intro key item member
    obtain ⟨serial, peer', there, own⟩ := sound.filed key item member
    exact ⟨serial, peer', opened.mpr (.inl there), own⟩
  · intro one member entry inside
    rcases mem_put member with rfl | before
    · rw [held] at inside
      rcases List.mem_cons.mp inside with rfl | old
      · exact ⟨system.handles.issued.length, opened.mpr (.inr ⟨rfl, rfl, rfl⟩)⟩
      · obtain ⟨serial, there⟩ := sound.labelled caller (List.mem_of_getElem? found) entry old
        exact ⟨serial, opened.mpr (.inl there)⟩
    · obtain ⟨serial, there⟩ := sound.labelled one before entry inside
      exact ⟨serial, opened.mpr (.inl there)⟩

/-- The descriptor a thread closes was in its hands only, so it is in none and idle nowhere. -/
theorem Sound.close (sound : system.Sound) (found : system.callers[index]? = some caller) {rest : List Int}
    (closing : caller.closing = fd :: rest) :
    (system.put index { caller with closing := rest } system.pool (system.handles.close fd)).Sound := by
  generalize fewer : ({ caller with closing := rest } : Caller) = other
  have hands : ∀ item, (system.put index other system.pool (system.handles.close fd)).hands item + [fd].count item =
      system.hands item := by
    intro item
    have before := hands_put other system.pool (system.handles.close fd) found item
    have fds : other.fds.count item + [fd].count item = caller.fds.count item := by
      rw [← fewer, Caller.fds, Caller.fds, closing]
      simp only [List.count_append, List.count_cons, List.count_nil]
      omega
    omega
  have member : fd ∈ caller.fds := by simp [Caller.fds, closing]
  obtain ⟨serial, peer, live⟩ := sound.isOpen_of_mem found member
  have whole := sound.counted fd serial peer live
  have mine := hands fd
  rw [List.count_singleton_self] at mine
  have unfiled : ∀ key, fd ∉ system.pool.idleFds key := by
    intro key member
    obtain ⟨serial', peer', there, rfl⟩ := sound.filed key fd member
    rw [(live.unique there).2] at member
    have present := List.count_pos_iff.mpr member
    omega
  refine ⟨sound.consistent.close fd, ?_, ?_, ?_, ?_, ?_, ?_⟩
  · rw [handles_put, Handles.stray_close (by rw [live.1]; simp)]
    exact sound.tidy
  · intro item serial' peer' there
    exact sound.natural item serial' peer' (Handles.isOpen_close.mp there).1
  · intro item serial' peer' there
    obtain ⟨before, other⟩ := Handles.isOpen_close.mp there
    have count := sound.counted item serial' peer' before
    have less := hands item
    rw [List.count_eq_zero.mpr (by simpa using other)] at less
    rw [← less] at count
    exact count
  · intro item shut
    have less := hands item
    rw [handles_put, Handles.table_close] at shut
    split at shut
    · rename_i same
      subst same
      omega
    · have none := sound.absent item shut
      omega
  · intro key item member
    obtain ⟨serial', peer', there, own⟩ := sound.filed key item member
    refine ⟨serial', peer', Handles.isOpen_close.mpr ⟨there, ?_⟩, own⟩
    rintro rfl
    exact unfiled key member
  · intro one member entry held
    have free : entry.1 ≠ fd := by
      intro same
      have present : 0 < (system.put index other system.pool (system.handles.close fd)).hands fd := by
        refine List.count_pos_iff.mpr (List.mem_flatMap.mpr ⟨one, member, ?_⟩)
        rw [← same]
        exact List.mem_append_left _ (List.mem_map_of_mem held)
      omega
    rcases mem_put member with rfl | before
    · rw [← fewer] at held
      obtain ⟨serial', there⟩ := sound.labelled caller (List.mem_of_getElem? found) entry held
      exact ⟨serial', Handles.isOpen_close.mpr ⟨there, free⟩⟩
    · obtain ⟨serial', there⟩ := sound.labelled one before entry held
      exact ⟨serial', Handles.isOpen_close.mpr ⟨there, free⟩⟩

theorem put_put {first second : Caller} {handles handles' : Handles Peer} :
    (system.put index first pool handles).put index second next handles' = system.put index second next handles' := by
  simp [put]

theorem put_self (found : system.callers[index]? = some caller) (handles : Handles Peer) :
    system.put index caller pool handles = { system with pool, handles } := by
  obtain ⟨inside, rfl⟩ := List.getElem?_eq_some_iff.mp found
  simp [put]

theorem caller_put {handles : Handles Peer} (found : system.callers[index]? = some caller) :
    (system.put index other pool handles).callers[index]? = some other :=
  List.getElem?_set_self (List.getElem?_eq_some_iff.mp found).1

/-- All the closes of a thread, one after the other. -/
theorem Sound.closes (found : system.callers[index]? = some caller) {fds : List Int} {handles : Handles Peer}
    (sound : (system.put index { caller with closing := fds } pool handles).Sound) :
    (system.put index { caller with closing := [] } pool (fds.foldl .close handles)).Sound := by
  induction fds generalizing handles with
  | nil => exact sound
  | cons fd rest ih =>
    have closed := sound.close (caller_put found) rfl
    rw [put_put] at closed
    exact ih closed

theorem Sound.destroy (sound : system.Sound) (found : system.callers[index]? = some caller) (free : caller.Free) :
    ({ system with
      pool := system.pool.destroy.2
      handles := system.pool.destroy.1.foldl .close system.handles } : PoolSystem).Sound := by
  have closed := Sound.closes found (sound.sweep found free (sweeps_destroy system.pool))
  have same : ({ caller with closing := [] } : Caller) = caller := by rw [← free.2]
  rwa [same, put_self found] at closed

theorem Sound.begin (sound : system.Sound) (found : system.callers[index]? = some caller) (free : caller.Free)
    (action : PoolAction) : (system.begin index caller action).Sound := by
  cases action with
  | checkout host port =>
    rw [PoolSystem.begin]
    cases taken : system.pool.reuse host port with
    | mk fd next =>
      dsimp only
      split
      · rename_i some
        exact sound.reuse found taken some
      · rename_i none
        rcases reuse_cases taken with ⟨-, rfl⟩ | ⟨here, -⟩
        · exact sound.same found (fun item => rfl) (List.Subset.refl _) (fun key => rfl)
        · obtain ⟨serial, peer, live, -⟩ := sound.filed (keyOf host port) fd (by rw [here]; simp)
          exact absurd (sound.natural fd serial peer live) none
  | checkin place now =>
    rw [PoolSystem.begin]
    split
    · exact sound
    · rename_i fd host port returned
      split
      · exact sound
      · cases back : system.pool.putBack host port fd now with
        | mk closeIt next =>
          dsimp only
          rcases putBack_cases back with ⟨rfl, idle⟩ | ⟨rfl, -, here, elsewhere⟩
          · exact sound.release found free returned idle
          · exact sound.putBack found returned here elsewhere
  | discard place =>
    rw [PoolSystem.begin]
    split
    · exact sound
    · rename_i fd peer returned
      split
      · exact sound
      · exact sound.release found free returned (fun key => rfl)
  | reapExpired now => exact sound.sweep found free (sweeps_reap system.pool now)
  | destroy => exact sound.destroy found free
  | connected fd => exact sound
  | close => exact sound

theorem Sound.step (sound : system.Sound) (turn : Nat × PoolAction) : (system.step turn).Sound := by
  unfold PoolSystem.step
  split
  · exact sound
  · rename_i caller found
    split
    · rename_i connecting closing
      exact sound.begin found ⟨connecting, closing⟩ turn.2
    · rename_i peer connecting closing
      split
      · exact sound.same found (fun item => rfl) (List.Subset.refl _) (fun key => rfl)
      · split
        · rename_i natural free
          exact sound.connect found (by omega) free
        · exact sound
    · rename_i closing _
      exact sound.close found closing
    · exact sound

theorem sound_start (maxPerPeer : Nat) (idleTtl : Int) (callers : Nat) : (start maxPerPeer idleTtl callers).Sound := by
  have none : ∀ fd, (start maxPerPeer idleTtl callers).hands fd = 0 := by
    intro fd
    refine List.count_eq_zero.mpr (fun member => ?_)
    obtain ⟨caller, present, inside⟩ := List.mem_flatMap.mp member
    obtain ⟨-, rfl⟩ := List.mem_replicate.mp present
    cases inside
  refine ⟨Handles.consistent_empty, rfl, ?_, ?_, fun fd _ => none fd, ?_, ?_⟩
  · rintro fd serial peer ⟨found, -⟩
    cases found
  · rintro fd serial peer ⟨found, -⟩
    cases found
  · intro key fd member
    simp [start, idleFds, conns, ConnectionPool.start, Multimap.list_empty] at member
  · intro caller member entry held
    obtain ⟨-, rfl⟩ := List.mem_replicate.mp member
    cases held

theorem Sound.run (sound : system.Sound) (turns : List (Nat × PoolAction)) : (system.run turns).Sound := by
  induction turns generalizing system with
  | nil => exact sound
  | cons turn rest ih => exact ih (sound.step turn)

end Steps

section Conservation

variable (system : PoolSystem) (serial : Nat) (fd : Int) (peer : Peer)

/-- The connection is in the hands of one thread. -/
def HeldOnce : Prop :=
  system.handles.table fd = some serial ∧ system.handles.closed.count serial = 0 ∧ system.hands fd = 1 ∧
    ∀ key, fd ∉ system.pool.idleFds key

/-- The connection is idle under its own peer. -/
def IdleOnce : Prop :=
  system.handles.table fd = some serial ∧ system.handles.closed.count serial = 0 ∧ system.hands fd = 0 ∧
    (system.pool.idleFds (keyOf peer.1 peer.2)).count fd = 1 ∧
    ∀ key ≠ keyOf peer.1 peer.2, fd ∉ system.pool.idleFds key

def ClosedOnce : Prop := system.handles.table fd ≠ some serial ∧ system.handles.closed.count serial = 1

variable {system serial fd peer}

theorem Sound.place (sound : system.Sound) (issued : system.handles.issued[serial]? = some (fd, peer)) :
    system.HeldOnce serial fd ∨ system.IdleOnce serial fd peer ∨ system.ClosedOnce serial fd := by
  have once := sound.consistent.once serial fd peer issued
  by_cases current : system.handles.table fd = some serial
  · rw [if_pos current] at once
    have live : system.handles.IsOpen fd serial peer := ⟨current, issued⟩
    have count := sound.counted fd serial peer live
    have own : ∀ key, fd ∈ system.pool.idleFds key → key = keyOf peer.1 peer.2 := by
      intro key member
      obtain ⟨serial', peer', there, rfl⟩ := sound.filed key fd member
      rw [(live.unique there).2]
    by_cases inHands : system.hands fd = 0
    · exact .inr (.inl ⟨current, once, inHands, by omega, fun key different member => different (own key member)⟩)
    · refine .inl ⟨current, once, by omega, fun key member => ?_⟩
      obtain rfl := own key member
      have present := List.count_pos_iff.mpr member
      omega
  · rw [if_neg current] at once
    exact .inr (.inr ⟨current, once⟩)

theorem maxPerPeer_begin (index : Nat) (caller : Caller) (action : PoolAction) :
    (system.begin index caller action).pool.maxPerPeer = system.pool.maxPerPeer := by
  cases action with
  | checkout host port =>
    rw [PoolSystem.begin]
    dsimp only
    split <;> exact maxPerPeer_reuse
  | checkin place now =>
    rw [PoolSystem.begin]
    split
    · rfl
    · split
      · rfl
      · dsimp only
        split <;> exact maxPerPeer_putBack
  | discard place =>
    rw [PoolSystem.begin]
    split
    · rfl
    · split <;> rfl
  | reapExpired now => rfl
  | destroy => rfl
  | connected fd => rfl
  | close => rfl

theorem maxPerPeer_run (turns : List (Nat × PoolAction)) :
    (system.run turns).pool.maxPerPeer = system.pool.maxPerPeer := by
  induction turns generalizing system with
  | nil => rfl
  | cons turn rest ih =>
    refine Eq.trans ih ?_
    unfold PoolSystem.step
    split
    · rfl
    · split
      · exact maxPerPeer_begin _ _ _
      · split
        · rfl
        · split <;> rfl
      · rfl
      · rfl

/-- A connection returned to a pool that is being destroyed is closed by the thread that returns it. -/
theorem Sound.returned_closed (sound : system.Sound) (stopped : system.pool.stopping = true) {index place : Nat}
    {caller : Caller} (found : system.callers[index]? = some caller) (free : caller.Free)
    (returned : caller.held[place]? = some (fd, peer)) (now : Int) :
    ∃ serial, system.handles.IsOpen fd serial peer ∧
      ((system.step (index, .checkin place now)).step (index, .close)).ClosedOnce serial fd := by
  obtain ⟨serial, live⟩ := sound.labelled caller (List.mem_of_getElem? found) _ (List.mem_of_getElem? returned)
  have natural : ¬ fd < 0 := Int.not_lt.mpr (sound.natural fd serial peer live)
  have first : system.step (index, .checkin place now) =
      system.put index { caller with held := caller.held.eraseIdx place, closing := [fd] } system.pool
        system.handles := by
    simp [PoolSystem.step, found, free.1, free.2, PoolSystem.begin, returned, natural, putBack_stopped stopped]
  have second : (system.step (index, .checkin place now)).step (index, .close) =
      system.put index { caller with held := caller.held.eraseIdx place, closing := [] } system.pool
        (system.handles.close fd) := by
    rw [first, PoolSystem.step, caller_put found]
    simp only [free.1, put_put]
    rfl
  have shut : (system.handles.close fd).table fd ≠ some serial := by simp [Handles.table_close]
  have once := (sound.consistent.close fd).once serial fd peer (by rw [Handles.issued_close]; exact live.2)
  rw [if_neg shut] at once
  rw [second]
  exact ⟨serial, live, shut, once⟩

end Conservation

/-- However threads interleave their calls, every connection ever opened is in the hands of one
thread, idle under its own peer, or closed once; no close hits a number that is not open; no peer
has more idle connections than the pool keeps; and once the pool is being destroyed none is idle
and what is still returned is closed. -/
theorem connections_conserved (maxPerPeer : Nat) (idleTtl : Int) (callers : Nat) (turns : List (Nat × PoolAction)) :
    let system := (start maxPerPeer idleTtl callers).run turns
    (∀ serial fd peer, system.handles.issued[serial]? = some (fd, peer) →
      system.HeldOnce serial fd ∨ system.IdleOnce serial fd peer ∨ system.ClosedOnce serial fd) ∧
    system.handles.stray = 0 ∧
    (∀ host port, (system.pool.idleFds (keyOf host port)).length ≤ if maxPerPeer = 0 then 1 else maxPerPeer) ∧
    (system.pool.stopping = true →
      (∀ key, system.pool.idleFds key = []) ∧
      ∀ index caller place fd peer now, system.callers[index]? = some caller → caller.Free →
        caller.held[place]? = some (fd, peer) → ∃ serial, system.handles.IsOpen fd serial peer ∧
          ((system.step (index, .checkin place now)).step (index, .close)).ClosedOnce serial fd) := by
  intro system
  have sound : system.Sound := (sound_start maxPerPeer idleTtl callers).run turns
  have most : system.pool.maxPerPeer = if maxPerPeer = 0 then 1 else maxPerPeer := maxPerPeer_run turns
  refine ⟨fun serial fd peer issued => sound.place issued, sound.tidy, fun host port => ?_, fun stopped => ⟨?_, ?_⟩⟩
  · rw [← most, idleFds, List.length_map]
    exact system.pool.capped (keyOf host port)
  · intro key
    rw [idleFds, conns, system.pool.emptied stopped key]
    rfl
  · intro index caller place fd peer now found free returned
    exact sound.returned_closed stopped found free returned now

/-- One thread checks a connection out, another destroys the pool, and the first returns it. -/
theorem connections_conserved_shutdown :
    let system := (start 2 60 2).run [(0, .checkout (ascii "h") 1), (0, .connected 5), (1, .destroy)]
    system.HeldOnce 0 5 ∧ ∃ serial, system.handles.IsOpen 5 serial (ascii "h", 1) ∧
      ((system.step (0, .checkin 0 9)).step (0, .close)).ClosedOnce serial 5 := by
  intro system
  have conserved := connections_conserved 2 60 2 [(0, .checkout (ascii "h") 1), (0, .connected 5), (1, .destroy)]
  have caller : system.callers[0]? = some ⟨[(5, ascii "h", 1)], none, []⟩ := rfl
  refine ⟨?_, (conserved.2.2.2 rfl).2 0 _ 0 5 _ 9 caller ⟨rfl, rfl⟩ rfl⟩
  rcases conserved.1 0 5 (ascii "h", 1) rfl with held | idle | closed
  · exact held
  · exact absurd idle.2.2.1 (by decide)
  · exact absurd closed.2 (by decide)

end PoolSystem

end MiniDynamo
