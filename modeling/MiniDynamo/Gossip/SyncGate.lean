import MiniDynamo.Gossip.Handlers

/-! When a comparison of digests ends in a full-state sync: the streak of mismatches with a peer,
and the cooldown after a sync. -/

namespace MiniDynamo

/-- What a comparison comes to. Only a mismatch can lead to a sync. -/
inductive Verdict where
  | absent
  | matched
  | mismatched
  | synced
  deriving DecidableEq

/-- What is remembered of a peer after a comparison with it. -/
def MismatchState.next (state : MismatchState) (tickCount : UInt64) : Verdict → MismatchState
  | .absent => state
  | .matched => {}
  | .mismatched => { state with consecutive := state.consecutive + 1 }
  | .synced => ⟨0, tickCount⟩

namespace GossipNode

/-- What a node remembers of its peers, the count of its ticks and the place of its next ping. -/
def counters (node : GossipNode) : OrderedMap Bytes MismatchState × UInt64 × UInt64 :=
  (node.mismatch, node.tickCount, node.idx)

theorem counters_ingest (node : GossipNode) (event : MemberEvent) (now : Int) :
    (node.ingest event now).counters = node.counters := by
  unfold ingest
  split
  · simp only
    split <;> rfl
  · rfl

theorem counters_applyEvents (events : List MemberEvent) (node : GossipNode) (times : List Int) :
    (node.applyEvents events times).counters = node.counters := by
  induction events generalizing node times with
  | nil => rfl
  | cons event rest ih => exact (ih _ _).trans (node.counters_ingest event _)

theorem counters_enroll (node : GossipNode) (event : MemberEvent) (checked : isValidNodeId event.nodeId = true) :
    (node.enroll event checked).2.counters = node.counters := by
  unfold enroll
  simp only
  split <;> rfl

end GossipNode

namespace Session

/-- What is remembered of a peer. -/
def streakWith (session : Session) (id : Bytes) : MismatchState := session.node.mismatch[id]?.getD {}

def verdict (session : Session) (peer : NodeInfo) (digestField : Bytes) : Verdict :=
  if digestField = [] then .absent
  else
    match stoull digestField with
    | none => .absent
    | some theirs =>
      if theirs = session.node.swim.digest then .matched
      else
        let m := session.streakWith peer.nodeId
        if m.consecutive + 1 < kSyncMismatchThreshold then .mismatched
        else if m.lastSyncTick ≠ 0 ∧ session.node.tickCount - m.lastSyncTick < kSyncCooldownTicks then .mismatched
        else .synced

/-- Neither what is remembered of the peers nor the count of ticks has changed. -/
structure Unmoved (before after : Session) : Prop where
  mismatch : after.node.mismatch = before.node.mismatch
  tickCount : after.node.tickCount = before.node.tickCount

namespace Unmoved

variable {first second : Session}

theorem streakWith (unmoved : Unmoved first second) (id : Bytes) : second.streakWith id = first.streakWith id := by
  rw [Session.streakWith, Session.streakWith, unmoved.mismatch]

theorem of_counters (same : second.node.counters = first.node.counters) : Unmoved first second :=
  ⟨congrArg Prod.fst same, congrArg (fun counters => counters.2.1) same⟩

end Unmoved

theorem counters_applyIncomingEvents (session : Session) (eventsField : Bytes) :
    (session.applyIncomingEvents eventsField).node.counters = session.node.counters := by
  unfold applyIncomingEvents
  split
  · rfl
  · exact GossipNode.counters_applyEvents _ _ _

theorem counters_performSync (session : Session) (peer : NodeInfo) :
    (session.performSync peer).node.counters = session.node.counters := by
  unfold performSync
  simp only
  split
  · rfl
  · split
    · rfl
    · exact counters_applyIncomingEvents _ _

theorem streakWith_noteMismatch (session : Session) (id other : Bytes) (state : Option MismatchState) :
    (session.noteMismatch id state).streakWith other =
      if id = other then state.getD {} else session.streakWith other := by
  cases state with
  | none =>
    simp only [streakWith, noteMismatch, OrderedMap.lookup_erase]
    split <;> rfl
  | some state =>
    simp only [streakWith, noteMismatch, OrderedMap.lookup_insert]
    split <;> rfl

/-- The comparison, by its verdict. -/
theorem maybeSync_eq (session : Session) (peer : NodeInfo) (digestField : Bytes) :
    session.maybeSync peer digestField =
      match session.verdict peer digestField with
      | .absent => session
      | .matched => session.noteMismatch peer.nodeId none
      | .mismatched => session.noteMismatch peer.nodeId
          (some ((session.streakWith peer.nodeId).next session.node.tickCount .mismatched))
      | .synced => (session.noteMismatch peer.nodeId (some ⟨0, session.node.tickCount⟩)).performSync peer := by
  unfold maybeSync verdict
  split
  · rfl
  · cases stoull digestField with
    | none => rfl
    | some theirs =>
      simp only
      split
      · rfl
      · rw [show session.node.mismatch[peer.nodeId]?.getD {} = session.streakWith peer.nodeId from rfl]
        split
        · rfl
        · split <;> rfl

theorem streakWith_maybeSync (session : Session) (peer : NodeInfo) (digestField id : Bytes) :
    (session.maybeSync peer digestField).streakWith id =
      if peer.nodeId = id then
        (session.streakWith id).next session.node.tickCount (session.verdict peer digestField)
      else session.streakWith id := by
  rw [maybeSync_eq]
  cases session.verdict peer digestField with
  | absent => exact (ite_self _).symm
  | matched => exact streakWith_noteMismatch session _ _ _
  | mismatched =>
    rw [streakWith_noteMismatch]
    split
    · rename_i same
      rw [same, Option.getD_some]
    · rfl
  | synced =>
    rw [(Unmoved.of_counters (counters_performSync _ peer)).streakWith, streakWith_noteMismatch]
    rfl

theorem tickCount_maybeSync (session : Session) (peer : NodeInfo) (digestField : Bytes) :
    (session.maybeSync peer digestField).node.tickCount = session.node.tickCount := by
  rw [maybeSync_eq]
  cases session.verdict peer digestField with
  | synced => exact congrArg (fun counters => counters.2.1) (counters_performSync _ peer)
  | _ => rfl

/-- A full state goes out exactly if the verdict is a sync. -/
theorem sent_maybeSync (session : Session) (peer : NodeInfo) (digestField : Bytes) :
    (session.maybeSync peer digestField).sent.length =
      session.sent.length + if session.verdict peer digestField = .synced then 1 else 0 := by
  have sync (session : Session) : (session.performSync peer).sent.length = session.sent.length + 1 := by
    unfold performSync
    simp only
    split
    · simp [sendFn, post]
    · split
      · simp [sendFn, post]
      · rw [sent_applyIncomingEvents]
        simp [sendFn, post]
  rw [maybeSync_eq]
  cases session.verdict peer digestField with
  | synced => exact sync _
  | _ => rfl

/-- A sync comes after enough mismatches in a row, and if none is on record within the cooldown. -/
theorem verdict_synced {session : Session} {peer : NodeInfo} {digestField : Bytes}
    (synced : session.verdict peer digestField = .synced) :
    kSyncMismatchThreshold ≤ (session.streakWith peer.nodeId).consecutive + 1 ∧
      ((session.streakWith peer.nodeId).lastSyncTick = 0 ∨
        kSyncCooldownTicks ≤ session.node.tickCount - (session.streakWith peer.nodeId).lastSyncTick) := by
  unfold verdict at synced
  split at synced
  · cases synced
  · split at synced
    · cases synced
    · split at synced
      · cases synced
      · simp only at synced
        split at synced
        · cases synced
        · rename_i enough
          split at synced
          · cases synced
          · rename_i cool
            rw [not_and_or, not_not, UInt64.not_lt] at cool
            exact ⟨Int.not_lt.mp enough, cool⟩

end Session

/-- A comparison with a peer: after how many ticks, and its verdict. -/
structure Compared where
  peer : Bytes
  ticks : Nat
  verdict : Verdict
  deriving DecidableEq

/-- Runs of ticks and comparisons, any number of them between two ticks. Whatever else the node does,
and whatever becomes of its view, is between them too. -/
inductive SyncRun (start : Session) : Session → Nat → List Compared → Prop
  | start : SyncRun start start 0 []
  | tick {session : Session} {ticks : Nat} {history : List Compared} (run : SyncRun start session ticks history) :
      SyncRun start { session with node := { session.node with tickCount := session.node.tickCount + 1 } } (ticks + 1)
        history
  | compare {session : Session} {ticks : Nat} {history : List Compared} (run : SyncRun start session ticks history)
      (peer : NodeInfo) (digestField : Bytes) :
      SyncRun start (session.maybeSync peer digestField) ticks
        (history ++ [⟨peer.nodeId, ticks, session.verdict peer digestField⟩])
  | other {session after : Session} {ticks : Nat} {history : List Compared} (run : SyncRun start session ticks history)
      (unmoved : Session.Unmoved session after) : SyncRun start after ticks history

/-- The mismatches with a peer since the last match or sync with it. -/
def streak (peer : Bytes) (history : List Compared) : Int :=
  history.foldl (fun count compared =>
    if compared.peer = peer then
      match compared.verdict with
      | .absent => count
      | .mismatched => count + 1
      | .matched | .synced => 0
    else count) 0

/-- Comparisons of this verdict come no fewer ticks after a sync with the same peer than the cooldown has. -/
def Cooled (verdict : Verdict) (history : List Compared) : Prop :=
  history.Pairwise (fun earlier later => earlier.peer = later.peer → earlier.verdict = .synced →
    later.verdict = verdict → earlier.ticks + Session.kSyncCooldownTicks.toNat ≤ later.ticks)

namespace SyncRun

variable {start session : Session} {ticks : Nat} {history : List Compared}

/-- A node that has just been started. -/
structure Fresh (start : Session) : Prop where
  mismatch : start.node.mismatch = ∅
  tickCount : start.node.tickCount = 0

theorem tickCount_eq (fresh : Fresh start) (run : SyncRun start session ticks history) :
    session.node.tickCount = UInt64.ofNat ticks := by
  induction run with
  | start => exact fresh.tickCount
  | tick run ih => simp [ih, UInt64.ofNat_add]
  | compare run peer digestField ih => rw [Session.tickCount_maybeSync, ih]
  | other run unmoved ih => rw [unmoved.tickCount, ih]

theorem past (run : SyncRun start session ticks history) : ∀ compared ∈ history, compared.ticks ≤ ticks := by
  induction run with
  | start => simp
  | tick run ih => exact fun compared member => Nat.le_succ_of_le (ih compared member)
  | compare run peer digestField ih =>
    intro compared member
    rcases List.mem_append.mp member with before | here
    · exact ih compared before
    · obtain rfl := List.mem_singleton.mp here
      exact Nat.le_refl _
  | other run unmoved ih => exact ih

theorem consecutive_eq_streak (fresh : Fresh start) (run : SyncRun start session ticks history) (id : Bytes) :
    (session.streakWith id).consecutive = streak id history := by
  induction run with
  | start => simp [Session.streakWith, fresh.mismatch, streak]
  | tick run ih => exact ih
  | @compare session ticks history run peer digestField ih =>
    rw [Session.streakWith_maybeSync, streak, List.foldl_append, ← streak, ← ih]
    by_cases same : peer.nodeId = id
    · simp only [same, ↓reduceIte, List.foldl_cons, List.foldl_nil]
      cases session.verdict peer digestField <;> rfl
    · simp [same]
  | other run unmoved ih => rw [unmoved.streakWith, ih]

/-- A sync that is on record holds off the next one until the cooldown is over. -/
theorem cooled_of_recorded (fresh : Fresh start) (run : SyncRun start session ticks history) {peer : NodeInfo}
    {digestField : Bytes} (synced : session.verdict peer digestField = .synced) {earlier : Compared}
    (member : earlier ∈ history) (counted : UInt64.ofNat earlier.ticks ≠ 0)
    (recorded : (session.streakWith peer.nodeId).lastSyncTick = UInt64.ofNat earlier.ticks) :
    earlier.ticks + Session.kSyncCooldownTicks.toNat ≤ ticks := by
  obtain ⟨-, never | cool⟩ := Session.verdict_synced synced
  · exact absurd (recorded.symm.trans never) counted
  · have before := run.past earlier member
    rw [recorded, run.tickCount_eq fresh, ← UInt64.ofNat_sub before, UInt64.le_iff_toNat_le,
      UInt64.toNat_ofNat'] at cool
    have gap := Nat.mod_le (ticks - earlier.ticks) (2 ^ 64)
    omega

/-- No sync falls on the count 0, which stands for none. -/
def Counted (history : List Compared) : Prop :=
  ∀ compared ∈ history, compared.verdict = .synced → UInt64.ofNat compared.ticks ≠ 0

/-- A sync within the cooldown is on record. -/
def Recorded (session : Session) (ticks : Nat) (history : List Compared) : Prop :=
  ∀ compared ∈ history, compared.verdict = .synced → ticks < compared.ticks + Session.kSyncCooldownTicks.toNat →
    (session.streakWith compared.peer).lastSyncTick = UInt64.ofNat compared.ticks

section Comparison

variable {peer : NodeInfo} {digestField : Bytes} (fresh : Fresh start) (run : SyncRun start session ticks history)
  (recorded : Recorded session ticks history)

include fresh run recorded

/-- The next sync is a cooldown after the earlier ones. -/
theorem spaced (counted : Counted history) (synced : session.verdict peer digestField = .synced) {earlier : Compared}
    (member : earlier ∈ history) (same : earlier.peer = peer.nodeId) (was : earlier.verdict = .synced) :
    earlier.ticks + Session.kSyncCooldownTicks.toNat ≤ ticks := by
  by_contra early
  have onRecord := recorded earlier member was (Nat.lt_of_not_le early)
  rw [same] at onRecord
  exact early (cooled_of_recorded fresh run synced member (counted earlier member was) onRecord)

/-- A comparison keeps the record, unless it is a match within the cooldown. -/
theorem recorded_compare (counted : Counted history)
    (late : ∀ earlier ∈ history, earlier.peer = peer.nodeId → earlier.verdict = .synced →
      session.verdict peer digestField = .matched → earlier.ticks + Session.kSyncCooldownTicks.toNat ≤ ticks) :
    Recorded (session.maybeSync peer digestField) ticks
      (history ++ [⟨peer.nodeId, ticks, session.verdict peer digestField⟩]) := by
  intro compared member was recent
  rw [Session.streakWith_maybeSync]
  rcases List.mem_append.mp member with before | here
  · have onRecord := recorded compared before was recent
    split
    · rename_i same
      cases verdict : session.verdict peer digestField with
      | absent => exact onRecord
      | mismatched => exact onRecord
      | matched => exact absurd recent (Nat.not_lt.mpr (late compared before same.symm was verdict))
      | synced =>
        have apart := spaced fresh run recorded counted verdict before same.symm was
        exact absurd recent (Nat.not_lt.mpr apart)
    · exact onRecord
  · obtain rfl := List.mem_singleton.mp here
    have synced : session.verdict peer digestField = .synced := was
    rw [if_pos rfl, synced, MismatchState.next, run.tickCount_eq fresh]

end Comparison

/-- The invariant of the cooldown: as long as no match has erased it, a sync within it is on record. -/
theorem cooled_recorded (fresh : Fresh start) (run : SyncRun start session ticks history) (counted : Counted history)
    (late : Cooled .matched history) : Cooled .synced history ∧ Recorded session ticks history := by
  induction run with
  | start => exact ⟨List.Pairwise.nil, fun _ member => absurd member List.not_mem_nil⟩
  | tick run ih =>
    obtain ⟨cooled, recorded⟩ := ih counted late
    exact ⟨cooled, fun compared member was recent => recorded compared member was (by omega)⟩
  | other run unmoved ih =>
    obtain ⟨cooled, recorded⟩ := ih counted late
    refine ⟨cooled, fun compared member was recent => ?_⟩
    rw [unmoved.streakWith]
    exact recorded compared member was recent
  | compare run peer digestField ih =>
    have countedBefore : Counted _ := fun compared member => counted compared (List.mem_append_left _ member)
    obtain ⟨lateBefore, -, lateNow⟩ := List.pairwise_append.mp late
    obtain ⟨cooled, recorded⟩ := ih countedBefore lateBefore
    refine ⟨List.pairwise_append.mpr ⟨cooled, List.pairwise_singleton _ _, ?_⟩, ?_⟩
    · intro compared member now here same was synced
      obtain rfl := List.mem_singleton.mp here
      exact spaced fresh run recorded countedBefore synced member same was
    · exact recorded_compare fresh run recorded countedBefore
        (fun earlier member => lateNow earlier member _ (List.mem_singleton.mpr rfl))

/-- Each sync of a run comes after enough mismatches with the peer in a row. -/
theorem warned (fresh : Fresh start) (run : SyncRun start session ticks history) {before after : List Compared}
    {compared : Compared} (place : history = before ++ compared :: after) (synced : compared.verdict = .synced) :
    Session.kSyncMismatchThreshold ≤ streak compared.peer before + 1 := by
  induction run generalizing after with
  | start => simp at place
  | tick run ih => exact ih place
  | other run unmoved ih => exact ih place
  | @compare session ticks history run peer digestField ih =>
    rcases List.eq_nil_or_concat after with rfl | ⟨rest, last, rfl⟩
    · obtain ⟨rfl, here⟩ := List.append_inj' place rfl
      obtain rfl := (List.cons.inj here).1.symm
      rw [← run.consecutive_eq_streak fresh]
      exact (Session.verdict_synced synced).1
    · rw [List.concat_eq_append, ← List.cons_append, ← List.append_assoc] at place
      exact ih (List.append_inj' place rfl).1

/-- What ticks and comparisons with one peer come to; where there is no digest field, there is a tick. -/
def play (peer : NodeInfo) : List (Option Bytes) → Session → Nat → List Compared
  | [], _, _ => []
  | none :: rest, session, ticks =>
    play peer rest { session with node := { session.node with tickCount := session.node.tickCount + 1 } } (ticks + 1)
  | some digestField :: rest, session, ticks =>
    ⟨peer.nodeId, ticks, session.verdict peer digestField⟩ ::
      play peer rest (session.maybeSync peer digestField) ticks

theorem played (run : SyncRun start session ticks history) (peer : NodeInfo) (script : List (Option Bytes)) :
    ∃ after last, SyncRun start after last (history ++ play peer script session ticks) := by
  induction script generalizing session ticks history with
  | nil => exact ⟨session, ticks, by simpa [play] using run⟩
  | cons next rest ih =>
    cases next with
    | none => exact ih run.tick
    | some digestField =>
      obtain ⟨after, last, done⟩ := ih (run.compare peer digestField)
      exact ⟨after, last, by simpa [play] using done⟩

end SyncRun

/-- In a run in which no match with a peer comes within the cooldown of a sync with it, and no sync
at the count 0, two syncs with a peer are a cooldown apart. In every run each sync comes after enough
mismatches with the peer since the last match or sync. -/
theorem sync_traffic_bounded {start session : Session} {ticks : Nat} {history : List Compared}
    (fresh : SyncRun.Fresh start) (run : SyncRun start session ticks history) :
    ((∀ compared ∈ history, compared.verdict = .synced → UInt64.ofNat compared.ticks ≠ 0) →
      Cooled .matched history → Cooled .synced history) ∧
    ∀ before compared after, history = before ++ compared :: after → compared.verdict = .synced →
      Session.kSyncMismatchThreshold ≤ streak compared.peer before + 1 :=
  ⟨fun counted late => (run.cooled_recorded fresh counted late).1,
    fun _ _ _ place synced => run.warned fresh place synced⟩

/-- A node that has just been started. -/
def Session.newcomer : Session := .begin (.start ⟨ascii "a", [], 1⟩ 1 {} (by decide))

/-- The peer disagrees in twelve ticks and agrees in the twenty-second: a sync in the second and in the twelfth. -/
def longDisagreement : List Compared :=
  (List.range' 1 12).map (fun tick =>
    ⟨ascii "b", tick, if tick = 2 ∨ tick = 12 then .synced else .mismatched⟩) ++ [⟨ascii "b", 22, .matched⟩]

theorem sync_traffic_bounded_twice :
    ∃ session ticks, SyncRun Session.newcomer session ticks longDisagreement ∧ Cooled .synced longDisagreement ∧
      Session.kSyncMismatchThreshold ≤ streak (ascii "b") (longDisagreement.take 11) + 1 := by
  have history : SyncRun.play ⟨ascii "b", [], 2⟩ ((List.replicate 12 [none, some (ascii "0")]).flatten ++
      List.replicate 10 none ++ [some (decimal Session.newcomer.node.swim.digest.toNat)]) Session.newcomer 0 =
      longDisagreement := by decide +kernel
  obtain ⟨session, ticks, run⟩ := SyncRun.start.played ⟨ascii "b", [], 2⟩
    ((List.replicate 12 [none, some (ascii "0")]).flatten ++ List.replicate 10 none ++
      [some (decimal Session.newcomer.node.swim.digest.toNat)])
  rw [history] at run
  have bounded := sync_traffic_bounded ⟨rfl, rfl⟩ run
  refine ⟨session, ticks, run, bounded.1 (by decide) (by unfold Cooled; decide), ?_⟩
  exact bounded.2 (longDisagreement.take 11) ⟨ascii "b", 12, .synced⟩ (longDisagreement.drop 12) rfl rfl

/-- The peer answers each tick, and its digest matches once between two pairs of mismatches: the node
forgets the sync of the second tick and has the next one in the fifth. -/
theorem sync_repeated_within_cooldown :
    ∃ session ticks, SyncRun Session.newcomer session ticks
        [⟨ascii "b", 1, .mismatched⟩, ⟨ascii "b", 2, .synced⟩, ⟨ascii "b", 3, .matched⟩, ⟨ascii "b", 4, .mismatched⟩,
          ⟨ascii "b", 5, .synced⟩] ∧
      ¬ Cooled .synced
        [⟨ascii "b", 1, .mismatched⟩, ⟨ascii "b", 2, .synced⟩, ⟨ascii "b", 3, .matched⟩, ⟨ascii "b", 4, .mismatched⟩,
          ⟨ascii "b", 5, .synced⟩] := by
  have history : SyncRun.play ⟨ascii "b", [], 2⟩
      [none, some (ascii "0"), none, some (ascii "0"), none, some (decimal Session.newcomer.node.swim.digest.toNat),
        none, some (ascii "0"), none, some (ascii "0")] Session.newcomer 0 =
      [⟨ascii "b", 1, .mismatched⟩, ⟨ascii "b", 2, .synced⟩, ⟨ascii "b", 3, .matched⟩, ⟨ascii "b", 4, .mismatched⟩,
        ⟨ascii "b", 5, .synced⟩] := by decide +kernel
  obtain ⟨session, ticks, run⟩ := SyncRun.start.played ⟨ascii "b", [], 2⟩
    [none, some (ascii "0"), none, some (ascii "0"), none, some (decimal Session.newcomer.node.swim.digest.toNat),
      none, some (ascii "0"), none, some (ascii "0")]
  rw [history] at run
  exact ⟨session, ticks, run, by unfold Cooled; decide⟩

end MiniDynamo
