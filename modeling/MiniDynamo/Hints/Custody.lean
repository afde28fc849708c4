import MiniDynamo.Codec.NodeId
import MiniDynamo.Hints.HintStore
import MiniDynamo.Library.Runs

/-! Where every accepted hint is while the handoff thread delivers and writers go on storing. -/

namespace MiniDynamo

/-- `deliverFor` under way: the hint it delivers next, and those after it. -/
structure Delivery where
  target : NodeInfo
  hint : Hint
  rest : List Hint

namespace Delivery

/-- The delivery of some hints, over if there is none. -/
def of (target : NodeInfo) : List Hint → Option Delivery
  | [] => none
  | hint :: rest => some ⟨target, hint, rest⟩

def left (delivery : Delivery) : List Hint := delivery.hint :: delivery.rest

theorem left_of (target : NodeInfo) (hints : List Hint) : ((of target hints).map left).getD [] = hints := by
  cases hints <;> rfl

theorem mem_of {target : NodeInfo} {hints : List Hint} {delivery : Delivery} (member : delivery ∈ of target hints) :
    delivery.target = target ∧ delivery.left = hints := by
  cases hints with
  | nil => cases member
  | cons hint rest =>
    obtain rfl := Option.some.inj member
    exact ⟨rfl, rfl⟩

end Delivery

/-- The store and a delivery, with a log: the targets of the accepted hints by their serials, and
the hints that were delivered, expired or dropped with their target. -/
structure Handoff where
  store : HintStore
  delivery : Option Delivery
  accepted : List Bytes
  delivered : List Nat
  expired : List Nat
  dropped : List Nat

inductive HandoffAction where
  | store (target key : Bytes) (value : VersionedValue) (now : Int)
  | drain (target : NodeInfo)
  | deliver (ok : Bool) (now : Int)
  | expireOld (now : Int)
  | dropTarget (target : Bytes)

/-- The serials of some hints. -/
def Hint.serials (hints : List Hint) : List Nat := hints.map Hint.serial

namespace Handoff

def start (ttl : Int) (maxPerTarget : Nat) : Handoff := ⟨.start ttl maxPerTarget, none, [], [], [], []⟩

/-- The hints `expireOld` removes. -/
def expiring (store : HintStore) (now : Int) : List Hint :=
  store.hints.toList.flatMap (fun entry => entry.2.filter (store.hasExpired now))

def step (state : Handoff) : HandoffAction → Handoff
  | .store target key value now =>
    let (accepted, store) := state.store.store target key value now state.accepted.length
    if accepted then { state with store, accepted := state.accepted ++ [target] } else { state with store }
  | .drain target =>
    match state.delivery with
    | some _ => state
    | none =>
      let (hints, store) := state.store.drain target.nodeId
      { state with store, delivery := Delivery.of target hints }
  | .deliver ok now =>
    match state.delivery with
    | none => state
    | some ⟨target, hint, rest⟩ =>
      if ok then { state with delivered := hint.serial :: state.delivered, delivery := Delivery.of target rest }
      else
        { state with
          store := (state.store.store target.nodeId hint.key hint.value now hint.serial).2
          delivery := Delivery.of target rest }
  | .expireOld now =>
    { state with
      store := state.store.expireOld now
      expired := Hint.serials (expiring state.store now) ++ state.expired }
  | .dropTarget target =>
    { state with
      store := (state.store.dropTarget target).2
      dropped := Hint.serials (state.store.listFor target) ++ state.dropped }

/-- The hints in the hands of the handoff thread. -/
def inFlight (state : Handoff) : List Hint := (state.delivery.map Delivery.left).getD []

/-- How often a hint for a target is anywhere: stored for it, on its way, delivered, expired or
dropped with the target. -/
def places (state : Handoff) (serial : Nat) (target : Bytes) : Nat :=
  (Hint.serials (state.store.listFor target)).count serial + (Hint.serials state.inFlight).count serial +
    state.delivered.count serial + state.expired.count serial + state.dropped.count serial

/-- Every accepted hint is in one place, once, and none is stored for another target. -/
def Kept (state : Handoff) : Prop :=
  ∀ serial target, state.accepted[serial]? = some target →
    state.places serial target = 1 ∧ ∀ other ≠ target, serial ∉ Hint.serials (state.store.listFor other)

/-- A failed delivery finds room to put the hint back. -/
def RoomToReturn (state : Handoff) : HandoffAction → Prop
  | .deliver false _ => ∀ delivery ∈ state.delivery, state.store.HasRoom delivery.target.nodeId
  | _ => True

/-- Only accepted hints are anywhere, and those under their own target. -/
structure Known (state : Handoff) : Prop where
  stored : ∀ target, ∀ hint ∈ state.store.listFor target, state.accepted[hint.serial]? = some target
  flying : ∀ delivery ∈ state.delivery, ∀ hint ∈ delivery.left,
    state.accepted[hint.serial]? = some delivery.target.nodeId
  logged : ∀ serial, serial ∈ state.delivered ∨ serial ∈ state.expired ∨ serial ∈ state.dropped →
    serial < state.accepted.length

/-- What a step can do. -/
inductive Move (state : Handoff) : HandoffAction → Handoff → Prop
  | idle (action : HandoffAction) (quiet : ∀ now, action = .deliver false now → state.delivery = none) :
      Move state action state
  | accepted (target key : Bytes) (value : VersionedValue) (now : Int) (room : state.store.HasRoom target) :
      Move state (.store target key value now)
        { state with
          store := (state.store.store target key value now state.accepted.length).2
          accepted := state.accepted ++ [target] }
  | refused (target key : Bytes) (value : VersionedValue) (now : Int) (full : ¬ state.store.HasRoom target) :
      Move state (.store target key value now)
        { state with store := (state.store.store target key value now state.accepted.length).2 }
  | drained (target : NodeInfo) (free : state.delivery = none) :
      Move state (.drain target)
        { state with
          store := (state.store.drain target.nodeId).2
          delivery := Delivery.of target (state.store.listFor target.nodeId) }
  | delivered (now : Int) (target : NodeInfo) (hint : Hint) (rest : List Hint)
      (under : state.delivery = some ⟨target, hint, rest⟩) :
      Move state (.deliver true now)
        { state with delivered := hint.serial :: state.delivered, delivery := Delivery.of target rest }
  | returned (now : Int) (target : NodeInfo) (hint : Hint) (rest : List Hint)
      (under : state.delivery = some ⟨target, hint, rest⟩) :
      Move state (.deliver false now)
        { state with
          store := (state.store.store target.nodeId hint.key hint.value now hint.serial).2
          delivery := Delivery.of target rest }
  | expired (now : Int) :
      Move state (.expireOld now)
        { state with
          store := state.store.expireOld now
          expired := Hint.serials (expiring state.store now) ++ state.expired }
  | dropped (target : Bytes) :
      Move state (.dropTarget target)
        { state with
          store := (state.store.dropTarget target).2
          dropped := Hint.serials (state.store.listFor target) ++ state.dropped }

theorem step_move (state : Handoff) (action : HandoffAction) : Move state action (state.step action) := by
  cases action with
  | store target key value now =>
    rw [step]
    dsimp only
    split
    · rename_i accepted
      exact .accepted target key value now (HintStore.accepted_store.mp accepted)
    · rename_i refused
      exact .refused target key value now (fun room => refused (HintStore.accepted_store.mpr room))
  | drain target =>
    rw [step]
    split
    · exact .idle _ (by simp)
    · rename_i free
      exact .drained target free
  | deliver ok now =>
    rw [step]
    split
    · rename_i free
      exact .idle _ (fun _ _ => free)
    · rename_i target hint rest under
      cases ok with
      | true => exact .delivered now target hint rest under
      | false => exact .returned now target hint rest under
  | expireOld now => exact .expired now
  | dropTarget target => exact .dropped target

section Steps

variable {state after : Handoff} {action : HandoffAction}

/-- A hint is in the store after a step because it was, or because it was stored or put back. -/
theorem Move.mem_before (move : Move state action after) {target : Bytes} {hint : Hint}
    (member : hint ∈ after.store.listFor target) :
    hint ∈ state.store.listFor target ∨ (∃ key value now, action = .store target key value now) ∨
      ∃ now, action = .deliver false now ∧ ∃ delivery ∈ state.delivery, delivery.target.nodeId = target := by
  cases move with
  | idle => exact .inl member
  | accepted other key value now _ =>
    refine (HintStore.mem_store member).imp_right (fun new => .inl ⟨key, value, now, ?_⟩)
    rw [new.1]
  | refused other key value now full =>
    exact .inl ((HintStore.mem_store member).resolve_right (fun new => full new.2.1))
  | drained other free => exact .inl (HintStore.drain_subset member)
  | delivered => exact .inl member
  | returned now other hint rest under =>
    exact (HintStore.mem_store member).imp_right (fun new => .inr ⟨now, rfl, _, under, new.1⟩)
  | expired now => exact .inl (HintStore.expireOld_subset member)
  | dropped other => exact .inl (HintStore.dropTarget_subset member)

theorem known_start (ttl : Int) (maxPerTarget : Nat) : (start ttl maxPerTarget).Known := by
  refine ⟨fun target hint member => ?_, fun delivery member => ?_, fun serial logged => ?_⟩
  · simp [start, HintStore.listFor, HintStore.start, Multimap.list_empty] at member
  · cases member
  · simp [start] at logged

/-- What is accepted stays accepted when more is. -/
theorem accepted_append {targets : List Bytes} {serial : Nat} {target : Bytes} (found : targets[serial]? = some target)
    (other : Bytes) : (targets ++ [other])[serial]? = some target := by
  rw [List.getElem?_append_left (List.getElem?_eq_some_iff.mp found).1, found]

theorem Move.accepted_after (move : Move state action after) {serial : Nat} {target : Bytes}
    (found : state.accepted[serial]? = some target) : after.accepted[serial]? = some target := by
  cases move with
  | accepted other key value now room => exact accepted_append found other
  | _ => exact found

theorem Known.lt (known : state.Known) {target : Bytes} {hint : Hint} (member : hint ∈ state.store.listFor target) :
    hint.serial < state.accepted.length :=
  (List.getElem?_eq_some_iff.mp (known.stored target hint member)).1

theorem mem_expiring {store : HintStore} {now : Int} {hint : Hint} (member : hint ∈ expiring store now) :
    ∃ target, hint ∈ store.listFor target := by
  obtain ⟨entry, present, inside⟩ := List.mem_flatMap.mp member
  refine ⟨entry.1, ?_⟩
  rw [HintStore.listFor, Multimap.list, OrderedMap.mem_entries.mp (show (entry.1, entry.2) ∈ _ from present)]
  exact List.mem_of_mem_filter inside

/-- What is left of a delivery after its first hint is on its way to the same target. -/
theorem Known.flying_rest (known : state.Known) {target : NodeInfo} {hint : Hint} {rest : List Hint}
    (under : state.delivery = some ⟨target, hint, rest⟩) :
    ∀ delivery ∈ Delivery.of target rest, ∀ other ∈ delivery.left,
      state.accepted[other.serial]? = some delivery.target.nodeId := by
  intro delivery member other inside
  obtain ⟨same, left⟩ := Delivery.mem_of member
  rw [left] at inside
  rw [same]
  exact known.flying _ under other (List.mem_cons_of_mem hint inside)

theorem Move.known (move : Move state action after) (known : state.Known) : after.Known := by
  cases move with
  | idle => exact known
  | accepted target key value now room =>
    refine ⟨fun other hint member => ?_, fun delivery member hint inside => ?_, fun serial logged => ?_⟩
    · rcases HintStore.mem_store member with before | ⟨rfl, -, rfl⟩
      · exact accepted_append (known.stored other hint before) target
      · simp
    · exact accepted_append (known.flying delivery member hint inside) target
    · have bound := known.logged serial logged
      simp only [List.length_append, List.length_singleton]
      omega
  | refused target key value now full =>
    refine ⟨fun other hint member => ?_, known.flying, known.logged⟩
    exact known.stored other hint ((HintStore.mem_store member).resolve_right (fun new => full new.2.1))
  | drained target free =>
    refine ⟨fun other hint member => ?_, fun delivery member hint inside => ?_, known.logged⟩
    · exact known.stored other hint (HintStore.drain_subset member)
    · obtain ⟨same, left⟩ := Delivery.mem_of member
      rw [left] at inside
      rw [same]
      exact known.stored target.nodeId hint inside
  | delivered now target hint rest under =>
    refine ⟨known.stored, known.flying_rest under, fun serial logged => ?_⟩
    rw [List.mem_cons, or_assoc] at logged
    rcases logged with rfl | before
    · exact (List.getElem?_eq_some_iff.mp (known.flying _ under hint List.mem_cons_self)).1
    · exact known.logged serial before
  | returned now target hint rest under =>
    refine ⟨fun other found member => ?_, known.flying_rest under, known.logged⟩
    rcases HintStore.mem_store member with before | ⟨rfl, -, rfl⟩
    · exact known.stored other found before
    · exact known.flying _ under hint List.mem_cons_self
  | expired now =>
    refine ⟨fun target hint member => known.stored target hint (HintStore.expireOld_subset member), known.flying,
      fun serial logged => ?_⟩
    rcases logged with before | new | before
    · exact known.logged serial (.inl before)
    · rcases List.mem_append.mp new with gone | before
      · obtain ⟨hint, member, rfl⟩ := List.mem_map.mp gone
        obtain ⟨target, inside⟩ := mem_expiring member
        exact known.lt inside
      · exact known.logged serial (.inr (.inl before))
    · exact known.logged serial (.inr (.inr before))
  | dropped target =>
    refine ⟨fun other hint member => known.stored other hint (HintStore.dropTarget_subset member), known.flying,
      fun serial logged => ?_⟩
    rcases logged with before | before | new
    · exact known.logged serial (.inl before)
    · exact known.logged serial (.inr (.inl before))
    · rcases List.mem_append.mp new with gone | before
      · obtain ⟨hint, member, rfl⟩ := List.mem_map.mp gone
        exact known.lt member
      · exact known.logged serial (.inr (.inr before))

/-- A hint is stored for its own target only. -/
theorem Known.elsewhere (known : state.Known) {serial : Nat} {target other : Bytes}
    (found : state.accepted[serial]? = some target) (different : other ≠ target) :
    serial ∉ Hint.serials (state.store.listFor other) := by
  intro member
  obtain ⟨hint, inside, rfl⟩ := List.mem_map.mp member
  exact different (Option.some.inj ((known.stored other hint inside).symm.trans found))

/-- Every accepted hint is in one place. -/
def Once (state : Handoff) : Prop :=
  ∀ serial target, state.accepted[serial]? = some target → state.places serial target = 1

theorem Known.kept_iff (known : state.Known) : state.Kept ↔ state.Once :=
  ⟨fun kept serial target found => (kept serial target found).1,
    fun once serial target found => ⟨once serial target found, fun _ different => known.elsewhere found different⟩⟩

theorem count_serials_append (hints : List Hint) (hint : Hint) (serial : Nat) :
    (Hint.serials (hints ++ [hint])).count serial = (Hint.serials hints).count serial + [hint.serial].count serial := by
  rw [Hint.serials, List.map_append, List.count_append]
  rfl

theorem count_serials_cons (hints : List Hint) (hint : Hint) (serial : Nat) :
    (Hint.serials (hint :: hints)).count serial = (Hint.serials hints).count serial + [hint.serial].count serial := by
  simp only [Hint.serials, List.map_cons, List.count_cons, List.count_nil]
  omega

/-- The serial that comes next is nowhere yet. -/
theorem Known.nowhere (known : state.Known) (target : Bytes) : state.places state.accepted.length target = 0 := by
  have stored : (Hint.serials (state.store.listFor target)).count state.accepted.length = 0 := by
    refine List.count_eq_zero.mpr (fun member => ?_)
    obtain ⟨hint, inside, same⟩ := List.mem_map.mp member
    have bound := known.lt inside
    omega
  have flying : (Hint.serials state.inFlight).count state.accepted.length = 0 := by
    refine List.count_eq_zero.mpr (fun member => ?_)
    obtain ⟨hint, inside, same⟩ := List.mem_map.mp member
    cases under : state.delivery with
    | none => simp [inFlight, under] at inside
    | some delivery =>
      simp only [inFlight, under, Option.map_some, Option.getD_some] at inside
      have bound := (List.getElem?_eq_some_iff.mp (known.flying delivery under hint inside)).1
      omega
  have unlogged : ∀ log : List Nat, (∀ serial ∈ log, serial < state.accepted.length) →
      log.count state.accepted.length = 0 := by
    intro log bounded
    exact List.count_eq_zero.mpr (fun member => Nat.lt_irrefl _ (bounded _ member))
  rw [places, stored, flying, unlogged _ (fun serial member => known.logged serial (.inl member)),
    unlogged _ (fun serial member => known.logged serial (.inr (.inl member))),
    unlogged _ (fun serial member => known.logged serial (.inr (.inr member)))]

/-- A new hint is in the store, and the others are where they were. -/
theorem places_accepted {target key : Bytes} {value : VersionedValue} {now : Int}
    (room : state.store.HasRoom target) {serial : Nat} {own : Bytes}
    (found : (state.accepted ++ [target])[serial]? = some own) :
    places { state with
      store := (state.store.store target key value now state.accepted.length).2
      accepted := state.accepted ++ [target] } serial own =
    state.places serial own + if serial = state.accepted.length then 1 else 0 := by
  simp only [places, inFlight, HintStore.listFor_store]
  rcases Nat.lt_or_ge serial state.accepted.length with old | new
  · have other : [state.accepted.length].count serial = 0 := List.count_eq_zero.mpr (by simp; omega)
    rw [if_neg (Nat.ne_of_lt old)]
    split
    · rw [count_serials_append]
      dsimp only
      omega
    · rfl
  · have last : serial = state.accepted.length := by
      have bound := (List.getElem?_eq_some_iff.mp found).1
      simp only [List.length_append, List.length_singleton] at bound
      omega
    subst last
    obtain rfl : target = own := by simpa using found
    rw [if_pos ⟨rfl, room⟩, count_serials_append, List.count_singleton_self, if_pos rfl]
    omega

/-- The hints for a target that expire, and those that stay. -/
theorem Known.count_expiring (known : state.Known) {serial : Nat} {target : Bytes} (now : Int)
    (found : state.accepted[serial]? = some target) :
    (Hint.serials ((state.store.expireOld now).listFor target)).count serial +
        (Hint.serials (expiring state.store now)).count serial =
      (Hint.serials (state.store.listFor target)).count serial := by
  have gone : (Hint.serials (expiring state.store now)).count serial =
      (Hint.serials ((state.store.listFor target).filter (state.store.hasExpired now))).count serial := by
    rw [expiring, Hint.serials, List.map_flatMap]
    refine Multimap.count_collected (fun list => Hint.serials (list.filter (state.store.hasExpired now))) ?_ rfl
    intro other inside
    obtain ⟨hint, member, rfl⟩ := List.mem_map.mp inside
    have stored := known.stored other hint (List.mem_of_mem_filter member)
    exact Option.some.inj (stored.symm.trans found)
  rw [gone, HintStore.listFor_expireOld, Nat.add_comm, ← List.count_append, Hint.serials, Hint.serials,
    ← List.map_append]
  exact ((List.filter_append_perm _ _).map Hint.serial).count_eq serial

/-- How often a step loses a hint, which a failed delivery finds no room to put back. -/
def lost (state : Handoff) (serial : Nat) : HandoffAction → Nat
  | .deliver false _ =>
    match state.delivery with
    | none => 0
    | some ⟨target, hint, _⟩ => if state.store.HasRoom target.nodeId then 0 else [hint.serial].count serial
  | _ => 0

theorem Known.places_returned (known : state.Known) {target : NodeInfo} {hint : Hint} {rest : List Hint}
    (under : state.delivery = some ⟨target, hint, rest⟩) (now : Int) {serial : Nat} {other : Bytes}
    (found : state.accepted[serial]? = some other) :
    places { state with
      store := (state.store.store target.nodeId hint.key hint.value now hint.serial).2
      delivery := Delivery.of target rest } serial other + state.lost serial (.deliver false now) =
    state.places serial other := by
  have own := known.flying _ under hint List.mem_cons_self
  have left := count_serials_cons rest hint serial
  simp only [places, lost, inFlight, under, HintStore.listFor_store, Delivery.left_of, Option.map_some,
    Option.getD_some, Delivery.left, left]
  by_cases room : state.store.HasRoom target.nodeId
  · rw [if_pos room]
    by_cases same : target.nodeId = other
    · rw [if_pos ⟨same, room⟩, count_serials_append]
      dsimp only
      omega
    · have different : hint.serial ≠ serial := by
        rintro rfl
        exact same (Option.some.inj (own.symm.trans found))
      have none : [hint.serial].count serial = 0 := List.count_eq_zero.mpr (by simpa using Ne.symm different)
      rw [if_neg (fun here => same here.1)]
      omega
  · rw [if_neg room, if_neg (fun here => room here.2)]
    omega

/-- A step leaves every accepted hint in as many places as it was in, unless it loses it. -/
theorem Move.places (move : Move state action after) (known : state.Known) {serial : Nat} {own : Bytes}
    (found : state.accepted[serial]? = some own) :
    after.places serial own + state.lost serial action = state.places serial own := by
  have old : serial ≠ state.accepted.length := Nat.ne_of_lt (List.getElem?_eq_some_iff.mp found).1
  cases move with
  | idle _ quiet =>
    unfold lost
    split
    · rename_i now
      rw [quiet now rfl]
      rfl
    · rfl
  | accepted target key value now room =>
    rw [places_accepted room (accepted_append found target), if_neg old]
    rfl
  | refused target key value now full =>
    simp only [Handoff.places, lost, inFlight, HintStore.listFor_store, if_neg (fun here => full (And.right here)),
      Nat.add_zero]
  | drained target free =>
    simp only [Handoff.places, lost, inFlight, HintStore.listFor_drain, Delivery.left_of, free, Option.map_none,
      Option.getD_none, Nat.add_zero]
    split
    · rename_i same
      rw [same]
      simp [Hint.serials]
    · rename_i different
      rw [List.count_eq_zero.mpr (known.elsewhere found different)]
      rfl
  | delivered now target hint rest under =>
    have left := count_serials_cons rest hint serial
    simp only [Handoff.places, lost, inFlight, Delivery.left_of, under, Option.map_some, Option.getD_some,
      Delivery.left, List.count_cons (l := state.delivered), Nat.add_zero]
    simp only [List.count_cons, List.count_nil] at left
    omega
  | returned now target hint rest under => exact known.places_returned under now found
  | expired now =>
    have parts := known.count_expiring now found
    simp only [Handoff.places, lost, inFlight, List.count_append]
    omega
  | dropped target =>
    simp only [Handoff.places, lost, inFlight, HintStore.listFor_dropTarget, List.count_append]
    split
    · rename_i same
      subst same
      have none : (Hint.serials []).count serial = 0 := rfl
      omega
    · rename_i different
      have none := List.count_eq_zero.mpr (known.elsewhere found different)
      omega

/-- An accepted hint was accepted before, or it is the one that a step accepts. -/
theorem Move.accepted_before (move : Move state action after) {serial : Nat} {own : Bytes}
    (found : after.accepted[serial]? = some own) :
    state.accepted[serial]? = some own ∨
      serial = state.accepted.length ∧ (state.Known → after.places serial own = 1) := by
  cases move with
  | accepted target key value now room =>
    rcases Nat.lt_or_ge serial state.accepted.length with old | new
    · left
      rwa [List.getElem?_append_left old] at found
    · right
      have last : serial = state.accepted.length := by
        have bound := (List.getElem?_eq_some_iff.mp found).1
        simp only [List.length_append, List.length_singleton] at bound
        omega
      refine ⟨last, fun known => ?_⟩
      rw [places_accepted room found, if_pos last, last, known.nowhere own]
  | _ => exact .inl found

/-- A step loses none of the accepted hints exactly if a failed delivery finds room for its hint. -/
theorem Known.lost_iff (known : state.Known) (action : HandoffAction) :
    (∀ serial target, state.accepted[serial]? = some target → state.lost serial action = 0) ↔
      state.RoomToReturn action := by
  unfold lost RoomToReturn
  split
  · cases under : state.delivery with
    | none => simp
    | some delivery =>
      have own := known.flying _ under delivery.hint List.mem_cons_self
      by_cases room : state.store.HasRoom delivery.target.nodeId
      · simp [room]
      · refine iff_of_false (fun kept => ?_) (fun all => room (all delivery rfl))
        have none := kept delivery.hint.serial delivery.target.nodeId own
        simp [room] at none
  · simp

/-- A step keeps every hint exactly if a failed delivery finds room for it. -/
theorem Move.once_iff (move : Move state action after) (known : state.Known) (once : state.Once) :
    after.Once ↔ state.RoomToReturn action := by
  rw [← known.lost_iff action]
  constructor
  · intro still serial target found
    have before := once serial target found
    have kept := move.places known found
    have later := still serial target (move.accepted_after found)
    omega
  · intro none serial target found
    rcases move.accepted_before found with before | new
    · have kept := move.places known before
      rw [none serial target before, once serial target before] at kept
      exact kept
    · exact new.2 known

end Steps

/-- Every accepted hint stays in the store, is on its way, was delivered, has expired or was
dropped with its target, and is nowhere twice, in every state of a run, exactly if each failed
delivery of the run finds room in the store to put its hint back. -/
theorem hints_kept_iff (ttl : Int) (maxPerTarget : Nat) (actions : List HandoffAction) :
    (∀ before after, actions = before ++ after → (before.foldl step (start ttl maxPerTarget)).Kept) ↔
      Throughout step RoomToReturn (start ttl maxPerTarget) actions := by
  have keeps : ∀ state action, (Known state ∧ state.Once) →
      ((state.step action).Known ∧ (state.step action).Once ↔ state.RoomToReturn action) := by
    rintro state action ⟨known, once⟩
    rw [← (step_move state action).once_iff known once]
    exact and_iff_right ((step_move state action).known known)
  have known : ∀ actions : List HandoffAction, (actions.foldl step (start ttl maxPerTarget)).Known := by
    intro actions
    induction actions using List.reverseRecOn with
    | nil => exact known_start ttl maxPerTarget
    | append_singleton before action ih =>
      rw [List.foldl_append]
      exact (step_move _ action).known ih
  rw [← always_iff_throughout keeps ⟨known_start ttl maxPerTarget, by simp [Once, start]⟩]
  refine forall_congr' (fun before => forall_congr' (fun after => imp_congr_right (fun _ => ?_)))
  rw [(known before).kept_iff]
  exact (and_iff_right (known before)).symm

/-- A writer fills the place of a hint while it is being delivered, and the delivery fails. -/
def crowdedOut : List HandoffAction :=
  [.store (ascii "t") (ascii "k1") ⟨ascii "v", .empty, false⟩ 0, .drain ⟨ascii "t", ascii "h", 1⟩,
    .store (ascii "t") (ascii "k2") ⟨ascii "v", .empty, false⟩ 1, .deliver false 2]

/-- Both hints were accepted, nothing is on its way, and the first is nowhere. -/
theorem failed_delivery_loses_hint :
    (crowdedOut.foldl step (start 10 1)).accepted = [ascii "t", ascii "t"] ∧
      (crowdedOut.foldl step (start 10 1)).delivery.isNone ∧
      (crowdedOut.foldl step (start 10 1)).places 0 (ascii "t") = 0 ∧ ¬ (crowdedOut.foldl step (start 10 1)).Kept := by
  have accepted : (crowdedOut.foldl step (start 10 1)).accepted = [ascii "t", ascii "t"] := by decide +kernel
  have nowhere : (crowdedOut.foldl step (start 10 1)).places 0 (ascii "t") = 0 := by decide +kernel
  refine ⟨accepted, by decide +kernel, nowhere, fun kept => ?_⟩
  have once := (kept 0 (ascii "t") (by rw [accepted]; rfl)).1
  omega

end Handoff

end MiniDynamo
