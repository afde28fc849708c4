import MiniDynamo.Gateway.Exchange
import MiniDynamo.Gateway.RingRouter

/-! The targets that a call on a key tries one after the other: the owners as the gateway's ring has them, then
the configured nodes. -/

namespace MiniDynamo.Gateway

open Utf16 ClusterClient

namespace ClusterClient

/-- `host:port`, cut at the last colon; without a colon or a port that is an `int` it throws. -/
def seedEndpoint (ep : Utf16) : Option Endpoint :=
  match ep.reverse.span (· ≠ 58) with
  | (_, []) => none
  | (port, _ :: host) => (parseInt port.reverse).map (fun port => ⟨host.reverse, port⟩)

def seedEndpoints (nodes : List Utf16) : Option (List Endpoint) := nodes.mapM seedEndpoint

/-- The endpoints whose key is not there yet, one after the other. -/
def addTargets (out : List Endpoint) : List Endpoint → List Endpoint
  | [] => out
  | e :: rest => if e.key ∈ out.map Endpoint.key then addTargets out rest else addTargets (out ++ [e]) rest

def ownerEndpoint (owner : RingNode) : Endpoint := ⟨owner.host, owner.port⟩

/-- The owners are asked for before the seeds are read, which may throw. -/
def targetsForKey (snapshot : Snapshot) (nodes : List Utf16) (key : Utf16) (n : Int) : Option (List Endpoint) := do
  let owners ← snapshot.ownersFor key n
  let seeds ← seedEndpoints nodes
  return addTargets (addTargets [] (owners.map ownerEndpoint)) seeds

end ClusterClient

section Targets

variable {out more : List Endpoint}

/-- What is added is among what was asked for. -/
theorem sublist_addTargets (out more : List Endpoint) :
    ∃ added, addTargets out more = out ++ added ∧ added.Sublist more := by
  induction more generalizing out with
  | nil => exact ⟨[], (List.append_nil out).symm, List.Sublist.refl []⟩
  | cons e rest ih =>
    rw [addTargets]
    split
    · obtain ⟨added, shape, among⟩ := ih out
      exact ⟨added, shape, among.cons e⟩
    · obtain ⟨added, shape, among⟩ := ih (out ++ [e])
      exact ⟨e :: added, by rw [shape, List.append_assoc, List.singleton_append], among.cons_cons e⟩

theorem prefix_addTargets (out more : List Endpoint) : out <+: addTargets out more := by
  obtain ⟨added, shape, -⟩ := sublist_addTargets out more
  exact ⟨added, shape.symm⟩

theorem nodup_addTargets (distinct : (out.map Endpoint.key).Nodup) (more : List Endpoint) :
    ((addTargets out more).map Endpoint.key).Nodup := by
  induction more generalizing out with
  | nil => exact distinct
  | cons e rest ih =>
    rw [addTargets]
    split
    · exact ih distinct
    · rename_i fresh
      apply ih
      rw [List.map_append, List.map_singleton, ← List.concat_eq_append]
      exact List.Nodup.concat fresh distinct

theorem mem_addTargets {e : Endpoint} (asked : e ∈ more) : e.key ∈ (addTargets out more).map Endpoint.key := by
  induction more generalizing out with
  | nil => exact absurd asked List.not_mem_nil
  | cons first rest ih =>
    rw [addTargets]
    rcases List.mem_cons.mp asked with rfl | later
    · split
      · rename_i known
        exact ((prefix_addTargets out rest).map Endpoint.key).subset known
      · exact ((prefix_addTargets _ rest).map Endpoint.key).subset (by simp)
    · split
      · exact ih later
      · exact ih later

theorem mem_gather {physicalCount : Nat} {n : Int} {points owners nodes : List RingNode}
    (found : gather physicalCount n points owners = some nodes) : nodes ⊆ owners ++ points := by
  induction points generalizing owners with
  | nil => cases found
  | cons point rest ih =>
    have grown : (if point ∈ owners then owners else owners ++ [point]) ⊆ owners ++ point :: rest := by
      split
      · exact List.subset_append_left owners _
      · exact List.append_subset.mpr ⟨List.subset_append_left owners _, by simp⟩
    rw [gather] at found
    generalize (if point ∈ owners then owners else owners ++ [point]) = next at found grown
    split at found
    · exact Option.some.inj found ▸ grown
    · split at found
      · exact fun node member => by
          rcases List.mem_append.mp (ih found member) with chosen | later
          · exact grown chosen
          · exact List.mem_append_right owners (List.mem_cons_of_mem point later)
      · exact Option.some.inj found ▸ grown

/-- The owners are nodes of the ring. -/
theorem mem_ownersFor {snapshot : Snapshot} {key : Utf16} {n : Int} {nodes : List RingNode} {node : RingNode}
    (found : snapshot.ownersFor key n = some nodes) (member : node ∈ nodes) :
    node ∈ snapshot.ring.toList.map Prod.snd := by
  unfold Snapshot.ownersFor at found
  dsimp only at found
  split at found
  · rw [← Option.some.inj found] at member
    exact absurd member List.not_mem_nil
  · exact mem_turn.mp (mem_gather found member)

theorem targetsForKey_eq {snapshot : Snapshot} {nodes : List Utf16} {key : Utf16} {n : Int} {owners : List RingNode}
    {seeds : List Endpoint} (found : snapshot.ownersFor key n = some owners)
    (parsed : seedEndpoints nodes = some seeds) :
    targetsForKey snapshot nodes key n = some (addTargets (addTargets [] (owners.map ownerEndpoint)) seeds) := by
  rw [targetsForKey, found, parsed]
  rfl

end Targets

/-- A port that an `InetSocketAddress` can have. -/
def Dialable (port : Int) : Prop := 0 ≤ port ∧ port < 2 ^ 16

/-- A ring to route by: every walk around it ends, and its nodes have ports. -/
structure RoutingTable where
  snapshot : Snapshot
  owned : ∀ key n, snapshot.ownersFor key n ≠ none
  dialable : ∀ entry ∈ snapshot.ring.toList, Dialable entry.2.port

/-- The ring before the first poll. -/
def RoutingTable.unbuilt : RoutingTable where
  snapshot := .of ∅
  owned key n := by simp [Snapshot.ownersFor, Snapshot.of]
  dialable entry member := by
    have found := Std.ExtTreeMap.mem_toList_iff_getElem?_eq_some.mp member
    simp [Snapshot.of] at found

end MiniDynamo.Gateway
