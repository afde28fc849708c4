import MiniDynamo.AntiEntropy.MerkleDiff
import MiniDynamo.Ring.Router
import MiniDynamo.Storage.ReplicaOps

/-! A round of anti-entropy: the node compares its hash tree with that of a peer, pulls the peer's
keys of the ranges that differ and takes, or pushes, the newer version of each. -/

namespace MiniDynamo

/-- The callbacks of the thread, each of which works on what there is outside of the node. -/
structure AntiEntropyCallbacks (World : Type) where
  exchangeFn : NodeInfo → MerkleTree → World → MerkleTree × World
  pullFn : NodeInfo → UInt64 → UInt64 → World → List (Bytes × VersionedValue) × World
  pushFn : NodeInfo → Bytes → VersionedValue → World → Bool × World

structure AntiEntropyThread where
  self : NodeInfo
  router : Router
  storage : Storage
  syncs : UInt64
  keysRepaired : UInt64

namespace AntiEntropyThread

open MerkleTree (kDefaultDepth)

def buildLocalTree (storage : Storage) : MerkleTree :=
  (storage.toList.foldl (fun tree entry => tree.insert (hash64 entry.1) (hash64 entry.2))
    (MerkleTree.create kDefaultDepth)).build

variable {World : Type} (callbacks : AntiEntropyCallbacks World) (peer : NodeInfo)

/-- `storage_->put`, which repairs a key. -/
def put (thread : AntiEntropyThread) (key value : Bytes) : AntiEntropyThread :=
  { thread with storage := thread.storage.insert key value, keysRepaired := thread.keysRepaired + 1 }

/-- One key that was pulled. Concurrent and equal versions are left as they are. -/
def mergeKey (state : AntiEntropyThread × World) (remote : Bytes × VersionedValue) : AntiEntropyThread × World :=
  match state.1.storage[remote.1]? with
  | none => (state.1.put remote.1 remote.2.serialize, state.2)
  | some stored =>
    let mine := VersionedValue.deserialize stored
    match remote.2.clock.compare mine.clock with
    | .aDominates => (state.1.put remote.1 remote.2.serialize, state.2)
    | .bDominates =>
      ({ state.1 with keysRepaired := state.1.keysRepaired + 1 }, (callbacks.pushFn peer remote.1 mine state.2).2)
    | _ => state

/-- One range where the trees differ. -/
def mergeRange (state : AntiEntropyThread × World) (range : DiffRange) : AntiEntropyThread × World :=
  let (remoteKeys, world) := callbacks.pullFn peer range.rangeStart range.rangeEnd state.2
  remoteKeys.foldl (mergeKey callbacks peer) (state.1, world)

/-- The nodes of the ring without the node itself. -/
def peers (thread : AntiEntropyThread) : List NodeInfo :=
  thread.router.getAllPhysicalNodes.filter (fun n => n.nodeId ≠ thread.self.nodeId)

/-- The part of `tick` with the peer that was picked. -/
def syncWith (thread : AntiEntropyThread) (world : World) : AntiEntropyThread × World :=
  let localTree := buildLocalTree thread.storage
  if localTree.rootHash = 0 then (thread, world)
  else
    let (peerTree, world) := callbacks.exchangeFn peer localTree world
    if peerTree.rootHash = 0 ∧ localTree.rootHash = 0 then (thread, world)
    else
      let diffs := MerkleTree.diff localTree peerTree
      if diffs = [] then ({ thread with syncs := thread.syncs + 1 }, world)
      else
        let (thread, world) := diffs.foldl (mergeRange callbacks peer) (thread, world)
        ({ thread with syncs := thread.syncs + 1 }, world)

/-- Which peer is picked is up to the generator: it is given by its index. -/
def tick (thread : AntiEntropyThread) (world : World) (pick : Nat) : AntiEntropyThread × World :=
  match thread.peers[pick]? with
  | none => (thread, world)
  | some peer => thread.syncWith callbacks peer world

end AntiEntropyThread

end MiniDynamo
