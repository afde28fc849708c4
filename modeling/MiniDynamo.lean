import MiniDynamo.Library.Bytes
import MiniDynamo.Library.Decimal
import MiniDynamo.Library.OrderedMap
import MiniDynamo.Library.FirstSeen
import MiniDynamo.Library.Unicode
import MiniDynamo.Codec.Base64
import MiniDynamo.Clock.VectorClock
import MiniDynamo.Clock.Causality
import MiniDynamo.Clock.Pruning
import MiniDynamo.Clock.Token
import MiniDynamo.Library.Process
import MiniDynamo.Storage.ReplicaOps
import MiniDynamo.Storage.NeverRegress
import MiniDynamo.Storage.ConcurrentReplicate
import MiniDynamo.Net.Wire
import MiniDynamo.Ring.Router
import MiniDynamo.Ring.Placement
import MiniDynamo.Ring.Owners
import MiniDynamo.Ring.Disruption
import MiniDynamo.Coordinator.Coordinator
import MiniDynamo.Coordinator.WritePath
import MiniDynamo.Coordinator.ConcurrentWrites
import MiniDynamo.Coordinator.DistinctAcks
import MiniDynamo.Coordinator.ReadPath
import MiniDynamo.Node.Calls
import MiniDynamo.Node.LocalRepair
import MiniDynamo.Node.SequentialWrites
import MiniDynamo.Node.ClientProtocol
import MiniDynamo.Node.Forwarding
import MiniDynamo.Gossip.Swim
import MiniDynamo.Gossip.Transitions
import MiniDynamo.Gossip.Tombstone
import MiniDynamo.Library.Cluster
import MiniDynamo.Library.ClusterInvariant
import MiniDynamo.Replication.Protocol
import MiniDynamo.Replication.Transport
import MiniDynamo.Replication.Orderly
import MiniDynamo.Replication.Latest
import MiniDynamo.Replication.QuorumWrite
import MiniDynamo.Coordinator.ReadQuorum
import MiniDynamo.Replication.Reads
import MiniDynamo.Replication.ReadPhase
import MiniDynamo.Replication.AckedWrite
import MiniDynamo.Replication.QuorumRead
import MiniDynamo.Replication.DeletedRead
import MiniDynamo.Storage.Convergence
import MiniDynamo.Gossip.Changes
import MiniDynamo.Gossip.Codec
import MiniDynamo.Gossip.FullState
import MiniDynamo.Gossip.Node
import MiniDynamo.Gossip.Handlers
import MiniDynamo.Gossip.Moves
import MiniDynamo.Gossip.DeathNotices
import MiniDynamo.Gossip.Dissemination
import MiniDynamo.Gossip.Queue
import MiniDynamo.Gossip.Farewell
import MiniDynamo.Gossip.Incarnations
import MiniDynamo.Gossip.Addresses
import MiniDynamo.Gossip.RingHistory
import MiniDynamo.Gossip.EqualRings
import MiniDynamo.Gossip.Standing
import MiniDynamo.Gossip.Regard
import MiniDynamo.Gossip.Sync
import MiniDynamo.Gossip.SelfRecords
import MiniDynamo.Gateway.JavaText
import MiniDynamo.Gateway.RingRouter
import MiniDynamo.Gateway.JavaBase64
import MiniDynamo.Gateway.ClusterClient
import MiniDynamo.Gateway.Agreement
import MiniDynamo.Library.Descriptor
import MiniDynamo.Net.Framing
import MiniDynamo.Gateway.JavaFraming
import MiniDynamo.Library.Handles
import MiniDynamo.Net.ConnectionPool
import MiniDynamo.Net.PoolCallers
import MiniDynamo.Hints.HintStore
import MiniDynamo.Hints.Custody
import MiniDynamo.Hints.Recovery
import MiniDynamo.Gossip.CleanStream
import MiniDynamo.Gossip.RingCalls
import MiniDynamo.Clock.Lattice
import MiniDynamo.Clock.PrunedClocks
import MiniDynamo.Coordinator.BornAhead
import MiniDynamo.Coordinator.Reconciliation
import MiniDynamo.Node.ReadRepair
import MiniDynamo.Clock.Malformed
import MiniDynamo.Gossip.Digest
import MiniDynamo.AntiEntropy.MerkleTree
import MiniDynamo.AntiEntropy.MerkleDiff
import MiniDynamo.AntiEntropy.AntiEntropyThread
import MiniDynamo.AntiEntropy.Round
import MiniDynamo.Gossip.GateTurns
import MiniDynamo.Net.PooledClient
import MiniDynamo.Storage.RocksDB
import MiniDynamo.Net.ThreadPool
import MiniDynamo.Gossip.Budgets
import MiniDynamo.Hints.Lifetime
import MiniDynamo.Gateway.Exchange
import MiniDynamo.Gateway.Tombstones
import MiniDynamo.Node.FrameLimits
import MiniDynamo.Gossip.CrashDetection
import MiniDynamo.Gossip.JoinHandshake
import MiniDynamo.Net.Conversations
import MiniDynamo.Gateway.DirectCalls
import MiniDynamo.Library.Returns
import MiniDynamo.Node.Results
import MiniDynamo.Gateway.ClientView
import MiniDynamo.Gateway.RingPoller
import MiniDynamo.Library.ClusterFacts
import MiniDynamo.Replication.Provenance
import MiniDynamo.Coordinator.FanOut
import MiniDynamo.Gateway.Deployment
