import FTKV.Foundation.Effects
import FTKV.Foundation.Formats
import FTKV.Foundation.Separated
import FTKV.Foundation.Quorums
import FTKV.Foundation.Traffic
import FTKV.Foundation.Locking
import FTKV.Consensus.World
import FTKV.Consensus.Invariants
import FTKV.Consensus.Ballots
import FTKV.Consensus.Logs
import FTKV.Consensus.Evolution
import FTKV.Consensus.Reigns
import FTKV.Consensus.Replication
import FTKV.Consensus.Commitment
import FTKV.Consensus.Behaviors
import FTKV.Raft.Types
import FTKV.Raft.Storage
import FTKV.Raft.Node
import FTKV.Raft.Actions
import FTKV.Raft.WellFormed
import FTKV.Raft.Behavior
import FTKV.Raft.Elections
import FTKV.Raft.Appends
import FTKV.Raft.Operations
import FTKV.Raft.Incarnation
import FTKV.Raft.Durability
import FTKV.Raft.Voting
import FTKV.Raft.Restart
import FTKV.Raft.Emissions
import FTKV.Raft.Indexes
import FTKV.Raft.Replies
import FTKV.Raft.Proposals
import FTKV.Raft.Reactions
import FTKV.Raft.Requests
import FTKV.Raft.Reference
import FTKV.Raft.Repetition
import FTKV.Raft.Repair
import FTKV.Raft.Progress
import FTKV.Raft.FailedProposals
import FTKV.Raft.Saving
import FTKV.Raft.Thorough
import FTKV.Raft.Timing
import FTKV.Raft.Terms
import FTKV.Raft.Roles
import FTKV.Cluster.Model
import FTKV.Cluster.Refinement
import FTKV.Cluster.Simulation
import FTKV.Cluster.Runs
import FTKV.Cluster.Moves
import FTKV.Cluster.Safety
import FTKV.Cluster.Deliveries
import FTKV.Cluster.Hints
import FTKV.Cluster.Provenance
import FTKV.Cluster.Weights
import FTKV.Cluster.Exchange
import FTKV.Cluster.Continuations
import FTKV.Cluster.Elections
import FTKV.Cluster.Progress
import FTKV.Cluster.Monitoring
import FTKV.Storage.FileSystem
import FTKV.Storage.Snapshot
import FTKV.Storage.FilePersistence
import FTKV.Storage.SavedSnapshots
import FTKV.Storage.Crashes
import FTKV.Storage.KvStore
import FTKV.Storage.Concurrency
import FTKV.Storage.SharedDisk
import FTKV.Node.StateCodec
import FTKV.Node.StateRoundTrip
import FTKV.Node.DurableRaftStorage
import FTKV.Node.SizeLimits
import FTKV.Grpc.Protocol
import FTKV.Grpc.Server
import FTKV.Grpc.Client
import FTKV.Grpc.Calls
import FTKV.Grpc.Retries
import FTKV.Grpc.KeyValue
import FTKV.Grpc.Wire
import FTKV.Grpc.Progress
import FTKV.Grpc.Sessions
import FTKV.Grpc.Status
import FTKV.Node.NodeRuntime
import FTKV.Node.PeerList
import FTKV.Node.Environment
import FTKV.Node.Threads
import FTKV.Node.Shutdown
import FTKV.Cluster.Deployment
import FTKV.Cluster.Deployed
import FTKV.Cluster.Hosts
import FTKV.Cluster.Recovery
import FTKV.Cluster.Survival
