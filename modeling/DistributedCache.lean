import DistributedCache.Raft.Wire
import DistributedCache.Raft.AppendOnly
import DistributedCache.Raft.Replicators
import DistributedCache.Raft.StableLeader
import DistributedCache.Raft.DurableVotes
import DistributedCache.Raft.SaveSchedule
import DistributedCache.Raft.Compaction
import DistributedCache.Raft.Bounds
import DistributedCache.Raft.VoteRecord
import DistributedCache.Raft.Transfer
import DistributedCache.Raft.SnapshotFile
import DistributedCache.Raft.CatchUp
import DistributedCache.Raft.Redirect
import DistributedCache.Raft.Reads
import DistributedCache.Raft.Availability
import DistributedCache.Raft.Timers
import DistributedCache.Raft.ConnectionShutdown
import DistributedCache.Cache.Concurrent
import DistributedCache.Controller.Assignment
import DistributedCache.Controller.Rejoin
import DistributedCache.Controller.StateMachine
import DistributedCache.Controller.Registration
import DistributedCache.Controller.Lock
import DistributedCache.Controller.Agreement
import DistributedCache.DataNode.Fencing
import DistributedCache.DataNode.Epochs
import DistributedCache.DataNode.Convergence
import DistributedCache.Client.RoundTrip
import DistributedCache.Cluster.Pull
import DistributedCache.Client.Acknowledged
import DistributedCache.Client.Reads
import DistributedCache.Api.Sequential
