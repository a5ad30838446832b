import DistributedCache.Lib.FiniteMap
import Mathlib.Data.UInt

/-!
# The cluster configuration of `pkg/metadata`

The controller's picture of the cluster: which data nodes are registered, which node holds which
shard, and an epoch that counts the changes.  `uint64` and `int` are natural numbers here; an epoch
that wraps around would take 2^64 changes of the configuration.  Published configurations are never
changed in place, so the pointers of the source are values.
-/

namespace DistributedCache

open FiniteMap

inductive NodeStatus where
  | active
  | dead
  | joining
  deriving DecidableEq, Repr

/-- `unset` is the empty string, which `metadata.Rebalance` leaves in the field. -/
inductive ShardStatus where
  | active
  | migrating
  | locked
  | unset
  deriving DecidableEq, Repr

structure ShardMetadata where
  id : Nat
  /-- The empty string when the shard has no primary. -/
  primaryID : String
  replicaIDs : List String
  status : ShardStatus
  deriving DecidableEq, Repr

structure NodeMetadata where
  id : String
  address : String
  status : NodeStatus
  /-- `0` is the zero `time.Time`. -/
  lastHeartbeat : Nat
  deriving DecidableEq, Repr

structure ClusterConfig where
  /-- A `uint64`, which would start again from zero after `2 ^ 64 - 1`. -/
  epoch : Nat
  totalShards : Nat
  nodes : Map String NodeMetadata
  shards : Map Nat ShardMetadata
  deriving DecidableEq

namespace ClusterConfig

def newClusterConfig (numShards : Nat) : ClusterConfig where
  epoch := 0
  totalShards := numShards
  nodes := ∅
  shards := (List.range numShards).foldl (fun m i ↦ m.insert i ⟨i, "", [], .active⟩) ∅

theorem lookup_foldl_insert (ids : List Nat) (m : Map Nat ShardMetadata) (k : Nat) :
    (ids.foldl (fun m i ↦ m.insert i ⟨i, "", [], .active⟩) m).lookup k =
      if k ∈ ids then some ⟨k, "", [], .active⟩ else m.lookup k := by
  induction ids generalizing m with
  | nil => simp
  | cons i ids ih =>
    rw [List.foldl_cons, ih]
    by_cases hk : k ∈ ids
    · simp [hk]
    · by_cases hi : k = i
      · subst hi
        simp [hk, Finmap.lookup_insert]
      · simp [hk, hi, Finmap.lookup_insert_of_ne]

/-- A new configuration has its shards, and none of them has a primary or a replica. -/
theorem lookup_newClusterConfig {numShards k : Nat} {shard : ShardMetadata}
    (h : (newClusterConfig numShards).shards.lookup k = some shard) :
    shard = ⟨k, "", [], .active⟩ := by
  unfold newClusterConfig at h
  rw [lookup_foldl_insert] at h
  split at h
  · exact (Option.some.inj h).symm
  · rw [Finmap.lookup_empty] at h
    cases h

/-! ## Nodes -/

def isActive (config : ClusterConfig) (id : String) : Bool :=
  (config.nodes.lookup id).any fun node ↦ node.status = .active

/-- Registered, and not known to be dead. -/
def isLive (config : ClusterConfig) (id : String) : Bool :=
  (config.nodes.lookup id).any fun node ↦ node.status ≠ .dead

variable {config : ClusterConfig} {id : String}

theorem isActive_iff : config.isActive id = true ↔
      ∃ node, config.nodes.lookup id = some node ∧ node.status = .active := by
  simp [isActive, Option.any_eq_true]

theorem isLive_iff : config.isLive id = true ↔
      ∃ node, config.nodes.lookup id = some node ∧ node.status ≠ .dead := by
  simp [isLive, Option.any_eq_true]

theorem isLive_of_isActive (h : config.isActive id = true) : config.isLive id = true := by
  obtain ⟨node, hnode, hstatus⟩ := isActive_iff.mp h
  exact isLive_iff.mpr ⟨node, hnode, by rw [hstatus]; decide⟩

theorem mem_nodes_of_isLive (h : config.isLive id = true) : id ∈ config.nodes := by
  obtain ⟨node, hnode, -⟩ := isLive_iff.mp h
  exact Finmap.mem_of_lookup_eq_some hnode

/-- Where the primary of a shard is. -/
def primaryAddress (config : ClusterConfig) (shardID : Nat) : Option String :=
  (config.shards.lookup shardID).bind fun shard ↦
    (config.nodes.lookup shard.primaryID).map fun node ↦ node.address

theorem primaryAddress_eq_some {shardID : Nat} {address : String} :
    config.primaryAddress shardID = some address ↔
      ∃ shard node, config.shards.lookup shardID = some shard ∧
        config.nodes.lookup shard.primaryID = some node ∧ node.address = address := by
  unfold primaryAddress
  rw [Option.bind_eq_some_iff]
  constructor
  · rintro ⟨shard, hshard, hnode⟩
    obtain ⟨node, hnode, haddress⟩ := Option.map_eq_some_iff.mp hnode
    exact ⟨shard, node, hshard, hnode, haddress⟩
  · rintro ⟨shard, node, hshard, hnode, haddress⟩
    exact ⟨shard, hshard, Option.map_eq_some_iff.mpr ⟨node, hnode, haddress⟩⟩

end ClusterConfig

/-! ## `metadata.Rebalance` -/

/-- What becomes of a shard when a node dies.  Its status is not copied. -/
def ShardMetadata.rebalance (deadNodeID : String) (shard : ShardMetadata) : ShardMetadata :=
  if shard.primaryID = deadNodeID then
    match shard.replicaIDs with
    -- promote the first replica
    | newPrimary :: replicas => ⟨shard.id, newPrimary, replicas, .unset⟩
    | [] => ⟨shard.id, "", shard.replicaIDs, .unset⟩
  else
    ⟨shard.id, shard.primaryID, shard.replicaIDs.filter (· ≠ deadNodeID), .unset⟩

/-- A failure adds no replica. -/
theorem ShardMetadata.replicaIDs_rebalance_subset (deadNodeID : String) (shard : ShardMetadata) :
    (shard.rebalance deadNodeID).replicaIDs ⊆ shard.replicaIDs := by
  unfold rebalance
  split
  · split
    · rename_i newPrimary replicas hreplicas
      rw [hreplicas]
      exact List.subset_cons_self newPrimary replicas
    · exact List.Subset.refl _
  · exact fun r hr ↦ List.mem_of_mem_filter hr

/-- The primary after a failure: the old one, or the first replica, if there is one. -/
theorem ShardMetadata.primaryID_rebalance (deadNodeID : String) (shard : ShardMetadata) :
    (shard.rebalance deadNodeID).primaryID =
      if shard.primaryID = deadNodeID then shard.replicaIDs.head?.getD "" else shard.primaryID := by
  unfold rebalance
  split
  · split
    · rename_i hreplicas
      rw [hreplicas]
      rfl
    · rename_i hreplicas
      rw [hreplicas]
      rfl
  · rfl

def ClusterConfig.rebalance (config : ClusterConfig) (deadNodeID : String) : ClusterConfig where
  epoch := config.epoch + 1
  totalShards := config.totalShards
  nodes := match config.nodes.lookup deadNodeID with
    | some node => config.nodes.insert deadNodeID { node with status := .dead, lastHeartbeat := 0 }
    | none => config.nodes
  shards := mapValues (fun _ ↦ ShardMetadata.rebalance deadNodeID) config.shards

theorem ClusterConfig.keys_rebalance (config : ClusterConfig) (deadNodeID : String) :
    (config.rebalance deadNodeID).nodes.keys = config.nodes.keys := by
  unfold rebalance
  cases hnode : config.nodes.lookup deadNodeID with
  | none => rfl
  | some node =>
    ext id
    simp only [Finmap.mem_keys, Finmap.mem_insert]
    constructor
    · rintro (rfl | hid)
      · exact Finmap.mem_of_lookup_eq_some hnode
      · exact hid
    · exact Or.inr

/-- The other nodes are as before. -/
theorem ClusterConfig.lookup_nodes_rebalance_of_ne {config : ClusterConfig}
    {deadNodeID id : String} (h : id ≠ deadNodeID) :
    (config.rebalance deadNodeID).nodes.lookup id = config.nodes.lookup id := by
  unfold rebalance
  cases config.nodes.lookup deadNodeID with
  | none => rfl
  | some node => exact Finmap.lookup_insert_of_ne _ h

theorem ClusterConfig.isLive_rebalance {config : ClusterConfig} {deadNodeID id : String}
    (h : id ≠ deadNodeID) : (config.rebalance deadNodeID).isLive id = config.isLive id := by
  unfold isLive
  rw [lookup_nodes_rebalance_of_ne h]

theorem ClusterConfig.lookup_shards_rebalance (config : ClusterConfig) (deadNodeID : String)
    (k : Nat) :
    (config.rebalance deadNodeID).shards.lookup k =
      (config.shards.lookup k).map (ShardMetadata.rebalance deadNodeID) :=
  lookup_mapValues _ _ _

end DistributedCache
