import DistributedCache.Controller.Topology
import DistributedCache.Lib.Transition

/-!
# Well-formed topologies

The operations of the controller one after another, each run to its end, on one configuration.
`MoveShard` makes its target the primary and leaves the list of replicas as it is, so a target that
is a replica already ends up as both.  Apart from that, and from a node registered under the empty
name, every configuration that is reached is well formed.
-/

namespace DistributedCache

open FiniteMap Transition

/-! ## Whole operations -/

/-- `Controller.Rebalance` with nothing in between its regions. -/
def ClusterConfig.runRebalance (config : ClusterConfig) (activeNodes : List String)
    (order : List Nat) : ClusterConfig :=
  if activeNodes = [] ∨ ¬ config.NeedsUpdate activeNodes then config
  else (config.rebalanceShards config activeNodes order).1

/-- A call of `MoveShard` whose pulls succeed. -/
def ClusterConfig.runMoveShard (config : ClusterConfig) (shardID : Nat) (targetNodeID : String) :
    Except String ClusterConfig :=
  (config.beginMove shardID targetNodeID).map fun m ↦
    (config.lockShard m.shardID).cutOver m.shardID m.targetNodeID

inductive TopologyAction where
  | registerNode (nodeID address : String) (now : Nat)
  | handleNodeFailure (nodeID : String)
  | rebalance (activeNodes : List String) (order : List Nat)
  | moveShard (shardID : Nat) (targetNodeID : String)
  deriving DecidableEq

def ClusterConfig.operate (config : ClusterConfig) : TopologyAction → Option ClusterConfig
  | .registerNode nodeID address now => some (config.applyRegisterNode nodeID address now)
  | .handleNodeFailure nodeID => some (config.rebalance nodeID)
  | .rebalance activeNodes order =>
    if Enumerates activeNodes config.activeIDs ∧ Enumerates order config.shards.keys then
      some (config.runRebalance activeNodes order)
    else none
  | .moveShard shardID targetNodeID =>
    if config.isActive targetNodeID then (config.runMoveShard shardID targetNodeID).toOption
    else none

/-! ## Well-formedness -/

structure ShardMetadata.WellFormed (config : ClusterConfig) (shard : ShardMetadata) : Prop where
  primary_notMem : shard.primaryID ∉ shard.replicaIDs
  nodup : shard.replicaIDs.Nodup
  primary_live : shard.primaryID ≠ "" → config.isLive shard.primaryID = true
  replica_live : ∀ r ∈ shard.replicaIDs, config.isLive r = true
  unassigned : shard.primaryID = "" → shard.replicaIDs = []

def ClusterConfig.WellFormed (config : ClusterConfig) : Prop :=
  ∀ k shard, config.shards.lookup k = some shard → shard.WellFormed config

/-- The condition under which well-formedness is kept: names are not empty, and a shard is not
moved to one of its own replicas. -/
def Placeable (config : ClusterConfig) : TopologyAction → Prop
  | .registerNode nodeID _ _ => nodeID ≠ ""
  | .moveShard shardID targetNodeID =>
    ∀ shard ∈ config.shards.lookup shardID, targetNodeID ∉ shard.replicaIDs
  | _ => True

instance (config : ClusterConfig) : ∀ a, Decidable (Placeable config a)
  | .registerNode _ _ _ => inferInstanceAs (Decidable (_ ≠ _))
  | .moveShard _ _ => inferInstanceAs (Decidable (∀ shard ∈ _, _ ∉ _))
  | .handleNodeFailure _ | .rebalance _ _ => isTrue trivial

/-! ## One shard -/

namespace ShardMetadata.WellFormed

variable {config config' : ClusterConfig} {shard : ShardMetadata}

/-- More live nodes do no harm. -/
theorem mono (h : shard.WellFormed config)
    (hlive : ∀ id, config.isLive id = true → config'.isLive id = true) :
    shard.WellFormed config' :=
  ⟨h.primary_notMem, h.nodup, fun hne ↦ hlive _ (h.primary_live hne),
    fun r hr ↦ hlive _ (h.replica_live r hr), h.unassigned⟩

theorem rebalance (h : shard.WellFormed config) (hname : "" ∉ config.nodes)
    (deadNodeID : String) :
    (shard.rebalance deadNodeID).WellFormed (config.rebalance deadNodeID) := by
  have hstay : ∀ id, id ≠ deadNodeID → config.isLive id = true →
      (config.rebalance deadNodeID).isLive id = true := by
    intro id hne hlive
    rw [ClusterConfig.isLive_rebalance hne, hlive]
  unfold ShardMetadata.rebalance
  split
  · rename_i hdead
    cases hreplicas : shard.replicaIDs with
    | nil =>
      exact ⟨by simp, List.nodup_nil, fun hne ↦ absurd rfl hne, by simp, fun _ ↦ rfl⟩
    | cons newPrimary replicas =>
      have hnodup := h.nodup
      have hlive := h.replica_live
      have hnot := h.primary_notMem
      rw [hreplicas, List.nodup_cons] at hnodup
      rw [hreplicas] at hlive hnot
      -- the dead node was the primary, hence none of the replicas
      have hne : ∀ r ∈ newPrimary :: replicas, r ≠ deadNodeID := by
        rintro r hr rfl
        rw [hdead] at hnot
        exact hnot hr
      have hnew := hlive newPrimary List.mem_cons_self
      refine ⟨hnodup.1, hnodup.2, ?_, ?_, ?_⟩
      · intro _
        exact hstay newPrimary (hne newPrimary List.mem_cons_self) hnew
      · intro r hr
        have hmem := List.mem_cons_of_mem newPrimary hr
        exact hstay r (hne r hmem) (hlive r hmem)
      · rintro rfl
        exact absurd (ClusterConfig.mem_nodes_of_isLive hnew) hname
  · rename_i hother
    refine ⟨?_, h.nodup.filter _, ?_, ?_, ?_⟩
    · intro hmem
      exact h.primary_notMem (List.mem_of_mem_filter hmem)
    · intro hne
      exact hstay shard.primaryID hother (h.primary_live hne)
    · intro r hr
      obtain ⟨hmem, hne⟩ := List.mem_filter.mp hr
      exact hstay r (of_decide_eq_true hne) (h.replica_live r hmem)
    · intro hempty
      rw [h.unassigned hempty, List.filter_nil]

theorem rebalanced (h : shard.WellFormed config) (hname : "" ∉ config.nodes)
    {activeNodes : List String} (hne : activeNodes ≠ [])
    (hactive : Enumerates activeNodes config.activeIDs) (nodeIndex : Nat) :
    (shard.rebalanced config activeNodes nodeIndex).WellFormed config := by
  have hlive : ∀ id ∈ activeNodes, config.isLive id = true := by
    intro id hid
    rw [hactive.mem_iff, mem_activeIDs] at hid
    exact ClusterConfig.isLive_of_isActive hid
  have hprimary : config.isLive (shard.rebalanced config activeNodes nodeIndex).primaryID = true ∧
      (shard.rebalanced config activeNodes nodeIndex).primaryID ∉ shard.replicaIDs := by
    by_cases hempty : shard.primaryID = ""
    · rw [h.unassigned hempty]
      exact ⟨hlive _ (rebalanced_primaryID_mem hempty hne), List.not_mem_nil⟩
    · rw [rebalanced_primaryID hempty]
      exact ⟨h.primary_live hempty, h.primary_notMem⟩
  obtain ⟨kept, added, hreplicas, hkept, hadded, hnew⟩ :=
    rebalanced_replicaIDs config activeNodes nodeIndex shard
  refine ⟨?_, ?_, fun _ ↦ hprimary.1, ?_, ?_⟩
  · rw [hreplicas, List.mem_append]
    rintro (hmem | hmem)
    · exact hprimary.2 (hkept.subset hmem)
    · exact (hnew _ hmem).1 rfl
  · rw [hreplicas, List.nodup_append]
    refine ⟨hkept.nodup h.nodup, hadded.nodup hactive.nodup, ?_⟩
    rintro a ha b hb rfl
    exact (hnew a hb).2 (hkept.subset ha)
  · rw [hreplicas]
    intro r hr
    rcases List.mem_append.mp hr with hr | hr
    · exact h.replica_live r (hkept.subset hr)
    · exact hlive r (hadded.subset hr)
  · intro hempty
    rw [hempty] at hprimary
    exact absurd (ClusterConfig.mem_nodes_of_isLive hprimary.1) hname

end ShardMetadata.WellFormed

/-! ## All shards -/

namespace ClusterConfig

variable {config config' : ClusterConfig}

theorem newClusterConfig_wellFormed (numShards : Nat) :
    (newClusterConfig numShards).WellFormed := by
  intro k shard h
  rw [lookup_newClusterConfig h]
  exact ⟨by simp, List.nodup_nil, fun hne ↦ absurd rfl hne, by simp, fun _ ↦ rfl⟩

theorem isLive_applyRegisterNode {nodeID address id : String} {now : Nat}
    (h : config.isLive id = true) :
    (config.applyRegisterNode nodeID address now).isLive id = true := by
  obtain ⟨node, hnode, hstatus⟩ := isLive_iff.mp h
  exact isLive_iff.mpr ⟨node, lookup_applyRegisterNode hnode, hstatus⟩

theorem WellFormed.registerNode (h : config.WellFormed) (nodeID address : String) (now : Nat) :
    (config.applyRegisterNode nodeID address now).WellFormed := by
  intro k shard hk
  rw [applyRegisterNode_shards] at hk
  exact (h k shard hk).mono fun _ ↦ isLive_applyRegisterNode

theorem WellFormed.handleNodeFailure (h : config.WellFormed) (hname : "" ∉ config.nodes)
    (nodeID : String) : (config.rebalance nodeID).WellFormed := by
  intro k shard hk
  rw [lookup_shards_rebalance] at hk
  obtain ⟨old, hold, rfl⟩ := Option.map_eq_some_iff.mp hk
  exact (h k old hold).rebalance hname nodeID

theorem WellFormed.runRebalance (h : config.WellFormed) (hname : "" ∉ config.nodes)
    {activeNodes : List String} {order : List Nat}
    (hactive : Enumerates activeNodes config.activeIDs)
    (horder : Enumerates order config.shards.keys) :
    (config.runRebalance activeNodes order).WellFormed := by
  unfold ClusterConfig.runRebalance
  split
  · exact h
  · rename_i hwork
    intro k shard' hk
    obtain ⟨shard, nodeIndex, hshard, rfl⟩ := exists_of_lookup_rebalanceShards horder hk
    have hne : activeNodes ≠ [] := fun hempty ↦ hwork (Or.inl hempty)
    exact ((h k shard hshard).rebalanced hname hne hactive nodeIndex).mono fun _ ↦ id

theorem runMoveShard_ok {shardID : Nat} {targetNodeID : String}
    (hok : config.runMoveShard shardID targetNodeID = .ok config') :
    ∃ shard, config.shards.lookup shardID = some shard ∧
      config' = (config.lockShard shardID).cutOver shardID targetNodeID := by
  unfold ClusterConfig.runMoveShard at hok
  cases hbegin : config.beginMove shardID targetNodeID with
  | error e =>
    rw [hbegin] at hok
    cases hok
  | ok m =>
    rw [hbegin] at hok
    obtain ⟨shard, sourceNode, targetNode, hshard, -, -, hm⟩ := beginMove_ok hbegin
    subst hm
    exact ⟨shard, hshard, (Except.ok.inj hok).symm⟩

theorem WellFormed.runMoveShard (h : config.WellFormed) (hname : "" ∉ config.nodes)
    {shardID : Nat} {targetNodeID : String}
    (hok : config.runMoveShard shardID targetNodeID = .ok config')
    (hactive : config.isActive targetNodeID = true)
    (hfree : ∀ shard ∈ config.shards.lookup shardID, targetNodeID ∉ shard.replicaIDs) :
    config'.WellFormed := by
  obtain ⟨shard, hshard, rfl⟩ := runMoveShard_ok hok
  have hlive := isLive_of_isActive hactive
  intro k shard' hk
  by_cases hid : k = shardID
  · subst hid
    -- both regions write this shard back, the second with the new primary
    have hmoved : shard' = { shard with primaryID := targetNodeID, status := .active } := by
      unfold cutOver at hk
      rw [lookup_modifyShard_self, lockShard, lookup_modifyShard_self, hshard] at hk
      exact (Option.some.inj hk).symm
    subst hmoved
    have hold := h k shard hshard
    refine ⟨hfree shard hshard, hold.nodup, fun _ ↦ hlive, hold.replica_live, ?_⟩
    intro hempty
    rw [show targetNodeID = "" from hempty] at hlive
    exact absurd (mem_nodes_of_isLive hlive) hname
  · unfold cutOver lockShard at hk
    rw [lookup_modifyShard_of_ne _ _ _ hid, lookup_modifyShard_of_ne _ _ _ hid] at hk
    exact (h k shard' hk).mono fun _ ↦ id

/-- One operation keeps the topology well formed and the empty name unused. -/
theorem WellFormed.operate {a : TopologyAction} (h : config.WellFormed)
    (hname : "" ∉ config.nodes) (hplace : Placeable config a)
    (hstep : config.operate a = some config') : config'.WellFormed ∧ "" ∉ config'.nodes := by
  cases a with
  | registerNode nodeID address now =>
    cases hstep
    refine ⟨h.registerNode nodeID address now, ?_⟩
    rw [mem_applyRegisterNode]
    rintro (hempty | hmem)
    · exact hplace hempty.symm
    · exact hname hmem
  | handleNodeFailure nodeID =>
    cases hstep
    refine ⟨h.handleNodeFailure hname nodeID, ?_⟩
    rw [← Finmap.mem_keys, keys_rebalance, Finmap.mem_keys]
    exact hname
  | rebalance activeNodes order =>
    obtain ⟨⟨hactive, horder⟩, hnext⟩ := Option.ite_none_right_eq_some.mp hstep
    cases hnext
    refine ⟨h.runRebalance hname hactive horder, ?_⟩
    unfold ClusterConfig.runRebalance
    split <;> exact hname
  | moveShard shardID targetNodeID =>
    obtain ⟨hactive, hnext⟩ := Option.ite_none_right_eq_some.mp hstep
    cases hok : config.runMoveShard shardID targetNodeID with
    | error e =>
      rw [hok] at hnext
      cases hnext
    | ok moved =>
      rw [hok] at hnext
      cases hnext
      refine ⟨h.runMoveShard hname hok hactive hplace, ?_⟩
      obtain ⟨shard, -, rfl⟩ := runMoveShard_ok hok
      exact hname

end ClusterConfig

/-- Every topology that is reached without moving a shard to one of its replicas is well formed. -/
theorem topology_wellFormed {numShards : Nat} {config : ClusterConfig}
    (hrun : Reaches ClusterConfig.operate Placeable (.newClusterConfig numShards) config) :
    config.WellFormed := by
  have hboth : config.WellFormed ∧ "" ∉ config.nodes := by
    refine Reaches.invariant (fun config ↦ config.WellFormed ∧ "" ∉ config.nodes) ?_ ?_ hrun
    · exact ⟨ClusterConfig.newClusterConfig_wellFormed numShards, Finmap.notMem_empty⟩
    · intro config a config' _ hinv hplace hstep
      exact hinv.1.operate hinv.2 hplace hstep
  exact hboth.1

/-- Two nodes join, and each of ten shards gets a primary and a replica. -/
def samplePlacement : List TopologyAction :=
  [.registerNode "a" "a" 1, .registerNode "b" "b" 2, .rebalance ["a", "b"] (List.range 10)]

/-- A third node joins and takes over a shard. -/
theorem topology_wellFormed_thirdNode :
    ∃ config, Reaches ClusterConfig.operate Placeable (.newClusterConfig 10) config ∧
      (config.shards.lookup 0 = some ⟨0, "c", ["b"], .active⟩) ∧ config.WellFormed := by
  obtain ⟨config, hrun, hplaced⟩ :
      ∃ config, Reaches ClusterConfig.operate Placeable (.newClusterConfig 10) config ∧
        config.shards.lookup 0 = some ⟨0, "c", ["b"], .active⟩ :=
    exists_reaches_of_exec
      (samplePlacement ++ [.registerNode "c" "c" 3, .moveShard 0 "c"]) (by decide +kernel)
  exact ⟨config, hrun, hplaced, topology_wellFormed hrun⟩

/-- Moving the shard to its replica leaves that node both primary and replica. -/
theorem moved_to_replica :
    ∃ config, Reachable ClusterConfig.operate (.newClusterConfig 10) config ∧
      ¬ config.WellFormed := by
  obtain ⟨config, hrun, hplaced⟩ :
      ∃ config, Reachable ClusterConfig.operate (.newClusterConfig 10) config ∧
        config.shards.lookup 0 = some ⟨0, "b", ["b"], .active⟩ :=
    exists_reaches_of_exec (samplePlacement ++ [.moveShard 0 "b"]) (by decide +kernel)
  refine ⟨config, hrun, fun hwf ↦ ?_⟩
  exact (hwf 0 _ hplaced).primary_notMem List.mem_cons_self

end DistributedCache
