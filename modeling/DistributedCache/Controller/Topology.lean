import DistributedCache.Metadata.Model

/-!
# How the controller changes the configuration

The parts of `pkg/controller/controller.go` that read or replace `c.config`, one definition for each
region under `c.mu`.  A Go map is ranged over in an undetermined order, which is an argument here.
-/

namespace DistributedCache

open FiniteMap

/-! ## Registration -/

def ClusterConfig.applyRegisterNode (config : ClusterConfig) (nodeID address : String)
    (now : Nat) : ClusterConfig :=
  if nodeID ∈ config.nodes then config
  else
    { config with
      nodes := config.nodes.insert nodeID ⟨nodeID, address, .active, now⟩
      epoch := config.epoch + 1 }

/-! ## `MoveShard` -/

/-- What `MoveShard` keeps in its local variables. -/
structure Migration where
  shardID : Nat
  sourceNodeID : String
  sourceAddress : String
  targetNodeID : String
  targetAddress : String
  deriving DecidableEq, Repr

/-- The first region of `MoveShard`. -/
def ClusterConfig.beginMove (config : ClusterConfig) (shardID : Nat) (targetNodeID : String) :
    Except String Migration :=
  match config.shards.lookup shardID with
  | none => .error s!"shard {shardID} not found"
  | some shard =>
    match config.nodes.lookup shard.primaryID, config.nodes.lookup targetNodeID with
    | some sourceNode, some targetNode =>
      .ok ⟨shardID, shard.primaryID, sourceNode.address, targetNodeID, targetNode.address⟩
    | _, _ => .error "source or target node not found"

/-- What a lookup in `Shards` returns for a missing shard. -/
def ShardMetadata.zero : ShardMetadata := ⟨0, "", [], .unset⟩

/-- A region that writes one shard back and publishes the result. -/
def ClusterConfig.modifyShard (config : ClusterConfig) (shardID : Nat)
    (f : ShardMetadata → ShardMetadata) : ClusterConfig :=
  { config with
    shards := config.shards.insert shardID (f ((config.shards.lookup shardID).getD .zero))
    epoch := config.epoch + 1 }

/-- Phase 2 of `MoveShard`. -/
def ClusterConfig.lockShard (config : ClusterConfig) (shardID : Nat) : ClusterConfig :=
  config.modifyShard shardID fun shard ↦ { shard with status := .locked }

/-- The last region of `MoveShard`.  The replicas stay as they are. -/
def ClusterConfig.cutOver (config : ClusterConfig) (shardID : Nat) (targetNodeID : String) :
    ClusterConfig :=
  config.modifyShard shardID fun shard ↦
    { shard with primaryID := targetNodeID, status := .active }

/-! ## `Controller.Rebalance` -/

structure ReplicaSyncTask where
  shardID : Nat
  primaryID : String
  replicaID : String
  deriving DecidableEq, Repr

/-- `activeNodes` lists these in an undetermined order. -/
def ClusterConfig.activeIDs (config : ClusterConfig) : Finset String :=
  keysWhere (fun node ↦ node.status = .active) config.nodes

def desiredReplicas (activeNodes : List String) : Nat := min (activeNodes.length - 1) 3

/-- The shards for which `Rebalance` does something. -/
def ShardMetadata.Lacking (activeNodes : List String) (shard : ShardMetadata) : Prop :=
  shard.primaryID = "" ∨ shard.replicaIDs.length < desiredReplicas activeNodes
deriving Decidable

/-- `needsUpdate`. -/
def ClusterConfig.NeedsUpdate (config : ClusterConfig) (activeNodes : List String) : Prop :=
  (keysWhere (ShardMetadata.Lacking activeNodes) config.shards).Nonempty
deriving Decidable

def assignPrimary (activeNodes : List String) (nodeIndex : Nat) (shard : ShardMetadata) :
    ShardMetadata × Nat :=
  if shard.primaryID = "" then
    ({ shard with
        primaryID := activeNodes.getD (nodeIndex % activeNodes.length) ""
        status := .active }, nodeIndex + 1)
  else (shard, nodeIndex)

/-- The inner loop over `activeNodes`: the nodes that it appends to `count` replicas. -/
def addedReplicas (desired : Nat) (primaryID : String) (existing : List String) (count : Nat) :
    List String → List String
  | [] => []
  | nodeID :: activeNodes =>
    if desired ≤ count then []
    else if nodeID = primaryID ∨ nodeID ∈ existing then
      addedReplicas desired primaryID existing count activeNodes
    else nodeID :: addedReplicas desired primaryID existing (count + 1) activeNodes

/-- `config` is the configuration that `Rebalance` read before it took the lock again. -/
def fillReplicas (config : ClusterConfig) (activeNodes : List String) (shard : ShardMetadata) :
    ShardMetadata × List String :=
  if shard.replicaIDs.length < desiredReplicas activeNodes then
    let kept := shard.replicaIDs.filter config.isActive
    let added := addedReplicas (desiredReplicas activeNodes) shard.primaryID shard.replicaIDs
      kept.length activeNodes
    ({ shard with replicaIDs := kept ++ added }, added)
  else (shard, [])

/-- The variables of the loop over `newConfig.Shards`. -/
structure RebalanceLoop where
  shards : Map Nat ShardMetadata
  nodeIndex : Nat
  syncTasks : List ReplicaSyncTask

def RebalanceLoop.visit (config : ClusterConfig) (activeNodes : List String)
    (loop : RebalanceLoop) (shardID : Nat) : RebalanceLoop :=
  match loop.shards.lookup shardID with
  | none => loop
  | some shard =>
    let (shard, nodeIndex) := assignPrimary activeNodes loop.nodeIndex shard
    let (shard, added) := fillReplicas config activeNodes shard
    { shards := loop.shards.insert shardID shard
      nodeIndex := nodeIndex
      syncTasks := loop.syncTasks ++ added.map fun r ↦ ⟨shardID, shard.primaryID, r⟩ }

/-- The region of `Rebalance` under the write lock. -/
def ClusterConfig.rebalanceShards (current config : ClusterConfig) (activeNodes : List String)
    (order : List Nat) : ClusterConfig × List ReplicaSyncTask :=
  let loop := order.foldl (RebalanceLoop.visit config activeNodes) ⟨current.shards, 0, []⟩
  ({ current with shards := loop.shards, epoch := current.epoch + 1 }, loop.syncTasks)

/-! ## What each change leaves alone -/

section Frame

variable (config : ClusterConfig) (shardID : Nat) (f : ShardMetadata → ShardMetadata)

theorem lookup_modifyShard_self : (config.modifyShard shardID f).shards.lookup shardID =
    some (f ((config.shards.lookup shardID).getD .zero)) := Finmap.lookup_insert _

theorem lookup_modifyShard_of_ne {k : Nat} (h : k ≠ shardID) :
    (config.modifyShard shardID f).shards.lookup k = config.shards.lookup k :=
  Finmap.lookup_insert_of_ne _ h

end Frame

variable {config : ClusterConfig} {id : String} {activeNodes : List String}
  {nodeID address : String} {now nodeIndex : Nat} {shard : ShardMetadata}

theorem lookup_applyRegisterNode {node : NodeMetadata} (h : config.nodes.lookup id = some node) :
    (config.applyRegisterNode nodeID address now).nodes.lookup id = some node := by
  unfold ClusterConfig.applyRegisterNode
  split
  · exact h
  · rename_i hnew
    have hne : id ≠ nodeID := by
      rintro rfl
      exact hnew (Finmap.mem_of_lookup_eq_some h)
    rw [← h]
    exact Finmap.lookup_insert_of_ne _ hne

@[simp] theorem applyRegisterNode_shards (config : ClusterConfig) (nodeID address : String)
    (now : Nat) : (config.applyRegisterNode nodeID address now).shards = config.shards := by
  unfold ClusterConfig.applyRegisterNode
  split <;> rfl

@[simp] theorem applyRegisterNode_totalShards (config : ClusterConfig) (nodeID address : String)
    (now : Nat) :
    (config.applyRegisterNode nodeID address now).totalShards = config.totalShards := by
  unfold ClusterConfig.applyRegisterNode
  split <;> rfl

theorem mem_applyRegisterNode :
    id ∈ (config.applyRegisterNode nodeID address now).nodes ↔ id = nodeID ∨ id ∈ config.nodes := by
  unfold ClusterConfig.applyRegisterNode
  split
  · rename_i hknown
    constructor
    · exact Or.inr
    · rintro (rfl | hid)
      · exact hknown
      · exact hid
  · exact Finmap.mem_insert

theorem mem_activeIDs : id ∈ config.activeIDs ↔ config.isActive id = true := by
  rw [ClusterConfig.isActive_iff]
  exact mem_keysWhere

theorem beginMove_ok {shardID : Nat} {targetNodeID : String} {m : Migration}
    (h : config.beginMove shardID targetNodeID = .ok m) :
    ∃ shard sourceNode targetNode, config.shards.lookup shardID = some shard ∧
      config.nodes.lookup shard.primaryID = some sourceNode ∧
      config.nodes.lookup targetNodeID = some targetNode ∧
      m = ⟨shardID, shard.primaryID, sourceNode.address, targetNodeID, targetNode.address⟩ := by
  unfold ClusterConfig.beginMove at h
  split at h
  · cases h
  · rename_i shard hshard
    split at h
    · rename_i sourceNode targetNode hsource htarget
      exact ⟨shard, sourceNode, targetNode, hshard, hsource, htarget, (Except.ok.inj h).symm⟩
    · cases h

/-! ## What `Rebalance` makes of one shard -/

/-- The body of the loop over the shards, for one shard. -/
def ShardMetadata.rebalanced (config : ClusterConfig) (activeNodes : List String)
    (nodeIndex : Nat) (shard : ShardMetadata) : ShardMetadata :=
  (fillReplicas config activeNodes (assignPrimary activeNodes nodeIndex shard).1).1

theorem mem_addedReplicas {desired count : Nat} {primaryID r : String} {existing : List String}
    (h : r ∈ addedReplicas desired primaryID existing count activeNodes) :
    r ∈ activeNodes ∧ r ≠ primaryID ∧ r ∉ existing := by
  induction activeNodes generalizing count with
  | nil => cases h
  | cons nodeID activeNodes ih =>
    unfold addedReplicas at h
    split at h
    · cases h
    · split at h
      · obtain ⟨hmem, hrest⟩ := ih h
        exact ⟨List.mem_cons_of_mem _ hmem, hrest⟩
      · rename_i hskip
        rcases List.mem_cons.mp h with rfl | h
        · exact ⟨List.mem_cons_self, fun h ↦ hskip (Or.inl h), fun h ↦ hskip (Or.inr h)⟩
        · obtain ⟨hmem, hrest⟩ := ih h
          exact ⟨List.mem_cons_of_mem _ hmem, hrest⟩

theorem addedReplicas_sublist (desired count : Nat) (primaryID : String)
    (existing activeNodes : List String) :
    (addedReplicas desired primaryID existing count activeNodes).Sublist activeNodes := by
  induction activeNodes generalizing count with
  | nil => exact List.Sublist.refl _
  | cons nodeID activeNodes ih =>
    unfold addedReplicas
    split
    · exact List.nil_sublist _
    · split
      · exact (ih _).cons _
      · exact (ih _).cons_cons _

theorem assignPrimary_replicaIDs :
    (assignPrimary activeNodes nodeIndex shard).1.replicaIDs = shard.replicaIDs := by
  unfold assignPrimary
  split <;> rfl

/-- `Rebalance` keeps a primary. -/
theorem rebalanced_primaryID (h : shard.primaryID ≠ "") :
    (shard.rebalanced config activeNodes nodeIndex).primaryID = shard.primaryID := by
  unfold ShardMetadata.rebalanced assignPrimary
  rw [if_neg h]
  unfold fillReplicas
  split <;> rfl

/-- A shard without a primary gets one of the active nodes. -/
theorem rebalanced_primaryID_mem (h : shard.primaryID = "") (hne : activeNodes ≠ []) :
    (shard.rebalanced config activeNodes nodeIndex).primaryID ∈ activeNodes := by
  have hindex : nodeIndex % activeNodes.length < activeNodes.length :=
    Nat.mod_lt _ (List.length_pos_of_ne_nil hne)
  have hmem : activeNodes.getD (nodeIndex % activeNodes.length) "" ∈ activeNodes := by
    rw [List.getD_eq_getElem?_getD, List.getElem?_eq_getElem hindex, Option.getD_some]
    exact List.getElem_mem hindex
  unfold ShardMetadata.rebalanced assignPrimary
  rw [if_pos h]
  unfold fillReplicas
  split <;> exact hmem

/-- The replicas afterwards: old ones, and active nodes that were no replicas and are not the
primary. -/
theorem rebalanced_replicaIDs (config : ClusterConfig) (activeNodes : List String)
    (nodeIndex : Nat) (shard : ShardMetadata) :
    ∃ kept added, (shard.rebalanced config activeNodes nodeIndex).replicaIDs = kept ++ added ∧
      kept.Sublist shard.replicaIDs ∧ added.Sublist activeNodes ∧
      ∀ r ∈ added, r ≠ (shard.rebalanced config activeNodes nodeIndex).primaryID ∧
        r ∉ shard.replicaIDs := by
  unfold ShardMetadata.rebalanced fillReplicas
  split
  · refine ⟨_, _, rfl, ?_, addedReplicas_sublist _ _ _ _ _, ?_⟩
    · rw [assignPrimary_replicaIDs]
      exact List.filter_sublist
    · intro r hr
      obtain ⟨-, hprimary, hold⟩ := mem_addedReplicas hr
      rw [assignPrimary_replicaIDs] at hold
      exact ⟨hprimary, hold⟩
  · refine ⟨_, [], (List.append_nil _).symm, ?_, List.nil_sublist _, by simp⟩
    rw [assignPrimary_replicaIDs]

/-! ## What the loop makes of all shards -/

section Loop

variable {config : ClusterConfig} {activeNodes : List String}

variable {loop : RebalanceLoop} {k : Nat} {shard : ShardMetadata} {order : List Nat} {shardID : Nat}
  {task : ReplicaSyncTask} {r : String}

theorem lookup_visit_of_ne (h : k ≠ shardID) :
    (loop.visit config activeNodes shardID).shards.lookup k = loop.shards.lookup k := by
  unfold RebalanceLoop.visit
  split
  · rfl
  · exact Finmap.lookup_insert_of_ne _ h

theorem lookup_visit_self (h : loop.shards.lookup k = some shard) :
    (loop.visit config activeNodes k).shards.lookup k =
      some (shard.rebalanced config activeNodes loop.nodeIndex) := by
  unfold RebalanceLoop.visit
  rw [h]
  exact Finmap.lookup_insert _

theorem lookup_foldl_visit_of_notMem (h : k ∉ order) :
    (order.foldl (RebalanceLoop.visit config activeNodes) loop).shards.lookup k =
      loop.shards.lookup k := by
  induction order generalizing loop with
  | nil => rfl
  | cons shardID order ih =>
    rw [List.mem_cons, not_or] at h
    rw [List.foldl_cons, ih h.2, lookup_visit_of_ne h.1]

theorem lookup_foldl_visit_of_mem (hnodup : order.Nodup) (hk : k ∈ order)
    (h : loop.shards.lookup k = some shard) :
    ∃ nodeIndex,
      (order.foldl (RebalanceLoop.visit config activeNodes) loop).shards.lookup k =
        some (shard.rebalanced config activeNodes nodeIndex) := by
  induction order generalizing loop with
  | nil => cases hk
  | cons shardID order ih =>
    rw [List.nodup_cons] at hnodup
    rw [List.foldl_cons]
    by_cases hid : k = shardID
    · subst hid
      refine ⟨loop.nodeIndex, ?_⟩
      rw [lookup_foldl_visit_of_notMem hnodup.1, lookup_visit_self h]
    · apply ih hnodup.2 (List.mem_of_ne_of_mem hid hk)
      rw [lookup_visit_of_ne hid, h]

theorem syncTasks_subset_visit (h : task ∈ loop.syncTasks) :
    task ∈ (loop.visit config activeNodes shardID).syncTasks := by
  unfold RebalanceLoop.visit
  split
  · exact h
  · exact List.mem_append_left _ h

theorem syncTasks_subset_foldl (h : task ∈ loop.syncTasks) :
    task ∈ (order.foldl (RebalanceLoop.visit config activeNodes) loop).syncTasks := by
  induction order generalizing loop with
  | nil => exact h
  | cons shardID order ih =>
    rw [List.foldl_cons]
    exact ih (syncTasks_subset_visit h)

/-- A visit makes a task for every replica that it adds. -/
theorem mem_syncTasks_visit (h : loop.shards.lookup k = some shard)
    (hr : r ∈ (shard.rebalanced config activeNodes loop.nodeIndex).replicaIDs)
    (hnew : r ∉ shard.replicaIDs) :
    ⟨k, (shard.rebalanced config activeNodes loop.nodeIndex).primaryID, r⟩ ∈
      (loop.visit config activeNodes k).syncTasks := by
  have hadded : r ∈ (fillReplicas config activeNodes
      (assignPrimary activeNodes loop.nodeIndex shard).1).2 := by
    unfold ShardMetadata.rebalanced fillReplicas at hr
    unfold fillReplicas
    split at hr
    · rename_i hfew
      rw [if_pos hfew]
      rcases List.mem_append.mp hr with hr | hr
      · rw [assignPrimary_replicaIDs] at hr
        exact absurd (List.mem_of_mem_filter hr) hnew
      · exact hr
    · rw [assignPrimary_replicaIDs] at hr
      exact absurd hr hnew
  unfold RebalanceLoop.visit
  rw [h]
  apply List.mem_append_right
  exact List.mem_map_of_mem hadded

theorem mem_syncTasks_foldl {shard' : ShardMetadata} (hnodup : order.Nodup)
    (h : loop.shards.lookup k = some shard)
    (h' : (order.foldl (RebalanceLoop.visit config activeNodes) loop).shards.lookup k = some shard')
    (hr : r ∈ shard'.replicaIDs) (hnew : r ∉ shard.replicaIDs) : ⟨k, shard'.primaryID, r⟩ ∈
      (order.foldl (RebalanceLoop.visit config activeNodes) loop).syncTasks := by
  induction order generalizing loop with
  | nil =>
    rw [List.foldl_nil, h] at h'
    cases h'
    exact absurd hr hnew
  | cons shardID order ih =>
    rw [List.nodup_cons] at hnodup
    rw [List.foldl_cons] at h' ⊢
    by_cases hid : k = shardID
    · subst hid
      -- the later visits go to other shards, so this one decides what `k` becomes
      rw [lookup_foldl_visit_of_notMem hnodup.1, lookup_visit_self h] at h'
      cases h'
      exact syncTasks_subset_foldl (mem_syncTasks_visit h hr hnew)
    · apply ih hnodup.2 _ h'
      rw [lookup_visit_of_ne hid, h]

end Loop

section RebalanceShards

variable {current config : ClusterConfig} {activeNodes : List String} {order : List Nat} {k : Nat}
  {shard shard' : ShardMetadata}

/-- Every shard is visited once. -/
theorem lookup_rebalanceShards (horder : Enumerates order current.shards.keys)
    (h : current.shards.lookup k = some shard) :
    ∃ nodeIndex, (current.rebalanceShards config activeNodes order).1.shards.lookup k =
      some (shard.rebalanced config activeNodes nodeIndex) := by
  apply lookup_foldl_visit_of_mem horder.nodup _ h
  rw [horder.mem_iff, Finmap.mem_keys]
  exact Finmap.mem_of_lookup_eq_some h

/-- No shard appears. -/
theorem exists_of_lookup_rebalanceShards (horder : Enumerates order current.shards.keys)
    (h : (current.rebalanceShards config activeNodes order).1.shards.lookup k = some shard') :
    ∃ shard nodeIndex, current.shards.lookup k = some shard ∧
      shard' = shard.rebalanced config activeNodes nodeIndex := by
  cases hk : current.shards.lookup k with
  | none =>
    have hnot : k ∉ order := by
      rw [horder.mem_iff, Finmap.mem_keys]
      exact Finmap.lookup_eq_none.mp hk
    have hsame : (current.rebalanceShards config activeNodes order).1.shards.lookup k = none := by
      rw [← hk]
      exact lookup_foldl_visit_of_notMem hnot
    rw [hsame] at h
    cases h
  | some shard =>
    obtain ⟨nodeIndex, hnext⟩ :
        ∃ nodeIndex, (current.rebalanceShards config activeNodes order).1.shards.lookup k =
          some (shard.rebalanced config activeNodes nodeIndex) := lookup_rebalanceShards horder hk
    rw [hnext] at h
    exact ⟨shard, nodeIndex, rfl, (Option.some.inj h).symm⟩

/-- Every replica that `Rebalance` adds has a task. -/
theorem mem_syncTasks_rebalanceShards {r : String} (horder : Enumerates order current.shards.keys)
    (h : current.shards.lookup k = some shard)
    (h' : (current.rebalanceShards config activeNodes order).1.shards.lookup k = some shard')
    (hr : r ∈ shard'.replicaIDs) (hnew : r ∉ shard.replicaIDs) :
    ⟨k, shard'.primaryID, r⟩ ∈ (current.rebalanceShards config activeNodes order).2 :=
  mem_syncTasks_foldl horder.nodup h h' hr hnew

end RebalanceShards

end DistributedCache
