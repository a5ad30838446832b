import DistributedCache.Metadata.Model

/-!
# Failures one after another

`metadata.Rebalance` handles the failure of one node.  A shard is held by a line of nodes, its
primary in front and its replicas in the order in which they are promoted.  A failure takes the node
out of every line, wherever it stands, so what a sequence of failures leaves depends on which nodes
failed and not on the order.
-/

namespace DistributedCache

open FiniteMap

/-! ## One shard -/

namespace ShardMetadata

variable {shard : ShardMetadata} {line : List String}

/-- The nodes that hold the shard: its primary, followed by its replicas. -/
def holders (shard : ShardMetadata) : List String :=
  if shard.primaryID = "" then [] else shard.primaryID :: shard.replicaIDs

/-- The empty string marks a missing primary and is no holder. -/
theorem empty_notMem_holders (h : "" ∉ shard.replicaIDs) : "" ∉ shard.holders := by
  unfold holders
  split
  · exact List.not_mem_nil
  · rename_i hassigned
    rw [List.mem_cons, not_or]
    exact ⟨fun heq ↦ hassigned heq.symm, h⟩

/-- The first of the line is the primary and the others are the replicas. -/
structure HeldBy (line : List String) (shard : ShardMetadata) : Prop where
  primaryID : shard.primaryID = line.headD ""
  replicaIDs : shard.replicaIDs = line.tail

theorem heldBy_holders (h : shard.primaryID = "" → shard.replicaIDs = []) :
    shard.HeldBy shard.holders := by
  unfold holders
  split
  · rename_i hnone
    exact ⟨hnone, h hnone⟩
  · exact ⟨rfl, rfl⟩

/-- As long as someone is left, the primary is one of those that are left. -/
theorem HeldBy.primaryID_mem (h : shard.HeldBy line) (hne : line ≠ []) :
    shard.primaryID ∈ line := by
  cases line with
  | nil => exact absurd rfl hne
  | cons first rest =>
    rw [h.primaryID]
    exact List.mem_cons_self

/-- A failure takes the node out of the line. -/
theorem HeldBy.rebalance (h : shard.HeldBy line) (hnodup : line.Nodup) (deadNodeID : String) :
    (shard.rebalance deadNodeID).HeldBy (line.filter (· ≠ deadNodeID)) := by
  obtain ⟨hprimary, hreplicas⟩ := h
  unfold ShardMetadata.rebalance
  cases line with
  | nil =>
    rw [List.headD_nil] at hprimary
    rw [List.tail_nil] at hreplicas
    rw [hreplicas, hprimary]
    split <;> exact ⟨rfl, rfl⟩
  | cons first rest =>
    rw [List.headD_cons] at hprimary
    rw [List.tail_cons] at hreplicas
    rw [List.nodup_cons] at hnodup
    rw [hprimary, hreplicas]
    by_cases hdead : first = deadNodeID
    · -- the dead primary stood in the line once, so everyone behind it stays
      have hstay : rest.filter (· ≠ deadNodeID) = rest := by
        apply List.filter_eq_self.mpr
        intro id hid
        apply decide_eq_true
        rintro rfl
        exact hnodup.1 (hdead ▸ hid)
      rw [if_pos hdead, List.filter_cons_of_neg (by simp [hdead]), hstay]
      cases rest with
      | nil | cons => exact ⟨rfl, rfl⟩
    · rw [if_neg hdead, List.filter_cons_of_pos (by simp [hdead])]
      exact ⟨rfl, rfl⟩

/-- What becomes of a shard when the nodes die one after another. -/
def handleFailures (failed : List String) (shard : ShardMetadata) : ShardMetadata :=
  failed.foldl (fun shard deadNodeID ↦ shard.rebalance deadNodeID) shard

/-- The nodes of the shard that have not failed, in their order. -/
def survivors (failed : List String) (shard : ShardMetadata) : List String :=
  shard.holders.filter (· ∉ failed)

theorem HeldBy.handleFailures (h : shard.HeldBy line) (hnodup : line.Nodup)
    (failed : List String) :
    (shard.handleFailures failed).HeldBy (line.filter (· ∉ failed)) := by
  -- every failure shortens the line that the next one works on
  induction failed generalizing shard line with
  | nil =>
    have hall : line.filter (· ∉ ([] : List String)) = line := by
      apply List.filter_eq_self.mpr
      intro id _
      exact decide_eq_true List.not_mem_nil
    rw [hall]
    exact h
  | cons deadNodeID failed ih =>
    have hline : line.filter (· ∉ deadNodeID :: failed) =
        (line.filter (· ≠ deadNodeID)).filter (· ∉ failed) := by
      rw [List.filter_filter]
      apply List.filter_congr
      intro id _
      simp only [List.mem_cons, not_or, ne_eq, Bool.decide_and, Bool.and_comm]
    rw [hline]
    exact ih (h.rebalance hnodup deadNodeID) (hnodup.filter _)

theorem id_rebalance (deadNodeID : String) (shard : ShardMetadata) :
    (shard.rebalance deadNodeID).id = shard.id := by
  unfold ShardMetadata.rebalance
  split
  · split <;> rfl
  · rfl

theorem status_rebalance (deadNodeID : String) (shard : ShardMetadata) :
    (shard.rebalance deadNodeID).status = .unset := by
  unfold ShardMetadata.rebalance
  split
  · split <;> rfl
  · rfl

theorem id_handleFailures (failed : List String) (shard : ShardMetadata) :
    (shard.handleFailures failed).id = shard.id := by
  induction failed generalizing shard with
  | nil => rfl
  | cons deadNodeID failed ih => exact (ih _).trans (id_rebalance deadNodeID shard)

theorem status_handleFailures (failed : List String) (shard : ShardMetadata) :
    (shard.handleFailures failed).status = if failed = [] then shard.status else .unset := by
  induction failed generalizing shard with
  | nil => rfl
  | cons deadNodeID failed ih =>
    rw [if_neg (List.cons_ne_nil _ _)]
    apply (ih _).trans
    rw [status_rebalance, ite_self]

theorem survivors_congr {failed failed' : List String} (h : ∀ id, id ∈ failed ↔ id ∈ failed')
    (shard : ShardMetadata) : shard.survivors failed = shard.survivors failed' := by
  apply List.filter_congr
  intro id _
  simp only [h id]

/-- The order of the failures, and how often a node failed, leave no trace in a shard. -/
theorem handleFailures_congr {failed failed' : List String}
    (hnodup : shard.holders.Nodup) (hnone : shard.primaryID = "" → shard.replicaIDs = [])
    (h : ∀ id, id ∈ failed ↔ id ∈ failed') :
    shard.handleFailures failed = shard.handleFailures failed' := by
  have hleft := (heldBy_holders hnone).handleFailures hnodup failed
  have hright := (heldBy_holders hnone).handleFailures hnodup failed'
  have hsame : shard.survivors failed = shard.survivors failed' := survivors_congr h shard
  unfold survivors at hsame
  rw [hsame] at hleft
  have hempty : failed = [] ↔ failed' = [] := by
    rw [List.eq_nil_iff_forall_not_mem, List.eq_nil_iff_forall_not_mem]
    simp only [h]
  rw [ShardMetadata.mk.injEq]
  refine ⟨?_, ?_, ?_, ?_⟩
  · rw [id_handleFailures, id_handleFailures]
  · rw [hleft.primaryID, hright.primaryID]
  · rw [hleft.replicaIDs, hright.replicaIDs]
  · rw [status_handleFailures, status_handleFailures]
    simp only [hempty]

end ShardMetadata

/-! ## The configuration -/

/-- What `Rebalance` writes for the dead node. -/
def NodeMetadata.markDead (node : NodeMetadata) : NodeMetadata :=
  { node with status := .dead, lastHeartbeat := 0 }

namespace ClusterConfig

/-- The nodes fail one after another, and `metadata.Rebalance` handles each failure. -/
def handleFailures (config : ClusterConfig) (failed : List String) : ClusterConfig :=
  failed.foldl rebalance config

theorem lookup_nodes_rebalance (config : ClusterConfig) (deadNodeID id : String) :
    (config.rebalance deadNodeID).nodes.lookup id =
      if id = deadNodeID then (config.nodes.lookup id).map .markDead
      else config.nodes.lookup id := by
  by_cases hid : id = deadNodeID
  · subst hid
    rw [if_pos rfl]
    unfold rebalance
    cases hnode : config.nodes.lookup id with
    | none => exact hnode
    | some node => exact Finmap.lookup_insert _
  · rw [if_neg hid]
    exact lookup_nodes_rebalance_of_ne hid

theorem lookup_nodes_handleFailures (config : ClusterConfig) (failed : List String)
    (id : String) :
    (config.handleFailures failed).nodes.lookup id =
      if id ∈ failed then (config.nodes.lookup id).map .markDead
      else config.nodes.lookup id := by
  induction failed generalizing config with
  | nil => rfl
  | cons deadNodeID failed ih =>
    apply (ih _).trans
    rw [lookup_nodes_rebalance]
    by_cases hid : id = deadNodeID
    · -- a node that fails again is marked again, which changes nothing
      rw [if_pos hid, if_pos (List.mem_cons.mpr (Or.inl hid)), Option.map_map]
      split <;> rfl
    · rw [if_neg hid]
      simp only [List.mem_cons, hid, false_or]

theorem lookup_shards_handleFailures (config : ClusterConfig) (failed : List String) (k : Nat) :
    (config.handleFailures failed).shards.lookup k =
      (config.shards.lookup k).map (ShardMetadata.handleFailures failed) := by
  induction failed generalizing config with
  | nil => exact (Option.map_id_apply).symm
  | cons deadNodeID failed ih =>
    apply (ih _).trans
    rw [lookup_shards_rebalance, Option.map_map]
    rfl

theorem epoch_handleFailures (config : ClusterConfig) (failed : List String) :
    (config.handleFailures failed).epoch = config.epoch + failed.length := by
  induction failed generalizing config with
  | nil => rfl
  | cons deadNodeID failed ih =>
    apply (ih _).trans
    show config.epoch + 1 + failed.length = config.epoch + (failed.length + 1)
    omega

theorem totalShards_handleFailures (config : ClusterConfig) (failed : List String) :
    (config.handleFailures failed).totalShards = config.totalShards := by
  induction failed generalizing config with
  | nil => rfl
  | cons deadNodeID failed ih => exact ih _

/-- Every shard has its line of holders: no node twice, and no replica without a primary. -/
def Lined (config : ClusterConfig) : Prop :=
  Every (fun _ shard ↦ shard.holders.Nodup ∧ (shard.primaryID = "" → shard.replicaIDs = []))
    config.shards
deriving Decidable

theorem handleFailures_congr {config : ClusterConfig} (hlined : config.Lined)
    {failed failed' : List String} (h : ∀ id, id ∈ failed ↔ id ∈ failed') :
    (config.handleFailures failed).nodes = (config.handleFailures failed').nodes ∧
      (config.handleFailures failed).shards = (config.handleFailures failed').shards := by
  constructor
  · apply Finmap.ext_lookup
    intro id
    rw [lookup_nodes_handleFailures, lookup_nodes_handleFailures]
    simp only [h id]
  · apply Finmap.ext_lookup
    intro k
    rw [lookup_shards_handleFailures, lookup_shards_handleFailures]
    cases hk : config.shards.lookup k with
    | none => rfl
    | some shard =>
      obtain ⟨hnodup, hnone⟩ := hlined k shard hk
      exact congrArg some (ShardMetadata.handleFailures_congr hnodup hnone h)

theorem handleFailures_perm {config : ClusterConfig} (hlined : config.Lined)
    {failed failed' : List String} (h : failed.Perm failed') :
    config.handleFailures failed = config.handleFailures failed' := by
  obtain ⟨hnodes, hshards⟩ := handleFailures_congr hlined fun _ ↦ h.mem_iff
  rw [ClusterConfig.mk.injEq]
  refine ⟨?_, ?_, hnodes, hshards⟩
  · rw [epoch_handleFailures, epoch_handleFailures, h.length_eq]
  · rw [totalShards_handleFailures, totalShards_handleFailures]

end ClusterConfig

/-- What a sequence of failures leaves of a configuration. -/
theorem failover_placement {config : ClusterConfig} (hlined : config.Lined)
    (failed : List String) :
    (∀ k shard, config.shards.lookup k = some shard →
      ∃ shard', (config.handleFailures failed).shards.lookup k = some shard' ∧
        shard'.HeldBy (shard.survivors failed) ∧
        ((∃ id ∈ shard.holders, id ∉ failed) →
          shard'.primaryID ∈ shard.holders ∧ shard'.primaryID ∉ failed) ∧
        ("" ∉ shard.replicaIDs → shard'.primaryID = "" → ∀ id ∈ shard.holders, id ∈ failed)) ∧
      (config.handleFailures failed).shards.keys = config.shards.keys ∧
      (∀ id, (config.handleFailures failed).nodes.lookup id =
        if id ∈ failed then (config.nodes.lookup id).map .markDead
        else config.nodes.lookup id) ∧
      (config.handleFailures failed).epoch = config.epoch + failed.length ∧
      (∀ failed', (∀ id, id ∈ failed ↔ id ∈ failed') →
        (config.handleFailures failed).nodes = (config.handleFailures failed').nodes ∧
          (config.handleFailures failed).shards = (config.handleFailures failed').shards) ∧
      ∀ failed', failed.Perm failed' →
        config.handleFailures failed = config.handleFailures failed' := by
  refine ⟨?_, ?_, config.lookup_nodes_handleFailures failed, config.epoch_handleFailures failed,
    fun failed' ↦ ClusterConfig.handleFailures_congr hlined,
    fun failed' ↦ ClusterConfig.handleFailures_perm hlined⟩
  · intro k shard hk
    obtain ⟨hnodup, hnone⟩ := hlined k shard hk
    have hheld : (shard.handleFailures failed).HeldBy (shard.survivors failed) :=
      (ShardMetadata.heldBy_holders hnone).handleFailures hnodup failed
    have hleft : (∃ id ∈ shard.holders, id ∉ failed) →
        (shard.handleFailures failed).primaryID ∈ shard.holders ∧
          (shard.handleFailures failed).primaryID ∉ failed := by
      intro hleft
      obtain ⟨id, hid, hsurvives⟩ := hleft
      have hmem : id ∈ shard.survivors failed :=
        List.mem_filter.mpr ⟨hid, decide_eq_true hsurvives⟩
      obtain ⟨hholder, hnot⟩ := List.mem_filter.mp
        (hheld.primaryID_mem (List.ne_nil_of_mem hmem))
      exact ⟨hholder, of_decide_eq_true hnot⟩
    refine ⟨shard.handleFailures failed, ?_, hheld, hleft, ?_⟩
    · rw [ClusterConfig.lookup_shards_handleFailures, hk]
      rfl
    · intro hnames hlost id hid
      by_contra hsurvives
      have hholder := (hleft ⟨id, hid, hsurvives⟩).1
      rw [hlost] at hholder
      exact ShardMetadata.empty_notMem_holders hnames hholder
  · ext k
    rw [Finmap.mem_keys, Finmap.mem_keys, Finmap.mem_iff, Finmap.mem_iff]
    simp only [ClusterConfig.lookup_shards_handleFailures, Option.map_eq_some_iff]
    constructor
    · intro h
      obtain ⟨-, shard, hshard, -⟩ := h
      exact ⟨shard, hshard⟩
    · intro h
      obtain ⟨shard, hshard⟩ := h
      exact ⟨_, shard, hshard, rfl⟩

/-- A shard on three nodes, and one that was never assigned. -/
def sampleLine : ClusterConfig where
  epoch := 7
  totalShards := 2
  nodes := ((∅ : Map String NodeMetadata).insert "a" ⟨"a", "a:1", .active, 3⟩).insert "b"
    ⟨"b", "b:1", .active, 4⟩
  shards := ((∅ : Map Nat ShardMetadata).insert 0 ⟨0, "a", ["b", "c"], .active⟩).insert 1
    ⟨1, "", [], .active⟩

/-- The second node fails before the first, and again after it. -/
theorem failover_placement_sampleLine : sampleLine.Lined ∧
    sampleLine.shards.lookup 0 = some ⟨0, "a", ["b", "c"], .active⟩ ∧
    ∃ shard', (sampleLine.handleFailures ["b", "a", "x", "b"]).shards.lookup 0 = some shard' ∧
      shard'.HeldBy ["c"] := by
  have hlined : sampleLine.Lined := by decide
  obtain ⟨shard', hshard', hheld, -⟩ :=
    (failover_placement hlined ["b", "a", "x", "b"]).1 0 ⟨0, "a", ["b", "c"], .active⟩ (by decide)
  exact ⟨hlined, by decide, shard', hshard', hheld⟩

end DistributedCache
