import DistributedCache.Controller.WellFormed
import DistributedCache.Metadata.Failures
import DistributedCache.Lib.RoundRobin

/-!
# What `Controller.Rebalance` assigns

One call, undisturbed, on a configuration whose shards lie on active nodes.  It fills up what is
missing and moves nothing, whatever the order in which it runs through the maps, and the primaries
that it hands out are dealt to the active nodes in turn.  A second call finds nothing to do, unless
the first one gave a shard to a node whose name is the empty string, which reads as no primary.
-/

namespace DistributedCache

open FiniteMap RoundRobin

/-! ## Before and after -/

/-- The holders of the shard are distinct active nodes, the primary among them if there is any. -/
def ShardMetadata.Staffed (config : ClusterConfig) (shard : ShardMetadata) : Prop :=
  shard.holders.Nodup ∧ (∀ id ∈ shard.holders, config.isActive id = true) ∧
    (shard.primaryID = "" → shard.replicaIDs = [])
deriving Decidable

def ClusterConfig.Staffed (config : ClusterConfig) : Prop :=
  Every (fun _ shard ↦ shard.Staffed config) config.shards
deriving Decidable

/-- `shard'` is `shard` with what was missing filled up from the active nodes. -/
structure ShardMetadata.Completes (config : ClusterConfig) (shard shard' : ShardMetadata) :
    Prop where
  primary_active : config.isActive shard'.primaryID = true
  primary_kept : shard.primaryID ≠ "" → shard'.primaryID = shard.primaryID
  replicas_kept : shard.replicaIDs <+: shard'.replicaIDs
  nodup : shard'.replicaIDs.Nodup
  replica_active : ∀ r ∈ shard'.replicaIDs, config.isActive r = true
  primary_notMem : shard'.primaryID ∉ shard'.replicaIDs
  length : shard'.replicaIDs.length =
    max shard.replicaIDs.length (min 3 (config.activeIDs.card - 1))

/-- Whether the shard is there and has this primary; the empty string is none. -/
def primaryIs (shards : Map Nat ShardMetadata) (k : Nat) (id : String) : Bool :=
  (shards.lookup k).any fun shard ↦ shard.primaryID = id

/-- The shards that had no primary and got this one. -/
def ClusterConfig.newlyAssigned (before after : ClusterConfig) (id : String) : Finset Nat :=
  before.shards.keys.filter fun k ↦
    primaryIs before.shards k "" = true ∧ primaryIs after.shards k id = true

/-! ## The replicas of one shard -/

theorem length_addedReplicas (desired : Nat) (primaryID : String) (existing : List String)
    (count : Nat) (activeNodes : List String) :
    (addedReplicas desired primaryID existing count activeNodes).length =
      min (desired - count) (activeNodes.filter (· ∉ primaryID :: existing)).length := by
  induction activeNodes generalizing count with
  | nil => simp [addedReplicas]
  | cons nodeID activeNodes ih =>
    unfold addedReplicas
    by_cases hfull : desired ≤ count
    · rw [if_pos hfull, show desired - count = 0 by omega, Nat.zero_min, List.length_nil]
    · rw [if_neg hfull]
      by_cases hskip : nodeID = primaryID ∨ nodeID ∈ existing
      · rw [if_pos hskip, ih, List.filter_cons_of_neg]
        simpa only [List.mem_cons, decide_not, Bool.not_eq_true, Bool.not_eq_false',
          decide_eq_true_eq] using hskip
      · rw [if_neg hskip, List.length_cons, ih, List.filter_cons_of_pos, List.length_cons]
        · omega
        · exact decide_eq_true fun hmem ↦ hskip (List.mem_cons.mp hmem)

/-- What is left of a list when distinct members of it are taken out. -/
theorem length_filter_notMem {nodes held : List String} (hnodes : nodes.Nodup)
    (hheld : held.Nodup) (hsub : held ⊆ nodes) :
    (nodes.filter (· ∉ held)).length + held.length = nodes.length := by
  have hperm : (nodes.filter (· ∈ held)).Perm held := by
    apply (List.perm_ext_iff_of_nodup (hnodes.filter _) hheld).mpr
    intro id
    rw [List.mem_filter, decide_eq_true_eq]
    exact ⟨fun h ↦ h.2, fun h ↦ ⟨hsub h, h⟩⟩
  have hsplit := List.length_eq_length_filter_add (l := nodes) (fun id ↦ decide (id ∈ held))
  rw [hperm.length_eq] at hsplit
  simp only [decide_not]
  omega

/-- When all replicas are active none is dropped, and the new ones stand behind them. -/
theorem replicaIDs_rebalanced {config : ClusterConfig} {shard : ShardMetadata}
    (hactive : ∀ r ∈ shard.replicaIDs, config.isActive r = true) (activeNodes : List String)
    (nodeIndex : Nat) :
    (shard.rebalanced config activeNodes nodeIndex).replicaIDs = shard.replicaIDs ++
      addedReplicas (desiredReplicas activeNodes)
        (shard.rebalanced config activeNodes nodeIndex).primaryID shard.replicaIDs
        shard.replicaIDs.length activeNodes := by
  have hkept : shard.replicaIDs.filter config.isActive = shard.replicaIDs :=
    List.filter_eq_self.mpr hactive
  unfold ShardMetadata.rebalanced fillReplicas
  rw [assignPrimary_replicaIDs]
  split
  · show List.filter _ _ ++ _ = _
    rw [hkept]
  · rename_i hfull
    rw [assignPrimary_replicaIDs]
    -- the loop over the active nodes would stop at once
    cases activeNodes with
    | nil => exact (List.append_nil _).symm
    | cons nodeID activeNodes =>
      unfold addedReplicas
      rw [if_pos (by omega), List.append_nil]

namespace ShardMetadata.Staffed

variable {config : ClusterConfig} {shard : ShardMetadata}

theorem replica_active (h : shard.Staffed config) :
    ∀ r ∈ shard.replicaIDs, config.isActive r = true := by
  obtain ⟨-, hactive, hnone⟩ := h
  intro r hr
  by_cases hempty : shard.primaryID = ""
  · rw [hnone hempty] at hr
    cases hr
  · apply hactive
    unfold holders
    rw [if_neg hempty]
    exact List.mem_cons_of_mem _ hr

-- also of a shard without primary, which has no replicas either
theorem cons_nodup (h : shard.Staffed config) : (shard.primaryID :: shard.replicaIDs).Nodup := by
  obtain ⟨hnodup, -, hnone⟩ := h
  by_cases hempty : shard.primaryID = ""
  · rw [hnone hempty]
    exact List.nodup_singleton _
  · unfold holders at hnodup
    rw [if_neg hempty] at hnodup
    exact hnodup

theorem replicas_nodup (h : shard.Staffed config) : shard.replicaIDs.Nodup :=
  (List.nodup_cons.mp h.cons_nodup).2

theorem primary_notMem (h : shard.Staffed config) : shard.primaryID ∉ shard.replicaIDs :=
  (List.nodup_cons.mp h.cons_nodup).1

theorem primary_active (h : shard.Staffed config) (hassigned : shard.primaryID ≠ "") :
    config.isActive shard.primaryID = true := by
  apply h.2.1
  unfold holders
  rw [if_neg hassigned]
  exact List.mem_cons_self

/-- A shard for which there is nothing to do is complete as it is. -/
theorem completes_self (h : shard.Staffed config) {activeNodes : List String}
    (hactive : Enumerates activeNodes config.activeIDs) (hdone : ¬ shard.Lacking activeNodes) :
    shard.Completes config shard := by
  unfold Lacking desiredReplicas at hdone
  rw [not_or, hactive.length_eq] at hdone
  obtain ⟨hassigned, hmany⟩ := hdone
  refine ⟨h.primary_active hassigned, fun _ ↦ rfl, List.prefix_rfl, h.replicas_nodup,
    h.replica_active, h.primary_notMem, ?_⟩
  omega

/-- What the body of the loop makes of a shard. -/
theorem completes_rebalanced (h : shard.Staffed config) {activeNodes : List String}
    (hactive : Enumerates activeNodes config.activeIDs) (hne : activeNodes ≠ [])
    (nodeIndex : Nat) :
    shard.Completes config (shard.rebalanced config activeNodes nodeIndex) := by
  have hmem : ∀ id, id ∈ activeNodes ↔ config.isActive id = true := by
    intro id
    rw [hactive.mem_iff, mem_activeIDs]
  have hreplicas := replicaIDs_rebalanced h.replica_active activeNodes nodeIndex
  -- the primary of the result, which the replicas are chosen around
  have hprimary : config.isActive (shard.rebalanced config activeNodes nodeIndex).primaryID = true ∧
      (shard.rebalanced config activeNodes nodeIndex).primaryID ∉ shard.replicaIDs := by
    by_cases hempty : shard.primaryID = ""
    · rw [h.2.2 hempty]
      exact ⟨(hmem _).mp (rebalanced_primaryID_mem hempty hne), List.not_mem_nil⟩
    · rw [rebalanced_primaryID hempty]
      exact ⟨h.primary_active hempty, h.primary_notMem⟩
  have hspare : (activeNodes.filter
      (· ∉ (shard.rebalanced config activeNodes nodeIndex).primaryID :: shard.replicaIDs)).length +
      (shard.replicaIDs.length + 1) = config.activeIDs.card := by
    rw [← hactive.length_eq]
    apply length_filter_notMem hactive.nodup (List.nodup_cons.mpr ⟨hprimary.2, h.replicas_nodup⟩)
    intro id hid
    rw [hmem]
    rcases List.mem_cons.mp hid with rfl | hid
    · exact hprimary.1
    · exact h.replica_active id hid
  refine ⟨hprimary.1, rebalanced_primaryID, ?_, ?_, ?_, ?_, ?_⟩
  · rw [hreplicas]
    exact List.prefix_append _ _
  · rw [hreplicas, List.nodup_append]
    refine ⟨h.replicas_nodup, (addedReplicas_sublist _ _ _ _ _).nodup hactive.nodup, ?_⟩
    rintro r hold _ hnew rfl
    exact (mem_addedReplicas hnew).2.2 hold
  · rw [hreplicas]
    intro r hr
    rcases List.mem_append.mp hr with hold | hnew
    · exact h.replica_active r hold
    · exact (hmem r).mp (mem_addedReplicas hnew).1
  · intro hr
    rw [hreplicas] at hr
    rcases List.mem_append.mp hr with hold | hnew
    · exact hprimary.2 hold
    · exact (mem_addedReplicas hnew).2.1 rfl
  · rw [hreplicas, List.length_append, length_addedReplicas, desiredReplicas, hactive.length_eq]
    omega

end ShardMetadata.Staffed

/-! ## The primaries that the loop deals out -/

section Loop

variable {config : ClusterConfig} {activeNodes : List String}

theorem primaryID_rebalanced_of_empty {shard : ShardMetadata} (h : shard.primaryID = "")
    (nodeIndex : Nat) :
    (shard.rebalanced config activeNodes nodeIndex).primaryID = deal activeNodes "" nodeIndex := by
  unfold ShardMetadata.rebalanced assignPrimary
  rw [if_pos h]
  unfold fillReplicas
  split <;> rfl

theorem nodeIndex_visit (loop : RebalanceLoop) (k : Nat) :
    (loop.visit config activeNodes k).nodeIndex =
      loop.nodeIndex + if primaryIs loop.shards k "" = true then 1 else 0 := by
  unfold RebalanceLoop.visit primaryIs
  cases loop.shards.lookup k with
  | none => rfl
  | some shard =>
    show (assignPrimary activeNodes loop.nodeIndex shard).2 = _
    unfold assignPrimary
    by_cases hempty : shard.primaryID = ""
    · simp [hempty]
    · simp [hempty]

theorem primaryIs_visit_of_ne {loop : RebalanceLoop} {k k' : Nat} (h : k' ≠ k) (id : String) :
    primaryIs (loop.visit config activeNodes k).shards k' id = primaryIs loop.shards k' id := by
  unfold primaryIs
  rw [lookup_visit_of_ne h]

/-- A visit deals the next active node to a shard without a primary. -/
theorem primaryIs_visit_self {loop : RebalanceLoop} {k : Nat}
    (h : primaryIs loop.shards k "" = true) (id : String) :
    primaryIs (loop.visit config activeNodes k).shards k id =
      decide (deal activeNodes "" loop.nodeIndex = id) := by
  obtain ⟨shard, hshard, hempty⟩ := Option.any_eq_true _ _ |>.mp h
  unfold primaryIs
  rw [lookup_visit_self hshard]
  show decide (_ = id) = _
  rw [primaryID_rebalanced_of_empty (of_decide_eq_true hempty)]

/-- The loop gives a node as many of the shards without a primary as it is dealt in turn. -/
theorem length_filter_foldl_visit (id : String) {order : List Nat} (hnodup : order.Nodup)
    (loop : RebalanceLoop) :
    (order.filter fun k ↦ primaryIs loop.shards k "" = true ∧
        primaryIs (order.foldl (RebalanceLoop.visit config activeNodes) loop).shards k id =
          true).length +
      share activeNodes "" id loop.nodeIndex =
        share activeNodes "" id
          (order.foldl (RebalanceLoop.visit config activeNodes) loop).nodeIndex := by
  induction order generalizing loop with
  | nil =>
    show 0 + _ = _
    rw [Nat.zero_add]
    rfl
  | cons k order ih =>
    rw [List.nodup_cons] at hnodup
    rw [List.foldl_cons, ← ih hnodup.2, nodeIndex_visit]
    -- the first visit does not touch the shards that come later
    have hrest : (order.filter fun k' ↦ primaryIs loop.shards k' "" = true ∧
        primaryIs (order.foldl (RebalanceLoop.visit config activeNodes)
          (loop.visit config activeNodes k)).shards k' id = true) =
        order.filter fun k' ↦ primaryIs (loop.visit config activeNodes k).shards k' "" = true ∧
          primaryIs (order.foldl (RebalanceLoop.visit config activeNodes)
            (loop.visit config activeNodes k)).shards k' id = true := by
      apply List.filter_congr
      intro k' hk'
      have hne : k' ≠ k := by
        rintro rfl
        exact hnodup.1 hk'
      rw [primaryIs_visit_of_ne hne]
    -- and the later ones do not touch its own
    have hfirst : primaryIs (order.foldl (RebalanceLoop.visit config activeNodes)
        (loop.visit config activeNodes k)).shards k id =
        primaryIs (loop.visit config activeNodes k).shards k id := by
      unfold primaryIs
      rw [lookup_foldl_visit_of_notMem hnodup.1]
    rw [List.filter_cons, hrest, hfirst]
    by_cases hempty : primaryIs loop.shards k "" = true
    · rw [if_pos hempty, share_succ, primaryIs_visit_self hempty]
      by_cases hdealt : deal activeNodes "" loop.nodeIndex = id
      · simp only [hempty, hdealt, decide_true, true_and, if_true, List.length_cons]
        omega
      · simp only [hempty, hdealt, decide_false, Bool.false_eq_true, and_false, if_false,
          Nat.add_zero]
    · simp only [hempty, Bool.false_eq_true, false_and, decide_false, if_false, Nat.add_zero]

end Loop

/-! ## A whole call -/

namespace ClusterConfig

variable {config : ClusterConfig} {activeNodes : List String} {order : List Nat}

@[simp] theorem nodes_runRebalance :
    (config.runRebalance activeNodes order).nodes = config.nodes := by
  unfold runRebalance
  split <;> rfl

theorem not_lacking_of_not_needsUpdate (h : ¬ config.NeedsUpdate activeNodes) {k : Nat}
    {shard : ShardMetadata} (hk : config.shards.lookup k = some shard) :
    ¬ shard.Lacking activeNodes :=
  fun hlacking ↦ h ⟨k, mem_keysWhere.mpr ⟨shard, hk, hlacking⟩⟩

/-- Every shard is completed. -/
theorem completes_runRebalance (hstaffed : config.Staffed) (hne : activeNodes ≠ [])
    (hactive : Enumerates activeNodes config.activeIDs)
    (horder : Enumerates order config.shards.keys) {k : Nat} {shard : ShardMetadata}
    (hk : config.shards.lookup k = some shard) :
    ∃ shard', (config.runRebalance activeNodes order).shards.lookup k = some shard' ∧
      shard.Completes config shard' := by
  unfold runRebalance
  split
  · rename_i hidle
    have hdone : ¬ config.NeedsUpdate activeNodes := hidle.resolve_left hne
    exact ⟨shard, hk, (hstaffed k shard hk).completes_self hactive
      (not_lacking_of_not_needsUpdate hdone hk)⟩
  · obtain ⟨nodeIndex, hnext⟩ :
        ∃ nodeIndex, (config.rebalanceShards config activeNodes order).1.shards.lookup k =
          some (shard.rebalanced config activeNodes nodeIndex) := lookup_rebalanceShards horder hk
    exact ⟨_, hnext, (hstaffed k shard hk).completes_rebalanced hactive hne nodeIndex⟩

/-- No shard appears. -/
theorem lookup_runRebalance_none (horder : Enumerates order config.shards.keys) {k : Nat}
    (hk : config.shards.lookup k = none) :
    (config.runRebalance activeNodes order).shards.lookup k = none := by
  unfold runRebalance
  split
  · exact hk
  · rw [Option.eq_none_iff_forall_ne_some]
    intro shard' hshard'
    obtain ⟨shard, -, hshard, -⟩ := exists_of_lookup_rebalanceShards horder hshard'
    rw [hk] at hshard
    cases hshard

theorem keys_runRebalance (hstaffed : config.Staffed) (hne : activeNodes ≠ [])
    (hactive : Enumerates activeNodes config.activeIDs)
    (horder : Enumerates order config.shards.keys) :
    (config.runRebalance activeNodes order).shards.keys = config.shards.keys := by
  ext k
  rw [Finmap.mem_keys, Finmap.mem_keys]
  cases hk : config.shards.lookup k with
  | none =>
    have hnone : (config.runRebalance activeNodes order).shards.lookup k = none :=
      lookup_runRebalance_none horder hk
    rw [Finmap.lookup_eq_none] at hk hnone
    exact iff_of_false hnone hk
  | some shard =>
    obtain ⟨shard', hshard', -⟩ := completes_runRebalance hstaffed hne hactive horder hk
    exact iff_of_true (Finmap.mem_of_lookup_eq_some hshard') (Finmap.mem_of_lookup_eq_some hk)

/-- How many shards a node gets. -/
theorem card_newlyAssigned (horder : Enumerates order config.shards.keys) (id : String) :
    (config.newlyAssigned (config.rebalanceShards config activeNodes order).1 id).card =
      share activeNodes "" id (order.foldl (RebalanceLoop.visit config activeNodes)
        ⟨config.shards, 0, []⟩).nodeIndex := by
  rw [← length_filter_foldl_visit id horder.nodup, share_zero, Nat.add_zero]
  unfold newlyAssigned
  rw [Finset.card_def, Finset.filter_val, ← horder, Multiset.filter_coe, Multiset.coe_card]
  rfl

/-- The new primaries are spread evenly. -/
theorem newlyAssigned_balanced (hactive : Enumerates activeNodes config.activeIDs)
    (horder : Enumerates order config.shards.keys) {a b : String} (ha : a ∈ config.activeIDs)
    (hb : b ∈ config.activeIDs) :
    (config.newlyAssigned (config.runRebalance activeNodes order) a).card ≤
      (config.newlyAssigned (config.runRebalance activeNodes order) b).card + 1 := by
  unfold runRebalance
  split
  · rename_i hidle
    -- nobody got anything
    have hempty : config.newlyAssigned config a = ∅ := by
      apply Finset.filter_eq_empty_iff.mpr
      intro k _ hnew
      have hne : activeNodes ≠ [] := List.ne_nil_of_mem (hactive.mem_iff.mpr ha)
      obtain ⟨shard, hshard, hnone⟩ := Option.any_eq_true _ _ |>.mp hnew.1
      exact not_lacking_of_not_needsUpdate (hidle.resolve_left hne) hshard
        (Or.inl (of_decide_eq_true hnone))
    rw [hempty, Finset.card_empty]
    exact Nat.zero_le _
  · rw [card_newlyAssigned horder, card_newlyAssigned horder]
    exact share_le hactive.nodup (hactive.mem_iff.mpr ha) (hactive.mem_iff.mpr hb) _

/-- A complete configuration in which every primary has a name needs no update. -/
theorem needsUpdate_runRebalance_iff (hstaffed : config.Staffed) (hne : activeNodes ≠ [])
    (hactive : Enumerates activeNodes config.activeIDs)
    (horder : Enumerates order config.shards.keys) {activeNodes' : List String}
    (hactive' : Enumerates activeNodes' config.activeIDs) :
    (config.runRebalance activeNodes order).NeedsUpdate activeNodes' ↔
      ∃ k, primaryIs (config.runRebalance activeNodes order).shards k "" = true := by
  constructor
  · intro hneeds
    obtain ⟨k, hk⟩ := hneeds
    obtain ⟨shard', hshard', hlacking⟩ := mem_keysWhere.mp hk
    cases hold : config.shards.lookup k with
    | none =>
      rw [lookup_runRebalance_none horder hold] at hshard'
      cases hshard'
    | some shard =>
      obtain ⟨_, hsame, hcomplete⟩ := completes_runRebalance hstaffed hne hactive horder hold
      rw [hshard'] at hsame
      cases hsame
      rcases hlacking with hempty | hfew
      · exact ⟨k, Option.any_eq_true _ _ |>.mpr ⟨shard', hshard', decide_eq_true hempty⟩⟩
      · -- the first call has filled up the replicas
        have hlength := hcomplete.length
        unfold desiredReplicas at hfew
        rw [hactive'.length_eq] at hfew
        omega
  · intro hempty
    obtain ⟨k, hk⟩ := hempty
    obtain ⟨shard', hshard', hnone⟩ := Option.any_eq_true _ _ |>.mp hk
    exact ⟨k, mem_keysWhere.mpr ⟨shard', hshard', Or.inl (of_decide_eq_true hnone)⟩⟩

/-- What decides whether another call does anything. -/
theorem runRebalance_eq_self_iff {activeNodes' : List String} {order' : List Nat}
    (hne : activeNodes' ≠ []) :
    config.runRebalance activeNodes' order' = config ↔ ¬ config.NeedsUpdate activeNodes' := by
  unfold runRebalance
  constructor
  · intro hsame hneeds
    rw [if_neg (by simp [hne, hneeds])] at hsame
    -- an update raises the epoch
    have hepoch := congrArg epoch hsame
    have hraised : (config.rebalanceShards config activeNodes' order').1.epoch =
        config.epoch + 1 := rfl
    omega
  · intro hdone
    rw [if_pos (Or.inr hdone)]

end ClusterConfig

/-- What a call of `Rebalance` leaves. -/
theorem rebalance_completes {config : ClusterConfig} (hstaffed : config.Staffed)
    (hsome : config.activeIDs.Nonempty) {activeNodes : List String} {order : List Nat}
    (hactive : Enumerates activeNodes config.activeIDs)
    (horder : Enumerates order config.shards.keys) :
    (config.runRebalance activeNodes order).nodes = config.nodes ∧
      (config.runRebalance activeNodes order).shards.keys = config.shards.keys ∧
      (∀ k shard, config.shards.lookup k = some shard →
        ∃ shard', (config.runRebalance activeNodes order).shards.lookup k = some shard' ∧
          shard.Completes config shard') ∧
      (∀ a ∈ config.activeIDs, ∀ b ∈ config.activeIDs,
        (config.newlyAssigned (config.runRebalance activeNodes order) a).card ≤
          (config.newlyAssigned (config.runRebalance activeNodes order) b).card + 1) ∧
      (∀ activeNodes' order', Enumerates activeNodes' config.activeIDs →
        Enumerates order' (config.runRebalance activeNodes order).shards.keys →
        ((config.runRebalance activeNodes order).runRebalance activeNodes' order' =
            config.runRebalance activeNodes order ↔
          ∀ k, primaryIs (config.runRebalance activeNodes order).shards k "" = false)) ∧
      (config.isActive "" = false →
        ∀ k, primaryIs (config.runRebalance activeNodes order).shards k "" = false) := by
  have hnonempty : ∀ {nodes : List String}, Enumerates nodes config.activeIDs → nodes ≠ [] := by
    intro nodes hnodes
    obtain ⟨id, hid⟩ := hsome
    exact List.ne_nil_of_mem (hnodes.mem_iff.mpr hid)
  have hne := hnonempty hactive
  refine ⟨ClusterConfig.nodes_runRebalance,
    ClusterConfig.keys_runRebalance hstaffed hne hactive horder,
    fun k shard ↦ ClusterConfig.completes_runRebalance hstaffed hne hactive horder,
    fun a ha b hb ↦ ClusterConfig.newlyAssigned_balanced hactive horder ha hb, ?_, ?_⟩
  · intro activeNodes' order' hactive' _
    rw [ClusterConfig.runRebalance_eq_self_iff (hnonempty hactive'),
      ClusterConfig.needsUpdate_runRebalance_iff hstaffed hne hactive horder hactive', not_exists]
    simp only [Bool.not_eq_true]
  · intro hname k
    rw [Bool.eq_false_iff]
    intro hempty
    obtain ⟨shard', hshard', hnone⟩ := Option.any_eq_true _ _ |>.mp hempty
    cases hold : config.shards.lookup k with
    | none =>
      rw [ClusterConfig.lookup_runRebalance_none horder hold] at hshard'
      cases hshard'
    | some shard =>
      obtain ⟨_, hsame, hcomplete⟩ :=
        ClusterConfig.completes_runRebalance hstaffed hne hactive horder hold
      rw [hshard'] at hsame
      cases hsame
      have hprimary := hcomplete.primary_active
      rw [of_decide_eq_true hnone, hname] at hprimary
      cases hprimary

/-- Three nodes have joined, and one of five shards lies on two of them already. -/
def sampleHalfAssigned : ClusterConfig :=
  ((((ClusterConfig.newClusterConfig 5).applyRegisterNode "a" "a" 1).applyRegisterNode "b" "b"
    2).applyRegisterNode "c" "c" 3).modifyShard 2 fun shard ↦
      { shard with primaryID := "b", replicaIDs := ["c"] }

theorem rebalance_completes_sampleHalfAssigned : sampleHalfAssigned.Staffed ∧
    sampleHalfAssigned.isActive "" = false ∧
    (sampleHalfAssigned.runRebalance ["c", "a", "b"] [4, 2, 0, 1, 3]).runRebalance ["a", "b", "c"]
      [0, 1, 2, 3, 4] = sampleHalfAssigned.runRebalance ["c", "a", "b"] [4, 2, 0, 1, 3] := by
  have hstaffed : sampleHalfAssigned.Staffed := by decide +kernel
  have hname : sampleHalfAssigned.isActive "" = false := by decide +kernel
  have hactive : Enumerates ["c", "a", "b"] sampleHalfAssigned.activeIDs := by decide +kernel
  have horder : Enumerates [4, 2, 0, 1, 3] sampleHalfAssigned.shards.keys := by decide +kernel
  obtain ⟨-, -, -, -, hagain, hnames⟩ :=
    rebalance_completes hstaffed (by decide +kernel) hactive horder
  exact ⟨hstaffed, hname, (hagain ["a", "b", "c"] [0, 1, 2, 3, 4] (by decide +kernel)
    (by decide +kernel)).mpr (hnames hname)⟩

/-- A node without a name is made primary, and the next call finds the shard unassigned. -/
theorem rebalanced_again :
    ∃ config : ClusterConfig, config.Staffed ∧ config.activeIDs.Nonempty ∧
      Enumerates [""] config.activeIDs ∧ Enumerates [0] config.shards.keys ∧
      (config.runRebalance [""] [0]).runRebalance [""] [0] ≠ config.runRebalance [""] [0] :=
  ⟨(ClusterConfig.newClusterConfig 1).applyRegisterNode "" "a" 1, by decide +kernel,
    by decide +kernel, by decide +kernel, by decide +kernel, by decide +kernel⟩

end DistributedCache
