import DistributedCache.Cluster.Freshness

/-!
# Promotion of a replica

`HandleNodeFailure` promotes the first replica that is listed.  `Rebalance` has listed it before it
pulled anything, and a primary that has not fetched the new configuration yet acknowledges writes
that it never sends there.
-/

namespace DistributedCache

open FiniteMap Transition

/-- The event begins the replication of a write, or answers it with 200. -/
def WriteEvent.counts : WriteEvent → Bool
  | .begun _ _ => true
  | .ended _ _ reply => reply = DataNode.written

/-- What a copy holds after an acknowledged write: its value, or that of a later one. -/
theorem later_of_possible {s : DataPlane} {key : String} {before after : List WriteEvent} {id : Nat}
    {write : Write} {value : Option String} (hkey : write.key = key)
    (hhistory : s.history = before ++ .ended id write DataNode.written :: after)
    (h : value ∈ Register.possible (s.registerHistory key)) :
    value = write.effect ∨
      ∃ e ∈ after, e.counts = true ∧ e.write.key = key ∧ e.write.effect = value := by
  unfold DataPlane.registerHistory at h
  rw [hhistory, List.filterMap_append, List.filterMap_cons, WriteEvent.about_written hkey] at h
  rcases Register.possible_after h with hvalue | hlater | hlater
  · exact Or.inl hvalue
  · obtain ⟨e, hmem, he⟩ := List.mem_filterMap.mp hlater
    cases e with
    | begun id' write' =>
      obtain ⟨hkey', heffect⟩ := Option.ite_none_right_eq_some.mp he
      cases heffect
      exact Or.inr ⟨_, hmem, rfl, hkey', rfl⟩
    | ended id' write' reply =>
      obtain ⟨-, heffect⟩ := Option.ite_none_right_eq_some.mp he
      cases heffect
  · obtain ⟨e, hmem, he⟩ := List.mem_filterMap.mp hlater
    cases e with
    | begun id' write' =>
      obtain ⟨-, heffect⟩ := Option.ite_none_right_eq_some.mp he
      cases heffect
    | ended id' write' reply =>
      obtain ⟨⟨hkey', hreply⟩, heffect⟩ := Option.ite_none_right_eq_some.mp he
      cases heffect
      exact Or.inr ⟨_, hmem, decide_eq_true hreply, hkey', rfl⟩

/-- A primary that is given up in order leaves the shard to a registered node. -/
theorem exists_primaryAddress_rebalance {shardID : Nat} {w w' : World} {shard : ShardMetadata}
    (hplace : Placement shardID w) (hplace' : Placement shardID w')
    (hshard : w.controller.config.shards.lookup shardID = some shard)
    (hok : Orderly.FailsInOrder shardID w shard.primaryID)
    (hconfig : w'.controller.config = w.controller.config.rebalance shard.primaryID) :
    ∃ address, w'.controller.config.primaryAddress shardID = some address := by
  obtain ⟨r, hr, -⟩ := hok shard hshard rfl
  have hshard' : w'.controller.config.shards.lookup shardID =
      some (shard.rebalance shard.primaryID) := by
    rw [hconfig, ClusterConfig.lookup_shards_rebalance, hshard]
    rfl
  have hprimary : (shard.rebalance shard.primaryID).primaryID = r := by
    rw [ShardMetadata.primaryID_rebalance, if_pos rfl, hr]
    rfl
  have hne : r ≠ "" := by
    rintro rfl
    exact hplace.named (hplace.replica shard hshard "" (List.mem_of_mem_head? hr))
  have hregistered := hplace'.primary _ hshard' (hprimary.symm ▸ hne)
  obtain ⟨node, hnode⟩ := Finmap.mem_iff.mp hregistered
  exact ⟨node.address, ClusterConfig.primaryAddress_eq_some.mpr ⟨_, node, hshard', hnode, rfl⟩⟩

/-- In a run in which pulls, writes and promotions are in order, the node that is promoted when the
primary fails holds what was acknowledged, or a later write. -/
theorem acknowledged_survives_failover {numShards duration id : Nat} {nodeID : String → String}
    {key : String} {w w' : World} {shard : ShardMetadata} {write : Write}
    {before after : List WriteEvent}
    (hrun : Reaches World.step (Orderly (shardIDOf key numShards) key)
      (.start numShards duration nodeID) w)
    (hput : w.data.history = before ++ .ended id write DataNode.written :: after)
    (hkey : write.key = key)
    (hshard : w.controller.config.shards.lookup (shardIDOf key numShards) = some shard)
    (hok : Orderly (shardIDOf key numShards) key w
      (.controller (.handleNodeFailure shard.primaryID)))
    (hfailure : w.step (.controller (.handleNodeFailure shard.primaryID)) = some w') :
    ∃ address, w'.controller.config.primaryAddress (shardIDOf key numShards) = some address ∧
      (w'.data.cell address key = write.effect ∨
        ∃ e ∈ after, e.counts = true ∧ e.write.key = key ∧
          e.write.effect = w'.data.cell address key) := by
  have hfresh := fresh_reaches rfl hrun
  have hfresh' := hfresh.step rfl hok hfailure
  obtain ⟨hdata, hconfig⟩ : w'.data = w.data ∧
      w'.controller.config = w.controller.config.rebalance shard.primaryID := by
    cases hfailure
    exact ⟨rfl, rfl⟩
  obtain ⟨address, haddress⟩ := exists_primaryAddress_rebalance hfresh.regular.placement
    hfresh'.regular.placement hshard hok hconfig
  rw [← hdata] at hput
  exact ⟨address, haddress, later_of_possible hkey hput
    (hfresh'.holder address (World.holds_primaryAddress haddress))⟩

/-- `Rebalance` lists `b` as a replica of all shards. -/
def sampleReplica : List WorldAction :=
  [.controller (.rebalance ["a", "b"]), .controller (.rebalanceShards 0 (List.range 10))]

/-- The replica pulls shard 0 and the primary fetches the new configuration before the put. -/
theorem acknowledged_survives_failover_synced :
    ∃ w w' : World,
      Reaches World.step (Orderly (shardIDOf "k" 10) "k") (.start 10 40 id) w ∧
      w.step (.controller (.handleNodeFailure "a")) = some w' ∧
      w'.controller.config.primaryAddress (shardIDOf "k" 10) = some "b" ∧
      w'.data.cell "b" "k" = some "v" := by
  obtain ⟨w, w', hrun, ⟨hput, hshard⟩, hok, hfailure, hpromoted⟩ :
      ∃ w w', Reaches World.step (Orderly (shardIDOf "k" 10) "k") (.start 10 40 id) w ∧
        (w.data.history = [.begun 0 ⟨"a", .put ⟨"k", "v", 4⟩⟩] ++
            [.ended 0 ⟨"a", .put ⟨"k", "v", 4⟩⟩ DataNode.written] ∧
          w.controller.config.shards.lookup (shardIDOf "k" 10) = some ⟨0, "a", ["b"], .active⟩) ∧
        Orderly (shardIDOf "k" 10) "k" w (.controller (.handleNodeFailure "a")) ∧
        w.step (.controller (.handleNodeFailure "a")) = some w' ∧
        w'.controller.config.primaryAddress (shardIDOf "k" 10) = some "b" :=
    exists_step_of_exec (World.sampleNodes ++ World.sampleRenewal "a" ++ sampleReplica ++
      [.controller (.broadcast 0 false), .pullExport 0, .pullImport 0 true] ++
      World.sampleRenewal "a" ++
      [.data (.request "a" 1 (.put ⟨"k", "v", 4⟩)), .data (.checkShard 0), .data (.route 0),
        .data (.replicate 0 .answered), .data (.finish 0)]) _ (by decide +kernel)
  have hkey : Write.key ⟨"a", .put ⟨"k", "v", 4⟩⟩ = "k" := rfl
  obtain ⟨address, haddress, hvalue⟩ :=
    acknowledged_survives_failover hrun hput hkey hshard hok hfailure
  rw [hpromoted] at haddress
  cases haddress
  refine ⟨w, w', hrun, hfailure, hpromoted, ?_⟩
  rcases hvalue with hvalue | ⟨e, he, -⟩
  · exact hvalue
  · cases he

/-- The primary acknowledges a put before it has fetched the configuration with the new replica, and
fails. -/
theorem acknowledged_lost_by_failover :
    ∃ w w' : World, Reachable World.step (.start 10 40 id) w ∧
      w.data.history = [.begun 0 ⟨"a", .put ⟨"k", "v", 3⟩⟩,
        .ended 0 ⟨"a", .put ⟨"k", "v", 3⟩⟩ DataNode.written] ∧
      w.controller.config.shards.lookup (shardIDOf "k" 10) = some ⟨0, "a", ["b"], .active⟩ ∧
      w.controller.config.isLive "b" = true ∧
      w.step (.controller (.handleNodeFailure "a")) = some w' ∧
      w'.controller.config.primaryAddress (shardIDOf "k" 10) = some "b" ∧
      w'.data.cell "b" "k" = none := by
  obtain ⟨w, w', hrun, ⟨hput, hshard, hlive⟩, -, hfailure, hpromoted, hlost⟩ :
      ∃ w w', Reachable World.step (.start 10 40 id) w ∧
        (w.data.history = [.begun 0 ⟨"a", .put ⟨"k", "v", 3⟩⟩,
            .ended 0 ⟨"a", .put ⟨"k", "v", 3⟩⟩ DataNode.written] ∧
          w.controller.config.shards.lookup (shardIDOf "k" 10) = some ⟨0, "a", ["b"], .active⟩ ∧
          w.controller.config.isLive "b" = true) ∧ True ∧
        w.step (.controller (.handleNodeFailure "a")) = some w' ∧
        w'.controller.config.primaryAddress (shardIDOf "k" 10) = some "b" ∧
        w'.data.cell "b" "k" = none :=
    exists_step_of_exec (World.sampleNodes ++ World.sampleRenewal "a" ++ sampleReplica ++
      World.samplePut "a" 0 "v" 3) _ (by decide +kernel)
  exact ⟨w, w', hrun, hput, hshard, hlive, hfailure, hpromoted, hlost⟩

end DistributedCache
