import DistributedCache.Cluster.World

/-!
# Where the copies of a shard are

The nodes that hold a shard are its primary and the replicas that have pulled it.  This module
follows their addresses through the changes of the configuration.  Nodes are registered once, so
that the addresses which a task of the controller carries along stay right.
-/

namespace DistributedCache

open FiniteMap Transition

/-- Every node keeps its address. -/
def ClusterConfig.Extends (config config' : ClusterConfig) : Prop :=
  ∀ id node, config.nodes.lookup id = some node →
    ∃ node', config'.nodes.lookup id = some node' ∧ node'.address = node.address

namespace ClusterConfig

variable {config config' config'' : ClusterConfig}

theorem Extends.refl (config : ClusterConfig) : config.Extends config :=
  fun _ node hnode ↦ ⟨node, hnode, rfl⟩

theorem Extends.trans (h : config.Extends config') (h' : config'.Extends config'') :
    config.Extends config'' := by
  intro id node hnode
  obtain ⟨node', hnode', haddress⟩ := h id node hnode
  obtain ⟨node'', hnode'', haddress'⟩ := h' id node' hnode'
  exact ⟨node'', hnode'', haddress'.trans haddress⟩

theorem Extends.mem (h : config.Extends config') {id : String} (hid : id ∈ config.nodes) :
    id ∈ config'.nodes := by
  obtain ⟨node, hnode⟩ := Finmap.mem_iff.mp hid
  obtain ⟨node', hnode', -⟩ := h id node hnode
  exact Finmap.mem_of_lookup_eq_some hnode'

/-- A node that is known in both configurations has one address. -/
theorem Extends.lookup_back (h : config.Extends config') {id : String} {node' : NodeMetadata}
    (hid : id ∈ config.nodes) (hnode' : config'.nodes.lookup id = some node') :
    ∃ node, config.nodes.lookup id = some node ∧ node.address = node'.address := by
  obtain ⟨node, hnode⟩ := Finmap.mem_iff.mp hid
  obtain ⟨node'', hnode'', haddress⟩ := h id node hnode
  rw [hnode'] at hnode''
  cases hnode''
  exact ⟨node, hnode, haddress.symm⟩

theorem extends_rebalance (config : ClusterConfig) (deadNodeID : String) :
    config.Extends (config.rebalance deadNodeID) := by
  intro id node hnode
  by_cases hid : id = deadNodeID
  · subst hid
    refine ⟨{ node with status := .dead, lastHeartbeat := 0 }, ?_, rfl⟩
    unfold rebalance
    rw [hnode]
    exact Finmap.lookup_insert _
  · exact ⟨node, (lookup_nodes_rebalance_of_ne hid).trans hnode, rfl⟩

theorem extends_applyRegisterNode (config : ClusterConfig) (nodeID address : String) (now : Nat) :
    config.Extends (config.applyRegisterNode nodeID address now) :=
  fun _ node hnode ↦ ⟨node, lookup_applyRegisterNode hnode, rfl⟩

end ClusterConfig

theorem Controller.extends_step {c c' : Controller} {a : ControllerAction}
    (h : c.step a = some c') : c.config.Extends c'.config := by
  have hsame : ∀ config : ClusterConfig, config.nodes = c.config.nodes →
      c.config.Extends config := by
    intro config hnodes id node hnode
    rw [← hnodes] at hnode
    exact ⟨node, hnode, rfl⟩
  cases step_cases h with
  | failure nodeID => exact ClusterConfig.extends_rebalance c.config nodeID
  | nothingToDo | moveRefused | read | moveBegun => exact .refl _
  | write => exact hsame _ rfl
  | broadcast | exported | imported | pullFailed => exact hsame _ (by rw [resume_config])
  | lock | cutOver => exact hsame _ (by rw [resume_config]; rfl)

/-! ## Tasks with the right addresses -/

/-- What a task of the controller has taken from an earlier configuration is still right. -/
def Task.Located (config : ClusterConfig) : Task → Prop
  | .rebalance _ activeNodes => activeNodes ≠ [] ∧ ∀ id ∈ activeNodes, id ∈ config.nodes
  | .broadcast old _ => old.Extends config
  | .sync old _ _ => old.Extends config
  | .move m _ => ∃ node, config.nodes.lookup m.targetNodeID = some node ∧
      node.address = m.targetAddress

namespace Task

variable {config config' : ClusterConfig} {task next : Task}

theorem Located.mono (h : task.Located config) (hext : config.Extends config') :
    task.Located config' := by
  cases task with
  | rebalance old activeNodes => exact ⟨h.1, fun id hid ↦ hext.mem (h.2 id hid)⟩
  | broadcast | sync => exact ClusterConfig.Extends.trans h hext
  | move m stage =>
    obtain ⟨node, hnode, haddress⟩ := h
    obtain ⟨node', hnode', haddress'⟩ := hext _ _ hnode
    exact ⟨node', hnode', haddress'.trans haddress⟩

theorem Located.nextSync {old : ClusterConfig} {tasks : List ReplicaSyncTask}
    (h : old.Extends config) (hnext : nextSync old tasks = some next) : next.Located config := by
  cases tasks with
  | nil => cases hnext
  | cons head tail =>
    cases hnext
    exact h

theorem Located.withData (h : task.Located config) (data : ConcurrentMapCache) :
    (task.withData data).Located config := by
  cases task with
  | move m stage => cases stage <;> exact h
  | rebalance | broadcast | sync => exact h

theorem Located.pulled (h : task.Located config) (hnext : task.pulled = some next) :
    next.Located config := by
  cases task with
  | move m stage => cases stage <;> cases hnext <;> exact h
  | rebalance | broadcast =>
    cases hnext
    exact h
  | sync old tasks data =>
    cases tasks with
    | nil =>
      cases hnext
      exact h
    | cons head tail => exact Located.nextSync h hnext

theorem Located.pullFailed (h : task.Located config) (hnext : task.pullFailed = some next) :
    next.Located config := by
  cases task with
  | move | rebalance | broadcast => cases hnext
  | sync old tasks data =>
    cases tasks with
    | nil => cases hnext
    | cons head tail => exact Located.nextSync h hnext

end Task

/-! ## Registered nodes -/

/-- The condition on the commands: a configuration is applied only while it is the current one. -/
def AppliesCurrent (w : World) : WorldAction → Prop
  | .appendMessage k _ => ∀ command ∈ w.submitted[k]?, ∀ config ∈ command.topology,
    config = w.controller.config
  | _ => True

/-- A shard's primary and replicas are registered, and no node has an empty name. -/
structure Placement (shardID : Nat) (w : World) : Prop where
  named : "" ∉ w.controller.config.nodes
  submitted : ∀ command ∈ w.submitted, ∀ nodeID address,
    command = .registerNode nodeID address → nodeID ≠ ""
  primary : ∀ shard, w.controller.config.shards.lookup shardID = some shard →
    shard.primaryID ≠ "" → shard.primaryID ∈ w.controller.config.nodes
  replica : ∀ shard, w.controller.config.shards.lookup shardID = some shard →
    ∀ r ∈ shard.replicaIDs, r ∈ w.controller.config.nodes
  task : ∀ task ∈ w.controller.tasks, task.Located w.controller.config

namespace Placement

variable {shardID numShards duration : Nat} {nodeID : String → String} {w w' : World}

theorem start : Placement shardID (.start numShards duration nodeID) := by
  refine ⟨Finmap.notMem_empty, ?_, ?_, ?_, ?_⟩
  · intro command hcommand
    cases hcommand
  · intro shard hshard hne
    rw [ClusterConfig.lookup_newClusterConfig hshard] at hne
    exact absurd rfl hne
  · intro shard hshard r hr
    rw [ClusterConfig.lookup_newClusterConfig hshard] at hr
    cases hr
  · intro task htask
    cases htask

/-- A task goes on and the configuration stays. -/
theorem resumeTask (h : Placement shardID w) (i : Nat) {next : Option Task}
    (hnext : ∀ task, next = some task → task.Located w.controller.config) :
    ∀ task ∈ (w.controller.resume i next).tasks, task.Located w.controller.config := by
  intro task htask
  rcases Controller.mem_resume htask with htask | htask
  · exact h.task task htask
  · exact hnext task htask

/-- The shard after a step of the controller. -/
theorem shardStep (h : Placement shardID w) {a : ControllerAction} {c : Controller}
    {shard' : ShardMetadata} (hc : w.controller.step a = some c)
    (hshard' : c.config.shards.lookup shardID = some shard') :
    (shard'.primaryID ≠ "" → shard'.primaryID ∈ c.config.nodes) ∧
      ∀ r ∈ shard'.replicaIDs, r ∈ c.config.nodes := by
  have hext := Controller.extends_step hc
  have hold : ∀ {shard : ShardMetadata},
      w.controller.config.shards.lookup shardID = some shard →
      (shard.primaryID ≠ "" → shard.primaryID ∈ c.config.nodes) ∧
        ∀ r ∈ shard.replicaIDs, r ∈ c.config.nodes :=
    fun hshard ↦ ⟨fun hne ↦ hext.mem (h.primary _ hshard hne),
      fun r hr ↦ hext.mem (h.replica _ hshard r hr)⟩
  cases Controller.shard_step hc hshard' with
  | same hshard hprimary hreplicas =>
    rw [hprimary, hreplicas]
    exact hold hshard
  | @failed nodeID shard hshard =>
    obtain ⟨hprimary, hreplica⟩ := hold hshard
    refine ⟨?_, fun r hr ↦ hreplica r (ShardMetadata.replicaIDs_rebalance_subset _ _ hr)⟩
    rw [ShardMetadata.primaryID_rebalance]
    split
    · intro hne
      apply hreplica
      apply List.mem_of_mem_head?
      cases hhead : shard.replicaIDs.head? with
      | none =>
        rw [hhead] at hne
        exact absurd rfl hne
      | some r => rfl
    · exact hprimary
  | @written i nodeIndex order config activeNodes shard htask horder hshard =>
    obtain ⟨hprimary, hreplica⟩ := hold hshard
    obtain ⟨hne, hactive⟩ := (h.task _ (List.mem_of_getElem? htask)).mono hext
    obtain ⟨kept, added, hreplicas, hkept, hadded, -⟩ :=
      rebalanced_replicaIDs config activeNodes nodeIndex shard
    constructor
    · intro _
      by_cases hempty : shard.primaryID = ""
      · exact hactive _ (rebalanced_primaryID_mem hempty hne)
      · rw [rebalanced_primaryID hempty]
        exact hprimary hempty
    · intro r hr
      rw [hreplicas] at hr
      rcases List.mem_append.mp hr with hr | hr
      · exact hreplica r (hkept.subset hr)
      · exact hactive r (hadded.subset hr)
  | created hnone hprimary hreplicas =>
    rw [hprimary, hreplicas]
    exact ⟨fun hne ↦ absurd rfl hne, fun r hr ↦ by cases hr⟩
  | moved htask hm hprimary hreplicas =>
    obtain ⟨node, hnode, -⟩ := (h.task _ (List.mem_of_getElem? htask)).mono hext
    refine ⟨fun _ ↦ ?_, fun r hr ↦ ?_⟩
    · rw [hprimary]
      exact Finmap.mem_of_lookup_eq_some hnode
    · obtain ⟨shard, hshard, hmem⟩ := hreplicas r hr
      exact (hold hshard).2 r hmem

/-- The tasks after a step of the controller. -/
theorem taskStep (h : Placement shardID w) {a : ControllerAction} {c : Controller}
    (hc : w.controller.step a = some c) : ∀ task ∈ c.tasks, task.Located c.config := by
  have hext := Controller.extends_step hc
  have hold : ∀ task ∈ w.controller.tasks, task.Located c.config :=
    fun task htask ↦ (h.task task htask).mono hext
  have hat : ∀ {i : Nat} {task : Task}, w.controller.tasks[i]? = some task →
      task.Located c.config := fun htask ↦ hold _ (List.mem_of_getElem? htask)
  have hresume : ∀ {c₁ : Controller} {i : Nat} {next : Option Task},
      c₁.tasks = w.controller.tasks → (∀ task, next = some task → task.Located c.config) →
      ∀ task ∈ (c₁.resume i next).tasks, task.Located c.config := by
    intro c₁ i next htasks hnext task htask
    rcases Controller.mem_resume htask with htask | htask
    · rw [htasks] at htask
      exact hold task htask
    · exact hnext task htask
  cases Controller.step_cases hc with
  | failure | nothingToDo | moveRefused => exact hold
  | read hactive hne =>
    intro task htask
    rcases Controller.mem_spawn htask with htask | rfl
    · exact hold task htask
    · refine ⟨hne, fun id hid ↦ ?_⟩
      have hlive := mem_activeIDs.mp (hactive.mem_iff.mp hid)
      exact ClusterConfig.mem_nodes_of_isLive (ClusterConfig.isLive_of_isActive hlive)
  | moveBegun hbegin =>
    intro task htask
    rcases Controller.mem_spawn htask with htask | rfl
    · exact hold task htask
    · obtain ⟨shard, sourceNode, targetNode, -, -, htarget, rfl⟩ := beginMove_ok hbegin
      exact ⟨targetNode, htarget, rfl⟩
  | write =>
    refine hresume (Controller.publish_tasks _) ?_
    rintro task ⟨⟩
    exact ClusterConfig.Extends.refl _
  | broadcast sent htask =>
    have hlocated := hat htask
    exact hresume rfl fun task ↦ Task.Located.nextSync hlocated
  | lock htask =>
    have hlocated := hat htask
    refine hresume (Controller.publish_tasks _) ?_
    rintro task ⟨⟩
    exact hlocated
  | cutOver =>
    refine hresume (Controller.publish_tasks _) ?_
    rintro task ⟨⟩
  | exported data htask =>
    have hlocated := hat htask
    refine hresume rfl ?_
    rintro task ⟨⟩
    exact hlocated.withData data
  | imported htask =>
    have hlocated := hat htask
    exact hresume rfl fun _ ↦ hlocated.pulled
  | pullFailed htask =>
    have hlocated := hat htask
    exact hresume rfl fun _ ↦ hlocated.pullFailed

/-- A task goes on, and the controller keeps its configuration. -/
theorem resumed (h : Placement shardID w) (i : Nat) (next : Option Task)
    (hcontroller : w'.controller = w.controller.resume i next)
    (hsubmitted : w'.submitted = w.submitted)
    (hnext : ∀ task, next = some task → task.Located w.controller.config) :
    Placement shardID w' := by
  have hconfig : w'.controller.config = w.controller.config := by
    rw [hcontroller, Controller.resume_config]
  refine ⟨?_, hsubmitted ▸ h.submitted, ?_, ?_, ?_⟩ <;> rw [hconfig]
  · exact h.named
  · exact h.primary
  · exact h.replica
  · rw [hcontroller]
    exact h.resumeTask i hnext

theorem step (h : Placement shardID w) {a : WorldAction} (hcurrent : AppliesCurrent w a)
    (hstep : w.step a = some w') : Placement shardID w' := by
  cases World.step_cases hstep with
  | controller hpull hc =>
    refine ⟨?_, ?_, fun shard hs ↦ (h.shardStep hc hs).1, fun shard hs ↦ (h.shardStep hc hs).2,
      h.taskStep hc⟩
    · rw [← Finmap.mem_keys, Controller.keys_step hc, Finmap.mem_keys]
      exact h.named
    · intro command hcommand nodeID address heq
      rcases List.mem_append.mp hcommand with hcommand | hcommand
      · exact h.submitted command hcommand nodeID address heq
      · -- what is proposed is a configuration
        subst heq
        rw [Option.mem_toList] at hcommand
        unfold Controller.proposal at hcommand
        split at hcommand
        · split at hcommand <;> cases hcommand
        · cases hcommand
  | registerRefused => exact h
  | registerNode hid =>
    refine ⟨h.named, ?_, h.primary, h.replica, h.task⟩
    intro command hcommand nodeID address heq
    rcases List.mem_append.mp hcommand with hcommand | hcommand
    · exact h.submitted command hcommand nodeID address heq
    · rw [List.mem_singleton.mp hcommand] at heq
      cases heq
      exact hid
  | @appendMessage k now command hk =>
    have hrest : ∀ command' ∈ w.submitted.eraseIdx k, ∀ nodeID address,
        command' = .registerNode nodeID address → nodeID ≠ "" :=
      fun command' hcommand' ↦ h.submitted command' (List.mem_of_mem_eraseIdx hcommand')
    cases command with
    | noOp => exact ⟨h.named, hrest, h.primary, h.replica, h.task⟩
    | updateTopology config =>
      have heq := hcurrent _ hk config rfl
      subst heq
      exact ⟨h.named, hrest, h.primary, h.replica, h.task⟩
    | registerNode nodeID address =>
      have hext := w.controller.config.extends_applyRegisterNode nodeID address now
      have hname := h.submitted _ (List.mem_of_getElem? hk) nodeID address rfl
      refine ⟨?_, hrest, ?_, ?_, fun task htask ↦ (h.task task htask).mono hext⟩
      · intro hempty
        rcases mem_applyRegisterNode.mp hempty with heq | hmem
        · exact hname heq.symm
        · exact h.named hmem
      · intro shard hshard hne
        change (w.controller.config.applyRegisterNode nodeID address now).shards.lookup shardID = _
          at hshard
        rw [applyRegisterNode_shards] at hshard
        exact hext.mem (h.primary shard hshard hne)
      · intro shard hshard r hr
        change (w.controller.config.applyRegisterNode nodeID address now).shards.lookup shardID = _
          at hshard
        rw [applyRegisterNode_shards] at hshard
        exact hext.mem (h.replica shard hshard r hr)
  | @pullExport i task p data htask hpull hdata hexport =>
    have hlocated := h.task _ (List.mem_of_getElem? htask)
    refine h.resumed i (some (task.withData data)) rfl rfl ?_
    rintro _ ⟨⟩
    exact hlocated.withData data
  | @pullImport i answered task p data htask hpull hdata =>
    have hlocated := h.task _ (List.mem_of_getElem? htask)
    refine h.resumed i (if answered then task.pulled else task.pullFailed) rfl rfl
      fun next hnext ↦ ?_
    cases answered with
    | true => exact hlocated.pulled hnext
    | false => exact hlocated.pullFailed hnext
  | strayExport | strayImport | renew | data =>
    exact ⟨h.named, h.submitted, h.primary, h.replica, h.task⟩

end Placement

/-! ## Holders -/

/-- The nodes that hold a shard: the primary, and the replicas that have pulled it. -/
def ShardMetadata.IsHolder (unsynced : Finset (Nat × String)) (shardID : Nat)
    (shard : ShardMetadata) (id : String) : Prop :=
  id = shard.primaryID ∨ (id ∈ shard.replicaIDs ∧ (shardID, id) ∉ unsynced)

/-- A holder of the shard is at the address. -/
def World.Holds (w : World) (shardID : Nat) (address : String) : Prop :=
  ∃ shard id node, w.controller.config.shards.lookup shardID = some shard ∧
    shard.IsHolder w.unsynced shardID id ∧
    w.controller.config.nodes.lookup id = some node ∧ node.address = address

theorem World.holds_primaryAddress {w : World} {shardID : Nat} {address : String}
    (h : w.controller.config.primaryAddress shardID = some address) : w.Holds shardID address := by
  obtain ⟨shard, node, hshard, hnode, haddress⟩ := ClusterConfig.primaryAddress_eq_some.mp h
  exact ⟨shard, shard.primaryID, node, hshard, Or.inl rfl, hnode, haddress⟩

/-- A node that was a holder before is where it was. -/
theorem World.holds_of_isHolder {w w' : World} {shardID : Nat} {shard : ShardMetadata}
    {id : String} {node' : NodeMetadata}
    (hext : w.controller.config.Extends w'.controller.config)
    (hplace : Placement shardID w) (hnamed : "" ∉ w'.controller.config.nodes)
    (hshard : w.controller.config.shards.lookup shardID = some shard)
    (hholder : shard.IsHolder w.unsynced shardID id)
    (hnode' : w'.controller.config.nodes.lookup id = some node') :
    w.Holds shardID node'.address := by
  have hregistered : id ∈ w.controller.config.nodes := by
    rcases hholder with rfl | ⟨hreplica, -⟩
    · apply hplace.primary shard hshard
      intro hempty
      rw [hempty] at hnode'
      exact hnamed (Finmap.mem_of_lookup_eq_some hnode')
    · exact hplace.replica shard hshard id hreplica
  obtain ⟨node, hnode, haddress⟩ := hext.lookup_back hregistered hnode'
  exact ⟨shard, id, node, hshard, hholder, hnode, haddress⟩

end DistributedCache
