import DistributedCache.Controller.Controller
import DistributedCache.DataNode.Writes

/-!
# The controller and the data nodes together

One controller, the data nodes, and what is under way between them: commands that were given to Raft
and are applied some time later, pulls that the controller has ordered, renewals of leases, and
writes.  A pull has two steps, the answer of the source to the target and the import on the target;
the controller may not get to know about the second, and a pull that it has given up goes on without
it.  A node that fails takes no steps any more, so a failure is no step of its own.
-/

namespace DistributedCache

open FiniteMap Transition

/-! ## Copies that tasks carry -/

namespace Task

/-- The move whose target has imported the second copy. -/
def caughtUp : Task → Option Migration
  | .move m .caughtUp => some m
  | _ => none

/-- The task has taken no copy of any shard. -/
structure HasNoCopy (task : Task) : Prop where
  pull : ∀ p, task.pull = some p → p.data = none
  caughtUp : task.caughtUp = none

variable {task next : Task} {p : Pull} {data : ConcurrentMapCache} {config : ClusterConfig}

theorem hasNoCopy_of_pull (hpull : task.pull = none) (hcaught : task.caughtUp = none) :
    task.HasNoCopy := by
  refine ⟨fun p hp ↦ ?_, hcaught⟩
  rw [hpull] at hp
  cases hp

theorem pull_replicaSync {t : ReplicaSyncTask} {data : Option ConcurrentMapCache}
    (h : t.pull config data = some p) :
    ∃ primaryNode replicaNode, config.nodes.lookup t.primaryID = some primaryNode ∧
      config.nodes.lookup t.replicaID = some replicaNode ∧
      p = ⟨t.shardID, primaryNode.address, replicaNode.address, data⟩ := by
  unfold ReplicaSyncTask.pull at h
  split at h
  · rename_i primaryNode replicaNode hprimary hreplica
    cases h
    exact ⟨primaryNode, replicaNode, hprimary, hreplica, rfl⟩
  · cases h

theorem hasNoCopy_nextSync {tasks : List ReplicaSyncTask} (h : nextSync config tasks = some next) :
    next.HasNoCopy := by
  cases tasks with
  | nil => cases h
  | cons head tail =>
    cases h
    refine ⟨fun p hp ↦ ?_, rfl⟩
    obtain ⟨primaryNode, replicaNode, -, -, rfl⟩ := pull_replicaSync hp
    rfl

theorem hasNoCopy_pullFailed (h : task.pullFailed = some next) : next.HasNoCopy := by
  cases task with
  | rebalance | broadcast | move => cases h
  | sync config tasks data =>
    cases tasks with
    | nil => cases h
    | cons head tail => exact hasNoCopy_nextSync h

/-- After a pull the copy is gone, or is that of a target that waits for its cut-over. -/
theorem pulled_cases (hpull : task.pull = some p) (h : task.pulled = some next) :
    next.HasNoCopy ∨ ∃ m, next = .move m .caughtUp ∧ m.shardID = p.shardID ∧
      m.targetAddress = p.targetAddress := by
  cases task with
  | rebalance | broadcast => cases hpull
  | sync config tasks data =>
    cases tasks with
    | nil => cases hpull
    | cons head tail => exact Or.inl (hasNoCopy_nextSync h)
  | move m stage =>
    cases stage with
    | copied | caughtUp => cases hpull
    | copying data =>
      cases h
      exact Or.inl (hasNoCopy_of_pull rfl rfl)
    | catchingUp data =>
      cases h
      cases hpull
      exact Or.inr ⟨m, rfl, rfl, rfl⟩

theorem pull_withData (data : ConcurrentMapCache) (hpull : task.pull = some p) :
    (task.withData data).pull = some { p with data := some data } ∧
      (task.withData data).caughtUp = none := by
  cases task with
  | rebalance | broadcast => cases hpull
  | sync config tasks old =>
    cases tasks with
    | nil => cases hpull
    | cons head tail =>
      obtain ⟨primaryNode, replicaNode, hprimary, hreplica, rfl⟩ := pull_replicaSync hpull
      refine ⟨?_, rfl⟩
      change head.pull config (some data) = _
      unfold ReplicaSyncTask.pull
      rw [hprimary, hreplica]
  | move m stage =>
    cases stage with
    | copied | caughtUp => cases hpull
    | copying | catchingUp =>
      cases hpull
      exact ⟨rfl, rfl⟩

end Task

/-- The steps of a pull that need the data nodes. -/
def ControllerAction.isPull : ControllerAction → Bool
  | .exported _ _ | .imported _ => true
  | _ => false

/-- A step of the controller that is not part of a pull takes no copy. -/
theorem Controller.mem_tasks_step {c c' : Controller} {a : ControllerAction} {task : Task}
    (h : c.step a = some c') (hpull : a.isPull = false) (htask : task ∈ c'.tasks) :
    task ∈ c.tasks ∨ task.HasNoCopy := by
  have hresume : ∀ {c₁ : Controller} {i : Nat} {next : Option Task}, c₁.tasks = c.tasks →
      (∀ t, next = some t → t.HasNoCopy) → task ∈ (c₁.resume i next).tasks →
      task ∈ c.tasks ∨ task.HasNoCopy := by
    intro c₁ i next htasks hnext hmem
    rcases mem_resume hmem with hmem | hmem
    · rw [htasks] at hmem
      exact Or.inl hmem
    · exact Or.inr (hnext task hmem)
  cases step_cases h with
  | failure | nothingToDo | moveRefused => exact Or.inl htask
  | read =>
    rcases mem_spawn htask with hmem | rfl
    · exact Or.inl hmem
    · exact Or.inr (Task.hasNoCopy_of_pull rfl rfl)
  | moveBegun =>
    rcases mem_spawn htask with hmem | rfl
    · exact Or.inl hmem
    · exact Or.inr ⟨fun p hp ↦ by cases hp; rfl, rfl⟩
  | write =>
    refine hresume (publish_tasks _) ?_ htask
    rintro t ⟨⟩
    exact Task.hasNoCopy_of_pull rfl rfl
  | broadcast => exact hresume rfl (fun t ↦ Task.hasNoCopy_nextSync) htask
  | lock =>
    refine hresume (publish_tasks _) ?_ htask
    rintro t ⟨⟩
    exact ⟨fun p hp ↦ by cases hp; rfl, rfl⟩
  | cutOver =>
    refine hresume (publish_tasks _) ?_ htask
    rintro t ⟨⟩
  | exported | imported => cases hpull
  | pullFailed => exact hresume rfl (fun t ↦ Task.hasNoCopy_pullFailed) htask

/-! ## The cluster -/

structure World where
  controller : Controller
  /-- Commands given to Raft that are not applied yet. -/
  submitted : List Command
  data : DataPlane
  /-- The shards and nodes for which `Rebalance` has listed a replica that has not pulled yet. -/
  unsynced : Finset (Nat × String)
  /-- The pulls that the controller has given up and that go on. -/
  strays : List Pull

inductive WorldAction where
  /-- A step of the controller that is not part of a pull. -/
  | controller (a : ControllerAction)
  | registerNode (nodeID address : String)
  | appendMessage (k now : Nat)
  /-- The source of a pull answers the target. -/
  | pullExport (i : Nat)
  /-- The target of a pull imports the data; `answered` says whether the controller gets the
  answer. -/
  | pullImport (i : Nat) (answered : Bool)
  /-- The same two steps of a pull that the controller has given up. -/
  | strayExport (k : Nat)
  | strayImport (k : Nat)
  | renew (address : String) (now : Nat) (a : RenewAction)
  | data (a : WriteAction)
  deriving DecidableEq

/-- The replicas that a step of the controller lists for the first time. -/
def Controller.newReplicas (c : Controller) : ControllerAction → Finset (Nat × String)
  | .rebalanceShards i order =>
    match c.tasks[i]? with
    | some (.rebalance config activeNodes) =>
      ((c.config.rebalanceShards config activeNodes order).2.map
        fun t ↦ (t.shardID, t.replicaID)).toFinset
    | _ => ∅
  | _ => ∅

/-- The pull that a step of the controller gives up. -/
def Controller.givesUp (c : Controller) : ControllerAction → Option Pull
  | .pullFailed i => c.tasks[i]?.bind Task.pull
  | _ => none

/-- The replica that the pull of a task fills. -/
def Task.fills : Task → Finset (Nat × String)
  | .sync _ (task :: _) _ => {(task.shardID, task.replicaID)}
  | _ => ∅

namespace World

def setNode (w : World) (address : String) (node : DataNode) : World :=
  { w with data := w.data.setNode address node }

@[simp] theorem setNode_data (w : World) (address : String) (node : DataNode) :
    (w.setNode address node).data = w.data.setNode address node := rfl

def step (w : World) : WorldAction → Option World
  | .controller a =>
    if a.isPull then none
    else (w.controller.step a).map fun c ↦
      { w with
        controller := c
        submitted := w.submitted ++ (w.controller.proposal a).toList
        unsynced := w.unsynced ∪ w.controller.newReplicas a
        strays := w.strays ++ (w.controller.givesUp a).toList }
  | .registerNode nodeID address =>
    -- the HTTP handler refuses empty names
    if nodeID = "" ∨ address = "" then some w
    else some { w with submitted := w.submitted ++ [.registerNode nodeID address] }
  | .appendMessage k now => w.submitted[k]?.map fun command ↦
      { w with
        controller := w.controller.appendMessage now command
        submitted := w.submitted.eraseIdx k }
  | .pullExport i =>
    match w.controller.tasks[i]?.bind Task.pull with
    | some p =>
      match (w.data.nodes p.sourceAddress).handleExport p.shardID with
      | .ok data => (w.controller.step (.exported i data)).map fun c ↦ { w with controller := c }
      | .error _ => none
    | none => none
  | .pullImport i answered =>
    match w.controller.tasks[i]? with
    | some task =>
      match task.pull with
      | some ⟨_, _, targetAddress, some data⟩ =>
        (w.controller.step (if answered then .imported i else .pullFailed i)).map fun c ↦
          { w.setNode targetAddress ((w.data.nodes targetAddress).handleImport data).2 with
            controller := c
            unsynced := w.unsynced \ task.fills }
      | _ => none
    | none => none
  | .strayExport k =>
    match w.strays[k]? with
    | some ⟨shardID, sourceAddress, targetAddress, none⟩ =>
      match (w.data.nodes sourceAddress).handleExport shardID with
      | .ok data =>
        some { w with strays := w.strays.set k ⟨shardID, sourceAddress, targetAddress, some data⟩ }
      | .error _ => none
    | _ => none
  | .strayImport k =>
    match w.strays[k]? with
    | some ⟨_, _, targetAddress, some data⟩ =>
      some { w.setNode targetAddress ((w.data.nodes targetAddress).handleImport data).2 with
        strays := w.strays.eraseIdx k }
    | _ => none
  | .renew address now a =>
    ((w.data.nodes address).renew w.controller.config now a).map fun node ↦ w.setNode address node
  | .data a => (w.data.step a).map fun data ↦ { w with data := data }

/-- An empty cluster; `nodeID` is the name that the data node at an address goes by. -/
def start (numShards duration : Nat) (nodeID : String → String) : World where
  controller := .newController numShards
  submitted := []
  data := .start fun address ↦ .newServer (nodeID address) duration
  unsynced := ∅
  strays := []

/-! ## What a step can do -/

inductive StepCase (w : World) : WorldAction → World → Prop
  | controller {a : ControllerAction} {c : Controller} (hpull : a.isPull = false)
      (hc : w.controller.step a = some c) :
      StepCase w (.controller a)
        { w with
          controller := c
          submitted := w.submitted ++ (w.controller.proposal a).toList
          unsynced := w.unsynced ∪ w.controller.newReplicas a
          strays := w.strays ++ (w.controller.givesUp a).toList }
  | registerRefused (nodeID address : String) : StepCase w (.registerNode nodeID address) w
  | registerNode {nodeID address : String} (hid : nodeID ≠ "") :
      StepCase w (.registerNode nodeID address)
        { w with submitted := w.submitted ++ [.registerNode nodeID address] }
  | appendMessage {k : Nat} (now : Nat) {command : Command}
      (hk : w.submitted[k]? = some command) :
      StepCase w (.appendMessage k now)
        { w with
          controller := w.controller.appendMessage now command
          submitted := w.submitted.eraseIdx k }
  | pullExport {i : Nat} {task : Task} {p : Pull} {data : ConcurrentMapCache}
      (htask : w.controller.tasks[i]? = some task) (hpull : task.pull = some p)
      (hdata : p.data = none)
      (hexport : (w.data.nodes p.sourceAddress).handleExport p.shardID = .ok data) :
      StepCase w (.pullExport i)
        { w with controller := w.controller.resume i (some (task.withData data)) }
  | pullImport {i : Nat} {answered : Bool} {task : Task} {p : Pull} {data : ConcurrentMapCache}
      (htask : w.controller.tasks[i]? = some task) (hpull : task.pull = some p)
      (hdata : p.data = some data) :
      StepCase w (.pullImport i answered)
        { w.setNode p.targetAddress ((w.data.nodes p.targetAddress).handleImport data).2 with
          controller := w.controller.resume i (if answered then task.pulled else task.pullFailed)
          unsynced := w.unsynced \ task.fills }
  | strayExport {k : Nat} {p : Pull} {data : ConcurrentMapCache} (hk : w.strays[k]? = some p)
      (hexport : (w.data.nodes p.sourceAddress).handleExport p.shardID = .ok data) :
      StepCase w (.strayExport k) { w with strays := w.strays.set k { p with data := some data } }
  | strayImport {k : Nat} {p : Pull} {data : ConcurrentMapCache} (hk : w.strays[k]? = some p)
      (hdata : p.data = some data) :
      StepCase w (.strayImport k)
        { w.setNode p.targetAddress ((w.data.nodes p.targetAddress).handleImport data).2 with
          strays := w.strays.eraseIdx k }
  | renew {address : String} {now : Nat} {a : RenewAction} {node : DataNode}
      (hnode : (w.data.nodes address).renew w.controller.config now a = some node) :
      StepCase w (.renew address now a) (w.setNode address node)
  | data {a : WriteAction} {data : DataPlane} (hdata : w.data.step a = some data) :
      StepCase w (.data a) { w with data := data }

variable {a : WorldAction} {node : DataNode} {address : String} {w w' : World}

theorem step_cases (h : w.step a = some w') : StepCase w a w' := by
  cases a with
  | controller a =>
    simp only [step] at h
    split at h
    · cases h
    · rename_i hpull
      obtain ⟨c, hc, rfl⟩ := Option.map_eq_some_iff.mp h
      exact .controller (Bool.eq_false_of_not_eq_true hpull) hc
  | registerNode nodeID address =>
    simp only [step] at h
    split at h
    · cases h
      exact .registerRefused nodeID address
    · rename_i hnames
      cases h
      exact .registerNode fun hid ↦ hnames (Or.inl hid)
  | appendMessage k now =>
    obtain ⟨command, hk, rfl⟩ := Option.map_eq_some_iff.mp h
    exact .appendMessage now hk
  | pullExport i =>
    simp only [step] at h
    split at h
    · rename_i p hp
      obtain ⟨task, htask, hpull⟩ := Option.bind_eq_some_iff.mp hp
      split at h
      · rename_i data hexport
        obtain ⟨c, hc, rfl⟩ := Option.map_eq_some_iff.mp h
        cases Controller.step_cases hc with
        | @exported _ _ task' p' htask' hpull' hdata' =>
          rw [htask] at htask'
          cases htask'
          rw [hpull] at hpull'
          cases hpull'
          exact .pullExport htask hpull hdata' hexport
      · cases h
    · cases h
  | pullImport i answered =>
    simp only [step] at h
    split at h
    · rename_i task htask
      split at h
      · rename_i shardID source target data hpull
        obtain ⟨c, hc, rfl⟩ := Option.map_eq_some_iff.mp h
        cases answered with
        | true =>
          cases Controller.step_cases hc with
          | imported htask' =>
            rw [htask] at htask'
            cases htask'
            exact .pullImport htask hpull rfl
        | false =>
          cases Controller.step_cases hc with
          | pullFailed htask' =>
            rw [htask] at htask'
            cases htask'
            exact .pullImport htask hpull rfl
      · cases h
    · cases h
  | strayExport k =>
    simp only [step] at h
    split at h
    · rename_i hk
      split at h
      · rename_i hexport
        cases h
        exact .strayExport hk hexport
      · cases h
    · cases h
  | strayImport k =>
    simp only [step] at h
    split at h
    · rename_i hk
      cases h
      exact .strayImport hk rfl
    · cases h
  | renew address now a =>
    obtain ⟨node, hnode, rfl⟩ := Option.map_eq_some_iff.mp h
    exact .renew hnode
  | data a =>
    obtain ⟨data, hdata, rfl⟩ := Option.map_eq_some_iff.mp h
    exact .data hdata

/-- A step that is not one of the data nodes changes at most what they know and hold. -/
theorem data_step (h : w.step a = some w') : (∃ b, a = .data b ∧ w.data.step b = some w'.data) ∨
      ∃ nodes, w'.data = { w.data with nodes := nodes } := by
  cases step_cases h with
  | data hdata => exact Or.inl ⟨_, rfl, hdata⟩
  | controller | registerRefused | registerNode | appendMessage | pullExport | pullImport
  | strayExport | strayImport | renew => exact Or.inr ⟨_, rfl⟩

/-! ## The number of shards -/

/-- Every configuration in the cluster is for the same number of shards; a node that has not fetched
one has none. -/
structure Uniform (numShards : Nat) (w : World) : Prop where
  controller : w.controller.config.totalShards = numShards
  task : ∀ task ∈ w.controller.tasks, ∀ config ∈ task.broadcasting, config.totalShards = numShards
  submitted : ∀ command ∈ w.submitted, ∀ config ∈ command.topology, config.totalShards = numShards
  node : ∀ address, (w.data.nodes address).config.totalShards = 0 ∨
    (w.data.nodes address).config.totalShards = numShards
  reply : ∀ address config, (w.data.nodes address).stage = .topologyReply config →
    config.totalShards = numShards

variable {numShards duration : Nat} {nodeID : String → String} {w w' : World}
  {data : ConcurrentMapCache} {p : Pull} {now i : Nat} {next : Option Task} {task : Task}

theorem uniform_start : (start numShards duration nodeID).Uniform numShards := by
  refine ⟨rfl, ?_, ?_, fun _ ↦ Or.inl rfl, ?_⟩
  · intro task htask
    cases htask
  · intro command hcommand
    cases hcommand
  · intro address config hstage
    cases hstage

/-- A renewal keeps the number of shards of the node, or takes that of the controller. -/
theorem renew_totalShards {node' : DataNode} {controller : ClusterConfig} {a : RenewAction}
    (hstep : node.renew controller now a = some node')
    (hcontroller : controller.totalShards = numShards)
    (hnode : node.config.totalShards = 0 ∨ node.config.totalShards = numShards)
    (hreply : ∀ config, node.stage = .topologyReply config → config.totalShards = numShards) :
    (node'.config.totalShards = 0 ∨ node'.config.totalShards = numShards) ∧
      ∀ config, node'.stage = .topologyReply config → config.totalShards = numShards := by
  cases a with
  | topologyHandled =>
    obtain ⟨-, hsame⟩ := Option.ite_none_right_eq_some.mp hstep
    cases hsame
    refine ⟨hnode, fun config hstage ↦ ?_⟩
    cases hstage
    exact hcontroller
  | updateTopology =>
    simp only [DataNode.renew] at hstep
    split at hstep
    · rename_i config hstage
      cases hstep
      exact ⟨Or.inr (hreply config hstage), fun _ hnext ↦ by cases hnext⟩
    · cases hstep
  | receiveReply =>
    simp only [DataNode.renew] at hstep
    split at hstep
    · cases hstep
      refine ⟨hnode, fun config hnext ↦ ?_⟩
      simp only at hnext
      split at hnext <;> cases hnext
    · cases hstep
  | _ =>
    -- the configuration stays, and no topology is under way afterwards
    simp only [DataNode.renew] at hstep
    split at hstep <;> cases hstep <;> exact ⟨hnode, fun _ hnext ↦ by cases hnext⟩

/-- A node that is replaced keeps its number of shards. -/
theorem Uniform.setNode (h : w.Uniform numShards)
    (hnode : node.config.totalShards = 0 ∨ node.config.totalShards = numShards)
    (hreply : ∀ config, node.stage = .topologyReply config → config.totalShards = numShards) :
    (w.setNode address node).Uniform numShards := by
  refine ⟨h.controller, h.task, h.submitted, ?_, ?_⟩
  · intro address'
    rw [setNode_data]
    by_cases haddress : address' = address
    · subst haddress
      rw [DataPlane.nodes_setNode_self]
      exact hnode
    · rw [DataPlane.nodes_setNode_of_ne _ haddress]
      exact h.node address'
  · intro address' config
    rw [setNode_data]
    by_cases haddress : address' = address
    · subst haddress
      rw [DataPlane.nodes_setNode_self]
      exact hreply config
    · rw [DataPlane.nodes_setNode_of_ne _ haddress]
      exact h.reply address' config

/-- The tasks of a controller after a step that is not one of `Rebalance`. -/
theorem Uniform.resume (h : w.Uniform numShards)
    (hnext : ∀ task, next = some task → ∀ config ∈ task.broadcasting, config.totalShards =
      numShards) (htask : task ∈ (w.controller.resume i next).tasks) {config : ClusterConfig}
    (hconfig : config ∈ task.broadcasting) : config.totalShards = numShards := by
  rcases Controller.mem_resume htask with htask | htask
  · exact h.task task htask config hconfig
  · exact hnext task htask config hconfig

theorem Uniform.resume_controller (h : w.Uniform numShards) :
    (w.controller.resume i next).config.totalShards = numShards := by
  rw [Controller.resume_config]
  exact h.controller

theorem Uniform.step (h : w.Uniform numShards) (hstep : w.step a = some w') :
    w'.Uniform numShards := by
  cases step_cases hstep with
  | controller hpull hc =>
    have htotal := (Controller.totalShards_step hc).trans h.controller
    refine ⟨htotal, ?_, ?_, h.node, h.reply⟩
    · intro task htask config hconfig
      rcases Controller.broadcasting_step hc htask hconfig with ⟨old, hold, hsame⟩ | ⟨-, rfl⟩
      · exact h.task old hold config hsame
      · exact htotal
    · intro command hcommand config hconfig
      rcases List.mem_append.mp hcommand with hcommand | hcommand
      · exact h.submitted command hcommand config hconfig
      · obtain ⟨task, htask, hwaits⟩ :=
          Controller.broadcasting_proposal (Option.mem_toList.mp hcommand) hconfig
        exact h.task task htask config hwaits
  | registerRefused => exact h
  | registerNode hid =>
    refine ⟨h.controller, h.task, ?_, h.node, h.reply⟩
    intro command hcommand config hconfig
    rcases List.mem_append.mp hcommand with hcommand | hcommand
    · exact h.submitted command hcommand config hconfig
    · rw [List.mem_singleton.mp hcommand] at hconfig
      cases hconfig
  | @appendMessage k now command hk =>
    have hmem := List.mem_of_getElem? hk
    refine ⟨?_, ?_, fun command hcommand ↦ h.submitted command (List.mem_of_mem_eraseIdx hcommand),
      h.node, h.reply⟩
    · cases command with
      | registerNode nodeID address =>
        exact (applyRegisterNode_totalShards _ _ _ _).trans h.controller
      | updateTopology config => exact h.submitted _ hmem config rfl
      | noOp => exact h.controller
    · intro task htask
      apply h.task task
      cases command <;> exact htask
  | @pullExport i task p data htask hpull hdata hexport =>
    refine ⟨?_, ?_, h.submitted, h.node, h.reply⟩
    · exact h.resume_controller
    · intro task' htask' config hconfig
      refine h.resume ?_ htask' hconfig
      rintro _ ⟨⟩ config' hconfig'
      rw [Task.broadcasting_withData] at hconfig'
      exact h.task task (List.mem_of_getElem? htask) config' hconfig'
  | @pullImport i answered task p data htask hpull hdata =>
    have hnode : (w.setNode p.targetAddress
        ((w.data.nodes p.targetAddress).handleImport data).2).Uniform numShards :=
      h.setNode (h.node _) (h.reply _)
    refine ⟨?_, ?_, h.submitted, hnode.node, hnode.reply⟩
    · exact h.resume_controller
    · intro task' htask' config hconfig
      refine h.resume ?_ htask' hconfig
      intro next hnext config' hconfig'
      have hnone : next.broadcasting = none := by
        cases answered with
        | true => exact Task.broadcasting_pulled hpull hnext
        | false => exact Task.broadcasting_pullFailed hnext
      rw [hnone] at hconfig'
      cases hconfig'
  | strayExport => exact ⟨h.controller, h.task, h.submitted, h.node, h.reply⟩
  | @strayImport k p data hk hdata =>
    have hnode : (w.setNode p.targetAddress
        ((w.data.nodes p.targetAddress).handleImport data).2).Uniform numShards :=
      h.setNode (h.node _) (h.reply _)
    exact ⟨h.controller, h.task, h.submitted, hnode.node, hnode.reply⟩
  | renew hnode =>
    obtain ⟨htotal, hreply⟩ := renew_totalShards hnode h.controller (h.node _) (h.reply _)
    exact h.setNode htotal hreply
  | data hdata =>
    refine ⟨h.controller, h.task, h.submitted, ?_, ?_⟩
    · intro address
      rw [(DataPlane.sameNode_step hdata address).config]
      exact h.node address
    · intro address config
      rw [(DataPlane.sameNode_step hdata address).stage]
      exact h.reply address config

/-- What a source exports, when it has a configuration: its cells of the shard. -/
theorem Uniform.lookup_export (h : w.Uniform numShards) {shardID : Nat}
    (hexport : (w.data.nodes address).handleExport shardID = .ok data) (key : String) :
    data.lookup key =
      if shardIDOf key numShards = shardID then w.data.cell address key else none := by
  unfold DataNode.handleExport at hexport
  split at hexport
  · cases hexport
  · rename_i hconfigured
    cases hexport
    rw [ConcurrentMapCache.lookup_exportShard]
    rcases h.node address with hzero | htotal
    · exact absurd hzero hconfigured
    · rw [htotal]
      rfl

/-! ## What pulls carry -/

/-- What a pull has is of its shard. -/
def InShard (numShards : Nat) (p : Pull) : Prop :=
  ∀ data, p.data = some data → ∀ key, shardIDOf key numShards ≠ p.shardID →
    data.lookup key = none

/-- No pull brings data of another shard than its own. -/
structure PullsInShard (numShards : Nat) (w : World) : Prop where
  task : ∀ task ∈ w.controller.tasks, ∀ p, task.pull = some p → InShard numShards p
  stray : ∀ p ∈ w.strays, InShard numShards p

theorem inShard_of_hasNoCopy (h : task.HasNoCopy) (hpull : task.pull = some p) :
    InShard numShards p := by
  intro data hdata
  rw [h.pull p hpull] at hdata
  cases hdata

theorem Uniform.inShard_export (h : w.Uniform numShards)
    (hexport : (w.data.nodes p.sourceAddress).handleExport p.shardID = .ok data) :
    InShard numShards { p with data := some data } := by
  rintro _ ⟨⟩ key hkey
  rw [h.lookup_export hexport]
  exact if_neg hkey

theorem PullsInShard.step (h : w.PullsInShard numShards) (huniform : w.Uniform numShards)
    (hstep : w.step a = some w') : w'.PullsInShard numShards := by
  have hresume : ∀ {i : Nat} {next : Option Task} {task : Task} {p : Pull},
      (∀ t, next = some t → ∀ p, t.pull = some p → InShard numShards p) →
      task ∈ (w.controller.resume i next).tasks → task.pull = some p → InShard numShards p := by
    intro i next task p hnext hmem hpull
    rcases Controller.mem_resume hmem with hold | hnew
    · exact h.task task hold p hpull
    · exact hnext task hnew p hpull
  cases step_cases hstep with
  | @controller a c hpull hc =>
    refine ⟨fun task htask p hp ↦ ?_, fun p hp ↦ ?_⟩
    · rcases Controller.mem_tasks_step hc hpull htask with hold | hnone
      · exact h.task task hold p hp
      · exact inShard_of_hasNoCopy hnone hp
    · rcases List.mem_append.mp hp with hold | hnew
      · exact h.stray p hold
      · -- the pull was one of a task
        cases a with
        | pullFailed i =>
          obtain ⟨task, htask, hp⟩ := Option.bind_eq_some_iff.mp (Option.mem_toList.mp hnew)
          exact h.task task (List.mem_of_getElem? htask) p hp
        | _ => cases hnew
  | registerRefused => exact h
  | registerNode | renew | data => exact ⟨h.task, h.stray⟩
  | @appendMessage k now command =>
    refine ⟨?_, h.stray⟩
    cases command <;> exact h.task
  | pullExport htask hpull hdata hexport =>
    refine ⟨fun task hmem p hp ↦ hresume ?_ hmem hp, h.stray⟩
    rintro _ ⟨⟩ q hq
    rw [(Task.pull_withData _ hpull).1] at hq
    cases hq
    exact huniform.inShard_export hexport
  | @pullImport i answered old p data htask hpull hdata =>
    refine ⟨fun task hmem q hq ↦ hresume ?_ hmem hq, h.stray⟩
    intro next hnext q hq
    cases answered with
    | false => exact inShard_of_hasNoCopy (Task.hasNoCopy_pullFailed hnext) hq
    | true =>
      rcases Task.pulled_cases hpull hnext with hnone | ⟨m, rfl, -⟩
      · exact inShard_of_hasNoCopy hnone hq
      · cases hq
  | strayExport hk hexport =>
    refine ⟨h.task, fun p hp ↦ ?_⟩
    rcases List.mem_or_eq_of_mem_set hp with hold | rfl
    · exact h.stray p hold
    · exact huniform.inShard_export hexport
  | strayImport => exact ⟨h.task, fun p hp ↦ h.stray p (List.mem_of_mem_eraseIdx hp)⟩

/-- What holds in every run. -/
structure Sound (numShards : Nat) (w : World) : Prop where
  uniform : w.Uniform numShards
  pulls : w.PullsInShard numShards
  numbered : w.data.Numbered

theorem sound_start : (start numShards duration nodeID).Sound numShards := by
  refine ⟨uniform_start, ⟨fun task htask ↦ ?_, fun p hp ↦ ?_⟩, DataPlane.numbered_start _⟩
  · cases htask
  · cases hp

theorem Sound.step (h : w.Sound numShards) (hstep : w.step a = some w') : w'.Sound numShards := by
  refine ⟨h.uniform.step hstep, h.pulls.step h.uniform hstep, ?_⟩
  rcases data_step hstep with ⟨b, -, hdata⟩ | ⟨nodes, hnodes⟩
  · exact h.numbered.step hdata
  · rw [hnodes]
    exact h.numbered

theorem sound_reachable (hrun : Reachable step (start numShards duration nodeID) w) :
    w.Sound numShards :=
  Reaches.invariant (Sound numShards) sound_start (fun _ _ _ _ h _ hstep ↦ h.step hstep) hrun

/-- The cells after an import. -/
theorem cell_import (w : World) (target : String) (data : ConcurrentMapCache)
    (address key : String) :
    (w.data.setNode target ((w.data.nodes target).handleImport data).2).cell address key =
      if address = target then (data.lookup key).or (w.data.cell target key)
      else w.data.cell address key := by
  unfold DataPlane.cell
  by_cases haddress : address = target
  · subst haddress
    rw [DataPlane.nodes_setNode_self, if_pos rfl]
    exact ConcurrentMapCache.lookup_importData
  · rw [DataPlane.nodes_setNode_of_ne _ haddress, if_neg haddress]

/-- Data of another shard leave the cells of the key. -/
theorem cell_import_other (hp : InShard numShards p) (hdata : p.data = some data) {key : String}
    (hkey : shardIDOf key numShards ≠ p.shardID) (address : String) :
    (w.data.setNode p.targetAddress
      ((w.data.nodes p.targetAddress).handleImport data).2).cell address key =
      w.data.cell address key := by
  rw [cell_import, hp data hdata key hkey, Option.none_or]
  split
  · rename_i haddress
    rw [haddress]
  · rfl

/-- The cells after a step of a renewal. -/
theorem cell_renew {a : RenewAction}
    (hnode : (w.data.nodes address).renew w.controller.config now a = some node)
    (address' key : String) :
    (w.data.setNode address node).cell address' key = w.data.cell address' key := by
  unfold DataPlane.cell
  by_cases haddress : address' = address
  · subst haddress
    rw [DataPlane.nodes_setNode_self, (DataNode.renew_cache hnode).1]
  · rw [DataPlane.nodes_setNode_of_ne _ haddress]

/-! ## A small cluster

Ten shards, as `NewController` makes them; the key `k` is in shard 0. -/

/-- The node `a` is the primary of all shards, and `b` has joined. -/
def sampleNodes : List WorldAction :=
  [.registerNode "a" "a", .appendMessage 0 1, .controller (.rebalance ["a"]),
    .controller (.rebalanceShards 0 (List.range 10)), .controller (.broadcast 0 false),
    .registerNode "b" "b", .appendMessage 0 2]

/-- A node fetches the topology and renews its lease. -/
def sampleRenewal (address : String) : List WorldAction :=
  [.renew address 0 .sendHeartbeat, .renew address 0 .heartbeatHandled,
    .renew address 0 .receiveReply, .renew address 0 .topologyHandled,
    .renew address 0 .updateTopology, .renew address 0 .extendLease]

/-- A put by a primary without replicas. -/
def samplePut (address : String) (id : Nat) (value : String) (epoch : Nat) : List WorldAction :=
  [.data (.request address 1 (.put ⟨"k", value, epoch⟩)), .data (.checkShard id), .data (.route id),
    .data (.finish id)]

end World

end DistributedCache
