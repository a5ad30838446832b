import DistributedCache.Controller.Topology
import DistributedCache.Cache.ConcurrentMap

/-!
# A controller with its goroutines

`Rebalance`, `syncNewReplicas` and `MoveShard` give up the lock between their regions; what they
carry from one region to the next is a task.  The goroutines that start `Rebalance` or
`HandleNodeFailure` are not tracked: both may be called at any moment.
-/

namespace DistributedCache

open FiniteMap

/-! ## Tasks -/

/-- How far `MoveShard` has got.  A pull has data once the source has answered the target. -/
inductive MoveStage where
  /-- Phase 1, the bulk copy. -/
  | copying (data : Option ConcurrentMapCache)
  | copied
  /-- Phase 3, the second pull, with the shard locked. -/
  | catchingUp (data : Option ConcurrentMapCache)
  | caughtUp
  deriving DecidableEq

inductive Task where
  /-- `Rebalance` after its reading region. -/
  | rebalance (config : ClusterConfig) (activeNodes : List String)
  /-- `Rebalance` before `BroadcastTopologyUpdate`. -/
  | broadcast (config : ClusterConfig) (syncTasks : List ReplicaSyncTask)
  /-- `syncNewReplicas` with the tasks that are left, and the data pulled for the first of them. -/
  | sync (config : ClusterConfig) (syncTasks : List ReplicaSyncTask)
      (data : Option ConcurrentMapCache)
  | move (m : Migration) (stage : MoveStage)
  deriving DecidableEq

/-- A call of `triggerPull`. -/
structure Pull where
  shardID : Nat
  sourceAddress : String
  targetAddress : String
  data : Option ConcurrentMapCache
  deriving DecidableEq

/-- The addresses that `syncNewReplicas` looks up. -/
def ReplicaSyncTask.pull (config : ClusterConfig) (data : Option ConcurrentMapCache)
    (task : ReplicaSyncTask) : Option Pull :=
  match config.nodes.lookup task.primaryID, config.nodes.lookup task.replicaID with
  | some primaryNode, some replicaNode =>
    some ⟨task.shardID, primaryNode.address, replicaNode.address, data⟩
  | _, _ => none

namespace Task

/-- The pull that the task waits for. -/
def pull : Task → Option Pull
  | .sync config (task :: _) data => task.pull config data
  | .move m (.copying data) => some ⟨m.shardID, m.sourceAddress, m.targetAddress, data⟩
  | .move m (.catchingUp data) => some ⟨m.shardID, m.sourceAddress, m.targetAddress, data⟩
  | _ => none

/-- The task when the source has answered the target. -/
def withData (data : ConcurrentMapCache) : Task → Task
  | .sync config tasks _ => .sync config tasks (some data)
  | .move m (.copying _) => .move m (.copying (some data))
  | .move m (.catchingUp _) => .move m (.catchingUp (some data))
  | task => task

/-- `syncNewReplicas` goes on to the next replica, or ends. -/
def nextSync (config : ClusterConfig) : List ReplicaSyncTask → Option Task
  | [] => none
  | tasks => some (.sync config tasks none)

/-- The task when its pull has succeeded. -/
def pulled : Task → Option Task
  | .sync config (_ :: tasks) _ => nextSync config tasks
  | .move m (.copying _) => some (.move m .copied)
  | .move m (.catchingUp _) => some (.move m .caughtUp)
  | task => some task

/-- The task when its pull has failed: `syncNewReplicas` logs the error, `MoveShard` returns it. -/
def pullFailed : Task → Option Task
  | .sync config (_ :: tasks) _ => nextSync config tasks
  | _ => none

end Task

/-! ## The controller -/

structure Controller where
  config : ClusterConfig
  tasks : List Task
  deriving DecidableEq

inductive ControllerAction where
  | handleNodeFailure (nodeID : String)
  /-- The reading region of `Rebalance`. -/
  | rebalance (activeNodes : List String)
  /-- The writing region of `Rebalance`. -/
  | rebalanceShards (i : Nat) (order : List Nat)
  /-- `BroadcastTopologyUpdate` returns; `sent` says whether the command was given to Raft. -/
  | broadcast (i : Nat) (sent : Bool)
  | moveShard (shardID : Nat) (targetNodeID : String)
  | lockShard (i : Nat)
  | cutOver (i : Nat)
  /-- The source of a pull has answered the target with its data. -/
  | exported (i : Nat) (data : ConcurrentMapCache)
  /-- The target of a pull has imported the data and answered the controller. -/
  | imported (i : Nat)
  | pullFailed (i : Nat)
  deriving DecidableEq

namespace Controller

def newController (numShards : Nat) : Controller := ⟨.newClusterConfig numShards, []⟩

/-- The goroutine `i` goes on with another task, or ends. -/
def resume (c : Controller) (i : Nat) (task : Option Task) : Controller :=
  match task with
  | some task => { c with tasks := c.tasks.set i task }
  | none => { c with tasks := c.tasks.eraseIdx i }

/-- A new goroutine. -/
def spawn (c : Controller) (task : Task) : Controller := { c with tasks := c.tasks ++ [task] }

def publish (c : Controller) (config : ClusterConfig) : Controller := { c with config := config }

def step (c : Controller) : ControllerAction → Option Controller
  | .handleNodeFailure nodeID => some (c.publish (c.config.rebalance nodeID))
  | .rebalance activeNodes =>
    if Enumerates activeNodes c.config.activeIDs then
      if activeNodes = [] ∨ ¬ c.config.NeedsUpdate activeNodes then some c
      else some (c.spawn (.rebalance c.config activeNodes))
    else none
  | .rebalanceShards i order =>
    match c.tasks[i]? with
    | some (.rebalance config activeNodes) =>
      if Enumerates order c.config.shards.keys then
        let (newConfig, syncTasks) := c.config.rebalanceShards config activeNodes order
        some ((c.publish newConfig).resume i (some (.broadcast newConfig syncTasks)))
      else none
    | _ => none
  | .broadcast i _ =>
    match c.tasks[i]? with
    | some (.broadcast config syncTasks) => some (c.resume i (Task.nextSync config syncTasks))
    | _ => none
  | .moveShard shardID targetNodeID =>
    match c.config.beginMove shardID targetNodeID with
    | .ok m => some (c.spawn (.move m (.copying none)))
    | .error _ => some c
  | .lockShard i =>
    match c.tasks[i]? with
    | some (.move m .copied) =>
      some ((c.publish (c.config.lockShard m.shardID)).resume i
        (some (.move m (.catchingUp none))))
    | _ => none
  | .cutOver i =>
    match c.tasks[i]? with
    | some (.move m .caughtUp) =>
      some ((c.publish (c.config.cutOver m.shardID m.targetNodeID)).resume i none)
    | _ => none
  | .exported i data =>
    match c.tasks[i]? with
    | some task =>
      if task.pull.any (fun p ↦ p.data = none) then some (c.resume i (some (task.withData data)))
      else none
    | none => none
  | .imported i =>
    match c.tasks[i]? with
    | some task =>
      if task.pull.any (fun p ↦ p.data ≠ none) then some (c.resume i task.pulled) else none
    | none => none
  | .pullFailed i =>
    match c.tasks[i]? with
    | some task =>
      -- a pull without addresses is skipped in the same way
      match task with
      | .sync _ _ _ => some (c.resume i task.pullFailed)
      | .move _ (.copying _) => some (c.resume i task.pullFailed)
      | .move _ (.catchingUp _) => some (c.resume i task.pullFailed)
      | _ => none
    | none => none

/-! ## Tasks after a step -/

variable {c : Controller} {i : Nat} {task : Task}

@[simp] theorem resume_config (next : Option Task) : (c.resume i next).config = c.config := by
  cases next <;> rfl

@[simp] theorem publish_config (config : ClusterConfig) : (c.publish config).config = config := rfl

@[simp] theorem publish_tasks (config : ClusterConfig) : (c.publish config).tasks = c.tasks := rfl

theorem mem_resume {next : Option Task} (h : task ∈ (c.resume i next).tasks) :
    task ∈ c.tasks ∨ next = some task := by
  cases next with
  | none => exact Or.inl (List.mem_of_mem_eraseIdx h)
  | some t =>
    rcases List.mem_or_eq_of_mem_set h with h | rfl
    · exact Or.inl h
    · exact Or.inr rfl

theorem mem_spawn {t : Task} (h : task ∈ (c.spawn t).tasks) : task ∈ c.tasks ∨ task = t := by
  rcases List.mem_append.mp h with h | h
  · exact Or.inl h
  · exact Or.inr (List.mem_singleton.mp h)

end Controller

/-! ## Commands -/

/-- The commands that `ControllerApp` applies. -/
inductive Command where
  | registerNode (nodeID address : String)
  | updateTopology (config : ClusterConfig)
  | noOp
  deriving DecidableEq

/-- The configuration that a command installs. -/
def Command.topology : Command → Option ClusterConfig
  | .updateTopology config => some config
  | _ => none

/-- `AppendMessage`; `now` is the time that a registration records. -/
def Controller.appendMessage (c : Controller) (now : Nat) : Command → Controller
  | .registerNode nodeID address => c.publish (c.config.applyRegisterNode nodeID address now)
  | .updateTopology config => c.publish config
  | .noOp => c

/-- The command that `BroadcastTopologyUpdate` gives to Raft. -/
def Controller.proposal (c : Controller) : ControllerAction → Option Command
  | .broadcast i true =>
    match c.tasks[i]? with
    | some (.broadcast config _) => some (.updateTopology config)
    | _ => none
  | _ => none

/-! ## What a step of a controller can do -/

/-- The ways in which a step can go, with what is known in each of them. -/
inductive Controller.StepCase (c : Controller) : ControllerAction → Controller → Prop
  | failure (nodeID : String) :
      StepCase c (.handleNodeFailure nodeID) (c.publish (c.config.rebalance nodeID))
  | nothingToDo (activeNodes : List String) : StepCase c (.rebalance activeNodes) c
  | read {activeNodes : List String} (hactive : Enumerates activeNodes c.config.activeIDs)
      (hne : activeNodes ≠ []) :
      StepCase c (.rebalance activeNodes) (c.spawn (.rebalance c.config activeNodes))
  | write {i : Nat} {order : List Nat} {config : ClusterConfig} {activeNodes : List String}
      (htask : c.tasks[i]? = some (.rebalance config activeNodes))
      (horder : Enumerates order c.config.shards.keys) :
      StepCase c (.rebalanceShards i order)
        ((c.publish (c.config.rebalanceShards config activeNodes order).1).resume i
          (some (.broadcast (c.config.rebalanceShards config activeNodes order).1
            (c.config.rebalanceShards config activeNodes order).2)))
  | broadcast {i : Nat} (sent : Bool) {config : ClusterConfig} {syncTasks : List ReplicaSyncTask}
      (htask : c.tasks[i]? = some (.broadcast config syncTasks)) :
      StepCase c (.broadcast i sent) (c.resume i (Task.nextSync config syncTasks))
  | moveRefused (shardID : Nat) (targetNodeID : String) :
      StepCase c (.moveShard shardID targetNodeID) c
  | moveBegun {shardID : Nat} {targetNodeID : String} {m : Migration}
      (hbegin : c.config.beginMove shardID targetNodeID = .ok m) :
      StepCase c (.moveShard shardID targetNodeID) (c.spawn (.move m (.copying none)))
  | lock {i : Nat} {m : Migration} (htask : c.tasks[i]? = some (.move m .copied)) :
      StepCase c (.lockShard i)
        ((c.publish (c.config.lockShard m.shardID)).resume i (some (.move m (.catchingUp none))))
  | cutOver {i : Nat} {m : Migration} (htask : c.tasks[i]? = some (.move m .caughtUp)) :
      StepCase c (.cutOver i)
        ((c.publish (c.config.cutOver m.shardID m.targetNodeID)).resume i none)
  | exported {i : Nat} (data : ConcurrentMapCache) {task : Task} {p : Pull}
      (htask : c.tasks[i]? = some task) (hpull : task.pull = some p) (hdata : p.data = none) :
      StepCase c (.exported i data) (c.resume i (some (task.withData data)))
  | imported {i : Nat} {task : Task} {p : Pull} (htask : c.tasks[i]? = some task)
      (hpull : task.pull = some p) (hdata : p.data ≠ none) :
      StepCase c (.imported i) (c.resume i task.pulled)
  | pullFailed {i : Nat} {task : Task} (htask : c.tasks[i]? = some task) :
      StepCase c (.pullFailed i) (c.resume i task.pullFailed)

variable {c' : Controller} {a : ControllerAction} {config : ClusterConfig} {c : Controller}
  {task : Task}

theorem Controller.step_cases (h : c.step a = some c') : StepCase c a c' := by
  cases a with
  | handleNodeFailure nodeID =>
    cases h
    exact .failure nodeID
  | rebalance activeNodes =>
    simp only [step] at h
    split at h
    · rename_i hactive
      split at h
      · cases h
        exact .nothingToDo activeNodes
      · rename_i hwork
        cases h
        exact .read hactive fun hempty ↦ hwork (Or.inl hempty)
    · cases h
  | rebalanceShards i order =>
    simp only [step] at h
    split at h
    · rename_i config activeNodes htask
      split at h
      · rename_i horder
        cases h
        exact .write htask horder
      · cases h
    · cases h
  | broadcast i sent =>
    simp only [step] at h
    split at h
    · rename_i config syncTasks htask
      cases h
      exact .broadcast sent htask
    · cases h
  | moveShard shardID targetNodeID =>
    simp only [step] at h
    split at h
    · rename_i m hbegin
      cases h
      exact .moveBegun hbegin
    · cases h
      exact .moveRefused shardID targetNodeID
  | lockShard i =>
    simp only [step] at h
    split at h
    · rename_i m htask
      cases h
      exact .lock htask
    · cases h
  | cutOver i =>
    simp only [step] at h
    split at h
    · rename_i m htask
      cases h
      exact .cutOver htask
    · cases h
  | exported i data =>
    simp only [step] at h
    split at h
    · rename_i task htask
      split at h
      · rename_i hwaits
        cases h
        obtain ⟨p, hpull, hdata⟩ := Option.any_eq_true _ _ |>.mp hwaits
        exact .exported data htask hpull (of_decide_eq_true hdata)
      · cases h
    · cases h
  | imported i =>
    simp only [step] at h
    split at h
    · rename_i task htask
      split at h
      · rename_i hwaits
        cases h
        obtain ⟨p, hpull, hdata⟩ := Option.any_eq_true _ _ |>.mp hwaits
        exact .imported htask hpull (of_decide_eq_true hdata)
      · cases h
    · cases h
  | pullFailed i =>
    simp only [step] at h
    split at h
    · rename_i task htask
      split at h <;> cases h <;> exact .pullFailed htask
    · cases h

/-! ## What becomes of one shard -/

/-- The shard after a step, and how the step has made it. -/
inductive Controller.ShardStep (c : Controller) (shardID : Nat) :
    ControllerAction → ShardMetadata → Prop
  | same {a : ControllerAction} {shard shard' : ShardMetadata}
      (hshard : c.config.shards.lookup shardID = some shard)
      (hprimary : shard'.primaryID = shard.primaryID)
      (hreplicas : shard'.replicaIDs = shard.replicaIDs) : ShardStep c shardID a shard'
  | failed (nodeID : String) {shard : ShardMetadata}
      (hshard : c.config.shards.lookup shardID = some shard) :
      ShardStep c shardID (.handleNodeFailure nodeID) (shard.rebalance nodeID)
  | written {i nodeIndex : Nat} {order : List Nat} {config : ClusterConfig}
      {activeNodes : List String} {shard : ShardMetadata}
      (htask : c.tasks[i]? = some (.rebalance config activeNodes))
      (horder : Enumerates order c.config.shards.keys)
      (hshard : c.config.shards.lookup shardID = some shard)
      (hshard' : (c.config.rebalanceShards config activeNodes order).1.shards.lookup shardID =
        some (shard.rebalanced config activeNodes nodeIndex)) :
      ShardStep c shardID (.rebalanceShards i order) (shard.rebalanced config activeNodes nodeIndex)
  /-- A shard that the configuration does not have is locked. -/
  | created {i : Nat} {shard' : ShardMetadata} (hnone : c.config.shards.lookup shardID = none)
      (hprimary : shard'.primaryID = "") (hreplicas : shard'.replicaIDs = []) :
      ShardStep c shardID (.lockShard i) shard'
  | moved {i : Nat} {m : Migration} {shard' : ShardMetadata}
      (htask : c.tasks[i]? = some (.move m .caughtUp)) (hm : m.shardID = shardID)
      (hprimary : shard'.primaryID = m.targetNodeID)
      (hreplicas : ∀ r ∈ shard'.replicaIDs,
        ∃ shard, c.config.shards.lookup shardID = some shard ∧ r ∈ shard.replicaIDs) :
      ShardStep c shardID (.cutOver i) shard'

theorem Controller.shard_step {shardID : Nat} {shard' : ShardMetadata} (h : c.step a = some c')
    (hshard' : c'.config.shards.lookup shardID = some shard') : ShardStep c shardID a shard' := by
  cases step_cases h with
  | failure nodeID =>
    change (c.config.rebalance nodeID).shards.lookup shardID = some shard' at hshard'
    rw [ClusterConfig.lookup_shards_rebalance] at hshard'
    obtain ⟨shard, hshard, rfl⟩ := Option.map_eq_some_iff.mp hshard'
    exact .failed nodeID hshard
  | nothingToDo | moveRefused | read | moveBegun => exact .same hshard' rfl rfl
  | write htask horder =>
    obtain ⟨shard, nodeIndex, hshard, rfl⟩ := exists_of_lookup_rebalanceShards horder hshard'
    exact .written htask horder hshard hshard'
  | @lock i m htask =>
    rw [resume_config, publish_config, ClusterConfig.lockShard] at hshard'
    by_cases hm : shardID = m.shardID
    · subst hm
      rw [lookup_modifyShard_self] at hshard'
      cases hshard'
      cases hshard : c.config.shards.lookup m.shardID with
      | none => exact .created hshard rfl rfl
      | some shard => exact .same hshard rfl rfl
    · rw [lookup_modifyShard_of_ne _ _ _ hm] at hshard'
      exact .same hshard' rfl rfl
  | @cutOver i m htask =>
    rw [resume_config, publish_config, ClusterConfig.cutOver] at hshard'
    by_cases hm : shardID = m.shardID
    · subst hm
      rw [lookup_modifyShard_self] at hshard'
      cases hshard'
      refine .moved htask rfl rfl fun r hr ↦ ?_
      cases hshard : c.config.shards.lookup m.shardID with
      | none =>
        rw [hshard] at hr
        cases hr
      | some shard =>
        rw [hshard] at hr
        exact ⟨shard, rfl, hr⟩
    · rw [lookup_modifyShard_of_ne _ _ _ hm] at hshard'
      exact .same hshard' rfl rfl
  | broadcast | exported | imported | pullFailed =>
    rw [resume_config] at hshard'
    exact .same hshard' rfl rfl

/-- No step forgets a shard. -/
theorem Controller.exists_shard_step {shardID : Nat} {shard : ShardMetadata}
    (h : c.step a = some c') (hshard : c.config.shards.lookup shardID = some shard) :
    ∃ shard', c'.config.shards.lookup shardID = some shard' := by
  have hmodify : ∀ {k : Nat} {f : ShardMetadata → ShardMetadata},
      ∃ shard', (c.config.modifyShard k f).shards.lookup shardID = some shard' := by
    intro k f
    by_cases hk : shardID = k
    · subst hk
      exact ⟨_, lookup_modifyShard_self _ _ _⟩
    · exact ⟨shard, (lookup_modifyShard_of_ne _ _ _ hk).trans hshard⟩
  cases step_cases h with
  | failure nodeID =>
    refine ⟨shard.rebalance nodeID, ?_⟩
    exact (ClusterConfig.lookup_shards_rebalance _ _ _).trans (by rw [hshard]; rfl)
  | nothingToDo | moveRefused | read | moveBegun => exact ⟨shard, hshard⟩
  | write htask horder =>
    obtain ⟨nodeIndex, hnext⟩ := lookup_rebalanceShards horder hshard
    exact ⟨_, hnext⟩
  | lock | cutOver =>
    rw [resume_config]
    exact hmodify
  | broadcast | exported | imported | pullFailed => exact ⟨shard, by rw [resume_config, hshard]⟩

/-! ## Configurations that wait to be broadcast -/

/-- The configuration that a task will broadcast. -/
def Task.broadcasting : Task → Option ClusterConfig
  | .broadcast config _ => some config
  | _ => none

@[simp] theorem Task.broadcasting_withData (task : Task) (data : ConcurrentMapCache) :
    (task.withData data).broadcasting = task.broadcasting := by
  cases task with
  | move m stage => cases stage <;> rfl
  | _ => rfl

theorem Task.broadcasting_nextSync {syncTasks : List ReplicaSyncTask}
    (h : nextSync config syncTasks = some task) : task.broadcasting = none := by
  cases syncTasks with
  | nil => cases h
  | cons head tail =>
    cases h
    rfl

theorem Task.broadcasting_pulled {next : Task} {p : Pull} (hpull : task.pull = some p)
    (h : task.pulled = some next) : next.broadcasting = none := by
  cases task with
  | rebalance | broadcast => cases hpull
  | sync config syncTasks data =>
    cases syncTasks with
    | nil => cases hpull
    | cons head tail => exact broadcasting_nextSync h
  | move m stage =>
    cases stage with
    | copying | catchingUp =>
      cases h
      rfl
    | copied | caughtUp => cases hpull

theorem Task.broadcasting_pullFailed {next : Task} (h : task.pullFailed = some next) :
    next.broadcasting = none := by
  cases task with
  | sync config syncTasks data =>
    cases syncTasks with
    | nil => cases h
    | cons head tail => exact broadcasting_nextSync h
  | rebalance | broadcast | move => cases h

/-- A configuration that waits to be broadcast after a step did so before, or the step is the
writing region of a `Rebalance` and has just published it. -/
theorem Controller.broadcasting_step (h : c.step a = some c') (htask : task ∈ c'.tasks)
    (hconfig : task.broadcasting = some config) :
    (∃ old ∈ c.tasks, old.broadcasting = some config) ∨
      (∃ i order, a = .rebalanceShards i order) ∧ config = c'.config := by
  -- every other new task is one that broadcasts nothing, or what its task broadcast already
  have hother : ∀ {next : Option Task} {i : Nat}, (∀ t, next = some t → t.broadcasting = none) →
      task ∈ (c.resume i next).tasks → ∃ old ∈ c.tasks, old.broadcasting = some config := by
    intro next i hnext hmem
    rcases mem_resume hmem with hmem | hmem
    · exact ⟨task, hmem, hconfig⟩
    · rw [hnext task hmem] at hconfig
      cases hconfig
  cases step_cases h with
  | failure | nothingToDo | moveRefused => exact Or.inl ⟨task, htask, hconfig⟩
  | read | moveBegun =>
    rcases mem_spawn htask with hmem | rfl
    · exact Or.inl ⟨task, hmem, hconfig⟩
    · cases hconfig
  | write =>
    rcases mem_resume htask with hmem | hmem
    · exact Or.inl ⟨task, hmem, hconfig⟩
    · cases hmem
      cases hconfig
      exact Or.inr ⟨⟨_, _, rfl⟩, rfl⟩
  | broadcast => exact Or.inl (hother (fun _ ↦ Task.broadcasting_nextSync) htask)
  | lock =>
    rcases mem_resume htask with hmem | hmem
    · exact Or.inl ⟨task, hmem, hconfig⟩
    · cases hmem
      cases hconfig
  | cutOver =>
    rcases mem_resume htask with hmem | hmem
    · exact Or.inl ⟨task, hmem, hconfig⟩
    · cases hmem
  | exported data hold =>
    rcases mem_resume htask with hmem | hmem
    · exact Or.inl ⟨task, hmem, hconfig⟩
    · cases hmem
      rw [Task.broadcasting_withData] at hconfig
      exact Or.inl ⟨_, List.mem_of_getElem? hold, hconfig⟩
  | imported _ hpull => exact Or.inl (hother (fun _ ↦ Task.broadcasting_pulled hpull) htask)
  | pullFailed => exact Or.inl (hother (fun _ ↦ Task.broadcasting_pullFailed) htask)

/-- What is proposed was waiting to be broadcast. -/
theorem Controller.broadcasting_proposal {command : Command} (h : c.proposal a = some command)
    (hconfig : config ∈ command.topology) : ∃ task ∈ c.tasks, task.broadcasting = some config := by
  unfold proposal at h
  split at h
  · split at h
    · rename_i htask
      cases h
      cases hconfig
      exact ⟨_, List.mem_of_getElem? htask, rfl⟩
    · cases h
  · cases h

/-- The number of shards never changes. -/
theorem Controller.totalShards_step (h : c.step a = some c') :
    c'.config.totalShards = c.config.totalShards := by
  cases step_cases h with
  | failure | nothingToDo | moveRefused | read | moveBegun | write => rfl
  | broadcast | exported | imported | pullFailed => rw [resume_config]
  | lock | cutOver =>
    rw [resume_config]
    rfl

/-- A step of a controller registers no node and forgets none. -/
theorem Controller.keys_step (h : c.step a = some c') :
    c'.config.nodes.keys = c.config.nodes.keys := by
  cases step_cases h with
  | failure nodeID => exact ClusterConfig.keys_rebalance _ _
  | nothingToDo | moveRefused | read | moveBegun | write => rfl
  | broadcast | exported | imported | pullFailed => rw [resume_config]
  | lock | cutOver =>
    rw [resume_config]
    rfl

end DistributedCache
