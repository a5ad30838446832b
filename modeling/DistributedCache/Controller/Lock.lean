import DistributedCache.Controller.Plane
import DistributedCache.DataNode.Node

/-!
# The lock of a migration

Between its second and its last region `MoveShard` counts on the status of the shard: no primary
takes a write for a shard that is locked.  The status is a field of the configuration, and every
operation that builds a configuration in the meantime has to carry it over.  `metadata.Rebalance`
does not, a configuration that was computed before the lock does not have it, and a `Rebalance` of
the controller opens a shard that has no primary.
-/

namespace DistributedCache

open FiniteMap Transition

/-! ## Shards that a task has locked -/

/-- The shard that a migration has locked and not given to its target yet. -/
def Task.locks : Task → Option Nat
  | .move m (.catchingUp _) => some m.shardID
  | .move m .caughtUp => some m.shardID
  | _ => none

def Controller.Locks (c : Controller) (shardID : Nat) : Prop :=
  ∃ task ∈ c.tasks, task.locks = some shardID

def Controller.Unlocked (c : Controller) : Prop := ∀ task ∈ c.tasks, task.locks = none
deriving Decidable

/-- The status that keeps writers out, on a shard that `Rebalance` will not touch. -/
def ClusterConfig.Locked (config : ClusterConfig) (shardID : Nat) : Prop :=
  (config.shards.lookup shardID).any (fun shard ↦ shard.status = .locked ∧ shard.primaryID ≠ "")
deriving Decidable

def ClusterConfig.HasPrimary (config : ClusterConfig) (shardID : Nat) : Prop :=
  (config.shards.lookup shardID).any (fun shard ↦ shard.primaryID ≠ "")
deriving Decidable

variable {config : ClusterConfig} {task : Task} {shard : ShardMetadata} {shardID : Nat}
  {c : Controller} {next : Task} {activeNodes : List String}

theorem ClusterConfig.locked_iff :
    config.Locked shardID ↔ ∃ shard, config.shards.lookup shardID = some shard ∧
      shard.status = .locked ∧ shard.primaryID ≠ "" := by
  unfold ClusterConfig.Locked
  rw [Option.any_eq_true]
  simp only [decide_eq_true_eq]

theorem Controller.Unlocked.not_locks (h : c.Unlocked) (shardID : Nat) : ¬ c.Locks shardID := by
  rintro ⟨task, htask, hlocks⟩
  rw [h task htask] at hlocks
  cases hlocks

/-! ## What a step of the controller does to a lock -/

theorem Task.locks_withData (task : Task) (data : ConcurrentMapCache) :
    (task.withData data).locks = task.locks := by
  cases task with
  | move m stage => cases stage <;> rfl
  | _ => rfl

theorem Task.locks_nextSync {syncTasks : List ReplicaSyncTask}
    (h : nextSync config syncTasks = some task) : task.locks = none := by
  cases syncTasks with
  | nil => cases h
  | cons head tail =>
    cases h
    rfl

theorem Task.locks_pulled (h : task.pulled = some next) (hlocks : next.locks = some shardID) :
    task.locks = some shardID := by
  cases task with
  | rebalance | broadcast =>
    cases h
    cases hlocks
  | sync config syncTasks data =>
    cases syncTasks with
    | nil =>
      cases h
      cases hlocks
    | cons head tail =>
      rw [locks_nextSync h] at hlocks
      cases hlocks
  | move m stage =>
    cases stage with
    | copying data =>
      cases h
      cases hlocks
    | copied | catchingUp | caughtUp =>
      cases h
      exact hlocks

theorem Task.locks_pullFailed (h : task.pullFailed = some next) : next.locks = none := by
  cases task with
  | sync config syncTasks data =>
    cases syncTasks with
    | nil => cases h
    | cons head tail => exact locks_nextSync h
  | _ => cases h

namespace Controller

variable {c c' : Controller} {a : ControllerAction} {i shardID : Nat}

theorem locks_resume {next : Option Task} (h : (c.resume i next).Locks shardID) :
    c.Locks shardID ∨ ∃ task, next = some task ∧ task.locks = some shardID := by
  obtain ⟨task, htask, hlocks⟩ := h
  rcases mem_resume htask with hold | hnew
  · exact Or.inl ⟨task, hold, hlocks⟩
  · exact Or.inr ⟨task, hnew, hlocks⟩

/-- A lock that is there after a step was there before, or the step has taken it. -/
theorem locks_step (h : c.step a = some c') (hlocks : c'.Locks shardID) :
    c.Locks shardID ∨ ∃ j m, a = .lockShard j ∧ c.tasks[j]? = some (.move m .copied) ∧
      m.shardID = shardID := by
  cases step_cases h with
  | failure | nothingToDo | moveRefused => exact Or.inl hlocks
  | read | moveBegun =>
    obtain ⟨task, htask, hlocks⟩ := hlocks
    rcases mem_spawn htask with hold | rfl
    · exact Or.inl ⟨task, hold, hlocks⟩
    · cases hlocks
  | write =>
    rcases locks_resume hlocks with hold | ⟨task, hnew, hlocks⟩
    · exact Or.inl hold
    · cases hnew
      cases hlocks
  | broadcast =>
    rcases locks_resume hlocks with hold | ⟨task, hnew, hlocks⟩
    · exact Or.inl hold
    · rw [Task.locks_nextSync hnew] at hlocks
      cases hlocks
  | @lock j m htask =>
    rcases locks_resume hlocks with hold | ⟨task, hnew, hlocks⟩
    · exact Or.inl hold
    · cases hnew
      exact Or.inr ⟨j, m, rfl, htask, Option.some.inj hlocks⟩
  | cutOver =>
    rcases locks_resume hlocks with hold | ⟨task, hnew, hlocks⟩
    · exact Or.inl hold
    · cases hnew
  | @exported j data task p htask =>
    rcases locks_resume hlocks with hold | ⟨next, hnew, hlocks⟩
    · exact Or.inl hold
    · cases hnew
      rw [Task.locks_withData] at hlocks
      exact Or.inl ⟨task, List.mem_of_getElem? htask, hlocks⟩
  | @imported j task p htask =>
    rcases locks_resume hlocks with hold | ⟨next, hnew, hlocks⟩
    · exact Or.inl hold
    · exact Or.inl ⟨task, List.mem_of_getElem? htask, Task.locks_pulled hnew hlocks⟩
  | pullFailed =>
    rcases locks_resume hlocks with hold | ⟨next, hnew, hlocks⟩
    · exact Or.inl hold
    · rw [Task.locks_pullFailed hnew] at hlocks
      cases hlocks

end Controller

/-! ## What becomes of the status -/

/-- `Rebalance` opens only shards without a primary. -/
theorem rebalanced_status {nodeIndex : Nat} (h : shard.primaryID ≠ "") :
    (shard.rebalanced config activeNodes nodeIndex).status = shard.status := by
  unfold ShardMetadata.rebalanced assignPrimary
  rw [if_neg h]
  unfold fillReplicas
  split <;> rfl

theorem ClusterConfig.Locked.rebalanceShards {current : ClusterConfig} {order : List Nat}
    (h : current.Locked shardID) (horder : Enumerates order current.shards.keys) :
    (current.rebalanceShards config activeNodes order).1.Locked shardID := by
  obtain ⟨shard, hshard, hstatus, hprimary⟩ := ClusterConfig.locked_iff.mp h
  obtain ⟨nodeIndex, hnext⟩ := lookup_rebalanceShards horder hshard
  refine ClusterConfig.locked_iff.mpr ⟨_, hnext, ?_, ?_⟩
  · rw [rebalanced_status hprimary, hstatus]
  · rwa [rebalanced_primaryID hprimary]

theorem ClusterConfig.Locked.modifyShard {k : Nat} {f : ShardMetadata → ShardMetadata}
    (h : config.Locked shardID) (hne : shardID ≠ k) : (config.modifyShard k f).Locked shardID := by
  unfold ClusterConfig.Locked
  rw [lookup_modifyShard_of_ne _ _ _ hne]
  exact h

/-- A shard with a primary is locked by `MoveShard`. -/
theorem ClusterConfig.HasPrimary.lockShard (h : config.HasPrimary shardID) :
    (config.lockShard shardID).Locked shardID := by
  obtain ⟨shard, hshard, hprimary⟩ := (Option.any_eq_true _ _).mp h
  refine ClusterConfig.locked_iff.mpr ⟨_, lookup_modifyShard_self _ _ _, rfl, ?_⟩
  rw [hshard]
  exact of_decide_eq_true hprimary

/-- Locking one shard leaves the other locks alone, and a second lock changes nothing. -/
theorem ClusterConfig.Locked.lockShard (h : config.Locked shardID) (k : Nat) :
    (config.lockShard k).Locked shardID := by
  by_cases hk : shardID = k
  · subst hk
    obtain ⟨shard, hshard, -, hprimary⟩ := ClusterConfig.locked_iff.mp h
    apply ClusterConfig.HasPrimary.lockShard
    exact (Option.any_eq_true _ _).mpr ⟨shard, hshard, decide_eq_true hprimary⟩
  · exact h.modifyShard hk

/-- The steps of a controller that keep a lock: all but a failure and the end of a migration of the
shard. -/
theorem Controller.locked_step {c' : Controller} {a : ControllerAction} (h : c.step a = some c')
    (hlocked : c.config.Locked shardID) (hfailure : ∀ nodeID, a ≠ .handleNodeFailure nodeID)
    (hcutOver : ∀ j m, a = .cutOver j → c.tasks[j]? = some (.move m .caughtUp) → m.shardID ≠
      shardID) : c'.config.Locked shardID := by
  cases step_cases h with
  | failure nodeID => exact absurd rfl (hfailure nodeID)
  | nothingToDo | moveRefused | read | moveBegun => exact hlocked
  | write htask horder => exact hlocked.rebalanceShards horder
  | @lock j m =>
    rw [resume_config, publish_config]
    exact hlocked.lockShard m.shardID
  | @cutOver j m htask =>
    rw [resume_config, publish_config]
    exact hlocked.modifyShard (hcutOver j m rfl htask).symm
  | broadcast => rwa [resume_config]
  | exported => rwa [resume_config]
  | imported => rwa [resume_config]
  | pullFailed => rwa [resume_config]

/-! ## Runs that keep the lock -/

variable {ι : Type} [DecidableEq ι]

/-- The migration that a task is about. -/
def Task.migration : Task → Option Migration
  | .move m _ => some m
  | _ => none

/-- The condition on a step of controller `j` under which controller `i` keeps its locks. -/
def StepKeepsLock (i : ι) (s : ControlPlane ι) (j : ι) : ControllerAction → Prop
  | .handleNodeFailure _ => j = i → (s.controllers i).Unlocked
  | .rebalanceShards _ _ => j ≠ i → (s.controllers i).Unlocked
  | .lockShard k => j = i →
    ∀ task ∈ (s.controllers i).tasks[k]?, ∀ m ∈ task.migration,
      (s.config i).HasPrimary m.shardID ∧ s.Pending i fun config ↦ config.Locked m.shardID
  | .cutOver k => j = i →
    ∀ task ∈ (s.controllers i).tasks[k]?, ∀ m ∈ task.migration,
      ∀ other ∈ (s.controllers i).tasks.eraseIdx k, other.locks ≠ some m.shardID
  | _ => True

/-- The condition under which controller `i` keeps its locks.  While it holds one it handles no
failure, ends no other migration of the same shard, and nobody else computes or captures a
configuration for it.  It takes a lock on a shard with a primary, when no configuration without the
lock is on its way. -/
def KeepsLock (i : ι) (s : ControlPlane ι) : PlaneAction ι → Prop
  | .controller j a => StepKeepsLock i s j a
  | .getSnapshot j receiver => receiver = i → j = i ∨ (s.controllers i).Unlocked
  | _ => True

section Decidable

variable [Fintype ι]

instance (i : ι) (s : ControlPlane ι) (j : ι) : ∀ a, Decidable (StepKeepsLock i s j a)
  | .handleNodeFailure _ | .rebalanceShards _ _ => inferInstanceAs (Decidable (_ → _))
  | .lockShard _ | .cutOver _ =>
    inferInstanceAs (Decidable (_ → ∀ task ∈ _, ∀ m ∈ Task.migration task, _))
  | .rebalance _ | .broadcast _ _ | .moveShard _ _ | .exported _ _ | .imported _
  | .pullFailed _ => isTrue trivial

instance (i : ι) (s : ControlPlane ι) : ∀ a, Decidable (KeepsLock i s a)
  | .controller _ _ => inferInstanceAs (Decidable (StepKeepsLock _ _ _ _))
  | .getSnapshot _ _ => inferInstanceAs (Decidable (_ → _ ∨ _))
  | .registerNode _ _ | .noOp | .commit _ | .lose _ | .appendMessage _ _
  | .restoreFromSnapshot _ => isTrue trivial

end Decidable

/-- Every shard that controller `i` has locked is locked in its configuration, and in every
configuration that it may still install. -/
def LocksHeld (i : ι) (s : ControlPlane ι) : Prop :=
  ∀ shardID, (s.controllers i).Locks shardID →
    (s.config i).Locked shardID ∧ s.Pending i fun config ↦ config.Locked shardID

variable {i : ι} {s s' : ControlPlane ι} {node : DataNode} {now : Nat} {req : DataRequest}

namespace LocksHeld

omit [DecidableEq ι] in
theorem start (config : ClusterConfig) : LocksHeld i (.start config : ControlPlane ι) := by
  rintro shardID ⟨task, htask, -⟩
  cases htask

omit [DecidableEq ι] in
/-- A step of controller `i` itself. -/
theorem ownStep (h : LocksHeld i s) {a : ControllerAction} {c : Controller}
    (hok : StepKeepsLock i s i a) (hstep : (s.controllers i).step a = some c)
    (hlocks : c.Locks shardID) :
    c.config.Locked shardID ∧ s.Pending i fun config ↦ config.Locked shardID := by
  by_cases hold : (s.controllers i).Locks shardID
  · obtain ⟨hlocked, hpending⟩ := h shardID hold
    refine ⟨Controller.locked_step hstep hlocked ?_ ?_, hpending⟩
    · rintro nodeID rfl
      exact (hok rfl).not_locks shardID hold
    · rintro j m rfl htask rfl
      -- the migration that ends was the only one to hold this lock
      have hother := hok rfl _ htask m rfl
      cases Controller.step_cases hstep with
      | @cutOver _ m' htask' =>
        obtain ⟨task, hmem, hlocks⟩ := hlocks
        exact hother task hmem hlocks
  · rcases Controller.locks_step hstep hlocks with hbefore | ⟨j, m, rfl, htask, rfl⟩
    · exact absurd hbefore hold
    · obtain ⟨hprimary, hpending⟩ := hok rfl _ htask m rfl
      refine ⟨?_, hpending⟩
      cases Controller.step_cases hstep with
      | @lock _ m' htask' =>
        rw [htask] at htask'
        cases htask'
        rw [Controller.resume_config, Controller.publish_config]
        exact hprimary.lockShard

variable {j : ι} {config : ClusterConfig}

theorem controller (h : LocksHeld i s) {a : ControllerAction} {c : Controller}
    (hok : StepKeepsLock i s j a) (hstep : (s.controllers j).step a = some c) :
    LocksHeld i { s.setController j c with
      proposals := s.proposals ++ ((s.controllers j).proposal a).toList } := by
  intro shardID hlocks
  by_cases hj : j = i
  · subst hj
    change (Function.update s.controllers j c j).Locks shardID at hlocks
    rw [Function.update_self] at hlocks
    obtain ⟨hlocked, hpending⟩ := h.ownStep hok hstep hlocks
    refine ⟨?_, hpending.controller hstep fun _ _ _ ↦ hlocked⟩
    change ((s.setController j c).config j).Locked shardID
    rwa [ControlPlane.config_setController_self]
  · change (Function.update s.controllers j c i).Locks shardID at hlocks
    rw [Function.update_of_ne (Ne.symm hj)] at hlocks
    obtain ⟨hlocked, hpending⟩ := h shardID hlocks
    refine ⟨?_, hpending.controller hstep ?_⟩
    · change ((s.setController j c).config i).Locked shardID
      rwa [ControlPlane.config_setController_of_ne s (Ne.symm hj)]
    · rintro k order rfl
      exact absurd hlocks ((hok hj).not_locks shardID)

/-- A configuration that is installed leaves the tasks alone. -/
theorem locks_publish :
    ((s.setController j ((s.controllers j).publish config)).controllers i).Locks shardID ↔
      (s.controllers i).Locks shardID := by
  change (Function.update s.controllers j _ i).Locks shardID ↔ _
  by_cases hi : i = j
  · subst hi
    rw [Function.update_self]
    exact Iff.rfl
  · rw [Function.update_of_ne hi]

/-- Installing a configuration that was on its way. -/
theorem publish (h : LocksHeld i s)
    (hconfig : j = i → ∀ shardID, (s.controllers i).Locks shardID → config.Locked shardID) :
    LocksHeld i (s.setController j ((s.controllers j).publish config)) := by
  intro shardID hlocks
  have hbefore := locks_publish.mp hlocks
  refine ⟨?_, (h shardID hbefore).2.publish j config⟩
  by_cases hj : j = i
  · subst hj
    rw [ControlPlane.config_setController_self]
    exact hconfig rfl shardID hbefore
  · rw [ControlPlane.config_setController_of_ne s (Ne.symm hj)]
    exact (h shardID hbefore).1

theorem appendMessage (h : LocksHeld i s) {now : Nat} {command : Command}
    (hcommand : s.log[s.applied j]? = some command) :
    LocksHeld i ((s.advance j).setController j ((s.controllers j).appendMessage now command)) := by
  have hadvance : LocksHeld i (s.advance j) :=
    fun shardID hlocks ↦ ⟨(h shardID hlocks).1, (h shardID hlocks).2.advance j⟩
  cases command with
  | noOp => exact hadvance.publish fun hj shardID hlocks ↦ hj ▸ (h shardID hlocks).1
  | registerNode nodeID address =>
    apply hadvance.publish
    rintro rfl shardID hlocks
    unfold ClusterConfig.Locked
    rw [applyRegisterNode_shards]
    exact (h shardID hlocks).1
  | updateTopology config =>
    apply hadvance.publish
    rintro rfl shardID hlocks
    apply (h shardID hlocks).2.committed (.updateTopology config) _ config rfl
    exact List.mem_of_getElem? (i := 0) (List.getElem?_drop.trans hcommand)

omit [DecidableEq ι] in
theorem getSnapshot (h : LocksHeld i s) {receiver : ι}
    (hok : receiver = i → j = i ∨ (s.controllers i).Unlocked) :
    LocksHeld i { s with snapshots := s.snapshots ++ [⟨receiver, s.applied j, s.config j⟩] } := by
  intro shardID hlocks
  obtain ⟨hlocked, hpending⟩ := h shardID hlocks
  refine ⟨hlocked, hpending.task, hpending.proposal, hpending.committed, ?_⟩
  intro t ht hreceiver
  rcases List.mem_append.mp ht with ht | ht
  · exact hpending.snapshot t ht hreceiver
  · rw [List.mem_singleton.mp ht] at hreceiver ⊢
    rcases hok hreceiver with rfl | hunlocked
    · exact hlocked
    · exact absurd hlocks (hunlocked.not_locks shardID)

theorem restoreFromSnapshot (h : LocksHeld i s) {k : Nat} {t : SentSnapshot ι}
    (hk : s.snapshots[k]? = some t) :
    LocksHeld i
      { s.setController t.receiver ((s.controllers t.receiver).publish t.config) with
        applied := Function.update s.applied t.receiver (max (s.applied t.receiver) t.index)
        snapshots := s.snapshots.eraseIdx k } := by
  have hpublish : LocksHeld i (s.setController t.receiver
      ((s.controllers t.receiver).publish t.config)) := by
    apply h.publish
    intro hreceiver shardID hlocks
    exact (h shardID hlocks).2.snapshot t (List.mem_of_getElem? hk) hreceiver
  intro shardID hlocks
  refine ⟨(hpublish shardID hlocks).1, ControlPlane.Pending.restoreFromSnapshot ?_ t⟩
  exact (h shardID (locks_publish.mp hlocks)).2.received k

theorem step (h : LocksHeld i s) {a : PlaneAction ι} (hok : KeepsLock i s a)
    (hstep : s.step a = some s') : LocksHeld i s' := by
  cases a with
  | controller j a =>
    obtain ⟨c, hc, rfl⟩ := Option.map_eq_some_iff.mp hstep
    exact h.controller hok hc
  | registerNode | noOp =>
    cases hstep
    exact fun shardID hlocks ↦ ⟨(h shardID hlocks).1, (h shardID hlocks).2.propose rfl⟩
  | commit k =>
    obtain ⟨command, hk, rfl⟩ := Option.map_eq_some_iff.mp hstep
    exact fun shardID hlocks ↦ ⟨(h shardID hlocks).1, (h shardID hlocks).2.commit hk⟩
  | lose k =>
    cases hstep
    exact fun shardID hlocks ↦ ⟨(h shardID hlocks).1, (h shardID hlocks).2.lose k⟩
  | appendMessage j now =>
    obtain ⟨command, hcommand, rfl⟩ := Option.map_eq_some_iff.mp hstep
    exact h.appendMessage hcommand
  | getSnapshot j receiver =>
    cases hstep
    exact h.getSnapshot hok
  | restoreFromSnapshot k =>
    obtain ⟨t, hk, rfl⟩ := Option.map_eq_some_iff.mp hstep
    exact h.restoreFromSnapshot hk

/-- Along a whole run. -/
theorem of_reaches (hrun : Reaches ControlPlane.step (KeepsLock i) (.start config) s) :
    LocksHeld i s :=
  hrun.invariant (LocksHeld i) (start config) fun _ _ _ _ h hok hstep ↦ h.step hok hstep

end LocksHeld

/-! ## Writes to a locked shard -/

/-- The answer to a request that `HandlePut` or `HandleDelete` does not let through to the
replicas. -/
def DataNode.refusal (node : DataNode) (now : Nat) (body : Option DataRequest) : Option Reply :=
  match node.accept now body with
  | .error reply => some reply
  | .ok req =>
    match node.checkShard req.key with
    | .error reply => some reply
    | .ok _ => none

/-- The primary of a locked shard answers 423, once the lease and the epoch are in order. -/
theorem DataNode.refusal_locked (haccept : node.accept now (some req) = .ok req)
    (hshards : 0 < node.config.totalShards)
    (hshard : node.config.shards.lookup (node.config.shardOf req.key) = some shard)
    (hlocked : shard.status = .locked) (hprimary : shard.primaryID = node.nodeID) :
    node.refusal now (some req) = some (httpError "Shard is Locked/Migrating" .locked) := by
  unfold ClusterConfig.shardOf at hshard
  rw [if_pos hshards] at hshard
  unfold refusal checkShard
  simp only [haccept, if_pos hshards, hshard, hprimary, hlocked, ne_eq, not_true, if_false, true_or,
    if_true]

/-- No node lets a write to a locked shard through. -/
theorem DataNode.refusal_ne_none (hshards : 0 < node.config.totalShards)
    (hshard : node.config.shards.lookup (node.config.shardOf req.key) = some shard)
    (hlocked : shard.status = .locked) : node.refusal now (some req) ≠ none := by
  unfold ClusterConfig.shardOf at hshard
  rw [if_pos hshards] at hshard
  intro hnone
  unfold refusal at hnone
  split at hnone
  · cases hnone
  · rename_i req' haccept
    obtain ⟨-, hreq, -⟩ := accept_ok haccept
    cases hreq
    split at hnone
    · cases hnone
    · rename_i shardID hok
      unfold checkShard at hok
      simp only [if_pos hshards, hshard, hlocked, true_or, if_true] at hok
      split at hok <;> cases hok

/-- In a run that keeps the locks of controller `i`, a shard that a migration has locked and not
given to its target yet is locked in the configuration, and no node that has adopted the
configuration takes a write for it. -/
theorem lock_held {config : ClusterConfig} {task : Task} {shardID : Nat}
    (hrun : Reaches ControlPlane.step (KeepsLock i) (.start config) s)
    (htask : task ∈ (s.controllers i).tasks) (hlocks : task.locks = some shardID) :
    ∃ shard, (s.config i).shards.lookup shardID = some shard ∧ shard.status = .locked ∧
      ∀ (node : DataNode) (now : Nat) (req : DataRequest), node.config = s.config i →
        0 < node.config.totalShards → node.config.shardOf req.key = shardID →
        node.refusal now (some req) ≠ none ∧
        (shard.primaryID = node.nodeID → node.accept now (some req) = .ok req →
          node.refusal now (some req) = some (httpError "Shard is Locked/Migrating" .locked)) := by
  have hlocked := (LocksHeld.of_reaches hrun shardID ⟨task, htask, hlocks⟩).1
  obtain ⟨shard, hshard, hstatus, -⟩ := ClusterConfig.locked_iff.mp hlocked
  refine ⟨shard, hshard, hstatus, ?_⟩
  intro node now req hconfig hshards hkey
  have hnode : node.config.shards.lookup (node.config.shardOf req.key) = some shard := by
    rw [hkey, hconfig, hshard]
  exact ⟨DataNode.refusal_ne_none hshards hnode hstatus,
    fun hprimary haccept ↦ DataNode.refusal_locked haccept hshards hnode hstatus hprimary⟩

/-- Node `a` has the only shard, and a migration to `b` has locked it. -/
def sampleLocked : List (PlaneAction Unit) :=
  [.registerNode "a" "a", .commit 0, .appendMessage () 1, .controller () (.rebalance ["a"]),
    .controller () (.rebalanceShards 0 [0]), .controller () (.broadcast 0 true), .commit 0,
    .appendMessage () 1, .registerNode "b" "b", .commit 0, .appendMessage () 2,
    .registerNode "c" "c", .commit 0, .appendMessage () 3, .controller () (.moveShard 0 "b"),
    .controller () (.exported 0 ∅), .controller () (.imported 0), .controller () (.lockShard 0)]

/-- A `Rebalance` adds replicas during the second copy, and its result is applied. -/
theorem lock_held_rebalance :
    ∃ s : ControlPlane Unit,
      Reaches ControlPlane.step (KeepsLock ()) (.start (.newClusterConfig 1)) s ∧
      .move ⟨0, "a", "a", "b", "b"⟩ (.catchingUp none) ∈ (s.controllers ()).tasks ∧
      s.applied () = 5 ∧
      ∃ shard, (s.config ()).shards.lookup 0 = some shard ∧ shard.status = .locked ∧
        ∀ (node : DataNode) (now : Nat) (req : DataRequest), node.config = s.config () →
          0 < node.config.totalShards → node.config.shardOf req.key = 0 →
          node.refusal now (some req) ≠ none ∧
          (shard.primaryID = node.nodeID → node.accept now (some req) = .ok req →
            node.refusal now (some req) =
              some (httpError "Shard is Locked/Migrating" .locked)) := by
  obtain ⟨s, hrun, htask, happlied⟩ :
      ∃ s, Reaches ControlPlane.step (KeepsLock ()) (.start (.newClusterConfig 1)) s ∧
        .move ⟨0, "a", "a", "b", "b"⟩ (.catchingUp none) ∈ (s.controllers ()).tasks ∧
        s.applied () = 5 :=
    exists_reaches_of_exec (sampleLocked ++
      [.controller () (.rebalance ["a", "b", "c"]), .controller () (.rebalanceShards 1 [0]),
        .controller () (.broadcast 1 true), .commit 0, .appendMessage () 4]) (by decide +kernel)
  exact ⟨s, hrun, htask, happlied, lock_held hrun htask rfl⟩

/-- A third node fails during the second copy: the shard is open again, and its primary takes a
write that the target does not get. -/
theorem lock_dropped :
    ∃ s : ControlPlane Unit, Reachable ControlPlane.step (.start (.newClusterConfig 1)) s ∧
      .move ⟨0, "a", "a", "b", "b"⟩ (.catchingUp none) ∈ (s.controllers ()).tasks ∧
      (s.config ()).shards.lookup 0 = some ⟨0, "a", [], .unset⟩ ∧
      ({ DataNode.newServer "a" 10 with
          config := s.config (), validUntil := 10 } : DataNode).refusal 5
        (some (.put ⟨"k", "v", (s.config ()).epoch⟩)) = none :=
  exists_reaches_of_exec (sampleLocked ++ [.controller () (.handleNodeFailure "c")])
    (by decide +kernel)

end DistributedCache
