import DistributedCache.Cluster.World

/-!
# Moving a shard

`MoveShard` copies the shard, locks it in the controller's configuration, copies it again and makes
the target the primary.  The source learns of the lock only with its next heartbeat, and a write
that has passed the check of the lock is not stopped by it.  What the source stores after it has
answered the second copy is not on the target.
-/

namespace DistributedCache

open FiniteMap Transition

/-- The second copy of the shard has been taken from the source. -/
def Task.hasCopied (shardID : Nat) : Task → Bool
  | .move m (.catchingUp (some _)) => m.shardID = shardID
  | .move m .caughtUp => m.shardID = shardID
  | _ => false

namespace Migration

variable (numShards shardID : Nat)

/-- The second copy is taken, and the target is not yet the primary. -/
def Copied (w : World) : Prop := ∃ task ∈ w.controller.tasks, task.hasCopied shardID = true
deriving Decidable

/-- Writes of the shard are stored by the controller's primary, which is not its own replica, and
nothing is stored once the second copy is taken. -/
def CalmWrite (w : World) : WriteAction → Prop
  | .replicate id _ => ∀ h ∈ w.data.handlers.lookup id,
    shardIDOf h.write.key numShards = shardID → ¬ Copied shardID w ∧
      ∀ url ∈ h.stage.nextURL, w.controller.config.primaryAddress shardID ≠ some url
  | .finish id => ∀ h ∈ w.data.handlers.lookup id,
    shardIDOf h.write.key numShards = shardID → ¬ Copied shardID w ∧
      w.controller.config.primaryAddress shardID = some h.write.address
  | .deliver k => ∀ x ∈ w.data.strays[k]?,
    shardIDOf x.2.key numShards = shardID → ¬ Copied shardID w ∧
      w.controller.config.primaryAddress shardID ≠ some x.1
  | _ => True

/-- One `MoveShard` at a time, to another node; only its cut-over for the shard itself is left
out. -/
def CalmController (w : World) : ControllerAction → Prop
  | .moveShard k targetNodeID => w.controller.tasks = [] ∧
    ∀ m ∈ (w.controller.config.beginMove k targetNodeID).toOption,
      m.targetAddress ≠ m.sourceAddress
  | .lockShard _ => True
  | .cutOver i => ∀ task ∈ w.controller.tasks[i]?, task.hasCopied shardID = false
  | .pullFailed _ => True
  | _ => False

def Calm (w : World) : WorldAction → Prop
  | .controller a => CalmController shardID w a
  | .appendMessage k _ => ∀ command ∈ w.submitted[k]?, command.topology = none
  -- no import of the shard comes late
  | .strayImport k => ∀ p ∈ w.strays[k]?, p.shardID ≠ shardID
  | .data a => CalmWrite numShards shardID w a
  | _ => True

instance (w : World) : ∀ a, Decidable (Calm numShards shardID w a)
  | .controller (.moveShard _ _) => inferInstanceAs (Decidable (_ ∧ _))
  | .controller (.cutOver _) => inferInstanceAs (Decidable (∀ task ∈ _, _ = _))
  | .controller (.lockShard _) | .controller (.pullFailed _) => isTrue trivial
  | .controller (.handleNodeFailure _) | .controller (.rebalance _)
  | .controller (.rebalanceShards _ _) | .controller (.broadcast _ _)
  | .controller (.exported _ _) | .controller (.imported _) => isFalse id
  | .appendMessage _ _ => inferInstanceAs (Decidable (∀ command ∈ _, _ = _))
  | .strayImport _ => inferInstanceAs (Decidable (∀ p ∈ _, _ ≠ _))
  | .data (.replicate _ _) | .data (.finish _) | .data (.deliver _) =>
    inferInstanceAs (Decidable (∀ x ∈ _, _ → _ ∧ _))
  | .data (.request _ _ _) | .data (.checkShard _) | .data (.route _) | .registerNode _ _
  | .pullExport _ | .pullImport _ _ | .strayExport _ | .renew _ _ _ => isTrue trivial

/-! ## What the source and the copies hold -/

/-- The effect of the last write of the key that was answered with 200. -/
def last (w : World) (key : String) : Option (Option String) :=
  Register.lastAcknowledged (w.data.registerHistory key)

/-- A copy holds the put that was acknowledged last. -/
def Current (w : World) (copy : String → Option String) : Prop :=
  ∀ key, shardIDOf key numShards = shardID → ∀ value, last w key = some (some value) →
    copy key = some value

/-- The controller's primary of the shard does. -/
def PrimaryCurrent (w : World) : Prop :=
  ∀ key, shardIDOf key numShards = shardID → ∀ value, last w key = some (some value) →
    ∃ address, w.controller.config.primaryAddress shardID = some address ∧
      w.data.cell address key = some value

/-- What is known about a running `MoveShard`. -/
structure Moving (w : World) (m : Migration) (stage : MoveStage) : Prop where
  apart : m.targetAddress ≠ m.sourceAddress
  source : m.shardID = shardID → w.controller.config.primaryAddress shardID = some m.sourceAddress
  secondCopy : m.shardID = shardID → ∀ data, stage = .catchingUp (some data) →
    Current numShards shardID w fun key ↦ data.lookup key
  target : m.shardID = shardID → stage = .caughtUp →
    Current numShards shardID w (w.data.cell m.targetAddress)

structure Kept (w : World) : Prop where
  sound : w.Sound numShards
  acknowledged : PrimaryCurrent numShards shardID w
  moving : w.controller.tasks = [] ∨ ∃ m stage, w.controller.tasks = [.move m stage] ∧
    Moving numShards shardID w m stage

variable {numShards shardID} {w w' : World}

variable {task : Task} {i k : Nat} {m : Migration} {stage : MoveStage} {config : ClusterConfig}
  {p : Pull} {data : ConcurrentMapCache} {a : WriteAction}

/-- A step of the controller keeps the only task, or replaces it. -/
theorem resume_single {c : Controller} {old : Task} (hsingle : c.tasks = [old])
    (hi : c.tasks[i]? = some task) (next : Option Task) :
    task = old ∧ (c.resume i next).tasks = next.toList := by
  rw [hsingle] at hi
  obtain ⟨hlt, hget⟩ := List.getElem?_eq_some_iff.mp hi
  have hzero : i = 0 := Nat.lt_one_iff.mp hlt
  subst hzero
  refine ⟨hget.symm, ?_⟩
  unfold Controller.resume
  cases next with
  | none | some => rw [hsingle]; rfl

theorem last_congr (hhistory : w'.data.history = w.data.history) (key : String) :
    last w' key = last w key := by
  unfold last DataPlane.registerHistory
  rw [hhistory]

theorem Moving.congr (h : Moving numShards shardID w m stage)
    (hprimary : ∀ address, w.controller.config.primaryAddress shardID = some address →
      w'.controller.config.primaryAddress shardID = some address)
    (hhistory : w'.data.history = w.data.history)
    (hcell : ∀ address key, shardIDOf key numShards = shardID → w'.data.cell address key =
      w.data.cell address key) : Moving numShards shardID w' m stage := by
  refine ⟨h.apart, fun hm ↦ hprimary _ (h.source hm), ?_, ?_⟩
  · intro hm data hstage key hkey value hvalue
    rw [last_congr hhistory] at hvalue
    exact h.secondCopy hm data hstage key hkey value hvalue
  · intro hm hstage key hkey value hvalue
    rw [last_congr hhistory] at hvalue
    rw [hcell _ key hkey]
    exact h.target hm hstage key hkey value hvalue

/-- Steps that leave the writes of the shard and what the nodes hold of it. -/
theorem Kept.control (h : Kept numShards shardID w) (hsound : w'.Sound numShards)
    (hprimary : ∀ address, w.controller.config.primaryAddress shardID = some address →
      w'.controller.config.primaryAddress shardID = some address)
    (hhistory : w'.data.history = w.data.history)
    (hcell : ∀ address key, shardIDOf key numShards = shardID →
      w'.data.cell address key = w.data.cell address key)
    (hmoving : w'.controller.tasks = [] ∨ ∃ m stage, w'.controller.tasks = [.move m stage] ∧
      Moving numShards shardID w m stage) : Kept numShards shardID w' := by
  refine ⟨hsound, ?_, ?_⟩
  · intro key hkey value hvalue
    rw [last_congr hhistory] at hvalue
    obtain ⟨address, haddress, hheld⟩ := h.acknowledged key hkey value hvalue
    exact ⟨address, hprimary address haddress, (hcell address key hkey).trans hheld⟩
  · rcases hmoving with hnone | ⟨m, stage, htasks, hmoving⟩
    · exact Or.inl hnone
    · exact Or.inr ⟨m, stage, htasks, hmoving.congr hprimary hhistory hcell⟩

/-! ## Steps -/

theorem primaryAddress_lockShard {address : String}
    (h : config.primaryAddress shardID = some address) :
    (config.lockShard k).primaryAddress shardID = some address := by
  obtain ⟨shard, node, hshard, hnode, haddress⟩ := ClusterConfig.primaryAddress_eq_some.mp h
  apply ClusterConfig.primaryAddress_eq_some.mpr
  by_cases hk : shardID = k
  · subst hk
    refine ⟨{ shard with status := .locked }, node, ?_, hnode, haddress⟩
    unfold ClusterConfig.lockShard
    rw [lookup_modifyShard_self, hshard]
    rfl
  · refine ⟨shard, node, ?_, hnode, haddress⟩
    unfold ClusterConfig.lockShard
    rw [lookup_modifyShard_of_ne _ _ _ hk]
    exact hshard

theorem primaryAddress_cutOver {targetNodeID : String} (hk : shardID ≠ k) :
    (config.cutOver k targetNodeID).primaryAddress shardID = config.primaryAddress shardID := by
  unfold ClusterConfig.primaryAddress ClusterConfig.cutOver
  rw [lookup_modifyShard_of_ne _ _ _ hk]
  rfl

theorem primaryAddress_applyRegisterNode {nodeID address' : String} {now : Nat} {address : String}
    (h : config.primaryAddress shardID = some address) :
    (config.applyRegisterNode nodeID address' now).primaryAddress shardID = some address := by
  obtain ⟨shard, node, hshard, hnode, haddress⟩ := ClusterConfig.primaryAddress_eq_some.mp h
  apply ClusterConfig.primaryAddress_eq_some.mpr
  refine ⟨shard, node, ?_, lookup_applyRegisterNode hnode, haddress⟩
  rw [applyRegisterNode_shards]
  exact hshard

/-- A stage in which the second copy is not taken. -/
theorem moving_before (hapart : m.targetAddress ≠ m.sourceAddress)
    (hsource : m.shardID = shardID → w.controller.config.primaryAddress shardID = some
      m.sourceAddress) (hstage : (Task.move m stage).hasCopied m.shardID = false) :
    Moving numShards shardID w m stage := by
  refine ⟨hapart, hsource, ?_, ?_⟩
  · rintro - data rfl
    simp [Task.hasCopied] at hstage
  · rintro - rfl
    simp [Task.hasCopied] at hstage

/-- A move begins at the primary. -/
theorem moving_begun {targetNodeID : String}
    (hbegin : w.controller.config.beginMove k targetNodeID = .ok m)
    (hapart : m.targetAddress ≠ m.sourceAddress) :
    Moving numShards shardID w m (.copying none) := by
  obtain ⟨shard, sourceNode, targetNode, hshard, hsource, -, rfl⟩ := beginMove_ok hbegin
  refine moving_before hapart ?_ rfl
  rintro rfl
  exact ClusterConfig.primaryAddress_eq_some.mpr ⟨shard, sourceNode, hshard, hsource, rfl⟩

/-- The only task is a move. -/
theorem Kept.move_of_getElem? (h : Kept numShards shardID w)
    (hi : w.controller.tasks[i]? = some task) :
    ∃ m stage, task = .move m stage ∧ w.controller.tasks = [.move m stage] ∧
      Moving numShards shardID w m stage := by
  rcases h.moving with hnone | ⟨m, stage, htasks, hmoving⟩
  · rw [hnone] at hi
    cases hi
  · exact ⟨m, stage, (resume_single htasks hi none).1, htasks, hmoving⟩

theorem Kept.controllerStep (h : Kept numShards shardID w) {a : ControllerAction}
    (hcalm : CalmController shardID w a) (hc : w.controller.step a = some w'.controller)
    (hdata : w'.data = w.data) (hsound : w'.Sound numShards) : Kept numShards shardID w' := by
  have hhistory : w'.data.history = w.data.history := by rw [hdata]
  have hcell : ∀ address key, shardIDOf key numShards = shardID →
      w'.data.cell address key = w.data.cell address key := by
    intro address key _
    rw [hdata]
  generalize hc' : w'.controller = c at hc
  cases Controller.step_cases hc with
  | failure | nothingToDo | read | write | broadcast | exported | imported => exact hcalm.elim
  | moveRefused =>
    refine h.control hsound (fun _ ha ↦ ?_) hhistory hcell ?_
    · rw [hc']
      exact ha
    · rw [hc']
      exact h.moving
  | @moveBegun k targetNodeID m hbegin =>
    obtain ⟨hnone, hapart⟩ := hcalm
    refine h.control hsound (fun _ ha ↦ ?_) hhistory hcell (Or.inr ⟨m, _, ?_,
      moving_begun hbegin (hapart m (by rw [hbegin]; rfl))⟩)
    · rw [hc']
      exact ha
    · rw [hc']
      change w.controller.tasks ++ [_] = _
      rw [hnone]
      rfl
  | @lock i m htask =>
    obtain ⟨m', stage, heq, htasks, hmoving⟩ := h.move_of_getElem? htask
    cases heq
    refine h.control hsound ?_ hhistory hcell (Or.inr ⟨m, .catchingUp none, ?_,
      moving_before hmoving.apart hmoving.source rfl⟩)
    · intro address haddress
      rw [hc', Controller.resume_config]
      exact primaryAddress_lockShard haddress
    · rw [hc']
      exact (resume_single (c := w.controller.publish (w.controller.config.lockShard m.shardID))
        htasks htask _).2
  | @cutOver i m htask =>
    obtain ⟨m', stage, heq, htasks, hmoving⟩ := h.move_of_getElem? htask
    cases heq
    have hother : shardID ≠ m.shardID := by
      rintro rfl
      exact absurd (hcalm _ htask) (by simp [Task.hasCopied])
    refine h.control hsound ?_ hhistory hcell (Or.inl ?_)
    · intro address haddress
      rw [hc', Controller.resume_config, Controller.publish_config, primaryAddress_cutOver hother]
      exact haddress
    · rw [hc']
      exact (resume_single
        (c := w.controller.publish (w.controller.config.cutOver m.shardID m.targetNodeID))
        htasks htask _).2
  | @pullFailed i task htask =>
    obtain ⟨m, stage, rfl, htasks, hmoving⟩ := h.move_of_getElem? htask
    refine h.control hsound ?_ hhistory hcell (Or.inl ?_)
    · intro address haddress
      rw [hc', Controller.resume_config]
      exact haddress
    · rw [hc']
      exact (resume_single htasks htask _).2

/-- The source of a pull answers. -/
theorem Kept.pullExport (h : Kept numShards shardID w) (htask : w.controller.tasks[i]? = some task)
    (hpull : task.pull = some p)
    (hexport : (w.data.nodes p.sourceAddress).handleExport p.shardID = .ok data)
    (hsound : ({ w with controller := w.controller.resume i (some (task.withData data)) } :
      World).Sound numShards) :
    Kept numShards shardID
      { w with controller := w.controller.resume i (some (task.withData data)) } := by
  obtain ⟨m, stage, rfl, htasks, hmoving⟩ := h.move_of_getElem? htask
  have hnext := (resume_single htasks htask (some ((Task.move m stage).withData data))).2
  have hprimary : ∀ address, w.controller.config.primaryAddress shardID = some address →
      (w.controller.resume i (some ((Task.move m stage).withData data))).config.primaryAddress
        shardID = some address := by
    intro address haddress
    rw [Controller.resume_config]
    exact haddress
  cases stage with
  | copied | caughtUp => cases hpull
  | copying old =>
    exact h.control hsound hprimary rfl (fun _ _ _ ↦ rfl)
      (Or.inr ⟨m, .copying (some data), hnext, moving_before hmoving.apart hmoving.source rfl⟩)
  | catchingUp old =>
    cases hpull
    refine h.control hsound hprimary rfl (fun _ _ _ ↦ rfl)
      (Or.inr ⟨m, .catchingUp (some data), hnext, hmoving.apart, hmoving.source, ?_, ?_⟩)
    · -- the second copy: the source holds what was acknowledged last
      rintro hm data' hstage key hkey value hvalue
      cases hstage
      obtain ⟨address, haddress, hheld⟩ := h.acknowledged key hkey value hvalue
      rw [hmoving.source hm] at haddress
      cases haddress
      change data.lookup key = some value
      rw [h.sound.uniform.lookup_export hexport, if_pos (hkey.trans hm.symm)]
      exact hheld
    · rintro - hstage
      cases hstage

/-- A migration that has data to import. -/
theorem pull_move (hpull : (Task.move m stage).pull = some p) (hdata : p.data = some data) :
    p = ⟨m.shardID, m.sourceAddress, m.targetAddress, some data⟩ ∧
      (stage = .copying (some data) ∨ stage = .catchingUp (some data)) := by
  cases stage with
  | copied | caughtUp => cases hpull
  | copying old =>
    cases hpull
    cases hdata
    exact ⟨rfl, Or.inl rfl⟩
  | catchingUp old =>
    cases hpull
    cases hdata
    exact ⟨rfl, Or.inr rfl⟩

/-- The target of a pull imports the data. -/
theorem Kept.pullImport (h : Kept numShards shardID w) {answered : Bool}
    (htask : w.controller.tasks[i]? = some task) (hpull : task.pull = some p)
    (hdata : p.data = some data)
    (hw' : w' = {
      w.setNode p.targetAddress ((w.data.nodes p.targetAddress).handleImport data).2 with
      controller := w.controller.resume i (if answered then task.pulled else task.pullFailed)
      unsynced := w.unsynced \ task.fills }) (hsound : w'.Sound numShards) :
    Kept numShards shardID w' := by
  have hinShard := h.sound.pulls.task _ (List.mem_of_getElem? htask) p hpull
  obtain ⟨m, stage, rfl, htasks, hmoving⟩ := h.move_of_getElem? htask
  have hnext := (resume_single htasks htask
    (if answered then (Task.move m stage).pulled else (Task.move m stage).pullFailed)).2
  obtain ⟨rfl, hstage⟩ := pull_move hpull hdata
  subst hw'
  have hprimary : ∀ {address}, w.controller.config.primaryAddress shardID = some address →
      (w.controller.resume i (if answered then (Task.move m stage).pulled
        else (Task.move m stage).pullFailed)).config.primaryAddress shardID = some address := by
    intro address haddress
    rw [Controller.resume_config]
    exact haddress
  refine ⟨hsound, ?_, ?_⟩
  · intro key hkey value hvalue
    obtain ⟨address, haddress, hheld⟩ := h.acknowledged key hkey value hvalue
    refine ⟨address, hprimary haddress, ?_⟩
    by_cases hm : shardIDOf key numShards = m.shardID
    · -- the primary is the source, not the target
      have hsource := hmoving.source (hm.symm.trans hkey)
      rw [haddress] at hsource
      cases hsource
      exact (w.cell_import _ _ _ _).trans ((if_neg (Ne.symm hmoving.apart)).trans hheld)
    · exact (World.cell_import_other hinShard rfl hm address).trans hheld
  · cases answered with
    | false => exact Or.inl hnext
    | true =>
      right
      rcases hstage with rfl | rfl
      · exact ⟨m, .copied, hnext,
          moving_before hmoving.apart (fun hm ↦ hprimary (hmoving.source hm)) rfl⟩
      · refine ⟨m, .caughtUp, hnext, hmoving.apart, fun hm ↦ hprimary (hmoving.source hm), ?_, ?_⟩
        · rintro - data' hstage
          cases hstage
        · rintro hm - key hkey value hvalue
          have hcopy : data.lookup key = some value :=
            hmoving.secondCopy hm data rfl key hkey value hvalue
          refine (w.cell_import m.targetAddress data m.targetAddress key).trans ?_
          rw [if_pos rfl, hcopy, Option.some_or]

/-- Once the second copy is taken no write of the shard has an effect. -/
theorem frozen {data : DataPlane} (h : Kept numShards shardID w)
    (hcalm : CalmWrite numShards shardID w a) (hcopied : Copied shardID w)
    (hstep : w.data.step a = some data) {key : String} (hkey : shardIDOf key numShards = shardID) :
    last { w with data := data } key = last w key ∧
      ∀ address, data.cell address key = w.data.cell address key := by
  obtain ⟨events, hevents, hks⟩ := DataPlane.key_step h.sound.numbered hstep key
  unfold last
  rw [hevents]
  cases hks with
  | quiet hcell =>
    rw [List.append_nil]
    exact ⟨rfl, hcell⟩
  | begins hid hw hcell => exact ⟨Register.lastAcknowledged_begun _ _, hcell⟩
  | replicates hid hw | finishes hid hw =>
    exact absurd hcopied (hcalm _ hid (by rw [hw]; exact hkey)).1
  | arrives hk hw => exact absurd hcopied (hcalm _ hk (by rw [hw]; exact hkey)).1

/-- After a write the primary holds the put that was acknowledged last. -/
theorem Kept.primaryCurrent_write (h : Kept numShards shardID w) {data : DataPlane}
    (hcalm : CalmWrite numShards shardID w a) (hstep : w.data.step a = some data) :
    PrimaryCurrent numShards shardID { w with data := data } := by
  intro key hkey value hvalue
  -- a step that leaves the cell of the primary
  have hkeeps : last w key = some (some value) →
      (∀ address, w.controller.config.primaryAddress shardID = some address →
        data.cell address key = w.data.cell address key) →
      ∃ address, w.controller.config.primaryAddress shardID = some address ∧
        data.cell address key = some value := by
    intro hlast hcell
    obtain ⟨address, haddress, hheld⟩ := h.acknowledged key hkey value hlast
    exact ⟨address, haddress, (hcell address haddress).trans hheld⟩
  obtain ⟨events, hevents, hks⟩ := DataPlane.key_step h.sound.numbered hstep key
  unfold last at hvalue hkeeps
  rw [hevents] at hvalue
  cases hks with
  | quiet hcell =>
    rw [List.append_nil] at hvalue
    exact hkeeps hvalue fun address _ ↦ hcell address
  | begins hid hw hcell =>
    rw [Register.lastAcknowledged_begun] at hvalue
    exact hkeeps hvalue fun address _ ↦ hcell address
  | replicates hid hw hurl hcell =>
    rw [List.append_nil] at hvalue
    refine hkeeps hvalue fun address haddress ↦ hcell address ?_
    rintro rfl
    exact (hcalm _ hid (by rw [hw]; exact hkey)).2 _ hurl haddress
  | arrives hk hw hcell =>
    rw [List.append_nil] at hvalue
    refine hkeeps hvalue fun address haddress ↦ hcell address ?_
    rintro rfl
    exact (hcalm _ hk (by rw [hw]; exact hkey)).2 haddress
  | @finishes id write done hid hw hcell =>
    rw [Register.lastAcknowledged_acknowledged] at hvalue
    refine ⟨write.address, (hcalm _ hid (by rw [hw]; exact hkey)).2, ?_⟩
    exact (hcell write.address).trans ((if_pos rfl).trans (Option.some.inj hvalue))

theorem Kept.write (h : Kept numShards shardID w) {data : DataPlane}
    (hcalm : CalmWrite numShards shardID w a) (hstep : w.data.step a = some data)
    (hsound : ({ w with data := data } : World).Sound numShards) :
    Kept numShards shardID { w with data := data } := by
  refine ⟨hsound, h.primaryCurrent_write hcalm hstep, ?_⟩
  rcases h.moving with hnone | ⟨m, stage, htasks, hmoving⟩
  · exact Or.inl hnone
  have hcopied (hm : m.shardID = shardID)
      (hstage : (Task.move m stage).hasCopied m.shardID = true) : Copied shardID w :=
    ⟨_, by rw [htasks]; exact List.mem_singleton_self _, hm ▸ hstage⟩
  refine Or.inr ⟨m, stage, htasks, hmoving.apart, hmoving.source, ?_, ?_⟩
  · rintro hm data' rfl key hkey value hvalue
    rw [(frozen h hcalm (hcopied hm (by simp [Task.hasCopied])) hstep hkey).1] at hvalue
    exact hmoving.secondCopy hm data' rfl key hkey value hvalue
  · rintro hm rfl key hkey value hvalue
    obtain ⟨hlast, hcell⟩ :=
      frozen h hcalm (hcopied hm (by simp [Task.hasCopied])) hstep hkey
    rw [hlast] at hvalue
    exact (hcell _).trans (hmoving.target hm rfl key hkey value hvalue)

theorem Kept.step (h : Kept numShards shardID w) {a : WorldAction}
    (hcalm : Calm numShards shardID w a) (hstep : w.step a = some w') :
    Kept numShards shardID w' := by
  have hsound := h.sound.step hstep
  cases World.step_cases hstep with
  | controller hpull hc => exact h.controllerStep hcalm hc rfl hsound
  | registerRefused => exact h
  | registerNode | strayExport =>
    exact h.control hsound (fun _ ha ↦ ha) rfl (fun _ _ _ ↦ rfl) h.moving
  | @appendMessage k now command hk =>
    have hnone := hcalm command hk
    cases command with
    | registerNode nodeID address =>
      exact h.control hsound (fun _ ha ↦ primaryAddress_applyRegisterNode ha) rfl
        (fun _ _ _ ↦ rfl) h.moving
    | updateTopology config => cases hnone
    | noOp => exact h.control hsound (fun _ ha ↦ ha) rfl (fun _ _ _ ↦ rfl) h.moving
  | pullExport htask hpull hdata hexport => exact h.pullExport htask hpull hexport hsound
  | pullImport htask hpull hdata => exact h.pullImport htask hpull hdata rfl hsound
  | strayImport hk hdata =>
    refine h.control hsound (fun _ ha ↦ ha) rfl (fun address key hkey ↦ ?_) h.moving
    exact World.cell_import_other (h.sound.pulls.stray _ (List.mem_of_getElem? hk)) hdata
      (fun hshard ↦ hcalm _ hk (hshard.symm.trans hkey)) address
  | renew hnode =>
    exact h.control hsound (fun _ ha ↦ ha) rfl
      (fun address key _ ↦ World.cell_renew hnode address key) h.moving
  | data hdata => exact h.write hcalm hdata hsound

end Migration

open Migration

/-- When the primary held the puts acknowledged before, no write of the shard is stored between the
second copy and the cut-over and no given-up pull of the shard comes late, the target holds the last
put of every key that was answered with 200. -/
theorem migration_keeps_writes {numShards duration : Nat} {nodeID : String → String}
    {w₀ w w' : World} {m : Migration} {i : Nat}
    (hreach : Reachable World.step (.start numShards duration nodeID) w₀)
    (htasks : w₀.controller.tasks = []) (hcurrent : PrimaryCurrent numShards m.shardID w₀)
    (hrun : Reaches World.step (Calm numShards m.shardID) w₀ w)
    (hmove : w.controller.tasks[i]? = some (.move m .caughtUp))
    (hcut : w.step (.controller (.cutOver i)) = some w') (key value : String)
    (hkey : shardIDOf key numShards = m.shardID) (hlast : last w' key = some (some value)) :
    w'.data.cell m.targetAddress key = some value := by
  have hstart : Kept numShards m.shardID w₀ :=
    ⟨World.sound_reachable hreach, hcurrent, Or.inl htasks⟩
  have hkept : Kept numShards m.shardID w :=
    Reaches.invariant _ hstart (fun _ _ _ _ h hcalm hstep ↦ h.step hcalm hstep) hrun
  have hdata : w'.data = w.data := by
    cases World.step_cases hcut
    rfl
  obtain ⟨m', stage, heq, -, hmoving⟩ := hkept.move_of_getElem? hmove
  cases heq
  unfold last at hlast
  rw [hdata] at hlast ⊢
  exact hmoving.target rfl rfl key hkey value hlast

/-- The move of shard 0 to `b`, up to the answer of the source to the second pull. -/
def sampleMove : List WorldAction :=
  [.controller (.moveShard 0 "b"), .pullExport 0, .pullImport 0 true, .controller (.lockShard 0),
    .pullExport 0]

/-- The put of `v` is acknowledged before the move, that of `u` before the second copy is taken. -/
theorem migration_keeps_writes_early :
    ∃ w₀ w w' : World, Reachable World.step (.start 10 40 id) w₀ ∧
      last w₀ "k" = some (some "v") ∧ Reaches World.step (Calm 10 0) w₀ w ∧
      w.step (.controller (.cutOver 0)) = some w' ∧ last w' "k" = some (some "u") ∧
      w'.data.cell "b" "k" = some "u" := by
  obtain ⟨w₀, hreach, htasks, hhistory, hprimary, hrest⟩ :
      ∃ w₀, Reachable World.step (.start 10 40 id) w₀ ∧ w₀.controller.tasks = [] ∧
        w₀.data.history = [.begun 0 ⟨"a", .put ⟨"k", "v", 3⟩⟩,
          .ended 0 ⟨"a", .put ⟨"k", "v", 3⟩⟩ DataNode.written] ∧
        (w₀.controller.config.primaryAddress 0 = some "a" ∧ w₀.data.cell "a" "k" = some "v") ∧
        (exec World.step (Calm 10 0) w₀
          (World.samplePut "a" 1 "u" 3 ++ sampleMove ++ [.pullImport 0 true])).any (fun w ↦
            w.controller.tasks[0]? = some (.move ⟨0, "a", "a", "b", "b"⟩ .caughtUp) ∧
            (w.step (.controller (.cutOver 0))).any (fun w' ↦
              last w' "k" = some (some "u")) = true) = true :=
    exists_reaches_of_exec
      (World.sampleNodes ++ World.sampleRenewal "a" ++ World.samplePut "a" 0 "v" 3)
      (by decide +kernel)
  have hcurrent : PrimaryCurrent 10 0 w₀ := by
    intro key _ value hvalue
    unfold last DataPlane.registerHistory at hvalue
    rw [hhistory] at hvalue
    by_cases hkey : key = "k"
    · subst hkey
      cases hvalue
      exact ⟨"a", hprimary⟩
    · have hother : ∀ e : WriteEvent, e.write.key = "k" → e.about key = none :=
        fun e he ↦ WriteEvent.about_of_ne (by rw [he]; exact Ne.symm hkey)
      rw [List.filterMap_cons_none (hother _ rfl),
        List.filterMap_cons_none (hother _ rfl)] at hvalue
      cases hvalue
  obtain ⟨w, hrun, hmove, hcut⟩ := exists_reaches_of_exec _ hrest
  obtain ⟨w', hcut, hlast⟩ := (Option.any_eq_true _ _).mp hcut
  have hlast := of_decide_eq_true hlast
  refine ⟨w₀, w, w', hreach, ?_, hrun, hcut, hlast, migration_keeps_writes
    (m := ⟨0, "a", "a", "b", "b"⟩) hreach htasks hcurrent hrun hmove hcut "k" "u"
      (by decide +kernel) hlast⟩
  unfold last DataPlane.registerHistory
  rw [hhistory]
  rfl

/-- A put that the source answers with 200 after it has answered the second pull is lost. -/
theorem migration_loses_write :
    ∃ w₀ w w' : World, Reachable World.step (.start 10 40 id) w₀ ∧ w₀.controller.tasks = [] ∧
      w₀.data.history = [] ∧ Reachable World.step w₀ w ∧
      w.controller.tasks[0]? = some (.move ⟨0, "a", "a", "b", "b"⟩ .caughtUp) ∧
      w.step (.controller (.cutOver 0)) = some w' ∧ last w' "k" = some (some "u") ∧
      w'.data.cell "b" "k" = some "v" := by
  obtain ⟨w₀, hreach, htasks, hhistory, hrest⟩ :
      ∃ w₀, Reachable World.step (.start 10 40 id) w₀ ∧ w₀.controller.tasks = [] ∧
        w₀.data.history = [] ∧
        (exec World.step (fun _ _ ↦ True) w₀
          (World.samplePut "a" 0 "v" 3 ++ sampleMove ++ World.samplePut "a" 1 "u" 3 ++
            [.pullImport 0 true])).any (fun w ↦
              w.controller.tasks[0]? = some (.move ⟨0, "a", "a", "b", "b"⟩ .caughtUp) ∧
              (w.step (.controller (.cutOver 0))).any (fun w' ↦
                last w' "k" = some (some "u") ∧ w'.data.cell "b" "k" = some "v") = true) = true :=
    exists_reaches_of_exec (World.sampleNodes ++ World.sampleRenewal "a") (by decide +kernel)
  obtain ⟨w, hrun, hmove, hcut⟩ := exists_reaches_of_exec _ hrest
  obtain ⟨w', hcut, hlost⟩ := (Option.any_eq_true _ _).mp hcut
  exact ⟨w₀, w, w', hreach, htasks, hhistory, hrun, hmove, hcut, of_decide_eq_true hlost⟩

end DistributedCache
