import DistributedCache.Cluster.Orderly

/-!
# Copies that are up to date

In a run in the order of `Orderly` every holder of a shard is up to date: what it holds for the key
is the write that was acknowledged last, or one that was begun since.  The invariant also follows
the copies that pulls have under way, and the write that is being replicated.
-/

namespace DistributedCache

open FiniteMap Transition

/-! ## What the holders have -/

/-- The values that a copy which is up to date may hold. -/
def World.possible (w : World) (key : String) : Set (Option String) :=
  Register.possible (w.data.registerHistory key)

/-- The shard has no primary. -/
def World.Unplaced (w : World) (shardID : Nat) : Prop :=
  ∀ shard, w.controller.config.shards.lookup shardID = some shard → shard.primaryID = ""

/-- What is known without looking at the values. -/
structure Regular (numShards shardID : Nat) (key : String) (w : World) : Prop where
  sound : w.Sound numShards
  placement : Placement shardID w
  alone : w.data.Alone key

/-- A write on its way is known to go to every holder that it has not reached. -/
structure Spread (shardID : Nat) (key : String) (w : World) (write : Write)
    (done rest : List String) : Prop where
  effect : write.effect ∈ w.possible key
  holder : ∀ address, w.Holds shardID address →
    address = write.address ∨ address ∈ done ∨ address ∈ rest
  done : ∀ url ∈ done, w.data.cell url key = write.effect

/-- A copy that a task has taken is up to date until the task ends. -/
structure Carried (shardID : Nat) (key : String) (w : World) (task : Task) : Prop where
  copy : ∀ p data, task.pull = some p → p.data = some data → p.shardID = shardID →
    data.lookup key ∈ w.possible key ∧ w.data.Idle key
  target : ∀ m, task.caughtUp = some m → m.shardID = shardID →
    w.data.cell m.targetAddress key ∈ w.possible key ∧ w.data.Idle key

structure Fresh (numShards shardID : Nat) (key : String) (w : World) : Prop where
  regular : Regular numShards shardID key w
  unplaced : w.Unplaced shardID → w.possible key = Set.univ ∧ w.data.Idle key
  holder : ∀ address, w.Holds shardID address → w.data.cell address key ∈ w.possible key
  handler : ∀ id write done rest,
    w.data.handlers.lookup id = some ⟨write, .replicating done rest⟩ → write.key = key →
    Spread shardID key w write done rest
  task : ∀ task ∈ w.controller.tasks, Carried shardID key w task

section

variable {numShards shardID : Nat} {key : String} {w w' : World}

variable {duration id : Nat} {task : Task} {address : String} {p : Pull} {data : ConcurrentMapCache}
  {write : Write} {done rest : List String}

theorem regular_start {nodeID : String → String} :
    Regular numShards shardID key (.start numShards duration nodeID) :=
  ⟨World.sound_start, Placement.start, DataPlane.alone_start _⟩

theorem Regular.step (h : Regular numShards shardID key w) {a : WorldAction}
    (hok : Orderly shardID key w a) (hstep : w.step a = some w') :
    Regular numShards shardID key w' := by
  refine ⟨h.sound.step hstep, h.placement.step hok.appliesCurrent hstep, ?_⟩
  rcases World.data_step hstep with ⟨b, rfl, hdata⟩ | ⟨nodes, hnodes⟩
  · apply h.alone.step hdata
    rintro id handler rfl hid hkey
    exact (hok handler hid hkey).1
  · rw [hnodes]
    exact h.alone

theorem Task.HasNoCopy.carried (h : task.HasNoCopy) : Carried shardID key w task := by
  have hpull : ∀ {p : Pull} {data : ConcurrentMapCache}, task.pull = some p →
      p.data ≠ some data := by
    intro p data hp hdata
    rw [h.pull p hp] at hdata
    cases hdata
  refine ⟨fun p data hp hdata ↦ absurd hdata (hpull hp), fun m hm ↦ ?_⟩
  rw [h.caughtUp] at hm
  cases hm

theorem fresh_start {nodeID : String → String} :
    Fresh numShards shardID key (.start numShards duration nodeID) := by
  have hnone : ∀ (id : Nat) (h : Handler),
      (World.start numShards duration nodeID).data.handlers.lookup id ≠ some h := by
    intro id h hid
    rw [World.start, DataPlane.start, Finmap.lookup_empty] at hid
    cases hid
  refine ⟨regular_start, fun _ ↦ ⟨rfl, fun id h hid ↦ absurd hid (hnone id h)⟩,
    fun _ _ ↦ Set.mem_univ _, fun id _ _ _ hid ↦ absurd hid (hnone id _), ?_⟩
  intro task htask
  cases htask

/-! ## Steps that leave the writes alone -/

/-- A step that changes cells only while no write of the key is on its way, and only to what a copy
may hold; new holders are up to date. -/
theorem Fresh.control (h : Fresh numShards shardID key w)
    (hregular : Regular numShards shardID key w')
    (hhandlers : w'.data.handlers = w.data.handlers) (hhistory : w'.data.history = w.data.history)
    (hcell : ∀ address, w'.data.cell address key = w.data.cell address key ∨
      (w'.data.cell address key ∈ w.possible key ∧ w.data.Idle key))
    (hplaced : w'.Unplaced shardID → w.Unplaced shardID)
    (hholds : ∀ address, w'.Holds shardID address → w.Holds shardID address ∨
      (w'.data.cell address key ∈ w.possible key ∧ w.data.Idle key))
    (htask : ∀ task ∈ w'.controller.tasks,
      task ∈ w.controller.tasks ∨ Carried shardID key w' task) :
    Fresh numShards shardID key w' := by
  have hpossible : w'.possible key = w.possible key := by
    unfold World.possible DataPlane.registerHistory
    rw [hhistory]
  have hidle : w'.data.Idle key ↔ w.data.Idle key := by
    unfold DataPlane.Idle
    rw [hhandlers]
  have hbusy : ∀ {id : Nat} {write : Write} {done rest : List String},
      w.data.handlers.lookup id = some ⟨write, .replicating done rest⟩ → write.key = key →
      ¬ w.data.Idle key := by
    intro id write done rest hid hkey hall
    cases hall id _ hid hkey
  refine ⟨hregular, ?_, ?_, ?_, ?_⟩
  · intro hunplaced
    rw [hpossible, hidle]
    exact h.unplaced (hplaced hunplaced)
  · intro address haddress
    rw [hpossible]
    rcases hholds address haddress with hold | ⟨hnew, -⟩
    · rcases hcell address with hsame | ⟨hnew, -⟩
      · rw [hsame]
        exact h.holder address hold
      · exact hnew
    · exact hnew
  · intro id write done rest hid hkey
    rw [hhandlers] at hid
    obtain ⟨heffect, hholder, hdone⟩ := h.handler id write done rest hid hkey
    refine ⟨by rwa [hpossible], ?_, ?_⟩
    · intro address haddress
      rcases hholds address haddress with hold | ⟨-, hall⟩
      · exact hholder address hold
      · exact absurd hall (hbusy hid hkey)
    · intro url hurl
      rcases hcell url with hsame | ⟨-, hall⟩
      · rw [hsame]
        exact hdone url hurl
      · exact absurd hall (hbusy hid hkey)
  · intro task hmem
    rcases htask task hmem with hold | hnew
    · obtain ⟨hcopy, htarget⟩ := h.task task hold
      refine ⟨?_, ?_⟩
      · rw [hpossible, hidle]
        exact hcopy
      · intro m hm hshard
        obtain ⟨hvalue, hall⟩ := htarget m hm hshard
        rw [hpossible, hidle]
        rcases hcell m.targetAddress with hsame | hnew
        · rw [hsame]
          exact ⟨hvalue, hall⟩
        · exact hnew
    · exact hnew

/-! ## Steps of the controller -/

/-- A node that holds the shard after a step of the controller did so before, or is up to date. -/
theorem Fresh.holds_controllerStep (h : Fresh numShards shardID key w) {a : ControllerAction}
    (hok : Orderly shardID key w (.controller a)) (hc : w.controller.step a = some w'.controller)
    (hunsynced : w'.unsynced = w.unsynced ∪ w.controller.newReplicas a)
    (hnamed : "" ∉ w'.controller.config.nodes) (hholds : w'.Holds shardID address) :
    w.Holds shardID address ∨ (w.data.cell address key ∈ w.possible key ∧ w.data.Idle key) := by
  obtain ⟨shard', id, node', hshard', hholder, hnode', rfl⟩ := hholds
  have hplace := h.regular.placement
  have hext := Controller.extends_step hc
  have hback : ∀ {shard : ShardMetadata},
      w.controller.config.shards.lookup shardID = some shard →
      shard.IsHolder w.unsynced shardID id → w.Holds shardID node'.address :=
    fun hshard hold ↦ World.holds_of_isHolder hext hplace hnamed hshard hold hnode'
  have hsynced : (shardID, id) ∉ w'.unsynced → (shardID, id) ∉ w.unsynced := by
    intro hnot hmem
    rw [hunsynced] at hnot
    exact hnot (Finset.mem_union_left _ hmem)
  have hname : id ≠ "" := by
    rintro rfl
    exact hnamed (Finmap.mem_of_lookup_eq_some hnode')
  cases Controller.shard_step hc hshard' with
  | same hshard hprimary hreplicas =>
    left
    apply hback hshard
    rcases hholder with rfl | ⟨hreplica, hnot⟩
    · exact Or.inl hprimary
    · rw [hreplicas] at hreplica
      exact Or.inr ⟨hreplica, hsynced hnot⟩
  | @failed nodeID shard hshard =>
    left
    apply hback hshard
    rcases hholder with rfl | ⟨hreplica, hnot⟩
    · rw [ShardMetadata.primaryID_rebalance]
      split
      · rename_i hdead
        -- the replica that is promoted has pulled
        obtain ⟨r, hr, hnot⟩ := hok shard hshard hdead
        rw [hr]
        exact Or.inr ⟨List.mem_of_mem_head? hr, hnot⟩
      · exact Or.inl rfl
    · exact Or.inr ⟨ShardMetadata.replicaIDs_rebalance_subset _ _ hreplica, hsynced hnot⟩
  | @written i nodeIndex order config activeNodes shard htask horder hshard hlookup' =>
    rcases hholder with rfl | ⟨hreplica, hnot⟩
    · by_cases hempty : shard.primaryID = ""
      · right
        -- the shard had no primary, so that nothing was ever acknowledged
        have hunplaced : w.Unplaced shardID := by
          intro old hold
          rw [hshard] at hold
          cases hold
          exact hempty
        obtain ⟨hall, hidle⟩ := h.unplaced hunplaced
        rw [hall]
        exact ⟨Set.mem_univ _, hidle⟩
      · left
        apply hback hshard
        rw [rebalanced_primaryID hempty]
        exact Or.inl rfl
    · left
      apply hback hshard
      refine Or.inr ⟨?_, hsynced hnot⟩
      by_contra hnew
      have hadded := mem_syncTasks_rebalanceShards horder hshard hlookup' hreplica hnew
      apply hnot
      rw [hunsynced]
      apply Finset.mem_union_right
      simp only [Controller.newReplicas, htask]
      exact List.mem_toFinset.mpr (List.mem_map_of_mem hadded)
  | created hnone hprimary hreplicas =>
    rcases hholder with rfl | ⟨hreplica, -⟩
    · exact absurd hprimary hname
    · rw [hreplicas] at hreplica
      cases hreplica
  | moved htask hm hprimary hreplicas =>
    rcases hholder with rfl | ⟨hreplica, hnot⟩
    · right
      -- the target is where the move has left its second copy
      have hmem := List.mem_of_getElem? htask
      obtain ⟨node, hnode, haddress⟩ := (hplace.task _ hmem).mono hext
      rw [hprimary, hnode] at hnode'
      cases hnode'
      rw [haddress]
      exact (h.task _ hmem).target _ rfl hm
    · left
      obtain ⟨shard, hshard, hmem⟩ := hreplicas id hreplica
      exact hback hshard (Or.inr ⟨hmem, hsynced hnot⟩)

/-- A step of the controller leaves no shard without a primary. -/
theorem Fresh.unplaced_controllerStep (h : Fresh numShards shardID key w) {a : ControllerAction}
    (hok : Orderly shardID key w (.controller a))
    (hc : w.controller.step a = some w'.controller) (hunplaced : w'.Unplaced shardID) :
    w.Unplaced shardID := by
  have hplace := h.regular.placement
  intro shard hshard
  obtain ⟨shard', hshard'⟩ := Controller.exists_shard_step hc hshard
  have hempty := hunplaced shard' hshard'
  cases Controller.shard_step hc hshard' with
  | same hold hprimary =>
    rw [hshard] at hold
    cases hold
    exact hprimary.symm.trans hempty
  | failed nodeID hold =>
    rw [hshard] at hold
    cases hold
    rw [ShardMetadata.primaryID_rebalance] at hempty
    split at hempty
    · rename_i hdead
      obtain ⟨r, hr, -⟩ := hok shard hshard hdead
      rw [hr] at hempty
      have hregistered := hplace.replica shard hshard r (List.mem_of_mem_head? hr)
      rw [show r = "" from hempty] at hregistered
      exact absurd hregistered hplace.named
    · exact hempty
  | written htask horder hold =>
    rw [hshard] at hold
    cases hold
    by_contra hne
    rw [rebalanced_primaryID hne] at hempty
    exact hne hempty
  | created hnone =>
    rw [hshard] at hnone
    cases hnone
  | moved htask hm hprimary =>
    obtain ⟨node, hnode, -⟩ := hplace.task _ (List.mem_of_getElem? htask)
    rw [← hprimary, hempty] at hnode
    exact absurd (Finmap.mem_of_lookup_eq_some hnode) hplace.named

theorem Fresh.register (h : Fresh numShards shardID key w) {nodeID : String} {now : Nat}
    (hregular : Regular numShards shardID key w')
    (hcontroller : w'.controller = w.controller.publish (w.controller.config.applyRegisterNode
      nodeID address now)) (hdata : w'.data = w.data) (hunsynced : w'.unsynced = w.unsynced) :
    Fresh numShards shardID key w' := by
  have hshards : w'.controller.config.shards = w.controller.config.shards := by
    rw [hcontroller]
    exact applyRegisterNode_shards _ _ _ _
  have hext : w.controller.config.Extends w'.controller.config := by
    rw [hcontroller]
    exact ClusterConfig.extends_applyRegisterNode _ _ _ _
  apply h.control hregular
  · rw [hdata]
  · rw [hdata]
  · exact fun _ ↦ Or.inl (by rw [hdata])
  · intro hunplaced shard hshard
    rw [← hshards] at hshard
    exact hunplaced shard hshard
  · rintro _ ⟨shard, id, node', hshard, hholder, hnode', rfl⟩
    left
    rw [hshards] at hshard
    rw [hunsynced] at hholder
    exact World.holds_of_isHolder hext h.regular.placement hregular.placement.named hshard hholder
      hnode'
  · intro task htask
    rw [hcontroller] at htask
    exact Or.inl htask

/-! ## Pulls -/

/-- The copy that a source gives away is up to date. -/
theorem Fresh.carried_export (h : Fresh numShards shardID key w)
    (hkey : shardIDOf key numShards = shardID) (hpull : task.pull = some p)
    (hok : Orderly.ExportsInOrder shardID key w task)
    (hexport : (w.data.nodes p.sourceAddress).handleExport p.shardID = .ok data) :
    Carried shardID key w (task.withData data) := by
  obtain ⟨hpull', hcaught⟩ := Task.pull_withData data hpull
  have hlookup := h.regular.sound.uniform.lookup_export hexport key
  rw [hkey] at hlookup
  refine ⟨?_, ?_⟩
  · intro p' data' hp' hdata' hshard
    rw [hpull'] at hp'
    cases hp'
    cases hdata'
    obtain ⟨hprimary, hidle⟩ := hok p hpull hshard
    rw [hlookup, if_pos (Eq.symm hshard)]
    exact ⟨h.holder _ (World.holds_primaryAddress hprimary), hidle⟩
  · intro m hm
    rw [hcaught] at hm
    cases hm

/-- What an import makes of the target's cell. -/
theorem Fresh.cell_pullImport (h : Fresh numShards shardID key w)
    (hkey : shardIDOf key numShards = shardID) (hmem : task ∈ w.controller.tasks)
    (hpull : task.pull = some p) (hdata : p.data = some data)
    (hok : Orderly.ImportsInOrder shardID key w task) :
    (p.shardID = shardID ∧
      (data.lookup key).or (w.data.cell p.targetAddress key) ∈ w.possible key ∧
      w.data.Idle key) ∨
    (p.shardID ≠ shardID ∧
      (data.lookup key).or (w.data.cell p.targetAddress key) =
        w.data.cell p.targetAddress key) := by
  by_cases hshard : p.shardID = shardID
  · left
    obtain ⟨hvalue, hidle⟩ := (h.task task hmem).copy p data hpull hdata hshard
    refine ⟨hshard, ?_, hidle⟩
    cases hcell : w.data.cell p.targetAddress key with
    | none =>
      rw [Option.or_none]
      exact hvalue
    | some old =>
      have hpulled := hok p hpull hshard data hdata (by rw [hcell]; exact Option.some_ne_none old)
      obtain ⟨value, hlookup⟩ := Option.ne_none_iff_exists'.mp hpulled
      rw [hlookup] at hvalue ⊢
      exact hvalue
  · right
    rw [h.regular.sound.pulls.task task hmem p hpull data hdata key
      fun heq ↦ hshard (heq.symm.trans hkey), Option.none_or]
    exact ⟨hshard, rfl⟩

/-- A node that holds the shard after an import did so before, or is the target. -/
theorem Fresh.holds_pullImport (h : Fresh numShards shardID key w)
    (hmem : task ∈ w.controller.tasks) (hpull : task.pull = some p)
    (hconfig : w'.controller.config = w.controller.config)
    (hunsynced : w'.unsynced = w.unsynced \ task.fills) (hholds : w'.Holds shardID address) :
    w.Holds shardID address ∨ p.shardID = shardID ∧ address = p.targetAddress := by
  obtain ⟨shard, id, node, hshard, hholder, hnode, rfl⟩ := hholds
  rw [hconfig] at hshard hnode
  by_cases hfills : (shardID, id) ∈ task.fills
  · obtain ⟨hp, node', hnode', haddress⟩ :=
      Task.mem_fills hfills hpull (h.regular.placement.task task hmem)
    rw [hnode] at hnode'
    cases hnode'
    exact Or.inr ⟨hp, haddress⟩
  · left
    refine ⟨shard, id, node, hshard, ?_, hnode, rfl⟩
    rcases hholder with rfl | ⟨hreplica, hnot⟩
    · exact Or.inl rfl
    · refine Or.inr ⟨hreplica, fun hmissing ↦ hnot ?_⟩
      rw [hunsynced]
      exact Finset.mem_sdiff.mpr ⟨hmissing, hfills⟩

theorem Fresh.pullImport (h : Fresh numShards shardID key w)
    (hkey : shardIDOf key numShards = shardID) {i : Nat} {answered : Bool}
    (htask : w.controller.tasks[i]? = some task) (hpull : task.pull = some p)
    (hdata : p.data = some data) (hok : Orderly.ImportsInOrder shardID key w task)
    (hregular : Regular numShards shardID key w')
    (hw' : w' = {
      w.setNode p.targetAddress ((w.data.nodes p.targetAddress).handleImport data).2 with
      controller := w.controller.resume i (if answered then task.pulled else task.pullFailed)
      unsynced := w.unsynced \ task.fills }) : Fresh numShards shardID key w' := by
  have hmem := List.mem_of_getElem? htask
  have hconfig : w'.controller.config = w.controller.config := by
    rw [hw']
    exact Controller.resume_config _
  have hcell : ∀ address, w'.data.cell address key =
      if address = p.targetAddress then (data.lookup key).or (w.data.cell p.targetAddress key)
      else w.data.cell address key := by
    intro address
    rw [hw']
    exact w.cell_import p.targetAddress data address key
  have himport := h.cell_pullImport hkey hmem hpull hdata hok
  -- the target, when the pull is one of the shard
  have hfilled : p.shardID = shardID →
      w'.data.cell p.targetAddress key ∈ w.possible key ∧ w.data.Idle key := by
    intro hshard
    rw [hcell, if_pos rfl]
    rcases himport with ⟨-, hnew⟩ | ⟨hne, -⟩
    · exact hnew
    · exact absurd hshard hne
  apply h.control hregular
  · rw [hw']
    rfl
  · rw [hw']
    rfl
  · intro address
    rw [hcell]
    split
    · rename_i haddress
      rw [haddress]
      rcases himport with ⟨-, hnew⟩ | ⟨-, hsame⟩
      · exact Or.inr hnew
      · exact Or.inl hsame
    · exact Or.inl rfl
  · intro hunplaced shard hshard
    rw [← hconfig] at hshard
    exact hunplaced shard hshard
  · intro address hholds
    rcases h.holds_pullImport hmem hpull hconfig (by rw [hw']) hholds with hold | ⟨hp, rfl⟩
    · exact Or.inl hold
    · exact Or.inr (hfilled hp)
  · intro task' htask'
    rw [hw'] at htask'
    rcases Controller.mem_resume htask' with hold | hnext
    · exact Or.inl hold
    · right
      cases answered with
      | false => exact (Task.hasNoCopy_pullFailed hnext).carried
      | true =>
        rcases Task.pulled_cases hpull hnext with hnone | ⟨m, rfl, hm, htarget⟩
        · exact hnone.carried
        · refine ⟨fun _ _ hp ↦ (by cases hp), ?_⟩
          rintro _ ⟨⟩ hshard
          rw [htarget]
          have hsame : w'.possible key = w.possible key ∧ w'.data.handlers = w.data.handlers := by
            rw [hw']
            exact ⟨rfl, rfl⟩
          unfold DataPlane.Idle
          rw [hsame.1, hsame.2]
          exact hfilled (hm.symm.trans hshard)

/-! ## Writes -/

variable {d : DataPlane}

/-- A step after which no other write of the key is on its way than before. -/
theorem Fresh.calm (h : Fresh numShards shardID key w)
    (hregular : Regular numShards shardID key { w with data := d })
    (hcell : ∀ address, d.cell address key = w.data.cell address key)
    (hhistory : d.registerHistory key = w.data.registerHistory key)
    (hhandlers : ∀ id handler, handler.write.key = key → handler.stage.isReplicating = true →
      d.handlers.lookup id = some handler → w.data.handlers.lookup id = some handler) :
    Fresh numShards shardID key { w with data := d } := by
  have hpossible : ({ w with data := d } : World).possible key = w.possible key :=
    congrArg Register.possible hhistory
  have hidle : w.data.Idle key → d.Idle key := by
    intro hall id handler hid hkey
    by_contra hrep
    have hrep := Bool.eq_true_of_not_eq_false hrep
    rw [hall id handler (hhandlers id handler hkey hrep hid) hkey] at hrep
    cases hrep
  refine ⟨hregular, ?_, ?_, ?_, ?_⟩
  · intro hunplaced
    obtain ⟨hall, hnone⟩ := h.unplaced hunplaced
    exact ⟨hpossible.trans hall, hidle hnone⟩
  · intro address hholds
    rw [hpossible]
    exact (hcell address).symm ▸ h.holder address hholds
  · intro id write done rest hid hkey
    obtain ⟨heffect, hholder, hdone⟩ :=
      h.handler id write done rest (hhandlers id _ hkey rfl hid) hkey
    refine ⟨?_, hholder, fun url hurl ↦ (hcell url).trans (hdone url hurl)⟩
    rw [hpossible]
    exact heffect
  · intro task htask
    obtain ⟨hcopy, htarget⟩ := h.task task htask
    refine ⟨?_, ?_⟩
    · intro p data hp hdata hshard
      obtain ⟨hvalue, hnone⟩ := hcopy p data hp hdata hshard
      rw [hpossible]
      exact ⟨hvalue, hidle hnone⟩
    · intro m hm hshard
      obtain ⟨hvalue, hnone⟩ := htarget m hm hshard
      rw [hpossible]
      exact ⟨(hcell m.targetAddress).symm ▸ hvalue, hidle hnone⟩

/-- While a write of the key is on its way, no copy of the shard is, and the shard has a primary. -/
theorem Fresh.busy (h : Fresh numShards shardID key w)
    (hid : w.data.handlers.lookup id = some ⟨write, .replicating done rest⟩)
    (hkey : write.key = key) :
    ¬ w.Unplaced shardID ∧
      ∀ task ∈ w.controller.tasks, Carried shardID key { w with data := d } task := by
  have hbusy : ¬ w.data.Idle key := by
    intro hidle
    cases hidle id _ hid hkey
  refine ⟨fun hunplaced ↦ hbusy (h.unplaced hunplaced).2, ?_⟩
  intro task htask
  obtain ⟨hcopy, htarget⟩ := h.task task htask
  exact ⟨fun p data hp hdata hshard ↦ absurd (hcopy p data hp hdata hshard).2 hbusy,
    fun m hm hshard ↦ absurd (htarget m hm hshard).2 hbusy⟩

theorem Fresh.routed (h : Fresh numShards shardID key w) {k : Nat} (hkey : write.key = key)
    (hok : Orderly.RoutesInOrder shardID key w ⟨write, .admitted k⟩)
    (hregular : Regular numShards shardID key { w with data := d })
    (hd : d = { w.data.resume id ⟨write, .replicating []
      ((w.data.nodes write.address).config.getReplicaURLs k)⟩ with
        history := w.data.history ++ [.begun id write] }) :
    Fresh numShards shardID key { w with data := d } := by
  obtain ⟨hidle, hprimary, hknows, hcopies⟩ := hok
  obtain ⟨shard₀, node₀, hshard₀, hnode₀, haddress₀⟩ :=
    ClusterConfig.primaryAddress_eq_some.mp hprimary
  have hpossible : ({ w with data := d } : World).possible key =
      insert write.effect (w.possible key) := by
    unfold World.possible
    rw [DataPlane.registerHistory_concat (s := w.data) (e := .begun id write) (by rw [hd]),
      WriteEvent.about_begun hkey]
    exact Register.possible_concat _ _
  have hcell : ∀ address, d.cell address key = w.data.cell address key := by
    intro address
    rw [hd]
    rfl
  refine ⟨hregular, ?_, ?_, ?_, ?_⟩
  · intro hunplaced
    -- the primary is registered, so that its name is not empty
    have hempty := hunplaced shard₀ hshard₀
    rw [hempty] at hnode₀
    exact absurd (Finmap.mem_of_lookup_eq_some hnode₀) h.regular.placement.named
  · intro address hholds
    rw [hpossible]
    exact Or.inr ((hcell address).symm ▸ h.holder address hholds)
  · intro id' write' done rest hid' hkey'
    rw [hd] at hid'
    rcases lookup_insert_cases hid' with ⟨-, heq⟩ | ⟨-, hold⟩
    · cases heq
      refine ⟨?_, ?_, fun url hurl ↦ by cases hurl⟩
      · rw [hpossible]
        exact Or.inl rfl
      · rintro _ ⟨shard, id, node, hshard, hholder, hnode, rfl⟩
        rcases hholder with rfl | ⟨hreplica, hnot⟩
        · rw [hshard₀] at hshard
          cases hshard
          rw [hnode₀] at hnode
          cases hnode
          exact Or.inl haddress₀
        · exact Or.inr (Or.inr (hknows k rfl shard hshard id hreplica hnot node hnode))
    · cases hidle id' _ hold hkey'
  · intro task htask
    have hnot := hcopies task htask
    refine ⟨?_, ?_⟩
    · intro p data hp hdata hshard
      refine absurd (Or.inl ⟨p, hp, hshard, ?_⟩) hnot
      rw [hdata]
      exact Option.some_ne_none data
    · intro m hm hshard
      exact absurd (Or.inr ⟨m, hm, hshard⟩) hnot

/-- The write reaches a replica. -/
theorem Fresh.replicated (h : Fresh numShards shardID key w) {url : String}
    (hid : w.data.handlers.lookup id = some ⟨write, .replicating done (url :: rest)⟩)
    (hkey : write.key = key) (hregular : Regular numShards shardID key { w with data := d })
    (hd : d = (w.data.setNode url ((w.data.nodes url).store write.request)).resume id ⟨write,
      .replicating (done ++ [url]) rest⟩) : Fresh numShards shardID key { w with data := d } := by
  obtain ⟨heffect, hholder, hdone⟩ := h.handler id write done _ hid hkey
  obtain ⟨hplaced, htasks⟩ := h.busy (d := d) hid hkey
  have hpossible : ({ w with data := d } : World).possible key = w.possible key := by
    rw [hd]
    rfl
  have hcell : ∀ address, d.cell address key =
      if address = url ∧ key = write.request.key then write.effect
      else w.data.cell address key := by
    intro address
    rw [hd]
    exact w.data.cell_store url write.request address key
  refine ⟨hregular, fun hunplaced ↦ absurd hunplaced hplaced, ?_, ?_, htasks⟩
  · intro address hholds
    rw [hpossible]
    change d.cell address key ∈ _
    rw [hcell]
    split
    · exact heffect
    · exact h.holder address hholds
  · intro id' write' done' rest' hid' hkey'
    rw [hd] at hid'
    rcases lookup_insert_cases hid' with ⟨-, heq⟩ | ⟨hne, hold⟩
    · cases heq
      refine ⟨?_, ?_, ?_⟩
      · rw [hpossible]
        exact heffect
      · intro address hholds
        rcases hholder address hholds with hown | hmem | hmem
        · exact Or.inl hown
        · exact Or.inr (Or.inl (List.mem_append_left _ hmem))
        · rcases List.mem_cons.mp hmem with rfl | hmem
          · exact Or.inr (Or.inl (List.mem_append_right _ List.mem_cons_self))
          · exact Or.inr (Or.inr hmem)
      · intro u hu
        change d.cell u key = _
        rw [hcell]
        split
        · rfl
        · rename_i hnot
          rcases List.mem_append.mp hu with hu | hu
          · exact hdone u hu
          · exact absurd ⟨List.mem_singleton.mp hu, hkey.symm⟩ hnot
    · cases h.regular.alone.waits hid hkey rfl hold hkey' hne

/-- The write fails at a replica, which may have stored it. -/
theorem Fresh.failed (h : Fresh numShards shardID key w) {url : String} {node : DataNode}
    (hid : w.data.handlers.lookup id = some ⟨write, .replicating done (url :: rest)⟩)
    (hkey : write.key = key) (hnode : w.data.Handles url write.request node)
    (hregular : Regular numShards shardID key { w with data := d })
    (hd : d = (w.data.setNode url node).answer id write DataNode.replicationFailed) :
    Fresh numShards shardID key { w with data := d } := by
  obtain ⟨heffect, hholder, hdone⟩ := h.handler id write done _ hid hkey
  obtain ⟨hplaced, htasks⟩ := h.busy (d := d) hid hkey
  have hpossible : ({ w with data := d } : World).possible key = w.possible key := by
    have hreply : DataNode.replicationFailed ≠ DataNode.written := by decide
    apply congrArg Register.possible
    rw [hd]
    exact DataPlane.registerHistory_of_about rfl (WriteEvent.about_ended_of_ne hreply)
  refine ⟨hregular, fun hunplaced ↦ absurd hunplaced hplaced, ?_, ?_, htasks⟩
  · intro address hholds
    rw [hpossible]
    change d.cell address key ∈ _
    rw [hd]
    rcases hnode.cell address key with hsame | ⟨-, -, hnew⟩
    · exact hsame.symm ▸ h.holder address hholds
    · exact hnew.symm ▸ heffect
  · intro id' write' done' rest' hid' hkey'
    rw [hd] at hid'
    obtain ⟨hne, hold⟩ := lookup_of_lookup_erase hid'
    cases h.regular.alone.waits hid hkey rfl hold hkey' hne

/-- The write has reached every holder. -/
theorem Fresh.finished (h : Fresh numShards shardID key w)
    (hid : w.data.handlers.lookup id = some ⟨write, .replicating done []⟩) (hkey : write.key = key)
    (hregular : Regular numShards shardID key { w with data := d })
    (hd : d = (w.data.setNode write.address ((w.data.nodes write.address).store
      write.request)).answer id write DataNode.written) :
    Fresh numShards shardID key { w with data := d } := by
  obtain ⟨heffect, hholder, hdone⟩ := h.handler id write done _ hid hkey
  obtain ⟨hplaced, htasks⟩ := h.busy (d := d) hid hkey
  have hpossible : ({ w with data := d } : World).possible key = {write.effect} := by
    unfold World.possible
    rw [DataPlane.registerHistory_concat (s := w.data) (e := .ended id write DataNode.written)
      (by rw [hd]; rfl), WriteEvent.about_written hkey]
    exact Register.possible_concat _ _
  have hcell : ∀ address, d.cell address key =
      if address = write.address ∧ key = write.request.key then write.effect
      else w.data.cell address key := by
    intro address
    rw [hd]
    exact w.data.cell_store write.address write.request address key
  refine ⟨hregular, fun hunplaced ↦ absurd hunplaced hplaced, ?_, ?_, htasks⟩
  · intro address hholds
    rw [hpossible]
    change d.cell address key = _
    rw [hcell]
    split
    · rfl
    · rename_i hnot
      rcases hholder address hholds with rfl | hmem | hmem
      · exact absurd ⟨rfl, hkey.symm⟩ hnot
      · exact hdone address hmem
      · cases hmem
  · intro id' write' done' rest' hid' hkey'
    rw [hd] at hid'
    obtain ⟨hne, hold⟩ := lookup_of_lookup_erase hid'
    cases h.regular.alone.waits hid hkey rfl hold hkey' hne

theorem Fresh.dataStep (h : Fresh numShards shardID key w) {a : WriteAction}
    (hok : Orderly shardID key w (.data a))
    (hregular : Regular numShards shardID key { w with data := d })
    (hstep : w.data.step a = some d) : Fresh numShards shardID key { w with data := d } := by
  by_cases hkeyOf : w.data.keyOf a = some key
  · cases DataPlane.step_cases hstep with
    | accepted | admitted =>
      exact h.calm hregular (fun _ ↦ rfl) rfl
        fun id handler _ hrep hid ↦ DataPlane.lookup_of_insert_waiting rfl hid hrep
    | refused herror =>
      have hreply := DataNode.accept_error_ne_written herror
      exact h.calm hregular (fun _ ↦ rfl)
        (DataPlane.registerHistory_of_about rfl (WriteEvent.about_ended_of_ne hreply))
        fun _ _ _ _ hid ↦ hid
    | rejected hid herror =>
      have hreply := DataNode.checkShard_error_ne_written herror
      exact h.calm hregular (fun _ ↦ rfl)
        (DataPlane.registerHistory_of_about rfl (WriteEvent.about_ended_of_ne hreply))
        fun _ _ _ _ hid ↦ (lookup_of_lookup_erase hid).2
    | gaveUp hid =>
      have hreply : DataNode.replicationFailed ≠ DataNode.written := by decide
      exact h.calm hregular (fun _ ↦ rfl)
        (DataPlane.registerHistory_of_about rfl (WriteEvent.about_ended_of_ne hreply))
        fun _ _ _ _ hid ↦ (lookup_of_lookup_erase hid).2
    | routed hid =>
      have hkey := (DataPlane.handler_key_iff hid).mp hkeyOf
      exact h.routed hkey (hok _ hid hkey) hregular rfl
    | replicated hid =>
      exact h.replicated hid ((DataPlane.handler_key_iff hid).mp hkeyOf) hregular rfl
    | failed hid hnode =>
      exact h.failed hid ((DataPlane.handler_key_iff hid).mp hkeyOf) hnode hregular rfl
    | finished hid => exact h.finished hid ((DataPlane.handler_key_iff hid).mp hkeyOf) hregular rfl
    | delivered hk => exact absurd ((DataPlane.stray_key_iff hk).mp hkeyOf) (hok _ hk)
  · have hsame := DataPlane.sameFor_step h.regular.sound.numbered hstep hkeyOf
    exact h.calm hregular hsame.cell hsame.registerHistory
      fun id handler hkey _ hid ↦ (hsame.handler id handler hkey).mp hid

/-! ## Runs -/

theorem Fresh.step (h : Fresh numShards shardID key w) (hkey : shardIDOf key numShards = shardID)
    {a : WorldAction} (hok : Orderly shardID key w a) (hstep : w.step a = some w') :
    Fresh numShards shardID key w' := by
  have hregular := h.regular.step hok hstep
  cases World.step_cases hstep with
  | controller hpull hc =>
    apply h.control hregular rfl rfl (fun _ ↦ Or.inl rfl)
    · exact h.unplaced_controllerStep hok hc
    · exact fun _ ↦ h.holds_controllerStep hok hc rfl hregular.placement.named
    · intro task htask
      rcases Controller.mem_tasks_step hc hpull htask with hold | hnone
      · exact Or.inl hold
      · exact Or.inr hnone.carried
  | registerRefused => exact h
  | registerNode | strayExport =>
    exact h.control hregular rfl rfl (fun _ ↦ Or.inl rfl) id (fun _ ↦ Or.inl) fun _ ↦ Or.inl
  | @appendMessage k now command hk =>
    cases command with
    | registerNode nodeID address => exact h.register hregular rfl rfl rfl
    | noOp =>
      exact h.control hregular rfl rfl (fun _ ↦ Or.inl rfl) id (fun _ ↦ Or.inl) fun _ ↦ Or.inl
    | updateTopology config =>
      have hsame := hok _ hk config rfl
      subst hsame
      exact h.control hregular rfl rfl (fun _ ↦ Or.inl rfl) id (fun _ ↦ Or.inl) fun _ ↦ Or.inl
  | @pullExport i task p data htask hpull hdata hexport =>
    have hconfig : (w.controller.resume i (some (task.withData data))).config =
        w.controller.config := Controller.resume_config _
    apply h.control hregular rfl rfl (fun _ ↦ Or.inl rfl)
    · intro hunplaced shard hshard
      rw [← hconfig] at hshard
      exact hunplaced shard hshard
    · rintro address ⟨shard, id, node, hshard, hholder, hnode, haddress⟩
      rw [hconfig] at hshard hnode
      exact Or.inl ⟨shard, id, node, hshard, hholder, hnode, haddress⟩
    · intro task' htask'
      rcases Controller.mem_resume htask' with hold | hnext
      · exact Or.inl hold
      · cases hnext
        obtain ⟨hcopy, htarget⟩ := h.carried_export hkey hpull (hok task htask) hexport
        exact Or.inr ⟨hcopy, htarget⟩
  | pullImport htask hpull hdata =>
    exact h.pullImport hkey htask hpull hdata (hok _ htask) hregular rfl
  | strayImport hk hdata =>
    refine h.control hregular rfl rfl (fun address ↦ Or.inl ?_) id (fun _ ↦ Or.inl) fun _ ↦ Or.inl
    refine World.cell_import_other (h.regular.sound.pulls.stray _ (List.mem_of_getElem? hk)) hdata
      (fun hshard ↦ ?_) address
    exact hok _ hk (hshard.symm.trans hkey)
  | renew hnode =>
    exact h.control hregular rfl rfl (fun address ↦ Or.inl (World.cell_renew hnode address key)) id
      (fun _ ↦ Or.inl) fun _ ↦ Or.inl
  | data hdata => exact h.dataStep hok hregular hdata

/-- In every run in the order of `Orderly`. -/
theorem fresh_reaches {nodeID : String → String} (hkey : shardIDOf key numShards = shardID)
    (hrun : Reaches World.step (Orderly shardID key) (.start numShards duration nodeID) w) :
    Fresh numShards shardID key w :=
  Reaches.invariant (Fresh numShards shardID key) fresh_start
    (fun _ _ _ _ h hok hstep ↦ h.step hkey hok hstep) hrun

end

end DistributedCache
