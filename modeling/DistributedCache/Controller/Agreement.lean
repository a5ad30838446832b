import DistributedCache.Controller.Gauge

/-!
# Agreement between controllers

`HandleNodeFailure`, `MoveShard` and `Rebalance` change the configuration of one controller without
going through the log, or before they go through it.  Each of them leaves that controller with a
topology that no other controller with the same commands behind it has.  The topology of a
controller on which nothing of this runs is a function of the commands that it has applied.
-/

namespace DistributedCache

open FiniteMap Transition

variable {ι : Type} [DecidableEq ι]

/-! ## Configurations up to the times of the heartbeats -/

namespace ClusterConfig

def withoutHeartbeats (config : ClusterConfig) : ClusterConfig :=
  { config with nodes := mapValues (fun _ node ↦ { node with lastHeartbeat := 0 }) config.nodes }

theorem applyRegisterNode_withoutHeartbeats (config : ClusterConfig) (nodeID address : String)
    (now : Nat) :
    (config.applyRegisterNode nodeID address now).withoutHeartbeats =
      config.withoutHeartbeats.applyRegisterNode nodeID address 0 := by
  have hsame : nodeID ∈ config.withoutHeartbeats.nodes ↔ nodeID ∈ config.nodes := mem_mapValues
  unfold applyRegisterNode
  by_cases hknown : nodeID ∈ config.nodes
  · rw [if_pos hknown, if_pos (hsame.mpr hknown)]
  · rw [if_neg hknown, if_neg (mt hsame.mp hknown)]
    unfold withoutHeartbeats
    congr 1
    apply Finmap.ext_lookup
    intro id
    rw [lookup_mapValues]
    by_cases hid : id = nodeID
    · subst hid
      rw [Finmap.lookup_insert, Finmap.lookup_insert]
      rfl
    · rw [Finmap.lookup_insert_of_ne _ hid, Finmap.lookup_insert_of_ne _ hid, lookup_mapValues]

end ClusterConfig

/-! ## The topology after some commands -/

/-- `AppendMessage` on a configuration without heartbeats. -/
def Command.replay (config : ClusterConfig) : Command → ClusterConfig
  | .registerNode nodeID address => config.applyRegisterNode nodeID address 0
  | .updateTopology new => new.withoutHeartbeats
  | .noOp => config

/-- The topology that the commands make of a configuration. -/
def topologyAfter (config : ClusterConfig) (commands : List Command) : ClusterConfig :=
  commands.foldl Command.replay config.withoutHeartbeats

theorem appendMessage_withoutHeartbeats (c : Controller) (now : Nat) (command : Command) :
    (c.appendMessage now command).config.withoutHeartbeats =
      command.replay c.config.withoutHeartbeats := by
  cases command with
  | registerNode nodeID address => exact ClusterConfig.applyRegisterNode_withoutHeartbeats _ _ _ _
  | updateTopology | noOp => rfl

variable {config : ClusterConfig} {log : List Command} {n : Nat}

theorem topologyAfter_take_succ {command : Command} (h : log[n]? = some command) :
    topologyAfter config (log.take (n + 1)) =
      command.replay (topologyAfter config (log.take n)) := by
  unfold topologyAfter
  rw [List.take_add_one, h, Option.toList_some, List.foldl_append]
  rfl

/-! ## Epochs along the log -/

/-- Every configuration in the log has a higher epoch than what the commands before it make. -/
def Rising (initial : ClusterConfig) (log : List Command) : Prop :=
  ∀ n config, log[n]? = some (.updateTopology config) →
    (topologyAfter initial (log.take n)).epoch < config.epoch

theorem rising_append {initial : ClusterConfig} {command : Command} (h : Rising initial log)
    (hnew : ∀ config ∈ command.topology, (topologyAfter initial log).epoch < config.epoch) :
    Rising initial (log ++ [command]) := by
  intro n config hn
  by_cases hlt : n < log.length
  · rw [List.getElem?_append_left hlt] at hn
    rw [List.take_append_of_le_length (Nat.le_of_lt hlt)]
    exact h n config hn
  · have hlen : n = log.length := by
      have hbound := (List.getElem?_eq_some_iff.mp hn).1
      rw [List.length_append, List.length_singleton] at hbound
      omega
    subst hlen
    rw [List.getElem?_concat_length] at hn
    cases hn
    rw [List.take_left]
    exact hnew config rfl

/-- A command that the log allows raises the epoch or changes nothing. -/
theorem replay_epoch (config : ClusterConfig) (command : Command)
    (h : ∀ new ∈ command.topology, config.epoch < new.epoch) :
    config.epoch < (command.replay config).epoch ∨ command.replay config = config := by
  cases command with
  | registerNode nodeID address =>
    by_cases hknown : nodeID ∈ config.nodes
    · right
      exact if_pos hknown
    · left
      have hnext := epochGauge.read_register config nodeID address 0 hknown
      exact Nat.lt_of_lt_of_eq (Nat.lt_succ_self _) hnext.symm
  | updateTopology new => exact Or.inl (h new rfl)
  | noOp => exact Or.inr rfl

/-- Along a rising log the epoch never falls, and as long as it stays nothing changes. -/
theorem Rising.epoch_le {initial : ClusterConfig} (h : Rising initial log) {m : Nat} (hmn : m ≤ n) :
    (topologyAfter initial (log.take m)).epoch < (topologyAfter initial (log.take n)).epoch ∨
      topologyAfter initial (log.take n) = topologyAfter initial (log.take m) := by
  induction hmn with
  | refl => exact Or.inr rfl
  | @step n hmn ih =>
    cases hn : log[n]? with
    | none =>
      have hsame : log.take (n + 1) = log.take n := by
        rw [List.take_add_one, hn, Option.toList_none, List.append_nil]
      rw [hsame]
      exact ih
    | some command =>
      rw [topologyAfter_take_succ hn]
      have hnext := replay_epoch (topologyAfter initial (log.take n)) command (by
        intro new hnew
        cases command with
        | updateTopology config =>
          cases hnew
          exact h n _ hn
        | registerNode => cases hnew
        | noOp => cases hnew)
      rcases hnext with hlt | hsame
      · left
        rcases ih with ih | ih
        · exact Nat.lt_trans ih hlt
        · rwa [ih] at hlt ⊢
      · rw [hsame]
        exact ih

/-! ## Controllers that follow the log -/

variable (follower : ι → Prop) (initial : ClusterConfig)

/-- The condition under which followers agree: none of them changes its configuration by itself,
they restore snapshots only of each other and only to get ahead, and the epoch of a configuration
that is committed is above what the log has made so far. -/
def LogDriven (s : ControlPlane ι) : PlaneAction ι → Prop
  | .controller i a => follower i → a.changesShards = false
  | .commit k => ∀ command ∈ s.proposals[k]?, ∀ config ∈ command.topology,
    (topologyAfter initial s.log).epoch < config.epoch
  | .getSnapshot i receiver => follower receiver → follower i
  | .restoreFromSnapshot k => ∀ t ∈ s.snapshots[k]?, follower t.receiver →
    s.applied t.receiver ≤ t.index
  | _ => True

instance [DecidablePred follower] (s : ControlPlane ι) :
    ∀ a, Decidable (LogDriven follower initial s a)
  | .controller _ _ | .getSnapshot _ _ => inferInstanceAs (Decidable (_ → _))
  | .commit _ => inferInstanceAs (Decidable (∀ command ∈ _, ∀ config ∈ _, _ < _))
  | .restoreFromSnapshot _ => inferInstanceAs (Decidable (∀ t ∈ _, _ → _))
  | .registerNode _ _ | .noOp | .lose _ | .appendMessage _ _ => isTrue trivial

/-- A configuration is the one that the first `n` commands of the log make. -/
def Replays (log : List Command) (n : Nat) (config : ClusterConfig) : Prop :=
  n ≤ log.length ∧ config.withoutHeartbeats = topologyAfter initial (log.take n)

/-- Followers, and snapshots for them, hold what the log makes. -/
structure Determined (s : ControlPlane ι) : Prop where
  controller : ∀ i, follower i → Replays initial s.log (s.applied i) (s.config i)
  snapshot : ∀ t ∈ s.snapshots, follower t.receiver → Replays initial s.log t.index t.config
  rising : Rising initial s.log

variable {follower initial} {s s' : ControlPlane ι}

/-- More commands in the log change nothing about the first ones. -/
theorem Replays.append (h : Replays initial log n config) (rest : List Command) :
    Replays initial (log ++ rest) n config := by
  refine ⟨?_, ?_⟩
  · rw [List.length_append]
    exact Nat.le_add_right_of_le h.1
  · rw [List.take_append_of_le_length h.1]
    exact h.2

namespace Determined

omit [DecidableEq ι] in
theorem start : Determined follower initial (.start initial : ControlPlane ι) := by
  refine ⟨fun i _ ↦ ⟨Nat.le_refl _, rfl⟩, ?_, ?_⟩
  · intro t ht
    cases ht
  · intro n config hn
    cases hn

/-- A step of a follower leaves its configuration alone; the other controllers do not matter. -/
theorem controllerStep (h : Determined follower initial s) {i : ι} {a : ControllerAction}
    {c : Controller} (hok : follower i → a.changesShards = false)
    (hstep : (s.controllers i).step a = some c) :
    Determined follower initial { s.setController i c with
      proposals := s.proposals ++ ((s.controllers i).proposal a).toList } := by
  refine ⟨?_, h.snapshot, h.rising⟩
  intro j hj
  change Replays initial s.log (s.applied j) ((s.setController i c).config j)
  by_cases hji : j = i
  · subst hji
    rw [ControlPlane.config_setController_self]
    rcases Gauge.read_controller (g := epochGauge) hstep with ⟨hchanges, -⟩ | ⟨-, hsame⟩
    · rw [hok hj] at hchanges
      cases hchanges
    · rw [hsame]
      exact h.controller j hj
  · rw [ControlPlane.config_setController_of_ne s hji]
    exact h.controller j hj

omit [DecidableEq ι] in
theorem commit (h : Determined follower initial s) {k : Nat} {command : Command}
    (hok : ∀ config ∈ command.topology, (topologyAfter initial s.log).epoch < config.epoch) :
    Determined follower initial
      { s with log := s.log ++ [command], proposals := s.proposals.eraseIdx k } :=
  ⟨fun i hi ↦ (h.controller i hi).append _, fun t ht hj ↦ (h.snapshot t ht hj).append _,
    rising_append h.rising hok⟩

theorem appendMessage (h : Determined follower initial s) {i : ι} {now : Nat} {command : Command}
    (hcommand : s.log[s.applied i]? = some command) :
    Determined follower initial
      ((s.advance i).setController i ((s.controllers i).appendMessage now command)) := by
  refine ⟨?_, h.snapshot, h.rising⟩
  intro j hj
  by_cases hji : j = i
  · subst hji
    rw [ControlPlane.config_setController_self]
    change Replays initial s.log (Function.update s.applied j (s.applied j + 1) j) _
    rw [Function.update_self]
    refine ⟨(List.getElem?_eq_some_iff.mp hcommand).1, ?_⟩
    rw [appendMessage_withoutHeartbeats, topologyAfter_take_succ hcommand]
    exact congrArg (Command.replay · command) (h.controller j hj).2
  · rw [ControlPlane.config_setController_of_ne _ hji]
    change Replays initial s.log (Function.update s.applied i (s.applied i + 1) j) (s.config j)
    rw [Function.update_of_ne hji]
    exact h.controller j hj

omit [DecidableEq ι] in
theorem getSnapshot (h : Determined follower initial s) {i receiver : ι}
    (hok : follower receiver → follower i) :
    Determined follower initial
      { s with snapshots := s.snapshots ++ [⟨receiver, s.applied i, s.config i⟩] } := by
  refine ⟨h.controller, ?_, h.rising⟩
  intro t ht hj
  rcases List.mem_append.mp ht with ht | ht
  · exact h.snapshot t ht hj
  · rw [List.mem_singleton.mp ht] at hj ⊢
    exact h.controller i (hok hj)

theorem restoreFromSnapshot (h : Determined follower initial s) {k : Nat} {t : SentSnapshot ι}
    (hok : follower t.receiver → s.applied t.receiver ≤ t.index)
    (hk : s.snapshots[k]? = some t) :
    Determined follower initial
      { s.setController t.receiver ((s.controllers t.receiver).publish t.config) with
        applied := Function.update s.applied t.receiver (max (s.applied t.receiver) t.index)
        snapshots := s.snapshots.eraseIdx k } := by
  refine ⟨?_, fun t' ht' ↦ h.snapshot t' (List.mem_of_mem_eraseIdx ht'), h.rising⟩
  intro j hj
  change Replays initial s.log (Function.update s.applied t.receiver _ j)
    ((s.setController t.receiver ((s.controllers t.receiver).publish t.config)).config j)
  by_cases hjt : j = t.receiver
  · subst hjt
    rw [ControlPlane.config_setController_self, Function.update_self, Nat.max_eq_right (hok hj)]
    exact h.snapshot t (List.mem_of_getElem? hk) hj
  · rw [ControlPlane.config_setController_of_ne s hjt, Function.update_of_ne hjt]
    exact h.controller j hj

theorem step (h : Determined follower initial s) {a : PlaneAction ι}
    (hok : LogDriven follower initial s a) (hstep : s.step a = some s') :
    Determined follower initial s' ∧ s.log <+: s'.log := by
  cases a with
  | controller i a =>
    obtain ⟨c, hc, rfl⟩ := Option.map_eq_some_iff.mp hstep
    exact ⟨h.controllerStep hok hc, List.prefix_rfl⟩
  | registerNode | noOp | lose =>
    cases hstep
    exact ⟨⟨h.controller, h.snapshot, h.rising⟩, List.prefix_rfl⟩
  | commit k =>
    obtain ⟨command, hk, rfl⟩ := Option.map_eq_some_iff.mp hstep
    exact ⟨h.commit (hok command hk), List.prefix_append _ _⟩
  | appendMessage i now =>
    obtain ⟨command, hcommand, rfl⟩ := Option.map_eq_some_iff.mp hstep
    exact ⟨h.appendMessage hcommand, List.prefix_rfl⟩
  | getSnapshot i receiver =>
    cases hstep
    exact ⟨h.getSnapshot hok, List.prefix_rfl⟩
  | restoreFromSnapshot k =>
    obtain ⟨t, hk, rfl⟩ := Option.map_eq_some_iff.mp hstep
    exact ⟨h.restoreFromSnapshot (hok t hk) hk, List.prefix_rfl⟩

/-- Along a whole run. -/
theorem reaches (h : Determined follower initial s)
    (hrun : Reaches ControlPlane.step (LogDriven follower initial) s s') :
    Determined follower initial s' ∧ s.log <+: s'.log := by
  refine Reaches.invariant (fun t ↦ Determined follower initial t ∧ s.log <+: t.log) ?_ ?_ hrun
  · exact ⟨h, List.prefix_rfl⟩
  · intro t a t' _ hinv hok hstep
    obtain ⟨hnext, hlog⟩ := hinv.1.step hok hstep
    exact ⟨hnext, hinv.2.trans hlog⟩

end Determined

/-- What two counts of commands make of the topology, when both are counts of a rising log. -/
theorem Replays.shards_eq {m : Nat} {config' : ClusterConfig} (hrising : Rising initial log)
    (h : Replays initial log m config) (h' : Replays initial log n config')
    (hepoch : config.epoch = config'.epoch) : config.shards = config'.shards := by
  have hsame : config.withoutHeartbeats.epoch = config'.withoutHeartbeats.epoch := hepoch
  have hshards : config.withoutHeartbeats.shards = config'.withoutHeartbeats.shards := by
    rw [h.2, h'.2] at hsame ⊢
    rcases Nat.le_total m n with hmn | hmn
    · rcases hrising.epoch_le hmn with hlt | heq
      · omega
      · rw [heq]
    · rcases hrising.epoch_le hmn with hlt | heq
      · omega
      · rw [heq]
  exact hshards

/-- At any two moments of a run, controllers that follow the log and have applied as many commands
hold the same topology, and one epoch stands for one placement of the shards, as long as no epoch
passes the largest `uint64`. -/
theorem controllers_agree (hrun : Reaches ControlPlane.step (LogDriven follower initial)
      (.start initial) s)
    (hlater : Reaches ControlPlane.step (LogDriven follower initial) s s') {i j : ι}
    (hi : follower i) (hj : follower j) :
    (s.applied i = s'.applied j →
      (s.config i).withoutHeartbeats = (s'.config j).withoutHeartbeats) ∧
    ((s.config i).epoch = (s'.config j).epoch → (s.config i).shards = (s'.config j).shards) := by
  have hdet : Determined follower initial s := (Determined.start.reaches hrun).1
  obtain ⟨hdet', rest, hrest⟩ := hdet.reaches hlater
  have hreplays := (hdet.controller i hi).append rest
  rw [hrest] at hreplays
  constructor
  · intro happlied
    rw [hreplays.2, (hdet'.controller j hj).2, happlied]
  · exact hreplays.shards_eq hdet'.rising (hdet'.controller j hj)

/-- The leader's `Rebalance` reaches two followers, one of them in a snapshot. -/
theorem controllers_agree_rebalanced :
    ∃ s : ControlPlane (Option Bool),
      Reaches ControlPlane.step (LogDriven (fun i ↦ i ≠ none) (.newClusterConfig 10))
        (.start (.newClusterConfig 10)) s ∧
      s.applied (some true) = 2 ∧ s.applied (some false) = 2 ∧
      (s.config (some true)).shards ≠ (ClusterConfig.newClusterConfig 10).shards ∧
      (s.config (some true)).withoutHeartbeats = (s.config (some false)).withoutHeartbeats := by
  obtain ⟨s, hrun, htrue, hfalse, hshards⟩ :
      ∃ s : ControlPlane (Option Bool),
        Reaches ControlPlane.step (LogDriven (fun i ↦ i ≠ none) (.newClusterConfig 10))
          (.start (.newClusterConfig 10)) s ∧
        s.applied (some true) = 2 ∧ s.applied (some false) = 2 ∧
        (s.config (some true)).shards ≠ (ClusterConfig.newClusterConfig 10).shards :=
    exists_reaches_of_exec
      [.registerNode "a" "a", .commit 0, .appendMessage none 1, .controller none (.rebalance ["a"]),
        .controller none (.rebalanceShards 0 (List.range 10)),
        .controller none (.broadcast 0 true), .commit 0, .appendMessage (some true) 2,
        .appendMessage (some true) 3, .getSnapshot (some true) (some false),
        .restoreFromSnapshot 0] (by decide +kernel)
  refine ⟨s, hrun, htrue, hfalse, hshards, ?_⟩
  exact (controllers_agree hrun .refl (Option.some_ne_none true) (Option.some_ne_none false)).1
    (htrue.trans hfalse.symm)

/-- After the same command one controller runs a `Rebalance` and the other handles a failure: the
same epoch, and different placements of the shards. -/
theorem controllers_disagree :
    ∃ s : ControlPlane Bool,
      Reachable ControlPlane.step (.start (.newClusterConfig 10)) s ∧
      s.applied true = s.applied false ∧ (s.config true).epoch = (s.config false).epoch ∧
      (s.config true).shards ≠ (s.config false).shards :=
  exists_reaches_of_exec
    [.registerNode "a" "a", .commit 0, .appendMessage true 1, .appendMessage false 2,
      .controller true (.rebalance ["a"]),
      .controller true (.rebalanceShards 0 (List.range 10)),
      .controller false (.handleNodeFailure "a")] (by decide +kernel)

end DistributedCache
