import DistributedCache.Controller.Gauge
import DistributedCache.DataNode.Node

/-!
# Epochs of controllers and data nodes

A data node asks one controller for its epoch and then for its topology, and takes the topology
without looking at its epoch again.  Its epoch can fall when the controller's epoch falls between
the two answers, and the controller's epoch falls when it installs a configuration that it has
overtaken.
-/

namespace DistributedCache

open FiniteMap Transition

variable {ι : Type} [DecidableEq ι]

/-! ## Requests that are too old -/

namespace DataNode

/-- Some request with this epoch is rejected as stale. -/
def RejectsEpoch (node : DataNode) (epoch : Nat) : Prop :=
  (∃ now req, req.epoch = epoch ∧ node.accept now (some req) = .error staleClient) ∨
    ∃ req, req.epoch = epoch ∧ (node.replicate (some req)).1 = stalePrimary

/-- Some request with this epoch gets past the comparison of the epochs. -/
def AcceptsEpoch (node : DataNode) (epoch : Nat) : Prop :=
  (∃ now req, req.epoch = epoch ∧ node.accept now (some req) = .ok req) ∨
    ∃ req, req.epoch = epoch ∧ (node.replicate (some req)).1 = written

theorem RejectsEpoch.lt {node : DataNode} {epoch : Nat} (h : node.RejectsEpoch epoch) :
    epoch < node.config.epoch := by
  rcases h with ⟨now, req, rfl, h⟩ | ⟨req, rfl, h⟩
  · exact accept_stale h
  · by_contra hfresh
    rw [replicate_of_le (Nat.le_of_not_lt hfresh)] at h
    exact absurd h (by decide : written ≠ stalePrimary)

theorem AcceptsEpoch.le {node : DataNode} {epoch : Nat} (h : node.AcceptsEpoch epoch) :
    node.config.epoch ≤ epoch := by
  rcases h with ⟨now, req, rfl, h⟩ | ⟨req, rfl, h⟩
  · exact (accept_ok h).2.2
  · by_contra hstale
    rw [replicate_of_lt (Nat.lt_of_not_le hstale)] at h
    exact absurd h (by decide : stalePrimary ≠ written)

end DataNode

/-! ## Data nodes under a control plane -/

/-- Controllers and data nodes. -/
structure Fleet (ι : Type) where
  plane : ControlPlane ι
  nodes : String → DataNode

inductive FleetAction (ι : Type) where
  | plane (a : PlaneAction ι)
  | renew (nodeID : String) (now : Nat) (a : RenewAction)
  deriving DecidableEq

namespace Fleet

/-- Every node has one controller, `home`, that it talks to. -/
def step (home : String → ι) (f : Fleet ι) : FleetAction ι → Option (Fleet ι)
  | .plane a => (f.plane.step a).map fun plane ↦ { f with plane := plane }
  | .renew nodeID now a =>
    ((f.nodes nodeID).renew (f.plane.config (home nodeID)) now a).map fun node ↦
      { f with nodes := Function.update f.nodes nodeID node }

def start (config : ClusterConfig) (duration : Nat) : Fleet ι where
  plane := .start config
  nodes := fun nodeID ↦ .newServer nodeID duration

/-- The condition is one on the control plane. -/
def InStep (f : Fleet ι) : FleetAction ι → Prop
  | .plane a => epochGauge.InStep f.plane a
  | .renew _ _ _ => True

instance [Fintype ι] (f : Fleet ι) (a : FleetAction ι) : Decidable (f.InStep a) :=
  match a with
  | .plane a => inferInstanceAs (Decidable (epochGauge.InStep f.plane a))
  | .renew _ _ _ => isTrue trivial

end Fleet

/-- A node in the middle of a renewal will not get a topology that is older than its own, as long as
the epoch of its controller does not fall. -/
def DataNode.Follows (node : DataNode) (epoch : Nat) : Prop :=
  match node.stage with
  | .heartbeatReply e => e ≤ epoch
  | .topology => node.config.epoch ≤ epoch
  | .topologyReply config => node.config.epoch ≤ config.epoch
  | _ => True

theorem DataNode.Follows.mono {node : DataNode} {epoch epoch' : Nat} (h : node.Follows epoch)
    (hle : epoch ≤ epoch') : node.Follows epoch' := by
  unfold Follows at h ⊢
  cases hstage : node.stage <;> rw [hstage] at h
  case heartbeatReply e => exact Nat.le_trans h hle
  case topology => exact Nat.le_trans h hle
  case topologyReply config => exact h
  all_goals trivial

/-- A step of a renewal keeps the bound and does not lower the node's epoch. -/
theorem DataNode.Follows.renew {node node' : DataNode} {controller : ClusterConfig} {now : Nat}
    {a : RenewAction} (h : node.Follows controller.epoch)
    (hstep : node.renew controller now a = some node') :
    node'.Follows controller.epoch ∧ node.config.epoch ≤ node'.config.epoch := by
  unfold Follows at h
  cases a with
  | heartbeatHandled =>
    obtain ⟨-, hnode⟩ := Option.ite_none_right_eq_some.mp hstep
    cases hnode
    exact ⟨Nat.le_refl _, Nat.le_refl _⟩
  | receiveReply =>
    simp only [DataNode.renew] at hstep
    split at hstep
    · rename_i e hstage
      cases hstep
      rw [hstage] at h
      refine ⟨?_, Nat.le_refl _⟩
      unfold Follows
      by_cases hnewer : node.config.epoch < e
      · simp only [if_pos hnewer]
        exact Nat.le_trans (Nat.le_of_lt hnewer) h
      · simp only [if_neg hnewer]
    · cases hstep
  | topologyHandled =>
    obtain ⟨hstage, hnode⟩ := Option.ite_none_right_eq_some.mp hstep
    cases hnode
    rw [hstage] at h
    exact ⟨h, Nat.le_refl _⟩
  | updateTopology =>
    simp only [DataNode.renew] at hstep
    split at hstep
    · rename_i config hstage
      cases hstep
      rw [hstage] at h
      exact ⟨trivial, h⟩
    · cases hstep
  | _ =>
    -- no answer is under way afterwards
    simp only [DataNode.renew] at hstep
    split at hstep <;> cases hstep <;> exact ⟨trivial, Nat.le_refl _⟩

namespace Fleet

variable {home : String → ι} {f f' : Fleet ι}

/-- No controller is ahead of a configuration on its way to it, and no node is ahead of its
controller's answers. -/
structure Steady (home : String → ι) (f : Fleet ι) : Prop where
  behind : epochGauge.Behind f.plane
  follows : ∀ nodeID, (f.nodes nodeID).Follows (f.plane.config (home nodeID)).epoch

/-- Every epoch of `f'` is at least that of `f`. -/
structure NoLater (f f' : Fleet ι) : Prop where
  controller : ∀ i, (f.plane.config i).epoch ≤ (f'.plane.config i).epoch
  node : ∀ nodeID, (f.nodes nodeID).config.epoch ≤ (f'.nodes nodeID).config.epoch

omit [DecidableEq ι] in
theorem NoLater.refl (f : Fleet ι) : NoLater f f := ⟨fun _ ↦ Nat.le_refl _, fun _ ↦ Nat.le_refl _⟩

omit [DecidableEq ι] in
theorem NoLater.trans {f'' : Fleet ι} (h : NoLater f f') (h' : NoLater f' f'') : NoLater f f'' :=
  ⟨fun i ↦ Nat.le_trans (h.controller i) (h'.controller i),
    fun nodeID ↦ Nat.le_trans (h.node nodeID) (h'.node nodeID)⟩

omit [DecidableEq ι] in
theorem steady_start (config : ClusterConfig) (duration : Nat) :
    Steady home (start config duration) :=
  ⟨Gauge.behind_start config, fun _ ↦ trivial⟩

theorem Steady.step (h : Steady home f) {a : FleetAction ι} (hok : f.InStep a)
    (hstep : f.step home a = some f') : Steady home f' ∧ NoLater f f' := by
  cases a with
  | plane a =>
    obtain ⟨plane, hplane, rfl⟩ := Option.map_eq_some_iff.mp hstep
    obtain ⟨hbehind, hle⟩ := h.behind.step hok hplane
    exact ⟨⟨hbehind, fun nodeID ↦ (h.follows nodeID).mono (hle (home nodeID))⟩,
      hle, fun _ ↦ Nat.le_refl _⟩
  | renew nodeID now a =>
    obtain ⟨node, hnode, rfl⟩ := Option.map_eq_some_iff.mp hstep
    obtain ⟨hfollows, hle⟩ := (h.follows nodeID).renew hnode
    refine ⟨⟨h.behind, ?_⟩, fun _ ↦ Nat.le_refl _, ?_⟩
    · intro id
      by_cases hid : id = nodeID
      · subst hid
        change (Function.update f.nodes id node id).Follows _
        rw [Function.update_self]
        exact hfollows
      · change (Function.update f.nodes nodeID node id).Follows _
        rw [Function.update_of_ne hid]
        exact h.follows id
    · intro id
      by_cases hid : id = nodeID
      · subst hid
        change _ ≤ (Function.update f.nodes id node id).config.epoch
        rw [Function.update_self]
        exact hle
      · change _ ≤ (Function.update f.nodes nodeID node id).config.epoch
        rw [Function.update_of_ne hid]

theorem Steady.reaches (h : Steady home f) (hrun : Reaches (Fleet.step home) InStep f f') :
    Steady home f' ∧ NoLater f f' := by
  refine Reaches.invariant (fun t ↦ Steady home t ∧ NoLater f t) ⟨h, NoLater.refl f⟩ ?_ hrun
  intro t a t' _ hinv hok hstep
  obtain ⟨hsteady, hle⟩ := hinv.1.step hok hstep
  exact ⟨hsteady, hinv.2.trans hle⟩

end Fleet

/-- In a run in which no controller overtakes a configuration on its way to it, no epoch falls, and
an epoch that a data node has rejected as stale is never accepted by it later.  Epochs are meant
below `2 ^ 64`, where a `uint64` starts again from zero. -/
theorem epochs_never_fall {home : String → ι} {config : ClusterConfig} {duration : Nat}
    {f f' : Fleet ι} (hrun : Reaches (Fleet.step home) Fleet.InStep (.start config duration) f)
    (hlater : Reaches (Fleet.step home) Fleet.InStep f f') :
    (∀ i, (f.plane.config i).epoch ≤ (f'.plane.config i).epoch) ∧
    (∀ nodeID, (f.nodes nodeID).config.epoch ≤ (f'.nodes nodeID).config.epoch) ∧
    ∀ nodeID epoch, (f.nodes nodeID).RejectsEpoch epoch →
      ¬ (f'.nodes nodeID).AcceptsEpoch epoch := by
  have hsteady : Fleet.Steady home f := ((Fleet.steady_start config duration).reaches hrun).1
  have hle := (hsteady.reaches hlater).2
  refine ⟨hle.controller, hle.node, ?_⟩
  intro nodeID epoch hreject haccept
  have hlt := hreject.lt
  have hnode := hle.node nodeID
  have haccept := haccept.le
  omega

/-- A node joins and fetches the topology. -/
def sampleFetch : List (FleetAction Unit) :=
  [.renew "a" 0 .sendHeartbeat, .renew "a" 0 .heartbeatHandled, .renew "a" 0 .receiveReply,
    .renew "a" 0 .topologyHandled, .renew "a" 0 .updateTopology, .renew "a" 0 .extendLease]

/-- A node joins, and a `Rebalance` has published its result. -/
def sampleJoined : List (FleetAction Unit) :=
  [.plane (.registerNode "a" "a"), .plane (.commit 0), .plane (.appendMessage () 1),
    .plane (.controller () (.rebalance ["a"])),
    .plane (.controller () (.rebalanceShards 0 (List.range 10)))]

/-- The result of the `Rebalance` is applied before the next change. -/
theorem epochs_never_fall_oneByOne :
    ∃ f f' : Fleet Unit,
      Reaches (Fleet.step fun _ ↦ ()) Fleet.InStep (.start (.newClusterConfig 10) 40) f ∧
      Reaches (Fleet.step fun _ ↦ ()) Fleet.InStep f f' ∧
      (f.nodes "a").accept 1 (some (.put ⟨"k", "v", 1⟩)) = .error DataNode.staleClient ∧
      (f'.nodes "a").config.epoch = 3 ∧ ¬ (f'.nodes "a").AcceptsEpoch 1 := by
  obtain ⟨f, hrun, hstale, hrest⟩ :
      ∃ f : Fleet Unit,
        Reaches (Fleet.step fun _ ↦ ()) Fleet.InStep (.start (.newClusterConfig 10) 40) f ∧
        (f.nodes "a").accept 1 (some (.put ⟨"k", "v", 1⟩)) = .error DataNode.staleClient ∧
        (exec (Fleet.step fun _ ↦ ()) Fleet.InStep f
          ([.plane (.controller () (.broadcast 0 true)), .plane (.commit 0),
            .plane (.appendMessage () 2),
            .plane (.controller () (.handleNodeFailure "b"))] ++ sampleFetch)).any
          (fun f' ↦ (f'.nodes "a").config.epoch = 3) = true :=
    exists_reaches_of_exec (sampleJoined ++ sampleFetch) (by decide +kernel)
  obtain ⟨f', hlater, hepoch⟩ := exists_reaches_of_exec _ hrest
  refine ⟨f, f', hrun, hlater, hstale, hepoch, ?_⟩
  exact (epochs_never_fall hrun hlater).2.2 "a" 1 (Or.inl ⟨1, _, rfl, hstale⟩)

/-- Two failures are handled while the result of a `Rebalance` waits to be applied.  The epoch of
the controller falls from 4 to 2 between its answers to a node; the node's falls from 3 to 2, and it
accepts what it has rejected. -/
theorem epochs_fall :
    ∃ f f' : Fleet Unit,
      Reachable (Fleet.step fun _ ↦ ()) (.start (.newClusterConfig 10) 40) f ∧
      Reachable (Fleet.step fun _ ↦ ()) f f' ∧
      (f'.plane.config ()).epoch < (f.plane.config ()).epoch ∧
      (f'.nodes "a").config.epoch < (f.nodes "a").config.epoch ∧
      (f.nodes "a").accept 1 (some (.put ⟨"k", "v", 2⟩)) = .error DataNode.staleClient ∧
      (f'.nodes "a").accept 1 (some (.put ⟨"k", "v", 2⟩)) = .ok (.put ⟨"k", "v", 2⟩) := by
  obtain ⟨f, hrun, hrest⟩ :
      ∃ f : Fleet Unit, Reachable (Fleet.step fun _ ↦ ()) (.start (.newClusterConfig 10) 40) f ∧
        (exec (Fleet.step fun _ ↦ ()) (fun _ _ ↦ True) f
          [.plane (.controller () (.handleNodeFailure "c")), .renew "a" 0 .sendHeartbeat,
            .renew "a" 0 .heartbeatHandled, .renew "a" 0 .receiveReply,
            .plane (.controller () (.broadcast 0 true)), .plane (.commit 0),
            .plane (.appendMessage () 2), .renew "a" 0 .topologyHandled,
            .renew "a" 0 .updateTopology]).any (fun f' ↦
          (f'.plane.config ()).epoch < (f.plane.config ()).epoch ∧
          (f'.nodes "a").config.epoch < (f.nodes "a").config.epoch ∧
          (f.nodes "a").accept 1 (some (.put ⟨"k", "v", 2⟩)) = .error DataNode.staleClient ∧
          (f'.nodes "a").accept 1 (some (.put ⟨"k", "v", 2⟩)) = .ok (.put ⟨"k", "v", 2⟩)) =
            true :=
    exists_reaches_of_exec
      (sampleJoined ++ [.plane (.controller () (.handleNodeFailure "b"))] ++ sampleFetch)
      (by decide +kernel)
  obtain ⟨f', hlater, hfall⟩ := exists_reaches_of_exec _ hrest
  exact ⟨f, f', hrun, hlater, hfall⟩

end DistributedCache
