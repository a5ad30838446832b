import DistributedCache.Controller.Plane
import Mathlib.Data.Finset.Insert
import Mathlib.Order.Nat

/-!
# What an overtaken configuration takes away

`applyUpdateTopology` and `RestoreFromSnapshot` install a configuration without looking at the one
they replace.  A gauge is something that every other change can only raise: the epoch, or the set of
registered nodes.  A configuration that was computed before such a change and is installed after it
lowers the gauge again.  The gauge never falls in a run in which no controller moves past a
configuration that is still on its way to it.
-/

namespace DistributedCache

open FiniteMap Transition

/-- A quantity that can be read off a configuration, with what becomes of it when the controller
changes the configuration. -/
structure Gauge (V : Type) [Preorder V] where
  read : ClusterConfig → V
  /-- After a change of the shards. -/
  changed : V → V
  /-- After the registration of a new node. -/
  registered : String → V → V
  le_changed : ∀ v, v ≤ changed v
  le_registered : ∀ nodeID v, v ≤ registered nodeID v
  read_rebalance : ∀ config nodeID,
    read (ClusterConfig.rebalance config nodeID) = changed (read config)
  read_modifyShard : ∀ config k f,
    read (ClusterConfig.modifyShard config k f) = changed (read config)
  read_rebalanceShards : ∀ current config activeNodes order,
    read (ClusterConfig.rebalanceShards current config activeNodes order).1 =
      changed (read current)
  read_register : ∀ config nodeID address now, nodeID ∉ config.nodes →
    read (ClusterConfig.applyRegisterNode config nodeID address now) =
      registered nodeID (read config)

def epochGauge : Gauge Nat where
  read := ClusterConfig.epoch
  changed := (· + 1)
  registered := fun _ epoch ↦ epoch + 1
  le_changed := Nat.le_succ
  le_registered := fun _ ↦ Nat.le_succ
  read_rebalance := fun _ _ ↦ rfl
  read_modifyShard := fun _ _ _ ↦ rfl
  read_rebalanceShards := fun _ _ _ _ ↦ rfl
  read_register := by
    intro config nodeID address now hnew
    unfold ClusterConfig.applyRegisterNode
    rw [if_neg hnew]

def nodesGauge : Gauge (Finset String) where
  read := fun config ↦ config.nodes.keys
  changed := id
  registered := fun nodeID nodes ↦ insert nodeID nodes
  le_changed := fun _ ↦ le_refl _
  le_registered := fun _ _ ↦ Finset.subset_insert _ _
  read_rebalance := ClusterConfig.keys_rebalance
  read_modifyShard := fun _ _ _ ↦ rfl
  read_rebalanceShards := fun _ _ _ _ ↦ rfl
  read_register := by
    intro config nodeID address now hnew
    ext id
    rw [Finmap.mem_keys, mem_applyRegisterNode, Finset.mem_insert, Finmap.mem_keys]

/-! ## Steps that keep up -/

variable {ι : Type} [DecidableEq ι] {V : Type} [Preorder V]

/-- The actions that change the shards of the local configuration. -/
def ControllerAction.changesShards : ControllerAction → Bool
  | .handleNodeFailure _ | .rebalanceShards _ _ | .lockShard _ | .cutOver _ => true
  | _ => false

/-- `Rebalance` computes a configuration for everyone. -/
def ControllerAction.computesConfig : ControllerAction → Bool
  | .rebalanceShards _ _ => true
  | _ => false

namespace Gauge

variable (g : Gauge V)

/-- The condition on a command that controller `i` applies. -/
def CommandInStep (s : ControlPlane ι) (i : ι) : Command → Prop
  | .registerNode nodeID _ => nodeID ∉ (s.config i).nodes → (s.advance i).Pending i
      fun config ↦ g.registered nodeID (g.read (s.config i)) ≤ g.read config
  | .updateTopology new => (s.advance i).Pending i fun config ↦ g.read new ≤ g.read config
  | .noOp => True

/-- The condition under which the gauge never falls.  A step that raises it on a controller is taken
only when every configuration on its way to that controller has it as high; and a configuration is
computed or captured only when it has the gauge as high as every controller that will install it. -/
def InStep (s : ControlPlane ι) : PlaneAction ι → Prop
  | .controller i a =>
    (a.changesShards = true → ¬ g.changed (g.read (s.config i)) ≤ g.read (s.config i) →
      s.Pending i fun config ↦ g.changed (g.read (s.config i)) ≤ g.read config) ∧
    (a.computesConfig = true → ∀ j, g.read (s.config j) ≤ g.changed (g.read (s.config i)))
  | .appendMessage i _ => ∀ command ∈ s.log[s.applied i]?, g.CommandInStep s i command
  | .getSnapshot i receiver => g.read (s.config receiver) ≤ g.read (s.config i)
  | .restoreFromSnapshot k => ∀ t ∈ s.snapshots[k]?,
    ({ s with snapshots := s.snapshots.eraseIdx k } : ControlPlane ι).Pending t.receiver
      fun config ↦ g.read t.config ≤ g.read config
  | _ => True

section Decidable

variable [Fintype ι] [DecidableLE V]

instance (s : ControlPlane ι) (i : ι) (command : Command) :
    Decidable (g.CommandInStep s i command) :=
  match command with
  | .registerNode _ _ => inferInstanceAs (Decidable (_ → _))
  | .updateTopology _ => inferInstanceAs (Decidable (ControlPlane.Pending _ _ _))
  | .noOp => isTrue trivial

instance (s : ControlPlane ι) (a : PlaneAction ι) : Decidable (g.InStep s a) :=
  match a with
  | .controller _ _ => inferInstanceAs (Decidable (_ ∧ _))
  | .appendMessage _ _ | .restoreFromSnapshot _ => inferInstanceAs (Decidable (∀ x ∈ _, _))
  | .getSnapshot _ _ => inferInstanceAs (Decidable (_ ≤ _))
  | .registerNode _ _ | .noOp | .commit _ | .lose _ => isTrue trivial

end Decidable

/-- No controller is ahead of a configuration on its way to it. -/
def Behind (s : ControlPlane ι) : Prop :=
  ∀ j, s.Pending j fun config ↦ g.read (s.config j) ≤ g.read config

variable {g} {s s' : ControlPlane ι} {c : Controller} {i : ι}

omit [DecidableEq ι] in
theorem behind_start (config : ClusterConfig) : g.Behind (.start config : ControlPlane ι) :=
  fun _ ↦ ⟨by simp [ControlPlane.start], by simp [ControlPlane.start],
    by simp [ControlPlane.start], by simp [ControlPlane.start]⟩

/-- What a step of a controller does to the gauge. -/
theorem read_controller {c' : Controller} {a : ControllerAction} (h : c.step a = some c') :
    (a.changesShards = true ∧ g.read c'.config = g.changed (g.read c.config)) ∨
      (a.computesConfig = false ∧ c'.config = c.config) := by
  cases Controller.step_cases h with
  | failure nodeID => exact Or.inl ⟨rfl, g.read_rebalance _ _⟩
  | write => exact Or.inl ⟨rfl, g.read_rebalanceShards _ _ _ _⟩
  | @lock i m | @cutOver i m =>
    left
    refine ⟨rfl, ?_⟩
    rw [Controller.resume_config, Controller.publish_config]
    exact g.read_modifyShard c.config m.shardID _
  | nothingToDo | read | moveRefused | moveBegun => exact Or.inr ⟨rfl, rfl⟩
  | broadcast | exported | imported | pullFailed => exact Or.inr ⟨rfl, Controller.resume_config _⟩

/-- Installing a configuration that was on its way raises the gauge of one controller to that of
the configuration; the rest is as before. -/
theorem behind_install {v : V} (hread : g.read c.config = v) (hraise : g.read (s.config i) ≤ v)
    (hpending : ∀ j, s'.Pending j fun config ↦ g.read (s.config j) ≤ g.read config)
    (hself : s'.Pending i fun config ↦ v ≤ g.read config)
    (hcontrollers : s'.controllers = Function.update s.controllers i c) :
    g.Behind s' ∧ ∀ j, g.read (s.config j) ≤ g.read (s'.config j) := by
  have hi : g.read (s'.config i) = v := by
    unfold ControlPlane.config
    rw [hcontrollers, Function.update_self, hread]
  have hne : ∀ j, j ≠ i → s'.config j = s.config j := by
    intro j hj
    unfold ControlPlane.config
    rw [hcontrollers, Function.update_of_ne hj]
  constructor
  · intro j
    by_cases hj : j = i
    · subst hj
      rw [hi]
      exact hself
    · rw [hne j hj]
      exact hpending j
  · intro j
    by_cases hj : j = i
    · subst hj
      rw [hi]
      exact hraise
    · rw [hne j hj]

theorem Behind.controller (h : g.Behind s) {a : ControllerAction}
    (hok : g.InStep s (.controller i a)) (hstep : (s.controllers i).step a = some c) :
    let s' : ControlPlane ι := { s.setController i c with
      proposals := s.proposals ++ ((s.controllers i).proposal a).toList }
    g.Behind s' ∧ ∀ j, g.read (s.config j) ≤ g.read (s'.config j) := by
  intro s'
  rcases read_controller (g := g) hstep with ⟨hchanges, hread⟩ | ⟨hnew, hsame⟩
  · have hraise : g.read (s.config i) ≤ g.changed (g.read (s.config i)) := g.le_changed _
    refine behind_install hread hraise ?_ ?_ rfl
    · intro j
      apply (h j).controller hstep
      rintro k order rfl
      rw [hread]
      exact hok.2 rfl j
    · have hpending : s.Pending i fun config ↦ g.changed (g.read (s.config i)) ≤ g.read config := by
        by_cases hle : g.changed (g.read (s.config i)) ≤ g.read (s.config i)
        · exact (h i).mono fun config hconfig ↦ le_trans hle hconfig
        · exact hok.1 hchanges hle
      apply hpending.controller hstep
      rintro k order rfl
      rw [hread]
      exact le_refl _
  · have hquiet : ∀ k order, a ≠ .rebalanceShards k order := by
      rintro k order rfl
      cases hnew
    have hread : g.read c.config = g.read (s.config i) := by
      rw [hsame]
      rfl
    refine behind_install hread (le_refl _) ?_ ?_ rfl
    · intro j
      exact (h j).controller hstep fun k order ha ↦ absurd ha (hquiet k order)
    · exact (h i).controller hstep fun k order ha ↦ absurd ha (hquiet k order)

theorem Behind.appendMessage (h : g.Behind s) {now : Nat} {command : Command}
    (hok : g.InStep s (.appendMessage i now)) (hcommand : s.log[s.applied i]? = some command) :
    let s' := (s.advance i).setController i ((s.controllers i).appendMessage now command)
    g.Behind s' ∧ ∀ j, g.read (s.config j) ≤ g.read (s'.config j) := by
  intro s'
  have hok := hok command hcommand
  have hkeep : ∀ (config : ClusterConfig) {P : ClusterConfig → Prop} (j : ι),
      (s.advance i).Pending j P →
      ((s.advance i).setController i ((s.controllers i).publish config)).Pending j P :=
    fun config _ _ hP ↦ hP.publish i config
  cases command with
  | noOp =>
    refine behind_install (c := s.controllers i) rfl (le_refl _) ?_ ?_ rfl
    · intro j
      exact hkeep (s.controllers i).config j ((h j).advance i)
    · exact hkeep (s.controllers i).config i ((h i).advance i)
  | updateTopology new =>
    have hraise : g.read (s.config i) ≤ g.read new := by
      apply (h i).committed (.updateTopology new) _ new rfl
      exact List.mem_of_getElem? (i := 0) (List.getElem?_drop.trans hcommand)
    refine behind_install (v := g.read new) rfl hraise ?_ (hkeep _ i hok) rfl
    intro j
    exact hkeep _ j ((h j).advance i)
  | registerNode nodeID address =>
    by_cases hnew : nodeID ∈ (s.config i).nodes
    · have hsame : (s.config i).applyRegisterNode nodeID address now = s.config i := if_pos hnew
      refine behind_install (v := g.read (s.config i)) (congrArg g.read hsame) (le_refl _) ?_
        (hkeep _ i ((h i).advance i)) rfl
      intro j
      exact hkeep _ j ((h j).advance i)
    · refine behind_install (g.read_register _ _ _ _ hnew) (g.le_registered _ _) ?_
        (hkeep _ i (hok hnew)) rfl
      intro j
      exact hkeep _ j ((h j).advance i)

theorem Behind.getSnapshot (h : g.Behind s) {receiver : ι}
    (hok : g.InStep s (.getSnapshot i receiver)) :
    g.Behind { s with snapshots := s.snapshots ++ [⟨receiver, s.applied i, s.config i⟩] } := by
  intro j
  refine ⟨(h j).task, (h j).proposal, (h j).committed, ?_⟩
  intro t ht hj
  rcases List.mem_append.mp ht with ht | ht
  · exact (h j).snapshot t ht hj
  · rw [List.mem_singleton.mp ht] at hj ⊢
    subst hj
    exact hok

theorem Behind.restoreFromSnapshot (h : g.Behind s) {k : Nat} {t : SentSnapshot ι}
    (hok : g.InStep s (.restoreFromSnapshot k)) (hk : s.snapshots[k]? = some t) :
    let s' : ControlPlane ι :=
      { s.setController t.receiver ((s.controllers t.receiver).publish t.config) with
        applied := Function.update s.applied t.receiver (max (s.applied t.receiver) t.index)
        snapshots := s.snapshots.eraseIdx k }
    g.Behind s' ∧ ∀ j, g.read (s.config j) ≤ g.read (s'.config j) := by
  intro s'
  have hraise : g.read (s.config t.receiver) ≤ g.read t.config :=
    (h t.receiver).snapshot t (List.mem_of_getElem? hk) rfl
  refine behind_install (v := g.read t.config) rfl hraise ?_ ((hok t hk).restoreFromSnapshot t) rfl
  intro j
  exact ((h j).received k).restoreFromSnapshot t

/-- One step: the gauge falls nowhere, and no controller gets ahead. -/
theorem Behind.step (h : g.Behind s) {a : PlaneAction ι} (hok : g.InStep s a)
    (hstep : s.step a = some s') :
    g.Behind s' ∧ ∀ j, g.read (s.config j) ≤ g.read (s'.config j) := by
  cases a with
  | controller i a =>
    obtain ⟨c, hc, rfl⟩ := Option.map_eq_some_iff.mp hstep
    exact h.controller hok hc
  | registerNode | noOp =>
    cases hstep
    exact ⟨fun j ↦ (h j).propose rfl, fun j ↦ le_refl _⟩
  | commit k =>
    obtain ⟨command, hk, rfl⟩ := Option.map_eq_some_iff.mp hstep
    exact ⟨fun j ↦ (h j).commit hk, fun j ↦ le_refl _⟩
  | lose k =>
    cases hstep
    exact ⟨fun j ↦ (h j).lose k, fun j ↦ le_refl _⟩
  | appendMessage i now =>
    obtain ⟨command, hcommand, rfl⟩ := Option.map_eq_some_iff.mp hstep
    exact h.appendMessage hok hcommand
  | getSnapshot i receiver =>
    cases hstep
    exact ⟨h.getSnapshot hok, fun j ↦ le_refl _⟩
  | restoreFromSnapshot k =>
    obtain ⟨t, hk, rfl⟩ := Option.map_eq_some_iff.mp hstep
    exact h.restoreFromSnapshot hok hk

/-- Along a whole run. -/
theorem Behind.reaches (h : g.Behind s) (hrun : Reaches ControlPlane.step g.InStep s s') :
    g.Behind s' ∧ ∀ j, g.read (s.config j) ≤ g.read (s'.config j) := by
  refine Reaches.invariant
    (fun t ↦ g.Behind t ∧ ∀ j, g.read (s.config j) ≤ g.read (t.config j)) ?_ ?_ hrun
  · exact ⟨h, fun j ↦ le_refl _⟩
  · intro t a t' _ hinv hok hstep
    obtain ⟨hbehind, hle⟩ := hinv.1.step hok hstep
    exact ⟨hbehind, fun j ↦ le_trans (hinv.2 j) (hle j)⟩

end Gauge

end DistributedCache
