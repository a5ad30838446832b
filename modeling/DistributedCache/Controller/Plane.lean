import DistributedCache.Controller.Controller
import DistributedCache.Lib.Transition
import Mathlib.Data.Fintype.Basic
import Mathlib.Tactic.MkIffOfInductiveProp

/-!
# The control plane

Any number of controllers over one Raft log.  What Raft does is an assumption here: the commands it
commits are applied by every controller in the order of the log.  A command that was given to Raft
is committed some time later or never, whatever `BroadcastSync` has returned by then.  A snapshot is
the configuration of one controller at one moment, restored by another later.
-/

namespace DistributedCache

open FiniteMap Transition

variable {ι : Type} [DecidableEq ι]

/-- A snapshot on its way to a controller. -/
structure SentSnapshot (ι : Type) where
  receiver : ι
  /-- The number of commands that its sender had applied. -/
  index : Nat
  config : ClusterConfig

structure ControlPlane (ι : Type) where
  controllers : ι → Controller
  /-- How many commands of the log a controller has applied. -/
  applied : ι → Nat
  log : List Command
  /-- Commands given to Raft that are not committed yet. -/
  proposals : List Command
  snapshots : List (SentSnapshot ι)

inductive PlaneAction (ι : Type) where
  | controller (i : ι) (a : ControllerAction)
  /-- `RegisterNode` gives its command to Raft. -/
  | registerNode (nodeID address : String)
  | noOp
  | commit (k : Nat)
  | lose (k : Nat)
  /-- The next command reaches `AppendMessage` of controller `i`. -/
  | appendMessage (i : ι) (now : Nat)
  | getSnapshot (i receiver : ι)
  | restoreFromSnapshot (k : Nat)
  deriving DecidableEq

namespace ControlPlane

def config (s : ControlPlane ι) (i : ι) : ClusterConfig := (s.controllers i).config

def setController (s : ControlPlane ι) (i : ι) (c : Controller) : ControlPlane ι :=
  { s with controllers := Function.update s.controllers i c }

/-- Controller `i` has taken the next command off the log. -/
def advance (s : ControlPlane ι) (i : ι) : ControlPlane ι :=
  { s with applied := Function.update s.applied i (s.applied i + 1) }

def step (s : ControlPlane ι) : PlaneAction ι → Option (ControlPlane ι)
  | .controller i a => ((s.controllers i).step a).map fun c ↦
      { s.setController i c with
        proposals := s.proposals ++ ((s.controllers i).proposal a).toList }
  | .registerNode nodeID address =>
    some { s with proposals := s.proposals ++ [.registerNode nodeID address] }
  | .noOp => some { s with proposals := s.proposals ++ [.noOp] }
  | .commit k => s.proposals[k]?.map fun command ↦
      { s with log := s.log ++ [command], proposals := s.proposals.eraseIdx k }
  | .lose k => some { s with proposals := s.proposals.eraseIdx k }
  | .appendMessage i now => s.log[s.applied i]?.map fun command ↦
      (s.advance i).setController i ((s.controllers i).appendMessage now command)
  | .getSnapshot i receiver =>
    some { s with snapshots := s.snapshots ++ [⟨receiver, s.applied i, s.config i⟩] }
  | .restoreFromSnapshot k => s.snapshots[k]?.map fun t ↦
      { s.setController t.receiver ((s.controllers t.receiver).publish t.config) with
        applied :=
          Function.update s.applied t.receiver (max (s.applied t.receiver) t.index)
        snapshots := s.snapshots.eraseIdx k }

/-- All controllers begin with one configuration. -/
def start (config : ClusterConfig) : ControlPlane ι where
  controllers := fun _ ↦ ⟨config, []⟩
  applied := fun _ ↦ 0
  log := []
  proposals := []
  snapshots := []

@[simp] theorem config_setController_self (s : ControlPlane ι) (i : ι) (c : Controller) :
    (s.setController i c).config i = c.config := by
  unfold config setController
  exact congrArg Controller.config (Function.update_self i c s.controllers)

theorem config_setController_of_ne (s : ControlPlane ι) {i j : ι} (h : j ≠ i) (c : Controller) :
    (s.setController i c).config j = s.config j := by
  unfold config setController
  exact congrArg Controller.config (Function.update_of_ne h c s.controllers)

/-! ## Configurations on their way to a controller -/

/-- Every configuration that controller `j` may still install has the property: those that wait to
be broadcast, those in commands that it has not applied, and those in snapshots for it. -/
@[mk_iff]
structure Pending (s : ControlPlane ι) (j : ι) (P : ClusterConfig → Prop) : Prop where
  task : ∀ i, ∀ task ∈ (s.controllers i).tasks, ∀ config ∈ task.broadcasting, P config
  proposal : ∀ command ∈ s.proposals, ∀ config ∈ command.topology, P config
  committed : ∀ command ∈ s.log.drop (s.applied j), ∀ config ∈ command.topology, P config
  snapshot : ∀ t ∈ s.snapshots, t.receiver = j → P t.config

instance [Fintype ι] (s : ControlPlane ι) (j : ι) (P : ClusterConfig → Prop) [DecidablePred P] :
    Decidable (s.Pending j P) :=
  decidable_of_iff' _ (pending_iff s j P)

variable {s s' : ControlPlane ι} {j : ι} {P : ClusterConfig → Prop}

omit [DecidableEq ι] in
theorem Pending.mono {Q : ClusterConfig → Prop} (h : s.Pending j P)
    (hle : ∀ config, P config → Q config) : s.Pending j Q where
  task i task htask config hconfig := hle config (h.task i task htask config hconfig)
  proposal command hcommand config hconfig :=
    hle config (h.proposal command hcommand config hconfig)
  committed command hcommand config hconfig :=
    hle config (h.committed command hcommand config hconfig)
  snapshot t ht hj := hle t.config (h.snapshot t ht hj)

/-- A step of a controller puts a configuration on its way only when it is the writing region of a
`Rebalance`. -/
theorem Pending.controller {i : ι} {a : ControllerAction} {c : Controller}
    (h : s.Pending j P) (hstep : (s.controllers i).step a = some c)
    (hnew : ∀ k order, a = .rebalanceShards k order → P c.config) :
    ({ s.setController i c with
      proposals := s.proposals ++ ((s.controllers i).proposal a).toList } :
        ControlPlane ι).Pending j P := by
  refine ⟨?_, ?_, h.committed, h.snapshot⟩
  · intro i' task htask config hconfig
    by_cases hi : i' = i
    · subst hi
      change task ∈ (Function.update s.controllers i' c i').tasks at htask
      rw [Function.update_self] at htask
      rcases Controller.broadcasting_step hstep htask hconfig with
        ⟨old, hold, hsame⟩ | ⟨⟨k, order, hwrite⟩, rfl⟩
      · exact h.task i' old hold config hsame
      · exact hnew k order hwrite
    · change task ∈ (Function.update s.controllers i c i').tasks at htask
      rw [Function.update_of_ne hi] at htask
      exact h.task i' task htask config hconfig
  · intro command hcommand config hconfig
    rcases List.mem_append.mp hcommand with hcommand | hcommand
    · exact h.proposal command hcommand config hconfig
    · obtain ⟨task, htask, hwaits⟩ :=
        Controller.broadcasting_proposal (Option.mem_toList.mp hcommand) hconfig
      exact h.task i task htask config hwaits

omit [DecidableEq ι] in
theorem Pending.propose (h : s.Pending j P) {command : Command} (hnone : command.topology = none) :
    ({ s with proposals := s.proposals ++ [command] } : ControlPlane ι).Pending j P := by
  refine ⟨h.task, ?_, h.committed, h.snapshot⟩
  intro command' hcommand config hconfig
  rcases List.mem_append.mp hcommand with hcommand | hcommand
  · exact h.proposal command' hcommand config hconfig
  · rw [List.mem_singleton.mp hcommand, hnone] at hconfig
    cases hconfig

omit [DecidableEq ι] in
theorem Pending.commit (h : s.Pending j P) {k : Nat} {command : Command}
    (hk : s.proposals[k]? = some command) :
    ({ s with log := s.log ++ [command], proposals := s.proposals.eraseIdx k } :
      ControlPlane ι).Pending j P := by
  refine ⟨h.task, ?_, ?_, h.snapshot⟩
  · intro command' hcommand
    exact h.proposal command' (List.mem_of_mem_eraseIdx hcommand)
  · intro command' hcommand
    have hor : command' ∈ s.log.drop (s.applied j) ∨ command' = command := by
      change command' ∈ (s.log ++ [command]).drop (s.applied j) at hcommand
      rw [List.drop_append] at hcommand
      rcases List.mem_append.mp hcommand with hcommand | hcommand
      · exact Or.inl hcommand
      · exact Or.inr (List.mem_singleton.mp (List.mem_of_mem_drop hcommand))
    rcases hor with hcommand | rfl
    · exact h.committed command' hcommand
    · exact h.proposal command' (List.mem_of_getElem? hk)

omit [DecidableEq ι] in
theorem Pending.lose (h : s.Pending j P) (k : Nat) :
    ({ s with proposals := s.proposals.eraseIdx k } : ControlPlane ι).Pending j P :=
  ⟨h.task, fun command hcommand ↦ h.proposal command (List.mem_of_mem_eraseIdx hcommand),
    h.committed, h.snapshot⟩

theorem Pending.advance (h : s.Pending j P) (i : ι) : (s.advance i).Pending j P := by
  refine ⟨h.task, h.proposal, ?_, h.snapshot⟩
  intro command hcommand
  apply h.committed command
  by_cases hj : j = i
  · subst hj
    change command ∈ s.log.drop (Function.update s.applied j (s.applied j + 1) j) at hcommand
    rw [Function.update_self] at hcommand
    exact List.drop_subset_drop_left _ (Nat.le_succ _) hcommand
  · change command ∈ s.log.drop (Function.update s.applied i (s.applied i + 1) j) at hcommand
    rwa [Function.update_of_ne hj] at hcommand

/-- Publishing a configuration puts nothing on its way. -/
theorem Pending.publish (h : s.Pending j P) (i : ι) (config : ClusterConfig) :
    (s.setController i ((s.controllers i).publish config)).Pending j P := by
  refine ⟨?_, h.proposal, h.committed, h.snapshot⟩
  intro i' task htask
  apply h.task i' task
  by_cases hi : i' = i
  · subst hi
    change task ∈ (Function.update s.controllers i' _ i').tasks at htask
    rwa [Function.update_self] at htask
  · change task ∈ (Function.update s.controllers i _ i').tasks at htask
    rwa [Function.update_of_ne hi] at htask

omit [DecidableEq ι] in
theorem Pending.received (h : s.Pending j P) (k : Nat) :
    ({ s with snapshots := s.snapshots.eraseIdx k } : ControlPlane ι).Pending j P :=
  ⟨h.task, h.proposal, h.committed, fun t ht ↦ h.snapshot t (List.mem_of_mem_eraseIdx ht)⟩

/-- The receiver of a snapshot has at least as many commands behind it as before. -/
theorem Pending.restoreFromSnapshot {k : Nat}
    (h : ({ s with snapshots := s.snapshots.eraseIdx k } : ControlPlane ι).Pending j P)
    (t : SentSnapshot ι) :
    ({ s.setController t.receiver ((s.controllers t.receiver).publish t.config) with
        applied := Function.update s.applied t.receiver (max (s.applied t.receiver) t.index)
        snapshots := s.snapshots.eraseIdx k } : ControlPlane ι).Pending j P := by
  have hpublish := h.publish t.receiver t.config
  refine ⟨hpublish.task, hpublish.proposal, ?_, hpublish.snapshot⟩
  intro command hcommand
  apply hpublish.committed command
  refine List.drop_subset_drop_left _ ?_ hcommand
  change s.applied j ≤ Function.update s.applied t.receiver _ j
  by_cases hj : j = t.receiver
  · subst hj
    rw [Function.update_self]
    exact Nat.le_max_left _ _
  · rw [Function.update_of_ne hj]

end ControlPlane

end DistributedCache
