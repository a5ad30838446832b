import DistributedCache.Controller.Gauge

/-!
# Registered nodes

`Rebalance` computes a whole configuration, the nodes included, and Raft applies it later.  A node
whose registration is applied in between is gone afterwards.
-/

namespace DistributedCache

open FiniteMap Transition

variable {ι : Type} [DecidableEq ι]

/-- In a run in which no registration is applied while a configuration without the node is still on
its way to the controller, a node that was registered stays registered. -/
theorem registration_kept {config : ClusterConfig} {s s₁ s₂ : ControlPlane ι} {i : ι} {now : Nat}
    {nodeID address : String}
    (hrun : Reaches ControlPlane.step nodesGauge.InStep (.start config) s)
    (hnext : s.log[s.applied i]? = some (.registerNode nodeID address))
    (hok : nodesGauge.InStep s (.appendMessage i now))
    (hstep : s.step (.appendMessage i now) = some s₁)
    (hlater : Reaches ControlPlane.step nodesGauge.InStep s₁ s₂) :
    nodeID ∈ (s₂.config i).nodes := by
  have hbehind : nodesGauge.Behind s := ((Gauge.behind_start config).reaches hrun).1
  have hnow : nodeID ∈ (s₁.config i).nodes := by
    obtain ⟨command, hcommand, rfl⟩ := Option.map_eq_some_iff.mp hstep
    rw [hnext] at hcommand
    cases hcommand
    rw [ControlPlane.config_setController_self]
    exact mem_applyRegisterNode.mpr (Or.inl rfl)
  have hkept := ((hbehind.step hok hstep).1.reaches hlater).2 i
  exact Finmap.mem_keys.mp (hkept (Finmap.mem_keys.mpr hnow))

/-- A node joins an empty cluster, and a `Rebalance` gives it all shards. -/
def sampleFirstNode : List (PlaneAction Unit) :=
  [.registerNode "a" "a", .commit 0, .appendMessage () 1,
    .controller () (.rebalance ["a"]), .controller () (.rebalanceShards 0 (List.range 10))]

/-- The result of the `Rebalance` is applied before the next node joins. -/
theorem registration_kept_oneByOne :
    ∃ s s₁ s₂ : ControlPlane Unit,
      Reaches ControlPlane.step nodesGauge.InStep (.start (.newClusterConfig 10)) s ∧
      s.log[s.applied ()]? = some (.registerNode "b" "b") ∧
      s.step (.appendMessage () 2) = some s₁ ∧
      Reaches ControlPlane.step nodesGauge.InStep s₁ s₂ ∧ s₂.applied () = 4 ∧
      "b" ∈ (s₂.config ()).nodes := by
  obtain ⟨s, s₁, hrun, hnext, hok, hstep, hrest⟩ :
      ∃ s s₁, Reaches ControlPlane.step nodesGauge.InStep (.start (.newClusterConfig 10)) s ∧
        s.log[s.applied ()]? = some (.registerNode "b" "b") ∧
        nodesGauge.InStep s (.appendMessage () 2) ∧ s.step (.appendMessage () 2) = some s₁ ∧
        (exec ControlPlane.step nodesGauge.InStep s₁
          [.controller () (.rebalance ["a", "b"]),
            .controller () (.rebalanceShards 0 (List.range 10)),
            .controller () (.broadcast 0 true), .commit 0, .appendMessage () 3]).any
          (fun s₂ ↦ s₂.applied () = 4) = true :=
    exists_step_of_exec (sampleFirstNode ++
      [.controller () (.broadcast 0 true), .commit 0, .appendMessage () 1,
        .registerNode "b" "b", .commit 0]) _ (by decide +kernel)
  obtain ⟨s₂, hlater, happlied⟩ := exists_reaches_of_exec _ hrest
  exact ⟨s, s₁, s₂, hrun, hnext, hstep, hlater, happlied,
    registration_kept hrun hnext hok hstep hlater⟩

/-- The second node is registered while the result of the `Rebalance` waits to be applied. -/
theorem registration_lost :
    ∃ s s₁ s₂ : ControlPlane Unit,
      Reachable ControlPlane.step (.start (.newClusterConfig 10)) s ∧
      s.log[s.applied ()]? = some (.registerNode "b" "b") ∧
      s.step (.appendMessage () 2) = some s₁ ∧ "b" ∈ (s₁.config ()).nodes ∧
      Reachable ControlPlane.step s₁ s₂ ∧ "b" ∉ (s₂.config ()).nodes := by
  obtain ⟨s, s₁, hrun, hnext, -, hstep, hmem, hrest⟩ :
      ∃ s s₁, Reachable ControlPlane.step (.start (.newClusterConfig 10)) s ∧
        s.log[s.applied ()]? = some (.registerNode "b" "b") ∧ True ∧
        s.step (.appendMessage () 2) = some s₁ ∧ "b" ∈ (s₁.config ()).nodes ∧
        (exec ControlPlane.step (fun _ _ ↦ True) s₁ [.appendMessage () 3]).any
          (fun s₂ ↦ "b" ∉ (s₂.config ()).nodes) = true :=
    exists_step_of_exec (sampleFirstNode ++
      [.registerNode "b" "b", .commit 0, .controller () (.broadcast 0 true), .commit 0]) _
      (by decide +kernel)
  obtain ⟨s₂, hlater, hlost⟩ := exists_reaches_of_exec _ hrest
  exact ⟨s, s₁, s₂, hrun, hnext, hstep, hmem, hlater, hlost⟩

end DistributedCache
