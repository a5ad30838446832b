import DistributedCache.DataNode.Node
import DistributedCache.Lib.Transition

/-!
# Leases against the reaper

The controller counts a node's grace period from the moment it handles a heartbeat; the node counts
its lease from the moment it has handled the reply, and after it has fetched the topology.  All
clocks are one discrete clock.  A lease that ends within the grace period of the last heartbeat the
controller handled has run out by the time the node is declared dead; a slow reply makes it last
longer.
-/

namespace DistributedCache

open FiniteMap Transition

/-! ## The reaper -/

structure Reaper where
  lastSeen : Map String Nat
  gracePeriod : Nat

namespace Reaper

def track (r : Reaper) (nodeID : String) (now : Nat) : Reaper :=
  { r with lastSeen := r.lastSeen.insert nodeID now }

/-- The nodes that `checkLiveness` removes and passes to `onDeath`. -/
def overdue (r : Reaper) (now : Nat) : Finset String :=
  keysWhere (fun seen ↦ r.gracePeriod < now - seen) r.lastSeen

def checkLiveness (r : Reaper) (now : Nat) : Reaper :=
  { r with lastSeen := filterKeys (fun id ↦ id ∉ r.overdue now) r.lastSeen }

theorem lookup_checkLiveness (r : Reaper) (now : Nat) (id : String) :
    (r.checkLiveness now).lastSeen.lookup id =
      if id ∉ r.overdue now then r.lastSeen.lookup id else none := lookup_filterKeys _ _ _

end Reaper

/-! ## Nodes and a controller -/

structure Surveillance where
  clock : Nat
  reaper : Reaper
  /-- The configuration of the controller. -/
  config : ClusterConfig
  nodes : String → DataNode
  /-- The nodes that were declared dead and have not been tracked since. -/
  dead : Finset String

inductive SurveillanceAction where
  | tick
  | renew (nodeID : String) (a : RenewAction)
  | checkLiveness
  | configure (config : ClusterConfig)
  deriving DecidableEq

namespace Surveillance

/-- A heartbeat that the controller handles is tracked at once. -/
def step (s : Surveillance) : SurveillanceAction → Option Surveillance
  | .tick => some { s with clock := s.clock + 1 }
  | .renew nodeID a =>
    ((s.nodes nodeID).renew s.config s.clock a).map fun node ↦
      { s with
        nodes := Function.update s.nodes nodeID node
        reaper := if a = .heartbeatHandled then s.reaper.track nodeID s.clock else s.reaper
        dead := if a = .heartbeatHandled then s.dead.erase nodeID else s.dead }
  | .checkLiveness =>
    some { s with
      reaper := s.reaper.checkLiveness s.clock
      dead := s.dead ∪ s.reaper.overdue s.clock }
  | .configure config => some { s with config := config }

def start (duration gracePeriod : Nat) (config : ClusterConfig) : Surveillance where
  clock := 0
  reaper := ⟨∅, gracePeriod⟩
  config := config
  nodes := fun nodeID ↦ .newServer nodeID duration
  dead := ∅

/-- The condition under which fencing works: a renewed lease ends, give or take the tick at which
the reaper looks, within the grace period of the heartbeat that the controller saw last. -/
def EndsInGrace (s : Surveillance) : SurveillanceAction → Prop
  | .renew nodeID a => a = .extendLease → ∃ seen ∈ s.reaper.lastSeen.lookup nodeID,
      s.clock + (s.nodes nodeID).duration ≤ seen + s.reaper.gracePeriod + 1
  | _ => True

instance (s : Surveillance) : ∀ a, Decidable (s.EndsInGrace a)
  | .renew _ _ => inferInstanceAs (Decidable (_ → ∃ seen ∈ _, _ ≤ _))
  | .tick | .checkLiveness | .configure _ => isTrue trivial

/-- How long the lease of a node may last, given what the reaper knows about the node. -/
def leaseBound (s : Surveillance) (nodeID : String) : Nat :=
  match s.reaper.lastSeen.lookup nodeID with
  | some seen => seen + s.reaper.gracePeriod + 1
  | none => s.clock

/-- No lease lasts longer than it may, the reaper has no record of dead nodes, and its records are
not from the future. -/
structure Fenced (s : Surveillance) : Prop where
  bounded : ∀ nodeID, (s.nodes nodeID).validUntil ≤ s.leaseBound nodeID
  forgotten : ∀ nodeID ∈ s.dead, s.reaper.lastSeen.lookup nodeID = none
  past : ∀ nodeID, ∀ seen ∈ s.reaper.lastSeen.lookup nodeID, seen ≤ s.clock

theorem fenced_start (duration gracePeriod : Nat) (config : ClusterConfig) :
    (start duration gracePeriod config).Fenced := by
  refine ⟨fun nodeID ↦ Nat.zero_le _, ?_, ?_⟩
  · intro nodeID hdead
    cases hdead
  · intro nodeID seen hseen
    cases hseen

variable {node : DataNode} {s : Surveillance}

/-- Only `extendLease` changes how long a lease lasts. -/
theorem renew_validUntil {node' : DataNode} {config : ClusterConfig} {now : Nat} {a : RenewAction}
    (h : node.renew config now a = some node') :
    (a = .extendLease ∧ node'.validUntil = now + node.duration) ∨
      (a ≠ .extendLease ∧ node'.validUntil = node.validUntil) := by
  cases a <;> simp only [DataNode.renew] at h <;> split at h <;> cases h <;>
    simp [DataNode.extendLease]

theorem Fenced.tick (h : s.Fenced) : Fenced { s with clock := s.clock + 1 } := by
  refine ⟨?_, h.forgotten, ?_⟩
  · intro nodeID
    have hold := h.bounded nodeID
    unfold leaseBound at hold ⊢
    cases hseen : s.reaper.lastSeen.lookup nodeID with
    | none =>
      rw [hseen] at hold
      exact Nat.le_succ_of_le hold
    | some seen =>
      rw [hseen] at hold
      exact hold
  · intro nodeID seen hseen
    exact Nat.le_succ_of_le (h.past nodeID seen hseen)

/-- A node that is declared dead was seen too long ago for its lease to be valid. -/
theorem Fenced.checkLiveness (h : s.Fenced) :
    Fenced { s with
      reaper := s.reaper.checkLiveness s.clock
      dead := s.dead ∪ s.reaper.overdue s.clock } := by
  refine ⟨?_, ?_, ?_⟩
  · intro nodeID
    have hold := h.bounded nodeID
    unfold leaseBound at hold ⊢
    rw [Reaper.lookup_checkLiveness]
    by_cases hover : nodeID ∈ s.reaper.overdue s.clock
    · rw [if_neg (not_not.mpr hover)]
      obtain ⟨seen, hseen, hlate⟩ := mem_keysWhere.mp hover
      rw [hseen] at hold
      change _ ≤ s.clock
      have hexpired : seen + s.reaper.gracePeriod + 1 ≤ s.clock := by omega
      exact Nat.le_trans hold hexpired
    · rw [if_pos hover]
      exact hold
  · intro nodeID hdead
    rw [Reaper.lookup_checkLiveness]
    rcases Finset.mem_union.mp hdead with hdead | hover
    · rw [h.forgotten nodeID hdead, ite_self]
    · rw [if_neg (not_not.mpr hover)]
  · intro nodeID seen hseen
    rw [Reaper.lookup_checkLiveness] at hseen
    split at hseen
    · exact h.past nodeID seen hseen
    · cases hseen

/-- Handling a heartbeat can only put the end of the grace period off. -/
theorem Fenced.track (h : s.Fenced) {nodeID : String}
    (hnode : node.validUntil = (s.nodes nodeID).validUntil) :
    Fenced { s with
      nodes := Function.update s.nodes nodeID node
      reaper := s.reaper.track nodeID s.clock
      dead := s.dead.erase nodeID } := by
  refine ⟨?_, ?_, ?_⟩
  · intro id
    have hold := h.bounded id
    unfold leaseBound Reaper.track at *
    by_cases hid : id = nodeID
    · subst hid
      simp only [Function.update_self, Finmap.lookup_insert]
      rw [hnode]
      cases hseen : s.reaper.lastSeen.lookup id with
      | none =>
        rw [hseen] at hold
        simp only at hold
        omega
      | some seen =>
        have hpast := h.past id seen hseen
        rw [hseen] at hold
        simp only at hold
        omega
    · simp only [Function.update_of_ne hid, Finmap.lookup_insert_of_ne _ hid]
      exact hold
  · intro id hid
    obtain ⟨hne, hdead⟩ := Finset.mem_erase.mp hid
    exact (Finmap.lookup_insert_of_ne _ hne).trans (h.forgotten id hdead)
  · intro id seen hseen
    unfold Reaper.track at hseen
    by_cases hid : id = nodeID
    · subst hid
      simp only [Finmap.lookup_insert] at hseen
      cases hseen
      exact Nat.le_refl _
    · simp only [Finmap.lookup_insert_of_ne _ hid] at hseen
      exact h.past id seen hseen

/-- The other steps of a renewal leave the reaper alone. -/
theorem Fenced.renewNode (h : s.Fenced) {nodeID : String}
    (hnode : node.validUntil ≤ s.leaseBound nodeID) :
    Fenced { s with nodes := Function.update s.nodes nodeID node } := by
  refine ⟨?_, h.forgotten, h.past⟩
  intro id
  by_cases hid : id = nodeID
  · subst hid
    change (Function.update s.nodes id node id).validUntil ≤ _
    rw [Function.update_self]
    exact hnode
  · change (Function.update s.nodes nodeID node id).validUntil ≤ _
    rw [Function.update_of_ne hid]
    exact h.bounded id

theorem Fenced.step {s' : Surveillance} {a : SurveillanceAction} (h : s.Fenced)
    (hgrace : s.EndsInGrace a) (hstep : s.step a = some s') : s'.Fenced := by
  cases a with
  | tick =>
    cases hstep
    exact h.tick
  | checkLiveness =>
    cases hstep
    exact h.checkLiveness
  | configure config =>
    cases hstep
    exact ⟨h.bounded, h.forgotten, h.past⟩
  | renew nodeID a =>
    obtain ⟨node, hnode, hs'⟩ := Option.map_eq_some_iff.mp hstep
    subst hs'
    rcases renew_validUntil hnode with ⟨rfl, hvalid⟩ | ⟨hother, hvalid⟩
    · obtain ⟨seen, hseen, hends⟩ := hgrace rfl
      apply h.renewNode
      unfold leaseBound
      rw [show s.reaper.lastSeen.lookup nodeID = some seen from hseen, hvalid]
      exact hends
    · by_cases hhandled : a = .heartbeatHandled
      · rw [if_pos hhandled, if_pos hhandled]
        exact h.track hvalid
      · rw [if_neg hhandled, if_neg hhandled]
        apply h.renewNode
        rw [hvalid]
        exact h.bounded nodeID

end Surveillance

open Surveillance

/-- As long as every renewed lease ends within the grace period, a node that was declared dead and
has not been tracked since answers every client with 503. -/
theorem dead_node_fenced {duration gracePeriod : Nat} {config : ClusterConfig}
    {s : Surveillance}
    (hrun : Reaches Surveillance.step EndsInGrace (start duration gracePeriod config) s)
    {nodeID : String} (hdead : nodeID ∈ s.dead) :
    (s.nodes nodeID).isActive s.clock = false ∧ ∀ body body' key,
      (s.nodes nodeID).handlePut s.clock body = .error DataNode.fenced ∧
      (s.nodes nodeID).handleDelete s.clock body' = .error DataNode.fenced ∧
      (s.nodes nodeID).handleGet s.clock key = DataNode.fenced := by
  have hinv : s.Fenced := Reaches.invariant Fenced (fenced_start duration gracePeriod config)
    (fun _ _ _ _ h hgrace hstep ↦ h.step hgrace hstep) hrun
  have hexpired : (s.nodes nodeID).validUntil ≤ s.clock := by
    have hbound := hinv.bounded nodeID
    unfold leaseBound at hbound
    rw [hinv.forgotten nodeID hdead] at hbound
    exact hbound
  have hinactive : (s.nodes nodeID).isActive s.clock = false := by
    unfold DataNode.isActive
    exact decide_eq_false (Nat.not_lt.mpr hexpired)
  exact ⟨hinactive, DataNode.fenced_of_not_isActive hinactive⟩

/-- A renewal whose heartbeat is handled at once and whose reply is handled `delay` ticks later. -/
def sampleRenewal (delay : Nat) : List SurveillanceAction :=
  [.renew "a" .sendHeartbeat, .renew "a" .heartbeatHandled] ++ List.replicate delay .tick ++
    [.renew "a" .receiveReply, .renew "a" .extendLease]

/-- Ticks of a tenth of a second, a grace period of five seconds and a lease of four: a node that
is not heard of again is fenced when it is declared dead. -/
theorem dead_node_fenced_quickReply :
    ∃ s, Reaches Surveillance.step EndsInGrace (start 40 50 (.newClusterConfig 10)) s ∧
      "a" ∈ s.dead ∧ (s.nodes "a").validUntil = 45 ∧
      (s.nodes "a").handleGet s.clock "k" = DataNode.fenced := by
  obtain ⟨s, hrun, hdead, hvalid⟩ :
      ∃ s, Reaches Surveillance.step EndsInGrace (start 40 50 (.newClusterConfig 10)) s ∧
        "a" ∈ s.dead ∧ (s.nodes "a").validUntil = 45 :=
    exists_reaches_of_exec (sampleRenewal 5 ++ List.replicate 46 .tick ++ [.checkLiveness])
      (by decide +kernel)
  exact ⟨s, hrun, hdead, hvalid, ((dead_node_fenced hrun hdead).2 none none "k").2.2⟩

/-- A lease as long as the grace period and a reply that takes one and a half seconds: the node is
declared dead after five seconds and serves clients until six and a half. -/
theorem dead_node_active :
    ∃ s, Reachable Surveillance.step (start 50 50 (.newClusterConfig 10)) s ∧
      "a" ∈ s.dead ∧ (s.nodes "a").isActive s.clock = true ∧
      (s.nodes "a").handlePut s.clock (some ⟨"k", "v", 0⟩) = .ok (.put ⟨"k", "v", 0⟩) :=
  exists_reaches_of_exec (sampleRenewal 15 ++ List.replicate 36 .tick ++ [.checkLiveness])
    (by decide +kernel)

end DistributedCache
