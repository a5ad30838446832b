import DistributedCache.Cluster.Placement

/-!
# Pulls, writes and promotions in order

A replica is listed before it has pulled anything, a primary sends its writes to the replicas of the
configuration it has fetched last, and a pull may be overtaken by a write.  The code orders none of
this.  This module states an order that it would have to keep.
-/

namespace DistributedCache

open FiniteMap Transition

/-! ## Copies that tasks carry -/

namespace Task

/-- The task has taken a copy of the shard, and the node that gets it does not count as a holder
yet. -/
def CarriesCopy (shardID : Nat) (task : Task) : Prop :=
  (∃ p ∈ task.pull, p.shardID = shardID ∧ p.data ≠ none) ∨
    ∃ m ∈ task.caughtUp, m.shardID = shardID
deriving Decidable

variable {task : Task} {p : Pull}

/-- The replica that a pull fills is at the target's address. -/
theorem mem_fills {config : ClusterConfig} {shardID : Nat} {r : String}
    (hfills : (shardID, r) ∈ task.fills) (hpull : task.pull = some p)
    (hlocated : task.Located config) :
    p.shardID = shardID ∧
      ∃ node, config.nodes.lookup r = some node ∧ node.address = p.targetAddress := by
  cases task with
  | rebalance | broadcast => cases hpull
  | move m stage => exact absurd hfills (Finset.notMem_empty _)
  | sync old tasks data =>
    cases tasks with
    | nil => cases hpull
    | cons head tail =>
      cases Finset.mem_singleton.mp hfills
      obtain ⟨primaryNode, replicaNode, -, hreplica, rfl⟩ := pull_replicaSync hpull
      obtain ⟨node, hnode, haddress⟩ := hlocated _ _ hreplica
      exact ⟨rfl, node, hnode, haddress⟩

end Task

/-! ## The order -/

/-- The shard for which a handler was admitted. -/
def WriteStage.admittedFor : WriteStage → Option Nat
  | .admitted shardID => some shardID
  | _ => none

namespace Orderly

variable (shardID : Nat) (key : String)

/-- The addresses contain those of all replicas that have pulled the shard. -/
def KnowsReplicas (w : World) (urls : List String) : Prop :=
  ∀ shard ∈ w.controller.config.shards.lookup shardID, ∀ r ∈ shard.replicaIDs,
    (shardID, r) ∉ w.unsynced → ∀ node ∈ w.controller.config.nodes.lookup r, node.address ∈ urls
deriving Decidable

/-- A write of the key starts its replication at the controller's primary, alone, with all replicas
that have pulled, and while no copy of the shard is under way. -/
def RoutesInOrder (w : World) (h : Handler) : Prop :=
  w.data.Idle key ∧ w.controller.config.primaryAddress shardID = some h.write.address ∧
    (∀ k ∈ h.stage.admittedFor,
      KnowsReplicas shardID w ((w.data.nodes h.write.address).config.getReplicaURLs k)) ∧
    ∀ task ∈ w.controller.tasks, ¬ task.CarriesCopy shardID
deriving Decidable

/-- A pull of the shard is from the controller's primary, and no write of the key is on its way. -/
def ExportsInOrder (w : World) (task : Task) : Prop :=
  ∀ p ∈ task.pull, p.shardID = shardID →
    w.controller.config.primaryAddress shardID = some p.sourceAddress ∧ w.data.Idle key

/-- The target of a pull has the key only if it is pulled too: an import removes nothing. -/
def ImportsInOrder (w : World) (task : Task) : Prop :=
  ∀ p ∈ task.pull, p.shardID = shardID → ∀ data ∈ p.data,
    w.data.cell p.targetAddress key ≠ none → data.lookup key ≠ none

/-- When the primary of the shard is given up, the first replica has pulled. -/
def FailsInOrder (w : World) (nodeID : String) : Prop :=
  ∀ shard ∈ w.controller.config.shards.lookup shardID, shard.primaryID = nodeID →
    ∃ r ∈ shard.replicaIDs.head?, (shardID, r) ∉ w.unsynced

end Orderly

/-- The order that the code would have to keep for one key of the shard. -/
def Orderly (shardID : Nat) (key : String) (w : World) : WorldAction → Prop
  | .controller (.handleNodeFailure nodeID) => Orderly.FailsInOrder shardID w nodeID
  | .appendMessage k _ => ∀ command ∈ w.submitted[k]?, ∀ config ∈ command.topology,
    config = w.controller.config
  | .pullExport i => ∀ task ∈ w.controller.tasks[i]?, Orderly.ExportsInOrder shardID key w task
  | .pullImport i _ => ∀ task ∈ w.controller.tasks[i]?, Orderly.ImportsInOrder shardID key w task
  -- no import of the shard comes late
  | .strayImport k => ∀ p ∈ w.strays[k]?, p.shardID ≠ shardID
  | .data (.route id) => ∀ h ∈ w.data.handlers.lookup id, h.write.key = key →
    Orderly.RoutesInOrder shardID key w h
  | .data (.deliver k) => ∀ x ∈ w.data.strays[k]?, x.2.key ≠ key
  | _ => True

namespace Orderly

instance (shardID : Nat) (key : String) (w : World) : ∀ a, Decidable (Orderly shardID key w a)
  | .controller (.handleNodeFailure _) => inferInstanceAs (Decidable (∀ shard ∈ _, _ → _))
  | .appendMessage _ _ => inferInstanceAs (Decidable (∀ command ∈ _, ∀ config ∈ _, _ = _))
  | .pullExport _ | .pullImport _ _ =>
    inferInstanceAs (Decidable (∀ task ∈ _, ∀ p ∈ Task.pull task, _ → _))
  | .strayImport _ | .data (.deliver _) => inferInstanceAs (Decidable (∀ x ∈ _, _ ≠ _))
  | .data (.route _) => inferInstanceAs (Decidable (∀ h ∈ _, _ → _))
  | .controller (.rebalance _) | .controller (.rebalanceShards _ _)
  | .controller (.broadcast _ _) | .controller (.moveShard _ _) | .controller (.lockShard _)
  | .controller (.cutOver _) | .controller (.exported _ _) | .controller (.imported _)
  | .controller (.pullFailed _) | .registerNode _ _ | .strayExport _ | .renew _ _ _
  | .data (.request _ _ _) | .data (.checkShard _) | .data (.replicate _ _)
  | .data (.finish _) => isTrue trivial

variable {shardID : Nat} {key : String} {w : World} {a : WorldAction}

theorem appliesCurrent (h : Orderly shardID key w a) : AppliesCurrent w a := by
  cases a with
  | appendMessage k now => exact h
  | controller | registerNode | pullExport | pullImport | strayExport | strayImport | renew
  | data => trivial

end Orderly

end DistributedCache
