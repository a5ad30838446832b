import DistributedCache.Controller.WellFormed
import DistributedCache.Metadata.Failures

/-!
# Nodes that register again

A data node registers with the controller whenever it starts.  `applyRegisterNode` returns early
when the name is known already, so the first registration of a name decides: a node that was
declared dead stays dead, and a node that comes back under another address keeps the old one.
-/

namespace DistributedCache

open FiniteMap

/-! ## Histories -/

/-- One operation of the controller; one that is refused changes nothing. -/
def ClusterConfig.perform (config : ClusterConfig) (a : TopologyAction) : ClusterConfig :=
  (config.operate a).getD config

def ClusterConfig.performAll (config : ClusterConfig) (history : List TopologyAction) :
    ClusterConfig :=
  history.foldl perform config

def TopologyAction.registers (id : String) : TopologyAction → Bool
  | .registerNode nodeID _ _ => nodeID = id
  | _ => false

/-- The history from the first registration of the node on. -/
def sinceRegistration (id : String) (history : List TopologyAction) : List TopologyAction :=
  history.dropWhile fun a ↦ !a.registers id

/-- The node is registered under the address, and the next `Rebalance` considers it. -/
def ClusterConfig.Usable (config : ClusterConfig) (id address : String) : Prop :=
  ∃ node, config.nodes.lookup id = some node ∧ node.status = .active ∧ node.address = address ∧
    id ∈ config.activeIDs

/-- The first registration of the node is for this address, and the node has not failed since. -/
def FirstStands (id address : String) (history : List TopologyAction) : Prop :=
  ∃ now rest, sinceRegistration id history = .registerNode id address now :: rest ∧
    TopologyAction.handleNodeFailure id ∉ rest

/-! ## The entry of one node -/

/-- What an operation makes of the entry of `id`. -/
def recordNode (id : String) (entry : Option NodeMetadata) : TopologyAction → Option NodeMetadata
  | .registerNode nodeID address now =>
    -- the early return of `applyRegisterNode` keeps the entry
    if nodeID = id then entry.or (some ⟨id, address, .active, now⟩) else entry
  | .handleNodeFailure nodeID => if nodeID = id then entry.map .markDead else entry
  | .rebalance _ _ => entry
  | .moveShard _ _ => entry

theorem lookup_applyRegisterNode_eq (config : ClusterConfig) (nodeID address id : String)
    (now : Nat) :
    (config.applyRegisterNode nodeID address now).nodes.lookup id =
      if nodeID = id then (config.nodes.lookup id).or (some ⟨id, address, .active, now⟩)
      else config.nodes.lookup id := by
  unfold ClusterConfig.applyRegisterNode
  by_cases hid : nodeID = id
  · subst hid
    rw [if_pos rfl]
    cases hentry : config.nodes.lookup nodeID with
    | none =>
      rw [if_neg (Finmap.lookup_eq_none.mp hentry)]
      exact Finmap.lookup_insert _
    | some node =>
      rw [if_pos (Finmap.mem_of_lookup_eq_some hentry)]
      exact hentry
  · rw [if_neg hid]
    split
    · rfl
    · exact Finmap.lookup_insert_of_ne _ (Ne.symm hid)

theorem nodes_runMoveShard {config config' : ClusterConfig} {shardID : Nat} {targetNodeID : String}
    (h : config.runMoveShard shardID targetNodeID = .ok config') :
    config'.nodes = config.nodes := by
  obtain ⟨shard, -, rfl⟩ := ClusterConfig.runMoveShard_ok h
  rfl

theorem lookup_perform (config : ClusterConfig) (a : TopologyAction) (id : String) :
    (config.perform a).nodes.lookup id = recordNode id (config.nodes.lookup id) a := by
  unfold ClusterConfig.perform
  cases a with
  | registerNode nodeID address now =>
    exact lookup_applyRegisterNode_eq config nodeID address id now
  | handleNodeFailure nodeID =>
    show (config.rebalance nodeID).nodes.lookup id = if nodeID = id then _ else _
    rw [ClusterConfig.lookup_nodes_rebalance]
    simp only [eq_comm]
  | rebalance activeNodes order =>
    show ((if _ ∧ _ then some (config.runRebalance activeNodes order) else none).getD
      config).nodes.lookup id = config.nodes.lookup id
    split
    · show (config.runRebalance activeNodes order).nodes.lookup id = _
      unfold ClusterConfig.runRebalance
      split <;> rfl
    · rfl
  | moveShard shardID targetNodeID =>
    show ((if config.isActive targetNodeID then
        (config.runMoveShard shardID targetNodeID).toOption else none).getD config).nodes.lookup
      id = config.nodes.lookup id
    split
    · cases hmove : config.runMoveShard shardID targetNodeID with
      | error e => rfl
      | ok moved =>
        show moved.nodes.lookup id = _
        rw [nodes_runMoveShard hmove]
    · rfl

/-- The entry of a node depends on nothing but the history of the node. -/
theorem lookup_performAll (config : ClusterConfig) (history : List TopologyAction) (id : String) :
    (config.performAll history).nodes.lookup id =
      history.foldl (recordNode id) (config.nodes.lookup id) := by
  induction history generalizing config with
  | nil => rfl
  | cons a history ih =>
    rw [List.foldl_cons, ← lookup_perform]
    exact ih (config.perform a)

/-! ## The first registration decides -/

section Record

variable {id : String}

/-- Until it registers, a node has no entry. -/
theorem recordNode_none {a : TopologyAction} (h : a.registers id = false) :
    recordNode id none a = none := by
  cases a with
  | registerNode nodeID address now => exact if_neg (of_decide_eq_false h)
  | handleNodeFailure nodeID => exact ite_self _
  | rebalance | moveShard => rfl

theorem foldl_recordNode_none (history : List TopologyAction) :
    history.foldl (recordNode id) none =
      (sinceRegistration id history).foldl (recordNode id) none := by
  unfold sinceRegistration
  induction history with
  | nil => rfl
  | cons a history ih =>
    by_cases hfirst : a.registers id = true
    · rw [List.dropWhile_cons_of_neg (by simp [hfirst])]
    · rw [Bool.not_eq_true] at hfirst
      rw [List.dropWhile_cons_of_pos (by simp [hfirst]), List.foldl_cons, recordNode_none hfirst,
        ih]

/-- Once there is an entry, only the failure of the node changes it. -/
theorem recordNode_some (a : TopologyAction) (node : NodeMetadata) :
    recordNode id (some node) a =
      some (if a = .handleNodeFailure id then node.markDead else node) := by
  cases a with
  | registerNode nodeID address now =>
    rw [if_neg (by simp)]
    exact ite_self _
  | handleNodeFailure nodeID =>
    show (if nodeID = id then some node.markDead else some node) = _
    by_cases hid : nodeID = id
    · rw [if_pos hid, hid, if_pos rfl]
    · rw [if_neg hid, if_neg (by simpa using hid)]
  | rebalance | moveShard => rfl

theorem foldl_recordNode_some (history : List TopologyAction) (node : NodeMetadata) :
    history.foldl (recordNode id) (some node) =
      some (if TopologyAction.handleNodeFailure id ∈ history then node.markDead else node) := by
  induction history generalizing node with
  | nil => rfl
  | cons a history ih =>
    rw [List.foldl_cons, recordNode_some, ih]
    by_cases hfails : a = .handleNodeFailure id
    · -- dead is dead: a second failure changes nothing
      rw [if_pos hfails, hfails, if_pos List.mem_cons_self]
      split <;> rfl
    · have hmem : TopologyAction.handleNodeFailure id ∈ a :: history ↔
          TopologyAction.handleNodeFailure id ∈ history := by
        rw [List.mem_cons]
        exact or_iff_right (Ne.symm hfails)
      simp only [if_neg hfails, hmem]

theorem registers_eq_true {a : TopologyAction} (h : a.registers id = true) :
    ∃ address now, a = .registerNode id address now := by
  cases a with
  | registerNode nodeID address now =>
    obtain rfl : nodeID = id := of_decide_eq_true h
    exact ⟨address, now, rfl⟩
  | handleNodeFailure | rebalance | moveShard => cases h

/-- The history from the first registration on starts with a registration. -/
theorem sinceRegistration_cases (id : String) (history : List TopologyAction) :
    sinceRegistration id history = [] ∨ ∃ address now rest,
      sinceRegistration id history = .registerNode id address now :: rest := by
  cases hsince : sinceRegistration id history with
  | nil => exact Or.inl rfl
  | cons a rest =>
    have hne : sinceRegistration id history ≠ [] := by
      rw [hsince]
      exact List.cons_ne_nil _ _
    have hhead := List.head_dropWhile_not (fun a : TopologyAction ↦ !a.registers id) hne
    have hfirst : a.registers id = true := by
      unfold sinceRegistration at hsince
      simpa [hsince] using hhead
    obtain ⟨address, now, rfl⟩ := registers_eq_true hfirst
    exact Or.inr ⟨address, now, rest, rfl⟩

end Record

/-- Whatever happened since the controller started, a node is usable under an address exactly when
it was first registered for that address and has not failed since.  Later registrations do not
matter. -/
theorem usable_iff_firstStands (numShards : Nat) (history : List TopologyAction)
    (id address : String) :
    ((ClusterConfig.newClusterConfig numShards).performAll history).Usable id address ↔
      FirstStands id address history := by
  have hentry := lookup_performAll (.newClusterConfig numShards) history id
  rw [show (ClusterConfig.newClusterConfig numShards).nodes.lookup id = none from rfl,
    foldl_recordNode_none] at hentry
  unfold ClusterConfig.Usable FirstStands
  rcases sinceRegistration_cases id history with hnever | ⟨first, now, rest, hsince⟩
  · -- never registered
    rw [hnever, List.foldl_nil] at hentry
    rw [hentry, hnever]
    constructor
    · intro h
      obtain ⟨node, hnode, -⟩ := h
      cases hnode
    · intro h
      obtain ⟨now, rest, hsince, -⟩ := h
      cases hsince
  · have hfirst : recordNode id none (.registerNode id first now) =
        some ⟨id, first, .active, now⟩ := if_pos rfl
    rw [hsince, List.foldl_cons, hfirst, foldl_recordNode_some] at hentry
    rw [hsince]
    constructor
    · intro h
      obtain ⟨node, hnode, hstatus, haddress, -⟩ := h
      rw [hentry, Option.some.injEq] at hnode
      by_cases hfails : TopologyAction.handleNodeFailure id ∈ rest
      · rw [if_pos hfails] at hnode
        rw [← hnode] at hstatus
        cases hstatus
      · rw [if_neg hfails] at hnode
        rw [← hnode] at haddress
        cases haddress
        exact ⟨now, rest, rfl, hfails⟩
    · intro h
      obtain ⟨now', rest', hsame, hstands⟩ := h
      cases hsame
      rw [if_neg hstands] at hentry
      exact ⟨_, hentry, rfl, rfl, mem_activeIDs.mpr (ClusterConfig.isActive_iff.mpr
        ⟨_, hentry, rfl⟩)⟩

/-- A node that is restarted after its failure was noticed, and one that is restarted under another
address, are not usable after they have registered again. -/
theorem registered_again_unusable :
    ¬ ((ClusterConfig.newClusterConfig 10).performAll [.registerNode "a" "a:1" 1,
        .handleNodeFailure "a", .registerNode "a" "a:1" 2]).Usable "a" "a:1" ∧
      ¬ ((ClusterConfig.newClusterConfig 10).performAll [.registerNode "a" "a:1" 1,
        .registerNode "a" "a:2" 2]).Usable "a" "a:2" := by
  constructor
  · intro h
    obtain ⟨node, hnode, hstatus, -⟩ := h
    have hdead : ((ClusterConfig.newClusterConfig 10).performAll [.registerNode "a" "a:1" 1,
        .handleNodeFailure "a", .registerNode "a" "a:1" 2]).nodes.lookup "a" =
          some ⟨"a", "a:1", .dead, 0⟩ := by decide +kernel
    rw [hdead] at hnode
    cases hnode
    cases hstatus
  · intro h
    obtain ⟨node, hnode, -, haddress, -⟩ := h
    have hold : ((ClusterConfig.newClusterConfig 10).performAll [.registerNode "a" "a:1" 1,
        .registerNode "a" "a:2" 2]).nodes.lookup "a" = some ⟨"a", "a:1", .active, 1⟩ := by
      decide +kernel
    rw [hold] at hnode
    cases hnode
    exact absurd haddress (by decide)

end DistributedCache
