import DistributedCache.DataNode.Node
import DistributedCache.Lib.Register
import DistributedCache.Lib.Transition

/-!
# Writes in progress

`HandlePut` and `HandleDelete` as the data nodes run them at the same time.  The step of a handler
is one read of the configuration, one request to a replica, or the change of the local cache; no
lock is held from one step to the next.  A request to a replica that the primary has given up may
still arrive.
-/

namespace DistributedCache

open FiniteMap Transition

structure Write where
  /-- Where the request was sent. -/
  address : String
  request : DataRequest
  deriving DecidableEq, Repr

namespace Write

def key (w : Write) : String := w.request.key

def effect (w : Write) : Option String := w.request.effect

end Write

inductive WriteStage where
  /-- The epoch was compared. -/
  | accepted
  /-- The node is the primary of the key's shard. -/
  | admitted (shardID : Nat)
  /-- The replicas that have stored the write, and those to which it goes next. -/
  | replicating (done rest : List String)
  deriving DecidableEq, Repr

def WriteStage.isReplicating : WriteStage → Bool
  | .replicating _ _ => true
  | _ => false

/-- Where the write goes next. -/
def WriteStage.nextURL : WriteStage → Option String
  | .replicating _ (url :: _) => some url
  | _ => none

/-- A running `HandlePut` or `HandleDelete`. -/
structure Handler where
  write : Write
  stage : WriteStage
  deriving DecidableEq, Repr

inductive WriteEvent where
  /-- The handler has read the replicas; the write may take effect from now on. -/
  | begun (id : Nat) (w : Write)
  | ended (id : Nat) (w : Write) (reply : Reply)
  deriving DecidableEq, Repr

namespace WriteEvent

def id : WriteEvent → Nat
  | .begun id _ => id
  | .ended id _ _ => id

def write : WriteEvent → Write
  | .begun _ w => w
  | .ended _ w _ => w

def reply : WriteEvent → Option Reply
  | .begun _ _ => none
  | .ended _ _ reply => some reply

end WriteEvent

structure DataPlane where
  /-- The data nodes by their addresses. -/
  nodes : String → DataNode
  handlers : Map Nat Handler
  nextID : Nat
  /-- Requests to replicas that the primary has given up. -/
  strays : List (String × DataRequest)
  history : List WriteEvent

/-- What becomes of a request to a replica. -/
inductive Outcome where
  /-- The primary gives up; the request may arrive later. -/
  | abandoned
  | answered
  /-- The replica handles the request and the answer is lost. -/
  | unanswered
  deriving DecidableEq, Repr

inductive WriteAction where
  | request (address : String) (now : Nat) (req : DataRequest)
  | checkShard (id : Nat)
  | route (id : Nat)
  | replicate (id : Nat) (outcome : Outcome)
  | finish (id : Nat)
  /-- A request that was given up arrives. -/
  | deliver (k : Nat)
  deriving DecidableEq, Repr

namespace DataPlane

def setNode (s : DataPlane) (address : String) (node : DataNode) : DataPlane :=
  { s with nodes := Function.update s.nodes address node }

/-- The handler goes on. -/
def resume (s : DataPlane) (id : Nat) (h : Handler) : DataPlane :=
  { s with handlers := s.handlers.insert id h }

/-- The handler answers and ends. -/
def answer (s : DataPlane) (id : Nat) (w : Write) (reply : Reply) : DataPlane :=
  { s with
    handlers := s.handlers.erase id
    history := s.history ++ [.ended id w reply] }

def step (s : DataPlane) : WriteAction → Option DataPlane
  | .request address now req =>
    match (s.nodes address).accept now (some req) with
    | .ok _ => some { s.resume s.nextID ⟨⟨address, req⟩, .accepted⟩ with nextID := s.nextID + 1 }
    | .error reply => some
        { s with
          nextID := s.nextID + 1
          history := s.history ++ [.ended s.nextID ⟨address, req⟩ reply] }
  | .checkShard id =>
    match s.handlers.lookup id with
    | some ⟨w, .accepted⟩ =>
      match (s.nodes w.address).checkShard w.key with
      | .ok shardID => some (s.resume id ⟨w, .admitted shardID⟩)
      | .error reply => some (s.answer id w reply)
    | _ => none
  | .route id =>
    match s.handlers.lookup id with
    | some ⟨w, .admitted shardID⟩ =>
      let replicaURLs := (s.nodes w.address).config.getReplicaURLs shardID
      some
        { s.resume id ⟨w, .replicating [] replicaURLs⟩ with
          history := s.history ++ [.begun id w] }
    | _ => none
  | .replicate id outcome =>
    match s.handlers.lookup id with
    | some ⟨w, .replicating done (url :: rest)⟩ =>
      let handled := (s.nodes url).replicate (some w.request)
      match outcome with
      | .abandoned => some
          { s.answer id w DataNode.replicationFailed with strays := s.strays ++ [(url, w.request)] }
      | .answered =>
        if handled.1.status = .ok then
          some ((s.setNode url handled.2).resume id ⟨w, .replicating (done ++ [url]) rest⟩)
        else some ((s.setNode url handled.2).answer id w DataNode.replicationFailed)
      | .unanswered => some ((s.setNode url handled.2).answer id w DataNode.replicationFailed)
    | _ => none
  | .finish id =>
    match s.handlers.lookup id with
    | some ⟨w, .replicating _ []⟩ =>
      some ((s.setNode w.address ((s.nodes w.address).store w.request)).answer id w
        DataNode.written)
    | _ => none
  | .deliver k =>
    match s.strays[k]? with
    | some (url, req) => some
        { s.setNode url ((s.nodes url).replicate (some req)).2 with strays := s.strays.eraseIdx k }
    | none => none

/-- Nodes at rest. -/
def start (nodes : String → DataNode) : DataPlane where
  nodes := nodes
  handlers := ∅
  nextID := 0
  strays := []
  history := []

/-- No write of the key is on its way to the copies. -/
def Idle (key : String) (s : DataPlane) : Prop :=
  Every (fun _ h ↦ h.write.key = key → h.stage.isReplicating = false) s.handlers
deriving Decidable

/-! ## What the nodes hold -/

def cell (s : DataPlane) (address key : String) : Option String :=
  (s.nodes address).cache.lookup key

@[simp] theorem nodes_setNode_self (s : DataPlane) (address : String) (node : DataNode) :
    (s.setNode address node).nodes address = node := Function.update_self _ _ _

theorem nodes_setNode_of_ne (s : DataPlane) {address address' : String} (h : address' ≠ address)
    (node : DataNode) : (s.setNode address node).nodes address' = s.nodes address' :=
  Function.update_of_ne h _ _

/-- A request that a node stores changes one key of that node. -/
theorem cell_store (s : DataPlane) (url : String) (req : DataRequest) (address key : String) :
    (s.setNode url ((s.nodes url).store req)).cell address key =
      if address = url ∧ key = req.key then req.effect else s.cell address key := by
  by_cases haddress : address = url
  · subst haddress
    unfold cell
    rw [nodes_setNode_self, DataNode.store_cache]
    by_cases hkey : key = req.key
    · rw [if_pos ⟨rfl, hkey⟩, hkey, DataRequest.lookup_store_self]
    · rw [if_neg fun h ↦ hkey h.2, DataRequest.lookup_store_of_ne hkey]
  · unfold cell
    rw [if_neg fun h ↦ haddress h.1, nodes_setNode_of_ne s haddress]

/-- A node that handles a request to a replica stores it or stays as it is. -/
def Handles (s : DataPlane) (url : String) (req : DataRequest) (node : DataNode) : Prop :=
  node = s.nodes url ∨ node = (s.nodes url).store req

theorem handles_replicate (s : DataPlane) (url : String) (req : DataRequest) :
    s.Handles url req ((s.nodes url).replicate (some req)).2 := by
  rcases (s.nodes url).replicate_cases req with ⟨-, hnode⟩ | ⟨-, hnode⟩
  · exact Or.inr hnode
  · exact Or.inl hnode

variable {s s' : DataPlane} {url : String} {req : DataRequest} {node : DataNode} {a : WriteAction}

/-- The cells after a request to a replica was handled. -/
theorem Handles.cell (h : s.Handles url req node) (address key : String) :
    (s.setNode url node).cell address key = s.cell address key ∨
      (address = url ∧ key = req.key ∧ (s.setNode url node).cell address key = req.effect) := by
  rcases h with rfl | rfl
  · left
    unfold DataPlane.cell setNode
    rw [Function.update_eq_self]
  · rw [cell_store]
    by_cases hcell : address = url ∧ key = req.key
    · rw [if_pos hcell]
      exact Or.inr ⟨hcell.1, hcell.2, rfl⟩
    · rw [if_neg hcell]
      exact Or.inl rfl

/-- Everything but the cache of a node stays as it is. -/
structure SameNode (node node' : DataNode) : Prop where
  config : node'.config = node.config
  stage : node'.stage = node.stage

theorem Handles.sameNode (h : s.Handles url req node) (address : String) :
    SameNode (s.nodes address) ((s.setNode url node).nodes address) := by
  by_cases haddress : address = url
  · subst haddress
    rw [nodes_setNode_self]
    rcases h with rfl | rfl <;> exact ⟨rfl, rfl⟩
  · rw [nodes_setNode_of_ne s haddress]
    exact ⟨rfl, rfl⟩

theorem sameNode_store (s : DataPlane) (url : String) (req : DataRequest) (address : String) :
    SameNode (s.nodes address) ((s.setNode url ((s.nodes url).store req)).nodes address) :=
  Handles.sameNode (Or.inr rfl) address

/-! ## What a step can do -/

inductive StepCase (s : DataPlane) : WriteAction → DataPlane → Prop
  | accepted {address : String} {now : Nat} {req : DataRequest}
      (hok : (s.nodes address).accept now (some req) = .ok req) :
      StepCase s (.request address now req)
        { s.resume s.nextID ⟨⟨address, req⟩, .accepted⟩ with nextID := s.nextID + 1 }
  | refused {address : String} {now : Nat} {req : DataRequest} {reply : Reply}
      (herror : (s.nodes address).accept now (some req) = .error reply) :
      StepCase s (.request address now req)
        { s with
          nextID := s.nextID + 1
          history := s.history ++ [.ended s.nextID ⟨address, req⟩ reply] }
  | admitted {id shardID : Nat} {w : Write} (hid : s.handlers.lookup id = some ⟨w, .accepted⟩)
      (hok : (s.nodes w.address).checkShard w.key = .ok shardID) :
      StepCase s (.checkShard id) (s.resume id ⟨w, .admitted shardID⟩)
  | rejected {id : Nat} {w : Write} {reply : Reply}
      (hid : s.handlers.lookup id = some ⟨w, .accepted⟩)
      (herror : (s.nodes w.address).checkShard w.key = .error reply) :
      StepCase s (.checkShard id) (s.answer id w reply)
  | routed {id shardID : Nat} {w : Write}
      (hid : s.handlers.lookup id = some ⟨w, .admitted shardID⟩) :
      StepCase s (.route id)
        { s.resume id ⟨w, .replicating [] ((s.nodes w.address).config.getReplicaURLs shardID)⟩ with
          history := s.history ++ [.begun id w] }
  | replicated {id : Nat} {w : Write} {done rest : List String} {url : String}
      (hid : s.handlers.lookup id = some ⟨w, .replicating done (url :: rest)⟩) :
      StepCase s (.replicate id .answered)
        ((s.setNode url ((s.nodes url).store w.request)).resume id
          ⟨w, .replicating (done ++ [url]) rest⟩)
  | gaveUp {id : Nat} {w : Write} {done rest : List String} {url : String}
      (hid : s.handlers.lookup id = some ⟨w, .replicating done (url :: rest)⟩) :
      StepCase s (.replicate id .abandoned)
        { s.answer id w DataNode.replicationFailed with strays := s.strays ++ [(url, w.request)] }
  | failed {id : Nat} {w : Write} {done rest : List String} {url : String} {node : DataNode}
      {outcome : Outcome}
      (hid : s.handlers.lookup id = some ⟨w, .replicating done (url :: rest)⟩)
      (hnode : s.Handles url w.request node) :
      StepCase s (.replicate id outcome)
        ((s.setNode url node).answer id w DataNode.replicationFailed)
  | finished {id : Nat} {w : Write} {done : List String}
      (hid : s.handlers.lookup id = some ⟨w, .replicating done []⟩) :
      StepCase s (.finish id)
        ((s.setNode w.address ((s.nodes w.address).store w.request)).answer id w DataNode.written)
  | delivered {k : Nat} {url : String} {req : DataRequest} {node : DataNode}
      (hk : s.strays[k]? = some (url, req)) (hnode : s.Handles url req node) :
      StepCase s (.deliver k) { s.setNode url node with strays := s.strays.eraseIdx k }

theorem step_cases (h : s.step a = some s') : StepCase s a s' := by
  cases a with
  | request address now req =>
    simp only [step] at h
    split at h
    · rename_i req' hok
      cases h
      obtain ⟨-, hreq, -⟩ := DataNode.accept_ok hok
      cases hreq
      exact .accepted hok
    · rename_i herror
      cases h
      exact .refused herror
  | checkShard id =>
    simp only [step] at h
    split at h
    · rename_i w hid
      split at h
      · rename_i hok
        cases h
        exact .admitted hid hok
      · rename_i herror
        cases h
        exact .rejected hid herror
    · cases h
  | route id =>
    simp only [step] at h
    split at h
    · rename_i hid
      cases h
      exact .routed hid
    · cases h
  | replicate id outcome =>
    simp only [step] at h
    split at h
    · rename_i w done url rest hid
      cases outcome with
      | abandoned =>
        cases h
        exact .gaveUp hid
      | answered =>
        simp only at h
        rcases (s.nodes url).replicate_cases w.request with ⟨hreply, hnode⟩ | ⟨hreply, hnode⟩
        · have hstatus : DataNode.written.status = .ok := rfl
          rw [hreply, hnode, if_pos hstatus] at h
          cases h
          exact .replicated hid
        · rw [if_neg hreply] at h
          cases h
          exact .failed hid (s.handles_replicate url w.request)
      | unanswered =>
        cases h
        exact .failed hid (s.handles_replicate url w.request)
    · cases h
  | finish id =>
    simp only [step] at h
    split at h
    · rename_i hid
      cases h
      exact .finished hid
    · cases h
  | deliver k =>
    simp only [step] at h
    split at h
    · rename_i hk
      cases h
      exact .delivered hk (s.handles_replicate _ _)
    · cases h

/-! ## Handlers -/

section

variable {s s' : DataPlane} {a : WriteAction} {id : Nat}

/-- A handler keeps its write, and a new one has the next number. -/
theorem handler_step {h' : Handler} (hstep : s.step a = some s')
    (hid : s'.handlers.lookup id = some h') :
    (∃ h, s.handlers.lookup id = some h ∧ h.write = h'.write) ∨
      (id = s.nextID ∧ ∃ address now req, a = .request address now req ∧
        h'.write = ⟨address, req⟩) := by
  have hsame : s.handlers.lookup id = some h' →
      ∃ h, s.handlers.lookup id = some h ∧ h.write = h'.write := fun hold ↦ ⟨h', hold, rfl⟩
  have hinsert : ∀ {id' : Nat} {w : Write} {stage stage' : WriteStage},
      s.handlers.lookup id' = some ⟨w, stage⟩ →
      (s.handlers.insert id' ⟨w, stage'⟩).lookup id = some h' →
      ∃ h, s.handlers.lookup id = some h ∧ h.write = h'.write := by
    intro id' w stage stage' hold hlookup
    rcases lookup_insert_cases hlookup with ⟨rfl, rfl⟩ | ⟨-, hlookup⟩
    · exact ⟨_, hold, rfl⟩
    · exact ⟨h', hlookup, rfl⟩
  cases step_cases hstep with
  | accepted =>
    rcases lookup_insert_cases hid with ⟨rfl, rfl⟩ | ⟨-, hold⟩
    · exact Or.inr ⟨rfl, _, _, _, rfl, rfl⟩
    · exact Or.inl (hsame hold)
  | refused | delivered => exact Or.inl (hsame hid)
  | admitted hold | routed hold | replicated hold => exact Or.inl (hinsert hold hid)
  | rejected | gaveUp | failed | finished => exact Or.inl (hsame (lookup_of_lookup_erase hid).2)

/-- An event that a step may add: it is one of a handler, or of a request that is refused at once,
and only the end of a write is answered with 200. -/
structure Adds (s : DataPlane) (a : WriteAction) (e : WriteEvent) : Prop where
  source : (∃ h, s.handlers.lookup e.id = some h ∧ h.write = e.write) ∨
    (e.id = s.nextID ∧ ∃ address now req, a = .request address now req ∧ e.write = ⟨address, req⟩)
  reply : ∀ reply, e.reply = some reply → reply.status = .ok → reply = DataNode.written

theorem history_step (hstep : s.step a = some s') :
    ∃ events, s'.history = s.history ++ events ∧ ∀ e ∈ events, s.Adds a e := by
  have hnone : ∃ events, s.history = s.history ++ events ∧ ∀ e ∈ events, s.Adds a e :=
    ⟨[], (List.append_nil _).symm, fun e he ↦ by cases he⟩
  have hended : ∀ {id : Nat} {w : Write} {stage : WriteStage} {reply : Reply},
      s.handlers.lookup id = some ⟨w, stage⟩ →
      (reply.status = .ok → reply = DataNode.written) →
      ∀ e ∈ [WriteEvent.ended id w reply], s.Adds a e := by
    intro id w stage reply hid hreply e he
    cases List.mem_singleton.mp he
    refine ⟨Or.inl ⟨_, hid, rfl⟩, ?_⟩
    rintro _ ⟨⟩
    exact hreply
  cases step_cases hstep with
  | accepted | admitted | replicated | delivered => exact hnone
  | refused herror =>
    refine ⟨_, rfl, fun e he ↦ ?_⟩
    cases List.mem_singleton.mp he
    refine ⟨Or.inr ⟨rfl, _, _, _, rfl, rfl⟩, ?_⟩
    rintro _ ⟨⟩ hok
    exact absurd hok (DataNode.accept_error_status herror)
  | rejected hid herror =>
    exact ⟨_, rfl, hended hid fun hok ↦ absurd hok (DataNode.checkShard_error_status herror)⟩
  | routed hid =>
    refine ⟨_, rfl, fun e he ↦ ?_⟩
    cases List.mem_singleton.mp he
    exact ⟨Or.inl ⟨_, hid, rfl⟩, fun _ hreply ↦ by cases hreply⟩
  | gaveUp hid | failed hid => exact ⟨_, rfl, hended hid fun hok ↦ absurd hok (by decide)⟩
  | finished hid => exact ⟨_, rfl, hended hid fun _ ↦ rfl⟩

theorem nextID_request {address : String} {now : Nat} {req : DataRequest}
    (hstep : s.step (.request address now req) = some s') : s'.nextID = s.nextID + 1 := by
  cases step_cases hstep <;> rfl

theorem nextID_le_step (hstep : s.step a = some s') : s.nextID ≤ s'.nextID := by
  cases step_cases hstep with
  | accepted | refused => exact Nat.le_succ _
  | admitted | rejected | routed | replicated | gaveUp | failed | finished | delivered =>
    exact Nat.le_refl _

/-- Handlers have numbers that are not given out any more. -/
def Numbered (s : DataPlane) : Prop := Every (fun id _ ↦ id < s.nextID) s.handlers

theorem numbered_start (nodes : String → DataNode) : (start nodes).Numbered := by
  intro id h hid
  rw [start, Finmap.lookup_empty] at hid
  cases hid

theorem Numbered.step (h : s.Numbered) (hstep : s.step a = some s') : s'.Numbered := by
  intro id handler' hid
  rcases handler_step hstep hid with ⟨handler, hold, -⟩ | ⟨rfl, address, now, req, rfl, -⟩
  · exact Nat.lt_of_lt_of_le (h id handler hold) (nextID_le_step hstep)
  · rw [nextID_request hstep]
    exact Nat.lt_succ_self _

theorem Numbered.lookup_nextID (h : s.Numbered) : s.handlers.lookup s.nextID = none := by
  cases hid : s.handlers.lookup s.nextID with
  | none => rfl
  | some handler => exact absurd (h _ _ hid) (Nat.lt_irrefl _)

/-- A property of the writes in progress. -/
theorem writes_step {P : Write → Prop} (h : Every (fun _ h ↦ P h.write) s.handlers)
    (hstep : s.step a = some s')
    (hnew : ∀ address now req, a = .request address now req → P ⟨address, req⟩) :
    Every (fun _ h ↦ P h.write) s'.handlers := by
  intro id handler' hid
  rcases handler_step hstep hid with ⟨handler, hold, heq⟩ | ⟨-, address, now, req, ha, heq⟩
  · rw [← heq]
    exact h id handler hold
  · rw [heq]
    exact hnew address now req ha

theorem history_subset (hstep : s.step a = some s') : s.history ⊆ s'.history := by
  obtain ⟨events, hevents, -⟩ := history_step hstep
  rw [hevents]
  exact List.subset_append_left _ _

end

/-- No step changes what a node knows about the cluster. -/
theorem sameNode_step (hstep : s.step a = some s') (address : String) :
    SameNode (s.nodes address) (s'.nodes address) := by
  cases step_cases hstep with
  | replicated | finished => exact sameNode_store s _ _ address
  | failed hid hnode | delivered hk hnode => exact hnode.sameNode address
  | accepted | refused | admitted | rejected | routed | gaveUp => exact ⟨rfl, rfl⟩

end DataPlane

/-! ## The history of one key -/

/-- What an event says about a key, when only writes that were answered with `written` count as
acknowledged. -/
def WriteEvent.about (key : String) : WriteEvent → Option (Register.Event (Option String))
  | .begun _ w => if w.key = key then some (.begun w.effect) else none
  | .ended _ w reply =>
    if w.key = key ∧ reply = DataNode.written then some (.acknowledged w.effect) else none

namespace WriteEvent

variable {key : String} {id : Nat} {w : Write}

theorem about_of_ne {e : WriteEvent} (h : e.write.key ≠ key) : e.about key = none := by
  cases e with
  | begun id w => exact if_neg h
  | ended id w reply => exact if_neg fun heq ↦ h heq.1

theorem about_begun (h : w.key = key) : (begun id w).about key = some (.begun w.effect) := if_pos h

theorem about_written (h : w.key = key) :
    (ended id w DataNode.written).about key = some (.acknowledged w.effect) := if_pos ⟨h, rfl⟩

/-- An answer other than 200 says nothing about the copies. -/
theorem about_ended_of_ne {reply : Reply} (h : reply ≠ DataNode.written) :
    (ended id w reply).about key = none := if_neg fun heq ↦ h heq.2

end WriteEvent

namespace DataPlane

def registerHistory (s : DataPlane) (key : String) : List (Register.Event (Option String)) :=
  s.history.filterMap (WriteEvent.about key)

variable {e : WriteEvent} {url : String} {req : DataRequest} {s : DataPlane} {key : String}
  {s' : DataPlane}

theorem registerHistory_concat (h : s'.history = s.history ++ [e]) :
    s'.registerHistory key = s.registerHistory key ++ (e.about key).toList := by
  unfold registerHistory
  rw [h, List.filterMap_append]
  cases habout : e.about key with
  | none | some => rw [List.filterMap_cons, habout]; rfl

/-- An event that says nothing about the key. -/
theorem registerHistory_of_about (h : s'.history = s.history ++ [e]) (hnone : e.about key = none) :
    s'.registerHistory key = s.registerHistory key := by
  rw [registerHistory_concat h, hnone]
  exact List.append_nil _

/-! ## Steps that have nothing to do with a key -/

/-- The key that a step is about. -/
def keyOf (s : DataPlane) : WriteAction → Option String
  | .request _ _ req => some req.key
  | .checkShard id => (s.handlers.lookup id).map fun h ↦ h.write.key
  | .route id => (s.handlers.lookup id).map fun h ↦ h.write.key
  | .replicate id _ => (s.handlers.lookup id).map fun h ↦ h.write.key
  | .finish id => (s.handlers.lookup id).map fun h ↦ h.write.key
  | .deliver k => s.strays[k]?.map fun x ↦ x.2.key

/-- The key of the handler that takes a step. -/
theorem handler_key_iff {id : Nat} {w : Write} {stage : WriteStage}
    (hid : s.handlers.lookup id = some ⟨w, stage⟩) :
    (s.handlers.lookup id).map (fun h ↦ h.write.key) = some key ↔ w.key = key := by
  rw [hid]
  exact Option.some_inj

/-- The key of a replica request that arrives late. -/
theorem stray_key_iff {k : Nat} (hk : s.strays[k]? = some (url, req)) :
    s.strays[k]?.map (fun x ↦ x.2.key) = some key ↔ req.key = key := by
  rw [hk]
  exact Option.some_inj

/-- Everything about the key is as before. -/
structure SameFor (key : String) (s s' : DataPlane) : Prop where
  cell : ∀ address, s'.cell address key = s.cell address key
  handler : ∀ id h, h.write.key = key →
    (s'.handlers.lookup id = some h ↔ s.handlers.lookup id = some h)
  stray : ∀ x ∈ s'.strays, x.2.key = key → x ∈ s.strays
  event : ∀ e, e.write.key = key → (e ∈ s'.history ↔ e ∈ s.history)
  history : ∃ events, s'.history = s.history ++ events ∧
    events.filterMap (WriteEvent.about key) = []

variable {key : String} {s s' : DataPlane} {id : Nat} {new : Handler} {a : WriteAction}
  {history : List WriteEvent} {node : DataNode} {id' : Nat} {h : Handler}

/-- Handlers of the key when a handler of another key goes on or begins. -/
theorem lookup_insert_other
    (hold : ∀ h, s.handlers.lookup id = some h → h.write.key ≠ key)
    (hnew : new.write.key ≠ key) (id' : Nat) (h : Handler) (hh : h.write.key = key) :
    (s.handlers.insert id new).lookup id' = some h ↔ s.handlers.lookup id' = some h := by
  constructor
  · intro hlookup
    rcases lookup_insert_cases hlookup with ⟨-, rfl⟩ | ⟨-, hsame⟩
    · exact absurd hh hnew
    · exact hsame
  · intro hlookup
    have hid : id' ≠ id := by
      rintro rfl
      exact hold h hlookup hh
    rw [Finmap.lookup_insert_of_ne _ hid, hlookup]

/-- Handlers of the key when a handler of another key ends. -/
theorem lookup_erase_other (hold : ∀ h, s.handlers.lookup id = some h → h.write.key ≠ key)
    (id' : Nat) (h : Handler) (hh : h.write.key = key) :
    (s.handlers.erase id).lookup id' = some h ↔ s.handlers.lookup id' = some h := by
  constructor
  · exact fun hlookup ↦ (lookup_of_lookup_erase hlookup).2
  · intro hlookup
    have hid : id' ≠ id := by
      rintro rfl
      exact hold h hlookup hh
    rw [Finmap.lookup_erase_ne hid, hlookup]

theorem mem_history_other (he : e.write.key ≠ key) (e' : WriteEvent) (hkey : e'.write.key = key) :
    e' ∈ history ++ [e] ↔ e' ∈ history := by
  rw [List.mem_append, List.mem_singleton]
  constructor
  · rintro (h | rfl)
    · exact h
    · exact absurd hkey he
  · exact Or.inl

theorem history_other (he : e.write.key ≠ key) : ∃ events, history ++ [e] = history ++ events ∧
      events.filterMap (WriteEvent.about key) = [] := by
  refine ⟨[e], rfl, ?_⟩
  rw [List.filterMap_cons, WriteEvent.about_of_ne he, List.filterMap_nil]

theorem history_same (history : List WriteEvent) :
    ∃ events, history = history ++ events ∧ events.filterMap (WriteEvent.about key) = [] :=
  ⟨[], (List.append_nil history).symm, rfl⟩

theorem SameFor.registerHistory (h : SameFor key s s') :
    s'.registerHistory key = s.registerHistory key := by
  obtain ⟨events, hevents, hnone⟩ := h.history
  unfold DataPlane.registerHistory
  rw [hevents, List.filterMap_append, hnone, List.append_nil]

theorem Handles.cell_other (h : s.Handles url req node) (hkey : req.key ≠ key) (address : String) :
    (s.setNode url node).cell address key = s.cell address key := by
  rcases h.cell address key with hcell | ⟨-, heq, -⟩
  · exact hcell
  · exact absurd heq.symm hkey

/-- A step about one key leaves the others alone. -/
theorem sameFor_step (hnumbered : s.Numbered) (hstep : s.step a = some s')
    (hkey : s.keyOf a ≠ some key) : SameFor key s s' := by
  -- the handler that takes the step is one of another key
  have hother : ∀ {id : Nat} {w : Write} {stage : WriteStage},
      s.handlers.lookup id = some ⟨w, stage⟩ →
      (s.handlers.lookup id).map (fun h ↦ h.write.key) ≠ some key →
      w.key ≠ key ∧ ∀ h, s.handlers.lookup id = some h → h.write.key ≠ key := by
    intro id w stage hid hne
    have hw : w.key ≠ key := fun heq ↦ hne ((handler_key_iff hid).mpr heq)
    refine ⟨hw, fun h hh ↦ ?_⟩
    rw [hid] at hh
    cases hh
    exact hw
  cases step_cases hstep with
  | accepted =>
    have hne := fun heq ↦ hkey (congrArg some heq)
    have hnone := hnumbered.lookup_nextID
    refine ⟨fun _ ↦ rfl, lookup_insert_other ?_ hne, fun _ hx _ ↦ hx, fun _ _ ↦ Iff.rfl,
      history_same _⟩
    intro h hh
    rw [hnone] at hh
    cases hh
  | refused =>
    have hne := fun heq ↦ hkey (congrArg some heq)
    exact ⟨fun _ ↦ rfl, fun _ _ _ ↦ Iff.rfl, fun _ hx _ ↦ hx, mem_history_other hne,
      history_other hne⟩
  | admitted hid =>
    obtain ⟨hne, hold⟩ := hother hid hkey
    exact ⟨fun _ ↦ rfl, lookup_insert_other hold hne, fun _ hx _ ↦ hx, fun _ _ ↦ Iff.rfl,
      history_same _⟩
  | rejected hid =>
    obtain ⟨hne, hold⟩ := hother hid hkey
    exact ⟨fun _ ↦ rfl, lookup_erase_other hold, fun _ hx _ ↦ hx, mem_history_other hne,
      history_other hne⟩
  | routed hid =>
    obtain ⟨hne, hold⟩ := hother hid hkey
    exact ⟨fun _ ↦ rfl, lookup_insert_other hold hne, fun _ hx _ ↦ hx, mem_history_other hne,
      history_other hne⟩
  | replicated hid =>
    obtain ⟨hne, hold⟩ := hother hid hkey
    exact ⟨Handles.cell_other (Or.inr rfl) hne, lookup_insert_other hold hne, fun _ hx _ ↦ hx,
      fun _ _ ↦ Iff.rfl, history_same _⟩
  | gaveUp hid =>
    obtain ⟨hne, hold⟩ := hother hid hkey
    refine ⟨fun _ ↦ rfl, lookup_erase_other hold, ?_, mem_history_other hne,
      history_other hne⟩
    intro x hx hxkey
    rcases List.mem_append.mp hx with hx | hx
    · exact hx
    · rw [List.mem_singleton.mp hx] at hxkey
      exact absurd hxkey hne
  | failed hid hnode =>
    obtain ⟨hne, hold⟩ := hother hid hkey
    exact ⟨hnode.cell_other hne, lookup_erase_other hold, fun _ hx _ ↦ hx, mem_history_other hne,
      history_other hne⟩
  | finished hid =>
    obtain ⟨hne, hold⟩ := hother hid hkey
    exact ⟨Handles.cell_other (Or.inr rfl) hne, lookup_erase_other hold, fun _ hx _ ↦ hx,
      mem_history_other hne, history_other hne⟩
  | @delivered k url req node hk hnode =>
    have hne : req.key ≠ key := fun heq ↦ hkey ((stray_key_iff hk).mpr heq)
    exact ⟨hnode.cell_other hne, fun _ _ _ ↦ Iff.rfl,
      fun _ hx _ ↦ List.mem_of_mem_eraseIdx hx, fun _ _ ↦ Iff.rfl, history_same _⟩

/-! ## One write at a time -/

/-- At most one write of the key is on its way to the copies. -/
def Alone (key : String) (s : DataPlane) : Prop :=
  ∀ id id' h h', s.handlers.lookup id = some h → s.handlers.lookup id' = some h' →
    h.write.key = key → h'.write.key = key → h.stage.isReplicating = true →
    h'.stage.isReplicating = true → id = id'

/-- A handler that goes on before it replicates is none of those that replicate. -/
theorem lookup_of_insert_waiting (hnew : new.stage.isReplicating = false)
    (hlookup : (s.handlers.insert id' new).lookup id = some h)
    (hrep : h.stage.isReplicating = true) : s.handlers.lookup id = some h := by
  rcases lookup_insert_cases hlookup with ⟨rfl, rfl⟩ | ⟨-, hold⟩
  · rw [hnew] at hrep
    cases hrep
  · exact hold

/-- A write that is on its way after a step was on its way before, or has just been routed. -/
theorem replicating_step (hstep : s.step a = some s') (hid : s'.handlers.lookup id = some h)
    (hrep : h.stage.isReplicating = true) :
    (∃ old, s.handlers.lookup id = some old ∧ old.write = h.write ∧
      old.stage.isReplicating = true) ∨
    (a = .route id ∧ ∃ old, s.handlers.lookup id = some old ∧ old.write = h.write) := by
  -- a handler that goes on before it replicates, and one that ends
  have hinsert : ∀ {id' : Nat} {new : Handler}, new.stage.isReplicating = false →
      (s.handlers.insert id' new).lookup id = some h → s.handlers.lookup id = some h :=
    fun hnew hlookup ↦ lookup_of_insert_waiting hnew hlookup hrep
  have herase : ∀ {id' : Nat}, (s.handlers.erase id').lookup id = some h →
      s.handlers.lookup id = some h := fun hlookup ↦ (lookup_of_lookup_erase hlookup).2
  cases step_cases hstep with
  | accepted | admitted => exact Or.inl ⟨h, hinsert rfl hid, rfl, hrep⟩
  | refused | delivered => exact Or.inl ⟨h, hid, rfl, hrep⟩
  | rejected | gaveUp | failed | finished => exact Or.inl ⟨h, herase hid, rfl, hrep⟩
  | routed hid' =>
    rcases lookup_insert_cases hid with ⟨rfl, rfl⟩ | ⟨-, hold⟩
    · exact Or.inr ⟨rfl, _, hid', rfl⟩
    · exact Or.inl ⟨h, hold, rfl, hrep⟩
  | replicated hid' =>
    rcases lookup_insert_cases hid with ⟨rfl, rfl⟩ | ⟨-, hold⟩
    · exact Or.inl ⟨_, hid', rfl, rfl⟩
    · exact Or.inl ⟨h, hold, rfl, hrep⟩

/-- Writes of the key stay one at a time when each is routed while no other is on its way. -/
theorem Alone.step (h : s.Alone key) (hstep : s.step a = some s')
    (hroute : ∀ id h, a = .route id → s.handlers.lookup id = some h → h.write.key = key → s.Idle
      key) : s'.Alone key := by
  intro id₁ id₂ h₁ h₂ hid₁ hid₂ hkey₁ hkey₂ hrep₁ hrep₂
  rcases replicating_step hstep hid₁ hrep₁ with ⟨old₁, hold₁, hw₁, hr₁⟩ | ⟨rfl, old₁, hold₁, hw₁⟩
  · rcases replicating_step hstep hid₂ hrep₂ with ⟨old₂, hold₂, hw₂, hr₂⟩ | ⟨rfl, old₂, hold₂, hw₂⟩
    · exact h id₁ id₂ old₁ old₂ hold₁ hold₂ (by rw [hw₁, hkey₁]) (by rw [hw₂, hkey₂]) hr₁ hr₂
    · have hidle := hroute id₂ old₂ rfl hold₂ (by rw [hw₂, hkey₂])
      rw [hidle id₁ old₁ hold₁ (by rw [hw₁, hkey₁])] at hr₁
      cases hr₁
  · rcases replicating_step hstep hid₂ hrep₂ with ⟨old₂, hold₂, hw₂, hr₂⟩ | ⟨heq, -⟩
    · have hidle := hroute id₁ old₁ rfl hold₁ (by rw [hw₁, hkey₁])
      rw [hidle id₂ old₂ hold₂ (by rw [hw₂, hkey₂])] at hr₂
      cases hr₂
    · exact WriteAction.route.inj heq

/-- While a write of the key is on its way, the others wait. -/
theorem Alone.waits (h : s.Alone key) {handler handler' : Handler}
    (hid : s.handlers.lookup id = some handler) (hkey : handler.write.key = key)
    (hrep : handler.stage.isReplicating = true) (hid' : s.handlers.lookup id' = some handler')
    (hkey' : handler'.write.key = key) (hne : id' ≠ id) : handler'.stage.isReplicating = false := by
  by_contra hrep'
  exact hne (h id' id handler' handler hid' hid hkey' hkey
    (Bool.eq_true_of_not_eq_false hrep') hrep)

theorem alone_start (nodes : String → DataNode) : (start nodes).Alone key := by
  intro id id' h h' hid
  rw [start, Finmap.lookup_empty] at hid
  cases hid

/-! ## What a step means for one key -/

/-- What a step does to the copies of a key, with the events about the key that it adds. -/
inductive KeyStep (key : String) (s s' : DataPlane) :
    WriteAction → List (Register.Event (Option String)) → Prop
  | quiet {a : WriteAction} (hcell : ∀ address, s'.cell address key = s.cell address key) :
      KeyStep key s s' a []
  | begins {id shardID : Nat} {w : Write}
      (hid : s.handlers.lookup id = some ⟨w, .admitted shardID⟩) (hkey : w.key = key)
      (hcell : ∀ address, s'.cell address key = s.cell address key) :
      KeyStep key s s' (.route id) [.begun w.effect]
  | replicates {id : Nat} {outcome : Outcome} {h : Handler} {url : String}
      (hid : s.handlers.lookup id = some h) (hkey : h.write.key = key)
      (hurl : h.stage.nextURL = some url)
      (hcell : ∀ address, address ≠ url → s'.cell address key = s.cell address key) :
      KeyStep key s s' (.replicate id outcome) []
  | arrives {k : Nat} {url : String} {req : DataRequest} (hk : s.strays[k]? = some (url, req))
      (hkey : req.key = key)
      (hcell : ∀ address, address ≠ url → s'.cell address key = s.cell address key) :
      KeyStep key s s' (.deliver k) []
  | finishes {id : Nat} {w : Write} {done : List String}
      (hid : s.handlers.lookup id = some ⟨w, .replicating done []⟩) (hkey : w.key = key)
      (hcell : ∀ address, s'.cell address key =
        if address = w.address then w.effect else s.cell address key) :
      KeyStep key s s' (.finish id) [.acknowledged w.effect]

theorem Handles.cell_of_ne {address : String} (h : s.Handles url req node) (hne : address ≠ url) :
    (s.setNode url node).cell address key = s.cell address key := by
  rcases h.cell address key with hcell | ⟨heq, -, -⟩
  · exact hcell
  · exact absurd heq hne

theorem key_step (hnumbered : s.Numbered) (hstep : s.step a = some s') (key : String) :
    ∃ events, s'.registerHistory key = s.registerHistory key ++ events ∧
      KeyStep key s s' a events := by
  by_cases hkeyOf : s.keyOf a = some key
  · have hnone : s.registerHistory key = s.registerHistory key ++ [] := (List.append_nil _).symm
    have hended : ∀ {id : Nat} {w : Write} {reply : Reply}, reply ≠ DataNode.written →
        s'.history = s.history ++ [.ended id w reply] →
        s'.registerHistory key = s.registerHistory key ++ [] := by
      intro id w reply hreply hhistory
      rw [List.append_nil]
      exact registerHistory_of_about hhistory (WriteEvent.about_ended_of_ne hreply)
    cases step_cases hstep with
    | accepted | admitted => exact ⟨[], hnone, .quiet fun _ ↦ rfl⟩
    | refused herror =>
      exact ⟨[], hended (DataNode.accept_error_ne_written herror) rfl, .quiet fun _ ↦ rfl⟩
    | rejected hid herror =>
      exact ⟨[], hended (DataNode.checkShard_error_ne_written herror) rfl, .quiet fun _ ↦ rfl⟩
    | @routed id shardID w hid =>
      have hkey := (handler_key_iff hid).mp hkeyOf
      refine ⟨[.begun w.effect], ?_, .begins hid hkey fun _ ↦ rfl⟩
      rw [registerHistory_concat (s := s) (e := .begun id w) rfl, WriteEvent.about_begun hkey]
      rfl
    | replicated hid =>
      exact ⟨[], hnone, .replicates hid ((handler_key_iff hid).mp hkeyOf) rfl
        fun _ hne ↦ Handles.cell_of_ne (Or.inr rfl) hne⟩
    | gaveUp hid => exact ⟨[], hended (by decide) rfl, .quiet fun _ ↦ rfl⟩
    | failed hid hnode =>
      exact ⟨[], hended (by decide) rfl, .replicates hid ((handler_key_iff hid).mp hkeyOf) rfl
        fun _ hne ↦ hnode.cell_of_ne hne⟩
    | @finished id w done hid =>
      have hkey := (handler_key_iff hid).mp hkeyOf
      refine ⟨[.acknowledged w.effect], ?_, .finishes hid hkey fun address ↦ ?_⟩
      · rw [registerHistory_concat (s := s) (e := .ended id w DataNode.written) rfl,
          WriteEvent.about_written hkey]
        rfl
      refine (s.cell_store w.address w.request address key).trans ?_
      by_cases haddress : address = w.address
      · rw [if_pos ⟨haddress, hkey.symm⟩, if_pos haddress]
        rfl
      · rw [if_neg fun h ↦ haddress h.1, if_neg haddress]
    | @delivered k url req node hk hnode =>
      exact ⟨[], hnone, .arrives hk ((stray_key_iff hk).mp hkeyOf) fun _ hne ↦ hnode.cell_of_ne hne⟩
  · have hsame := sameFor_step hnumbered hstep hkeyOf
    refine ⟨[], ?_, .quiet hsame.cell⟩
    rw [List.append_nil]
    exact hsame.registerHistory

end DataPlane

end DistributedCache
