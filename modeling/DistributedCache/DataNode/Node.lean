import DistributedCache.Metadata.Model
import DistributedCache.Cache.ConcurrentMap

/-!
# A data node

`StateManager`, `LeaseManager` and the handlers of `Server`.  A handler reads the configuration
more than once, and the configuration may be replaced between two reads; each part that reads it
once is a definition of its own.
-/

namespace DistributedCache

open FiniteMap

/-! ## HTTP -/

inductive Status where
  | ok
  | badRequest
  | notFound
  | preconditionFailed
  | locked
  | internalServerError
  | badGateway
  | serviceUnavailable
  deriving DecidableEq, Repr

structure Reply where
  status : Status
  body : String
  deriving DecidableEq, Repr

/-- `http.Error` ends the text with a newline. -/
def httpError (text : String) (status : Status) : Reply := ⟨status, text ++ "\n"⟩

/-! ## Requests -/

structure WriteRequest where
  key : String
  value : String
  epoch : Nat
  deriving DecidableEq, Repr

structure DeleteRequest where
  key : String
  epoch : Nat
  deriving DecidableEq, Repr

/-- What `HandlePut`, `HandleDelete` and their counterparts on a replica decode. -/
inductive DataRequest where
  | put (req : WriteRequest)
  | delete (req : DeleteRequest)
  deriving DecidableEq, Repr

namespace DataRequest

def key : DataRequest → String
  | .put req => req.key
  | .delete req => req.key

def epoch : DataRequest → Nat
  | .put req => req.epoch
  | .delete req => req.epoch

/-- What a cache holds under the key afterwards. -/
def effect : DataRequest → Option String
  | .put req => some req.value
  | .delete _ => none

/-- The change of the cache: `cache.Put` or `cache.Delete`. -/
def store (req : DataRequest) (c : ConcurrentMapCache) : ConcurrentMapCache :=
  match req with
  | .put req => c.put req.key req.value
  | .delete req => c.delete req.key

theorem lookup_store_self (req : DataRequest) (c : ConcurrentMapCache) :
    (req.store c).lookup req.key = req.effect := by
  cases req with
  | put req => exact ConcurrentMapCache.lookup_put_self
  | delete req => exact ConcurrentMapCache.lookup_delete_self

theorem lookup_store_of_ne {req : DataRequest} {c : ConcurrentMapCache} {key : String}
    (h : key ≠ req.key) : (req.store c).lookup key = c.lookup key := by
  cases req with
  | put req => exact ConcurrentMapCache.lookup_put_of_ne h
  | delete req => exact ConcurrentMapCache.lookup_delete_of_ne h

end DataRequest

/-! ## The node -/

/-- How far a call of `renew` has got. -/
inductive RenewStage where
  | idle
  /-- The heartbeat is under way to the controller. -/
  | heartbeat
  /-- The controller has answered the heartbeat. -/
  | heartbeatReply (epoch : Nat)
  /-- The request for the topology is under way. -/
  | topology
  | topologyReply (config : ClusterConfig)
  /-- `renew` has returned true, and `extendLease` is next. -/
  | renewed
  deriving DecidableEq

structure DataNode where
  nodeID : String
  /-- The configuration in the `StateManager`. -/
  config : ClusterConfig
  cache : ConcurrentMapCache
  /-- `validUntil` of the `LeaseManager`; `0` is the zero time. -/
  validUntil : Nat
  /-- `duration` of the `LeaseManager`. -/
  duration : Nat
  stage : RenewStage

namespace DataNode

/-- `NewStateManager`, `NewLeaseManager`, `NewConcurrentMapCache` and `NewServer`. -/
def newServer (nodeID : String) (duration : Nat) : DataNode where
  nodeID := nodeID
  config := ⟨0, 0, ∅, ∅⟩
  cache := ∅
  validUntil := 0
  duration := duration
  stage := .idle

/-! ## The lease -/

def isActive (node : DataNode) (now : Nat) : Bool := now < node.validUntil

def extendLease (node : DataNode) (now : Nat) : DataNode :=
  { node with validUntil := now + node.duration, stage := .idle }

end DataNode

/-- The steps of a renewal.  The loop of `Start` runs one `renew` after another. -/
inductive RenewAction where
  | sendHeartbeat
  /-- The controller handles the heartbeat. -/
  | heartbeatHandled
  | receiveReply
  /-- The body of the reply cannot be decoded; the lease is renewed all the same. -/
  | receiveGarbled
  /-- The controller handles the request for the topology. -/
  | topologyHandled
  | updateTopology
  /-- `fetchTopology` gives up. -/
  | fetchFailed
  /-- The heartbeat fails, and `renew` returns false. -/
  | heartbeatFailed
  | extendLease
  deriving DecidableEq, Repr

/-- One step of a renewal; `controller` is the configuration the controller has at that moment. -/
def DataNode.renew (node : DataNode) (controller : ClusterConfig) (now : Nat) :
    RenewAction → Option DataNode
  | .sendHeartbeat =>
    if node.stage = .idle then some { node with stage := .heartbeat } else none
  | .heartbeatHandled =>
    if node.stage = .heartbeat then
      some { node with stage := .heartbeatReply controller.epoch }
    else none
  | .receiveReply =>
    match node.stage with
    | .heartbeatReply epoch =>
      some { node with stage := if node.config.epoch < epoch then .topology else .renewed }
    | _ => none
  | .receiveGarbled =>
    match node.stage with
    | .heartbeatReply _ => some { node with stage := .renewed }
    | _ => none
  | .topologyHandled =>
    if node.stage = .topology then some { node with stage := .topologyReply controller } else none
  | .updateTopology =>
    match node.stage with
    | .topologyReply config => some { node with config := config, stage := .renewed }
    | _ => none
  | .fetchFailed =>
    match node.stage with
    | .topology => some { node with stage := .renewed }
    | .topologyReply _ => some { node with stage := .renewed }
    | _ => none
  | .heartbeatFailed =>
    match node.stage with
    | .heartbeat => some { node with stage := .idle }
    | .heartbeatReply _ => some { node with stage := .idle }
    | _ => none
  | .extendLease =>
    if node.stage = .renewed then some (node.extendLease now) else none

/-! ## Handlers of client requests -/

def ClusterConfig.getReplicaURLs (config : ClusterConfig) (shardID : Nat) : List String :=
  match config.shards.lookup shardID with
  | none => []
  | some shard => shard.replicaIDs.filterMap fun r ↦ (config.nodes.lookup r).map (·.address)

/-- The shard that `HandlePut` and `HandleDelete` compute. -/
def ClusterConfig.shardOf (config : ClusterConfig) (key : String) : Nat :=
  if 0 < config.totalShards then shardIDOf key config.totalShards else 0

namespace DataNode

def fenced : Reply := httpError "Node is Fenced (Lease Expired)" .serviceUnavailable

def staleClient : Reply := httpError "Client Epoch Stale" .preconditionFailed

/-- The part of `HandlePut` and `HandleDelete` up to the comparison of the epochs; `body` is `none`
when it cannot be decoded. -/
def accept (node : DataNode) (now : Nat) (body : Option DataRequest) : Except Reply DataRequest :=
  if node.isActive now = false then .error fenced
  else match body with
    | none => .error (httpError "Invalid request body" .badRequest)
    | some req =>
      if req.epoch < node.config.epoch then .error staleClient else .ok req

def handlePut (node : DataNode) (now : Nat) (body : Option WriteRequest) :
    Except Reply DataRequest := node.accept now (body.map .put)

def handleDelete (node : DataNode) (now : Nat) (body : Option DeleteRequest) :
    Except Reply DataRequest := node.accept now (body.map .delete)

/-- The part that reads the configuration: is this node the primary of the key's shard, and is the
shard open for writes?  A node without a configuration takes every key. -/
def checkShard (node : DataNode) (key : String) : Except Reply Nat :=
  if 0 < node.config.totalShards then
    match node.config.shards.lookup (shardIDOf key node.config.totalShards) with
    | none => .error (httpError "Not Primary for Shard" .badRequest)
    | some shard =>
      if shard.primaryID ≠ node.nodeID then
        .error (httpError "Not Primary for Shard" .badRequest)
      else if shard.status = .locked ∨ shard.status = .migrating then
        .error (httpError "Shard is Locked/Migrating" .locked)
      else .ok (shardIDOf key node.config.totalShards)
  else .ok 0

def replicationFailed : Reply := httpError "Replication Failed" .internalServerError

def written : Reply := ⟨.ok, ""⟩

def store (node : DataNode) (req : DataRequest) : DataNode :=
  { node with cache := req.store node.cache }

def handleGet (node : DataNode) (now : Nat) (key : String) : Reply :=
  if node.isActive now = false then fenced
  else if key = "" then httpError "Missing key parameter" .badRequest
  else if node.cache.get key = "" then httpError "Key not found" .notFound
  else ⟨.ok, node.cache.get key⟩

/-! ## Handlers of internal requests -/

def stalePrimary : Reply := httpError "Primary is Stale" .preconditionFailed

/-- `HandleReplicate` and `HandleDeleteReplicate`. -/
def replicate (node : DataNode) (body : Option DataRequest) : Reply × DataNode :=
  match body with
  | none => (httpError "Invalid request body" .badRequest, node)
  | some req =>
    if req.epoch < node.config.epoch then (stalePrimary, node) else (written, node.store req)

def handleReplicate (node : DataNode) (body : Option WriteRequest) : Reply × DataNode :=
  node.replicate (body.map .put)

def handleDeleteReplicate (node : DataNode) (body : Option DeleteRequest) : Reply × DataNode :=
  node.replicate (body.map .delete)

def handleExport (node : DataNode) (shardID : Nat) : Except Reply ConcurrentMapCache :=
  if node.config.totalShards = 0 then
    .error (httpError "Cluster not configured" .serviceUnavailable)
  else .ok (node.cache.exportShard shardID node.config.totalShards)

def handleImport (node : DataNode) (data : ConcurrentMapCache) : Reply × DataNode :=
  (written, { node with cache := node.cache.importData data })

/-! ## What the handlers do -/

variable {node : DataNode} {now : Nat} {key : String} {req : DataRequest}

/-- A node whose lease has run out answers every client with 503. -/
theorem fenced_of_not_isActive (h : node.isActive now = false) (body : Option WriteRequest)
    (body' : Option DeleteRequest) (key : String) :
    node.handlePut now body = .error fenced ∧ node.handleDelete now body' = .error fenced ∧
      node.handleGet now key = fenced := by
  simp [handlePut, handleDelete, handleGet, accept, h]

@[simp] theorem store_cache : (node.store req).cache = req.store node.cache := rfl

variable {body : Option DataRequest} {reply : Reply}

/-- What a request that is accepted has passed. -/
theorem accept_ok (h : node.accept now body = .ok req) :
    node.isActive now = true ∧ body = some req ∧ node.config.epoch ≤ req.epoch := by
  unfold accept at h
  split at h
  · cases h
  · rename_i hactive
    cases body with
    | none => cases h
    | some req' =>
      by_cases hstale : req'.epoch < node.config.epoch
      · simp only [if_pos hstale] at h
        cases h
      · simp only [if_neg hstale] at h
        cases h
        exact ⟨Bool.eq_true_of_not_eq_false hactive, rfl, Nat.le_of_not_lt hstale⟩

/-- Nothing but the end of a write is answered with 200. -/
theorem accept_error_status (h : node.accept now body = .error reply) : reply.status ≠ .ok := by
  unfold accept at h
  split at h
  · cases h
    decide
  · cases body with
    | none =>
      cases h
      decide
    | some req =>
      simp only at h
      split at h
      · cases h
        decide
      · cases h

theorem checkShard_error_status (h : node.checkShard key = .error reply) : reply.status ≠ .ok := by
  unfold checkShard at h
  split at h
  · split at h
    · cases h
      decide
    · split at h
      · cases h
        decide
      · split at h
        · cases h
          decide
        · cases h
  · cases h

theorem accept_error_ne_written (h : node.accept now body = .error reply) : reply ≠ written := by
  rintro rfl
  exact accept_error_status h rfl

theorem checkShard_error_ne_written (h : node.checkShard key = .error reply) : reply ≠ written := by
  rintro rfl
  exact checkShard_error_status h rfl

theorem accept_stale (h : node.accept now (some req) = .error staleClient) :
    req.epoch < node.config.epoch := by
  by_contra hfresh
  unfold accept at h
  simp only [if_neg hfresh] at h
  split at h
  · exact absurd h (by decide)
  · cases h

/-- What a request that is admitted has passed. -/
theorem checkShard_ok {shardID : Nat} (h : node.checkShard key = .ok shardID) :
    shardID = node.config.shardOf key := by
  unfold checkShard at h
  unfold ClusterConfig.shardOf
  split at h
  · rename_i hshards
    rw [if_pos hshards]
    split at h
    · cases h
    · split at h
      · cases h
      · split at h
        · cases h
        · cases h
          rfl
  · rename_i hnone
    rw [if_neg hnone]
    cases h
    rfl

theorem replicate_of_lt (h : req.epoch < node.config.epoch) :
    node.replicate (some req) = (stalePrimary, node) := if_pos h

theorem replicate_of_le (h : node.config.epoch ≤ req.epoch) :
    node.replicate (some req) = (written, node.store req) := if_neg (Nat.not_lt.mpr h)

theorem replicate_cases (node : DataNode) (req : DataRequest) :
    ((node.replicate (some req)).1 = written ∧ (node.replicate (some req)).2 = node.store req) ∨
      ((node.replicate (some req)).1.status ≠ .ok ∧ (node.replicate (some req)).2 = node) := by
  by_cases hstale : req.epoch < node.config.epoch
  · right
    rw [replicate_of_lt hstale]
    exact ⟨(by decide : stalePrimary.status ≠ .ok), rfl⟩
  · left
    rw [replicate_of_le (Nat.le_of_not_lt hstale)]
    exact ⟨rfl, rfl⟩

end DataNode

/-- A renewal changes neither the cache nor the node's name. -/
theorem DataNode.renew_cache {node node' : DataNode} {controller : ClusterConfig} {now : Nat}
    {a : RenewAction} (h : node.renew controller now a = some node') :
    node'.cache = node.cache ∧ node'.nodeID = node.nodeID := by
  cases a <;> simp only [DataNode.renew] at h <;> split at h <;> cases h <;> exact ⟨rfl, rfl⟩

end DistributedCache
