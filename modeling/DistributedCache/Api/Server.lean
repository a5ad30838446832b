import DistributedCache.Lib.FiniteMap
import DistributedCache.Raft.Attempts

/-!
# The HTTP servers of `pkg/api`

`handlePut` and `handleDelete` with the `Retrier` and the idempotency caches, one server beside each
node.  A handler is a request that moves from stage to stage: it looks into the cache of its server,
calls `Forward` up to three times, and stores what it answers in the cache.  The time is what the
handler reads from the clock, in nanoseconds, and `sha256` is the hash as a hexadecimal text.
-/

namespace DistributedCache

open FiniteMap

variable {n : Nat} {σ : Type}

/-! ## Requests -/

structure PutRequest where
  key : Int
  value : Int
  deriving DecidableEq, Repr

/-- What the handlers read beside the body: the headers `Idempotency-Key` and `X-Client-ID`, empty
when they are absent, and the address of the client. -/
structure Origin where
  idempotencyKey : String
  clientID : String
  remoteAddr : String
  deriving DecidableEq, Repr

def getClientID (origin : Origin) : String :=
  if origin.clientID = "" then origin.remoteAddr else origin.clientID

def generateIdempotencyToken (sha256 : String → String) (req : PutRequest) (clientID : String) :
    String :=
  sha256 (clientID ++ ":" ++ toString req.key ++ ":" ++ toString req.value)

/-- The token that `handleDelete` generates.  The texts of the two kinds of requests may coincide,
since nothing keeps a client from calling itself `DELETE:x`. -/
def generateDeleteToken (sha256 : String → String) (key : Int) (clientID : String) : String :=
  sha256 ("DELETE:" ++ clientID ++ ":" ++ toString key)

/-- The token of the header, or the generated one. -/
def Origin.token (origin : Origin) (generated : String) : String :=
  if origin.idempotencyKey = "" then generated else origin.idempotencyKey

/-- The message of `handlePut`. -/
def putMessage (sha256 : String → String) (origin : Origin) (req : PutRequest) : Message where
  msgType := .put
  key := int32 req.key
  value := some (int32 req.value)
  data := []
  idempotencyToken := origin.token (generateIdempotencyToken sha256 req (getClientID origin))
  clientID := getClientID origin

/-- The message of `handleDelete`. -/
def deleteMessage (sha256 : String → String) (origin : Origin) (key : Int) : Message where
  msgType := .delete
  key := int32 key
  value := none
  data := []
  idempotencyToken := origin.token (generateDeleteToken sha256 key (getClientID origin))
  clientID := getClientID origin

/-! ## Retries -/

/-- `strings.Contains`. -/
def textContains (text pattern : String) : Bool := decide (pattern.toList <:+: text.toList)

def retryable : List String :=
  ["timeout", "no leader", "election in progress", "leader unavailable", "network",
    "connection refused", "eof", "deadline exceeded"]

def nonRetryable : List String := ["invalid", "bad request", "not found", "conflict"]

def isRetryableError (err : String) : Bool :=
  if retryable.any (textContains err.toLower) then true
  -- an error that neither list knows is tried again
  else !nonRetryable.any (textContains err.toLower)

/-- `MaxAttempts` of the configuration that `NewServer` takes for both handlers. -/
def maxAttempts : Nat := 3

/-- What `ExecuteWithRetry` does when an attempt, counted from `0`, has failed: it returns an error,
or it waits and tries again (`none`). -/
def executeWithRetry (attempt : Nat) (err : String) : Option String :=
  if isRetryableError err = false then some err
  else if attempt < maxAttempts - 1 then none
  else some ("max retry attempts (" ++ toString maxAttempts ++ ") exceeded: " ++ err)

/-! ## The idempotency cache -/

/-- `IdempotencyCacheEntry`; of the response only `Success` is read. -/
structure IdempotencyCacheEntry where
  success : Bool
  completedAt : Int
  deriving DecidableEq, Repr

abbrev IdempotencyCache := Map String IdempotencyCacheEntry

namespace IdempotencyCache

/-- Five minutes. -/
def ttl : Int := 5 * 60 * 10 ^ 9

def get (c : IdempotencyCache) (now : Int) (token : String) : Option Bool :=
  (c.lookup token).bind fun entry ↦
    if ttl < now - entry.completedAt then none else some entry.success

def set (c : IdempotencyCache) (now : Int) (token : String) (success : Bool) : IdempotencyCache :=
  c.insert token ⟨success, now⟩

/-- One round of `cleanupExpired`. -/
def cleanupExpired (c : IdempotencyCache) (now : Int) : IdempotencyCache :=
  filterKeys (fun token ↦ ∀ entry ∈ c.lookup token, ¬ ttl < now - entry.completedAt) c

variable {c : IdempotencyCache} {now : Int} {token : String}

theorem get_of_lookup {entry : IdempotencyCacheEntry} (hlookup : c.lookup token = some entry)
    (hfresh : now - entry.completedAt ≤ ttl) : c.get now token = some entry.success := by
  rw [get, hlookup, Option.bind_some, if_neg (by omega)]

theorem lookup_of_get {success : Bool} (h : c.get now token = some success) :
    ∃ entry, c.lookup token = some entry ∧ entry.success = success := by
  obtain ⟨entry, hlookup, hif⟩ := Option.bind_eq_some_iff.mp h
  split at hif
  · cases hif
  · exact ⟨entry, hlookup, Option.some.inj hif⟩

/-- What has not expired is not removed. -/
theorem lookup_cleanupExpired
    (hfresh : ∀ entry ∈ c.lookup token, now - entry.completedAt ≤ ttl) :
    (c.cleanupExpired now).lookup token = c.lookup token := by
  rw [cleanupExpired, lookup_filterKeys, if_pos]
  intro entry hentry
  have := hfresh entry hentry
  omega

end IdempotencyCache

/-! ## Handlers -/

inductive ApiReply where
  /-- `PutResponse` and `DeleteResponse`, with the header `X-Cache`. -/
  | ok (success : Bool) (message : String) (cacheHit : Bool)
  | error (status : Nat) (message : String)
  deriving DecidableEq, Repr

def successText : MessageType → String
  | .delete => "Key deleted successfully"
  | _ => "Key-value pair stored successfully"

/-- The answer to a failed request. -/
def failureReply (deadlineExceeded : Bool) (broadcastErr err : String) : ApiReply :=
  if deadlineExceeded then .error 504 "Request timeout after retries"
  else if textContains broadcastErr "no leader" then .error 503 "No leader available"
  else .error 500 err

inductive ApiStage where
  /-- `Forward` runs as the call with this number. -/
  | executing (attempt call : Nat)
  | backoff (attempt : Nat) (lastErr : String)
  | answered (reply : ApiReply)
  deriving DecidableEq

structure ApiRequest (n : Nat) where
  node : Fin n
  message : Message
  stage : ApiStage
  deriving DecidableEq

def ApiRequest.isOpen (req : ApiRequest n) : Bool :=
  match req.stage with
  | .answered _ => false
  | _ => true

/-- The cluster with the servers beside its nodes. -/
structure Api (n : Nat) (σ : Type) where
  service : Service n σ
  idempotencyCache : Fin n → IdempotencyCache
  requests : List (ApiRequest n)

inductive ApiAction (n : Nat) where
  /-- A step of the cluster, or of one of its other clients. -/
  | service (a : ServiceAction n)
  | handlePut (i : Fin n) (now : Int) (origin : Origin) (req : PutRequest)
  | handleDelete (i : Fin n) (now : Int) (origin : Origin) (key : Int)
  /-- `Forward` has returned; `expired` says that the context's deadline has passed. -/
  | attemptDone (k : Nat) (now : Int) (expired : Bool)
  /-- The delay before the next attempt is over. -/
  | retry (k : Nat)
  /-- The context ends during the delay, by its deadline or because the client has gone. -/
  | contextDone (k : Nat) (cancelled : Bool)
  | cleanupExpired (i : Fin n) (now : Int)
  deriving DecidableEq

/-- The server, the time and the message of a request that comes in. -/
def ApiAction.write (sha256 : String → String) : ApiAction n → Option (Fin n × Int × Message)
  | .handlePut i now origin req => some (i, now, putMessage sha256 origin req)
  | .handleDelete i now origin key => some (i, now, deleteMessage sha256 origin key)
  | _ => none

namespace Api

def start (n : Nat) (snapshotThreshold : Int) (application : Fin n → σ) : Api n σ where
  service := Service.start n snapshotThreshold application
  idempotencyCache _ := ∅
  requests := []

/-- The request goes on. -/
def proceed (s : Api n σ) (k : Nat) (req : ApiRequest n) (stage : ApiStage) : Api n σ :=
  { s with requests := s.requests.set k { req with stage := stage } }

/-- The next attempt of the request. -/
def call (s : Api n σ) (i : Fin n) (message : Message) : Api n σ :=
  { s with service := s.service.invoke ⟨i, message.wire, .forward⟩ }

/-- What the two handlers do with their messages. -/
def handleWrite (s : Api n σ) (i : Fin n) (now : Int) (message : Message) : Api n σ :=
  match (s.idempotencyCache i).get now message.idempotencyToken with
  | some success =>
    let text := successText message.msgType ++ " (cached)"
    { s with requests := s.requests ++ [⟨i, message, .answered (.ok success text true)⟩] }
  | none =>
    { s.call i message with
      requests := s.requests ++ [⟨i, message, .executing 0 s.service.calls.length⟩] }

/-- The handler of a request gets the answer of `Forward`. -/
def attemptDone (s : Api n σ) (k : Nat) (req : ApiRequest n) (now : Int) (expired : Bool)
    (attempt : Nat) : Except String (Bool × Int) → Api n σ
  | .ok (success, _) =>
    let reply := .ok success (successText req.message.msgType) false
    { s.proceed k req (.answered reply) with
      idempotencyCache := Function.update s.idempotencyCache req.node
        ((s.idempotencyCache req.node).set now req.message.idempotencyToken success) }
  | .error err =>
    match executeWithRetry attempt err with
    | none => s.proceed k req (.backoff attempt err)
    | some last => s.proceed k req (.answered (failureReply expired err last))

/-- `ExecuteWithRetry` goes on, or its handler does, once `Forward` has returned. -/
def returned (s : Api n σ) (k : Nat) (now : Int) (expired : Bool) : Option (Api n σ) :=
  s.requests[k]?.bind fun req ↦
    match req.stage with
    | .executing attempt call =>
      match s.service.calls[call]? with
      | some ⟨_, _, .returned result⟩ => some (s.attemptDone k req now expired attempt result)
      | _ => none
    | _ => none

def retry (s : Api n σ) (k : Nat) : Option (Api n σ) :=
  s.requests[k]?.bind fun req ↦
    match req.stage with
    | .backoff attempt _ => some ((s.call req.node req.message).proceed k req
        (.executing (attempt + 1) s.service.calls.length))
    | _ => none

def contextDone (s : Api n σ) (k : Nat) (cancelled : Bool) : Option (Api n σ) :=
  s.requests[k]?.bind fun req ↦
    match req.stage with
    | .backoff _ lastErr =>
      let err := if cancelled then "context canceled" else "context deadline exceeded"
      some (s.proceed k req (.answered (failureReply (!cancelled) lastErr err)))
    | _ => none

def cleanupExpired (s : Api n σ) (i : Fin n) (now : Int) : Api n σ :=
  { s with
    idempotencyCache := Function.update s.idempotencyCache i
      ((s.idempotencyCache i).cleanupExpired now) }

def step (sha256 : String → String) (app : Application σ) (s : Api n σ) :
    ApiAction n → Option (Api n σ)
  | .service a => (s.service.step app a).map fun t ↦ { s with service := t }
  | .handlePut i now origin req => some (s.handleWrite i now (putMessage sha256 origin req))
  | .handleDelete i now origin key => some (s.handleWrite i now (deleteMessage sha256 origin key))
  | .attemptDone k now expired => s.returned k now expired
  | .retry k => s.retry k
  | .contextDone k cancelled => s.contextDone k cancelled
  | .cleanupExpired i now => some (s.cleanupExpired i now)

/-! ## What a step can do -/

/-- The ways in which a step can go. -/
inductive ApiCase (sha256 : String → String) (app : Application σ) (s : Api n σ) :
    ApiAction n → Api n σ → Prop
  | service {a : ServiceAction n} {t : Service n σ} (hstep : s.service.step app a = some t) :
      ApiCase sha256 app s (.service a) { s with service := t }
  | hits {a : ApiAction n} {i : Fin n} {now : Int} {m : Message} {success : Bool}
      (hwrite : a.write sha256 = some (i, now, m))
      (hget : (s.idempotencyCache i).get now m.idempotencyToken = some success) :
      ApiCase sha256 app s a { s with
        requests := s.requests ++
          [⟨i, m, .answered (.ok success (successText m.msgType ++ " (cached)") true)⟩] }
  | executes {a : ApiAction n} {i : Fin n} {now : Int} {m : Message}
      (hwrite : a.write sha256 = some (i, now, m))
      (hget : (s.idempotencyCache i).get now m.idempotencyToken = none) :
      ApiCase sha256 app s a { s.call i m with
        requests := s.requests ++ [⟨i, m, .executing 0 s.service.calls.length⟩] }
  | completes {k attempt call : Nat} {now : Int} {expired success : Bool} {value : Int}
      {req : ApiRequest n} {c : Invocation n} (hreq : s.requests[k]? = some req)
      (hstage : req.stage = .executing attempt call) (hcall : s.service.calls[call]? = some c)
      (hreturned : c.stage = .returned (.ok (success, value))) :
      ApiCase sha256 app s (.attemptDone k now expired)
        (s.attemptDone k req now expired attempt (.ok (success, value)))
  | waits {k attempt call : Nat} {now : Int} {expired : Bool} {err : String} {req : ApiRequest n}
      {c : Invocation n} (hreq : s.requests[k]? = some req)
      (hstage : req.stage = .executing attempt call) (hcall : s.service.calls[call]? = some c)
      (hreturned : c.stage = .returned (.error err)) :
      ApiCase sha256 app s (.attemptDone k now expired) (s.proceed k req (.backoff attempt err))
  | retries {k attempt : Nat} {err : String} {req : ApiRequest n}
      (hreq : s.requests[k]? = some req) (hstage : req.stage = .backoff attempt err) :
      ApiCase sha256 app s (.retry k) ((s.call req.node req.message).proceed k req
        (.executing (attempt + 1) s.service.calls.length))
  | fails {a : ApiAction n} {k : Nat} {req : ApiRequest n} (hreq : s.requests[k]? = some req)
      (hwrite : a.write sha256 = none) (hopen : req.isOpen = true)
      (hfailed : ∀ attempt call, req.stage = .executing attempt call →
        ∃ c err, s.service.calls[call]? = some c ∧ c.stage = .returned (.error err))
      (status : Nat) (text : String) :
      ApiCase sha256 app s a (s.proceed k req (.answered (.error status text)))
  | cleans (i : Fin n) (now : Int) :
      ApiCase sha256 app s (.cleanupExpired i now) (s.cleanupExpired i now)

variable {sha256 : String → String} {app : Application σ} {s s' : Api n σ} {a : ApiAction n}

theorem failureReply_eq (deadlineExceeded : Bool) (broadcastErr err : String) :
    ∃ status text, failureReply deadlineExceeded broadcastErr err = .error status text := by
  unfold failureReply
  split
  · exact ⟨_, _, rfl⟩
  split
  · exact ⟨_, _, rfl⟩
  · exact ⟨_, _, rfl⟩

theorem handleWrite_cases {i : Fin n} {now : Int} {m : Message}
    (hwrite : a.write sha256 = some (i, now, m)) :
    ApiCase sha256 app s a (s.handleWrite i now m) := by
  unfold handleWrite
  split
  · rename_i success hget
    exact .hits hwrite hget
  · rename_i hget
    exact .executes hwrite hget

theorem step_cases (h : s.step sha256 app a = some s') : ApiCase sha256 app s a s' := by
  cases a with
  | service a =>
    obtain ⟨t, ht, rfl⟩ := Option.map_eq_some_iff.mp h
    exact .service ht
  | handlePut | handleDelete =>
    cases h
    exact handleWrite_cases rfl
  | attemptDone k now expired =>
    obtain ⟨req, hreq, h⟩ := Option.bind_eq_some_iff.mp h
    split at h
    · rename_i attempt call hstage
      split at h
      · rename_i result hcall
        cases h
        cases result with
        | ok answer => exact .completes hreq hstage hcall rfl
        | error err =>
          unfold attemptDone
          simp only
          split
          · exact .waits hreq hstage hcall rfl
          · obtain ⟨status, text, heq⟩ := failureReply_eq expired err _
            rw [heq]
            refine .fails hreq rfl (by rw [ApiRequest.isOpen, hstage]) (fun _ _ h ↦ ?_) status text
            cases hstage.symm.trans h
            exact ⟨_, err, hcall, rfl⟩
      · cases h
    · cases h
  | retry k =>
    obtain ⟨req, hreq, h⟩ := Option.bind_eq_some_iff.mp h
    split at h
    · rename_i attempt err hstage
      cases h
      exact .retries hreq hstage
    · cases h
  | contextDone k cancelled =>
    obtain ⟨req, hreq, h⟩ := Option.bind_eq_some_iff.mp h
    split at h
    · rename_i attempt err hstage
      cases h
      obtain ⟨status, text, heq⟩ := failureReply_eq (!cancelled) err
        (if cancelled then "context canceled" else "context deadline exceeded")
      rw [heq]
      refine .fails hreq rfl (by rw [ApiRequest.isOpen, hstage]) (fun _ _ h ↦ ?_) status text
      cases hstage.symm.trans h
    · cases h
  | cleanupExpired i now =>
    cases h
    exact .cleans i now

end Api

end DistributedCache
