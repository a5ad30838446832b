import DistributedCache.Cluster.World
import DistributedCache.DataNode.Answers
import DistributedCache.Lib.Query

/-!
# `SmartClient`

Any number of clients with their calls of `Put`, `Get`, `Delete` and `FetchTopology`, over the
controller and the data nodes.  A step of a call is one read of the topology, the sending or the
arrival of a request, or the arrival of an answer.  A client may give a request up at any moment
after it was sent; it may still reach the node afterwards.
-/

namespace DistributedCache

open FiniteMap Transition UrlQuery

def Status.code : Status → Nat
  | .ok => 200
  | .badRequest => 400
  | .notFound => 404
  | .preconditionFailed => 412
  | .locked => 423
  | .internalServerError => 500
  | .badGateway => 502
  | .serviceUnavailable => 503

/-! ## Keys in URLs -/

def utf8 (s : String) : Bytes := s.toUTF8.data.toList

/-- `none` when the bytes are not valid UTF-8. -/
def ofUtf8 (bytes : Bytes) : Option String := String.fromUTF8? ⟨bytes.toArray⟩

theorem ofUtf8_eq_some_iff {bytes : Bytes} {s : String} :
    ofUtf8 bytes = some s ↔ bytes = utf8 s := by
  unfold ofUtf8 String.fromUTF8? utf8
  constructor
  · intro h
    split at h
    · cases h
      rfl
    · cases h
  · rintro rfl
    rw [Array.toArray_toList]
    exact dif_pos s.isValidUTF8

/-- `HandleGet` with the value of the parameter `key`.  The keys of a cache are valid UTF-8, so a
parameter that is not is not found. -/
def DataNode.handleGetBytes (node : DataNode) (now : Nat) (value : Bytes) : Reply :=
  match ofUtf8 value with
  | some key => node.handleGet now key
  | none => if node.isActive now = false then fenced else httpError "Key not found" .notFound

/-- What the server of a node answers to a `Get` for the key; `none` when the client cannot send
it. -/
def DataNode.answerGet (node : DataNode) (now : Nat) (key : String) : Option Reply :=
  match deliver (utf8 "key") (utf8 key) with
  | .unparsable => none
  | .malformed => some ⟨.badRequest, "400 Bad Request"⟩
  | .value value => some (node.handleGetBytes now value)

theorem utf8_eq_flatMap (s : String) : utf8 s = s.toList.flatMap String.utf8EncodeChar := by
  unfold utf8 String.toUTF8
  rw [← String.utf8Encode_toList]
  exact List.data_toByteArray ▸ List.toList_toArray

/-- Letters and digits are one plain byte each. -/
theorem plain_of_alphanumeric {key : String} (h : key.toList.all Char.isAlphanum = true) :
    ∀ b ∈ utf8 key, Plain b := by
  have hplain : ∀ v ≤ 122, 48 ≤ v → v ≠ 59 → Plain (UInt8.ofNat v) := by decide
  rw [utf8_eq_flatMap]
  intro b hb
  obtain ⟨c, hc, hb⟩ := List.mem_flatMap.mp hb
  have hrange : 48 ≤ c.val.toNat ∧ c.val.toNat ≤ 122 ∧ c.val.toNat ≠ 59 := by
    have hchar := List.all_eq_true.mp h c hc
    change (decide (c.val ≥ 65 ∧ c.val ≤ 90) || c.val ≥ 97 && c.val ≤ 122 ||
      c.val ≥ 48 && c.val ≤ 57) = true at hchar
    simp [UInt32.le_iff_toNat_le] at hchar
    change 48 ≤ c.toNat ∧ c.toNat ≤ 122 ∧ c.toNat ≠ 59
    omega
  unfold String.utf8EncodeChar at hb
  rw [if_pos (by omega)] at hb
  rw [List.mem_singleton.mp hb]
  exact hplain _ hrange.2.1 hrange.1 hrange.2.2

theorem plain_parameter : ∀ b ∈ utf8 "key", Plain b ∧ b ≠ equals := by decide +kernel

/-- A key of plain bytes arrives at `HandleGet`. -/
theorem answerGet_plain {key : String} (hkey : ∀ b ∈ utf8 key, Plain b) (node : DataNode)
    (now : Nat) : node.answerGet now key = some (node.handleGet now key) := by
  have harrives : deliver (utf8 "key") (utf8 key) = .value (utf8 key) :=
    (deliver_eq_value_iff plain_parameter).mpr hkey
  have hdecoded : ofUtf8 (utf8 key) = some key := ofUtf8_eq_some_iff.mpr rfl
  unfold DataNode.answerGet DataNode.handleGetBytes
  simp only [harrives, hdecoded]

/-! ## A client -/

structure SmartClient where
  config : Option ClusterConfig
  maxRetries : Nat
  deriving DecidableEq

/-- `NewSmartClient` before its first `FetchTopology`. -/
def SmartClient.newSmartClient : SmartClient := ⟨none, 5⟩

structure RouteResult where
  /-- The target's URL is this address with `http://` before it. -/
  address : String
  epoch : Nat
  shardID : Nat
  deriving DecidableEq, Repr

def SmartClient.route (c : SmartClient) (key : String) : Except String RouteResult :=
  match c.config with
  | none => .error "no topology available"
  | some config =>
    if config.totalShards = 0 then .error "cluster has no shards configured"
    else
      let shardID := shardIDOf key config.totalShards
      match config.shards.lookup shardID with
      | none => .error ("shard " ++ toString shardID ++ " not found in config")
      | some shard =>
        match config.nodes.lookup shard.primaryID with
        | none => .error ("primary node " ++ shard.primaryID ++ " not found in config")
        | some node => .ok ⟨node.address, config.epoch, shardID⟩

inductive Op where
  | put (key value : String)
  | get (key : String)
  | delete (key : String)
  | fetchTopology
  deriving DecidableEq, Repr

namespace Op

/-- The key that `Route` is called with. -/
def key : Op → String
  | .put key _ => key
  | .get key => key
  | .delete key => key
  | .fetchTopology => ""

/-- The body of a request that writes. -/
def request (epoch : Nat) : Op → Option DataRequest
  | .put key value => some (.put ⟨key, value, epoch⟩)
  | .delete key => some (.delete ⟨key, epoch⟩)
  | _ => none

/-- What the call writes, and where. -/
def write : Op → Option (String × Option String)
  | .put key value => some (key, some value)
  | .delete key => some (key, none)
  | _ => none

theorem write_of_request {op : Op} {epoch : Nat} {req : DataRequest}
    (h : op.request epoch = some req) : op.write = some (req.key, req.effect) := by
  cases op <;> cases h <;> rfl

end Op

inductive CallError where
  | keyNotFound (key : String)
  | unexpectedStatus (status : Status)
  | maxRetries (op : Op)
  | fetchTopology (cause : String)
  deriving DecidableEq, Repr

def CallError.text : CallError → String
  | .keyNotFound key => "key not found: " ++ key
  | .unexpectedStatus status => "unexpected error: status " ++ toString status.code
  | .maxRetries (.put key _) => "max retries exceeded for Put(" ++ key ++ ")"
  | .maxRetries (.get key) => "max retries exceeded for Get(" ++ key ++ ")"
  | .maxRetries (.delete key) => "max retries exceeded for Delete(" ++ key ++ ")"
  -- `FetchTopology` has no loop of attempts
  | .maxRetries .fetchTopology => ""
  | .fetchTopology cause => "failed to fetch topology from any controller: " ++ cause

inductive Result where
  | nil
  | value (value : String)
  | error (e : CallError)
  deriving DecidableEq, Repr

/-- What a call does with an answer. -/
inductive Verdict where
  | done (result : Result)
  /-- `FetchTopology`, then the next attempt. -/
  | refetch
  | retry
  deriving DecidableEq, Repr

def putVerdict (status : Status) : Verdict :=
  match status with
  | .ok => .done .nil
  | .badRequest | .preconditionFailed | .locked | .serviceUnavailable => .refetch
  | .internalServerError => .retry
  | _ => .done (.error (.unexpectedStatus status))

def getVerdict (key : String) (reply : Reply) : Verdict :=
  match reply.status with
  | .ok => .done (.value reply.body)
  | .notFound => .done (.error (.keyNotFound key))
  | .locked => .refetch
  | .serviceUnavailable => .retry
  | status => .done (.error (.unexpectedStatus status))

def deleteVerdict (status : Status) : Verdict :=
  match status with
  | .ok => .done .nil
  | .preconditionFailed | .locked => .refetch
  | .serviceUnavailable | .internalServerError => .retry
  | _ => .done (.error (.unexpectedStatus status))

def Op.verdict (op : Op) (reply : Reply) : Verdict :=
  match op with
  | .put _ _ => putVerdict reply.status
  | .get key => getVerdict key reply
  | .delete _ => deleteVerdict reply.status
  | .fetchTopology => .retry

/-! ## Calls -/

inductive CallStage where
  /-- At the head of the loop. -/
  | trying
  | fetching
  /-- The answer of the controller is on its way. -/
  | fetched (config : ClusterConfig)
  | sent (address : String) (req : DataRequest)
  /-- The request has reached its node and has a number there. -/
  | handling (id : Nat) (req : DataRequest)
  | reading (address : String)
  /-- The answer to a `Get` is on its way. -/
  | read (reply : Reply)
  deriving DecidableEq

structure Call where
  client : Nat
  op : Op
  attempt : Nat
  stage : CallStage
  deriving DecidableEq

inductive CallEvent where
  | called (id : Nat) (op : Op)
  | returned (id : Nat) (op : Op) (result : Result)
  deriving DecidableEq, Repr

def CallEvent.id : CallEvent → Nat
  | .called id _ => id
  | .returned id _ _ => id

structure ClientWorld where
  world : World
  clients : Nat → SmartClient
  calls : Map Nat Call
  nextCall : Nat
  /-- Requests that were given up and have not reached their nodes. -/
  strays : List (String × DataRequest)
  log : List CallEvent

inductive ClientAction where
  | world (a : WorldAction)
  | call (client : Nat) (op : Op)
  /-- The head of the loop: the attempts are counted and `Route` is called. -/
  | route (id : Nat)
  /-- A `Put` or `Delete` reaches its node. -/
  | arrive (id now : Nat)
  /-- A node answers a `Get`. -/
  | serve (id now : Nat)
  | receive (id : Nat)
  | giveUp (id : Nat)
  /-- A request that was given up reaches its node. -/
  | stray (k now : Nat)
  /-- The controller answers a `FetchTopology`. -/
  | topologyHandled (id : Nat)
  | updateTopology (id : Nat)
  | fetchFailed (id : Nat) (cause : String)
  deriving DecidableEq

/-- Requests of clients come from calls only. -/
def WorldAction.isRequest : WorldAction → Bool
  | .data (.request _ _ _) => true
  | _ => false

/-- Where a call begins. -/
def Op.firstStage : Op → CallStage
  | .fetchTopology => .fetching
  | _ => .trying

/-- What is sent when a route was found. -/
def Op.send (op : Op) (r : RouteResult) : CallStage :=
  match op.request r.epoch with
  | some req => .sent r.address req
  | none => .reading r.address

/-- The next attempt. -/
def Call.next (call : Call) : Call := { call with attempt := call.attempt + 1, stage := .trying }

namespace CallStage

/-- A request was sent, and the client waits for the answer. -/
def isWaiting : CallStage → Bool
  | .sent _ _ | .handling _ _ | .reading _ | .read _ => true
  | _ => false

/-- A request that has not reached its node. -/
def underWay : CallStage → List (String × DataRequest)
  | .sent address req => [(address, req)]
  | _ => []

/-- Nothing but the topology or a `Get` is under way. -/
def isQuiet : CallStage → Bool
  | .trying | .fetching | .fetched _ | .reading _ => true
  | _ => false

end CallStage

namespace ClientWorld

def goOn (s : ClientWorld) (id : Nat) (call : Call) : ClientWorld :=
  { s with calls := s.calls.insert id call }

def finish (s : ClientWorld) (id : Nat) (op : Op) (result : Result) : ClientWorld :=
  { s with
    calls := s.calls.erase id
    log := s.log ++ [.returned id op result] }

def settle (s : ClientWorld) (id : Nat) (call : Call) : Verdict → ClientWorld
  | .done result => s.finish id call.op result
  | .refetch => s.goOn id { call with stage := .fetching }
  | .retry => s.goOn id call.next

/-- `FetchTopology` returns, to its caller or to a loop of attempts that ignores its error. -/
def fetched (s : ClientWorld) (id : Nat) (call : Call) (result : Result) : ClientWorld :=
  match call.op with
  | .fetchTopology => s.finish id .fetchTopology result
  | _ => s.goOn id call.next

/-- The answer that a call waits for, when it is there. -/
def replyTo (s : ClientWorld) : CallStage → Option Reply
  | .handling id _ => s.world.data.replyOf id
  | .read reply => some reply
  | _ => none

def setConfig (s : ClientWorld) (client : Nat) (config : ClusterConfig) : ClientWorld :=
  { s with
    clients := Function.update s.clients client
      { s.clients client with config := some config } }

def step (s : ClientWorld) : ClientAction → Option ClientWorld
  | .world a =>
    if a.isRequest then none else (s.world.step a).map fun w ↦ { s with world := w }
  | .call client op => some
      { s.goOn s.nextCall ⟨client, op, 0, op.firstStage⟩ with
        nextCall := s.nextCall + 1
        log := s.log ++ [.called s.nextCall op] }
  | .route id =>
    match s.calls.lookup id with
    | some ⟨client, op, attempt, .trying⟩ =>
      if (s.clients client).maxRetries ≤ attempt then
        some (s.finish id op (.error (.maxRetries op)))
      else
        match (s.clients client).route op.key with
        | .error _ => some (s.goOn id ⟨client, op, attempt, .fetching⟩)
        | .ok r => some (s.goOn id ⟨client, op, attempt, op.send r⟩)
    | _ => none
  | .arrive id now =>
    match s.calls.lookup id with
    | some ⟨client, op, attempt, .sent address req⟩ =>
      (s.world.step (.data (.request address now req))).map fun w ↦
        { s.goOn id ⟨client, op, attempt, .handling s.world.data.nextID req⟩ with world := w }
    | _ => none
  | .serve id now =>
    match s.calls.lookup id with
    | some ⟨client, .get key, attempt, .reading address⟩ =>
      -- a request that cannot be sent is given up
      ((s.world.data.nodes address).answerGet now key).map fun reply ↦
        s.goOn id ⟨client, .get key, attempt, .read reply⟩
    | _ => none
  | .receive id =>
    match s.calls.lookup id with
    | some call =>
      match s.replyTo call.stage with
      | some reply => some (s.settle id call (call.op.verdict reply))
      | none => none
    | none => none
  | .giveUp id =>
    match s.calls.lookup id with
    | some call =>
      if call.stage.isWaiting then
        some { s.goOn id { call with stage := .fetching } with
          strays := s.strays ++ call.stage.underWay }
      else none
    | none => none
  | .stray k now =>
    match s.strays[k]? with
    | some (address, req) =>
      (s.world.step (.data (.request address now req))).map fun w ↦
        { s with
          world := w
          strays := s.strays.eraseIdx k }
    | none => none
  | .topologyHandled id =>
    match s.calls.lookup id with
    | some ⟨client, op, attempt, .fetching⟩ =>
      some (s.goOn id ⟨client, op, attempt, .fetched s.world.controller.config⟩)
    | _ => none
  | .updateTopology id =>
    match s.calls.lookup id with
    | some ⟨client, op, attempt, .fetched config⟩ =>
      some ((s.setConfig client config).fetched id ⟨client, op, attempt, .fetched config⟩ .nil)
    | _ => none
  | .fetchFailed id cause =>
    match s.calls.lookup id with
    | some ⟨client, op, attempt, .fetching⟩ =>
      some (s.fetched id ⟨client, op, attempt, .fetching⟩ (.error (.fetchTopology cause)))
    | some ⟨client, op, attempt, .fetched config⟩ =>
      some (s.fetched id ⟨client, op, attempt, .fetched config⟩ (.error (.fetchTopology cause)))
    | _ => none

def start (numShards duration : Nat) (nodeID : String → String) : ClientWorld where
  world := .start numShards duration nodeID
  clients := fun _ ↦ .newSmartClient
  calls := ∅
  nextCall := 0
  strays := []
  log := []

/-! ## What a step can do -/

inductive StepCase (s : ClientWorld) : ClientAction → ClientWorld → Prop
  | world {a : WorldAction} {w : World} (hrequest : a.isRequest = false)
      (hw : s.world.step a = some w) : StepCase s (.world a) { s with world := w }
  | called (client : Nat) (op : Op) : StepCase s (.call client op)
      { s.goOn s.nextCall ⟨client, op, 0, op.firstStage⟩ with
        nextCall := s.nextCall + 1
        log := s.log ++ [.called s.nextCall op] }
  /-- A call goes on, and no request to write is under way. -/
  | wentOn {a : ClientAction} {id attempt : Nat} {call : Call} {stage : CallStage}
      {clients : Nat → SmartClient} (hcall : s.calls.lookup id = some call)
      (hstage : stage.isQuiet = true) (ha : ∀ client op, a ≠ .call client op) :
      StepCase s a
        { s.goOn id { call with attempt := attempt, stage := stage } with clients := clients }
  | sent {id epoch : Nat} {call : Call} {address : String} {req : DataRequest}
      (hcall : s.calls.lookup id = some call) (hreq : call.op.request epoch = some req) :
      StepCase s (.route id) (s.goOn id { call with stage := .sent address req })
  | arrived {id now : Nat} {call : Call} {address : String} {req : DataRequest} {w : World}
      (hcall : s.calls.lookup id = some call) (hstage : call.stage = .sent address req)
      (hw : s.world.step (.data (.request address now req)) = some w) :
      StepCase s (.arrive id now)
        { s.goOn id { call with stage := .handling s.world.data.nextID req } with world := w }
  | served {id now : Nat} {call : Call} {address key : String} {reply : Reply}
      (hcall : s.calls.lookup id = some call) (hop : call.op = .get key)
      (hstage : call.stage = .reading address)
      (hreply : (s.world.data.nodes address).answerGet now key = some reply) :
      StepCase s (.serve id now) (s.goOn id { call with stage := .read reply })
  | answered {id : Nat} {call : Call} {reply : Reply} {result : Result}
      (hcall : s.calls.lookup id = some call) (hreply : s.replyTo call.stage = some reply)
      (hverdict : call.op.verdict reply = .done result) :
      StepCase s (.receive id) (s.finish id call.op result)
  | gaveUp {id : Nat} {call : Call} (hcall : s.calls.lookup id = some call) :
      StepCase s (.giveUp id)
        { s.goOn id { call with stage := .fetching } with
          strays := s.strays ++ call.stage.underWay }
  | strayed {k now : Nat} {address : String} {req : DataRequest} {w : World}
      (hk : s.strays[k]? = some (address, req))
      (hw : s.world.step (.data (.request address now req)) = some w) :
      StepCase s (.stray k now)
        { s with
          world := w
          strays := s.strays.eraseIdx k }
  /-- A call ends without an answer of a data node. -/
  | ended {a : ClientAction} {id : Nat} {call : Call} {result : Result}
      {clients : Nat → SmartClient} (hcall : s.calls.lookup id = some call)
      (hresult : call.op = .fetchTopology ∨ result = .error (.maxRetries call.op))
      (ha : ∀ client op, a ≠ .call client op) :
      StepCase s a { s.finish id call.op result with clients := clients }

/-- `FetchTopology` returns. -/
theorem stepCase_fetched {s : ClientWorld} {a : ClientAction} {id : Nat}
    {call : Call} (hcall : s.calls.lookup id = some call) (ha : ∀ client op, a ≠ .call client op)
    (clients : Nat → SmartClient) (result : Result) :
    StepCase s a (({ s with clients := clients } : ClientWorld).fetched id call result) := by
  unfold fetched
  split
  · rename_i hop
    rw [← hop]
    exact .ended hcall (Or.inl hop) ha
  · exact .wentOn hcall rfl ha

theorem step_cases {s s' : ClientWorld} {a : ClientAction}
    (h : s.step a = some s') : StepCase s a s' := by
  cases a with
  | world a =>
    simp only [step] at h
    split at h
    · cases h
    · rename_i hrequest
      obtain ⟨w, hw, rfl⟩ := Option.map_eq_some_iff.mp h
      exact .world (Bool.eq_false_of_not_eq_true hrequest) hw
  | call client op =>
    cases h
    exact .called client op
  | route id =>
    simp only [step] at h
    split at h
    · rename_i client op attempt hcall
      split at h
      · cases h
        exact .ended hcall (Or.inr rfl) (fun _ _ ha ↦ by cases ha)
      · split at h
        · cases h
          exact .wentOn hcall rfl (fun _ _ ha ↦ by cases ha)
        · rename_i r hroute
          cases h
          unfold Op.send
          split
          · rename_i req hreq
            exact .sent hcall hreq
          · exact .wentOn hcall rfl (fun _ _ ha ↦ by cases ha)
    · cases h
  | arrive id now =>
    simp only [step] at h
    split at h
    · rename_i hcall
      obtain ⟨w, hw, rfl⟩ := Option.map_eq_some_iff.mp h
      exact .arrived hcall rfl hw
    · cases h
  | serve id now =>
    simp only [step] at h
    split at h
    · rename_i hcall
      obtain ⟨reply, hreply, rfl⟩ := Option.map_eq_some_iff.mp h
      exact .served hcall rfl rfl hreply
    · cases h
  | receive id =>
    simp only [step] at h
    split at h
    · rename_i call hcall
      split at h
      · rename_i reply hreply
        cases h
        cases hverdict : call.op.verdict reply with
        | done result => exact .answered hcall hreply hverdict
        | refetch | retry => exact .wentOn hcall rfl (fun _ _ ha ↦ by cases ha)
      · cases h
    · cases h
  | giveUp id =>
    simp only [step] at h
    split at h
    · rename_i call hcall
      split at h
      · cases h
        exact .gaveUp hcall
      · cases h
    · cases h
  | stray k now =>
    simp only [step] at h
    split at h
    · rename_i hk
      obtain ⟨w, hw, rfl⟩ := Option.map_eq_some_iff.mp h
      exact .strayed hk hw
    · cases h
  | topologyHandled id =>
    simp only [step] at h
    split at h
    · rename_i hcall
      cases h
      exact .wentOn hcall rfl (fun _ _ ha ↦ by cases ha)
    · cases h
  | updateTopology id =>
    simp only [step] at h
    split at h
    · rename_i client op attempt config hcall
      cases h
      exact stepCase_fetched hcall (fun _ _ ha ↦ by cases ha)
        (s.setConfig client config).clients .nil
    · cases h
  | fetchFailed id cause =>
    have ha : ∀ client op, ClientAction.fetchFailed id cause ≠ .call client op :=
      fun _ _ ha ↦ by cases ha
    simp only [step] at h
    split at h
    · rename_i client op attempt hcall
      cases h
      exact stepCase_fetched hcall ha s.clients (.error (.fetchTopology cause))
    · rename_i client op attempt config hcall
      cases h
      exact stepCase_fetched hcall ha s.clients (.error (.fetchTopology cause))
    · cases h

end ClientWorld

end DistributedCache
