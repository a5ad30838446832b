import DistributedCache.Client.Retry
import DistributedCache.DataNode.Serve

/-!
# `Get` after `Put` and after `Delete`

One client and one configuration, and nobody else.  `Put` and `Delete` send the key in a JSON body,
`Get` puts it into the URL as it is, and the data node answers a missing key and an empty value
alike.  So `Get` returns what was put only if the key is made of plain bytes and the value is not
empty.
-/

namespace DistributedCache

open FiniteMap UrlQuery

/-! ## The calls -/

/-- What becomes of a request of the client, and of the requests to the replicas it leads to. -/
structure Exchange where
  outcome : Outcome
  replicas : Nat → Outcome

namespace SmartClient

/-- The loop of a `Put` or a `Delete`.  `FetchTopology` finds the configuration that the client
has. -/
def writeLoop (client : SmartClient) (now : Nat) (op : Op) :
    List Exchange → (String → DataNode) → Result × (String → DataNode)
  | [], nodes => (.error (.maxRetries op), nodes)
  | exchange :: rest, nodes =>
    match client.route op.key with
    | .error _ => client.writeLoop now op rest nodes
    | .ok r =>
      let served := serveWrite nodes r.address now (op.request r.epoch) exchange.replicas
      match exchange.outcome with
      | .abandoned => client.writeLoop now op rest nodes
      | .unanswered => client.writeLoop now op rest served.2
      | .answered =>
        match op.verdict served.1 with
        | .done result => (result, served.2)
        | _ => client.writeLoop now op rest served.2

def callPut (client : SmartClient) (now : Nat) (key value : String) (exchanges : Nat → Exchange)
    (nodes : String → DataNode) : Result × (String → DataNode) :=
  client.writeLoop now (.put key value) ((List.range client.maxRetries).map exchanges) nodes

def callDelete (client : SmartClient) (now : Nat) (key : String) (exchanges : Nat → Exchange)
    (nodes : String → DataNode) : Result × (String → DataNode) :=
  client.writeLoop now (.delete key) ((List.range client.maxRetries).map exchanges) nodes

/-- The loop of a `Get`; the list says of each attempt whether its request or the answer is lost. -/
def readLoop (client : SmartClient) (now : Nat) (key : String) (nodes : String → DataNode) :
    List Bool → Result
  | [] => .error (.maxRetries (.get key))
  | lost :: rest =>
    match client.route key with
    | .error _ => client.readLoop now key nodes rest
    | .ok r =>
      match if lost then none else (nodes r.address).answerGet now key with
      | none => client.readLoop now key nodes rest
      | some reply =>
        match getVerdict key reply with
        | .done result => result
        | _ => client.readLoop now key nodes rest

def callGet (client : SmartClient) (now : Nat) (key : String) (lost : Nat → Bool)
    (nodes : String → DataNode) : Result :=
  client.readLoop now key nodes ((List.range client.maxRetries).map lost)

end SmartClient

/-! ## What a write leaves -/

section Write

variable {nodes : String → DataNode} {address : String} {now : Nat} {req : DataRequest}
  {outcome : Nat → Outcome}

theorem validUntil_sendReplication (call : ReplicaCall) (address : String) :
    ((sendReplication req nodes call).2 address).validUntil = (nodes address).validUntil := by
  rw [snd_sendReplication]
  split
  · by_cases haddress : address = call.url
    · subst haddress
      rw [Function.update_self]
      rfl
    · rw [Function.update_of_ne haddress]
  · rfl

theorem validUntil_replicateAll (calls : List ReplicaCall) (address : String) :
    ((replicateAll req nodes calls).2 address).validUntil = (nodes address).validUntil := by
  induction calls generalizing nodes with
  | nil => rfl
  | cons call calls ih =>
    unfold replicateAll
    split
    · rw [ih, validUntil_sendReplication]
    · exact validUntil_sendReplication call address

/-- A write that is answered with 200 is there afterwards, and the lease of the node is valid. -/
theorem serveWrite_ok
    (h : (serveWrite nodes address now (some req) outcome).1.status = .ok) :
    held (serveWrite nodes address now (some req) outcome).2 address req.key = req.effect ∧
      ((serveWrite nodes address now (some req) outcome).2 address).isActive now = true := by
  by_cases hadmitted : (nodes address).accept now (some req) = .ok req ∧
      ∃ shardID, (nodes address).checkShard req.key = .ok shardID
  · obtain ⟨haccept, shardID, hshard⟩ := hadmitted
    obtain ⟨hactive, -, -⟩ := DataNode.accept_ok haccept
    rw [serveWrite_admitted haccept hshard] at h ⊢
    unfold answerWrite at h ⊢
    split at h
    · rename_i hreplicated
      rw [if_pos hreplicated]
      refine ⟨?_, ?_⟩
      · rw [held_update_store, if_pos ⟨rfl, rfl⟩]
      · unfold DataNode.isActive at hactive ⊢
        simp only [Function.update_self]
        show decide (now < ((replicateAll req nodes _).2 address).validUntil) = true
        rw [validUntil_replicateAll]
        exact hactive
    · exact absurd h (show DataNode.replicationFailed.status ≠ .ok by decide)
  · exact absurd h (serveWrite_refused fun haccept shardID hshard ↦
      hadmitted ⟨haccept, shardID, hshard⟩).1

end Write

/-- What `op` writes is there, and the node may be asked. -/
def Settled (client : SmartClient) (now : Nat) (key : String) (effect : Option String)
    (nodes : String → DataNode) : Prop :=
  ∃ r, client.route key = .ok r ∧ held nodes r.address key = effect ∧
    (nodes r.address).isActive now = true

section Loops

variable {client : SmartClient} {now : Nat} {op : Op} {key : String}
  {nodes nodes' : String → DataNode}

/-- A loop that returns `nil` has got an answer 200. -/
theorem settled_of_writeLoop {effect : Option String}
    (hrequest : ∀ epoch, ∃ req, op.request epoch = some req ∧ req.key = key ∧ req.effect = effect)
    (hverdict : ∀ reply, op.verdict reply = .done .nil → reply.status = .ok)
    (hkey : op.key = key) {exchanges : List Exchange}
    (h : client.writeLoop now op exchanges nodes = (.nil, nodes')) :
    Settled client now key effect nodes' := by
  induction exchanges generalizing nodes with
  | nil => cases h
  | cons exchange rest ih =>
    unfold SmartClient.writeLoop at h
    split at h
    · exact ih h
    · rename_i r hroute
      obtain ⟨req, hreq, hreqkey, heffect⟩ := hrequest r.epoch
      simp only [hreq] at h
      split at h
      · exact ih h
      · exact ih h
      · split at h
        · rename_i result hdone
          rw [Prod.mk.injEq] at h
          obtain ⟨rfl, rfl⟩ := h
          obtain ⟨hheld, hactive⟩ := serveWrite_ok (hverdict _ hdone)
          rw [hreqkey, heffect] at hheld
          exact ⟨r, hkey ▸ hroute, hheld, hactive⟩
        · exact ih h

theorem putVerdict_nil {status : Status} (h : putVerdict status = .done .nil) : status = .ok := by
  cases status <;> first | rfl | cases h

theorem deleteVerdict_nil {status : Status} (h : deleteVerdict status = .done .nil) :
    status = .ok := by
  cases status <;> first | rfl | cases h

theorem settled_of_callPut {value : String} {exchanges : Nat → Exchange}
    (h : client.callPut now key value exchanges nodes = (.nil, nodes')) :
    Settled client now key (some value) nodes' := by
  have hloop : client.writeLoop now (.put key value) _ nodes = (.nil, nodes') := h
  apply settled_of_writeLoop _ _ rfl hloop
  · exact fun epoch ↦ ⟨.put ⟨key, value, epoch⟩, rfl, rfl, rfl⟩
  · exact fun reply hverdict ↦ putVerdict_nil hverdict

theorem settled_of_callDelete {exchanges : Nat → Exchange}
    (h : client.callDelete now key exchanges nodes = (.nil, nodes')) :
    Settled client now key none nodes' := by
  have hloop : client.writeLoop now (.delete key) _ nodes = (.nil, nodes') := h
  apply settled_of_writeLoop _ _ rfl hloop
  · exact fun epoch ↦ ⟨.delete ⟨key, epoch⟩, rfl, rfl, rfl⟩
  · exact fun reply hverdict ↦ deleteVerdict_nil hverdict

/-- A `Get` returns what the first answer that arrives tells it to return. -/
theorem readLoop_of_done {r : RouteResult} {reply : Reply} {result : Result}
    (hroute : client.route key = .ok r)
    (hreply : (nodes r.address).answerGet now key = some reply)
    (hdone : getVerdict key reply = .done result) {attempts : List Bool} (h : false ∈ attempts) :
    client.readLoop now key nodes attempts = result := by
  induction attempts with
  | nil => cases h
  | cons lost rest ih =>
    unfold SmartClient.readLoop
    cases lost with
    | true =>
      have hlater : false ∈ rest := List.mem_of_ne_of_mem (by decide) h
      simp only [hroute, if_true]
      exact ih hlater
    | false => simp [hroute, hreply, hdone]

end Loops

/-! ## The law -/

/-- After a `Put` that has returned `nil`, a `Get` one of whose attempts gets through returns the
value. -/
def GetAfterPut (key value : String) : Prop :=
  ∀ (client : SmartClient) (now : Nat) (exchanges : Nat → Exchange) (lost : Nat → Bool)
    (nodes nodes' : String → DataNode),
    client.callPut now key value exchanges nodes = (.nil, nodes') →
      (∃ i < client.maxRetries, lost i = false) →
        client.callGet now key lost nodes' = .value value

/-- After a `Delete` that has returned `nil`, a `Get` one of whose attempts gets through reports
that the key was not found. -/
def GetAfterDelete (key : String) : Prop :=
  ∀ (client : SmartClient) (now : Nat) (exchanges : Nat → Exchange) (lost : Nat → Bool)
    (nodes nodes' : String → DataNode),
    client.callDelete now key exchanges nodes = (.nil, nodes') →
      (∃ i < client.maxRetries, lost i = false) →
        client.callGet now key lost nodes' = .error (.keyNotFound key)

/-- A key that is not empty and that a URL carries as it is. -/
def PlainKey (key : String) : Prop := key ≠ "" ∧ ∀ b ∈ utf8 key, Plain b
deriving Decidable

section Law

variable {key value : String} {client : SmartClient} {now : Nat} {nodes : String → DataNode}

/-- What a `Get` for a plain key returns, by what is there. -/
theorem callGet_settled {effect : Option String} (hkey : PlainKey key)
    (hsettled : Settled client now key effect nodes) {lost : Nat → Bool}
    (hlost : ∃ i < client.maxRetries, lost i = false) :
    client.callGet now key lost nodes =
      if effect.getD "" = "" then .error (.keyNotFound key) else .value (effect.getD "") := by
  obtain ⟨r, hroute, hheld, hactive⟩ := hsettled
  obtain ⟨i, hi, hthrough⟩ := hlost
  have hmem : false ∈ (List.range client.maxRetries).map lost :=
    List.mem_map.mpr ⟨i, List.mem_range.mpr hi, hthrough⟩
  have hcached : (nodes r.address).cache.get key = effect.getD "" := congrArg (·.getD "") hheld
  have hanswer : (nodes r.address).handleGet now key =
      if effect.getD "" = "" then httpError "Key not found" .notFound
      else ⟨.ok, effect.getD ""⟩ := by
    unfold DataNode.handleGet
    rw [hactive, if_neg (by decide), if_neg hkey.1, hcached]
  apply readLoop_of_done hroute (answerGet_plain hkey.2 _ _) _ hmem
  rw [hanswer]
  split <;> rfl

theorem getAfterPut_of_plainKey (hkey : PlainKey key) (hvalue : value ≠ "") :
    GetAfterPut key value := by
  intro client now exchanges lost nodes nodes' hput hlost
  rw [callGet_settled hkey (settled_of_callPut hput) hlost, Option.getD_some, if_neg hvalue]

theorem getAfterDelete_of_plainKey (hkey : PlainKey key) : GetAfterDelete key := by
  intro client now exchanges lost nodes nodes' hdelete hlost
  rw [callGet_settled hkey (settled_of_callDelete hdelete) hlost, Option.getD_none, if_pos rfl]

end Law

/-! ## Where it fails -/

section Read

variable {client : SmartClient} {now : Nat} {key value : String} {nodes : String → DataNode}

theorem getVerdict_value {reply : Reply} (h : getVerdict key reply = .done (.value value)) :
    reply = ⟨.ok, value⟩ := by
  obtain ⟨status, body⟩ := reply
  cases status <;> cases h
  rfl

/-- A `Get` that returns a value has got it in an answer 200. -/
theorem answerGet_of_readLoop {attempts : List Bool}
    (h : client.readLoop now key nodes attempts = .value value) :
    ∃ r, client.route key = .ok r ∧ (nodes r.address).answerGet now key = some ⟨.ok, value⟩ := by
  induction attempts with
  | nil => cases h
  | cons lost rest ih =>
    unfold SmartClient.readLoop at h
    split at h
    · exact ih h
    · rename_i r hroute
      split at h
      · exact ih h
      · rename_i reply hreply
        split at h
        · rename_i result hdone
          rw [h] at hdone
          rw [getVerdict_value hdone] at hreply
          exact ⟨r, hroute, (Option.ite_none_left_eq_some.mp hreply).2⟩
        · exact ih h

/-- An answer 200 is about the key that has arrived. -/
theorem arrived_of_answerGet {node : DataNode} (h : node.answerGet now key = some ⟨.ok, value⟩) :
    ∃ asked, deliver (utf8 "key") (utf8 key) = .value (utf8 asked) ∧ asked ≠ "" ∧ value ≠ "" ∧
      node.cache.get asked = value := by
  unfold DataNode.answerGet at h
  split at h
  · cases h
  · cases h
  · rename_i bytes hdelivered
    have hreply := Option.some.inj h
    unfold DataNode.handleGetBytes at hreply
    split at hreply
    · rename_i asked hasked
      unfold DataNode.handleGet at hreply
      split at hreply
      · cases hreply
      · split at hreply
        · cases hreply
        · rename_i hname
          split at hreply
          · cases hreply
          · rename_i hfound
            cases hreply
            exact ⟨asked, hdelivered.trans (congrArg Delivery.value
              (ofUtf8_eq_some_iff.mp hasked)), hname, hfound, rfl⟩
    · split at hreply <;> cases hreply

end Read

/-- The only node, with a valid lease. -/
def sampleLoneNode (cache : ConcurrentMapCache) : String → DataNode :=
  fun _ ↦ ⟨"n", sampleLone, cache, 10, 10, .idle⟩

def sampleExchange : Nat → Exchange := fun _ ↦ ⟨.answered, fun _ ↦ .answered⟩

section Sample

variable {key value : String}

/-- Every key belongs to the only shard. -/
theorem lookup_sampleLone (key : String) :
    sampleLone.shards.lookup (shardIDOf key sampleLone.totalShards) =
      some ⟨0, "n", [], .active⟩ := by
  rw [show shardIDOf key sampleLone.totalShards = 0 from Nat.mod_one _]
  decide

theorem route_sampleLone (key : String) :
    (⟨some sampleLone, 5⟩ : SmartClient).route key = .ok ⟨"n:1", 1, 0⟩ := by
  have hshard : shardIDOf key sampleLone.totalShards = 0 := Nat.mod_one _
  have hnode : sampleLone.nodes.lookup "n" = some ⟨"n", "n:1", .active, 0⟩ := by decide
  unfold SmartClient.route
  simp only [lookup_sampleLone, hnode, hshard, show sampleLone.totalShards ≠ 0 by decide, if_false]
  rfl

/-- The node takes every write. -/
theorem serveWrite_sampleLone (cache : ConcurrentMapCache) {req : DataRequest}
    (hepoch : req.epoch = 1) (outcome : Nat → Outcome) :
    serveWrite (sampleLoneNode cache) "n:1" 5 (some req) outcome =
      (DataNode.written, Function.update (sampleLoneNode cache) "n:1"
        ((sampleLoneNode cache "n:1").store req)) := by
  have haccept : (sampleLoneNode cache "n:1").accept 5 (some req) = .ok req := by
    simp [DataNode.accept, DataNode.isActive, sampleLoneNode, hepoch, sampleLone]
  have hcheck : (sampleLoneNode cache "n:1").checkShard req.key =
      .ok (shardIDOf req.key sampleLone.totalShards) := by
    unfold DataNode.checkShard sampleLoneNode
    simp only [lookup_sampleLone, show 0 < sampleLone.totalShards by decide, if_true]
    rfl
  have hcalls : writeCalls (sampleLoneNode cache) "n:1" req outcome = [] := by
    have hshard : sampleLone.shards.lookup (sampleLone.shardOf req.key) =
        some ⟨0, "n", [], .active⟩ := by
      rw [show sampleLone.shardOf req.key = shardIDOf req.key sampleLone.totalShards from
        if_pos (by decide)]
      exact lookup_sampleLone req.key
    unfold writeCalls sampleLoneNode ClusterConfig.getReplicaURLs
    simp only [hshard]
    rfl
  rw [serveWrite_admitted haccept hcheck, hcalls]
  rfl

/-- The node of the sample after a `Put`. -/
def sampleLonePut (key value : String) : String → DataNode :=
  Function.update (sampleLoneNode ∅) "n:1"
    ((sampleLoneNode ∅ "n:1").store (.put ⟨key, value, 1⟩))

theorem callPut_sampleLone (key value : String) :
    (⟨some sampleLone, 5⟩ : SmartClient).callPut 5 key value sampleExchange (sampleLoneNode ∅) =
      (.nil, sampleLonePut key value) := by
  have hserved : serveWrite (sampleLoneNode ∅) "n:1" 5 (some (.put ⟨key, value, 1⟩))
      (fun _ ↦ .answered) = (DataNode.written, sampleLonePut key value) :=
    serveWrite_sampleLone ∅ rfl _
  unfold SmartClient.callPut
  show SmartClient.writeLoop _ 5 (.put key value) (sampleExchange 0 :: _) _ = _
  unfold SmartClient.writeLoop
  simp only [show Op.key (.put key value) = key from rfl, route_sampleLone,
    show Op.request 1 (.put key value) = some (.put ⟨key, value, 1⟩) from rfl,
    show (sampleExchange 0).outcome = .answered from rfl,
    show (sampleExchange 0).replicas = fun _ ↦ .answered from rfl, hserved]
  rfl

end Sample

theorem plainKey_of_getAfterPut {key value : String} (h : GetAfterPut key value) :
    PlainKey key ∧ value ≠ "" := by
  have hget := h ⟨some sampleLone, 5⟩ 5 sampleExchange (fun _ ↦ false) (sampleLoneNode ∅)
    (sampleLonePut key value) (callPut_sampleLone key value) ⟨0, by decide, rfl⟩
  obtain ⟨r, hroute, hanswer⟩ := answerGet_of_readLoop hget
  rw [route_sampleLone] at hroute
  cases hroute
  obtain ⟨asked, hdelivered, hname, hvalue, hcached⟩ := arrived_of_answerGet hanswer
  -- the cache holds nothing but the key that was put
  have hkey : asked = key := by
    by_contra hother
    have hmissing : (sampleLonePut key value "n:1").cache.get asked = "" := by
      unfold sampleLonePut
      rw [Function.update_self]
      show ((∅ : ConcurrentMapCache).put key value).get asked = ""
      unfold ConcurrentMapCache.get
      rw [ConcurrentMapCache.lookup_put_of_ne hother]
      rfl
    rw [hmissing] at hcached
    exact hvalue hcached.symm
  rw [hkey] at hdelivered hname
  exact ⟨⟨hname, (deliver_eq_value_iff plain_parameter).mp hdelivered⟩, hvalue⟩

/-- `Get` returns what `Put` has stored, and reports a key as not found after `Delete`, exactly when
the key is plain and the value is not empty. -/
theorem get_returns_put_iff (key value : String) :
    (GetAfterPut key value ∧ GetAfterDelete key) ↔ (PlainKey key ∧ value ≠ "") := by
  constructor
  · intro h
    exact plainKey_of_getAfterPut h.1
  · intro h
    exact ⟨getAfterPut_of_plainKey h.1 h.2, getAfterDelete_of_plainKey h.1⟩

/-- `Put` succeeds each time.  `Get` asks for another key when there is an ampersand or a plus, and
takes an empty value for a missing one. -/
theorem put_then_get_fails :
    (⟨some sampleLone, 5⟩ : SmartClient).callGet 5 "a&b" (fun _ ↦ false)
        ((⟨some sampleLone, 5⟩ : SmartClient).callPut 5 "a&b" "v" sampleExchange
          (sampleLoneNode ∅)).2 = .error (.keyNotFound "a&b") ∧
      (⟨some sampleLone, 5⟩ : SmartClient).callGet 5 "1+1" (fun _ ↦ false)
        ((⟨some sampleLone, 5⟩ : SmartClient).callPut 5 "1+1" "v" sampleExchange
          (sampleLoneNode ∅)).2 = .error (.keyNotFound "1+1") ∧
      (⟨some sampleLone, 5⟩ : SmartClient).callGet 5 "k" (fun _ ↦ false)
        ((⟨some sampleLone, 5⟩ : SmartClient).callPut 5 "k" "" sampleExchange
          (sampleLoneNode ∅)).2 = .error (.keyNotFound "k") ∧
      ((⟨some sampleLone, 5⟩ : SmartClient).callPut 5 "a&b" "v" sampleExchange
        (sampleLoneNode ∅)).1 = .nil := by
  decide +kernel

end DistributedCache
