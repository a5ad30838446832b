import DistributedCache.DataNode.Writes

/-!
# One write from its arrival to its answer

`HandlePut` and `HandleDelete` while nothing else happens.  The replicas are updated one by one
before the primary, and the handler returns at the first replica that fails; the replicas before it,
and the failing one itself when only its answer is lost, keep what they have stored.
-/

namespace DistributedCache

open FiniteMap Transition

/-! ## The handler -/

/-- A request to a replica, and what becomes of it.  A request that arrives after the primary has
given up is `unanswered`; an `abandoned` one never arrives. -/
structure ReplicaCall where
  url : String
  outcome : Outcome
  deriving DecidableEq, Repr

/-- `sendReplication` and `sendDeleteReplication`: whether they return without an error, and the
nodes afterwards. -/
def sendReplication (req : DataRequest) (nodes : String → DataNode) (call : ReplicaCall) :
    Bool × (String → DataNode) :=
  let handled := (nodes call.url).replicate (some req)
  match call.outcome with
  | .abandoned => (false, nodes)
  | .answered => (handled.1.status = .ok, Function.update nodes call.url handled.2)
  | .unanswered => (false, Function.update nodes call.url handled.2)

/-- The loop over `replicaURLs`. -/
def replicateAll (req : DataRequest) (nodes : String → DataNode) :
    List ReplicaCall → Bool × (String → DataNode)
  | [] => (true, nodes)
  | call :: calls =>
    if (sendReplication req nodes call).1 then
      replicateAll req (sendReplication req nodes call).2 calls
    else (false, (sendReplication req nodes call).2)

/-- The requests of the loop; `outcome i` is what becomes of the `i`-th. -/
def replicaCalls (outcome : Nat → Outcome) (urls : List String) : List ReplicaCall :=
  urls.mapIdx fun i url ↦ ⟨url, outcome i⟩

/-- The end of the handler: the primary changes its own cache after all replicas have confirmed. -/
def answerWrite (address : String) (req : DataRequest)
    (replicated : Bool × (String → DataNode)) : Reply × (String → DataNode) :=
  if replicated.1 then
    (DataNode.written, Function.update replicated.2 address ((replicated.2 address).store req))
  else (DataNode.replicationFailed, replicated.2)

/-- The handler after it has compared the epochs. -/
def serveAccepted (nodes : String → DataNode) (address : String) (req : DataRequest)
    (outcome : Nat → Outcome) : Reply × (String → DataNode) :=
  match (nodes address).checkShard req.key with
  | .error reply => (reply, nodes)
  | .ok shardID =>
    answerWrite address req (replicateAll req nodes
      (replicaCalls outcome ((nodes address).config.getReplicaURLs shardID)))

def serveWrite (nodes : String → DataNode) (address : String) (now : Nat)
    (body : Option DataRequest) (outcome : Nat → Outcome) : Reply × (String → DataNode) :=
  match (nodes address).accept now body with
  | .error reply => (reply, nodes)
  | .ok req => serveAccepted nodes address req outcome

/-- `HandlePut`. -/
def servePut (nodes : String → DataNode) (address : String) (now : Nat)
    (body : Option WriteRequest) (outcome : Nat → Outcome) : Reply × (String → DataNode) :=
  serveWrite nodes address now (body.map .put) outcome

/-- `HandleDelete`. -/
def serveDelete (nodes : String → DataNode) (address : String) (now : Nat)
    (body : Option DeleteRequest) (outcome : Nat → Outcome) : Reply × (String → DataNode) :=
  serveWrite nodes address now (body.map .delete) outcome

/-! ## One request to a replica -/

/-- What the node at the address holds under the key. -/
def held (nodes : String → DataNode) (address key : String) : Option String :=
  (nodes address).cache.lookup key

/-- The replica handles the request and does not find the primary stale. -/
def ReplicaCall.Takes (nodes : String → DataNode) (req : DataRequest) (call : ReplicaCall) : Prop :=
  call.outcome ≠ .abandoned ∧ (nodes call.url).config.epoch ≤ req.epoch
deriving Decidable

/-- The primary learns that the replica has taken the request. -/
def ReplicaCall.Acks (nodes : String → DataNode) (req : DataRequest) (call : ReplicaCall) : Prop :=
  call.outcome = .answered ∧ (nodes call.url).config.epoch ≤ req.epoch
deriving Decidable

section Send

variable {nodes : String → DataNode} {req : DataRequest} {call : ReplicaCall}

theorem update_replicate_of_lt (h : req.epoch < (nodes call.url).config.epoch) :
    Function.update nodes call.url ((nodes call.url).replicate (some req)).2 = nodes := by
  rw [DataNode.replicate_of_lt h, Function.update_eq_self]

/-- The nodes after a request to a replica. -/
theorem snd_sendReplication : (sendReplication req nodes call).2 =
    if call.Takes nodes req then Function.update nodes call.url ((nodes call.url).store req)
    else nodes := by
  unfold sendReplication
  by_cases hstale : req.epoch < (nodes call.url).config.epoch
  · have hrefused : ¬ call.Takes nodes req := fun h ↦ absurd h.2 (Nat.not_le.mpr hstale)
    rw [if_neg hrefused]
    cases call.outcome with
    | abandoned => rfl
    | answered | unanswered => exact update_replicate_of_lt hstale
  · have hfresh := Nat.le_of_not_lt hstale
    rw [DataNode.replicate_of_le hfresh]
    cases houtcome : call.outcome with
    | abandoned =>
      rw [if_neg fun h ↦ h.1 houtcome]
    | answered | unanswered =>
      rw [if_pos ⟨by simp [houtcome], hfresh⟩]

theorem fst_sendReplication :
    (sendReplication req nodes call).1 = true ↔ call.Acks nodes req := by
  unfold sendReplication ReplicaCall.Acks
  by_cases hstale : req.epoch < (nodes call.url).config.epoch
  · rw [DataNode.replicate_of_lt hstale]
    have hnot : ¬ (nodes call.url).config.epoch ≤ req.epoch := Nat.not_le.mpr hstale
    cases call.outcome <;> simp [hnot, DataNode.stalePrimary, httpError]
  · have hfresh := Nat.le_of_not_lt hstale
    rw [DataNode.replicate_of_le hfresh]
    cases call.outcome <;> simp [hfresh, DataNode.written]

theorem config_sendReplication (address : String) :
    ((sendReplication req nodes call).2 address).config = (nodes address).config := by
  rw [snd_sendReplication]
  split
  · by_cases haddress : address = call.url
    · subst haddress
      rw [Function.update_self]
      rfl
    · rw [Function.update_of_ne haddress]
  · rfl

theorem held_update_store (nodes : String → DataNode) (url : String) (req : DataRequest)
    (address key : String) :
    held (Function.update nodes url ((nodes url).store req)) address key =
      if address = url ∧ key = req.key then req.effect else held nodes address key :=
  DataPlane.cell_store (.start nodes) url req address key

theorem held_sendReplication (address key : String) :
    held (sendReplication req nodes call).2 address key =
      if call.Takes nodes req ∧ address = call.url ∧ key = req.key then req.effect
      else held nodes address key := by
  rw [snd_sendReplication]
  by_cases htakes : call.Takes nodes req
  · rw [if_pos htakes, held_update_store]
    simp only [htakes, true_and]
  · rw [if_neg htakes, if_neg fun h ↦ htakes h.1]

end Send

/-! ## The loop -/

/-- The loop comes to this request: all replicas before it have acknowledged the write. -/
def Tried (nodes : String → DataNode) (req : DataRequest) (calls : List ReplicaCall)
    (call : ReplicaCall) : Prop :=
  ∃ before after, calls = before ++ call :: after ∧ ∀ call' ∈ before, call'.Acks nodes req

section Loop

variable {nodes nodes' : String → DataNode} {req : DataRequest} {call : ReplicaCall}
  {calls : List ReplicaCall}

theorem not_tried_nil : ¬ Tried nodes req [] call := by
  intro h
  obtain ⟨before, after, hcalls, -⟩ := h
  cases before <;> cases hcalls

theorem tried_cons {call' : ReplicaCall} : Tried nodes req (call' :: calls) call ↔
    call = call' ∨ (call'.Acks nodes req ∧ Tried nodes req calls call) := by
  constructor
  · intro h
    obtain ⟨before, after, hcalls, hacks⟩ := h
    cases before with
    | nil =>
      cases hcalls
      exact Or.inl rfl
    | cons first before =>
      cases hcalls
      exact Or.inr ⟨hacks _ List.mem_cons_self,
        before, after, rfl, fun c hc ↦ hacks c (List.mem_cons_of_mem _ hc)⟩
  · intro h
    rcases h with rfl | ⟨hfirst, before, after, rfl, hacks⟩
    · exact ⟨[], calls, rfl, fun c hc ↦ absurd hc List.not_mem_nil⟩
    · refine ⟨call' :: before, after, rfl, ?_⟩
      intro c hc
      rcases List.mem_cons.mp hc with rfl | hc
      · exact hfirst
      · exact hacks c hc

theorem Tried.mem (h : Tried nodes req calls call) : call ∈ calls := by
  obtain ⟨before, after, rfl, -⟩ := h
  exact List.mem_append_right _ List.mem_cons_self

/-- Whether a replica takes the request does not depend on what the caches hold. -/
theorem acks_congr (h : ∀ address, (nodes' address).config = (nodes address).config)
    (call : ReplicaCall) : call.Acks nodes' req ↔ call.Acks nodes req := by
  unfold ReplicaCall.Acks
  rw [h]

theorem takes_congr (h : ∀ address, (nodes' address).config = (nodes address).config)
    (call : ReplicaCall) : call.Takes nodes' req ↔ call.Takes nodes req := by
  unfold ReplicaCall.Takes
  rw [h]

theorem tried_congr (h : ∀ address, (nodes' address).config = (nodes address).config) :
    Tried nodes' req calls call ↔ Tried nodes req calls call := by
  unfold Tried
  simp only [acks_congr h]

theorem fst_replicateAll :
    (replicateAll req nodes calls).1 = true ↔ ∀ call ∈ calls, call.Acks nodes req := by
  induction calls generalizing nodes with
  | nil => exact iff_of_true rfl fun c hc ↦ absurd hc List.not_mem_nil
  | cons call calls ih =>
    unfold replicateAll
    by_cases hacks : call.Acks nodes req
    · rw [if_pos (fst_sendReplication.mpr hacks), ih]
      simp only [acks_congr config_sendReplication, List.mem_cons, forall_eq_or_imp, hacks,
        true_and]
    · rw [if_neg fun h ↦ hacks (fst_sendReplication.mp h)]
      constructor
      · intro h
        cases h
      · intro h
        exact absurd (h call List.mem_cons_self) hacks

/-- A node that holds what the request writes goes on holding it. -/
theorem held_replicateAll_of_held {address : String}
    (h : held nodes address req.key = req.effect) :
    held (replicateAll req nodes calls).2 address req.key = req.effect := by
  induction calls generalizing nodes with
  | nil => exact h
  | cons call calls ih =>
    have hsent : held (sendReplication req nodes call).2 address req.key = req.effect := by
      rw [held_sendReplication, h, ite_self]
    unfold replicateAll
    split
    · exact ih hsent
    · exact hsent

/-- A replica that the loop comes to and that takes the request holds what it writes. -/
theorem held_replicateAll_of_tried (htried : Tried nodes req calls call)
    (htakes : call.Takes nodes req) :
    held (replicateAll req nodes calls).2 call.url req.key = req.effect := by
  induction calls generalizing nodes with
  | nil => exact absurd htried not_tried_nil
  | cons first calls ih =>
    unfold replicateAll
    rcases tried_cons.mp htried with rfl | ⟨hacks, hlater⟩
    · have hsent : held (sendReplication req nodes call).2 call.url req.key = req.effect := by
        rw [held_sendReplication, if_pos ⟨htakes, rfl, rfl⟩]
      split
      · exact held_replicateAll_of_held hsent
      · exact hsent
    · rw [if_pos (fst_sendReplication.mpr hacks)]
      exact ih ((tried_congr config_sendReplication).mpr hlater)
        ((takes_congr config_sendReplication call).mpr htakes)

/-- If every replica that takes the request held what it writes before, nothing changes. -/
theorem held_replicateAll_unchanged
    (h : ∀ call, Tried nodes req calls call → call.Takes nodes req →
      held nodes call.url req.key = req.effect) (address : String) :
    held (replicateAll req nodes calls).2 address req.key = held nodes address req.key := by
  induction calls generalizing nodes with
  | nil => rfl
  | cons first calls ih =>
    have hsent : ∀ address, held (sendReplication req nodes first).2 address req.key =
        held nodes address req.key := by
      intro address
      rw [held_sendReplication]
      split
      · rename_i hchange
        rw [hchange.2.1]
        exact (h first (tried_cons.mpr (Or.inl rfl)) hchange.1).symm
      · rfl
    unfold replicateAll
    by_cases hacks : first.Acks nodes req
    · rw [if_pos (fst_sendReplication.mpr hacks), ih, hsent]
      intro call htried htakes
      rw [hsent]
      apply h call
      · exact tried_cons.mpr (Or.inr ⟨hacks, (tried_congr config_sendReplication).mp htried⟩)
      · exact (takes_congr config_sendReplication call).mp htakes
    · rw [if_neg fun hok ↦ hacks (fst_sendReplication.mp hok)]
      exact hsent address

theorem mem_replicaCalls_url {outcome : Nat → Outcome} {urls : List String}
    (h : call ∈ replicaCalls outcome urls) : call.url ∈ urls := by
  obtain ⟨i, hi, rfl⟩ := List.mem_mapIdx.mp h
  exact List.getElem_mem hi

end Loop

/-! ## Failed writes -/

section Failed

variable {nodes : String → DataNode} {address : String} {now shardID : Nat} {req : DataRequest}
  {outcome : Nat → Outcome}

/-- The requests that the handler of a write sends when it gets that far. -/
def writeCalls (nodes : String → DataNode) (address : String) (req : DataRequest)
    (outcome : Nat → Outcome) : List ReplicaCall :=
  replicaCalls outcome
    ((nodes address).config.getReplicaURLs ((nodes address).config.shardOf req.key))

theorem serveWrite_admitted (haccept : (nodes address).accept now (some req) = .ok req)
    (hshard : (nodes address).checkShard req.key = .ok shardID) :
    serveWrite nodes address now (some req) outcome =
      answerWrite address req
        (replicateAll req nodes (writeCalls nodes address req outcome)) := by
  unfold serveWrite serveAccepted writeCalls
  simp only [haccept, hshard, ← DataNode.checkShard_ok hshard]

/-- A write that is refused before it is replicated changes nothing. -/
theorem serveWrite_refused (h : (nodes address).accept now (some req) = .ok req →
      ∀ shardID, (nodes address).checkShard req.key ≠ .ok shardID) :
    (serveWrite nodes address now (some req) outcome).1.status ≠ .ok ∧
      (serveWrite nodes address now (some req) outcome).2 = nodes := by
  unfold serveWrite
  cases haccept : (nodes address).accept now (some req) with
  | error reply => exact ⟨DataNode.accept_error_status haccept, rfl⟩
  | ok req' =>
    obtain ⟨-, hsame, -⟩ := DataNode.accept_ok haccept
    cases hsame
    simp only [serveAccepted]
    cases hshard : (nodes address).checkShard req.key with
    | error reply => exact ⟨DataNode.checkShard_error_status hshard, rfl⟩
    | ok shardID => exact absurd hshard (h haccept shardID)

end Failed

/-! ## The same write as a run of the data plane -/

/-- The handler that takes a step. -/
def WriteAction.handler : WriteAction → Option Nat
  | .checkShard id | .route id | .replicate id _ | .finish id => some id
  | .request _ _ _ | .deliver _ => none

/-- A run of one handler. -/
abbrev HandlerRuns (id : Nat) : DataPlane → DataPlane → Prop :=
  Reaches DataPlane.step fun _ a ↦ a.handler = some id

section Run

variable {s : DataPlane} {id : Nat} {w : Write} {done rest : List String} {call : ReplicaCall}

/-- The data plane takes a request to a replica as the loop does. -/
theorem step_replicate
    (hid : s.handlers.lookup id = some ⟨w, .replicating done (call.url :: rest)⟩) :
    ∃ s', s.step (.replicate id call.outcome) = some s' ∧
      s'.nodes = (sendReplication w.request s.nodes call).2 ∧
      ((sendReplication w.request s.nodes call).1 = true →
        s'.handlers.lookup id = some ⟨w, .replicating (done ++ [call.url]) rest⟩) ∧
      ((sendReplication w.request s.nodes call).1 = false →
        s'.history.getLast? = some (.ended id w DataNode.replicationFailed)) := by
  unfold DataPlane.step sendReplication
  simp only [hid]
  cases call.outcome with
  | abandoned | unanswered =>
    exact ⟨_, rfl, rfl, fun h ↦ (by cases h), fun _ ↦ List.getLast?_concat⟩
  | answered =>
    by_cases hok : ((s.nodes call.url).replicate (some w.request)).1.status = .ok
    · rw [if_pos hok]
      refine ⟨_, rfl, rfl, fun _ ↦ Finmap.lookup_insert _, ?_⟩
      intro hfailed
      exact absurd hok (of_decide_eq_false hfailed)
    · rw [if_neg hok]
      refine ⟨_, rfl, rfl, ?_, fun _ ↦ List.getLast?_concat⟩
      intro hdone
      exact absurd (of_decide_eq_true hdone) hok

theorem reachable_replicateAll {calls : List ReplicaCall}
    (hid : s.handlers.lookup id = some ⟨w, .replicating done (calls.map (·.url))⟩) :
    ∃ s', HandlerRuns id s s' ∧ s'.nodes = (replicateAll w.request s.nodes calls).2 ∧
      ((replicateAll w.request s.nodes calls).1 = true →
        ∃ done', s'.handlers.lookup id = some ⟨w, .replicating done' []⟩) ∧
      ((replicateAll w.request s.nodes calls).1 = false →
        s'.history.getLast? = some (.ended id w DataNode.replicationFailed)) := by
  induction calls generalizing s done with
  | nil => exact ⟨s, .refl, rfl, fun _ ↦ ⟨done, hid⟩, fun h ↦ (by cases h)⟩
  | cons call calls ih =>
    obtain ⟨s₁, hstep, hnodes, hnext, hended⟩ := step_replicate hid
    unfold replicateAll
    by_cases hsent : (sendReplication w.request s.nodes call).1 = true
    · obtain ⟨s', hrun, hlast, hdone, hfailed⟩ := ih (hnext hsent)
      rw [if_pos hsent, ← hnodes]
      exact ⟨s', hrun.head rfl hstep, hlast, hdone, hfailed⟩
    · rw [if_neg hsent]
      rw [Bool.not_eq_true] at hsent
      exact ⟨s₁, Reaches.refl.tail rfl hstep, hnodes, fun h ↦ (by cases h),
        fun _ ↦ hended hsent⟩

theorem map_url_replicaCalls (outcome : Nat → Outcome) (urls : List String) :
    (replicaCalls outcome urls).map (·.url) = urls := by
  apply List.ext_getElem
  · simp [replicaCalls]
  · intro i _ _
    simp [replicaCalls]

theorem step_checkShard_error {reply : Reply} (hid : s.handlers.lookup id = some ⟨w, .accepted⟩)
    (h : (s.nodes w.address).checkShard w.key = .error reply) :
    s.step (.checkShard id) = some (s.answer id w reply) := by
  simp only [DataPlane.step, hid, h]

theorem step_checkShard_ok {shardID : Nat} (hid : s.handlers.lookup id = some ⟨w, .accepted⟩)
    (h : (s.nodes w.address).checkShard w.key = .ok shardID) :
    s.step (.checkShard id) = some (s.resume id ⟨w, .admitted shardID⟩) := by
  simp only [DataPlane.step, hid, h]

theorem step_route {shardID : Nat} (hid : s.handlers.lookup id = some ⟨w, .admitted shardID⟩) :
    s.step (.route id) = some
      { s.resume id ⟨w, .replicating [] ((s.nodes w.address).config.getReplicaURLs shardID)⟩ with
        history := s.history ++ [.begun id w] } := by
  simp only [DataPlane.step, hid]

theorem step_finish (hid : s.handlers.lookup id = some ⟨w, .replicating done []⟩) :
    s.step (.finish id) = some ((s.setNode w.address
      ((s.nodes w.address).store w.request)).answer id w DataNode.written) := by
  simp only [DataPlane.step, hid]

/-- From the moment the handler has read the replicas on. -/
theorem reachable_answerWrite {calls : List ReplicaCall}
    (hid : s.handlers.lookup id = some ⟨w, .replicating done (calls.map (·.url))⟩) :
    ∃ s', HandlerRuns id s s' ∧
      s'.nodes =
        (answerWrite w.address w.request (replicateAll w.request s.nodes calls)).2 ∧
      s'.history.getLast? = some (.ended id w
        (answerWrite w.address w.request (replicateAll w.request s.nodes calls)).1) := by
  obtain ⟨s', hrun, hnodes, hdone, hfailed⟩ := reachable_replicateAll hid
  unfold answerWrite
  by_cases hok : (replicateAll w.request s.nodes calls).1 = true
  · obtain ⟨done', hid'⟩ := hdone hok
    rw [if_pos hok, ← hnodes]
    exact ⟨_, hrun.tail rfl (step_finish hid'), rfl, List.getLast?_concat⟩
  · rw [if_neg hok]
    exact ⟨s', hrun, hnodes, hfailed (Bool.eq_false_iff.mpr hok)⟩

theorem reachable_serveAccepted (hid : s.handlers.lookup id = some ⟨w, .accepted⟩)
    (outcome : Nat → Outcome) :
    ∃ s', HandlerRuns id s s' ∧
      s'.nodes = (serveAccepted s.nodes w.address w.request outcome).2 ∧
      s'.history.getLast? =
        some (.ended id w (serveAccepted s.nodes w.address w.request outcome).1) := by
  unfold serveAccepted
  cases hshard : (s.nodes w.address).checkShard w.request.key with
  | error reply =>
    exact ⟨_, Reaches.refl.tail rfl (step_checkShard_error hid hshard), rfl,
      List.getLast?_concat⟩
  | ok shardID =>
    have hadmitted : (s.resume id ⟨w, .admitted shardID⟩).handlers.lookup id =
        some ⟨w, .admitted shardID⟩ := Finmap.lookup_insert _
    -- the nodes are the same in all the states up to the first request to a replica
    have hrouted : ({ (s.resume id ⟨w, .admitted shardID⟩).resume id ⟨w, .replicating []
          ((s.nodes w.address).config.getReplicaURLs shardID)⟩ with
        history := s.history ++ [.begun id w] } : DataPlane).handlers.lookup id =
        some ⟨w, .replicating [] ((replicaCalls outcome
          ((s.nodes w.address).config.getReplicaURLs shardID)).map (·.url))⟩ := by
      rw [map_url_replicaCalls]
      exact Finmap.lookup_insert _
    obtain ⟨s', hrun, hlast⟩ := reachable_answerWrite hrouted
    have hrest : HandlerRuns id (s.resume id ⟨w, .admitted shardID⟩) s' :=
      hrun.head rfl (step_route hadmitted)
    exact ⟨s', hrest.head rfl (step_checkShard_ok hid hshard), hlast⟩

/-- The handler does what a run of the data plane does in which nothing else happens: the request
comes in, and every step after it is the handler's own. -/
theorem reachable_serveWrite (nodes : String → DataNode) (address : String) (now : Nat)
    (req : DataRequest) (outcome : Nat → Outcome) :
    ∃ s₀ s, (DataPlane.start nodes).step (.request address now req) = some s₀ ∧
      Reaches DataPlane.step (fun _ a ↦ a.handler = some 0) s₀ s ∧
      s.nodes = (serveWrite nodes address now (some req) outcome).2 ∧
      s.history.getLast? =
        some (.ended 0 ⟨address, req⟩ (serveWrite nodes address now (some req) outcome).1) := by
  unfold serveWrite
  cases haccept : (nodes address).accept now (some req) with
  | error reply =>
    refine ⟨{ DataPlane.start nodes with
      nextID := 1, history := [.ended 0 ⟨address, req⟩ reply] }, _, ?_, .refl, rfl, rfl⟩
    simp [DataPlane.step, DataPlane.start, haccept]
  | ok req' =>
    obtain ⟨-, hsame, -⟩ := DataNode.accept_ok haccept
    cases hsame
    obtain ⟨s, hrun, hlast⟩ := reachable_serveAccepted
      (s := { (DataPlane.start nodes).resume 0 ⟨⟨address, req⟩, .accepted⟩ with nextID := 1 })
      (Finmap.lookup_insert _) outcome
    refine ⟨_, s, ?_, hrun, hlast⟩
    simp [DataPlane.step, DataPlane.start, haccept, DataPlane.resume]

end Run

/-- The condition under which a write that fails changes no copy: when it gets as far as the
replicas and one of them fails, every replica that has taken it held before what it writes. -/
def LeavesNoTrace (nodes : String → DataNode) (address : String) (now : Nat) (req : DataRequest)
    (outcome : Nat → Outcome) : Prop :=
  (nodes address).accept now (some req) = .ok req →
    (∃ shardID, (nodes address).checkShard req.key = .ok shardID) →
      (∃ call ∈ writeCalls nodes address req outcome, ¬ call.Acks nodes req) →
        ∀ call, Tried nodes req (writeCalls nodes address req outcome) call →
          call.Takes nodes req → held nodes call.url req.key = req.effect

/-- A write that is not answered with 200 leaves the key as it was on the primary and on all
replicas of the shard exactly under the condition. -/
theorem failed_write_unchanged_iff (nodes : String → DataNode) (address : String) (now : Nat)
    (req : DataRequest) (outcome : Nat → Outcome) :
    ((serveWrite nodes address now (some req) outcome).1.status ≠ .ok →
        ∀ url ∈ address ::
            (nodes address).config.getReplicaURLs ((nodes address).config.shardOf req.key),
          held (serveWrite nodes address now (some req) outcome).2 url req.key =
            held nodes url req.key) ↔
      LeavesNoTrace nodes address now req outcome := by
  unfold LeavesNoTrace
  by_cases hadmitted : (nodes address).accept now (some req) = .ok req ∧
      ∃ shardID, (nodes address).checkShard req.key = .ok shardID
  · obtain ⟨haccept, shardID, hshard⟩ := hadmitted
    rw [serveWrite_admitted haccept hshard]
    unfold answerWrite
    by_cases hall : ∀ call ∈ writeCalls nodes address req outcome, call.Acks nodes req
    · -- answered with 200, and no replica has failed
      rw [if_pos (fst_replicateAll.mpr hall)]
      constructor
      · intro _ _ _ hfails
        obtain ⟨call, hcall, hnot⟩ := hfails
        exact absurd (hall call hcall) hnot
      · intro _ hstatus
        exact absurd rfl hstatus
    · rw [if_neg fun h ↦ hall (fst_replicateAll.mp h)]
      have hfails : ∃ call ∈ writeCalls nodes address req outcome, ¬ call.Acks nodes req := by
        by_contra hnone
        apply hall
        intro call hcall
        by_contra hnot
        exact hnone ⟨call, hcall, hnot⟩
      constructor
      · intro hunchanged _ _ _ call htried htakes
        have hurl := List.mem_cons_of_mem address (mem_replicaCalls_url htried.mem)
        have hstatus : DataNode.replicationFailed.status ≠ .ok := by decide
        rw [← hunchanged hstatus call.url hurl]
        exact held_replicateAll_of_tried htried htakes
      · intro htrace _ url _
        exact held_replicateAll_unchanged (htrace haccept ⟨shardID, hshard⟩ hfails) url
  · have hsame : (serveWrite nodes address now (some req) outcome).2 = nodes :=
      (serveWrite_refused fun haccept shardID hshard ↦ hadmitted ⟨haccept, shardID, hshard⟩).2
    constructor
    · intro _ haccept hshard
      exact absurd ⟨haccept, hshard⟩ hadmitted
    · intro _ _ url _
      rw [hsame]

/-! ## Two replicas, of which the second fails -/

/-- Node `p` is the primary of the only shard, `a` and `b` are its replicas. -/
def sampleTrio : ClusterConfig where
  epoch := 1
  totalShards := 1
  nodes := (((∅ : Map String NodeMetadata).insert "p" ⟨"p", "p:1", .active, 0⟩).insert "a"
    ⟨"a", "a:1", .active, 0⟩).insert "b" ⟨"b", "b:1", .active, 0⟩
  shards := (∅ : Map Nat ShardMetadata).insert 0 ⟨0, "p", ["a", "b"], .active⟩

/-- The three nodes under their addresses, with the same cache and a valid lease. -/
def sampleTrioNodes (cache : ConcurrentMapCache) (address : String) : DataNode :=
  ⟨if address = "p:1" then "p" else if address = "a:1" then "a" else "b", sampleTrio, cache, 10, 10,
    .idle⟩

/-- A `Put` and a `Delete` that are answered with 500.  The first replica has stored the value of
the `Put`; the answer of the replica that has carried out the `Delete` is lost. -/
theorem failed_write_changes_replica :
    ((servePut (sampleTrioNodes ∅) "p:1" 5 (some ⟨"k", "v", 1⟩) fun i ↦
        if i = 0 then .answered else .abandoned).1 = DataNode.replicationFailed ∧
      held (sampleTrioNodes ∅) "a:1" "k" = none ∧
      held (servePut (sampleTrioNodes ∅) "p:1" 5 (some ⟨"k", "v", 1⟩) fun i ↦
        if i = 0 then .answered else .abandoned).2 "a:1" "k" = some "v") ∧
    ((serveDelete (sampleTrioNodes ((∅ : ConcurrentMapCache).put "k" "v")) "p:1" 5
        (some ⟨"k", 1⟩) fun _ ↦ .unanswered).1 = DataNode.replicationFailed ∧
      held (sampleTrioNodes ((∅ : ConcurrentMapCache).put "k" "v")) "a:1" "k" = some "v" ∧
      held (serveDelete (sampleTrioNodes ((∅ : ConcurrentMapCache).put "k" "v")) "p:1" 5
        (some ⟨"k", 1⟩) fun _ ↦ .unanswered).2 "a:1" "k" = none) := by
  decide +kernel

end DistributedCache
