import DistributedCache.Raft.Cluster

/-!
# `Forward`, `BroadcastSync` and `ForwardGet`

The calls by which clients write to and read from the cluster.  A call runs on one node and may wait
for a call on another one; either side of an RPC may go on without the other.  The mark that should
stop a call from being forwarded twice is a value of the context, which gRPC does not send along, so
it has no effect between nodes.

An entry that `Broadcast` appends has the channel on which its caller waits.  The channel stays with
the entry in the log of that node, so that the caller hears of its delivery there and of no other.
What the application returns with the delivery is left open.
-/

namespace DistributedCache

open Network Transition

variable {n : Nat} {σ : Type}

/-! ## Calls -/

inductive InvocationStage where
  /-- `Forward` before its test for leadership. -/
  | forward
  /-- `BroadcastSync` before the test of `Broadcast`. -/
  | broadcastSync
  /-- `Broadcast` has found itself to lead, and has not taken the lock again. -/
  | appending
  /-- `BroadcastSync` waits for the delivery of its entry. -/
  | waiting (position : Int)
  /-- `BroadcastSync` waits for the goroutine that runs `forwardToLeader`. -/
  | awaiting (goroutine : Nat)
  /-- An RPC is under way; `again` says that `forwardToLeader` has a second attempt left. -/
  | calling (callee : Nat) (again : Bool)
  | returned (result : Except String (Bool × Int))
  deriving DecidableEq

/-- The call whose answer is waited for. -/
def InvocationStage.callee : InvocationStage → Option Nat
  | .awaiting k | .calling k _ => some k
  | _ => none

structure Invocation (n : Nat) where
  node : Fin n
  message : Message
  stage : InvocationStage
  deriving DecidableEq

inductive GetStage where
  /-- `ForwardGet` before its test for leadership. -/
  | forwardGet
  /-- The node has found itself to lead. -/
  | reading
  | calling (callee : Nat)
  | returned (result : Except String Int)
  deriving DecidableEq

structure GetInvocation (n : Nat) where
  node : Fin n
  key : Int
  stage : GetStage
  deriving DecidableEq

/-- A cluster with the calls of its clients.  A call is named by its place in the list. -/
structure Service (n : Nat) (σ : Type) where
  cluster : Cluster n σ
  calls : List (Invocation n)
  gets : List (GetInvocation n)
  /-- What `Broadcast` has appended, and where. -/
  appended : List Delivery

/-- The steps of a `Forward` or `BroadcastSync`. -/
inductive CallAction where
  /-- The test of `Forward`; `connected` says whether `getPeer` finds a connection. -/
  | testForward (connected : Bool)
  /-- The test of `Broadcast`. -/
  | testBroadcast (connected : Bool)
  /-- The second lock region of `Broadcast`. -/
  | append
  /-- The caller gets what the application has returned. -/
  | respond (success : Bool) (value : Int)
  | timeout
  /-- The goroutine of `forwardToLeader` is done. -/
  | collect
  /-- The answer to an RPC arrives. -/
  | reply
  /-- An RPC fails for its caller; the callee may have been reached all the same. -/
  | fail (error : String)
  deriving DecidableEq

/-- The steps of a `ForwardGet`. -/
inductive GetAction where
  | testGet (connected : Bool)
  /-- `GetValue` of the node's own application. -/
  | readValue
  | reply
  | fail (error : String)
  deriving DecidableEq

inductive ServiceAction (n : Nat) where
  /-- A step of Raft that is not part of a client's call. -/
  | raft (i : Fin n) (a : Action n)
  | invokeForward (i : Fin n) (message : Message)
  | invokeBroadcastSync (i : Fin n) (message : Message)
  | call (id : Nat) (a : CallAction)
  | invokeGet (i : Fin n) (key : Int)
  | get (id : Nat) (a : GetAction)
  deriving DecidableEq

/-- The steps that `Broadcast` takes. -/
def Action.isBroadcast : Action n → Bool
  | .getLeaderData _ | .broadcast _ => true
  | _ => false

namespace Service

def start (n : Nat) (snapshotThreshold : Int) (application : Fin n → σ) : Service n σ where
  cluster := Cluster.start n snapshotThreshold application
  calls := []
  gets := []
  appended := []

abbrev raft (s : Service n σ) (i : Fin n) : Raft n σ := s.cluster.raft i

/-- The call goes on. -/
def resume (s : Service n σ) (id : Nat) (call : Invocation n) (stage : InvocationStage) :
    Service n σ :=
  { s with calls := s.calls.set id { call with stage := stage } }

def resumeGet (s : Service n σ) (id : Nat) (call : GetInvocation n) (stage : GetStage) :
    Service n σ :=
  { s with gets := s.gets.set id { call with stage := stage } }

/-- A new call, by a client or by an RPC. -/
def invoke (s : Service n σ) (call : Invocation n) : Service n σ :=
  { s with calls := s.calls ++ [call] }

def invokeGet (s : Service n σ) (call : GetInvocation n) : Service n σ :=
  { s with gets := s.gets ++ [call] }

/-- `peer.Forward`. -/
def forwardTo (s : Service n σ) (id : Nat) (call : Invocation n) (peer : Fin n) : Service n σ :=
  (s.invoke ⟨peer, call.message.wire, .forward⟩).resume id call (.calling s.calls.length false)

/-- `go forwardToLeader`; the goroutine comes first in the list, then the call that it makes. -/
def forwardToLeader (s : Service n σ) (id : Nat) (call : Invocation n) (peer : Fin n) :
    Service n σ :=
  ((s.invoke ⟨call.node, call.message, .calling (s.calls.length + 1) true⟩).invoke
    ⟨peer, call.message.wire, .forward⟩).resume id call (.awaiting s.calls.length)

def noLeader : InvocationStage := .returned (.error "no leader known")

/-- The RPC of a call is over for the caller. -/
def callOver (s : Service n σ) (id : Nat) (call : Invocation n) (callee : Nat) (again : Bool)
    (result : Except String (Bool × Int)) : Service n σ :=
  match result with
  | .ok answer => s.resume id call (.returned (.ok answer))
  | .error error =>
    -- `forwardToLeader` sends the same request to the same node once more
    match again, s.calls[callee]? with
    | true, some other => s.forwardTo id call other.node
    | _, _ => s.resume id call (.returned (.error error))

def stepCall (app : Application σ) (s : Service n σ) (id : Nat) (call : Invocation n) :
    CallAction → Option (Service n σ)
  | .testForward connected =>
    if call.stage = .forward then
      if (s.raft call.node).currentRole = .leader then some (s.resume id call .broadcastSync)
      else match (s.raft call.node).currentLeaderId with
        | none => some (s.resume id call noLeader)
        | some leader =>
          if leader = call.node then some (s.resume id call noLeader)
          else if connected then some (s.forwardTo id call leader)
          else some (s.resume id call
            (.returned (.error ("no peer for node " ++ toString call.node.val))))
    else none
  | .testBroadcast connected =>
    if call.stage = .broadcastSync then
      if (s.raft call.node).currentRole = .leader then
        (Cluster.step app s.cluster (call.node, .getLeaderData call.message)).map fun c ↦
          { s.resume id call .appending with cluster := c }
      else match (s.raft call.node).currentLeaderId with
        | none => some (s.resume id call noLeader)
        | some leader =>
          if connected then some (s.forwardToLeader id call leader)
          else some (s.resume id call noLeader)
    else none
  | .append =>
    if call.stage = .appending then
      (Cluster.step app s.cluster (call.node, .broadcast call.message)).map fun c ↦
        { s.resume id call (.waiting (s.raft call.node).absLength) with
          cluster := c
          appended := s.appended ++ [((s.raft call.node).absLength, call.message)] }
    else none
  | .respond success value =>
    match call.stage with
    | .waiting position =>
      if .delivered call.node (position, call.message) ∈ s.cluster.history then
        some (s.resume id call (.returned (.ok (success, value))))
      else none
    | _ => none
  | .timeout =>
    match call.stage with
    | .waiting _ | .awaiting _ =>
      some (s.resume id call (.returned (.error "timeout waiting for response after 5s")))
    | _ => none
  | .collect =>
    match call.stage with
    | .awaiting goroutine =>
      match s.calls[goroutine]? with
      | some ⟨_, _, .returned result⟩ => some (s.resume id call (.returned result))
      | _ => none
    | _ => none
  | .reply =>
    match call.stage with
    | .calling callee again =>
      match s.calls[callee]? with
      | some ⟨_, _, .returned result⟩ => some (s.callOver id call callee again result)
      | _ => none
    | _ => none
  | .fail error =>
    match call.stage with
    | .calling callee again => some (s.callOver id call callee again (.error error))
    | _ => none

def stepGet (app : Application σ) (s : Service n σ) (id : Nat) (call : GetInvocation n) :
    GetAction → Option (Service n σ)
  | .testGet connected =>
    if call.stage = .forwardGet then
      if (s.raft call.node).currentRole = .leader then some (s.resumeGet id call .reading)
      else match (s.raft call.node).currentLeaderId with
        | none => some (s.resumeGet id call (.returned (.error "no leader known")))
        | some leader =>
          if connected then
            some ((s.invokeGet ⟨leader, call.key, .forwardGet⟩).resumeGet id call
              (.calling s.gets.length))
          else some (s.resumeGet id call
            (.returned (.error ("no peer for leader " ++ toString leader.val))))
    else none
  | .readValue =>
    if call.stage = .reading then
      some (s.resumeGet id call
        (.returned (.ok (int32 (app.getValue (s.raft call.node).application call.key)))))
    else none
  | .reply =>
    match call.stage with
    | .calling callee =>
      match s.gets[callee]? with
      | some ⟨_, _, .returned result⟩ => some (s.resumeGet id call (.returned result))
      | _ => none
    | _ => none
  | .fail error =>
    match call.stage with
    | .calling _ => some (s.resumeGet id call (.returned (.error error)))
    | _ => none

def step (app : Application σ) (s : Service n σ) : ServiceAction n → Option (Service n σ)
  | .raft i a =>
    if a.isBroadcast then none
    else (Cluster.step app s.cluster (i, a)).map fun c ↦ { s with cluster := c }
  -- the fields of an RPC message are `int32`
  | .invokeForward i m => some (s.invoke ⟨i, m.wire, .forward⟩)
  | .invokeBroadcastSync i m => some (s.invoke ⟨i, m, .broadcastSync⟩)
  | .call id a => s.calls[id]?.bind fun call ↦ s.stepCall app id call a
  | .invokeGet i key => some (s.invokeGet ⟨i, int32 key, .forwardGet⟩)
  | .get id a => s.gets[id]?.bind fun call ↦ s.stepGet app id call a

/-! ## What a step can do -/

/-- What the caller is told of is an error: of its own, or of the call that it has waited for. -/
def failsBy (s : Service n σ) (call : Invocation n) : CallAction → Prop
  | .testForward _ => call.stage = .forward
  | .testBroadcast _ => call.stage = .broadcastSync
  | .timeout => ∀ result, call.stage ≠ .returned result
  | .collect | .reply => ∃ k other error, call.stage.callee = some k ∧ s.calls[k]? = some other ∧
      other.stage = .returned (.error error)
  | .fail _ => call.stage.callee.isSome
  | _ => False

variable {app : Application σ} {s s' : Service n σ}

/-- The ways in which a step of a call can go. -/
inductive CallCase (app : Application σ) (s : Service n σ) (id : Nat) (call : Invocation n) :
    CallAction → Service n σ → Prop
  | leads {connected : Bool} (hstage : call.stage = .forward) :
      CallCase app s id call (.testForward connected) (s.resume id call .broadcastSync)
  | failed {a : CallAction} (error : String) (hfails : s.failsBy call a) :
      CallCase app s id call a (s.resume id call (.returned (.error error)))
  | forwarded {connected : Bool} (peer : Fin n) (hstage : call.stage = .forward) :
      CallCase app s id call (.testForward connected) (s.forwardTo id call peer)
  | again {a : CallAction} {callee : Nat} (peer : Fin n) (hfails : s.failsBy call a)
      (hstage : call.stage = .calling callee true) :
      CallCase app s id call a (s.forwardTo id call peer)
  | spawned {connected : Bool} (peer : Fin n) (hstage : call.stage = .broadcastSync) :
      CallCase app s id call (.testBroadcast connected) (s.forwardToLeader id call peer)
  | admitted {connected : Bool} {c : Cluster n σ} (hstage : call.stage = .broadcastSync)
      (hrole : (s.raft call.node).currentRole = .leader)
      (hc : Cluster.step app s.cluster (call.node, .getLeaderData call.message) = some c) :
      CallCase app s id call (.testBroadcast connected)
        { s.resume id call .appending with cluster := c }
  | appended {c : Cluster n σ} (hstage : call.stage = .appending)
      (hc : Cluster.step app s.cluster (call.node, .broadcast call.message) = some c) :
      CallCase app s id call .append
        { s.resume id call (.waiting (s.raft call.node).absLength) with
          cluster := c
          appended := s.appended ++ [((s.raft call.node).absLength, call.message)] }
  | responded {success : Bool} {value position : Int} (hstage : call.stage = .waiting position)
      (hdelivered : .delivered call.node (position, call.message) ∈ s.cluster.history) :
      CallCase app s id call (.respond success value)
        (s.resume id call (.returned (.ok (success, value))))
  | collected {goroutine : Nat} {other : Invocation n} {answer : Bool × Int}
      (hstage : call.stage = .awaiting goroutine) (hother : s.calls[goroutine]? = some other)
      (hreturned : other.stage = .returned (.ok answer)) :
      CallCase app s id call .collect (s.resume id call (.returned (.ok answer)))
  | replied {callee : Nat} {again : Bool} {other : Invocation n} {answer : Bool × Int}
      (hstage : call.stage = .calling callee again) (hother : s.calls[callee]? = some other)
      (hreturned : other.stage = .returned (.ok answer)) :
      CallCase app s id call .reply (s.resume id call (.returned (.ok answer)))

variable {id : Nat} {call : Invocation n}

theorem callOver_error {callee : Nat} {again : Bool} {a : CallAction} (error : String)
    (hfails : s.failsBy call a) (hstage : call.stage = .calling callee again) :
    CallCase app s id call a (s.callOver id call callee again (.error error)) := by
  unfold callOver
  cases again with
  | false => exact .failed error hfails
  | true =>
    cases s.calls[callee]? with
    | none => exact .failed error hfails
    | some other => exact .again other.node hfails hstage

theorem stepCall_cases {a : CallAction} (h : s.stepCall app id call a = some s') :
    CallCase app s id call a s' := by
  cases a with
  | testForward connected =>
    obtain ⟨hstage, h⟩ := Option.ite_none_right_eq_some.mp h
    split at h
    · cases h
      exact .leads hstage
    split at h
    · cases h
      exact .failed _ hstage
    · rename_i leader hleader
      split at h
      · cases h
        exact .failed _ hstage
      · split at h
        · cases h
          exact .forwarded leader hstage
        · cases h
          exact .failed _ hstage
  | testBroadcast connected =>
    obtain ⟨hstage, h⟩ := Option.ite_none_right_eq_some.mp h
    split at h
    · rename_i hrole
      obtain ⟨c, hc, rfl⟩ := Option.map_eq_some_iff.mp h
      exact .admitted hstage hrole hc
    split at h
    · cases h
      exact .failed _ hstage
    · rename_i leader hleader
      split at h
      · cases h
        exact .spawned leader hstage
      · cases h
        exact .failed _ hstage
  | append =>
    obtain ⟨hstage, h⟩ := Option.ite_none_right_eq_some.mp h
    obtain ⟨c, hc, rfl⟩ := Option.map_eq_some_iff.mp h
    exact .appended hstage hc
  | respond success value =>
    simp only [stepCall] at h
    split at h
    · rename_i position hstage
      obtain ⟨hdelivered, h⟩ := Option.ite_none_right_eq_some.mp h
      cases h
      exact .responded hstage hdelivered
    · cases h
  | timeout =>
    simp only [stepCall] at h
    split at h
    · rename_i hstage
      cases h
      exact .failed _ (by simp [failsBy, hstage])
    · rename_i hstage
      cases h
      exact .failed _ (by simp [failsBy, hstage])
    · cases h
  | collect =>
    simp only [stepCall] at h
    split at h
    · rename_i goroutine hstage
      split at h
      · rename_i result hother
        cases h
        cases result with
        | error error => exact .failed _ ⟨_, _, _, by rw [hstage]; rfl, hother, rfl⟩
        | ok answer => exact .collected hstage hother rfl
      · cases h
    · cases h
  | reply =>
    simp only [stepCall] at h
    split at h
    · rename_i callee again hstage
      split at h
      · rename_i result hother
        cases h
        cases result with
        | error error =>
          exact callOver_error error ⟨_, _, _, by rw [hstage]; rfl, hother, rfl⟩ hstage
        | ok answer => exact .replied hstage hother rfl
      · cases h
    · cases h
  | fail error =>
    simp only [stepCall] at h
    split at h
    · rename_i callee again hstage
      cases h
      exact callOver_error error (by simp [failsBy, hstage, InvocationStage.callee]) hstage
    · cases h

/-- The ways in which a step of a `ForwardGet` can go. -/
inductive GetCase (app : Application σ) (s : Service n σ) (id : Nat) (call : GetInvocation n) :
    GetAction → Service n σ → Prop
  | leads {connected : Bool} (hstage : call.stage = .forwardGet) :
      GetCase app s id call (.testGet connected) (s.resumeGet id call .reading)
  | failed (a : GetAction) (error : String) :
      GetCase app s id call a (s.resumeGet id call (.returned (.error error)))
  | forwarded {connected : Bool} (peer : Fin n) (hstage : call.stage = .forwardGet) :
      GetCase app s id call (.testGet connected)
        ((s.invokeGet ⟨peer, call.key, .forwardGet⟩).resumeGet id call (.calling s.gets.length))
  | read (hstage : call.stage = .reading) :
      GetCase app s id call .readValue (s.resumeGet id call
        (.returned (.ok (int32 (app.getValue (s.raft call.node).application call.key)))))
  | replied {callee : Nat} {other : GetInvocation n} {value : Int}
      (hstage : call.stage = .calling callee) (hother : s.gets[callee]? = some other)
      (hreturned : other.stage = .returned (.ok value)) :
      GetCase app s id call .reply (s.resumeGet id call (.returned (.ok value)))

theorem stepGet_cases {call : GetInvocation n} {a : GetAction}
    (h : s.stepGet app id call a = some s') : GetCase app s id call a s' := by
  cases a with
  | testGet connected =>
    obtain ⟨hstage, h⟩ := Option.ite_none_right_eq_some.mp h
    split at h
    · cases h
      exact .leads hstage
    split at h
    · cases h
      exact .failed _ _
    · rename_i leader hleader
      split at h
      · cases h
        exact .forwarded leader hstage
      · cases h
        exact .failed _ _
  | readValue =>
    obtain ⟨hstage, h⟩ := Option.ite_none_right_eq_some.mp h
    cases h
    exact .read hstage
  | reply =>
    simp only [stepGet] at h
    split at h
    · rename_i callee hstage
      split at h
      · rename_i result hother
        cases h
        cases result with
        | error error => exact .failed _ _
        | ok value => exact .replied hstage hother rfl
      · cases h
    · cases h
  | fail error =>
    simp only [stepGet] at h
    split at h
    · cases h
      exact .failed _ _
    · cases h

/-- A get changes nothing but the gets. -/
theorem GetCase.leaves {call : GetInvocation n} {a : GetAction} (h : GetCase app s id call a s') :
    s' = { s with gets := s'.gets } := by
  cases h <;> rfl

theorem CallCase.gets_eq {a : CallAction} (h : CallCase app s id call a s') : s'.gets = s.gets := by
  cases h <;> rfl

/-- The ways in which a step can go. -/
inductive StepCase (app : Application σ) (s : Service n σ) : ServiceAction n → Service n σ → Prop
  | raft {i : Fin n} {b : Action n} {c : Cluster n σ} (hplain : b.isBroadcast ≠ true)
      (hc : Cluster.step app s.cluster (i, b) = some c) :
      StepCase app s (.raft i b) { s with cluster := c }
  | invokeForward (i : Fin n) (m : Message) :
      StepCase app s (.invokeForward i m) (s.invoke ⟨i, m.wire, .forward⟩)
  | invokeBroadcastSync (i : Fin n) (m : Message) :
      StepCase app s (.invokeBroadcastSync i m) (s.invoke ⟨i, m, .broadcastSync⟩)
  | call {id : Nat} {call : Invocation n} {b : CallAction} {s' : Service n σ}
      (hcall : s.calls[id]? = some call) (hcase : CallCase app s id call b s') :
      StepCase app s (.call id b) s'
  | invokeGet (i : Fin n) (key : Int) :
      StepCase app s (.invokeGet i key) (s.invokeGet ⟨i, int32 key, .forwardGet⟩)
  | get {id : Nat} {call : GetInvocation n} {b : GetAction} {s' : Service n σ}
      (hcall : s.gets[id]? = some call) (hcase : GetCase app s id call b s') :
      StepCase app s (.get id b) s'

theorem step_cases {a : ServiceAction n} (h : s.step app a = some s') : StepCase app s a s' := by
  cases a with
  | raft i b =>
    obtain ⟨hplain, h⟩ := Option.ite_none_left_eq_some.mp h
    obtain ⟨c, hc, rfl⟩ := Option.map_eq_some_iff.mp h
    exact .raft hplain hc
  | invokeForward i m =>
    cases h
    exact .invokeForward i m
  | invokeBroadcastSync i m =>
    cases h
    exact .invokeBroadcastSync i m
  | call id b =>
    obtain ⟨call, hcall, h⟩ := Option.bind_eq_some_iff.mp h
    exact .call hcall (stepCall_cases h)
  | invokeGet i key =>
    cases h
    exact .invokeGet i key
  | get id b =>
    obtain ⟨call, hcall, h⟩ := Option.bind_eq_some_iff.mp h
    exact .get hcall (stepGet_cases h)

end Service

/-! ## The cluster in a run with clients -/

/-- The step that the cluster takes with an action. -/
def ServiceAction.raftStep (s : Service n σ) : ServiceAction n → Option (Fin n × Action n)
  | .raft i a => some (i, a)
  | .call id (.testBroadcast _) => s.calls[id]?.bind fun call ↦
      if (s.raft call.node).currentRole = .leader then
        some (call.node, .getLeaderData call.message)
      else none
  | .call id .append => s.calls[id]?.map fun call ↦ (call.node, .broadcast call.message)
  | _ => none

/-- A condition on the steps of the cluster. -/
def Service.Keeps (guard : Cluster n σ → Fin n × Action n → Prop) (s : Service n σ)
    (a : ServiceAction n) : Prop := ∀ x ∈ a.raftStep s, guard s.cluster x

instance (guard : Cluster n σ → Fin n × Action n → Prop) [∀ c x, Decidable (guard c x)]
    (s : Service n σ) (a : ServiceAction n) : Decidable (s.Keeps guard a) :=
  inferInstanceAs (Decidable (∀ x ∈ a.raftStep s, guard s.cluster x))

namespace Service

variable {app : Application σ} {s s' : Service n σ} {a : ServiceAction n}

/-- What a step of the cluster appends for a client. -/
def appendedBy (s : Service n σ) : Fin n × Action n → List Delivery
  | (i, .broadcast m) => [((s.raft i).absLength, m)]
  | _ => []

theorem appendedBy_eq_nil {i : Fin n} {b : Action n} (h : ∀ m, b ≠ .broadcast m) :
    s.appendedBy (i, b) = [] := by
  cases b with
  | broadcast m => exact absurd rfl (h m)
  | _ => rfl

theorem cluster_step (h : s.step app a = some s') :
    (s'.cluster = s.cluster ∧ s'.appended = s.appended) ∨
      ∃ x ∈ a.raftStep s, Cluster.step app s.cluster x = some s'.cluster ∧
        s'.appended = s.appended ++ s.appendedBy x := by
  cases step_cases h with
  | @raft i b c hplain hc =>
    refine Or.inr ⟨(i, b), rfl, hc, ?_⟩
    rw [appendedBy_eq_nil (by rintro m rfl; exact hplain rfl), List.append_nil]
  | invokeForward | invokeBroadcastSync | invokeGet => exact Or.inl ⟨rfl, rfl⟩
  | get hcall hcase =>
    rw [hcase.leaves]
    exact Or.inl ⟨rfl, rfl⟩
  | @call id call b s' hcall hcase =>
    cases hcase with
    | admitted hstage hrole hc =>
      refine Or.inr ⟨(call.node, .getLeaderData call.message), ?_, hc, (List.append_nil _).symm⟩
      exact Option.bind_eq_some_iff.mpr ⟨call, hcall, if_pos hrole⟩
    | appended hstage hc =>
      refine Or.inr ⟨(call.node, .broadcast call.message), ?_, hc, rfl⟩
      exact Option.map_eq_some_iff.mpr ⟨call, hcall, rfl⟩
    | leads | failed | forwarded | again | spawned | responded | collected | replied =>
      exact Or.inl ⟨rfl, rfl⟩

/-- What the clients do is a run of the cluster. -/
theorem cluster_reaches {guard : Cluster n σ → Fin n × Action n → Prop} {s₀ : Service n σ}
    (hrun : Reaches (Service.step app) (Service.Keeps guard) s₀ s) :
    Reaches (Cluster.step app) guard s₀.cluster s.cluster := by
  refine hrun.invariant (fun t ↦ Reaches (Cluster.step app) guard s₀.cluster t.cluster) .refl ?_
  intro t a t' _ ih hok hstep
  rcases cluster_step hstep with ⟨hsame, -⟩ | ⟨x, hx, htaken, -⟩
  · rw [hsame]
    exact ih
  · exact ih.tail (hok x hx) htaken

end Service

end DistributedCache
