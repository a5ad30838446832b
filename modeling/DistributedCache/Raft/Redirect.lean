import DistributedCache.Lib.Chain
import DistributedCache.Raft.Forward

/-!
# How often a request is passed on

`Forward` and `ForwardGet` of a node that does not lead pass the request on to the node they take
for the leader, and mark the context so that it is not passed on again.  gRPC does not send the mark
along.  A request therefore follows what the nodes believe, one after another.
-/

namespace DistributedCache

open Chain Network Transition

variable {n : Nat} {σ : Type}

/-! ## One call -/

/-- What `getLeaderData` reads. -/
structure Belief (n : Nat) where
  currentRole : Role
  currentLeaderId : Option (Fin n)
  deriving DecidableEq

def Raft.belief (r : Raft n σ) : Belief n := ⟨r.currentRole, r.currentLeaderId⟩

inductive RouteOutcome (n : Nat) where
  /-- The node leads and goes on with the request itself. -/
  | handled (node : Fin n)
  | refused (error : String)
  /-- The call is made on `leader`, with a context that is marked or not. -/
  | passed (marked : Bool) (leader : Fin n)
  deriving DecidableEq

section

variable (connected : Fin n → Fin n → Bool) (view : Fin n → Belief n)

/-- `Forward` on node `i` up to the call of another node or of `BroadcastSync`. -/
def forward (marked : Bool) (i : Fin n) : RouteOutcome n :=
  if (view i).currentRole = .leader then .handled i
  else match (view i).currentLeaderId with
    | none => .refused "no leader known"
    | some leader =>
      if leader = i then .refused "no leader known"
      else if marked then
        .refused ("redirect loop detected at node=" ++ toString i.val ++ " to leader=" ++
          toString leader.val)
      else if connected i leader then .passed true leader
      else .refused ("no peer for node " ++ toString i.val)

/-- `ForwardGet` does not look whether the leader is the node itself. -/
def forwardGet (marked : Bool) (i : Fin n) : RouteOutcome n :=
  if (view i).currentRole = .leader then .handled i
  else match (view i).currentLeaderId with
    | none => .refused "no leader known"
    | some leader =>
      if marked then
        .refused ("redirect loop detected at node=" ++ toString i.val ++ " to leader=" ++
          toString leader.val)
      else if connected i leader then .passed true leader
      else .refused ("no peer for leader " ++ toString leader.val)

/-- The node to which `i` passes a request that comes from another process. -/
def passesTo (i : Fin n) : Option (Fin n) :=
  if (view i).currentRole = .leader then none
  else (view i).currentLeaderId.filter fun leader ↦ leader ≠ i && connected i leader

end

/-! ## A request on its way -/

/-- The context that the callee of an RPC gets for the caller's. -/
def overGRPC (_marked : Bool) : Bool := false

/-- Where a request ends that is passed on at most `passes` times; `none` if it is passed on more
often. -/
def route (call : Bool → Fin n → RouteOutcome n) : Nat → Bool → Fin n → Option (RouteOutcome n)
  | 0, marked, i =>
    match call marked i with
    | .passed _ _ => none
    | outcome => some outcome
  | passes + 1, marked, i =>
    match call marked i with
    | .passed marked' leader => route call passes (overGRPC marked') leader
    | outcome => some outcome

/-- The call passes a request on as `next` says. -/
def Follows (call : Bool → Fin n → RouteOutcome n) (next : Fin n → Option (Fin n)) : Prop :=
  ∀ i, (∃ leader, next i = some leader ∧ call false i = .passed true leader) ∨
    next i = none ∧ ∀ marked leader, call false i ≠ .passed marked leader

section

variable {connected : Fin n → Fin n → Bool} {view : Fin n → Belief n} {i : Fin n}
  {call : Bool → Fin n → RouteOutcome n} {next : Fin n → Option (Fin n)} {marked : Bool}
  {passes : Nat}

theorem route_of_not_passed (h : ∀ marked' leader, call marked i ≠ .passed marked' leader) :
    route call passes marked i = some (call marked i) := by
  cases hcall : call marked i with
  | passed marked' leader => exact absurd hcall (h marked' leader)
  | _ => cases passes <;> simp only [route, hcall]

/-- A request ends after as many passes as the chain of beliefs is long. -/
theorem Follows.route_isSome_iff (h : Follows call next) :
    (route call passes false i).isSome ↔ follow next (passes + 1) i = none := by
  induction passes generalizing i with
  | zero =>
    rcases h i with ⟨leader, hnext, hcall⟩ | ⟨hnext, hcall⟩
    · simp [route, hcall, follow, hnext]
    · simp [route_of_not_passed hcall, follow, hnext]
  | succ passes ih =>
    rcases h i with ⟨leader, hnext, hcall⟩ | ⟨hnext, hcall⟩
    · simp only [route, hcall]
      rw [follow, hnext, Option.bind_some]
      exact ih
    · simp [route_of_not_passed hcall, follow, hnext]

theorem forward_follows : Follows (forward connected view) (passesTo connected view) := by
  intro i
  unfold forward passesTo
  by_cases hrole : (view i).currentRole = .leader
  · simp [hrole]
  cases hleader : (view i).currentLeaderId with
  | none => simp [hrole]
  | some leader =>
    by_cases hself : leader = i <;> by_cases hpeer : connected i leader = true <;>
      simp [hrole, hself, hpeer]

/-- No node has a connection to itself, so that `ForwardGet` does not need the test that it
lacks. -/
theorem forwardGet_follows (hself : ∀ i, connected i i = false) :
    Follows (forwardGet connected view) (passesTo connected view) := by
  intro i
  unfold forwardGet passesTo
  by_cases hrole : (view i).currentRole = .leader
  · simp [hrole]
  cases hleader : (view i).currentLeaderId with
  | none => simp [hrole]
  | some leader =>
    by_cases hown : leader = i
    · subst hown
      simp [hrole, hself]
    · by_cases hpeer : connected i leader = true <;> simp [hrole, hown, hpeer]

/-- The mark does stop a request, where it is there. -/
theorem forward_marked :
    ∀ marked leader, forward connected view true i ≠ .passed marked leader := by
  intro marked leader
  unfold forward
  split
  · nofun
  split
  · nofun
  split
  · nofun
  · nofun

theorem forwardGet_marked :
    ∀ marked leader, forwardGet connected view true i ≠ .passed marked leader := by
  intro marked leader
  unfold forwardGet
  split
  · nofun
  split
  · nofun
  · nofun

end

/-! ## The calls of a running cluster -/

namespace Service

variable {app : Application σ} {s : Service n σ} {id : Nat} {connected : Bool}

/-- How the test of `Forward` lets a call go on. -/
def afterForward (s : Service n σ) (id : Nat) (call : Invocation n) : RouteOutcome n → Service n σ
  | .handled _ => s.resume id call .broadcastSync
  | .refused error => s.resume id call (.returned (.error error))
  | .passed _ leader => s.forwardTo id call leader

def afterForwardGet (s : Service n σ) (id : Nat) (call : GetInvocation n) :
    RouteOutcome n → Service n σ
  | .handled _ => s.resumeGet id call .reading
  | .refused error => s.resumeGet id call (.returned (.error error))
  | .passed _ leader =>
    (s.invokeGet ⟨leader, call.key, .forwardGet⟩).resumeGet id call (.calling s.gets.length)

/-- A call that another process has made goes on as `forward` says. -/
theorem stepCall_testForward {call : Invocation n} (hstage : call.stage = .forward) :
    s.stepCall app id call (.testForward connected) =
      some (s.afterForward id call
        (forward (fun _ _ ↦ connected) (fun i ↦ (s.raft i).belief) false call.node)) := by
  simp only [stepCall, if_pos hstage]
  unfold forward
  by_cases hrole : (s.raft call.node).currentRole = .leader
  · simp [hrole, Raft.belief, afterForward]
  cases hleader : (s.raft call.node).currentLeaderId with
  | none => simp [hrole, hleader, Raft.belief, afterForward, noLeader]
  | some leader =>
    by_cases hself : leader = call.node <;> cases connected <;>
      simp [hrole, hleader, hself, Raft.belief, afterForward, noLeader]

theorem stepGet_testGet {call : GetInvocation n} (hstage : call.stage = .forwardGet) :
    s.stepGet app id call (.testGet connected) =
      some (s.afterForwardGet id call
        (forwardGet (fun _ _ ↦ connected) (fun i ↦ (s.raft i).belief) false call.node)) := by
  simp only [stepGet, if_pos hstage]
  unfold forwardGet
  by_cases hrole : (s.raft call.node).currentRole = .leader
  · simp [hrole, Raft.belief, afterForwardGet]
  cases hleader : (s.raft call.node).currentLeaderId with
  | none => simp [hrole, hleader, Raft.belief, afterForwardGet]
  | some leader =>
    cases connected <;> simp [hrole, hleader, Raft.belief, afterForwardGet]

end Service

/-! ## How long a request is on its way -/

section

variable (connected : Fin n → Fin n → Bool) (hself : ∀ i, connected i i = false)
  (view : Fin n → Belief n) (i : Fin n)

include hself

/-- The number of passes is the length of the chain of beliefs, in both calls. -/
theorem handled_within_iff (passes : Nat) :
    ((route (forward connected view) passes false i).isSome ↔
      follow (passesTo connected view) (passes + 1) i = none) ∧
    ((route (forwardGet connected view) passes false i).isSome ↔
      follow (passesTo connected view) (passes + 1) i = none) :=
  ⟨forward_follows.route_isSome_iff, (forwardGet_follows hself).route_isSome_iff⟩

/-- A request that all nodes have had is passed on for ever. -/
theorem never_handled (passes : Nat) (hpasses : n ≤ passes + 1)
    (h : route (forward connected view) passes false i = none) (k : Nat) :
    route (forward connected view) k false i = none ∧
      route (forwardGet connected view) k false i = none := by
  have hlong : follow (passesTo connected view) (Fintype.card (Fin n)) i ≠ none := by
    intro hnone
    rw [Fintype.card_fin] at hnone
    have := (handled_within_iff connected hself view i passes).1.mpr
      (follow_eq_none_of_le hpasses hnone)
    rw [h] at this
    cases this
  have hforever := follow_ne_none_of_card hlong (k + 1)
  obtain ⟨hforward, hget⟩ := handled_within_iff connected hself view i k
  exact ⟨Option.not_isSome_iff_eq_none.mp fun h ↦ hforever (hforward.mp h),
    Option.not_isSome_iff_eq_none.mp fun h ↦ hforever (hget.mp h)⟩

/-- A request is handled after at most one pass exactly if it comes marked, or the node that is
taken for the leader does not pass it on in turn. -/
theorem forwarded_at_most_once_iff (marked : Bool) :
    ((route (forward connected view) 1 marked i).isSome ↔ marked = true ∨
      ∀ leader, passesTo connected view i = some leader → passesTo connected view leader = none) ∧
    ((route (forwardGet connected view) 1 marked i).isSome ↔ marked = true ∨
      ∀ leader, passesTo connected view i = some leader →
        passesTo connected view leader = none) := by
  cases marked with
  | true =>
    rw [route_of_not_passed forward_marked, route_of_not_passed forwardGet_marked]
    exact ⟨iff_of_true rfl (Or.inl rfl), iff_of_true rfl (Or.inl rfl)⟩
  | false =>
    have hend : follow (passesTo connected view) 2 i = none ↔ false = true ∨
        ∀ leader, passesTo connected view i = some leader →
          passesTo connected view leader = none := by
      cases hi : passesTo connected view i with
      | none => simp [follow, hi]
      | some leader => cases hleader : passesTo connected view leader <;> simp [follow, hi, hleader]
    obtain ⟨hforward, hget⟩ := handled_within_iff connected hself view i 1
    exact ⟨hforward.trans hend, hget.trans hend⟩

end

/-- Every node reaches every other one. -/
def allConnected (i j : Fin n) : Bool := i ≠ j

/-- Node 2 leads, and the others know it. -/
theorem forwarded_at_most_once_agreed :
    (route (forward allConnected fun i : Fin 3 ↦
        if i = 2 then ⟨.leader, some 2⟩ else ⟨.follower, some 2⟩) 1 false 0).isSome ∧
      (route (forwardGet allConnected fun i : Fin 3 ↦
        if i = 2 then ⟨.leader, some 2⟩ else ⟨.follower, some 2⟩) 1 false 0).isSome := by
  obtain ⟨hforward, hget⟩ := forwarded_at_most_once_iff allConnected (by decide)
    (fun i : Fin 3 ↦ if i = 2 then ⟨.leader, some 2⟩ else ⟨.follower, some 2⟩) 0 false
  exact ⟨hforward.mpr (Or.inr (by decide)), hget.mpr (Or.inr (by decide))⟩

/-- Node 1 leads term 1 and node 0 hears of it.  Then node 2 leads term 2 and only node 1 hears of
it. -/
def outdatedBelief : List (Fin 3 × Action 3) :=
  [(1, .electionTimeout), (1, .startElection), (0, .voteRequest ⟨1, 1, 0, 0⟩),
    (1, .receiveVote ⟨0, 1, true⟩), (1, .replicate 0), (1, .prepareLogRequestArgs 0),
    (0, .logRequest ⟨1, 1, 0, 0, 0, []⟩),
    (2, .electionTimeout), (2, .startElection), (2, .electionTimeout), (2, .startElection),
    (1, .voteRequest ⟨2, 2, 0, 0⟩), (2, .receiveVote ⟨1, 2, true⟩), (2, .replicate 1),
    (2, .prepareLogRequestArgs 1), (1, .logRequest ⟨2, 2, 0, 0, 0, []⟩)]

/-- After that run a request to node 0 is passed on twice.  Two nodes that take each other for the
leader pass a request on for ever. -/
theorem forwarded_more_than_once :
    (∃ c : Cluster 3 Unit, Reachable (Cluster.step keepsNothing) (Cluster.fresh 3) c ∧
      route (forward allConnected fun i ↦ (c.raft i).belief) 1 false 0 = none ∧
      route (forwardGet allConnected fun i ↦ (c.raft i).belief) 1 false 0 = none ∧
      route (forward allConnected fun i ↦ (c.raft i).belief) 2 false 0 = some (.handled 2)) ∧
    ∀ passes,
      route (forward allConnected fun i : Fin 2 ↦ ⟨.follower, some (1 - i)⟩) passes false 0 = none ∧
      route (forwardGet allConnected fun i : Fin 2 ↦ ⟨.follower, some (1 - i)⟩) passes false 0 =
        none :=
  ⟨exists_reaches_of_exec outdatedBelief (by decide +kernel),
    never_handled allConnected (by decide) _ 0 1 (by decide) (by decide)⟩

end DistributedCache
