import Mathlib.Data.Fintype.Basic
import Mathlib.Data.List.FinRange
import Mathlib.Logic.Function.Basic

/-!
# The connection manager

`connection_manager.go`: one goroutine per peer dials until it has a connection, a health check
looks at the connections again and again, and `Close` ends them all.  A step is one lock region, one
atomic load or store, or one call into gRPC, whose connections change their states at any time.
How long a delay lasts is left open, and so is whatever `select` may choose.

Connections are numbered in the order in which `grpc.NewClient` returns them, and the manager keeps
them all, closed or not: what it has lost sight of is a leak.
-/

namespace DistributedCache

/-- `connectivity.State`. -/
inductive Connectivity where
  | idle
  | connecting
  | ready
  | transientFailure
  | shutdown
  deriving DecidableEq, Repr

variable {n : Nat}

/-- A `grpc.ClientConn`; `closed` says that somebody has called `Close` on it. -/
structure ClientConn (n : Nat) where
  peerID : Fin n
  state : Connectivity
  closed : Bool
  deriving DecidableEq, Repr

def ClientConn.close (conn : ClientConn n) : ClientConn n :=
  { conn with state := .shutdown, closed := true }

/-! ## 1. Goroutines -/

/-- Where `connectPeerAsync` is, with the number of the connection it has in hand. -/
inductive ConnectStage where
  /-- At the top of the loop. -/
  | check
  | dial
  /-- `dialPeer` is about to ask for the state of its connection. -/
  | poll (conn : Nat)
  /-- `WaitForStateChange`. -/
  | wait (conn : Nat)
  | store (conn : Nat)
  /-- The connection is stored and the peer is not yet marked as available. -/
  | announce
  | backoff
  /-- The deferred `wg.Done` is left. -/
  | finish
  | returned
  deriving DecidableEq, Repr

namespace ConnectStage

/-- The connection that only this goroutine knows of. -/
def holds : ConnectStage → Option Nat
  | .poll c | .wait c | .store c => some c
  | _ => none

/-- The goroutine may yet store a connection. -/
def active : ConnectStage → Nat
  | .announce | .finish | .returned => 0
  | _ => 1

def alive : ConnectStage → Nat
  | .returned => 0
  | _ => 1

theorem active_le_one (stage : ConnectStage) : stage.active ≤ 1 := by
  cases stage with
  | announce | finish | returned => exact Nat.zero_le 1
  | _ => exact Nat.le_refl 1

theorem holds_of_dials {stage : ConnectStage} {c : Nat} (h : stage = .poll c ∨ stage = .wait c) :
    stage.holds = some c := by
  cases h with
  | inl h | inr h =>
    rw [h]
    rfl

theorem active_of_holds {stage : ConnectStage} {c : Nat} (h : stage.holds = some c) :
    stage.active = 1 := by
  cases stage <;> first | rfl | cases h

end ConnectStage

/-- A `connectPeerAsync` goroutine. -/
structure Connector (n : Nat) where
  peerID : Fin n
  attempts : Nat
  stage : ConnectStage
  deriving DecidableEq, Repr

namespace Connector

def activeFor (i : Fin n) (g : Connector n) : Nat := if g.peerID = i then g.stage.active else 0

def alive (g : Connector n) : Nat := g.stage.alive

theorem activeFor_self (g : Connector n) : activeFor g.peerID g = g.stage.active := if_pos rfl

end Connector

/-- Where `healthCheckLoop` is. -/
inductive HealthStage (n : Nat) where
  | started
  | select
  /-- At the top of the loop over the peers. -/
  | peer (i : Nat)
  | getState (i : Fin n) (conn : Nat)
  /-- `peerAvailable` is compared with what it should be and then set; `shut` says that
  `reconnectPeer` comes next. -/
  | load (i : Fin n) (available shut : Bool)
  | store (i : Fin n) (available shut : Bool)
  | reconnect (i : Fin n)
  | closeOld (i : Fin n) (oldConn : Option Nat)
  | unmark (i : Fin n)
  | spawn (i : Fin n)
  | finish
  | returned
  deriving DecidableEq, Repr

namespace HealthStage

def alive : HealthStage n → Nat
  | .returned => 0
  | _ => 1

/-- The peer has lost its connection and its next goroutine does not run yet. -/
def reconnecting (i : Fin n) : HealthStage n → Nat
  | .closeOld j _ | .unmark j | .spawn j => if j = i then 1 else 0
  | _ => 0

/-- The peer that is looked at. -/
def target : HealthStage n → Option (Fin n)
  | .getState i _ | .load i _ _ | .store i _ _ | .reconnect i | .closeOld i _ | .unmark i
  | .spawn i => some i
  | _ => none

/-- What the health check relies on when it goes on. -/
def Expects (conns : Fin n → Option Nat) : HealthStage n → Prop
  | .getState i c => conns i = some c
  | .load i available shut | .store i available shut =>
    available = true ∨ shut = true → (conns i).isSome
  | .reconnect i => (conns i).isSome
  | _ => True

/-- What follows once `peerAvailable` is right. -/
def after (i : Fin n) (shut : Bool) : HealthStage n :=
  if shut then .reconnect i else .peer (i + 1)

end HealthStage

/-- What the health check makes of a state: the peer's availability, and whether the connection is
shut down.  While a connection is being set up nothing is done. -/
def Connectivity.verdict : Connectivity → Option (Bool × Bool)
  | .ready | .idle => some (true, false)
  | .transientFailure => some (false, false)
  | .shutdown => some (false, true)
  | .connecting => none

inductive CloseStage where
  | notCalled
  /-- In `wg.Wait`, with the context cancelled. -/
  | waiting
  | returned
  deriving DecidableEq, Repr

/-! ## 2. The manager -/

structure ConnectionManager (n : Nat) where
  selfID : Fin n
  /-- `retryCfg.MaxRetries`. -/
  maxRetries : Int
  healthInterval : Int
  conns : Fin n → Option Nat
  /-- A peer client is known by the connection it was made for. -/
  peers : Fin n → Option Nat
  peerAvailable : Fin n → Bool
  /-- Every connection there has been. -/
  clients : List (ClientConn n)
  connectors : List (Connector n)
  health : HealthStage n
  closing : CloseStage
  wg : Int

inductive ConnectionAction where
  /-- Goroutine `k` goes on; `ok` is the outcome of a call, or the branch that `select` takes. -/
  | connect (k : Nat) (ok : Bool)
  | health
  | tick
  /-- A connection changes its state by itself. -/
  | change (c : Nat) (state : Connectivity)
  | close
  | closeAll
  deriving DecidableEq, Repr

namespace ConnectionManager

def newConnectionManager (selfID : Fin n) (maxRetries healthInterval : Int) :
    ConnectionManager n where
  selfID := selfID
  maxRetries := maxRetries
  healthInterval := healthInterval
  conns _ := none
  peers _ := none
  peerAvailable i := decide (i = selfID)
  clients := []
  connectors := ((List.finRange n).filter (· ≠ selfID)).map fun i ↦ ⟨i, 0, .check⟩
  health := .started
  closing := .notCalled
  wg := ((List.finRange n).filter (· ≠ selfID)).length + 1

def cancelled (cm : ConnectionManager n) : Bool := decide (cm.closing ≠ .notCalled)

def getPeer (cm : ConnectionManager n) (peerID : Int) : Option Nat :=
  if h : 0 ≤ peerID ∧ peerID < n then cm.peers ⟨peerID.toNat, by omega⟩ else none

def isPeerAvailable (cm : ConnectionManager n) (peerID : Int) : Bool :=
  if h : 0 ≤ peerID ∧ peerID < n then cm.peerAvailable ⟨peerID.toNat, by omega⟩ else false

/-- Goroutine `k` goes on to a stage. -/
def goes (cm : ConnectionManager n) (k : Nat) (g : Connector n) (stage : ConnectStage) :
    ConnectionManager n :=
  { cm with connectors := cm.connectors.set k { g with stage := stage } }

def scans (cm : ConnectionManager n) (stage : HealthStage n) : ConnectionManager n :=
  { cm with health := stage }

/-- `Close` of a connection. -/
def closeConn (cm : ConnectionManager n) (c : Nat) : ConnectionManager n :=
  { cm with clients := cm.clients.modify c ClientConn.close }

def gaveUp (cm : ConnectionManager n) (attempts : Nat) : Prop :=
  0 < cm.maxRetries ∧ cm.maxRetries ≤ attempts
deriving Decidable

/-- `grpc.NewClient` has returned a connection, which is idle. -/
def dials (cm : ConnectionManager n) (k : Nat) (g : Connector n) : ConnectionManager n :=
  { cm.goes k g (.poll cm.clients.length) with clients := cm.clients ++ [⟨g.peerID, .idle, false⟩] }

/-- The dial has failed and its connection is closed. -/
def drops (cm : ConnectionManager n) (k : Nat) (g : Connector n) (c : Nat) :
    ConnectionManager n :=
  (cm.closeConn c).goes k g .backoff

/-- The state of a connection decides how `dialPeer` goes on. -/
def polls (cm : ConnectionManager n) (k : Nat) (g : Connector n) (c : Nat) :
    Connectivity → ConnectionManager n
  | .ready | .idle => cm.goes k g (.store c)
  | .transientFailure | .shutdown => cm.drops k g c
  | .connecting => cm.goes k g (.wait c)

def stores (cm : ConnectionManager n) (k : Nat) (g : Connector n) (c : Nat) :
    ConnectionManager n :=
  { cm.goes k g .announce with
    conns := Function.update cm.conns g.peerID (some c)
    peers := Function.update cm.peers g.peerID (some c) }

def announces (cm : ConnectionManager n) (k : Nat) (g : Connector n) : ConnectionManager n :=
  { cm.goes k g .finish with peerAvailable := Function.update cm.peerAvailable g.peerID true }

def connectPeerAsync (cm : ConnectionManager n) (k : Nat) (ok : Bool) (g : Connector n) :
    Option (ConnectionManager n) :=
  match g.stage with
  | .check =>
    if cm.cancelled ∨ cm.gaveUp g.attempts then some (cm.goes k g .finish)
    else some (cm.goes k g .dial)
  -- an address that cannot be parsed gives an error and no connection
  | .dial => some (if ok then cm.dials k g else cm.goes k g .backoff)
  | .poll c => cm.clients[c]?.map fun conn ↦ cm.polls k g c conn.state
  | .wait c =>
    if ok then
      cm.clients[c]?.bind fun conn ↦
        if conn.state = .connecting then none else some (cm.goes k g (.poll c))
    -- the timeout, or the context
    else some (cm.drops k g c)
  | .store c => some (cm.stores k g c)
  | .announce => some (cm.announces k g)
  | .backoff =>
    if ok then some (cm.goes k { g with attempts := g.attempts + 1 } .check)
    else if cm.cancelled then some (cm.goes k g .finish)
    else none
  | .finish => some { cm.goes k g .returned with wg := cm.wg - 1 }
  | .returned => none

/-- The top of the loop over the peers. -/
def peerStage (cm : ConnectionManager n) (i : Nat) : HealthStage n :=
  if h : i < n then
    if ⟨i, h⟩ = cm.selfID then .peer (i + 1)
    else match cm.conns ⟨i, h⟩ with
      | none => .load ⟨i, h⟩ false false
      | some c => .getState ⟨i, h⟩ c
  else .select

/-- The switch over the state of a connection. -/
def judgedStage (i : Fin n) (state : Connectivity) : HealthStage n :=
  match state.verdict with
  | some (available, shut) => .load i available shut
  | none => .peer (i + 1)

def healthCheckLoop (cm : ConnectionManager n) : Option (ConnectionManager n) :=
  match cm.health with
  | .started => some (cm.scans (if cm.healthInterval ≤ 0 then .finish else .select))
  | .select => if cm.cancelled then some (cm.scans .finish) else none
  | .peer i => some (cm.scans (cm.peerStage i))
  | .getState i c => cm.clients[c]?.map fun conn ↦ cm.scans (judgedStage i conn.state)
  | .load i available shut => some (cm.scans
      (if cm.peerAvailable i = available then .after i shut else .store i available shut))
  | .store i available shut => some { cm.scans (.after i shut) with
      peerAvailable := Function.update cm.peerAvailable i available }
  -- `reconnectPeer` from here on
  | .reconnect i => some { cm.scans (.closeOld i (cm.conns i)) with
      conns := Function.update cm.conns i none
      peers := Function.update cm.peers i none }
  | .closeOld i oldConn => some ((oldConn.elim cm cm.closeConn).scans (.unmark i))
  | .unmark i => some { cm.scans (.spawn i) with
      peerAvailable := Function.update cm.peerAvailable i false }
  | .spawn i => some { cm.scans (.peer (i + 1)) with
      wg := cm.wg + 1
      connectors := cm.connectors ++ [⟨i, 0, .check⟩] }
  | .finish => some { cm.scans .returned with wg := cm.wg - 1 }
  | .returned => none

/-- The connections that the loop of `Close` closes. -/
def closesAll (cm : ConnectionManager n) : List (ClientConn n) :=
  cm.clients.mapIdx fun c conn ↦
    if ∃ i, i ≠ cm.selfID ∧ cm.conns i = some c then conn.close else conn

def step (cm : ConnectionManager n) : ConnectionAction → Option (ConnectionManager n)
  | .connect k ok => cm.connectors[k]?.bind (cm.connectPeerAsync k ok)
  | .health => cm.healthCheckLoop
  -- the ticker may win the `select` after the context has ended
  | .tick => if cm.health = .select then some (cm.scans (.peer 0)) else none
  -- a closed connection stays shut down
  | .change c state => cm.clients[c]?.bind fun conn ↦
      if conn.closed then none
      else some { cm with clients := cm.clients.set c { conn with state := state } }
  | .close => if cm.closing = .notCalled then some { cm with closing := .waiting } else none
  | .closeAll =>
    if cm.closing = .waiting ∧ cm.wg = 0 then
      some { cm with closing := .returned, clients := cm.closesAll }
    else none

/-! ## 3. What a step can do -/

/-- The moves of a goroutine that nobody else sees. -/
inductive Moves (cm : ConnectionManager n) : Connector n → Connector n → Prop
  | stops {g : Connector n} (hstage : g.stage = .check)
      (hwhy : cm.cancelled = true ∨ cm.gaveUp g.attempts) : Moves cm g { g with stage := .finish }
  | checks {g : Connector n} (hstage : g.stage = .check) (hrun : cm.cancelled = false) :
      Moves cm g { g with stage := .dial }
  | fails {g : Connector n} (hstage : g.stage = .dial) : Moves cm g { g with stage := .backoff }
  | settles {g : Connector n} {c : Nat} (hstage : g.stage = .poll c) :
      Moves cm g { g with stage := .store c }
  | waits {g : Connector n} {c : Nat} {conn : ClientConn n} (hstage : g.stage = .poll c)
      (hconn : cm.clients[c]? = some conn) (hstate : conn.state = .connecting) :
      Moves cm g { g with stage := .wait c }
  | wakes {g : Connector n} {c : Nat} {conn : ClientConn n} (hstage : g.stage = .wait c)
      (hconn : cm.clients[c]? = some conn) (hstate : conn.state ≠ .connecting) :
      Moves cm g { g with stage := .poll c }
  | retries {g : Connector n} (hstage : g.stage = .backoff) :
      Moves cm g { g with attempts := g.attempts + 1, stage := .check }
  | leaves {g : Connector n} (hstage : g.stage = .backoff) : Moves cm g { g with stage := .finish }

/-- The stages to which the health check may go on without changing anything. -/
inductive Scans (cm : ConnectionManager n) : HealthStage n → Prop
  | starts (hstage : cm.health = .started) (hinterval : ¬ cm.healthInterval ≤ 0) : Scans cm .select
  | disabled (hstage : cm.health = .started) : Scans cm .finish
  | cancels (hstage : cm.health = .select) : Scans cm .finish
  | skips {i : Nat} (hstage : cm.health = .peer i) (hlt : i < n) : Scans cm (.peer (i + 1))
  | sweeps {i : Nat} (hstage : cm.health = .peer i) : Scans cm .select
  | misses {i : Fin n} (hstage : cm.health = .peer i) (hself : i ≠ cm.selfID) :
      Scans cm (.load i false false)
  | finds {i : Fin n} {c : Nat} (hstage : cm.health = .peer i) (hself : i ≠ cm.selfID)
      (hconn : cm.conns i = some c) : Scans cm (.getState i c)
  | judges {i : Fin n} {c : Nat} {conn : ClientConn n} {available shut : Bool}
      (hstage : cm.health = .getState i c) (hconn : cm.clients[c]? = some conn)
      (hverdict : conn.state.verdict = some (available, shut)) :
      Scans cm (.load i available shut)
  | passes {i : Fin n} {c : Nat} (hstage : cm.health = .getState i c) : Scans cm (.peer (i + 1))
  | agrees {i : Fin n} {available shut : Bool} (hstage : cm.health = .load i available shut) :
      Scans cm (.after i shut)
  | differs {i : Fin n} {available shut : Bool} (hstage : cm.health = .load i available shut) :
      Scans cm (.store i available shut)

inductive StepCase (cm : ConnectionManager n) : ConnectionAction → ConnectionManager n → Prop
  | moves {k : Nat} {ok : Bool} {g g' : Connector n} (hk : cm.connectors[k]? = some g)
      (hmoves : cm.Moves g g') :
      StepCase cm (.connect k ok) { cm with connectors := cm.connectors.set k g' }
  | dials {k : Nat} {ok : Bool} {g : Connector n} (hk : cm.connectors[k]? = some g)
      (hstage : g.stage = .dial) : StepCase cm (.connect k ok) (cm.dials k g)
  | drops {k c : Nat} {ok : Bool} {g : Connector n} (hk : cm.connectors[k]? = some g)
      (hstage : g.stage = .poll c ∨ g.stage = .wait c) :
      StepCase cm (.connect k ok) (cm.drops k g c)
  | stores {k c : Nat} {ok : Bool} {g : Connector n} (hk : cm.connectors[k]? = some g)
      (hstage : g.stage = .store c) : StepCase cm (.connect k ok) (cm.stores k g c)
  | announces {k : Nat} {ok : Bool} {g : Connector n} (hk : cm.connectors[k]? = some g)
      (hstage : g.stage = .announce) : StepCase cm (.connect k ok) (cm.announces k g)
  | finishes {k : Nat} {ok : Bool} {g : Connector n} (hk : cm.connectors[k]? = some g)
      (hstage : g.stage = .finish) :
      StepCase cm (.connect k ok) { cm.goes k g .returned with wg := cm.wg - 1 }
  | scans {stage : HealthStage n} (hscans : cm.Scans stage) : StepCase cm .health (cm.scans stage)
  | marks {i : Fin n} {available shut : Bool} (hstage : cm.health = .store i available shut) :
      StepCase cm .health { cm.scans (.after i shut) with
        peerAvailable := Function.update cm.peerAvailable i available }
  | takes {i : Fin n} (hstage : cm.health = .reconnect i) :
      StepCase cm .health { cm.scans (.closeOld i (cm.conns i)) with
        conns := Function.update cm.conns i none
        peers := Function.update cm.peers i none }
  | closesOld {i : Fin n} {oldConn : Option Nat} (hstage : cm.health = .closeOld i oldConn) :
      StepCase cm .health ((oldConn.elim cm cm.closeConn).scans (.unmark i))
  | unmarks {i : Fin n} (hstage : cm.health = .unmark i) :
      StepCase cm .health { cm.scans (.spawn i) with
        peerAvailable := Function.update cm.peerAvailable i false }
  | spawns {i : Fin n} (hstage : cm.health = .spawn i) :
      StepCase cm .health { cm.scans (.peer (i + 1)) with
        wg := cm.wg + 1
        connectors := cm.connectors ++ [⟨i, 0, .check⟩] }
  | ends (hstage : cm.health = .finish) :
      StepCase cm .health { cm.scans .returned with wg := cm.wg - 1 }
  | ticks (hstage : cm.health = .select) : StepCase cm .tick (cm.scans (.peer 0))
  | changes {c : Nat} {state : Connectivity} {conn : ClientConn n}
      (hconn : cm.clients[c]? = some conn) (hopen : conn.closed = false) :
      StepCase cm (.change c state)
        { cm with clients := cm.clients.set c { conn with state := state } }
  | closes (hclosing : cm.closing = .notCalled) : StepCase cm .close { cm with closing := .waiting }
  | closesAll (hclosing : cm.closing = .waiting) (hwg : cm.wg = 0) :
      StepCase cm .closeAll { cm with closing := .returned, clients := cm.closesAll }

variable {cm cm' : ConnectionManager n} {a : ConnectionAction} {k c : Nat} {i : Fin n}
  {g : Connector n}

theorem polls_cases {ok : Bool} {conn : ClientConn n} (hk : cm.connectors[k]? = some g)
    (hstage : g.stage = .poll c) (hconn : cm.clients[c]? = some conn) :
    StepCase cm (.connect k ok) (cm.polls k g c conn.state) := by
  cases hstate : conn.state with
  | ready | idle => exact .moves hk (.settles hstage)
  | transientFailure | shutdown => exact .drops hk (Or.inl hstage)
  | connecting => exact .moves hk (.waits hstage hconn hstate)

theorem connectPeerAsync_cases {ok : Bool} (hk : cm.connectors[k]? = some g)
    (h : cm.connectPeerAsync k ok g = some cm') : StepCase cm (.connect k ok) cm' := by
  unfold connectPeerAsync at h
  split at h
  next hstage =>
    split at h
    next hwhy =>
      cases h
      exact .moves hk (.stops hstage hwhy)
    next hgo =>
      cases h
      exact .moves hk (.checks hstage (Bool.eq_false_of_not_eq_true fun hc ↦ hgo (Or.inl hc)))
  next hstage =>
    cases h
    cases ok with
    | true => exact .dials hk hstage
    | false => exact .moves hk (.fails hstage)
  next c hstage =>
    obtain ⟨conn, hconn, rfl⟩ := Option.map_eq_some_iff.mp h
    exact polls_cases hk hstage hconn
  next c hstage =>
    split at h
    · obtain ⟨conn, hconn, h⟩ := Option.bind_eq_some_iff.mp h
      obtain ⟨hstate, h⟩ := Option.ite_none_left_eq_some.mp h
      cases h
      exact .moves hk (.wakes hstage hconn hstate)
    · cases h
      exact .drops hk (Or.inr hstage)
  next c hstage =>
    cases h
    exact .stores hk hstage
  next hstage =>
    cases h
    exact .announces hk hstage
  next hstage =>
    split at h
    · cases h
      exact .moves hk (.retries hstage)
    · obtain ⟨-, h⟩ := Option.ite_none_right_eq_some.mp h
      cases h
      exact .moves hk (.leaves hstage)
  next hstage =>
    cases h
    exact .finishes hk hstage
  next => cases h

theorem scans_peerStage {j : Nat} (hstage : cm.health = .peer j) : cm.Scans (cm.peerStage j) := by
  unfold peerStage
  split
  next hlt =>
    split
    next => exact .skips hstage hlt
    next hself =>
      split
      next => exact .misses (i := ⟨j, hlt⟩) hstage hself
      next c hconn => exact .finds (i := ⟨j, hlt⟩) hstage hself hconn
  next => exact .sweeps hstage

theorem scans_judgedStage {conn : ClientConn n} (hstage : cm.health = .getState i c)
    (hconn : cm.clients[c]? = some conn) : cm.Scans (judgedStage i conn.state) := by
  unfold judgedStage
  split
  next available shut hverdict => exact .judges hstage hconn hverdict
  next => exact .passes hstage

theorem healthCheckLoop_cases (h : cm.healthCheckLoop = some cm') : StepCase cm .health cm' := by
  unfold healthCheckLoop at h
  split at h
  next hstage =>
    cases h
    apply StepCase.scans
    split
    next => exact .disabled hstage
    next hinterval => exact .starts hstage hinterval
  next hstage =>
    obtain ⟨-, h⟩ := Option.ite_none_right_eq_some.mp h
    cases h
    exact .scans (.cancels hstage)
  next j hstage =>
    cases h
    exact .scans (scans_peerStage hstage)
  next i c hstage =>
    obtain ⟨conn, hconn, rfl⟩ := Option.map_eq_some_iff.mp h
    exact .scans (scans_judgedStage hstage hconn)
  next i available shut hstage =>
    cases h
    apply StepCase.scans
    split
    next => exact .agrees hstage
    next => exact .differs hstage
  next hstage =>
    cases h
    exact .marks hstage
  next hstage =>
    cases h
    exact .takes hstage
  next hstage =>
    cases h
    exact .closesOld hstage
  next hstage =>
    cases h
    exact .unmarks hstage
  next hstage =>
    cases h
    exact .spawns hstage
  next hstage =>
    cases h
    exact .ends hstage
  next => cases h

theorem step_cases (h : cm.step a = some cm') : StepCase cm a cm' := by
  cases a with
  | connect k ok =>
    obtain ⟨g, hk, h⟩ := Option.bind_eq_some_iff.mp h
    exact connectPeerAsync_cases hk h
  | health => exact healthCheckLoop_cases h
  | tick =>
    obtain ⟨hstage, h⟩ := Option.ite_none_right_eq_some.mp h
    cases h
    exact .ticks hstage
  | change c state =>
    obtain ⟨conn, hconn, h⟩ := Option.bind_eq_some_iff.mp h
    obtain ⟨hopen, h⟩ := Option.ite_none_left_eq_some.mp h
    cases h
    exact .changes hconn (Bool.eq_false_of_not_eq_true hopen)
  | close =>
    obtain ⟨hclosing, h⟩ := Option.ite_none_right_eq_some.mp h
    cases h
    exact .closes hclosing
  | closeAll =>
    obtain ⟨⟨hclosing, hwg⟩, h⟩ := Option.ite_none_right_eq_some.mp h
    cases h
    exact .closesAll hclosing hwg

end ConnectionManager

end DistributedCache
