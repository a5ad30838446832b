import DistributedCache.Raft.ConnectionOwners

/-!
# The end of the connection manager, and its clients until then

`Close` cancels the context and waits for every goroutine.  Each step of a goroutine then brings the
manager closer to its end, whatever the order: dials fail or are stored, a health check under way
finishes its round, goroutines that it still starts return at once.  Ticks that the health check
takes in spite of the context, and connections that change their states meanwhile, are not counted.

gRPC shuts a connection down only when it is closed.  As long as that holds, `reconnectPeer` is
never called, a peer keeps the client it has got, and a peer that is available has one.
-/

namespace DistributedCache

open Transition Pool

variable {n : Nat}

namespace ConnectionAction

/-- The steps of the goroutines, and the last one of `Close`. -/
def Settles : ConnectionAction → Prop
  | .connect _ _ | .health | .closeAll => True
  | .tick | .change _ _ | .close => False

instance : ∀ a : ConnectionAction, Decidable a.Settles
  | .connect _ _ | .health | .closeAll => isTrue trivial
  | .tick | .change _ _ | .close => isFalse id

end ConnectionAction

/-! ## 1. How far it is to the end -/

def pollRank (state : Option Connectivity) : Nat := if state = some .connecting then 6 else 4

/-- The steps that a goroutine has left when the context has ended. -/
def Connector.rank (clients : List (ClientConn n)) (g : Connector n) : Nat :=
  match g.stage with
  | .returned => 0
  | .finish => 1
  | .check => 2
  | .announce => 2
  | .store _ => 3
  | .backoff => 3
  | .poll c => pollRank (clients[c]?.map ClientConn.state)
  | .wait _ => 5
  | .dial => 5

/-- The steps that the health check has left, with those of the goroutines that it may start. -/
def HealthStage.rank : HealthStage n → Nat
  | .returned => 0
  | .finish => 1
  | .select => 2
  | .started => 3
  | .peer i => 3 + 10 * (n - i)
  | .getState i _ => 3 + 10 * (n - (i + 1)) + 9
  | .load i _ _ => 3 + 10 * (n - (i + 1)) + 8
  | .store i _ _ => 3 + 10 * (n - (i + 1)) + 7
  | .reconnect i => 3 + 10 * (n - (i + 1)) + 6
  | .closeOld i _ => 3 + 10 * (n - (i + 1)) + 5
  | .unmark i => 3 + 10 * (n - (i + 1)) + 4
  | .spawn i => 3 + 10 * (n - (i + 1)) + 3

namespace ConnectionManager

def closeRank : CloseStage → Nat
  | .returned => 0
  | _ => 1

def remaining (cm : ConnectionManager n) : Nat :=
  weigh (Connector.rank cm.clients) cm.connectors + cm.health.rank + closeRank cm.closing

variable {cm cm' : ConnectionManager n} {a : ConnectionAction} {k c : Nat} {i : Fin n}
  {g : Connector n}

theorem four_le_pollRank (state : Option Connectivity) : 4 ≤ pollRank state := by
  unfold pollRank
  split <;> omega

/-- Connections that come or are closed make no goroutine wait longer. -/
theorem weigh_rank_le {clients clients' : List (ClientConn n)} (pool : List (Connector n))
    (h : ∀ c : Nat, clients'[c]?.map ClientConn.state = some .connecting →
      clients[c]?.map ClientConn.state = some .connecting) :
    weigh (Connector.rank clients') pool ≤ weigh (Connector.rank clients) pool := by
  apply weigh_le_weigh
  intro g _
  unfold Connector.rank
  split
  case h_7 c _ =>
    unfold pollRank
    split
    next hnew => rw [if_pos (h c hnew)]
    next => split <;> decide
  all_goals exact Nat.le_refl _

theorem connecting_of_close (cm : ConnectionManager n) (d c : Nat)
    (h : (cm.clients.modify d ClientConn.close)[c]?.map ClientConn.state = some .connecting) :
    cm.clients[c]?.map ClientConn.state = some .connecting := by
  by_cases hcd : d = c
  · subst hcd
    rw [List.getElem?_modify_eq] at h
    cases hconn : cm.clients[d]? with
    | none | some =>
      rw [hconn] at h
      cases h
  · rwa [List.getElem?_modify_ne _ _ hcd] at h

theorem connecting_of_append (cm : ConnectionManager n) (conn : ClientConn n)
    (hidle : conn.state = .idle) (c : Nat)
    (h : (cm.clients ++ [conn])[c]?.map ClientConn.state = some .connecting) :
    cm.clients[c]?.map ClientConn.state = some .connecting := by
  rcases Nat.lt_trichotomy c cm.clients.length with hlt | heq | hgt
  · rwa [List.getElem?_append_left hlt] at h
  · subst heq
    rw [List.getElem?_concat_length, Option.map_some, hidle] at h
    cases h
  · rw [List.getElem?_eq_none (by simp; omega)] at h
    cases h

theorem connecting_of_closesAll (cm : ConnectionManager n) (c : Nat)
    (h : cm.closesAll[c]?.map ClientConn.state = some .connecting) :
    cm.clients[c]?.map ClientConn.state = some .connecting := by
  rw [closesAll, List.getElem?_mapIdx] at h
  cases hconn : cm.clients[c]? with
  | none =>
    rw [hconn] at h
    cases h
  | some conn =>
    rw [hconn, Option.map_some, Option.map_some] at h
    split at h
    · cases h
    · exact h

/-! ## 2. Every step comes closer -/

theorem Moves.rank_lt {g' : Connector n} (h : cm.Moves g g') (hcancelled : cm.cancelled = true) :
    g'.rank cm.clients < g.rank cm.clients := by
  cases h with
  | stops hstage | retries hstage | leaves hstage | fails hstage =>
    simp only [Connector.rank, hstage]
    decide
  -- a goroutine that looks at the context now returns
  | checks hstage hrun =>
    rw [hcancelled] at hrun
    cases hrun
  | settles hstage =>
    simp only [Connector.rank, hstage]
    exact four_le_pollRank _
  | waits hstage hconn hstate =>
    simp only [Connector.rank, hstage, hconn, Option.map_some, hstate]
    decide
  | wakes hstage hconn hstate =>
    have hne : some _ ≠ some Connectivity.connecting := fun heq ↦ hstate (Option.some.inj heq)
    simp only [Connector.rank, hstage, hconn, Option.map_some, pollRank, if_neg hne]
    decide

theorem rank_after (j : Fin n) (shut : Bool) :
    (HealthStage.after j shut).rank ≤ 3 + 10 * (n - (j + 1)) + 6 := by
  cases shut with
  | false => exact Nat.le_add_right _ 6
  | true => exact Nat.le_refl _

theorem Scans.rank_lt {stage : HealthStage n} (h : cm.Scans stage) :
    stage.rank < cm.health.rank := by
  cases h with
  | starts hstage | disabled hstage | cancels hstage =>
    rw [hstage]
    simp only [HealthStage.rank]
    decide
  | skips hstage | sweeps hstage | judges hstage | passes hstage | differs hstage =>
    rw [hstage]
    simp only [HealthStage.rank]
    omega
  | @misses i hstage | @finds i c hstage =>
    have hlt := i.isLt
    rw [hstage]
    simp only [HealthStage.rank]
    omega
  | @agrees i available shut hstage =>
    have hafter := rank_after i shut
    rw [hstage]
    simp only [HealthStage.rank] at hafter ⊢
    omega

theorem remaining_lt_of_goes (stage : ConnectStage) (hk : cm.connectors[k]? = some g)
    {clients : List (ClientConn n)}
    (hclients : ∀ c : Nat, clients[c]?.map ClientConn.state = some .connecting →
      cm.clients[c]?.map ClientConn.state = some .connecting)
    (hlt : Connector.rank cm.clients { g with stage := stage } < g.rank cm.clients) :
    weigh (Connector.rank clients) (cm.goes k g stage).connectors <
      weigh (Connector.rank cm.clients) cm.connectors := by
  have hset := weigh_set (Connector.rank cm.clients) hk { g with stage := stage }
  have hle := weigh_rank_le (cm.goes k g stage).connectors hclients
  simp only [goes] at hle ⊢
  omega

theorem remaining_lt (hcase : StepCase cm a cm') (hsettles : a.Settles)
    (hcancelled : cm.cancelled = true) : cm'.remaining < cm.remaining := by
  cases hcase with
  | @moves k ok g g' hk hmoves =>
    have hlt := hmoves.rank_lt hcancelled
    have hset := weigh_set (Connector.rank cm.clients) hk g'
    simp only [remaining]
    omega
  | @dials k ok g hk hstage =>
    have hnone : cm.clients[cm.clients.length]? = none := List.getElem?_eq_none (Nat.le_refl _)
    have hlt := remaining_lt_of_goes (.poll cm.clients.length) hk
      (connecting_of_append cm ⟨g.peerID, .idle, false⟩ rfl) (by
        simp only [Connector.rank, hstage, hnone, Option.map_none]
        decide)
    simp only [remaining, dials, goes] at hlt ⊢
    omega
  | @drops k c ok g hk hstage =>
    have hlt := remaining_lt_of_goes .backoff hk (connecting_of_close cm c) (by
      cases hstage with
      | inl hstage =>
        simp only [Connector.rank, hstage]
        exact four_le_pollRank _
      | inr hstage =>
        simp only [Connector.rank, hstage]
        decide)
    simp only [remaining, drops, closeConn, goes] at hlt ⊢
    omega
  | @stores k c ok g hk hstage =>
    have hlt := remaining_lt_of_goes .announce hk (fun _ h ↦ h) (by
      simp only [Connector.rank, hstage]
      decide)
    simp only [remaining, stores, goes] at hlt ⊢
    omega
  | @announces k ok g hk hstage =>
    have hlt := remaining_lt_of_goes .finish hk (fun _ h ↦ h) (by
      simp only [Connector.rank, hstage]
      decide)
    simp only [remaining, announces, goes] at hlt ⊢
    omega
  | @finishes k ok g hk hstage =>
    have hlt := remaining_lt_of_goes .returned hk (fun _ h ↦ h) (by
      simp only [Connector.rank, hstage]
      decide)
    simp only [remaining, goes] at hlt ⊢
    omega
  | scans hscans =>
    have hlt := hscans.rank_lt
    simp only [remaining, scans]
    omega
  | @marks i available shut hstage =>
    have hafter := rank_after i shut
    have hstore : cm.health.rank = 3 + 10 * (n - (i + 1)) + 7 := by
      rw [hstage]
      rfl
    simp only [remaining, scans]
    omega
  | takes hstage | unmarks hstage | ends hstage =>
    simp only [remaining, scans, hstage, HealthStage.rank]
    omega
  | @closesOld i oldConn hstage =>
    cases oldConn with
    | none =>
      simp only [remaining, Option.elim, scans, hstage, HealthStage.rank]
      omega
    | some c =>
      have hle := weigh_rank_le cm.connectors (connecting_of_close cm c)
      simp only [remaining, Option.elim, closeConn, scans, hstage, HealthStage.rank]
      omega
  -- the goroutine that is started has two steps before it
  | spawns hstage =>
    simp only [remaining, scans, hstage, HealthStage.rank, weigh_append_singleton, Connector.rank]
    omega
  | closesAll hclosing =>
    have hle := weigh_rank_le cm.connectors (connecting_of_closesAll cm)
    simp only [remaining, hclosing, closeRank]
    omega
  | ticks | changes | closes => cases hsettles

/-! ## 3. A manager at rest -/

/-- No goroutine can go on, and neither can `Close`. -/
def AtRest (cm : ConnectionManager n) : Prop := ∀ a, a.Settles → cm.step a = none

theorem Sound.connect_enabled (h : cm.Sound) (hk : cm.connectors[k]? = some g)
    (halive : g.stage ≠ .returned) : ∃ ok, cm.step (.connect k ok) ≠ none := by
  have hstep : ∀ ok, cm.step (.connect k ok) = cm.connectPeerAsync k ok g := by
    intro ok
    simp only [ConnectionManager.step, hk, Option.bind_some]
  have hheld := h.held g (List.mem_of_getElem? hk)
  cases hstage : g.stage with
  | check =>
    refine ⟨true, ?_⟩
    simp only [hstep, connectPeerAsync, hstage]
    split <;> exact nofun
  | poll c =>
    refine ⟨true, ?_⟩
    obtain ⟨conn, hconn, -⟩ := hheld c (by rw [hstage]; rfl)
    simp only [hstep, connectPeerAsync, hstage, hconn]
    exact nofun
  -- the timeout of `dialPeer` ends any wait
  | wait c =>
    refine ⟨false, ?_⟩
    simp only [hstep, connectPeerAsync, hstage]
    exact nofun
  | returned => exact absurd hstage halive
  | _ =>
    refine ⟨true, ?_⟩
    simp only [hstep, connectPeerAsync, hstage]
    exact nofun

theorem Sound.health_enabled (h : cm.Sound) (hcancelled : cm.cancelled = true)
    (halive : cm.health ≠ .returned) : cm.step .health ≠ none := by
  show cm.healthCheckLoop ≠ none
  have hexpects := h.expects
  cases hstage : cm.health with
  | select =>
    simp only [healthCheckLoop, hstage, hcancelled]
    exact nofun
  | getState i c =>
    rw [hstage] at hexpects
    obtain ⟨conn, hconn, -⟩ := (h.kept i c hexpects).2
    simp only [healthCheckLoop, hstage, hconn]
    exact nofun
  | returned => exact absurd hstage halive
  | _ =>
    simp only [healthCheckLoop, hstage]
    exact nofun

theorem Consistent.returned_of_atRest (h : cm.Consistent) (hcalled : cm.closing ≠ .notCalled)
    (hrest : cm.AtRest) : cm.closing = .returned := by
  cases h with
  | inr h => exact h.1
  | inl h =>
    obtain ⟨hclosing, hsound⟩ := h
    exfalso
    have hcancelled : cm.cancelled = true := decide_eq_true hcalled
    have hwaiting : cm.closing = .waiting := by
      cases hstage : cm.closing with
      | notCalled => exact absurd hstage hcalled
      | waiting => rfl
      | returned => exact absurd hstage hclosing
    have hhealth : cm.health = .returned := by
      by_contra halive
      exact hsound.health_enabled hcancelled halive (hrest .health trivial)
    have hconnectors : weigh Connector.alive cm.connectors = 0 := by
      by_contra hpos
      obtain ⟨g, hg, halive⟩ := exists_of_weigh_pos (Nat.pos_of_ne_zero hpos)
      obtain ⟨k, hk⟩ := List.mem_iff_getElem?.mp hg
      have hne : g.stage ≠ .returned := by
        intro heq
        rw [Connector.alive, heq] at halive
        cases halive
      obtain ⟨ok, henabled⟩ := hsound.connect_enabled hk hne
      exact henabled (hrest (.connect k ok) trivial)
    have hwg : cm.wg = 0 := by
      rw [hsound.counted, hconnectors, hhealth]
      rfl
    have hstep := hrest .closeAll trivial
    simp only [ConnectionManager.step, hwaiting, hwg, and_self, if_true] at hstep
    cases hstep

theorem called_step (hcase : StepCase cm a cm') (hcalled : cm.closing ≠ .notCalled) :
    cm'.closing ≠ .notCalled := by
  cases hcase with
  | closes | closesAll => exact nofun
  | @closesOld i oldConn =>
    cases oldConn with
    | none | some => exact hcalled
  | _ => exact hcalled

/-- Once `Close` has been called, the goroutines have only so many steps left, in whatever order
they run, until a tick wins against the cancelled context once more or a connection changes its
state; and when none of them can go on, `Close` has returned. -/
theorem close_returns {selfID : Fin n} {maxRetries healthInterval : Int}
    {cm t : ConnectionManager n}
    (hreach : Reachable step (newConnectionManager selfID maxRetries healthInterval) cm)
    (hcalled : cm.closing ≠ .notCalled) {as : List ConnectionAction}
    (hrun : exec step (fun _ a ↦ a.Settles) cm as = some t) :
    as.length ≤ cm.remaining ∧ (t.AtRest → t.closing = .returned) := by
  have hcons := consistent_of_reaches hreach
  constructor
  · have hlength : as.length + t.remaining ≤ cm.remaining := by
      apply length_add_le_of_exec (fun cm ↦ cm.closing ≠ .notCalled) remaining _ hcalled hrun
      intro cm a cm' hcalled hsettles hstep
      have hcase := step_cases hstep
      exact ⟨called_step hcase hcalled, remaining_lt hcase hsettles (decide_eq_true hcalled)⟩
    omega
  · have hinv : t.Consistent ∧ t.closing ≠ .notCalled := by
      apply Reaches.invariant (fun cm ↦ cm.Consistent ∧ cm.closing ≠ .notCalled)
        ⟨hcons, hcalled⟩ _ (reaches_of_exec hrun)
      intro cm a cm' _ h _ hstep
      exact ⟨h.1.step hstep, called_step (step_cases hstep) h.2⟩
    exact hinv.1.returned_of_atRest hinv.2

/-- `Close` while a goroutine dials and the health check is in the middle of a round. -/
theorem close_returns_two : ∃ cm t : ConnectionManager 2,
    Reachable step (newConnectionManager 0 0 1) cm ∧ cm.closing = .waiting ∧
      (∃ as, exec step (fun _ a ↦ a.Settles) cm as = some t ∧ as.length ≤ cm.remaining) ∧
      (t.AtRest → t.closing = .returned) := by
  obtain ⟨cm, hreach, hwaiting, hnext⟩ : ∃ cm : ConnectionManager 2,
      Reachable step (newConnectionManager 0 0 1) cm ∧ cm.closing = .waiting ∧
        (exec step (fun _ a ↦ a.Settles) cm
          [.connect 0 false, .health, .connect 0 true, .health]).isSome = true := by
    apply exists_reaches_of_exec [.connect 0 true, .connect 0 true, .health, .tick, .health,
      .change 0 .connecting, .connect 0 true, .close]
    decide +kernel
  obtain ⟨t, hrun⟩ := Option.isSome_iff_exists.mp hnext
  have hcalled : cm.closing ≠ .notCalled := by
    rw [hwaiting]
    exact nofun
  have hclose := close_returns hreach hcalled hrun
  exact ⟨cm, t, hreach, hwaiting, ⟨_, hrun, hclose.1⟩, hclose.2⟩

/-! ## 4. Peers keep their clients -/

/-- gRPC shuts down no connection that is not closed. -/
def NoShutdown : ConnectionAction → Prop
  | .change _ state => state ≠ .shutdown
  | _ => True

instance : DecidablePred NoShutdown
  | .change _ _ => inferInstanceAs (Decidable (_ ≠ _))
  | .connect _ _ | .health | .tick | .close | .closeAll => isTrue trivial

/-- The health check is not in `reconnectPeer`, nor on its way there. -/
def Calm : HealthStage n → Prop
  | .load _ _ shut | .store _ _ shut => shut = false
  | .reconnect _ | .closeOld _ _ | .unmark _ | .spawn _ => False
  | _ => True

structure Steady (cm : ConnectionManager n) : Prop where
  shut : ∀ conn ∈ cm.clients, conn.state = .shutdown → conn.closed = true
  calm : Calm cm.health
  backed : ∀ i, i ≠ cm.selfID → cm.peerAvailable i = true → (cm.conns i).isSome
  announced : ∀ g ∈ cm.connectors, g.stage = .announce → (cm.conns g.peerID).isSome

theorem steady_start (selfID : Fin n) (maxRetries healthInterval : Int) :
    (newConnectionManager selfID maxRetries healthInterval).Steady where
  shut := by
    intro conn hconn
    cases hconn
  calm := trivial
  backed := by
    intro i hi havailable
    exact absurd (of_decide_eq_true havailable) hi
  announced := by
    intro g hg hstage
    obtain ⟨j, -, rfl⟩ := List.mem_map.mp hg
    cases hstage

theorem closed_modify {d : Nat} {conn : ClientConn n}
    (h : ∀ conn ∈ cm.clients, conn.state = .shutdown → conn.closed = true)
    (hconn : conn ∈ cm.clients.modify d ClientConn.close) (hstate : conn.state = .shutdown) :
    conn.closed = true := by
  obtain ⟨c, hc⟩ := List.mem_iff_getElem?.mp hconn
  by_cases hcd : d = c
  · subst hcd
    rw [List.getElem?_modify_eq] at hc
    obtain ⟨old, -, rfl⟩ := Option.map_eq_some_iff.mp hc
    rfl
  · rw [List.getElem?_modify_ne _ _ hcd] at hc
    exact h conn (List.mem_of_getElem? hc) hstate

theorem Steady.shut_step (h : cm.Steady) (hcase : StepCase cm a cm') (hguard : NoShutdown a) :
    ∀ conn ∈ cm'.clients, conn.state = .shutdown → conn.closed = true := by
  have hshut := h.shut
  cases hcase with
  | dials =>
    intro conn hconn hstate
    cases List.mem_append.mp hconn with
    | inl hconn => exact hshut conn hconn hstate
    | inr hconn =>
      cases List.mem_singleton.mp hconn
      cases hstate
  | drops =>
    intro conn hconn hstate
    exact closed_modify hshut hconn hstate
  | @closesOld i oldConn =>
    cases oldConn with
    | none => exact hshut
    | some c =>
      intro conn hconn hstate
      exact closed_modify hshut hconn hstate
  | changes hconn hopen =>
    apply forall_set hshut
    intro hstate
    exact absurd hstate hguard
  | closesAll =>
    intro conn hconn hstate
    obtain ⟨c, hc⟩ := List.mem_iff_getElem?.mp hconn
    have hc : cm.closesAll[c]? = some conn := hc
    rw [closesAll, List.getElem?_mapIdx] at hc
    obtain ⟨old, hold, rfl⟩ := Option.map_eq_some_iff.mp hc
    split at hstate
    next hstored =>
      rw [if_pos hstored]
      rfl
    next hnone =>
      rw [if_neg hnone]
      exact hshut old (List.mem_of_getElem? hold) hstate
  | _ => exact hshut

/-- A connection that a peer has is not closed, so it is not shut down either. -/
theorem Steady.scans_calm (h : cm.Steady) (hsound : cm.Sound) {stage : HealthStage n}
    (hscans : cm.Scans stage) : Calm stage := by
  have hcalm := h.calm
  cases hscans with
  | @judges i c conn available shut hstage hconn hverdict =>
    cases shut with
    | false => rfl
    | true =>
      exfalso
      have hexpects := hsound.expects
      rw [hstage] at hexpects
      obtain ⟨conn', hconn', -, hopen⟩ := (hsound.kept i c hexpects).2
      rw [hconn] at hconn'
      cases hconn'
      have hstate : conn.state = .shutdown := by
        cases hs : conn.state with
        | shutdown => rfl
        | _ =>
          rw [hs] at hverdict
          cases hverdict
      rw [h.shut conn (List.mem_of_getElem? hconn) hstate] at hopen
      cases hopen
  | misses => rfl
  | differs hstage =>
    rw [hstage] at hcalm
    exact hcalm
  | agrees hstage =>
    rw [hstage] at hcalm
    have hshut : _ = false := hcalm
    rw [hshut]
    trivial
  | _ => trivial

theorem Steady.calm_step (h : cm.Steady) (hsound : cm.Sound) (hcase : StepCase cm a cm') :
    Calm cm'.health := by
  have hcalm := h.calm
  cases hcase with
  | scans hscans => exact h.scans_calm hsound hscans
  | marks hstage =>
    rw [hstage] at hcalm
    have hshut : _ = false := hcalm
    rw [hshut]
    trivial
  | takes hstage | closesOld hstage | unmarks hstage | spawns hstage =>
    rw [hstage] at hcalm
    cases hcalm
  | ends | ticks => trivial
  | _ => exact hcalm

/-- No step takes a connection away from its peer. -/
theorem Steady.conns_step (h : cm.Steady) (hsound : cm.Sound) (hcase : StepCase cm a cm')
    (hconn : cm.conns i = some c) : cm'.conns i = some c := by
  have hcalm := h.calm
  cases hcase with
  | @stores k d ok g hk hstage =>
    show Function.update cm.conns g.peerID (some d) i = some c
    rw [Function.update_of_ne, hconn]
    intro heq
    rw [heq, (hsound.of_active (List.mem_of_getElem? hk) (by rw [hstage]; rfl)).1] at hconn
    cases hconn
  | takes hstage | closesOld hstage =>
    rw [hstage] at hcalm
    cases hcalm
  | _ => exact hconn

theorem Steady.isSome_step (h : cm.Steady) (hsound : cm.Sound) (hcase : StepCase cm a cm')
    (hsome : (cm.conns i).isSome) : (cm'.conns i).isSome := by
  obtain ⟨c, hconn⟩ := Option.isSome_iff_exists.mp hsome
  rw [h.conns_step hsound hcase hconn]
  rfl

theorem Steady.backed_step (h : cm.Steady) (hsound : cm.Sound) (hcase : StepCase cm a cm') :
    ∀ i, i ≠ cm'.selfID → cm'.peerAvailable i = true → (cm'.conns i).isSome := by
  have hbacked := h.backed
  have hcalm := h.calm
  have hmono := fun j ↦ h.isSome_step (i := j) hsound hcase
  cases hcase with
  | @announces k ok g hk hstage =>
    intro i hi havailable
    by_cases hpeer : i = g.peerID
    · rw [hpeer]
      exact h.announced g (List.mem_of_getElem? hk) hstage
    · have havailable : Function.update cm.peerAvailable g.peerID true i = true := havailable
      rw [Function.update_of_ne hpeer] at havailable
      exact hbacked i hi havailable
  | @marks j available shut hstage =>
    intro i hi havailable
    have havailable : Function.update cm.peerAvailable j available i = true := havailable
    by_cases hj : i = j
    · subst hj
      rw [Function.update_self] at havailable
      have hexpects := hsound.expects
      rw [hstage] at hexpects
      exact hexpects (Or.inl havailable)
    · rw [Function.update_of_ne hj] at havailable
      exact hbacked i hi havailable
  | takes hstage | closesOld hstage | unmarks hstage =>
    rw [hstage] at hcalm
    cases hcalm
  | _ =>
    intro i hi havailable
    exact hmono i (hbacked i hi havailable)

theorem Steady.announced_step (h : cm.Steady) (hsound : cm.Sound) (hcase : StepCase cm a cm') :
    ∀ g ∈ cm'.connectors, g.stage = .announce → (cm'.conns g.peerID).isSome := by
  have hannounced : ∀ g ∈ cm.connectors, g.stage = .announce → (cm'.conns g.peerID).isSome :=
    fun g hg hstage ↦ h.isSome_step hsound hcase (h.announced g hg hstage)
  have hcalm := h.calm
  cases hcase with
  | moves hk hmoves =>
    apply forall_set hannounced
    intro hstage
    cases hmoves with
    | _ => cases hstage
  | dials | drops | announces | finishes =>
    apply forall_set hannounced
    intro hstage
    cases hstage
  | @stores k c ok g hk =>
    apply forall_set hannounced
    intro _
    show (Function.update cm.conns g.peerID (some c) g.peerID).isSome
    rw [Function.update_self]
    rfl
  | closesOld hstage | spawns hstage =>
    rw [hstage] at hcalm
    cases hcalm
  | _ => exact hannounced

theorem Steady.step (h : cm.Steady) (hsound : cm.Sound) (hguard : NoShutdown a)
    (hstep : cm.step a = some cm') : cm'.Steady where
  shut := h.shut_step (step_cases hstep) hguard
  calm := h.calm_step hsound (step_cases hstep)
  backed := h.backed_step hsound (step_cases hstep)
  announced := h.announced_step hsound (step_cases hstep)

/-- A step is made before `Close` has returned. -/
theorem Consistent.sound_of_step (h : cm.Consistent) (hstep : cm.step a = some cm') :
    cm.Sound := by
  cases h with
  | inl h => exact h.2
  | inr h =>
    rw [h.2.step_eq_none h.1 a] at hstep
    cases hstep

theorem steady_of_reaches {selfID : Fin n} {maxRetries healthInterval : Int}
    (hrun : Reaches step (fun _ a ↦ NoShutdown a)
      (newConnectionManager selfID maxRetries healthInterval) cm) : cm.Steady := by
  apply Reaches.invariant Steady (steady_start selfID maxRetries healthInterval) _ hrun
  intro cm a cm' hrun h hguard hstep
  exact h.step ((consistent_of_reaches hrun).sound_of_step hstep) hguard hstep

theorem conns_of_reaches {selfID : Fin n} {maxRetries healthInterval : Int}
    {later : ConnectionManager n}
    (hrun : Reaches step (fun _ a ↦ NoShutdown a)
      (newConnectionManager selfID maxRetries healthInterval) cm)
    (hmore : Reaches step (fun _ a ↦ NoShutdown a) cm later) (hconn : cm.conns i = some c) :
    later.conns i = some c := by
  apply Reaches.invariant (fun later ↦ later.conns i = some c) hconn _ hmore
  intro s a s' hmore hconn _ hstep
  have hreach := hrun.trans hmore
  exact (steady_of_reaches hreach).conns_step
    ((consistent_of_reaches hreach).sound_of_step hstep) (step_cases hstep) hconn

/-- A peer other than the node itself that counts as available has a client.  It keeps this client
from then on, and the client's connection is open until `Close` has closed it. -/
theorem available_peer_has_client {selfID : Fin n} {maxRetries healthInterval : Int}
    (hrun : Reaches step (fun _ a ↦ NoShutdown a)
      (newConnectionManager selfID maxRetries healthInterval) cm)
    {peerID : Int} (hpeer : peerID ≠ (cm.selfID : Nat))
    (havailable : cm.isPeerAvailable peerID = true) :
    ∃ c, cm.getPeer peerID = some c ∧
      ∀ later, Reaches step (fun _ a ↦ NoShutdown a) cm later →
        later.getPeer peerID = some c ∧ (later.closing ≠ .returned →
          ∃ conn, later.clients[c]? = some conn ∧ conn.closed = false) := by
  unfold isPeerAvailable at havailable
  split at havailable
  next hbounds =>
    have hself : (⟨peerID.toNat, by omega⟩ : Fin n) ≠ cm.selfID := by
      intro heq
      have hval : peerID.toNat = cm.selfID := congrArg Fin.val heq
      omega
    obtain ⟨c, hconn⟩ :=
      Option.isSome_iff_exists.mp ((steady_of_reaches hrun).backed _ hself havailable)
    refine ⟨c, ?_, ?_⟩
    · rw [getPeer, dif_pos hbounds, (consistent_of_reaches hrun).paired]
      exact hconn
    · intro later hmore
      have hcons := consistent_of_reaches (hrun.trans hmore)
      constructor
      · rw [getPeer, dif_pos hbounds, hcons.paired]
        exact conns_of_reaches hrun hmore hconn
      · intro hclosing
        cases hcons with
        | inl h =>
          obtain ⟨conn, hclient, -, hopen⟩ := (h.2.kept _ _ (conns_of_reaches hrun hmore hconn)).2
          exact ⟨conn, hclient, hopen⟩
        | inr h => exact absurd h.1 hclosing
  next => cases havailable

theorem available_peer_has_client_two : ∃ cm : ConnectionManager 2,
    Reaches step (fun _ a ↦ NoShutdown a) (newConnectionManager 0 0 1) cm ∧
      cm.isPeerAvailable 1 = true ∧ ∃ c, cm.getPeer 1 = some c := by
  obtain ⟨cm, hrun, hself, havailable⟩ : ∃ cm : ConnectionManager 2,
      Reaches step (fun _ a ↦ NoShutdown a) (newConnectionManager 0 0 1) cm ∧
        (1 : Int) ≠ (cm.selfID : Nat) ∧ cm.isPeerAvailable 1 = true := by
    apply exists_reaches_of_exec [.connect 0 true, .connect 0 true, .connect 0 true,
      .connect 0 true, .connect 0 true, .health, .tick, .change 0 .ready, .health, .health]
    decide +kernel
  obtain ⟨c, hclient, -⟩ := available_peer_has_client hrun hself havailable
  exact ⟨cm, hrun, havailable, c, hclient⟩

end ConnectionManager

end DistributedCache
