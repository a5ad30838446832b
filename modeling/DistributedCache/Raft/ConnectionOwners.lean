import DistributedCache.Lib.Pool
import DistributedCache.Lib.Transition
import DistributedCache.Raft.Cluster
import DistributedCache.Raft.Connections

/-!
# Who has a connection

Every connection that is not closed is in exactly one place, in whatever order the goroutines of the
connection manager run: stored with its peer, in the hands of the one goroutine that sets it up, or
taken from its peer to be closed.  So `Close` loses none: when it has returned, no goroutine runs
and no connection is open.
-/

namespace DistributedCache

open Transition Pool

variable {n : Nat}

namespace ConnectionManager

variable {cm cm' : ConnectionManager n} {a : ConnectionAction} {k c : Nat} {i : Fin n}
  {g : Connector n}

/-! ## 1. Open connections -/

/-- Connection `c` was made for peer `i` and is not closed. -/
def IsOpen (cm : ConnectionManager n) (i : Fin n) (c : Nat) : Prop :=
  ∃ conn, cm.clients[c]? = some conn ∧ conn.peerID = i ∧ conn.closed = false

theorem IsOpen.unique {j : Fin n} (hi : cm.IsOpen i c) (hj : cm.IsOpen j c) : i = j := by
  obtain ⟨conn, hconn, rfl, -⟩ := hi
  obtain ⟨conn', hconn', rfl, -⟩ := hj
  rw [hconn] at hconn'
  cases hconn'
  rfl

theorem isOpen_closeConn {d : Nat} : (cm.closeConn d).IsOpen i c ↔ cm.IsOpen i c ∧ c ≠ d := by
  unfold IsOpen closeConn
  by_cases hcd : d = c
  · subst hcd
    rw [List.getElem?_modify_eq]
    constructor
    · intro h
      obtain ⟨conn, hconn, -, hopen⟩ := h
      obtain ⟨old, -, rfl⟩ := Option.map_eq_some_iff.mp hconn
      cases hopen
    · intro h
      exact absurd rfl h.2
  · rw [List.getElem?_modify_ne _ _ hcd]
    constructor
    · intro h
      exact ⟨h, fun heq ↦ hcd heq.symm⟩
    · intro h
      exact h.1

theorem isOpen_append {conn : ClientConn n} :
    { cm with clients := cm.clients ++ [conn] }.IsOpen i c ↔
      cm.IsOpen i c ∨ c = cm.clients.length ∧ conn.peerID = i ∧ conn.closed = false := by
  unfold IsOpen
  rcases Nat.lt_trichotomy c cm.clients.length with hlt | heq | hgt
  · rw [List.getElem?_append_left hlt]
    have hne : c ≠ cm.clients.length := Nat.ne_of_lt hlt
    simp only [hne, false_and, or_false]
  · subst heq
    rw [List.getElem?_concat_length, List.getElem?_eq_none (Nat.le_refl _)]
    simp
  · rw [List.getElem?_eq_none (by simp; omega), List.getElem?_eq_none (Nat.le_of_lt hgt)]
    simp [Nat.ne_of_gt hgt]

theorem isOpen_set {conn : ClientConn n} {state : Connectivity} {d : Nat}
    (hconn : cm.clients[d]? = some conn) :
    { cm with clients := cm.clients.set d { conn with state := state } }.IsOpen i c ↔
      cm.IsOpen i c := by
  unfold IsOpen
  by_cases hcd : d = c
  · subst hcd
    rw [get_set hconn, hconn]
    simp
  · rw [List.getElem?_set_ne hcd]

/-- Every open connection is in one place: with its peer, in the hands of the one goroutine that
sets it up, or about to be closed. -/
structure Sound (cm : ConnectionManager n) : Prop where
  paired : cm.peers = cm.conns
  single : ∀ i, weigh (Connector.activeFor i) cm.connectors + (cm.conns i).isSome.toNat +
    cm.health.reconnecting i ≤ 1
  expects : cm.health.Expects cm.conns
  counted : cm.wg = weigh Connector.alive cm.connectors + cm.health.alive
  others : ∀ g ∈ cm.connectors, g.peerID ≠ cm.selfID
  kept : ∀ i c, cm.conns i = some c → i ≠ cm.selfID ∧ cm.IsOpen i c
  target : ∀ i ∈ cm.health.target, i ≠ cm.selfID
  held : ∀ g ∈ cm.connectors, ∀ c ∈ g.stage.holds, cm.IsOpen g.peerID c
  taken : ∀ i c, cm.health = .closeOld i (some c) → cm.IsOpen i c
  owned : ∀ i c, cm.IsOpen i c → cm.conns i = some c ∨
    (∃ g ∈ cm.connectors, g.peerID = i ∧ g.stage.holds = some c) ∨
    cm.health = .closeOld i (some c)

/-! ## 2. At the start -/

theorem weigh_activeFor_start (l : List (Fin n)) (i : Fin n) :
    weigh (Connector.activeFor i) (l.map fun j ↦ ⟨j, 0, .check⟩) = l.count i := by
  induction l with
  | nil => rfl
  | cons j l ih =>
    rw [List.map_cons, weigh_cons, ih, List.count_cons, Nat.add_comm]
    simp only [Connector.activeFor, ConnectStage.active, beq_iff_eq]

theorem weigh_alive_start (l : List (Fin n)) :
    weigh Connector.alive (l.map fun j ↦ ⟨j, 0, .check⟩) = l.length := by
  induction l with
  | nil => rfl
  | cons j l ih =>
    rw [List.map_cons, weigh_cons, ih, List.length_cons, Nat.add_comm]
    rfl

theorem sound_start (selfID : Fin n) (maxRetries healthInterval : Int) :
    (newConnectionManager selfID maxRetries healthInterval).Sound where
  paired := rfl
  single := by
    intro i
    have hnodup : ((List.finRange n).filter (· ≠ selfID)).Nodup := (List.nodup_finRange n).filter _
    have hcount := List.nodup_iff_count_le_one.mp hnodup i
    show weigh _ (List.map _ _) + 0 + 0 ≤ 1
    rw [weigh_activeFor_start]
    exact hcount
  expects := trivial
  counted := by
    show _ = ((weigh _ (List.map _ _) : Nat) : Int) + 1
    rw [weigh_alive_start]
    rfl
  others := by
    intro g hg
    obtain ⟨j, hj, rfl⟩ := List.mem_map.mp hg
    exact of_decide_eq_true (List.mem_filter.mp hj).2
  kept := by
    intro i c h
    cases h
  target := by
    intro i h
    cases h
  held := by
    intro g hg c hc
    obtain ⟨j, -, rfl⟩ := List.mem_map.mp hg
    cases hc
  taken := by
    intro i c h
    cases h
  owned := by
    intro i c h
    obtain ⟨conn, hconn, -⟩ := h
    cases hconn

/-! ## 3. Step by step -/

variable {g' : Connector n} {stage : HealthStage n}

theorem Moves.spec (h : cm.Moves g g') :
    g'.peerID = g.peerID ∧ g'.stage.holds = g.stage.holds ∧ g'.stage.active ≤ g.stage.active ∧
      g'.stage.alive = g.stage.alive := by
  cases h with
  | stops hstage | checks hstage | fails hstage | settles hstage | waits hstage | wakes hstage
  | retries hstage | leaves hstage =>
    rw [hstage]
    exact ⟨rfl, rfl, ConnectStage.active_le_one _, rfl⟩

theorem Scans.alive_eq (h : cm.Scans stage) : stage.alive = cm.health.alive := by
  cases h with
  | @agrees i available shut hstage =>
    rw [hstage]
    cases shut <;> rfl
  | starts hstage | disabled hstage | cancels hstage | skips hstage | sweeps hstage | misses hstage
  | finds hstage | judges hstage | passes hstage | differs hstage =>
    rw [hstage]
    rfl

theorem reconnecting_after (j : Fin n) (shut : Bool) :
    (HealthStage.after j shut).reconnecting i = 0 := by
  cases shut <;> rfl

theorem Scans.reconnecting_eq (h : cm.Scans stage) : stage.reconnecting i = 0 := by
  cases h with
  | agrees => exact reconnecting_after _ _
  | _ => rfl

theorem Scans.expects (h : cm.Scans stage) (hold : cm.health.Expects cm.conns) :
    stage.Expects cm.conns := by
  cases h with
  | finds _ _ hconn => exact hconn
  | judges hstage =>
    rw [hstage] at hold
    have hconn : cm.conns _ = some _ := hold
    intro _
    rw [hconn]
    rfl
  | @agrees i available shut hstage =>
    rw [hstage] at hold
    cases shut with
    | false => trivial
    | true => exact hold (Or.inr rfl)
  | differs hstage =>
    rw [hstage] at hold
    exact hold
  | misses =>
    intro hor
    cases hor with
    | inl h | inr h => cases h
  | _ => trivial

theorem Sound.paired_step (h : cm.Sound) (hcase : StepCase cm a cm') : cm'.peers = cm'.conns := by
  have hpaired := h.paired
  cases hcase with
  | stores =>
    show Function.update cm.peers _ _ = Function.update cm.conns _ _
    rw [hpaired]
  | takes =>
    show Function.update cm.peers _ _ = Function.update cm.conns _ _
    rw [hpaired]
  | @closesOld i oldConn =>
    cases oldConn with
    | none | some => exact hpaired
  | _ => exact hpaired

theorem weigh_goes (hk : cm.connectors[k]? = some g) (stage : ConnectStage) (j : Fin n) :
    weigh (Connector.activeFor j) (cm.goes k g stage).connectors +
        (if g.peerID = j then g.stage.active else 0) =
      weigh (Connector.activeFor j) cm.connectors +
        (if g.peerID = j then stage.active else 0) :=
  weigh_set (Connector.activeFor j) hk { g with stage := stage }

/-- A goroutine goes on to a stage in which it is as active as before. -/
theorem weigh_goes_of_eq (hk : cm.connectors[k]? = some g) (stage : ConnectStage)
    (heq : stage.active = g.stage.active) (j : Fin n) :
    weigh (Connector.activeFor j) (cm.goes k g stage).connectors =
      weigh (Connector.activeFor j) cm.connectors := by
  have hgoes := weigh_goes hk stage j
  rw [heq] at hgoes
  omega

theorem Sound.single_step (h : cm.Sound) (hcase : StepCase cm a cm') (j : Fin n) :
    weigh (Connector.activeFor j) cm'.connectors + (cm'.conns j).isSome.toNat +
      cm'.health.reconnecting j ≤ 1 := by
  have hsingle := h.single j
  cases hcase with
  | @moves k ok g g' hk hmoves =>
    obtain ⟨hpeer, -, hactive, -⟩ := hmoves.spec
    have hset := weigh_set (Connector.activeFor j) hk g'
    have hle : Connector.activeFor j g' ≤ Connector.activeFor j g := by
      unfold Connector.activeFor
      rw [hpeer]
      split
      · exact hactive
      · exact Nat.le_refl 0
    simp only
    omega
  | @dials k ok g hk hstage =>
    have heq := weigh_goes_of_eq hk (.poll cm.clients.length) (by rw [hstage]; rfl) j
    simp only [dials, goes] at heq ⊢
    omega
  | @drops k c ok g hk hstage =>
    have hactive := ConnectStage.active_of_holds (ConnectStage.holds_of_dials hstage)
    have heq := weigh_goes_of_eq hk .backoff hactive.symm j
    simp only [drops, closeConn, goes] at heq ⊢
    omega
  -- the goroutine hands its place over to the connection
  | @stores k c ok g hk hstage =>
    have hgoes := weigh_goes hk .announce j
    rw [hstage] at hgoes
    simp only [stores, goes, ConnectStage.active] at hgoes ⊢
    by_cases hj : g.peerID = j
    · have hconn : Function.update cm.conns g.peerID (some c) j = some c := by
        rw [hj, Function.update_self]
      rw [if_pos hj, if_pos hj] at hgoes
      rw [hconn]
      simp only [Option.isSome_some, Bool.toNat_true]
      omega
    · rw [if_neg hj, if_neg hj] at hgoes
      rw [Function.update_of_ne (Ne.symm hj)]
      omega
  | @announces k ok g hk hstage =>
    have heq := weigh_goes_of_eq hk .finish (by rw [hstage]; rfl) j
    simp only [announces, goes] at heq ⊢
    omega
  | @finishes k ok g hk hstage =>
    have heq := weigh_goes_of_eq hk .returned (by rw [hstage]; rfl) j
    simp only [goes] at heq ⊢
    omega
  | scans hscans =>
    have hzero := hscans.reconnecting_eq (i := j)
    simp only [scans]
    omega
  | @marks i available shut hstage =>
    have hzero := reconnecting_after (i := j) i shut
    simp only [scans]
    omega
  | @takes i hstage =>
    have hexpects := h.expects
    rw [hstage] at hexpects hsingle
    have hsome : (cm.conns i).isSome = true := hexpects
    by_cases hj : i = j
    · rw [← hj, hsome] at hsingle
      simp only [scans, HealthStage.reconnecting, ← hj, Function.update_self, if_true,
        Option.isSome_none, Bool.toNat_true, Bool.toNat_false] at hsingle ⊢
      omega
    · simp only [scans, HealthStage.reconnecting, if_neg hj, Function.update_of_ne (Ne.symm hj)]
      omega
  | @closesOld i oldConn hstage =>
    rw [hstage] at hsingle
    cases oldConn with
    | none | some => exact hsingle
  | unmarks hstage | ends hstage | ticks hstage =>
    rw [hstage] at hsingle
    exact hsingle
  | @spawns i hstage =>
    rw [hstage] at hsingle
    simp only [scans, weigh_append_singleton, HealthStage.reconnecting, Connector.activeFor,
      ConnectStage.active] at hsingle ⊢
    omega
  | changes | closes | closesAll => exact hsingle

/-- While a goroutine works for a peer, the peer has no connection and no second goroutine. -/
theorem Sound.of_active (h : cm.Sound) (hmem : g ∈ cm.connectors) (hactive : g.stage.active = 1) :
    cm.conns g.peerID = none ∧ cm.health.reconnecting g.peerID = 0 := by
  have hsingle := h.single g.peerID
  have hle : Connector.activeFor g.peerID g ≤ _ := le_weigh hmem
  rw [Connector.activeFor_self, hactive] at hle
  constructor
  · by_contra hsome
    rw [Option.isSome_iff_ne_none.mpr hsome, Bool.toNat_true] at hsingle
    omega
  · omega

theorem Sound.expects_step (h : cm.Sound) (hcase : StepCase cm a cm') :
    cm'.health.Expects cm'.conns := by
  have hexpects := h.expects
  cases hcase with
  | scans hscans => exact hscans.expects hexpects
  -- a new connection only adds to what the health check may rely on
  | @stores k c ok g hk hstage =>
    have hactive := h.of_active (List.mem_of_getElem? hk) (by rw [hstage]; rfl)
    have hsome : ∀ i, (cm.conns i).isSome →
        (Function.update cm.conns g.peerID (some c) i).isSome := by
      intro i hi
      by_cases heq : i = g.peerID
      · rw [heq, Function.update_self]
        rfl
      · rwa [Function.update_of_ne heq]
    show cm.health.Expects (Function.update cm.conns g.peerID (some c))
    cases hhealth : cm.health with
    | getState i d =>
      rw [hhealth] at hexpects
      have hconn : cm.conns i = some d := hexpects
      show Function.update cm.conns g.peerID (some c) i = some d
      rw [Function.update_of_ne, hconn]
      intro heq
      rw [heq, hactive.1] at hconn
      cases hconn
    | load i available shut | store i available shut =>
      rw [hhealth] at hexpects
      exact fun hor ↦ hsome i (hexpects hor)
    | reconnect i =>
      rw [hhealth] at hexpects
      exact hsome i hexpects
    | _ => trivial
  | @marks i available shut hstage =>
    rw [hstage] at hexpects
    cases shut with
    | false => trivial
    | true => exact hexpects (Or.inr rfl)
  | @closesOld i oldConn =>
    cases oldConn with
    | none | some => trivial
  | takes | unmarks | spawns | ends | ticks => trivial
  | _ => exact hexpects

theorem Sound.counted_step (h : cm.Sound) (hcase : StepCase cm a cm') :
    cm'.wg = weigh Connector.alive cm'.connectors + cm'.health.alive := by
  have hcounted := h.counted
  cases hcase with
  | @moves k ok g g' hk hmoves =>
    obtain ⟨-, -, -, halive⟩ := hmoves.spec
    have hset := weigh_set_of_eq (w := Connector.alive) hk halive
    simp only
    rw [hset]
    exact hcounted
  | @dials k ok g hk hstage =>
    simp only [dials, goes]
    rw [weigh_set_of_eq hk]
    · exact hcounted
    · simp only [Connector.alive, hstage, ConnectStage.alive]
  | @drops k c ok g hk hstage =>
    simp only [drops, closeConn, goes]
    rw [weigh_set_of_eq hk]
    · exact hcounted
    · cases hstage with
      | inl hstage | inr hstage => simp only [Connector.alive, hstage, ConnectStage.alive]
  | @stores k c ok g hk hstage =>
    simp only [stores, goes]
    rw [weigh_set_of_eq hk]
    · exact hcounted
    · simp only [Connector.alive, hstage, ConnectStage.alive]
  | @announces k ok g hk hstage =>
    simp only [announces, goes]
    rw [weigh_set_of_eq hk]
    · exact hcounted
    · simp only [Connector.alive, hstage, ConnectStage.alive]
  | @finishes k ok g hk hstage =>
    have hset := weigh_set Connector.alive hk { g with stage := .returned }
    simp only [goes, Connector.alive, hstage, ConnectStage.alive] at hset ⊢
    omega
  | scans hscans =>
    have halive := hscans.alive_eq
    simp only [scans]
    rw [halive]
    exact hcounted
  | @marks i available shut hstage =>
    rw [hstage] at hcounted
    cases shut with
    | false | true => exact hcounted
  | takes hstage | unmarks hstage | ticks hstage =>
    rw [hstage] at hcounted
    exact hcounted
  | @closesOld i oldConn hstage =>
    rw [hstage] at hcounted
    cases oldConn with
    | none | some => exact hcounted
  | spawns hstage =>
    rw [hstage] at hcounted
    simp only [scans, weigh_append_singleton, Connector.alive, ConnectStage.alive,
      HealthStage.alive] at hcounted ⊢
    omega
  | ends hstage =>
    rw [hstage] at hcounted
    simp only [scans, HealthStage.alive] at hcounted ⊢
    omega
  | changes | closes | closesAll => exact hcounted

theorem Scans.target_ne (h : cm.Scans stage) (hold : ∀ i ∈ cm.health.target, i ≠ cm.selfID) :
    ∀ i ∈ stage.target, i ≠ cm.selfID := by
  cases h with
  | misses _ hself | finds _ hself =>
    intro j hj
    cases hj
    exact hself
  | judges hstage | differs hstage =>
    rw [hstage] at hold
    exact hold
  | @agrees i available shut hstage =>
    rw [hstage] at hold
    cases shut with
    | false =>
      intro j hj
      cases hj
    | true => exact hold
  | _ =>
    intro j hj
    cases hj

theorem Sound.target_step (h : cm.Sound) (hcase : StepCase cm a cm') :
    ∀ i ∈ cm'.health.target, i ≠ cm'.selfID := by
  have htarget := h.target
  cases hcase with
  | scans hscans => exact hscans.target_ne htarget
  | @marks i available shut hstage =>
    rw [hstage] at htarget
    cases shut with
    | false =>
      intro j hj
      cases hj
    | true => exact htarget
  | takes hstage | unmarks hstage =>
    rw [hstage] at htarget
    exact htarget
  | @closesOld i oldConn hstage =>
    rw [hstage] at htarget
    cases oldConn with
    | none | some => exact htarget
  | spawns | ends | ticks =>
    intro j hj
    cases hj
  | _ => exact htarget

theorem Sound.others_step (h : cm.Sound) (hcase : StepCase cm a cm') :
    ∀ g ∈ cm'.connectors, g.peerID ≠ cm'.selfID := by
  have hothers := h.others
  cases hcase with
  | moves hk hmoves =>
    apply forall_set hothers
    rw [hmoves.spec.1]
    exact hothers _ (List.mem_of_getElem? hk)
  | dials hk | drops hk | stores hk | announces hk | finishes hk =>
    have hpeer := hothers _ (List.mem_of_getElem? hk)
    exact forall_set hothers hpeer
  | @closesOld i oldConn =>
    cases oldConn with
    | none | some => exact hothers
  | spawns hstage =>
    have htarget := h.target
    rw [hstage] at htarget
    intro g hg
    cases List.mem_append.mp hg with
    | inl hg => exact hothers g hg
    | inr hg =>
      cases List.mem_singleton.mp hg
      exact htarget _ rfl
  | _ => exact hothers

/-- Nobody else has a connection that a goroutine has in hand. -/
theorem Sound.ne_of_holds (h : cm.Sound) (hk : cm.connectors[k]? = some g)
    (hholds : g.stage.holds = some c) :
    (∀ i d, cm.conns i = some d → d ≠ c) ∧ (∀ i d, cm.health = .closeOld i (some d) → d ≠ c) ∧
      ∀ g', ∀ other ∈ cm.connectors.set k g', other = g' ∨ ∀ d ∈ other.stage.holds, d ≠ c := by
  have hmem := List.mem_of_getElem? hk
  have hopen := h.held g hmem c hholds
  have hactive := ConnectStage.active_of_holds hholds
  obtain ⟨hnone, hzero⟩ := h.of_active hmem hactive
  refine ⟨?_, ?_, ?_⟩
  · intro i d hconn heq
    subst heq
    rw [(h.kept i d hconn).2.unique hopen, hnone] at hconn
    cases hconn
  · intro i d hhealth heq
    subst heq
    rw [hhealth, (h.taken i d hhealth).unique hopen] at hzero
    simp only [HealthStage.reconnecting, if_true] at hzero
    cases hzero
  · intro g' other hother
    cases List.mem_or_eq_of_mem_set hother with
    | inr heq => exact Or.inl heq
    | inl hpool =>
      cases eq_or_add_le_weigh (Connector.activeFor g.peerID) hk hother with
      | inl heq => exact Or.inl heq
      | inr hle =>
        right
        intro d hd heq
        subst heq
        have hpeer : g.peerID = other.peerID := hopen.unique (h.held other hpool d hd)
        have hsingle := h.single g.peerID
        have hother : Connector.activeFor g.peerID other = 1 := by
          rw [hpeer, Connector.activeFor_self]
          exact ConnectStage.active_of_holds hd
        rw [Connector.activeFor_self, hactive, hother] at hle
        omega

/-- A goroutine that has let go of its connection, or never had one, leaves the others as they
are. -/
theorem Sound.held_set (h : cm.Sound) (hpeer : g'.peerID = g.peerID)
    (hk : cm.connectors[k]? = some g) (hholds : g'.stage.holds = g.stage.holds) :
    ∀ other ∈ cm.connectors.set k g', ∀ c ∈ other.stage.holds, cm.IsOpen other.peerID c := by
  apply forall_set h.held
  rw [hpeer, hholds]
  exact h.held g (List.mem_of_getElem? hk)

theorem Sound.held_step (h : cm.Sound) (hcase : StepCase cm a cm') (hclosing : a ≠ .closeAll) :
    ∀ g ∈ cm'.connectors, ∀ c ∈ g.stage.holds, cm'.IsOpen g.peerID c := by
  have hheld := h.held
  cases hcase with
  | moves hk hmoves => exact h.held_set hmoves.spec.1 hk hmoves.spec.2.1
  | @dials k ok g hk hstage =>
    have hmono : ∀ i c, cm.IsOpen i c → (cm.dials k g).IsOpen i c :=
      fun i c hopen ↦ isOpen_append.mpr (Or.inl hopen)
    apply forall_set
    · intro other hother c hc
      exact hmono _ _ (hheld other hother c hc)
    · intro c hc
      cases hc
      exact isOpen_append.mpr (Or.inr ⟨rfl, rfl, rfl⟩)
  | @drops k c ok g hk hstage =>
    have hholds := ConnectStage.holds_of_dials hstage
    intro other hother d hd
    apply isOpen_closeConn.mpr
    cases (h.ne_of_holds hk hholds).2.2 _ other hother with
    | inl heq =>
      subst heq
      cases hd
    | inr hne =>
      cases List.mem_or_eq_of_mem_set hother with
      | inl hpool => exact ⟨hheld other hpool d hd, hne d hd⟩
      | inr heq =>
        subst heq
        cases hd
  | @stores k c ok g hk | @announces k ok g hk hstage | @finishes k ok g hk hstage =>
    apply forall_set hheld
    intro d hd
    cases hd
  | @closesOld i oldConn hstage =>
    cases oldConn with
    | none => exact hheld
    | some c =>
      intro g hg d hd
      apply isOpen_closeConn.mpr
      refine ⟨hheld g hg d hd, ?_⟩
      intro heq
      subst heq
      obtain ⟨j, hk⟩ := List.mem_iff_getElem?.mp hg
      exact (h.ne_of_holds hk hd).2.1 i d hstage rfl
  | spawns =>
    intro g hg c hc
    cases List.mem_append.mp hg with
    | inl hg => exact hheld g hg c hc
    | inr hg =>
      cases List.mem_singleton.mp hg
      cases hc
  | changes hconn =>
    intro g hg c hc
    exact (isOpen_set hconn).mpr (hheld g hg c hc)
  | closesAll => exact absurd rfl hclosing
  | _ => exact hheld

theorem Sound.kept_step (h : cm.Sound) (hcase : StepCase cm a cm') (hclosing : a ≠ .closeAll) :
    ∀ i c, cm'.conns i = some c → i ≠ cm'.selfID ∧ cm'.IsOpen i c := by
  have hkept := h.kept
  cases hcase with
  | dials =>
    intro i c hconn
    have hopen := hkept i c hconn
    exact ⟨hopen.1, isOpen_append.mpr (Or.inl hopen.2)⟩
  | @drops k c ok g hk hstage =>
    have hholds := ConnectStage.holds_of_dials hstage
    intro i d hconn
    have hopen := hkept i d hconn
    exact ⟨hopen.1, isOpen_closeConn.mpr ⟨hopen.2, (h.ne_of_holds hk hholds).1 i d hconn⟩⟩
  | @stores k c ok g hk hstage =>
    intro i d hconn
    by_cases hi : i = g.peerID
    · subst hi
      have hconn : Function.update cm.conns g.peerID (some c) g.peerID = some d := hconn
      rw [Function.update_self] at hconn
      cases hconn
      have hmem := List.mem_of_getElem? hk
      exact ⟨h.others g hmem, h.held g hmem c (by rw [hstage]; rfl)⟩
    · have hconn : Function.update cm.conns g.peerID (some c) i = some d := hconn
      rw [Function.update_of_ne hi] at hconn
      exact hkept i d hconn
  | @takes j hstage =>
    intro i d hconn
    have hconn : Function.update cm.conns j none i = some d := hconn
    by_cases hi : i = j
    · subst hi
      rw [Function.update_self] at hconn
      cases hconn
    · rw [Function.update_of_ne hi] at hconn
      exact hkept i d hconn
  | @closesOld j oldConn hstage =>
    cases oldConn with
    | none => exact hkept
    | some c =>
      intro i d hconn
      have hopen := hkept i d hconn
      refine ⟨hopen.1, isOpen_closeConn.mpr ⟨hopen.2, ?_⟩⟩
      intro heq
      subst heq
      -- the peer would have a connection while it is being reconnected
      have hsingle := h.single i
      have hconn : cm.conns i = some d := hconn
      rw [hstage, (h.taken j d hstage).unique hopen.2, hconn] at hsingle
      simp only [HealthStage.reconnecting, Option.isSome_some, Bool.toNat_true, if_true] at hsingle
      omega
  | changes hconn =>
    intro i c hi
    have hopen := hkept i c hi
    exact ⟨hopen.1, (isOpen_set hconn).mpr hopen.2⟩
  | closesAll => exact absurd rfl hclosing
  | _ => exact hkept

theorem Scans.ne_closeOld (h : cm.Scans stage) (oldConn : Option Nat) :
    stage ≠ .closeOld i oldConn := by
  intro heq
  have hzero := h.reconnecting_eq (i := i)
  rw [heq] at hzero
  simp only [HealthStage.reconnecting, if_true] at hzero
  cases hzero

theorem after_ne_closeOld (j : Fin n) (shut : Bool) (oldConn : Option Nat) :
    HealthStage.after j shut ≠ .closeOld i oldConn := by
  cases shut <;> exact nofun

theorem Sound.taken_step (h : cm.Sound) (hcase : StepCase cm a cm') (hclosing : a ≠ .closeAll) :
    ∀ i c, cm'.health = .closeOld i (some c) → cm'.IsOpen i c := by
  have htaken := h.taken
  cases hcase with
  | dials =>
    intro i c hhealth
    exact isOpen_append.mpr (Or.inl (htaken i c hhealth))
  | @drops k c ok g hk hstage =>
    have hholds := ConnectStage.holds_of_dials hstage
    intro i d hhealth
    exact isOpen_closeConn.mpr ⟨htaken i d hhealth, (h.ne_of_holds hk hholds).2.1 i d hhealth⟩
  | scans hscans =>
    intro i c hhealth
    exact absurd hhealth (hscans.ne_closeOld _)
  | marks =>
    intro i c hhealth
    exact absurd hhealth (after_ne_closeOld _ _ _)
  | @takes j =>
    intro i c hhealth
    have hhealth : HealthStage.closeOld j (cm.conns j) = .closeOld i (some c) := hhealth
    injection hhealth with hj hconn
    subst hj
    exact (h.kept j c hconn).2
  | closesOld | unmarks | spawns | ends | ticks =>
    intro i c hhealth
    cases hhealth
  | changes hconn =>
    intro i c hhealth
    exact (isOpen_set hconn).mpr (htaken i c hhealth)
  | closesAll => exact absurd rfl hclosing
  | _ => exact htaken

/-- A connection in the hands of some goroutine stays there, unless it is the one that goroutine `k`
lets go of. -/
theorem exists_holder_set (g' : Connector n) (hk : cm.connectors[k]? = some g)
    (hpeer : g'.peerID = g.peerID) (hkeeps : g.stage.holds = some c → g'.stage.holds = some c)
    (h : ∃ other ∈ cm.connectors, other.peerID = i ∧ other.stage.holds = some c) :
    ∃ other ∈ cm.connectors.set k g', other.peerID = i ∧ other.stage.holds = some c := by
  obtain ⟨other, hmem, hother, hholds⟩ := h
  cases eq_or_mem_set hk hmem with
  | inl heq =>
    subst heq
    have hlt : k < cm.connectors.length := (List.getElem?_eq_some_iff.mp hk).1
    exact ⟨g', List.mem_set hlt g', hpeer.trans hother, hkeeps hholds⟩
  | inr hmem => exact ⟨other, hmem, hother, hholds⟩

theorem exists_holder_goes (stage : ConnectStage) (hk : cm.connectors[k]? = some g)
    (hlets : g.stage.holds ≠ some c)
    (h : ∃ other ∈ cm.connectors, other.peerID = i ∧ other.stage.holds = some c) :
    ∃ other ∈ (cm.goes k g stage).connectors, other.peerID = i ∧ other.stage.holds = some c :=
  exists_holder_set { g with stage := stage } hk rfl (fun hc ↦ absurd hc hlets) h

theorem Scans.health_ne (h : cm.Scans stage) :
    (∀ i oldConn, cm.health ≠ .closeOld i oldConn) ∧ cm.health ≠ .returned := by
  cases h with
  | starts hstage | disabled hstage | cancels hstage | skips hstage | sweeps hstage | misses hstage
  | finds hstage | judges hstage | passes hstage | agrees hstage | differs hstage =>
    rw [hstage]
    exact ⟨nofun, nofun⟩

theorem Sound.owned_step (h : cm.Sound) (hcase : StepCase cm a cm') (hclosing : a ≠ .closeAll) :
    ∀ i c, cm'.IsOpen i c → cm'.conns i = some c ∨
      (∃ g ∈ cm'.connectors, g.peerID = i ∧ g.stage.holds = some c) ∨
      cm'.health = .closeOld i (some c) := by
  intro i c hopen
  have howned := h.owned i c
  cases hcase with
  | moves hk hmoves =>
    obtain ⟨hpeer, hholds, -⟩ := hmoves.spec
    exact (howned hopen).imp_right
      (Or.imp_left (exists_holder_set _ hk hpeer fun hc ↦ hholds.trans hc))
  | @dials k ok g hk hstage =>
    cases isOpen_append.mp hopen with
    | inl hopen =>
      have hlets : g.stage.holds ≠ some c := by
        rw [hstage]
        exact nofun
      exact (howned hopen).imp_right (Or.imp_left (exists_holder_goes _ hk hlets))
    | inr hnew =>
      obtain ⟨rfl, hpeer, -⟩ := hnew
      have hlt : k < cm.connectors.length := (List.getElem?_eq_some_iff.mp hk).1
      exact Or.inr (Or.inl ⟨_, List.mem_set hlt _, hpeer, rfl⟩)
  | @drops k d ok g hk hstage =>
    have hholds := ConnectStage.holds_of_dials hstage
    obtain ⟨hopen, hne⟩ := isOpen_closeConn.mp hopen
    have hlets : g.stage.holds ≠ some c := by
      rw [hholds]
      exact fun heq ↦ hne (Option.some.inj heq).symm
    exact (howned hopen).imp_right (Or.imp_left (exists_holder_goes _ hk hlets))
  | @stores k d ok g hk hstage =>
    -- what the goroutine had in hand is now with the peer
    show Function.update cm.conns g.peerID (some d) i = some c ∨ _
    rcases howned hopen with hconn | hholder | hhealth
    · left
      rw [Function.update_of_ne, hconn]
      intro heq
      rw [heq, (h.of_active (List.mem_of_getElem? hk) (by rw [hstage]; rfl)).1] at hconn
      cases hconn
    · by_cases hc : c = d
      · left
        subst hc
        have hpeer : i = g.peerID :=
          hopen.unique (h.held g (List.mem_of_getElem? hk) c (by rw [hstage]; rfl))
        rw [hpeer, Function.update_self]
      · right
        left
        apply exists_holder_goes .announce hk _ hholder
        rw [hstage]
        exact fun heq ↦ hc (Option.some.inj heq).symm
    · exact Or.inr (Or.inr hhealth)
  | @announces k ok g hk hstage | @finishes k ok g hk hstage =>
    have hlets : g.stage.holds ≠ some c := by
      rw [hstage]
      exact nofun
    exact (howned hopen).imp_right (Or.imp_left (exists_holder_goes _ hk hlets))
  | scans hscans =>
    apply (howned hopen).imp_right
    apply Or.imp_right
    intro hhealth
    exact absurd hhealth (hscans.health_ne.1 _ _)
  | marks hstage | unmarks hstage | ends hstage | ticks hstage =>
    apply (howned hopen).imp_right
    apply Or.imp_right
    intro hhealth
    rw [hstage] at hhealth
    cases hhealth
  | @takes j hstage =>
    show Function.update cm.conns j none i = some c ∨ _
    rcases howned hopen with hconn | hholder | hhealth
    · by_cases hi : i = j
      · subst hi
        right
        right
        show HealthStage.closeOld i (cm.conns i) = _
        rw [hconn]
      · left
        rw [Function.update_of_ne hi, hconn]
    · exact Or.inr (Or.inl hholder)
    · rw [hstage] at hhealth
      cases hhealth
  | @closesOld j oldConn hstage =>
    cases oldConn with
    | none =>
      apply (howned hopen).imp_right
      apply Or.imp_right
      intro hhealth
      rw [hstage] at hhealth
      cases hhealth
    | some d =>
      obtain ⟨hopen, hne⟩ := isOpen_closeConn.mp hopen
      apply (howned hopen).imp_right
      apply Or.imp_right
      intro hhealth
      rw [hstage] at hhealth
      cases hhealth
      exact absurd rfl hne
  | spawns hstage =>
    rcases howned hopen with hconn | hholder | hhealth
    · exact Or.inl hconn
    · obtain ⟨g, hg, hspec⟩ := hholder
      exact Or.inr (Or.inl ⟨g, List.mem_append_left _ hg, hspec⟩)
    · rw [hstage] at hhealth
      cases hhealth
  | changes hconn => exact howned ((isOpen_set hconn).mp hopen)
  | closes => exact howned hopen
  | closesAll => exact absurd rfl hclosing

theorem Sound.step (h : cm.Sound) (hstep : cm.step a = some cm') (hclosing : a ≠ .closeAll) :
    cm'.Sound where
  paired := h.paired_step (step_cases hstep)
  single := h.single_step (step_cases hstep)
  expects := h.expects_step (step_cases hstep)
  counted := h.counted_step (step_cases hstep)
  others := h.others_step (step_cases hstep)
  kept := h.kept_step (step_cases hstep) hclosing
  target := h.target_step (step_cases hstep)
  held := h.held_step (step_cases hstep) hclosing
  taken := h.taken_step (step_cases hstep) hclosing
  owned := h.owned_step (step_cases hstep) hclosing

/-! ## 4. What is left when `Close` has returned -/

/-- All goroutines have returned and all connections are closed. -/
structure Closed (cm : ConnectionManager n) : Prop where
  connectors : ∀ g ∈ cm.connectors, g.stage = .returned
  health : cm.health = .returned
  clients : ∀ conn ∈ cm.clients, conn.closed = true
  wg : cm.wg = 0
  paired : cm.peers = cm.conns

theorem Sound.all_returned (h : cm.Sound) (hwg : cm.wg = 0) :
    (∀ g ∈ cm.connectors, g.stage = .returned) ∧ cm.health = .returned := by
  have hcounted := h.counted
  have hzero : weigh Connector.alive cm.connectors = 0 ∧ cm.health.alive = 0 := by omega
  constructor
  · intro g hg
    have halive := weigh_eq_zero_iff.mp hzero.1 g hg
    cases hstage : g.stage with
    | returned => rfl
    | _ =>
      rw [Connector.alive, hstage] at halive
      cases halive
  · have halive := hzero.2
    cases hhealth : cm.health with
    | returned => rfl
    | _ =>
      rw [hhealth] at halive
      cases halive

/-- When nobody has a connection in hand, the loop of `Close` finds them all. -/
theorem Sound.closesAll (h : cm.Sound) (hwg : cm.wg = 0) :
    ∀ conn ∈ cm.closesAll, conn.closed = true := by
  obtain ⟨hreturned, hhealth⟩ := h.all_returned hwg
  intro conn hconn
  obtain ⟨c, hc⟩ := List.mem_iff_getElem?.mp hconn
  rw [ConnectionManager.closesAll, List.getElem?_mapIdx] at hc
  obtain ⟨old, hold, rfl⟩ := Option.map_eq_some_iff.mp hc
  split
  · rfl
  next hnone =>
    by_contra hopen
    have hopen : cm.IsOpen old.peerID c := ⟨old, hold, rfl, Bool.eq_false_of_not_eq_true hopen⟩
    rcases h.owned _ _ hopen with hstored | ⟨g, hg, -, hholds⟩ | htaken
    · exact hnone ⟨_, (h.kept _ _ hstored).1, hstored⟩
    · rw [hreturned g hg] at hholds
      cases hholds
    · rw [hhealth] at htaken
      cases htaken

theorem Moves.stage_ne (h : cm.Moves g g') : g.stage ≠ .returned := by
  cases h with
  | stops hstage | checks hstage | fails hstage | settles hstage | waits hstage | wakes hstage
  | retries hstage | leaves hstage =>
    rw [hstage]
    exact nofun

/-- Nothing happens any more once `Close` has returned. -/
theorem Closed.step_eq_none (h : cm.Closed) (hclosing : cm.closing = .returned)
    (a : ConnectionAction) : cm.step a = none := by
  have hreturned : ∀ (k : Nat) (g : Connector n), cm.connectors[k]? = some g →
      g.stage = .returned :=
    fun k g hk ↦ h.connectors g (List.mem_of_getElem? hk)
  have hhealth := h.health
  cases hstep : cm.step a with
  | none => rfl
  | some cm' =>
    exfalso
    cases step_cases hstep with
    | moves hk hmoves => exact hmoves.stage_ne (hreturned _ _ hk)
    | drops hk hstage =>
      rw [hreturned _ _ hk] at hstage
      cases hstage with
      | inl h | inr h => cases h
    | dials hk hstage | stores hk hstage | announces hk hstage | finishes hk hstage =>
      rw [hreturned _ _ hk] at hstage
      cases hstage
    | scans hscans => exact hscans.health_ne.2 hhealth
    | changes hconn hopen =>
      have hclosed := h.clients _ (List.mem_of_getElem? hconn)
      rw [hopen] at hclosed
      cases hclosed
    | closes hcall | closesAll hcall =>
      rw [hclosing] at hcall
      cases hcall
    | marks hstage | takes hstage | closesOld hstage | unmarks hstage | spawns hstage
    | ends hstage | ticks hstage =>
      rw [hhealth] at hstage
      cases hstage

theorem closing_ne_step (hcase : StepCase cm a cm') (hclosing : cm.closing ≠ .returned)
    (hne : a ≠ .closeAll) : cm'.closing ≠ .returned := by
  cases hcase with
  | closes => exact nofun
  | closesAll => exact absurd rfl hne
  | @closesOld i oldConn =>
    cases oldConn with
    | none | some => exact hclosing
  | _ => exact hclosing

/-- The two times in the life of a manager. -/
def Consistent (cm : ConnectionManager n) : Prop :=
  cm.closing ≠ .returned ∧ cm.Sound ∨ cm.closing = .returned ∧ cm.Closed

theorem Consistent.step (h : cm.Consistent) (hstep : cm.step a = some cm') : cm'.Consistent := by
  cases h with
  | inl h =>
    by_cases hne : a = .closeAll
    · subst hne
      cases step_cases hstep with
      | closesAll hclosing hwg =>
        obtain ⟨hconnectors, hhealth⟩ := h.2.all_returned hwg
        exact Or.inr ⟨rfl, hconnectors, hhealth, h.2.closesAll hwg, hwg,
          h.2.paired⟩
    · exact Or.inl ⟨closing_ne_step (step_cases hstep) h.1 hne, h.2.step hstep hne⟩
  | inr h =>
    rw [h.2.step_eq_none h.1 a] at hstep
    cases hstep

theorem Consistent.paired (h : cm.Consistent) : cm.peers = cm.conns := by
  cases h with
  | inl h | inr h => exact h.2.paired

theorem consistent_of_reaches {selfID : Fin n} {maxRetries healthInterval : Int}
    {guard : ConnectionManager n → ConnectionAction → Prop}
    (hrun : Reaches step guard (newConnectionManager selfID maxRetries healthInterval) cm) :
    cm.Consistent := by
  apply Reaches.invariant Consistent _ _ hrun
  · exact Or.inl ⟨nofun, sound_start selfID maxRetries healthInterval⟩
  · intro cm a cm' _ h _ hstep
    exact h.step hstep

/-- In every run at most one goroutine works on the connection of a peer, and none does while the
peer has one; the wait group counts the goroutines that run; every open connection is with its
peer, with that goroutine, or about to be closed.  After `Close` nothing is left. -/
theorem connections_have_one_owner {selfID : Fin n} {maxRetries healthInterval : Int}
    (hrun : Reachable step (newConnectionManager selfID maxRetries healthInterval) cm) :
    (∀ i, weigh (Connector.activeFor i) cm.connectors + (cm.conns i).isSome.toNat ≤ 1) ∧
      cm.wg = weigh Connector.alive cm.connectors + cm.health.alive ∧
      (∀ i c, cm.IsOpen i c → cm.conns i = some c ∨
        (∃ g ∈ cm.connectors, g.peerID = i ∧ g.stage.holds = some c) ∨
        cm.health = .closeOld i (some c)) ∧
      (cm.closing = .returned → (∀ g ∈ cm.connectors, g.stage = .returned) ∧
        cm.health = .returned ∧ ∀ conn ∈ cm.clients, conn.closed = true) := by
  cases consistent_of_reaches hrun with
  | inl h =>
    refine ⟨?_, h.2.counted, h.2.owned, fun hclosing ↦ absurd hclosing h.1⟩
    intro i
    have hsingle := h.2.single i
    omega
  | inr h =>
    obtain ⟨-, hconnectors, hhealth, hclients, hwg, -⟩ := h
    refine ⟨?_, ?_, ?_, fun _ ↦ ⟨hconnectors, hhealth, hclients⟩⟩
    · intro i
      have hzero : weigh (Connector.activeFor i) cm.connectors = 0 := by
        apply weigh_eq_zero_iff.mpr
        intro g hg
        rw [Connector.activeFor, hconnectors g hg]
        exact ite_self 0
      have hle := Bool.toNat_le (cm.conns i).isSome
      omega
    · have hzero : weigh Connector.alive cm.connectors = 0 := by
        apply weigh_eq_zero_iff.mpr
        intro g hg
        rw [Connector.alive, hconnectors g hg]
        rfl
      rw [hwg, hzero, hhealth]
      rfl
    · intro i c hopen
      obtain ⟨conn, hconn, -, hopen⟩ := hopen
      rw [hclients conn (List.mem_of_getElem? hconn)] at hopen
      cases hopen

/-- A manager whose first connection shuts down, is replaced, and is closed with the second. -/
theorem connections_have_one_owner_two : ∃ cm : ConnectionManager 2,
    Reachable step (newConnectionManager 0 0 1) cm ∧ (cm.clients.length = 2 ∧
      cm.closing = .returned) ∧ ∀ conn ∈ cm.clients, conn.closed = true := by
  obtain ⟨cm, hrun, hlength, hclosing⟩ : ∃ cm : ConnectionManager 2,
      Reachable step (newConnectionManager 0 0 1) cm ∧
        cm.clients.length = 2 ∧ cm.closing = .returned := by
    apply exists_reaches_of_exec [.connect 0 true, .connect 0 true, .connect 0 true,
      .connect 0 true, .connect 0 true, .connect 0 true, .health, .tick, .health, .health,
      .change 0 .shutdown, .health, .health, .health, .health, .health, .health, .health, .health,
      .connect 1 true, .connect 1 true, .connect 1 true, .connect 1 true, .close, .connect 1 true,
      .connect 1 true, .health, .health, .closeAll]
    decide +kernel
  exact ⟨cm, hrun, ⟨hlength, hclosing⟩,
    ((connections_have_one_owner hrun).2.2.2 hclosing).2.2⟩

end ConnectionManager

end DistributedCache
