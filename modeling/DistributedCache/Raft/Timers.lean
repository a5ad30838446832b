import Mathlib.Data.List.Basic
import DistributedCache.Lib.Transition

/-!
# Election timers and heartbeats

`electionTimerLoop` waits for its timer or for a token in `resetTimerCh`, which `ResetTimer` puts
there unless one is there already; when both are ready, `select` may take either.  `heartbeatLoop`
of a leader sends a heartbeat whenever its own timer fires, and the node that receives one resets
its election timer, whoever has sent it.

Times are nanoseconds of one clock.  The timer loops are not told when they run: the first result
holds for every schedule.  The others are about runs in which time passes only while nothing is due
(`Prompt`), so that a loop does at once what it can do.
-/

namespace DistributedCache

open Transition

/-- `time.Millisecond`, in nanoseconds. -/
def millisecond : Nat := 1000000

def minElectionTimeout : Nat := 400 * millisecond

def maxElectionTimeout : Nat := 800 * millisecond

/-- `Heartbeat.timeout`: the time between two heartbeats, and the time that a heartbeat has. -/
def heartbeatTimeout : Nat := 100 * millisecond

/-- The values that `nextTimeout` may return. -/
def IsTimeout (d : Nat) : Prop := minElectionTimeout ≤ d ∧ d < maxElectionTimeout
deriving Decidable

/-! ## 1. The election timer -/

/-- Where `electionTimerLoop` is. -/
inductive ElectorStage where
  | select
  /-- The timer has fired and the role is not read yet. -/
  | fired
  | start
  /-- Before the last `timer.Reset` of the loop. -/
  | rearm
  deriving DecidableEq, Repr

structure Elector where
  /-- There is a token in `resetTimerCh`. -/
  resetTimerCh : Bool
  /-- When the timer fires, while the loop waits for it. -/
  deadline : Nat
  stage : ElectorStage
  /-- When elections were started, the last one first. -/
  elections : List Nat
  deriving DecidableEq, Repr

inductive ElectorAction where
  /-- `ResetTimer`, called by a handler. -/
  | resetTimer
  | takeReset (timeout : Nat)
  | fire
  | checkRole (isLeader isSnapshotWriting : Bool)
  | startElection
  | rearm (timeout : Nat)
  deriving DecidableEq, Repr

namespace Elector

def newRaftElector (timeout : Nat) : Elector := ⟨false, timeout, .select, []⟩

def resetTimer (re : Elector) : Elector := { re with resetTimerCh := true }

/-- A step of the loop, or a call of `ResetTimer`, at time `now`. -/
def step (re : Elector) (now : Nat) : ElectorAction → Option Elector
  | .resetTimer => some re.resetTimer
  | .takeReset timeout =>
    if re.stage = .select ∧ re.resetTimerCh = true ∧ IsTimeout timeout then
      some { re with resetTimerCh := false, deadline := now + timeout }
    else none
  | .fire =>
    if re.stage = .select ∧ re.deadline ≤ now then some { re with stage := .fired } else none
  | .checkRole isLeader isSnapshotWriting =>
    if re.stage = .fired then
      some { re with stage := if !isLeader && !isSnapshotWriting then .start else .rearm }
    else none
  -- `startElection` resets the timer itself, so that a token is left for the next round
  | .startElection =>
    if re.stage = .start then
      some { re.resetTimer with stage := .rearm, elections := now :: re.elections }
    else none
  | .rearm timeout =>
    if re.stage = .rearm ∧ IsTimeout timeout then
      some { re with stage := .select, deadline := now + timeout }
    else none

/-- The ways in which a step can go. -/
inductive StepCase (re : Elector) (now : Nat) : ElectorAction → Elector → Prop
  | resets : StepCase re now .resetTimer re.resetTimer
  | takes {timeout : Nat} (hstage : re.stage = .select) (htoken : re.resetTimerCh = true)
      (htimeout : IsTimeout timeout) :
      StepCase re now (.takeReset timeout)
        { re with resetTimerCh := false, deadline := now + timeout }
  | fires (hstage : re.stage = .select) (hdue : re.deadline ≤ now) :
      StepCase re now .fire { re with stage := .fired }
  | checks {isLeader isSnapshotWriting : Bool} (hstage : re.stage = .fired) :
      StepCase re now (.checkRole isLeader isSnapshotWriting)
        { re with stage := if !isLeader && !isSnapshotWriting then .start else .rearm }
  | starts (hstage : re.stage = .start) :
      StepCase re now .startElection
        { re.resetTimer with stage := .rearm, elections := now :: re.elections }
  | rearms {timeout : Nat} (hstage : re.stage = .rearm) (htimeout : IsTimeout timeout) :
      StepCase re now (.rearm timeout) { re with stage := .select, deadline := now + timeout }

variable {re re' : Elector} {now : Nat} {a : ElectorAction}

theorem step_cases (h : re.step now a = some re') : StepCase re now a re' := by
  cases a with
  | resetTimer =>
    cases h
    exact .resets
  | takeReset timeout =>
    obtain ⟨⟨hstage, htoken, htimeout⟩, h⟩ := Option.ite_none_right_eq_some.mp h
    cases h
    exact .takes hstage htoken htimeout
  | fire =>
    obtain ⟨⟨hstage, hdue⟩, h⟩ := Option.ite_none_right_eq_some.mp h
    cases h
    exact .fires hstage hdue
  | checkRole isLeader isSnapshotWriting =>
    obtain ⟨hstage, h⟩ := Option.ite_none_right_eq_some.mp h
    cases h
    exact .checks hstage
  | startElection =>
    obtain ⟨hstage, h⟩ := Option.ite_none_right_eq_some.mp h
    cases h
    exact .starts hstage
  | rearm timeout =>
    obtain ⟨⟨hstage, htimeout⟩, h⟩ := Option.ite_none_right_eq_some.mp h
    cases h
    exact .rearms hstage htimeout

end Elector

/-! ## 2. A leader's heartbeats and a follower's timer -/

/-- The heartbeats of a leader on their way to a follower. -/
structure Pulse where
  clock : Nat
  /-- When the timer of `heartbeatLoop` fires on the leader. -/
  nextBeat : Nat
  /-- When the heartbeats were sent that have not been handled yet. -/
  inFlight : List Nat
  elector : Elector
  deriving DecidableEq, Repr

inductive PulseAction where
  | elapse (d : Nat)
  /-- The leader's timer fires; `isLeader` is what it then finds, and `connected` says that
  `getPeer` has a client for the follower. -/
  | beat (isLeader connected : Bool)
  /-- `receiveHeartbeat` on the follower. -/
  | receiveHeartbeat (k : Nat)
  /-- The call fails or its time is over; `sendHeartbeat` ignores the error. -/
  | loseHeartbeat (k : Nat)
  | elector (a : ElectorAction)
  deriving DecidableEq, Repr

namespace Pulse

def start (timeout : Nat) : Pulse where
  clock := 0
  nextBeat := heartbeatTimeout
  inFlight := []
  elector := .newRaftElector timeout

def step (s : Pulse) : PulseAction → Option Pulse
  | .elapse d => some { s with clock := s.clock + d }
  | .beat isLeader connected =>
    if s.nextBeat ≤ s.clock then
      some { s with
        nextBeat := s.clock + heartbeatTimeout
        inFlight := if isLeader && connected then s.inFlight ++ [s.clock] else s.inFlight }
    else none
  | .receiveHeartbeat k =>
    if k < s.inFlight.length then
      some { s with inFlight := s.inFlight.eraseIdx k, elector := s.elector.resetTimer }
    else none
  | .loseHeartbeat k =>
    if k < s.inFlight.length then some { s with inFlight := s.inFlight.eraseIdx k } else none
  | .elector a => (s.elector.step s.clock a).map fun re ↦ { s with elector := re }

inductive StepCase (s : Pulse) : PulseAction → Pulse → Prop
  | elapses (d : Nat) : StepCase s (.elapse d) { s with clock := s.clock + d }
  | beats {isLeader connected : Bool} (hdue : s.nextBeat ≤ s.clock) :
      StepCase s (.beat isLeader connected) { s with
        nextBeat := s.clock + heartbeatTimeout
        inFlight := if isLeader && connected then s.inFlight ++ [s.clock] else s.inFlight }
  | receives {k : Nat} (hk : k < s.inFlight.length) :
      StepCase s (.receiveHeartbeat k)
        { s with inFlight := s.inFlight.eraseIdx k, elector := s.elector.resetTimer }
  | loses {k : Nat} (hk : k < s.inFlight.length) :
      StepCase s (.loseHeartbeat k) { s with inFlight := s.inFlight.eraseIdx k }
  | loops {a : ElectorAction} {re : Elector} (hcase : Elector.StepCase s.elector s.clock a re) :
      StepCase s (.elector a) { s with elector := re }

variable {s s' : Pulse} {a : PulseAction}

theorem step_cases (h : s.step a = some s') : StepCase s a s' := by
  cases a with
  | elapse d =>
    cases h
    exact .elapses d
  | beat isLeader connected =>
    obtain ⟨hdue, h⟩ := Option.ite_none_right_eq_some.mp h
    cases h
    exact .beats hdue
  | receiveHeartbeat k =>
    obtain ⟨hk, h⟩ := Option.ite_none_right_eq_some.mp h
    cases h
    exact .receives hk
  | loseHeartbeat k =>
    obtain ⟨hk, h⟩ := Option.ite_none_right_eq_some.mp h
    cases h
    exact .loses hk
  | elector a =>
    obtain ⟨re, hre, rfl⟩ := Option.map_eq_some_iff.mp h
    exact .loops (Elector.step_cases hre)

/-! ## 3. Elections take their time -/

/-- The times at which elections were started, and time zero, at which the loop began. -/
def marks (s : Pulse) : List Nat := s.elector.elections ++ [0]

/-- What the loop has waited for so far. -/
structure Spaced (s : Pulse) : Prop where
  spaced : s.marks.Pairwise fun later earlier ↦ earlier + minElectionTimeout ≤ later
  past : ∀ t ∈ s.marks, t ≤ s.clock
  armed : s.elector.stage = .select → ∀ t ∈ s.marks, t + minElectionTimeout ≤ s.elector.deadline
  due : s.elector.stage = .fired ∨ s.elector.stage = .start →
    ∀ t ∈ s.marks, t + minElectionTimeout ≤ s.clock

theorem Spaced.loops (h : s.Spaced) {a : ElectorAction} {re : Elector}
    (hcase : Elector.StepCase s.elector s.clock a re) : Spaced { s with elector := re } := by
  have hset {timeout : Nat} (htimeout : IsTimeout timeout) :
      ∀ t ∈ s.marks, t + minElectionTimeout ≤ s.clock + timeout :=
    fun t ht ↦ Nat.add_le_add (h.past t ht) htimeout.1
  cases hcase with
  | resets => exact ⟨h.spaced, h.past, h.armed, h.due⟩
  | @takes timeout hstage _ htimeout =>
    refine ⟨h.spaced, h.past, fun _ ↦ hset htimeout, fun hother ↦ ?_⟩
    simp only [hstage, reduceCtorEq, or_self] at hother
  | fires hstage hdue =>
    refine ⟨h.spaced, h.past, fun hother ↦ ?_, fun _ t ht ↦ ?_⟩
    · cases hother
    · exact Nat.le_trans (h.armed hstage t ht) hdue
  | @checks isLeader isSnapshotWriting hstage =>
    refine ⟨h.spaced, h.past, fun hother ↦ ?_, fun _ ↦ h.due (Or.inl hstage)⟩
    cases isLeader <;> cases isSnapshotWriting <;> cases hother
  | starts hstage =>
    have hdue := h.due (Or.inr hstage)
    refine ⟨List.pairwise_cons.mpr ⟨hdue, h.spaced⟩, fun t ht ↦ ?_, fun hother ↦ ?_,
      fun hother ↦ ?_⟩
    · cases ht with
      | head => exact Nat.le_refl _
      | tail _ ht => exact h.past t ht
    · cases hother
    · simp only [reduceCtorEq, or_self] at hother
  | @rearms timeout hstage htimeout =>
    refine ⟨h.spaced, h.past, fun _ ↦ hset htimeout, fun hother ↦ ?_⟩
    simp only [reduceCtorEq, or_self] at hother

theorem Spaced.step (h : s.Spaced) (hcase : StepCase s a s') : s'.Spaced := by
  cases hcase with
  | elapses d =>
    exact ⟨h.spaced, fun t ht ↦ Nat.le_add_right_of_le (h.past t ht), h.armed,
      fun hdue t ht ↦ Nat.le_add_right_of_le (h.due hdue t ht)⟩
  | beats | receives | loses => exact ⟨h.spaced, h.past, h.armed, h.due⟩
  | loops hcase => exact h.loops hcase

theorem spaced_start {timeout : Nat} (htimeout : IsTimeout timeout) : (start timeout).Spaced := by
  have hzero {t : Nat} (ht : t ∈ (start timeout).marks) : t = 0 := List.mem_singleton.mp ht
  refine ⟨List.pairwise_singleton _ _, fun t ht ↦ Nat.le_of_eq (hzero ht), fun _ t ht ↦ ?_,
    fun hdue ↦ ?_⟩
  · rw [hzero ht, Nat.zero_add]
    exact htimeout.1
  · cases hdue with
    | inl h | inr h => cases h

/-- Between two elections of a node, and before the first, 400 milliseconds pass, whatever else
happens and however its goroutines are scheduled. -/
theorem elections_are_spaced {timeout : Nat} (htimeout : IsTimeout timeout)
    (hrun : Reachable step (start timeout) s) :
    (s.elector.elections ++ [0]).Pairwise fun later earlier ↦
      earlier + minElectionTimeout ≤ later := by
  have h : s.Spaced := by
    apply hrun.invariant Spaced (spaced_start htimeout)
    intro s a s' _ h _ hstep
    exact h.step (step_cases hstep)
  exact h.spaced

/-- Two elections of one node, the second after the token of the first. -/
theorem elections_are_spaced_twice :
    ∃ s, Reachable step (start (450 * millisecond)) s ∧
      s.elector.elections = [850 * millisecond, 450 * millisecond] ∧
      (s.elector.elections ++ [0]).Pairwise fun later earlier ↦
        earlier + minElectionTimeout ≤ later := by
  obtain ⟨s, hrun, htwo⟩ : ∃ s, Reachable step (start (450 * millisecond)) s ∧
      s.elector.elections = [850 * millisecond, 450 * millisecond] :=
    exists_reaches_of_exec
      [.elapse (450 * millisecond), .elector .fire, .elector (.checkRole false false),
        .elector .startElection, .elector (.rearm (500 * millisecond)),
        .elector (.takeReset (400 * millisecond)), .elapse (400 * millisecond), .elector .fire,
        .elector (.checkRole false false), .elector .startElection] (by decide +kernel)
  exact ⟨s, hrun, htwo, elections_are_spaced (by decide) hrun⟩

/-! ## 4. Runs on time -/

/-- Time passes only while nothing is due: no timer, no heartbeat whose own deadline has come, no
token in `resetTimerCh` and no step of a loop that is not waiting. -/
def Prompt (s : Pulse) : PulseAction → Prop
  | .elapse d =>
    s.clock + d ≤ s.nextBeat ∧ (∀ t ∈ s.inFlight, s.clock + d ≤ t + heartbeatTimeout) ∧
      s.elector.resetTimerCh = false ∧ s.elector.stage = .select ∧
      s.clock + d ≤ s.elector.deadline
  | _ => True

instance (s : Pulse) : (a : PulseAction) → Decidable (s.Prompt a)
  | .elapse _ => inferInstanceAs (Decidable (_ ∧ _))
  | .beat _ _ | .receiveHeartbeat _ | .loseHeartbeat _ | .elector _ => isTrue trivial

/-- The leader stays the leader and has a client for the follower, and no heartbeat is lost. -/
def Leads (_ : Pulse) : PulseAction → Prop
  | .beat isLeader connected => isLeader = true ∧ connected = true
  | .loseHeartbeat _ => False
  | _ => True

instance (s : Pulse) : (a : PulseAction) → Decidable (s.Leads a)
  | .beat _ _ => inferInstanceAs (Decidable (_ ∧ _))
  | .loseHeartbeat _ => isFalse id
  | .elapse _ | .receiveHeartbeat _ | .elector _ => isTrue trivial

/-- The follower has heard from the leader at time `heard` and has started no election since, so
that `elections` are those it had started before.  The next heartbeat is at most the time of two
heartbeats away. -/
structure Heard (s : Pulse) (heard : Nat) (elections : List Nat) : Prop where
  past : heard ≤ s.clock
  recent : s.clock ≤ heard + 2 * heartbeatTimeout
  due : s.clock ≤ s.nextBeat
  beat : s.nextBeat ≤ s.clock + heartbeatTimeout
  next : s.nextBeat ≤ heard + heartbeatTimeout ∨ ∃ t ∈ s.inFlight, t ≤ heard + heartbeatTimeout
  waits : s.elector.stage = .select
  quiet : s.elector.elections = elections
  ahead : s.clock + 2 * heartbeatTimeout ≤ s.elector.deadline
  -- a token stands for a deadline that is about to move
  armed : s.elector.resetTimerCh = false → heard + minElectionTimeout ≤ s.elector.deadline

section

variable {heard : Nat} {elections : List Nat}

theorem Heard.loops (h : s.Heard heard elections) {a : ElectorAction} {re : Elector}
    (hcase : Elector.StepCase s.elector s.clock a re) :
    Heard { s with elector := re } heard elections := by
  cases hcase with
  | resets => exact { h with armed := nofun }
  | takes _ _ htimeout =>
    have hratio : 2 * heartbeatTimeout ≤ minElectionTimeout := by decide
    refine { h with ahead := ?_, armed := ?_ }
    · exact Nat.add_le_add_left (Nat.le_trans hratio htimeout.1) _
    · intro _
      exact Nat.add_le_add h.past htimeout.1
  | fires _ hdue =>
    -- the deadline is still ahead
    have hahead := h.ahead
    have hpos : 0 < heartbeatTimeout := by decide
    omega
  | checks hstage | starts hstage | rearms hstage =>
    rw [h.waits] at hstage
    cases hstage

theorem Heard.elapses {d : Nat} (h : s.Heard heard elections) (hprompt : s.Prompt (.elapse d)) :
    Heard { s with clock := s.clock + d } heard elections := by
  obtain ⟨hbeat, hflight, htoken, -, -⟩ := hprompt
  have harmed := h.armed htoken
  have hratio : minElectionTimeout = 4 * heartbeatTimeout := by decide
  have hrecent : s.clock + d ≤ heard + 2 * heartbeatTimeout := by
    cases h.next with
    | inl hnext => omega
    | inr hnext =>
      obtain ⟨t, ht, hle⟩ := hnext
      have := hflight t ht
      omega
  refine { h with past := ?_, recent := hrecent, due := hbeat, beat := ?_, ahead := ?_ }
  · exact Nat.le_add_right_of_le h.past
  · have hnext := h.beat
    show s.nextBeat ≤ s.clock + d + heartbeatTimeout
    omega
  · show s.clock + d + 2 * heartbeatTimeout ≤ s.elector.deadline
    omega

theorem Heard.beats (h : s.Heard heard elections) (hdue : s.nextBeat ≤ s.clock) :
    Heard { s with
      nextBeat := s.clock + heartbeatTimeout
      inFlight := s.inFlight ++ [s.clock] } heard elections := by
  refine { h with due := Nat.le_add_right _ _, beat := Nat.le_refl _, next := ?_ }
  right
  cases h.next with
  | inl hnext =>
    -- this is the heartbeat that was to come
    have hnow : s.clock = s.nextBeat := Nat.le_antisymm h.due hdue
    exact ⟨s.clock, List.mem_append_right _ List.mem_cons_self, hnow ▸ hnext⟩
  | inr hnext =>
    obtain ⟨t, ht, hle⟩ := hnext
    exact ⟨t, List.mem_append_left _ ht, hle⟩

/-- A heartbeat that arrives starts the count anew. -/
theorem Heard.receives (h : s.Heard heard elections) (k : Nat) :
    Heard { s with inFlight := s.inFlight.eraseIdx k, elector := s.elector.resetTimer }
      s.clock elections where
  past := Nat.le_refl _
  recent := Nat.le_add_right _ _
  due := h.due
  beat := h.beat
  next := Or.inl h.beat
  waits := h.waits
  quiet := h.quiet
  ahead := h.ahead
  armed := nofun

theorem Heard.step (h : s.Heard heard elections) (hprompt : s.Prompt a) (hleads : s.Leads a)
    (hcase : StepCase s a s') : ∃ heard', s'.Heard heard' elections := by
  cases hcase with
  | elapses d => exact ⟨heard, h.elapses hprompt⟩
  | beats hdue =>
    obtain ⟨rfl, rfl⟩ := hleads
    exact ⟨heard, h.beats hdue⟩
  | receives => exact ⟨s.clock, h.receives _⟩
  | loses => cases hleads
  | loops hcase => exact ⟨heard, h.loops hcase⟩

end

/-- The follower's timer has just been set, and the leader's next heartbeat is at most its interval
away. -/
def JustReset (s : Pulse) : Prop :=
  s.elector.stage = .select ∧ s.clock + minElectionTimeout ≤ s.elector.deadline ∧
    s.clock ≤ s.nextBeat ∧ s.nextBeat ≤ s.clock + heartbeatTimeout
deriving Decidable

theorem JustReset.heard (h : s.JustReset) : s.Heard s.clock s.elector.elections where
  past := Nat.le_refl _
  recent := Nat.le_add_right _ _
  due := h.2.2.1
  beat := h.2.2.2
  next := Or.inl h.2.2.2
  waits := h.1
  quiet := rfl
  ahead := by
    have hratio : 2 * heartbeatTimeout ≤ minElectionTimeout := by decide
    exact Nat.le_trans (Nat.add_le_add_left hratio _) h.2.1
  armed := fun _ ↦ h.2.1

/-- A follower that hears its leader starts no election: as long as every heartbeat is handled
before its own deadline and the loops run when they can, the election timer never fires, whatever
timeouts are drawn and whatever else resets the timer. -/
theorem heartbeats_prevent_elections (hstart : s.JustReset)
    (hrun : Reaches step (fun s a ↦ s.Prompt a ∧ s.Leads a) s s') :
    s'.elector.elections = s.elector.elections := by
  have h : ∃ heard, s'.Heard heard s.elector.elections := by
    apply hrun.invariant (fun s' ↦ ∃ heard, s'.Heard heard s.elector.elections)
    · exact ⟨s.clock, hstart.heard⟩
    · intro s a s' _ h hguard hstep
      obtain ⟨heard, h⟩ := h
      exact h.step hguard.1 hguard.2 (step_cases hstep)
  obtain ⟨heard, h⟩ := h
  exact h.quiet

/-- Half a second of heartbeats, each as late as it may be, against the shortest timeouts. -/
theorem heartbeats_prevent_elections_half_second :
    (start minElectionTimeout).JustReset ∧
      ∃ s, Reaches step (fun s a ↦ s.Prompt a ∧ s.Leads a) (start minElectionTimeout) s ∧
        5 * heartbeatTimeout ≤ s.clock ∧ s.elector.elections = [] := by
  obtain ⟨s, hrun, hclock⟩ : ∃ s,
      Reaches step (fun s a ↦ s.Prompt a ∧ s.Leads a) (start minElectionTimeout) s ∧
        5 * heartbeatTimeout ≤ s.clock :=
    exists_reaches_of_exec
      [.elapse (100 * millisecond), .beat true true, .elapse (100 * millisecond), .beat true true,
        .receiveHeartbeat 0, .elector (.takeReset (400 * millisecond)), .elapse (100 * millisecond),
        .receiveHeartbeat 0, .elector (.takeReset (400 * millisecond)), .beat true true,
        .elapse (100 * millisecond), .beat true true, .receiveHeartbeat 0,
        .elector (.takeReset (400 * millisecond)), .elapse (100 * millisecond)] (by decide +kernel)
  have hstart : (start minElectionTimeout).JustReset := by decide
  exact ⟨hstart, s, hrun, hclock, heartbeats_prevent_elections hstart hrun⟩

/-! ## 5. Silence -/

/-- Nothing resets the timer, and the loop finds that the node may stand for election. -/
def Silent (_ : Pulse) : PulseAction → Prop
  | .receiveHeartbeat _ => False
  | .elector .resetTimer => False
  | .elector (.checkRole isLeader isSnapshotWriting) =>
    isLeader = false ∧ isSnapshotWriting = false
  | _ => True

instance (s : Pulse) : (a : PulseAction) → Decidable (s.Silent a)
  | .elapse _ | .beat _ _ | .loseHeartbeat _ => isTrue trivial
  | .receiveHeartbeat _ | .elector .resetTimer => isFalse id
  | .elector (.checkRole _ _) => inferInstanceAs (Decidable (_ ∧ _))
  | .elector (.takeReset _) | .elector .fire | .elector .startElection | .elector (.rearm _) =>
    isTrue trivial

/-- A timer that runs is due within the longest timeout. -/
def Bounded (s : Pulse) : Prop :=
  s.elector.stage = .select → s.elector.deadline < s.clock + maxElectionTimeout

theorem Bounded.step (h : s.Bounded) (hcase : StepCase s a s') : s'.Bounded := by
  intro hselect
  cases hcase with
  | elapses d =>
    have := h hselect
    show s.elector.deadline < s.clock + d + maxElectionTimeout
    omega
  | beats | receives | loses => exact h hselect
  | loops hcase =>
    cases hcase with
    | resets => exact h hselect
    | takes _ _ htimeout | rearms _ htimeout => exact Nat.add_lt_add_left htimeout.2 _
    | fires | starts => cases hselect
    | @checks isLeader isSnapshotWriting =>
      cases isLeader <;> cases isSnapshotWriting <;> cases hselect

/-- Since `since` nothing has reset the timer and no election has been started. -/
structure Waiting (s : Pulse) (since : Nat) : Prop where
  past : since ≤ s.clock
  soon : s.clock < since + maxElectionTimeout
  armed : s.elector.stage = .select → s.elector.deadline < since + maxElectionTimeout
  -- what was left to do then is done without delay
  token : s.elector.resetTimerCh = true → s.clock = since
  rearms : s.elector.stage = .rearm → s.clock = since

theorem Waiting.step {since : Nat} (h : s.Waiting since) (hprompt : s.Prompt a)
    (hsilent : s.Silent a) (hcase : StepCase s a s') :
    s'.Waiting since ∧ s'.elector.elections = s.elector.elections ∨
      s.elector.elections.length < s'.elector.elections.length := by
  cases hcase with
  | elapses d =>
    obtain ⟨-, -, htoken, hstage, hdeadline⟩ := hprompt
    have harmed := h.armed hstage
    left
    refine ⟨{ h with past := ?_, soon := ?_, token := ?_, rearms := ?_ }, rfl⟩
    · exact Nat.le_add_right_of_le h.past
    · exact Nat.lt_of_le_of_lt hdeadline harmed
    · intro htrue
      rw [htoken] at htrue
      cases htrue
    · intro hrearm
      rw [hstage] at hrearm
      cases hrearm
  | beats | loses => exact Or.inl ⟨{ h with }, rfl⟩
  | receives => cases hsilent
  | loops hcase =>
    cases hcase with
    | resets => cases hsilent
    | takes hstage htoken htimeout =>
      left
      have hnow := h.token htoken
      refine ⟨{ h with armed := ?_, token := nofun }, rfl⟩
      intro _
      show s.clock + _ < since + maxElectionTimeout
      rw [hnow]
      exact Nat.add_lt_add_left htimeout.2 _
    | fires => exact Or.inl ⟨{ h with armed := nofun, rearms := nofun }, rfl⟩
    | checks =>
      obtain ⟨rfl, rfl⟩ := hsilent
      exact Or.inl ⟨{ h with armed := nofun, rearms := nofun }, rfl⟩
    | starts => exact Or.inr (Nat.lt_succ_self _)
    | rearms hstage htimeout =>
      left
      have hnow := h.rearms hstage
      refine ⟨{ h with armed := ?_, rearms := nofun }, rfl⟩
      intro _
      show s.clock + _ < since + maxElectionTimeout
      rw [hnow]
      exact Nat.add_lt_add_left htimeout.2 _

/-- Elections are only added. -/
theorem length_elections_le (hcase : StepCase s a s') :
    s.elector.elections.length ≤ s'.elector.elections.length := by
  cases hcase with
  | elapses | beats | receives | loses => exact Nat.le_refl _
  | loops hcase =>
    cases hcase with
    | starts => exact Nat.le_succ _
    | _ => exact Nat.le_refl _

/-- A node that hears nothing stands for election: from any state of any run, once 800 milliseconds
have passed in which nothing reset the timer, an election has been started. -/
theorem silence_starts_election {timeout : Nat} (htimeout : IsTimeout timeout)
    (hbefore : Reachable step (start timeout) s)
    (hrun : Reaches step (fun s a ↦ s.Prompt a ∧ s.Silent a) s s')
    (hlong : s.clock + maxElectionTimeout ≤ s'.clock) :
    s.elector.elections.length < s'.elector.elections.length := by
  have hbounded : s.Bounded := by
    apply hbefore.invariant Bounded
    · intro _
      show timeout < 0 + maxElectionTimeout
      rw [Nat.zero_add]
      exact htimeout.2
    · intro s a s' _ h _ hstep
      exact h.step (step_cases hstep)
  have hstart : s.Waiting s.clock := by
    constructor
    · exact Nat.le_refl _
    · exact Nat.lt_add_of_pos_right (by decide)
    · exact hbounded
    · intro _
      rfl
    · intro _
      rfl
  have h : s'.Waiting s.clock ∧ s'.elector.elections = s.elector.elections ∨
      s.elector.elections.length < s'.elector.elections.length := by
    apply hrun.invariant (fun s' ↦ s'.Waiting s.clock ∧ s'.elector.elections = s.elector.elections ∨
      s.elector.elections.length < s'.elector.elections.length)
    · exact Or.inl ⟨hstart, rfl⟩
    · intro t a t' _ h hguard hstep
      have hcase := step_cases hstep
      cases h with
      | inl h =>
        rw [← h.2]
        exact h.1.step hguard.1 hguard.2 hcase
      | inr h => exact Or.inr (Nat.lt_of_lt_of_le h (length_elections_le hcase))
  cases h with
  | inl h => exact absurd h.1.soon (Nat.not_lt.mpr hlong)
  | inr h => exact h

/-- The leader's heartbeats are lost on their way. -/
theorem silence_starts_election_alone :
    ∃ s, Reaches step (fun s a ↦ s.Prompt a ∧ s.Silent a) (start (700 * millisecond)) s ∧
      maxElectionTimeout ≤ s.clock ∧ 0 < s.elector.elections.length := by
  obtain ⟨s, hrun, hclock⟩ : ∃ s,
      Reaches step (fun s a ↦ s.Prompt a ∧ s.Silent a) (start (700 * millisecond)) s ∧
        0 + maxElectionTimeout ≤ s.clock :=
    exists_reaches_of_exec
      [.elapse (100 * millisecond), .beat true true, .elapse (100 * millisecond), .loseHeartbeat 0,
        .beat true true, .loseHeartbeat 0, .elapse (100 * millisecond), .beat true false,
        .elapse (100 * millisecond), .beat true false, .elapse (100 * millisecond),
        .beat true false, .elapse (100 * millisecond), .beat true false,
        .elapse (100 * millisecond), .beat false true, .elector .fire,
        .elector (.checkRole false false), .elector .startElection,
        .elector (.rearm (500 * millisecond)), .elector (.takeReset (600 * millisecond)),
        .elapse (100 * millisecond)] (by decide +kernel)
  have h := silence_starts_election (by decide) .refl hrun hclock
  rw [Nat.zero_add] at hclock
  exact ⟨s, hrun, hclock, h⟩

end Pulse

end DistributedCache
