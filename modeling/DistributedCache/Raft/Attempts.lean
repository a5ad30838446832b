import DistributedCache.Raft.Forward

/-!
# What a call rests on

A write may be tried more than once: a call is passed on to another node, `forwardToLeader` sends
its request twice, and a client that is told of an error comes back.  The calls for a token form a
chain: each one but the first was made by an earlier one, which waits for it.  As long as no call is
given up, an error means that nothing was appended, and only the last call of the chain can append.

An answer without an error rests on a delivery: the entry was appended, and the node that appended
it handed it to its application.
-/

namespace DistributedCache

open Network Transition

variable {n : Nat} {σ : Type} {app : Application σ}

namespace InvocationStage

/-- The call has yet to append its message. -/
def isOpen : InvocationStage → Bool
  | .forward | .broadcastSync | .appending => true
  | _ => false

/-- Whether the call has returned, and without an error. -/
def success : InvocationStage → Option Bool
  | .returned (.ok _) => some true
  | .returned (.error _) => some false
  | _ => none

/-- The call has appended its message, and waits or was answered. -/
def isPlaced : InvocationStage → Bool
  | .waiting _ | .returned (.ok _) => true
  | _ => false

variable {stage : InvocationStage}

theorem success_of_callee {k : Nat} (h : stage.callee = some k) : stage.success = none := by
  cases stage with
  | awaiting | calling => rfl
  | _ => cases h

/-- A call that is open or placed waits for no other call. -/
theorem callee_of_isOpen (h : stage.isOpen = true) :
    stage.callee = none ∧ stage.success = none := by
  cases stage with
  | forward | broadcastSync | appending => exact ⟨rfl, rfl⟩
  | _ => cases h

theorem callee_of_isPlaced (h : stage.isPlaced = true) :
    stage.callee = none ∧ stage.success ≠ some false := by
  cases stage with
  | waiting => exact ⟨rfl, by simp [success]⟩
  | returned result =>
    cases result with
    | ok => exact ⟨rfl, by simp [success]⟩
    | error => cases h
  | _ => cases h

end InvocationStage

/-- The message of a client that calls `Forward` or `BroadcastSync`. -/
def ServiceAction.invoked : ServiceAction n → Option Message
  | .invokeForward _ m => some m
  | .invokeBroadcastSync _ m => some m
  | _ => none

/-- The message of a call that is given up: its time is over, or its RPC fails although the call on
the other node has returned no error. -/
def ServiceAction.givenUp (s : Service n σ) : ServiceAction n → Option Message
  | .call id .timeout => s.calls[id]?.map Invocation.message
  | .call id (.fail _) => s.calls[id]?.bind fun call ↦
      if (call.stage.callee.bind (s.calls[·]?)).any (·.stage.success = some false) then none
      else some call.message
  | _ => none

namespace Service

variable {s s' s'' : Service n σ} {a : ServiceAction n} {token : String} {id root : Nat}
  {call : Invocation n}

/-! ## The calls for a token -/

/-- The call with the number `k`, which is for the token. -/
def Carries (token : String) (s : Service n σ) (k : Nat) (c : Invocation n) : Prop :=
  s.calls[k]? = some c ∧ c.message.idempotencyToken = token

/-- No client calls with the token, and no call for it is given up. -/
def Patient (token : String) (s : Service n σ) (a : ServiceAction n) : Prop :=
  (∀ m ∈ a.invoked, m.idempotencyToken ≠ token) ∧ ∀ m ∈ a.givenUp s, m.idempotencyToken ≠ token
deriving Decidable

/-- Every call for the token has failed, and nothing was appended. -/
structure Quiet (token : String) (s : Service n σ) : Prop where
  failed : ∀ k c, Carries token s k c → c.stage.success = some false
  appended : ∀ d ∈ s.appended, d.2.idempotencyToken ≠ token

/-- The calls for the token that have not failed go back to the call `root`: another one is waited
for by an earlier one, or both were answered.  What was appended was appended by one of them. -/
structure Chain (token : String) (root : Nat) (s : Service n σ) : Prop where
  caller : ∀ k c, Carries token s k c → c.stage.success ≠ some false → k ≠ root →
    ∃ i p, i < k ∧ Carries token s i p ∧ (p.stage.callee = some k ∨
      p.stage.success = some true ∧ c.stage.success = some true)
  placed : ∀ d ∈ s.appended, d.2.idempotencyToken = token →
    ∃ k c, Carries token s k c ∧ c.stage.isPlaced = true

theorem Carries.unique {k : Nat} {c d : Invocation n} (h : Carries token s k c)
    (hd : s.calls[k]? = some d) : c = d :=
  Option.some.inj (h.1.symm.trans hd)

namespace Chain

variable {k : Nat} {c : Invocation n}

/-- What has not failed has a root that has not failed, and that waits as long as it does. -/
theorem root_spec (h : Chain token root s) (hc : Carries token s k c)
    (hok : c.stage.success ≠ some false) :
    root ≤ k ∧ ∃ r, Carries token s root r ∧ r.stage.success ≠ some false ∧
      (c.stage.success = none → r.stage.success = none) := by
  induction k using Nat.strong_induction_on generalizing c with
  | h k ih =>
    by_cases hroot : k = root
    · subst hroot
      exact ⟨le_rfl, c, hc, hok, fun h ↦ h⟩
    obtain ⟨i, p, hlt, hp, hcallee | ⟨hanswered, hanswered'⟩⟩ := h.caller k c hc hok hroot
    · have hlive := InvocationStage.success_of_callee hcallee
      obtain ⟨hle, r, hr, hrok, hwaits⟩ := ih i hlt hp (by simp [hlive])
      exact ⟨by omega, r, hr, hrok, fun _ ↦ hwaits hlive⟩
    · obtain ⟨hle, r, hr, hrok, -⟩ := ih i hlt hp (by simp [hanswered])
      exact ⟨by omega, r, hr, hrok, fun hlive ↦ by simp [hlive] at hanswered'⟩

/-- Of two calls that have not returned the earlier one waits for one that has not returned. -/
theorem waits_of_lt (h : Chain token root s) {i : Nat} {p : Invocation n}
    (hp : Carries token s i p) (hc : Carries token s k c) (hlt : i < k)
    (hlive : p.stage.success = none) (hlive' : c.stage.success = none) :
    ∃ j d, j ≤ k ∧ p.stage.callee = some j ∧ Carries token s j d ∧ d.stage.success = none := by
  induction k using Nat.strong_induction_on generalizing i p c with
  | h k ih =>
    have hroot := (h.root_spec hp (by simp [hlive])).1
    obtain ⟨j, d, hjk, hd, hcallee | ⟨-, hanswered⟩⟩ :=
      h.caller k c hc (by simp [hlive']) (by omega)
    · have hd' := InvocationStage.success_of_callee hcallee
      rcases Nat.lt_trichotomy i j with hij | rfl | hji
      · obtain ⟨m, e, hle, hm⟩ := ih j hjk hp hd hij hlive hd'
        exact ⟨m, e, by omega, hm⟩
      · cases hp.unique hd.1
        exact ⟨k, c, le_rfl, hcallee, hc, hlive'⟩
      · -- the caller of `k` waits for `k`, so for nothing before it
        obtain ⟨m, e, hle, hm, -⟩ := ih i hlt hd hp hji hd' hlive
        cases hcallee.symm.trans hm
        omega
    · simp [hlive'] at hanswered

/-- Beside an answered call the root is answered, or a call waits for an answered one. -/
theorem answered_spec (h : Chain token root s) (hc : Carries token s k c)
    (hanswered : c.stage.success = some true) :
    (∃ r, Carries token s root r ∧ r.stage.success = some true) ∨
      ∃ i j p d, Carries token s i p ∧ p.stage.callee = some j ∧ Carries token s j d ∧
        d.stage.success = some true := by
  induction k using Nat.strong_induction_on generalizing c with
  | h k ih =>
    by_cases hroot : k = root
    · subst hroot
      exact Or.inl ⟨c, hc, hanswered⟩
    obtain ⟨i, p, hlt, hp, hcallee | ⟨hp', -⟩⟩ := h.caller k c hc (by simp [hanswered]) hroot
    · exact Or.inr ⟨i, k, p, c, hp, hcallee, hc, hanswered⟩
    · exact ih i hlt hp hp'

/-- Beside a call that has not returned and waits for nothing, or for a call that has failed, there
are failed calls and calls that wait for others. -/
theorem callee_of_ne (h : Chain token root s) (hcall : Carries token s id call)
    (hlive : call.stage.success = none)
    (hlast : ∀ j d, call.stage.callee = some j → Carries token s j d →
      d.stage.success = some false)
    (hc : Carries token s k c) (hok : c.stage.success ≠ some false) (hne : k ≠ id) :
    c.stage.callee ≠ none := by
  -- no call after this one, and none that it waits for, is still at work
  have hafter {j : Nat} {d : Invocation n} (hd : Carries token s j d)
      (hd' : d.stage.success = none) : ¬ id < j := by
    intro hlt
    obtain ⟨m, e, -, hm, he, he'⟩ := h.waits_of_lt hcall hd hlt hlive hd'
    simp [hlast m e hm he] at he'
  cases hs : c.stage.success with
  | none =>
    have hlt : k < id := by
      have := hafter hc hs
      omega
    obtain ⟨m, e, -, hm, -⟩ := h.waits_of_lt hc hcall hlt hs hlive
    simp [hm]
  | some ok =>
    obtain rfl : ok = true := by simpa [hs] using hok
    rcases h.answered_spec hc hs with ⟨r, hr, hr'⟩ | ⟨i, j, p, d, hp, hcallee, hd, hd'⟩
    · obtain ⟨-, r', hr'', -, hwaits⟩ := h.root_spec hcall (by simp [hlive])
      cases hr.unique hr''.1
      simp [hwaits hlive] at hr'
    · have hp' := InvocationStage.success_of_callee hcallee
      rcases Nat.lt_trichotomy i id with hlt | rfl | hlt
      · obtain ⟨m, e, -, hm, he, he'⟩ := h.waits_of_lt hp hcall hlt hp' hlive
        cases hcallee.symm.trans hm
        cases he.unique hd.1
        simp [hd'] at he'
      · cases hp.unique hcall.1
        simp [hlast j d hcallee hd] at hd'
      · exact absurd hlt (hafter hp hp')

/-- So nothing was appended yet. -/
theorem not_placed (h : Chain token root s) (hcall : Carries token s id call)
    (hlive : call.stage.success = none) (hplaced : call.stage.isPlaced = false)
    (hlast : ∀ j d, call.stage.callee = some j → Carries token s j d →
      d.stage.success = some false) : ∀ d ∈ s.appended, d.2.idempotencyToken ≠ token := by
  intro d hd htoken
  obtain ⟨k, c, hc, hc'⟩ := h.placed d hd htoken
  by_cases hne : k = id
  · subst hne
    cases hc.unique hcall.1
    simp [hplaced] at hc'
  · obtain ⟨hnone, hok⟩ := InvocationStage.callee_of_isPlaced hc'
    exact h.callee_of_ne hcall hlive hlast hc hok hne hnone

/-- When the root has failed, nothing is left. -/
theorem quiet (h : Chain token root s) {r : Invocation n} (hr : s.calls[root]? = some r)
    (hfailed : r.stage.success = some false) : Quiet token s := by
  have hall : ∀ k c, Carries token s k c → c.stage.success = some false := by
    intro k c hc
    by_contra hok
    obtain ⟨-, r', hr', hrok, -⟩ := h.root_spec hc hok
    cases hr'.unique hr
    exact hrok hfailed
  refine ⟨hall, fun d hd htoken ↦ ?_⟩
  obtain ⟨k, c, hc, hplaced⟩ := h.placed d hd htoken
  exact (InvocationStage.callee_of_isPlaced hplaced).2 (hall k c hc)

/-- When the root has returned, every call has. -/
theorem returned (h : Chain token root s) {r : Invocation n} (hr : s.calls[root]? = some r)
    (hreturned : r.stage.success ≠ none) (hc : Carries token s k c) : c.stage.success ≠ none := by
  intro hlive
  obtain ⟨-, r', hr', -, hwaits⟩ := h.root_spec hc (by simp [hlive])
  cases hr'.unique hr
  exact hreturned (hwaits hlive)

/-! ## Steps of the calls -/

/-- One call goes on, and may make others. -/
theorem update (h : Chain token root s) (hcall : Carries token s id call)
    (hlive : call.stage.success = none) {stage : InvocationStage} (news : List (Invocation n))
    (hcalls : s'.calls = (s.calls ++ news).set id { call with stage := stage })
    (hwaited : ∀ j d, call.stage.callee = some j → Carries token s j d →
      d.stage.success ≠ some false →
        stage.callee = some j ∨ stage.success = some true ∧ d.stage.success = some true)
    (hnews : ∀ k c, news[k]? = some c → ∃ i p, i < s.calls.length + k ∧
      s'.calls[i]? = some p ∧ p.message.idempotencyToken = token ∧
        p.stage.callee = some (s.calls.length + k))
    (hplaced : ∀ d ∈ s'.appended, d.2.idempotencyToken = token → stage.isPlaced = true ∨
      call.stage.isPlaced = false ∧ d ∈ s.appended) : Chain token root s' := by
  have hlt := (List.getElem?_eq_some_iff.mp hcall.1).1
  have hself : Carries token s' id { call with stage := stage } := by
    refine ⟨?_, hcall.2⟩
    rw [hcalls, List.getElem?_set_self (by rw [List.length_append]; omega)]
  have hkept {k : Nat} {c : Invocation n} (hc : Carries token s k c) (hne : k ≠ id) :
      Carries token s' k c := by
    refine ⟨?_, hc.2⟩
    have hk := (List.getElem?_eq_some_iff.mp hc.1).1
    rw [hcalls, List.getElem?_set_ne hne.symm, List.getElem?_append_left hk]
    exact hc.1
  constructor
  · intro k c hc hok hroot
    by_cases hid : k = id
    · -- whoever waits for the call still does
      subst hid
      cases hc.unique hself.1
      obtain ⟨i, p, hik, hp, hcallee | ⟨-, hanswered⟩⟩ :=
        h.caller k call hcall (by simp [hlive]) hroot
      · exact ⟨i, p, hik, hkept hp (by omega), Or.inl hcallee⟩
      · simp [hlive] at hanswered
    have hk := hc.1
    rw [hcalls, List.getElem?_set_ne (Ne.symm hid)] at hk
    rcases Nat.lt_or_ge k s.calls.length with hold | hnew
    · rw [List.getElem?_append_left hold] at hk
      obtain ⟨i, p, hik, hp, hwhy⟩ := h.caller k c ⟨hk, hc.2⟩ hok hroot
      by_cases hi : i = id
      · subst hi
        cases hp.unique hcall.1
        refine ⟨i, _, hik, hself, ?_⟩
        rcases hwhy with hcallee | ⟨hanswered, -⟩
        · exact hwaited k c hcallee ⟨hk, hc.2⟩ hok
        · simp [hlive] at hanswered
      · exact ⟨i, p, hik, hkept hp hi, hwhy⟩
    · rw [List.getElem?_append_right hnew] at hk
      obtain ⟨i, p, hi, hp, htoken, hcallee⟩ := hnews _ c hk
      rw [show s.calls.length + (k - s.calls.length) = k by omega] at hi hcallee
      exact ⟨i, p, hi, ⟨hp, htoken⟩, Or.inl hcallee⟩
  · intro d hd htoken
    rcases hplaced d hd htoken with hstage | ⟨hfree, hold⟩
    · exact ⟨id, _, hself, hstage⟩
    · obtain ⟨k, c, hc, hc'⟩ := h.placed d hold htoken
      refine ⟨k, c, hkept hc ?_, hc'⟩
      rintro rfl
      cases hc.unique hcall.1
      simp [hfree] at hc'

/-- A call goes on by itself. -/
theorem resume (h : Chain token root s) (hcall : Carries token s id call)
    (hlive : call.stage.success = none) {stage : InvocationStage}
    (hcalls : s'.calls = s.calls.set id { call with stage := stage })
    (happended : s'.appended = s.appended)
    (hwaited : ∀ j d, call.stage.callee = some j → Carries token s j d →
      d.stage.success ≠ some false → stage.success = some true ∧ d.stage.success = some true)
    (hplaced : call.stage.isPlaced = true → stage.isPlaced = true) : Chain token root s' := by
  refine h.update hcall hlive [] (by rwa [List.append_nil])
    (fun j d hj hd hok ↦ Or.inr (hwaited j d hj hd hok)) (fun k c hc ↦ by cases hc) ?_
  intro d hd _
  cases hs : call.stage.isPlaced with
  | true => exact Or.inl (hplaced hs)
  | false => exact Or.inr ⟨rfl, happended ▸ hd⟩

end Chain

variable {b : CallAction} {ms : List Message}

/-- An error is not the end of a call that has appended, or waits for one that may. -/
theorem failsBy_spec (hpatient : s.Patient token (.call id b)) (hcall : Carries token s id call)
    (hfails : s.failsBy call b) :
    call.stage.isPlaced = false ∧ ∀ j d, call.stage.callee = some j → Carries token s j d →
      d.stage.success = some false := by
  have hcallee {k : Nat} (h : call.stage.callee = some k) : call.stage.isPlaced = false := by
    by_contra hplaced
    simp [(InvocationStage.callee_of_isPlaced (by simpa using hplaced)).1] at h
  have hgivenUp (h : call.message ∈ (ServiceAction.call id b : ServiceAction n).givenUp s) :
      False := hpatient.2 _ h hcall.2
  have hother {k : Nat} {other : Invocation n} (hk : call.stage.callee = some k)
      (hother : s.calls[k]? = some other) (hfailed : other.stage.success = some false) :
      ∀ j d, call.stage.callee = some j → Carries token s j d → d.stage.success = some false := by
    intro j d hj hd
    cases hk.symm.trans hj
    rwa [hd.unique hother]
  cases b with
  | testForward | testBroadcast =>
    rw [show call.stage = _ from hfails]
    exact ⟨rfl, fun j d hj ↦ by cases hj⟩
  | timeout => exact (hgivenUp (Option.map_eq_some_iff.mpr ⟨call, hcall.1, rfl⟩)).elim
  | collect | reply =>
    obtain ⟨k, other, error, hk, hk', hstage⟩ := hfails
    exact ⟨hcallee hk, hother hk hk' (by rw [hstage]; rfl)⟩
  | fail error =>
    obtain ⟨k, hk⟩ := Option.isSome_iff_exists.mp hfails
    refine ⟨hcallee hk, ?_⟩
    cases hk' : s.calls[k]? with
    | none =>
      intro j d hj hd
      cases hk.symm.trans hj
      cases hk'.symm.trans hd.1
    | some other =>
      refine hother hk hk' ?_
      by_contra hok
      exact hgivenUp (Option.bind_eq_some_iff.mpr ⟨call, hcall.1, by simp [hk, hk', hok]⟩)
  | append | respond => cases hfails

theorem CallCase.live (h : CallCase app s id call b s') : call.stage.success = none := by
  have hfails (h : s.failsBy call b) : call.stage.success = none := by
    cases b with
    | testForward | testBroadcast =>
      rw [show call.stage = _ from h]
      rfl
    | timeout =>
      cases hs : call.stage with
      | returned result => exact absurd hs (h result)
      | _ => rfl
    | collect | reply =>
      obtain ⟨k, -, -, hk, -⟩ := h
      exact InvocationStage.success_of_callee hk
    | fail error =>
      obtain ⟨k, hk⟩ := Option.isSome_iff_exists.mp h
      exact InvocationStage.success_of_callee hk
    | append | respond => cases h
  cases h with
  | failed error h | again peer h => exact hfails h
  | leads hstage | forwarded peer hstage | spawned peer hstage | admitted hstage
  | appended hstage | responded hstage | collected hstage | replied hstage =>
    rw [hstage]
    rfl

theorem Chain.stepCall (h : Chain token root s) (hpatient : s.Patient token (.call id b))
    (hcall : Carries token s id call) (hcase : CallCase app s id call b s') :
    Chain token root s' := by
  have hlive := hcase.live
  -- the call that is passed on, and the one that is made for it
  have hforwardTo (peer : Fin n) (hplaced : call.stage.isPlaced = false)
      (hlast : ∀ j d, call.stage.callee = some j → Carries token s j d →
        d.stage.success = some false) : Chain token root (s.forwardTo id call peer) := by
    refine h.update hcall hlive [⟨peer, call.message.wire, .forward⟩] rfl
      (fun j d hj hd hok ↦ absurd (hlast j d hj hd) hok) ?_ fun d hd _ ↦ Or.inr ⟨hplaced, hd⟩
    intro k c hc
    have hlt := (List.getElem?_eq_some_iff.mp hcall.1).1
    obtain ⟨hk, -⟩ := List.getElem?_eq_some_iff.mp hc
    obtain rfl : k = 0 := by simpa using hk
    refine ⟨id, _, by omega, List.getElem?_set_self ?_, hcall.2, rfl⟩
    simp only [invoke, List.length_append, List.length_singleton]
    omega
  cases hcase with
  | leads hstage | admitted hstage =>
    exact h.resume hcall hlive rfl rfl (by simp [hstage, InvocationStage.callee])
      (by simp [hstage, InvocationStage.isPlaced])
  | failed error hfails =>
    obtain ⟨hplaced, hlast⟩ := failsBy_spec hpatient hcall hfails
    exact h.resume hcall hlive rfl rfl (fun j d hj hd hok ↦ absurd (hlast j d hj hd) hok)
      (by simp [hplaced])
  | forwarded peer hstage =>
    exact hforwardTo peer (by rw [hstage]; rfl) (by simp [hstage, InvocationStage.callee])
  | again peer hfails =>
    obtain ⟨hplaced, hlast⟩ := failsBy_spec hpatient hcall hfails
    exact hforwardTo peer hplaced hlast
  | spawned peer hstage =>
    let goroutine : Invocation n := ⟨call.node, call.message, .calling (s.calls.length + 1) true⟩
    have hcalls : (s.forwardToLeader id call peer).calls =
        (s.calls ++ [goroutine, ⟨peer, call.message.wire, .forward⟩]).set id
          { call with stage := .awaiting s.calls.length } := by
      simp [forwardToLeader, Service.resume, invoke, goroutine]
    refine h.update hcall hlive _ hcalls (by simp [hstage, InvocationStage.callee]) ?_
      fun d hd _ ↦ Or.inr ⟨by rw [hstage]; rfl, hd⟩
    intro k c hc
    have hlt := (List.getElem?_eq_some_iff.mp hcall.1).1
    obtain rfl | rfl : k = 0 ∨ k = 1 := by
      have := (List.getElem?_eq_some_iff.mp hc).1
      simp only [List.length_cons, List.length_nil] at this
      omega
    · refine ⟨id, { call with stage := .awaiting s.calls.length }, by omega, ?_, hcall.2, rfl⟩
      rw [hcalls, List.getElem?_set_self (by rw [List.length_append]; omega)]
    · refine ⟨s.calls.length, goroutine, by omega, ?_, hcall.2, rfl⟩
      rw [hcalls, List.getElem?_set_ne (by omega), List.getElem?_append_right le_rfl, Nat.sub_self]
      rfl
  | appended hstage hc =>
    refine h.update hcall hlive [] (by rw [List.append_nil]; rfl)
      (by simp [hstage, InvocationStage.callee]) (fun k c hc ↦ by cases hc)
      fun _ _ _ ↦ Or.inl rfl
  | responded hstage =>
    exact h.resume hcall hlive rfl rfl (by simp [hstage, InvocationStage.callee]) fun _ ↦ rfl
  | collected hstage hother hreturned | replied hstage hother hreturned =>
    refine h.resume hcall hlive rfl rfl (fun j d hj hd _ ↦ ?_) fun _ ↦ rfl
    rw [hstage] at hj
    cases hj
    rw [hd.unique hother, hreturned]
    exact ⟨rfl, rfl⟩

/-! ## Steps of other calls -/

/-- The calls for the token and the entries with it are the same. -/
structure Alike (token : String) (s s' : Service n σ) : Prop where
  calls : ∀ k c, Carries token s' k c ↔ Carries token s k c
  appended : ∀ d : Delivery, d.2.idempotencyToken = token → (d ∈ s'.appended ↔ d ∈ s.appended)

namespace Alike

theorem trans (h : Alike token s s') (h' : Alike token s' s'') : Alike token s s'' :=
  ⟨fun k c ↦ (h'.calls k c).trans (h.calls k c),
    fun d hd ↦ (h'.appended d hd).trans (h.appended d hd)⟩

theorem quiet (h : Alike token s s') (hquiet : Quiet token s) : Quiet token s' :=
  ⟨fun k c hc ↦ hquiet.failed k c ((h.calls k c).mp hc),
    fun d hd htoken ↦ hquiet.appended d ((h.appended d htoken).mp hd) htoken⟩

theorem chain (h : Alike token s s') (hchain : Chain token root s) : Chain token root s' where
  caller k c hc hok hroot := by
    obtain ⟨i, p, hlt, hp, hwhy⟩ := hchain.caller k c ((h.calls k c).mp hc) hok hroot
    exact ⟨i, p, hlt, (h.calls i p).mpr hp, hwhy⟩
  placed d hd htoken := by
    obtain ⟨k, c, hc, hplaced⟩ := hchain.placed d ((h.appended d htoken).mp hd) htoken
    exact ⟨k, c, (h.calls k c).mpr hc, hplaced⟩

end Alike

theorem alike_invoke (s : Service n σ) (call : Invocation n)
    (hother : call.message.idempotencyToken ≠ token) : Alike token s (s.invoke call) := by
  refine ⟨fun k c ↦ and_congr_left fun htoken ↦ ?_, fun _ _ ↦ Iff.rfl⟩
  rw [invoke, List.getElem?_append]
  split
  · rfl
  · rename_i hge
    rw [List.getElem?_eq_none (l := s.calls) (by omega)]
    refine iff_of_false (fun h ↦ hother ?_) (by simp)
    rwa [List.mem_singleton.mp (List.mem_of_getElem? h)] at htoken

theorem alike_resume (hcall : s.calls[id]? = some call)
    (hother : call.message.idempotencyToken ≠ token) (stage : InvocationStage) :
    Alike token s (s.resume id call stage) := by
  refine ⟨fun k c ↦ and_congr_left fun htoken ↦ ?_, fun _ _ ↦ Iff.rfl⟩
  by_cases hk : k = id
  · subst hk
    rw [resume, List.getElem?_set_self (List.getElem?_eq_some_iff.mp hcall).1, hcall]
    refine iff_of_false ?_ ?_ <;>
    · intro h
      cases h
      exact hother htoken
  · rw [resume, List.getElem?_set_ne (Ne.symm hk)]

theorem getElem?_invoke (hcall : s.calls[id]? = some call) (other : Invocation n) :
    (s.invoke other).calls[id]? = some call := by
  have hlt := (List.getElem?_eq_some_iff.mp hcall).1
  rw [invoke, List.getElem?_append_left hlt, hcall]

theorem alike_stepCall (hcall : s.calls[id]? = some call)
    (hother : call.message.idempotencyToken ≠ token) (hcase : CallCase app s id call b s') :
    Alike token s s' := by
  cases hcase with
  | forwarded peer | again peer =>
    exact .trans (alike_invoke s ⟨peer, call.message.wire, .forward⟩ hother)
      (alike_resume (getElem?_invoke hcall _) hother _)
  | spawned peer =>
    have hspawned := alike_invoke s
      ⟨call.node, call.message, .calling (s.calls.length + 1) true⟩ hother
    exact .trans (hspawned.trans (alike_invoke _ ⟨peer, call.message.wire, .forward⟩ hother))
      (alike_resume (getElem?_invoke (getElem?_invoke hcall _) _) hother _)
  | appended hstage hc =>
    refine ⟨(alike_resume hcall hother _).calls, fun d hd ↦ List.mem_append.trans (or_iff_left ?_)⟩
    intro hnew
    rw [List.mem_singleton.mp hnew] at hd
    exact hother hd
  | leads | failed | admitted | responded | collected | replied =>
    exact ⟨(alike_resume hcall hother _).calls, fun _ _ ↦ Iff.rfl⟩

/-- A step is one of a call for the token, or it does not bear on the token. -/
theorem step_token (hstep : s.step app a = some s')
    (hinvoked : ∀ m ∈ a.invoked, m.idempotencyToken ≠ token) :
    Alike token s s' ∨ ∃ id call b, a = .call id b ∧ Carries token s id call ∧
      CallCase app s id call b s' := by
  cases step_cases hstep with
  | raft | invokeGet => exact Or.inl ⟨fun _ _ ↦ Iff.rfl, fun _ _ ↦ Iff.rfl⟩
  | invokeForward i m | invokeBroadcastSync i m => exact Or.inl (alike_invoke s _ (hinvoked m rfl))
  | get hcall hcase =>
    rw [hcase.leaves]
    exact Or.inl ⟨fun _ _ ↦ Iff.rfl, fun _ _ ↦ Iff.rfl⟩
  | @call k call b s' hcall hcase =>
    by_cases htoken : call.message.idempotencyToken = token
    · exact Or.inr ⟨k, call, b, rfl, ⟨hcall, htoken⟩, hcase⟩
    · exact Or.inl (alike_stepCall hcall htoken hcase)

theorem Chain.step (h : Chain token root s) (hpatient : s.Patient token a)
    (hstep : s.step app a = some s') : Chain token root s' := by
  rcases step_token hstep hpatient.1 with hlike | ⟨id, call, b, rfl, hcall, hcase⟩
  · exact hlike.chain h
  · exact h.stepCall hpatient hcall hcase

/-- Calls that have returned do nothing any more. -/
theorem alike_of_returned (h : ∀ k c, Carries token s k c → c.stage.success ≠ none)
    (hpatient : s.Patient token a) (hstep : s.step app a = some s') : Alike token s s' := by
  rcases step_token hstep hpatient.1 with hlike | ⟨id, call, b, -, hcall, hcase⟩
  · exact hlike
  · exact absurd hcase.live (h id call hcall)

/-- The first call after calls that have all failed. -/
theorem Quiet.invoke (h : Quiet token s) (call : Invocation n) :
    Chain token s.calls.length (s.invoke call) := by
  refine ⟨fun k c hc hok hroot ↦ ?_, fun d hd hd' ↦ absurd hd' (h.appended d hd)⟩
  have hlt := (List.getElem?_eq_some_iff.mp hc.1).1
  rw [Service.invoke, List.length_append, List.length_singleton] at hlt
  have hold := hc.1
  rw [Service.invoke, List.getElem?_append_left (by omega)] at hold
  exact absurd (h.failed k c ⟨hold, hc.2⟩) hok

/-! ## Evidence -/

/-- Calls keep their messages, and nothing that was appended or delivered is forgotten. -/
structure Extends (s s' : Service n σ) : Prop where
  calls : ∀ (k : Nat) (c : Invocation n), s.calls[k]? = some c →
    ∃ c', s'.calls[k]? = some c' ∧ c'.message = c.message
  appended : s.appended <+: s'.appended
  history : s.cluster.history <+: s'.cluster.history

theorem Extends.refl (s : Service n σ) : Extends s s :=
  ⟨fun _ c hc ↦ ⟨c, hc, rfl⟩, List.prefix_refl _, List.prefix_refl _⟩

theorem Extends.trans (h : Extends s s') (h' : Extends s' s'') : Extends s s'' where
  calls k c hc := by
    obtain ⟨c', hc', heq⟩ := h.calls k c hc
    obtain ⟨c'', hc'', heq'⟩ := h'.calls k c' hc'
    exact ⟨c'', hc'', heq'.trans heq⟩
  appended := h.appended.trans h'.appended
  history := h.history.trans h'.history

theorem extends_invoke (s : Service n σ) (call : Invocation n) : Extends s (s.invoke call) :=
  ⟨fun _ c hc ↦ ⟨c, getElem?_invoke hc call, rfl⟩, List.prefix_refl _, List.prefix_refl _⟩

theorem extends_resume (hcall : s.calls[id]? = some call) (stage : InvocationStage) :
    Extends s (s.resume id call stage) := by
  refine ⟨fun k c hc ↦ ?_, List.prefix_refl _, List.prefix_refl _⟩
  rw [resume, List.getElem?_set]
  split
  · rename_i heq
    subst heq
    rw [hcall] at hc
    cases hc
    exact ⟨_, if_pos (List.getElem?_eq_some_iff.mp hcall).1, rfl⟩
  · exact ⟨c, hc, rfl⟩

theorem history_grows {c c' : Cluster n σ} {x : Fin n × Action n}
    (h : Cluster.step app c x = some c') : c.history <+: c'.history := by
  obtain ⟨-, -, e, -, rfl⟩ := Cluster.step_cases h
  rw [Config.apply_history]
  exact List.prefix_append _ _

theorem extends_forwardTo (hcall : s.calls[id]? = some call) (peer : Fin n) :
    Extends s (s.forwardTo id call peer) :=
  (extends_invoke s _).trans (extends_resume (getElem?_invoke hcall _) _)

theorem extends_forwardToLeader (hcall : s.calls[id]? = some call) (peer : Fin n) :
    Extends s (s.forwardToLeader id call peer) :=
  ((extends_invoke s _).trans (extends_invoke _ _)).trans
    (extends_resume (getElem?_invoke (getElem?_invoke hcall _) _) _)

/-- The cluster moves on while the calls stay. -/
def moveOn (s : Service n σ) (c : Cluster n σ) (appended : List Delivery) : Service n σ :=
  { s with cluster := c, appended := appended }

theorem extends_moveOn {c : Cluster n σ} {x : Fin n × Action n} {appended : List Delivery}
    (h : Cluster.step app s.cluster x = some c) (hgrows : s.appended <+: appended) :
    Extends s (s.moveOn c appended) :=
  ⟨fun _ c hc ↦ ⟨c, hc, rfl⟩, hgrows, history_grows h⟩

theorem extends_stepCall (hcall : s.calls[id]? = some call) (hcase : CallCase app s id call b s') :
    Extends s s' := by
  cases hcase with
  | forwarded peer | again peer => exact extends_forwardTo hcall peer
  | spawned peer => exact extends_forwardToLeader hcall peer
  | @admitted connected c hstage hrole hc =>
    exact (extends_moveOn hc (List.prefix_refl _)).trans
      (extends_resume (s := s.moveOn c s.appended) hcall _)
  | @appended c hstage hc =>
    exact (extends_moveOn hc (List.prefix_append _ _)).trans
      (extends_resume (s := s.moveOn c _) hcall _)
  | leads | failed | responded | collected | replied => exact extends_resume hcall _

theorem extends_step (hstep : s.step app a = some s') : Extends s s' := by
  cases step_cases hstep with
  | raft hplain hc => exact extends_moveOn hc (List.prefix_refl _)
  | invokeForward | invokeBroadcastSync => exact extends_invoke s _
  | invokeGet => exact ⟨fun _ c hc ↦ ⟨c, hc, rfl⟩, List.prefix_refl _, List.prefix_refl _⟩
  | get hcall hcase =>
    rw [hcase.leaves]
    exact ⟨fun _ c hc ↦ ⟨c, hc, rfl⟩, List.prefix_refl _, List.prefix_refl _⟩
  | call hcall hcase => exact extends_stepCall hcall hcase

/-! ## Messages -/

theorem messages_invoke (call : Invocation n) (h : ∀ c ∈ s.calls, c.message ∈ ms)
    (hcall : call.message ∈ ms) : ∀ c ∈ (s.invoke call).calls, c.message ∈ ms := by
  intro c hc
  rcases List.mem_append.mp hc with hold | hnew
  · exact h c hold
  · rwa [List.mem_singleton.mp hnew]

theorem messages_resume (h : ∀ c ∈ s.calls, c.message ∈ ms) (hcall : call.message ∈ ms)
    (stage : InvocationStage) : ∀ c ∈ (s.resume id call stage).calls, c.message ∈ ms := by
  intro c hc
  rcases List.mem_or_eq_of_mem_set hc with hold | rfl
  · exact h c hold
  · exact hcall

/-- Unless a client comes in, every call is about a message that some call was about before. -/
theorem messages_step (hstep : s.step app a = some s') (hquiet : a.invoked = none)
    (hwire : ∀ m ∈ ms, m.wire = m) (h : ∀ c ∈ s.calls, c.message ∈ ms) :
    ∀ c ∈ s'.calls, c.message ∈ ms := by
  cases step_cases hstep with
  | invokeForward | invokeBroadcastSync => cases hquiet
  | raft | invokeGet => exact h
  | get hcall hcase =>
    rw [hcase.leaves]
    exact h
  | @call k call b s' hcall hcase =>
    have hmem := h call (List.mem_of_getElem? hcall)
    have hmem' : call.message.wire ∈ ms := by rwa [hwire _ hmem]
    cases hcase with
    | forwarded | again => exact messages_resume (messages_invoke _ h hmem') hmem _
    | spawned peer =>
      have hspawned := messages_invoke
        ⟨call.node, call.message, .calling (s.calls.length + 1) true⟩ h hmem
      exact messages_resume
        (messages_invoke ⟨peer, call.message.wire, .forward⟩ hspawned hmem') hmem _
    | leads | failed | admitted | appended | responded | collected | replied =>
      exact messages_resume h hmem _

/-- What a call has seen: its entry appended at one of the nodes `N`, or another call with the same
message, or, once it was answered, the delivery of its entry. -/
def Backed (N : Fin n → Prop) (s : Service n σ) (call : Invocation n) : Prop :=
  match call.stage with
  | .waiting position => N call.node ∧ (position, call.message) ∈ s.appended
  | .awaiting k => ∃ c, s.calls[k]? = some c ∧ c.message.wire = call.message.wire
  | .calling k _ => ∃ c, s.calls[k]? = some c ∧ c.message.wire = call.message.wire
  | .returned (.ok _) => ∃ i p m, N i ∧ (p, m) ∈ s.appended ∧
      .delivered i (p, m) ∈ s.cluster.history ∧ m.wire = call.message.wire
  | _ => True

variable {N : Fin n → Prop}

theorem Backed.mono (h : Backed N s call) (hext : Extends s s') : Backed N s' call := by
  obtain ⟨node, message, stage⟩ := call
  have hlookup {k : Nat} (hk : ∃ c, s.calls[k]? = some c ∧ c.message.wire = message.wire) :
      ∃ c, s'.calls[k]? = some c ∧ c.message.wire = message.wire := by
    obtain ⟨c, hc, hwire⟩ := hk
    obtain ⟨c', hc', heq⟩ := hext.calls k c hc
    exact ⟨c', hc', by rw [heq, hwire]⟩
  cases stage with
  | waiting position => exact ⟨h.1, hext.appended.subset h.2⟩
  | awaiting | calling => exact hlookup h
  | returned result =>
    cases result with
    | error => trivial
    | ok answer =>
      obtain ⟨i, p, m, hi, happ, hdel, hwire⟩ := h
      exact ⟨i, p, m, hi, hext.appended.subset happ, hext.history.subset hdel, hwire⟩
  | _ => trivial

/-- An answer that comes from another call rests on what that call rests on. -/
theorem Backed.passOn {other : Invocation n} {answer : Bool × Int} (h : Backed N s other)
    (hreturned : other.stage = .returned (.ok answer))
    (hwire : other.message.wire = call.message.wire) :
    Backed N s { call with stage := .returned (.ok answer) } := by
  unfold Backed at h
  rw [hreturned] at h
  obtain ⟨i, p, m, hi, happ, hdel, hm⟩ := h
  exact ⟨i, p, m, hi, happ, hdel, hm.trans hwire⟩

def Evidence (N : Fin n → Prop) (s : Service n σ) : Prop := ∀ call ∈ s.calls, Backed N s call

theorem Evidence.invoke (h : Evidence N s) (hback : Backed N (s.invoke call) call) :
    Evidence N (s.invoke call) := by
  intro c hc
  rcases List.mem_append.mp hc with hold | hnew
  · exact (h c hold).mono (extends_invoke s call)
  · rw [List.mem_singleton.mp hnew]
    exact hback

theorem Evidence.resume (h : Evidence N s) (hcall : s.calls[id]? = some call)
    {stage : InvocationStage} (hback : Backed N s { call with stage := stage }) :
    Evidence N (s.resume id call stage) := by
  intro c hc
  have hext := extends_resume hcall stage
  rcases List.mem_or_eq_of_mem_set hc with hold | rfl
  · exact (h c hold).mono hext
  · exact hback.mono hext

/-- A call returns the answer of the call that it has waited for. -/
theorem Evidence.passOn (h : Evidence N s) (hcall : s.calls[id]? = some call) {k : Nat}
    {other : Invocation n} {answer : Bool × Int}
    (hasks : ∃ c, s.calls[k]? = some c ∧ c.message.wire = call.message.wire)
    (hother : s.calls[k]? = some other) (hreturned : other.stage = .returned (.ok answer)) :
    Evidence N (s.resume id call (.returned (.ok answer))) := by
  obtain ⟨c, hc, hwire⟩ := hasks
  cases hother.symm.trans hc
  exact h.resume hcall ((h other (List.mem_of_getElem? hother)).passOn hreturned hwire)

theorem Evidence.extend (h : Evidence N s) (hcalls : s'.calls = s.calls) (hext : Extends s s') :
    Evidence N s' := by
  intro c hc
  rw [hcalls] at hc
  exact (h c hc).mono hext

theorem getElem?_invoke_length (s : Service n σ) (call : Invocation n) :
    (s.invoke call).calls[s.calls.length]? = some call := by
  simp [invoke]

theorem Evidence.forwardTo (h : Evidence N s) (hcall : s.calls[id]? = some call) (peer : Fin n) :
    Evidence N (s.forwardTo id call peer) := by
  have hinvoked : Evidence N (s.invoke ⟨peer, call.message.wire, .forward⟩) := h.invoke trivial
  refine hinvoked.resume (getElem?_invoke hcall _) ⟨_, getElem?_invoke_length s _, ?_⟩
  exact Message.wire_wire call.message

/-- The goroutine of `forwardToLeader` and its callee come into being together. -/
theorem Evidence.forwardToLeader (h : Evidence N s) (hcall : s.calls[id]? = some call)
    (peer : Fin n) : Evidence N (s.forwardToLeader id call peer) := by
  let goroutine : Invocation n := ⟨call.node, call.message, .calling (s.calls.length + 1) true⟩
  let callee : Invocation n := ⟨peer, call.message.wire, .forward⟩
  have hcallee : ((s.invoke goroutine).invoke callee).calls[s.calls.length + 1]? = some callee := by
    simp [Service.invoke]
  have hspawned : Evidence N ((s.invoke goroutine).invoke callee) := by
    intro c hc
    rcases List.mem_append.mp hc with hold | hnew
    · rcases List.mem_append.mp hold with hold | hnew
      · exact (h c hold).mono ((extends_invoke s _).trans (extends_invoke _ _))
      · rw [List.mem_singleton.mp hnew]
        exact ⟨callee, hcallee, Message.wire_wire call.message⟩
    · rw [List.mem_singleton.mp hnew]
      trivial
  refine hspawned.resume (getElem?_invoke (getElem?_invoke hcall _) _) ⟨goroutine, ?_, rfl⟩
  exact getElem?_invoke (getElem?_invoke_length s goroutine) callee

theorem Evidence.stepCall (h : Evidence N s) (hcall : s.calls[id]? = some call)
    (happend : b = .append → N call.node) (hcase : CallCase app s id call b s') :
    Evidence N s' := by
  have hback := h call (List.mem_of_getElem? hcall)
  cases hcase with
  | leads | failed => exact h.resume hcall trivial
  | forwarded peer | again peer => exact h.forwardTo hcall peer
  | spawned peer => exact h.forwardToLeader hcall peer
  | @admitted connected c hstage hrole hc =>
    have hmoved : Evidence N (s.moveOn c s.appended) :=
      h.extend rfl (extends_moveOn hc (List.prefix_refl _))
    exact hmoved.resume hcall trivial
  | @appended c hstage hc =>
    have hmoved : Evidence N
        (s.moveOn c (s.appended ++ [((s.raft call.node).absLength, call.message)])) :=
      h.extend rfl (extends_moveOn hc (List.prefix_append _ _))
    exact hmoved.resume hcall ⟨happend rfl, List.mem_append_right _ List.mem_cons_self⟩
  | @responded success value position hstage hdelivered =>
    unfold Backed at hback
    rw [hstage] at hback
    exact h.resume hcall ⟨call.node, position, call.message, hback.1, hback.2, hdelivered, rfl⟩
  | @collected k other answer hstage hother hreturned
  | @replied k again other answer hstage hother hreturned =>
    unfold Backed at hback
    rw [hstage] at hback
    exact h.passOn hcall hback hother hreturned

theorem Evidence.step (h : Evidence N s) (hstep : s.step app a = some s')
    (happend : ∀ k c, a = .call k .append → s.calls[k]? = some c → N c.node) : Evidence N s' := by
  have hext := extends_step hstep
  cases step_cases hstep with
  | raft | invokeGet => exact h.extend rfl hext
  | invokeForward | invokeBroadcastSync => exact h.invoke trivial
  | get hcall hcase => exact h.extend (by rw [hcase.leaves]) hext
  | @call k call b s' hcall hcase =>
    exact h.stepCall hcall (fun hb ↦ happend k call (by rw [hb]) hcall) hcase

/-! ## Appending -/

theorem appended_cases (hstep : s.step app a = some s') :
    s'.appended = s.appended ∨ ∃ k c, a = .call k .append ∧ s.calls[k]? = some c ∧
      c.stage = .appending ∧
      s'.appended = s.appended ++ [((s.raft c.node).absLength, c.message)] := by
  cases step_cases hstep with
  | raft | invokeForward | invokeBroadcastSync | invokeGet => exact Or.inl rfl
  | get hcall hcase =>
    rw [hcase.leaves]
    exact Or.inl rfl
  | @call k call b s' hcall hcase =>
    cases hcase with
    | appended hstage hc => exact Or.inr ⟨k, call, rfl, hcall, hstage, rfl⟩
    | leads | failed | forwarded | again | spawned | admitted | responded | collected | replied =>
      exact Or.inl rfl

end Service

end DistributedCache
