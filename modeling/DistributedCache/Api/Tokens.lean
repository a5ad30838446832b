import DistributedCache.Api.Server
import DistributedCache.Raft.Positions

/-!
# One entry for a token

The servers look for a token in their caches before they start to execute a request, and nothing
below them looks at it.  So a token is delivered by one entry as long as its requests come to one
server, one after another and while the cache has what was answered, no attempt for them is given
up, and entries keep their positions.
-/

namespace DistributedCache

open FiniteMap Transition

variable {n : Nat} {σ : Type} {sha256 : String → String} {app : Application σ} {s s' : Api n σ}
  {a : ApiAction n} {token : String} {server : Fin n}

/-! ## Conditions on runs -/

/-- The time at which the cache is asked. -/
def ApiAction.clock : ApiAction n → Option Int
  | .handlePut _ now _ _ => some now
  | .handleDelete _ now _ _ => some now
  | .cleanupExpired _ now => some now
  | _ => none

def ApiAction.serviceStep : ApiAction n → Option (ServiceAction n)
  | .service a => some a
  | _ => none

namespace Api

/-- The request with the number `k`, which has the token. -/
def Asks (token : String) (s : Api n σ) (k : Nat) (r : ApiRequest n) : Prop :=
  s.requests[k]? = some r ∧ r.message.idempotencyToken = token

/-- The requests with the token come to one server, one after another; its cache is asked before
the token expires; no attempt is given up. -/
def SentOnce (sha256 : String → String) (server : Fin n) (token : String) (s : Api n σ)
    (a : ApiAction n) : Prop :=
  (∀ w ∈ a.write sha256, w.2.2.idempotencyToken = token → w.1 = server ∧
      ∀ r ∈ s.requests, r.message.idempotencyToken = token → r.isOpen = false) ∧
    (∀ now ∈ a.clock, ∀ entry ∈ (s.idempotencyCache server).lookup token,
      now - entry.completedAt ≤ IdempotencyCache.ttl) ∧
    ∀ b ∈ a.serviceStep, s.service.Patient token b
deriving Decidable

/-- The same conditions, and the steps of the cluster leave entries at their positions. -/
def KeepsOne (sha256 : String → String) (server : Fin n) (token : String) (s : Api n σ)
    (a : ApiAction n) : Prop :=
  s.SentOnce sha256 server token a ∧ ∀ b ∈ a.serviceStep, s.service.Keeps PlacesKept b
deriving Decidable

/-! ## The requests for a token -/

/-- A request with the token was executed, and the cache knows it. -/
def Done (server : Fin n) (token : String) (s : Api n σ) : Prop :=
  (∀ k c, Service.Carries token s.service k c → c.stage.success ≠ none) ∧
    ∃ entry, (s.idempotencyCache server).lookup token = some entry

/-- How far the calls for the token have come, by the stage of the last request. -/
def Follows (server : Fin n) (token : String) (s : Api n σ) : ApiStage → Prop
  | .executing _ root => s.service.Chain token root
  | .backoff _ _ => s.service.Quiet token
  | .answered _ => s.service.Quiet token ∨ s.Done server token

/-- One request with the token is open at a time, and at most one entry was appended. -/
structure Once (server : Fin n) (token : String) (s : Api n σ) : Prop where
  node : ∀ k r, s.Asks token k r → r.node = server
  alone : ∀ j k r r', s.Asks token j r → s.Asks token k r' → r.isOpen = true →
    r'.isOpen = true → j = k
  working : ∀ k r, s.Asks token k r → r.isOpen = true → s.Follows server token r.stage
  resting : (∀ k r, s.Asks token k r → r.isOpen = false) →
    s.service.Quiet token ∨ s.Done server token
  single : ∀ d ∈ s.service.appended, ∀ d' ∈ s.service.appended,
    d.2.idempotencyToken = token → d'.2.idempotencyToken = token → d = d'

theorem clock_of_write {i : Fin n} {now : Int} {m : Message}
    (hwrite : a.write sha256 = some (i, now, m)) : a.clock = some now := by
  cases a with
  | handlePut | handleDelete =>
    cases hwrite
    rfl
  | _ => cases hwrite

namespace Once

variable {k : Nat} {req r : ApiRequest n}

/-- Beside an open call nothing with its token was appended. -/
theorem not_appended_of_open (h : s.Once server token) {c : Invocation n}
    (hc : Service.Carries token s.service k c) (hopen : c.stage.isOpen = true) :
    ∀ d ∈ s.service.appended, d.2.idempotencyToken ≠ token := by
  obtain ⟨hcallee, hlive⟩ := InvocationStage.callee_of_isOpen hopen
  have hplaced : c.stage.isPlaced = false := by
    cases hs : c.stage <;> simp_all [InvocationStage.isOpen, InvocationStage.isPlaced]
  by_cases hrest : ∀ k r, s.Asks token k r → r.isOpen = false
  · rcases h.resting hrest with hquiet | hdone
    · exact hquiet.appended
    · exact absurd hlive (hdone.1 k c hc)
  push Not at hrest
  obtain ⟨j, r, hr, hropen⟩ := hrest
  have hfollows := h.working j r hr (by simpa using hropen)
  cases hs : r.stage with
  | executing attempt root =>
    rw [hs] at hfollows
    exact hfollows.not_placed hc hlive hplaced (by simp [hcallee])
  | backoff attempt err =>
    rw [hs] at hfollows
    exact hfollows.appended
  | answered reply => simp [ApiRequest.isOpen, hs] at hropen

/-- The requests stay, and so does what is known of the calls. -/
theorem congr (h : s.Once server token) (hasks : ∀ k r, s'.Asks token k r ↔ s.Asks token k r)
    (hchain : ∀ root, s.service.Chain token root → s'.service.Chain token root)
    (hquiet : s.service.Quiet token → s'.service.Quiet token)
    (hdone : s.Done server token → s'.Done server token)
    (hsingle : ∀ d ∈ s'.service.appended, ∀ d' ∈ s'.service.appended,
      d.2.idempotencyToken = token → d'.2.idempotencyToken = token → d = d') :
    s'.Once server token := by
  refine ⟨fun k r hr ↦ h.node k r ((hasks k r).mp hr), fun j k r r' hr hr' ↦ ?_,
    fun k r hr hopen ↦ ?_, fun hall ↦ ?_, hsingle⟩
  · exact h.alone j k r r' ((hasks j r).mp hr) ((hasks k r').mp hr')
  · have hfollows := h.working k r ((hasks k r).mp hr) hopen
    cases hs : r.stage with
    | executing attempt root =>
      rw [hs] at hfollows
      exact hchain root hfollows
    | backoff attempt err =>
      rw [hs] at hfollows
      exact hquiet hfollows
    | answered reply => simp [ApiRequest.isOpen, hs] at hopen
  · exact (h.resting fun k r hr ↦ hall k r ((hasks k r).mpr hr)).imp hquiet hdone

/-- A step of the cluster, or of a call. -/
theorem service (h : s.Once server token) {b : ServiceAction n} {t : Service n σ}
    (hpatient : s.service.Patient token b) (hstep : s.service.step app b = some t) :
    ({ s with service := t } : Api n σ).Once server token := by
  refine h.congr (fun _ _ ↦ Iff.rfl) (fun root hchain ↦ hchain.step hpatient hstep)
    (fun hquiet ↦ ?_) (fun ⟨hreturned, hcached⟩ ↦ ?_) ?_
  · have hreturned (k : Nat) (c : Invocation n) (hc : s.service.Carries token k c) :
        c.stage.success ≠ none := by simp [hquiet.failed k c hc]
    exact (Service.alike_of_returned hreturned hpatient hstep).quiet hquiet
  · have hlike := Service.alike_of_returned hreturned hpatient hstep
    exact ⟨fun k c hc ↦ hreturned k c ((hlike.calls k c).mp hc), hcached⟩
  · rcases Service.appended_cases hstep with hsame | ⟨k, c, -, hc, hstage, happended⟩
    · simpa only [hsame] using h.single
    intro d hd d' hd' htoken htoken'
    rw [happended, List.mem_append, List.mem_singleton] at hd hd'
    by_cases hcarries : c.message.idempotencyToken = token
    · -- the entry of this call is the first
      have hfree := h.not_appended_of_open ⟨hc, hcarries⟩ (by rw [hstage]; rfl)
      rw [hd.resolve_left fun hold ↦ hfree d hold htoken,
        hd'.resolve_left fun hold ↦ hfree d' hold htoken']
    · refine h.single d (hd.resolve_right ?_) d' (hd'.resolve_right ?_) htoken htoken'
      · rintro rfl
        exact hcarries htoken
      · rintro rfl
        exact hcarries htoken'

/-- Requests and calls with other tokens do not matter. -/
theorem other (h : s.Once server token) (hlike : s.service.Alike token s'.service)
    (hasks : ∀ k r, s'.Asks token k r ↔ s.Asks token k r)
    (hcache : (s'.idempotencyCache server).lookup token =
      (s.idempotencyCache server).lookup token) : s'.Once server token := by
  refine h.congr hasks (fun root ↦ hlike.chain) hlike.quiet (fun hdone ↦ ?_)
    fun d hd d' hd' htoken htoken' ↦ ?_
  · exact ⟨fun k c hc ↦ hdone.1 k c ((hlike.calls k c).mp hc), by rw [hcache]; exact hdone.2⟩
  · exact h.single d ((hlike.appended d htoken).mp hd) d' ((hlike.appended d' htoken').mp hd')
      htoken htoken'

/-- The last request with the token is the only one that may be open. -/
theorem own (hr : s.Asks token k r) (hfollows : s.Follows server token r.stage)
    (honly : ∀ j r', s.Asks token j r' → j ≠ k → r'.isOpen = false)
    (hnode : ∀ j r', s.Asks token j r' → r'.node = server)
    (hsingle : ∀ d ∈ s.service.appended, ∀ d' ∈ s.service.appended,
      d.2.idempotencyToken = token → d'.2.idempotencyToken = token → d = d') :
    s.Once server token := by
  have hlast {j : Nat} {r' : ApiRequest n} (hr' : s.Asks token j r') (hopen : r'.isOpen = true) :
      j = k := by
    by_contra hne
    rw [honly j r' hr' hne] at hopen
    cases hopen
  refine ⟨hnode, fun i j x y hx hy hxo hyo ↦ (hlast hx hxo).trans (hlast hy hyo).symm, ?_, ?_,
    hsingle⟩
  · intro j r' hr' hopen
    obtain rfl := hlast hr' hopen
    cases hr.1.symm.trans hr'.1
    exact hfollows
  · intro hall
    have hclosed := hall k r hr
    cases hs : r.stage with
    | answered reply =>
      rw [hs] at hfollows
      exact hfollows
    | _ => simp [ApiRequest.isOpen, hs] at hclosed

/-- A request comes in. -/
theorem arrives (h : s.Once server token) (hrequests : s'.requests = s.requests ++ [r])
    (hsent : r.message.idempotencyToken = token → r.node = server ∧
      ∀ x ∈ s.requests, x.message.idempotencyToken = token → x.isOpen = false)
    (happended : s'.service.appended = s.service.appended)
    (hown : r.message.idempotencyToken = token →
      s.service.Quiet token ∨ s.Done server token → s'.Follows server token r.stage)
    (hother : r.message.idempotencyToken ≠ token → s.service.Alike token s'.service)
    (hcache : s'.idempotencyCache = s.idempotencyCache) : s'.Once server token := by
  by_cases htoken : r.message.idempotencyToken = token
  · obtain ⟨hserver, hclosed⟩ := hsent htoken
    have hold {j : Nat} {x : ApiRequest n} (hx : s'.Asks token j x)
        (hne : j ≠ s.requests.length) : s.Asks token j x := by
      refine ⟨?_, hx.2⟩
      have hlt := (List.getElem?_eq_some_iff.mp hx.1).1
      have hget := hx.1
      rw [hrequests, List.length_append, List.length_singleton] at hlt
      rwa [hrequests, List.getElem?_append_left (by omega)] at hget
    have hnew : s'.Asks token s.requests.length r := by
      refine ⟨?_, htoken⟩
      simp [hrequests]
    refine own hnew (hown htoken (h.resting fun j x hx ↦ ?_)) (fun j x hx hne ↦ ?_)
      (fun j x hx ↦ ?_) (by rw [happended]; exact h.single)
    · exact hclosed x (List.mem_of_getElem? hx.1) hx.2
    · exact hclosed x (List.mem_of_getElem? (hold hx hne).1) hx.2
    · by_cases hne : j = s.requests.length
      · subst hne
        cases hnew.1.symm.trans hx.1
        exact hserver
      · exact h.node j x (hold hx hne)
  · refine h.other (hother htoken) (fun j x ↦ and_congr_left fun hx ↦ ?_) (by rw [hcache])
    rw [hrequests, List.getElem?_append]
    split
    · rfl
    · rw [List.getElem?_eq_none (l := s.requests) (by omega)]
      refine iff_of_false (fun hget ↦ htoken ?_) (by simp)
      rwa [List.mem_singleton.mp (List.mem_of_getElem? hget)] at hx

/-- An open request goes on. -/
theorem moves (h : s.Once server token) (hreq : s.requests[k]? = some req)
    (hopen : req.isOpen = true) {stage : ApiStage}
    (hrequests : s'.requests = s.requests.set k { req with stage := stage })
    (happended : s'.service.appended = s.service.appended)
    (hown : s.Asks token k req → s.Follows server token req.stage →
      s'.Follows server token stage)
    (hother : req.message.idempotencyToken ≠ token → s.service.Alike token s'.service ∧
      (s'.idempotencyCache server).lookup token = (s.idempotencyCache server).lookup token) :
    s'.Once server token := by
  have hlt := (List.getElem?_eq_some_iff.mp hreq).1
  by_cases htoken : req.message.idempotencyToken = token
  · have hself : s.Asks token k req := ⟨hreq, htoken⟩
    have hnew : s'.Asks token k { req with stage := stage } := by
      refine ⟨?_, htoken⟩
      rw [hrequests, List.getElem?_set_self hlt]
    have hold {j : Nat} {x : ApiRequest n} (hx : s'.Asks token j x) (hne : j ≠ k) :
        s.Asks token j x := by
      have hget := hx.1
      rw [hrequests, List.getElem?_set_ne hne.symm] at hget
      exact ⟨hget, hx.2⟩
    refine own hnew (hown hself (h.working k req hself hopen)) (fun j x hx hne ↦ ?_)
      (fun j x hx ↦ ?_) (by rw [happended]; exact h.single)
    · by_contra hxopen
      exact hne (h.alone j k x req (hold hx hne) hself (by simpa using hxopen) hopen)
    · by_cases hne : j = k
      · subst hne
        cases hnew.1.symm.trans hx.1
        exact h.node j req hself
      · exact h.node j x (hold hx hne)
  · obtain ⟨hlike, hcache⟩ := hother htoken
    refine h.other hlike (fun j x ↦ and_congr_left fun hx ↦ ?_) hcache
    by_cases hne : j = k
    · subst hne
      rw [hrequests, List.getElem?_set_self hlt, hreq]
      refine iff_of_false ?_ ?_ <;>
      · intro hget
        cases hget
        exact htoken hx
    · rw [hrequests, List.getElem?_set_ne (Ne.symm hne)]

end Once

/-- A request that was told of an error has left nothing behind. -/
theorem Follows.quiet_of_failed {stage : ApiStage} (h : s.Follows server token stage)
    (hfailed : ∀ attempt root, stage = .executing attempt root →
      ∃ c err, s.service.calls[root]? = some c ∧ c.stage = .returned (.error err))
    (hopen : ∀ reply, stage ≠ .answered reply) : s.service.Quiet token := by
  cases stage with
  | executing attempt root =>
    obtain ⟨c, err, hc, hstage⟩ := hfailed attempt root rfl
    exact Service.Chain.quiet h hc (by rw [hstage]; rfl)
  | backoff => exact h
  | answered reply => exact absurd rfl (hopen reply)

theorem once_step (h : s.Once server token) (hsent : s.SentOnce sha256 server token a)
    (hstep : s.step sha256 app a = some s') : s'.Once server token := by
  obtain ⟨hnext, hfresh, hpatient⟩ := hsent
  have hrefl : s.service.Alike token s.service := ⟨fun _ _ ↦ Iff.rfl, fun _ _ ↦ Iff.rfl⟩
  cases step_cases hstep with
  | service ht => exact h.service (hpatient _ rfl) ht
  | hits hwrite hget =>
    exact h.arrives rfl (hnext _ hwrite) rfl (fun _ hrest ↦ hrest) (fun _ ↦ hrefl) rfl
  | @executes a i now m hwrite hget =>
    refine h.arrives rfl (hnext _ hwrite) rfl (fun htoken hrest ↦ ?_)
      (fun hother ↦ Service.alike_invoke _ _ hother) rfl
    rcases hrest with hquiet | ⟨-, entry, hentry⟩
    · exact hquiet.invoke _
    · -- the cache would have answered
      obtain ⟨hserver, -⟩ := hnext _ hwrite htoken
      dsimp only at hserver htoken
      have hhit := IdempotencyCache.get_of_lookup hentry
        (hfresh now (clock_of_write hwrite) entry hentry)
      rw [hserver, htoken, hhit] at hget
      cases hget
  | @completes k attempt call now expired success value req c hreq hstage hcall hreturned =>
    refine h.moves hreq (by rw [ApiRequest.isOpen, hstage]) rfl rfl (fun hasks hchain ↦ ?_)
      fun hother ↦ ⟨hrefl, ?_⟩
    · rw [hstage] at hchain
      refine Or.inr ⟨fun j d hd ↦ ?_, ⟨success, now⟩, ?_⟩
      · exact Service.Chain.returned hchain hcall (by simp [hreturned, InvocationStage.success]) hd
      · simp [attemptDone, h.node k req hasks, hasks.2, IdempotencyCache.set]
    · by_cases hnode : server = req.node
      · subst hnode
        simp only [attemptDone, Function.update_self, IdempotencyCache.set]
        exact Finmap.lookup_insert_of_ne _ (Ne.symm hother)
      · simp only [attemptDone, Function.update_of_ne hnode]
  | waits hreq hstage hcall hreturned =>
    refine h.moves hreq (by rw [ApiRequest.isOpen, hstage]) rfl rfl (fun _ hchain ↦ ?_)
      fun _ ↦ ⟨hrefl, rfl⟩
    rw [hstage] at hchain
    exact Service.Chain.quiet hchain hcall (by rw [hreturned]; rfl)
  | retries hreq hstage =>
    refine h.moves hreq (by rw [ApiRequest.isOpen, hstage]) rfl rfl (fun _ hquiet ↦ ?_)
      fun hother ↦ ⟨Service.alike_invoke _ _ hother, rfl⟩
    rw [hstage] at hquiet
    exact Service.Quiet.invoke hquiet _
  | fails hreq hwrite hopen hfailed status text =>
    refine h.moves hreq hopen rfl rfl (fun _ hfollows ↦ Or.inl ?_) fun _ ↦ ⟨hrefl, rfl⟩
    refine hfollows.quiet_of_failed hfailed fun reply hstage ↦ ?_
    rw [ApiRequest.isOpen, hstage] at hopen
    cases hopen
  | cleans i now =>
    refine h.other hrefl (fun _ _ ↦ Iff.rfl) ?_
    by_cases hi : server = i
    · subst hi
      simp only [cleanupExpired, Function.update_self]
      exact IdempotencyCache.lookup_cleanupExpired (hfresh _ rfl)
    · simp only [cleanupExpired, Function.update_of_ne hi]

theorem once_start (snapshotThreshold : Int) (application : Fin n → σ) :
    (Api.start n snapshotThreshold application).Once server token where
  node _ _ hr := by cases hr.1
  alone _ _ _ _ hr := by cases hr.1
  working _ _ hr := by cases hr.1
  resting _ := Or.inl ⟨fun _ _ hc ↦ (by cases hc.1), fun _ hd ↦ by cases hd⟩
  single _ hd := by cases hd

theorem inPlace_step (hstep : s.step sha256 app a = some s')
    (hkept : ∀ b ∈ a.serviceStep, s.service.Keeps PlacesKept b)
    (h : InPlace s.service.appended s.service.cluster) :
    InPlace s'.service.appended s'.service.cluster := by
  cases step_cases hstep with
  | service ht => exact h.serviceStep (hkept _ rfl) ht
  | executes | retries | hits | completes | waits | fails | cleans => exact h

end Api

/-- In a run in which the requests with a token come to one server, one after another and before the
cache has dropped the token, in which no attempt for them is given up and entries keep their
positions, whatever is delivered with the token, by any node, is one entry. -/
theorem token_delivered_once (sha256 : String → String) (app : Application σ)
    (snapshotThreshold : Int) (application : Fin n → σ) (server : Fin n) (token : String)
    {s : Api n σ}
    (hrun : Reaches (Api.step sha256 app) (Api.KeepsOne sha256 server token)
      (Api.start n snapshotThreshold application) s)
    {i j : Fin n} {d d' : Delivery} (hd : .delivered i d ∈ s.service.cluster.history)
    (hd' : .delivered j d' ∈ s.service.cluster.history) (htoken : d.2.idempotencyToken = token)
    (htoken' : d'.2.idempotencyToken = token) : d.1 = d'.1 ∧ d.2.wire = d'.2.wire := by
  obtain ⟨honce, hplace⟩ : s.Once server token ∧
      InPlace s.service.appended s.service.cluster := by
    refine hrun.invariant (fun s ↦ s.Once server token ∧
      InPlace s.service.appended s.service.cluster)
      ⟨Api.once_start snapshotThreshold application, .start _ _⟩ ?_
    intro s a s' _ ⟨honce, hplace⟩ ⟨hsent, hkept⟩ hstep
    exact ⟨Api.once_step honce hsent hstep, Api.inPlace_step hstep hkept hplace⟩
  -- each delivery goes back to an entry that was appended with its token
  obtain ⟨x, hx, hpos, hwire⟩ := hplace.delivered i d hd
  obtain ⟨y, hy, hpos', hwire'⟩ := hplace.delivered j d' hd'
  have hxtoken : x.2.idempotencyToken = token := (Message.token_of_wire_eq hwire).trans htoken
  have hytoken : y.2.idempotencyToken = token := (Message.token_of_wire_eq hwire').trans htoken'
  obtain rfl := honce.single x hx y hy hxtoken hytoken
  exact ⟨hpos.symm.trans hpos', hwire.symm.trans hwire'⟩

/-! ## Sample runs -/

/-- Node 0 becomes the leader of term 1. -/
def electsZero : List (ApiAction 3) :=
  firstElection.map fun (i, a) ↦ .service (.raft i a)

/-- Node 0 sends node 1 a request with what it lacks, and gets the answer. -/
def replicatesToOne (args : LogRequestArgs 3) (ack : Int) : List (ApiAction 3) :=
  [(0, .replicate 1), (0, .prepareLogRequestArgs 1), (1, .logRequest args),
    (1, .appendEntries args .healthy), (1, .logReply args),
    (0, .replicateResponse 1 args ⟨1, 1, ack, true⟩)].map fun (i, a) ↦ .service (.raft i a)

/-- A call on the leader appends its message. -/
def appendsCall (call : Nat) : List (ApiAction 3) :=
  [.service (.call call (.testForward true)), .service (.call call (.testBroadcast true)),
    .service (.call call .append)]

def sampleOrigin : Origin := ⟨"token", "client", ""⟩

def sampleTokenPut : Message := ⟨.put, 1, some 5, [], "token", "client"⟩

abbrev freshApi : Api 3 Unit := Api.start 3 1000 fun _ ↦ ()

/-- The second request with the token is answered from the cache. -/
theorem token_delivered_once_retry : ∃ s : Api 3 Unit,
    Reaches (Api.step id keepsNothing) (Api.KeepsOne id 0 "token") freshApi s ∧
      s.requests.length = 2 ∧
      ∀ d, .delivered 0 d ∈ s.service.cluster.history → d.2.idempotencyToken = "token" →
        d.1 = 0 := by
  -- the first attempt finds no leader
  obtain ⟨s, hrun, hrequests, hzero⟩ : ∃ s : Api 3 Unit,
      Reaches (Api.step id keepsNothing) (Api.KeepsOne id 0 "token") freshApi s ∧
        s.requests.length = 2 ∧ .delivered 0 (0, sampleTokenPut) ∈ s.service.cluster.history :=
    exists_reaches_of_exec
      ([.handlePut 0 0 sampleOrigin ⟨1, 5⟩, .service (.call 0 (.testForward true)),
          .attemptDone 0 0 false] ++ electsZero ++ [.retry 0] ++ appendsCall 1 ++
        replicatesToOne ⟨0, 1, 0, 0, 0, [⟨1, sampleTokenPut⟩]⟩ 1 ++
        [.service (.raft 0 (.deliver [(0, sampleTokenPut)])),
          .service (.call 1 (.respond true 0)), .attemptDone 0 1 false,
          .handlePut 0 2 sampleOrigin ⟨1, 5⟩])
      (by decide +kernel)
  refine ⟨s, hrun, hrequests, fun d hd htoken ↦ ?_⟩
  exact (token_delivered_once id keepsNothing 1000 (fun _ ↦ ()) 0 "token" hrun hd hzero htoken
    rfl).1

/-- The first attempt is appended, but its caller has waited for five seconds when it is committed;
the `Retrier` tries again, and both entries are committed. -/
theorem token_delivered_twice : ∃ s : Api 3 Unit,
    Reachable (Api.step id keepsNothing) freshApi s ∧
      .delivered 0 (0, sampleTokenPut) ∈ s.service.cluster.history ∧
      .delivered 0 (1, sampleTokenPut) ∈ s.service.cluster.history :=
  exists_reaches_of_exec
    (electsZero ++ [.handlePut 0 0 sampleOrigin ⟨1, 5⟩] ++ appendsCall 0 ++
      [.service (.call 0 .timeout), .attemptDone 0 5000000000 false, .retry 0] ++ appendsCall 1 ++
      replicatesToOne ⟨0, 1, 0, 0, 0, [⟨1, sampleTokenPut⟩, ⟨1, sampleTokenPut⟩]⟩ 2 ++
      [.service (.raft 0 (.deliver [(0, sampleTokenPut), (1, sampleTokenPut)])),
        .service (.raft 0 (.deliver [(1, sampleTokenPut)]))])
    (by decide +kernel)

end DistributedCache
