import DistributedCache.Api.Tokens
import DistributedCache.Raft.KeyValue
import DistributedCache.Raft.SoleLeader

/-!
# Requests one after another

Clients send their requests to one server, each after the answer to the one before.  A request whose
token is in the cache is answered without being executed.  If that is harmless whenever it happens,
if no attempt is given up, and if one leader appends every entry and leads at the end, then its
application holds what the last request for each key has left there.
-/

namespace DistributedCache

open FiniteMap Transition

variable {n : Nat} {σ : Type} {sha256 : String → String} {app : Application σ}
  {view : σ → Int → Option Int}

/-! ## Conditions on runs -/

/-- The request was answered with `Success` true. -/
def ApiRequest.succeeded (req : ApiRequest n) : Bool :=
  match req.stage with
  | .answered (.ok true _ _) => true
  | _ => false

/-- A request without an idempotency key and within `int32`; nobody writes past the servers. -/
def ApiAction.plain : ApiAction n → Bool
  | .handlePut _ _ origin req =>
    origin.idempotencyKey = "" ∧ FitsInt32 req.key ∧ FitsInt32 req.value
  | .handleDelete _ _ origin key => origin.idempotencyKey = "" ∧ FitsInt32 key
  | .service a => a.invoked = none
  | _ => true

/-- The requests come to one server, one after another and before its cache expires. -/
def Api.OneByOne (sha256 : String → String) (server : Fin n) (s : Api n σ) (a : ApiAction n) :
    Prop :=
  a.plain = true ∧
    (∀ w ∈ a.write sha256, w.1 = server ∧ ∀ req ∈ s.requests, req.isOpen = false) ∧
    ∀ now ∈ a.clock, Every (fun _ entry ↦ now - entry.completedAt ≤ IdempotencyCache.ttl)
      (s.idempotencyCache server)
deriving Decidable

/-- What the last write to the key among some messages has left there. -/
def outcome (ms : List Message) (key : Int) : Option (Option Int) :=
  (lastWrite ms key).map Message.effect

/-- The messages of the requests so far. -/
def Api.messages (s : Api n σ) : List Message := s.requests.map ApiRequest.message

/-- A request with the token of an earlier one asks for what its key has already; no attempt is
given up; one node leads. -/
def Api.Orderly (sha256 : String → String) (leader : Fin n) (s : Api n σ) (a : ApiAction n) :
    Prop :=
  (∀ w ∈ a.write sha256,
    (∃ m ∈ s.messages, m.idempotencyToken = w.2.2.idempotencyToken) →
      outcome s.messages w.2.2.key = some w.2.2.effect) ∧
    ∀ b ∈ a.serviceStep, b.givenUp s.service = none ∧
      ∀ x ∈ b.raftStep s.service, s.service.ledBy leader x = true
deriving Decidable

/-! ## The account of the requests -/

theorem outcome_concat {ms : List Message} {m : Message} (hwrite : m.isWrite = true) (key : Int) :
    outcome (ms ++ [m]) key = if m.key = key then some m.effect else outcome ms key := by
  unfold outcome
  rw [lastWrite_concat]
  by_cases hkey : m.key = key <;> simp [hwrite, hkey]

/-- The requests that were answered, the one that is not, and what was appended for them: `applied`
belongs to the answered ones and was delivered, `late` to the open one. -/
structure Account (leader : Fin n) (s : Api n σ) (done : List (ApiRequest n))
    (current : Option (ApiRequest n)) (applied late : List Message) : Prop where
  requests : s.requests = done ++ current.toList
  answered : ∀ r ∈ done, r.isOpen = false
  working : ∀ r ∈ current, r.isOpen = true ∧
    ∀ r' ∈ done, r'.message.idempotencyToken ≠ r.message.idempotencyToken
  appended : s.service.appended.map Prod.snd = applied ++ late
  late : late = [] ∨ ∃ r, current = some r ∧ late = [r.message]
  writes : ∀ m ∈ applied, m.isWrite = true
  outcome : ∀ key, outcome applied key = outcome (done.map ApiRequest.message) key
  known : ∀ m ∈ applied, ∃ r ∈ done, r.message.idempotencyToken = m.idempotencyToken
  kept : ∀ r ∈ done, ∃ m ∈ applied, m.idempotencyToken = r.message.idempotencyToken
  delivered : applied.length ≤ (deliveredBy leader s.service.cluster.history).length

/-- The cache has the tokens of the answered requests, with success, and no others. -/
structure CacheOk (server : Fin n) (s : Api n σ) : Prop where
  entries : ∀ token entry, (s.idempotencyCache server).lookup token = some entry →
    entry.success = true ∧ ∃ m ∈ s.messages, m.idempotencyToken = token
  requests : ∀ r ∈ s.requests, r.isOpen = false →
    ∃ entry, (s.idempotencyCache server).lookup r.message.idempotencyToken = some entry

/-- What is known of a request from its arrival on. -/
structure ApiRequestOk (server : Fin n) (s : Api n σ) (r : ApiRequest n) : Prop where
  node : r.node = server
  write : r.message.isWrite = true
  wire : r.message.wire = r.message
  executing : ∀ attempt call, r.stage = .executing attempt call →
    ∃ c, s.service.calls[call]? = some c ∧ c.message = r.message

structure InSequence (app : Application σ) (application : σ) (server leader : Fin n) (s : Api n σ) :
    Prop where
  sole : SoleLog app application leader s.service
  evidence : Service.Evidence (· = leader) s.service
  calls : ∀ c ∈ s.service.calls, c.message ∈ s.messages
  requests : ∀ r ∈ s.requests, ApiRequestOk server s r
  cache : CacheOk server s
  account : ∃ done current applied late, Account leader s done current applied late

section Invariant

variable {application : σ} {server leader : Fin n} {s s' : Api n σ} {a : ApiAction n}
  {done : List (ApiRequest n)} {current : Option (ApiRequest n)} {applied late : List Message}

namespace Account

/-- At most one entry was appended for a request that is not answered. -/
theorem behind (h : Account leader s done current applied late) :
    s.service.appended.length ≤ (deliveredBy leader s.service.cluster.history).length + 1 := by
  have hlen := congrArg List.length h.appended
  have hdel := h.delivered
  rw [List.length_map, List.length_append] at hlen
  have hlate : late.length ≤ 1 := by
    rcases h.late with rfl | ⟨r, -, rfl⟩ <;> simp
  omega

variable {r : ApiRequest n}

theorem current_of_open (h : Account leader s done current applied late) (hr : r ∈ s.requests)
    (hopen : r.isOpen = true) : current = some r := by
  rw [h.requests] at hr
  rcases List.mem_append.mp hr with hdone | hcurrent
  · rw [h.answered r hdone] at hopen
    cases hopen
  · exact Option.mem_toList.mp hcurrent

/-- With every request answered there is no current one. -/
theorem idle (h : Account leader s done current applied late)
    (hall : ∀ r ∈ s.requests, r.isOpen = false) : current = none ∧ late = [] := by
  have hnone : current = none := by
    cases hc : current with
    | none => rfl
    | some r =>
      have hmem : r ∈ s.requests := by rw [h.requests, hc]; simp
      have hopen := (h.working r hc).1
      rw [hall r hmem] at hopen
      cases hopen
  refine ⟨hnone, h.late.resolve_right ?_⟩
  rintro ⟨r, hr, -⟩
  rw [hnone] at hr
  cases hr

/-- The place of an open request is the last one. -/
theorem set_eq (h : Account leader s done current applied late) {k : Nat}
    (hreq : s.requests[k]? = some r) (hopen : r.isOpen = true) (r' : ApiRequest n) :
    s.requests.set k r' = done ++ [r'] := by
  have hcurrent := h.current_of_open (List.mem_of_getElem? hreq) hopen
  have hrequests := h.requests
  rw [hcurrent, Option.toList_some] at hrequests
  rw [hrequests] at hreq ⊢
  have hge : done.length ≤ k := by
    by_contra hlt
    rw [List.getElem?_append_left (by omega)] at hreq
    have hclosed := h.answered r (List.mem_of_getElem? hreq)
    rw [hopen] at hclosed
    cases hclosed
  have hlt := (List.getElem?_eq_some_iff.mp hreq).1
  rw [List.length_append, List.length_singleton] at hlt
  obtain rfl : k = done.length := by omega
  rw [List.set_append_right _ _ le_rfl, Nat.sub_self, List.set_cons_zero]

/-- A token of an answered request is in the log. -/
theorem appended_of_done (h : Account leader s done current applied late) (hr : r ∈ done) :
    ∃ d ∈ s.service.appended, d.2.idempotencyToken = r.message.idempotencyToken := by
  obtain ⟨m, hm, htoken⟩ := h.kept r hr
  have hmem : m ∈ s.service.appended.map Prod.snd := by
    rw [h.appended]
    exact List.mem_append_left _ hm
  obtain ⟨d, hd, rfl⟩ := List.mem_map.mp hmem
  exact ⟨d, hd, htoken⟩

/-- The requests and what was appended for them are as before. -/
theorem congr (h : Account leader s done current applied late)
    (hrequests : s'.requests = s.requests)
    (happended : s'.service.appended = s.service.appended)
    (hhistory : s.service.cluster.history <+: s'.service.cluster.history) :
    Account leader s' done current applied late :=
  { h with
    requests := hrequests.trans h.requests
    appended := by rw [happended, h.appended]
    delivered := h.delivered.trans (hhistory.filterMap _).length_le }

/-- A new request is answered at once, because one with its token was answered before. -/
theorem repeated (h : Account leader s done none applied [])
    (hrequests : s'.requests = s.requests ++ [r]) (hservice : s'.service = s.service)
    (hclosed : r.isOpen = false) (hwrite : r.message.isWrite = true)
    (hsame : DistributedCache.outcome s.messages r.message.key = some r.message.effect)
    (hknown : ∃ m ∈ s.messages, m.idempotencyToken = r.message.idempotencyToken) :
    Account leader s' (done ++ [r]) none applied [] := by
  have hdone : s.requests = done := by simpa using h.requests
  have hmessages : s.messages = done.map ApiRequest.message := by rw [Api.messages, hdone]
  constructor
  · simp [hrequests, hdone]
  · exact List.forall_mem_append.mpr ⟨h.answered, List.forall_mem_singleton.mpr hclosed⟩
  · intro x hx
    cases hx
  · rw [hservice, h.appended]
  · exact Or.inl rfl
  · exact h.writes
  · intro key
    rw [List.map_append, List.map_singleton, outcome_concat hwrite, h.outcome]
    split
    · rename_i hkey
      rw [← hkey, ← hmessages, hsame]
    · rfl
  · intro m hm
    obtain ⟨x, hx, htoken⟩ := h.known m hm
    exact ⟨x, List.mem_append_left _ hx, htoken⟩
  · -- the entry is that of the earlier request with the token
    refine List.forall_mem_append.mpr ⟨h.kept, List.forall_mem_singleton.mpr ?_⟩
    obtain ⟨m, hm, htoken⟩ := hknown
    rw [hmessages] at hm
    obtain ⟨x, hx, rfl⟩ := List.mem_map.mp hm
    obtain ⟨y, hy, hytoken⟩ := h.kept x hx
    exact ⟨y, hy, hytoken.trans htoken⟩
  · rw [hservice]
    exact h.delivered

/-- A new request becomes the current one. -/
theorem begun (h : Account leader s done none applied [])
    (hrequests : s'.requests = s.requests ++ [r])
    (happended : s'.service.appended = s.service.appended)
    (hhistory : s'.service.cluster.history = s.service.cluster.history) (hopen : r.isOpen = true)
    (hfirst : ∀ x ∈ s.requests, x.message.idempotencyToken ≠ r.message.idempotencyToken) :
    Account leader s' done (some r) applied [] := by
  have hdone : s.requests = done := by simpa using h.requests
  exact
    { h with
      requests := by simp [hrequests, hdone]
      working := by
        intro x hx
        cases hx
        exact ⟨hopen, hdone ▸ hfirst⟩
      appended := by rw [happended, h.appended]
      late := Or.inl rfl
      delivered := by
        rw [hhistory]
        exact h.delivered }

/-- The current request goes on. -/
theorem continued {r' : ApiRequest n} (h : Account leader s done (some r) applied late)
    (hrequests : s'.requests = done ++ [r']) (hservice : s'.service = s.service)
    (hopen : r'.isOpen = true) (hmessage : r'.message = r.message) :
    Account leader s' done (some r') applied late :=
  { h with
    requests := hrequests
    working := by
      intro x hx
      cases hx
      exact ⟨hopen, hmessage ▸ (h.working r rfl).2⟩
    appended := by rw [hservice, h.appended]
    late := by
      rcases h.late with hlate | ⟨x, hx, hlate⟩
      · exact Or.inl hlate
      · cases hx
        exact Or.inr ⟨r', rfl, hmessage ▸ hlate⟩
    delivered := by
      rw [hservice]
      exact h.delivered }

/-- The current request is answered, and its entry was delivered. -/
theorem finished {r' : ApiRequest n} (h : Account leader s done (some r) applied [r.message])
    (hrequests : s'.requests = done ++ [r']) (hservice : s'.service = s.service)
    (hclosed : r'.isOpen = false) (hmessage : r'.message = r.message)
    (hwrite : r.message.isWrite = true)
    (hdelivered : applied.length + 1 ≤ (deliveredBy leader s.service.cluster.history).length) :
    Account leader s' (done ++ [r']) none (applied ++ [r.message]) [] := by
  constructor
  · simpa using hrequests
  · exact List.forall_mem_append.mpr ⟨h.answered, List.forall_mem_singleton.mpr hclosed⟩
  · intro x hx
    cases hx
  · rw [hservice, h.appended, List.append_nil]
  · exact Or.inl rfl
  · exact List.forall_mem_append.mpr ⟨h.writes, List.forall_mem_singleton.mpr hwrite⟩
  · intro key
    rw [List.map_append, List.map_singleton, hmessage, outcome_concat hwrite,
      outcome_concat hwrite, h.outcome]
  · refine List.forall_mem_append.mpr ⟨fun m hm ↦ ?_, List.forall_mem_singleton.mpr ?_⟩
    · obtain ⟨x, hx, htoken⟩ := h.known m hm
      exact ⟨x, List.mem_append_left _ hx, htoken⟩
    · exact ⟨r', by simp, by rw [hmessage]⟩
  · refine List.forall_mem_append.mpr ⟨fun x hx ↦ ?_, List.forall_mem_singleton.mpr ?_⟩
    · obtain ⟨m, hm, htoken⟩ := h.kept x hx
      exact ⟨m, List.mem_append_left _ hm, htoken⟩
    · exact ⟨r.message, by simp, by rw [hmessage]⟩
  · rw [List.length_append, List.length_singleton, hservice]
    exact hdelivered

end Account

/-- The cache stays, and every request that is answered by then has its entry. -/
theorem CacheOk.congr (h : CacheOk server s)
    (hcache : ∀ token, (s'.idempotencyCache server).lookup token =
      (s.idempotencyCache server).lookup token)
    (hmessages : s.messages ⊆ s'.messages)
    (hrequests : ∀ r ∈ s'.requests, r.isOpen = false → r ∈ s.requests ∨
      ∃ entry, (s.idempotencyCache server).lookup r.message.idempotencyToken = some entry) :
    CacheOk server s' where
  entries token entry hentry := by
    rw [hcache] at hentry
    obtain ⟨hsuccess, m, hm, htoken⟩ := h.entries token entry hentry
    exact ⟨hsuccess, m, hmessages hm, htoken⟩
  requests r hr hclosed := by
    rw [hcache]
    rcases hrequests r hr hclosed with hold | hentry
    · exact h.requests r hold hclosed
    · exact hentry

theorem Api.messages_concat (s : Api n σ) (r : ApiRequest n) :
    s.messages ⊆ (s.requests ++ [r]).map ApiRequest.message := by
  rw [List.map_append]
  exact List.subset_append_left _ _

/-- Another stage leaves the messages as they are. -/
theorem Api.messages_set {k : Nat} {r r' : ApiRequest n} (hreq : s.requests[k]? = some r)
    (hmessage : r'.message = r.message) :
    (s.requests.set k r').map ApiRequest.message = s.messages := by
  obtain ⟨hlt, rfl⟩ := List.getElem?_eq_some_iff.mp hreq
  rw [List.map_set, hmessage, Api.messages, ← List.getElem_map ApiRequest.message
    (h := by rwa [List.length_map]), List.set_getElem_self]

theorem ApiRequestOk.mono {r : ApiRequest n} (h : ApiRequestOk server s r)
    (hext : Service.Extends s.service s'.service) : ApiRequestOk server s' r := by
  obtain ⟨hnode, hwrite, hwire, hexec⟩ := h
  refine ⟨hnode, hwrite, hwire, fun attempt call hstage ↦ ?_⟩
  obtain ⟨c, hc, hmessage⟩ := hexec attempt call hstage
  obtain ⟨c', hc', heq⟩ := hext.calls call c hc
  exact ⟨c', hc', heq.trans hmessage⟩

namespace InSequence

/-- An open call belongs to the current request, for which nothing was appended yet. -/
theorem open_call (h : InSequence app application server leader s)
    (honce : ∀ token, s.Once server token) (hacc : Account leader s done current applied late)
    {k : Nat} {c : Invocation n} (hc : s.service.calls[k]? = some c)
    (hopen : c.stage.isOpen = true) :
    ∃ r, current = some r ∧ r.message = c.message ∧ late = [] := by
  have hfree := (honce _).not_appended_of_open ⟨hc, rfl⟩ hopen
  obtain ⟨r, hr, hmessage⟩ := List.mem_map.mp (h.calls c (List.mem_of_getElem? hc))
  have hcurrent : current = some r := by
    rw [hacc.requests] at hr
    rcases List.mem_append.mp hr with hdone | hcur
    · obtain ⟨d, hd, htoken⟩ := hacc.appended_of_done hdone
      exact absurd (htoken.trans (by rw [hmessage])) (hfree d hd)
    · exact Option.mem_toList.mp hcur
  refine ⟨r, hcurrent, hmessage, hacc.late.resolve_right ?_⟩
  rintro ⟨r', hr', hlate⟩
  cases hcurrent.symm.trans hr'
  have hmem : r.message ∈ s.service.appended.map Prod.snd := by
    rw [hacc.appended, hlate]
    simp
  obtain ⟨d, hd, hdm⟩ := List.mem_map.mp hmem
  exact hfree d hd (by rw [hdm, hmessage])

/-- A step of the cluster, or of a call. -/
theorem service (h : InSequence app application server leader s) {b : ServiceAction n}
    {t : Service n σ} (honce : ∀ token, s.Once server token)
    (hstep : s.service.step app b = some t) (hquiet : b.invoked = none)
    (hled : ∀ x ∈ b.raftStep s.service, s.service.ledBy leader x = true) :
    InSequence app application server leader { s with service := t } := by
  have hext := Service.extends_step hstep
  obtain ⟨done, current, applied, late, hacc⟩ := h.account
  constructor
  · exact h.sole.step hacc.behind hled hstep
  · refine h.evidence.step hstep fun k c hb hc ↦ ?_
    have hx : (c.node, .broadcast c.message) ∈ b.raftStep s.service := by
      subst hb
      exact Option.map_eq_some_iff.mpr ⟨c, hc, rfl⟩
    exact of_decide_eq_true (hled _ hx)
  · refine Service.messages_step hstep hquiet (fun m hm ↦ ?_) h.calls
    obtain ⟨r, hr, rfl⟩ := List.mem_map.mp hm
    exact (h.requests r hr).wire
  · exact fun r hr ↦ (h.requests r hr).mono hext
  · exact ⟨h.cache.entries, h.cache.requests⟩
  · rcases Service.appended_cases hstep with hsame | ⟨k, c, -, hc, hstage, happended⟩
    · exact ⟨done, current, applied, late, hacc.congr rfl hsame hext.history⟩
    · obtain ⟨r, hcurrent, hmessage, hlate⟩ := h.open_call honce hacc hc (by rw [hstage]; rfl)
      refine ⟨done, current, applied, [r.message], { hacc with
        appended := ?_
        late := Or.inr ⟨r, hcurrent, rfl⟩
        delivered := hacc.delivered.trans (hext.history.filterMap _).length_le }⟩
      rw [happended, List.map_append, hacc.appended, hlate, hmessage, List.append_nil]
      rfl

end InSequence

/-! ## Requests that come in -/

/-- The messages of the handlers are writes, and their integers are converted already. -/
theorem write_spec {i : Fin n} {now : Int} {m : Message}
    (hwrite : a.write sha256 = some (i, now, m)) : m.isWrite = true ∧ m.wire = m := by
  cases a with
  | handlePut =>
    cases hwrite
    exact ⟨rfl, by simp [Message.wire, putMessage]⟩
  | handleDelete =>
    cases hwrite
    exact ⟨rfl, by simp [Message.wire, deleteMessage]⟩
  | _ => cases hwrite

namespace InSequence

variable {now : Int} {m : Message} {k : Nat} {r : ApiRequest n}

/-- A request that is answered from the cache changes nothing: its key has what it asks for. -/
theorem hits (h : InSequence app application server leader s) {success : Bool} {text : String}
    (hwrite : a.write sha256 = some (server, now, m))
    (hget : (s.idempotencyCache server).get now m.idempotencyToken = some success)
    (hall : ∀ r ∈ s.requests, r.isOpen = false)
    (hsame : (∃ x ∈ s.messages, x.idempotencyToken = m.idempotencyToken) →
      outcome s.messages m.key = some m.effect) :
    InSequence app application server leader
      { s with requests := s.requests ++ [⟨server, m, .answered (.ok success text true)⟩] } := by
  obtain ⟨done, current, applied, late, hacc⟩ := h.account
  obtain ⟨rfl, rfl⟩ := hacc.idle hall
  obtain ⟨hiswrite, hwire⟩ := write_spec hwrite
  obtain ⟨entry, hlookup, -⟩ := IdempotencyCache.lookup_of_get hget
  obtain ⟨-, hknown⟩ := h.cache.entries _ entry hlookup
  have hmessages := s.messages_concat ⟨server, m, .answered (.ok success text true)⟩
  constructor
  · exact h.sole
  · exact h.evidence
  · exact fun c hc ↦ hmessages (h.calls c hc)
  · refine List.forall_mem_append.mpr ⟨fun r hr ↦ (h.requests r hr).mono (.refl _),
      List.forall_mem_singleton.mpr ?_⟩
    exact ⟨rfl, hiswrite, hwire, fun _ _ hstage ↦ by cases hstage⟩
  · refine h.cache.congr (fun _ ↦ rfl) hmessages fun r hr _ ↦ ?_
    rcases List.mem_append.mp hr with hold | hnew
    · exact Or.inl hold
    · rw [List.mem_singleton.mp hnew]
      exact Or.inr ⟨entry, hlookup⟩
  · exact ⟨_, _, _, _, hacc.repeated rfl rfl rfl hiswrite (hsame hknown) hknown⟩

/-- A request that is not in the cache is the first with its token. -/
theorem executes (h : InSequence app application server leader s)
    (hwrite : a.write sha256 = some (server, now, m))
    (hget : (s.idempotencyCache server).get now m.idempotencyToken = none)
    (hall : ∀ r ∈ s.requests, r.isOpen = false)
    (hfresh : Every (fun _ entry ↦ now - entry.completedAt ≤ IdempotencyCache.ttl)
      (s.idempotencyCache server)) :
    InSequence app application server leader { s.call server m with
      requests := s.requests ++ [⟨server, m, .executing 0 s.service.calls.length⟩] } := by
  obtain ⟨done, current, applied, late, hacc⟩ := h.account
  obtain ⟨rfl, rfl⟩ := hacc.idle hall
  obtain ⟨hiswrite, hwire⟩ := write_spec hwrite
  have hmessages := s.messages_concat ⟨server, m, .executing 0 s.service.calls.length⟩
  constructor
  · exact h.sole.congr rfl rfl
  · exact h.evidence.invoke trivial
  · refine Service.messages_invoke _ (fun c hc ↦ hmessages (h.calls c hc)) ?_
    simp [Api.messages, hwire]
  · refine List.forall_mem_append.mpr
      ⟨fun r hr ↦ (h.requests r hr).mono (Service.extends_invoke _ _),
        List.forall_mem_singleton.mpr ⟨rfl, hiswrite, hwire, fun attempt call hstage ↦ ?_⟩⟩
    cases hstage
    exact ⟨_, Service.getElem?_invoke_length _ _, hwire⟩
  · refine h.cache.congr (fun _ ↦ rfl) hmessages fun r hr hclosed ↦ Or.inl ?_
    rcases List.mem_append.mp hr with hold | hnew
    · exact hold
    · rw [List.mem_singleton.mp hnew] at hclosed
      cases hclosed
  · refine ⟨_, _, _, _, hacc.begun rfl rfl rfl rfl fun r hr htoken ↦ ?_⟩
    -- an earlier request with the token would be found in the cache
    obtain ⟨entry, hlookup⟩ := h.cache.requests r hr (hall r hr)
    rw [htoken] at hlookup
    have hhit := IdempotencyCache.get_of_lookup hlookup (hfresh _ entry hlookup)
    rw [hget] at hhit
    cases hhit

/-! ## The current request -/

/-- The current request moves on to another open stage. -/
theorem proceeds (h : InSequence app application server leader s) {stage : ApiStage}
    (hreq : s.requests[k]? = some r) (hopen : r.isOpen = true)
    (hopen' : ({ r with stage := stage } : ApiRequest n).isOpen = true)
    (hexec : ∀ attempt call, stage = .executing attempt call →
      ∃ c, s.service.calls[call]? = some c ∧ c.message = r.message) :
    InSequence app application server leader (s.proceed k r stage) := by
  obtain ⟨done, current, applied, late, hacc⟩ := h.account
  have hmem := List.mem_of_getElem? hreq
  have hset := hacc.set_eq hreq hopen { r with stage := stage }
  have hmessages : (s.proceed k r stage).messages = s.messages := Api.messages_set hreq rfl
  have hcurrent := hacc.current_of_open hmem hopen
  subst hcurrent
  constructor
  · exact h.sole
  · exact h.evidence
  · rw [hmessages]
    exact h.calls
  · intro x hx
    rcases List.mem_or_eq_of_mem_set hx with hold | rfl
    · exact (h.requests x hold).mono (.refl _)
    · obtain ⟨hnode, hwrite, hwire, -⟩ := h.requests r hmem
      exact ⟨hnode, hwrite, hwire, hexec⟩
  · refine h.cache.congr (fun _ ↦ rfl) (by rw [hmessages]; exact List.Subset.refl _)
      fun x hx hclosed ↦ Or.inl ?_
    rcases List.mem_or_eq_of_mem_set hx with hold | rfl
    · exact hold
    · rw [hopen'] at hclosed
      cases hclosed
  · exact ⟨_, _, _, _, hacc.continued hset rfl hopen' rfl⟩

/-- The entry of an answered call was delivered, and it is the one for the current request. -/
theorem completed (h : InSequence app application server leader s)
    (hacc : Account leader s done (some r) applied late) {c : Invocation n} {answer : Bool × Int}
    (hc : s.service.calls[k]? = some c) (hmessage : c.message = r.message)
    (hreturned : c.stage = .returned (.ok answer)) :
    late = [r.message] ∧
      applied.length + 1 ≤ (deliveredBy leader s.service.cluster.history).length := by
  have hback := h.evidence c (List.mem_of_getElem? hc)
  unfold Service.Backed at hback
  rw [hreturned] at hback
  obtain ⟨i, p, m, rfl, happ, hdel, hwire⟩ := hback
  have htoken : m.idempotencyToken = r.message.idempotencyToken := by
    rw [← hmessage]
    exact Message.token_of_wire_eq hwire
  have hfresh : m ∉ applied := by
    intro hm
    obtain ⟨r', hr', heq⟩ := hacc.known m hm
    exact (hacc.working r rfl).2 r' hr' (heq.trans htoken)
  have hmem : m ∈ applied ++ late := by
    rw [← hacc.appended]
    exact List.mem_map_of_mem happ
  have hlate : late = [r.message] := by
    rcases hacc.late with hnil | ⟨r', hr', hlate⟩
    · rw [hnil, List.append_nil] at hmem
      exact absurd hmem hfresh
    · cases hr'
      exact hlate
  refine ⟨hlate, ?_⟩
  -- what was delivered are the first entries, and this one comes after all of `applied`
  obtain ⟨q, hq, heq⟩ := List.getElem_of_mem (mem_deliveredBy.mpr hdel)
  have hget : s.service.appended[q]? = some (p, m) := by
    rw [List.prefix_iff_getElem?.mp h.sole.delivered_first q hq, heq]
  have hgetm : (applied ++ late)[q]? = some m := by
    rw [← hacc.appended, List.getElem?_map, hget]
    rfl
  by_contra hshort
  rw [List.getElem?_append_left (by omega)] at hgetm
  exact hfresh (List.mem_of_getElem? hgetm)

/-- The current request is answered and stored in the cache. -/
theorem completes (h : InSequence app application server leader s) {attempt call : Nat}
    {expired : Bool} {value : Int} {c : Invocation n} (hreq : s.requests[k]? = some r)
    (hstage : r.stage = .executing attempt call) (hc : s.service.calls[call]? = some c)
    (hreturned : c.stage = .returned (.ok (true, value))) :
    InSequence app application server leader
      (s.attemptDone k r now expired attempt (.ok (true, value))) := by
  obtain ⟨done, current, applied, late, hacc⟩ := h.account
  have hmem := List.mem_of_getElem? hreq
  have hopen : r.isOpen = true := by rw [ApiRequest.isOpen, hstage]
  let r' : ApiRequest n :=
    { r with stage := .answered (.ok true (successText r.message.msgType) false) }
  have hset := hacc.set_eq hreq hopen r'
  have hcurrent := hacc.current_of_open hmem hopen
  subst hcurrent
  obtain ⟨hnode, hwrite, hwire, hexec⟩ := h.requests r hmem
  obtain ⟨c', hc', hmessage⟩ := hexec attempt call hstage
  cases hc.symm.trans hc'
  obtain ⟨rfl, hdelivered⟩ := h.completed hacc hc hmessage hreturned
  have hmessages : (s.attemptDone k r now expired attempt (.ok (true, value))).messages =
      s.messages := Api.messages_set hreq rfl
  have hcache : (s.attemptDone k r now expired attempt (.ok (true, value))).idempotencyCache
      server = (s.idempotencyCache server).insert r.message.idempotencyToken ⟨true, now⟩ := by
    simp [Api.attemptDone, hnode, IdempotencyCache.set]
  constructor
  · exact h.sole
  · exact h.evidence
  · rw [hmessages]
    exact h.calls
  · intro x hx
    rcases List.mem_or_eq_of_mem_set hx with hold | rfl
    · exact (h.requests x hold).mono (.refl _)
    · exact ⟨hnode, hwrite, hwire, fun _ _ hx ↦ by cases hx⟩
  · constructor
    · intro token entry hentry
      rw [hcache] at hentry
      rw [hmessages]
      rcases lookup_insert_cases hentry with ⟨rfl, rfl⟩ | ⟨-, hold⟩
      · exact ⟨rfl, r.message, List.mem_map_of_mem hmem, rfl⟩
      · exact h.cache.entries token entry hold
    · intro x hx hclosed
      rw [hcache]
      by_cases htoken : x.message.idempotencyToken = r.message.idempotencyToken
      · rw [htoken, Finmap.lookup_insert]
        exact ⟨_, rfl⟩
      · rw [Finmap.lookup_insert_of_ne _ htoken]
        rcases List.mem_or_eq_of_mem_set hx with hold | rfl
        · exact h.cache.requests x hold hclosed
        · exact absurd rfl htoken
  · exact ⟨_, _, _, _, hacc.finished hset rfl rfl rfl hwrite hdelivered⟩

/-- Another attempt for the current request. -/
theorem calls_again (h : InSequence app application server leader s) (i : Fin n)
    (hm : m ∈ s.messages) : InSequence app application server leader (s.call i m) := by
  obtain ⟨done, current, applied, late, hacc⟩ := h.account
  obtain ⟨r, hr, rfl⟩ := List.mem_map.mp hm
  constructor
  · exact h.sole.congr rfl rfl
  · exact h.evidence.invoke trivial
  · refine Service.messages_invoke _ h.calls ?_
    change r.message.wire ∈ s.messages
    rwa [(h.requests r hr).wire]
  · exact fun r hr ↦ (h.requests r hr).mono (Service.extends_invoke _ _)
  · exact ⟨h.cache.entries, h.cache.requests⟩
  · exact ⟨done, current, applied, late, hacc.congr rfl rfl (List.prefix_refl _)⟩

theorem cleans (h : InSequence app application server leader s) {i : Fin n}
    (hfresh : Every (fun _ entry ↦ now - entry.completedAt ≤ IdempotencyCache.ttl)
      (s.idempotencyCache server)) :
    InSequence app application server leader (s.cleanupExpired i now) := by
  have hcache : ∀ token, ((s.cleanupExpired i now).idempotencyCache server).lookup token =
      (s.idempotencyCache server).lookup token := by
    intro token
    by_cases hi : server = i
    · subst hi
      simp only [Api.cleanupExpired, Function.update_self]
      exact IdempotencyCache.lookup_cleanupExpired fun entry ↦ hfresh token entry
    · simp only [Api.cleanupExpired, Function.update_of_ne hi]
  obtain ⟨done, current, applied, late, hacc⟩ := h.account
  constructor
  · exact h.sole
  · exact h.evidence
  · exact h.calls
  · exact fun r hr ↦ (h.requests r hr).mono (.refl _)
  · exact h.cache.congr hcache (List.Subset.refl _) fun r hr _ ↦ Or.inl hr
  · exact ⟨done, current, applied, late, hacc.congr rfl rfl (List.prefix_refl _)⟩

/-! ## Runs -/

theorem start (app : Application σ) (snapshotThreshold : Int) (application : Fin n → σ) :
    InSequence app (application leader) server leader
      (Api.start n snapshotThreshold application) where
  sole := .start app snapshotThreshold application
  evidence _ hc := by cases hc
  calls _ hc := by cases hc
  requests _ hr := by cases hr
  cache := ⟨fun _ _ hentry ↦ (by cases hentry), fun _ hr ↦ (by cases hr)⟩
  account := by
    refine ⟨[], none, [], [], rfl, ?_, ?_, rfl, Or.inl rfl, ?_, fun _ ↦ rfl, ?_, ?_, Nat.zero_le _⟩
    · exact fun _ hr ↦ by cases hr
    · exact fun _ hr ↦ by cases hr
    · exact fun _ hm ↦ by cases hm
    · exact fun _ hm ↦ by cases hm
    · exact fun _ hr ↦ by cases hr

theorem step (h : InSequence app application server leader s)
    (hstep : s.step sha256 app a = some s') (hone : s.OneByOne sha256 server a)
    (hord : s.Orderly sha256 leader a) (honce : ∀ token, s.Once server token)
    (hok : ∀ r ∈ s'.requests, r.isOpen = false → r.succeeded = true) :
    InSequence app application server leader s' := by
  obtain ⟨hplain, hnext, hfresh⟩ := hone
  obtain ⟨hrepeat, hled⟩ := hord
  cases Api.step_cases hstep with
  | service ht => exact h.service honce ht (of_decide_eq_true hplain) (hled _ rfl).2
  | hits hwrite hget =>
    obtain ⟨hserver, hall⟩ := hnext _ hwrite
    dsimp only at hserver
    subst hserver
    exact h.hits hwrite hget hall (hrepeat _ hwrite)
  | executes hwrite hget =>
    obtain ⟨hserver, hall⟩ := hnext _ hwrite
    dsimp only at hserver
    subst hserver
    exact h.executes hwrite hget hall (hfresh _ (Api.clock_of_write hwrite))
  | @completes k attempt call now expired success value req c hreq hstage hc hreturned =>
    have hlt := (List.getElem?_eq_some_iff.mp hreq).1
    have hsuccess := hok _ (List.mem_set hlt _) rfl
    cases success with
    | true => exact h.completes hreq hstage hc hreturned
    | false => cases hsuccess
  | waits hreq hstage =>
    exact h.proceeds hreq (by rw [ApiRequest.isOpen, hstage]) rfl fun _ _ hx ↦ by cases hx
  | @retries k attempt err req hreq hstage =>
    have hmem : req.message ∈ s.messages :=
      List.mem_map_of_mem (List.mem_of_getElem? hreq)
    have hcalled := h.calls_again req.node hmem
    refine hcalled.proceeds hreq (by rw [ApiRequest.isOpen, hstage]) rfl fun _ _ hx ↦ ?_
    cases hx
    exact ⟨_, Service.getElem?_invoke_length _ _, (h.requests req (List.mem_of_getElem? hreq)).wire⟩
  | fails hreq =>
    have hlt := (List.getElem?_eq_some_iff.mp hreq).1
    cases hok _ (List.mem_set hlt _) rfl
  | cleans i now => exact h.cleans (hfresh _ rfl)

end InSequence

end Invariant

end DistributedCache
