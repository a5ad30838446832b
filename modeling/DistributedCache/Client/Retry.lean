import DistributedCache.Client.SmartClient

/-!
# The loops of `Put` and `Delete`

Two loops over the same attempts, written separately.  What they meet is a script: the results of
the calls of `FetchTopology` and the outcomes of the requests, each taken in turn.  The loops treat
three things differently: an answer 400, an answer 503, and a target whose URL cannot be parsed.
Once they have parted they take different elements of the script, so nothing that follows need be
the same.
-/

namespace DistributedCache

open FiniteMap

/-! ## The loop -/

/-- What a loop does after an attempt. -/
inductive Decision where
  /-- Return `nil`. -/
  | succeed
  /-- Return an error. -/
  | fail
  /-- Call `FetchTopology`, then `continue`. -/
  | refetch
  /-- Just `continue`. -/
  | retry
  deriving DecidableEq, Repr

def Decision.continues : Decision → Bool
  | .refetch | .retry => true
  | .succeed | .fail => false

/-- Where the two loops may differ. -/
structure RetryPolicy where
  /-- By the status code of the answer. -/
  answered : Nat → Decision
  /-- When `http.NewRequest` refuses the URL of the target. -/
  badURL : Decision

/-- The `switch` of `Put`.  `httpClient.Post` reports a URL that cannot be parsed as any other
error. -/
def putPolicy : RetryPolicy where
  answered code :=
    if code = 200 then .succeed
    else if code = 400 ∨ code = 412 ∨ code = 423 ∨ code = 503 then .refetch
    else if code = 500 then .retry
    else .fail
  badURL := .refetch

/-- The `switch` of `Delete`, which makes its request before it sends it and returns when that
fails. -/
def deletePolicy : RetryPolicy where
  answered code :=
    if code = 200 then .succeed
    else if code = 412 ∨ code = 423 then .refetch
    else if code = 503 ∨ code = 500 then .retry
    else .fail
  badURL := .fail

/-- What a call meets. -/
structure Script where
  /-- The configuration that the `i`-th `FetchTopology` returns; `none` is an error. -/
  fetches : Nat → Option ClusterConfig
  /-- The status code of the answer to the `i`-th request; `none` is a transport error. -/
  outcomes : Nat → Option Nat
  /-- Whether `http://` with this address behind it can be parsed. -/
  parses : String → Bool

/-- What can be seen of a call from outside. -/
inductive RetryEvent where
  | sent (attempt : Nat) (address : String) (epoch : Nat)
  | refreshed (attempt : Nat)
  deriving DecidableEq, Repr

def RetryEvent.attempt : RetryEvent → Nat
  | .sent attempt _ _ => attempt
  | .refreshed attempt => attempt

/-- The client, and how much of the script has been taken. -/
structure RetryState where
  client : SmartClient
  fetched : Nat
  sent : Nat
  deriving DecidableEq

namespace RetryState

/-- One attempt: the request that was sent, if any, and what is done next. -/
def attempt (policy : RetryPolicy) (script : Script) (key : String) (s : RetryState) :
    Option RouteResult × Decision :=
  match s.client.route key with
  | .error _ => (none, .refetch)
  | .ok r =>
    if script.parses r.address = false then (none, policy.badURL)
    else
      match script.outcomes s.sent with
      | none => (some r, .refetch)
      | some code => (some r, policy.answered code)

/-- A `FetchTopology` that fails leaves the client as it is. -/
def refetch (script : Script) (s : RetryState) : RetryState :=
  { s with
    client := match script.fetches s.fetched with
      | some config => { s.client with config := some config }
      | none => s.client
    fetched := s.fetched + 1 }

/-- The state before the next attempt. -/
def next (script : Script) (outcome : Option RouteResult × Decision) (s : RetryState) :
    RetryState :=
  let s := if outcome.1.isSome then { s with sent := s.sent + 1 } else s
  if outcome.2 = .refetch then s.refetch script else s

end RetryState

/-- What can be seen of the `i`-th attempt. -/
def retryEvents (i : Nat) (outcome : Option RouteResult × Decision) : List RetryEvent :=
  (outcome.1.map fun r ↦ RetryEvent.sent i r.address r.epoch).toList ++
    if outcome.2 = .refetch then [.refreshed i] else []

/-- `n` more attempts, starting with number `i`: what is seen, and whether `nil` is returned. -/
def retryLoop (policy : RetryPolicy) (script : Script) (key : String) :
    Nat → Nat → RetryState → List RetryEvent × Bool
  -- the maximum number of retries is exceeded
  | 0, _, _ => ([], false)
  | n + 1, i, s =>
    let outcome := s.attempt policy script key
    if outcome.2.continues then
      let rest := retryLoop policy script key n (i + 1) (s.next script outcome)
      (retryEvents i outcome ++ rest.1, rest.2)
    else (retryEvents i outcome, outcome.2 = .succeed)

/-- `Put`.  The value has no influence on what the loop does. -/
def SmartClient.put (client : SmartClient) (script : Script) (key : String) :
    List RetryEvent × Bool :=
  retryLoop putPolicy script key client.maxRetries 0 ⟨client, 0, 0⟩

/-- `Delete`. -/
def SmartClient.delete (client : SmartClient) (script : Script) (key : String) :
    List RetryEvent × Bool :=
  retryLoop deletePolicy script key client.maxRetries 0 ⟨client, 0, 0⟩

/-! ## The calls of the clients' model -/

def Verdict.decision : Verdict → Decision
  | .done .nil => .succeed
  | .done _ => .fail
  | .refetch => .refetch
  | .retry => .retry

/-- On the answers that a data node gives, the loops decide as the calls of the model do. -/
theorem answered_code (status : Status) :
    putPolicy.answered status.code = (putVerdict status).decision ∧
      deletePolicy.answered status.code = (deleteVerdict status).decision := by
  cases status <;> decide

/-! ## One attempt -/

section Attempt

variable {script : Script} {key : String} {s : RetryState}

/-- The condition at one attempt: the target can be asked, and does not answer 400 or 503. -/
def RetryState.TreatedAlike (script : Script) (key : String) (s : RetryState) : Prop :=
  ∀ r, s.client.route key = .ok r → script.parses r.address = true ∧
    script.outcomes s.sent ≠ some 400 ∧ script.outcomes s.sent ≠ some 503

/-- The two `switch` statements differ in two cases. -/
theorem answered_eq_of_ne {code : Nat} (h400 : code ≠ 400) (h503 : code ≠ 503) :
    putPolicy.answered code = deletePolicy.answered code := by
  unfold putPolicy deletePolicy
  simp only [h400, h503, false_or, or_false]

theorem attempt_eq_of_treatedAlike (h : s.TreatedAlike script key) :
    s.attempt putPolicy script key = s.attempt deletePolicy script key := by
  unfold RetryState.attempt
  cases hroute : s.client.route key with
  | error e => rfl
  | ok r =>
    obtain ⟨hparses, h400, h503⟩ := h r hroute
    cases houtcome : script.outcomes s.sent with
    | none => simp [hparses]
    | some code =>
      rw [houtcome] at h400 h503
      have hsame : putPolicy.answered code = deletePolicy.answered code :=
        answered_eq_of_ne (fun heq ↦ h400 (congrArg some heq)) fun heq ↦ h503 (congrArg some heq)
      simp [hparses, hsame]

/-- Where they differ, `Put` fetches the topology and `Delete` does not. -/
theorem attempt_of_not_treatedAlike (h : ¬ s.TreatedAlike script key) :
    (s.attempt putPolicy script key).2 = .refetch ∧
      (s.attempt deletePolicy script key).2 ≠ .refetch := by
  unfold RetryState.TreatedAlike at h
  simp only [not_forall] at h
  obtain ⟨r, hroute, hdiffers⟩ := h
  unfold RetryState.attempt
  simp only [hroute]
  by_cases hparses : script.parses r.address = false
  · rw [if_pos hparses, if_pos hparses]
    exact ⟨rfl, by decide⟩
  · rw [if_neg hparses, if_neg hparses]
    rw [Bool.not_eq_false] at hparses
    by_cases h400 : script.outcomes s.sent = some 400
    · rw [h400]
      exact ⟨rfl, (by decide : deletePolicy.answered 400 ≠ .refetch)⟩
    · have h503 : script.outcomes s.sent = some 503 := by
        by_contra hne
        exact hdiffers ⟨hparses, h400, hne⟩
      rw [h503]
      exact ⟨rfl, (by decide : deletePolicy.answered 503 ≠ .refetch)⟩

end Attempt

/-! ## All attempts -/

/-- The condition at every attempt that `Put` makes. -/
def TreatedAlikeThroughout (script : Script) (key : String) : Nat → RetryState → Prop
  | 0, _ => True
  | n + 1, s => s.TreatedAlike script key ∧
    ((s.attempt putPolicy script key).2.continues = true →
      TreatedAlikeThroughout script key n (s.next script (s.attempt putPolicy script key)))

section Loop

variable {script : Script} {key : String} {policy : RetryPolicy} {n i : Nat} {s : RetryState}

theorem retryLoop_continues (h : (s.attempt policy script key).2.continues = true) :
    retryLoop policy script key (n + 1) i s =
      (retryEvents i (s.attempt policy script key) ++ (retryLoop policy script key n (i + 1)
          (s.next script (s.attempt policy script key))).1,
        (retryLoop policy script key n (i + 1)
          (s.next script (s.attempt policy script key))).2) := if_pos h

theorem retryLoop_returns (h : ¬ (s.attempt policy script key).2.continues = true) :
    retryLoop policy script key (n + 1) i s = (retryEvents i (s.attempt policy script key),
      decide ((s.attempt policy script key).2 = .succeed)) := if_neg h

theorem attempt_retryEvents {outcome : Option RouteResult × Decision} {e : RetryEvent}
    (h : e ∈ retryEvents i outcome) : e.attempt = i := by
  unfold retryEvents at h
  rcases List.mem_append.mp h with hsent | hrefreshed
  · obtain ⟨r, -, rfl⟩ := Option.map_eq_some_iff.mp (Option.mem_toList.mp hsent)
    rfl
  · split at hrefreshed
    · rw [List.mem_singleton.mp hrefreshed]
      rfl
    · cases hrefreshed

/-- What is seen of a loop belongs to its first attempt or to a later one. -/
theorem mem_retryLoop {e : RetryEvent} (h : e ∈ (retryLoop policy script key (n + 1) i s).1) :
    e ∈ retryEvents i (s.attempt policy script key) ∨
      e ∈ (retryLoop policy script key n (i + 1)
        (s.next script (s.attempt policy script key))).1 := by
  by_cases hon : (s.attempt policy script key).2.continues = true
  · rw [retryLoop_continues hon] at h
    exact List.mem_append.mp h
  · rw [retryLoop_returns hon] at h
    exact Or.inl h

theorem le_attempt_retryLoop {e : RetryEvent} (h : e ∈ (retryLoop policy script key n i s).1) :
    i ≤ e.attempt := by
  induction n generalizing i s with
  | zero => cases h
  | succ n ih =>
    rcases mem_retryLoop h with hhere | hlater
    · rw [attempt_retryEvents hhere]
    · exact Nat.le_of_succ_le (ih hlater)

theorem refreshed_mem_retryEvents {outcome : Option RouteResult × Decision} :
    RetryEvent.refreshed i ∈ retryEvents i outcome ↔ outcome.2 = .refetch := by
  unfold retryEvents
  rw [List.mem_append]
  constructor
  · intro h
    rcases h with hsent | hrefreshed
    · obtain ⟨r, -, hsent⟩ := Option.map_eq_some_iff.mp (Option.mem_toList.mp hsent)
      cases hsent
    · by_contra hnot
      rw [if_neg hnot] at hrefreshed
      cases hrefreshed
  · intro h
    rw [if_pos h]
    exact Or.inr (List.mem_singleton_self _)

/-- The first attempt of a loop shows whether it fetches the topology. -/
theorem refreshed_mem_retryLoop :
    RetryEvent.refreshed i ∈ (retryLoop policy script key (n + 1) i s).1 ↔
      (s.attempt policy script key).2 = .refetch := by
  constructor
  · intro h
    rcases mem_retryLoop h with hhere | hlater
    · exact refreshed_mem_retryEvents.mp hhere
    · -- what comes later has a later number
      have hnumber : i + 1 ≤ i := le_attempt_retryLoop hlater
      omega
  · intro h
    have hon : (s.attempt policy script key).2.continues = true := by
      rw [h]
      rfl
    rw [retryLoop_continues hon]
    exact List.mem_append_left _ (refreshed_mem_retryEvents.mpr h)

theorem retryLoop_eq_iff (n i : Nat) (s : RetryState) :
    retryLoop putPolicy script key n i s = retryLoop deletePolicy script key n i s ↔
      TreatedAlikeThroughout script key n s := by
  induction n generalizing i s with
  | zero => exact iff_of_true rfl trivial
  | succ n ih =>
    unfold TreatedAlikeThroughout
    by_cases halike : s.TreatedAlike script key
    · have hsame := attempt_eq_of_treatedAlike halike
      by_cases hon : (s.attempt putPolicy script key).2.continues = true
      · -- both go on from the same state
        have hon' : (s.attempt deletePolicy script key).2.continues = true := by
          rw [← hsame]
          exact hon
        rw [retryLoop_continues hon, retryLoop_continues hon', ← hsame, Prod.mk.injEq,
          List.append_cancel_left_eq, ← Prod.ext_iff, ih]
        exact ⟨fun h ↦ ⟨halike, fun _ ↦ h⟩, fun h ↦ h.2 hon⟩
      · -- both return
        have hon' : ¬ (s.attempt deletePolicy script key).2.continues = true := by
          rw [← hsame]
          exact hon
        rw [retryLoop_returns hon, retryLoop_returns hon', ← hsame]
        exact iff_of_true rfl ⟨halike, fun h ↦ absurd h hon⟩
    · refine iff_of_false ?_ fun h ↦ halike h.1
      intro hsame
      obtain ⟨hput, hdelete⟩ := attempt_of_not_treatedAlike halike
      have hmem : RetryEvent.refreshed i ∈ (retryLoop putPolicy script key (n + 1) i s).1 :=
        refreshed_mem_retryLoop.mpr hput
      rw [hsame] at hmem
      exact hdelete (refreshed_mem_retryLoop.mp hmem)

end Loop

/-- `Put` and `Delete` send the same requests, fetch the topology at the same attempts and agree on
whether they return an error exactly under the condition. -/
theorem put_delete_alike_iff (client : SmartClient) (script : Script) (key : String) :
    client.put script key = client.delete script key ↔
      TreatedAlikeThroughout script key client.maxRetries ⟨client, 0, 0⟩ :=
  retryLoop_eq_iff client.maxRetries 0 ⟨client, 0, 0⟩

/-- One node holds the only shard. -/
def sampleLone : ClusterConfig where
  epoch := 1
  totalShards := 1
  nodes := (∅ : Map String NodeMetadata).insert "n" ⟨"n", "n:1", .active, 0⟩
  shards := (∅ : Map Nat ShardMetadata).insert 0 ⟨0, "n", [], .active⟩

/-- The first answer is 400 or 503, and all others are 200. -/
def sampleScript (first : Nat) : Script where
  fetches _ := some { sampleLone with epoch := 2 }
  outcomes i := if i = 0 then some first else some 200
  parses _ := true

/-- After an answer 400 `Put` fetches the topology and succeeds, while `Delete` returns an error;
after an answer 503 both succeed, `Delete` with the old epoch. -/
theorem put_delete_differ :
    (⟨some sampleLone, 5⟩ : SmartClient).put (sampleScript 400) "k" =
        ([.sent 0 "n:1" 1, .refreshed 0, .sent 1 "n:1" 2], true) ∧
      (⟨some sampleLone, 5⟩ : SmartClient).delete (sampleScript 400) "k" =
        ([.sent 0 "n:1" 1], false) ∧
      (⟨some sampleLone, 5⟩ : SmartClient).put (sampleScript 503) "k" =
        ([.sent 0 "n:1" 1, .refreshed 0, .sent 1 "n:1" 2], true) ∧
      (⟨some sampleLone, 5⟩ : SmartClient).delete (sampleScript 503) "k" =
        ([.sent 0 "n:1" 1, .sent 1 "n:1" 1], true) := by
  decide +kernel

end DistributedCache
