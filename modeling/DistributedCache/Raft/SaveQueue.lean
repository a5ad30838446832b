import DistributedCache.Lib.Pool
import DistributedCache.Raft.Persistence

/-!
# The save queue

`SaveValues` raises the counter `pendingSaves` and puts a request into a queue of limited length;
four workers take requests, save a part of the log under a mutex, put another request into the
queue when something is left, and lower the counter.  `WaitForPendingSaves` waits until the counter
is zero.

`Raft.Persistence` has the data saver without its counter, with the queue and the end of a save in
one step each.  Here every goroutine goes on by itself: each step below is one statement of
`SaveValues`, `saveWorker` or `doSaveValues` that others can see, and between any two of them the
log may change.  No call on a file fails.
-/

namespace DistributedCache

open Transition Pool

variable {n : Nat} {σ : Type}

/-! ## 1. The goroutines -/

/-- Where a call of `SaveValues` is. -/
inductive SaveCallStage where
  | begun
  /-- After `pendingSaves.Add(1)`. -/
  | added
  /-- The queue was full; the counter is still raised. -/
  | full
  | returned (queued : Bool)
  deriving DecidableEq

structure SaveCall where
  /-- The number of changes of the log that it follows. -/
  follows : Nat
  stage : SaveCallStage
  deriving DecidableEq

/-- Where a `saveWorker` is. -/
inductive SaveWorker (n : Nat) where
  | idle
  /-- It has a request, and `doSaveValues` waits for `rds.mu`. -/
  | taken
  | locked
  /-- In `saveValuesManager`. -/
  | writing (job : SaveJob n)
  /-- It has read the length of the log again. -/
  | measured (job : SaveJob n) (lengthNow : Nat)
  /-- `previousSavedIndex` is set. -/
  | indexed (newIndex lengthNow : Nat)
  /-- The new request is in the queue, and `pendingSaves.Add(1)` comes next. -/
  | sent
  /-- `doSaveValues` returns; the mutex is released by `defer`. -/
  | saved
  /-- Before `pendingSaves.Done()`. -/
  | released
  deriving DecidableEq

structure SavePool (n : Nat) (σ : Type) where
  raft : Raft n σ
  files : Files n
  previousSavedIndex : Nat
  /-- The requests in `saveQueue`. -/
  saveQueue : Nat
  pendingSaves : Int
  /-- Whether `rds.mu` is locked. -/
  mu : Bool
  calls : List SaveCall
  workers : List (SaveWorker n)
  /-- The changes of the log that no call of `SaveValues` follows yet. -/
  due : Nat

inductive SaveAction (n : Nat) (σ : Type) where
  /-- A lock region of the node. -/
  | change (raft : Raft n σ)
  /-- A call of `SaveValues`, for that many of the changes before it, or for none. -/
  | saveValues (follows : Nat)
  | proceed (call : Nat)
  | work (worker : Nat)

namespace SavePool

/-- After `NewRaft`: `LoadValues` has set `previousSavedIndex` to the length of the log. -/
def start (raft : Raft n σ) (files : Files n) : SavePool n σ where
  raft := raft
  files := files
  previousSavedIndex := raft.log.length
  saveQueue := 0
  pendingSaves := 0
  mu := false
  calls := []
  workers := List.replicate numWorkers .idle
  due := 0

def change (s : SavePool n σ) (raft : Raft n σ) : SavePool n σ :=
  { s with
    raft := raft
    due := if raft.log = s.raft.log then s.due else s.due + 1 }

def saveValues (s : SavePool n σ) (follows : Nat) : Option (SavePool n σ) :=
  if follows ≤ s.due then
    some { s with due := s.due - follows, calls := s.calls ++ [⟨follows, .begun⟩] }
  else none

/-- The next statement of call `k` of `SaveValues`. -/
def proceedFrom (s : SavePool n σ) (k : Nat) : SaveCall → Option (SavePool n σ)
  | ⟨follows, .begun⟩ =>
    some { s with
      pendingSaves := s.pendingSaves + 1
      calls := s.calls.set k ⟨follows, .added⟩ }
  -- the `select`
  | ⟨follows, .added⟩ =>
    if s.saveQueue < saveQueueCapacity then
      some { s with
        saveQueue := s.saveQueue + 1
        calls := s.calls.set k ⟨follows, .returned true⟩ }
    else some { s with calls := s.calls.set k ⟨follows, .full⟩ }
  | ⟨follows, .full⟩ =>
    some { s with
      pendingSaves := s.pendingSaves - 1
      calls := s.calls.set k ⟨follows, .returned false⟩ }
  | ⟨_, .returned _⟩ => none

/-- What `doSaveValues` writes when it finds the entries from `idx` on unsaved. -/
def job (s : SavePool n σ) (idx : Nat) : SaveJob n where
  idx := idx
  metadata := ⟨s.raft.currentTerm, s.raft.votedFor, s.raft.commitedLength⟩
  logCopy := (s.raft.log.drop idx).take maxBatchSize
  stage := .openLog

/-- The next statement of worker `k`. -/
def workFrom (s : SavePool n σ) (k : Nat) : SaveWorker n → Option (SavePool n σ)
  | .idle =>
    if 0 < s.saveQueue then
      some { s with saveQueue := s.saveQueue - 1, workers := s.workers.set k .taken }
    else none
  | .taken =>
    if s.mu = false then some { s with mu := true, workers := s.workers.set k .locked } else none
  -- under the read lock of the node
  | .locked =>
    let idx := min s.previousSavedIndex s.raft.log.length
    some { s with
      previousSavedIndex := idx
      workers := s.workers.set k
        (if idx = s.raft.log.length then .saved else .writing (s.job idx)) }
  | .writing job =>
    match job.stage.next with
    | some stage =>
      some { s with
        files := s.files.write job
        workers := s.workers.set k (.writing { job with stage := stage }) }
    | none => some { s with workers := s.workers.set k (.measured job s.raft.log.length) }
  | .measured job lengthNow =>
    let newIndex := min (job.idx + job.logCopy.length) lengthNow
    some { s with
      previousSavedIndex := newIndex
      workers := s.workers.set k (.indexed newIndex lengthNow) }
  | .indexed newIndex lengthNow =>
    if newIndex < lengthNow ∧ s.saveQueue < saveQueueCapacity then
      some { s with saveQueue := s.saveQueue + 1, workers := s.workers.set k .sent }
    -- nothing is left, or the queue is full
    else some { s with workers := s.workers.set k .saved }
  | .sent => some { s with pendingSaves := s.pendingSaves + 1, workers := s.workers.set k .saved }
  | .saved => some { s with mu := false, workers := s.workers.set k .released }
  | .released =>
    some { s with pendingSaves := s.pendingSaves - 1, workers := s.workers.set k .idle }

def step (s : SavePool n σ) : SaveAction n σ → Option (SavePool n σ)
  | .change raft => some (s.change raft)
  | .saveValues follows => s.saveValues follows
  | .proceed k => s.calls[k]?.bind (s.proceedFrom k)
  | .work k => s.workers[k]?.bind (s.workFrom k)

end SavePool

/-! ## 2. What a step does -/

namespace SavePool

inductive StepCase (s : SavePool n σ) : SaveAction n σ → SavePool n σ → Prop
  | changed (raft : Raft n σ) : StepCase s (.change raft) (s.change raft)
  | called {follows : Nat} (hdue : follows ≤ s.due) :
    StepCase s (.saveValues follows)
      { s with due := s.due - follows, calls := s.calls ++ [⟨follows, .begun⟩] }
  | raised {k follows : Nat} (hk : s.calls[k]? = some ⟨follows, .begun⟩) :
    StepCase s (.proceed k)
      { s with
        pendingSaves := s.pendingSaves + 1
        calls := s.calls.set k ⟨follows, .added⟩ }
  | queued {k follows : Nat} (hk : s.calls[k]? = some ⟨follows, .added⟩) :
    StepCase s (.proceed k)
      { s with
        saveQueue := s.saveQueue + 1
        calls := s.calls.set k ⟨follows, .returned true⟩ }
  | refused {k follows : Nat} (hk : s.calls[k]? = some ⟨follows, .added⟩)
      (hfull : saveQueueCapacity ≤ s.saveQueue) :
    StepCase s (.proceed k) { s with calls := s.calls.set k ⟨follows, .full⟩ }
  | dropped {k follows : Nat} (hk : s.calls[k]? = some ⟨follows, .full⟩) :
    StepCase s (.proceed k)
      { s with
        pendingSaves := s.pendingSaves - 1
        calls := s.calls.set k ⟨follows, .returned false⟩ }
  | took {k : Nat} (hk : s.workers[k]? = some .idle) (hqueue : 0 < s.saveQueue) :
    StepCase s (.work k)
      { s with saveQueue := s.saveQueue - 1, workers := s.workers.set k .taken }
  | locked {k : Nat} (hk : s.workers[k]? = some .taken) (hmu : s.mu = false) :
    StepCase s (.work k) { s with mu := true, workers := s.workers.set k .locked }
  | upToDate {k : Nat} (hk : s.workers[k]? = some .locked)
      (hle : s.raft.log.length ≤ s.previousSavedIndex) :
    StepCase s (.work k)
      { s with
        previousSavedIndex := s.raft.log.length
        workers := s.workers.set k .saved }
  | began {k : Nat} (hk : s.workers[k]? = some .locked)
      (hlt : s.previousSavedIndex < s.raft.log.length) :
    StepCase s (.work k)
      { s with workers := s.workers.set k (.writing (s.job s.previousSavedIndex)) }
  | wrote {k : Nat} {job : SaveJob n} {stage : SaveStage}
      (hk : s.workers[k]? = some (.writing job)) (hnext : job.stage.next = some stage) :
    StepCase s (.work k)
      { s with
        files := s.files.write job
        workers := s.workers.set k (.writing { job with stage := stage }) }
  | measured {k : Nat} {job : SaveJob n} (hk : s.workers[k]? = some (.writing job))
      (hnext : job.stage.next = none) :
    StepCase s (.work k)
      { s with workers := s.workers.set k (.measured job s.raft.log.length) }
  | indexed {k : Nat} {job : SaveJob n} {lengthNow newIndex : Nat}
      (hk : s.workers[k]? = some (.measured job lengthNow))
      (hindex : newIndex = min (job.idx + job.logCopy.length) lengthNow) :
    StepCase s (.work k)
      { s with
        previousSavedIndex := newIndex
        workers := s.workers.set k (.indexed newIndex lengthNow) }
  | requeued {k newIndex lengthNow : Nat}
      (hk : s.workers[k]? = some (.indexed newIndex lengthNow)) (hlt : newIndex < lengthNow) :
    StepCase s (.work k)
      { s with saveQueue := s.saveQueue + 1, workers := s.workers.set k .sent }
  | stayed {k newIndex lengthNow : Nat}
      (hk : s.workers[k]? = some (.indexed newIndex lengthNow))
      (hdone : lengthNow ≤ newIndex ∨ saveQueueCapacity ≤ s.saveQueue) :
    StepCase s (.work k) { s with workers := s.workers.set k .saved }
  | raisedAgain {k : Nat} (hk : s.workers[k]? = some .sent) :
    StepCase s (.work k)
      { s with pendingSaves := s.pendingSaves + 1, workers := s.workers.set k .saved }
  | unlocked {k : Nat} (hk : s.workers[k]? = some .saved) :
    StepCase s (.work k) { s with mu := false, workers := s.workers.set k .released }
  | ended {k : Nat} (hk : s.workers[k]? = some .released) :
    StepCase s (.work k)
      { s with pendingSaves := s.pendingSaves - 1, workers := s.workers.set k .idle }

variable {s s' : SavePool n σ} {a : SaveAction n σ} {k : Nat}

theorem proceedFrom_cases {call : SaveCall} (hk : s.calls[k]? = some call)
    (h : s.proceedFrom k call = some s') : StepCase s (.proceed k) s' := by
  obtain ⟨follows, stage⟩ := call
  cases stage with
  | begun =>
    cases h
    exact .raised hk
  | added =>
    simp only [proceedFrom] at h
    split at h
    · cases h
      exact .queued hk
    · rename_i hfull
      cases h
      exact .refused hk (Nat.le_of_not_lt hfull)
  | full =>
    cases h
    exact .dropped hk
  | returned => cases h

theorem workFrom_cases {worker : SaveWorker n} (hk : s.workers[k]? = some worker)
    (h : s.workFrom k worker = some s') : StepCase s (.work k) s' := by
  cases worker with
  | idle =>
    obtain ⟨hqueue, h⟩ := Option.ite_none_right_eq_some.mp h
    cases h
    exact .took hk hqueue
  | taken =>
    obtain ⟨hmu, h⟩ := Option.ite_none_right_eq_some.mp h
    cases h
    exact .locked hk hmu
  | locked =>
    cases h
    by_cases hlt : s.previousSavedIndex < s.raft.log.length
    · rw [Nat.min_eq_left hlt.le, if_neg hlt.ne]
      exact .began hk hlt
    · have hle : s.raft.log.length ≤ s.previousSavedIndex := Nat.le_of_not_lt hlt
      rw [Nat.min_eq_right hle, if_pos rfl]
      exact .upToDate hk hle
  | writing job =>
    cases hnext : job.stage.next with
    | some stage =>
      simp only [workFrom, hnext] at h
      cases h
      exact .wrote hk hnext
    | none =>
      simp only [workFrom, hnext] at h
      cases h
      exact .measured hk hnext
  | measured job lengthNow =>
    cases h
    exact .indexed hk rfl
  | indexed newIndex lengthNow =>
    simp only [workFrom] at h
    split at h
    · rename_i hroom
      cases h
      exact .requeued hk hroom.1
    · cases h
      apply StepCase.stayed hk
      omega
  | sent =>
    cases h
    exact .raisedAgain hk
  | saved =>
    cases h
    exact .unlocked hk
  | released =>
    cases h
    exact .ended hk

theorem step_cases (h : s.step a = some s') : StepCase s a s' := by
  cases a with
  | change raft =>
    cases h
    exact .changed raft
  | saveValues follows =>
    obtain ⟨hdue, h⟩ := Option.ite_none_right_eq_some.mp h
    cases h
    exact .called hdue
  | proceed k =>
    obtain ⟨call, hk, h⟩ := Option.bind_eq_some_iff.mp h
    exact proceedFrom_cases hk h
  | work k =>
    obtain ⟨worker, hk, h⟩ := Option.bind_eq_some_iff.mp h
    exact workFrom_cases hk h

end SavePool

/-! ## 3. Weights -/

namespace SaveCall

/-- The call has raised the counter and not handed that on. -/
def raises (call : SaveCall) : Nat :=
  match call.stage with
  | .added => 1
  | .full => 1
  | _ => 0

/-- The call follows a change and has not come to the queue. -/
def awaited (call : SaveCall) : Nat :=
  match call.stage with
  | .begun => if 0 < call.follows then 1 else 0
  | .added => if 0 < call.follows then 1 else 0
  | _ => 0

def Returned (call : SaveCall) : Prop := ∃ queued, call.stage = .returned queued
deriving Decidable

theorem awaited_eq_zero (call : SaveCall) (h : 0 < call.follows → call.Returned) :
    call.awaited = 0 := by
  by_cases hfollows : 0 < call.follows
  · obtain ⟨queued, hstage⟩ := h hfollows
    unfold awaited
    rw [hstage]
  · unfold awaited
    rw [if_neg hfollows]
    split <;> rfl

end SaveCall

namespace SaveWorker

/-- The counter counts the worker's request.  After the worker has put another one into the queue
and until it has counted that, the count is that of the new request. -/
def counted : SaveWorker n → Nat
  | .idle => 0
  | .sent => 0
  | _ => 1

/-- The worker holds `rds.mu`. -/
def critical : SaveWorker n → Nat
  | .idle => 0
  | .taken => 0
  | .released => 0
  | _ => 1

def atTaken : SaveWorker n → Nat
  | .taken => 1
  | _ => 0

def atSent : SaveWorker n → Nat
  | .sent => 1
  | _ => 0

/-- The worker has a request and has not looked at the log. -/
def waits : SaveWorker n → Nat
  | .taken => 1
  | .locked => 1
  | _ => 0

/-- The worker has still to set `previousSavedIndex` or to put a request into the queue. -/
def saving : SaveWorker n → Nat
  | .writing _ => 1
  | .measured _ _ => 1
  | .indexed _ _ => 1
  | _ => 0

/-- The length that the worker has read is still the length of the log. -/
def Current (previousSavedIndex length : Nat) : SaveWorker n → Prop
  | .measured _ lengthNow => lengthNow = length
  | .indexed newIndex lengthNow =>
    lengthNow = length ∧ newIndex = previousSavedIndex ∧ newIndex ≤ lengthNow
  | _ => True

theorem atTaken_le_counted (worker : SaveWorker n) : worker.atTaken ≤ worker.counted := by
  cases worker with
  | taken => exact Nat.le_refl 1
  | _ => exact Nat.zero_le _

theorem atSent_le_critical (worker : SaveWorker n) : worker.atSent ≤ worker.critical := by
  cases worker with
  | sent => exact Nat.le_refl 1
  | _ => exact Nat.zero_le _

theorem eq_idle {worker : SaveWorker n} (hcounted : worker.counted = 0)
    (hsent : worker.atSent = 0) : worker = .idle := by
  cases worker with
  | idle => rfl
  | sent => cases hsent
  | _ => cases hcounted

/-- Outside the mutex nothing is remembered of the log. -/
theorem current_of_critical_eq_zero {worker : SaveWorker n} (h : worker.critical = 0)
    (previousSavedIndex length : Nat) : worker.Current previousSavedIndex length := by
  cases worker with
  | measured | indexed => cases h
  | _ => trivial

end SaveWorker

namespace SavePool

/-- What will make some worker look at the log: changes that no call follows yet, calls that have
not come to the queue, requests in the queue and requests in the hands of waiting workers. -/
def triggers (s : SavePool n σ) : Nat :=
  s.due + weigh SaveCall.awaited s.calls + s.saveQueue + weigh SaveWorker.waits s.workers

/-! ## 4. The invariant -/

structure Sound (s : SavePool n σ) : Prop where
  counter : s.pendingSaves =
    weigh SaveCall.raises s.calls + s.saveQueue + weigh SaveWorker.counted s.workers
  mutex : weigh SaveWorker.critical s.workers = s.mu.toNat
  /-- A request that was put into the queue again and not yet counted is still there, or its worker
  waits for the mutex. -/
  uncounted : weigh SaveWorker.atSent s.workers ≤
    s.saveQueue + weigh SaveWorker.atTaken s.workers
  /-- When nothing will make a worker look at the log, no length that was read is out of date, and
  everything is saved or is being saved. -/
  saved : s.triggers = 0 →
    (∀ worker ∈ s.workers, worker.Current s.previousSavedIndex s.raft.log.length) ∧
      (s.previousSavedIndex = s.raft.log.length ∨ 0 < weigh SaveWorker.saving s.workers)

variable {s s' : SavePool n σ} {a : SaveAction n σ} {k : Nat}

theorem sound_start (raft : Raft n σ) (files : Files n) : (start raft files).Sound where
  counter := rfl
  mutex := rfl
  uncounted := Nat.le_refl 0
  saved _ := by
    refine ⟨?_, Or.inl rfl⟩
    intro worker hworker
    rw [List.eq_of_mem_replicate hworker]
    trivial

theorem Sound.counter_step (h : s.Sound) (hcase : StepCase s a s') :
    s'.pendingSaves =
      weigh SaveCall.raises s'.calls + s'.saveQueue + weigh SaveWorker.counted s'.workers := by
  have hcounter := h.counter
  cases hcase with
  | changed => exact hcounter
  | called =>
    simp only [weigh_append_singleton]
    exact hcounter
  | @raised _ follows hk =>
    have hcall : _ + 0 = _ + 1 := weigh_set SaveCall.raises hk ⟨follows, .added⟩
    simp only
    omega
  | @queued _ follows hk =>
    have hcall : _ + 1 = _ + 0 := weigh_set SaveCall.raises hk ⟨follows, .returned true⟩
    simp only
    omega
  | refused hk =>
    simp only
    rw [weigh_set_of_eq hk]
    · exact hcounter
    · rfl
  | @dropped _ follows hk =>
    have hcall : _ + 1 = _ + 0 := weigh_set SaveCall.raises hk ⟨follows, .returned false⟩
    simp only
    omega
  | took hk hqueue =>
    have hworker : _ + 0 = _ + 1 := weigh_set SaveWorker.counted hk .taken
    simp only
    omega
  -- the new request is counted where the worker's own one was
  | requeued hk =>
    have hworker : _ + 1 = _ + 0 := weigh_set SaveWorker.counted hk .sent
    simp only
    omega
  | raisedAgain hk =>
    have hworker : _ + 0 = _ + 1 := weigh_set SaveWorker.counted hk .saved
    simp only
    omega
  | ended hk =>
    have hworker : _ + 1 = _ + 0 := weigh_set SaveWorker.counted hk .idle
    simp only
    omega
  | locked hk | upToDate hk | began hk | wrote hk | measured hk | indexed hk | stayed hk
  | unlocked hk =>
    simp only
    rw [weigh_set_of_eq hk]
    · exact hcounter
    · rfl

theorem Sound.mutex_step (h : s.Sound) (hcase : StepCase s a s') :
    weigh SaveWorker.critical s'.workers = s'.mu.toNat := by
  have hmutex := h.mutex
  cases hcase with
  | changed | called | raised | queued | refused | dropped => exact hmutex
  | locked hk hmu =>
    have hworker : _ + 0 = _ + 1 := weigh_set SaveWorker.critical hk .locked
    rw [hmu, Bool.toNat_false] at hmutex
    simp only [Bool.toNat_true]
    omega
  | unlocked hk =>
    have hworker : _ + 1 = _ + 0 := weigh_set SaveWorker.critical hk .released
    have hle := Bool.toNat_le s.mu
    simp only [Bool.toNat_false]
    omega
  | took hk | upToDate hk | began hk | wrote hk | measured hk | indexed hk | requeued hk | stayed hk
  | raisedAgain hk | ended hk =>
    simp only
    rw [weigh_set_of_eq hk]
    · exact hmutex
    · rfl

variable {worker next : SaveWorker n}

/-- A worker that holds the mutex holds it alone. -/
theorem Sound.forall_set_of_critical (h : s.Sound) {P : SaveWorker n → Prop}
    (hfree : ∀ worker, worker.critical = 0 → P worker) (hk : s.workers[k]? = some worker)
    (hcritical : worker.critical = 1) (hnext : P next) :
    ∀ other ∈ s.workers.set k next, P other := by
  intro other hother
  cases eq_or_add_le_weigh SaveWorker.critical hk hother with
  | inl heq =>
    rw [heq]
    exact hnext
  | inr htwo =>
    have hmutex := h.mutex
    have hle := Bool.toNat_le s.mu
    apply hfree
    omega

theorem Sound.uncounted_step (h : s.Sound) (hcase : StepCase s a s') :
    weigh SaveWorker.atSent s'.workers ≤
      s'.saveQueue + weigh SaveWorker.atTaken s'.workers := by
  have huncounted := h.uncounted
  cases hcase with
  | changed | called | raised | refused | dropped => exact huncounted
  | queued =>
    simp only
    omega
  -- the request goes from the queue to the worker
  | took hk hqueue =>
    have hsent : _ + 0 = _ + 0 := weigh_set SaveWorker.atSent hk .taken
    have htaken : _ + 0 = _ + 1 := weigh_set SaveWorker.atTaken hk .taken
    simp only
    omega
  -- nobody is between the queue and the counter while the mutex is free
  | locked hk hmu =>
    have hnone : weigh SaveWorker.atSent s.workers ≤ weigh SaveWorker.critical s.workers :=
      weigh_le_weigh fun worker _ ↦ worker.atSent_le_critical
    have hsent : _ + 0 = _ + 0 := weigh_set SaveWorker.atSent hk .locked
    have hmutex := h.mutex
    rw [hmu, Bool.toNat_false] at hmutex
    simp only
    omega
  | requeued hk =>
    have hsent : _ + 0 = _ + 1 := weigh_set SaveWorker.atSent hk .sent
    have htaken : _ + 0 = _ + 0 := weigh_set SaveWorker.atTaken hk .sent
    simp only
    omega
  | raisedAgain hk =>
    have hsent : _ + 1 = _ + 0 := weigh_set SaveWorker.atSent hk .saved
    have htaken : _ + 0 = _ + 0 := weigh_set SaveWorker.atTaken hk .saved
    simp only
    omega
  | upToDate hk | began hk | wrote hk | measured hk | indexed hk | stayed hk | unlocked hk
  | ended hk =>
    simp only
    rw [weigh_set_of_eq hk, weigh_set_of_eq hk]
    · exact huncounted
    · rfl
    · rfl

/-- Whoever holds the mutex may set the index: nobody else remembers it. -/
theorem Sound.current_set (h : s.Sound) {index length : Nat} (hk : s.workers[k]? = some worker)
    (hcritical : worker.critical = 1) (hnext : next.Current index length) :
    ∀ other ∈ s.workers.set k next, other.Current index length :=
  h.forall_set_of_critical
    (fun _ hfree ↦ SaveWorker.current_of_critical_eq_zero hfree index length) hk hcritical hnext

theorem saving_set_pos (hk : s.workers[k]? = some worker) (hsaving : next.saving = 1) :
    0 < weigh SaveWorker.saving (s.workers.set k next) := by
  have hset := weigh_set SaveWorker.saving hk next
  have hle : worker.saving ≤ weigh SaveWorker.saving s.workers := le_weigh (List.mem_of_getElem? hk)
  omega

theorem Sound.saved_step (h : s.Sound) (hcase : StepCase s a s') :
    s'.triggers = 0 →
      (∀ worker ∈ s'.workers, worker.Current s'.previousSavedIndex s'.raft.log.length) ∧
        (s'.previousSavedIndex = s'.raft.log.length ∨
          0 < weigh SaveWorker.saving s'.workers) := by
  intro htriggers
  have hsaved : s.triggers = 0 → _ := h.saved
  unfold triggers at htriggers hsaved
  cases hcase with
  | changed raft =>
    simp only [change] at htriggers ⊢
    by_cases hlog : raft.log = s.raft.log
    · rw [if_pos hlog] at htriggers
      rw [hlog]
      exact hsaved htriggers
    · rw [if_neg hlog] at htriggers
      omega
  -- a call for some of the changes is awaited in their place
  | @called follows hdue =>
    simp only [weigh_append_singleton, SaveCall.awaited] at htriggers
    apply hsaved
    by_cases hfollows : 0 < follows
    · rw [if_pos hfollows] at htriggers
      omega
    · omega
  | raised hk | dropped hk =>
    simp only at htriggers
    rw [weigh_set_of_eq hk] at htriggers
    · exact hsaved htriggers
    · rfl
  | queued | requeued =>
    simp only at htriggers
    omega
  -- the full queue holds a request, and whoever takes it looks at the log later
  | refused _ hfull =>
    have hpos : 0 < saveQueueCapacity := by decide
    simp only at htriggers
    omega
  | took hk =>
    have hwaits : _ + 0 = _ + 1 := weigh_set SaveWorker.waits hk .taken
    simp only at htriggers
    omega
  | upToDate hk => exact ⟨h.current_set hk rfl trivial, Or.inl rfl⟩
  | began hk => exact ⟨h.current_set hk rfl trivial, Or.inr (saving_set_pos hk rfl)⟩
  | measured hk =>
    simp only at htriggers
    rw [weigh_set_of_eq hk] at htriggers
    · exact ⟨forall_set (hsaved htriggers).1 rfl, Or.inr (saving_set_pos hk rfl)⟩
    · rfl
  | indexed hk hindex =>
    simp only at htriggers
    rw [weigh_set_of_eq hk] at htriggers
    · have hlength := (hsaved htriggers).1 _ (List.mem_of_getElem? hk)
      refine ⟨h.current_set hk rfl ⟨hlength, rfl, ?_⟩, Or.inr (saving_set_pos hk rfl)⟩
      rw [hindex]
      exact Nat.min_le_right _ _
    · rfl
  -- the queue is empty, so the worker has found nothing left
  | stayed hk hdone =>
    have hpos : 0 < saveQueueCapacity := by decide
    simp only at htriggers
    rw [weigh_set_of_eq hk] at htriggers
    · have hcurrent := (hsaved htriggers).1
      obtain ⟨hlength, hindex, hle⟩ := hcurrent _ (List.mem_of_getElem? hk)
      refine ⟨forall_set hcurrent trivial, Or.inl ?_⟩
      simp only
      omega
    · rfl
  | locked hk | wrote hk | raisedAgain hk | unlocked hk | ended hk =>
    simp only at htriggers
    rw [weigh_set_of_eq hk] at htriggers
    · obtain ⟨hcurrent, hdone⟩ := hsaved htriggers
      refine ⟨forall_set hcurrent trivial, ?_⟩
      simp only
      rw [weigh_set_of_eq hk]
      · exact hdone
      · rfl
    · rfl

theorem Sound.step (h : s.Sound) (hstep : s.step a = some s') : s'.Sound where
  counter := h.counter_step (step_cases hstep)
  mutex := h.mutex_step (step_cases hstep)
  uncounted := h.uncounted_step (step_cases hstep)
  saved := h.saved_step (step_cases hstep)

theorem sound_of_reachable {raft : Raft n σ} {files : Files n}
    (hrun : Reachable SavePool.step (start raft files) s) : s.Sound := by
  apply Reaches.invariant Sound (sound_start raft files) _ hrun
  intro s a s' _ h _ hstep
  exact h.step hstep

/-! ## 5. What the counter says -/

theorem Sound.pendingSaves_nonneg (h : s.Sound) : 0 ≤ s.pendingSaves := by
  have hcounter := h.counter
  omega

theorem Sound.idle (h : s.Sound) (hzero : s.pendingSaves = 0) :
    s.saveQueue = 0 ∧ ∀ worker ∈ s.workers, worker = .idle := by
  have hcounter := h.counter
  have huncounted := h.uncounted
  have htaken : weigh SaveWorker.atTaken s.workers ≤ weigh SaveWorker.counted s.workers :=
    weigh_le_weigh fun worker _ ↦ worker.atTaken_le_counted
  have hcounted : weigh SaveWorker.counted s.workers = 0 := by omega
  have hsent : weigh SaveWorker.atSent s.workers = 0 := by omega
  refine ⟨by omega, ?_⟩
  intro worker hworker
  apply SaveWorker.eq_idle
  · exact weigh_eq_zero_iff.mp hcounted worker hworker
  · exact weigh_eq_zero_iff.mp hsent worker hworker

/-- With nothing in the queue and nothing at work, the index is the length of the log. -/
theorem Sound.index_eq (h : s.Sound) (hqueue : s.saveQueue = 0)
    (hidle : ∀ worker ∈ s.workers, worker = .idle) (hdue : s.due = 0)
    (hcalls : ∀ call ∈ s.calls, 0 < call.follows → call.Returned) :
    s.previousSavedIndex = s.raft.log.length := by
  have hawaited : weigh SaveCall.awaited s.calls = 0 :=
    weigh_eq_zero_iff.mpr fun call hcall ↦ call.awaited_eq_zero (hcalls call hcall)
  have hwaits : weigh SaveWorker.waits s.workers = 0 := by
    apply weigh_eq_zero_iff.mpr
    intro worker hworker
    rw [hidle worker hworker]
    rfl
  have hsaving : weigh SaveWorker.saving s.workers = 0 := by
    apply weigh_eq_zero_iff.mpr
    intro worker hworker
    rw [hidle worker hworker]
    rfl
  have htriggers : s.triggers = 0 := by
    unfold triggers
    omega
  have hsaved := (h.saved htriggers).2
  omega

end SavePool

/-- No save is lost.  The counter is never negative.  When it is zero, the queue is empty and no
worker holds a request.  When besides every change of the log was followed by a call of `SaveValues`
and these calls have returned, `previousSavedIndex` is the length of the log. -/
theorem save_queue_loses_nothing {raft : Raft n σ} {files : Files n} {s : SavePool n σ}
    (hrun : Reachable SavePool.step (SavePool.start raft files) s) :
    0 ≤ s.pendingSaves ∧
      (s.pendingSaves = 0 → s.saveQueue = 0 ∧ ∀ worker ∈ s.workers, worker = .idle) ∧
      (s.pendingSaves = 0 → s.due = 0 →
        (∀ call ∈ s.calls, 0 < call.follows → call.Returned) →
        s.previousSavedIndex = s.raft.log.length) := by
  have hsound := SavePool.sound_of_reachable hrun
  refine ⟨hsound.pendingSaves_nonneg, hsound.idle, ?_⟩
  intro hzero hdue hcalls
  obtain ⟨hqueue, hidle⟩ := hsound.idle hzero
  exact hsound.index_eq hqueue hidle hdue hcalls

/-- A log of so many entries. -/
def sampleOfLength (length : Nat) : Raft 3 Unit :=
  { newRaft 3 1000 () with log := List.replicate length ⟨1, samplePut 1⟩ }

/-- The log grows while worker 0 writes.  Worker 1 takes the request that worker 0 puts into the
queue before it is counted, and the second call comes to the queue when nothing is left to do. -/
theorem save_queue_loses_nothing_two : ∃ s : SavePool 3 Unit,
    Reachable SavePool.step (.start (newRaft 3 1000 ()) ⟨none, none⟩) s ∧
      s.pendingSaves = 0 ∧ s.previousSavedIndex = 2 := by
  obtain ⟨s, hrun, hzero, hdue, hcalls, hlength⟩ : ∃ s : SavePool 3 Unit,
      Reachable SavePool.step (.start (newRaft 3 1000 ()) ⟨none, none⟩) s ∧ s.pendingSaves = 0 ∧
        s.due = 0 ∧ (∀ call ∈ s.calls, 0 < call.follows → call.Returned) ∧
        s.raft.log.length = 2 :=
    exists_reaches_of_exec
      [.change (sampleOfLength 1), .saveValues 1, .proceed 0, .proceed 0, .work 0, .work 0, .work 0,
        .change (sampleOfLength 2), .saveValues 1, .proceed 1,
        -- worker 0 writes, and puts a request into the queue
        .work 0, .work 0, .work 0, .work 0, .work 0, .work 0, .work 0,
        .work 1, .work 0, .work 0, .work 1, .work 1, .work 0,
        -- worker 1 writes
        .work 1, .work 1, .work 1, .work 1, .work 1, .work 1, .work 1,
        .proceed 1, .work 1, .work 1, .work 2, .work 2, .work 2, .work 2, .work 2]
      (by decide +kernel)
  have hindex := (save_queue_loses_nothing hrun).2.2 hzero hdue hcalls
  rw [hlength] at hindex
  exact ⟨s, hrun, hzero, hindex⟩

end DistributedCache
