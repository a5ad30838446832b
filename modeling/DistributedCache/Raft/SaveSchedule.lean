import DistributedCache.Raft.SaveQueue
import DistributedCache.Raft.DurableLog

/-!
# The steps of the server as runs of its goroutines

In `Raft.Persistence` the `select` of a call, the beginning and the end of a save are one step each.
Every such step is a run of the goroutines of `Raft.SaveQueue` in which nobody interrupts the one
that goes on.  So a run of the server in which no save fails is, from one crash to the next, one of
their interleavings, and what holds of all of these holds of the server.  The server's own lock
regions call `SaveValues` after their changes of the log, but for an `InstallSnapshot` that fails.
-/

namespace DistributedCache

open Network Transition Pool

variable {n : Nat} {σ : Type}

namespace SavePool

variable {s t : SavePool n σ} {k : Nat}

/-! ## 1. Uninterrupted runs -/

theorem reachable_proceed {call : SaveCall} (hk : s.calls[k]? = some call)
    (h : s.proceedFrom k call = some t) : Reachable SavePool.step s t := by
  have hstep : s.step (.proceed k) = some t := by
    simp only [step, hk, Option.bind_some]
    exact h
  exact Reaches.refl.tail trivial hstep

theorem reachable_work {worker : SaveWorker n} (hk : s.workers[k]? = some worker)
    (h : s.workFrom k worker = some t) : Reachable SavePool.step s t := by
  have hstep : s.step (.work k) = some t := by
    simp only [step, hk, Option.bind_some]
    exact h
  exact Reaches.refl.tail trivial hstep

/-- A call of `SaveValues` from its beginning to its end. -/
theorem exists_run_of_call {follows : Nat} (hk : s.calls[k]? = some ⟨follows, .begun⟩) :
    ∃ pendingSaves queued, Reachable SavePool.step s
      { s with
        saveQueue := if s.saveQueue < saveQueueCapacity then s.saveQueue + 1 else s.saveQueue
        pendingSaves := pendingSaves
        calls := s.calls.set k ⟨follows, .returned queued⟩ } := by
  have hadded := reachable_proceed hk rfl
  by_cases hroom : s.saveQueue < saveQueueCapacity
  · have hqueued := hadded.trans (reachable_proceed (get_set hk) (if_pos hroom))
    simp only [List.set_set] at hqueued
    rw [if_pos hroom]
    exact ⟨_, _, hqueued⟩
  · have hfull := hadded.trans (reachable_proceed (get_set hk) (if_neg hroom))
    simp only [List.set_set] at hfull
    have hdropped := hfull.trans (reachable_proceed (get_set hk) rfl)
    simp only [List.set_set] at hdropped
    rw [if_neg hroom]
    exact ⟨_, _, hdropped⟩

/-- `doSaveValues` returns, and the worker waits for the next request. -/
theorem exists_run_to_idle (hrun : Reachable SavePool.step s t)
    (hk : t.workers[k]? = some .saved) :
    ∃ pendingSaves, Reachable SavePool.step s
      { t with
        pendingSaves := pendingSaves
        mu := false
        workers := t.workers.set k .idle } := by
  have hreleased := hrun.trans (reachable_work hk rfl)
  have hidle := hreleased.trans (reachable_work (get_set hk) rfl)
  simp only [List.set_set] at hidle
  exact ⟨_, hidle⟩

/-- `doSaveValues` finds everything saved. -/
theorem exists_run_of_upToDate (hk : s.workers[k]? = some .taken) (hmu : s.mu = false)
    (hle : s.raft.log.length ≤ s.previousSavedIndex) :
    ∃ pendingSaves, Reachable SavePool.step s
      { s with
        previousSavedIndex := s.raft.log.length
        pendingSaves := pendingSaves
        workers := s.workers.set k .idle } := by
  have hsaved := (reachable_work hk (if_pos hmu)).trans (reachable_work (get_set hk) rfl)
  simp only [List.set_set, Nat.min_eq_right hle, if_true] at hsaved
  obtain ⟨pendingSaves, hidle⟩ := exists_run_to_idle hsaved (get_set hk)
  simp only [List.set_set] at hidle
  rw [← hmu] at hidle
  exact ⟨pendingSaves, hidle⟩

/-- `doSaveValues` begins to write. -/
theorem reachable_began (hk : s.workers[k]? = some .taken) (hmu : s.mu = false)
    (hlt : s.previousSavedIndex < s.raft.log.length) :
    Reachable SavePool.step s
      { s with
        mu := true
        workers := s.workers.set k (.writing (s.job s.previousSavedIndex)) } := by
  have hbegan := (reachable_work hk (if_pos hmu)).trans (reachable_work (get_set hk) rfl)
  simp only [List.set_set, Nat.min_eq_left hlt.le, if_neg hlt.ne] at hbegan
  exact hbegan

/-- `doSaveValues` after the writes. -/
theorem exists_run_of_finish {job : SaveJob n} (hk : s.workers[k]? = some (.writing job))
    (hnext : job.stage.next = none) {newIndex : Nat}
    (hindex : newIndex = min (job.idx + job.logCopy.length) s.raft.log.length) :
    ∃ pendingSaves, Reachable SavePool.step s
      { s with
        previousSavedIndex := newIndex
        saveQueue :=
          if newIndex < s.raft.log.length ∧ s.saveQueue < saveQueueCapacity then s.saveQueue + 1
          else s.saveQueue
        pendingSaves := pendingSaves
        mu := false
        workers := s.workers.set k .idle } := by
  have hmeasured : s.workFrom k (.writing job) =
      some { s with workers := s.workers.set k (.measured job s.raft.log.length) } := by
    simp only [workFrom, hnext]
  have hindexed := (reachable_work hk hmeasured).trans (reachable_work (get_set hk) rfl)
  simp only [List.set_set, ← hindex] at hindexed
  by_cases hroom : newIndex < s.raft.log.length ∧ s.saveQueue < saveQueueCapacity
  · have hsent := hindexed.trans (reachable_work (get_set hk) (if_pos hroom))
    have hsaved := hsent.trans (reachable_work (get_set (get_set hk)) rfl)
    simp only [List.set_set] at hsaved
    obtain ⟨pendingSaves, hidle⟩ := exists_run_to_idle hsaved (get_set hk)
    simp only [List.set_set] at hidle
    rw [if_pos hroom]
    exact ⟨pendingSaves, hidle⟩
  · have hsaved := hindexed.trans (reachable_work (get_set hk) (if_neg hroom))
    simp only [List.set_set] at hsaved
    obtain ⟨pendingSaves, hidle⟩ := exists_run_to_idle hsaved (get_set hk)
    simp only [List.set_set] at hidle
    rw [if_neg hroom]
    exact ⟨pendingSaves, hidle⟩

end SavePool

/-! ## 2. The server and its goroutines -/

def SaveCall.atBegun (call : SaveCall) : Nat :=
  match call.stage with
  | .begun => 1
  | _ => 0

namespace SaveWorker

/-- Between two steps of the server a worker waits, or it writes. -/
def Between (job : Option (SaveJob n)) : SaveWorker n → Prop
  | .idle => True
  | .taken => True
  | .writing job' => job = some job'
  | _ => False

theorem Between.of_critical_eq_zero {worker : SaveWorker n} {job : Option (SaveJob n)}
    (h : worker.Between job) (hcritical : worker.critical = 0) (job' : Option (SaveJob n)) :
    worker.Between job' := by
  cases worker with
  | idle | taken => trivial
  | released => cases h
  | _ => cases hcritical

end SaveWorker

namespace DataSaver

variable {d : DataSaver n} {r : Raft n σ}

theorem enqueue_eq : d.enqueue =
    { d with queue := if d.queue < saveQueueCapacity then d.queue + 1 else d.queue } := by
  unfold enqueue
  split <;> rfl

theorem beginSave_of_lt (hlt : d.previousSavedIndex < r.log.length) :
    d.beginSave r =
      { d with
        waiting := d.waiting - 1
        job := some
          { idx := d.previousSavedIndex
            metadata := ⟨r.currentTerm, r.votedFor, r.commitedLength⟩
            logCopy := (r.log.drop d.previousSavedIndex).take maxBatchSize
            stage := .openLog } } := by
  unfold beginSave
  simp only [Nat.min_eq_left hlt.le, if_neg hlt.ne]

theorem beginSave_of_le (hle : r.log.length ≤ d.previousSavedIndex) :
    d.beginSave r =
      { d with
        previousSavedIndex := r.log.length
        waiting := d.waiting - 1
        job := none } := by
  unfold beginSave
  simp only [Nat.min_eq_right hle, if_true]

theorem finishSave_eq (job : SaveJob n) (lengthNow : Nat) {newIndex : Nat}
    (hindex : newIndex = min (job.idx + job.logCopy.length) lengthNow) :
    d.finishSave job lengthNow =
      { d with
        previousSavedIndex := newIndex
        queue :=
          if newIndex < lengthNow ∧ d.queue < saveQueueCapacity then d.queue + 1 else d.queue
        job := none } := by
  unfold finishSave
  rw [← hindex]
  by_cases hlt : newIndex < lengthNow
  · simp only [hlt, if_true, true_and, enqueue_eq]
  · simp only [hlt, if_false, false_and]

end DataSaver

/-- The workers behind a data saver. -/
structure DataSaver.Employs (d : DataSaver n) (workers : List (SaveWorker n)) : Prop where
  between : ∀ worker ∈ workers, worker.Between d.job
  waiting : weigh SaveWorker.atTaken workers = d.waiting
  working : weigh SaveWorker.critical workers = d.job.toList.length
  length_workers : workers.length = numWorkers

namespace DataSaver.Employs

variable {d d' : DataSaver n} {workers : List (SaveWorker n)} {worker next : SaveWorker n} {k : Nat}

theorem exists_idle (h : d.Employs workers)
    (hlt : d.waiting + d.job.toList.length < numWorkers) : ∃ k : Nat, workers[k]? = some .idle := by
  by_contra hnone
  have hbusy : workers.length ≤
      weigh (fun worker ↦ worker.atTaken + worker.critical) workers := by
    apply length_le_weigh
    intro worker hworker
    cases worker with
    | idle => exact absurd (List.mem_iff_getElem?.mp hworker) hnone
    | released => cases h.between _ hworker
    | _ => exact Nat.le_refl 1
  rw [weigh_add, h.waiting, h.working, h.length_workers] at hbusy
  omega

theorem exists_taken (h : d.Employs workers) (hpos : 0 < d.waiting) :
    ∃ k : Nat, workers[k]? = some .taken := by
  rw [← h.waiting] at hpos
  obtain ⟨worker, hworker, htaken⟩ := exists_of_weigh_pos hpos
  cases worker with
  | taken => exact List.mem_iff_getElem?.mp hworker
  | _ => cases htaken

theorem exists_writing (h : d.Employs workers) {job : SaveJob n} (hjob : d.job = some job) :
    ∃ k : Nat, workers[k]? = some (.writing job) := by
  have hpos : 0 < weigh SaveWorker.critical workers := by
    rw [h.working, hjob]
    exact Nat.one_pos
  obtain ⟨worker, hworker, hcritical⟩ := exists_of_weigh_pos hpos
  have hbetween := h.between worker hworker
  cases worker with
  | writing job' =>
    have heq : some job = some job' := hjob.symm.trans hbetween
    cases heq
    exact List.mem_iff_getElem?.mp hworker
  | idle | taken => cases hcritical
  | _ => cases hbetween

/-- When nobody but worker `k` holds the mutex, the job may become another one. -/
theorem between_set (h : d.Employs workers) (hk : workers[k]? = some worker)
    (halone : d.job.toList.length ≤ worker.critical) {job : Option (SaveJob n)}
    (hnext : next.Between job) : ∀ other ∈ workers.set k next, other.Between job := by
  intro other hother
  cases eq_or_add_le_weigh SaveWorker.critical hk hother with
  | inl heq =>
    rw [heq]
    exact hnext
  | inr htwo =>
    cases List.mem_or_eq_of_mem_set hother with
    | inl hmem =>
      apply (h.between other hmem).of_critical_eq_zero
      rw [h.working] at htwo
      omega
    | inr heq =>
      rw [heq]
      exact hnext

theorem set (h : d.Employs workers) (hk : workers[k]? = some worker)
    (hbetween : ∀ other ∈ workers.set k next, other.Between d'.job)
    (hwaiting : d'.waiting + worker.atTaken = d.waiting + next.atTaken)
    (hworking : d'.job.toList.length + worker.critical = d.job.toList.length + next.critical) :
    d'.Employs (workers.set k next) where
  between := hbetween
  waiting := by
    have hset := weigh_set SaveWorker.atTaken hk next
    have hbefore := h.waiting
    omega
  working := by
    have hset := weigh_set SaveWorker.critical hk next
    have hbefore := h.working
    omega
  length_workers := List.length_set.trans h.length_workers

end DataSaver.Employs

namespace Server

/-- The states that the goroutines can be in when the server is in state `c`.  With `followed`
every change of the log has been followed by a call of `SaveValues`, or a thread is about to make
it. -/
structure Matches (followed : Prop) (c : Server n σ) (s : SavePool n σ) : Prop where
  raft : s.raft = c.raft
  files : s.files = c.files
  index : s.previousSavedIndex = c.saver.previousSavedIndex
  queue : s.saveQueue = c.saver.queue
  mu : s.mu = c.saver.job.isSome
  calls : weigh SaveCall.atBegun s.calls = c.saver.calls
  returned : ∀ call ∈ s.calls, call.stage = .begun ∨ call.Returned
  workers : c.saver.Employs s.workers
  due : followed → s.due = 0 ∨ ∃ t ∈ c.threads, t.savesNext = true

variable {followed : Prop} {c c' : Server n σ} {s : SavePool n σ} {app : Application σ}
  {application : σ} {i : Fin n}

theorem matches_start (hsaver : c.saver = .start c.raft.log.length) :
    Matches followed c (SavePool.start c.raft c.files) := by
  obtain ⟨raft, threads, saver, files, sent, history⟩ := c
  change saver = .start raft.log.length at hsaver
  subst hsaver
  refine ⟨rfl, rfl, rfl, rfl, rfl, rfl, ?_, ⟨?_, rfl, rfl, rfl⟩, fun _ ↦ Or.inl rfl⟩
  · intro call hcall
    cases hcall
  · intro worker hworker
    rw [List.eq_of_mem_replicate hworker]
    trivial

/-- `NewRaft` leaves the data saver with nothing to save. -/
theorem restart_saver (disk : Disk) :
    (c.restart app application disk).saver =
      .start (c.restart app application disk).raft.log.length := by
  unfold restart newRaftFrom
  cases c.files.loadValues with
  | none | some => rfl

/-! ## 3. Every step is a run -/

/-- A lock region that changes the log makes a call of `SaveValues`, or its thread makes it next. -/
def SavesChanges (app : Application σ) (i : Fin n) (c : Server n σ) : ServerAction n → Prop
  | .handle a => ∀ e, c.raft.act app i a = some e →
    e.state.log = c.raft.log ∨ c.raft.savesValues app i a = true ∨
      ∃ t ∈ e.threads, t.savesNext = true
  | _ => True

/-- The change of a lock region, and the call of `SaveValues` that it makes. -/
theorem Matches.handle {a : Action n} (h : Matches followed c s)
    (hfollowed : followed → c.SavesChanges app i (.handle a))
    (hstep : c.handle app i a = some c') :
    ∃ s', Reachable SavePool.step s s' ∧ Matches followed c' s' := by
  obtain ⟨_, _, e, he, rfl⟩ := handle_cases hstep
  have hchange : Reachable SavePool.step s (s.change e.state) :=
    Reaches.refl.tail (a := .change e.state) trivial rfl
  by_cases hsaves : c.raft.savesValues app i a = true
  · -- the call is for all changes that are still due
    have hcall : (s.change e.state).saveValues (s.change e.state).due = _ := if_pos (Nat.le_refl _)
    refine ⟨_, hchange.tail (a := .saveValues _) trivial hcall, ?_⟩
    rw [apply, if_pos hsaves]
    refine ⟨rfl, h.files, h.index, h.queue, h.mu, ?_, ?_, ?_, ?_⟩
    · simp only [weigh_append_singleton]
      rw [← h.calls]
      rfl
    · intro call hcall
      cases List.mem_append.mp hcall with
      | inl hold => exact h.returned call hold
      | inr hnew =>
        rw [List.mem_singleton.mp hnew]
        exact Or.inl rfl
    · exact ⟨h.workers.between, h.workers.waiting, h.workers.working, h.workers.length_workers⟩
    · intro _
      exact Or.inl (Nat.sub_self _)
  · refine ⟨_, hchange, ?_⟩
    rw [apply, if_neg hsaves]
    refine ⟨rfl, h.files, h.index, h.queue, h.mu, h.calls, h.returned, h.workers, ?_⟩
    intro hyes
    rcases hfollowed hyes e he with hlog | hcall | ⟨t, ht, hnext⟩
    · -- what was due before is due still
      cases h.due hyes with
      | inl hdue =>
        left
        unfold SavePool.change
        rw [h.raft, if_pos hlog]
        exact hdue
      | inr hthread =>
        obtain ⟨t, ht, hnext⟩ := hthread
        have hstays := Thread.mem_remove_of_savesNext ht hnext hsaves
        exact Or.inr ⟨t, List.mem_append_left _ hstays, hnext⟩
    · exact absurd hcall hsaves
    · exact Or.inr ⟨t, List.mem_append_right _ ht, hnext⟩

theorem Matches.saveValues (h : Matches followed c s) (hcalls : 0 < c.saver.calls) :
    ∃ s', Reachable SavePool.step s s' ∧ Matches followed
      { c with saver := { c.saver with calls := c.saver.calls - 1 }.enqueue } s' := by
  rw [← h.calls] at hcalls
  obtain ⟨call, hcall, hbegun⟩ := exists_of_weigh_pos hcalls
  obtain ⟨follows, stage⟩ := call
  cases stage with
  | begun =>
    obtain ⟨k, hk⟩ := List.mem_iff_getElem?.mp hcall
    obtain ⟨pendingSaves, queued, hrun⟩ := SavePool.exists_run_of_call hk
    refine ⟨_, hrun, ?_⟩
    rw [DataSaver.enqueue_eq, ← h.queue]
    refine ⟨h.raft, h.files, h.index, rfl, h.mu, ?_, ?_, ?_, h.due⟩
    · have hset : _ + 1 = _ + 0 := weigh_set SaveCall.atBegun hk ⟨follows, .returned queued⟩
      simp only
      rw [← h.calls]
      omega
    · exact forall_set h.returned (Or.inr ⟨queued, rfl⟩)
    · exact ⟨h.workers.between, h.workers.waiting, h.workers.working, h.workers.length_workers⟩
  | _ => cases hbegun

theorem Matches.takeRequest {saver : DataSaver n} (h : Matches followed c s)
    (htake : c.saver.takeRequest = some saver) :
    ∃ s', Reachable SavePool.step s s' ∧ Matches followed { c with saver := saver } s' := by
  obtain ⟨⟨hqueue, hlt⟩, htake⟩ := Option.ite_none_right_eq_some.mp htake
  cases htake
  obtain ⟨k, hk⟩ := h.workers.exists_idle hlt
  rw [← h.queue] at hqueue
  refine ⟨_, SavePool.reachable_work hk (if_pos hqueue), h.raft, h.files, h.index, ?_, h.mu,
    h.calls, h.returned, ?_, h.due⟩
  · rw [← h.queue]
  · apply h.workers.set hk
    · exact forall_set h.workers.between trivial
    · rfl
    · rfl

theorem Matches.beginSave (h : Matches followed c s) (hwaiting : 0 < c.saver.waiting)
    (hjob : c.saver.job = none) :
    ∃ s', Reachable SavePool.step s s' ∧
      Matches followed { c with saver := c.saver.beginSave c.raft } s' := by
  obtain ⟨k, hk⟩ := h.workers.exists_taken hwaiting
  have hmu : s.mu = false := by
    rw [h.mu, hjob]
    rfl
  have halone : c.saver.job.toList.length = 0 := by
    rw [hjob]
    rfl
  by_cases hlt : s.previousSavedIndex < s.raft.log.length
  · refine ⟨_, SavePool.reachable_began hk hmu hlt, ?_⟩
    rw [h.index, h.raft] at hlt
    rw [DataSaver.beginSave_of_lt hlt, h.index]
    refine ⟨h.raft, h.files, rfl, h.queue, rfl, h.calls, h.returned, ?_, h.due⟩
    apply h.workers.set hk
    · apply h.workers.between_set hk halone.le
      unfold SavePool.job
      rw [h.raft]
      rfl
    · show c.saver.waiting - 1 + 1 = c.saver.waiting + 0
      omega
    · show 1 + 0 = c.saver.job.toList.length + 1
      omega
  · have hle : s.raft.log.length ≤ s.previousSavedIndex := Nat.le_of_not_lt hlt
    obtain ⟨pendingSaves, hrun⟩ := SavePool.exists_run_of_upToDate hk hmu hle
    refine ⟨_, hrun, ?_⟩
    rw [h.index, h.raft] at hle
    rw [DataSaver.beginSave_of_le hle]
    refine ⟨h.raft, h.files, ?_, h.queue, hmu, h.calls, h.returned, ?_, h.due⟩
    · rw [h.raft]
    · apply h.workers.set hk
      · exact h.workers.between_set hk halone.le trivial
      · show c.saver.waiting - 1 + 1 = c.saver.waiting + 0
        omega
      · show 0 + 0 = c.saver.job.toList.length + 0
        omega

theorem Matches.continueSave (h : Matches followed c s) (hstep : c.continueSave = some c') :
    ∃ s', Reachable SavePool.step s s' ∧ Matches followed c' s' := by
  obtain ⟨job, hjob, hstep⟩ := Option.map_eq_some_iff.mp hstep
  obtain ⟨k, hk⟩ := h.workers.exists_writing hjob
  have halone : c.saver.job.toList.length = 1 := by
    rw [hjob]
    rfl
  cases hnext : job.stage.next with
  | some stage =>
    simp only [hnext] at hstep
    subst hstep
    have hwrote : s.workFrom k (.writing job) = some
        { s with
          files := s.files.write job
          workers := s.workers.set k (.writing { job with stage := stage }) } := by
      simp only [SavePool.workFrom, hnext]
    refine ⟨_, SavePool.reachable_work hk hwrote, h.raft, ?_, h.index, h.queue, ?_, h.calls,
      h.returned, ?_, h.due⟩
    · rw [h.files]
    · rw [h.mu, hjob]
      rfl
    · apply h.workers.set hk
      · exact h.workers.between_set hk halone.le rfl
      · rfl
      · show 1 + 1 = c.saver.job.toList.length + 1
        omega
  | none =>
    simp only [hnext] at hstep
    subst hstep
    obtain ⟨pendingSaves, hrun⟩ := SavePool.exists_run_of_finish hk hnext rfl
    refine ⟨_, hrun, ?_⟩
    rw [DataSaver.finishSave_eq job _ rfl, h.raft, h.queue]
    refine ⟨rfl, h.files, rfl, rfl, rfl, h.calls, h.returned, ?_, h.due⟩
    apply h.workers.set hk
    · exact h.workers.between_set hk halone.le trivial
    · rfl
    · show 0 + 1 = c.saver.job.toList.length + 0
      omega

end Server

/-- Neither a save that fails nor a crash. -/
def ServerAction.Undisturbed : ServerAction n → Prop
  | .failSave _ => False
  | .restart _ => False
  | _ => True

namespace Server

variable {followed : Prop} {c c' : Server n σ} {s : SavePool n σ} {app : Application σ}
  {application : σ} {i : Fin n}

theorem Matches.step {a : ServerAction n} (h : Matches followed c s)
    (hstep : c.step app application i a = some c') (hquiet : a.Undisturbed)
    (hfollowed : followed → c.SavesChanges app i a) :
    ∃ s', Reachable SavePool.step s s' ∧ Matches followed c' s' := by
  cases a with
  | handle a => exact h.handle hfollowed hstep
  | saveValues =>
    obtain ⟨hcalls, hstep⟩ := Option.ite_none_right_eq_some.mp hstep
    cases hstep
    exact h.saveValues hcalls
  | takeRequest =>
    obtain ⟨saver, htake, hstep⟩ := Option.map_eq_some_iff.mp hstep
    cases hstep
    exact h.takeRequest htake
  | beginSave =>
    obtain ⟨⟨hwaiting, hjob⟩, hstep⟩ := Option.ite_none_right_eq_some.mp hstep
    cases hstep
    exact h.beginSave hwaiting hjob
  | continueSave => exact h.continueSave hstep
  | failSave | restart => cases hquiet

/-- A run of the server without failed saves is, since its last crash, an interleaving of its
goroutines. -/
theorem exists_run_of_server {snapshotThreshold : Int}
    (hrun : Reaches (Server.step app application i)
      (fun c a ↦ (∀ written, a ≠ .failSave written) ∧ (followed → c.SavesChanges app i a))
      (Server.start n snapshotThreshold application) c) :
    ∃ raft files s, Reachable SavePool.step (.start raft files) s ∧ Matches followed c s := by
  apply Reaches.invariant
    (fun c ↦ ∃ raft files s, Reachable SavePool.step (.start raft files) s ∧ Matches followed c s)
    ⟨_, _, _, .refl, matches_start rfl⟩ _ hrun
  intro c a c' _ hinv hguard hstep
  obtain ⟨raft, files, s, hreach, hmatches⟩ := hinv
  cases a with
  | failSave written => exact absurd rfl (hguard.1 written)
  | restart disk =>
    cases hstep
    exact ⟨_, _, _, .refl, matches_start (restart_saver disk)⟩
  | _ =>
    obtain ⟨s', hreach', hmatches'⟩ := hmatches.step hstep trivial hguard.2
    exact ⟨raft, files, s', hreach.trans hreach', hmatches'⟩

theorem Matches.idle (h : Matches followed c s) (hwaiting : c.saver.waiting = 0)
    (hjob : c.saver.job = none) : ∀ worker ∈ s.workers, worker = .idle := by
  have htaken : weigh SaveWorker.atTaken s.workers = 0 := h.workers.waiting.trans hwaiting
  intro worker hworker
  have hbetween := h.workers.between worker hworker
  cases worker with
  | idle => rfl
  | taken => cases weigh_eq_zero_iff.mp htaken _ hworker
  | writing => cases hjob.symm.trans hbetween
  | _ => cases hbetween

theorem Matches.all_returned (h : Matches followed c s) (hcalls : c.saver.calls = 0) :
    ∀ call ∈ s.calls, call.Returned := by
  have hbegun : weigh SaveCall.atBegun s.calls = 0 := h.calls.trans hcalls
  intro call hcall
  cases h.returned call hcall with
  | inl hstage =>
    have hzero := weigh_eq_zero_iff.mp hbegun call hcall
    unfold SaveCall.atBegun at hzero
    rw [hstage] at hzero
    cases hzero
  | inr hreturned => exact hreturned

/-! ## 4. The node calls `SaveValues` after its changes -/

/-- An `InstallSnapshot` that replaces the log succeeds. -/
def RestoresSnapshots (app : Application σ) (c : Server n σ) : ServerAction n → Prop
  | .handle (.installSnapshot req disk) =>
    c.raft.currentTerm ≤ req.leaderTerm → req.done = true → c.raft.restorable app disk req = true
  | _ => True

theorem savesChanges_of_restores {a : ServerAction n} (h : c.RestoresSnapshots app a) :
    c.SavesChanges app i a := by
  cases a with
  | handle a =>
    intro e hact
    cases Raft.act_log hact with
    | broadcasts => exact Or.inr (Or.inl rfl)
    | appends => exact Or.inr (Or.inr ⟨_, List.mem_singleton.mpr rfl, rfl⟩)
    | accepts => exact Or.inl Raft.followLeader_sameLog.log
    | @installs req disk _ _ hinst hout =>
      cases hout with
      | stale => exact Or.inl rfl
      | stored => exact Or.inl (Raft.followSnapshot_log _ _)
      -- the log is replaced, and `InstallSnapshot` returns before its call of `SaveValues`
      | failed hterm hdone hfail =>
        rw [h hterm hdone] at hfail
        cases hfail
      | restored hterm hdone =>
        have hreply : (c.raft.installSnapshot app disk req).2.isSome = true := by
          rw [hinst]
          rfl
        exact Or.inr (Or.inl (decide_eq_true ⟨hterm, hdone, hreply⟩))
    | commits hcommits hcommit =>
      obtain ⟨rfl, _⟩ := Raft.commitLogEntries_spec hcommit
      exact Or.inl rfl
    | delivers => exact Or.inl rfl
    | other hsame => exact Or.inl hsame.log
  | _ => trivial

/-- In a run without failed saves and without a failed `InstallSnapshot`, whenever no save is
pending, `previousSavedIndex` is the length of the log. -/
theorem saved_of_not_savePending {snapshotThreshold : Int}
    (hrun : Reaches (Server.step app application i)
      (fun c a ↦ (∀ written, a ≠ .failSave written) ∧ c.RestoresSnapshots app a)
      (Server.start n snapshotThreshold application) c)
    (hidle : ¬ c.savePending) : c.saver.previousSavedIndex = c.raft.log.length := by
  have hfollowed : Reaches (Server.step app application i)
      (fun c a ↦ (∀ written, a ≠ .failSave written) ∧ (True → c.SavesChanges app i a))
      (Server.start n snapshotThreshold application) c :=
    hrun.mono fun _ _ hguard ↦ ⟨hguard.1, fun _ ↦ savesChanges_of_restores hguard.2⟩
  obtain ⟨_, _, s, hreach, h⟩ := exists_run_of_server hfollowed
  unfold savePending at hidle
  simp only [not_or, Nat.not_lt, Nat.le_zero, ne_eq, not_not] at hidle
  obtain ⟨hcalls, hqueue, hwaiting, hjob, hthreads⟩ := hidle
  rw [← h.index, ← h.raft]
  apply (SavePool.sound_of_reachable hreach).index_eq
  · rw [h.queue, hqueue]
  · exact h.idle hwaiting hjob
  · exact (h.due trivial).resolve_right hthreads
  · intro call hcall _
    exact h.all_returned hcalls call hcall

theorem saved_of_not_savePending_savedEntry : ∃ c : Server 3 Unit,
    Reachable (Server.step keepsNothing () 1) (Server.start 3 1000 ()) c ∧
      c.saver.previousSavedIndex = 1 := by
  obtain ⟨c, hrun, hidle, hlength⟩ : ∃ c : Server 3 Unit,
      Reaches (Server.step keepsNothing () 1) (fun _ a ↦ a ∈ savedEntry)
          (Server.start 3 1000 ()) c ∧
        ¬ c.savePending ∧ c.raft.log.length = 1 :=
    exists_reaches_of_exec savedEntry (by decide +kernel)
  have hguarded : Reaches (Server.step keepsNothing () 1) (fun c a ↦
      (∀ written, a ≠ .failSave written) ∧ c.RestoresSnapshots keepsNothing a)
        (Server.start 3 1000 ()) c := by
    apply hrun.mono
    intro c a ha
    simp only [savedEntry, List.mem_cons, List.not_mem_nil, or_false] at ha
    rcases ha with rfl | rfl | rfl | rfl | rfl | rfl | rfl | rfl | rfl | rfl | rfl <;>
      exact ⟨nofun, trivial⟩
  have hindex := saved_of_not_savePending hguarded hidle
  rw [hlength] at hindex
  exact ⟨c, hrun.mono fun _ _ _ ↦ trivial, hindex⟩

end Server

end DistributedCache
