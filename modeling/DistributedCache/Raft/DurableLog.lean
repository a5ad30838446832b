import DistributedCache.Raft.LogSteps
import DistributedCache.Raft.Persistence

/-!
# The log on disk and the log in memory

The log file only grows, and `previousSavedIndex` counts its entries relative to a log in memory
that is cut on conflicts and moved by compaction.  The two stay in step as long as nothing is cut
that was saved, nothing is appended while the counter is past the end of the log, and the log is
moved only when all of it is saved.
-/

namespace DistributedCache

open Network Transition Window

variable {n : Nat} {σ : Type} {app : Application σ} {i : Fin n}

/-! ## The conditions -/

/-- The entries of the log in memory that are saved, or will be by the running `doSaveValues`. -/
def DataSaver.savedEnd (d : DataSaver n) : Nat :=
  match d.job with
  | none => d.previousSavedIndex
  | some job => job.idx + job.logCopy.length

/-- Everything in memory is saved and no save is running. -/
def Server.allSaved (c : Server n σ) : Prop :=
  c.saver.job = none ∧ c.raft.log.length ≤ c.saver.previousSavedIndex
deriving Decidable

/-- `decideRunSnapshot` in state `r` leaves the log alone, or moves a log that is as it was and is
all saved. -/
def Server.compactsSaved (c : Server n σ) (r : Raft n σ) : Prop :=
  (r.log.length : Int) < r.snapshotter.snapshotThreshold ∨ r.comittedCount ≤ 0 ∨
    r.log = c.raft.log ∧ c.allSaved
deriving Decidable

/-- The action leaves saved entries where the counter expects them. -/
def Server.savedKept (app : Application σ) (c : Server n σ) : Action n → Bool
  | .broadcast _ => c.saver.previousSavedIndex ≤ c.raft.log.length
  | .appendEntries args _ =>
    (c.raft.conflicts args.prefixLen args.suffix →
      (c.saver.savedEnd : Int) ≤ args.prefixLen - c.raft.snapshotter.lastIndex) ∧
    (c.raft.missingEntries args.prefixLen args.suffix ≠ [] →
      c.saver.previousSavedIndex ≤ c.raft.log.length) ∧
    ∀ x ∈ (c.raft.appendSuffix args.prefixLen args.suffix).commitTo app args.commitLength,
      c.compactsSaved x.1
  | .installSnapshot req disk => req.done = true → c.raft.currentTerm ≤ req.leaderTerm →
    c.allSaved ∧ req.lastIncludedIndex = c.raft.absLength ∧
      c.raft.restorable app disk req = true
  | _ => true

/-- No save returns an error, saved entries stay where the counter expects them, and after a crash
the saved log is found. -/
def LogSaved (app : Application σ) (c : Server n σ) : ServerAction n → Prop
  | .handle a => c.savedKept app a = true
  | .failSave _ => False
  | .restart _ => c.files.loadValues.isSome = true ∨ c.files.log.getD [] = []
  | _ => True

instance (app : Application σ) (c : Server n σ) (a : ServerAction n) :
    Decidable (LogSaved app c a) := by
  cases a <;> unfold LogSaved <;> infer_instance

/-! ## The invariant -/

/-- A `LogRequest` between `appendEntries` and its call of `SaveValues`. -/
def Thread.savesNext : Thread n → Bool
  | .logReply _ => true
  | _ => false

/-- A save request is under way, somewhere between the change of the log and the end of
`doSaveValues`. -/
def Server.savePending (c : Server n σ) : Prop :=
  0 < c.saver.calls ∨ 0 < c.saver.queue ∨ 0 < c.saver.waiting ∨ c.saver.job ≠ none ∨
    ∃ t ∈ c.threads, t.savesNext = true
deriving Decidable

/-- The entries `LoadValues` would read back. -/
def Files.loadedLog (files : Files n) : List LogEntry := (files.loadValues.map Prod.snd).getD []

/-- The entries of a log of this length that are in the file. -/
def DataSaver.inFile (d : DataSaver n) (length : Nat) : Nat :=
  match d.job with
  | none => min d.previousSavedIndex length
  | some job => if job.stage = .finish then job.idx + job.logCopy.length else job.idx

/-- There is nothing in the log file, or the metadata are there, too. -/
def Files.Whole (files : Files n) : Prop :=
  files.log.getD [] = [] ∨ ∃ metadata, files.metadata = some (some metadata)

/-- The state of the metadata file at each stage of a save. -/
def DataSaver.MetadataOk (d : DataSaver n) (files : Files n) : Prop :=
  match d.job.map SaveJob.stage with
  | some .saveMetadata => True
  | some .saveLog => ∃ metadata, files.metadata = some (some metadata)
  | some .finish => ∃ metadata, files.metadata = some (some metadata)
  | _ => files.Whole

/-- The entries of a running save are still in the log, where they were taken from. -/
def DataSaver.JobOk (d : DataSaver n) (log : List LogEntry) : Prop :=
  ∀ job ∈ d.job, job.idx = d.previousSavedIndex ∧ job.idx + job.logCopy.length ≤ log.length ∧
    job.logCopy <+: log.drop job.idx

/-- `full` is the whole log: the log in memory is its end, the log file its beginning. -/
structure Mirrors (full : List LogEntry) (c : Server n σ) : Prop where
  window : IsWindow full c.raft.snapshotter.lastIndex c.raft.log
  file : c.files.log.getD [] =
    full.take (c.raft.snapshotter.lastIndex.toNat + c.saver.inFile c.raft.log.length)
  job : c.saver.JobOk c.raft.log
  metadata : c.saver.MetadataOk c.files
  pending : c.saver.previousSavedIndex < c.raft.log.length → c.savePending

theorem Files.Whole.loadedLog {files : Files n} (h : files.Whole) :
    files.loadedLog = files.log.getD [] := by
  unfold Files.loadedLog Files.loadValues
  rcases h with hnil | ⟨metadata, hmeta⟩
  · rw [hnil]
    cases hlog : files.log with
    | none => rfl
    | some logs =>
      rw [hlog] at hnil
      obtain rfl : logs = [] := hnil
      split <;> simp_all
  · rw [hmeta]
    cases files.log <;> rfl

/-! ## Steps of the node -/

variable {c c' : Server n σ} {full : List LogEntry}

variable {a : Action n} {d : DataSaver n} {log : List LogEntry} {disk : Disk} {job : SaveJob n}
  {application : σ}

/-- A thread that has yet to call `SaveValues` is there until it does. -/
theorem Thread.mem_remove_of_savesNext {r : Raft n σ} {threads : List (Thread n)} {t : Thread n}
    (ht : t ∈ threads) (hnext : t.savesNext = true) (hsaves : ¬ r.savesValues app i a = true) :
    t ∈ remove threads a.thread := by
  cases hthread : a.thread with
  | none => exact ht
  | some t' =>
    apply (List.mem_erase_of_ne ?_).mpr ht
    rintro rfl
    cases t with
    | logReply args =>
      cases a with
      | logReply args' => exact hsaves rfl
      | _ => cases hthread
    | _ => cases hnext

/-- What a step of the node's code does to the pending save requests. -/
theorem savePending_handle {e : RaftEffect n σ} (h : c.savePending)
    (hc' : c' = c.apply app i a e) : c'.savePending := by
  subst hc'
  by_cases hsaves : c.raft.savesValues app i a = true
  · simp only [Server.apply, if_pos hsaves]
    exact Or.inl (Nat.succ_pos _)
  · simp only [Server.apply, if_neg hsaves]
    rcases h with h | h | h | h | ⟨t, ht, hnext⟩
    · exact Or.inl h
    · exact Or.inr (Or.inl h)
    · exact Or.inr (Or.inr (Or.inl h))
    · exact Or.inr (Or.inr (Or.inr (Or.inl h)))
    · have hstays := Thread.mem_remove_of_savesNext ht hnext hsaves
      exact Or.inr (Or.inr (Or.inr (Or.inr ⟨t, List.mem_append_left _ hstays, hnext⟩)))

/-- As long as the log reaches past the saved entries its length does not matter. -/
theorem DataSaver.inFile_of_le {length length' : Nat} (h : d.savedEnd ≤ length)
    (h' : d.savedEnd ≤ length') :
    d.inFile length' = d.inFile length ∧ d.inFile length ≤ d.savedEnd := by
  unfold DataSaver.inFile DataSaver.savedEnd at *
  cases hjob : d.job with
  | none =>
    simp only [hjob] at h h' ⊢
    omega
  | some job =>
    simp only [true_and]
    split <;> omega

theorem DataSaver.JobOk.relog {log' : List LogEntry} (h : d.JobOk log)
    (hpre : log.take d.savedEnd <+: log') : d.JobOk log' := by
  intro job hjob
  obtain ⟨hidx, hbound, hcopy⟩ := h job hjob
  have hend : d.savedEnd = job.idx + job.logCopy.length := by
    unfold DataSaver.savedEnd
    rw [Option.mem_def.mp hjob]
  have hlen := hpre.length_le
  rw [List.length_take] at hlen
  refine ⟨hidx, by omega, ?_⟩
  have heq : job.logCopy = (log.take d.savedEnd).drop job.idx := by
    rw [List.drop_take, hend, Nat.add_sub_cancel_left]
    exact List.prefix_iff_eq_take.mp hcopy
  rw [heq]
  exact hpre.drop _

/-- The saver and the files have not changed, but for the counter of calls. -/
structure Server.SameSaved (c c' : Server n σ) : Prop where
  files : c'.files = c.files
  job : c'.saver.job = c.saver.job
  index : c'.saver.previousSavedIndex = c.saver.previousSavedIndex

theorem Server.SameSaved.inFile (h : c.SameSaved c') (length : Nat) :
    c'.saver.inFile length = c.saver.inFile length := by
  unfold DataSaver.inFile
  rw [h.job, h.index]

theorem Server.SameSaved.jobOk (h : c.SameSaved c') (hjob : c.saver.JobOk log) :
    c'.saver.JobOk log := by
  unfold DataSaver.JobOk
  rw [h.job, h.index]
  exact hjob

theorem Server.SameSaved.metadataOk (h : c.SameSaved c') (hmeta : c.saver.MetadataOk c.files) :
    c'.saver.MetadataOk c'.files := by
  unfold DataSaver.MetadataOk
  rw [h.job, h.files]
  exact hmeta

/-- Log and snapshot are as before. -/
theorem Mirrors.same (h : Mirrors full c) (hsame : c.SameSaved c')
    (hlog : c'.raft.log = c.raft.log)
    (hbase : c'.raft.snapshotter.lastIndex = c.raft.snapshotter.lastIndex)
    (hpending : c.savePending → c'.savePending) : Mirrors full c' where
  window := by
    rw [hlog, hbase]
    exact h.window
  file := by
    rw [hsame.files, hsame.inFile, hlog, hbase]
    exact h.file
  job := by
    rw [hlog]
    exact hsame.jobOk h.job
  metadata := hsame.metadataOk h.metadata
  pending hlt := by
    rw [hsame.index, hlog] at hlt
    exact hpending (h.pending hlt)

/-- The log in memory changes after the saved entries only. -/
theorem Mirrors.relog (h : Mirrors full c) (hsame : c.SameSaved c')
    (hbase : c'.raft.snapshotter.lastIndex = c.raft.snapshotter.lastIndex)
    (hend : c.saver.savedEnd ≤ c.raft.log.length)
    (hpre : c.raft.log.take c.saver.savedEnd <+: c'.raft.log) (hpending : c'.savePending) :
    ∃ full', Mirrors full' c' := by
  have hlen := hpre.length_le
  rw [List.length_take, Nat.min_eq_left hend] at hlen
  obtain ⟨hin, hle⟩ := DataSaver.inFile_of_le hend hlen
  refine ⟨full.take c.raft.snapshotter.lastIndex.toNat ++ c'.raft.log, ?_, ?_,
    hsame.jobOk (h.job.relog hpre), hsame.metadataOk h.metadata, fun _ ↦ hpending⟩
  · rw [hbase]
    exact h.window.replace _
  · rw [hsame.files, h.file, hsame.inFile, hbase, hin]
    exact (h.window.take_replace (hle.trans hend)
      ((List.take_prefix_take_left hle).trans hpre)).symm

/-- All of the log is in the file. -/
theorem Mirrors.file_eq_full (h : Mirrors full c) (hall : c.allSaved) :
    c.files.log.getD [] = full := by
  obtain ⟨hjob, hle⟩ := hall
  have hlen := h.window.length
  have h0 := h.window.1
  rw [h.file, DataSaver.inFile, hjob]
  exact List.take_of_length_le (by simp only; omega)

/-- A log that is all saved may be moved out of memory, as far as the end of the whole log. -/
theorem Mirrors.move (h : Mirrors full c) (hsame : c.SameSaved c') (hall : c.allSaved)
    (hwindow : IsWindow full c'.raft.snapshotter.lastIndex c'.raft.log)
    (hle : c'.raft.log.length ≤ c.raft.log.length) : Mirrors full c' where
  window := hwindow
  file := by
    obtain ⟨hjob, hsaved⟩ := id hall
    have hlen := hwindow.length
    have h0 := hwindow.1
    rw [hsame.files, h.file_eq_full hall, hsame.inFile, DataSaver.inFile, hjob]
    exact (List.take_of_length_le (by simp only; omega)).symm
  job job hjob := by
    rw [hsame.job, hall.1] at hjob
    cases hjob
  metadata := hsame.metadataOk h.metadata
  pending hlt := by
    have := hall.2
    rw [hsame.index] at hlt
    omega

theorem DataSaver.savedEnd_le (h : d.JobOk log) (hle : d.previousSavedIndex ≤ log.length) :
    d.savedEnd ≤ log.length := by
  unfold DataSaver.savedEnd
  cases hjob : d.job with
  | none => exact hle
  | some job => exact (h job hjob).2.1

/-- The entries that stay in memory when a request is taken in. -/
theorem appendSuffix_log (r : Raft n σ) (args : LogRequestArgs n) :
    (r.conflicts args.prefixLen args.suffix ∧
      (r.appendSuffix args.prefixLen args.suffix).log =
        r.log.take (args.prefixLen - r.snapshotter.lastIndex).toNat ++
          r.missingEntries args.prefixLen args.suffix) ∨
      (r.appendSuffix args.prefixLen args.suffix).log =
        r.log ++ r.missingEntries args.prefixLen args.suffix := by
  unfold Raft.appendSuffix Raft.truncatedLog
  by_cases hconf : r.conflicts args.prefixLen args.suffix
  · exact Or.inl ⟨hconf, by rw [if_pos hconf]⟩
  · exact Or.inr (by rw [if_neg hconf])

/-- `appendEntries` cuts no saved entry and keeps the log after those it has. -/
theorem Mirrors.appendSuffix (h : Mirrors full c) (hsame : c.SameSaved c')
    {args : LogRequestArgs n}
    (hcut : c.raft.conflicts args.prefixLen args.suffix →
      (c.saver.savedEnd : Int) ≤ args.prefixLen - c.raft.snapshotter.lastIndex)
    (hgrow : c.raft.missingEntries args.prefixLen args.suffix ≠ [] →
      c.saver.previousSavedIndex ≤ c.raft.log.length)
    (hlog : c'.raft.log = (c.raft.appendSuffix args.prefixLen args.suffix).log)
    (hbase : c'.raft.snapshotter.lastIndex = c.raft.snapshotter.lastIndex)
    (hpending : c'.savePending) : ∃ full', Mirrors full' c' := by
  rcases appendSuffix_log c.raft args with ⟨hconf, heq⟩ | heq
  · have hend := hcut hconf
    have hlt := hconf.1
    unfold Raft.absLength at hlt
    refine h.relog hsame hbase (by omega) ?_ hpending
    rw [hlog, heq]
    exact (List.take_prefix_take_left (by omega)).trans (List.prefix_append _ _)
  · by_cases hnil : c.raft.missingEntries args.prefixLen args.suffix = []
    · rw [hnil, List.append_nil] at heq
      exact ⟨full, h.same hsame (hlog.trans heq) hbase fun _ ↦ hpending⟩
    · refine h.relog hsame hbase (DataSaver.savedEnd_le h.job (hgrow hnil)) ?_ hpending
      rw [hlog, heq]
      exact (List.take_prefix _ _).trans (List.prefix_append _ _)

/-- A log that was left alone is as well mirrored as before. -/
theorem Mirrors.sameLog (h : Mirrors full c) (hsame : c.SameSaved c')
    (hlog : c.raft.SameLog c'.raft) (hpending : c.savePending → c'.savePending) :
    Mirrors full c' :=
  h.same hsame hlog.log (congrArg Snapshot.lastIndex hlog.snapshotter) hpending

/-- A log that is all saved and then compacted has only moved. -/
theorem Mirrors.compact (h : Mirrors full c) (hsame : c.SameSaved c') (hall : c.allSaved)
    {r : Raft n σ} (hlog : r.log = c.raft.log) (hsnap : r.snapshotter = c.raft.snapshotter)
    (hpos : 0 < r.comittedCount) (hle : r.comittedCount ≤ r.log.length)
    (hbase : c'.raft.snapshotter.lastIndex = r.commitedLength)
    (hdrop : c'.raft.log = r.log.drop r.comittedCount.toNat) : Mirrors full c' := by
  have hcount : c.raft.snapshotter.lastIndex + r.comittedCount.toNat = r.commitedLength := by
    unfold Raft.comittedCount at hpos ⊢
    rw [hsnap] at hpos ⊢
    omega
  rw [hlog] at hle hdrop
  apply h.move hsame hall
  · rw [hbase, hdrop, ← hcount]
    exact h.window.drop (by omega)
  · rw [hdrop, List.length_drop]
    omega

theorem Mirrors.appendEntries (h : Mirrors full c) (hsame : c.SameSaved c')
    {args : LogRequestArgs n} {ds : List Delivery}
    (hkept : c.savedKept app (.appendEntries args disk) = true)
    (happ : c.raft.appendEntries app disk args = some (c'.raft, ds)) (hpending : c'.savePending) :
    ∃ full', Mirrors full' c' := by
  obtain ⟨hcut, hgrow, hcompact⟩ := of_decide_eq_true hkept
  obtain ⟨r₁, hcommit, hsnap⟩ := Raft.appendEntries_cases happ
  have hlog₁ : r₁.log = (c.raft.appendSuffix args.prefixLen args.suffix).log ∧
      r₁.snapshotter = c.raft.snapshotter := by
    obtain ⟨-, rfl, -⟩ | ⟨-, -, -, application, rfl⟩ := Raft.commitTo_spec hcommit <;>
      exact ⟨rfl, rfl⟩
  obtain ⟨file, hr'⟩ | ⟨file, entry, hlong, hpos, hle, -, hr'⟩ :=
    Raft.decideRunSnapshot_cases hsnap
  · refine h.appendSuffix hsame hcut hgrow ?_ ?_ hpending
    · rw [hr']
      exact hlog₁.1
    · rw [hr']
      exact congrArg Snapshot.lastIndex hlog₁.2
  · obtain ⟨heq, hall⟩ : r₁.log = c.raft.log ∧ c.allSaved := by
      obtain hshort | hnone | hmoved : c.compactsSaved r₁ := hcompact _ hcommit
      · omega
      · omega
      · exact hmoved
    refine ⟨full, h.compact hsame hall heq hlog₁.2 hpos hle ?_ ?_⟩
    · rw [hr']
      rfl
    · rw [hr']
      rfl

theorem Mirrors.installSnapshot (h : Mirrors full c) (hsame : c.SameSaved c')
    {req : InstallSnapshotRequest n} {r' : Raft n σ} {reply : Option InstallSnapshotResponse}
    (hkept : c.savedKept app (.installSnapshot req disk) = true)
    (hout : c.raft.InstallOutcome app disk req r' reply) (hraft : c'.raft = r')
    (hpending : c.savePending → c'.savePending) : Mirrors full c' := by
  cases hout with
  | stale => exact h.sameLog hsame (hraft ▸ .refl _) hpending
  | stored => exact h.sameLog hsame (hraft ▸ ⟨by simp, by simp, by simp⟩) hpending
  | failed hterm hdone hfail =>
    have hok := (of_decide_eq_true hkept hdone hterm).2.2
    rw [hfail] at hok
    cases hok
  | restored hterm hdone =>
    obtain ⟨hall, hindex, -⟩ := of_decide_eq_true hkept hdone hterm
    -- the snapshot ends where the log does, so nothing is kept after it
    have hnil : c.raft.logAfterSnapshot req = [] := if_neg fun hretain ↦ by
      have := hretain.1
      omega
    have hlen := h.window.length
    have h0 := h.window.1
    unfold Raft.absLength at hindex
    apply h.move hsame hall
    · rw [hraft]
      simp only [hnil]
      exact .nil (by omega) (by omega)
    · rw [hraft]
      simp [hnil]

theorem Mirrors.handle (h : Mirrors full c) (hkept : c.savedKept app a = true)
    (hstep : c.handle app i a = some c') : ∃ full', Mirrors full' c' := by
  obtain ⟨-, -, e, hact, hc'⟩ := Server.handle_cases hstep
  have hpending : c.savePending → c'.savePending := fun hold ↦ savePending_handle hold hc'
  have hraft : c'.raft = e.state := congrArg Server.raft hc'
  have hsame : c.SameSaved c' := by
    rw [hc', Server.apply]
    refine ⟨rfl, ?_, ?_⟩
    · simp only
      split <;> rfl
    · simp only
      split <;> rfl
  have hstays : c.raft.SameLog e.state → ∃ full', Mirrors full' c' := fun hlog ↦
    ⟨full, h.sameLog hsame (hraft ▸ hlog) hpending⟩
  cases Raft.act_log hact with
  | broadcasts m =>
    have hle : c.saver.previousSavedIndex ≤ c.raft.log.length := of_decide_eq_true hkept
    refine h.relog hsame (by rw [hraft]; rfl) (DataSaver.savedEnd_le h.job hle) ?_ ?_
    · rw [hraft]
      exact (List.take_prefix _ _).trans (List.prefix_append _ _)
    · rw [hc']
      exact Or.inl (Nat.succ_pos _)
  | @appends args disk r' ds happ =>
    refine h.appendEntries hsame hkept (happ.trans (by rw [hraft])) ?_
    rw [hc']
    exact Or.inr (Or.inr (Or.inr (Or.inr ⟨.logReply args,
      List.mem_append_right _ (List.mem_singleton.mpr rfl), rfl⟩)))
  | accepts args => exact hstays Raft.followLeader_sameLog
  | installs hinst hout => exact ⟨full, h.installSnapshot hsame hkept hout hraft hpending⟩
  | commits hcommits hcommit =>
    obtain ⟨rfl, -⟩ := Raft.commitLogEntries_spec hcommit
    exact ⟨full, h.same hsame (by rw [hraft]; rfl) (by rw [hraft]; rfl) hpending⟩
  | delivers d rest => exact hstays ⟨rfl, rfl, rfl⟩
  | other hlog => exact hstays hlog

/-! ## Steps of the data saver -/

theorem DataSaver.enqueue_pos (d : DataSaver n) : 0 < d.enqueue.queue := by
  unfold DataSaver.enqueue
  split
  · exact Nat.succ_pos _
  · rename_i hfull
    unfold saveQueueCapacity at hfull
    omega

theorem DataSaver.enqueue_same (d : DataSaver n) :
    d.enqueue.job = d.job ∧ d.enqueue.previousSavedIndex = d.previousSavedIndex := by
  unfold DataSaver.enqueue
  split <;> exact ⟨rfl, rfl⟩

theorem DataSaver.finishSave_spec (d : DataSaver n) (job : SaveJob n) (length : Nat) :
    (d.finishSave job length).job = none ∧
      (d.finishSave job length).previousSavedIndex =
        min (job.idx + job.logCopy.length) length ∧
      ((d.finishSave job length).previousSavedIndex < length →
        0 < (d.finishSave job length).queue) := by
  unfold DataSaver.finishSave
  simp only
  split
  · obtain ⟨hjob, hindex⟩ := DataSaver.enqueue_same { d with
      previousSavedIndex := min (job.idx + job.logCopy.length) length, job := none }
    exact ⟨hjob, hindex, fun _ ↦ DataSaver.enqueue_pos _⟩
  · rename_i hend
    exact ⟨rfl, rfl, fun hlt ↦ absurd hlt hend⟩

theorem Mirrors.beginSave (h : Mirrors full c) (hidle : c.saver.job = none) :
    Mirrors full { c with saver := c.saver.beginSave c.raft } := by
  have hfile := h.file
  have hmeta := h.metadata
  rw [DataSaver.inFile, hidle] at hfile
  rw [DataSaver.MetadataOk, hidle] at hmeta
  by_cases hend : min c.saver.previousSavedIndex c.raft.log.length = c.raft.log.length
  · refine ⟨h.window, ?_, ?_, ?_, ?_⟩
    · simp only [DataSaver.beginSave, DataSaver.inFile, if_pos hend] at hfile ⊢
      rw [hfile, Nat.min_assoc, Nat.min_self]
    · intro job hjob
      simp only [DataSaver.beginSave, if_pos hend] at hjob
      cases hjob
    · simpa only [DataSaver.beginSave, DataSaver.MetadataOk, if_pos hend] using hmeta
    · intro hlt
      simp only [DataSaver.beginSave] at hlt
      omega
  · refine ⟨h.window, ?_, ?_, ?_, ?_⟩
    · simpa only [DataSaver.beginSave, DataSaver.inFile, if_neg hend, reduceCtorEq, if_false]
        using hfile
    · intro job hjob
      simp only [DataSaver.beginSave, if_neg hend] at hjob
      obtain rfl := Option.some.inj hjob
      refine ⟨rfl, ?_, List.take_prefix _ _⟩
      simp only [List.length_take, List.length_drop]
      omega
    · simpa only [DataSaver.beginSave, DataSaver.MetadataOk, if_neg hend, Option.map_some,
        Option.map_none] using hmeta
    · intro _
      refine Or.inr (Or.inr (Or.inr (Or.inl ?_)))
      simp only [DataSaver.beginSave, if_neg hend]
      nofun

/-- The file grows by the entries that were copied. -/
theorem take_append_logCopy {base : Int} {w : List LogEntry} (hwindow : IsWindow full base w)
    (hcopy : job.logCopy <+: w.drop job.idx) : full.take (base.toNat + job.idx) ++ job.logCopy =
      full.take (base.toNat + (job.idx + job.logCopy.length)) := by
  obtain ⟨-, -, rfl⟩ := hwindow
  rw [List.drop_drop] at hcopy
  rw [← Nat.add_assoc]
  nth_rewrite 1 [List.prefix_iff_eq_take.mp hcopy]
  exact List.take_add.symm

/-- While the files are written only the stage of the save changes. -/
theorem Mirrors.write (h : Mirrors full c) (hjob : c.saver.job = some job) {stage : SaveStage}
    {files : Files n}
    (hlog : files.log.getD [] = full.take (c.raft.snapshotter.lastIndex.toNat + if stage = .finish
      then job.idx + job.logCopy.length else job.idx))
    (hmetadata : ({ c.saver with
      job := some { job with stage := stage } } : DataSaver n).MetadataOk files) :
    Mirrors full { c with
      files := files
      saver := { c.saver with job := some { job with stage := stage } } } := by
  refine ⟨h.window, hlog, fun x hx ↦ ?_, hmetadata, fun _ ↦ ?_⟩
  · obtain rfl := Option.some.inj hx
    exact h.job job hjob
  · simp [Server.savePending]

theorem Mirrors.finishSave (h : Mirrors full c) (hjob : c.saver.job = some job)
    (hstage : job.stage = .finish) :
    Mirrors full { c with saver := c.saver.finishSave job c.raft.log.length } := by
  obtain ⟨hidx, hbound, hcopy⟩ := h.job job hjob
  have hfile := h.file
  have hmeta := h.metadata
  rw [DataSaver.inFile, hjob] at hfile
  rw [DataSaver.MetadataOk, hjob] at hmeta
  simp only [hstage, Option.map_some, if_true] at hfile hmeta
  obtain ⟨hnone, hindex, hqueued⟩ := c.saver.finishSave_spec job c.raft.log.length
  rw [Nat.min_eq_left hbound] at hindex
  refine ⟨h.window, ?_, fun x hx ↦ ?_, ?_, fun hlt ↦ Or.inr (Or.inl (hqueued hlt))⟩
  · simp only [DataSaver.inFile, hnone, hindex, Nat.min_eq_left hbound]
    exact hfile
  · rw [hnone] at hx
    cases hx
  · simp only [DataSaver.MetadataOk, hnone, Option.map_none]
    exact Or.inr hmeta

theorem Mirrors.continueSave (h : Mirrors full c) (hstep : c.continueSave = some c') :
    Mirrors full c' := by
  obtain ⟨job, hjob, rfl⟩ := Option.map_eq_some_iff.mp hstep
  have hfile := h.file
  have hmeta := h.metadata
  rw [DataSaver.inFile, hjob] at hfile
  rw [DataSaver.MetadataOk, hjob] at hmeta
  cases hstage : job.stage with
  | openLog =>
    simp only [hstage] at hfile hmeta
    refine h.write hjob ?_ ?_
    · simpa [Files.write, hstage] using hfile
    · simpa [Files.write, hstage, DataSaver.MetadataOk, Files.Whole] using hmeta
  | createMetadata =>
    simp only [hstage] at hfile
    refine h.write hjob ?_ trivial
    simpa [Files.write, hstage] using hfile
  | saveMetadata =>
    simp only [hstage] at hfile
    refine h.write hjob ?_ ⟨job.metadata, ?_⟩
    · simpa [Files.write, hstage] using hfile
    · simp [Files.write, hstage]
  | saveLog =>
    simp only [hstage, Option.map_some] at hfile hmeta
    refine h.write hjob ?_ ?_
    · simp only [Files.write, hstage, Option.getD_some, if_true]
      rw [hfile]
      exact take_append_logCopy h.window (h.job job hjob).2.2
    · simpa [Files.write, hstage, DataSaver.MetadataOk] using hmeta
  | finish => exact h.finishSave hjob hstage

/-- What `LoadValues` finds, in terms of the log file. -/
theorem Files.loadValues_cases (files : Files n)
    (hfound : files.loadValues.isSome = true ∨ files.log.getD [] = []) :
    (∃ metadata, files.loadValues = some (metadata, files.log.getD []) ∧
      files.metadata = some (some metadata)) ∨
      files.loadValues = none ∧ files.log.getD [] = [] := by
  unfold Files.loadValues at *
  split
  · rename_i logs metadata hlog hmeta
    exact Or.inl ⟨metadata, by rw [hlog]; rfl, hmeta⟩
  · rename_i hnone
    refine Or.inr ⟨rfl, hfound.resolve_left fun hsome ↦ ?_⟩
    split at hsome
    · rename_i hlog hmeta
      exact hnone _ _ hlog hmeta
    · cases hsome

/-- After a crash the log in memory is the log file, and all of it counts as saved. -/
theorem mirrors_restart (hfound : c.files.loadValues.isSome = true ∨ c.files.log.getD [] = []) :
    Mirrors (c.files.log.getD []) (c.restart app application disk) := by
  obtain ⟨hlog, hsaved, hwhole⟩ :
      (c.newRaftFrom app application disk).log = c.files.log.getD [] ∧
      (c.files.loadValues.map fun x ↦ x.2.length).getD 0 = (c.files.log.getD []).length ∧
      c.files.Whole := by
    unfold Server.newRaftFrom
    obtain ⟨metadata, hload, hmeta⟩ | ⟨hload, hnil⟩ := c.files.loadValues_cases hfound
    · rw [hload]
      exact ⟨rfl, rfl, Or.inr ⟨metadata, hmeta⟩⟩
    · rw [hload, hnil]
      exact ⟨rfl, rfl, Or.inl hnil⟩
  have hbase : (c.newRaftFrom app application disk).snapshotter.lastIndex = 0 := by
    unfold Server.newRaftFrom
    cases c.files.loadValues <;> rfl
  refine ⟨?_, ?_, (fun _ hjob ↦ nomatch hjob), hwhole, fun hlt ↦ ?_⟩
  · simp only [Server.restart, hlog, hbase]
    exact ⟨le_rfl, Int.natCast_nonneg _, rfl⟩
  · simp [Server.restart, hlog, hbase, DataSaver.start, DataSaver.inFile, hsaved]
  · simp only [Server.restart, hlog, DataSaver.start, hsaved] at hlt
    exact absurd hlt (Nat.lt_irrefl _)

theorem Mirrors.step (h : Mirrors full c) {a : ServerAction n} (hsaved : LogSaved app c a)
    (hstep : c.step app application i a = some c') : ∃ full', Mirrors full' c' := by
  cases a with
  | handle a => exact h.handle hsaved hstep
  | saveValues =>
    obtain ⟨-, hc'⟩ := Option.ite_none_right_eq_some.mp hstep
    obtain rfl := Option.some.inj hc'
    refine ⟨full, h.same ⟨rfl, ?_, ?_⟩ rfl rfl fun _ ↦ Or.inr (Or.inl (DataSaver.enqueue_pos _))⟩
    · exact (DataSaver.enqueue_same _).1
    · exact (DataSaver.enqueue_same _).2
  | takeRequest =>
    obtain ⟨saver, htake, rfl⟩ := Option.map_eq_some_iff.mp hstep
    obtain ⟨-, hsaver⟩ := Option.ite_none_right_eq_some.mp htake
    obtain rfl := Option.some.inj hsaver
    exact ⟨full, h.same ⟨rfl, rfl, rfl⟩ rfl rfl fun _ ↦
      Or.inr (Or.inr (Or.inl (Nat.succ_pos _)))⟩
  | beginSave =>
    obtain ⟨⟨-, hidle⟩, hc'⟩ := Option.ite_none_right_eq_some.mp hstep
    obtain rfl := Option.some.inj hc'
    exact ⟨full, h.beginSave hidle⟩
  | continueSave => exact ⟨full, h.continueSave hstep⟩
  | failSave written => exact hsaved.elim
  | restart disk =>
    obtain rfl := Option.some.inj hstep
    exact ⟨_, mirrors_restart hsaved⟩

theorem mirrors_start (snapshotThreshold : Int) (application : σ) :
    Mirrors [] (Server.start n snapshotThreshold application) where
  window := .nil le_rfl rfl
  file := rfl
  job := fun _ hjob ↦ nomatch hjob
  metadata := Or.inl rfl
  pending := fun hlt ↦ absurd hlt (Nat.lt_irrefl 0)

theorem Mirrors.reaches (h : Mirrors full c)
    (hrun : Reaches (Server.step app application i) (LogSaved app) c c') :
    ∃ full', Mirrors full' c' :=
  hrun.invariant (fun c ↦ ∃ full, Mirrors full c) ⟨full, h⟩
    fun _ _ _ _ ⟨_, h⟩ hsaved hstep ↦ h.step hsaved hstep

/-- With no save pending the whole log is on disk. -/
theorem Mirrors.loadedLog (h : Mirrors full c) (hidle : ¬ c.savePending) :
    c.files.loadedLog = full := by
  have hjob : c.saver.job = none := by
    by_contra hjob
    exact hidle (Or.inr (Or.inr (Or.inr (Or.inl hjob))))
  have hall : c.allSaved := ⟨hjob, Nat.le_of_not_lt fun hlt ↦ hidle (h.pending hlt)⟩
  have hwhole : c.files.Whole := by
    have hmeta := h.metadata
    rwa [DataSaver.MetadataOk, hjob] at hmeta
  exact hwhole.loadedLog.trans (h.file_eq_full hall)

theorem Mirrors.index?_loadedLog (h : Mirrors full c) (hidle : ¬ c.savePending) {p : Int}
    (hp : c.raft.snapshotter.lastIndex ≤ p) :
    index? c.files.loadedLog p = c.raft.entryAt p := by
  have h0 := h.window.1
  rw [h.loadedLog hidle, Raft.entryAt, h.window.at?_eq hp, index?, if_pos (h0.trans hp)]

/-- In a run that leaves saved entries where `previousSavedIndex` expects them, `LoadValues` reads
back the log in memory, position by position from the snapshot on, whenever no save is pending. -/
theorem saved_log_mirrors (app : Application σ) (application : σ) (i : Fin n)
    (snapshotThreshold : Int) {c : Server n σ}
    (hrun : Reaches (Server.step app application i) (LogSaved app)
      (Server.start n snapshotThreshold application) c) (hidle : ¬ c.savePending) {p : Int}
    (hp : c.raft.snapshotter.lastIndex ≤ p) :
    index? c.files.loadedLog p = c.raft.entryAt p := by
  obtain ⟨full, h⟩ := (mirrors_start snapshotThreshold application).reaches hrun
  exact h.index?_loadedLog hidle hp

/-- Node 1 takes an entry of the leader of term 1 and saves it. -/
def savedEntry : List (ServerAction 3) :=
  [.handle (.logRequest ⟨0, 1, 0, 0, 0, [⟨1, samplePut 1⟩]⟩),
    .handle (.appendEntries ⟨0, 1, 0, 0, 0, [⟨1, samplePut 1⟩]⟩ .healthy),
    .handle (.logReply ⟨0, 1, 0, 0, 0, [⟨1, samplePut 1⟩]⟩), .saveValues, .takeRequest, .beginSave,
    .continueSave, .continueSave, .continueSave, .continueSave, .continueSave]

theorem saved_log_mirrors_savedEntry : ∃ c : Server 3 Unit,
    Reaches (Server.step keepsNothing () 1) (LogSaved keepsNothing) (Server.start 3 1000 ()) c ∧
      ¬ c.savePending ∧ c.raft.entryAt 0 = some ⟨1, samplePut 1⟩ ∧
      index? c.files.loadedLog 0 = some ⟨1, samplePut 1⟩ := by
  obtain ⟨c, hrun, hidle, hbase, hentry⟩ : ∃ c : Server 3 Unit,
      Reaches (Server.step keepsNothing () 1) (LogSaved keepsNothing) (Server.start 3 1000 ()) c ∧
        ¬ c.savePending ∧ c.raft.snapshotter.lastIndex ≤ 0 ∧
        c.raft.entryAt 0 = some ⟨1, samplePut 1⟩ :=
    exists_reaches_of_exec savedEntry (by decide +kernel)
  exact ⟨c, hrun, hidle, hentry,
    (saved_log_mirrors keepsNothing () 1 1000 hrun hidle hbase).trans hentry⟩

/-- The leader of term 2 has another entry there.  The saved entry is cut from the log in memory;
the save that follows finds nothing to append, and the file keeps the entry. -/
def cutEntry : List (ServerAction 3) :=
  [.handle (.logRequest ⟨2, 2, 0, 0, 0, [⟨2, samplePut 2⟩]⟩),
    .handle (.appendEntries ⟨2, 2, 0, 0, 0, [⟨2, samplePut 2⟩]⟩ .healthy),
    .handle (.logReply ⟨2, 2, 0, 0, 0, [⟨2, samplePut 2⟩]⟩), .saveValues, .takeRequest, .beginSave]

theorem cut_entry_stays_on_disk : ∃ c : Server 3 Unit,
    Reachable (Server.step keepsNothing () 1) (Server.start 3 1000 ()) c ∧
      ¬ c.savePending ∧ c.raft.snapshotter.lastIndex = 0 ∧ c.raft.entryAt 0 = none ∧
      index? c.files.loadedLog 0 = some ⟨1, samplePut 1⟩ :=
  exists_reaches_of_exec (savedEntry ++ cutEntry) (by decide +kernel)

end DistributedCache
