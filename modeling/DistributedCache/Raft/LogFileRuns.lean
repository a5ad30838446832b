import DistributedCache.Lib.Transition
import DistributedCache.Raft.LogFile
import DistributedCache.Raft.Persistence

/-!
# Restarts from the bytes of the log file

`Server` keeps the log file as the list of the entries that were appended to it.  Here the file is
what the encoders have written, down to the byte at which a write was broken off, and `NewRaft`
starts from what one decoder reads of it.  As long as the decoder finds at most one batch and a
complete last entry when a node restarts, the two agree and the node is a `Server`.  From the second
batch on, every restart forgets everything.
-/

namespace DistributedCache

open Gob Network Transition

variable {n : Nat} {σ : Type}

/-- A node with the contents of `logsFilename`, if it exists.  The `files` of `server` say which
entries were appended to it completely. -/
structure GobServer (n : Nat) (σ : Type) where
  server : Server n σ
  file : Option (Gob.Stream GobType GobEntry)

namespace GobServer

/-- The log file, which is created if need be, with more at its end. -/
def appended (s : GobServer n σ) (more : Gob.Stream GobType GobEntry) :
    Option (Gob.Stream GobType GobEntry) :=
  some ((s.file.getD ⟨[], false⟩).append more)

/-- What a `saveLog` that is broken off has written. -/
def tornSave (size : Item GobType GobEntry → Nat) (s : GobServer n σ) (bytes : Nat) :
    Gob.Stream GobType GobEntry :=
  cut size bytes (s.server.saver.job.elim [] fun job ↦ saveLog job.logCopy)

/-- What the log file holds after the next call of the running `doSaveValues`. -/
def written (size : Item GobType GobEntry → Nat) (s : GobServer n σ) :
    ServerAction n → Option (Gob.Stream GobType GobEntry)
  | .continueSave =>
    match s.server.saver.job with
    | some job =>
      match job.stage with
      | .openLog => s.appended ⟨[], false⟩
      | .saveLog => s.appended ⟨saveLog job.logCopy, false⟩
      | _ => s.file
    | none => s.file
  | .failSave bytes =>
    match s.server.saver.job with
    | some job =>
      match job.stage with
      | .saveLog => s.appended (s.tornSave size bytes)
      | _ => s.file
    | none => s.file
  | _ => s.file

/-- The step in the terms of `Server`, which counts the entries that were written completely. -/
def entryAction (size : Item GobType GobEntry → Nat) (s : GobServer n σ) :
    ServerAction n → ServerAction n
  | .failSave bytes => .failSave ((s.tornSave size bytes).items.countP Item.isValue)
  | a => a

/-- The files as `LoadValues` finds them; a log file that cannot be decoded is as good as none. -/
def loaded (s : GobServer n σ) : Files n where
  log := s.file.bind fun f ↦ (loadLogs f).toOption
  metadata := s.server.files.metadata

/-- A crash, and `NewRaft` on what can be read. -/
def restart (app : Application σ) (application : σ) (disk : Disk) (s : GobServer n σ) :
    GobServer n σ where
  server := { ({ s.server with files := s.loaded } : Server n σ).restart app application disk with
    files := s.server.files }
  file := s.file

/-- `.failSave` is given the bytes that were written.  A crash within `saveLog` is a `.failSave`
with a `.restart` right after it. -/
def step (size : Item GobType GobEntry → Nat) (app : Application σ) (application : σ) (i : Fin n)
    (s : GobServer n σ) (a : ServerAction n) : Option (GobServer n σ) :=
  match a with
  | .restart disk => some (s.restart app application disk)
  | a => (s.server.step app application i (s.entryAction size a)).map fun server ↦
      ⟨server, s.written size a⟩

def start (n : Nat) (snapshotThreshold : Int) (application : σ) : GobServer n σ :=
  ⟨.start n snapshotThreshold application, none⟩

/-- The batches in the log file: each of them defines the type of an entry once. -/
def batchCount (s : GobServer n σ) : Nat :=
  ((s.file.map (·.items)).getD []).count (.typeDef .logEntry)

/-- The log file, if there is one, ends after an entry, and no second batch begins in it. -/
def Readable (s : GobServer n σ) : Prop :=
  ∀ f ∈ s.file, f.endsAtValue = true ∧ (typeDefs f.items).Nodup
deriving Decidable

end GobServer

/-! ## 1. What is in the file -/

theorem Server.newRaftFrom_of_none {c : Server n σ} (app : Application σ) (application : σ)
    (disk : Disk) (h : c.files.loadValues = none) :
    (c.newRaftFrom app application disk).currentTerm = 0 ∧
      (c.newRaftFrom app application disk).votedFor = none ∧
      (c.newRaftFrom app application disk).log = [] ∧
      (c.newRaftFrom app application disk).commitedLength = 0 := by
  unfold newRaftFrom
  rw [h]
  exact ⟨rfl, rfl, rfl, rfl⟩

namespace GobServer

variable {size : Item GobType GobEntry → Nat} {app : Application σ} {application : σ} {i : Fin n}
  {s s' : GobServer n σ} {a : ServerAction n}

theorem step_cases (h : s.step size app application i a = some s') :
    (∃ disk, a = .restart disk ∧ s' = s.restart app application disk) ∨
      s.server.step app application i (s.entryAction size a) = some s'.server ∧
        s'.file = s.written size a := by
  cases a with
  | restart disk => exact Or.inl ⟨disk, rfl, (Option.some.inj h).symm⟩
  | _ =>
    obtain ⟨server, hserver, rfl⟩ := Option.map_eq_some_iff.mp h
    exact Or.inr ⟨hserver, rfl⟩

/-- A step leaves the log file alone, or appends to it, with which the file is created if need
be. -/
theorem written_cases (size : Item GobType GobEntry → Nat) (s : GobServer n σ)
    (a : ServerAction n) :
    (s.server.filesAfter (s.entryAction size a)).log = s.server.files.log ∧
        s.written size a = s.file ∨
      ∃ batch more, values more.items = batch.map LogEntry.gob ∧
        (s.server.filesAfter (s.entryAction size a)).log =
          some (s.server.files.log.getD [] ++ batch) ∧
        s.written size a = s.appended more := by
  cases a with
  | continueSave =>
    unfold Server.filesAfter written entryAction
    cases s.server.saver.job with
    | none => exact Or.inl ⟨rfl, rfl⟩
    | some job =>
      simp only [Option.elim_some, Files.write]
      cases job.stage with
      | openLog => exact Or.inr ⟨[], ⟨[], false⟩, rfl, by rw [List.append_nil], rfl⟩
      | saveLog => exact Or.inr ⟨job.logCopy, _, values_saveLog _, rfl, rfl⟩
      | _ => exact Or.inl ⟨rfl, rfl⟩
  | failSave bytes =>
    unfold Server.filesAfter written entryAction tornSave
    cases s.server.saver.job with
    | none => exact Or.inl ⟨rfl, rfl⟩
    | some job =>
      simp only [Option.elim_some, Files.writeFailed]
      cases job.stage with
      | saveLog =>
        refine Or.inr ⟨_, _, ?_, rfl, rfl⟩
        rw [values_of_isPrefix (cut_isPrefix size bytes _), values_saveLog, List.map_take]
      | _ => exact Or.inl ⟨rfl, rfl⟩
  | _ => exact Or.inl ⟨rfl, rfl⟩

/-- Unless a write was broken off, the file holds the entries that were appended. -/
def Holds (s : GobServer n σ) : Prop :=
  match s.file with
  | none => s.server.files.log = none
  | some f => f.torn = false →
    ∃ logs, s.server.files.log = some logs ∧ values f.items = logs.map LogEntry.gob

/-- A file that is not there is as good as an empty one when something is appended. -/
theorem Holds.opened (h : s.Holds) (htorn : (s.file.getD ⟨[], false⟩).torn = false) :
    values (s.file.getD ⟨[], false⟩).items =
      (s.server.files.log.getD []).map LogEntry.gob := by
  unfold Holds at h
  cases hfile : s.file with
  | none =>
    rw [hfile] at h
    rw [h]
    rfl
  | some f =>
    rw [hfile] at h htorn
    obtain ⟨logs, hlog, hvalues⟩ := h htorn
    rw [hlog]
    exact hvalues

theorem Holds.step (h : s.Holds) (hstep : s.step size app application i a = some s') :
    s'.Holds := by
  cases step_cases hstep with
  | inl hrestart =>
    obtain ⟨disk, -, rfl⟩ := hrestart
    exact h
  | inr hserver =>
    obtain ⟨hserver, hfile⟩ := hserver
    have hfiles := Server.files_step hserver
    unfold Holds
    rw [hfiles, hfile]
    cases s.written_cases size a with
    | inl hsame =>
      rw [hsame.1, hsame.2]
      exact h
    | inr happend =>
      obtain ⟨batch, more, hvalues, hlog, hwritten⟩ := happend
      rw [hlog, hwritten]
      intro htorn
      obtain ⟨hwhole, hitems⟩ := Stream.append_of_not_torn htorn
      refine ⟨_, rfl, ?_⟩
      rw [hitems, values_append, h.opened hwhole, hvalues, List.map_append]

theorem holds_of_reaches {guard : GobServer n σ → ServerAction n → Prop} {snapshotThreshold : Int}
    (hrun : Reaches (step size app application i) guard (start n snapshotThreshold application)
      s) : s.Holds := by
  apply hrun.invariant Holds
  · exact (rfl : (start n snapshotThreshold application).server.files.log = none)
  · intro s a s' _ h _ hstep
    exact h.step hstep

/-! ## 2. One batch -/

/-- When the node restarts, its log file can be read, and no value that was appended to it points to
zero. -/
def RestartsReadable (s : GobServer n σ) : ServerAction n → Prop
  | .restart _ => s.Readable ∧ ∀ e ∈ s.server.files.log.getD [], e.message.value ≠ some 0
  | _ => True

instance (s : GobServer n σ) : ∀ a, Decidable (s.RestartsReadable a)
  | .restart _ => inferInstanceAs (Decidable (_ ∧ _))
  | .handle _ | .saveValues | .takeRequest | .beginSave | .continueSave | .failSave _ =>
    isTrue trivial

/-- A file that can be read gives back the entries that were appended to it. -/
theorem Holds.loaded (h : s.Holds) (hread : s.Readable)
    (hvalue : ∀ e ∈ s.server.files.log.getD [], e.message.value ≠ some 0) :
    s.loaded = s.server.files := by
  have hlog : s.loaded.log = s.server.files.log := by
    unfold GobServer.loaded
    unfold Holds at h
    cases hfile : s.file with
    | none =>
      rw [hfile] at h
      exact h.symm
    | some f =>
      obtain ⟨hend, hdefs⟩ := hread f hfile
      have htorn : f.torn = false := by
        unfold Stream.endsAtValue at hend
        rw [Bool.and_eq_true, Bool.not_eq_true'] at hend
        exact hend.1
      rw [hfile] at h
      obtain ⟨logs, hlog, hvalues⟩ := h htorn
      rw [hlog, Option.getD_some] at hvalue
      have hload : loadLogs f = .ok logs := by
        refine loadLogs_ok_iff.mpr ⟨hend, hdefs, ?_⟩
        rw [hvalues, map_logEntry_gob_eq_self_iff.mpr hvalue]
      show (loadLogs f).toOption = _
      rw [hload, hlog]
      rfl
  show (⟨s.loaded.log, s.server.files.metadata⟩ : Files n) = s.server.files
  rw [hlog]

/-- A restart from a log file that can be read. -/
theorem Holds.server_restart (h : s.Holds) {disk : Disk}
    (hread : s.RestartsReadable (.restart disk)) :
    (s.restart app application disk).server = s.server.restart app application disk := by
  unfold GobServer.restart
  rw [h.loaded hread.1 hread.2]
  rfl

/-- The runs of the node are runs of a `Server`, also those that keep to a condition of its. -/
theorem reaches_server {snapshotThreshold : Int} {guard : Server n σ → ServerAction n → Prop}
    (hrun : Reaches (step size app application i)
      (fun s a ↦ s.RestartsReadable a ∧ guard s.server (s.entryAction size a))
      (start n snapshotThreshold application) s) :
    Reaches (Server.step app application i) guard (Server.start n snapshotThreshold application)
      s.server := by
  induction hrun with
  | refl => exact .refl
  | @tail s s' a hbefore hguard hstep ih =>
    cases step_cases hstep with
    | inr hserver => exact ih.tail hguard.2 hserver.1
    | inl hrestart =>
      obtain ⟨disk, rfl, rfl⟩ := hrestart
      apply ih.tail hguard.2
      rw [(holds_of_reaches hbefore).server_restart hguard.1]
      rfl

/-- As long as every restart finds a log file that ends after an entry and holds at most one batch,
a node that reads its files byte by byte is a node that finds in its log file what was appended to
it. -/
theorem gob_refines {snapshotThreshold : Int}
    (hrun : Reaches (step size app application i) RestartsReadable
      (start n snapshotThreshold application) s) :
    Reachable (Server.step app application i) (Server.start n snapshotThreshold application)
      s.server :=
  reaches_server (hrun.mono fun _ _ h ↦ ⟨h, trivial⟩)

/-- Two definitions and one of two entries are written, ten bytes each; then the node crashes. -/
theorem gob_refines_saved :
    ∃ s : GobServer 3 Unit,
      Reaches (step (fun _ ↦ 10) keepsNothing () 1) RestartsReadable (start 3 1000 ()) s ∧
        s.server.raft.currentTerm = 1 ∧ s.server.raft.log = [⟨1, samplePut 1⟩] ∧
        Reachable (Server.step keepsNothing () 1) (Server.start 3 1000 ()) s.server := by
  obtain ⟨s, hrun, hterm, hlog⟩ : ∃ s : GobServer 3 Unit,
      Reaches (step (fun _ ↦ 10) keepsNothing () 1) RestartsReadable (start 3 1000 ()) s ∧
        s.server.raft.currentTerm = 1 ∧ s.server.raft.log = [⟨1, samplePut 1⟩] :=
    exists_reaches_of_exec
      [.handle (.logRequest ⟨0, 1, 0, 0, 0, [⟨1, samplePut 1⟩, ⟨1, samplePut 2⟩]⟩),
        .handle (.appendEntries ⟨0, 1, 0, 0, 0, [⟨1, samplePut 1⟩, ⟨1, samplePut 2⟩]⟩ .healthy),
        .handle (.logReply ⟨0, 1, 0, 0, 0, [⟨1, samplePut 1⟩, ⟨1, samplePut 2⟩]⟩), .saveValues,
        .takeRequest, .beginSave, .continueSave, .continueSave, .continueSave, .failSave 30,
        .restart .healthy] (by decide +kernel)
  exact ⟨s, hrun, hterm, hlog, gob_refines hrun⟩

/-! ## 3. Two batches -/

theorem batchCount_le_step (hstep : s.step size app application i a = some s') :
    s.batchCount ≤ s'.batchCount := by
  cases step_cases hstep with
  | inl hrestart =>
    obtain ⟨disk, -, rfl⟩ := hrestart
    exact Nat.le_refl _
  | inr hserver =>
    unfold batchCount
    rw [hserver.2]
    cases s.written_cases size a with
    | inl hsame =>
      rw [hsame.2]
    | inr happend =>
      obtain ⟨batch, more, -, -, hwritten⟩ := happend
      rw [hwritten]
      unfold appended
      cases s.file with
      | none => exact Nat.zero_le _
      | some f => exact (Stream.isPrefix_append f more).sublist.count_le _

theorem batchCount_le (hrun : Reachable (step size app application i) s s') :
    s.batchCount ≤ s'.batchCount := by
  apply hrun.invariant fun s' ↦ s.batchCount ≤ s'.batchCount
  · exact Nat.le_refl _
  · intro t a t' _ h _ hstep
    exact Nat.le_trans h (batchCount_le_step hstep)

/-- Two batches cannot be read. -/
theorem loadValues_eq_none (hcount : 2 ≤ s.batchCount) : s.loaded.loadValues = none := by
  have hlog : s.loaded.log = none := by
    unfold batchCount at hcount
    unfold GobServer.loaded
    cases hfile : s.file with
    | none => rfl
    | some f =>
      rw [hfile] at hcount
      show (loadLogs f).toOption = none
      cases hload : loadLogs f with
      | error err => rfl
      | ok logs =>
        have honce := List.nodup_iff_count_le_one.mp (loadLogs_ok_iff.mp hload).2.1 .logEntry
        rw [count_typeDefs] at honce
        exact absurd hcount (Nat.not_le.mpr (Nat.lt_succ_of_le honce))
  unfold Files.loadValues
  rw [hlog]

/-- Once a node has saved two batches, in one life or in several, every restart forgets its term,
its vote and its log: it begins like a node that has never run, only that its log file still
holds what nobody can read. -/
theorem second_batch_forgets {s'' : GobServer n σ} {disk : Disk}
    (hcount : 2 ≤ s.batchCount) (hrun : Reachable (step size app application i) s s')
    (hrestart : s'.step size app application i (.restart disk) = some s'') :
    s''.server.raft.currentTerm = 0 ∧ s''.server.raft.votedFor = none ∧
      s''.server.raft.log = [] ∧ s''.server.raft.commitedLength = 0 ∧
      s''.server.saver = .start 0 ∧ 2 ≤ s''.batchCount := by
  have htwo : 2 ≤ s'.batchCount := Nat.le_trans hcount (batchCount_le hrun)
  have hnone := loadValues_eq_none htwo
  cases hrestart
  obtain ⟨hterm, hvote, hlog, hcommit⟩ :=
    Server.newRaftFrom_of_none (c := { s'.server with files := s'.loaded }) app application disk
      hnone
  refine ⟨hterm, hvote, hlog, hcommit, ?_, htwo⟩
  show DataSaver.start ((s'.loaded.loadValues.map fun x ↦ x.2.length).getD 0) = _
  rw [hnone]
  rfl

/-- One entry is saved, and then another one. -/
theorem second_batch_forgets_pair :
    ∃ s : GobServer 3 Unit,
      Reachable (step (fun _ ↦ 10) keepsNothing () 1) (start 3 1000 ()) s ∧
        (2 ≤ s.batchCount ∧ s.server.raft.currentTerm = 1 ∧ s.server.raft.log.length = 2) ∧
        (s.restart keepsNothing () .healthy).server.raft.currentTerm = 0 ∧
        (s.restart keepsNothing () .healthy).server.raft.log = [] := by
  obtain ⟨s, hrun, hs⟩ : ∃ s : GobServer 3 Unit,
      Reachable (step (fun _ ↦ 10) keepsNothing () 1) (start 3 1000 ()) s ∧
        (2 ≤ s.batchCount ∧ s.server.raft.currentTerm = 1 ∧ s.server.raft.log.length = 2) :=
    exists_reaches_of_exec
      [.handle (.logRequest ⟨0, 1, 0, 0, 0, [⟨1, samplePut 1⟩]⟩),
        .handle (.appendEntries ⟨0, 1, 0, 0, 0, [⟨1, samplePut 1⟩]⟩ .healthy),
        .handle (.logReply ⟨0, 1, 0, 0, 0, [⟨1, samplePut 1⟩]⟩), .saveValues, .takeRequest,
        .beginSave, .continueSave, .continueSave, .continueSave, .continueSave, .continueSave,
        .handle (.logRequest ⟨0, 1, 1, 1, 0, [⟨1, samplePut 2⟩]⟩),
        .handle (.appendEntries ⟨0, 1, 1, 1, 0, [⟨1, samplePut 2⟩]⟩ .healthy),
        .handle (.logReply ⟨0, 1, 1, 1, 0, [⟨1, samplePut 2⟩]⟩), .saveValues, .takeRequest,
        .beginSave, .continueSave, .continueSave, .continueSave, .continueSave, .continueSave]
      (by decide +kernel)
  obtain ⟨hterm, -, hlog, -⟩ := second_batch_forgets hs.1
    (.refl : Reachable (step (fun _ ↦ 10) keepsNothing () 1) s s) rfl
  exact ⟨s, hrun, hs, hterm, hlog⟩

end GobServer

end DistributedCache
