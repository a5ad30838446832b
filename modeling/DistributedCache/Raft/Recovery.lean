import DistributedCache.Raft.Delivery
import DistributedCache.Raft.DurableLog
import DistributedCache.Raft.LogFileRuns
import Mathlib.Tactic.MkIffOfInductiveProp

/-!
# Recovery

`NewRaft` takes the commit length and the log from the files and counts positions from 0 again.
That fits the log file, which begins with the first entry even after a compaction.  The application
stays as it was passed in: the entries below the commit length are not applied again, and the
snapshot is restored only if it cannot be read.
-/

namespace DistributedCache

open Gob Network Transition Window

variable {n : Nat} {σ : Type}

/-- The commit length that `LoadValues` would read back. -/
def Files.loadedCommit (files : Files n) : Int :=
  (files.loadValues.map fun x ↦ x.1.commitedLength).getD 0

/-- `committed` are the committed messages of the node's history by their positions: the node has
delivered none but them, and its application is the one after the first of them, be they delivered
to it or part of a snapshot that it was sent; those up to `commitedLength` may be still to come. -/
@[mk_iff]
structure CommittedBy (app : Application σ) (application : σ) (i : Fin n) (c : Server n σ)
    (committed : List Message) : Prop where
  delivered : ∀ d ∈ deliveredBy i c.history, 0 ≤ d.1 ∧ committed[d.1.toNat]? = some d.2
  applied : ∃ k ≤ c.raft.commitedLength.toNat,
    c.raft.application = app.applied application (committed.take k)

instance [DecidableEq σ] (app : Application σ) (application : σ) (i : Fin n) (c : Server n σ)
    (committed : List Message) : Decidable (CommittedBy app application i c committed) :=
  decidable_of_iff' _ (committedBy_iff app application i c committed)

/-- A node that reads its files byte by byte: earlier restarts find a log file that can be read, and
the run leaves saved entries where `previousSavedIndex` expects them. -/
def GobServer.LogKept (size : Item GobType GobEntry → Nat) (app : Application σ)
    (s : GobServer n σ) (a : ServerAction n) : Prop :=
  s.RestartsReadable a ∧ LogSaved app s.server (s.entryAction size a)
deriving Decidable

/-! ## What `NewRaft` starts with -/

namespace Server

variable {app : Application σ} {application : σ} {c : Server n σ} {disk : Disk}

theorem newRaftFrom_commitedLength :
    (c.newRaftFrom app application disk).commitedLength = c.files.loadedCommit := by
  unfold newRaftFrom Files.loadedCommit
  cases c.files.loadValues <;> rfl

theorem newRaftFrom_log : (c.newRaftFrom app application disk).log = c.files.loadedLog := by
  unfold newRaftFrom Files.loadedLog
  cases c.files.loadValues <;> rfl

theorem newRaftFrom_lastIndex :
    (c.newRaftFrom app application disk).snapshotter.lastIndex = 0 := by
  unfold newRaftFrom
  cases c.files.loadValues <;> rfl

/-- A snapshot that can be read is not restored. -/
theorem newRaftFrom_application (hdisk : disk.readSucceeds = true) :
    (c.newRaftFrom app application disk).application = application := by
  have hnot : ¬ (c.raft.snapshotFile.isSome = true ∧ disk.readSucceeds = false) := by
    rintro ⟨-, hfails⟩
    rw [hdisk] at hfails
    cases hfails
  unfold newRaftFrom
  cases c.files.loadValues <;> exact if_neg hnot

theorem entryAt_restart (p : Int) :
    (c.restart app application disk).raft.entryAt p = index? c.files.loadedLog p := by
  change at? (c.newRaftFrom app application disk).snapshotter.lastIndex
    (c.newRaftFrom app application disk).log p = _
  rw [newRaftFrom_lastIndex, newRaftFrom_log, at?, Int.sub_zero]

end Server

/-! ## The application -/

theorem Application.applied_unchanged {app : Application σ} {application : σ} {ms : List Message}
    (h : ∀ m ∈ ms, (app.appendMessage application m).1 = application) :
    app.applied application ms = application := by
  induction ms with
  | nil => rfl
  | cons m ms ih =>
    change app.applied (app.appendMessage application m).1 ms = application
    rw [h m List.mem_cons_self]
    exact ih fun m' hm' ↦ h m' (List.mem_cons_of_mem m hm')

/-- After a crash with all saves flushed, in a run that leaves saved entries where
`previousSavedIndex` expects them, and with a log file that can be read: every entry is at its
position again, and if the messages that the saved commit length counts change nothing, the
application is the one after them.  It is then the one the node had, if nothing was committed after
the save. -/
theorem recovery_restores (size : Item GobType GobEntry → Nat) (app : Application σ)
    (application : σ) (i : Fin n) (snapshotThreshold : Int) {s : GobServer n σ} {disk : Disk}
    (committed : List Message)
    (hrun : Reaches (GobServer.step size app application i) (GobServer.LogKept size app)
      (GobServer.start n snapshotThreshold application) s) (hidle : ¬ s.server.savePending)
    (hread : s.RestartsReadable (.restart disk)) (hdisk : disk.readSucceeds = true)
    (hcommitted : CommittedBy app application i s.server committed)
    (hkeep : ∀ m ∈ committed.take s.server.files.loadedCommit.toNat,
      (app.appendMessage application m).1 = application) :
    (s.restart app application disk).server.raft.application = app.applied application
      (committed.take (s.restart app application disk).server.raft.commitedLength.toNat) ∧
    ((s.restart app application disk).server.raft.commitedLength =
        s.server.raft.commitedLength →
      (s.restart app application disk).server.raft.application = s.server.raft.application) ∧
    ∀ p, s.server.raft.snapshotter.lastIndex ≤ p →
      (s.restart app application disk).server.raft.entryAt p = s.server.raft.entryAt p := by
  rw [(GobServer.holds_of_reaches hrun).server_restart hread]
  have hlength : (s.server.restart app application disk).raft.commitedLength =
      s.server.files.loadedCommit := Server.newRaftFrom_commitedLength
  have happlication : (s.server.restart app application disk).raft.application = application :=
    Server.newRaftFrom_application hdisk
  have hunchanged := Application.applied_unchanged hkeep
  rw [happlication, hlength, hunchanged]
  refine ⟨rfl, fun hsame ↦ ?_, fun p hp ↦ ?_⟩
  · obtain ⟨k, hk, happlied⟩ := hcommitted.applied
    rw [← hsame] at hk
    rw [happlied, Application.applied_unchanged fun m hm ↦
      hkeep m (List.take_subset_take_left committed hk hm)]
  · obtain ⟨full, h⟩ := (mirrors_start snapshotThreshold application).reaches
      (GobServer.reaches_server hrun)
    rw [Server.entryAt_restart, h.index?_loadedLog hidle hp]

/-- An application that keeps the keys it was given, and whose snapshots are what it keeps. -/
def keepsKeys : Application (List UInt8) where
  appendMessage s m := (s ++ [UInt8.ofNat m.key.toNat], true, 0)
  getSnapshot s := some s
  restoreFromSnapshot _ data := (data, some 0)
  getValue _ _ := 0

/-- The regions of a `LogRequest` that is accepted, and the call of `SaveValues` after them. -/
def sampleAccept (args : LogRequestArgs 3) : List (ServerAction 3) :=
  [.handle (.logRequest args), .handle (.appendEntries args .healthy), .handle (.logReply args),
    .saveValues]

/-- A save with its five writes. -/
def sampleSave : List (ServerAction 3) :=
  [.takeRequest, .beginSave] ++ List.replicate 5 .continueSave

/-- A request to save that finds nothing to append. -/
def sampleNoSave : List (ServerAction 3) := [.takeRequest, .beginSave]

/-- An entry is saved and not committed. -/
theorem recovery_restores_uncommitted : ∃ s : GobServer 3 (List UInt8),
    Reaches (GobServer.step (fun _ ↦ 10) keepsKeys [] 1)
        (GobServer.LogKept (fun _ ↦ 10) keepsKeys) (GobServer.start 3 2 []) s ∧
      s.server.raft.entryAt 0 = some ⟨1, samplePut 1⟩ ∧
      (s.restart keepsKeys [] .healthy).server.raft.application = [] ∧
      (s.restart keepsKeys [] .healthy).server.raft.entryAt 0 = some ⟨1, samplePut 1⟩ := by
  obtain ⟨s, hrun, hidle, hread, hcommitted, hkeep, hbase, hentry, happlied⟩ :
      ∃ s : GobServer 3 (List UInt8),
      Reaches (GobServer.step (fun _ ↦ 10) keepsKeys [] 1)
          (GobServer.LogKept (fun _ ↦ 10) keepsKeys) (GobServer.start 3 2 []) s ∧
        ¬ s.server.savePending ∧ s.RestartsReadable (.restart .healthy) ∧
        CommittedBy keepsKeys [] 1 s.server [] ∧
        (∀ m ∈ ([] : List Message).take s.server.files.loadedCommit.toNat,
          (keepsKeys.appendMessage [] m).1 = []) ∧
        s.server.raft.snapshotter.lastIndex ≤ 0 ∧
        s.server.raft.entryAt 0 = some ⟨1, samplePut 1⟩ ∧
        keepsKeys.applied [] (([] : List Message).take
          (s.restart keepsKeys [] .healthy).server.raft.commitedLength.toNat) = [] :=
    exists_reaches_of_exec (sampleAccept ⟨0, 1, 0, 0, 0, [⟨1, samplePut 1⟩]⟩ ++ sampleSave)
      (by decide +kernel)
  have hdisk : Disk.healthy.readSucceeds = true := rfl
  obtain ⟨happlication, -, hpositions⟩ := recovery_restores _ keepsKeys [] 1 2 [] hrun hidle hread
    hdisk hcommitted hkeep
  exact ⟨s, hrun, hentry, happlication.trans happlied, (hpositions 0 hbase).trans hentry⟩

/-- Two entries are appended and committed, and then saved in one batch, with the commit length. -/
def sampleCommit : List (ServerAction 3) :=
  sampleAccept ⟨0, 1, 0, 0, 0, [⟨1, samplePut 1⟩, ⟨1, samplePut 2⟩]⟩ ++
    sampleAccept ⟨0, 1, 2, 1, 2, []⟩ ++ sampleSave ++ sampleNoSave

/-- The same with a third entry, and a snapshot of the first two before the save. -/
def sampleCompaction : List (ServerAction 3) :=
  sampleAccept ⟨0, 1, 0, 0, 0, [⟨1, samplePut 1⟩, ⟨1, samplePut 2⟩, ⟨1, samplePut 3⟩]⟩ ++
    sampleAccept ⟨0, 1, 3, 1, 2, []⟩ ++ sampleSave ++ sampleNoSave

/-- `NewRaft` comes up with the number of the committed messages and an empty application, also when
the snapshot on disk is the application after them; in that case the log has moved as well. -/
theorem recovery_loses_application :
    (∀ s data s', keepsKeys.getSnapshot s = some data →
      (keepsKeys.restoreFromSnapshot s' data).1 = s) ∧
    (∃ s : GobServer 3 (List UInt8),
      Reaches (GobServer.step (fun _ ↦ 10) keepsKeys [] 1)
          (GobServer.LogKept (fun _ ↦ 10) keepsKeys) (GobServer.start 3 1000 []) s ∧
        ¬ s.server.savePending ∧ s.RestartsReadable (.restart .healthy) ∧
        CommittedBy keepsKeys [] 1 s.server [samplePut 1, samplePut 2] ∧
        s.server.raft.application = keepsKeys.applied [] [samplePut 1, samplePut 2] ∧
        (s.restart keepsKeys [] .healthy).server.raft.commitedLength = 2 ∧
        (s.restart keepsKeys [] .healthy).server.raft.application = [] ∧
        keepsKeys.applied [] [samplePut 1, samplePut 2] = [1, 2]) ∧
    ∃ s : GobServer 3 (List UInt8),
      Reachable (GobServer.step (fun _ ↦ 10) keepsKeys [] 1) (GobServer.start 3 3 []) s ∧
        ¬ s.server.savePending ∧ s.RestartsReadable (.restart .healthy) ∧
        s.server.raft.snapshotFile = some [1, 2] ∧
        CommittedBy keepsKeys [] 1 s.server [samplePut 1, samplePut 2] ∧
        (s.restart keepsKeys [] .healthy).server.raft.commitedLength = 2 ∧
        (s.restart keepsKeys [] .healthy).server.raft.application = [] ∧
        s.server.raft.entryAt 2 = some ⟨1, samplePut 3⟩ ∧
        (s.restart keepsKeys [] .healthy).server.raft.entryAt 2 = none := by
  refine ⟨?_, ?_, ?_⟩
  · intro s data s' hdata
    exact (Option.some.inj hdata).symm
  · exact exists_reaches_of_exec sampleCommit (by decide +kernel)
  · exact exists_reaches_of_exec sampleCompaction (by decide +kernel)

end DistributedCache
