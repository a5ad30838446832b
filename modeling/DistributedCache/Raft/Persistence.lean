import DistributedCache.Raft.Ballot

/-!
# The data saver, the files and a crash

One node with its `DataSaver` and its files, among arbitrary messages.  `SaveValues` only puts a
request into a queue; workers take requests one at a time and run `doSaveValues`, which reads the
node's state under the lock, writes the files without it, and reads the length of the log again at
the end.  A crash may come between any two of these steps; `NewRaft` then starts from the files.

Every write below is a write followed by `Sync`, except that `os.Create` leaves the metadata file
empty until the metadata are written.
-/

namespace DistributedCache

open Network

variable {n : Nat} {σ : Type}

/-! ## Files -/

structure Metadata (n : Nat) where
  term : Int
  votedFor : Option (Fin n)
  commitedLength : Int
  deriving DecidableEq, Repr

/-- The two files of the `DataSaver`. -/
structure Files (n : Nat) where
  /-- The entries in `logsFilename`, if it exists. -/
  log : Option (List LogEntry)
  /-- `metadataFilename`: missing, empty, or with metadata. -/
  metadata : Option (Option (Metadata n))
  deriving DecidableEq, Repr

/-- `LoadValues`, `none` on an error: both files have to be there and the metadata to be whole. -/
def Files.loadValues (files : Files n) : Option (Metadata n × List LogEntry) :=
  match files.log, files.metadata with
  | some logs, some (some metadata) => some (metadata, logs)
  | _, _ => none

/-! ## Saving -/

/-- What a running `doSaveValues` does next. -/
inductive SaveStage where
  | openLog
  | createMetadata
  | saveMetadata
  | saveLog
  | finish
  deriving DecidableEq, Repr

/-- The local variables of a running `doSaveValues`. -/
structure SaveJob (n : Nat) where
  idx : Nat
  metadata : Metadata n
  logCopy : List LogEntry
  stage : SaveStage
  deriving DecidableEq, Repr

structure DataSaver (n : Nat) where
  previousSavedIndex : Nat
  /-- Calls of `SaveValues` that have not reached the queue yet. -/
  calls : Nat
  /-- The requests in `saveQueue`. -/
  queue : Nat
  /-- Workers that took a request and wait for `rds.mu`. -/
  waiting : Nat
  /-- The `doSaveValues` that holds `rds.mu`. -/
  job : Option (SaveJob n)
  deriving DecidableEq, Repr

def saveQueueCapacity : Nat := 1024

def numWorkers : Nat := 4

def maxBatchSize : Nat := 10000

namespace DataSaver

def start (previousSavedIndex : Nat) : DataSaver n := ⟨previousSavedIndex, 0, 0, 0, none⟩

/-- The `select` of `SaveValues`; a request that finds the queue full is dropped. -/
def enqueue (d : DataSaver n) : DataSaver n :=
  if d.queue < saveQueueCapacity then { d with queue := d.queue + 1 } else d

def takeRequest (d : DataSaver n) : Option (DataSaver n) :=
  if 0 < d.queue ∧ d.waiting + d.job.toList.length < numWorkers then
    some { d with queue := d.queue - 1, waiting := d.waiting + 1 }
  else none

/-- `doSaveValues` up to the writes.  With nothing to append it returns without saving the
metadata. -/
def beginSave (d : DataSaver n) (r : Raft n σ) : DataSaver n :=
  let idx := min d.previousSavedIndex r.log.length
  { d with
    previousSavedIndex := idx
    waiting := d.waiting - 1
    job :=
      if idx = r.log.length then none
      else some
        { idx := idx
          metadata := ⟨r.currentTerm, r.votedFor, r.commitedLength⟩
          logCopy := (r.log.drop idx).take maxBatchSize
          stage := .openLog } }

/-- `doSaveValues` after the writes. -/
def finishSave (d : DataSaver n) (job : SaveJob n) (lengthNow : Nat) : DataSaver n :=
  let newIndex := min (job.idx + job.logCopy.length) lengthNow
  let d' := { d with previousSavedIndex := newIndex, job := none }
  if newIndex < lengthNow then d'.enqueue else d'

@[simp] theorem job_enqueue (d : DataSaver n) : d.enqueue.job = d.job := by
  unfold enqueue
  split <;> rfl

@[simp] theorem job_finishSave (d : DataSaver n) (job : SaveJob n) (lengthNow : Nat) :
    (d.finishSave job lengthNow).job = none := by
  unfold finishSave
  dsimp only
  split
  · rw [job_enqueue]
  · rfl

end DataSaver

/-- `saveValuesManager`, one call at a time. -/
def Files.write (files : Files n) (job : SaveJob n) : Files n :=
  match job.stage with
  | .openLog => { files with log := some (files.log.getD []) }
  | .createMetadata => { files with metadata := some none }
  | .saveMetadata => { files with metadata := some (some job.metadata) }
  | .saveLog => { files with log := some (files.log.getD [] ++ job.logCopy) }
  | .finish => files

/-- The next thing that `doSaveValues` does; `none` when the writes are done. -/
def SaveStage.next : SaveStage → Option SaveStage
  | .openLog => some .createMetadata
  | .createMetadata => some .saveMetadata
  | .saveMetadata => some .saveLog
  | .saveLog => some .finish
  | .finish => none

/-- The files after a call of `saveValuesManager` failed; `saveLog` may have written some
entries. -/
def Files.writeFailed (files : Files n) (job : SaveJob n) (written : Nat) : Files n :=
  match job.stage with
  | .saveLog => { files with log := some (files.log.getD [] ++ job.logCopy.take written) }
  | _ => files

/-! ## The server -/

/-- The lock regions after which the code calls `SaveValues`. -/
def Raft.savesValues (app : Application σ) (i : Fin n) (r : Raft n σ) : Action n → Bool
  | .broadcast _ => true
  | .voteRequest args => r.voteRequestSaves args
  | .logRequest args => ¬ r.acceptsLogRequest i args
  | .logReply _ => true
  | .installSnapshot req disk => r.currentTerm ≤ req.leaderTerm ∧ req.done = true ∧
    (r.installSnapshot app disk req).2.isSome = true
  | _ => false

structure Server (n : Nat) (σ : Type) where
  raft : Raft n σ
  threads : List (Thread n)
  saver : DataSaver n
  files : Files n
  /-- The messages the node has sent, before and after crashes. -/
  sent : List (Packet n)
  history : List (Event n)

inductive ServerAction (n : Nat) where
  | handle (a : Action n)
  | saveValues
  | takeRequest
  | beginSave
  | continueSave
  /-- The running `doSaveValues` returns an error. -/
  | failSave (written : Nat)
  /-- A crash, and `NewRaft` on the files. -/
  | restart (disk : Disk)
  deriving DecidableEq

namespace Server

/-- `NewRaft` on the files that are left.  The snapshot is restored only if it cannot be read. -/
def newRaftFrom (app : Application σ) (application : σ) (disk : Disk) (c : Server n σ) :
    Raft n σ :=
  let application :=
    if c.raft.snapshotFile.isSome ∧ disk.readSucceeds = false then
      (app.restoreFromSnapshot application []).1
    else application
  let r : Raft n σ :=
    { newRaft n c.raft.snapshotter.snapshotThreshold application with
      snapshotFile := c.raft.snapshotFile }
  match c.files.loadValues with
  | some (metadata, logs) =>
    { r with
      currentTerm := metadata.term
      votedFor := metadata.votedFor
      commitedLength := metadata.commitedLength
      log := logs }
  | none => r

def restart (app : Application σ) (application : σ) (disk : Disk) (c : Server n σ) :
    Server n σ :=
  { c with
    raft := c.newRaftFrom app application disk
    threads := []
    saver := .start ((c.files.loadValues.map fun x ↦ x.2.length).getD 0) }

/-- The node after a region of its code, which may call `SaveValues`. -/
def apply (app : Application σ) (i : Fin n) (c : Server n σ) (a : Action n) (e : RaftEffect n σ) :
    Server n σ :=
  { c with
    raft := e.state
    threads := remove c.threads a.thread ++ e.threads
    saver :=
      if c.raft.savesValues app i a then { c.saver with calls := c.saver.calls + 1 } else c.saver
    sent := c.sent ++ e.packets
    history := c.history ++ e.events }

/-- A region of the node's code.  Any message may arrive whose integers fit the wire. -/
def handle (app : Application σ) (i : Fin n) (c : Server n σ) (a : Action n) :
    Option (Server n σ) :=
  if (∀ t ∈ a.thread, t ∈ c.threads) ∧ (∀ p ∈ a.packet i, FitsInt32 p.term) then
    (c.raft.act app i a).map (c.apply app i a)
  else none

def continueSave (c : Server n σ) : Option (Server n σ) :=
  c.saver.job.map fun job ↦
    match job.stage.next with
    | some stage =>
      { c with
        files := c.files.write job
        saver := { c.saver with job := some { job with stage := stage } } }
    | none => { c with saver := c.saver.finishSave job c.raft.log.length }

def step (app : Application σ) (application : σ) (i : Fin n) (c : Server n σ) :
    ServerAction n → Option (Server n σ)
  | .handle a => c.handle app i a
  | .saveValues =>
    if 0 < c.saver.calls then
      some { c with saver := { c.saver with calls := c.saver.calls - 1 }.enqueue }
    else none
  | .takeRequest => c.saver.takeRequest.map fun saver ↦ { c with saver := saver }
  | .beginSave =>
    if 0 < c.saver.waiting ∧ c.saver.job = none then
      some { c with saver := c.saver.beginSave c.raft }
    else none
  | .continueSave => c.continueSave
  | .failSave written => c.saver.job.map fun job ↦
      { c with
        files := c.files.writeFailed job written
        saver := { c.saver with job := none } }
  | .restart disk => some (c.restart app application disk)

/-- A node on an empty disk. -/
def start (n : Nat) (snapshotThreshold : Int) (application : σ) : Server n σ where
  raft := newRaft n snapshotThreshold application
  threads := []
  saver := .start 0
  files := ⟨none, none⟩
  sent := []
  history := []

variable {app : Application σ} {i : Fin n} {c c' : Server n σ}

/-- The parts of a step of the node's code. -/
theorem handle_cases {a : Action n} (h : c.handle app i a = some c') :
    (∀ t ∈ a.thread, t ∈ c.threads) ∧ (∀ p ∈ a.packet i, FitsInt32 p.term) ∧
      ∃ e, c.raft.act app i a = some e ∧ c' = c.apply app i a e := by
  unfold handle at h
  split at h
  · rename_i hen
    obtain ⟨e, he, hc'⟩ := Option.map_eq_some_iff.mp h
    exact ⟨hen.1, hen.2, e, he, hc'.symm⟩
  · cases h

/-- The data saver and the files may differ. -/
structure SameNode (c c' : Server n σ) : Prop where
  raft : c'.raft = c.raft
  threads : c'.threads = c.threads
  sent : c'.sent = c.sent
  history : c'.history = c.history

/-- A step is one of the node's code, a crash, or one of the data saver, which reads the node. -/
inductive StepCase (app : Application σ) (application : σ) (i : Fin n) (c : Server n σ) :
    ServerAction n → Server n σ → Prop
  | handled {a : Action n} {c' : Server n σ} (h : c.handle app i a = some c') :
    StepCase app application i c (.handle a) c'
  | restarted (disk : Disk) :
    StepCase app application i c (.restart disk) (c.restart app application disk)
  | saver {a : ServerAction n} {c' : Server n σ} (h : c.SameNode c') :
    StepCase app application i c a c'

theorem step_cases {application : σ} {a : ServerAction n}
    (h : c.step app application i a = some c') :
    StepCase app application i c a c' := by
  cases a with
  | handle => exact .handled h
  | restart disk =>
    cases h
    exact .restarted disk
  | saveValues | beginSave =>
    obtain ⟨_, h⟩ := Option.ite_none_right_eq_some.mp h
    cases h
    exact .saver ⟨rfl, rfl, rfl, rfl⟩
  | takeRequest | failSave =>
    obtain ⟨_, _, rfl⟩ := Option.map_eq_some_iff.mp h
    exact .saver ⟨rfl, rfl, rfl, rfl⟩
  | continueSave =>
    obtain ⟨job, _, rfl⟩ := Option.map_eq_some_iff.mp h
    apply StepCase.saver
    split <;> exact ⟨rfl, rfl, rfl, rfl⟩

/-- The files after a step: only `doSaveValues` changes them. -/
def filesAfter (c : Server n σ) : ServerAction n → Files n
  | .continueSave => c.saver.job.elim c.files c.files.write
  | .failSave written => c.saver.job.elim c.files fun job ↦ c.files.writeFailed job written
  | _ => c.files

theorem files_step {application : σ} {a : ServerAction n}
    (h : c.step app application i a = some c') :
    c'.files = c.filesAfter a := by
  cases a with
  | handle a =>
    obtain ⟨-, -, e, -, rfl⟩ := handle_cases h
    rfl
  | saveValues | beginSave =>
    obtain ⟨-, h⟩ := Option.ite_none_right_eq_some.mp h
    cases h
    rfl
  | takeRequest =>
    obtain ⟨_, -, rfl⟩ := Option.map_eq_some_iff.mp h
    rfl
  | continueSave =>
    obtain ⟨job, hjob, rfl⟩ := Option.map_eq_some_iff.mp h
    rw [filesAfter, hjob, Option.elim_some, Files.write]
    -- the last stage writes nothing
    cases hstage : job.stage with
    | finish | _ => rfl
  | failSave written =>
    obtain ⟨job, hjob, rfl⟩ := Option.map_eq_some_iff.mp h
    rw [filesAfter, hjob]
    rfl
  | restart disk =>
    cases h
    rfl

end Server

end DistributedCache
