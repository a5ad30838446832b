import DistributedCache.Raft.Node

/-!
# Snapshots: the snapshot file, compaction, and both ends of `InstallSnapshot`
-/

namespace DistributedCache

open Window

/-! ## The snapshot file -/

/-- How one write to the snapshot file ends. -/
inductive WriteOutcome where
  | succeeds
  | openFails
  | failsAfter (bytes : Nat)
  deriving DecidableEq, Repr

/-- What the file system does during one lock region. -/
structure Disk where
  write : WriteOutcome
  readSucceeds : Bool
  deriving DecidableEq, Repr

def Disk.healthy : Disk := ⟨.succeeds, true⟩

/-- `f.WriteAt`; a write past the end leaves zeros between. -/
def writeAt (bytes data : List UInt8) (offset : Nat) : List UInt8 :=
  if data = [] then bytes
  else bytes.take offset ++ List.replicate (offset - bytes.length) 0 ++ data ++
    bytes.drop (offset + data.length)

/-- The content `WriteSnapshotData` finds once it has opened the file: offset `0` creates or
truncates it, any other offset needs it to exist. -/
def openForWriting (file : Option (List UInt8)) (offset : Int) : Option (List UInt8) :=
  if offset = 0 then some [] else file

/-- The file afterwards, and whether the write succeeded. -/
def writeSnapshotData (file : Option (List UInt8)) (data : List UInt8) (offset : Int) :
    WriteOutcome → Option (List UInt8) × Bool
  | .openFails => (file, false)
  | .succeeds =>
    match openForWriting file offset with
    | none => (file, false)
    | some bytes =>
      if offset < 0 then (some bytes, false) else (some (writeAt bytes data offset.toNat), true)
  | .failsAfter k =>
    match openForWriting file offset with
    | none => (file, false)
    | some bytes =>
      if offset < 0 then (some bytes, false)
      else (some (writeAt bytes (data.take k) offset.toNat), false)

/-- `chunkSize` of `sendInstallSnapshotRPC`. -/
def chunkSize : Nat := 128 * 1024

/-- The local variables of a running `sendInstallSnapshotRPC`. -/
structure Transfer (n : Nat) where
  followerId : Fin n
  lastIndex : Int
  lastTerm : Int
  currentTerm : Int
  totalSize : Nat
  offset : Nat
  deriving DecidableEq, Repr

namespace Raft

variable {n : Nat} {σ : Type}

/-! ## Compaction -/

/-- `comittedCount`: the entries in memory that a snapshot would cover. -/
def comittedCount (r : Raft n σ) : Int := r.commitedLength - r.snapshotter.lastIndex

/-- The log, once its first `k` entries are in the snapshot. -/
def compact (r : Raft n σ) (k : Nat) (lastTerm : Int) : Raft n σ :=
  { r with
    log := r.log.drop k
    snapshotter :=
      { r.snapshotter with lastIndex := r.commitedLength, lastTerm := lastTerm } }

def decideRunSnapshot (app : Application σ) (disk : Disk) (r : Raft n σ) : Option (Raft n σ) :=
  if (r.log.length : Int) < r.snapshotter.snapshotThreshold then some r
  else if r.comittedCount ≤ 0 then some r
  else
    let lastTerm :=
      ((index? r.log (r.comittedCount - 1)).map LogEntry.term).getD r.snapshotter.lastTerm
    match app.getSnapshot r.application with
    -- an error is logged and returned, and `appendEntries` ignores it
    | none => some r
    | some data =>
      let (file, written) := writeSnapshotData r.snapshotFile data 0 disk.write
      if written then
        -- the slice expression panics when it starts after the end of the log
        if r.comittedCount ≤ r.log.length then
          some { r.compact r.comittedCount.toNat lastTerm with snapshotFile := file }
        else none
      else some { r with snapshotFile := file }

variable {app : Application σ} {disk : Disk} {r r' : Raft n σ}

/-- Compaction leaves all but the snapshot file as it is, or moves committed entries out of the
log. -/
theorem decideRunSnapshot_cases (h : r.decideRunSnapshot app disk = some r') :
    (∃ file, r' = { r with snapshotFile := file }) ∨
      ∃ file e, r.snapshotter.snapshotThreshold ≤ r.log.length ∧ 0 < r.comittedCount ∧
        r.comittedCount ≤ r.log.length ∧
        index? r.log (r.comittedCount - 1) = some e ∧
        r' = { r.compact r.comittedCount.toNat e.term with snapshotFile := file } := by
  unfold decideRunSnapshot at h
  split at h
  · exact Or.inl ⟨r.snapshotFile, (Option.some.inj h).symm⟩
  rename_i hlong
  split at h
  · exact Or.inl ⟨r.snapshotFile, (Option.some.inj h).symm⟩
  rename_i hpos
  cases hsnap : app.getSnapshot r.application with
  | none =>
    simp only [hsnap, Option.some.injEq] at h
    exact Or.inl ⟨r.snapshotFile, h.symm⟩
  | some data =>
    simp only [hsnap] at h
    split at h
    · split at h
      · rename_i hle
        obtain ⟨e, he⟩ :=
          exists_index? (l := r.log) (i := r.comittedCount - 1) (by omega) (by omega)
        simp only [he, Option.map_some, Option.getD_some, Option.some.injEq] at h
        exact Or.inr ⟨_, e, by omega, by omega, hle, he, h.symm⟩
      · cases h
    · exact Or.inl ⟨_, (Option.some.inj h).symm⟩

theorem decideRunSnapshot_sameControl (h : r.decideRunSnapshot app disk = some r') :
    SameControl r r' := by
  obtain ⟨file, rfl⟩ | ⟨file, e, -, -, -, -, rfl⟩ := decideRunSnapshot_cases h
  · exact ⟨rfl, rfl, rfl, rfl, rfl, rfl, rfl⟩
  · exact ⟨rfl, rfl, rfl, rfl, rfl, rfl, rfl⟩

/-! ## The leader's side -/

/-- The first lock region of `sendInstallSnapshotRPC`. -/
def sendInstallSnapshotRPC (r : Raft n σ) (followerId : Fin n) : Transfer n where
  followerId := followerId
  lastIndex := r.snapshotter.lastIndex
  lastTerm := r.snapshotter.lastTerm
  currentTerm := r.currentTerm
  -- the size is not known before the file is opened
  totalSize := 0
  offset := 0

/-- The next chunk of the file, empty at its end. -/
def readChunk (r : Raft n σ) (t : Transfer n) : List UInt8 :=
  ((r.snapshotFile.getD []).drop t.offset).take chunkSize

def chunkRequest (id : Fin n) (t : Transfer n) (data : List UInt8) :
    InstallSnapshotRequest n where
  leaderTerm := int32 t.currentTerm
  leaderId := id
  lastIncludedIndex := int32 t.lastIndex
  lastIncludedTerm := int32 t.lastTerm
  offset := int32 t.offset
  data := data
  done := t.totalSize ≤ t.offset + data.length

/-- The reply to a chunk came from a newer term. -/
def snapshotReplyNewer (r : Raft n σ) (resp : InstallSnapshotResponse) : Raft n σ :=
  -- the replicators are not stopped here, unlike in `becomeFollowerUnlocked`
  { r with currentTerm := resp.term, currentRole := .follower, votedFor := none }

/-- The last lock region of `sendInstallSnapshotRPC`. -/
def finishTransfer (r : Raft n σ) (t : Transfer n) : Raft n σ :=
  { r with
    sentLengths := Function.update r.sentLengths t.followerId (t.lastIndex + 1)
    ackedLengths := Function.update r.ackedLengths t.followerId t.lastIndex }

/-! ## The follower's side -/

/-- `InstallSnapshot` up to the write: the term and the leader of the request. -/
def followSnapshot (r : Raft n σ) (req : InstallSnapshotRequest n) : Raft n σ :=
  if r.currentTerm < req.leaderTerm then
    { r with
      -- `votedFor` is left alone, so a vote of the old term is carried into the new one
      currentTerm := req.leaderTerm
      currentRole := .follower
      currentLeaderId := some req.leaderId }
  else { r with currentLeaderId := some req.leaderId }

/-- The log reaches past the snapshot, and the entry it is compared with has the snapshot's term:
`InstallSnapshot` keeps the entries after that one. -/
def retainsSuffix (r : Raft n σ) (req : InstallSnapshotRequest n) : Prop :=
  req.lastIncludedIndex < r.absLength ∧
    ∃ e ∈ index? r.log (req.lastIncludedIndex - r.snapshotter.lastIndex),
      e.term = req.lastIncludedTerm
deriving Decidable

/-- The log `InstallSnapshot` leaves. -/
def logAfterSnapshot (r : Raft n σ) (req : InstallSnapshotRequest n) : List LogEntry :=
  if r.retainsSuffix req then
    -- position `lastIncludedIndex` is the first after the snapshot; it is dropped, too
    r.log.drop ((req.lastIncludedIndex - r.snapshotter.lastIndex).toNat + 1)
  else []

/-- The part of `InstallSnapshot` after the last chunk was written: the new state, and whether the
file could be read and the application took it. -/
def restoreSnapshot (app : Application σ) (disk : Disk) (r : Raft n σ)
    (req : InstallSnapshotRequest n) : Raft n σ × Bool :=
  let r₁ := { r with log := r.logAfterSnapshot req }
  match r₁.snapshotFile, disk.readSucceeds with
  | some bytes, true =>
    let (application, restored) := app.restoreFromSnapshot r₁.application bytes
    let r₂ := { r₁ with application := application }
    if restored.isSome then
      ({ r₂ with
          snapshotter :=
            { r₂.snapshotter with
              lastIndex := req.lastIncludedIndex
              lastTerm := req.lastIncludedTerm }
          commitedLength := max r₂.commitedLength req.lastIncludedIndex },
        true)
    -- the log is already cut, although the snapshot's index was not taken over
    else (r₂, false)
  | _, _ => (r₁, false)

/-- `InstallSnapshot`: the new state and the reply, `none` when it returns an error.  The reply
carries the term the node had before. -/
def installSnapshot (app : Application σ) (disk : Disk) (r : Raft n σ)
    (req : InstallSnapshotRequest n) : Raft n σ × Option InstallSnapshotResponse :=
  let reply : InstallSnapshotResponse := ⟨int32 r.currentTerm⟩
  if req.leaderTerm < r.currentTerm then (r, some reply)
  else
    let r₁ := r.followSnapshot req
    let (file, written) := writeSnapshotData r₁.snapshotFile req.data req.offset disk.write
    let r₂ := { r₁ with snapshotFile := file }
    if written then
      -- all chunks but the last only go to the file
      if req.done then
        let (r₃, restored) := r₂.restoreSnapshot app disk req
        (r₃, if restored then some reply else none)
      else (r₂, some reply)
    else (r₂, none)

@[simp] theorem followSnapshot_log (r : Raft n σ) (req : InstallSnapshotRequest n) :
    (r.followSnapshot req).log = r.log := by
  unfold followSnapshot
  split <;> rfl

@[simp] theorem followSnapshot_snapshotter (r : Raft n σ) (req : InstallSnapshotRequest n) :
    (r.followSnapshot req).snapshotter = r.snapshotter := by
  unfold followSnapshot
  split <;> rfl

@[simp] theorem followSnapshot_commitedLength (r : Raft n σ) (req : InstallSnapshotRequest n) :
    (r.followSnapshot req).commitedLength = r.commitedLength := by
  unfold followSnapshot
  split <;> rfl

@[simp] theorem followSnapshot_snapshotFile (r : Raft n σ) (req : InstallSnapshotRequest n) :
    (r.followSnapshot req).snapshotFile = r.snapshotFile := by
  unfold followSnapshot
  split <;> rfl

@[simp] theorem followSnapshot_application (r : Raft n σ) (req : InstallSnapshotRequest n) :
    (r.followSnapshot req).application = r.application := by
  unfold followSnapshot
  split <;> rfl

/-- What is kept depends on the log and the snapshot only. -/
theorem logAfterSnapshot_congr (req : InstallSnapshotRequest n) (hlog : r'.log = r.log)
    (hsnap : r'.snapshotter = r.snapshotter) :
    r'.logAfterSnapshot req = r.logAfterSnapshot req := by
  have hiff : r'.retainsSuffix req ↔ r.retainsSuffix req := by
    unfold retainsSuffix absLength
    rw [hlog, hsnap]
  unfold logAfterSnapshot
  simp only [hiff, hlog, hsnap]

theorem restoreSnapshot_cases (app : Application σ) (disk : Disk) (r : Raft n σ)
    (req : InstallSnapshotRequest n) : ∃ application,
    (r.restoreSnapshot app disk req =
        ({ r with log := r.logAfterSnapshot req, application := application }, false) ∧
      ∀ bytes, r.snapshotFile = some bytes →
        (disk.readSucceeds && (app.restoreFromSnapshot r.application bytes).2.isSome) = false) ∨
      r.restoreSnapshot app disk req =
        ({ r with
            log := r.logAfterSnapshot req
            application := application
            snapshotter :=
              { r.snapshotter with
                lastIndex := req.lastIncludedIndex
                lastTerm := req.lastIncludedTerm }
            commitedLength := max r.commitedLength req.lastIncludedIndex },
          true) := by
  unfold restoreSnapshot
  simp only
  split
  · rename_i bytes hfile _
    split
    · exact ⟨_, Or.inr rfl⟩
    · rename_i hnone
      refine ⟨_, Or.inl ⟨rfl, fun bytes' hbytes ↦ ?_⟩⟩
      obtain rfl : bytes = bytes' := Option.some.inj (hfile.symm.trans hbytes)
      simpa using fun _ ↦ hnone
  -- no file, or a read that fails
  · rename_i hread
    refine ⟨_, Or.inl ⟨rfl, fun bytes hbytes ↦ ?_⟩⟩
    rw [Bool.eq_false_iff.mpr fun h ↦ hread bytes hbytes h, Bool.false_and]

/-- Once the chunk of `req` is written, the file can be read and the application takes it. -/
def restorable (app : Application σ) (disk : Disk) (r : Raft n σ)
    (req : InstallSnapshotRequest n) : Bool :=
  match writeSnapshotData r.snapshotFile req.data req.offset disk.write with
  | (_, false) => true
  | (none, true) => false
  | (some bytes, true) =>
    disk.readSucceeds && (app.restoreFromSnapshot r.application bytes).2.isSome

/-- `InstallSnapshot` ignores an old term, stores a chunk, fails to restore the finished file, or
restores it. -/
inductive InstallOutcome (app : Application σ) (disk : Disk) (r : Raft n σ)
    (req : InstallSnapshotRequest n) : Raft n σ → Option InstallSnapshotResponse → Prop
  | stale (hterm : req.leaderTerm < r.currentTerm) :
    InstallOutcome app disk r req r (some ⟨int32 r.currentTerm⟩)
  | stored (hterm : r.currentTerm ≤ req.leaderTerm) (file : Option (List UInt8))
      (reply : Option InstallSnapshotResponse)
      (hreply : reply = none ∨ req.done = false ∧ reply = some ⟨int32 r.currentTerm⟩) :
    InstallOutcome app disk r req { r.followSnapshot req with snapshotFile := file } reply
  | failed (hterm : r.currentTerm ≤ req.leaderTerm) (hdone : req.done = true)
      (hfail : r.restorable app disk req = false) (file : Option (List UInt8)) (application : σ) :
    InstallOutcome app disk r req
      { r.followSnapshot req with
        snapshotFile := file
        log := r.logAfterSnapshot req
        application := application }
      none
  | restored (hterm : r.currentTerm ≤ req.leaderTerm) (hdone : req.done = true)
      (file : Option (List UInt8)) (application : σ) :
    InstallOutcome app disk r req
      { r.followSnapshot req with
        snapshotFile := file
        log := r.logAfterSnapshot req
        application := application
        snapshotter :=
          { r.snapshotter with
            lastIndex := req.lastIncludedIndex
            lastTerm := req.lastIncludedTerm }
        commitedLength := max r.commitedLength req.lastIncludedIndex }
      (some ⟨int32 r.currentTerm⟩)

theorem InstallOutcome.reply_term {req : InstallSnapshotRequest n}
    {reply : Option InstallSnapshotResponse} {x : InstallSnapshotResponse}
    (h : InstallOutcome app disk r req r' reply) (hx : x ∈ reply) :
    x.term = int32 r.currentTerm := by
  cases h with
  | stale | restored => rw [← Option.some.inj hx]
  | stored _ _ _ hreply =>
    obtain rfl | ⟨-, rfl⟩ := hreply
    · cases hx
    · rw [← Option.some.inj hx]
  | failed => cases hx

theorem installSnapshot_outcome (app : Application σ) (disk : Disk) (r : Raft n σ)
    (req : InstallSnapshotRequest n) :
    InstallOutcome app disk r req (r.installSnapshot app disk req).1
      (r.installSnapshot app disk req).2 := by
  unfold installSnapshot
  simp only
  split
  · rename_i hterm
    exact .stale hterm
  rename_i hterm
  have hterm : r.currentTerm ≤ req.leaderTerm := by omega
  rw [followSnapshot_snapshotFile]
  cases hwritten : writeSnapshotData r.snapshotFile req.data req.offset disk.write with
  | mk file ok =>
  split
  · rename_i hok
    subst hok
    split
    · rename_i hdone
      obtain ⟨application, ⟨h, hfail⟩ | h⟩ :=
        restoreSnapshot_cases app disk { r.followSnapshot req with snapshotFile := file } req
      all_goals
        rw [h, logAfterSnapshot_congr (r := r) req (by simp) (by simp)]
      · refine .failed hterm hdone ?_ file application
        unfold restorable
        rw [hwritten]
        cases file with
        | none => rfl
        | some bytes => simpa using hfail bytes rfl
      · simp only [followSnapshot_snapshotter, followSnapshot_commitedLength]
        exact .restored hterm hdone file application
    · rename_i hdone
      exact .stored hterm file _ (Or.inr ⟨by simpa using hdone, rfl⟩)
  · exact .stored hterm file _ (Or.inl rfl)

end Raft

end DistributedCache
