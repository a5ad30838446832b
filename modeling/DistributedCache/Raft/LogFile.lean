import DistributedCache.Lib.Gob
import DistributedCache.Raft.Types

/-!
# The log file

`saveLog` appends every batch with an encoder of its own, while `loadLogs` reads the whole file with
one decoder.  So a file in which a second batch begins cannot be read back, nor can one whose last
record is cut short, and a value that points to zero is lost.  Nothing else stands between what was
saved and what is read: `loadLogs_saved_iff`.
-/

namespace DistributedCache

open Gob

/-! ## Entries -/

/-- The types that the encoder defines for a `LogEntry`. -/
inductive GobType where
  | logEntry
  | message
  deriving DecidableEq, Repr

def logEntryTypes : List GobType := [.logEntry, .message]

/-- The fields of an entry that are sent.  No message type is the empty string, so that one always
is. -/
structure GobEntry where
  term : Option Int
  msgType : MessageType
  key : Option Int
  value : Option Int
  data : Option (List UInt8)
  idempotencyToken : Option String
  clientID : Option String
  deriving DecidableEq, Repr

def LogEntry.gob (e : LogEntry) : GobEntry where
  term := field 0 e.term
  msgType := e.message.msgType
  key := field 0 e.message.key
  value := pointer 0 e.message.value
  data := field [] e.message.data
  idempotencyToken := field "" e.message.idempotencyToken
  clientID := field "" e.message.clientID

/-- The entry that the decoder fills in. -/
def GobEntry.logEntry (g : GobEntry) : LogEntry where
  term := g.term.getD 0
  message :=
    { msgType := g.msgType
      key := g.key.getD 0
      -- a pointer stays nil where nothing is received
      value := g.value
      data := g.data.getD []
      idempotencyToken := g.idempotencyToken.getD ""
      clientID := g.clientID.getD "" }

theorem logEntry_gob (e : LogEntry) :
    e.gob.logEntry =
      { e with message := { e.message with value := pointer 0 e.message.value } } := by
  simp [LogEntry.gob, GobEntry.logEntry]

theorem logEntry_gob_eq_self_iff {e : LogEntry} :
    e.gob.logEntry = e ↔ e.message.value ≠ some 0 := by
  rw [logEntry_gob, ← pointer_eq_self_iff]
  constructor
  · intro h
    exact congrArg (fun x : LogEntry ↦ x.message.value) h
  · intro h
    rw [h]

/-! ## Writing and reading -/

/-- What `saveLog` appends to the file. -/
def saveLog (logs : List LogEntry) : List (Item GobType GobEntry) :=
  newEncoder.encodeAll logEntryTypes (logs.map LogEntry.gob)

/-- The loop of `loadLogs`; every round takes an entry off the file. -/
def loadLogsLoop (torn : Bool) : Nat → List GobType → List (Item GobType GobEntry) →
    List LogEntry → Except DecodeError (List LogEntry)
  | 0, _, _, logs => .ok logs
  | rounds + 1, known, items, logs =>
    match decode torn known false items with
    | .error .eof => .ok logs
    -- a cut record is not `io.EOF`, so that all entries are given up
    | .error err => .error err
    | .ok (entry, known', rest) => loadLogsLoop torn rounds known' rest (logs ++ [entry.logEntry])

def loadLogs (f : Gob.Stream GobType GobEntry) : Except DecodeError (List LogEntry) :=
  loadLogsLoop f.torn (f.items.length + 1) [] f.items []

/-- The file after the batches were saved one after another. -/
def logFile (batches : List (List LogEntry)) : List (Item GobType GobEntry) :=
  batches.flatMap saveLog

/-- The entries that are completely among the first `k` bytes of the file. -/
def completeEntries (size : Item GobType GobEntry → Nat) (k : Nat)
    (batches : List (List LogEntry)) : List LogEntry :=
  batches.flatten.take ((cut size k (logFile batches)).items.countP Item.isValue)

section

variable {torn : Bool} {items : List (Item GobType GobEntry)} {logs batch : List LogEntry}

/-- The rest of the loop, from the middle of a call of `Decode` on.  By induction on the file: a
definition stays within the call, an entry ends it. -/
theorem loadLogsLoop_ok_iff {known : List GobType} {started : Bool} {rounds : Nat}
    {logs' : List LogEntry} (hrounds : items.length ≤ rounds) :
    (match decode torn known started items with
      | .error .eof => Except.ok logs
      | .error err => Except.error err
      | .ok (entry, known', rest) =>
        loadLogsLoop torn rounds known' rest (logs ++ [entry.logEntry])) = .ok logs' ↔
      (items = [] → started = false) ∧
        (⟨items, torn⟩ : Gob.Stream GobType GobEntry).endsAtValue = true ∧
        (∀ id ∈ typeDefs items, id ∉ known) ∧ (typeDefs items).Nodup ∧
        logs' = logs ++ (values items).map GobEntry.logEntry := by
  induction items generalizing known started rounds logs with
  | nil =>
    cases torn <;> cases started <;>
      simp [decode, Stream.endsAtValue, typeDefs, values, eq_comm]
  | cons m items ih =>
    rw [endsAtValue_cons]
    cases m with
    | typeDef id =>
      rw [decode]
      by_cases hid : id ∈ known
      · simp [hid]
      · rw [if_neg hid, ih (Nat.le_of_succ_le hrounds)]
        simp only [Item.isValue, typeDefs_cons_typeDef, values_cons_typeDef, List.mem_cons,
          List.nodup_cons, not_or]
        grind
    | value v =>
      rw [List.length_cons] at hrounds
      obtain ⟨rounds, rfl⟩ : ∃ k, rounds = k + 1 := ⟨rounds - 1, by omega⟩
      rw [decode]
      simp only [loadLogsLoop]
      rw [ih (Nat.le_of_succ_le_succ hrounds)]
      simp [Item.isValue]

/-- What `loadLogs` reads, and when it reads anything: the file ends after an entry and defines no
type twice. -/
theorem loadLogs_ok_iff {f : Gob.Stream GobType GobEntry} :
    loadLogs f = .ok logs ↔ f.endsAtValue = true ∧ (typeDefs f.items).Nodup ∧
      logs = (values f.items).map GobEntry.logEntry := by
  unfold loadLogs
  rw [loadLogsLoop]
  refine (loadLogsLoop_ok_iff (Nat.le_refl _)).trans ?_
  simp

theorem values_saveLog (batch : List LogEntry) :
    values (saveLog batch) = batch.map LogEntry.gob := by
  by_cases h : batch = []
  · rw [h]
    rfl
  · rw [saveLog, encodeAll_newEncoder logEntryTypes (by simpa using h), values_batch]

theorem values_logFile (batches : List (List LogEntry)) :
    values (logFile batches) = batches.flatten.map LogEntry.gob := by
  induction batches with
  | nil => rfl
  | cons batch batches ih =>
    show values (saveLog batch ++ logFile batches) = _
    rw [values_append, values_saveLog, ih, List.flatten_cons, List.map_append]

/-- Entries come back as they were unless a value points to zero. -/
theorem map_logEntry_gob_eq_self_iff :
    (logs.map LogEntry.gob).map GobEntry.logEntry = logs ↔
      ∀ e ∈ logs, e.message.value ≠ some 0 := by
  induction logs with
  | nil => simp
  | cons e logs ih =>
    rw [List.map_cons, List.map_cons, List.cons.injEq, ih, logEntry_gob_eq_self_iff,
      List.forall_mem_cons]

end

/-- The complete entries of the file are read back exactly if what is left of it ends after an
entry, defines no type twice, so that no second batch begins in it, and has no value that points to
zero. -/
theorem loadLogs_saved_iff (size : Item GobType GobEntry → Nat) (k : Nat)
    (batches : List (List LogEntry)) :
    loadLogs (cut size k (logFile batches)) = .ok (completeEntries size k batches) ↔
      (cut size k (logFile batches)).endsAtValue = true ∧
      (typeDefs (cut size k (logFile batches)).items).Nodup ∧
      ∀ e ∈ completeEntries size k batches, e.message.value ≠ some 0 := by
  have hvalues : values (cut size k (logFile batches)).items =
      (completeEntries size k batches).map LogEntry.gob := by
    rw [values_of_isPrefix (cut_isPrefix size k (logFile batches)), values_logFile,
      ← List.map_take]
    rfl
  rw [loadLogs_ok_iff, hvalues, ← map_logEntry_gob_eq_self_iff]
  simp only [eq_comm]

/-- An entry of term 1, for concrete files. -/
def sampleEntry (key : Int) (value : Option Int) : LogEntry := ⟨1, ⟨.put, key, value, [], "", ""⟩⟩

/-- Two complete batches, a cut in the last record and a value that points to zero. -/
theorem loadLogs_not_saved :
    (loadLogs (cut (fun _ ↦ 10) 60 (logFile [[sampleEntry 1 (some 5)], [sampleEntry 2 none]])) =
        .error .duplicateType ∧
      completeEntries (fun _ ↦ 10) 60 [[sampleEntry 1 (some 5)], [sampleEntry 2 none]] =
        [sampleEntry 1 (some 5), sampleEntry 2 none]) ∧
    (loadLogs (cut (fun _ ↦ 10) 35 (logFile [[sampleEntry 1 (some 5), sampleEntry 2 none]])) =
        .error .unexpectedEOF ∧
      completeEntries (fun _ ↦ 10) 35 [[sampleEntry 1 (some 5), sampleEntry 2 none]] =
        [sampleEntry 1 (some 5)]) ∧
    loadLogs (cut (fun _ ↦ 10) 30 (logFile [[sampleEntry 1 (some 0)]])) =
        .ok [sampleEntry 1 none] ∧
      completeEntries (fun _ ↦ 10) 30 [[sampleEntry 1 (some 0)]] = [sampleEntry 1 (some 0)] := by
  decide +kernel

end DistributedCache
