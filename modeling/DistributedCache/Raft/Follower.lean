import DistributedCache.Raft.Requests

/-!
# A follower's log after `LogRequest` and `InstallSnapshot`

Both handlers run here from their first lock to their reply, with nothing in between.
`appendEntries` compares the log with the first entry of the suffix only, and where it starts to
append is computed from the length before the cut: it stores the suffix exactly when nothing in the
log contradicts it.  `InstallSnapshot` looks for the snapshot's last entry one position too late.
-/

namespace DistributedCache

open Window

variable {n : Nat} {σ : Type}

namespace Raft

variable {app : Application σ} {r r' : Raft n σ} {p : Int} {suffix : List LogEntry}

/-! ## Entries by position -/

theorem entryAt_eq_none (h : r.absLength ≤ p) : r.entryAt p = none := by
  cases he : r.entryAt p with
  | none => rfl
  | some e =>
    have := index?_lt he
    unfold absLength at h
    omega

theorem exists_entryAt (hlow : r.snapshotter.lastIndex ≤ p) (hhigh : p < r.absLength) :
    ∃ e, r.entryAt p = some e := by
  unfold absLength at hhigh
  exact exists_index? (by omega) (by omega)

theorem entryAt_bounds {e : LogEntry} (h : r.entryAt p = some e) :
    r.snapshotter.lastIndex ≤ p ∧ p < r.absLength := by
  have := index?_lt h
  unfold absLength
  omega

variable {disk : Disk} {args : LogRequestArgs n} {req : InstallSnapshotRequest n}

/-- What the log has at and after the snapshot does not depend on where the snapshot ends. -/
theorem entryAt_decideRunSnapshot (h : r.decideRunSnapshot app disk = some r')
    (hp : r'.snapshotter.lastIndex ≤ p) : r'.entryAt p = r.entryAt p := by
  obtain ⟨file, rfl⟩ | ⟨file, e, -, hpos, -, -, rfl⟩ := decideRunSnapshot_cases h
  · rfl
  · have hbase : r.commitedLength = r.snapshotter.lastIndex + r.comittedCount.toNat := by
      unfold comittedCount at hpos ⊢
      omega
    change at? r.commitedLength (r.log.drop r.comittedCount.toNat) p = _
    change r.commitedLength ≤ p at hp
    rw [hbase] at hp ⊢
    exact at?_drop hp

theorem absLength_decideRunSnapshot (h : r.decideRunSnapshot app disk = some r') :
    r'.absLength = r.absLength := by
  obtain ⟨file, rfl⟩ | ⟨file, e, -, hpos, hle, -, rfl⟩ := decideRunSnapshot_cases h
  · rfl
  · unfold comittedCount at hpos hle
    simp only [absLength, compact, comittedCount, List.length_drop]
    omega

/-! ## `appendEntries` -/

/-- No entry that the log holds at a position of the suffix is of another term than the entry
there. -/
def agreesWith (r : Raft n σ) (prefixLen : Int) (suffix : List LogEntry) : Prop :=
  ∀ k < suffix.length, ∀ e ∈ r.entryAt (prefixLen + k), ∀ s ∈ suffix[k]?, e.term = s.term

instance (r : Raft n σ) (prefixLen : Int) (suffix : List LogEntry) :
    Decidable (r.agreesWith prefixLen suffix) :=
  inferInstanceAs (Decidable (∀ k < suffix.length, _))

/-- What a request asks to be at a position: the old log, then the suffix, then the old log again
unless the suffix contradicts it. -/
def splicedAt (r : Raft n σ) (prefixLen : Int) (suffix : List LogEntry) (q : Int) :
    Option LogEntry :=
  if q < prefixLen then r.entryAt q
  else if q < prefixLen + suffix.length then suffix[(q - prefixLen).toNat]?
  else if r.agreesWith prefixLen suffix then r.entryAt q
  else none

/-- An entry of the log with the position and the term of a suffix entry is that entry. -/
def sameTermSame (r : Raft n σ) (prefixLen : Int) (suffix : List LogEntry) : Prop :=
  ∀ k < suffix.length, ∀ e ∈ r.entryAt (prefixLen + k), ∀ s ∈ suffix[k]?, e.term = s.term → e = s

instance (r : Raft n σ) (prefixLen : Int) (suffix : List LogEntry) :
    Decidable (r.sameTermSame prefixLen suffix) :=
  inferInstanceAs (Decidable (∀ k < suffix.length, _))

theorem agreesWith.not_conflicts (h : r.agreesWith p suffix) : ¬ r.conflicts p suffix := by
  rintro ⟨-, s, hs, e, he, hne⟩
  rw [Option.mem_def, List.head?_eq_getElem?] at hs
  refine hne (h 0 (List.getElem?_eq_some_iff.mp hs).1 e ?_ s hs)
  simpa using he

theorem absLength_appendSuffix (hp : p ≤ r.absLength) (hagrees : r.agreesWith p suffix) :
    (r.appendSuffix p suffix).absLength = max r.absLength (p + suffix.length) := by
  have htrunc : r.truncatedLog p suffix = r.log := if_neg hagrees.not_conflicts
  have hlen : (r.appendSuffix p suffix).absLength =
      r.absLength + (r.missingEntries p suffix).length := by
    simp only [appendSuffix, absLength, htrunc, List.length_append]
    omega
  rw [hlen]
  unfold missingEntries
  split
  · rw [List.length_drop]
    omega
  · rw [List.length_nil]
    omega

/-- Nothing the log has is lost, and what it lacks comes from the suffix. -/
theorem entryAt_appendSuffix (hp : p ≤ r.absLength) (hfree : ¬ r.conflicts p suffix) {q : Int}
    (hq : r.snapshotter.lastIndex ≤ q) :
    (r.appendSuffix p suffix).entryAt q =
      if q < r.absLength then r.entryAt q else suffix[(q - p).toNat]? := by
  have htrunc : r.truncatedLog p suffix = r.log := if_neg hfree
  change at? r.snapshotter.lastIndex (r.truncatedLog p suffix ++ r.missingEntries p suffix) q = _
  rw [at?_of_le hq, htrunc]
  split
  · rename_i hlt
    unfold absLength at hlt
    rw [List.getElem?_append_left (by omega), entryAt, at?_of_le hq]
  · rename_i hge
    unfold missingEntries
    unfold absLength at hp hge
    rw [List.getElem?_append_right (by omega)]
    split
    · -- the suffix is entered where the log ends
      rw [List.getElem?_drop]
      congr 1
      unfold absLength
      omega
    · rename_i hshort
      unfold absLength at hshort
      rw [List.getElem?_nil, List.getElem?_eq_none (by omega)]

theorem entryAt_appendSuffix_spliced (hp : p ≤ r.absLength) (hagrees : r.agreesWith p suffix)
    (hsame : r.sameTermSame p suffix) {q : Int} (hq : r.snapshotter.lastIndex ≤ q) :
    (r.appendSuffix p suffix).entryAt q = r.splicedAt p suffix q := by
  rw [entryAt_appendSuffix hp hagrees.not_conflicts hq, splicedAt, if_pos hagrees]
  split
  · rename_i hlt
    split
    · rfl
    rename_i hge
    split
    · -- the log and the suffix both have the position
      rename_i hin
      obtain ⟨e, he⟩ := exists_entryAt hq hlt
      have hs : suffix[(q - p).toNat]? = some suffix[(q - p).toNat] :=
        List.getElem?_eq_getElem (by omega)
      have hpos : p + ((q - p).toNat : Int) = q := by omega
      rw [he, hs]
      rw [← hpos] at he
      exact congrArg some (hsame _ (by omega) e he _ hs (hagrees _ (by omega) e he _ hs))
    · rfl
  · rename_i hge
    rw [if_neg (by omega)]
    split
    · rfl
    · rw [entryAt_eq_none (by omega), List.getElem?_eq_none (by omega)]

/-- After a cut the log is shorter than what the request asks for. -/
theorem conflicts.absLength_lt (h : r.conflicts p suffix) (hstart : r.snapshotter.lastIndex ≤ p) :
    (r.appendSuffix p suffix).absLength < p + suffix.length := by
  obtain ⟨hlt, s, hs, -⟩ := id h
  have hpos := List.length_pos_iff.mpr (List.ne_nil_of_mem (List.mem_of_mem_head? hs))
  have hmissing : (r.missingEntries p suffix).length < suffix.length := by
    unfold missingEntries
    split
    · rw [List.length_drop]
      omega
    · exact hpos
  unfold absLength at hlt ⊢
  simp only [appendSuffix, truncatedLog, if_pos h, List.length_append, List.length_take]
  omega

/-- The log is what the request asks for only if nothing in it contradicts the suffix. -/
theorem agreesWith_of_spliced (hp : p ≤ r.absLength) (hstart : r.snapshotter.lastIndex ≤ p)
    (h : ∀ q, r.snapshotter.lastIndex ≤ q →
      (r.appendSuffix p suffix).entryAt q = r.splicedAt p suffix q) :
    r.agreesWith p suffix := by
  have hsuffix : ∀ k : Nat, k < suffix.length →
      (r.appendSuffix p suffix).entryAt (p + k) = suffix[k]? := by
    intro k hk
    rw [h _ (by omega), splicedAt, if_neg (by omega), if_pos (by omega)]
    congr 1
    omega
  intro k hk e he s hs
  by_cases hconf : r.conflicts p suffix
  · -- the last position of the suffix is empty
    have hlast := hsuffix (suffix.length - 1) (by omega)
    have hshort := hconf.absLength_lt hstart
    rw [entryAt_eq_none (by omega), List.getElem?_eq_getElem (by omega)] at hlast
    cases hlast
  · have hkept := entryAt_appendSuffix hp hconf (q := p + k) (by omega)
    rw [if_pos (entryAt_bounds he).2, hsuffix k hk, hs, he] at hkept
    rw [Option.some.inj hkept]

theorem exists_messagesFrom {k : Nat} (hlow : r.snapshotter.lastIndex ≤ p)
    (hhigh : p + k ≤ r.absLength) : ∃ ds, r.messagesFrom k p = some ds := by
  induction k generalizing p with
  | zero => exact ⟨[], rfl⟩
  | succ k ih =>
    obtain ⟨e, he⟩ := exists_entryAt hlow (by omega)
    obtain ⟨ds, hds⟩ := ih (p := p + 1) (by omega) (by omega)
    refine ⟨(p, e.message) :: ds, ?_⟩
    rw [messagesFrom, he, Option.bind_some, hds, Option.map_some]

/-- The snapshot lies within what is committed, and that within the log. -/
structure Bounded (r : Raft n σ) : Prop where
  nonneg : 0 ≤ r.snapshotter.lastIndex
  low : r.snapshotter.lastIndex ≤ r.commitedLength
  high : r.commitedLength ≤ r.absLength

instance (r : Raft n σ) : Decidable r.Bounded :=
  decidable_of_iff (0 ≤ r.snapshotter.lastIndex ∧ r.snapshotter.lastIndex ≤ r.commitedLength ∧
    r.commitedLength ≤ r.absLength) ⟨fun ⟨h, h', h''⟩ ↦ ⟨h, h', h''⟩, fun h ↦ ⟨h.1, h.2, h.3⟩⟩

theorem Bounded.commitTo (h : r.Bounded) (app : Application σ) (leaderCommit : Int) :
    ∃ r' ds, r.commitTo app leaderCommit = some (r', ds) ∧ r'.Bounded ∧ r'.log = r.log ∧
      r'.snapshotter = r.snapshotter := by
  have hlow := h.low
  have hhigh := h.high
  unfold Raft.commitTo
  split
  · rename_i hlt
    obtain ⟨ds, hds⟩ := exists_messagesFrom (r := r)
      (k := (min leaderCommit r.absLength - r.commitedLength).toNat) hlow (by omega)
    simp only [hds, Option.map_some]
    rw [deliverAll_eq]
    refine ⟨_, ds, rfl, ⟨h.nonneg, ?_, ?_⟩, rfl, rfl⟩
    · simp only
      omega
    · change min leaderCommit r.absLength ≤ r.absLength
      omega
  · exact ⟨r, [], rfl, h, rfl, rfl⟩

theorem Bounded.decideRunSnapshot (h : r.Bounded) (app : Application σ) (disk : Disk) :
    ∃ r', r.decideRunSnapshot app disk = some r' ∧ r'.Bounded ∧
      r.snapshotter.lastIndex ≤ r'.snapshotter.lastIndex := by
  have hhigh := h.high
  have hnonneg := h.nonneg
  have hlow := h.low
  have hsome : ∃ r', r.decideRunSnapshot app disk = some r' := by
    unfold Raft.absLength at hhigh
    unfold Raft.decideRunSnapshot
    split
    · exact ⟨_, rfl⟩
    split
    · exact ⟨_, rfl⟩
    simp only
    split
    · exact ⟨_, rfl⟩
    split
    · rw [if_pos (by unfold comittedCount; omega)]
      exact ⟨_, rfl⟩
    · exact ⟨_, rfl⟩
  obtain ⟨r', hr'⟩ := hsome
  refine ⟨r', hr', ?_⟩
  have habs := absLength_decideRunSnapshot hr'
  obtain ⟨file, rfl⟩ | ⟨file, e, -, hpos, -, -, rfl⟩ := decideRunSnapshot_cases hr'
  · exact ⟨⟨hnonneg, hlow, hhigh⟩, le_rfl⟩
  · refine ⟨⟨?_, le_rfl, ?_⟩, hlow⟩
    · simp only [compact]
      omega
    · rw [habs]
      exact hhigh

/-- Nothing committed is cut off. -/
theorem Bounded.appendSuffix (h : r.Bounded)
    (hcut : r.conflicts p suffix → r.commitedLength ≤ p) : (r.appendSuffix p suffix).Bounded := by
  have hhigh := h.high
  refine ⟨h.nonneg, h.low, ?_⟩
  unfold Raft.absLength at hhigh ⊢
  simp only [Raft.appendSuffix, Raft.truncatedLog, List.length_append]
  split
  · rename_i hconf
    have := hcut hconf
    rw [List.length_take]
    omega
  · omega

theorem Bounded.appendEntries (h : r.Bounded) (app : Application σ) (disk : Disk)
    (hp : args.prefixLen ≤ r.absLength) (hagrees : r.agreesWith args.prefixLen args.suffix) :
    ∃ r' ds, r.appendEntries app disk args = some (r', ds) ∧ r'.Bounded ∧
      r.snapshotter.lastIndex ≤ r'.snapshotter.lastIndex ∧
      r'.absLength = max r.absLength (args.prefixLen + args.suffix.length) ∧
      ∀ q, r'.snapshotter.lastIndex ≤ q →
        r'.entryAt q = (r.appendSuffix args.prefixLen args.suffix).entryAt q := by
  obtain ⟨r₁, ds, hcommit, hbound₁, hlog, hsnap⟩ :=
    (h.appendSuffix fun hconf ↦ absurd hconf hagrees.not_conflicts).commitTo app args.commitLength
  obtain ⟨r₂, hrun, hbound₂, hbase⟩ := hbound₁.decideRunSnapshot app disk
  rw [hsnap] at hbase
  refine ⟨r₂, ds, ?_, hbound₂, hbase, ?_, fun q hq ↦ ?_⟩
  · rw [Raft.appendEntries, hcommit]
    simp only [Option.bind_some, hrun, Option.map_some]
  · rw [absLength_decideRunSnapshot hrun, ← absLength_appendSuffix hp hagrees]
    unfold Raft.absLength
    rw [hlog, hsnap]
  · rw [entryAt_decideRunSnapshot hrun hq]
    unfold Raft.entryAt
    rw [hlog, hsnap]

/-! ## `LogRequest` -/

/-- `LogRequest` from the first lock to the reply, with the messages it delivers. -/
def logRequestDelivers (app : Application σ) (disk : Disk) (r : Raft n σ) (id : Fin n)
    (args : LogRequestArgs n) : Option (Raft n σ × LogResponse n × List Delivery) :=
  let r₁ := r.followLeader id args
  if r.acceptsLogRequest id args then
    (r₁.appendEntries app disk args).map fun (r₂, ds) ↦ (r₂, r₂.acceptLogRequest id args, ds)
  else some (r₁, r₁.rejectLogRequest id, [])

/-- What `LogRequest` leaves and answers. -/
def logRequest (app : Application σ) (disk : Disk) (r : Raft n σ) (id : Fin n)
    (args : LogRequestArgs n) : Option (Raft n σ × LogResponse n) :=
  (r.logRequestDelivers app disk id args).map fun x ↦ (x.1, x.2.1)

theorem logRequest_of_accepts {id : Fin n} (h : r.acceptsLogRequest id args) :
    r.logRequest app disk id args =
      ((r.followLeader id args).appendEntries app disk args).map fun x ↦
        (x.1, x.1.acceptLogRequest id args) := by
  simp only [logRequest, logRequestDelivers, if_pos h, Option.map_map]
  rfl

theorem logRequest_of_rejects {id : Fin n} (h : ¬ r.acceptsLogRequest id args) :
    r.logRequest app disk id args =
      some (r.followLeader id args, (r.followLeader id args).rejectLogRequest id) := by
  simp only [logRequest, logRequestDelivers, if_neg h, Option.map_some]

theorem SameLog.entryAt (h : r.SameLog r') (p : Int) : r'.entryAt p = r.entryAt p := by
  unfold Raft.entryAt
  rw [h.log, h.snapshotter]

theorem SameLog.absLength (h : r.SameLog r') : r'.absLength = r.absLength := by
  unfold Raft.absLength
  rw [h.log, h.snapshotter]

theorem SameLog.bounded (h : r.SameLog r') (hbound : r.Bounded) : r'.Bounded where
  nonneg := h.snapshotter ▸ hbound.nonneg
  low := by
    rw [h.snapshotter, h.commitedLength]
    exact hbound.low
  high := by
    rw [h.absLength, h.commitedLength]
    exact hbound.high

theorem SameLog.agreesWith (h : r.SameLog r') (hagrees : r.agreesWith p suffix) :
    r'.agreesWith p suffix := fun k hk e he ↦ hagrees k hk e (h.entryAt (p + k) ▸ he)

theorem SameLog.sameTermSame (h : r.SameLog r') (hsame : r.sameTermSame p suffix) :
    r'.sameTermSame p suffix := fun k hk e he ↦ hsame k hk e (h.entryAt (p + k) ▸ he)

theorem SameLog.splicedAt (h : r.SameLog r') (hagrees : r.agreesWith p suffix) (q : Int) :
    r'.splicedAt p suffix q = r.splicedAt p suffix q := by
  unfold Raft.splicedAt
  rw [if_pos hagrees, if_pos (h.agreesWith hagrees), h.entryAt]

/-- The prefix of an accepted request ends in the log. -/
theorem logOk_le {t : Int} (h : r.logOk p t = true) (habs : 0 ≤ r.absLength) :
    p ≤ r.absLength := by
  unfold logOk at h
  split at h
  · omega
  split at h
  · cases h
  · omega

theorem Bounded.absLength_nonneg (h : r.Bounded) : 0 ≤ r.absLength := by
  have := h.nonneg
  have := h.low
  have := h.high
  omega

/-- The request is stored as it asks for: in the log that `appendEntries` makes, in what the same
call leaves of it when it takes a snapshot, and at every position that is acknowledged. -/
structure Stored (r : Raft n σ) (args : LogRequestArgs n) (r' : Raft n σ) (resp : LogResponse n) :
    Prop where
  appended : ∀ q, r.snapshotter.lastIndex ≤ q →
    (r.appendSuffix args.prefixLen args.suffix).entryAt q =
      r.splicedAt args.prefixLen args.suffix q
  log : ∀ q, r'.snapshotter.lastIndex ≤ q →
    r'.entryAt q = r.splicedAt args.prefixLen args.suffix q
  held : ∀ q, 0 ≤ q → q < resp.ack → q < r'.snapshotter.lastIndex ∨ ∃ e, r'.entryAt q = some e

/-- An accepted request is stored exactly if nothing that the log holds at its positions contradicts
it. -/
theorem logRequest_stores_iff (app : Application σ) (disk : Disk) (id : Fin n) {r : Raft n σ}
    {args : LogRequestArgs n} (hbound : r.Bounded) (haccepts : r.acceptsLogRequest id args)
    (hstart : r.snapshotter.lastIndex ≤ args.prefixLen)
    (hsame : r.sameTermSame args.prefixLen args.suffix) :
    (∃ r' resp, r.logRequest app disk id args = some (r', resp) ∧ resp.success = true ∧
      Stored r args r' resp) ↔ r.agreesWith args.prefixLen args.suffix := by
  have hp := logOk_le haccepts.2 hbound.absLength_nonneg
  constructor
  · rintro ⟨r', resp, -, -, hstored⟩
    exact agreesWith_of_spliced hp hstart hstored.appended
  · intro hagrees
    have hfollow : r.SameLog (r.followLeader id args) := followLeader_sameLog
    have hp' : args.prefixLen ≤ (r.followLeader id args).absLength := by
      rw [hfollow.absLength]
      exact hp
    obtain ⟨r', ds, happ, hbound', hbase, habs, hentries⟩ :=
      (hfollow.bounded hbound).appendEntries app disk hp' (hfollow.agreesWith hagrees)
    rw [hfollow.absLength] at habs
    refine ⟨r', r'.acceptLogRequest id args, ?_, rfl, ?_, ?_, ?_⟩
    · simp only [logRequest_of_accepts haccepts, happ, Option.map_some]
    · exact fun q hq ↦ entryAt_appendSuffix_spliced hp hagrees hsame hq
    · intro q hq
      rw [hentries q hq, entryAt_appendSuffix_spliced hp' (hfollow.agreesWith hagrees)
        (hfollow.sameTermSame hsame) (hbase.trans hq), hfollow.splicedAt hagrees]
    · intro q h0 hq
      have hack : int32 (args.prefixLen + args.suffix.length) ≤
          args.prefixLen + args.suffix.length :=
        int32_le (by have := hbound.nonneg; omega)
      change q < int32 (args.prefixLen + args.suffix.length) at hq
      by_cases hlow : q < r'.snapshotter.lastIndex
      · exact Or.inl hlow
      · exact Or.inr (exists_entryAt (by omega) (by omega))

/-- A follower with two uncommitted entries of term 1. -/
def sampleFollower : Raft 3 Unit :=
  { newRaft 3 1000 () with currentTerm := 1, log := [⟨1, samplePut 1⟩, ⟨1, samplePut 2⟩] }

/-- A suffix of which the follower has the first entry and not the other. -/
theorem logRequest_stores_overlap :
    ∃ r' resp, sampleFollower.logRequest keepsNothing .healthy 1
        ⟨0, 1, 1, 1, 0, [⟨1, samplePut 2⟩, ⟨1, samplePut 3⟩]⟩ = some (r', resp) ∧
      resp.success = true ∧
      Stored sampleFollower ⟨0, 1, 1, 1, 0, [⟨1, samplePut 2⟩, ⟨1, samplePut 3⟩]⟩ r' resp :=
  (logRequest_stores_iff keepsNothing .healthy 1 (by decide +kernel) (by decide +kernel)
    (by decide +kernel) (by decide +kernel)).mpr (by decide +kernel)

/-- One entry of term 2 for position 0.  The log is cut there, but the suffix is counted as present,
because it is no longer than the log was; position 0 is acknowledged and empty. -/
theorem logRequest_acknowledges_lost :
    sampleFollower.Bounded ∧ sampleFollower.sameTermSame 0 [⟨2, samplePut 3⟩] ∧
      ∃ r' resp, sampleFollower.logRequest keepsNothing .healthy 1
          ⟨0, 2, 0, 0, 0, [⟨2, samplePut 3⟩]⟩ = some (r', resp) ∧
        resp.success = true ∧ resp.ack = 1 ∧ r'.snapshotter.lastIndex = 0 ∧
        r'.entryAt 0 = none ∧
        sampleFollower.splicedAt 0 [⟨2, samplePut 3⟩] 0 = some ⟨2, samplePut 3⟩ := by
  refine ⟨by decide +kernel, by decide +kernel, ?_⟩
  obtain ⟨⟨r', resp⟩, hreq, h⟩ := (Option.any_eq_true _ _).mp
    (show (sampleFollower.logRequest keepsNothing .healthy 1
        ⟨0, 2, 0, 0, 0, [⟨2, samplePut 3⟩]⟩).any (fun x ↦ decide (x.2.success = true ∧
          x.2.ack = 1 ∧ x.1.snapshotter.lastIndex = 0 ∧ x.1.entryAt 0 = none ∧
          sampleFollower.splicedAt 0 [⟨2, samplePut 3⟩] 0 = some ⟨2, samplePut 3⟩)) = true by
      decide +kernel)
  exact ⟨r', resp, hreq, of_decide_eq_true h⟩

/-! ## `InstallSnapshot` -/

/-- The log holds the last entry of the snapshot, which is entry number `lastIncludedIndex`. -/
def holdsLastIncluded (r : Raft n σ) (req : InstallSnapshotRequest n) : Prop :=
  ∃ e ∈ r.entryAt (req.lastIncludedIndex - 1), e.term = req.lastIncludedTerm
deriving Decidable

/-- What is left is the log after the snapshot if the log holds the snapshot's last entry, as after
a compaction at that point, and nothing otherwise. -/
structure KeepsSuffix (app : Application σ) (r : Raft n σ) (req : InstallSnapshotRequest n)
    (r' : Raft n σ) : Prop where
  snapshot : r.holdsLastIncluded req → r'.snapshotter.lastIndex = req.lastIncludedIndex ∧
    r'.snapshotter.lastTerm = req.lastIncludedTerm
  retained : r.holdsLastIncluded req → ∀ q, req.lastIncludedIndex ≤ q →
    r'.entryAt q = r.entryAt q
  compacted : r.holdsLastIncluded req → ∀ disk r'',
    { r with commitedLength := req.lastIncludedIndex }.decideRunSnapshot app disk = some r'' →
      r''.snapshotter.lastIndex = req.lastIncludedIndex →
      r'.log = r''.log ∧ r'.snapshotter = r''.snapshotter
  emptied : ¬ r.holdsLastIncluded req → r'.log = []
  commit : r.commitedLength ≤ r'.commitedLength
  bound : r.commitedLength ≤ r.absLength → r'.commitedLength ≤ r'.absLength

/-- The log does not reach past the snapshot; or it does not hold the snapshot's last entry, nothing
after the snapshot is committed unless the commit length is past the log anyway, and the next entry
is not of the snapshot's term unless the log ends with it. -/
def endsWithSnapshot (r : Raft n σ) (req : InstallSnapshotRequest n) : Prop :=
  r.absLength ≤ req.lastIncludedIndex ∨
    ¬ r.holdsLastIncluded req ∧
      (r.commitedLength ≤ req.lastIncludedIndex ∨ r.absLength < r.commitedLength) ∧
      (r.retainsSuffix req → r.absLength = req.lastIncludedIndex + 1)
deriving Decidable

theorem endsWithSnapshot.logAfterSnapshot (h : r.endsWithSnapshot req) :
    r.logAfterSnapshot req = [] := by
  unfold Raft.logAfterSnapshot
  split
  · rename_i hretains
    apply List.drop_eq_nil_of_le
    obtain hle | ⟨-, -, hlast⟩ := h
    · exact absurd hretains.1 (by omega)
    · have := hlast hretains
      unfold Raft.absLength at this
      omega
  · rfl

/-- A compaction at a point where the log ends leaves nothing. -/
theorem compacted_at_end (h : r.decideRunSnapshot app disk = some r')
    (hmoved : r.snapshotter.lastIndex < r'.snapshotter.lastIndex)
    (hend : r.absLength ≤ r'.snapshotter.lastIndex) :
    r'.log = [] ∧ ∃ e, r.entryAt (r.commitedLength - 1) = some e ∧ r'.snapshotter =
      { r.snapshotter with lastIndex := r.commitedLength, lastTerm := e.term } := by
  obtain ⟨file, rfl⟩ | ⟨file, e, -, -, -, he, rfl⟩ := decideRunSnapshot_cases h
  · exact absurd hmoved (Int.lt_irrefl _)
  · change r.absLength ≤ r.commitedLength at hend
    unfold absLength at hend
    refine ⟨List.drop_eq_nil_of_le (by unfold comittedCount; omega), e, ?_, rfl⟩
    rw [← he, entryAt, at?, comittedCount]
    congr 1
    omega

/-- The log is shorter than before if it reached past the snapshot. -/
theorem length_logAfterSnapshot_lt (hnew : r.snapshotter.lastIndex < req.lastIncludedIndex)
    (hpast : req.lastIncludedIndex < r.absLength) :
    req.lastIncludedIndex + (r.logAfterSnapshot req).length < r.absLength := by
  unfold Raft.logAfterSnapshot
  split
  · unfold absLength at hpast ⊢
    rw [List.length_drop]
    omega
  · rw [List.length_nil]
    omega

/-- A snapshot beyond the node's own is installed at the right place exactly if the log ends with
it. -/
theorem installSnapshot_keeps_suffix_iff (app : Application σ) {r r' : Raft n σ} {disk : Disk}
    {req : InstallSnapshotRequest n} {resp : InstallSnapshotResponse} (hdone : req.done = true)
    (hterm : r.currentTerm ≤ req.leaderTerm)
    (hinst : r.installSnapshot app disk req = (r', some resp))
    (hnew : r.snapshotter.lastIndex < req.lastIncludedIndex) :
    KeepsSuffix app r req r' ↔ r.endsWithSnapshot req := by
  have hout : InstallOutcome app disk r req r' (some resp) := by
    simpa only [hinst] using installSnapshot_outcome app disk r req
  cases hout with
  | stale hstale => exact absurd hstale (by omega)
  | stored _ file reply hreply =>
    obtain hnone | ⟨hmore, -⟩ := hreply
    · cases hnone
    · rw [hdone] at hmore
      cases hmore
  | restored _ _ file application =>
    constructor
    · intro h
      refine or_iff_not_imp_left.mpr fun hpast ↦ ?_
      rw [Int.not_le] at hpast
      have hshort := length_logAfterSnapshot_lt hnew hpast
      have hnot : ¬ r.holdsLastIncluded req := by
        intro hholds
        -- the last entry of the old log is gone
        have hlast := h.retained hholds (r.absLength - 1) (by omega)
        obtain ⟨e, he⟩ := exists_entryAt (r := r) (p := r.absLength - 1) (by omega) (by omega)
        rw [he, entryAt_eq_none] at hlast
        · cases hlast
        · simp only [absLength] at hshort ⊢
          omega
      have hnil : r.logAfterSnapshot req = [] := h.emptied hnot
      refine ⟨hnot, ?_, fun hretains ↦ ?_⟩
      · have hcommit := h.bound
        simp only [absLength, hnil, List.length_nil] at hcommit
        unfold absLength
        omega
      · unfold Raft.logAfterSnapshot at hnil
        rw [if_pos hretains, List.drop_eq_nil_iff] at hnil
        unfold absLength at hpast ⊢
        omega
    · intro hend
      have hnil := hend.logAfterSnapshot
      refine ⟨fun _ ↦ ⟨rfl, rfl⟩, ?_, ?_, fun _ ↦ hnil, ?_, ?_⟩
      · intro hholds q hq
        obtain hle | ⟨hnot, -⟩ := hend
        · rw [entryAt_eq_none (r := r) (hle.trans hq)]
          apply entryAt_eq_none
          simp only [absLength, hnil, List.length_nil]
          omega
        · exact absurd hholds hnot
      · intro hholds disk' r'' hrun hindex
        obtain hle | ⟨hnot, -⟩ := hend
        · have hmoved : r.snapshotter.lastIndex < r''.snapshotter.lastIndex := by omega
          obtain ⟨hlog, e, he, hsnap⟩ := compacted_at_end hrun hmoved (by rw [hindex]; exact hle)
          obtain ⟨e', he', hsame⟩ := hholds
          have heq : e = e' := Option.some.inj (he.symm.trans he')
          refine ⟨hnil.trans hlog.symm, ?_⟩
          rw [hsnap, heq, hsame]
        · exact absurd hholds hnot
      · simp only
        omega
      · intro hbound
        simp only [absLength, hnil, List.length_nil]
        obtain hle | ⟨-, hcommit, -⟩ := hend
        all_goals omega

theorem installSnapshot_answers {P : Raft n σ → Prop}
    (hsome : (r.installSnapshot app disk req).2.isSome = true)
    (hP : P (r.installSnapshot app disk req).1) :
    ∃ r' resp, r.installSnapshot app disk req = (r', some resp) ∧ P r' := by
  obtain ⟨resp, hresp⟩ := Option.isSome_iff_exists.mp hsome
  exact ⟨_, resp, Prod.ext rfl hresp, hP⟩

/-- Three entries of term 1, of which none is committed. -/
def sampleLong : Raft 3 Unit :=
  { newRaft 3 1000 () with
    currentTerm := 1
    log := [⟨1, samplePut 1⟩, ⟨1, samplePut 2⟩, ⟨1, samplePut 3⟩] }

theorem installSnapshot_keeps_suffix_whole :
    ∃ r' resp, sampleLong.installSnapshot keepsNothing .healthy ⟨1, 0, 3, 1, 0, [7], true⟩ =
        (r', some resp) ∧
      KeepsSuffix keepsNothing sampleLong ⟨1, 0, 3, 1, 0, [7], true⟩ r' := by
  obtain ⟨r', resp, hinst, -⟩ : ∃ r' resp, sampleLong.installSnapshot keepsNothing .healthy
      ⟨1, 0, 3, 1, 0, [7], true⟩ = (r', some resp) ∧ True :=
    installSnapshot_answers (P := fun _ ↦ True) (by decide +kernel) trivial
  exact ⟨r', resp, hinst, (installSnapshot_keeps_suffix_iff keepsNothing rfl (by decide +kernel)
    hinst (by decide +kernel)).mpr (by decide +kernel)⟩

/-- A snapshot of the first entry.  The second one, which is at position 1, is dropped as well, and
the third one takes its place. -/
theorem installSnapshot_shifts_suffix :
    sampleLong.holdsLastIncluded ⟨1, 0, 1, 1, 0, [7], true⟩ ∧
      ∃ r' resp, sampleLong.installSnapshot keepsNothing .healthy ⟨1, 0, 1, 1, 0, [7], true⟩ =
          (r', some resp) ∧
        r'.snapshotter.lastIndex = 1 ∧ sampleLong.entryAt 1 = some ⟨1, samplePut 2⟩ ∧
        r'.entryAt 1 = some ⟨1, samplePut 3⟩ ∧ r'.entryAt 2 = none :=
  ⟨by decide +kernel, installSnapshot_answers (by decide +kernel) (by decide +kernel)⟩

end Raft

end DistributedCache
