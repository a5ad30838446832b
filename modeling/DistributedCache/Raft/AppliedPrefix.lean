import DistributedCache.Raft.Follower
import DistributedCache.Raft.Recovery

/-!
# The application of a follower

A follower's application should be what the first `commitedLength` messages make of it.  Entries are
applied from the commit length on, so that a repeated request applies nothing twice; but a snapshot
replaces the application whatever its index is, and the commit length never goes back.
-/

namespace DistributedCache

open Transition Window

variable {n : Nat} {σ : Type}

namespace Raft

variable {app : Application σ} {r r' : Raft n σ} {p : Int}

/-- Consecutive messages of a log that agrees with `l` there are a slice of `l`. -/
theorem messagesFrom_eq {l : List LogEntry} {k : Nat} {ds : List Delivery}
    (h : r.messagesFrom k p = some ds) (h0 : 0 ≤ p)
    (hagree : ∀ q e, p ≤ q → q < p + k → r.entryAt q = some e → l[q.toNat]? = some e) :
    ds.map Prod.snd = ((l.drop p.toNat).take k).map LogEntry.message := by
  induction k generalizing p ds with
  | zero =>
    obtain rfl : [] = ds := by simpa [messagesFrom] using h
    simp
  | succ k ih =>
    obtain ⟨e, he, hrest⟩ := Option.bind_eq_some_iff.mp h
    obtain ⟨ds', hds', rfl⟩ := Option.map_eq_some_iff.mp hrest
    obtain ⟨hlt, hget⟩ := List.getElem?_eq_some_iff.mp (hagree p e le_rfl (by omega) he)
    have hih := ih hds' (by omega) fun q x hq hq' hx ↦ hagree q x (by omega) (by omega) hx
    rw [show (p + 1).toNat = p.toNat + 1 by omega] at hih
    rw [List.drop_eq_getElem_cons hlt, hget, List.take_succ_cons, List.map_cons, List.map_cons,
      hih]

end Raft

/-! ## The snapshot file -/

/-- The request carries the bytes of a snapshot from its offset on, all of them if it is the last
one. -/
structure IsChunk (bytes : List UInt8) (req : InstallSnapshotRequest n) : Prop where
  nonneg : 0 ≤ req.offset
  carries : bytes.take req.offset.toNat ++ req.data <+: bytes
  last : req.done = true → req.offset + req.data.length = bytes.length

theorem writeAt_last {bytes : List UInt8} {req : InstallSnapshotRequest n}
    (h : IsChunk bytes req) (hdone : req.done = true) :
    writeAt (bytes.take req.offset.toNat) req.data req.offset.toNat = bytes := by
  have hlen := h.last hdone
  have hnonneg := h.nonneg
  have htake : (bytes.take req.offset.toNat).length = req.offset.toNat := by
    rw [List.length_take]
    omega
  unfold writeAt
  split
  · rename_i hnil
    rw [hnil, List.length_nil] at hlen
    exact List.take_of_length_le (by omega)
  · have hwhole : bytes.take req.offset.toNat ++ req.data = bytes :=
      h.carries.eq_of_length (by rw [List.length_append, htake]; omega)
    rw [htake, Nat.sub_self, List.replicate_zero, List.append_nil, List.take_take, Nat.min_self,
      List.drop_eq_nil_of_le (by omega), List.append_nil, hwhole]

/-- A last chunk that is written completes the file, if all before it is there. -/
theorem writeSnapshotData_last {file : Option (List UInt8)} {bytes : List UInt8}
    {req : InstallSnapshotRequest n} {write : WriteOutcome} (h : IsChunk bytes req)
    (hdone : req.done = true)
    (hfile : openForWriting file req.offset = some (bytes.take req.offset.toNat)) :
    (writeSnapshotData file req.data req.offset write).2 = false ∨
      writeSnapshotData file req.data req.offset write = (some bytes, true) := by
  have hnonneg := h.nonneg
  cases write with
  | openFails => exact Or.inl rfl
  | failsAfter k =>
    left
    simp only [writeSnapshotData, hfile]
    split <;> rfl
  | succeeds =>
    right
    simp only [writeSnapshotData, hfile]
    rw [if_neg (by omega), writeAt_last h hdone]

namespace Raft

variable {app : Application σ} {r : Raft n σ} {req : InstallSnapshotRequest n} {disk : Disk}

/-- The finished file is read and restored. -/
theorem installSnapshot_restored {bytes : List UInt8} {application : σ} {key : Int}
    (hterm : r.currentTerm ≤ req.leaderTerm) (hdone : req.done = true)
    (hwritten : writeSnapshotData r.snapshotFile req.data req.offset disk.write =
      (some bytes, true)) (hread : disk.readSucceeds = true)
    (hrestore : app.restoreFromSnapshot r.application bytes = (application, some key)) :
    (r.installSnapshot app disk req).1 = { r.followSnapshot req with
      snapshotFile := some bytes
      log := r.logAfterSnapshot req
      application := application
      snapshotter :=
        { r.snapshotter with
          lastIndex := req.lastIncludedIndex
          lastTerm := req.lastIncludedTerm }
      commitedLength := max r.commitedLength req.lastIncludedIndex } := by
  have hold : ¬ req.leaderTerm < r.currentTerm := by omega
  simp only [installSnapshot, if_neg hold, followSnapshot_snapshotFile, hwritten, hdone, if_true,
    restoreSnapshot, hread, followSnapshot_application, hrestore, Option.isSome_some,
    followSnapshot_snapshotter, followSnapshot_commitedLength]
  rw [logAfterSnapshot_congr (r := r) req (by simp) (by simp)]

/-- A request of an old term, a chunk that is not the last one and a write that fails leave all but
the file and the leader as they are. -/
theorem installSnapshot_stored (app : Application σ)
    (h : req.leaderTerm < r.currentTerm ∨ req.done = false ∨
      (writeSnapshotData r.snapshotFile req.data req.offset disk.write).2 = false) :
    r.SameLog (r.installSnapshot app disk req).1 ∧
      (r.installSnapshot app disk req).1.application = r.application := by
  unfold installSnapshot
  simp only
  split
  · exact ⟨.refl r, rfl⟩
  rename_i hterm
  rw [followSnapshot_snapshotFile]
  cases hwritten : writeSnapshotData r.snapshotFile req.data req.offset disk.write with
  | mk file ok =>
  rw [hwritten] at h
  obtain h | hmore | hfails := h
  · exact absurd h hterm
  · simp only [hmore, Bool.false_eq_true, if_false]
    split
    all_goals exact ⟨⟨by simp, by simp, by simp⟩, by simp⟩
  · change ok = false at hfails
    simp only [hfails, Bool.false_eq_true, if_false]
    exact ⟨⟨by simp, by simp, by simp⟩, by simp⟩

end Raft

/-! ## Requests from leaders that agree -/

/-- Entries of one term at one position are the same in any two of the logs, and so is all before
them. -/
def LogsMatch (logs : List (List LogEntry)) : Prop :=
  ∀ l ∈ logs, ∀ l' ∈ logs, ∀ (k : Nat) e e', l[k]? = some e → l'[k]? = some e' →
    e.term = e'.term → l.take (k + 1) = l'.take (k + 1)

/-- Restoring the bytes gives what the first `length` committed messages give. -/
structure Genuine (app : Application σ) (application : σ) (committed : List LogEntry)
    (length : Int) (bytes : List UInt8) : Prop where
  nonneg : 0 ≤ length
  bound : length ≤ committed.length
  restores : ∀ s, ∃ key, app.restoreFromSnapshot s bytes =
    (app.applied application ((committed.take length.toNat).map LogEntry.message), some key)

inductive FollowerRequest (n : Nat) where
  | log (args : LogRequestArgs n) (disk : Disk)
  | snapshot (req : InstallSnapshotRequest n) (disk : Disk)
  deriving DecidableEq

/-- The request is a leader's: it carries a part of the leader's log and announces no more than that
part as committed, in agreement with all others; or it is a chunk of a genuine snapshot. -/
def FollowerRequest.FromLeader (app : Application σ) (application : σ)
    (logs : List (List LogEntry)) (committed : List LogEntry) : FollowerRequest n → Prop
  | .log args _ => ∃ l ∈ logs, CarriesLog l args ∧
      args.commitLength ≤ args.prefixLen + args.suffix.length ∧
      l.take args.commitLength.toNat <+: committed
  | .snapshot req _ => ∃ bytes, Genuine app application committed req.lastIncludedIndex bytes ∧
      IsChunk bytes req

namespace Raft

/-- A follower handles one request. -/
def handle (app : Application σ) (id : Fin n) (r : Raft n σ) :
    FollowerRequest n → Option (Raft n σ)
  | .log args disk => (r.logRequest app disk id args).map Prod.fst
  | .snapshot req disk => some (r.installSnapshot app disk req).1

/-- Nothing in the log contradicts the suffix; and a snapshot is restored only if it is complete in
the file, can be read, covers all that is committed and ends where the log has no entry of its
term. -/
def keepsApplied (app : Application σ) (application : σ) (committed : List LogEntry)
    (r : Raft n σ) : FollowerRequest n → Prop
  | .log args _ => r.agreesWith args.prefixLen args.suffix
  | .snapshot req disk => req.done = true → r.currentTerm ≤ req.leaderTerm →
      (∃ bytes, Genuine app application committed req.lastIncludedIndex bytes ∧
        IsChunk bytes req ∧
        openForWriting r.snapshotFile req.offset = some (bytes.take req.offset.toNat)) ∧
      disk.readSucceeds = true ∧ r.commitedLength ≤ req.lastIncludedIndex ∧ ¬ r.retainsSuffix req

/-- The log in memory is a part of one leader's log, and the application is what the committed
messages give. -/
structure AppliesPrefix (app : Application σ) (application : σ) (logs : List (List LogEntry))
    (committed : List LogEntry) (r : Raft n σ) : Prop where
  bounded : r.Bounded
  window : r.log = [] ∨ ∃ l ∈ logs, ∀ q e, r.entryAt q = some e → l[q.toNat]? = some e
  length : r.commitedLength ≤ committed.length
  application : r.application =
    app.applied application ((committed.take r.commitedLength.toNat).map LogEntry.message)

section

variable {app : Application σ} {application : σ} {logs : List (List LogEntry)}
  {committed : List LogEntry} {id : Fin n} {r r' : Raft n σ} {args : LogRequestArgs n} {disk : Disk}

theorem appliesPrefix_start (snapshotThreshold : Int) :
    AppliesPrefix app application logs committed (newRaft n snapshotThreshold application) where
  bounded := ⟨le_rfl, le_rfl, le_rfl⟩
  window := Or.inl rfl
  length := by simp [newRaft]
  application := rfl

theorem AppliesPrefix.sameLog (h : AppliesPrefix app application logs committed r)
    (hsame : r.SameLog r') (happ : r'.application = r.application) :
    AppliesPrefix app application logs committed r' where
  bounded := hsame.bounded h.bounded
  window := by
    rw [hsame.log]
    refine h.window.imp_right fun ⟨l, hl, hentries⟩ ↦ ⟨l, hl, fun q e he ↦ hentries q e ?_⟩
    rwa [hsame.entryAt] at he
  length := hsame.commitedLength ▸ h.length
  application := by
    rw [happ, hsame.commitedLength]
    exact h.application

/-- The prefix check finds the entry before the suffix, unless the snapshot ends there. -/
theorem logOk_entry {p t : Int} (h : r.logOk p t = true) (h0 : 0 < p)
    (hbase : p ≠ r.snapshotter.lastIndex) : ∃ e, r.entryAt (p - 1) = some e ∧ e.term = t := by
  unfold logOk at h
  rw [if_neg (by omega)] at h
  split at h
  · cases h
  obtain ⟨e, he, hterm⟩ := (Option.any_eq_true _ _).mp h
  refine ⟨e, ?_, of_decide_eq_true hterm⟩
  rw [← he, entryAt, at?]
  congr 1
  omega

/-- What the log has up to the end of an accepted suffix, the leader's log has there. -/
theorem held_matches (hmatch : LogsMatch logs) {l₀ l : List LogEntry} (hl₀ : l₀ ∈ logs)
    (hl : l ∈ logs) (hentries : ∀ q e, r.entryAt q = some e → l₀[q.toNat]? = some e)
    (hbound : r.Bounded) (hcarry : CarriesLog l args)
    (hok : r.logOk args.prefixLen args.prefixTerm = true)
    (hagrees : r.agreesWith args.prefixLen args.suffix) {q : Int} {e : LogEntry}
    (he : r.entryAt q = some e) (hq : q < args.prefixLen + args.suffix.length) :
    l[q.toNat]? = some e := by
  have hbase := (entryAt_bounds he).1
  have h0 := hbound.nonneg
  -- an entry of `l₀` and one of `l` with equal terms at or after `q`
  have hfinish : ∀ {k : Nat} {x y : LogEntry}, l₀[k]? = some x → l[k]? = some y →
      x.term = y.term → q.toNat ≤ k → l[q.toNat]? = some e := by
    intro k x y hx hy hterm hk
    have htake := congrArg (fun w : List LogEntry ↦ w[q.toNat]?)
      (hmatch l₀ hl₀ l hl k x y hx hy hterm)
    rw [List.getElem?_take_of_lt (by omega), List.getElem?_take_of_lt (by omega),
      hentries q e he] at htake
    exact htake.symm
  have hnonneg := hcarry.nonneg
  by_cases hlt : q < args.prefixLen
  · obtain ⟨hzero, -⟩ | ⟨hpos, y, hy, hterm⟩ := hcarry.term
    · omega
    obtain ⟨x, hx, hxterm⟩ := logOk_entry hok hpos (by omega)
    exact hfinish (hentries _ x hx) hy (hxterm.trans hterm.symm) (by omega)
  · have hk : (q - args.prefixLen).toNat < args.suffix.length := by omega
    have hs : args.suffix[(q - args.prefixLen).toNat]? =
        some args.suffix[(q - args.prefixLen).toNat] := List.getElem?_eq_getElem hk
    have hy := hcarry.getElem? hs
    rw [show args.prefixLen.toNat + (q - args.prefixLen).toNat = q.toNat by omega] at hy
    refine hfinish (hentries q e he) hy (hagrees _ hk e ?_ _ hs) le_rfl
    rw [show args.prefixLen + ((q - args.prefixLen).toNat : Int) = q by omega]
    exact he

/-- After `appendEntries` has stored the suffix, the log agrees with the leader's up to its end, and
is still a part of one leader's log. -/
theorem appendSuffix_matches (hmatch : LogsMatch logs)
    (h : AppliesPrefix app application logs committed r) {l : List LogEntry} (hl : l ∈ logs)
    (hcarry : CarriesLog l args) (hok : r.logOk args.prefixLen args.prefixTerm = true)
    (hagrees : r.agreesWith args.prefixLen args.suffix) :
    (∀ q e, (r.appendSuffix args.prefixLen args.suffix).entryAt q = some e →
      q < args.prefixLen + args.suffix.length → l[q.toNat]? = some e) ∧
    ((r.appendSuffix args.prefixLen args.suffix).log = [] ∨ ∃ l' ∈ logs, ∀ q e,
      (r.appendSuffix args.prefixLen args.suffix).entryAt q = some e → l'[q.toNat]? = some e) := by
  have hp := logOk_le hok h.bounded.absLength_nonneg
  have hnonneg := hcarry.nonneg
  have hbase := h.bounded.nonneg
  have hnew : ∀ q e, (r.appendSuffix args.prefixLen args.suffix).entryAt q = some e →
      q < args.prefixLen + args.suffix.length → l[q.toNat]? = some e := by
    intro q e he hq
    have hlow := (entryAt_bounds he).1
    rw [entryAt_appendSuffix hp hagrees.not_conflicts hlow] at he
    split at he
    · obtain hnil | ⟨l₀, hl₀, hentries⟩ := h.window
      · have := index?_lt he
        rw [hnil, List.length_nil] at this
        omega
      · exact held_matches hmatch hl₀ hl hentries h.bounded hcarry hok hagrees he hq
    · rename_i hge
      have := hcarry.getElem? he
      rwa [show args.prefixLen.toNat + (q - args.prefixLen).toNat = q.toNat by omega] at this
  refine ⟨hnew, ?_⟩
  by_cases hlong : r.absLength < args.prefixLen + args.suffix.length
  · refine Or.inr ⟨l, hl, fun q e he ↦ hnew q e he ?_⟩
    have := (entryAt_bounds he).2
    rw [absLength_appendSuffix hp hagrees] at this
    omega
  · -- nothing is added
    have hlog : (r.appendSuffix args.prefixLen args.suffix).log = r.log := by
      simp only [appendSuffix, truncatedLog, if_neg hagrees.not_conflicts, missingEntries,
        if_neg hlong, List.append_nil]
    rw [hlog]
    obtain hnil | ⟨l₀, hl₀, hentries⟩ := h.window
    · exact Or.inl hnil
    · refine Or.inr ⟨l₀, hl₀, fun q e he ↦ hentries q e ?_⟩
      unfold Raft.entryAt at he
      rwa [hlog] at he

/-- The commit loop applies the committed messages from the commit length on. -/
theorem AppliesPrefix.commitTo (h : AppliesPrefix app application logs committed r)
    {leaderCommit : Int} {ds : List Delivery}
    (hcommit : r.commitTo app leaderCommit = some (r', ds))
    (hlength : leaderCommit ≤ committed.length)
    (hagree : ∀ q e, r.entryAt q = some e → q < leaderCommit → committed[q.toNat]? = some e) :
    AppliesPrefix app application logs committed r' := by
  have h0 := h.bounded.nonneg
  have hlow := h.bounded.low
  obtain ⟨r₁, ds₁, hcommit₁, hbounded, -, -⟩ := h.bounded.commitTo app leaderCommit
  obtain ⟨rfl, rfl⟩ := Prod.mk.inj (Option.some.inj (hcommit.symm.trans hcommit₁))
  have happ := commitTo_application hcommit
  unfold Raft.commitTo at hcommit
  split at hcommit
  · rename_i hlt
    obtain ⟨ds', hds, heq⟩ := Option.map_eq_some_iff.mp hcommit
    obtain ⟨rfl, rfl⟩ := Prod.mk.inj heq
    have hhigh := h.bounded.high
    have hslice := messagesFrom_eq (l := committed) hds (by omega)
      fun q e _ hq he ↦ hagree q e he (by omega)
    rw [deliverAll_eq] at happ hbounded ⊢
    refine ⟨hbounded, h.window, ?_, ?_⟩
    · simp only
      omega
    · rw [happ, h.application, hslice, ← Application.applied_append, ← List.map_append,
        ← List.take_add]
      congr 3
      simp only
      omega
  · obtain ⟨rfl, -⟩ := Prod.mk.inj (Option.some.inj hcommit)
    exact h

theorem AppliesPrefix.decideRunSnapshot (h : AppliesPrefix app application logs committed r)
    (hrun : r.decideRunSnapshot app disk = some r') :
    AppliesPrefix app application logs committed r' := by
  obtain ⟨r₁, hrun₁, hbounded, -⟩ := h.bounded.decideRunSnapshot app disk
  obtain rfl := Option.some.inj (hrun.symm.trans hrun₁)
  have hwindow : r'.log = [] ∨ ∃ l ∈ logs, ∀ q e, r'.entryAt q = some e →
      l[q.toNat]? = some e := by
    obtain hnil | ⟨l, hl, hentries⟩ := h.window
    · left
      obtain ⟨file, rfl⟩ | ⟨file, e, -, -, -, -, rfl⟩ := decideRunSnapshot_cases hrun
      · exact hnil
      · change r.log.drop _ = []
        rw [hnil, List.drop_nil]
    · refine Or.inr ⟨l, hl, fun q e he ↦ hentries q e ?_⟩
      rwa [entryAt_decideRunSnapshot hrun (entryAt_bounds he).1] at he
  obtain ⟨file, rfl⟩ | ⟨file, e, -, -, -, -, rfl⟩ := decideRunSnapshot_cases hrun
  · exact ⟨hbounded, hwindow, h.length, h.application⟩
  · exact ⟨hbounded, hwindow, h.length, h.application⟩

theorem AppliesPrefix.logRequest (hmatch : LogsMatch logs)
    (h : AppliesPrefix app application logs committed r)
    (hfrom : (FollowerRequest.log args disk).FromLeader app application logs committed)
    (hagrees : r.agreesWith args.prefixLen args.suffix) {resp : LogResponse n}
    (hreq : r.logRequest app disk id args = some (r', resp)) :
    AppliesPrefix app application logs committed r' := by
  have hfollow : r.SameLog (r.followLeader id args) := followLeader_sameLog
  have hfollowed : AppliesPrefix app application logs committed (r.followLeader id args) := by
    refine h.sameLog hfollow ?_
    obtain ⟨-, heq⟩ | ⟨-, heq⟩ | ⟨-, heq⟩ := r.followLeader_cases id args
    all_goals rw [heq]
  by_cases haccepts : r.acceptsLogRequest id args
  · rw [logRequest_of_accepts haccepts] at hreq
    obtain ⟨⟨r₂, ds⟩, happ, heq⟩ := Option.map_eq_some_iff.mp hreq
    obtain ⟨rfl, -⟩ := Prod.mk.inj heq
    obtain ⟨r₁, hcommit, hrun⟩ := appendEntries_cases happ
    obtain ⟨l, hl, hcarry, hwithin, hpre⟩ := hfrom
    have hok : (r.followLeader id args).logOk args.prefixLen args.prefixTerm = true := by
      have := haccepts.2
      unfold logOk Raft.absLength at this ⊢
      rwa [hfollow.log, hfollow.snapshotter]
    have hagrees' := hfollow.agreesWith hagrees
    obtain ⟨hheld, hwindow⟩ := appendSuffix_matches hmatch hfollowed hl hcarry hok hagrees'
    have hp := logOk_le hok hfollowed.bounded.absLength_nonneg
    have hstored : AppliesPrefix app application logs committed
        ((r.followLeader id args).appendSuffix args.prefixLen args.suffix) :=
      ⟨hfollowed.bounded.appendSuffix fun hconf ↦ absurd hconf hagrees'.not_conflicts, hwindow,
        hfollowed.length, hfollowed.application⟩
    have hlen := hcarry.length_le
    refine (hstored.commitTo hcommit ?_ ?_).decideRunSnapshot hrun
    · have := hpre.length_le
      rw [List.length_take] at this
      omega
    · intro q e he hq
      refine prefix_getElem? hpre ?_
      have := (entryAt_bounds he).1
      have := hstored.bounded.nonneg
      rw [List.getElem?_take_of_lt (by omega)]
      exact hheld q e he (by omega)
  · rw [logRequest_of_rejects haccepts] at hreq
    obtain ⟨rfl, -⟩ := Prod.mk.inj (Option.some.inj hreq)
    exact hfollowed

theorem AppliesPrefix.installSnapshot (h : AppliesPrefix app application logs committed r)
    {req : InstallSnapshotRequest n}
    (hkeeps : r.keepsApplied app application committed (.snapshot req disk)) :
    AppliesPrefix app application logs committed (r.installSnapshot app disk req).1 := by
  by_cases hplain : req.leaderTerm < r.currentTerm ∨ req.done = false ∨
      (writeSnapshotData r.snapshotFile req.data req.offset disk.write).2 = false
  · obtain ⟨hsame, happ⟩ := installSnapshot_stored app hplain
    exact h.sameLog hsame happ
  rw [not_or, not_or] at hplain
  obtain ⟨hold, hmore, hwritten⟩ := hplain
  have hterm : r.currentTerm ≤ req.leaderTerm := by omega
  have hdone : req.done = true := by simpa using hmore
  obtain ⟨⟨bytes, hgenuine, hchunk, hfile⟩, hread, hcovers, hretains⟩ := hkeeps hdone hterm
  have hfull := (writeSnapshotData_last hchunk hdone hfile).resolve_left hwritten
  obtain ⟨key, hrestore⟩ := hgenuine.restores r.application
  rw [installSnapshot_restored hterm hdone hfull hread hrestore]
  have hnil : r.logAfterSnapshot req = [] := if_neg hretains
  have hlast : max r.commitedLength req.lastIncludedIndex = req.lastIncludedIndex := by omega
  refine ⟨⟨hgenuine.nonneg, ?_, ?_⟩, Or.inl hnil, ?_, ?_⟩
  · simp only
    omega
  · simp only [Raft.absLength, hnil, List.length_nil]
    omega
  · simp only [hlast]
    exact hgenuine.bound
  · simp only [hlast]

theorem AppliesPrefix.handle (hmatch : LogsMatch logs)
    (h : AppliesPrefix app application logs committed r) {x : FollowerRequest n}
    (hfrom : x.FromLeader app application logs committed)
    (hkeeps : r.keepsApplied app application committed x) (hstep : r.handle app id x = some r') :
    AppliesPrefix app application logs committed r' := by
  cases x with
  | log args disk =>
    obtain ⟨⟨r₁, resp⟩, hreq, rfl⟩ := Option.map_eq_some_iff.mp hstep
    exact h.logRequest hmatch hfrom hkeeps hreq
  | snapshot req disk =>
    obtain rfl := Option.some.inj hstep
    exact h.installSnapshot hkeeps

end

/-- In every history of requests from leaders whose logs match and that agree on what is committed,
in which no suffix contradicts the follower's log and every snapshot that is restored covers what is
committed, the application is what the first `commitedLength` messages make of it. -/
theorem follower_applies_committed (app : Application σ) (application : σ) (id : Fin n)
    {logs : List (List LogEntry)} {committed : List LogEntry} (snapshotThreshold : Int)
    (hmatch : LogsMatch logs) {r : Raft n σ}
    (hrun : Reaches (Raft.handle app id)
      (fun r x ↦ x.FromLeader app application logs committed ∧
        r.keepsApplied app application committed x)
      (newRaft n snapshotThreshold application) r) :
    0 ≤ r.commitedLength ∧ r.commitedLength ≤ committed.length ∧ r.application =
      app.applied application ((committed.take r.commitedLength.toNat).map LogEntry.message) := by
  have h := hrun.invariant (AppliesPrefix app application logs committed)
    (appliesPrefix_start snapshotThreshold)
    fun r x r' _ h ⟨hfrom, hkeeps⟩ hstep ↦ h.handle hmatch hfrom hkeeps hstep
  exact ⟨h.bounded.nonneg.trans h.bounded.low, h.length, h.application⟩

/-! ## Two histories -/

/-- The log of the only leader, all of which is committed. -/
def sampleCommitted : List LogEntry := [⟨1, samplePut 1⟩, ⟨1, samplePut 2⟩]

theorem sampleCommitted_match : LogsMatch [sampleCommitted] := by
  intro l hl l' hl' k e e' _ _ _
  rw [List.mem_singleton.mp hl, List.mem_singleton.mp hl']

/-- The first `k` entries, committed. -/
def sampleEntries (k : Nat) : FollowerRequest 3 :=
  .log ⟨0, 1, 0, 0, k, sampleCommitted.take k⟩ .healthy

/-- The snapshot of the first `k` entries. -/
def sampleSnapshot (k : Nat) : FollowerRequest 3 :=
  .snapshot ⟨1, 0, k, 1, 0, ([1, 2] : List UInt8).take k, true⟩ .healthy

theorem sampleEntries_fromLeader {k : Nat} (hk : k ≤ 2) :
    (sampleEntries k).FromLeader keepsKeys [] [sampleCommitted] sampleCommitted := by
  have hlen : (sampleCommitted.take k).length = k := by
    rw [List.length_take]
    exact Nat.min_eq_left hk
  refine ⟨sampleCommitted, List.mem_singleton.mpr rfl,
    ⟨le_rfl, Int.natCast_nonneg _, List.take_prefix _ _, Or.inl ⟨rfl, rfl⟩⟩, ?_,
    List.take_prefix _ _⟩
  change (k : Int) ≤ 0 + ((sampleCommitted.take k).length : Int)
  omega

theorem sampleSnapshot_genuine {k : Nat} (hk : k ≤ 2) :
    Genuine keepsKeys [] sampleCommitted k (([1, 2] : List UInt8).take k) ∧
      IsChunk (([1, 2] : List UInt8).take k)
        (⟨1, 0, k, 1, 0, ([1, 2] : List UInt8).take k, true⟩ : InstallSnapshotRequest 3) := by
  refine ⟨⟨Int.natCast_nonneg k, by exact_mod_cast hk, fun s ↦ ⟨0, ?_⟩⟩,
    ⟨le_rfl, List.prefix_refl _, fun _ ↦ Int.zero_add _⟩⟩
  obtain rfl | rfl | rfl : k = 0 ∨ k = 1 ∨ k = 2 := by omega
  all_goals rfl

/-- The follower takes the first entry and then a snapshot of both. -/
theorem follower_applies_committed_snapshot : ∃ r : Raft 3 (List UInt8),
    Reaches (Raft.handle keepsKeys 1)
      (fun r x ↦ x.FromLeader keepsKeys [] [sampleCommitted] sampleCommitted ∧
        r.keepsApplied keepsKeys [] sampleCommitted x) (newRaft 3 1000 []) r ∧
      r.commitedLength = 2 ∧ r.application =
        keepsKeys.applied [] ((sampleCommitted.take r.commitedLength.toNat).map
          LogEntry.message) := by
  obtain ⟨r, hrun, hcommit⟩ : ∃ r : Raft 3 (List UInt8),
      Reaches (Raft.handle keepsKeys 1) (fun r x ↦ x = sampleEntries 1 ∧ r.log = [] ∨
        x = sampleSnapshot 2 ∧ r.commitedLength = 1 ∧ r.absLength = 1)
        (newRaft 3 1000 []) r ∧ r.commitedLength = 2 :=
    exists_reaches_of_exec [sampleEntries 1, sampleSnapshot 2] (by decide +kernel)
  suffices hrun' : Reaches (Raft.handle keepsKeys 1)
      (fun r x ↦ x.FromLeader keepsKeys [] [sampleCommitted] sampleCommitted ∧
        r.keepsApplied keepsKeys [] sampleCommitted x) (newRaft 3 1000 []) r from
    ⟨r, hrun', hcommit, (follower_applies_committed keepsKeys [] 1 1000
      sampleCommitted_match hrun').2.2⟩
  apply hrun.mono
  rintro r x (⟨rfl, hnil⟩ | ⟨rfl, hone, habs⟩)
  · refine ⟨sampleEntries_fromLeader (by decide), fun k hk e he ↦ ?_⟩
    have := index?_lt he
    rw [hnil, List.length_nil] at this
    omega
  · obtain ⟨hgenuine, hchunk⟩ := sampleSnapshot_genuine (k := 2) le_rfl
    refine ⟨⟨_, hgenuine, hchunk⟩, fun _ _ ↦ ⟨⟨_, hgenuine, hchunk, rfl⟩, rfl, ?_, ?_⟩⟩
    · rw [hone]
      decide
    · intro hretains
      have := hretains.1
      rw [habs] at this
      exact absurd this (by decide)

/-- The follower has applied both messages when the snapshot of the first one arrives. -/
theorem snapshot_rewinds_application : ∃ r : Raft 3 (List UInt8),
    LogsMatch [sampleCommitted] ∧
      Reaches (Raft.handle keepsKeys 1)
        (fun _ x ↦ x.FromLeader keepsKeys [] [sampleCommitted] sampleCommitted)
        (newRaft 3 1000 []) r ∧
      r.commitedLength = 2 ∧ r.application = [1] ∧
      keepsKeys.applied [] ((sampleCommitted.take 2).map LogEntry.message) = [1, 2] := by
  obtain ⟨r, hrun, hr⟩ : ∃ r : Raft 3 (List UInt8),
      Reaches (Raft.handle keepsKeys 1) (fun _ x ↦ x = sampleEntries 2 ∨ x = sampleSnapshot 1)
        (newRaft 3 1000 []) r ∧ r.commitedLength = 2 ∧ r.application = [1] ∧
      keepsKeys.applied [] ((sampleCommitted.take 2).map LogEntry.message) = [1, 2] :=
    exists_reaches_of_exec [sampleEntries 2, sampleSnapshot 1] (by decide +kernel)
  refine ⟨r, sampleCommitted_match, hrun.mono ?_, hr⟩
  rintro r x (rfl | rfl)
  · exact sampleEntries_fromLeader le_rfl
  · exact ⟨_, sampleSnapshot_genuine (k := 1) (by decide)⟩

end Raft

end DistributedCache
