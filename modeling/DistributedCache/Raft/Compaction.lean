import DistributedCache.Raft.Delivery
import DistributedCache.Raft.Follower

/-!
# Compaction is invisible

Two nodes that differ only in how much of one log they have compacted are windows onto the same
whole log.  Whatever `VoteRequest`, `LogRequest` and `prepareLogRequestArgs` compute at and after
the commit length they compute from the whole log, so the two nodes give the same answers and stay
alike, each compacting further or not.
-/

namespace DistributedCache

open Window

variable {n : Nat} {σ : Type} {app : Application σ} {id : Fin n} {r r' : Raft n σ}
  {full : List LogEntry} {p t : Int} {suffix : List LogEntry}

/-! ## Answers read off the whole log -/

theorem PrefixTerm.unique {t' : Int} (h : PrefixTerm full p t) (h' : PrefixTerm full p t') :
    t = t' := by
  obtain ⟨rfl, rfl⟩ | ⟨hpos, e, he, rfl⟩ := h <;>
    obtain ⟨hzero, rfl⟩ | ⟨hpos', e', he', rfl⟩ := h'
  · rfl
  · omega
  · omega
  · rw [Option.some.inj (he.symm.trans he')]

/-- Every node's memory shows some log. -/
theorem Raft.exists_shows (h : 0 ≤ r.snapshotter.lastIndex) : ∃ full, Shows full r := by
  let e : LogEntry := ⟨r.snapshotter.lastTerm, ⟨.get, 0, none, [], "", ""⟩⟩
  have hlen : (List.replicate r.snapshotter.lastIndex.toNat e).length =
      r.snapshotter.lastIndex.toNat := List.length_replicate
  refine ⟨List.replicate r.snapshotter.lastIndex.toNat e ++ r.log, ⟨h, ?_, ?_⟩, fun hpos ↦ ?_⟩
  · rw [List.length_append, hlen]
    omega
  · rw [List.drop_append_of_le_length hlen.ge, List.drop_eq_nil_of_le hlen.le, List.nil_append]
  · refine Or.inr ⟨hpos, e, ?_, rfl⟩
    rw [List.getElem?_append_left (by rw [hlen]; omega), List.getElem?_replicate,
      if_pos (by omega)]

theorem Shows.getLastLogTerm (h : Shows full r) :
    r.getLastLogTerm = (full.getLast?.map LogEntry.term).getD 0 := by
  have hlen := h.window.length
  obtain ⟨h0, -, hlog⟩ := id h.window
  unfold Raft.getLastLogTerm
  rw [hlog, List.getLast?_drop]
  split
  · -- some entry is in memory
    rename_i e he
    split at he
    · cases he
    · rw [he]
      rfl
  · rename_i hnone
    have hall : full.length ≤ r.snapshotter.lastIndex.toNat := by
      by_contra hlt
      rw [if_neg hlt, List.getLast?_eq_none_iff] at hnone
      rw [hnone, List.length_nil] at hlt
      omega
    split
    · -- the snapshot ends with the last entry
      rename_i hpos
      obtain ⟨hzero, -⟩ | ⟨-, e, he, hterm⟩ := h.snapshot hpos
      · omega
      · rw [List.getLast?_eq_getElem?,
          show full.length - 1 = (r.snapshotter.lastIndex - 1).toNat by omega, he]
        exact hterm.symm
    · rw [List.eq_nil_of_length_eq_zero (by omega : full.length = 0)]
      rfl

theorem Shows.index_before (h : Shows full r) (hp : r.snapshotter.lastIndex < p) :
    index? r.log (p - r.snapshotter.lastIndex - 1) = full[(p - 1).toNat]? := by
  rw [← h.window.at?_eq (by omega), at?]
  congr 1
  omega

/-- The check of the prefix asks for a term of the whole log. -/
theorem Shows.logOk_iff (h : Shows full r) (hp : r.snapshotter.lastIndex ≤ p) :
    r.logOk p t = true ↔ p ≤ full.length ∧ PrefixTerm full p t := by
  have h0 := h.window.1
  have hlen := h.absLength
  refine ⟨fun hok ↦ logOk_spec h (h0.trans hp) hok, fun ⟨hle, hterm⟩ ↦ ?_⟩
  unfold Raft.logOk
  split
  · rename_i hzero
    obtain ⟨-, rfl⟩ | ⟨hpos, -⟩ := hterm
    · rfl
    · omega
  rw [if_neg (by omega)]
  split
  · rename_i hbase
    subst hbase
    exact decide_eq_true ((h.snapshot (by omega)).unique hterm)
  · rw [h.index_before (by omega)]
    obtain ⟨hzero, -⟩ | ⟨-, e, he, rfl⟩ := hterm
    · omega
    · rw [he, Option.any_some]
      exact decide_eq_true rfl

theorem Shows.prevTerm_iff (h : Shows full r) (hp : r.snapshotter.lastIndex ≤ p) :
    r.prevTerm p = some t ↔ p ≤ full.length ∧ PrefixTerm full p t := by
  have h0 := h.window.1
  refine ⟨prevTerm_spec h hp, fun ⟨hle, hterm⟩ ↦ ?_⟩
  unfold Raft.prevTerm
  split
  · obtain ⟨-, rfl⟩ | ⟨hpos, -⟩ := hterm
    · rfl
    · omega
  split
  · rename_i hbase
    subst hbase
    rw [(h.snapshot (by omega)).unique hterm]
  · rw [h.index_before (by omega)]
    obtain ⟨hzero, -⟩ | ⟨-, e, he, rfl⟩ := hterm
    · omega
    · rw [he, Option.map_some]

theorem Shows.wireSuffix (h : Shows full r) (hp : r.snapshotter.lastIndex < p) :
    r.wireSuffix p = (full.drop (p - 1).toNat).map LogEntry.wire := by
  obtain ⟨h0, -, hlog⟩ := id h.window
  rw [Raft.wireSuffix, hlog, List.drop_drop]
  congr 2
  omega

/-- What `appendEntries` makes of a whole log. -/
def splicedLog (full : List LogEntry) (p : Int) (suffix : List LogEntry) : List LogEntry :=
  (if ∃ s ∈ suffix.head?, ∃ e ∈ full[p.toNat]?, e.term ≠ s.term then full.take p.toNat else full) ++
    if (full.length : Int) < p + suffix.length then suffix.drop (full.length - p).toNat else []

theorem Shows.conflicts_iff (h : Shows full r) (hp : r.snapshotter.lastIndex ≤ p) :
    r.conflicts p suffix ↔ ∃ s ∈ suffix.head?, ∃ e ∈ full[p.toNat]?, e.term ≠ s.term := by
  have h0 := h.window.1
  unfold Raft.conflicts Raft.entryAt
  rw [h.window.at?_eq hp, h.absLength]
  refine ⟨And.right, fun hconf ↦ ⟨?_, hconf⟩⟩
  obtain ⟨s, -, e, he, -⟩ := hconf
  have := (List.getElem?_eq_some_iff.mp he).1
  omega

theorem le_length_splicedLog (h0 : 0 ≤ p) (hle : p ≤ full.length) :
    p ≤ (splicedLog full p suffix).length := by
  unfold splicedLog
  rw [List.length_append]
  split
  · rw [List.length_take]
    omega
  · omega

theorem Shows.appendSuffix (h : Shows full r) (suffix : List LogEntry)
    (hp : r.snapshotter.lastIndex ≤ p) :
    Shows (splicedLog full p suffix) (r.appendSuffix p suffix) := by
  have h0 := h.window.1
  unfold splicedLog Raft.appendSuffix Raft.truncatedLog Raft.missingEntries
  rw [h.absLength]
  simp only [h.conflicts_iff hp]
  split
  · -- the whole log is cut where the window is
    have hcut : r.snapshotter.lastIndex.toNat + (p - r.snapshotter.lastIndex).toNat = p.toNat := by
      omega
    refine ⟨?_, fun hpos ↦ ((h.snapshot hpos).take (by omega)).mono (List.prefix_append _ _)⟩
    rw [← hcut]
    exact (h.window.take _).append _
  · exact ⟨h.window.append _, fun hpos ↦ (h.snapshot hpos).mono (List.prefix_append _ _)⟩

/-! ## Nodes that differ by compaction -/

/-- The two nodes differ in the part of one log that they have in memory, within what is committed,
and in their snapshot files. -/
structure SameUpToCompaction (r r' : Raft n σ) : Prop where
  rest : r' =
    { r with log := r'.log, snapshotter := r'.snapshotter, snapshotFile := r'.snapshotFile }
  log : ∃ full, Shows full r ∧ Shows full r'
  low : r.snapshotter.lastIndex ≤ r.commitedLength
  low' : r'.snapshotter.lastIndex ≤ r.commitedLength
  high : r.commitedLength ≤ r.absLength

namespace SameUpToCompaction

theorem commitedLength (h : SameUpToCompaction r r') : r'.commitedLength = r.commitedLength := by
  rw [h.rest]

theorem absLength (h : SameUpToCompaction r r') : r'.absLength = r.absLength := by
  obtain ⟨full, hr, hr'⟩ := h.log
  rw [hr.absLength, hr'.absLength]

theorem control (h : SameUpToCompaction r r') : r.SameControl r' := by
  rw [h.rest]
  exact ⟨rfl, rfl, rfl, rfl, rfl, rfl, rfl⟩

/-- The two logs agree at every position that both have in memory. -/
theorem entryAt (h : SameUpToCompaction r r') (hp : r.snapshotter.lastIndex ≤ p)
    (hp' : r'.snapshotter.lastIndex ≤ p) : r'.entryAt p = r.entryAt p := by
  obtain ⟨full, hr, hr'⟩ := h.log
  unfold Raft.entryAt
  rw [hr.window.at?_eq hp, hr'.window.at?_eq hp']

theorem bounded (h : SameUpToCompaction r r') : r.Bounded := by
  obtain ⟨full, hr, -⟩ := h.log
  exact ⟨hr.window.1, h.low, h.high⟩

theorem bounded' (h : SameUpToCompaction r r') : r'.Bounded := by
  obtain ⟨full, -, hr'⟩ := h.log
  refine ⟨hr'.window.1, ?_, ?_⟩
  · rw [h.commitedLength]
    exact h.low'
  · rw [h.commitedLength, h.absLength]
    exact h.high

/-- Fields other than the log, the commit length and the application are of no account. -/
theorem congr {s s' : Raft n σ} (h : SameUpToCompaction r r') (hr : r.SameLog s)
    (hr' : r'.SameLog s') (hrest : s' =
      { s with log := s'.log, snapshotter := s'.snapshotter, snapshotFile := s'.snapshotFile }) :
    SameUpToCompaction s s' := by
  obtain ⟨full, hfull, hfull'⟩ := h.log
  refine ⟨hrest, ⟨full, hfull.sameLog hr, hfull'.sameLog hr'⟩, ?_, ?_, ?_⟩
  · rw [hr.snapshotter, hr.commitedLength]
    exact h.low
  · rw [hr'.snapshotter, hr.commitedLength]
    exact h.low'
  · rw [hr.absLength, hr.commitedLength]
    exact h.high

end SameUpToCompaction

/-- Compaction replaces only what is in memory of the log. -/
theorem Raft.decideRunSnapshot_rest {disk : Disk} (h : r.decideRunSnapshot app disk = some r') :
    r' = { r with
      log := r'.log, snapshotter := r'.snapshotter, snapshotFile := r'.snapshotFile } := by
  obtain ⟨file, rfl⟩ | ⟨file, e, -, -, -, -, rfl⟩ := decideRunSnapshot_cases h
  · rfl
  · rfl

/-- Further compaction of either node. -/
theorem SameUpToCompaction.decideRunSnapshot {s s' : Raft n σ} {disk disk' : Disk}
    (h : SameUpToCompaction r r') (hs : r.decideRunSnapshot app disk = some s)
    (hs' : r'.decideRunSnapshot app disk' = some s') : SameUpToCompaction s s' := by
  obtain ⟨full, hr, hr'⟩ := h.log
  obtain ⟨hcommit, hbase⟩ := decideRunSnapshot_commit hs h.low
  obtain ⟨-, hbase'⟩ := decideRunSnapshot_commit hs' h.bounded'.low
  refine ⟨?_, ⟨full, decideRunSnapshot_shows hr hs, decideRunSnapshot_shows hr' hs'⟩, ?_, ?_, ?_⟩
  · rw [Raft.decideRunSnapshot_rest hs', Raft.decideRunSnapshot_rest hs, h.rest]
  · rwa [hcommit]
  · rw [hcommit, ← h.commitedLength]
    exact hbase'
  · rw [hcommit, Raft.absLength_decideRunSnapshot hs]
    exact h.high

/-- One compaction. -/
theorem Raft.Bounded.sameUpToCompaction {disk : Disk} (h : r.Bounded)
    (hsnap : r.decideRunSnapshot app disk = some r') : SameUpToCompaction r r' := by
  obtain ⟨full, hfull⟩ := r.exists_shows h.nonneg
  exact ⟨decideRunSnapshot_rest hsnap, ⟨full, hfull, decideRunSnapshot_shows hfull hsnap⟩, h.low,
    (decideRunSnapshot_commit hsnap h.low).2, h.high⟩

/-! ## Calls -/

/-- The calls whose answers come from the log. -/
inductive LogCall (n : Nat) where
  | voteRequest (args : VoteRequestArgs n)
  | logRequest (args : LogRequestArgs n)
  | prepareLogRequestArgs (followerId : Fin n)
  deriving DecidableEq

inductive LogAnswer (n : Nat) where
  | vote (resp : VoteResponse n)
  | log (resp : LogResponse n)
  /-- A request for a follower, and whether a snapshot transfer is started, too. -/
  | request (args : LogRequestArgs n) (startsTransfer : Bool)
  deriving DecidableEq

namespace Raft

/-- A call from start to end: the new state, the answer and the messages delivered. -/
def answer (app : Application σ) (disk : Disk) (r : Raft n σ) (id : Fin n) :
    LogCall n → Option (Raft n σ × LogAnswer n × List Delivery)
  | .voteRequest args => some ((r.voteRequest id args).1, .vote (r.voteRequest id args).2, [])
  | .logRequest args => (r.logRequestDelivers app disk id args).map fun x ↦
      (x.1, .log x.2.1, x.2.2)
  | .prepareLogRequestArgs f =>
    some (r, .request (r.prepareLogRequestArgs id f) (decide (r.needsSnapshot f)), [])

/-- The call is about the log from the commit length on. -/
def afterCommit (r : Raft n σ) : LogCall n → Prop
  | .voteRequest _ => True
  | .logRequest args => r.commitedLength ≤ args.prefixLen
  | .prepareLogRequestArgs f => r.commitedLength < r.sentLengths f

instance (r : Raft n σ) : ∀ call, Decidable (r.afterCommit call)
  | .voteRequest _ => inferInstanceAs (Decidable True)
  | .logRequest _ => inferInstanceAs (Decidable (_ ≤ _))
  | .prepareLogRequestArgs _ => inferInstanceAs (Decidable (_ < _))

/-- Calls one after another, each with what the file system does meanwhile. -/
def answers (app : Application σ) (id : Fin n) :
    Raft n σ → List (LogCall n × Disk) → Option (Raft n σ × List (LogAnswer n × List Delivery))
  | r, [] => some (r, [])
  | r, (call, disk) :: rest => (r.answer app disk id call).bind fun x ↦
      (answers app id x.1 rest).map fun y ↦ (y.1, x.2 :: y.2)

/-- Each of the calls is about the log from the commit length on that it finds. -/
def AllAfterCommit (app : Application σ) (id : Fin n) : Raft n σ → List (LogCall n × Disk) → Prop
  | _, [] => True
  | r, (call, disk) :: rest => r.afterCommit call ∧
      ∀ x, r.answer app disk id call = some x → AllAfterCommit app id x.1 rest

end Raft

namespace SameUpToCompaction

/-! ## One call -/

theorem voteLogOk_iff (h : SameUpToCompaction r r') (args : VoteRequestArgs n) :
    r'.voteLogOk args ↔ r.voteLogOk args := by
  obtain ⟨full, hr, hr'⟩ := h.log
  unfold Raft.voteLogOk
  rw [hr.getLastLogTerm, hr'.getLastLogTerm, h.absLength]

/-- What `VoteRequest` decides from does not lie in the log. -/
theorem beforeVote (h : SameUpToCompaction r r') (args : VoteRequestArgs n) : r'.beforeVote args =
    { r.beforeVote args with
      log := r'.log, snapshotter := r'.snapshotter, snapshotFile := r'.snapshotFile } := by
  conv_lhs => rw [h.rest]
  unfold Raft.beforeVote Raft.dropLeader Raft.adoptTerm
  simp only
  split <;> split <;> rfl

theorem voteRequest (h : SameUpToCompaction r r') (id : Fin n) (args : VoteRequestArgs n) :
    (r'.voteRequest id args).2 = (r.voteRequest id args).2 ∧
      SameUpToCompaction (r.voteRequest id args).1 (r'.voteRequest id args).1 := by
  have hbefore := h.beforeVote args
  have hsame : SameUpToCompaction (r.beforeVote args) (r'.beforeVote args) := by
    refine h.congr ?_ ?_ ?_
    · rw [Raft.beforeVote_eq]
      exact ⟨rfl, rfl, rfl⟩
    · rw [Raft.beforeVote_eq]
      exact ⟨rfl, rfl, rfl⟩
    · rw [hbefore]
  have hgrants : (r'.beforeVote args).grantsVote args ↔ (r.beforeVote args).grantsVote args := by
    unfold Raft.grantsVote
    rw [hsame.voteLogOk_iff, hsame.control.term, hsame.control.vote]
  unfold Raft.voteRequest
  simp only [hgrants, hsame.control.term]
  split
  · refine ⟨rfl, hsame.congr ⟨rfl, rfl, rfl⟩ ⟨rfl, rfl, rfl⟩ ?_⟩
    rw [hbefore]
    rfl
  · exact ⟨rfl, hsame⟩

theorem followLeader (h : SameUpToCompaction r r') (id : Fin n) (args : LogRequestArgs n) :
    SameUpToCompaction (r.followLeader id args) (r'.followLeader id args) := by
  refine h.congr Raft.followLeader_sameLog Raft.followLeader_sameLog ?_
  have hlog : r'.SameLog (r'.followLeader id args) := Raft.followLeader_sameLog
  have hfile : (r'.followLeader id args).snapshotFile = r'.snapshotFile := by
    unfold Raft.followLeader
    simp only
    split <;> split <;> rfl
  rw [hlog.log, hlog.snapshotter, hfile]
  conv_lhs => rw [h.rest]
  unfold Raft.followLeader
  simp only
  split <;> split <;> rfl

theorem acceptsLogRequest_iff (h : SameUpToCompaction r r') {args : LogRequestArgs n}
    (hp : r.commitedLength ≤ args.prefixLen) :
    r'.acceptsLogRequest id args ↔ r.acceptsLogRequest id args := by
  obtain ⟨full, hr, hr'⟩ := h.log
  unfold Raft.acceptsLogRequest
  rw [(h.followLeader id args).control.term, hr.logOk_iff (h.low.trans hp),
    hr'.logOk_iff (h.low'.trans hp)]

theorem appendSuffix (h : SameUpToCompaction r r') (suffix : List LogEntry)
    (hp : r.commitedLength ≤ p) (hle : p ≤ r.absLength) :
    SameUpToCompaction (r.appendSuffix p suffix) (r'.appendSuffix p suffix) := by
  obtain ⟨full, hr, hr'⟩ := h.log
  have h0 := hr.window.1
  have hlow := h.low
  have hs := hr.appendSuffix suffix (hlow.trans hp)
  refine ⟨?_, ⟨_, hs, hr'.appendSuffix suffix (h.low'.trans hp)⟩, hlow, h.low', ?_⟩
  · conv_lhs => rw [Raft.appendSuffix, h.rest]
    rfl
  · rw [hs.absLength]
    rw [hr.absLength] at hle
    exact hp.trans (le_length_splicedLog (by omega) hle)

theorem messagesFrom (h : SameUpToCompaction r r') (k : Nat) (hp : r.commitedLength ≤ p) :
    r'.messagesFrom k p = r.messagesFrom k p := by
  induction k generalizing p with
  | zero => rfl
  | succ k ih =>
    rw [Raft.messagesFrom, Raft.messagesFrom, h.entryAt (h.low.trans hp) (h.low'.trans hp),
      ih (by omega)]

theorem commitTo (h : SameUpToCompaction r r') (app : Application σ) (leaderCommit : Int) :
    ∃ s s' ds, r.commitTo app leaderCommit = some (s, ds) ∧
      r'.commitTo app leaderCommit = some (s', ds) ∧ SameUpToCompaction s s' := by
  obtain ⟨s, ds, hs, hbound, hlog, hsnap⟩ := h.bounded.commitTo app leaderCommit
  refine ⟨s, { s with
    log := r'.log, snapshotter := r'.snapshotter, snapshotFile := r'.snapshotFile }, ds, hs, ?_, ?_⟩
  · unfold Raft.commitTo at hs ⊢
    rw [h.commitedLength, h.absLength]
    split at hs
    · rename_i hlt
      rw [if_pos hlt]
      simp only at hs ⊢
      rw [h.messagesFrom _ le_rfl]
      obtain ⟨ds', hds, heq⟩ := Option.map_eq_some_iff.mp hs
      obtain ⟨rfl, rfl⟩ := Prod.mk.inj heq
      have happ : (r'.deliverAll app ds').application = (r.deliverAll app ds').application := by
        rw [Raft.deliverAll_application, Raft.deliverAll_application, h.rest]
      rw [hds, Option.map_some, Raft.deliverAll_eq app r', happ, Raft.deliverAll_eq app r]
      conv_lhs => rw [h.rest]
    · rename_i hle
      obtain ⟨rfl, rfl⟩ := Prod.mk.inj (Option.some.inj hs)
      rw [if_neg hle, ← h.rest]
  · obtain ⟨full, hr, hr'⟩ := h.log
    obtain ⟨-, -, -, application, hadvance⟩ := Raft.commitTo_advance hs h.high
    refine ⟨rfl, ⟨full, hr.congr hlog hsnap, hr'.congr rfl rfl⟩, hbound.low, ?_, hbound.high⟩
    have := h.low'
    rw [hadvance]
    simp only
    omega

theorem appendEntries (h : SameUpToCompaction r r') (app : Application σ) (disk disk' : Disk)
    {args : LogRequestArgs n} (hp : r.commitedLength ≤ args.prefixLen)
    (hle : args.prefixLen ≤ r.absLength) :
    ∃ s s' ds, r.appendEntries app disk args = some (s, ds) ∧
      r'.appendEntries app disk' args = some (s', ds) ∧ SameUpToCompaction s s' := by
  obtain ⟨s₁, s₁', ds, hs, hs', hsame⟩ :=
    (h.appendSuffix args.suffix hp hle).commitTo app args.commitLength
  obtain ⟨s₂, hrun, -⟩ := hsame.bounded.decideRunSnapshot app disk
  obtain ⟨s₂', hrun', -⟩ := hsame.bounded'.decideRunSnapshot app disk'
  refine ⟨s₂, s₂', ds, ?_, ?_, hsame.decideRunSnapshot hrun hrun'⟩
  · simp only [Raft.appendEntries, hs, Option.bind_some, hrun, Option.map_some]
  · simp only [Raft.appendEntries, hs', Option.bind_some, hrun', Option.map_some]

theorem logRequestDelivers (h : SameUpToCompaction r r') (app : Application σ) (disk disk' : Disk)
    (id : Fin n) {args : LogRequestArgs n} (hp : r.commitedLength ≤ args.prefixLen) :
    ∃ s s' x, r.logRequestDelivers app disk id args = some (s, x) ∧
      r'.logRequestDelivers app disk' id args = some (s', x) ∧ SameUpToCompaction s s' := by
  have hfollow := h.followLeader id args
  unfold Raft.logRequestDelivers
  simp only [h.acceptsLogRequest_iff hp]
  split
  · rename_i haccepts
    have hsame : r.SameLog (r.followLeader id args) := Raft.followLeader_sameLog
    have hle := Raft.logOk_le haccepts.2 h.bounded.absLength_nonneg
    obtain ⟨s, s', ds, hs, hs', hafter⟩ := hfollow.appendEntries app disk disk'
      (by rwa [hsame.commitedLength]) (by rwa [hsame.absLength])
    refine ⟨s, s', (s.acceptLogRequest id args, ds), ?_, ?_, hafter⟩
    · rw [hs, Option.map_some]
    · rw [hs', Option.map_some]
      simp only [Raft.acceptLogRequest, hafter.control.term]
  · refine ⟨_, _, _, rfl, ?_, hfollow⟩
    simp only [Raft.rejectLogRequest, hfollow.control.term]

theorem prepareLogRequestArgs (h : SameUpToCompaction r r') (id : Fin n) {f : Fin n}
    (hsent : r.commitedLength < r.sentLengths f) :
    r'.prepareLogRequestArgs id f = r.prepareLogRequestArgs id f ∧ ¬ r.needsSnapshot f ∧
      ¬ r'.needsSnapshot f := by
  obtain ⟨full, hr, hr'⟩ := h.log
  have h0 := hr.window.1
  have hlow := h.low
  have hlow' := h.low'
  have hnext : r.nextIndex f = r.sentLengths f := if_neg (by omega)
  have hnext' : r'.nextIndex f = r.sentLengths f := by
    rw [← h.control.sent] at hsent ⊢
    exact if_neg (by omega)
  have hno : ¬ r.needsSnapshot f := by
    unfold Raft.needsSnapshot
    omega
  have hno' : ¬ r'.needsSnapshot f := by
    unfold Raft.needsSnapshot
    omega
  have hprev : r'.prevTerm (r.sentLengths f - 1) = r.prevTerm (r.sentLengths f - 1) := by
    refine Option.ext fun t ↦ ?_
    rw [hr.prevTerm_iff (by omega), hr'.prevTerm_iff (by omega)]
  have hsuffix : r'.wireSuffix (r.sentLengths f) = r.wireSuffix (r.sentLengths f) := by
    rw [hr.wireSuffix (by omega), hr'.wireSuffix (by omega)]
  refine ⟨?_, hno, hno'⟩
  unfold Raft.prepareLogRequestArgs
  simp only [if_neg hno, if_neg hno', hnext, hnext', hprev, hsuffix, h.control.term,
    h.commitedLength, Raft.bareLogRequest]

theorem answer (h : SameUpToCompaction r r') (app : Application σ) (disk disk' : Disk)
    (id : Fin n) {call : LogCall n} (hcall : r.afterCommit call) :
    ∃ s s' x, r.answer app disk id call = some (s, x) ∧
      r'.answer app disk' id call = some (s', x) ∧ SameUpToCompaction s s' := by
  cases call with
  | voteRequest args =>
    obtain ⟨hresp, hsame⟩ := h.voteRequest id args
    refine ⟨_, _, _, rfl, ?_, hsame⟩
    rw [Raft.answer, hresp]
  | logRequest args =>
    obtain ⟨s, s', x, hs, hs', hsame⟩ := h.logRequestDelivers app disk disk' id hcall
    refine ⟨s, s', (.log x.1, x.2), ?_, ?_, hsame⟩
    · rw [Raft.answer, hs, Option.map_some]
    · rw [Raft.answer, hs', Option.map_some]
  | prepareLogRequestArgs f =>
    obtain ⟨hargs, hno, hno'⟩ := h.prepareLogRequestArgs id hcall
    refine ⟨r, r', _, rfl, ?_, h⟩
    rw [Raft.answer, hargs, decide_eq_false hno, decide_eq_false hno']

end SameUpToCompaction

/-! ## Any number of calls -/

theorem SameUpToCompaction.answers (h : SameUpToCompaction r r') (app : Application σ)
    {calls : List (LogCall n × Disk × Disk)}
    (hcalls : r.AllAfterCommit app id (calls.map fun x ↦ (x.1, x.2.1))) :
    ∃ s s' xs, r.answers app id (calls.map fun x ↦ (x.1, x.2.1)) = some (s, xs) ∧
      r'.answers app id (calls.map fun x ↦ (x.1, x.2.2)) = some (s', xs) ∧
      SameUpToCompaction s s' := by
  -- on the calls; either node may compact in any of them
  induction calls generalizing r r' with
  | nil => exact ⟨r, r', [], rfl, rfl, h⟩
  | cons c rest ih =>
    obtain ⟨call, disk, disk'⟩ := c
    obtain ⟨hcall, hrest⟩ := hcalls
    obtain ⟨s, s', x, hs, hs', hsame⟩ := h.answer app disk disk' id hcall
    obtain ⟨u, u', xs, hu, hu', hafter⟩ := ih hsame (hrest _ hs)
    refine ⟨u, u', x :: xs, ?_, ?_, hafter⟩
    · simp only [List.map_cons, Raft.answers, hs, Option.bind_some, hu, Option.map_some]
    · simp only [List.map_cons, Raft.answers, hs', Option.bind_some, hu', Option.map_some]

/-- After a compaction a node answers every later call about the log from the commit length on as it
would have without, delivers the same messages, and stays the same up to compaction. -/
theorem compaction_invisible (app : Application σ) (id : Fin n) {r r' : Raft n σ} {disk : Disk}
    (hbound : r.Bounded) (hsnap : r.decideRunSnapshot app disk = some r')
    (calls : List (LogCall n × Disk × Disk))
    (hcalls : r.AllAfterCommit app id (calls.map fun x ↦ (x.1, x.2.1))) :
    ∃ s s' answers, r.answers app id (calls.map fun x ↦ (x.1, x.2.1)) = some (s, answers) ∧
      r'.answers app id (calls.map fun x ↦ (x.1, x.2.2)) = some (s', answers) ∧
      s.SameControl s' ∧ s'.commitedLength = s.commitedLength ∧
      s'.application = s.application ∧ s'.absLength = s.absLength ∧
      ∀ p, s.snapshotter.lastIndex ≤ p → s'.snapshotter.lastIndex ≤ p →
        s'.entryAt p = s.entryAt p := by
  obtain ⟨s, s', xs, hs, hs', hsame⟩ := (hbound.sameUpToCompaction hsnap).answers app hcalls
  exact ⟨s, s', xs, hs, hs', hsame.control, hsame.commitedLength, by rw [hsame.rest],
    hsame.absLength, fun p hp hp' ↦ hsame.entryAt hp hp'⟩

/-- A node with two entries of term 1, the first of them committed, that is about to compact. -/
def sampleCompacting : Raft 3 Unit :=
  { newRaft 3 1 () with
    currentTerm := 1
    log := [⟨1, samplePut 1⟩, ⟨1, samplePut 2⟩]
    commitedLength := 1 }

/-- A request whose prefix ends where the new snapshot does. -/
theorem compaction_invisible_boundary :
    ∃ r' s s' answers, sampleCompacting.decideRunSnapshot keepsNothing .healthy = some r' ∧
      sampleCompacting.answers keepsNothing 1
        [(.logRequest ⟨0, 1, 1, 1, 2, [⟨1, samplePut 2⟩, ⟨1, samplePut 3⟩]⟩, .healthy)] =
          some (s, answers) ∧
      r'.answers keepsNothing 1
        [(.logRequest ⟨0, 1, 1, 1, 2, [⟨1, samplePut 2⟩, ⟨1, samplePut 3⟩]⟩, .healthy)] =
          some (s', answers) ∧
      ∀ p, s.snapshotter.lastIndex ≤ p → s'.snapshotter.lastIndex ≤ p →
        s'.entryAt p = s.entryAt p := by
  have hbound : sampleCompacting.Bounded := by decide +kernel
  obtain ⟨r', hsnap, -⟩ := hbound.decideRunSnapshot keepsNothing .healthy
  obtain ⟨s, s', answers, hs, hs', -, -, -, -, hentries⟩ :=
    compaction_invisible keepsNothing 1 hbound hsnap
      [(.logRequest ⟨0, 1, 1, 1, 2, [⟨1, samplePut 2⟩, ⟨1, samplePut 3⟩]⟩, .healthy, .healthy)]
      ⟨by decide +kernel, fun _ _ ↦ trivial⟩
  exact ⟨r', s, s', answers, hsnap, hs, hs', hentries⟩

end DistributedCache
