import DistributedCache.Raft.CommitRule
import DistributedCache.Raft.Persistence

/-!
# The commit length stays within the log

`commitLogEntries`, the commit loop of `appendEntries` and `decideRunSnapshot` index the log
relative to the snapshot without a test, on the assumption that the commit length lies between the
end of the snapshot and the end of the log.  Two handlers can break that assumption: `appendEntries`
cuts the log at a conflict without regard to what is committed, and `InstallSnapshot` cuts it
without moving the commit length back, for an old snapshot as for one that cannot be restored.
-/

namespace DistributedCache

open Network Transition

variable {n : Nat} {σ : Type} {app : Application σ} {i : Fin n} {r r' : Raft n σ} {a : Action n}

namespace Raft

/-- What is left of the log after an installed snapshot reaches to the commit length. -/
def coversCommit (r : Raft n σ) (req : InstallSnapshotRequest n) : Prop :=
  (r.retainsSuffix req → r.commitedLength < r.absLength) ∧
    (¬ r.retainsSuffix req → r.commitedLength ≤ req.lastIncludedIndex)
deriving Decidable

/-- The action cuts off nothing that is committed. -/
def keepsBounds (app : Application σ) (r : Raft n σ) : Action n → Bool
  | .appendEntries args _ =>
    r.conflicts args.prefixLen args.suffix → r.commitedLength ≤ args.prefixLen
  | .installSnapshot req disk => 0 ≤ req.lastIncludedIndex ∧
    (req.done = true → r.currentTerm ≤ req.leaderTerm → r.coversCommit req ∧
      -- a snapshot that is not restored leaves the log cut and its own index unused
      (r.restorable app disk req = false → r.commitedLength ≤ r.snapshotter.lastIndex))
  | _ => true

/-- The handler indexes the log out of range.  All other index expressions stand behind a test of
their range. -/
def panics (app : Application σ) (i : Fin n) (r : Raft n σ) : Action n → Bool
  | .appendEntries args disk => (r.appendEntries app disk args).isNone
  | .replicateResponse f _ resp => (r.replicateResponse i f resp).isNone
  | _ => false

/-! ## One action -/

theorem Bounded.broadcast (h : r.Bounded) (m : Message) : (r.broadcast i m).Bounded := by
  have hhigh := h.high
  refine ⟨h.nonneg, h.low, ?_⟩
  unfold Raft.absLength at hhigh ⊢
  simp only [Raft.broadcast, List.length_append, List.length_singleton]
  omega

/-- `appendEntries` returns, with a log that reaches to the commit length. -/
theorem Bounded.appends (h : r.Bounded) (app : Application σ) (disk : Disk)
    {args : LogRequestArgs n}
    (hcut : r.conflicts args.prefixLen args.suffix → r.commitedLength ≤ args.prefixLen) :
    ∃ r' ds, r.appendEntries app disk args = some (r', ds) ∧ r'.Bounded := by
  obtain ⟨r₁, ds, hcommit, hbound, -⟩ := (h.appendSuffix hcut).commitTo app args.commitLength
  obtain ⟨r₂, hrun, hbound', -⟩ := hbound.decideRunSnapshot app disk
  refine ⟨r₂, ds, ?_, hbound'⟩
  simp only [Raft.appendEntries, hcommit, Option.bind_some, hrun, Option.map_some]

theorem Bounded.commitLogEntries (h : r.Bounded) (id : Fin n) :
    ∃ r' ds, r.commitLogEntries id = some (r', ds) ∧ r'.Bounded := by
  have hlow := h.low
  have hhigh := h.high
  obtain ⟨ds, hloop, -⟩ := commitLoop_total id (p := r.commitedLength)
    (k := (r.absLength - r.commitedLength).toNat) hlow (by omega)
  have hlen := (commitLoop_spec hloop).2.1
  refine ⟨{ r with commitedLength := r.commitedLength + ds.length }, ds,
    by rw [Raft.commitLogEntries, hloop, Option.map_some], h.nonneg, ?_, ?_⟩
  · simp only
    omega
  · change r.commitedLength + (ds.length : Int) ≤ r.absLength
    omega

theorem Bounded.replicateResponse (h : r.Bounded) (i f : Fin n) (resp : LogResponse n) :
    ∃ r' ds, r.replicateResponse i f resp = some (r', ds) ∧ r'.Bounded := by
  unfold Raft.replicateResponse
  split
  · exact ⟨_, [], rfl, h.nonneg, h.low, h.high⟩
  split
  · split
    · have hacked : (r.recordAck f resp.ack).Bounded := ⟨h.nonneg, h.low, h.high⟩
      exact hacked.commitLogEntries i
    · obtain ⟨sent, heq⟩ := r.retreat_eq f
      rw [heq]
      exact ⟨_, [], rfl, h.nonneg, h.low, h.high⟩
  · exact ⟨r, [], rfl, h⟩

/-- The entry after the snapshot is dropped with it. -/
theorem length_logAfterSnapshot {req : InstallSnapshotRequest n} (h : r.retainsSuffix req) :
    req.lastIncludedIndex + (r.logAfterSnapshot req).length = r.absLength - 1 := by
  obtain ⟨-, e, he, -⟩ := id h
  have := Window.index?_lt he
  rw [logAfterSnapshot, if_pos h, List.length_drop]
  unfold Raft.absLength
  omega

theorem Bounded.installSnapshot (h : r.Bounded) {req : InstallSnapshotRequest n} {disk : Disk}
    {reply : Option InstallSnapshotResponse} (hout : InstallOutcome app disk r req r' reply)
    (hkept : r.keepsBounds app (.installSnapshot req disk) = true) : r'.Bounded := by
  obtain ⟨hnonneg, hcovers⟩ := of_decide_eq_true hkept
  have hlow := h.low
  cases hout with
  | stale => exact h
  | stored => exact SameLog.bounded ⟨by simp, by simp, by simp⟩ h
  | failed hterm hdone hfail =>
    have hcommit := (hcovers hdone hterm).2 hfail
    refine ⟨?_, ?_, ?_⟩
    · simpa using h.nonneg
    · simpa using hlow
    · simp only [absLength, followSnapshot_commitedLength, followSnapshot_snapshotter]
      omega
  | restored hterm hdone file application =>
    obtain ⟨hkeeps, hdrops⟩ := (hcovers hdone hterm).1
    refine ⟨hnonneg, by simp only; omega, ?_⟩
    simp only [absLength]
    by_cases hretains : r.retainsSuffix req
    · have hlen := length_logAfterSnapshot hretains
      have hcommit := hkeeps hretains
      have := hretains.1
      omega
    · have hcommit := hdrops hretains
      omega

/-- An action that cuts off nothing committed keeps the commit length within the log. -/
theorem Bounded.act {e : RaftEffect n σ} (h : r.Bounded) (hact : r.act app i a = some e)
    (hkept : r.keepsBounds app a = true) : e.state.Bounded := by
  cases act_log hact with
  | broadcasts m => exact h.broadcast m
  | @appends args disk r' ds happ =>
    obtain ⟨r'', ds', happ', hbound⟩ := h.appends app disk (of_decide_eq_true hkept)
    rw [happ] at happ'
    obtain ⟨rfl, -⟩ := Prod.mk.inj (Option.some.inj happ')
    exact hbound
  | accepts args => exact followLeader_sameLog.bounded h
  | installs _ hout => exact h.installSnapshot hout hkept
  | @commits f req resp r' ds _ hcommit =>
    have hacked : (r.recordAck f resp.ack).Bounded := ⟨h.nonneg, h.low, h.high⟩
    obtain ⟨r'', ds', hcommit', hbound⟩ := hacked.commitLogEntries i
    rw [hcommit] at hcommit'
    obtain ⟨rfl, -⟩ := Prod.mk.inj (Option.some.inj hcommit')
    exact hbound
  | delivers d rest => exact ⟨h.nonneg, h.low, h.high⟩
  | other hsame => exact hsame.bounded h

/-- Within the bounds no index is out of range. -/
theorem Bounded.not_panics (h : r.Bounded) (i : Fin n) (hkept : r.keepsBounds app a = true) :
    r.panics app i a = false := by
  cases a with
  | appendEntries args disk =>
    obtain ⟨r', ds, happ, -⟩ := h.appends app disk (of_decide_eq_true hkept)
    rw [panics, happ]
    rfl
  | replicateResponse f req resp =>
    obtain ⟨r', ds, hresp, -⟩ := h.replicateResponse i f resp
    rw [panics, hresp]
    rfl
  | _ => rfl

end Raft

/-! ## Runs of a node -/

/-- The node is not restarted, and none of its handlers cuts off anything committed. -/
def BoundsKept (app : Application σ) (c : Server n σ) : ServerAction n → Prop
  | .handle a => c.raft.keepsBounds app a = true
  | .restart _ => False
  | _ => True

instance (app : Application σ) (c : Server n σ) : ∀ a, Decidable (BoundsKept app c a)
  | .handle _ => inferInstanceAs (Decidable (_ = _))
  | .restart _ => isFalse id
  | .saveValues | .takeRequest | .beginSave | .continueSave | .failSave _ => isTrue trivial

/-- In a run from `NewRaft` in which nothing committed is cut off, the commit length lies between
the end of the snapshot and the end of the log, and no handler panics. -/
theorem log_never_out_of_range (app : Application σ) (snapshotThreshold : Int) (application : σ)
    (i : Fin n) {c : Server n σ}
    (hrun : Reaches (Server.step app application i) (BoundsKept app)
      (Server.start n snapshotThreshold application) c) :
    c.raft.Bounded ∧
      ∀ a, c.raft.keepsBounds app a = true → c.raft.panics app i a = false := by
  have hbound : c.raft.Bounded := by
    refine hrun.invariant (fun c ↦ c.raft.Bounded) ⟨le_rfl, le_rfl, le_rfl⟩ ?_
    intro c a c' _ h hkept hstep
    cases Server.step_cases hstep with
    | handled hhandle =>
      obtain ⟨_, _, e, hact, rfl⟩ := Server.handle_cases hhandle
      exact h.act hact hkept
    | restarted => exact hkept.elim
    | saver hsame =>
      rw [hsame.raft]
      exact h
  exact ⟨hbound, fun a hkept ↦ hbound.not_panics i hkept⟩

/-- A follower takes two entries, of which the first is committed. -/
theorem log_never_out_of_range_append : ∃ c : Server 3 Unit,
    Reaches (Server.step keepsNothing () 1) (BoundsKept keepsNothing) (Server.start 3 10 ()) c ∧
      c.raft.commitedLength = 1 ∧ c.raft.Bounded ∧
      ∀ a, c.raft.keepsBounds keepsNothing a = true → c.raft.panics keepsNothing 1 a = false := by
  obtain ⟨c, hrun, hcommit⟩ : ∃ c : Server 3 Unit,
      Reaches (Server.step keepsNothing () 1) (BoundsKept keepsNothing) (Server.start 3 10 ()) c ∧
        c.raft.commitedLength = 1 :=
    exists_reaches_of_exec
      [.handle (.logRequest ⟨0, 1, 0, 0, 1, [⟨1, samplePut 1⟩, ⟨1, samplePut 2⟩]⟩),
        .handle (.appendEntries ⟨0, 1, 0, 0, 1, [⟨1, samplePut 1⟩, ⟨1, samplePut 2⟩]⟩ .healthy)]
      (by decide +kernel)
  exact ⟨c, hrun, hcommit, log_never_out_of_range keepsNothing 10 () 1 hrun⟩

/-- The step is one of the node's handlers. -/
def ServerAction.isHandle : ServerAction n → Bool
  | .handle _ => true
  | _ => false

/-- Ten entries of term 1. -/
def sampleTen : LogRequestArgs 3 :=
  ⟨0, 1, 0, 0, 0, (List.range 10).map fun k ↦ ⟨1, samplePut k⟩⟩

/-- A snapshot of twenty entries and then one of none.  The commit length stays at twenty above an
empty log, and when ten entries have come in, compaction slices the log at twenty. -/
theorem old_snapshot_panics : ∃ c : Server 3 Unit,
    Reaches (Server.step keepsNothing () 1) (fun _ a ↦ a.isHandle = true) (Server.start 3 10 ()) c ∧
      c.raft.absLength < c.raft.commitedLength ∧ .appendEntries sampleTen ∈ c.threads ∧
      c.raft.panics keepsNothing 1 (.appendEntries sampleTen .healthy) = true :=
  exists_reaches_of_exec
    [.handle (.installSnapshot ⟨1, 0, 20, 1, 0, [7], true⟩ .healthy),
      .handle (.installSnapshot ⟨1, 0, 0, 0, 0, [7], true⟩ .healthy),
      .handle (.logRequest sampleTen)]
    (by decide +kernel)

end DistributedCache
