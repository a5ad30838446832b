import DistributedCache.Raft.Election
import DistributedCache.Raft.LogSteps

/-!
# Messages that are to leave a node as it was

A message of an old term is to change nothing, and neither is a snapshot that cannot be installed.
`VoteRequest` looks at the believed leader before it compares the terms, a term that does not fit
`int32` is told and compared wrongly, and `InstallSnapshot` cuts the log before it knows that the
snapshot can be restored; everything else holds.
-/

namespace DistributedCache

open Network Transition Window

variable {n : Nat} {σ : Type} {app : Application σ} {i : Fin n} {r : Raft n σ} {a : Action n}

/-! ## Old terms -/

/-- The answer that refuses a request, with the term of the node that refuses it. -/
def Packet.refusal (term : Int) : Packet n → Option (Packet n)
  | .voteRequest target args => some (.voteResponse args.candidateId ⟨target, term, false⟩)
  | .logRequest target args =>
    some (.logResponse args.leaderId target args ⟨target, term, 0, false⟩)
  -- there is no other sign of a refusal in this reply than the term
  | .installSnapshot target req => some (.snapshotResponse req.leaderId target req ⟨term⟩)
  | _ => none

theorem Packet.refusal_inj {p : Packet n} {t t' : Int} (hrequest : ∀ t, (p.refusal t).isSome)
    (h : p.refusal t = p.refusal t') : t = t' := by
  cases p with
  | voteRequest | logRequest | installSnapshot => simpa [refusal] using h
  | _ => cases hrequest 0

namespace Raft

theorem beforeVote_of_stale {args : VoteRequestArgs n} (hstale : args.candidateTerm < r.currentTerm)
    (hleader : r.currentLeaderId ≠ some args.candidateId) : r.beforeVote args = r := by
  unfold beforeVote dropLeader adoptTerm
  rw [if_neg hleader, if_neg (by omega)]

theorem voteRequest_of_stale {args : VoteRequestArgs n}
    (hstale : args.candidateTerm < r.currentTerm)
    (hleader : r.currentLeaderId ≠ some args.candidateId) :
    r.voteRequest i args = (r, ⟨i, int32 r.currentTerm, false⟩) := by
  unfold voteRequest
  simp only [beforeVote_of_stale hstale hleader]
  refine if_neg fun hgrants ↦ ?_
  have := hgrants.1
  omega

theorem leader_voteRequest_of_believed {args : VoteRequestArgs n}
    (h : r.currentLeaderId = some args.candidateId) :
    (r.voteRequest i args).1.currentLeaderId = none := by
  have hbefore : (r.beforeVote args).currentLeaderId = none := by
    unfold beforeVote dropLeader adoptTerm
    rw [if_pos h]
    split <;> rfl
  unfold voteRequest
  simp only
  split
  · rfl
  · exact hbefore

theorem receiveVote_of_stale {vote : VoteResponse n} (hstale : vote.currentTerm < r.currentTerm) :
    r.receiveVote i vote = (r, false) := by
  unfold receiveVote
  rw [if_neg (by omega), if_neg]
  intro hcounts
  have := hcounts.2.1
  omega

theorem not_acceptsLogRequest_of_stale {args : LogRequestArgs n}
    (hstale : args.term < r.currentTerm) :
    ¬ r.acceptsLogRequest i args := by
  intro haccepts
  have := (acceptsLogRequest_follower haccepts).1
  omega

theorem followLeader_of_stale {args : LogRequestArgs n} (hstale : args.term < r.currentTerm) :
    r.followLeader i args = r := by
  obtain ⟨hlt, -⟩ | ⟨heq, -⟩ | ⟨-, hsame⟩ := r.followLeader_cases i args
  · omega
  · omega
  · exact hsame

theorem replicateResponse_of_stale {f : Fin n} {resp : LogResponse n}
    (hstale : resp.currentTerm < r.currentTerm) : r.replicateResponse i f resp = some
      (if int32 r.currentTerm < resp.currentTerm then r.becomeFollowerUnlocked resp.currentTerm
        else r, []) := by
  unfold replicateResponse
  split
  · rfl
  · rw [if_neg]
    rintro ⟨-, hterm⟩
    omega

theorem installSnapshot_of_stale {req : InstallSnapshotRequest n} {disk : Disk}
    (hstale : req.leaderTerm < r.currentTerm) :
    r.installSnapshot app disk req = (r, some ⟨int32 r.currentTerm⟩) := by
  unfold installSnapshot
  simp only [if_pos hstale]

end Raft

/-- Nothing has changed, and a request is refused with the node's own term. -/
structure Inert (r : Raft n σ) (a : Action n) (p : Packet n) (e : RaftEffect n σ) : Prop where
  control : Raft.SameControl r e.state
  log : r.SameLog e.state
  application : e.state.application = r.application
  packets : e.packets = (p.refusal r.currentTerm).toList
  -- only a transfer goes on
  threads : (∀ t req resp, a ≠ .snapshotReply t req resp) → e.threads = []

/-- The condition for that: the term fits its field in the answer to a request, a vote request is
not one of the believed leader, and the term of a reply to a `LogRequest` is not above what the
comparison in `int32` makes of the node's term. -/
def Raft.inertTo (r : Raft n σ) : Action n → Prop
  | .voteRequest args => FitsInt32 r.currentTerm ∧ r.currentLeaderId ≠ some args.candidateId
  | .logRequest _ => FitsInt32 r.currentTerm
  | .installSnapshot _ _ => FitsInt32 r.currentTerm
  | .replicateResponse _ _ resp => resp.currentTerm ≤ int32 r.currentTerm
  | _ => True

/-- A request whose only effect is the refusal, with the term as its field holds it. -/
theorem inert_refused_iff {p : Packet n} (hrequest : ∀ t, (p.refusal t).isSome)
    (hact : r.act app i a = some ⟨r, [], (p.refusal (int32 r.currentTerm)).toList, []⟩) :
    (∃ e, r.act app i a = some e ∧ Inert r a p e) ↔ FitsInt32 r.currentTerm := by
  rw [← int32_eq_self_iff]
  constructor
  · rintro ⟨e, he, h⟩
    obtain rfl := Option.some.inj (hact.symm.trans he)
    exact Packet.refusal_inj hrequest (by simpa using congrArg List.head? h.packets)
  · intro hfits
    refine ⟨_, hact, .refl r, .refl r, rfl, ?_, fun _ ↦ rfl⟩
    rw [hfits]

/-- A message of an old term changes nothing, and a request is refused with the node's own term,
exactly under the condition. -/
theorem stale_message_inert_iff (app : Application σ) (i : Fin n) (r : Raft n σ) (a : Action n)
    (p : Packet n) (hp : p ∈ a.packet i) (hstale : p.term < r.currentTerm) :
    (∃ e, r.act app i a = some e ∧ Inert r a p e) ↔ r.inertTo a := by
  cases a with
  | voteRequest args =>
    obtain rfl := Option.some.inj hp
    by_cases hleader : r.currentLeaderId = some args.candidateId
    · -- the believed leader is forgotten before the terms are compared
      refine iff_of_false ?_ fun h ↦ h.2 hleader
      rintro ⟨e, hact, h⟩
      obtain rfl := Option.some.inj hact
      have hsame := h.control.leader
      rw [Raft.voteRequestEffect, Raft.leader_voteRequest_of_believed hleader, hleader] at hsame
      cases hsame
    · refine (inert_refused_iff (fun _ ↦ rfl) ?_).trans (and_iff_left hleader).symm
      rw [Raft.act, Raft.voteRequestEffect, Raft.voteRequest_of_stale hstale hleader]
      rfl
  | receiveVote vote =>
    obtain rfl := Option.some.inj hp
    refine iff_of_true ⟨_, rfl, ?_⟩ trivial
    rw [Raft.receiveVoteEffect, Raft.receiveVote_of_stale hstale]
    exact ⟨.refl r, .refl r, rfl, rfl, fun _ ↦ rfl⟩
  | logRequest args =>
    obtain rfl := Option.some.inj hp
    refine inert_refused_iff (fun _ ↦ rfl) ?_
    rw [Raft.act, Raft.logRequestEffect, if_neg (Raft.not_acceptsLogRequest_of_stale hstale),
      Raft.followLeader_of_stale hstale]
    rfl
  | replicateAnswered f req resp =>
    obtain rfl := Option.some.inj hp
    exact iff_of_true ⟨_, rfl, ⟨rfl, rfl, rfl, rfl, rfl, rfl, rfl⟩, ⟨rfl, rfl, rfl⟩, rfl, rfl,
      fun _ ↦ rfl⟩ trivial
  | replicateResponse f req resp =>
    obtain rfl := Option.some.inj hp
    change resp.currentTerm < r.currentTerm at hstale
    have hresp := Raft.replicateResponse_of_stale (i := i) (f := f) hstale
    constructor
    · rintro ⟨e, hact, h⟩
      rw [Raft.act, Raft.replicateResponseEffect, hresp, Option.map_some] at hact
      obtain rfl := Option.some.inj hact
      -- the node would be in the old term now
      by_contra hnewer
      have hterm := h.control.term
      simp only [if_pos (Int.not_le.mp hnewer)] at hterm
      exact absurd hterm hstale.ne
    · intro hold
      rw [if_neg (Int.not_lt.mpr hold)] at hresp
      refine ⟨_, by rw [Raft.act, Raft.replicateResponseEffect, hresp, Option.map_some], ?_⟩
      exact ⟨.refl r, .refl r, rfl, rfl, fun _ ↦ rfl⟩
  | snapshotReply t req resp =>
    obtain rfl := Option.some.inj hp
    have hlt : ¬ r.currentTerm < resp.term := by
      change resp.term < r.currentTerm at hstale
      omega
    refine iff_of_true ⟨_, rfl, ?_⟩ trivial
    rw [Raft.snapshotReplyEffect, if_neg hlt]
    -- the transfer ends, or goes on with the next chunk
    split <;> exact ⟨.refl r, .refl r, rfl, rfl, fun h ↦ absurd rfl (h t req resp)⟩
  | installSnapshot req disk =>
    obtain rfl := Option.some.inj hp
    refine inert_refused_iff (fun _ ↦ rfl) ?_
    rw [Raft.act, Raft.installSnapshotEffect, Raft.installSnapshot_of_stale hstale]
    rfl
  | _ => cases hp

/-- A leader of term 3, before it has written anything. -/
def sampleThird : Raft 3 Unit :=
  { newRaft 3 1000 () with currentTerm := 3, votedFor := some 0, currentRole := .leader }

theorem stale_message_inert_logRequest :
    ∃ e, sampleThird.act keepsNothing 0 (.logRequest ⟨1, 2, 0, 0, 0, [⟨2, samplePut 1⟩]⟩) = some e ∧
      e.state.log = [] ∧ e.state.currentRole = .leader ∧ e.threads = [] := by
  have hfits : FitsInt32 sampleThird.currentTerm := by decide
  obtain ⟨e, hact, h⟩ := (stale_message_inert_iff keepsNothing 0 sampleThird
    (.logRequest ⟨1, 2, 0, 0, 0, [⟨2, samplePut 1⟩]⟩) _ rfl (by decide)).mpr hfits
  exact ⟨e, hact, h.log.log, h.control.role, h.threads (by intro t req resp h; cases h)⟩

/-- In the run `secondVote` the request of term 1 takes node 2's vote of term 2 away, because it is
from the leader that node 2 follows.  A term that does not fit its field is no better: a reply of
term 5 ends the leadership of term `2 ^ 31`. -/
theorem stale_message_not_inert :
    (∃ c : Cluster 3 Unit, Reachable (Cluster.step keepsNothing) (Cluster.fresh 3) c ∧
      .voteRequest 2 ⟨0, 1, 0, 0⟩ ∈ c.network ∧ (c.raft 2).currentTerm = 2 ∧
        (c.raft 2).votedFor = some 0 ∧ (c.raft 2).currentLeaderId = some 0 ∧
        ((c.raft 2).voteRequest 2 ⟨0, 1, 0, 0⟩).1.votedFor = none ∧
        ((c.raft 2).voteRequest 2 ⟨0, 1, 0, 0⟩).1.currentLeaderId = none) ∧
    ∃ r : Raft 3 Unit, r.currentTerm = 2 ^ 31 ∧ r.currentRole = .leader ∧
      ∃ r', r.replicateResponse 0 1 ⟨1, 5, 0, false⟩ = some (r', []) ∧
        r'.currentTerm = 5 ∧ r'.currentRole = .follower :=
  ⟨exists_reaches_of_exec (secondVote.take 13) (by decide +kernel),
    { sampleThird with currentTerm := 2 ^ 31 }, rfl, rfl, _, rfl, rfl, rfl⟩

/-! ## Snapshots that cannot be installed -/

/-- The application keeps its state when it does not take a snapshot. -/
def Application.RejectsCleanly (app : Application σ) : Prop :=
  ∀ s bytes, (app.restoreFromSnapshot s bytes).2 = none → (app.restoreFromSnapshot s bytes).1 = s

namespace Raft

variable {disk : Disk} {req : InstallSnapshotRequest n}

/-- `InstallSnapshot` drops at least one entry of a log that has any. -/
theorem logAfterSnapshot_eq_log_iff : r.logAfterSnapshot req = r.log ↔ r.log = [] := by
  unfold logAfterSnapshot
  split
  · refine ⟨fun h ↦ ?_, fun h ↦ by rw [h, List.drop_nil]⟩
    have hlen := congrArg List.length h
    rw [List.length_drop] at hlen
    exact List.length_eq_zero_iff.mp (by omega)
  · exact eq_comm

theorem restoreSnapshot_rejected (happ : app.RejectsCleanly)
    (h : (r.restoreSnapshot app disk req).2 = false) :
    (r.restoreSnapshot app disk req).1 = { r with log := r.logAfterSnapshot req } := by
  unfold restoreSnapshot at h ⊢
  simp only at h ⊢
  split
  · rename_i bytes hfile hread
    simp only [hfile, hread] at h
    split
    · rename_i hsome
      rw [if_pos hsome] at h
      cases h
    · rename_i hnone
      simp only [happ _ bytes (Option.not_isSome_iff_eq_none.mp hnone)]
  · rfl

/-- An error comes from the write, which leaves the log alone, or from what follows the cut of the
log. -/
theorem installSnapshot_error (happ : app.RejectsCleanly)
    (herr : (r.installSnapshot app disk req).2 = none) : ∃ file,
    (r.installSnapshot app disk req).1 = { r.followSnapshot req with
      snapshotFile := file
      log :=
        if (writeSnapshotData r.snapshotFile req.data req.offset disk.write).2 then
          r.logAfterSnapshot req
        else r.log } := by
  unfold installSnapshot at herr ⊢
  simp only [followSnapshot_snapshotFile] at herr ⊢
  split at herr
  · cases herr
  rename_i hterm
  rw [if_neg hterm]
  cases hwritten : writeSnapshotData r.snapshotFile req.data req.offset disk.write with
  | mk file written =>
  refine ⟨file, ?_⟩
  cases written with
  | false => simp
  | true =>
    simp only [hwritten, if_true] at herr ⊢
    split at herr
    · rename_i hdone
      have hrejected := restoreSnapshot_rejected (r := { r.followSnapshot req with
        snapshotFile := file }) happ (by simpa using herr)
      rw [if_pos hdone, hrejected, logAfterSnapshot_congr (r := r) req (by simp) (by simp)]
    · cases herr

end Raft

/-- A snapshot that cannot be installed leaves the log, the snapshot's index and term, the commit
length and the application as they were exactly when the write failed or there was no log. -/
theorem failed_installSnapshot_unchanged_iff (app : Application σ) (happ : app.RejectsCleanly)
    (disk : Disk) (r : Raft n σ) (req : InstallSnapshotRequest n)
    (herr : (r.installSnapshot app disk req).2 = none) :
    (r.SameLog (r.installSnapshot app disk req).1 ∧
      (r.installSnapshot app disk req).1.application = r.application ∧
      ∀ p, (r.installSnapshot app disk req).1.entryAt p = r.entryAt p) ↔
    (writeSnapshotData r.snapshotFile req.data req.offset disk.write).2 = false ∨ r.log = [] := by
  obtain ⟨file, hstate⟩ := Raft.installSnapshot_error happ herr
  have hsnap : (r.installSnapshot app disk req).1.snapshotter = r.snapshotter := by
    rw [hstate]
    exact r.followSnapshot_snapshotter req
  have hcommit : (r.installSnapshot app disk req).1.commitedLength = r.commitedLength := by
    rw [hstate]
    exact r.followSnapshot_commitedLength req
  have happlication : (r.installSnapshot app disk req).1.application = r.application := by
    rw [hstate]
    exact r.followSnapshot_application req
  -- all depends on the log
  have hlog : (r.installSnapshot app disk req).1.log = r.log ↔
      (writeSnapshotData r.snapshotFile req.data req.offset disk.write).2 = false ∨ r.log = [] := by
    rw [hstate]
    cases (writeSnapshotData r.snapshotFile req.data req.offset disk.write).2 with
    | false => simp
    | true => simpa using Raft.logAfterSnapshot_eq_log_iff
  rw [← hlog]
  constructor
  · exact fun h ↦ h.1.log
  · intro h
    refine ⟨⟨h, hsnap, hcommit⟩, happlication, fun p ↦ ?_⟩
    rw [Raft.entryAt, Raft.entryAt, h, hsnap]

/-- An application that takes no snapshot. -/
def takesNothing : Application Unit :=
  { keepsNothing with restoreFromSnapshot := fun _ _ ↦ ((), none) }

/-- A follower with two committed entries. -/
def sampleTwoCommitted : Raft 2 Unit :=
  { newRaft 2 1000 () with
    currentTerm := 1
    log := [⟨1, samplePut 1⟩, ⟨1, samplePut 2⟩]
    commitedLength := 2 }

theorem failed_installSnapshot_unchanged_iff_write :
    (sampleTwoCommitted.installSnapshot takesNothing ⟨.openFails, true⟩
        ⟨1, 0, 0, 1, 0, [7], true⟩).1.log =
      sampleTwoCommitted.log :=
  ((failed_installSnapshot_unchanged_iff takesNothing (fun _ _ _ ↦ rfl) ⟨.openFails, true⟩
    sampleTwoCommitted ⟨1, 0, 0, 1, 0, [7], true⟩ rfl).mpr (Or.inl rfl)).1.log

/-- A file that cannot be read costs the follower its log; a snapshot that the application does not
take moves the second entry to the place of the first. -/
theorem failed_installSnapshot_changes :
    (∃ r, sampleTwoCommitted.installSnapshot takesNothing ⟨.succeeds, false⟩
        ⟨1, 0, 5, 1, 0, [7], true⟩ = (r, none) ∧
      r.log = [] ∧ r.snapshotter.lastIndex = 0 ∧ r.commitedLength = 2) ∧
    ∃ r, sampleTwoCommitted.installSnapshot takesNothing .healthy
        ⟨1, 0, 0, 1, 0, [7], true⟩ = (r, none) ∧
      r.entryAt 0 = sampleTwoCommitted.entryAt 1 ∧ r.entryAt 1 = none := by
  refine ⟨⟨_, rfl, ?_⟩, _, rfl, ?_⟩ <;> decide

end DistributedCache
