import DistributedCache.Raft.Election
import DistributedCache.Raft.Persistence

/-!
# Votes and terms across a crash

`VoteRequest` replies without waiting for the request it puts into the save queue, `startElection`
makes no such request, and `doSaveValues` leaves the metadata alone unless there are entries to
append.  A crash is harmless when the files hold the node's term and vote.
-/

namespace DistributedCache

open Network Transition

variable {n : Nat} {σ : Type} {app : Application σ} {i : Fin n} {r : Raft n σ} {a : Action n}
  {e : RaftEffect n σ}

/-! ## What has been written -/

/-- A node, and whether its term and vote are saved: a `doSaveValues` that has read them as they are
has written them, and none has emptied the metadata file since.  They are also saved as long as they
are those of a node that has never run. -/
structure SavedServer (n : Nat) (σ : Type) where
  server : Server n σ
  saved : Bool

namespace SavedServer

def savedAfter (s : SavedServer n σ) (c' : Server n σ) : ServerAction n → Bool
  | .handle _ => s.saved && decide (c'.raft.currentTerm = s.server.raft.currentTerm ∧
      c'.raft.votedFor = s.server.raft.votedFor)
  | .continueSave =>
    match s.server.saver.job with
    | some job =>
      match job.stage with
      -- `os.Create` empties the file
      | .createMetadata => false
      | .saveMetadata => job.metadata.term = s.server.raft.currentTerm ∧
          job.metadata.votedFor = s.server.raft.votedFor
      | _ => s.saved
    | none => s.saved
  | _ => s.saved

def step (app : Application σ) (application : σ) (i : Fin n) (s : SavedServer n σ)
    (a : ServerAction n) : Option (SavedServer n σ) :=
  (s.server.step app application i a).map fun c' ↦ ⟨c', s.savedAfter c' a⟩

def start (n : Nat) (snapshotThreshold : Int) (application : σ) : SavedServer n σ :=
  ⟨.start n snapshotThreshold application, true⟩

/-- The node crashes only when its term and vote are saved, and no other step makes it forget a vote
of its term. -/
def VotesDurable (i : Fin n) (s : SavedServer n σ) : ServerAction n → Prop
  | .handle a => s.server.raft.votesKept i a = true
  | .restart _ => s.saved = true
  | _ => True

instance (i : Fin n) (s : SavedServer n σ) : ∀ a, Decidable (VotesDurable i s a)
  | .handle _ | .restart _ => inferInstanceAs (Decidable (_ = _))
  | .saveValues | .takeRequest | .beginSave | .continueSave | .failSave _ => isTrue trivial

end SavedServer

/-- `NewRaft` finds the term and the vote that the node has, be it on disk or by default. -/
def Files.remembers (files : Files n) (r : Raft n σ) : Prop :=
  match files.loadValues with
  | some (metadata, _) => metadata.term = r.currentTerm ∧ metadata.votedFor = r.votedFor
  | none => r.currentTerm = 0 ∧ r.votedFor = none

/-- There is no metadata file without a log file. -/
def Files.Paired (files : Files n) : Prop := files.metadata.isSome = true → files.log.isSome = true

/-- Only the metadata file matters. -/
theorem Files.remembers.congr {files files' : Files n} (hold : files.remembers r)
    (hmetadata : files'.metadata = files.metadata) (h : files.Paired) (h' : files'.Paired) :
    files'.remembers r := by
  obtain ⟨log, metadata⟩ := files
  obtain ⟨log', metadata'⟩ := files'
  cases hmetadata
  cases metadata with
  | none => cases log <;> cases log' <;> exact hold
  | some metadata =>
    obtain ⟨logs, rfl⟩ := Option.isSome_iff_exists.mp (h rfl)
    obtain ⟨logs', rfl⟩ := Option.isSome_iff_exists.mp (h' rfl)
    cases metadata <;> exact hold

variable {c : Server n σ} {term : Int} {t : Thread n} {r' : Raft n σ}

theorem newRaftFrom_remembers (app : Application σ) (application : σ) (disk : Disk)
    (h : c.files.remembers c.raft) :
    (c.newRaftFrom app application disk).currentTerm = c.raft.currentTerm ∧
      (c.newRaftFrom app application disk).votedFor = c.raft.votedFor := by
  unfold Files.remembers at h
  unfold Server.newRaftFrom
  cases hload : c.files.loadValues with
  | none =>
    rw [hload] at h
    exact ⟨h.1.symm, h.2.symm⟩
  | some x =>
    rw [hload] at h
    exact h

/-- The term and the vote are on disk when they are saved. -/
structure SaveInv (s : SavedServer n σ) : Prop where
  paired : s.server.files.Paired
  opened : ∀ job, s.server.saver.job = some job → job.stage ≠ .openLog →
    s.server.files.log.isSome = true
  saved : s.saved = true → s.server.files.remembers s.server.raft

namespace SaveInv

variable {s s' : SavedServer n σ} {c' : Server n σ} {application : σ}

/-- A step that leaves the files alone. -/
theorem of_files (h : SaveInv s) {saved : Bool} (hfiles : c'.files = s.server.files)
    (hjob : ∀ job, c'.saver.job = some job → job.stage = .openLog ∨ s.server.saver.job = some job)
    (hsaved : saved = true → s.server.files.remembers c'.raft) : SaveInv ⟨c', saved⟩ := by
  refine ⟨?_, fun job hrunning hstage ↦ ?_, fun hs ↦ ?_⟩
  · show c'.files.Paired
    rw [hfiles]
    exact h.paired
  · show c'.files.log.isSome = true
    rw [hfiles]
    exact h.opened job ((hjob job hrunning).resolve_left hstage) hstage
  · show c'.files.remembers c'.raft
    rw [hfiles]
    exact hsaved hs

theorem continueSave (h : SaveInv s)
    (hstep : s.step app application i .continueSave = some s') : SaveInv s' := by
  obtain ⟨c', hc', rfl⟩ := Option.map_eq_some_iff.mp hstep
  obtain ⟨⟨idx, metadata, logCopy, stage⟩, hjob, rfl⟩ := Option.map_eq_some_iff.mp hc'
  have hopened := h.opened _ hjob
  cases stage with
  | openLog | saveLog =>
    refine ⟨fun _ ↦ rfl, fun _ _ _ ↦ rfl, fun hs ↦ ?_⟩
    simp only [SavedServer.savedAfter, hjob] at hs
    exact (h.saved hs).congr rfl h.paired fun _ ↦ rfl
  | createMetadata =>
    have hlog := hopened (by simp)
    refine ⟨fun _ ↦ hlog, fun _ _ _ ↦ hlog, fun hs ↦ ?_⟩
    simp only [SavedServer.savedAfter, hjob, Bool.false_eq_true] at hs
  | saveMetadata =>
    have hlog := hopened (by simp)
    refine ⟨fun _ ↦ hlog, fun _ _ _ ↦ hlog, fun hs ↦ ?_⟩
    simp only [SavedServer.savedAfter, hjob, decide_eq_true_eq] at hs
    obtain ⟨logs, hlogs⟩ := Option.isSome_iff_exists.mp hlog
    simp only [SaveStage.next, Files.write, Files.remembers, Files.loadValues, hlogs]
    exact hs
  | finish =>
    refine h.of_files rfl (fun job hrunning ↦ ?_) fun hs ↦ ?_
    · simp only [SaveStage.next, DataSaver.job_finishSave] at hrunning
      cases hrunning
    · simp only [SavedServer.savedAfter, hjob] at hs
      exact h.saved hs

theorem step (h : SaveInv s) {x : ServerAction n}
    (hstep : s.step app application i x = some s') : SaveInv s' := by
  obtain ⟨c', hc', rfl⟩ := Option.map_eq_some_iff.mp hstep
  cases x with
  | handle a =>
    obtain ⟨-, -, e, -, rfl⟩ := Server.handle_cases hc'
    refine h.of_files rfl (fun job hrunning ↦ ?_) fun hs ↦ ?_
    · dsimp only [Server.apply] at hrunning
      split at hrunning <;> exact Or.inr hrunning
    · obtain ⟨hsaved, hsame⟩ := Bool.and_eq_true_iff.mp hs
      obtain ⟨hterm, hvote⟩ := of_decide_eq_true hsame
      have hold := h.saved hsaved
      unfold Files.remembers at hold ⊢
      rwa [hterm, hvote]
  | saveValues =>
    obtain ⟨-, hc'⟩ := Option.ite_none_right_eq_some.mp hc'
    cases hc'
    refine h.of_files rfl (fun job hrunning ↦ ?_) h.saved
    rw [DataSaver.job_enqueue] at hrunning
    exact Or.inr hrunning
  | takeRequest =>
    obtain ⟨saver, htake, rfl⟩ := Option.map_eq_some_iff.mp hc'
    obtain ⟨-, htake⟩ := Option.ite_none_right_eq_some.mp htake
    cases htake
    exact h.of_files rfl (fun job hrunning ↦ Or.inr hrunning) h.saved
  | beginSave =>
    obtain ⟨-, hc'⟩ := Option.ite_none_right_eq_some.mp hc'
    cases hc'
    refine h.of_files rfl (fun job hrunning ↦ ?_) h.saved
    obtain ⟨-, hrunning⟩ := Option.ite_none_left_eq_some.mp hrunning
    cases hrunning
    exact Or.inl rfl
  | continueSave => exact h.continueSave hstep
  | failSave written =>
    obtain ⟨job, hjob, rfl⟩ := Option.map_eq_some_iff.mp hc'
    have hpaired : (s.server.files.writeFailed job written).Paired := by
      unfold Files.writeFailed
      split
      · exact fun _ ↦ rfl
      · exact h.paired
    have hmetadata : (s.server.files.writeFailed job written).metadata =
        s.server.files.metadata := by
      unfold Files.writeFailed
      split <;> rfl
    refine ⟨hpaired, fun _ hrunning ↦ ?_, fun hs ↦ ?_⟩
    · cases hrunning
    · exact (h.saved hs).congr hmetadata h.paired hpaired
  | restart disk =>
    cases hc'
    refine h.of_files rfl (fun job hrunning ↦ by cases hrunning) fun hs ↦ ?_
    have hold := h.saved hs
    obtain ⟨hterm, hvote⟩ := newRaftFrom_remembers app application disk hold
    show s.server.files.remembers (s.server.newRaftFrom app application disk)
    unfold Files.remembers at hold ⊢
    rwa [hterm, hvote]

end SaveInv

/-! ## The terms a node sends -/

/-- The snapshot transfer that a thread is in the middle of. -/
def Thread.transfer? : Thread n → Option (Transfer n)
  | .openSnapshot t => some t
  | .readChunk t => some t
  | .awaitReply t _ => some t
  | _ => none

/-- Every transfer was started in a term that the node has reached. -/
def TransfersBound (term : Int) (ts : List (Thread n)) : Prop :=
  ∀ t ∈ ts, ∀ x ∈ t.transfer?, 0 ≤ x.currentTerm ∧ x.currentTerm ≤ term

theorem TransfersBound.none {ts : List (Thread n)} (h : ∀ t ∈ ts, t.transfer? = none) :
    TransfersBound term ts := by
  intro t ht x hx
  rw [h t ht] at hx
  cases hx

theorem TransfersBound.singleton (h : ∀ x ∈ t.transfer?, 0 ≤ x.currentTerm ∧ x.currentTerm ≤ term) :
    TransfersBound term [t] := by
  intro t' ht'
  rwa [List.mem_singleton.mp ht']

theorem TransfersBound.mono {term' : Int} {ts : List (Thread n)} (h : TransfersBound term ts)
    (hle : term ≤ term') : TransfersBound term' ts :=
  fun t ht x hx ↦ ⟨(h t ht x hx).1, (h t ht x hx).2.trans hle⟩

/-- No message carries a term that its sender has not reached. -/
def SentWithin (term : Int) (ps : List (Packet n)) : Prop := ∀ p ∈ ps, p.term ≤ term

theorem SentWithin.nil : SentWithin term ([] : List (Packet n)) := by
  intro p hp
  cases hp

theorem SentWithin.singleton {p : Packet n} (h : p.term ≤ term) : SentWithin term [p] := by
  intro q hq
  rwa [List.mem_singleton.mp hq]

theorem within_quiet :
    SentWithin r'.currentTerm r'.quiet.packets ∧ TransfersBound r'.currentTerm r'.quiet.threads :=
  ⟨.nil, .none (by simp [Raft.quiet])⟩

theorem within_spawn (h : ∀ x ∈ t.transfer?, 0 ≤ x.currentTerm ∧ x.currentTerm ≤ term) :
    SentWithin term (r'.spawn t).packets ∧ TransfersBound term (r'.spawn t).threads :=
  ⟨.nil, .singleton h⟩

theorem within_spawn_other (h : t.transfer? = none) :
    SentWithin term (r'.spawn t).packets ∧ TransfersBound term (r'.spawn t).threads := by
  refine within_spawn fun x hx ↦ ?_
  rw [h] at hx
  cases hx

/-- What an action sends and leaves behind is of terms that the node has reached. -/
theorem act_within (hact : r.act app i a = some e) (h0 : 0 ≤ r.currentTerm)
    (hmono : r.currentTerm ≤ e.state.currentTerm)
    (hthread : ∀ t ∈ a.thread, ∀ x ∈ t.transfer?,
      0 ≤ x.currentTerm ∧ x.currentTerm ≤ r.currentTerm) :
    SentWithin e.state.currentTerm e.packets ∧ TransfersBound e.state.currentTerm e.threads := by
  cases a with
  | electionTimeout =>
    obtain rfl := Raft.act_electionTimeout hact
    exact within_spawn_other rfl
  | startElection =>
    obtain rfl := Option.some.inj hact
    refine ⟨fun p hp ↦ ?_, .none (by simp [Raft.startElectionEffect])⟩
    obtain ⟨j, -, rfl⟩ := List.mem_map.mp hp
    exact int32_le (x := r.currentTerm + 1) (by omega)
  | voteRequest args =>
    obtain rfl := Option.some.inj hact
    have hterm : (r.beforeVote args).currentTerm = max r.currentTerm args.candidateTerm :=
      Raft.beforeVote_term
    have hle : int32 (r.beforeVote args).currentTerm ≤ (r.beforeVote args).currentTerm :=
      int32_le (by omega)
    refine ⟨.singleton ?_, .none (by simp [Raft.voteRequestEffect])⟩
    simp only [Raft.voteRequestEffect, Raft.voteRequest, Packet.term]
    split <;> exact hle
  | receiveVote vote =>
    obtain rfl := Option.some.inj hact
    exact ⟨.nil, .none (by simp [Raft.receiveVoteEffect])⟩
  | getLeaderData m =>
    obtain ⟨-, rfl⟩ := Raft.act_getLeaderData hact
    exact within_spawn_other rfl
  | broadcast | forward | checkQuorumHealth | replicateAnswered | finishTransfer =>
    obtain rfl := Option.some.inj hact
    exact within_quiet
  | replicate f =>
    obtain ⟨-, rfl⟩ := Raft.act_replicate hact
    exact within_spawn_other (by split <;> rfl)
  | replicateFailed f current =>
    obtain rfl := Option.some.inj hact
    exact within_spawn_other rfl
  | prepareLogRequestArgs f =>
    obtain rfl := Option.some.inj hact
    refine ⟨.singleton ?_, .none fun t ht ↦ ?_⟩
    · change (r.prepareLogRequestArgs i f).term ≤ r.currentTerm
      rw [Raft.prepareLogRequestArgs_term]
      exact int32_le h0
    · obtain rfl := List.mem_singleton.mp (List.mem_ite_nil_right.mp ht).2
      rfl
  | logRequest args =>
    obtain rfl := Option.some.inj hact
    simp only [Raft.logRequestEffect] at hmono ⊢
    split
    · exact within_spawn_other rfl
    · rename_i hreject
      rw [if_neg hreject] at hmono
      exact ⟨.singleton (int32_le (h0.trans hmono)), .none (by simp)⟩
  | appendEntries args disk =>
    obtain ⟨⟨r', ds⟩, happ, rfl⟩ := Option.map_eq_some_iff.mp hact
    exact ⟨.nil, .none (by simp [Thread.transfer?])⟩
  | logReply args =>
    obtain rfl := Option.some.inj hact
    exact ⟨.singleton (int32_le h0), .none (by simp)⟩
  | replicateResponse f req resp =>
    obtain ⟨⟨r', ds⟩, hresp, rfl⟩ := Option.map_eq_some_iff.mp hact
    refine ⟨.nil, .none fun t ht ↦ ?_⟩
    obtain rfl := List.mem_singleton.mp (List.mem_ite_nil_left.mp ht).2
    rfl
  | sendInstallSnapshotRPC f =>
    obtain rfl := Option.some.inj hact
    refine within_spawn fun x hx ↦ ?_
    obtain rfl := Option.some.inj hx
    exact ⟨h0, le_rfl⟩
  | openSnapshot t =>
    obtain ⟨bytes, -, rfl⟩ := Option.map_eq_some_iff.mp hact
    refine within_spawn fun x hx ↦ ?_
    obtain rfl := Option.some.inj hx
    exact hthread _ rfl t rfl
  | readChunk t =>
    obtain rfl := Option.some.inj hact
    obtain ⟨hnonneg, hle⟩ := hthread _ rfl t rfl
    unfold Raft.readChunkEffect
    simp only
    split
    · exact within_spawn_other rfl
    · refine ⟨.singleton ((int32_le hnonneg).trans hle), .singleton fun x hx ↦ ?_⟩
      obtain rfl := Option.some.inj hx
      exact ⟨hnonneg, hle⟩
  | snapshotReply t req resp =>
    obtain rfl := Option.some.inj hact
    unfold Raft.snapshotReplyEffect
    split
    · exact within_quiet
    split
    · exact within_spawn_other rfl
    · refine within_spawn fun x hx ↦ ?_
      obtain rfl := Option.some.inj hx
      exact hthread _ rfl t rfl
  | installSnapshot req disk =>
    obtain rfl := Option.some.inj hact
    refine ⟨fun p hp ↦ ?_, .none (by simp [Raft.installSnapshotEffect])⟩
    obtain ⟨reply, hreply, rfl⟩ := List.mem_map.mp hp
    have hterm := (Raft.installSnapshot_outcome app disk r req).reply_term
      (Option.mem_toList.mp hreply)
    change reply.term ≤ _
    rw [hterm]
    exact (int32_le h0).trans hmono
  | deliver batch =>
    obtain ⟨d, rest, rfl, rfl⟩ := Raft.act_deliver hact
    refine ⟨.nil, .none fun t ht ↦ ?_⟩
    obtain rfl := List.mem_singleton.mp (List.mem_ite_nil_left.mp ht).2
    rfl

/-! ## Runs with crashes -/

structure DurableInv (i : Fin n) (c : Server n σ) : Prop where
  nonneg : 0 ≤ c.raft.currentTerm
  bound : c.raft.currentTerm < 2 ^ 31
  voted : BoundByVote c.history i c.raft
  once : VotesOnce c.history
  sent : SentWithin c.raft.currentTerm c.sent
  transfers : TransfersBound c.raft.currentTerm c.threads

/-- Nothing is claimed of the data saver and of the files. -/
theorem DurableInv.of_sameNode {c' : Server n σ} (h : DurableInv i c) (hsame : c.SameNode c') :
    DurableInv i c' := by
  obtain ⟨h1, h2, h3, h4, h5, h6⟩ := h
  obtain ⟨hraft, hthreads, hsent, hhistory⟩ := hsame
  exact ⟨by rwa [hraft], by rwa [hraft], by rwa [hraft, hhistory], by rwa [hhistory],
    by rwa [hraft, hsent], by rwa [hraft, hthreads]⟩

theorem DurableInv.handle {c' : Server n σ} (h : DurableInv i c)
    (hkept : c.raft.votesKept i a = true) (hstep : c.handle app i a = some c') :
    DurableInv i c' := by
  obtain ⟨hthread, hfits, e, hact, rfl⟩ := Server.handle_cases hstep
  have hcase := Raft.act_election hact
  have hmono := (vote_stable hcase hkept h.nonneg h.bound).1
  obtain ⟨hsent, htransfers⟩ := act_within hact h.nonneg hmono
    fun t ht x hx ↦ h.transfers t (hthread t ht) x hx
  refine
    { nonneg := h.nonneg.trans hmono
      bound := term_bounded hcase hkept h.nonneg h.bound hfits
      voted := h.voted.append hcase hkept h.nonneg h.bound
      once := votesOnce_append hcase hkept h.nonneg h.bound h.voted h.once
      sent := fun p hp ↦ ?_
      transfers := fun t ht ↦ ?_ }
  · rcases List.mem_append.mp hp with hold | hnew
    · exact (h.sent p hold).trans hmono
    · exact hsent p hnew
  · rcases List.mem_append.mp ht with hold | hnew
    · exact (h.transfers.mono hmono) t (mem_of_mem_remove hold)
    · exact htransfers t hnew

theorem DurableInv.step {c' : Server n σ} {application : σ} {x : ServerAction n}
    (h : DurableInv i c) (hkept : ∀ a, x = .handle a → c.raft.votesKept i a = true)
    (hsaved : ∀ disk, x = .restart disk → c.files.remembers c.raft)
    (hstep : Server.step app application i c x = some c') : DurableInv i c' := by
  cases Server.step_cases hstep with
  | handled hhandle => exact h.handle (hkept _ rfl) hhandle
  | saver hsame => exact h.of_sameNode hsame
  | restarted disk =>
    obtain ⟨hterm, hvote⟩ : (c.newRaftFrom app application disk).currentTerm =
        c.raft.currentTerm ∧ (c.newRaftFrom app application disk).votedFor = c.raft.votedFor :=
      newRaftFrom_remembers app application disk (hsaved disk rfl)
    refine
      { nonneg := hterm ▸ h.nonneg
        bound := hterm ▸ h.bound
        voted := fun v t hv ↦ ?_
        once := h.once
        sent := hterm ▸ h.sent
        transfers := .none (by simp [Server.restart]) }
    change t ≤ (c.newRaftFrom app application disk).currentTerm ∧
      (t = (c.newRaftFrom app application disk).currentTerm →
        (c.newRaftFrom app application disk).votedFor = some v)
    rw [hterm, hvote]
    exact h.voted v t hv

/-- In a run in which the node crashes only when `doSaveValues` has written its term and vote, it
votes once in a term, and it always is in a term at least as high as every term it has told. -/
theorem votes_survive_crash (app : Application σ) (application : σ) (i : Fin n)
    (snapshotThreshold : Int) {s : SavedServer n σ}
    (hrun : Reaches (SavedServer.step app application i) (SavedServer.VotesDurable i)
      (SavedServer.start n snapshotThreshold application) s) :
    (∀ a b t, Voted s.server.history i a t → Voted s.server.history i b t → a = b) ∧
      ∀ p ∈ s.server.sent, p.term ≤ s.server.raft.currentTerm := by
  have hinv : SaveInv s ∧ DurableInv i s.server := by
    refine hrun.invariant (fun s ↦ SaveInv s ∧ DurableInv i s.server) ⟨?_, ?_⟩ ?_
    · refine ⟨fun h ↦ ?_, fun _ h ↦ ?_, fun _ ↦ ⟨rfl, rfl⟩⟩
      · cases h
      · cases h
    · exact
        { nonneg := le_rfl
          bound := Int.pow_pos (by decide)
          voted := fun _ _ hv ↦ absurd hv (not_voted (by simp [SavedServer.start, Server.start]))
          once := fun _ _ _ _ hv ↦
            absurd hv (not_voted (by simp [SavedServer.start, Server.start]))
          sent := .nil
          transfers := .none (by simp [SavedServer.start, Server.start]) }
    · intro t x t' _ h hkept hstep
      refine ⟨h.1.step hstep, ?_⟩
      obtain ⟨c', hc', rfl⟩ := Option.map_eq_some_iff.mp hstep
      refine h.2.step ?_ ?_ hc'
      · rintro a rfl
        exact hkept
      · rintro disk rfl
        exact h.1.saved hkept
  exact ⟨fun a b t ha hb ↦ hinv.2.once i a b t ha hb, hinv.2.sent⟩

/-- Node 1 votes for node 0 and appends an entry; that is saved before the crash.  Afterwards node 2
asks for a vote of the same term. -/
def savedVote : List (ServerAction 3) :=
  [.handle (.voteRequest ⟨0, 1, 0, 0⟩), .handle (.logRequest ⟨0, 1, 0, 0, 0, [⟨1, samplePut 1⟩]⟩),
    .handle (.appendEntries ⟨0, 1, 0, 0, 0, [⟨1, samplePut 1⟩]⟩ .healthy),
    .handle (.logReply ⟨0, 1, 0, 0, 0, [⟨1, samplePut 1⟩]⟩), .saveValues, .takeRequest, .beginSave,
    .continueSave, .continueSave, .continueSave, .continueSave, .continueSave, .restart .healthy,
    .handle (.voteRequest ⟨2, 1, 1, 1⟩)]

theorem votes_survive_crash_savedVote : ∃ s : SavedServer 3 Unit,
    Reaches (SavedServer.step keepsNothing () 1) (SavedServer.VotesDurable 1)
        (SavedServer.start 3 1000 ()) s ∧
      .voteResponse 0 ⟨1, 1, true⟩ ∈ s.server.sent ∧ 1 ≤ s.server.raft.currentTerm ∧
      ∀ b, Voted s.server.history 1 b 1 → b = 0 := by
  obtain ⟨s, hrun, hvote, hsent⟩ : ∃ s : SavedServer 3 Unit,
      Reaches (SavedServer.step keepsNothing () 1) (SavedServer.VotesDurable 1)
          (SavedServer.start 3 1000 ()) s ∧
        .granted 1 ⟨0, 1, 0, 0⟩ 0 0 ∈ s.server.history ∧
        .voteResponse 0 ⟨1, 1, true⟩ ∈ s.server.sent :=
    exists_reaches_of_exec savedVote (by decide +kernel)
  obtain ⟨honce, hwithin⟩ := votes_survive_crash keepsNothing () 1 1000 hrun
  exact ⟨s, hrun, hsent, hwithin _ hsent, fun b hb ↦
    honce b 0 1 hb (Or.inl ⟨_, _, _, hvote, rfl, rfl⟩)⟩

/-- Node 2 votes for node 0 in term 1.  The request to save this is carried out and saves nothing,
since the log is empty; after a crash the node is back in term 0. -/
def unsavedVote : List (ServerAction 3) :=
  [.handle (.voteRequest ⟨0, 1, 0, 0⟩), .saveValues, .takeRequest, .beginSave, .restart .healthy]

theorem vote_lost_in_crash :
    (∃ c : Server 3 Unit,
      Reachable (Server.step keepsNothing () 2) (Server.start 3 1000 ()) c ∧
        .granted 2 ⟨0, 1, 0, 0⟩ 0 0 ∈ c.history ∧ .granted 2 ⟨1, 1, 0, 0⟩ 0 0 ∈ c.history) ∧
    ∃ c : Server 3 Unit,
      Reachable (Server.step keepsNothing () 2) (Server.start 3 1000 ()) c ∧
        .voteResponse 0 ⟨2, 1, true⟩ ∈ c.sent ∧ c.raft.currentTerm = 0 :=
  ⟨exists_reaches_of_exec (unsavedVote ++ [.handle (.voteRequest ⟨1, 1, 0, 0⟩)])
      (by decide +kernel),
    exists_reaches_of_exec unsavedVote (by decide +kernel)⟩

end DistributedCache
