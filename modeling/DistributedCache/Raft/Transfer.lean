import DistributedCache.Raft.AppliedPrefix
import DistributedCache.Raft.Cluster

/-!
# One undisturbed transfer of a snapshot

`sendInstallSnapshotRPC` of the leader and `InstallSnapshot` of the follower take turns, and nothing
else happens on the two nodes.  The size of the chunks is a parameter here.  The follower puts the
chunks together by their offsets and restores the whole snapshot once.  An empty file is the
exception: the leader sends nothing and takes the snapshot for installed.
-/

namespace DistributedCache

open Network Transition

variable {n : Nat} {σ : Type}

/-! ## The chunks of a file -/

theorem writeAt_end {bytes data : List UInt8} {k : Nat} (hk : bytes.length = k) :
    writeAt bytes data k = bytes ++ data := by
  subst hk
  unfold writeAt
  split
  · rename_i hnil
    rw [hnil, List.append_nil]
  · rw [List.take_length, Nat.sub_self, List.replicate_zero, List.append_nil,
      List.drop_eq_nil_of_le (by omega), List.append_nil]

/-- The next chunk extends the part of the file that is there. -/
theorem writeSnapshotData_next {bytes data : List UInt8} {file : Option (List UInt8)} {k : Nat}
    (hk : k ≤ bytes.length) (hfile : 0 < k → file = some (bytes.take k))
    (hdata : data <+: bytes.drop k) :
    writeSnapshotData file data k .succeeds = (some (bytes.take (k + data.length)), true) := by
  have hopen : openForWriting file k = some (bytes.take k) := by
    unfold openForWriting
    split
    · rename_i hzero
      rw [Int.natCast_eq_zero.mp hzero, List.take_zero]
    · exact hfile (by omega)
  have hwrite : writeAt (bytes.take k) data k = bytes.take (k + data.length) := by
    rw [writeAt_end (List.length_take_of_le hk), List.take_add,
      ← List.prefix_iff_eq_take.mp hdata]
  simp only [writeSnapshotData, hopen, Int.toNat_natCast, hwrite]
  exact if_neg (by omega)

namespace Raft

variable {app : Application σ} {disk : Disk} {r : Raft n σ} {req : InstallSnapshotRequest n}

/-- `readChunk` with chunks of any size. -/
def readChunkOf (size : Nat) (r : Raft n σ) (t : Transfer n) : List UInt8 :=
  ((r.snapshotFile.getD []).drop t.offset).take size

def readChunkEffectOf (size : Nat) (r : Raft n σ) (i : Fin n) (t : Transfer n) : RaftEffect n σ :=
  let data := r.readChunkOf size t
  if data = [] then r.spawn (.finishTransfer t)
  else
    let req := chunkRequest i t data
    ⟨r, [.awaitReply t req], [.installSnapshot t.followerId req], []⟩

theorem readChunkEffectOf_chunkSize (r : Raft n σ) (i : Fin n) (t : Transfer n) :
    r.readChunkEffectOf chunkSize i t = r.readChunkEffect i t := rfl

/-- The bytes with which `InstallSnapshot` calls `RestoreFromSnapshot`, if it does. -/
def restoreCall (disk : Disk) (r : Raft n σ) (req : InstallSnapshotRequest n) :
    Option (List UInt8) :=
  if req.leaderTerm < r.currentTerm then none
  else
    let (file, written) := writeSnapshotData r.snapshotFile req.data req.offset disk.write
    if written ∧ req.done ∧ disk.readSucceeds then file else none

/-- The application changes by that call only. -/
theorem installSnapshot_application (app : Application σ) (disk : Disk) (r : Raft n σ)
    (req : InstallSnapshotRequest n) :
    (r.installSnapshot app disk req).1.application =
      (r.restoreCall disk req).elim r.application fun bytes ↦
        (app.restoreFromSnapshot r.application bytes).1 := by
  unfold installSnapshot restoreCall
  by_cases hterm : req.leaderTerm < r.currentTerm
  · simp only [if_pos hterm, Option.elim_none]
  simp only [if_neg hterm, followSnapshot_snapshotFile]
  cases hwritten : writeSnapshotData r.snapshotFile req.data req.offset disk.write with
  | mk file written =>
  cases written with
  | false => simp
  | true =>
    cases hdone : req.done with
    | false => simp
    | true =>
      unfold restoreSnapshot
      cases file with
      | none => simp
      | some bytes =>
        cases disk.readSucceeds with
        | false => simp
        | true =>
          simp only [followSnapshot_application, and_self, if_true, Option.elim_some]
          split <;> rfl

theorem followSnapshot_term (h : r.currentTerm ≤ req.leaderTerm) :
    (r.followSnapshot req).currentTerm = req.leaderTerm := by
  unfold followSnapshot
  split
  · rfl
  · change r.currentTerm = req.leaderTerm
    omega

/-- A chunk that is not the last one only goes to the file. -/
theorem installSnapshot_chunk (app : Application σ) {file : Option (List UInt8)}
    (hterm : r.currentTerm ≤ req.leaderTerm)
    (hwritten : writeSnapshotData r.snapshotFile req.data req.offset disk.write = (file, true))
    (hmore : req.done = false) :
    r.installSnapshot app disk req =
      ({ r.followSnapshot req with snapshotFile := file }, some ⟨int32 r.currentTerm⟩) := by
  have hold : ¬ req.leaderTerm < r.currentTerm := by omega
  simp [installSnapshot, hold, hwritten, hmore]

/-- After the last one the file is restored. -/
theorem installSnapshot_last {bytes : List UInt8} (hterm : r.currentTerm ≤ req.leaderTerm)
    (hwritten : writeSnapshotData r.snapshotFile req.data req.offset disk.write =
      (some bytes, true)) (hdone : req.done = true) (hread : disk.readSucceeds = true)
    (haccept : (app.restoreFromSnapshot r.application bytes).2.isSome) :
    (r.installSnapshot app disk req).2 = some ⟨int32 r.currentTerm⟩ := by
  have hold : ¬ req.leaderTerm < r.currentTerm := by omega
  simp [installSnapshot, restoreSnapshot, hold, hwritten, hdone, hread, haccept]

end Raft

/-! ## The two nodes of a transfer -/

/-- A running transfer. -/
structure Session (n : Nat) (σ : Type) where
  leader : Raft n σ
  follower : Raft n σ
  /-- What `sendInstallSnapshotRPC` does next; `none` when it has returned. -/
  pending : Option (Thread n)
  /-- The calls of `RestoreFromSnapshot` on the follower. -/
  restored : List (List UInt8)

namespace Session

/-- `sendInstallSnapshotRPC` is called for `f`. -/
def call (leader follower : Raft n σ) (f : Fin n) : Session n σ :=
  ⟨leader, follower, some (.sendInstallSnapshotRPC f), []⟩

/-- The leader's goroutine takes its next step, or returns where there is none. -/
def proceed (s : Session n σ) (effect : Option (RaftEffect n σ)) : Session n σ :=
  match effect with
  | some e => { s with leader := e.state, pending := e.threads.head? }
  | none => { s with pending := none }

def step (app : Application σ) (size : Nat) (i : Fin n) (s : Session n σ) (_ : Unit) :
    Option (Session n σ) :=
  match s.pending with
  | some (.sendInstallSnapshotRPC f) =>
    some (s.proceed (s.leader.act app i (.sendInstallSnapshotRPC f)))
  | some (.openSnapshot t) => some (s.proceed (s.leader.act app i (.openSnapshot t)))
  | some (.readChunk t) => some (s.proceed (some (s.leader.readChunkEffectOf size i t)))
  | some (.awaitReply t req) =>
    -- the follower handles the request and its reply reaches the leader
    let (follower, reply) := s.follower.installSnapshot app .healthy req
    let s' :=
      { s with
        follower := follower
        restored := s.restored ++ (s.follower.restoreCall .healthy req).toList }
    some (s'.proceed (reply.bind fun resp ↦ s.leader.act app i (.snapshotReply t req resp)))
  | some (.finishTransfer t) => some (s.proceed (s.leader.act app i (.finishTransfer t)))
  | _ => none

/-- A bound on the steps that are left. -/
def remaining (s : Session n σ) : Nat :=
  match s.pending with
  | some (.sendInstallSnapshotRPC _) => 2 * (s.leader.snapshotFile.getD []).length + 4
  | some (.openSnapshot _) => 2 * (s.leader.snapshotFile.getD []).length + 3
  | some (.readChunk t) => 2 * (t.totalSize - t.offset) + 2
  | some (.awaitReply t _) => 2 * (t.totalSize - t.offset) + 1
  | some (.finishTransfer _) => 1
  | _ => 0

end Session

/-! ## What holds throughout -/

section

variable {app : Application σ} {size : Nat} {i f : Fin n} {leader follower r : Raft n σ}
  {bytes : List UInt8} {k : Nat} {s : Session n σ}

/-- The local variables of the transfer when the first `k` bytes are sent. -/
def transferAt (leader : Raft n σ) (f : Fin n) (bytes : List UInt8) (k : Nat) : Transfer n :=
  { leader.sendInstallSnapshotRPC f with totalSize := bytes.length, offset := k }

/-- The request carries the chunk at `k`. -/
structure NextChunk (size : Nat) (leader : Raft n σ) (bytes : List UInt8) (k : Nat)
    (req : InstallSnapshotRequest n) : Prop where
  term : req.leaderTerm = int32 leader.currentTerm
  offset : req.offset = k
  data : req.data = (bytes.drop k).take size
  done : req.done = decide (bytes.length ≤ k + req.data.length)

theorem nextChunk_chunkRequest (size : Nat) (i f : Fin n) (leader : Raft n σ) (bytes : List UInt8)
    (hk : (k : Int) < 2 ^ 31) :
    NextChunk size leader bytes k
      (Raft.chunkRequest i (transferAt leader f bytes k) ((bytes.drop k).take size)) where
  term := rfl
  offset := by
    simp only [Raft.chunkRequest, transferAt]
    exact int32_eq_self ⟨by omega, by omega⟩
  data := rfl
  done := rfl

theorem readChunkOf_transferAt (size : Nat) (f : Fin n) (k : Nat)
    (hfile : leader.snapshotFile = some bytes) :
    leader.readChunkOf size (transferAt leader f bytes k) = (bytes.drop k).take size := by
  rw [Raft.readChunkOf, hfile]
  rfl

/-- Before the end of the file there is something to read. -/
theorem take_drop_ne_nil (hsize : 0 < size) (hk : k < bytes.length) :
    (bytes.drop k).take size ≠ [] := by
  intro hnil
  have hlen := congrArg List.length hnil
  rw [List.length_take, List.length_drop, List.length_nil] at hlen
  omega

/-- No answer of the follower is of a newer term than the leader's.  From the second on they are of
the term that the requests have. -/
def AnswersOld (size : Nat) (leader follower : Raft n σ) (bytes : List UInt8) : Prop :=
  int32 follower.currentTerm ≤ leader.currentTerm ∧
    (bytes.length ≤ size ∨ int32 leader.currentTerm ≤ leader.currentTerm)
deriving Decidable

/-- The follower has stored the first `k` bytes and nothing else has happened to it. -/
structure StoredUpTo (size : Nat) (leader follower : Raft n σ) (bytes : List UInt8) (k : Nat)
    (r : Raft n σ) : Prop where
  term : r.currentTerm = if k = 0 then follower.currentTerm else int32 leader.currentTerm
  application : r.application = follower.application
  file : 0 < k → r.snapshotFile = some (bytes.take k)
  answered : 0 < k → int32 follower.currentTerm ≤ leader.currentTerm ∧ size < bytes.length

/-- The states of an undisturbed transfer to a follower that does not refuse it. -/
inductive TransferState (app : Application σ) (size : Nat) (f : Fin n) (leader follower : Raft n σ)
    (bytes : List UInt8) : Session n σ → Prop
  | called : TransferState app size f leader follower bytes (.call leader follower f)
  | opening : TransferState app size f leader follower bytes
      ⟨leader, follower, some (.openSnapshot (leader.sendInstallSnapshotRPC f)), []⟩
  | reading {k : Nat} {r : Raft n σ} (hk : k < bytes.length)
      (h : StoredUpTo size leader follower bytes k r) :
    TransferState app size f leader follower bytes
      ⟨leader, r, some (.readChunk (transferAt leader f bytes k)), []⟩
  | awaiting {k : Nat} {r : Raft n σ} {req : InstallSnapshotRequest n} (hk : k < bytes.length)
      (h : StoredUpTo size leader follower bytes k r) (hreq : NextChunk size leader bytes k req) :
    TransferState app size f leader follower bytes
      ⟨leader, r, some (.awaitReply (transferAt leader f bytes k) req), []⟩
  | finishing {k : Nat} {r : Raft n σ} (hold : AnswersOld size leader follower bytes)
      (happ : r.application = (app.restoreFromSnapshot follower.application bytes).1) :
    TransferState app size f leader follower bytes
      ⟨leader, r, some (.finishTransfer (transferAt leader f bytes k)), [bytes]⟩
  | finished {r : Raft n σ} (hold : AnswersOld size leader follower bytes)
      (happ : r.application = (app.restoreFromSnapshot follower.application bytes).1) :
    TransferState app size f leader follower bytes
      ⟨leader.finishTransfer (leader.sendInstallSnapshotRPC f), r, none, [bytes]⟩
  | gaveUp {leader' r : Raft n σ} {restored : List (List UInt8)}
      (hnewer : ¬ AnswersOld size leader follower bytes)
      (hterm : leader'.currentTerm ≠ leader.currentTerm) :
    TransferState app size f leader follower bytes ⟨leader', r, none, restored⟩

section

variable {req : InstallSnapshotRequest n}

theorem StoredUpTo.not_stale (h : StoredUpTo size leader follower bytes k r)
    (hreq : NextChunk size leader bytes k req)
    (hterm : follower.currentTerm ≤ int32 leader.currentTerm) : r.currentTerm ≤ req.leaderTerm := by
  rw [h.term, hreq.term]
  split
  · exact hterm
  · exact le_rfl

/-- A reply of a newer term means that the follower's answers are not all old. -/
theorem StoredUpTo.not_answersOld (h : StoredUpTo size leader follower bytes k r)
    (hnewer : leader.currentTerm < int32 r.currentTerm) :
    ¬ AnswersOld size leader follower bytes := by
  rintro ⟨hfirst, hlater⟩
  rw [h.term] at hnewer
  split at hnewer
  · omega
  · rw [int32_int32] at hnewer
    have := (h.answered (by omega)).2
    omega

/-- What the follower's file holds once the chunk is written. -/
theorem NextChunk.written (hreq : NextChunk size leader bytes k req) (hk : k < bytes.length)
    (h : StoredUpTo size leader follower bytes k r) :
    writeSnapshotData r.snapshotFile req.data req.offset .succeeds =
      (some (bytes.take (k + req.data.length)), true) := by
  rw [hreq.offset]
  refine writeSnapshotData_next hk.le h.file ?_
  rw [hreq.data]
  exact List.take_prefix _ _

/-- The first answer has the follower's own term, the later ones that of the requests. -/
theorem StoredUpTo.first_answer (h : StoredUpTo size leader follower bytes k r)
    (hold : ¬ leader.currentTerm < int32 r.currentTerm) :
    int32 follower.currentTerm ≤ leader.currentTerm := by
  by_cases hk : k = 0
  · rw [h.term, if_pos hk] at hold
    omega
  · exact (h.answered (by omega)).1

/-- A chunk that is not the last one is stored, and the leader goes on unless it gives up. -/
theorem NextChunk.stores (hreq : NextChunk size leader bytes k req) (hsize : 0 < size)
    (hk : k < bytes.length) (h : StoredUpTo size leader follower bytes k r)
    (hterm : follower.currentTerm ≤ int32 leader.currentTerm) (hmore : req.done = false) :
    ∃ r', Session.step app size i
        ⟨leader, r, some (.awaitReply (transferAt leader f bytes k) req), []⟩ () =
      some (if leader.currentTerm < int32 r.currentTerm then
        ⟨leader.snapshotReplyNewer ⟨int32 r.currentTerm⟩, r', none, []⟩
      else ⟨leader, r', some (.readChunk (transferAt leader f bytes (k + req.data.length))), []⟩) ∧
      (¬ leader.currentTerm < int32 r.currentTerm →
        StoredUpTo size leader follower bytes (k + req.data.length) r') := by
  have hnew := h.not_stale hreq hterm
  have hwritten : writeSnapshotData r.snapshotFile req.data req.offset Disk.healthy.write =
      (some (bytes.take (k + req.data.length)), true) := hreq.written hk h
  have hpair := Raft.installSnapshot_chunk app hnew hwritten hmore
  have hcall : r.restoreCall .healthy req = none := by simp [Raft.restoreCall, hmore]
  have hfull : k + size ≤ k + req.data.length ∧ k + req.data.length < bytes.length := by
    have hshort : ¬ bytes.length ≤ k + req.data.length := of_decide_eq_false (hreq.done ▸ hmore)
    have hlen := congrArg List.length hreq.data
    rw [List.length_take, List.length_drop] at hlen
    omega
  refine ⟨{ r.followSnapshot req with
    snapshotFile := some (bytes.take (k + req.data.length)) }, ?_, fun hold ↦ ?_⟩
  · simp only [Session.step, hcall, hpair]
    by_cases hnewer : leader.currentTerm < int32 r.currentTerm
    · simp [Session.proceed, Raft.act, Raft.snapshotReplyEffect, hnewer, Raft.quiet]
    · simp [Session.proceed, Raft.act, Raft.snapshotReplyEffect, hnewer, hmore, Raft.spawn,
        transferAt]
  · refine ⟨?_, (r.followSnapshot_application req).trans h.application, fun _ ↦ rfl, fun _ ↦ ?_⟩
    · rw [if_neg (by omega)]
      exact (Raft.followSnapshot_term hnew).trans hreq.term
    · exact ⟨h.first_answer hold, by omega⟩

/-- After the last one the follower restores the snapshot, and the leader comes to its end unless it
gives up. -/
theorem NextChunk.restores (hreq : NextChunk size leader bytes k req) (hk : k < bytes.length)
    (h : StoredUpTo size leader follower bytes k r)
    (hterm : follower.currentTerm ≤ int32 leader.currentTerm) (hdone : req.done = true)
    (haccept : (app.restoreFromSnapshot follower.application bytes).2.isSome) :
    ∃ r', Session.step app size i
        ⟨leader, r, some (.awaitReply (transferAt leader f bytes k) req), []⟩ () =
      some (if leader.currentTerm < int32 r.currentTerm then
        ⟨leader.snapshotReplyNewer ⟨int32 r.currentTerm⟩, r', none, [bytes]⟩
      else ⟨leader, r', some (.finishTransfer (transferAt leader f bytes k)), [bytes]⟩) ∧
      r'.application = (app.restoreFromSnapshot follower.application bytes).1 := by
  have hnew := h.not_stale hreq hterm
  have hwritten := hreq.written hk h
  rw [List.take_of_length_le (of_decide_eq_true (hreq.done ▸ hdone))] at hwritten
  rw [← h.application] at haccept ⊢
  have hpair : r.installSnapshot app .healthy req =
      ((r.installSnapshot app .healthy req).1, some ⟨int32 r.currentTerm⟩) :=
    Prod.ext rfl (Raft.installSnapshot_last hnew hwritten hdone rfl haccept)
  have hcall : r.restoreCall .healthy req = some bytes := by
    simp [Raft.restoreCall, hnew.not_gt, Disk.healthy, hwritten, hdone]
  have happ := Raft.installSnapshot_application app .healthy r req
  rw [hcall, Option.elim_some] at happ
  refine ⟨_, ?_, happ⟩
  simp only [Session.step, hcall]
  rw [hpair]
  by_cases hnewer : leader.currentTerm < int32 r.currentTerm
  · simp [Session.proceed, Raft.act, Raft.snapshotReplyEffect, hnewer, Raft.quiet]
  · simp [Session.proceed, Raft.act, Raft.snapshotReplyEffect, hnewer, hdone, Raft.spawn]

/-- At the end all answers were old: there was one, or the last one shows the term of the others. -/
theorem NextChunk.answersOld (hreq : NextChunk size leader bytes k req)
    (h : StoredUpTo size leader follower bytes k r) (hdone : req.done = true)
    (hold : ¬ leader.currentTerm < int32 r.currentTerm) :
    AnswersOld size leader follower bytes := by
  refine ⟨h.first_answer hold, ?_⟩
  by_cases hk : k = 0
  · have hend : bytes.length ≤ k + req.data.length := of_decide_eq_true (hreq.done ▸ hdone)
    have hlen := congrArg List.length hreq.data
    rw [List.length_take] at hlen
    omega
  · rw [h.term, if_neg hk, int32_int32] at hold
    omega

end

theorem TransferState.step (hsize : 0 < size) (hfile : leader.snapshotFile = some bytes)
    (hne : bytes ≠ []) (hlen : bytes.length < 2 ^ 31)
    (hterm : follower.currentTerm ≤ int32 leader.currentTerm)
    (haccept : (app.restoreFromSnapshot follower.application bytes).2.isSome)
    (h : TransferState app size f leader follower bytes s) :
    s.pending = none ∨ ∃ s', s.step app size i () = some s' ∧
      TransferState app size f leader follower bytes s' ∧ s'.remaining < s.remaining := by
  cases h with
  | called => exact Or.inr ⟨_, rfl, .opening, Nat.lt_succ_self _⟩
  | opening =>
    have hpos := List.length_pos_iff.mpr hne
    refine Or.inr ⟨⟨leader, follower, some (.readChunk (transferAt leader f bytes 0)), []⟩, ?_,
      .reading hpos ⟨rfl, rfl, fun h ↦ absurd h (lt_irrefl 0), fun h ↦ absurd h (lt_irrefl 0)⟩, ?_⟩
    · simp [Session.step, Raft.act, hfile, Session.proceed, Raft.spawn, transferAt]
      rfl
    · simp [Session.remaining, hfile, transferAt]
  | @reading k r hk h =>
    have hread := readChunkOf_transferAt size f k hfile
    have hsome := take_drop_ne_nil hsize hk
    have hreq := nextChunk_chunkRequest size i f leader bytes (show (k : Int) < 2 ^ 31 by omega)
    refine Or.inr ⟨_, ?_, .awaiting hk h hreq, Nat.lt_succ_self _⟩
    simp only [Session.step, Raft.readChunkEffectOf, hread, if_neg hsome]
    rfl
  | @awaiting k r req hk h hreq =>
    have hcount : 0 < req.data.length := by
      rw [hreq.data, List.length_take, List.length_drop]
      omega
    have hsteps : 1 < 2 * (bytes.length - k) + 1 := by omega
    by_cases hnewer : leader.currentTerm < int32 r.currentTerm
    · -- the leader takes over the newer term and gives up
      have hgaveUp : ∀ r' restored, TransferState app size f leader follower bytes
          ⟨leader.snapshotReplyNewer ⟨int32 r.currentTerm⟩, r', none, restored⟩ :=
        fun r' restored ↦ .gaveUp (h.not_answersOld hnewer) hnewer.ne'
      cases hdone : req.done with
      | false =>
        obtain ⟨r', hstep, -⟩ := hreq.stores hsize hk h hterm hdone
        rw [if_pos hnewer] at hstep
        exact Or.inr ⟨_, hstep, hgaveUp r' [], Nat.lt_trans Nat.zero_lt_one hsteps⟩
      | true =>
        obtain ⟨r', hstep, -⟩ := hreq.restores hk h hterm hdone haccept
        rw [if_pos hnewer] at hstep
        exact Or.inr ⟨_, hstep, hgaveUp r' [bytes], Nat.lt_trans Nat.zero_lt_one hsteps⟩
    · cases hdone : req.done with
      | false =>
        obtain ⟨r', hstep, hstored⟩ := hreq.stores hsize hk h hterm hdone
        have hmore : ¬ bytes.length ≤ k + req.data.length :=
          of_decide_eq_false (hreq.done ▸ hdone)
        rw [if_neg hnewer] at hstep
        refine Or.inr ⟨_, hstep, .reading (by omega) (hstored hnewer), ?_⟩
        change 2 * (bytes.length - (k + req.data.length)) + 2 < 2 * (bytes.length - k) + 1
        omega
      | true =>
        obtain ⟨r', hstep, happ⟩ := hreq.restores hk h hterm hdone haccept
        rw [if_neg hnewer] at hstep
        exact Or.inr ⟨_, hstep, .finishing (hreq.answersOld h hdone hnewer) happ, hsteps⟩
  | finishing hold happ => exact Or.inr ⟨_, rfl, .finished hold happ, Nat.zero_lt_one⟩
  | finished | gaveUp => exact Or.inl rfl

/-! ## Transfers that come to nothing -/

/-- Nothing was restored: what is sent is refused, or there is nothing to send. -/
structure NotRestored (leader follower : Raft n σ) (bytes : List UInt8) (s : Session n σ) :
    Prop where
  restored : s.restored = []
  follower : s.follower = follower
  pending : match s.pending with
    | some (.sendInstallSnapshotRPC _) => s.leader = leader
    | some (.openSnapshot t) => s.leader = leader ∧ t.currentTerm = leader.currentTerm
    | some (.readChunk t) => s.leader = leader ∧ t.currentTerm = leader.currentTerm
    | some (.awaitReply t req) => s.leader = leader ∧ t.currentTerm = leader.currentTerm ∧
        req.leaderTerm = int32 leader.currentTerm ∧ bytes ≠ []
    | _ => True

theorem NotRestored.step {s' : Session n σ} (hfile : leader.snapshotFile = some bytes)
    (hfail : bytes ≠ [] → int32 leader.currentTerm < follower.currentTerm)
    (h : NotRestored leader follower bytes s) (hstep : s.step app size i () = some s') :
    NotRestored leader follower bytes s' := by
  obtain ⟨l, r, pending, restored⟩ := s
  obtain ⟨hrestored, hfollower, hpending⟩ := h
  dsimp only at hrestored hfollower hpending
  subst hrestored hfollower
  cases pending with
  | none => cases hstep
  | some thread =>
  cases thread with
  | sendInstallSnapshotRPC f =>
    subst hpending
    cases hstep
    exact ⟨rfl, rfl, rfl, rfl⟩
  | openSnapshot t =>
    obtain ⟨rfl, hterm⟩ := hpending
    simp only [Session.step, Raft.act, hfile, Option.map_some] at hstep
    cases hstep
    exact ⟨rfl, rfl, rfl, hterm⟩
  | readChunk t =>
    obtain ⟨rfl, hterm⟩ := hpending
    simp only [Session.step, Raft.readChunkEffectOf] at hstep
    split at hstep
    · cases hstep
      exact ⟨rfl, rfl, trivial⟩
    · rename_i hdata
      cases hstep
      refine ⟨rfl, rfl, rfl, hterm, congrArg int32 hterm, fun hempty ↦ hdata ?_⟩
      rw [Raft.readChunkOf, hfile, hempty]
      simp
  | awaitReply t req =>
    obtain ⟨rfl, hterm, hreq, hne⟩ := hpending
    have hstale : req.leaderTerm < r.currentTerm := hreq ▸ hfail hne
    simp only [Session.step, Raft.installSnapshot, Raft.restoreCall, if_pos hstale,
      Option.bind_some, Raft.act, Raft.snapshotReplyEffect] at hstep
    -- the leader gives up, takes the last chunk for installed, or goes on with the next one
    split at hstep
    · cases hstep
      exact ⟨rfl, rfl, trivial⟩
    · split at hstep
      · cases hstep
        exact ⟨rfl, rfl, trivial⟩
      · cases hstep
        exact ⟨rfl, rfl, rfl, hterm⟩
  | finishTransfer t =>
    cases hstep
    exact ⟨rfl, rfl, trivial⟩
  | _ => cases hstep

end

/-- What the leader records at the end. -/
theorem finishTransfer_records (leader : Raft n σ) (f : Fin n) :
    (leader.finishTransfer (leader.sendInstallSnapshotRPC f)).ackedLengths f =
        leader.snapshotter.lastIndex ∧
      (leader.finishTransfer (leader.sendInstallSnapshotRPC f)).sentLengths f =
        leader.snapshotter.lastIndex + 1 := by
  simp [Raft.finishTransfer, Raft.sendInstallSnapshotRPC]

/-- The transfer ends, with the whole snapshot restored once and its index recorded for the
follower; until the snapshot is restored, nothing is recorded. -/
structure TransferFaithful (app : Application σ) (size : Nat) (i f : Fin n)
    (leader follower : Raft n σ) (bytes : List UInt8) : Prop where
  ends : ∃ s, Reachable (Session.step app size i) (.call leader follower f) s ∧
    s.pending = none ∧ s.restored = [bytes] ∧
    s.follower.application = (app.restoreFromSnapshot follower.application bytes).1 ∧
    s.leader = leader.finishTransfer (leader.sendInstallSnapshotRPC f) ∧
    s.leader.ackedLengths f = leader.snapshotter.lastIndex ∧
    s.leader.sentLengths f = leader.snapshotter.lastIndex + 1
  before : ∀ s, Reachable (Session.step app size i) (.call leader follower f) s →
    s.restored = [bytes] ∨ s.restored = [] ∧ s.pending ≠ none ∧ s.leader = leader

/-- An undisturbed transfer is faithful exactly if the snapshot is not empty, the follower is not
ahead of the term that the requests have, and its answers are of no newer term than the leader's. -/
theorem transfer_faithful_iff (app : Application σ) (size : Nat) (hsize : 0 < size) (i f : Fin n)
    (leader follower : Raft n σ) (bytes : List UInt8) (hfile : leader.snapshotFile = some bytes)
    (hlen : bytes.length < 2 ^ 31)
    (haccept : (app.restoreFromSnapshot follower.application bytes).2.isSome) :
    TransferFaithful app size i f leader follower bytes ↔
      bytes ≠ [] ∧ follower.currentTerm ≤ int32 leader.currentTerm ∧
        AnswersOld size leader follower bytes := by
  by_cases hstarts : bytes ≠ [] ∧ follower.currentTerm ≤ int32 leader.currentTerm
  · obtain ⟨hne, hterm⟩ := hstarts
    have hstep := fun s ↦ TransferState.step (i := i) (f := f) (s := s) hsize hfile hne hlen
      hterm haccept
    have hstates : ∀ s, Reachable (Session.step app size i) (.call leader follower f) s →
        TransferState app size f leader follower bytes s := by
      intro s hrun
      refine hrun.invariant (TransferState app size f leader follower bytes) .called ?_
      intro s _ s' _ hs _ htaken
      obtain hend | ⟨s'', h, hs', -⟩ := hstep s hs
      · simp [Session.step, hend] at htaken
      · rwa [Option.some.inj (htaken.symm.trans h)]
    constructor
    · intro h
      obtain ⟨s, hrun, hend, hrestored, -, hleader, -⟩ := h.ends
      refine ⟨hne, hterm, ?_⟩
      cases hstates s hrun with
      | finished hold => exact hold
      | gaveUp hnewer hchanged =>
        exact absurd (congrArg Raft.currentTerm hleader) hchanged
      | _ => cases hend
    · rintro ⟨-, -, hold⟩
      refine ⟨?_, ?_⟩
      · obtain ⟨s, hrun, hstate, hend⟩ :
            ∃ s, Reachable (Session.step app size i) (.call leader follower f) s ∧
              TransferState app size f leader follower bytes s ∧ s.pending = none := by
          refine exists_reaches_final _ _ Session.remaining (fun s hs ↦ ?_) .called
          obtain hend | ⟨s', h, hs', hlt⟩ := hstep s hs
          · exact Or.inl hend
          · exact Or.inr ⟨(), s', trivial, h, hs', hlt⟩
        cases hstate with
        | finished _ happ => exact ⟨_, hrun, rfl, rfl, happ, rfl, finishTransfer_records leader f⟩
        | gaveUp hnewer => exact absurd hold hnewer
        | _ => cases hend
      · intro s hrun
        cases hstates s hrun with
        | finishing | finished => exact Or.inl rfl
        | gaveUp hnewer => exact absurd hold hnewer
        | _ => exact Or.inr ⟨rfl, by simp [Session.call], rfl⟩
  · refine iff_of_false (fun h ↦ ?_) fun h ↦ hstarts ⟨h.1, h.2.1⟩
    obtain ⟨s, hrun, -, hrestored, -⟩ := h.ends
    have hnone := hrun.invariant (NotRestored leader follower bytes) ⟨rfl, rfl, rfl⟩
      fun s _ s' _ hs _ htaken ↦ hs.step hfile
        (fun hne ↦ Int.not_le.mp fun hle ↦ hstarts ⟨hne, hle⟩) htaken
    rw [hnone.restored] at hrestored
    cases hrestored

/-- A leader of term 1 whose snapshot covers three entries. -/
def sampleSender (bytes : List UInt8) : Raft 2 Unit :=
  { newRaft 2 1000 () with
    currentTerm := 1
    currentRole := .leader
    snapshotter := ⟨3, 1, 1000⟩
    snapshotFile := some bytes }

/-- Three bytes in chunks of two. -/
theorem transfer_faithful_three :
    ∃ s, Reachable (Session.step keepsNothing 2 0)
        (.call (sampleSender [7, 8, 9]) (newRaft 2 1000 ()) 1) s ∧
      s.pending = none ∧ s.restored = [[7, 8, 9]] ∧ s.leader.ackedLengths 1 = 3 := by
  obtain ⟨s, hrun, hend, hrestored, -, -, hacked, -⟩ := ((transfer_faithful_iff keepsNothing 2
    (by decide) 0 1 (sampleSender [7, 8, 9]) (newRaft 2 1000 ()) [7, 8, 9] rfl (by decide) rfl).mpr
    (by decide)).ends
  exact ⟨s, hrun, hend, hrestored, hacked⟩

/-- Nothing is sent of an empty snapshot, and yet the leader takes it for installed. -/
theorem empty_transfer_unfaithful :
    ∃ s, Reachable (Session.step keepsNothing chunkSize 0)
        (.call (sampleSender []) (newRaft 2 1000 ()) 1) s ∧
      s.pending = none ∧ s.restored = [] ∧ s.follower.snapshotFile = none ∧
      s.leader.ackedLengths 1 = 3 ∧ s.leader.sentLengths 1 = 4 :=
  exists_reaches_of_exec [(), (), (), ()] (by decide +kernel)

end DistributedCache
