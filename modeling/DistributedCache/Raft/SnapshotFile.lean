import DistributedCache.Raft.AppliedPrefix
import DistributedCache.Raft.LogMatching

/-!
# The snapshot file

Compaction and incoming transfers write one file in place, while the index that describes it is
changed at the end.  The file matches the index as long as no write breaks off, a snapshot arrives
in one piece and covers what is committed, and nothing committed is still to be applied when the
file is written.
-/

namespace DistributedCache

open Network Transition Window

variable {n : Nat} {σ : Type}

/-- Restoring a snapshot gives the state it was taken of. -/
def Application.RestoresSnapshots (app : Application σ) : Prop :=
  ∀ s bytes s', app.getSnapshot s = some bytes →
    ∃ key, app.restoreFromSnapshot s' bytes = (s, some key)

/-- What a run has done and sent so far. -/
structure Past (n : Nat) where
  history : List (Event n)
  network : List (Packet n)

namespace Past

structure Extends (p p' : Past n) : Prop where
  history : p.history ⊆ p'.history
  network : p.network ⊆ p'.network

theorem Extends.refl (p : Past n) : p.Extends p := ⟨List.Subset.refl _, List.Subset.refl _⟩

/-- A region of code has run. -/
def after (p : Past n) (e : RaftEffect n σ) : Past n :=
  ⟨p.history ++ e.events, p.network ++ e.packets⟩

theorem extends_after (p : Past n) (e : RaftEffect n σ) : p.Extends (p.after e) :=
  ⟨List.subset_append_left _ _, List.subset_append_left _ _⟩

end Past

def Cluster.past (c : Cluster n σ) : Past n := ⟨c.history, c.network⟩

/-- The messages that the application of a node is made of: the node has delivered them one by one,
each at its position, after those of a snapshot that it was sent. -/
inductive Absorbed (app : Application σ) (application : σ) (p : Past n) :
    Fin n → List Message → Prop
  | nil (i : Fin n) : Absorbed app application p i []
  | deliver {i : Fin n} {ms : List Message} {m : Message} (h : Absorbed app application p i ms)
      (hm : .delivered i ((ms.length : Int), m) ∈ p.history) :
      Absorbed app application p i (ms ++ [m])
  | restore {i : Fin n} {ms : List Message} {req : InstallSnapshotRequest n}
      (h : Absorbed app application p req.leaderId ms)
      (hreq : .installSnapshot i req ∈ p.network) (hlength : (ms.length : Int) =
        req.lastIncludedIndex)
      (hdata : app.getSnapshot (app.applied application ms) = some req.data) :
      Absorbed app application p i ms

/-- The bytes are what `GetSnapshot` returns at the node after its first `length` messages. -/
def IsSnapshotOf (app : Application σ) (application : σ) (p : Past n) (i : Fin n)
    (length : Int) (bytes : List UInt8) : Prop :=
  ∃ ms, Absorbed app application p i ms ∧ (ms.length : Int) = length ∧
    app.getSnapshot (app.applied application ms) = some bytes

/-- The request carries a part of the bytes: those from its offset on. -/
def InstallSnapshotRequest.PartOf (req : InstallSnapshotRequest n) (bytes : List UInt8) : Prop :=
  ∃ k : Nat, req.offset = k ∧ req.data = (bytes.drop k).take chunkSize ∧
    (req.done = true → bytes.length ≤ k + req.data.length)

/-- The request carries a part of a node's file, under the index and the term of its snapshot. -/
structure InstallSnapshotRequest.ReadFrom (req : InstallSnapshotRequest n) (r : Raft n σ)
    (bytes : List UInt8) : Prop where
  file : r.snapshotFile = some bytes
  part : req.PartOf bytes
  index : req.lastIncludedIndex = r.snapshotter.lastIndex
  term : req.lastIncludedTerm = r.snapshotter.lastTerm

/-- The request carries a part of the snapshot that its index announces. -/
def ShipsSnapshot (app : Application σ) (application : σ) (p : Past n)
    (req : InstallSnapshotRequest n) : Prop :=
  0 < req.lastIncludedIndex ∧ ∃ bytes, req.PartOf bytes ∧
    IsSnapshotOf app application p req.leaderId req.lastIncludedIndex bytes

/-- The write stopped after the file was opened. -/
def WriteOutcome.breaksOff : WriteOutcome → Bool
  | .failsAfter _ => true
  | _ => false

/-- No write breaks off; the file is written and chunks are read only while nothing is left to be
applied and the file belongs to the transfer; a snapshot comes in one chunk that covers what is
committed. -/
def Raft.keepsFile (r : Raft n σ) (i : Fin n) (ts : List (Thread n)) : Action n → Bool
  | .appendEntries args disk => pendingBatches ts = [] ∧ disk.write.breaksOff = false ∧
      (r.conflicts args.prefixLen args.suffix → r.commitedLength ≤ args.prefixLen)
  | .installSnapshot req disk => req.leaderTerm < r.currentTerm ∨
      pendingBatches ts = [] ∧ disk.write.breaksOff = false ∧ disk.readSucceeds = true ∧
        req.offset = 0 ∧ req.done = true ∧ r.commitedLength ≤ req.lastIncludedIndex
  | .readChunk t => t.lastIndex = r.snapshotter.lastIndex ∧
      t.lastTerm = r.snapshotter.lastTerm ∧ r.snapshotFile.map List.length = some t.totalSize ∧
      FitsInt32 t.lastIndex ∧ FitsInt32 t.lastTerm ∧ FitsInt32 t.totalSize
  | a => r.keepsOrder i ts a

def FileKept (c : Cluster n σ) (x : Fin n × Action n) : Prop :=
  (c.raft x.1).keepsFile x.1 (c.nodes x.1).threads x.2 = true
deriving Decidable

/-! ## Messages and snapshots along a run -/

section

variable {app : Application σ} {application : σ} {p p' : Past n} {i : Fin n}

theorem Absorbed.mono {ms : List Message} (h : Absorbed app application p i ms)
    (hext : p.Extends p') : Absorbed app application p' i ms := by
  induction h with
  | nil i => exact .nil i
  | deliver h hm ih => exact .deliver ih (hext.history hm)
  | restore h hreq hlength hdata ih => exact .restore ih (hext.network hreq) hlength hdata

/-- The messages that are delivered next. -/
theorem Absorbed.extend {ms : List Message} (h : Absorbed app application p i ms)
    {ds : List Delivery} (hpos : ds.map Prod.fst = positions ms.length ds.length)
    (hds : ∀ d ∈ ds, .delivered i d ∈ p.history) :
    Absorbed app application p i (ms ++ ds.map Prod.snd) := by
  induction ds generalizing ms with
  | nil => simpa using h
  | cons d ds ih =>
    rw [List.map_cons, List.length_cons, positions] at hpos
    obtain ⟨hfirst, htail⟩ := List.cons.inj hpos
    have hd := hds d List.mem_cons_self
    rw [show d = ((ms.length : Int), d.2) by rw [← hfirst]] at hd
    have := ih (h.deliver hd) (by simpa using htail) fun x hx ↦ hds x (List.mem_cons_of_mem _ hx)
    simpa using this

theorem IsSnapshotOf.mono {length : Int} {bytes : List UInt8}
    (h : IsSnapshotOf app application p i length bytes) (hext : p.Extends p') :
    IsSnapshotOf app application p' i length bytes := by
  obtain ⟨ms, hms, hbytes⟩ := h
  exact ⟨ms, hms.mono hext, hbytes⟩

theorem ShipsSnapshot.mono {req : InstallSnapshotRequest n}
    (h : ShipsSnapshot app application p req) (hext : p.Extends p') :
    ShipsSnapshot app application p' req := by
  obtain ⟨hpos, bytes, hpart, hbytes⟩ := h
  exact ⟨hpos, bytes, hpart, hbytes.mono hext⟩

/-- A request that is all of a transfer carries all of the snapshot. -/
theorem InstallSnapshotRequest.PartOf.whole {req : InstallSnapshotRequest n} {bytes : List UInt8}
    (h : req.PartOf bytes) (hoffset : req.offset = 0) (hdone : req.done = true) :
    req.data = bytes := by
  obtain ⟨k, hk, hdata, hlast⟩ := h
  obtain rfl : k = 0 := by omega
  have hlen := hlast hdone
  rw [List.drop_zero] at hdata
  rw [hdata, List.length_take] at hlen
  rw [hdata, List.take_of_length_le (by omega)]

end

/-! ## What one region does to a node -/

/-- The application is what the messages before the pending batch make of it. -/
def AppliedUpTo (app : Application σ) (application : σ) (p : Past n) (i : Fin n)
    (r : Raft n σ) (ts : List (Thread n)) : Prop :=
  ∃ ms batch, Absorbed app application p i ms ∧ pendingBatches ts = single batch ∧
    batch.map Prod.fst = positions ms.length batch.length ∧
    r.commitedLength = ms.length + batch.length ∧ r.application = app.applied application ms

/-- There is a file if and only if there is a snapshot index, and it belongs to the index. -/
structure FileOk (app : Application σ) (application : σ) (p : Past n) (i : Fin n)
    (r : Raft n σ) : Prop where
  present : 0 < r.snapshotter.lastIndex → r.snapshotFile.isSome = true
  content : ∀ bytes, r.snapshotFile = some bytes → 0 < r.snapshotter.lastIndex ∧
    IsSnapshotOf app application p i r.snapshotter.lastIndex bytes

structure NodeFile (app : Application σ) (application : σ) (p : Past n) (i : Fin n)
    (r : Raft n σ) (ts : List (Thread n)) : Prop where
  bounded : r.Bounded
  applied : AppliedUpTo app application p i r ts
  file : FileOk app application p i r

section

variable {app : Application σ} {application : σ} {p p' : Past n} {i : Fin n} {r r' : Raft n σ}
  {ts ts' : List (Thread n)} {a : Action n} {e : RaftEffect n σ}

theorem FileOk.mono (h : FileOk app application p i r) (hext : p.Extends p') :
    FileOk app application p' i r where
  present := h.present
  content bytes hbytes := (h.content bytes hbytes).imp_right fun hof ↦ hof.mono hext

theorem FileOk.congr (h : FileOk app application p i r)
    (hsnap : r'.snapshotter = r.snapshotter) (hfile : r'.snapshotFile = r.snapshotFile) :
    FileOk app application p i r' where
  present hpos := by
    rw [hfile]
    exact h.present (hsnap ▸ hpos)
  content bytes hbytes := by
    rw [hsnap]
    exact h.content bytes (hfile ▸ hbytes)

theorem AppliedUpTo.congr (h : AppliedUpTo app application p i r ts)
    (hext : p.Extends p') (hcommit : r'.commitedLength = r.commitedLength)
    (happ : r'.application = r.application)
    (hpend : ∀ batch, pendingBatches ts = single batch → pendingBatches ts' = single batch) :
    AppliedUpTo app application p' i r' ts' := by
  obtain ⟨ms, batch, hms, hbatch, hpos, hlen, hrest⟩ := h
  exact ⟨ms, batch, hms.mono hext, hpend batch hbatch, hpos, hcommit.trans hlen,
    happ.trans hrest⟩

theorem NodeFile.mono (h : NodeFile app application p i r ts) (hext : p.Extends p') :
    NodeFile app application p' i r ts :=
  ⟨h.bounded, h.applied.congr hext rfl rfl fun _ hpend ↦ hpend, h.file.mono hext⟩

theorem batch_eq_none_of_not_isLog {t : Thread n} (h : t.isLog = false) : t.batch = none := by
  cases t with
  | deliver => cases h
  | _ => rfl

/-- The commit length moves ahead of the application by one batch. -/
theorem NodeFile.commits (h : NodeFile app application p i r ts) {f : Fin n}
    (req : LogRequestArgs n) {resp : LogResponse n} {ds : List Delivery}
    (hcommits : r.commits resp)
    (hkept : r.keepsOrder i ts (.replicateResponse f req resp) = true)
    (hcommit : (r.recordAck f resp.ack).commitLogEntries i = some (r', ds)) :
    NodeFile app application p i r' (ts ++ if ds = [] then [] else [.deliver ds]) := by
  have hnonneg := h.bounded.nonneg
  have hlow := h.bounded.low
  have hhigh := h.bounded.high
  obtain ⟨ms, batch, hms, hpend, hpos, hlen, happ⟩ := h.applied
  obtain ⟨rfl, hdel, hle, hquorum⟩ := Raft.commitLogEntries_spec hcommit
  by_cases hnil : ds = []
  · subst hnil
    refine ⟨⟨hnonneg, ?_, ?_⟩, ⟨ms, batch, hms, by simpa using hpend, hpos, ?_, happ⟩,
      h.file.congr rfl rfl⟩
    · simpa [Raft.recordAck] using hlow
    · simpa [Raft.recordAck, Raft.absLength] using hhigh
    · simpa [Raft.recordAck] using hlen
  · have hpositive := List.length_pos_iff.mpr hnil
    have hlt : r.commitedLength + (ds.length : Int) ≤ r.absLength := hle hnil
    have hfree : pendingBatches ts = [] := of_decide_eq_true hkept
      ⟨hcommits, by omega, hquorum _ le_rfl (by simp only [Raft.recordAck]; omega)⟩
    -- so all committed messages are applied
    obtain rfl := batch_eq_nil hfree hpend
    rw [List.length_nil] at hlen
    have hcount : r.commitedLength = ms.length := by omega
    refine ⟨⟨hnonneg, ?_, hlt⟩, ⟨ms, ds, hms, ?_, ?_, ?_, happ⟩, h.file.congr rfl rfl⟩
    · simp only [Raft.recordAck]
      omega
    · rw [pendingBatches_append, hfree, pendingBatches_deliver, List.nil_append]
    · rw [← hcount]
      exact hdel.positions
    · simp only [Raft.recordAck]
      omega

/-- An action that touches neither the application nor the file. -/
theorem NodeFile.plain (h : NodeFile app application p i r ts)
    (hact : r.act app i a = some e) (hthread : ∀ t ∈ a.thread, t ∈ ts)
    (hkept : r.keepsFile i ts a = true) (ha : a.leavesStore = true) :
    NodeFile app application (p.after e) i e.state (remove ts a.thread ++ e.threads) := by
  have hext := p.extends_after e
  obtain ⟨hsameApp, hsameFile⟩ := act_leavesStore hact ha
  have hne : ∀ b, a ≠ .deliver b := by
    rintro b rfl
    cases ha
  -- the commit length stays, so only the log and the threads can differ
  have hframe : e.state.Bounded → e.state.commitedLength = r.commitedLength →
      e.state.snapshotter = r.snapshotter → (∀ t ∈ e.threads, t.batch = none) →
      NodeFile app application (p.after e) i e.state
        (remove ts a.thread ++ e.threads) := fun hbounded hcommit hsnap hthreads ↦
    ⟨hbounded, h.applied.congr hext hcommit hsameApp fun _ hpend ↦
      pendingBatches_plain hthread hne hthreads hpend, (h.file.congr hsnap hsameFile).mono hext⟩
  cases Raft.act_log hact with
  | appends | installs | delivers => cases ha
  | @commits f req resp r' ds hcommits hcommit =>
    exact (h.commits req hcommits hkept hcommit).mono hext
  | broadcasts m =>
    refine hframe ⟨h.bounded.nonneg, h.bounded.low, ?_⟩ rfl rfl (by simp [Raft.quiet])
    have := h.bounded.high
    simp only [Raft.quiet, Raft.broadcast, Raft.absLength, List.length_append,
      List.length_singleton] at this ⊢
    omega
  | accepts args =>
    have hsame : r.SameLog (r.followLeader i args) := Raft.followLeader_sameLog
    exact hframe (hsame.bounded h.bounded) hsame.commitedLength hsame.snapshotter
      (by simp [Raft.spawn, Thread.batch])
  | other hsame hthreads =>
    exact hframe (hsame.bounded h.bounded) hsame.commitedLength hsame.snapshotter
      fun t ht ↦ batch_eq_none_of_not_isLog (hthreads t ht)

/-- A message of the pending batch is applied. -/
theorem NodeFile.deliver (h : NodeFile app application p i r ts) {d : Delivery}
    {rest : List Delivery} (hthread : .deliver (d :: rest) ∈ ts) (hext : p.Extends p')
    (hd : .delivered i d ∈ p'.history) :
    NodeFile app application p' i (r.deliver app d.2)
      (remove ts (some (.deliver (d :: rest))) ++ if rest = [] then [] else [.deliver rest]) := by
  obtain ⟨ms, batch, hms, hpend, hpos, hlen, happ⟩ := h.applied
  have hperm := pendingBatches_remove_perm hthread
  rw [hpend] at hperm
  obtain ⟨rfl, hrest⟩ := single_perm_cons hperm
  change pendingBatches (remove ts _) = [] at hrest
  rw [List.map_cons, List.length_cons, positions] at hpos
  obtain ⟨hfirst, htail⟩ := List.cons.inj hpos
  refine ⟨⟨h.bounded.nonneg, h.bounded.low, h.bounded.high⟩,
    ⟨ms ++ [d.2], rest, (hms.mono hext).deliver ?_, ?_, ?_, ?_, ?_⟩,
    (h.file.mono hext).congr rfl rfl⟩
  · rw [← hfirst]
    exact hd
  · rw [pendingBatches_append, hrest, pendingBatches_deliver, List.nil_append]
  · rw [htail, List.length_append, List.length_singleton]
    congr 1
  · rw [List.length_cons] at hlen
    rw [List.length_append, List.length_singleton]
    change r.commitedLength = _
    omega
  · rw [Application.applied_append, ← happ]
    rfl

/-! ## Writing the file -/

/-- A write that does not break off does nothing or replaces the file. -/
theorem writeSnapshotData_start (file : Option (List UInt8)) (data : List UInt8)
    {write : WriteOutcome} (h : write.breaksOff = false) :
    writeSnapshotData file data 0 write = (file, false) ∨
      writeSnapshotData file data 0 write = (some data, true) := by
  have hwrite : writeAt [] data 0 = data := by
    unfold writeAt
    split
    · rename_i hnil
      rw [hnil]
    · simp
  cases write with
  | openFails => exact Or.inl rfl
  | failsAfter => cases h
  | succeeds =>
    right
    simp only [writeSnapshotData, openForWriting, if_pos, Int.lt_irrefl, if_false, Int.toNat_zero,
      hwrite]

/-- Compaction does nothing, or the file is the application's snapshot at the commit length. -/
theorem decideRunSnapshot_file {disk : Disk} (h : r.decideRunSnapshot app disk = some r')
    (hdisk : disk.write.breaksOff = false) :
    r' = r ∨ ∃ data t, app.getSnapshot r.application = some data ∧ 0 < r.comittedCount ∧
      r' = { r.compact r.comittedCount.toNat t with snapshotFile := some data } := by
  unfold Raft.decideRunSnapshot at h
  split at h
  · exact Or.inl (Option.some.inj h).symm
  split at h
  · exact Or.inl (Option.some.inj h).symm
  rename_i hpos
  cases hsnap : app.getSnapshot r.application with
  | none =>
    simp only [hsnap, Option.some.injEq] at h
    exact Or.inl h.symm
  | some data =>
    obtain hfails | hwritten :=
      writeSnapshotData_start r.snapshotFile data hdisk
    · simp only [hsnap, hfails, Bool.false_eq_true, if_false, Option.some.injEq] at h
      exact Or.inl h.symm
    · simp only [hsnap, hwritten, if_true] at h
      split at h
      · exact Or.inr ⟨data, _, rfl, by omega, (Option.some.inj h).symm⟩
      · cases h

theorem NodeFile.decideRunSnapshot (h : NodeFile app application p i r ts)
    (hfree : pendingBatches ts = []) {disk : Disk} (hdisk : disk.write.breaksOff = false)
    (hrun : r.decideRunSnapshot app disk = some r') :
    NodeFile app application p i r' ts := by
  obtain ⟨r₁, hrun₁, hbounded, -⟩ := h.bounded.decideRunSnapshot app disk
  obtain rfl := Option.some.inj (hrun.symm.trans hrun₁)
  obtain rfl | ⟨data, t, hdata, hpos, rfl⟩ := decideRunSnapshot_file hrun hdisk
  · exact h
  obtain ⟨ms, batch, hms, hpend, hposs, hlen, happ⟩ := h.applied
  have hbatch := batch_eq_nil hfree hpend
  have hcount : r.commitedLength = ms.length := by
    rw [hbatch, List.length_nil] at hlen
    omega
  refine ⟨hbounded, ⟨ms, batch, hms, hpend, hposs, hlen, happ⟩, fun _ ↦ rfl, ?_⟩
  intro bytes hbytes
  obtain rfl : data = bytes := Option.some.inj hbytes
  have h0 := h.bounded.nonneg
  refine ⟨?_, ms, hms, hcount.symm, happ ▸ hdata⟩
  change 0 < r.commitedLength
  unfold Raft.comittedCount at hpos
  omega

/-- `appendEntries` applies what it commits and then may compact the log. -/
theorem NodeFile.appendEntries (h : NodeFile app application p i r ts)
    {args : LogRequestArgs n} {disk : Disk} (hthread : .appendEntries args ∈ ts)
    (hkept : r.keepsFile i ts (.appendEntries args disk) = true) {ds : List Delivery}
    (happend : r.appendEntries app disk args = some (r', ds)) (hext : p.Extends p')
    (hds : ∀ d ∈ ds, .delivered i d ∈ p'.history) :
    NodeFile app application p' i r'
      (remove ts (some (.appendEntries args)) ++ [.logReply args]) := by
  obtain ⟨hfree, hdisk, hcut⟩ := of_decide_eq_true hkept
  obtain ⟨r₁, hcommit, hrun⟩ := Raft.appendEntries_cases happend
  obtain ⟨ms, batch, hms, hpend, -, hlen, happ⟩ := h.applied
  obtain rfl := batch_eq_nil hfree hpend
  have hcount : r.commitedLength = ms.length := by
    rw [List.length_nil] at hlen
    omega
  have hpend' : pendingBatches (remove ts (some (.appendEntries args)) ++ [.logReply args]) =
      single [] :=
    pendingBatches_plain (a := .appendEntries args disk)
      (by simpa [Action.thread] using hthread) (by simp) (by simp [Thread.batch]) hpend
  have hstored : (r.appendSuffix args.prefixLen args.suffix).Bounded := by
    refine ⟨h.bounded.nonneg, h.bounded.low, ?_⟩
    have := (truncatedLog_committed h.bounded.high hcut).2
    simp only [Raft.absLength, Raft.appendSuffix, List.length_append]
    omega
  obtain ⟨r₂, ds₂, hcommit₂, hbounded, -, -⟩ := hstored.commitTo app args.commitLength
  obtain ⟨rfl, rfl⟩ := Prod.mk.inj (Option.some.inj (hcommit.symm.trans hcommit₂))
  have hnext := Raft.commitTo_application hcommit
  obtain ⟨hdel, -, -, application', rfl⟩ := Raft.commitTo_advance hcommit hstored.high
  have hpositions : ds.map Prod.fst = positions ms.length ds.length := by
    rw [← hcount]
    exact hdel.positions
  refine NodeFile.decideRunSnapshot ⟨hbounded, ?_, (h.file.mono hext).congr rfl rfl⟩ hpend'
    hdisk hrun
  refine ⟨ms ++ ds.map Prod.snd, [], (hms.mono hext).extend hpositions hds, hpend', rfl, ?_, ?_⟩
  · rw [List.length_append, List.length_map, List.length_nil]
    change r.commitedLength + (ds.length : Int) = _
    omega
  · rw [Application.applied_append, ← happ]
    exact hnext

/-- A snapshot in one chunk that covers what is committed replaces file, application and index. -/
theorem NodeFile.installSnapshot (hrestores : app.RestoresSnapshots)
    (h : NodeFile app application p i r ts) {req : InstallSnapshotRequest n} {disk : Disk}
    (hsent : .installSnapshot i req ∈ p.network) (hships : ShipsSnapshot app application p req)
    (hkept : r.keepsFile i ts (.installSnapshot req disk) = true) :
    NodeFile app application p i (r.installSnapshot app disk req).1 ts := by
  obtain hstale | ⟨hfree, hdisk, hread, hoffset, hdone, hcovers⟩ := of_decide_eq_true hkept
  · have hsame : (r.installSnapshot app disk req).1 = r := by
      unfold Raft.installSnapshot
      simp only [if_pos hstale]
    rw [hsame]
    exact h
  by_cases hterm : req.leaderTerm < r.currentTerm
  · have hsame : (r.installSnapshot app disk req).1 = r := by
      unfold Raft.installSnapshot
      simp only [if_pos hterm]
    rw [hsame]
    exact h
  obtain hfails | hwritten :=
    writeSnapshotData_start r.snapshotFile req.data hdisk
  · rw [← hoffset] at hfails
    have hstored := Raft.installSnapshot_stored (r := r) app
      (Or.inr (Or.inr (congrArg Prod.snd hfails)))
    have hfile : (r.installSnapshot app disk req).1.snapshotFile = r.snapshotFile := by
      unfold Raft.installSnapshot
      simp only [if_neg hterm, Raft.followSnapshot_snapshotFile, hfails, Bool.false_eq_true,
        if_false]
    exact ⟨hstored.1.bounded h.bounded,
      h.applied.congr (.refl p) hstored.1.commitedLength hstored.2 fun _ hp ↦ hp,
      h.file.congr hstored.1.snapshotter hfile⟩
  · rw [← hoffset] at hwritten
    obtain ⟨hpos, bytes, hpart, ms, hms, hcount, hdata⟩ := hships
    rw [← hpart.whole hoffset hdone] at hdata
    obtain ⟨key, hrestore⟩ := hrestores _ _ r.application hdata
    rw [Raft.installSnapshot_restored (by omega) hdone hwritten hread hrestore]
    have hlast : max r.commitedLength req.lastIncludedIndex = req.lastIncludedIndex := by omega
    have hms' : Absorbed app application p i ms := hms.restore hsent hcount hdata
    refine ⟨⟨hpos.le, ?_, ?_⟩, ⟨ms, [], hms', ?_, rfl, ?_, rfl⟩, fun _ ↦ rfl, ?_⟩
    · simp only
      omega
    · simp only [hlast, Raft.absLength]
      omega
    · rw [hfree]
      rfl
    · simp only [hlast, List.length_nil]
      omega
    · intro bytes hbytes
      obtain rfl : req.data = bytes := Option.some.inj hbytes
      exact ⟨hpos, ms, hms', hcount, hdata⟩

theorem NodeFile.act (hrestores : app.RestoresSnapshots)
    (h : NodeFile app application p i r ts) (hact : r.act app i a = some e)
    (hthread : ∀ t ∈ a.thread, t ∈ ts)
    (hpacket : ∀ req disk, a = .installSnapshot req disk →
      .installSnapshot i req ∈ p.network ∧ ShipsSnapshot app application p req)
    (hkept : r.keepsFile i ts a = true) :
    NodeFile app application (p.after e) i e.state (remove ts a.thread ++ e.threads) := by
  cases a with
  | appendEntries args disk =>
    obtain ⟨⟨r', ds⟩, happend, rfl⟩ := Option.map_eq_some_iff.mp hact
    refine h.appendEntries (hthread _ rfl) hkept happend (p.extends_after _) fun d hd ↦ ?_
    exact List.mem_append_right _ (List.mem_map_of_mem hd)
  | installSnapshot req disk =>
    obtain rfl := Option.some.inj hact
    obtain ⟨hsent, hships⟩ := hpacket req disk rfl
    have := (h.installSnapshot hrestores hsent hships hkept).mono
      (p.extends_after (r.installSnapshotEffect app disk i req))
    simpa [Raft.installSnapshotEffect, Action.thread, remove] using this
  | deliver batch =>
    obtain ⟨d, rest, rfl, rfl⟩ := Raft.act_deliver hact
    exact h.deliver (hthread _ rfl) (p.extends_after _)
      (List.mem_append_right _ List.mem_cons_self)
  | _ => exact h.plain hact hthread hkept rfl

/-- A chunk is read from the file, which belongs to the index and the term that it announces. -/
theorem readChunk_readFrom {t : Transfer n} (hkept : r.keepsFile i ts (.readChunk t) = true)
    (hne : r.readChunk t ≠ []) :
    ∃ bytes, (Raft.chunkRequest i t (r.readChunk t)).ReadFrom r bytes := by
  obtain ⟨hindex, hterm, hsize, hfits, hfitsTerm, hfitsSize⟩ := of_decide_eq_true hkept
  obtain ⟨bytes, hbytes, hlen⟩ := Option.map_eq_some_iff.mp hsize
  have hchunk : r.readChunk t = (bytes.drop t.offset).take chunkSize := by
    unfold Raft.readChunk
    rw [hbytes, Option.getD_some]
  have hoffset : t.offset < bytes.length := by
    by_contra hge
    rw [hchunk, List.drop_eq_nil_of_le (by omega), List.take_nil] at hne
    exact hne rfl
  have hoff : int32 t.offset = t.offset := by
    apply int32_eq_self
    unfold FitsInt32 at hfitsSize ⊢
    omega
  unfold Raft.chunkRequest
  refine ⟨bytes, hbytes, ⟨t.offset, ?_, hchunk, fun hdone ↦ ?_⟩, ?_, ?_⟩
  · simp only [hoff]
  · rw [hlen]
    exact of_decide_eq_true hdone
  · rw [int32_eq_self hfits, hindex]
  · rw [int32_eq_self hfitsTerm, hterm]

end

/-! ## Runs -/

section

variable {app : Application σ} {application : σ} {snapshotThreshold : Int} {c : Cluster n σ}

/-- Every node's file is kept, and every request is a part of a snapshot. -/
theorem nodeFile_of_reaches (hrestores : app.RestoresSnapshots)
    (hrun : Reaches (Cluster.step app) FileKept
      (Cluster.start n snapshotThreshold fun _ ↦ application) c) :
    (∀ i, NodeFile app application c.past i (c.raft i) (c.nodes i).threads) ∧
      ∀ target req, .installSnapshot target req ∈ c.network →
        ShipsSnapshot app application c.past req := by
  refine hrun.invariant (fun c ↦
    (∀ i, NodeFile app application c.past i (c.raft i) (c.nodes i).threads) ∧
      ∀ target req, .installSnapshot target req ∈ c.network →
        ShipsSnapshot app application c.past req) ⟨fun i ↦ ?_, ?_⟩ ?_
  · refine ⟨⟨le_rfl, le_rfl, le_rfl⟩, ⟨[], [], .nil i, rfl, rfl, rfl, rfl⟩, ?_, ?_⟩
    · intro hpos
      cases hpos
    · intro bytes hbytes
      cases hbytes
  · intro target req hp
    cases hp
  · rintro c ⟨i, a⟩ c' - ⟨hnodes, hpackets⟩ hkept hstep
    obtain ⟨hthread, hpacket, e, hact, rfl⟩ := Cluster.step_cases hstep
    have hpast : Cluster.past (c.apply i a.thread e) = c.past.after e := by
      rw [Cluster.past, Config.apply_history, Config.apply_network]
      rfl
    have hext := c.past.extends_after e
    rw [hpast]
    refine ⟨fun j ↦ ?_, fun target req hp ↦ ?_⟩
    · by_cases hj : j = i
      · subst hj
        rw [Cluster.raft, Config.apply_self]
        refine (hnodes j).act hrestores hact hthread ?_ hkept
        rintro req disk rfl
        exact ⟨hpacket _ rfl, hpackets j req (hpacket _ rfl)⟩
      · rw [Cluster.raft, Config.apply_of_ne hj]
        exact (hnodes j).mono hext
    · rw [Config.apply_network] at hp
      rcases List.mem_append.mp hp with hold | hnew
      · exact (hpackets target req hold).mono hext
      · cases Raft.act_sends hact hnew with
        | sendChunk t hne =>
          obtain ⟨bytes, hread⟩ := readChunk_readFrom hkept hne
          obtain ⟨hpos, hof⟩ := (hnodes i).file.content bytes hread.file
          rw [← hread.index] at hpos hof
          exact ShipsSnapshot.mono ⟨hpos, bytes, hread.part, hof⟩ hext

/-- Every chunk was read from the file that its sender had at that moment. -/
theorem exists_sender (hrun : Reaches (Cluster.step app) FileKept
      (Cluster.start n snapshotThreshold fun _ ↦ application) c) :
    ∀ target req, .installSnapshot target req ∈ c.network → ∃ c₀ bytes,
      Reaches (Cluster.step app) FileKept
        (Cluster.start n snapshotThreshold fun _ ↦ application) c₀ ∧
      Reaches (Cluster.step app) FileKept c₀ c ∧ req.ReadFrom (c₀.raft req.leaderId) bytes := by
  refine hrun.invariant (fun c ↦ ∀ target req, .installSnapshot target req ∈ c.network →
    ∃ c₀ bytes, Reaches (Cluster.step app) FileKept
        (Cluster.start n snapshotThreshold fun _ ↦ application) c₀ ∧
      Reaches (Cluster.step app) FileKept c₀ c ∧ req.ReadFrom (c₀.raft req.leaderId) bytes)
    (by simp [Cluster.start])
    ?_
  rintro c ⟨i, a⟩ c' hreach ih hkept hstep target req hp
  obtain ⟨hthread, hpacket, e, hact, rfl⟩ := Cluster.step_cases hstep
  rw [Config.apply_network] at hp
  rcases List.mem_append.mp hp with hold | hnew
  · obtain ⟨c₀, bytes, hstart, hrest, hship⟩ := ih target req hold
    exact ⟨c₀, bytes, hstart, hrest.tail hkept hstep, hship⟩
  · cases Raft.act_sends hact hnew with
    | sendChunk t hne =>
      obtain ⟨bytes, hread⟩ := readChunk_readFrom hkept hne
      exact ⟨c, bytes, hreach, .tail .refl hkept hstep, hread⟩

end

/-- In a run in which the file is kept, every node's snapshot file is the complete snapshot of the
messages before its snapshot index.  Every chunk that is sent is a part of the file that its sender
had at that moment, and announces the index and the term of the sender's snapshot. -/
theorem snapshot_file_matches (app : Application σ) (hrestores : app.RestoresSnapshots)
    (snapshotThreshold : Int) (application : σ) {c : Cluster n σ}
    (hrun : Reaches (Cluster.step app) FileKept
      (Cluster.start n snapshotThreshold fun _ ↦ application) c) :
    (∀ i, 0 < (c.raft i).snapshotter.lastIndex → ∃ bytes,
      (c.raft i).snapshotFile = some bytes ∧
        IsSnapshotOf app application c.past i (c.raft i).snapshotter.lastIndex bytes) ∧
    ∀ target req, .installSnapshot target req ∈ c.network → ∃ c₀ bytes,
      Reaches (Cluster.step app) FileKept
        (Cluster.start n snapshotThreshold fun _ ↦ application) c₀ ∧
      Reaches (Cluster.step app) FileKept c₀ c ∧ req.ReadFrom (c₀.raft req.leaderId) bytes ∧
      IsSnapshotOf app application c₀.past req.leaderId req.lastIncludedIndex bytes := by
  refine ⟨fun i hpos ↦ ?_, fun target req hp ↦ ?_⟩
  · have hfile := ((nodeFile_of_reaches hrestores hrun).1 i).file
    obtain ⟨bytes, hbytes⟩ := Option.isSome_iff_exists.mp (hfile.present hpos)
    exact ⟨bytes, hbytes, (hfile.content bytes hbytes).2⟩
  · obtain ⟨c₀, bytes, hstart, hrest, hread⟩ := exists_sender hrun target req hp
    have hfile := ((nodeFile_of_reaches hrestores hstart).1 req.leaderId).file
    refine ⟨c₀, bytes, hstart, hrest, hread, ?_⟩
    rw [hread.index]
    exact (hfile.content bytes hread.file).2

theorem keepsKeys_restores : keepsKeys.RestoresSnapshots :=
  fun _ _ _ hdata ↦ ⟨0, by rw [← Option.some.inj hdata]; rfl⟩

theorem keepsKeys_applied_length (s : List UInt8) (ms : List Message) :
    (keepsKeys.applied s ms).length = s.length + ms.length := by
  induction ms generalizing s with
  | nil => rfl
  | cons m ms ih =>
    change (keepsKeys.applied (s ++ [UInt8.ofNat m.key.toNat]) ms).length = _
    rw [ih, List.length_append, List.length_singleton, List.length_cons]
    omega

/-- Node 0 leads term 1; its first message is committed on node 1, which compacts its log. -/
def firstCompaction : List (Fin 3 × Action 3) := twoTerms.take 17

theorem snapshot_file_matches_firstCompaction : ∃ c : Cluster 3 (List UInt8),
    Reaches (Cluster.step keepsKeys) FileKept (Cluster.start 3 1 fun _ ↦ []) c ∧
      (c.raft 1).snapshotter.lastIndex = 1 ∧ ∃ bytes, (c.raft 1).snapshotFile = some bytes ∧
        IsSnapshotOf keepsKeys [] c.past 1 1 bytes := by
  obtain ⟨c, hrun, hindex⟩ : ∃ c : Cluster 3 (List UInt8),
      Reaches (Cluster.step keepsKeys) FileKept (Cluster.start 3 1 fun _ ↦ []) c ∧
        (c.raft 1).snapshotter.lastIndex = 1 :=
    exists_reaches_of_exec firstCompaction (by decide +kernel)
  have hpos : 0 < (c.raft 1).snapshotter.lastIndex := by omega
  obtain ⟨bytes, hbytes, hof⟩ :=
    (snapshot_file_matches keepsKeys keepsKeys_restores 1 [] hrun).1 1 hpos
  rw [hindex] at hof
  exact ⟨c, hrun, hindex, bytes, hbytes, hof⟩

/-- The next compaction opens the file, which empties it, and then fails to write. -/
def brokenCompaction : List (Fin 3 × Action 3) :=
  firstCompaction ++
    [(1, .logReply ⟨0, 1, 1, 1, 1, []⟩), (0, .getLeaderData (samplePut 2)),
      (0, .broadcast (samplePut 2)), (0, .replicate 1), (0, .prepareLogRequestArgs 1),
      (1, .logRequest ⟨0, 1, 1, 1, 1, [⟨1, samplePut 2⟩]⟩),
      (1, .appendEntries ⟨0, 1, 1, 1, 1, [⟨1, samplePut 2⟩]⟩ .healthy),
      (1, .logReply ⟨0, 1, 1, 1, 1, [⟨1, samplePut 2⟩]⟩),
      (0, .replicateResponse 1 ⟨0, 1, 1, 1, 1, [⟨1, samplePut 2⟩]⟩ ⟨1, 1, 2, true⟩),
      (0, .deliver [(1, samplePut 2)]), (0, .replicate 1), (0, .prepareLogRequestArgs 1),
      (1, .logRequest ⟨0, 1, 2, 1, 2, []⟩),
      (1, .appendEntries ⟨0, 1, 2, 1, 2, []⟩ ⟨.failsAfter 0, true⟩)]

theorem snapshot_file_emptied : ∃ c : Cluster 3 (List UInt8),
    Reachable (Cluster.step keepsKeys) (Cluster.start 3 1 fun _ ↦ []) c ∧
      (c.raft 1).snapshotter.lastIndex = 1 ∧ (c.raft 1).snapshotFile = some [] ∧
      ¬ IsSnapshotOf keepsKeys [] c.past 1 1 [] := by
  obtain ⟨c, hrun, hindex, hfile⟩ : ∃ c : Cluster 3 (List UInt8),
      Reachable (Cluster.step keepsKeys) (Cluster.start 3 1 fun _ ↦ []) c ∧
        (c.raft 1).snapshotter.lastIndex = 1 ∧ (c.raft 1).snapshotFile = some [] :=
    exists_reaches_of_exec brokenCompaction (by decide +kernel)
  refine ⟨c, hrun, hindex, hfile, ?_⟩
  rintro ⟨ms, -, hcount, hbytes⟩
  -- a snapshot after one message has one byte
  have hlen := keepsKeys_applied_length [] ms
  rw [Option.some.inj hbytes, List.length_nil] at hlen
  omega

end DistributedCache
