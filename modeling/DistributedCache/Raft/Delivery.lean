import DistributedCache.Raft.LogSteps

/-!
# Delivery to the application

`appendEntries` delivers under the lock, `commitLogEntries` after it has released it.  Two batches
of one leader may therefore be delivered in either order.  If a node commits nothing while a batch
is under way, never cuts its log below the commit length and installs no snapshot that moves it,
then it delivers every position once and in order.
-/

namespace DistributedCache

open Network Transition Window

variable {n : Nat} {σ : Type} {app : Application σ} {i : Fin n} {r : Raft n σ} {a : Action n}
  {e : RaftEffect n σ} {ts : List (Thread n)}

/-- What node `i` has delivered, in order. -/
def deliveredBy (i : Fin n) (history : List (Event n)) : List Delivery :=
  history.filterMap fun
    | .delivered j d => if j = i then some d else none
    | _ => none

def Thread.batch : Thread n → Option (List Delivery)
  | .deliver batch => some batch
  | _ => none

/-- The batches that are committed but not yet delivered. -/
def pendingBatches (ts : List (Thread n)) : List (List Delivery) := ts.filterMap Thread.batch

/-- The action does not commit next to an undelivered batch, cut committed entries off or move the
commit length by a snapshot. -/
def Raft.keepsOrder (r : Raft n σ) (i : Fin n) (ts : List (Thread n)) : Action n → Bool
  | .replicateResponse f _ resp =>
    r.commits resp ∧ r.commitedLength < r.absLength ∧
      (r.recordAck f resp.ack).quorumAcked i r.commitedLength → pendingBatches ts = []
  | .appendEntries args _ =>
    (r.commitedLength < args.commitLength → pendingBatches ts = []) ∧
      (r.conflicts args.prefixLen args.suffix → r.commitedLength ≤ args.prefixLen)
  | .installSnapshot req _ => req.done = true → req.leaderTerm < r.currentTerm ∨
      r.log = [] ∧ req.lastIncludedIndex = r.commitedLength
  | _ => true

def OrderKept (c : Cluster n σ) (x : Fin n × Action n) : Prop :=
  (c.raft x.1).keepsOrder x.1 (c.nodes x.1).threads x.2 = true
deriving Decidable

/-! ## The application -/

/-- The application after some messages. -/
def Application.applied (app : Application σ) (application : σ) (ms : List Message) : σ :=
  ms.foldl (fun s m ↦ (app.appendMessage s m).1) application

theorem Application.applied_append (app : Application σ) (application : σ)
    (ms ms' : List Message) :
    app.applied application (ms ++ ms') = app.applied (app.applied application ms) ms' :=
  List.foldl_append

namespace Raft

theorem deliverAll_application (app : Application σ) (r : Raft n σ) (ds : List Delivery) :
    (r.deliverAll app ds).application = app.applied r.application (ds.map Prod.snd) := by
  induction ds generalizing r with
  | nil => rfl
  | cons d ds ih => exact ih (r.deliver app d.2)

/-- What the commit loop of `appendEntries` leaves in the application. -/
theorem commitTo_application {r' : Raft n σ} {leaderCommit : Int} {ds : List Delivery}
    (h : r.commitTo app leaderCommit = some (r', ds)) :
    r'.application = app.applied r.application (ds.map Prod.snd) := by
  unfold commitTo at h
  split at h
  · obtain ⟨ds', -, heq⟩ := Option.map_eq_some_iff.mp h
    obtain ⟨rfl, rfl⟩ := Prod.mk.inj heq
    exact deliverAll_application app r ds'
  · obtain ⟨rfl, rfl⟩ := Prod.mk.inj (Option.some.inj h)
    rfl

end Raft

/-! ## Deliveries and batches -/

theorem deliveredBy_append (i : Fin n) (history events : List (Event n)) :
    deliveredBy i (history ++ events) = deliveredBy i history ++ deliveredBy i events :=
  List.filterMap_append

variable {d : Delivery} {batch hist : List Delivery} {disk : Disk} {j : Fin n}
  {bs : List (List Delivery)}

theorem mem_deliveredBy {history : List (Event n)} :
    d ∈ deliveredBy i history ↔ .delivered i d ∈ history := by
  constructor
  · intro h
    obtain ⟨ev, hev, heq⟩ := List.mem_filterMap.mp h
    cases ev with
    | delivered j d' =>
      obtain ⟨rfl, hd⟩ := Option.ite_none_right_eq_some.mp heq
      cases hd
      exact hev
    | _ => cases heq
  · intro h
    exact List.mem_filterMap.mpr ⟨_, h, if_pos rfl⟩

theorem deliveredBy_eq_nil {events : List (Event n)} (h : ∀ ev ∈ events, ev.isLog = false) :
    deliveredBy i events = [] := by
  refine List.filterMap_eq_nil_iff.mpr fun ev hev ↦ ?_
  have := h ev hev
  cases ev with
  | delivered => cases this
  | _ => rfl

theorem deliveredBy_map (i : Fin n) (ds : List Delivery) :
    deliveredBy i (ds.map (.delivered i)) = ds := by
  simp [deliveredBy, List.filterMap_map]

theorem deliveredBy_map_of_ne (h : j ≠ i) (ds : List Delivery) :
    deliveredBy i (ds.map (.delivered j)) = [] := by
  simp [deliveredBy, List.filterMap_map, h]

theorem pendingBatches_append (ts ts' : List (Thread n)) :
    pendingBatches (ts ++ ts') = pendingBatches ts ++ pendingBatches ts' :=
  List.filterMap_append

theorem pendingBatches_eq_nil (h : ∀ t ∈ ts, t.batch = none) : pendingBatches ts = [] :=
  List.filterMap_eq_nil_iff.mpr h

theorem pendingBatches_remove_perm {t : Thread n} (ht : t ∈ ts) :
    (pendingBatches ts).Perm (pendingBatches [t] ++ pendingBatches (remove ts (some t))) := by
  rw [← pendingBatches_append]
  exact (List.perm_cons_erase ht).filterMap _

/-- The pending batches: none, or the one that is not yet delivered. -/
def single (batch : List Delivery) : List (List Delivery) := if batch = [] then [] else [batch]

theorem single_perm (h : (single batch).Perm bs) : bs = single batch := by
  unfold single at h ⊢
  split
  · rename_i hnil
    rw [if_pos hnil] at h
    exact List.nil_perm.mp h
  · rename_i hne
    rw [if_neg hne] at h
    exact (List.singleton_perm.mp h).symm

theorem single_perm_cons {b : List Delivery} (h : (single batch).Perm (b :: bs)) :
    batch = b ∧ bs = [] := by
  have := single_perm h
  unfold single at this
  split at this
  · cases this
  · cases this
    exact ⟨rfl, rfl⟩

/-- If no batch is pending, everything committed is delivered. -/
theorem batch_eq_nil (hfree : pendingBatches ts = []) (hpend : pendingBatches ts = single batch) :
    batch = [] := by
  by_contra hne
  rw [hfree, single, if_neg hne] at hpend
  cases hpend

/-! ## What one region does to a node -/

/-- `ds` are the messages at all committed positions, in order, as far as the log still has them. -/
structure Committed (r : Raft n σ) (ds : List Delivery) : Prop where
  nonneg : 0 ≤ r.snapshotter.lastIndex
  base : r.snapshotter.lastIndex ≤ r.commitedLength
  bound : r.commitedLength ≤ r.absLength
  positions : ds.map Prod.fst = positions 0 r.commitedLength.toNat
  messages : ∀ d ∈ ds, ∀ e, r.entryAt d.1 = some e → e.message = d.2

variable {ds ds' : List Delivery} {r' : Raft n σ} {prefixLen snapshotThreshold : Int}
  {suffix : List LogEntry} {args : LogRequestArgs n} {f : Fin n} {c : Cluster n σ}

theorem Committed.position_lt (h : Committed r ds) (hd : d ∈ ds) : d.1 < r.commitedLength := by
  have hmem : d.1 ∈ ds.map Prod.fst := List.mem_map_of_mem hd
  rw [h.positions, mem_positions] at hmem
  have := h.nonneg
  have := h.base
  omega

/-- The committed part of the log is as before. -/
theorem Committed.of_agree (h : Committed r ds) (hcommit : r'.commitedLength = r.commitedLength)
    (hnonneg : 0 ≤ r'.snapshotter.lastIndex)
    (hbase : r'.snapshotter.lastIndex ≤ r.commitedLength) (hbound : r.commitedLength ≤ r'.absLength)
    (hagree : ∀ p e, p < r.commitedLength → r'.entryAt p = some e → r.entryAt p = some e) :
    Committed r' ds where
  nonneg := hnonneg
  base := hcommit ▸ hbase
  bound := hcommit ▸ hbound
  positions := hcommit ▸ h.positions
  messages d hd e he := h.messages d hd e (hagree _ e (h.position_lt hd) he)

theorem Committed.sameLog (h : Committed r ds) (hsame : r.SameLog r') : Committed r' ds := by
  have hentry : ∀ p, r'.entryAt p = r.entryAt p := by
    intro p
    unfold Raft.entryAt
    rw [hsame.log, hsame.snapshotter]
  refine h.of_agree hsame.commitedLength (hsame.snapshotter ▸ h.nonneg)
    (hsame.snapshotter ▸ h.base) ?_ fun p e _ he ↦ hentry p ▸ he
  unfold Raft.absLength
  rw [hsame.log, hsame.snapshotter]
  exact h.bound

/-- Messages of the log from the commit length on become committed. -/
theorem Committed.extend (h : Committed r ds) (hdel : r.Delivers r.commitedLength ds')
    (hbound : r.commitedLength + ds'.length ≤ r.absLength)
    (hcommit : r'.commitedLength = r.commitedLength + ds'.length) (hlog : r'.log = r.log)
    (hsnap : r'.snapshotter = r.snapshotter) : Committed r' (ds ++ ds') := by
  have hentry : ∀ p, r'.entryAt p = r.entryAt p := by
    intro p
    unfold Raft.entryAt
    rw [hlog, hsnap]
  have h0 := h.nonneg
  have hb := h.base
  refine ⟨hsnap ▸ h0, ?_, ?_, ?_, ?_⟩
  · rw [hsnap, hcommit]
    omega
  · unfold Raft.absLength at hbound ⊢
    rw [hlog, hsnap, hcommit]
    exact hbound
  · rw [List.map_append, h.positions, hdel.positions, hcommit,
      show (r.commitedLength + (ds'.length : Int)).toNat =
        r.commitedLength.toNat + ds'.length by omega, positions_add]
    congr 2
    omega
  · intro d hd e he
    rw [hentry] at he
    rcases List.mem_append.mp hd with hd | hd
    · exact h.messages d hd e he
    · obtain ⟨e', he', hmsg⟩ := hdel.messages d hd
      rw [he] at he'
      cases he'
      exact hmsg

theorem Committed.broadcast (h : Committed r ds) (m : Message) :
    Committed (r.broadcast i m) ds := by
  have hbound := h.bound
  unfold Raft.absLength at hbound
  refine h.of_agree rfl h.nonneg h.base ?_ fun p e hp he ↦ ?_
  · simp only [Raft.broadcast, Raft.absLength, List.length_append, List.length_singleton]
    omega
  · obtain ⟨h0, hget⟩ := index?_eq_some.mp he
    simp only [Raft.broadcast] at h0 hget
    rw [List.getElem?_append_left (by omega)] at hget
    exact index?_eq_some.mpr ⟨h0, hget⟩

/-- A log that is cut at or after the commit length. -/
theorem truncatedLog_committed (hbound : r.commitedLength ≤ r.absLength)
    (hcut : r.conflicts prefixLen suffix → r.commitedLength ≤ prefixLen) :
    r.truncatedLog prefixLen suffix <+: r.log ∧
      r.commitedLength ≤ r.snapshotter.lastIndex + (r.truncatedLog prefixLen suffix).length := by
  unfold Raft.truncatedLog
  split
  · rename_i hconf
    have hle := hcut hconf
    have hlt := hconf.1
    unfold Raft.absLength at hlt
    refine ⟨List.take_prefix _ _, ?_⟩
    rw [List.length_take]
    omega
  · exact ⟨List.prefix_refl _, hbound⟩

theorem Committed.appendSuffix (h : Committed r ds)
    (hcut : r.conflicts prefixLen suffix → r.commitedLength ≤ prefixLen) :
    Committed (r.appendSuffix prefixLen suffix) ds := by
  have hbase := h.base
  have htrunc := truncatedLog_committed h.bound hcut
  refine h.of_agree rfl h.nonneg hbase ?_ fun p e hp he ↦ ?_
  · simp only [Raft.absLength, Raft.appendSuffix, List.length_append]
    omega
  · obtain ⟨h0, hget⟩ := index?_eq_some.mp he
    simp only [Raft.appendSuffix] at h0 hget
    rw [List.getElem?_append_left (by omega)] at hget
    exact index?_eq_some.mpr ⟨h0, prefix_getElem? htrunc.1 hget⟩

theorem Committed.commitTo (h : Committed r ds) {leaderCommit : Int}
    (hcommit : r.commitTo app leaderCommit = some (r', ds')) : Committed r' (ds ++ ds') := by
  obtain ⟨hdel, hle, -, application, rfl⟩ := Raft.commitTo_advance hcommit h.bound
  exact h.extend hdel hle rfl rfl rfl

theorem Committed.decideRunSnapshot (h : Committed r ds)
    (hsnap : r.decideRunSnapshot app disk = some r') : Committed r' ds := by
  obtain ⟨file, rfl⟩ | ⟨file, e, -, hpos, hle, -, rfl⟩ := Raft.decideRunSnapshot_cases hsnap
  · exact h.sameLog ⟨rfl, rfl, rfl⟩
  · have hbase := h.base
    have hnonneg := h.nonneg
    have hbound := h.bound
    unfold Raft.absLength at hbound
    refine h.of_agree rfl ?_ le_rfl ?_ fun p e hp he ↦ ?_
    · simp only [Raft.compact]
      omega
    · simp only [Raft.absLength, Raft.compact]
      omega
    · have := (index?_lt he).1
      simp only [Raft.compact] at this
      omega

theorem Committed.appendEntries (h : Committed r ds)
    (hcut : r.conflicts args.prefixLen args.suffix → r.commitedLength ≤ args.prefixLen)
    (happ : r.appendEntries app disk args = some (r', ds')) : Committed r' (ds ++ ds') := by
  obtain ⟨r₁, hcommit, hsnap⟩ := Raft.appendEntries_cases happ
  exact ((h.appendSuffix hcut).commitTo hcommit).decideRunSnapshot hsnap

theorem Committed.commitLogEntries (h : Committed r ds) {ack : Int}
    (hcommit : (r.recordAck f ack).commitLogEntries i = some (r', ds')) :
    Committed r' (ds ++ ds') := by
  have hack : Committed (r.recordAck f ack) ds := h.sameLog ⟨rfl, rfl, rfl⟩
  obtain ⟨rfl, hdel, hle, -⟩ := Raft.commitLogEntries_spec hcommit
  refine hack.extend hdel ?_ rfl rfl rfl
  by_cases hnil : ds' = []
  · subst hnil
    simpa using hack.bound
  · exact hle hnil

/-- A snapshot that ends at the commit length of an empty log changes nothing that matters. -/
theorem Committed.installSnapshot (h : Committed r ds) {req : InstallSnapshotRequest n}
    {reply : Option InstallSnapshotResponse} (hout : r.InstallOutcome app disk req r' reply)
    (hkept : req.done = true → req.leaderTerm < r.currentTerm ∨
      r.log = [] ∧ req.lastIncludedIndex = r.commitedLength) : Committed r' ds := by
  have hnonneg := h.nonneg
  have hbase := h.base
  have hbound := h.bound
  unfold Raft.absLength at hbound
  have hempty : r.log = [] → r.logAfterSnapshot req = [] := by
    intro hnil
    unfold Raft.logAfterSnapshot
    split
    · rw [hnil, List.drop_nil]
    · rfl
  cases hout with
  | stale => exact h
  | stored => exact h.sameLog ⟨by simp, by simp, by simp⟩
  | failed hterm hdone =>
    obtain ⟨hnil, -⟩ := (hkept hdone).resolve_left (by omega)
    exact h.sameLog ⟨by simp [hempty hnil, hnil], by simp, by simp⟩
  | restored hterm hdone =>
    obtain ⟨hnil, hindex⟩ := (hkept hdone).resolve_left (by omega)
    rw [hnil, List.length_nil] at hbound
    refine h.of_agree (by simp only; omega) (by simp only; omega) (by simp only; omega) ?_ ?_
    · simp only [Raft.absLength, hempty hnil, List.length_nil]
      omega
    · intro p e _ he
      simp only [Raft.entryAt, hempty hnil] at he
      have := index?_lt he
      simp only [List.length_nil] at this
      omega

/-! ## Runs -/

/-- What was delivered and the one batch still pending make up the committed log. -/
def InOrder (r : Raft n σ) (ts : List (Thread n)) (ds : List Delivery) : Prop :=
  ∃ batch, pendingBatches ts = single batch ∧ Committed r (ds ++ batch)

/-- Threads that hold no batch come and go. -/
theorem pendingBatches_next (hthread : ∀ t ∈ a.thread, t ∈ ts)
    (hplain : ∀ t ∈ a.thread, t.batch = none) (hpend : pendingBatches ts = single batch) :
    pendingBatches (remove ts a.thread) = single batch := by
  cases ht : a.thread with
  | none => exact hpend
  | some t =>
    have hperm := pendingBatches_remove_perm (hthread t ht)
    have hnil : pendingBatches [t] = [] := pendingBatches_eq_nil (by simpa using hplain t ht)
    rw [hnil, List.nil_append, hpend] at hperm
    exact single_perm hperm

theorem pendingBatches_deliver (batch : List Delivery) :
    pendingBatches (if batch = [] then [] else [Thread.deliver (n := n) batch]) =
      single batch := by
  unfold single
  split <;> rfl

/-- Only the delivery of a batch continues a thread that holds one. -/
theorem batch_eq_none_of_thread (hne : ∀ b, a ≠ .deliver b) : ∀ t ∈ a.thread, t.batch = none := by
  intro t ht
  cases a with
  | deliver b => exact absurd rfl (hne b)
  | _ => cases ht <;> rfl

/-- An action that neither takes a batch nor adds one. -/
theorem pendingBatches_plain (hthread : ∀ t ∈ a.thread, t ∈ ts) (hne : ∀ b, a ≠ .deliver b)
    {added : List (Thread n)} (hadded : ∀ t ∈ added, t.batch = none)
    (hpend : pendingBatches ts = single batch) :
    pendingBatches (remove ts a.thread ++ added) = single batch := by
  rw [pendingBatches_append, pendingBatches_next hthread (batch_eq_none_of_thread hne) hpend,
    pendingBatches_eq_nil hadded, List.append_nil]

/-- Such an action, if it delivers nothing either. -/
theorem InOrder.plain (h : InOrder r ts hist) (hthread : ∀ t ∈ a.thread, t ∈ ts)
    (hne : ∀ b, a ≠ .deliver b) (hadded : ∀ t ∈ e.threads, t.batch = none)
    (hevents : deliveredBy i e.events = []) (hcom : ∀ ds, Committed r ds → Committed e.state ds) :
    InOrder e.state (remove ts a.thread ++ e.threads) (hist ++ deliveredBy i e.events) := by
  obtain ⟨batch, hpend, h⟩ := h
  refine ⟨batch, pendingBatches_plain hthread hne hadded hpend, ?_⟩
  rw [hevents, List.append_nil]
  exact hcom _ h

/-- Messages that are committed while no batch is pending, and delivered at once. -/
theorem inOrder_appendEntries (h : InOrder r ts hist) (hthread : .appendEntries args ∈ ts)
    (hkept : r.keepsOrder i ts (.appendEntries args disk) = true)
    (happ : r.appendEntries app disk args = some (r', ds')) :
    InOrder r' (remove ts (some (.appendEntries args)) ++ [.logReply args]) (hist ++ ds') := by
  obtain ⟨batch, hpend, hcom⟩ := h
  obtain ⟨hfree, hcut⟩ := of_decide_eq_true hkept
  refine ⟨batch, ?_, ?_⟩
  · exact pendingBatches_plain (a := .appendEntries args disk)
      (by simpa [Action.thread] using hthread) (by simp) (by simp [Thread.batch]) hpend
  · have hcom' := hcom.appendEntries hcut happ
    by_cases hbatch : batch = []
    · subst hbatch
      simpa using hcom'
    · -- a batch is pending, so nothing new is committed
      have hnone : ds' = [] := by
        obtain ⟨r₁, hcommit, -⟩ := Raft.appendEntries_cases happ
        obtain ⟨-, -, rfl⟩ | ⟨hlt, -⟩ := Raft.commitTo_spec hcommit
        · rfl
        · exact absurd (batch_eq_nil (hfree hlt) hpend) hbatch
      subst hnone
      simpa using hcom'

theorem inOrder_commits {req : LogRequestArgs n} {resp : LogResponse n} (h : InOrder r ts hist)
    (hcommits : r.commits resp) (hkept : r.keepsOrder i ts (.replicateResponse f req resp) = true)
    (hcommit : (r.recordAck f resp.ack).commitLogEntries i = some (r', ds')) :
    InOrder r' (ts ++ if ds' = [] then [] else [.deliver ds']) hist := by
  obtain ⟨batch, hpend, hcom⟩ := h
  have hcom' := hcom.commitLogEntries hcommit
  by_cases hnil : ds' = []
  · subst hnil
    exact ⟨batch, by simpa using hpend, by simpa using hcom'⟩
  · obtain ⟨rfl, -, hle, hquorum⟩ := Raft.commitLogEntries_spec hcommit
    have hlen := List.length_pos_iff.mpr hnil
    have hlt : r.commitedLength + (ds'.length : Int) ≤ r.absLength := hle hnil
    have hfree : pendingBatches ts = [] := of_decide_eq_true hkept
      ⟨hcommits, by omega, hquorum _ le_rfl (by simp only [Raft.recordAck]; omega)⟩
    obtain rfl := batch_eq_nil hfree hpend
    refine ⟨ds', ?_, by simpa using hcom'⟩
    rw [pendingBatches_append, hfree, pendingBatches_deliver, List.nil_append]

theorem inOrder_deliver {rest : List Delivery} (h : InOrder r ts hist)
    (hthread : .deliver (d :: rest) ∈ ts) :
    InOrder (r.deliver app d.2) (remove ts (some (.deliver (d :: rest))) ++
      if rest = [] then [] else [.deliver rest]) (hist ++ [d]) := by
  obtain ⟨batch, hpend, hcom⟩ := h
  have hperm := pendingBatches_remove_perm hthread
  rw [hpend] at hperm
  obtain ⟨rfl, hrest⟩ := single_perm_cons hperm
  change pendingBatches (remove ts _) = [] at hrest
  refine ⟨rest, ?_, ?_⟩
  · rw [pendingBatches_append, hrest, pendingBatches_deliver, List.nil_append]
  · rw [List.append_assoc, List.singleton_append]
    exact hcom.sameLog ⟨rfl, rfl, rfl⟩

theorem inOrder_act (hact : r.act app i a = some e) (hthread : ∀ t ∈ a.thread, t ∈ ts)
    (hkept : r.keepsOrder i ts a = true) (h : InOrder r ts hist) :
    InOrder e.state (remove ts a.thread ++ e.threads) (hist ++ deliveredBy i e.events) := by
  cases Raft.act_log hact with
  | broadcasts m =>
    exact h.plain hthread (by simp) (by simp [Raft.quiet]) rfl fun _ hcom ↦ hcom.broadcast m
  | accepts args =>
    exact h.plain hthread (by simp) (by simp [Raft.spawn, Thread.batch]) rfl
      fun _ hcom ↦ hcom.sameLog Raft.followLeader_sameLog
  | installs hinst hout =>
    exact h.plain hthread (by simp) (by simp) rfl
      fun _ hcom ↦ hcom.installSnapshot hout (of_decide_eq_true hkept)
  | appends happ =>
    rw [deliveredBy_map]
    exact inOrder_appendEntries h (hthread _ rfl) hkept happ
  | commits hcommits hcommit =>
    change InOrder _ _ (hist ++ [])
    rw [List.append_nil]
    exact inOrder_commits h hcommits hkept hcommit
  | delivers d rest =>
    rw [show deliveredBy i [Event.delivered i d] = [d] from deliveredBy_map i [d]]
    exact inOrder_deliver h (hthread _ rfl)
  | other hsame hthreads hevents =>
    refine h.plain hthread ?_ ?_ (deliveredBy_eq_nil hevents) fun _ hcom ↦ hcom.sameLog hsame
    · rintro b rfl
      cases b with
      | nil => cases hact
      | cons d rest =>
        obtain rfl := Option.some.inj hact
        cases hevents _ (List.mem_singleton.mpr rfl)
    · intro t ht
      have := hthreads t ht
      cases t with
      | deliver => cases this
      | _ => rfl

/-- The events of a step are the acting node's own. -/
theorem deliveredBy_other (hact : r.act app i a = some e) (hne : j ≠ i) :
    deliveredBy j e.events = [] := by
  cases Raft.act_log hact with
  | appends => exact deliveredBy_map_of_ne hne.symm _
  | delivers d rest => exact deliveredBy_map_of_ne hne.symm [d]
  | other _ _ hevents => exact deliveredBy_eq_nil hevents
  | _ => rfl

/-- A finished snapshot of the node's term or a later one. -/
def Raft.takesSnapshot (r : Raft n σ) : Action n → Bool
  | .installSnapshot req _ => req.done = true ∧ r.currentTerm ≤ req.leaderTerm
  | _ => false

/-- Other than by a snapshot, the application changes by what is delivered. -/
theorem act_application (hact : r.act app i a = some e) (hno : r.takesSnapshot a = false) :
    e.state.application =
      app.applied r.application ((deliveredBy i e.events).map Prod.snd) := by
  by_cases ha : a.leavesStore = true
  · have hnone : deliveredBy i e.events = [] := by
      cases Raft.act_log hact with
      | appends | installs | delivers => cases ha
      | other _ _ hevents => exact deliveredBy_eq_nil hevents
      | _ => rfl
    rw [(act_leavesStore hact ha).1, hnone]
    rfl
  · cases a with
    | appendEntries args disk =>
      obtain ⟨⟨r', ds⟩, happ, rfl⟩ := Option.map_eq_some_iff.mp hact
      obtain ⟨r₁, hcommit, hsnap⟩ := Raft.appendEntries_cases happ
      simp only [deliveredBy_map]
      have hsame : r'.application = r₁.application := by
        obtain ⟨file, rfl⟩ | ⟨file, entry, -, -, -, -, rfl⟩ :=
          Raft.decideRunSnapshot_cases hsnap <;> rfl
      rw [hsame, Raft.commitTo_application hcommit]
      rfl
    | installSnapshot req disk =>
      obtain rfl := Option.some.inj hact
      have hout := Raft.installSnapshot_outcome app disk r req
      have hnot : ¬ (req.done = true ∧ r.currentTerm ≤ req.leaderTerm) := of_decide_eq_false hno
      change (r.installSnapshot app disk req).1.application = r.application
      generalize r.installSnapshot app disk req = out at hout
      obtain ⟨r', reply⟩ := out
      change Raft.InstallOutcome app disk r req r' reply at hout
      change r'.application = r.application
      cases hout with
      | stale => rfl
      | stored => simp
      | failed hterm hdone | restored hterm hdone => exact absurd ⟨hdone, hterm⟩ hnot
    | deliver batch =>
      obtain ⟨d, rest, -, rfl⟩ := Raft.act_deliver hact
      simp [Raft.deliver, deliveredBy, Application.applied]
    | _ => exact absurd rfl ha

theorem inOrder_of_run {application : Fin n → σ}
    (hrun : Reaches (Cluster.step app) OrderKept (Cluster.start n snapshotThreshold application) c)
    (i : Fin n) : InOrder (c.raft i) (c.nodes i).threads (deliveredBy i c.history) := by
  refine hrun.invariant
    (fun c ↦ ∀ i, InOrder (c.raft i) (c.nodes i).threads (deliveredBy i c.history)) ?_ ?_ i
  · intro i
    exact ⟨[], rfl, le_rfl, le_rfl, le_rfl, rfl, fun d hd ↦ absurd hd List.not_mem_nil⟩
  · rintro c ⟨i, a⟩ c' - hs hkept hstep j
    obtain ⟨hthread, -, e, hact, rfl⟩ := Cluster.step_cases hstep
    rw [Config.apply_history, deliveredBy_append]
    by_cases hj : j = i
    · subst hj
      rw [Cluster.raft, Config.apply_self]
      exact inOrder_act hact hthread hkept (hs j)
    · rw [deliveredBy_other hact hj, List.append_nil, Cluster.raft, Config.apply_of_ne hj]
      exact hs j

/-- Without snapshots the application has been given what was delivered and nothing else. -/
theorem application_of_run {application : Fin n → σ}
    (hrun : Reaches (Cluster.step app) (fun c x ↦ (c.raft x.1).takesSnapshot x.2 = false)
      (Cluster.start n snapshotThreshold application) c) (i : Fin n) : (c.raft i).application =
      app.applied (application i) ((deliveredBy i c.history).map Prod.snd) := by
  refine hrun.invariant (fun c ↦ ∀ i, (c.raft i).application =
    app.applied (application i) ((deliveredBy i c.history).map Prod.snd)) (fun _ ↦ rfl) ?_ i
  rintro c ⟨i, a⟩ c' - hs hno hstep j
  obtain ⟨-, -, e, hact, rfl⟩ := Cluster.step_cases hstep
  rw [Config.apply_history, deliveredBy_append]
  by_cases hj : j = i
  · subst hj
    rw [Cluster.raft, Config.apply_self, List.map_append, Application.applied_append, ← hs j]
    exact act_application hact hno
  · rw [deliveredBy_other hact hj, List.append_nil, Cluster.raft, Config.apply_of_ne hj]
    exact hs j

/-- In a run that keeps the order, what a node has delivered together with at most one pending batch
is its committed log: every position from `0` to the commit length once and in increasing order,
each with the message the log has there. -/
theorem delivery_in_order (app : Application σ) (snapshotThreshold : Int) (application : Fin n → σ)
    {c : Cluster n σ}
    (hrun : Reaches (Cluster.step app) OrderKept (Cluster.start n snapshotThreshold application) c)
    (i : Fin n) : ∃ batch,
      pendingBatches (c.nodes i).threads = (if batch = [] then [] else [batch]) ∧
      (deliveredBy i c.history ++ batch).map Prod.fst =
        positions 0 (c.raft i).commitedLength.toNat ∧
      ∀ d ∈ deliveredBy i c.history ++ batch, ∀ entry, (c.raft i).entryAt d.1 = some entry →
        entry.message = d.2 := by
  obtain ⟨batch, hpend, hcom⟩ := inOrder_of_run hrun i
  exact ⟨batch, hpend, hcom.positions, hcom.messages⟩

/-- Node 0, leading term 1, commits its first message with node 1 and its second with node 2. -/
def twoBatches : List (Fin 3 × Action 3) :=
  firstElection ++ firstCommit ++ [(0, .getLeaderData (samplePut 2)),
    (0, .broadcast (samplePut 2)), (0, .replicate 2), (0, .prepareLogRequestArgs 2),
    (2, .logRequest ⟨0, 1, 0, 0, 1, [⟨1, samplePut 1⟩, ⟨1, samplePut 2⟩]⟩),
    (2, .appendEntries ⟨0, 1, 0, 0, 1, [⟨1, samplePut 1⟩, ⟨1, samplePut 2⟩]⟩ .healthy),
    (2, .logReply ⟨0, 1, 0, 0, 1, [⟨1, samplePut 1⟩, ⟨1, samplePut 2⟩]⟩)]

/-- The reply of node 2 is handled while the first message is still to be delivered. -/
theorem delivery_out_of_order : ∃ c : Cluster 3 Unit,
    Reachable (Cluster.step keepsNothing) (Cluster.fresh 3) c ∧
      deliveredBy 0 c.history = [(1, samplePut 2), (0, samplePut 1)] :=
  exists_reaches_of_exec
    (twoBatches ++
      [(0, .replicateResponse 2 ⟨0, 1, 0, 0, 1, [⟨1, samplePut 1⟩, ⟨1, samplePut 2⟩]⟩
        ⟨2, 1, 2, true⟩), (0, .deliver [(1, samplePut 2)]), (0, .deliver [(0, samplePut 1)])])
    (by decide +kernel)

/-- The same with the first message delivered in time. -/
theorem delivery_in_order_twoBatches : ∃ c : Cluster 3 Unit,
    Reaches (Cluster.step keepsNothing) OrderKept (Cluster.fresh 3) c ∧
      (deliveredBy 0 c.history).length = 2 ∧
      ∃ batch, (deliveredBy 0 c.history ++ batch).map Prod.fst = positions 0 2 := by
  obtain ⟨c, hrun, hlen, hcommit⟩ : ∃ c : Cluster 3 Unit,
      Reaches (Cluster.step keepsNothing) OrderKept (Cluster.fresh 3) c ∧
        (deliveredBy 0 c.history).length = 2 ∧ (c.raft 0).commitedLength = 2 :=
    exists_reaches_of_exec
      (twoBatches ++ [(0, .deliver [(0, samplePut 1)]),
        (0, .replicateResponse 2 ⟨0, 1, 0, 0, 1, [⟨1, samplePut 1⟩, ⟨1, samplePut 2⟩]⟩
          ⟨2, 1, 2, true⟩), (0, .deliver [(1, samplePut 2)])])
      (by decide +kernel)
  obtain ⟨batch, -, hpos, -⟩ := delivery_in_order keepsNothing 1000 (fun _ ↦ ()) hrun 0
  rw [hcommit] at hpos
  exact ⟨c, hrun, hlen, batch, hpos⟩

end DistributedCache
