import DistributedCache.Lib.Quorum
import DistributedCache.Raft.Delivery
import DistributedCache.Raft.Evidence
import DistributedCache.Raft.Requests

/-!
# Replication under a stable leader

From the moment a leader is elected over followers whose logs are prefixes of its own, and as long
as nobody starts an election, replication is correct whatever the order of the lock regions and
whatever becomes of the messages: followers stay prefixes of the leader, acknowledgements never
exceed what a follower holds, a majority holds what the leader commits, and followers deliver the
leader's messages in order.
-/

namespace DistributedCache

open Network Transition Window Quorum

variable {n : Nat} {σ : Type} {app : Application σ} {l i j f : Fin n} {T : Int} {r r' : Raft n σ}
  {a : Action n} {e : RaftEffect n σ}

/-- What the invariant remembers of a run: the leader's whole log and where its memory starts, the
length of each node's log, and the history. -/
structure Progress (n : Nat) where
  full : List LogEntry
  base : Int
  held : Fin n → Int
  history : List (Event n)
  within : ∀ j, held j ≤ full.length

/-- `ds` are the messages of `full` at the positions from `start` to `stop`. -/
def DeliversFrom (full : List LogEntry) (start stop : Int) (ds : List Delivery) : Prop :=
  ds.map Prod.fst = positions start (stop - start).toNat ∧
    ∀ d ∈ ds, ∃ e, full[d.1.toNat]? = some e ∧ e.message = d.2

/-- The nodes whose logs reach beyond position `p`. -/
def holders (held : Fin n → Int) (p : Int) : Finset (Fin n) := Finset.univ.filter (p < held ·)

section Invariant

variable (l : Fin n) (T : Int) (commit₀ : Fin n → Int)

structure FollowerOk (g : Progress n) (f : Fin n) (r : Raft n σ) : Prop where
  term : r.currentTerm ≤ T
  fits : FitsInt32 r.currentTerm
  role : r.currentRole = .follower
  nonneg : 0 ≤ g.held f
  shows : Shows (g.full.take (g.held f).toNat) r
  base : r.snapshotter.lastIndex ≤ r.commitedLength
  bound : r.commitedLength ≤ g.held f
  started : commit₀ f ≤ r.commitedLength
  delivered : DeliversFrom g.full (commit₀ f) r.commitedLength (deliveredBy f g.history)

structure LeaderOk (g : Progress n) (r : Raft n σ) : Prop where
  term : r.currentTerm = T
  fits : FitsInt32 T
  role : r.currentRole ≠ .candidate
  safe : WireSafe g.full
  shows : Shows g.full r
  base : r.snapshotter.lastIndex = g.base
  held : g.held l = g.full.length
  sent : ∀ f, f ≠ l → g.base < r.sentLengths f ∧ r.sentLengths f ≤ g.full.length + 1
  acked : ∀ f, f ≠ l → r.ackedLengths f ≤ g.held f
  quorum : ∀ p, commit₀ l ≤ p → p < r.commitedLength → majority n ≤ (holders g.held p).card

/-- A request of the leader. -/
structure RequestOk (g : Progress n) (args : LogRequestArgs n) : Prop where
  leader : args.leaderId = l
  term : args.term = T
  base : g.base ≤ args.prefixLen
  small : args.prefixLen + args.suffix.length < 2 ^ 31
  carries : CarriesLog g.full args

def stable (n : Nat) (σ : Type) (l : Fin n) (T : Int) (commit₀ : Fin n → Int) :
    Claims (Fin n) (Raft n σ) (Thread n) (Packet n) (Progress n) where
  node g i r := (i = l → LeaderOk l T commit₀ g r) ∧ (i ≠ l → FollowerOk T commit₀ g i r)
  thread g i _
    | .appendEntries args => i ≠ l ∧ RequestOk l T g args ∧ args.prefixLen ≤ g.held i
    | .logReply args =>
      i ≠ l ∧ RequestOk l T g args ∧ args.prefixLen + args.suffix.length ≤ g.held i
    | .prepareLogRequestArgs f => i = l ∧ f ≠ l
    | .broadcast _ => i = l
    | .deliver _ => i = l
    | .startElection => True
    | .checkQuorumHealth => True
    | _ => False
  packet g
    | .logRequest f args => f ≠ l ∧ RequestOk l T g args
    | .logResponse target f _ resp => target = l ∧ f ≠ l ∧ resp.currentTerm ≤ T ∧
      (resp.success = true → g.base ≤ resp.ack ∧ resp.ack ≤ g.held f)
    | _ => False

/-- The action belongs to a run in which no election is started and messages and lengths stay
within `int32`. -/
def Raft.staysStable (r : Raft n σ) : Action n → Bool
  | .startElection => false
  | .broadcast m => m.Fits ∧ r.absLength + 1 < 2 ^ 31
  | _ => true

/-- How the ghost may grow in a step of node `i`. -/
structure Progress.Grows (i : Fin n) (g g' : Progress n) : Prop where
  base : g'.base = g.base
  full : g.full <+: g'.full
  leads : i ≠ l → g'.full = g.full
  held : ∀ j, g.held j ≤ g'.held j
  others : ∀ j, j ≠ i → g'.held j = g.held j
  delivered : ∀ j, j ≠ i → deliveredBy j g'.history = deliveredBy j g.history

end Invariant

variable {commit₀ : Fin n → Int} {g g' : Progress n}

variable {ds : List Delivery} {args : LogRequestArgs n} {events : List (Event n)}

theorem DeliversFrom.mono {full full' : List LogEntry} {start stop : Int}
    (h : DeliversFrom full start stop ds) (hpre : full <+: full') :
    DeliversFrom full' start stop ds := by
  refine ⟨h.1, fun d hd ↦ ?_⟩
  obtain ⟨e, he, hmsg⟩ := h.2 d hd
  exact ⟨e, prefix_getElem? hpre he, hmsg⟩

theorem holders_mono {held held' : Fin n → Int} (h : ∀ j, held j ≤ held' j) (p : Int) :
    (holders held p).card ≤ (holders held' p).card := by
  refine Finset.card_le_card fun j hj ↦ ?_
  simp only [holders, Finset.mem_filter, Finset.mem_univ, true_and] at hj ⊢
  exact hj.trans_le (h j)

theorem RequestOk.mono (h : RequestOk l T g args) (hgrow : Progress.Grows l i g g') :
    RequestOk l T g' args :=
  ⟨h.leader, h.term, hgrow.base ▸ h.base, h.small, h.carries.mono hgrow.full⟩

theorem stable_thread_mono (hgrow : Progress.Grows l i g g') {t : Thread n}
    (h : (stable n σ l T commit₀).thread g j r t) :
    (stable n σ l T commit₀).thread g' j r' t := by
  cases t with
  | appendEntries | logReply =>
    obtain ⟨hne, hreq, hle⟩ := h
    exact ⟨hne, hreq.mono hgrow, hle.trans (hgrow.held j)⟩
  | _ => exact h

theorem stable_packet_mono (hgrow : Progress.Grows l i g g') {p : Packet n}
    (h : (stable n σ l T commit₀).packet g p) :
    (stable n σ l T commit₀).packet g' p := by
  cases p with
  | logRequest f args => exact ⟨h.1, h.2.mono hgrow⟩
  | logResponse target f req resp =>
    refine ⟨h.1, h.2.1, h.2.2.1, fun hok ↦ ?_⟩
    obtain ⟨hbase, hack⟩ := h.2.2.2 hok
    exact ⟨hgrow.base ▸ hbase, hack.trans (hgrow.held f)⟩
  | _ => exact h

/-- The claims about the other nodes survive. -/
theorem stable_keeps (hgrow : Progress.Grows l i g g') :
    (stable n σ l T commit₀).Keeps i g g' where
  node j r hj h := by
    refine ⟨fun hjl ↦ ?_, fun hjl ↦ ?_⟩
    · subst hjl
      have hlead := h.1 rfl
      have hfull := hgrow.leads hj.symm
      exact { hlead with
        safe := hfull ▸ hlead.safe
        shows := hfull ▸ hlead.shows
        base := hgrow.base ▸ hlead.base
        sent := by rw [hgrow.base, hfull]; exact hlead.sent
        held := by rw [hgrow.others j hj, hfull, hlead.held]
        acked := fun f hf ↦ (hlead.acked f hf).trans (hgrow.held f)
        quorum := fun p h1 h2 ↦ (hlead.quorum p h1 h2).trans (holders_mono hgrow.held p) }
    · have hfol := h.2 hjl
      have hheld := hgrow.others j hj
      have hnonneg := hfol.nonneg
      have hle := g.within j
      exact { hfol with
        nonneg := hheld ▸ hfol.nonneg
        shows := by rw [hheld, prefix_take_eq hgrow.full (by omega)]; exact hfol.shows
        bound := hheld ▸ hfol.bound
        delivered := by rw [hgrow.delivered j hj]; exact hfol.delivered.mono hgrow.full }
  thread _ _ _ _ h := stable_thread_mono hgrow h
  packet _ h := stable_packet_mono hgrow h

/-! ## Steps that leave the log alone -/

def Progress.after (g : Progress n) (events : List (Event n)) : Progress n :=
  { g with history := g.history ++ events }

theorem Progress.grows_after (hother : ∀ j, j ≠ i → deliveredBy j events = []) :
    Progress.Grows l i g (g.after events) where
  base := rfl
  full := List.prefix_refl _
  leads _ := rfl
  held _ := le_rfl
  others _ _ := rfl
  delivered j hj := by
    simp only [Progress.after]
    rw [deliveredBy_append, hother j hj, List.append_nil]

theorem LeaderOk.sameLog (h : LeaderOk l T commit₀ g r) (hsame : r.SameLog r')
    (hterm : r'.currentTerm = r.currentTerm) (hrole : r'.currentRole ≠ .candidate)
    (hsent : ∀ f, f ≠ l → g.base < r'.sentLengths f ∧ r'.sentLengths f ≤ g.full.length + 1)
    (hacked : ∀ f, f ≠ l → r'.ackedLengths f ≤ g.held f) :
    LeaderOk l T commit₀ (g.after events) r' where
  term := hterm.trans h.term
  fits := h.fits
  role := hrole
  safe := h.safe
  shows := h.shows.sameLog hsame
  base := hsame.snapshotter ▸ h.base
  held := h.held
  sent := hsent
  acked := hacked
  quorum p h1 h2 := h.quorum p h1 (hsame.commitedLength ▸ h2)

theorem FollowerOk.sameLog (h : FollowerOk T commit₀ g f r) (hsame : r.SameLog r')
    (hterm : r'.currentTerm ≤ T) (hfits : FitsInt32 r'.currentTerm)
    (hrole : r'.currentRole = .follower) (hevents : deliveredBy f events = []) :
    FollowerOk T commit₀ (g.after events) f r' where
  term := hterm
  fits := hfits
  role := hrole
  nonneg := h.nonneg
  shows := h.shows.sameLog hsame
  base := by rw [hsame.snapshotter, hsame.commitedLength]; exact h.base
  bound := by rw [hsame.commitedLength]; exact h.bound
  started := by rw [hsame.commitedLength]; exact h.started
  delivered := by
    rw [hsame.commitedLength, Progress.after, deliveredBy_append, hevents, List.append_nil]
    exact h.delivered

/-- What a step does to fields other than the log, on the leader and on a follower. -/
structure Undisturbed (l : Fin n) (T : Int) (g : Progress n) (i : Fin n) (r : Raft n σ)
    (e : RaftEffect n σ) : Prop where
  log : r.SameLog e.state
  leader : i = l → e.state.currentTerm = r.currentTerm ∧ e.state.currentRole ≠ .candidate ∧
    (∀ f, f ≠ l → g.base < e.state.sentLengths f ∧ e.state.sentLengths f ≤ g.full.length + 1) ∧
    ∀ f, f ≠ l → e.state.ackedLengths f ≤ g.held f
  follower : i ≠ l → e.state.currentTerm ≤ T ∧ FitsInt32 e.state.currentTerm ∧
    e.state.currentRole = .follower ∧ deliveredBy i e.events = []

theorem stable_undisturbed {ts : List (Thread n)}
    (hnode : (stable n σ l T commit₀).node g i r) (h : Undisturbed l T g i r e)
    (hthreads : ∀ t ∈ e.threads, (stable n σ l T commit₀).thread g i e.state t)
    (hpackets : ∀ p ∈ e.packets, (stable n σ l T commit₀).packet g p)
    (hgrow : Progress.Grows l i g (g.after e.events)) :
    (stable n σ l T commit₀).Restores i g (g.after e.events) ⟨r, ts⟩ e where
  node := by
    refine ⟨fun hi ↦ ?_, fun hi ↦ ?_⟩
    · obtain ⟨hterm, hrole, hsent, hacked⟩ := h.leader hi
      exact (hnode.1 hi).sameLog h.log hterm hrole hsent hacked
    · obtain ⟨hterm, hfits, hrole, hevents⟩ := h.follower hi
      exact (hnode.2 hi).sameLog h.log hterm hfits hrole hevents
  pending _ _ ht := stable_thread_mono hgrow ht
  threads t ht := stable_thread_mono hgrow (hthreads t ht)
  packets p hp := stable_packet_mono hgrow (hpackets p hp)

/-- Nothing that the claims speak of changes, except that a leader may step down. -/
theorem Undisturbed.of_same (hnode : (stable n σ l T commit₀).node g i r)
    (hlog : r.SameLog e.state) (hterm : e.state.currentTerm = r.currentTerm)
    (hrole : e.state.currentRole = r.currentRole ∨ e.state.currentRole = .follower)
    (hsent : e.state.sentLengths = r.sentLengths) (hacked : e.state.ackedLengths = r.ackedLengths)
    (hevents : i ≠ l → deliveredBy i e.events = []) : Undisturbed l T g i r e where
  log := hlog
  leader hi := by
    have hlead := hnode.1 hi
    refine ⟨hterm, ?_, by rw [hsent]; exact hlead.sent, by rw [hacked]; exact hlead.acked⟩
    rcases hrole with h | h
    · exact h ▸ hlead.role
    · rw [h]
      decide
  follower hi := by
    have hfol := hnode.2 hi
    refine ⟨hterm.le.trans hfol.term, hterm ▸ hfol.fits, ?_, hevents hi⟩
    rcases hrole with h | h
    · exact h.trans hfol.role
    · exact h

/-! ## The leader's steps -/

theorem holders_of_quorumAcked (h : LeaderOk l T commit₀ g r) {p : Int}
    (hacked : ∀ f, f ≠ l → r'.ackedLengths f ≤ g.held f) (hp : p < g.held l)
    (hq : r'.quorumAcked l p) : majority n ≤ (holders g.held p).card := by
  refine (Raft.quorumAcked_iff.mp hq).trans (Finset.card_le_card fun j hj ↦ ?_)
  simp only [holders, Finset.mem_filter, Finset.mem_univ, true_and]
  rcases Finset.mem_insert.mp hj with rfl | hj
  · exact hp
  · obtain ⟨hne, hlt⟩ := (Finset.mem_filter.mp hj).2
    exact hlt.trans_le (hacked j hne)

/-- A recorded acknowledgement, as far as the follower really holds the log. -/
theorem LeaderOk.recordAck (h : LeaderOk l T commit₀ g r) {ack : Int} (hbase : g.base ≤ ack)
    (hack : ack ≤ g.held f) : LeaderOk l T commit₀ g (r.recordAck f ack) := by
  have hheld := g.within f
  refine { h with
    shows := h.shows.sameLog ⟨rfl, rfl, rfl⟩, sent := fun j hj ↦ ?_, acked := fun j hj ↦ ?_ }
  · simp only [Raft.recordAck]
    by_cases hjf : j = f
    · subst hjf
      rw [Function.update_self]
      omega
    · rw [Function.update_of_ne hjf]
      exact h.sent j hj
  · simp only [Raft.recordAck]
    by_cases hjf : j = f
    · subst hjf
      rwa [Function.update_self]
    · rw [Function.update_of_ne hjf]
      exact h.acked j hj

theorem LeaderOk.commitLogEntries (h : LeaderOk l T commit₀ g r)
    (hcommit : r.commitLogEntries l = some (r', ds)) :
    LeaderOk l T commit₀ (g.after events) r' := by
  have hheld := h.held
  have habs := h.shows.absLength
  obtain ⟨rfl, -, hle, hquorum⟩ := Raft.commitLogEntries_spec hcommit
  refine { h with shows := h.shows.congr rfl rfl, quorum := fun p h1 h2 ↦ ?_ }
  by_cases hold : p < r.commitedLength
  · exact h.quorum p h1 hold
  · have hne : ds ≠ [] := by
      rintro rfl
      simp only [List.length_nil, Int.natCast_zero, Int.add_zero] at h2
      exact hold h2
    have hbound := hle hne
    exact holders_of_quorumAcked h h.acked (by simp only at h2 hbound; omega)
      (hquorum p (by omega) h2)

/-- The ghost after a `Broadcast` on the leader. -/
def Progress.extend (g : Progress n) (l : Fin n) (entry : LogEntry) : Progress n where
  full := g.full ++ [entry]
  base := g.base
  held := Function.update g.held l (g.full.length + 1)
  history := g.history
  within j := by
    rw [List.length_append, List.length_singleton]
    by_cases hj : j = l
    · subst hj
      rw [Function.update_self]
      omega
    · rw [Function.update_of_ne hj]
      have := g.within j
      omega

theorem Progress.grows_extend (entry : LogEntry) : Progress.Grows l l g (g.extend l entry) where
  base := rfl
  full := List.prefix_append _ _
  leads h := absurd rfl h
  held j := by
    simp only [Progress.extend]
    by_cases hj : j = l
    · subst hj
      rw [Function.update_self]
      have := g.within j
      omega
    · rw [Function.update_of_ne hj]
  others j hj := Function.update_of_ne hj _ _
  delivered _ _ := rfl

theorem LeaderOk.broadcast (h : LeaderOk l T commit₀ g r) {m : Message} (hfits : m.Fits)
    (hlen : r.absLength + 1 < 2 ^ 31) :
    LeaderOk l T commit₀ (g.extend l ⟨r.currentTerm, m⟩) (r.broadcast l m) := by
  have hgrow := Progress.grows_extend (l := l) (g := g) ⟨r.currentTerm, m⟩
  rw [h.shows.absLength] at hlen
  refine { h with
    safe := h.safe.append ⟨by rw [h.term]; exact h.fits, hfits⟩ hlen
    shows := ⟨h.shows.window.append _, fun hpos ↦ (h.shows.snapshot hpos).mono hgrow.full⟩
    held := by simp [Progress.extend]
    sent := fun f hf ↦ ?_
    acked := fun f hf ↦ ?_
    quorum := fun p h1 h2 ↦ (h.quorum p h1 h2).trans (holders_mono hgrow.held p) }
  · obtain ⟨hbase, hle⟩ := h.sent f hf
    refine ⟨hbase, ?_⟩
    simp only [Progress.extend, Raft.broadcast, List.length_append, List.length_singleton]
    omega
  · simp only [Raft.broadcast]
    rw [Function.update_of_ne hf]
    exact (h.acked f hf).trans (hgrow.held f)

/-! ## The follower's steps -/

/-- The ghost after `appendEntries` on a follower. -/
def Progress.accept (g : Progress n) (f : Fin n) (len : Int) (hlen : len ≤ g.full.length)
    (events : List (Event n)) : Progress n where
  full := g.full
  base := g.base
  held := Function.update g.held f (max (g.held f) len)
  history := g.history ++ events
  within j := by
    by_cases hj : j = f
    · subst hj
      rw [Function.update_self]
      exact max_le (g.within j) hlen
    · rw [Function.update_of_ne hj]
      exact g.within j

theorem Progress.grows_accept {len : Int} {hlen : len ≤ g.full.length}
    (hother : ∀ j, j ≠ f → deliveredBy j events = []) :
    Progress.Grows l f g (g.accept f len hlen events) where
  base := rfl
  full := List.prefix_refl _
  leads _ := rfl
  held j := by
    simp only [Progress.accept]
    by_cases hj : j = f
    · subst hj
      rw [Function.update_self]
      exact le_max_left _ _
    · rw [Function.update_of_ne hj]
  others j hj := Function.update_of_ne hj _ _
  delivered j hj := by
    simp only [Progress.accept]
    rw [deliveredBy_append, hother j hj, List.append_nil]

theorem DeliversFrom.extend {full : List LogEntry} {start stop : Int} {ds' : List Delivery}
    (h : DeliversFrom full start stop ds) (hle : start ≤ stop) (hdel : r.Delivers stop ds')
    (hentry : ∀ p entry, r.entryAt p = some entry → full[p.toNat]? = some entry) :
    DeliversFrom full start (stop + ds'.length) (ds ++ ds') := by
  refine ⟨?_, fun d hd ↦ ?_⟩
  · rw [List.map_append, h.1, hdel.positions,
      show (stop + (ds'.length : Int) - start).toNat = (stop - start).toNat + ds'.length by omega,
      positions_add]
    congr 2
    omega
  · rcases List.mem_append.mp hd with hd | hd
    · exact h.2 d hd
    · obtain ⟨entry, he, hmsg⟩ := hdel.messages d hd
      exact ⟨entry, hentry _ _ he, hmsg⟩

theorem extendedLog_take {full : List LogEntry} {k : Int} (hk : 0 ≤ k) (hbound : k ≤ full.length)
    (h0 : 0 ≤ args.prefixLen) : extendedLog (full.take k.toNat) full args =
      full.take (max k (args.prefixLen + args.suffix.length)).toNat := by
  unfold extendedLog
  rw [List.length_take]
  split
  · congr 1
    omega
  · congr 1
    omega

theorem FollowerOk.appendEntries {disk : Disk} (h : FollowerOk T commit₀ g f r)
    (hcarry : CarriesLog g.full args) (hle : args.prefixLen ≤ g.held f)
    (happ : r.appendEntries app disk args = some (r', ds)) :
    FollowerOk T commit₀ (g.accept f (args.prefixLen + args.suffix.length) hcarry.length_le
      (ds.map (.delivered f))) f r' := by
  have hcontrol := Raft.appendEntries_sameControl happ
  obtain ⟨r₁, hcommit, hsnap⟩ := Raft.appendEntries_cases happ
  have hnonneg := h.nonneg
  have hwithin := g.within f
  have hbase := h.base
  have hbound := h.bound
  have hstarted := h.started
  have hown : (g.full.take (g.held f).toNat).length = g.held f := by
    rw [List.length_take]
    omega
  -- the log after the append, and its length
  have hshows := appendSuffix_shows h.shows (List.take_prefix _ _) hcarry (by omega)
  rw [extendedLog_take hnonneg hwithin hcarry.nonneg] at hshows
  have hlen := hcarry.length_le
  have habs := hshows.absLength
  rw [List.length_take] at habs
  have hfixed : (r.appendSuffix args.prefixLen args.suffix).commitedLength = r.commitedLength ∧
      (r.appendSuffix args.prefixLen args.suffix).snapshotter = r.snapshotter := ⟨rfl, rfl⟩
  generalize r.appendSuffix args.prefixLen args.suffix = r₀ at hcommit hshows habs hfixed
  obtain ⟨hcommit₀, hsnap₀⟩ := hfixed
  -- what is committed and delivered
  obtain ⟨hdel, hstop, -, application, rfl⟩ := Raft.commitTo_advance hcommit (by omega)
  have hdone := decideRunSnapshot_commit hsnap (by simp only [hsnap₀, hcommit₀]; omega)
  simp only at hdone
  have hheld : (g.accept f (args.prefixLen + args.suffix.length) hcarry.length_le
      (ds.map (.delivered f))).held f = max (g.held f) (args.prefixLen + args.suffix.length) :=
    Function.update_self _ _ _
  refine ⟨hcontrol.term ▸ h.term, hcontrol.term ▸ h.fits, hcontrol.role.trans h.role, ?_, ?_, ?_,
    ?_, ?_, ?_⟩
  · omega
  · rw [hheld]
    refine decideRunSnapshot_shows ?_ hsnap
    exact hshows.congr rfl rfl
  · omega
  · omega
  · omega
  · simp only [Progress.accept]
    rw [deliveredBy_append, deliveredBy_map, hdone.1, hcommit₀]
    rw [hcommit₀] at hdel
    exact h.delivered.extend hstarted hdel fun p entry he ↦
      prefix_getElem? (List.take_prefix _ _) (hshows.entryAt he)

/-! ## All actions -/

/-- The ghost grows and the claims hold of the new one. -/
def Continues (l : Fin n) (T : Int) (commit₀ : Fin n → Int) (g : Progress n) (i : Fin n)
    (r : Raft n σ) (ts : List (Thread n)) (e : RaftEffect n σ) : Prop :=
  ∃ g' : Progress n, g'.history = g.history ++ e.events ∧ Progress.Grows l i g g' ∧
    (stable n σ l T commit₀).Restores i g g' ⟨r, ts⟩ e

variable {ts : List (Thread n)}

theorem Continues.undisturbed (hnode : (stable n σ l T commit₀).node g i r)
    (h : Undisturbed l T g i r e)
    (hthreads : ∀ t ∈ e.threads, (stable n σ l T commit₀).thread g i e.state t)
    (hpackets : ∀ p ∈ e.packets, (stable n σ l T commit₀).packet g p)
    (hother : ∀ j, j ≠ i → deliveredBy j e.events = []) : Continues l T commit₀ g i r ts e :=
  ⟨g.after e.events, rfl, Progress.grows_after hother,
    stable_undisturbed hnode h hthreads hpackets (Progress.grows_after hother)⟩

theorem Continues.quiet (hnode : (stable n σ l T commit₀).node g i r) (hlog : r.SameLog r')
    (hterm : r'.currentTerm = r.currentTerm)
    (hrole : r'.currentRole = r.currentRole ∨ r'.currentRole = .follower)
    (hsent : r'.sentLengths = r.sentLengths) (hacked : r'.ackedLengths = r.ackedLengths) :
    Continues l T commit₀ g i r ts r'.quiet :=
  .undisturbed hnode (.of_same hnode hlog hterm hrole hsent hacked fun _ ↦ rfl)
    (fun _ ht ↦ absurd ht List.not_mem_nil) (fun _ hp ↦ absurd hp List.not_mem_nil)
    fun _ _ ↦ rfl

theorem Continues.spawn (hnode : (stable n σ l T commit₀).node g i r) (hlog : r.SameLog r')
    (hterm : r'.currentTerm = r.currentTerm) (hrole : r'.currentRole = r.currentRole)
    (hsent : r'.sentLengths = r.sentLengths) (hacked : r'.ackedLengths = r.ackedLengths)
    {t : Thread n} (ht : (stable n σ l T commit₀).thread g i r' t) :
    Continues l T commit₀ g i r ts (r'.spawn t) := by
  refine .undisturbed hnode (.of_same hnode hlog hterm (Or.inl hrole) hsent hacked fun _ ↦ rfl)
    (fun u hu ↦ ?_) (fun p hp ↦ absurd hp List.not_mem_nil) fun _ _ ↦ rfl
  rw [List.mem_singleton.mp hu]
  exact ht

/-- Only the leader has the role. -/
theorem leads_of_role (hnode : (stable n σ l T commit₀).node g i r)
    (hrole : r.currentRole = .leader) : i = l := by
  by_contra hi
  exact absurd ((hnode.2 hi).role.symm.trans hrole) (by decide)

theorem continues_broadcast {m : Message} (hnode : (stable n σ l T commit₀).node g l r)
    (hstay : r.staysStable (.broadcast m) = true) :
    Continues l T commit₀ g l r ts (r.broadcast l m).quiet := by
  obtain ⟨hfits, hlen⟩ := of_decide_eq_true hstay
  refine ⟨g.extend l ⟨r.currentTerm, m⟩, (List.append_nil _).symm, Progress.grows_extend _, ?_⟩
  refine ⟨⟨fun _ ↦ (hnode.1 rfl).broadcast hfits hlen, fun h ↦ absurd rfl h⟩, ?_, ?_, ?_⟩
  · exact fun _ _ ht ↦ stable_thread_mono (Progress.grows_extend _) ht
  · exact fun t ht ↦ absurd ht List.not_mem_nil
  · exact fun p hp ↦ absurd hp List.not_mem_nil

theorem continues_prepare (hnode : (stable n σ l T commit₀).node g l r) (hf : f ≠ l) :
    Continues l T commit₀ g l r ts (r.prepareLogRequestEffect l f) := by
  have hlead := hnode.1 rfl
  obtain ⟨hbase, hle⟩ := hlead.sent f hf
  obtain ⟨hno, hprefixLen⟩ := prepareLogRequestArgs_prefixLen (i := l) hlead.shows hlead.safe
    (hlead.base ▸ hbase) hle
  refine .undisturbed hnode
    (.of_same hnode (.refl r) rfl (Or.inl rfl) rfl rfl fun _ ↦ rfl) ?_ ?_ fun _ _ ↦ rfl
  · simp [Raft.prepareLogRequestEffect, hno]
  · intro p hp
    rw [List.mem_singleton.mp hp]
    have hcarry := prepareLogRequestArgs_carries hlead.shows hlead.safe l f
    refine ⟨hf, ?_, ?_, ?_, hcarry.length_le.trans_lt hlead.safe.length, hcarry⟩
    · unfold Raft.prepareLogRequestArgs
      rw [if_neg hno]
      simp only
      split <;> rfl
    · rw [Raft.prepareLogRequestArgs_term, hlead.term]
      exact int32_eq_self hlead.fits
    · rw [hprefixLen]
      omega

theorem followLeader_term_le (hnode : (stable n σ l T commit₀).node g i r) (hi : i ≠ l)
    (hterm : args.term = T) :
    (r.followLeader i args).currentTerm = T ∧
      (r.followLeader i args).currentRole = .follower := by
  have hle := (hnode.2 hi).term
  rcases r.followLeader_cases i args with ⟨-, h⟩ | ⟨heq, h⟩ | ⟨hlt, -⟩
  · rw [h]
    exact ⟨hterm, rfl⟩
  · rw [h]
    exact ⟨heq.trans hterm, rfl⟩
  · omega

theorem continues_logRequest (hnode : (stable n σ l T commit₀).node g i r) (hi : i ≠ l)
    (hfits : FitsInt32 T) (hreq : RequestOk l T g args) :
    Continues l T commit₀ g i r ts (r.logRequestEffect i args) := by
  have hfol := hnode.2 hi
  obtain ⟨hterm, hrole⟩ := followLeader_term_le hnode hi hreq.term
  have hsame : ∀ {threads packets}, Undisturbed l T g i r
      ⟨r.followLeader i args, threads, packets, []⟩ := fun {_ _} ↦
    ⟨Raft.followLeader_sameLog, fun h ↦ absurd h hi, fun _ ↦ ⟨hterm.le, hterm ▸ hfits, hrole, rfl⟩⟩
  unfold Raft.logRequestEffect
  simp only
  split
  · rename_i haccepts
    obtain ⟨hle, -⟩ := logOk_spec hfol.shows hreq.carries.nonneg haccepts.2
    refine .undisturbed hnode hsame ?_ (fun p hp ↦ absurd hp List.not_mem_nil) fun _ _ ↦ rfl
    intro t ht
    rw [List.mem_singleton.mp ht]
    have hnonneg := hfol.nonneg
    rw [List.length_take] at hle
    exact ⟨hi, hreq, by omega⟩
  · refine .undisturbed hnode hsame (fun t ht ↦ absurd ht List.not_mem_nil) ?_ fun _ _ ↦ rfl
    intro p hp
    rw [List.mem_singleton.mp hp]
    refine ⟨hreq.leader, hi, ?_, fun h ↦ absurd h Bool.false_ne_true⟩
    simp only [Raft.rejectLogRequest, hterm]
    exact (int32_eq_self hfits).le

theorem continues_appendEntries {disk : Disk} (hnode : (stable n σ l T commit₀).node g i r)
    (hi : i ≠ l) (hreq : RequestOk l T g args) (hle : args.prefixLen ≤ g.held i)
    (happ : r.appendEntries app disk args = some (r', ds)) :
    Continues l T commit₀ g i r ts ⟨r', [.logReply args], [], ds.map (.delivered i)⟩ := by
  have hgrow : Progress.Grows l i g (g.accept i (args.prefixLen + args.suffix.length)
      hreq.carries.length_le (ds.map (.delivered i))) :=
    Progress.grows_accept fun j hj ↦ deliveredBy_map_of_ne hj.symm ds
  refine ⟨_, rfl, hgrow, ⟨fun h ↦ absurd h hi, fun _ ↦ ?_⟩, ?_, ?_, ?_⟩
  · exact (hnode.2 hi).appendEntries hreq.carries hle happ
  · exact fun _ _ ht ↦ stable_thread_mono hgrow ht
  · intro t ht
    rw [List.mem_singleton.mp ht]
    refine ⟨hi, hreq.mono hgrow, ?_⟩
    simp only [Progress.accept, Function.update_self]
    exact le_max_right _ _
  · exact fun p hp ↦ absurd hp List.not_mem_nil

theorem LeaderOk.retreat (h : LeaderOk l T commit₀ g r) :
    LeaderOk l T commit₀ (g.after events) (r.retreat f) := by
  have hbase := h.base
  unfold Raft.retreat
  split
  · refine h.sameLog ⟨rfl, rfl, rfl⟩ rfl h.role (fun j hj ↦ ?_) h.acked
    obtain ⟨hlo, hhi⟩ := h.sent j hj
    simp only
    by_cases hjf : j = f
    · subst hjf
      rw [Function.update_self]
      omega
    · rw [Function.update_of_ne hjf]
      exact ⟨hlo, hhi⟩
  · exact h.sameLog (.refl r) rfl h.role h.sent h.acked

theorem continues_replicateResponse {req : LogRequestArgs n} {resp : LogResponse n}
    (hnode : (stable n σ l T commit₀).node g l r)
    (hresp : (stable n σ l T commit₀).packet g (.logResponse l f req resp))
    (hact : r.replicateResponseEffect l f resp = some e) : Continues l T commit₀ g l r ts e := by
  have hlead := hnode.1 rfl
  obtain ⟨-, hf, hterm, hok⟩ := hresp
  obtain ⟨⟨r', ds⟩, hr, rfl⟩ := Option.map_eq_some_iff.mp hact
  simp only
  generalize hev : (if r.commits resp then _ else _) = events
  have hquiet : ∀ j, deliveredBy j events = [] := by
    intro j
    rw [← hev]
    split <;> rfl
  -- the leader's claims are all that has to be shown again
  have hdone : LeaderOk l T commit₀ (g.after events) r' → Continues l T commit₀ g l r ts
      ⟨r', if ds = [] then [] else [.deliver ds], [], events⟩ := by
    intro h
    have hgrow : Progress.Grows l l g (g.after events) := Progress.grows_after fun j _ ↦ hquiet j
    refine ⟨_, rfl, hgrow, ⟨fun _ ↦ h, fun h ↦ absurd rfl h⟩, ?_, ?_, ?_⟩
    · exact fun _ _ ht ↦ stable_thread_mono hgrow ht
    · intro t ht
      obtain rfl := List.mem_singleton.mp (List.mem_ite_nil_left.mp ht).2
      rfl
    · exact fun p hp ↦ absurd hp List.not_mem_nil
  cases Raft.replicateResponse_cases hr with
  | newer hnewer =>
    rw [hlead.term, int32_eq_self hlead.fits] at hnewer
    omega
  | acked _ _ _ hsuccess hcommit =>
    obtain ⟨hbase, hack⟩ := hok hsuccess
    exact hdone ((hlead.recordAck hbase hack).commitLogEntries hcommit)
  | refused => exact hdone hlead.retreat
  | ignored => exact hdone (hlead.sameLog (.refl r) rfl hlead.role hlead.sent hlead.acked)

theorem continues_act (hact : r.act app i a = some e) (hstay : r.staysStable a = true)
    (hfits : FitsInt32 T) (hnode : (stable n σ l T commit₀).node g i r)
    (hthread : ∀ t ∈ a.thread, (stable n σ l T commit₀).thread g i r t)
    (hpacket : ∀ p ∈ a.packet i, (stable n σ l T commit₀).packet g p) :
    Continues l T commit₀ g i r ts e := by
  cases a with
  | electionTimeout =>
    obtain rfl := Raft.act_electionTimeout hact
    exact .spawn hnode (.refl r) rfl rfl rfl rfl trivial
  | startElection => cases hstay
  | voteRequest | receiveVote | installSnapshot => exact (hpacket _ rfl).elim
  | getLeaderData m =>
    obtain ⟨hrole, rfl⟩ := Raft.act_getLeaderData hact
    exact .spawn hnode (.refl r) rfl rfl rfl rfl (leads_of_role hnode hrole)
  | broadcast m =>
    obtain rfl := Option.some.inj hact
    obtain rfl : i = l := hthread _ rfl
    exact continues_broadcast hnode hstay
  | forward =>
    obtain rfl := Option.some.inj hact
    unfold Raft.forwardClearsLeader
    split <;> exact .quiet hnode ⟨rfl, rfl, rfl⟩ rfl (Or.inl rfl) rfl rfl
  | replicate f =>
    obtain ⟨⟨hne, hrole⟩, rfl⟩ := Raft.act_replicate hact
    obtain rfl := leads_of_role hnode hrole
    have hlead := hnode.1 rfl
    obtain ⟨hbase, hle⟩ := hlead.sent f hne
    -- a stable leader keeps every entry its followers lack, so no snapshot is sent
    obtain ⟨hno, -⟩ := prepareLogRequestArgs_prefixLen (i := i) hlead.shows hlead.safe
      (hlead.base ▸ hbase) hle
    rw [if_neg hno]
    exact .spawn hnode (.refl r) rfl rfl rfl rfl ⟨rfl, hne⟩
  | replicateFailed f current =>
    obtain rfl := Option.some.inj hact
    split
    all_goals
      refine .spawn hnode ⟨?_, ?_, ?_⟩ ?_ ?_ ?_ ?_ ?_
      all_goals first | rfl | exact trivial
  | checkQuorumHealth =>
    obtain rfl := Option.some.inj hact
    unfold Raft.checkQuorumHealth
    split
    · exact .quiet hnode ⟨rfl, rfl, rfl⟩ rfl (Or.inr rfl) rfl rfl
    · exact .quiet hnode (.refl r) rfl (Or.inl rfl) rfl rfl
  | prepareLogRequestArgs f =>
    obtain rfl := Option.some.inj hact
    obtain ⟨rfl, hf⟩ := hthread _ rfl
    exact continues_prepare hnode hf
  | logRequest args =>
    obtain rfl := Option.some.inj hact
    obtain ⟨hi, hreq⟩ := hpacket _ rfl
    exact continues_logRequest hnode hi hfits hreq
  | appendEntries args disk =>
    obtain ⟨⟨r', ds⟩, happ, rfl⟩ := Option.map_eq_some_iff.mp hact
    obtain ⟨hi, hreq, hle⟩ := hthread _ rfl
    exact continues_appendEntries hnode hi hreq hle happ
  | logReply args =>
    obtain rfl := Option.some.inj hact
    obtain ⟨hi, hreq, hle⟩ := hthread _ rfl
    refine .undisturbed hnode
      (.of_same hnode (.refl r) rfl (Or.inl rfl) rfl rfl fun _ ↦ rfl)
      (fun t ht ↦ absurd ht List.not_mem_nil) ?_ fun _ _ ↦ rfl
    intro p hp
    rw [List.mem_singleton.mp hp]
    have hbase := hreq.base
    have hack : int32 (args.prefixLen + args.suffix.length) = args.prefixLen + args.suffix.length :=
      int32_eq_self (fits_of_bounds (by have := hreq.carries.nonneg; omega) hreq.small)
    refine ⟨hreq.leader, hi, ?_, fun _ ↦ ?_⟩
    · simp only [Raft.acceptLogRequest]
      rw [int32_eq_self (hnode.2 hi).fits]
      exact (hnode.2 hi).term
    · simp only [Raft.acceptLogRequest, hack]
      omega
  | replicateAnswered f req resp =>
    obtain rfl := Option.some.inj hact
    exact .quiet hnode ⟨rfl, rfl, rfl⟩ rfl (Or.inl rfl) rfl rfl
  | replicateResponse f req resp =>
    obtain ⟨rfl, -⟩ := hpacket _ rfl
    exact continues_replicateResponse hnode (hpacket _ rfl) hact
  | sendInstallSnapshotRPC | openSnapshot | readChunk | snapshotReply | finishTransfer =>
    exact (hthread _ rfl).elim
  | deliver batch =>
    obtain rfl : i = l := hthread _ rfl
    obtain ⟨d, rest, rfl, rfl⟩ := Raft.act_deliver hact
    refine .undisturbed hnode
      (.of_same hnode ⟨rfl, rfl, rfl⟩ rfl (Or.inl rfl) rfl rfl fun h ↦ absurd rfl h) ?_
      (fun p hp ↦ absurd hp List.not_mem_nil)
      fun j hj ↦ deliveredBy_map_of_ne hj.symm [d]
    intro t ht
    obtain rfl := List.mem_singleton.mp (List.mem_ite_nil_left.mp ht).2
    rfl

/-! ## Runs -/

def StaysStable (c : Cluster n σ) (x : Fin n × Action n) : Prop :=
  (c.raft x.1).staysStable x.2 = true
deriving Decidable

/-- The state right after `becomeLeader` on `l` in term `T`, with nothing in flight: the followers'
logs are prefixes of `full`, the leader's whole log, and their snapshots and commit lengths fit. -/
structure StableStart (l : Fin n) (T : Int) (full : List LogEntry) (c : Cluster n σ) : Prop where
  network : c.network = []
  history : c.history = []
  threads : ∀ i, (c.nodes i).threads = []
  role : (c.raft l).currentRole = .leader
  term : (c.raft l).currentTerm = T
  fits : FitsInt32 T
  safe : WireSafe full
  shows : Shows full (c.raft l)
  sent : ∀ f, f ≠ l → (c.raft l).sentLengths f = (c.raft l).absLength + 1
  acked : ∀ f, f ≠ l → (c.raft l).ackedLengths f = 0
  followers : ∀ f, f ≠ l → (c.raft f).currentTerm ≤ T ∧ FitsInt32 (c.raft f).currentTerm ∧
    (c.raft f).currentRole = .follower ∧
    ∃ m ≤ full.length, Shows (full.take m) (c.raft f) ∧
      (c.raft f).snapshotter.lastIndex ≤ (c.raft f).commitedLength ∧
      (c.raft f).commitedLength ≤ m

variable {c c₀ : Cluster n σ} {full : List LogEntry}

theorem StableStart.follower_length (h : StableStart l T full c₀) (hf : f ≠ l) :
    0 ≤ (c₀.raft f).absLength ∧ (c₀.raft f).absLength ≤ full.length ∧
      Shows (full.take (c₀.raft f).absLength.toNat) (c₀.raft f) := by
  obtain ⟨-, -, -, m, hm, hshows, -, -⟩ := h.followers f hf
  have habs := hshows.absLength
  rw [List.length_take] at habs
  refine ⟨by omega, by omega, ?_⟩
  rwa [show (c₀.raft f).absLength.toNat = m by omega]

/-- The ghost at the start. -/
def StableStart.progress (h : StableStart l T full c₀) : Progress n where
  full := full
  base := (c₀.raft l).snapshotter.lastIndex
  held j := (c₀.raft j).absLength
  history := []
  within j := by
    by_cases hj : j = l
    · subst hj
      exact h.shows.absLength.le
    · exact (h.follower_length hj).2.1

theorem StableStart.sound (h : StableStart l T full c₀) :
    Sound (stable n σ l T fun i ↦ (c₀.raft i).commitedLength) h.progress c₀ where
  nodes i := by
    refine ⟨fun hi ↦ ?_, fun hi ↦ ?_⟩
    · subst hi
      have hlen := h.shows.absLength
      refine ⟨h.term, h.fits, by rw [h.role]; decide, h.safe, h.shows, rfl, hlen, fun f hf ↦ ?_,
        fun f hf ↦ ?_, fun p h1 h2 ↦ ?_⟩
      · have hle := h.shows.window.2.1
        simp only [StableStart.progress]
        rw [h.sent f hf, hlen]
        omega
      · rw [h.acked f hf]
        exact (h.follower_length hf).1
      · exact absurd h2 (not_lt.mpr h1)
    · obtain ⟨hterm, hfits, hrole, m, hm, hshows, hbase, hbound⟩ := h.followers i hi
      obtain ⟨hnonneg, -, hshows'⟩ := h.follower_length hi
      have habs := hshows.absLength
      rw [List.length_take] at habs
      refine ⟨hterm, hfits, hrole, hnonneg, hshows', hbase, ?_, le_rfl, ?_, fun d hd ↦ ?_⟩
      · change (c₀.raft i).commitedLength ≤ (c₀.raft i).absLength
        omega
      · simp [StableStart.progress, deliveredBy, positions]
      · simp [StableStart.progress, deliveredBy] at hd
  threads i t ht := by
    rw [h.threads i] at ht
    cases ht
  packets p hp := by
    rw [h.network] at hp
    cases hp

theorem stable_of_run (hstart : StableStart l T full c₀)
    (hrun : Reaches (Cluster.step app) StaysStable c₀ c) :
    ∃ g : Progress n, g.history = c.history ∧ full <+: g.full ∧
      Sound (stable n σ l T fun i ↦ (c₀.raft i).commitedLength) g c := by
  refine hrun.invariant (fun c ↦ ∃ g : Progress n, g.history = c.history ∧ full <+: g.full ∧
    Sound (stable n σ l T fun i ↦ (c₀.raft i).commitedLength) g c) ?_ ?_
  · exact ⟨hstart.progress, hstart.history.symm, List.prefix_refl _, hstart.sound⟩
  rintro c ⟨i, a⟩ c' - ⟨g, hhist, hfull, hs⟩ hstay hstep
  obtain ⟨hthread, hpacket, e, hact, rfl⟩ := Cluster.step_cases hstep
  obtain ⟨g', hhist', hgrow, hrest⟩ : Continues l T (fun i ↦ (c₀.raft i).commitedLength) g i
      (c.nodes i).state (c.nodes i).threads e := continues_act hact hstay hstart.fits
    (hs.nodes i) (fun t ht ↦ hs.threads i t (hthread t ht))
    fun p hp ↦ hs.packets p (hpacket p hp)
  refine ⟨g', ?_, hfull.trans hgrow.full, hs.apply (stable_keeps hgrow) hrest⟩
  rw [hhist', hhist, Config.apply_history]

/-- Whatever happens to the requests and replies of a stable leader, its log grows, the followers'
logs are prefixes of it, acknowledgements are honest, what it newly commits is held by a majority,
and every follower delivers its messages from the first commit length to the current one. -/
theorem stable_leader_replication (app : Application σ) (hstart : StableStart l T full c₀)
    (hrun : Reaches (Cluster.step app) StaysStable c₀ c) :
    ∃ full', full <+: full' ∧ Shows full' (c.raft l) ∧
      (∀ f, f ≠ l →
        (∃ m ≤ full'.length, Shows (full'.take m) (c.raft f)) ∧
        (c.raft l).ackedLengths f ≤ (c.raft f).absLength ∧
        (c₀.raft f).commitedLength ≤ (c.raft f).commitedLength ∧
        (deliveredBy f c.history).map Prod.fst = positions (c₀.raft f).commitedLength
          ((c.raft f).commitedLength - (c₀.raft f).commitedLength).toNat ∧
        ∀ d ∈ deliveredBy f c.history, ∃ entry, full'[d.1.toNat]? = some entry ∧
          entry.message = d.2) ∧
      ∀ p, (c₀.raft l).commitedLength ≤ p → p < (c.raft l).commitedLength →
        n / 2 + 1 ≤ (Finset.univ.filter fun j ↦ p < (c.raft j).absLength).card := by
  obtain ⟨g, hhist, hfull, hs⟩ := stable_of_run hstart hrun
  have hlead := (hs.nodes l).1 rfl
  have hheld : ∀ j, g.held j = (c.raft j).absLength := by
    intro j
    by_cases hj : j = l
    · subst hj
      rw [hlead.held, hlead.shows.absLength]
    · have hfol := (hs.nodes j).2 hj
      have hnonneg := hfol.nonneg
      have hwithin := g.within j
      rw [hfol.shows.absLength, List.length_take]
      omega
  refine ⟨g.full, hfull, hlead.shows, fun f hf ↦ ?_, fun p h1 h2 ↦ ?_⟩
  · have hfol := (hs.nodes f).2 hf
    have hnonneg := hfol.nonneg
    have hwithin := g.within f
    obtain ⟨hpos, hmsg⟩ := hhist ▸ hfol.delivered
    exact ⟨⟨_, by omega, hfol.shows⟩, hheld f ▸ hlead.acked f hf, hfol.started, hpos, hmsg⟩
  · have hquorum := hlead.quorum p h1 h2
    rw [majority_eq] at hquorum
    simpa only [holders, hheld] using hquorum

/-- Node 0 has just been elected for term 1 over two nodes with empty logs. -/
def justElected : Cluster 3 Unit where
  nodes i :=
    ⟨if i = 0 then { newRaft 3 1000 () with currentTerm := 1 }.becomeLeader 0
      else newRaft 3 1000 (), []⟩
  network := []
  history := []

theorem stableStart_justElected : StableStart 0 1 [] justElected where
  network := rfl
  history := rfl
  threads _ := rfl
  role := rfl
  term := rfl
  fits := by decide
  safe := ⟨by decide, by simp⟩
  shows := ⟨⟨le_rfl, le_rfl, rfl⟩, fun h ↦ absurd h (by decide)⟩
  sent f hf := by simp [justElected, Cluster.raft, Raft.becomeLeader, Raft.absLength, hf]
  acked f hf := by simp [justElected, Cluster.raft, Raft.becomeLeader, hf]
  followers f hf := by
    simp only [justElected, Cluster.raft, if_neg hf]
    exact ⟨by decide, by decide, rfl, 0, le_rfl,
      ⟨⟨le_rfl, le_rfl, rfl⟩, fun h ↦ absurd h (by decide)⟩, le_rfl, le_rfl⟩

/-- One message is replicated to node 1 and committed. -/
theorem stable_leader_replication_justElected : ∃ c : Cluster 3 Unit,
    Reaches (Cluster.step keepsNothing) StaysStable justElected c ∧
      (c.raft 0).commitedLength = 1 ∧
      2 ≤ (Finset.univ.filter fun j ↦ 0 < (c.raft j).absLength).card := by
  obtain ⟨c, hrun, hcommit⟩ : ∃ c : Cluster 3 Unit,
      Reaches (Cluster.step keepsNothing) StaysStable justElected c ∧
        (c.raft 0).commitedLength = 1 :=
    exists_reaches_of_exec firstCommit (by decide +kernel)
  obtain ⟨_, -, -, -, hquorum⟩ :=
    stable_leader_replication keepsNothing stableStart_justElected hrun
  exact ⟨c, hrun, hcommit, hquorum 0 (by decide) (by omega)⟩

end DistributedCache
