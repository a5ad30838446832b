import DistributedCache.Lib.Evolution
import DistributedCache.Raft.Election
import DistributedCache.Raft.Requests

/-!
# The cluster as an implementation of the abstract replicated log

The ghost is a state of the abstract protocol.  A node's term is its abstract term, its memory shows
its abstract log, and every request on the way comes from the leader of its term and carries a part
of that leader's log.  `strict` adds what commitment rests on: acknowledgements, commit lengths and
messages on their way to an application.

Runs in which logs match need fewer conditions than runs in which committed entries are safe, so the
claims are stated once with the parameter `strict`, and each action is simulated once for both.
-/

namespace DistributedCache

open Network Window ReplicatedLog

variable {n : Nat} {σ : Type} {app : Application σ} {i j : Fin n} {r r' : Raft n σ}
  {full : List LogEntry}

/-! ## Conditions on runs -/

/-- If the request extends the log, the two have no gap between them, and the last entry they have
in common is of one term. -/
def Raft.extendsCleanly (r : Raft n σ) (args : LogRequestArgs n) : Prop :=
  r.absLength < args.prefixLen + args.suffix.length →
    args.prefixLen ≤ r.absLength ∧ (args.prefixLen < r.absLength →
      ∃ e ∈ index? args.suffix (r.absLength - 1 - args.prefixLen), e.term = r.getLastLogTerm)
deriving Decidable

/-- The action reads and changes logs only in the role and the term it was prepared for. -/
def Raft.matchKept (r : Raft n σ) : Action n → Bool
  | .broadcast m => r.currentRole = .leader ∧ m.Fits ∧ r.absLength + 1 < 2 ^ 31
  | .prepareLogRequestArgs _ => r.currentRole = .leader
  | .sendInstallSnapshotRPC _ => r.currentRole = .leader
  | .appendEntries args _ => r.currentTerm = args.term ∧ r.extendsCleanly args
  | .installSnapshot req _ =>
    req.done = true → r.currentTerm ≤ req.leaderTerm → ¬ r.retainsSuffix req
  | _ => true

/-- A request that stays within the log ends in an entry of the term that the log has there. -/
def Raft.overlapAgrees (r : Raft n σ) (args : LogRequestArgs n) : Prop :=
  args.prefixLen + args.suffix.length ≤ r.absLength →
    ∀ e ∈ r.entryAt (args.prefixLen + args.suffix.length - 1), ∀ s ∈ args.suffix.getLast?,
      e.term = s.term
deriving Decidable

/-- Whatever has a quorum is at or before an entry of the current term that has one. -/
def Raft.commitsOwnTerm (r : Raft n σ) (i : Fin n) : Prop :=
  ∀ p ∈ positions r.commitedLength (r.absLength - r.commitedLength).toNat, r.quorumAcked i p →
    ∃ q ∈ positions p (r.absLength - p).toNat, r.quorumAcked i q ∧
      ∃ e ∈ r.entryAt q, e.term = r.currentTerm
deriving Decidable

/-- The action acknowledges and counts only what the leader of the term has, and cuts nothing. -/
def Raft.commitKept (app : Application σ) (i : Fin n) (r : Raft n σ) : Action n → Bool
  | .appendEntries args _ => r.overlapAgrees args
  | .replicateResponse f req resp =>
    r.commits resp → req.term = r.currentTerm ∧ (r.recordAck f resp.ack).commitsOwnTerm i
  | .readChunk t => r.readChunk t ≠ []
  | .finishTransfer t => r.currentTerm = t.currentTerm
  | .installSnapshot req disk =>
    req.done = true → r.currentTerm ≤ req.leaderTerm →
      r.absLength ≤ req.lastIncludedIndex ∧ r.restorable app disk req = true
  | _ => true

/-! ## The claims -/

abbrev Ghost (n : Nat) := State (Fin n) LogEntry

variable {strict : Prop} {s s' : Ghost n}

/-- `f` acknowledged the first `x` entries of the leader of `t`. -/
def AckedUpTo (s : Ghost n) (f : Fin n) (t x : Int) : Prop :=
  ∀ k : ℕ, 0 < k → (k : Int) ≤ x → s.ack f t k

/-- The message is the one that some committed prefix has at the position. -/
def Applies (s : Ghost n) (d : Delivery) : Prop :=
  ∃ t l e, Covered LogEntry.term s t l ∧ 0 ≤ d.1 ∧ l[d.1.toNat]? = some e ∧ e.message = d.2

/-- The request comes from the leader of its term, with a part of that leader's log. -/
structure RequestFrom (strict : Prop) (s : Ghost n) (target : Fin n) (args : LogRequestArgs n) :
    Prop where
  ne : args.leaderId ≠ target
  lead : s.leader args.term = some args.leaderId
  carries : CarriesLog (s.leaderLog args.term) args
  commit : strict → args.commitLength ≤ args.prefixLen + args.suffix.length ∧
    Covered LogEntry.term s args.term ((s.leaderLog args.term).take args.commitLength.toNat)

/-- The first `index` entries of the leader of `term` are in a snapshot of that leader. -/
structure SnapshotFrom (strict : Prop) (s : Ghost n) (leaderId target : Fin n)
    (term index lastTerm : Int) : Prop where
  ne : leaderId ≠ target
  lead : s.leader term = some leaderId
  nonneg : 0 ≤ index
  bound : index ≤ (s.leaderLog term).length
  snapshot : 0 < index → PrefixTerm (s.leaderLog term) index lastTerm
  covered : strict → Covered LogEntry.term s term ((s.leaderLog term).take index.toNat)

/-- What commitment rests on at one node. -/
structure CommitOk (s : Ghost n) (i : Fin n) (r : Raft n σ) : Prop where
  base : r.snapshotter.lastIndex ≤ r.commitedLength
  bound : r.commitedLength ≤ (s.log i).length
  covered : Covered LogEntry.term s (s.term i) ((s.log i).take r.commitedLength.toNat)
  acked : r.currentRole = .leader → ∀ f, f ≠ i → AckedUpTo s f r.currentTerm (r.ackedLengths f)
  own : r.currentRole = .leader → AckedUpTo s i r.currentTerm (s.log i).length

/-- A candidate advertised its log, which it keeps until its term has a leader, and counts votes of
its own term only. -/
structure CandidateOk (s : Ghost n) (i : Fin n) (r : Raft n σ) : Prop where
  free : s.leader r.currentTerm ≠ some i
  campaign : ∃ l, s.campaign i r.currentTerm = some l ∧
    (s.leader r.currentTerm = none → l = s.log i)
  votes : ∀ v ∈ r.votesReceived, s.vote v r.currentTerm = some i

structure NodeOk (strict : Prop) (s : Ghost n) (i : Fin n) (r : Raft n σ) : Prop where
  term : s.term i = r.currentTerm
  bound : r.currentTerm < 2 ^ 31
  shows : Shows (s.log i) r
  safe : WireSafe (s.log i)
  voted : ∀ c, s.vote i r.currentTerm = some c → r.votedFor = some c
  candidate : r.currentRole = .candidate → CandidateOk s i r
  leads : r.currentRole = .leader → s.leader r.currentTerm = some i
  commit : strict → CommitOk s i r

def ThreadOk (strict : Prop) (s : Ghost n) (i : Fin n) : Thread n → Prop
  | .prepareLogRequestArgs f => i ≠ f
  | .sendInstallSnapshotRPC f => i ≠ f
  | .appendEntries args => RequestFrom strict s i args ∧ args.term ≤ s.term i ∧
    (s.term i = args.term →
      (s.log i).take args.prefixLen.toNat <+: s.leaderLog args.term)
  | .logReply args => strict → 0 ≤ args.prefixLen ∧
    AckedUpTo s i args.term (args.prefixLen + args.suffix.length)
  | .openSnapshot t => SnapshotFrom strict s i t.followerId t.currentTerm t.lastIndex t.lastTerm
  | .readChunk t => SnapshotFrom strict s i t.followerId t.currentTerm t.lastIndex t.lastTerm
  | .awaitReply t req =>
    SnapshotFrom strict s i t.followerId t.currentTerm t.lastIndex t.lastTerm ∧
      req.leaderTerm = t.currentTerm ∧ req.lastIncludedIndex = t.lastIndex
  | .finishTransfer t => strict → t.currentTerm ≤ s.term i ∧
    (s.term i = t.currentTerm → AckedUpTo s t.followerId t.currentTerm t.lastIndex)
  | .deliver batch => strict → ∀ d ∈ batch, Applies s d
  | _ => True

def PacketOk (strict : Prop) (s : Ghost n) : Packet n → Prop
  | .voteRequest _ args => ∃ l, s.campaign args.candidateId args.candidateTerm = some l ∧
    args.candidateLogLength = l.length ∧ args.candidateLogTerm = lastTerm LogEntry.term l
  | .voteResponse target vote =>
    vote.granted = true → s.vote vote.nodeId vote.currentTerm = some target
  | .logRequest target args => RequestFrom strict s target args
  | .logResponse _ f req resp =>
    strict → resp.success = true → AckedUpTo s f req.term resp.ack
  | .installSnapshot target req =>
    SnapshotFrom strict s req.leaderId target req.leaderTerm req.lastIncludedIndex
      req.lastIncludedTerm
  | .snapshotResponse _ f req resp =>
    strict → req.done = true → resp.term ≤ req.leaderTerm →
      AckedUpTo s f req.leaderTerm req.lastIncludedIndex

def refines (n : Nat) (σ : Type) (strict : Prop) :
    Claims (Fin n) (Raft n σ) (Thread n) (Packet n) (Ghost n) where
  node s i r := NodeOk strict s i r
  thread s i _ t := ThreadOk strict s i t
  packet s p := FitsInt32 p.term ∧ PacketOk strict s p

/-- What the history says of leaders, committed prefixes and deliveries. -/
def EventOk (strict : Prop) (s : Ghost n) : Event n → Prop
  | .becameLeader j t base log => s.leader t = some j ∧ IsWindow (s.elected t) base log
  | .committed _ t base log length => strict → ∃ full, IsWindow full base log ∧
    length ≤ full.length ∧ Covered LogEntry.term s t (full.take length.toNat)
  | .delivered _ d => strict → Applies s d
  | _ => True

structure GhostOk (strict : Prop) (s : Ghost n) : Prop where
  matchInv : MatchInv LogEntry.term s
  ackInv : strict → AckInv LogEntry.term s
  safe : ∀ t c, s.leader t = some c → WireSafe (s.leaderLog t)

/-- The cluster implements the ghost. -/
structure Refines (strict : Prop) (s : Ghost n) (c : Cluster n σ) : Prop where
  ghost : GhostOk strict s
  sound : Sound (refines n σ strict) s c
  history : ∀ ev ∈ c.history, EventOk strict s ev

/-! ## The claims along the ghost's steps -/

theorem AckedUpTo.mono {f : Fin n} {t x : Int} (h : AckedUpTo s f t x) (hext : Extends s s') :
    AckedUpTo s' f t x :=
  fun k hpos hk ↦ hext.ack f t k (h k hpos hk)

theorem AckedUpTo.le {f : Fin n} {t x y : Int} (h : AckedUpTo s f t x) (hle : y ≤ x) :
    AckedUpTo s f t y :=
  fun k hpos hk ↦ h k hpos (hk.trans hle)

theorem Applies.mono {d : Delivery} (h : Applies s d) (hext : Extends s s') : Applies s' d := by
  obtain ⟨t, l, e, hcov, hrest⟩ := h
  exact ⟨t, l, e, hcov.mono hext le_rfl, hrest⟩

/-- A covered prefix of a leader's log stays one. -/
theorem covered_take {t x : Int} {c : Fin n} (hext : Extends s s') (hlead : s.leader t = some c)
    (hx : x ≤ (s.leaderLog t).length)
    (h : Covered LogEntry.term s t ((s.leaderLog t).take x.toNat)) :
    Covered LogEntry.term s' t ((s'.leaderLog t).take x.toNat) := by
  rw [prefix_take_eq (hext.leader t c hlead).2.2 (by omega)]
  exact h.mono hext le_rfl

theorem RequestFrom.mono {args : LogRequestArgs n} (h : RequestFrom strict s i args)
    (hext : Extends s s') : RequestFrom strict s' i args where
  ne := h.ne
  lead := (hext.leader _ _ h.lead).1
  carries := h.carries.mono (hext.leader _ _ h.lead).2.2
  commit hstrict := by
    obtain ⟨hle, hcov⟩ := h.commit hstrict
    exact ⟨hle, covered_take hext h.lead (hle.trans h.carries.length_le) hcov⟩

theorem SnapshotFrom.mono {term index lastTerm : Int}
    (h : SnapshotFrom strict s i j term index lastTerm) (hext : Extends s s') :
    SnapshotFrom strict s' i j term index lastTerm where
  ne := h.ne
  lead := (hext.leader _ _ h.lead).1
  nonneg := h.nonneg
  bound := h.bound.trans (by exact_mod_cast (hext.leader _ _ h.lead).2.2.length_le)
  snapshot hpos := (h.snapshot hpos).mono (hext.leader _ _ h.lead).2.2
  covered hstrict := covered_take hext h.lead h.bound (h.covered hstrict)

theorem PacketOk.mono {p : Packet n} (h : PacketOk strict s p) (hext : Extends s s') :
    PacketOk strict s' p := by
  cases p with
  | voteRequest target args =>
    obtain ⟨l, hl, hrest⟩ := h
    exact ⟨l, hext.campaign _ _ _ hl, hrest⟩
  | voteResponse target vote => exact fun hgranted ↦ (hext.vote _ _ _ (h hgranted)).1
  | logRequest target args => exact RequestFrom.mono h hext
  | logResponse target f req resp => exact fun hstrict hok ↦ (h hstrict hok).mono hext
  | installSnapshot target req => exact SnapshotFrom.mono h hext
  | snapshotResponse target f req resp =>
    exact fun hstrict hdone hle ↦ (h hstrict hdone hle).mono hext

theorem EventOk.mono {ev : Event n} (h : EventOk strict s ev) (hext : Extends s s') :
    EventOk strict s' ev := by
  cases ev with
  | candidacy | granted => trivial
  | becameLeader j t base log =>
    obtain ⟨hlead, hwin⟩ := h
    obtain ⟨hlead', helected, -⟩ := hext.leader t j hlead
    exact ⟨hlead', by rwa [helected]⟩
  | committed j t base log length =>
    intro hstrict
    obtain ⟨full, hwin, hle, hcov⟩ := h hstrict
    exact ⟨full, hwin, hle, hcov.mono hext le_rfl⟩
  | delivered j d => exact fun hstrict ↦ (h hstrict).mono hext

/-- Nothing is claimed of a pending thread that the node's own steps could undo. -/
theorem ThreadOk.evolves {t : Thread n} (h : ThreadOk strict s j t)
    (hm : MatchInv LogEntry.term s) (hev : Evolves LogEntry.term strict i s s') :
    ThreadOk strict s' j t := by
  have hframe := hev.frame hm
  have hext := hframe.ext
  cases t with
  | appendEntries args =>
    obtain ⟨hreq, hle, hagree⟩ := h
    refine ⟨hreq.mono hext, hle.trans (hext.term j), fun hterm ↦ ?_⟩
    have hsame : s.term j = args.term := le_antisymm (hterm ▸ hext.term j) hle
    by_cases hj : j = i
    · subst hj
      have := hev.agrees hm (hterm.trans hsame.symm) (hsame ▸ hreq.lead) hreq.ne
        (hsame ▸ hagree hsame)
      rwa [hsame] at this
    · rw [hframe.log j hj]
      exact (hagree hsame).trans (hext.leader _ _ hreq.lead).2.2
  | logReply args =>
    intro hstrict
    obtain ⟨h0, hack⟩ := h hstrict
    exact ⟨h0, hack.mono hext⟩
  | openSnapshot | readChunk => exact SnapshotFrom.mono h hext
  | awaitReply t req => exact ⟨h.1.mono hext, h.2⟩
  | finishTransfer t =>
    intro hstrict
    obtain ⟨hle, hack⟩ := h hstrict
    refine ⟨hle.trans (hext.term j), fun hterm ↦ ?_⟩
    exact (hack (le_antisymm (hterm ▸ hext.term j) hle)).mono hext
  | deliver batch => exact fun hstrict d hd ↦ (h hstrict d hd).mono hext
  | _ => exact h

theorem CommitOk.frame (h : CommitOk s j r) (hf : Frame i s s') (hj : j ≠ i) :
    CommitOk s' j r where
  base := h.base
  bound := by
    rw [hf.log j hj]
    exact h.bound
  covered := by
    rw [hf.log j hj, hf.term j hj]
    exact h.covered.mono hf.ext le_rfl
  acked hrole f hne := (h.acked hrole f hne).mono hf.ext
  own hrole := by
    rw [hf.log j hj]
    exact (h.own hrole).mono hf.ext

theorem CandidateOk.frame (h : CandidateOk s j r) (hf : Frame i s s') (hj : j ≠ i) :
    CandidateOk s' j r where
  free hlead := by
    rcases hf.leader _ _ hlead with heq | hold
    · exact hj heq
    · exact h.free hold
  campaign := by
    obtain ⟨l, hl, hlog⟩ := h.campaign
    refine ⟨l, hf.ext.campaign _ _ _ hl, fun hnone ↦ ?_⟩
    rw [hf.log j hj]
    refine hlog ?_
    by_contra hsome
    obtain ⟨c, hc⟩ := Option.ne_none_iff_exists'.mp hsome
    rw [(hf.ext.leader _ c hc).1] at hnone
    cases hnone
  votes v hv := (hf.ext.vote _ _ _ (h.votes v hv)).1

theorem NodeOk.frame (h : NodeOk strict s j r) (hf : Frame i s s') (hj : j ≠ i) :
    NodeOk strict s' j r where
  term := (hf.term j hj).trans h.term
  bound := h.bound
  shows := by
    rw [hf.log j hj]
    exact h.shows
  safe := by
    rw [hf.log j hj]
    exact h.safe
  voted c hc := h.voted c (by rwa [hf.vote j _ hj] at hc)
  candidate hrole := (h.candidate hrole).frame hf hj
  leads hrole := (hf.ext.leader _ _ (h.leads hrole)).1
  commit hstrict := (h.commit hstrict).frame hf hj

/-- The effect of an action of node `i` is matched by steps of the ghost. -/
def Simulates (strict : Prop) (s : Ghost n) (i : Fin n) (e : RaftEffect n σ) : Prop :=
  ∃ s', Evolves LogEntry.term strict i s s' ∧
    (∀ t c, s'.leader t = some c → WireSafe (s'.leaderLog t)) ∧ NodeOk strict s' i e.state ∧
    (∀ t ∈ e.threads, ThreadOk strict s' i t) ∧ (∀ p ∈ e.packets, PacketOk strict s' p) ∧
    ∀ ev ∈ e.events, EventOk strict s' ev

/-- An action that is simulated keeps the refinement. -/
theorem Refines.apply {c : Cluster n σ} {o : Option (Thread n)} {e : RaftEffect n σ}
    (h : Refines strict s c) (hfits : ∀ p ∈ e.packets, FitsInt32 p.term)
    (hsim : Simulates strict s i e) : ∃ s', Refines strict s' (c.apply i o e) := by
  obtain ⟨s', hev, hsafe, hnode, hthreads, hpackets, hevents⟩ := hsim
  have hm := h.ghost.matchInv
  have hframe := hev.frame hm
  refine ⟨s', ⟨hev.matchInv hm, fun hstrict ↦ hev.ackInv hm hstrict (h.ghost.ackInv hstrict),
    hsafe⟩, ?_, ?_⟩
  · refine h.sound.apply (i := i) ⟨?_, ?_, ?_⟩ ⟨hnode, ?_, hthreads, ?_⟩
    · exact fun j r hj hok ↦ hok.frame hframe hj
    · exact fun j r t _ hok ↦ hok.evolves hm hev
    · exact fun p hok ↦ ⟨hok.1, hok.2.mono hframe.ext⟩
    · exact fun t _ hok ↦ hok.evolves hm hev
    · exact fun p hp ↦ ⟨hfits p hp, hpackets p hp⟩
  · intro ev hmem
    rw [Config.apply_history] at hmem
    rcases List.mem_append.mp hmem with hold | hnew
    · exact (h.history ev hold).mono hframe.ext
    · exact hevents ev hnew

theorem refines_start (snapshotThreshold : Int) (application : Fin n → σ) :
    Refines strict State.start (Cluster.start n snapshotThreshold application) where
  ghost := ⟨matchInv_start _, fun _ ↦ ackInv_start, fun _ _ h ↦ by cases h⟩
  sound :=
    { nodes := fun i ↦
        { term := rfl
          bound := Int.pow_pos (by decide)
          shows := ⟨.nil le_rfl rfl, fun h ↦ absurd h (lt_irrefl _)⟩
          safe := ⟨Int.pow_pos (by decide), fun e he ↦ by cases he⟩
          voted := fun c hc ↦ by cases hc
          candidate := fun hrole ↦ by cases hrole
          leads := fun hrole ↦ by cases hrole
          commit := fun _ ↦
            { base := le_rfl
              bound := le_rfl
              covered := Or.inl rfl
              acked := fun hrole ↦ by cases hrole
              own := fun hrole ↦ by cases hrole } }
      threads := fun _ _ ht ↦ by cases ht
      packets := fun _ hp ↦ by cases hp }
  history _ h := by cases h

end DistributedCache
