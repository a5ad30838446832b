import DistributedCache.Raft.ElectionSimulation

/-!
# The abstract protocol simulates replication

`Broadcast` is an `append` of the ghost, `appendEntries` and `InstallSnapshot` are `accept`,
followed by `truncate` where the code gives up entries that it may have acknowledged.
-/

namespace DistributedCache

open Network Window ReplicatedLog Quorum

variable {n : Nat} {σ : Type} {app : Application σ} {i : Fin n} {r r' : Raft n σ}
  {strict : Prop} {s s' : Ghost n}

/-! ## The leader's side -/

theorem NodeOk.leaderLog (h : NodeOk strict s i r) (hm : MatchInv LogEntry.term s)
    (hrole : r.currentRole = .leader) : s.leaderLog r.currentTerm = s.log i :=
  (hm.leader_log _ i (h.leads hrole) h.term).symm

theorem broadcast_simulates (hg : GhostOk strict s) (h : NodeOk strict s i r) {m : Message}
    (hrole : r.currentRole = .leader) (hfits : m.Fits) (hlen : r.absLength + 1 < 2 ^ 31) :
    Simulates strict s i (r.broadcast i m).quiet := by
  have hm := hg.matchInv
  have hterm := h.term
  have h0 := hm.term_nonneg i
  have hlead : s.leader (s.term i) = some i := hterm ▸ h.leads hrole
  rw [h.shows.absLength] at hlen
  have hentry : FitsInt32 r.currentTerm := fits_of_bounds (by omega) h.bound
  have hsafe : WireSafe (s.log i ++ [⟨r.currentTerm, m⟩]) := h.safe.append ⟨hentry, hfits⟩ hlen
  have hlog : (s.append i ⟨r.currentTerm, m⟩).log i = s.log i ++ [⟨r.currentTerm, m⟩] := by
    simp [State.append]
  have hext := extends_append (e := (⟨r.currentTerm, m⟩ : LogEntry)) hm hlead
  refine .after (.one (.append ⟨r.currentTerm, m⟩ hlead hterm.symm)) (.quiet ?_ ?_)
  · intro t c hc
    by_cases ht : t = s.term i
    · subst ht
      simp only [State.append, Function.update_self]
      exact hsafe
    · simp only [State.append, Function.update_of_ne ht]
      exact hg.safe t c hc
  · refine
      { term := hterm
        bound := h.bound
        shows := ⟨?_, fun hpos ↦ ?_⟩
        safe := hlog ▸ hsafe
        voted := h.voted
        candidate := fun hcand ↦ absurd (hrole.symm.trans hcand) (by decide)
        leads := h.leads
        commit := fun hstrict ↦ ?_ }
    · rw [hlog]
      exact h.shows.window.append _
    · rw [hlog]
      exact (h.shows.snapshot hpos).mono (List.prefix_append _ _)
    · obtain ⟨hbase, hbound, hcov, hacked, -⟩ := h.commit hstrict
      refine ⟨hbase, ?_, ?_, fun _ f hne ↦ ?_, fun _ k _ hk ↦ Or.inr ⟨rfl, hterm.symm, ?_⟩⟩
      · rw [hlog, List.length_append]
        exact hbound.trans (by omega)
      · rw [hlog]
        change Covered LogEntry.term _ _ (List.take r.commitedLength.toNat _)
        rw [List.take_append_of_le_length (by omega)]
        exact hcov.mono hext le_rfl
      · simp only [Raft.broadcast, Function.update_of_ne hne]
        exact (hacked hrole f hne).mono hext
      · rw [hlog, List.length_append, List.length_singleton] at hk
        omega

variable {f : Fin n} {ds : List Delivery} {full : List LogEntry} {args : LogRequestArgs n}

theorem prepareLogRequest_simulates (hg : GhostOk strict s) (h : NodeOk strict s i r)
    (hrole : r.currentRole = .leader) (hne : i ≠ f) :
    Simulates strict s i (r.prepareLogRequestEffect i f) := by
  have h0 := hg.matchInv.term_nonneg i
  have hterm := h.term
  have hlog := h.leaderLog hg.matchInv hrole
  have hargs : (r.prepareLogRequestArgs i f).term = r.currentTerm :=
    Raft.prepareLogRequestArgs_term.trans
      (int32_eq_self (fits_of_bounds (by omega) h.bound))
  refine .stay hg.safe h ?_ ?_ (by simp [Raft.prepareLogRequestEffect])
  · intro t ht
    obtain rfl := List.mem_singleton.mp (List.mem_ite_nil_right.mp ht).2
    exact hne
  · intro p hp
    rw [List.mem_singleton.mp hp]
    refine ⟨?_, ?_, ?_, fun hstrict ↦ ?_⟩
    · rwa [Raft.prepareLogRequestArgs_leaderId]
    · rw [hargs, Raft.prepareLogRequestArgs_leaderId]
      exact h.leads hrole
    · rw [hargs, hlog]
      exact prepareLogRequestArgs_carries h.shows h.safe i f
    · obtain ⟨hbase, hbound, hcov, -, -⟩ := h.commit hstrict
      have hnonneg := h.shows.window.1
      obtain ⟨hle, hle'⟩ := prepareLogRequestArgs_commitLength h.shows h.safe (by omega) hbound i f
      refine ⟨hle', ?_⟩
      rw [hargs, hlog, ← hterm]
      exact hcov.shorten (List.take_prefix_take_left (by omega))

/-- What has a quorum up to an entry of the current term is covered. -/
theorem covered_of_quorumAcked (hg : GhostOk strict s) (h : NodeOk strict s i r)
    (hstrict : strict) (hrole : r.currentRole = .leader) {q : Int} {e : LogEntry}
    (hacked : r.quorumAcked i q) (he : r.entryAt q = some e) (hown : e.term = r.currentTerm)
    {k : ℕ} (hk : (k : Int) ≤ q + 1) :
    Covered LogEntry.term s (s.term i) ((s.log i).take k) := by
  have hlog := h.leaderLog hg.matchInv hrole
  have hq0 : 0 ≤ q := by
    have := (index?_lt he).1
    have := h.shows.window.1
    omega
  have hentry := h.shows.entryAt he
  have hlt := (List.getElem?_eq_some_iff.mp hentry).1
  refine Or.inr ⟨r.currentTerm, q.toNat + 1, h.term.ge, ⟨⟨i, h.leads hrole⟩, by omega,
    ⟨e, by rwa [hlog], hown⟩, _, isMajority_iff.mpr (Raft.quorumAcked_iff.mp hacked), ?_⟩, ?_⟩
  · obtain ⟨-, -, -, hacks, hself⟩ := h.commit hstrict
    intro f hf
    rcases Finset.mem_insert.mp hf with rfl | hf
    · exact hself hrole _ (by omega) (by omega)
    · obtain ⟨hne, hgt⟩ := (Finset.mem_filter.mp hf).2
      exact hacks hrole f hne _ (by omega) (by omega)
  · rw [hlog]
    exact List.take_prefix_take_left (by omega)

/-- Messages of the log within a covered prefix are what that prefix has. -/
theorem applies_of_delivers {p : Int} (hdel : r.Delivers p ds) (hshows : Shows full r)
    (hbase : r.snapshotter.lastIndex ≤ p) {t : Int}
    (hcov : Covered LogEntry.term s t (full.take (p + ds.length).toNat)) :
    ∀ d ∈ ds, Applies s d := by
  intro d hd
  obtain ⟨e, he, hmsg⟩ := hdel.messages d hd
  have hpos : d.1 ∈ positions p ds.length := hdel.positions ▸ List.mem_map_of_mem hd
  obtain ⟨hge, hlt⟩ := mem_positions.mp hpos
  have h0 := hshows.window.1
  refine ⟨t, _, e, hcov, by omega, ?_, hmsg⟩
  rw [List.getElem?_take_of_lt (by omega)]
  exact hshows.entryAt he

theorem NodeOk.recordAck (h : NodeOk strict s i r) {ack : Int}
    (hack : strict → AckedUpTo s f r.currentTerm ack) : NodeOk strict s i (r.recordAck f ack) := by
  refine { h with
    shows := h.shows.sameLog ⟨rfl, rfl, rfl⟩
    candidate := fun hrole ↦ { h.candidate hrole with }
    commit := fun hstrict ↦ { h.commit hstrict with acked := fun hrole g hne ↦ ?_ } }
  by_cases hgf : g = f
  · subst hgf
    simp only [Raft.recordAck, Function.update_self]
    exact hack hstrict
  · simp only [Raft.recordAck, Function.update_of_ne hgf]
    exact (h.commit hstrict).acked hrole g hne

theorem commitLogEntries_simulates (hg : GhostOk strict s) (h : NodeOk strict s i r)
    (hrole : r.currentRole = .leader) (hown : strict → r.commitsOwnTerm i)
    (hcommit : r.commitLogEntries i = some (r', ds)) :
    Simulates strict s i ⟨r', if ds = [] then [] else [.deliver ds], [],
      [.committed i r'.currentTerm r'.snapshotter.lastIndex r'.log r'.commitedLength]⟩ := by
  have habs := h.shows.absLength
  obtain ⟨rfl, hdel, hle, hquorum⟩ := Raft.commitLogEntries_spec hcommit
  have hbound : strict → r.commitedLength + ds.length ≤ (s.log i).length ∧
      Covered LogEntry.term s (s.term i)
        ((s.log i).take (r.commitedLength + ds.length).toNat) := by
    intro hstrict
    obtain ⟨hbase, hbound, hcov, -, -⟩ := h.commit hstrict
    have h0 := h.shows.window.1
    by_cases hnil : ds = []
    · subst hnil
      simpa using ⟨hbound, hcov⟩
    · have hpos := List.length_pos_iff.mpr hnil
      have hstop := hle hnil
      simp only at hstop hquorum
      refine ⟨by omega, ?_⟩
      -- the last position that was committed is at or before one of the current term
      obtain ⟨q, hq, hacked, e, he, hterm⟩ := hown hstrict (r.commitedLength + ds.length - 1)
        (mem_positions.mpr (by omega)) (hquorum _ (by omega) (by omega))
      have := (mem_positions.mp hq).1
      exact covered_of_quorumAcked hg h hstrict hrole hacked he hterm (by omega)
  refine .stay hg.safe ?_ ?_ (by simp) ?_
  · refine { h with
      shows := h.shows.congr rfl rfl
      candidate := fun hcand ↦ { h.candidate hcand with }
      commit := fun hstrict ↦ { h.commit hstrict with
        base := ?_, bound := (hbound hstrict).1, covered := (hbound hstrict).2 } }
    have := (h.commit hstrict).base
    simp only
    omega
  · intro t ht
    obtain rfl := List.mem_singleton.mp (List.mem_ite_nil_left.mp ht).2
    intro hstrict
    exact applies_of_delivers hdel h.shows (h.commit hstrict).base (hbound hstrict).2
  · intro ev hev
    rw [List.mem_singleton.mp hev]
    intro hstrict
    exact ⟨s.log i, h.shows.window, (hbound hstrict).1, h.term ▸ (hbound hstrict).2⟩

theorem replicateResponse_simulates {e : RaftEffect n σ} (hg : GhostOk strict s)
    (h : NodeOk strict s i r) {req : LogRequestArgs n} {resp : LogResponse n}
    (hpacket : PacketOk strict s (.logResponse i f req resp)) (hfits : FitsInt32 resp.currentTerm)
    (hkept : strict → r.commits resp → req.term = r.currentTerm ∧ (r.recordAck f
      resp.ack).commitsOwnTerm i) (hact : r.replicateResponseEffect i f resp = some e) :
    Simulates strict s i e := by
  have h0 := hg.matchInv.term_nonneg i
  have hterm := h.term
  obtain ⟨⟨r', ds⟩, hresp, rfl⟩ := Option.map_eq_some_iff.mp hact
  cases Raft.replicateResponse_cases hresp with
  | newer hnewer =>
    simp only [if_neg fun hcommits : r.commits resp ↦ hcommits.1 hnewer]
    rw [int32_eq_self (fits_of_bounds (by omega) h.bound)] at hnewer
    exact .after (evolves_raiseTo s i resp.currentTerm)
      (.quiet hg.safe (h.yields hg.matchInv (.of_newer hnewer rfl rfl ⟨rfl, rfl, rfl⟩) hfits.2))
  | acked hold hrole hsame hok hcommit =>
    have hcommits : r.commits resp := ⟨hold, hrole, hsame, hok⟩
    simp only [if_pos hcommits]
    refine commitLogEntries_simulates hg (h.recordAck fun hstrict ↦ ?_) hrole
      (fun hstrict ↦ (hkept hstrict hcommits).2) hcommit
    exact (hkept hstrict hcommits).1 ▸ hpacket hstrict hok
  | refused _ hok =>
    obtain ⟨sent, heq⟩ := r.retreat_eq f
    rw [heq]
    simp only [if_neg fun hcommits : r.commits resp ↦ by simp [hcommits.2.2.2] at hok]
    exact .quiet hg.safe (h.same ⟨rfl, rfl, rfl, rfl⟩ ⟨rfl, rfl, rfl⟩ rfl)
  | ignored _ hother =>
    simp only [if_neg fun hcommits : r.commits resp ↦ hother ⟨hcommits.2.1, hcommits.2.2.1⟩]
    exact .quiet hg.safe h

/-! ## The follower's side -/

/-- Logs whose entries before `p` are of one term agree before `p`. -/
theorem prefix_of_prefixTerm {own : List LogEntry} (hown : Matches LogEntry.term s own)
    (hfull : Matches LogEntry.term s full) {p t : Int} (h : PrefixTerm own p t)
    (h' : PrefixTerm full p t) : own.take p.toNat <+: full := by
  rcases h with ⟨rfl, -⟩ | ⟨hp, e, he, ht⟩
  · exact List.nil_prefix
  · rcases h' with ⟨hzero, -⟩ | ⟨-, x, hx, ht'⟩
    · omega
    · have := hown.agree hfull he hx (ht.trans ht'.symm)
      rw [show p.toNat = (p - 1).toNat + 1 by omega, this]
      exact List.take_prefix _ _

theorem followLeader_yields (r : Raft n σ) (i : Fin n) (args : LogRequestArgs n) :
    r.Yields (r.followLeader i args) args.term := by
  rcases r.followLeader_cases i args with ⟨hlt, heq⟩ | ⟨hsame, heq⟩ | ⟨hlt, heq⟩
  · rw [heq]
    exact .of_newer hlt rfl rfl ⟨rfl, rfl, rfl⟩
  · rw [heq]
    exact ⟨by simp only; omega, fun _ _ hc ↦ hc, Or.inl rfl, ⟨rfl, rfl, rfl⟩⟩
  · rw [heq]
    exact ⟨by omega, fun _ _ hc ↦ hc, Or.inr ⟨rfl, rfl, rfl, rfl⟩, .refl r⟩

theorem logRequest_simulates (hg : GhostOk strict s) (h : NodeOk strict s i r)
    (hreq : RequestFrom strict s i args) (hfits : FitsInt32 args.term) :
    Simulates strict s i (r.logRequestEffect i args) := by
  have hm := hg.matchInv
  have hy := followLeader_yields r i args
  have hnode := h.yields hm hy (hy.term ▸ max_lt h.bound hfits.2)
  refine .after (evolves_raiseTo s i args.term) ?_
  unfold Raft.logRequestEffect
  simp only
  split
  · rename_i haccepts
    refine .spawn (hg.raiseTo i args.term).safe hnode
      ⟨⟨hreq.ne, hreq.lead, hreq.carries, hreq.commit⟩, ?_, fun _ ↦ ?_⟩
    · rw [raiseTo_term]
      exact le_max_right _ _
    · obtain ⟨-, hprefixLen⟩ := logOk_spec h.shows hreq.carries.nonneg haccepts.2
      exact prefix_of_prefixTerm (hm.log_ok i).1 (hm.leaderLog_ok _ _ hreq.lead).1 hprefixLen
        hreq.carries.term
  · refine .stay hg.safe hnode (by simp) ?_ (by simp)
    intro p hp
    rw [List.mem_singleton.mp hp]
    intro _ hok
    cases hok

/-- The node's log changed under a leader other than itself, and with it the ghost's; terms, votes
and leaders did not. -/
theorem NodeOk.relog (h : NodeOk strict s i r) (hcontrol : r.SameControl r') {l : Fin n}
    (hlead : s.leader r.currentTerm = some l) (hterm : s'.term i = s.term i)
    (hvote : s'.vote = s.vote) (hcamp : s'.campaign = s.campaign) (hleader : s'.leader = s.leader)
    (hshows : Shows (s'.log i) r') (hsafe : WireSafe (s'.log i))
    (hcommit : strict → CommitOk s' i r') : NodeOk strict s' i r' where
  term := (hterm.trans h.term).trans hcontrol.term.symm
  bound := hcontrol.term ▸ h.bound
  shows := hshows
  safe := hsafe
  voted c hc := by
    rw [hcontrol.term, hvote] at hc
    exact hcontrol.vote.trans (h.voted c hc)
  candidate hrole := by
    obtain ⟨hfree, ⟨x, hx, -⟩, hvotes⟩ := h.candidate (hcontrol.role.symm.trans hrole)
    refine ⟨?_, ⟨x, ?_, fun hnone ↦ ?_⟩, ?_⟩
    · rw [hcontrol.term, hleader]
      exact hfree
    · rw [hcontrol.term, hcamp]
      exact hx
    · rw [hcontrol.term, hleader, hlead] at hnone
      cases hnone
    · rw [hcontrol.term, hcontrol.votes, hvote]
      exact hvotes
  leads hrole := by
    rw [hcontrol.term, hleader]
    exact h.leads (hcontrol.role.symm.trans hrole)
  commit := hcommit

/-- A request that reaches past the log contains it. -/
theorem NodeOk.prefix_of_extendsCleanly (h : NodeOk strict s i r) (hm : MatchInv LogEntry.term s)
    (hreq : RequestFrom strict s i args)
    (hagree : (s.log i).take args.prefixLen.toNat <+: s.leaderLog args.term)
    (hclean : r.extendsCleanly args) (hlt : r.absLength < args.prefixLen + args.suffix.length) :
    args.prefixLen ≤ (s.log i).length ∧ s.log i <+: s.leaderLog args.term := by
  have habs := h.shows.absLength
  have hnonneg := hreq.carries.nonneg
  obtain ⟨hle, hlast⟩ := hclean hlt
  refine ⟨by omega, ?_⟩
  by_cases hend : args.prefixLen < r.absLength
  · obtain ⟨e, he, ht⟩ := hlast hend
    obtain ⟨-, hsuffix⟩ := index?_eq_some.mp he
    have hfull := hreq.carries.getElem? hsuffix
    rw [show args.prefixLen.toNat + (r.absLength - 1 - args.prefixLen).toNat =
      (s.log i).length - 1 by omega] at hfull
    obtain ⟨x, hx⟩ := exists_last (l := s.log i) (by omega)
    have hterm : x.term = e.term := by
      rw [ht, h.shows.lastTerm, lastTerm_eq hx]
    have := (hm.log_ok i).1.agree (hm.leaderLog_ok _ _ hreq.lead).1 hx hfull hterm
    rw [show (s.log i).length - 1 + 1 = (s.log i).length by omega, List.take_length] at this
    rw [this]
    exact List.take_prefix _ _
  · rwa [List.take_of_length_le (by omega)] at hagree

/-- A request that ends within the log is contained in it. -/
theorem NodeOk.prefix_of_overlapAgrees (h : NodeOk strict s i r) (hg : GhostOk strict s)
    (hstrict : strict) (hreq : RequestFrom strict s i args) (hterm : r.currentTerm = args.term)
    (hagree : (s.log i).take args.prefixLen.toNat <+: s.leaderLog args.term)
    (hoverlap : r.overlapAgrees args) (hle : args.prefixLen + args.suffix.length ≤ r.absLength) :
    (s.leaderLog args.term).take (args.prefixLen.toNat + args.suffix.length) <+: s.log i := by
  have hm := hg.matchInv
  have habs := h.shows.absLength
  have hnonneg := hreq.carries.nonneg
  have hlen := hreq.carries.length_le
  rcases List.eq_nil_or_concat args.suffix with hnil | ⟨front, x, hconcat⟩
  · -- an empty request: the prefix itself was checked
    rw [hnil, List.length_nil, Nat.add_zero, prefix_take_eq hagree
      (by rw [List.length_take]; omega), List.take_take, Nat.min_self]
    exact List.take_prefix _ _
  · have hsize : args.suffix.length = front.length + 1 := by rw [hconcat]; simp
    have hlast : args.suffix.getLast? = some x := by rw [hconcat]; simp
    have hfull : (s.leaderLog args.term)[args.prefixLen.toNat + front.length]? = some x := by
      refine hreq.carries.getElem? ?_
      rw [hconcat]
      simp
    rw [hsize, ← Nat.add_assoc]
    by_cases hbase : r.snapshotter.lastIndex ≤ args.prefixLen + front.length
    · obtain ⟨e, he⟩ := exists_index? (l := r.log)
        (i := args.prefixLen + args.suffix.length - 1 - r.snapshotter.lastIndex) (by omega)
        (by unfold Raft.absLength at hle; omega)
      have heq := hoverlap hle e he x hlast
      have hown := h.shows.entryAt he
      rw [show (args.prefixLen + args.suffix.length - 1).toNat =
        args.prefixLen.toNat + front.length by omega] at hown
      rw [← (hm.log_ok i).1.agree (hm.leaderLog_ok _ _ hreq.lead).1 hown hfull heq]
      exact List.take_prefix _ _
    · -- what was compacted away was committed, and the leader has everything committed
      obtain ⟨hcbase, hbound, hcov, -, -⟩ := h.commit hstrict
      rw [h.term, hterm] at hcov
      have hpre := hcov.prefix_leaderLog hm (hg.ackInv hstrict) hreq.lead
      rw [prefix_take_eq hpre (by rw [List.length_take]; omega)]
      exact (List.take_prefix _ _).trans (List.take_prefix _ _)

theorem appendSuffix_same {own : List LogEntry} (h : Shows own r)
    (hno : ¬ r.conflicts args.prefixLen args.suffix)
    (hle : args.prefixLen + args.suffix.length ≤ r.absLength) :
    Shows own (r.appendSuffix args.prefixLen args.suffix) := by
  refine h.congr ?_ rfl
  simp only [Raft.appendSuffix, Raft.truncatedLog, if_neg hno, Raft.missingEntries,
    if_neg (not_lt.mpr hle), List.append_nil]

/-- The ghost after the entries of a request were taken in. -/
structure Appended (strict : Prop) (s s' : Ghost n) (i : Fin n) (r : Raft n σ)
    (args : LogRequestArgs n) : Prop where
  evolves : Evolves LogEntry.term strict i s s'
  term : s'.term = s.term
  vote : s'.vote = s.vote
  campaign : s'.campaign = s.campaign
  leader : s'.leader = s.leader
  leaderLog : s'.leaderLog = s.leaderLog
  shows : Shows (s'.log i) (r.appendSuffix args.prefixLen args.suffix)
  safe : WireSafe (s'.log i)
  kept : strict → s.log i <+: s'.log i
  held : strict →
    (s.leaderLog args.term).take (args.prefixLen.toNat + args.suffix.length) <+: s'.log i
  acked : strict → AckedUpTo s' i args.term (args.prefixLen + args.suffix.length)

/-- The acknowledgement of everything the request brought. -/
theorem acked_accept (hcarry : CarriesLog (s.leaderLog args.term) args)
    (hterm : s.term i = args.term) :
    AckedUpTo (s.accept i
      ((s.leaderLog args.term).take (args.prefixLen.toNat + args.suffix.length))) i args.term
      (args.prefixLen + args.suffix.length) := by
  have hnonneg := hcarry.nonneg
  have hlen := hcarry.length_le
  intro k _ hk
  refine Or.inr ⟨rfl, hterm.symm, ?_⟩
  rw [List.length_take]
  omega

/-- The ghost of a node that checked the request takes over what the request brought. -/
theorem owned_accept (h : NodeOk strict s i r) (hreq : RequestFrom strict s i args)
    (hterm : r.currentTerm = args.term) :
    Owned LogEntry.term strict i s (s.accept i
      ((s.leaderLog args.term).take (args.prefixLen.toNat + args.suffix.length))) := by
  have hterm' : s.term i = args.term := h.term.trans hterm
  refine .accept args.leaderId _ ?_ hreq.ne ?_
  · rw [hterm']
    exact hreq.lead
  · rw [hterm']
    exact List.take_prefix _ _

/-- The request reaches past the end of the log. -/
theorem appended_extends (hg : GhostOk strict s) (h : NodeOk strict s i r)
    (hreq : RequestFrom strict s i args) (hterm : r.currentTerm = args.term)
    (hagree : (s.log i).take args.prefixLen.toNat <+: s.leaderLog args.term)
    (hclean : r.extendsCleanly args) (hlt : r.absLength < args.prefixLen + args.suffix.length) :
    ∃ s', Appended strict s s' i r args := by
  have habs := h.shows.absLength
  have hnonneg := hreq.carries.nonneg
  have hlen := hreq.carries.length_le
  obtain ⟨hle, hpre⟩ := h.prefix_of_extendsCleanly hg.matchInv hreq hagree hclean hlt
  have hlog : (s.accept i ((s.leaderLog args.term).take
      (args.prefixLen.toNat + args.suffix.length))).log i =
      (s.leaderLog args.term).take (args.prefixLen.toNat + args.suffix.length) := by
    simp only [State.accept, Function.update_self]
    refine if_neg fun hcon ↦ ?_
    have := hcon.length_le
    rw [List.length_take] at this
    omega
  have hextend : extendedLog (s.log i) (s.leaderLog args.term) args =
      (s.leaderLog args.term).take (args.prefixLen.toNat + args.suffix.length) :=
    if_pos (by omega)
  refine ⟨_, .one (owned_accept h hreq hterm), rfl, rfl, rfl, rfl, rfl, ?_, ?_, fun _ ↦ ?_,
    fun _ ↦ ?_, fun _ ↦ acked_accept hreq.carries (h.term.trans hterm)⟩
  · rw [hlog, ← hextend]
    exact appendSuffix_shows h.shows hpre hreq.carries hle
  · rw [hlog]
    exact (hg.safe _ _ hreq.lead).shorten (List.take_prefix _ _)
  · rw [hlog, ← hextend]
    exact (prefix_extendedLog hpre).1
  · rw [hlog]

/-- The log has all that the request brought. -/
theorem appended_held (h : NodeOk strict s i r) (hreq : RequestFrom strict s i args)
    (hterm : r.currentTerm = args.term)
    (hheld : (s.leaderLog args.term).take (args.prefixLen.toNat + args.suffix.length) <+: s.log i)
    (hle : args.prefixLen + args.suffix.length ≤ r.absLength) :
    ∃ s', Appended strict s s' i r args := by
  have hlog : (s.accept i ((s.leaderLog args.term).take
      (args.prefixLen.toNat + args.suffix.length))).log i = s.log i := by
    simp only [State.accept, Function.update_self]
    exact if_pos hheld
  have hno : ¬ r.conflicts args.prefixLen args.suffix := by
    intro hconf
    obtain ⟨-, hpos, e, x, he, hx, hne⟩ := conflicts_spec h.shows hreq.carries hconf
    have := prefix_getElem? hheld (p := args.prefixLen.toNat) (e := x)
      (by rw [List.getElem?_take_of_lt (by omega), hx])
    rw [he] at this
    cases this
    exact hne rfl
  refine ⟨_, .one (owned_accept h hreq hterm), rfl, rfl, rfl, rfl, rfl, ?_, ?_, fun _ ↦ ?_,
    fun _ ↦ ?_, fun _ ↦ acked_accept hreq.carries (h.term.trans hterm)⟩
  · rw [hlog]
    exact appendSuffix_same h.shows hno hle
  · rw [hlog]
    exact h.safe
  · rw [hlog]
  · rw [hlog]
    exact hheld

/-- The log is cut and nothing is put in place of what was cut. -/
theorem appended_cut (h : NodeOk strict s i r) (hreq : RequestFrom strict s i args)
    (hterm : r.currentTerm = args.term) (hlossy : ¬ strict)
    (hconf : r.conflicts args.prefixLen args.suffix)
    (hle : args.prefixLen + args.suffix.length ≤ r.absLength) :
    ∃ s', Appended strict s s' i r args := by
  have hlog : (s.truncate i args.prefixLen.toNat).log i =
      (s.log i).take args.prefixLen.toNat := by
    simp [State.truncate]
  have hbase := (conflicts_spec h.shows hreq.carries hconf).1
  have hown : s.leader (s.term i) ≠ some i := by
    rw [h.term.trans hterm, hreq.lead]
    exact fun heq ↦ hreq.ne (Option.some.inj heq)
  have h0 := h.shows.window.1
  refine ⟨_, .one (.truncate args.prefixLen.toNat hlossy hown), rfl, rfl, rfl, rfl, rfl,
    ?_, ?_, fun hs ↦ absurd hs hlossy, fun hs ↦ absurd hs hlossy, fun hs ↦ absurd hs hlossy⟩
  · rw [hlog]
    refine ⟨?_, fun hpos ↦ (h.shows.snapshot hpos).take (by omega)⟩
    simp only [Raft.appendSuffix, Raft.truncatedLog, if_pos hconf, Raft.missingEntries,
      if_neg (not_lt.mpr hle), List.append_nil]
    rw [show args.prefixLen.toNat = r.snapshotter.lastIndex.toNat +
      (args.prefixLen - r.snapshotter.lastIndex).toNat by omega]
    exact h.shows.window.take _
  · rw [hlog]
    exact h.safe.shorten (List.take_prefix _ _)

theorem appendSuffix_appended (hg : GhostOk strict s) (h : NodeOk strict s i r)
    (hreq : RequestFrom strict s i args) (hterm : r.currentTerm = args.term)
    (hagree : (s.log i).take args.prefixLen.toNat <+: s.leaderLog args.term)
    (hclean : r.extendsCleanly args) (hoverlap : strict → r.overlapAgrees args) :
    ∃ s', Appended strict s s' i r args := by
  by_cases hlt : r.absLength < args.prefixLen + args.suffix.length
  · exact appended_extends hg h hreq hterm hagree hclean hlt
  · have hle : args.prefixLen + args.suffix.length ≤ r.absLength := not_lt.mp hlt
    by_cases hstrict : strict
    · exact appended_held h hreq hterm
        (h.prefix_of_overlapAgrees hg hstrict hreq hterm hagree (hoverlap hstrict) hle) hle
    · by_cases hconf : r.conflicts args.prefixLen args.suffix
      · exact appended_cut h hreq hterm hstrict hconf hle
      · exact ⟨s, .refl, rfl, rfl, rfl, rfl, rfl, appendSuffix_same h.shows hconf hle, h.safe,
          fun hs ↦ absurd hs hstrict, fun hs ↦ absurd hs hstrict, fun hs ↦ absurd hs hstrict⟩

/-- The node commits what the leader says is committed, out of the entries they agree on. -/
theorem CommitOk.commitTo (h : CommitOk s i r) (hshows : Shows (s.log i) r) {leaderCommit : Int}
    {k : ℕ} (hheld : full.take k <+: s.log i) (hk : k ≤ full.length) (hle : leaderCommit ≤ k)
    (hcov : Covered LogEntry.term s (s.term i) (full.take leaderCommit.toNat))
    (hcommit : r.commitTo app leaderCommit = some (r', ds)) :
    CommitOk s i r' ∧ ∀ d ∈ ds, Applies s d := by
  have habs := hshows.absLength
  have hbase := h.base
  have hbound := h.bound
  obtain ⟨hdel, hstop, hmax, application, rfl⟩ := Raft.commitTo_advance hcommit (by omega)
  have hnew : Covered LogEntry.term s (s.term i)
      ((s.log i).take (r.commitedLength + ds.length).toNat) := by
    by_cases hnil : ds = []
    · subst hnil
      simpa using h.covered
    · have := hmax hnil
      rw [prefix_take_eq hheld (by rw [List.length_take]; omega), List.take_take]
      exact hcov.shorten (List.take_prefix_take_left (by omega))
  refine ⟨{ h with base := by simp only; omega, bound := by simp only; omega, covered := hnew }, ?_⟩
  exact applies_of_delivers hdel hshows hbase hnew

theorem CommitOk.decideRunSnapshot (h : CommitOk s i r) {disk : Disk}
    (hsnap : r.decideRunSnapshot app disk = some r') : CommitOk s i r' := by
  have hcontrol := Raft.decideRunSnapshot_sameControl hsnap
  obtain ⟨hcommit, hbase⟩ := decideRunSnapshot_commit hsnap h.base
  refine ⟨by omega, hcommit ▸ h.bound, hcommit ▸ h.covered, fun hrole ↦ ?_, fun hrole ↦ ?_⟩
  · rw [hcontrol.term, hcontrol.acked]
    exact h.acked (hcontrol.role.symm.trans hrole)
  · rw [hcontrol.term]
    exact h.own (hcontrol.role.symm.trans hrole)

theorem Appended.commitOk (ha : Appended strict s s' i r args) (h : CommitOk s i r)
    (hm : MatchInv LogEntry.term s) (hstrict : strict) (hfollows : r.currentRole ≠ .leader) :
    CommitOk s' i (r.appendSuffix args.prefixLen args.suffix) := by
  have hext := (ha.evolves.frame hm).ext
  have hkept := ha.kept hstrict
  have hbound := h.bound
  refine ⟨h.base, h.bound.trans (by exact_mod_cast hkept.length_le), ?_,
    fun hrole ↦ absurd hrole hfollows, fun hrole ↦ absurd hrole hfollows⟩
  change Covered LogEntry.term s' (s'.term i) ((s'.log i).take r.commitedLength.toNat)
  rw [prefix_take_eq hkept (by omega), ha.term]
  exact h.covered.mono hext le_rfl

theorem appendEntries_simulates (hg : GhostOk strict s) (h : NodeOk strict s i r) {disk : Disk}
    (hthread : ThreadOk strict s i (.appendEntries args)) (hterm : r.currentTerm = args.term)
    (hclean : r.extendsCleanly args) (hoverlap : strict → r.overlapAgrees args)
    (happ : r.appendEntries app disk args = some (r', ds)) :
    Simulates strict s i ⟨r', [.logReply args], [], ds.map (.delivered i)⟩ := by
  have hm := hg.matchInv
  obtain ⟨hreq, -, hagree⟩ := hthread
  obtain ⟨s', ha⟩ := appendSuffix_appended hg h hreq hterm (hagree (h.term.trans hterm)) hclean
    hoverlap
  obtain ⟨r₁, hcommit, hsnap⟩ := Raft.appendEntries_cases happ
  have hlead : s.leader r.currentTerm = some args.leaderId := hterm ▸ hreq.lead
  have hfollows : r.currentRole ≠ .leader := by
    intro hrole
    rw [h.leads hrole] at hlead
    exact hreq.ne (Option.some.inj hlead).symm
  have hnonneg := hreq.carries.nonneg
  have hlen := hreq.carries.length_le
  have hext := (ha.evolves.frame hm).ext
  have hcommitted : strict → CommitOk s' i r₁ ∧ ∀ d ∈ ds, Applies s' d := by
    intro hstrict
    obtain ⟨hle, hcov⟩ := hreq.commit hstrict
    refine (ha.commitOk (h.commit hstrict) hm hstrict hfollows).commitTo ha.shows
      (ha.held hstrict) (by omega) (by omega) ?_ hcommit
    rw [ha.term, h.term, hterm]
    exact hcov.mono hext le_rfl
  have hshows₁ : Shows (s'.log i) r₁ := by
    obtain ⟨-, rfl, -⟩ | ⟨-, -, -, application, rfl⟩ := Raft.commitTo_spec hcommit
    · exact ha.shows
    · exact ha.shows.congr rfl rfl
  refine .after ha.evolves (.stay ?_ ?_ ?_ (by simp) ?_)
  · rw [ha.leader, ha.leaderLog]
    exact hg.safe
  · exact h.relog (Raft.appendEntries_sameControl happ) hlead (congrFun ha.term i) ha.vote
      ha.campaign ha.leader (decideRunSnapshot_shows hshows₁ hsnap) ha.safe
      fun hstrict ↦ (hcommitted hstrict).1.decideRunSnapshot hsnap
  · intro t ht
    rw [List.mem_singleton.mp ht]
    exact fun hstrict ↦ ⟨hnonneg, ha.acked hstrict⟩
  · intro ev hev
    obtain ⟨d, hd, rfl⟩ := List.mem_map.mp hev
    exact fun hstrict ↦ (hcommitted hstrict).2 d hd

theorem logReply_simulates (hg : GhostOk strict s) (h : NodeOk strict s i r)
    (hthread : ThreadOk strict s i (.logReply args)) :
    Simulates strict s i
      ⟨r, [], [.logResponse args.leaderId i args (r.acceptLogRequest i args)], []⟩ := by
  refine .stay hg.safe h (by simp) ?_ (by simp)
  intro p hp
  rw [List.mem_singleton.mp hp]
  intro hstrict _
  obtain ⟨h0, hack⟩ := hthread hstrict
  exact hack.le (int32_le (by omega))

end DistributedCache
