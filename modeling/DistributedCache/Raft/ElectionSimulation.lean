import DistributedCache.Raft.Refinement

/-!
# The abstract protocol simulates elections

What an action does to a node's term, vote and role is matched by `raise`, `stand`, `grant` and
`elect` of the ghost.
-/

namespace DistributedCache

open Network Window ReplicatedLog Quorum

variable {n : Nat} {σ : Type} {app : Application σ} {i : Fin n} {r r' : Raft n σ}
  {e : RaftEffect n σ} {strict : Prop} {s s' : Ghost n}

theorem Simulates.after (hev : Evolves LogEntry.term strict i s s')
    (h : Simulates strict s' i e) : Simulates strict s i e := by
  obtain ⟨s'', hev', hrest⟩ := h
  exact ⟨s'', hev.trans hev', hrest⟩

theorem Simulates.stay (hsafe : ∀ t c, s.leader t = some c → WireSafe (s.leaderLog t))
    (hnode : NodeOk strict s i e.state) (hthreads : ∀ t ∈ e.threads, ThreadOk strict s i t)
    (hpackets : ∀ p ∈ e.packets, PacketOk strict s p)
    (hevents : ∀ ev ∈ e.events, EventOk strict s ev) : Simulates strict s i e :=
  ⟨s, .refl, hsafe, hnode, hthreads, hpackets, hevents⟩

theorem Simulates.quiet (hsafe : ∀ t c, s.leader t = some c → WireSafe (s.leaderLog t))
    (hnode : NodeOk strict s i r) : Simulates strict s i r.quiet :=
  .stay hsafe hnode (by simp [Raft.quiet]) (by simp [Raft.quiet]) (by simp [Raft.quiet])

theorem Simulates.spawn (hsafe : ∀ t c, s.leader t = some c → WireSafe (s.leaderLog t))
    (hnode : NodeOk strict s i r) {t : Thread n} (ht : ThreadOk strict s i t) :
    Simulates strict s i (r.spawn t) :=
  .stay hsafe hnode (by simpa [Raft.spawn] using ht) (by simp [Raft.spawn]) (by simp [Raft.spawn])

/-! ## Terms and roles -/

/-- The node enters term `t` as a follower, or stays in its term with its vote and its role. -/
structure Raft.Yields (r r' : Raft n σ) (t : Int) : Prop where
  term : r'.currentTerm = max r.currentTerm t
  vote : r'.currentTerm = r.currentTerm → ∀ c, r.votedFor = some c → r'.votedFor = some c
  role : r'.currentRole = .follower ∨ (r'.currentTerm = r.currentTerm ∧
    r'.currentRole = r.currentRole ∧ r'.votesReceived = r.votesReceived ∧
    r'.ackedLengths = r.ackedLengths)
  log : r.SameLog r'

theorem Raft.Yields.of_newer {t : Int} (hlt : r.currentTerm < t) (hterm : r'.currentTerm = t)
    (hrole : r'.currentRole = .follower) (hlog : r.SameLog r') : r.Yields r' t where
  term := by omega
  vote h := by omega
  role := Or.inl hrole
  log := hlog

theorem GhostOk.raiseTo (hg : GhostOk strict s) (i : Fin n) (t : Int) :
    GhostOk strict (s.raiseTo i t) := by
  have hev : Evolves LogEntry.term strict i s (s.raiseTo i t) := evolves_raiseTo s i t
  exact ⟨hev.matchInv hg.matchInv,
    fun hstrict ↦ hev.ackInv hg.matchInv hstrict (hg.ackInv hstrict), hg.safe⟩

theorem NodeOk.yields {t : Int} (h : NodeOk strict s i r) (hm : MatchInv LogEntry.term s)
    (hy : r.Yields r' t) (hbound : r'.currentTerm < 2 ^ 31) :
    NodeOk strict (s.raiseTo i t) i r' := by
  have hterm := h.term
  have hmax := hy.term
  have hsame : r'.currentRole ≠ .follower → r'.currentTerm = r.currentTerm ∧
      r'.currentRole = r.currentRole ∧ r'.votesReceived = r.votesReceived ∧
      r'.ackedLengths = r.ackedLengths := hy.role.resolve_left
  refine
    { term := by rw [raiseTo_term, hterm, hmax]
      bound := hbound
      shows := h.shows.sameLog hy.log
      safe := h.safe
      voted := fun c hc ↦ ?_
      candidate := fun hrole ↦ ?_
      leads := fun hrole ↦ ?_
      commit := fun hstrict ↦ ?_ }
  · have hle := hm.vote_term i _ c hc
    have heq : r'.currentTerm = r.currentTerm := by omega
    exact hy.vote heq c (h.voted c (heq ▸ hc))
  · obtain ⟨ht, hr, hv, -⟩ := hsame (by rw [hrole]; decide)
    obtain ⟨hfree, hcamp, hvotes⟩ := h.candidate (hr.symm.trans hrole)
    exact ⟨by rw [ht]; exact hfree, by rw [ht]; exact hcamp, by rw [ht, hv]; exact hvotes⟩
  · obtain ⟨ht, hr, -⟩ := hsame (by rw [hrole]; decide)
    rw [ht]
    exact h.leads (hr.symm.trans hrole)
  · obtain ⟨hbase, hcbound, hcov, hacked, hown⟩ := h.commit hstrict
    refine ⟨?_, ?_, ?_, fun hrole ↦ ?_, fun hrole ↦ ?_⟩
    · rw [hy.log.snapshotter, hy.log.commitedLength]
      exact hbase
    · rw [hy.log.commitedLength]
      exact hcbound
    · rw [hy.log.commitedLength, raiseTo_term]
      exact hcov.mono (.refl s) (le_max_left _ _)
    · obtain ⟨ht, hr, -, ha⟩ := hsame (by rw [hrole]; decide)
      rw [ht, ha]
      exact hacked (hr.symm.trans hrole)
    · obtain ⟨ht, hr, -⟩ := hsame (by rw [hrole]; decide)
      rw [ht]
      exact hown (hr.symm.trans hrole)

/-- The state changes in nothing that is claimed of it. -/
theorem NodeOk.same (h : NodeOk strict s i r) (hballot : r.SameBallot r') (hlog : r.SameLog r')
    (hacked : r'.ackedLengths = r.ackedLengths) : NodeOk strict s i r' where
  term := h.term.trans hballot.term.symm
  bound := hballot.term ▸ h.bound
  shows := h.shows.sameLog hlog
  safe := h.safe
  voted c hc := hballot.vote.trans (h.voted c (hballot.term ▸ hc))
  candidate hrole := by
    obtain ⟨hfree, hcamp, hvotes⟩ := h.candidate (hballot.role.symm.trans hrole)
    exact ⟨by rw [hballot.term]; exact hfree, by rw [hballot.term]; exact hcamp,
      by rw [hballot.term, hballot.votes]; exact hvotes⟩
  leads hrole := by
    rw [hballot.term]
    exact h.leads (hballot.role.symm.trans hrole)
  commit hstrict := by
    obtain ⟨hbase, hbound, hcov, hack, hown⟩ := h.commit hstrict
    refine ⟨?_, ?_, ?_, fun hrole ↦ ?_, fun hrole ↦ ?_⟩
    · rw [hlog.snapshotter, hlog.commitedLength]
      exact hbase
    · rw [hlog.commitedLength]
      exact hbound
    · rw [hlog.commitedLength]
      exact hcov
    · rw [hballot.term, hacked]
      exact hack (hballot.role.symm.trans hrole)
    · rw [hballot.term]
      exact hown (hballot.role.symm.trans hrole)

/-! ## Votes -/

/-- The term of the last entry, as the code finds it. -/
theorem Shows.lastTerm {full : List LogEntry} (h : Shows full r) :
    r.getLastLogTerm = ReplicatedLog.lastTerm LogEntry.term full := by
  obtain ⟨h0, hle, hlog⟩ := id h.window
  have hlen := h.window.length
  unfold Raft.getLastLogTerm
  cases hlast : r.log.getLast? with
  | some x =>
    have hx : full.getLast? = some x := by
      rw [hlog, List.getLast?_drop] at hlast
      split at hlast
      · cases hlast
      · exact hlast
    simp [ReplicatedLog.lastTerm, hx]
  | none =>
    rw [List.getLast?_eq_none_iff] at hlast
    rw [hlast, List.length_nil] at hlen
    simp only
    split
    · rename_i hpos
      rcases h.snapshot hpos with ⟨hzero, -⟩ | ⟨-, x, hx, ht⟩
      · omega
      · rw [lastTerm_eq (l := full) (e := x), ht]
        rwa [show full.length - 1 = (r.snapshotter.lastIndex - 1).toNat by omega]
    · have hnil : full = [] := List.length_eq_zero_iff.mp (by omega)
      rw [hnil]
      rfl

theorem WireSafe.lastTerm_fits {full : List LogEntry} (h : WireSafe full) :
    FitsInt32 (lastTerm LogEntry.term full) := by
  unfold lastTerm
  cases hlast : full.getLast? with
  | none => exact ⟨by decide, by decide⟩
  | some x => exact (h.entries x (List.mem_of_getLast? hlast)).1

theorem startElection_simulates (hg : GhostOk strict s) (h : NodeOk strict s i r)
    (hlt : r.currentTerm + 1 < 2 ^ 31) :
    Simulates strict s i (r.startElectionEffect i) := by
  have hm := hg.matchInv
  have hterm := h.term
  have h0 := hm.term_nonneg i
  have hstand : s.term i < r.currentTerm + 1 := by omega
  have hself : (s.stand i (r.currentTerm + 1)).vote i (r.currentTerm + 1) = some i := by
    simp [State.stand]
  have hcamp : (s.stand i (r.currentTerm + 1)).campaign i (r.currentTerm + 1) =
      some (s.log i) := by
    simp [State.stand]
  have hnew : (s.stand i (r.currentTerm + 1)).term i = r.currentTerm + 1 := by
    simp [State.stand]
  refine .after (.one (.stand _ hstand)) (.stay hg.safe ?_ (by simp [Raft.startElectionEffect]) ?_
    (by simp [Raft.startElectionEffect, EventOk]))
  · refine
      { term := hnew
        bound := hlt
        shows := h.shows.sameLog ⟨rfl, rfl, rfl⟩
        safe := h.safe
        voted := fun c hc ↦ hself.symm.trans hc
        candidate := fun _ ↦ ⟨fun hlead ↦ ?_, ⟨s.log i, hcamp, fun _ ↦ rfl⟩, fun v hv ↦ ?_⟩
        leads := fun hrole ↦ by cases hrole
        commit := fun hstrict ↦ ?_ }
    · have := (hm.leader_term _ i hlead).2
      change r.currentTerm + 1 ≤ s.term i at this
      omega
    · rw [Finset.mem_singleton.mp hv]
      exact hself
    · obtain ⟨hbase, hbound, hcov, -, -⟩ := h.commit hstrict
      refine ⟨hbase, hbound, ?_, fun hrole ↦ (by cases hrole), fun hrole ↦ (by cases hrole)⟩
      rw [hnew]
      exact hcov.mono (extends_stand hm hstand) (by omega)
  · intro p hp
    obtain ⟨j, -, rfl⟩ := List.mem_map.mp hp
    have hlen := h.safe.length
    refine ⟨s.log i, ?_, ?_, ?_⟩
    · change State.campaign _ i (int32 (r.currentTerm + 1)) = _
      rw [int32_eq_self (fits_of_bounds (by omega) hlt)]
      exact hcamp
    · change int32 r.absLength = _
      rw [h.shows.absLength]
      exact int32_eq_self (fits_of_bounds (by omega) hlen)
    · change int32 r.getLastLogTerm = _
      rw [h.shows.lastTerm]
      exact int32_eq_self h.safe.lastTerm_fits

/-- The voter's check is the election restriction. -/
theorem NodeOk.upToDate (h : NodeOk strict s i r) {args : VoteRequestArgs n}
    {l : List LogEntry} (hok : r.voteLogOk args) (hlen : args.candidateLogLength = l.length)
    (hlast : args.candidateLogTerm = lastTerm LogEntry.term l) :
    UpToDate LogEntry.term (s.log i) l := by
  unfold Raft.voteLogOk at hok
  rw [h.shows.lastTerm, h.shows.absLength, hlen, hlast] at hok
  rcases hok with hlt | ⟨heq, hle⟩
  · exact Or.inl hlt
  · exact Or.inr ⟨heq.symm, by exact_mod_cast hle⟩

/-- The vote is cast in the ghost, too, unless it was cast before. -/
theorem grant_simulates (hg : GhostOk strict s) (h : NodeOk strict s i r) {c : Fin n}
    {l : List LogEntry} (hrole : r.currentRole = .follower) (hvote : r.votedFor = some c)
    (hl : s.campaign c r.currentTerm = some l) (hup : UpToDate LogEntry.term (s.log i) l)
    {ev : Event n} (hev : ∀ s', EventOk strict s' ev) {resp : VoteResponse n}
    (hid : resp.nodeId = i) (hterm : resp.currentTerm = r.currentTerm) :
    Simulates strict s i ⟨r, [], [.voteResponse c resp], [ev]⟩ := by
  have hpacket : ∀ s' : Ghost n, s'.vote i r.currentTerm = some c →
      ∀ p ∈ [Packet.voteResponse c resp], PacketOk strict s' p := by
    intro s' hs' p hp
    rw [List.mem_singleton.mp hp]
    intro _
    rw [hid, hterm]
    exact hs'
  cases hold : s.vote i r.currentTerm with
  | some c' =>
    obtain rfl : c' = c := Option.some.inj ((h.voted c' hold).symm.trans hvote)
    exact .stay hg.safe h (by simp) (hpacket s hold) (by simpa using hev s)
  | none =>
    have hterm' := h.term
    have hcast : (s.grant i c).vote i r.currentTerm = some c := by
      simp [State.grant, hterm']
    rw [← hterm'] at hold hl
    refine .after (.one (.grant c l hold hl hup)) (.stay hg.safe ?_ (by simp)
      (hpacket _ hcast) (by simpa using hev _))
    exact
      { term := h.term
        bound := h.bound
        shows := h.shows
        safe := h.safe
        voted := fun c' hc' ↦ hvote.trans (hcast.symm.trans hc')
        candidate := fun hcand ↦ absurd (hrole.symm.trans hcand) (by decide)
        leads := h.leads
        commit := fun hstrict ↦
          { h.commit hstrict with
            covered := (h.commit hstrict).covered.mono (extends_grant hold) le_rfl } }

theorem voteRequest_simulates (hg : GhostOk strict s) (h : NodeOk strict s i r)
    {args : VoteRequestArgs n} (hkeep : r.keepsVote args)
    (hpacket : PacketOk strict s (.voteRequest i args)) (hfits : FitsInt32 args.candidateTerm) :
    Simulates strict s i (r.voteRequestEffect i args) := by
  have hm := hg.matchInv
  have hterm : (r.beforeVote args).currentTerm = max r.currentTerm args.candidateTerm :=
    Raft.beforeVote_term
  have hbound : (r.beforeVote args).currentTerm < 2 ^ 31 := hterm ▸ max_lt h.bound hfits.2
  have hlog := r.beforeVote_sameLog args
  unfold Raft.voteRequestEffect Raft.voteRequest
  simp only
  split
  · rename_i hgrants
    have hy : r.Yields ((r.beforeVote args).castVote args.candidateId) args.candidateTerm :=
      { term := hterm
        vote := fun heq c hc ↦
          congrArg some ((vote_stable_voteRequest hkeep hc heq).1 hgrants)
        role := Or.inl rfl
        log := ⟨hlog.log, hlog.snapshotter, hlog.commitedLength⟩ }
    obtain ⟨l, hl, hlen, hlast⟩ := hpacket
    have hnode := h.yields hm hy hbound
    refine .after (evolves_raiseTo s i args.candidateTerm) ?_
    simp only [if_true]
    refine grant_simulates (hg.raiseTo i args.candidateTerm) hnode (l := l) rfl rfl ?_ ?_
      (fun _ ↦ by exact trivial) rfl ?_
    · change s.campaign args.candidateId (r.beforeVote args).currentTerm = _
      rw [← hgrants.1]
      exact hl
    · exact h.upToDate (Raft.beforeVote_voteLogOk.mp hgrants.2.1) hlen hlast
    · change int32 (r.beforeVote args).currentTerm = (r.beforeVote args).currentTerm
      rw [← hgrants.1]
      exact int32_eq_self hfits
  · rename_i hrefuses
    have hy : r.Yields (r.beforeVote args) args.candidateTerm :=
      { term := hterm
        vote := fun heq c hc ↦ (vote_stable_voteRequest hkeep hc heq).2 hrefuses
        role := by
          rcases r.beforeVote_role args with hrole | hsame
          · exact Or.inl hrole
          · rw [hsame]
            exact Or.inr ⟨rfl, rfl, rfl, rfl⟩
        log := hlog }
    refine .after (evolves_raiseTo s i args.candidateTerm)
      (.stay hg.safe (h.yields hm hy hbound) (by simp) ?_ (by simp))
    intro p hp
    rw [List.mem_singleton.mp hp]
    intro hgranted
    cases hgranted

/-- A term in which `i` has a majority has no other leader. -/
theorem leader_none_of_majority (hm : MatchInv LogEntry.term s) {t : Int}
    (hfree : s.leader t ≠ some i) {q : Finset (Fin n)} (hq : IsMajority q)
    (hv : ∀ v ∈ q, s.vote v t = some i) : s.leader t = none := by
  by_contra hsome
  obtain ⟨d, hd⟩ := Option.ne_none_iff_exists'.mp hsome
  obtain ⟨q', hq', hv'⟩ := hm.leader_quorum t d hd
  have : d = i := winner_unique (fun v a b (ha : s.vote v t = some a) hb ↦
    Option.some.inj (ha.symm.trans hb)) hq' hq hv' hv
  exact hfree (this ▸ hd)

theorem becomeLeader_simulates (hg : GhostOk strict s) (h : NodeOk strict s i r)
    (hrole : r.currentRole = .candidate) (hmajority : majority n ≤ r.votesReceived.card) :
    Simulates strict s i ⟨r.becomeLeader i, [], [],
      [.becameLeader i r.currentTerm r.snapshotter.lastIndex r.log]⟩ := by
  have hm := hg.matchInv
  have hterm := h.term
  obtain ⟨hfree, ⟨l, hl, hlog⟩, hvotes⟩ := h.candidate hrole
  have hnone := leader_none_of_majority hm hfree (isMajority_iff.mpr hmajority) hvotes
  obtain rfl := hlog hnone
  rw [← hterm] at hnone hl hvotes
  have hlead : (s.elect i).leader r.currentTerm = some i := by simp [State.elect, hterm]
  have helected : (s.elect i).elected r.currentTerm = s.log i := by simp [State.elect, hterm]
  refine .after (.one (.elect _ hnone hl (isMajority_iff.mpr hmajority) hvotes))
    (.stay ?_ ?_ (by simp) (by simp) ?_)
  · intro t c hc
    by_cases ht : t = s.term i
    · subst ht
      simp only [State.elect, Function.update_self]
      exact h.safe
    · simp only [State.elect, Function.update_of_ne ht] at hc ⊢
      exact hg.safe t c hc
  · refine
      { term := hterm
        bound := h.bound
        shows := h.shows.sameLog ⟨rfl, rfl, rfl⟩
        safe := h.safe
        voted := h.voted
        candidate := fun hcand ↦ by cases hcand
        leads := fun _ ↦ hlead
        commit := fun hstrict ↦ ?_ }
    obtain ⟨hbase, hbound, hcov, -, -⟩ := h.commit hstrict
    refine ⟨hbase, hbound, hcov.mono (extends_elect hnone) le_rfl, fun _ f hne k hpos hk ↦ ?_,
      fun _ k _ hk ↦ Or.inr ⟨rfl, hterm.symm, ?_⟩⟩
    · simp only [Raft.becomeLeader, if_neg hne] at hk
      omega
    · have : (k : Int) ≤ ((s.log i).length : Int) := hk
      omega
  · intro ev hev
    rw [List.mem_singleton.mp hev]
    exact ⟨hlead, by rw [helected]; exact h.shows.window⟩

theorem receiveVote_simulates (hg : GhostOk strict s) (h : NodeOk strict s i r)
    {vote : VoteResponse n} (hpacket : PacketOk strict s (.voteResponse i vote))
    (hfits : FitsInt32 vote.currentTerm) : Simulates strict s i (r.receiveVoteEffect i vote) := by
  have hm := hg.matchInv
  unfold Raft.receiveVoteEffect Raft.receiveVote
  simp only
  split
  · rename_i hlt
    exact .after (evolves_raiseTo s i vote.currentTerm)
      (.quiet hg.safe (h.yields hm (.of_newer hlt rfl rfl ⟨rfl, rfl, rfl⟩) hfits.2))
  split
  · rename_i hcounts
    obtain ⟨hgranted, hterm, hrole⟩ := hcounts
    have hnode : NodeOk strict s i
        { r with votesReceived := insert vote.nodeId r.votesReceived } := by
      refine { h with
        shows := h.shows.sameLog ⟨rfl, rfl, rfl⟩
        candidate := fun _ ↦ ⟨(h.candidate hrole).free, (h.candidate hrole).campaign, ?_⟩
        commit := fun hstrict ↦ { h.commit hstrict with } }
      intro v hv
      rcases Finset.mem_insert.mp hv with rfl | hv
      · change s.vote vote.nodeId r.currentTerm = _
        rw [hterm]
        exact hpacket hgranted
      · exact (h.candidate hrole).votes v hv
    split
    · rename_i hmajority
      exact becomeLeader_simulates hg hnode hrole hmajority
    · exact .quiet hg.safe hnode
  · exact .quiet hg.safe h

end DistributedCache
