import DistributedCache.Raft.Evidence

/-!
# Election safety

A vote binds its voter for the term only if nothing clears `votedFor` while the term lasts.  Three
places of the code do: `checkQuorumHealth` when it steps down, `VoteRequest` when the candidate is
the leader the node follows, and, once terms leave the range of `int32`, the comparison of terms in
`replicate`.  `VotesKept` excludes exactly these; in runs that meet it no term has two leaders.
-/

namespace DistributedCache

open Network Transition Quorum

variable {n : Nat} {σ : Type} {app : Application σ} {i : Fin n} {r : Raft n σ}
  {ts : List (Thread n)}

/-- A `VoteRequest` from the leader this node follows does not take back a vote of the current
term: the request is for a newer term, there is no vote, or the vote is given again at once. -/
def Raft.keepsVote (r : Raft n σ) (args : VoteRequestArgs n) : Prop :=
  r.currentLeaderId = some args.candidateId →
    r.currentTerm < args.candidateTerm ∨ r.votedFor = none ∨
      (r.votedFor = some args.candidateId ∧ args.candidateTerm = r.currentTerm ∧ r.voteLogOk args)
deriving Decidable

/-- The action does not make its node forget a vote of its current term. -/
def Raft.votesKept (r : Raft n σ) (i : Fin n) : Action n → Bool
  | .startElection => r.currentTerm + 1 < 2 ^ 31
  | .checkQuorumHealth => ¬ r.losesQuorum i
  | .voteRequest args => r.keepsVote args
  | _ => true

def VotesKept (c : Cluster n σ) (x : Fin n × Action n) : Prop :=
  (c.raft x.1).votesKept x.1 x.2 = true
deriving Decidable

/-! ## The invariant -/

/-- `v` voted for `c` in term `t`: it granted a request, or it is `c` itself. -/
def Voted (history : List (Event n)) (v c : Fin n) (t : Int) : Prop :=
  (∃ args lastTerm length, .granted v args lastTerm length ∈ history ∧ args.candidateId = c ∧
      args.candidateTerm = t) ∨
    v = c ∧ ∃ data, .candidacy data ∈ history ∧ data.candidateId = c ∧ data.candidateTerm = t

variable {v c : Fin n} {t : Int}

theorem Voted.mono {history history' : List (Event n)} (h : Voted history v c t)
    (hsub : history ⊆ history') : Voted history' v c t := by
  rcases h with ⟨args, lastTerm, length, hg, hrest⟩ | ⟨hv, data, hc, hrest⟩
  · exact Or.inl ⟨args, lastTerm, length, hsub hg, hrest⟩
  · exact Or.inr ⟨hv, data, hsub hc, hrest⟩

theorem voted_append {history events : List (Event n)} (h : Voted (history ++ events) v c t) :
    Voted history v c t ∨ Voted events v c t := by
  rcases h with ⟨args, lastTerm, length, hg, hrest⟩ | ⟨hv, data, hc, hrest⟩
  · rcases List.mem_append.mp hg with hg | hg
    · exact Or.inl (Or.inl ⟨args, lastTerm, length, hg, hrest⟩)
    · exact Or.inr (Or.inl ⟨args, lastTerm, length, hg, hrest⟩)
  · rcases List.mem_append.mp hc with hc | hc
    · exact Or.inl (Or.inr ⟨hv, data, hc, hrest⟩)
    · exact Or.inr (Or.inr ⟨hv, data, hc, hrest⟩)

theorem not_voted {events : List (Event n)} (hevents : ∀ ev ∈ events, ev.isElection = false) :
    ¬ Voted events v c t := by
  rintro (⟨args, lastTerm, length, hg, -⟩ | ⟨-, data, hc, -⟩)
  · cases hevents _ hg
  · cases hevents _ hc

/-- A node has voted in no later term than its own, and in its own term for `votedFor` only. -/
def BoundByVote (history : List (Event n)) (i : Fin n) (r : Raft n σ) : Prop :=
  ∀ c t, Voted history i c t → t ≤ r.currentTerm ∧ (t = r.currentTerm → r.votedFor = some c)

def ballots (n : Nat) (σ : Type) :
    Claims (Fin n) (Raft n σ) (Thread n) (Packet n) (List (Event n)) where
  node history i r := (0 ≤ r.currentTerm ∧ r.currentTerm < 2 ^ 31) ∧ BoundByVote history i r ∧
    (r.currentRole = .candidate → ∀ v ∈ r.votesReceived, Voted history v i r.currentTerm)
  thread _ _ _ _ := True
  packet history p := FitsInt32 p.term ∧
    ∀ target vote, p = .voteResponse target vote → vote.granted = true →
      Voted history vote.nodeId target vote.currentTerm

/-- Every leader was elected by a majority. -/
def ElectedByMajority (history : List (Event n)) : Prop :=
  ∀ i t base log, .becameLeader i t base log ∈ history →
    ∃ q : Finset (Fin n), IsMajority q ∧ ∀ v ∈ q, Voted history v i t

/-- No node votes for two candidates in one term. -/
def VotesOnce (history : List (Event n)) : Prop :=
  ∀ v c c' t, Voted history v c t → Voted history v c' t → c = c'

structure ElectionInv (c : Cluster n σ) : Prop where
  sound : Sound (ballots n σ) c.history c
  elected : ElectedByMajority c.history
  once : VotesOnce c.history

/-! ## One step -/

variable {a : Action n} {e : RaftEffect n σ} {history : List (Event n)}

/-- A vote cast in a step is the acting node's, in the term and for the candidate it ends with. -/
theorem voted_now (hcase : r.ElectionCase i a e) (h : Voted e.events v c t) :
    v = i ∧ t = e.state.currentTerm ∧ e.state.votedFor = some c := by
  cases hcase with
  | stands =>
    rcases h with ⟨args, lastTerm, length, hg, -⟩ | ⟨rfl, data, hc, rfl, rfl⟩
    · cases List.mem_singleton.mp hg
    · cases List.mem_singleton.mp hc
      exact ⟨rfl, rfl, rfl⟩
  | grants args hgrants =>
    rcases h with ⟨args', lastTerm, length, hg, rfl, rfl⟩ | ⟨-, data, hc, -⟩
    · cases List.mem_singleton.mp hg
      exact ⟨rfl, hgrants.1, rfl⟩
    · cases List.mem_singleton.mp hc
  | refuses => exact absurd h (not_voted (by simp))
  | counts => exact absurd h (not_voted (by simp [Raft.quiet]))
  | wins =>
    rcases h with ⟨args, lastTerm, length, hg, -⟩ | ⟨-, data, hc, -⟩
    · cases List.mem_singleton.mp hg
    · cases List.mem_singleton.mp hc
  | other _ hevents _ => exact absurd h (not_voted hevents)

/-- `VoteRequest` raises the term or keeps a vote of the current one. -/
theorem vote_stable_voteRequest {args : VoteRequestArgs n} (hkeep : r.keepsVote args)
    (hvote : r.votedFor = some c) (hterm : (r.beforeVote args).currentTerm = r.currentTerm) :
    ((r.beforeVote args).grantsVote args → args.candidateId = c) ∧
      (¬ (r.beforeVote args).grantsVote args → (r.beforeVote args).votedFor = some c) := by
  have hle : args.candidateTerm ≤ r.currentTerm := by
    rw [Raft.beforeVote_term] at hterm
    omega
  by_cases hlead : r.currentLeaderId = some args.candidateId
  · obtain ⟨hv, ht, hlog⟩ : r.votedFor = some args.candidateId ∧
        args.candidateTerm = r.currentTerm ∧ r.voteLogOk args := by
      rcases hkeep hlead with h | h | h
      · omega
      · rw [h] at hvote
        cases hvote
      · exact h
    obtain rfl : args.candidateId = c := Option.some.inj (hv.symm.trans hvote)
    refine ⟨fun _ ↦ rfl, fun hno ↦ absurd ?_ hno⟩
    refine ⟨by rw [hterm, ht], Raft.beforeVote_voteLogOk.mpr hlog, Or.inl ?_⟩
    simp [Raft.beforeVote, Raft.dropLeader, Raft.adoptTerm, hlead, hle.not_gt]
  · have hsame : r.beforeVote args = r := by
      simp [Raft.beforeVote, Raft.dropLeader, Raft.adoptTerm, hlead, hle.not_gt]
    rw [hsame]
    refine ⟨fun hgrants ↦ ?_, fun _ ↦ hvote⟩
    rcases hgrants.2.2 with h | h
    · rw [h] at hvote
      cases hvote
    · exact Option.some.inj (h.symm.trans hvote)

/-- Under the guard a node gives up no vote of its current term. -/
theorem not_forgets (hkept : r.votesKept i a = true) (h0 : 0 ≤ r.currentTerm)
    (hlt : r.currentTerm < 2 ^ 31) {q : Prop} :
    ¬ ((a = .checkQuorumHealth ∧ r.losesQuorum i ∧ q) ∨
      ∃ f req resp, a = .replicateResponse f req resp ∧ int32 r.currentTerm < resp.currentTerm ∧
        resp.currentTerm ≤ r.currentTerm) := by
  rintro (⟨rfl, hlose, -⟩ | ⟨f, req, resp, rfl, hgt, hle⟩)
  · exact absurd hlose (of_decide_eq_true hkept)
  · rw [int32_eq_self ⟨by omega, by omega⟩] at hgt
    omega

theorem vote_stable (hcase : r.ElectionCase i a e) (hkept : r.votesKept i a = true)
    (h0 : 0 ≤ r.currentTerm) (hlt : r.currentTerm < 2 ^ 31) :
    r.currentTerm ≤ e.state.currentTerm ∧ (e.state.currentTerm = r.currentTerm →
      ∀ c, r.votedFor = some c → e.state.votedFor = some c) := by
  cases hcase with
  | stands =>
    have hterm : (r.startElectionEffect i).state.currentTerm = r.currentTerm + 1 := rfl
    exact ⟨by omega, fun h ↦ by omega⟩
  | grants args hgrants =>
    have hkeep : r.keepsVote args := of_decide_eq_true hkept
    refine ⟨Raft.beforeVote_term (r := r) ▸ le_max_left _ _, fun hterm c hvote ↦ ?_⟩
    exact congrArg some ((vote_stable_voteRequest hkeep hvote hterm).1 hgrants)
  | refuses args hrefuses =>
    have hkeep : r.keepsVote args := of_decide_eq_true hkept
    refine ⟨Raft.beforeVote_term (r := r) ▸ le_max_left _ _, fun hterm c hvote ↦ ?_⟩
    exact (vote_stable_voteRequest hkeep hvote hterm).2 hrefuses
  | counts | wins => exact ⟨le_rfl, fun _ _ h ↦ h⟩
  | other _ _ hballot =>
    cases hballot with
    | same h => exact ⟨h.term.ge, fun _ c hc ↦ h.vote.trans hc⟩
    | follows _ hterm =>
      rcases hterm with ⟨hnew, -⟩ | ⟨hsame, hvote⟩
      · exact ⟨hnew.le, fun h ↦ by omega⟩
      · exact ⟨hsame.ge, fun _ c hc ↦ hvote.trans hc⟩
    | forgets _ hcause => exact absurd hcause (not_forgets hkept h0 hlt)

/-- A node's new term is its own plus one, or the term of a message. -/
theorem term_bounded (hcase : r.ElectionCase i a e) (hkept : r.votesKept i a = true)
    (h0 : 0 ≤ r.currentTerm) (hlt : r.currentTerm < 2 ^ 31)
    (hpacket : ∀ p ∈ a.packet i, FitsInt32 p.term) :
    e.state.currentTerm < 2 ^ 31 := by
  cases hcase with
  | stands => exact of_decide_eq_true hkept
  | grants args | refuses args =>
    have hfits : args.candidateTerm < 2 ^ 31 := (hpacket _ rfl).2
    exact Raft.beforeVote_term (r := r) ▸ max_lt hlt hfits
  | counts | wins => exact hlt
  | other _ _ hballot =>
    cases hballot with
    | same h => exact h.term ▸ hlt
    | follows _ hterm =>
      rcases hterm with ⟨-, -, p, hp, heq⟩ | ⟨hsame, -⟩
      · exact heq ▸ (hpacket p hp).2
      · exact hsame ▸ hlt
    | forgets _ hcause => exact absurd hcause (not_forgets hkept h0 hlt)

theorem packets_fit (hcase : r.ElectionCase i a e) : ∀ p ∈ e.packets, FitsInt32 p.term := by
  intro p hp
  cases hcase with
  | stands =>
    obtain ⟨j, -, rfl⟩ := List.mem_map.mp hp
    exact int32_fits _
  | grants | refuses =>
    rw [List.mem_singleton.mp hp]
    exact int32_fits _
  | counts | wins => cases hp
  | other hpackets _ _ => exact (hpackets p hp).2

/-- The votes of a candidate are for this candidacy. -/
theorem candidate_votes (hcase : r.ElectionCase i a e)
    (hnode : (ballots n σ).node history i r)
    (hpacket : ∀ p ∈ a.packet i, (ballots n σ).packet history p)
    (hrole : e.state.currentRole = .candidate) :
    ∀ v ∈ e.state.votesReceived, Voted (history ++ e.events) v i e.state.currentTerm := by
  obtain ⟨-, -, hvotes⟩ := hnode
  have hsub : history ⊆ history ++ e.events := List.subset_append_left _ _
  intro v hv
  cases hcase with
  | stands =>
    rw [Finset.mem_singleton.mp hv]
    exact Or.inr ⟨rfl, _, List.mem_append_right _ (List.mem_singleton.mpr rfl), rfl, rfl⟩
  | grants | wins => cases hrole
  | refuses args =>
    rcases r.beforeVote_role args with h | h
    · exact absurd (h.symm.trans hrole) (by decide)
    · simp only [h] at hrole hv ⊢
      exact (hvotes hrole v hv).mono hsub
  | counts vote hcounts =>
    obtain ⟨hgranted, hterm, hcand⟩ := hcounts
    rcases Finset.mem_insert.mp hv with rfl | hv
    · have := (hpacket _ rfl).2 i vote rfl hgranted
      rw [← hterm] at this
      exact this.mono hsub
    · exact (hvotes hcand v hv).mono hsub
  | other _ _ hballot =>
    cases hballot with
    | same h =>
      rw [h.role] at hrole
      rw [h.votes] at hv
      rw [h.term]
      exact (hvotes hrole v hv).mono hsub
    | follows h | forgets h => exact absurd (h.symm.trans hrole) (by decide)

theorem BoundByVote.append (hbound : BoundByVote history i r) (hcase : r.ElectionCase i a e)
    (hkept : r.votesKept i a = true) (h0 : 0 ≤ r.currentTerm) (hlt : r.currentTerm < 2 ^ 31) :
    BoundByVote (history ++ e.events) i e.state := by
  obtain ⟨hmono, hstable⟩ := vote_stable hcase hkept h0 hlt
  intro c t hv
  rcases voted_append hv with hold | hnew
  · obtain ⟨hle, hvote⟩ := hbound c t hold
    exact ⟨by omega, fun heq ↦ hstable (by omega) c (hvote (by omega))⟩
  · obtain ⟨-, ht, hvote⟩ := voted_now hcase hnew
    exact ⟨ht.le, fun _ ↦ hvote⟩

theorem ballots_keeps (hcase : r.ElectionCase i a e) :
    (ballots n σ).Keeps i history (history ++ e.events) where
  node j s hne h := by
    obtain ⟨hterm, hbound, hvotes⟩ := h
    refine ⟨hterm, fun c t hv ↦ ?_, fun hrole v hv ↦ ?_⟩
    · rcases voted_append hv with hold | hnew
      · exact hbound c t hold
      · exact absurd (voted_now hcase hnew).1 hne
    · exact (hvotes hrole v hv).mono (List.subset_append_left _ _)
  thread _ _ _ _ _ := trivial
  packet p h := ⟨h.1, fun target vote hp hg ↦
    (h.2 target vote hp hg).mono (List.subset_append_left _ _)⟩

theorem ballots_restores (hcase : r.ElectionCase i a e) (hkept : r.votesKept i a = true)
    (hnode : (ballots n σ).node history i r)
    (hpacket : ∀ p ∈ a.packet i, (ballots n σ).packet history p) :
    (ballots n σ).Restores i history (history ++ e.events) ⟨r, ts⟩ e where
  node := by
    have hcand := candidate_votes hcase hnode hpacket
    obtain ⟨⟨h0, hlt⟩, hbound, -⟩ := hnode
    have hmono := (vote_stable hcase hkept h0 hlt).1
    exact ⟨⟨by omega, term_bounded hcase hkept h0 hlt fun p hp ↦ (hpacket p hp).1⟩,
      hbound.append hcase hkept h0 hlt, hcand⟩
  pending _ _ _ := trivial
  threads _ _ := trivial
  packets p hp := by
    refine ⟨packets_fit hcase p hp, ?_⟩
    rintro target vote rfl hgranted
    cases hcase with
    | stands =>
      obtain ⟨j, -, h⟩ := List.mem_map.mp hp
      cases h
    | grants args hgrants =>
      cases List.mem_singleton.mp hp
      refine Or.inl ⟨args, _, _, List.mem_append_right _ (List.mem_singleton.mpr rfl), rfl, ?_⟩
      exact (int32_eq_self (hpacket _ rfl).1).symm
    | refuses =>
      cases List.mem_singleton.mp hp
      cases hgranted
    | counts | wins => cases hp
    | other hpackets _ _ => cases (hpackets _ hp).1

theorem electedByMajority_append (hcase : r.ElectionCase i a e)
    (hnode : (ballots n σ).node history i r)
    (hpacket : ∀ p ∈ a.packet i, (ballots n σ).packet history p)
    (h : ElectedByMajority history) : ElectedByMajority (history ++ e.events) := by
  have hsub : history ⊆ history ++ e.events := List.subset_append_left _ _
  intro j t base log hlead
  rcases List.mem_append.mp hlead with hold | hnew
  · obtain ⟨q, hq, hv⟩ := h j t base log hold
    exact ⟨q, hq, fun v hvq ↦ (hv v hvq).mono hsub⟩
  · cases hcase with
    | stands | grants => cases List.mem_singleton.mp hnew
    | refuses | counts => cases hnew
    | wins vote hcounts hmajority =>
      cases List.mem_singleton.mp hnew
      -- just before `becomeLeader` the vote was merely counted
      refine ⟨_, isMajority_iff.mpr hmajority, fun v hv ↦ ?_⟩
      have := candidate_votes (.counts vote hcounts) hnode hpacket hcounts.2.2 v hv
      exact this.mono (by simp [Raft.quiet])
    | other _ hevents _ => cases hevents _ hnew

theorem votesOnce_append (hcase : r.ElectionCase i a e) (hkept : r.votesKept i a = true)
    (h0 : 0 ≤ r.currentTerm) (hlt : r.currentTerm < 2 ^ 31) (hbound : BoundByVote history i r)
    (h : VotesOnce history) : VotesOnce (history ++ e.events) := by
  obtain ⟨hmono, hstable⟩ := vote_stable hcase hkept h0 hlt
  -- an old vote of the term in which a new one is cast is for the same candidate
  have hcross : ∀ v c c' t, Voted history v c t → Voted e.events v c' t → c = c' := by
    intro v c c' t hold hnew
    obtain ⟨rfl, ht, hvote⟩ := voted_now hcase hnew
    obtain ⟨hle, hold⟩ := hbound c t hold
    have := hstable (by omega) c (hold (by omega))
    exact Option.some.inj (this.symm.trans hvote)
  intro v c c' t hv hv'
  rcases voted_append hv with hv | hv <;> rcases voted_append hv' with hv' | hv'
  · exact h v c c' t hv hv'
  · exact hcross v c c' t hv hv'
  · exact (hcross v c' c t hv' hv).symm
  · exact Option.some.inj ((voted_now hcase hv).2.2.symm.trans (voted_now hcase hv').2.2)

/-! ## Whole runs -/

theorem electionInv_start (snapshotThreshold : Int) (application : Fin n → σ) :
    ElectionInv (Cluster.start n snapshotThreshold application) where
  sound :=
    { nodes := fun _ ↦ ⟨⟨le_rfl, Int.pow_pos (by decide)⟩,
        fun _ _ hv ↦ absurd hv (not_voted (by simp [Cluster.start])), fun hrole ↦ by cases hrole⟩
      threads := fun _ _ _ ↦ trivial
      packets := fun _ hp ↦ by cases hp }
  elected _ _ _ _ h := by cases h
  once _ _ _ _ h := absurd h (not_voted (by simp [Cluster.start]))

theorem electionInv_step {c c' : Cluster n σ} {x : Fin n × Action n} (hs : ElectionInv c)
    (hkept : VotesKept c x) (hstep : Cluster.step app c x = some c') : ElectionInv c' := by
  obtain ⟨i, a⟩ := x
  obtain ⟨-, hpacket, e, hact, rfl⟩ := Cluster.step_cases hstep
  have hcase := Raft.act_election hact
  have hnode := hs.sound.nodes i
  have hpackets := fun p hp ↦ hs.sound.packets p (hpacket p hp)
  exact ⟨hs.sound.apply (ballots_keeps hcase) (ballots_restores hcase hkept hnode hpackets),
    electedByMajority_append hcase hnode hpackets hs.elected,
    votesOnce_append hcase hkept hnode.1.1 hnode.1.2 hnode.2.1 hs.once⟩

/-- In a run in which no vote of a running term is forgotten, no term has two leaders. -/
theorem election_safety (app : Application σ) (snapshotThreshold : Int) (application : Fin n → σ)
    {c : Cluster n σ}
    (hrun : Reaches (Cluster.step app) VotesKept (Cluster.start n snapshotThreshold application) c)
    {i j : Fin n} {t base base' : Int} {log log' : List LogEntry}
    (hi : .becameLeader i t base log ∈ c.history) (hj : .becameLeader j t base' log' ∈ c.history) :
    i = j := by
  have hinv := hrun.invariant ElectionInv (electionInv_start snapshotThreshold application)
    fun _ _ _ _ hs hkept hstep ↦ electionInv_step hs hkept hstep
  obtain ⟨q, hq, hvi⟩ := hinv.elected i t base log hi
  obtain ⟨q', hq', hvj⟩ := hinv.elected j t base' log' hj
  exact winner_unique (fun v c c' h h' ↦ hinv.once v c c' t h h') hq hq' hvi hvj

theorem election_safety_firstElection : ∃ c : Cluster 3 Unit,
    Reaches (Cluster.step keepsNothing) VotesKept (Cluster.fresh 3) c ∧
      .becameLeader 0 1 0 [] ∈ c.history ∧
      ∀ j base log, .becameLeader j 1 base log ∈ c.history → j = 0 := by
  obtain ⟨c, hrun, hlead⟩ : ∃ c : Cluster 3 Unit,
      Reaches (Cluster.step keepsNothing) VotesKept (Cluster.fresh 3) c ∧
        .becameLeader 0 1 0 [] ∈ c.history :=
    exists_reaches_of_exec firstElection (by decide +kernel)
  exact ⟨c, hrun, hlead, fun j base log hj ↦
    election_safety keepsNothing 1000 (fun _ ↦ ()) hrun hj hlead⟩

/-- Nodes 0 and 1 both stand in term 2 and node 2 elects node 0.  The request that node 0 sent for
term 1 then reaches node 2, which by now follows node 0: its vote is cleared and goes to node 1. -/
def secondVote : List (Fin 3 × Action 3) :=
  [(0, .electionTimeout), (0, .startElection), (0, .electionTimeout), (0, .startElection),
    (1, .electionTimeout), (1, .startElection), (1, .electionTimeout), (1, .startElection),
    (2, .voteRequest ⟨0, 2, 0, 0⟩), (0, .receiveVote ⟨2, 2, true⟩), (0, .replicate 2),
    (0, .prepareLogRequestArgs 2), (2, .logRequest ⟨0, 2, 0, 0, 0, []⟩),
    (2, .voteRequest ⟨0, 1, 0, 0⟩), (2, .voteRequest ⟨1, 2, 0, 0⟩),
    (1, .receiveVote ⟨2, 2, true⟩)]

theorem two_leaders_of_one_term : ∃ c : Cluster 3 Unit,
    Reachable (Cluster.step keepsNothing) (Cluster.fresh 3) c ∧
      .becameLeader 0 2 0 [] ∈ c.history ∧ .becameLeader 1 2 0 [] ∈ c.history :=
  exists_reaches_of_exec secondVote (by decide +kernel)

end DistributedCache
