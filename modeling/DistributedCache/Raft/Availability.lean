import Mathlib.Data.Prod.Lex
import Mathlib.Data.Finset.Max
import Mathlib.Data.Finset.Union
import DistributedCache.Raft.QuorumLoss

/-!
# A majority can always elect a leader

Whatever has happened before, the nodes of any majority can come to a leader among themselves, with
the other nodes silent.  The node with the most recent log of the majority gives up leading, if it
leads, because its requests fail; it lets its timer run out until its term is above all others; then
it is voted for by everybody else.  Only the width of the wire's integers is in the way.

A cluster of one node is no majority in this sense: `receiveVote` is the only place where a node
becomes the leader, and no vote ever comes.
-/

namespace DistributedCache

open Network Transition

variable {n : Nat} {σ : Type} {app : Application σ} {i j : Fin n} {c : Cluster n σ}
  {Q : Finset (Fin n)}

theorem Raft.SameLog.trans {r r' r'' : Raft n σ} (h : r.SameLog r') (h' : r'.SameLog r'') :
    r.SameLog r'' where
  log := h'.log.trans h.log
  snapshotter := h'.snapshotter.trans h.snapshotter
  commitedLength := h'.commitedLength.trans h.commitedLength

namespace Cluster

/-- The nodes of `Q` bring `c` to `c'`, and node `i` is the only one that changes. -/
structure Brings (app : Application σ) (Q : Finset (Fin n)) (i : Fin n) (c c' : Cluster n σ) :
    Prop where
  run : Reaches (Cluster.step app) (fun _ x ↦ x.1 ∈ Q) c c'
  others : ∀ j, j ≠ i → c'.nodes j = c.nodes j

theorem Brings.refl (app : Application σ) (Q : Finset (Fin n)) (i : Fin n) (c : Cluster n σ) :
    Brings app Q i c c := ⟨.refl, fun _ _ ↦ rfl⟩

theorem Brings.trans {c' c'' : Cluster n σ} (h : Brings app Q i c c')
    (h' : Brings app Q i c' c'') : Brings app Q i c c'' where
  run := h.run.trans h'.run
  others := fun j hj ↦ (h'.others j hj).trans (h.others j hj)

/-- An action that is possible, and what it leaves. -/
theorem exists_brings {a : Action n} {e : RaftEffect n σ} (hi : i ∈ Q)
    (hact : (c.raft i).act app i a = some e)
    (hthread : a.thread = none ∨ ∃ t ∈ (c.nodes i).threads, a.thread = some t)
    (hpacket : a.packet i = none ∨ ∃ p ∈ c.network, a.packet i = some p) :
    ∃ c' : Cluster n σ, Brings app Q i c c' ∧ c'.raft i = e.state ∧
      (∀ t ∈ e.threads, t ∈ (c'.nodes i).threads) ∧ c'.network = c.network ++ e.packets := by
  have henabled : Enabled (raftProtocol app) c i a := by
    constructor
    · intro t (ht : a.thread = some t)
      rcases hthread with hnone | ⟨t', hmem, hsome⟩
      · rw [hnone] at ht
        cases ht
      · rw [hsome] at ht
        cases ht
        exact hmem
    · intro p (hp : a.packet i = some p)
      rcases hpacket with hnone | ⟨p', hmem, hsome⟩
      · rw [hnone] at hp
        cases hp
      · rw [hsome] at hp
        cases hp
        exact hmem
  have hstep : Cluster.step app c (i, a) = some (c.apply i a.thread e) := by
    show Network.step (raftProtocol app) c (i, a) = _
    have hact : (raftProtocol app).act i (c.nodes i).state a = some e := hact
    rw [Network.step, if_pos henabled, hact]
    rfl
  refine ⟨c.apply i a.thread e, ⟨Reaches.refl.tail hi hstep, fun j hj ↦ Config.apply_of_ne hj⟩,
    ?_, ?_, rfl⟩
  · simp only [Cluster.raft, Config.apply_self]
  · intro t ht
    rw [Config.apply_self]
    exact List.mem_append_right _ ht

/-! ## 1. A leader gives up -/

/-- Requests to the followers `fs` fail, one after another. -/
theorem exists_failures (app : Application σ) (hi : i ∈ Q) (c : Cluster n σ) (fs : List (Fin n)) :
    ∃ c' reps, Brings app Q i c c' ∧ c'.raft i = { c.raft i with replicators := reps } ∧
      Raft.FailedOn Finset.univ (fun f ↦ fs.count f) (c'.raft i) ∧
      (fs ≠ [] → .checkQuorumHealth ∈ (c'.nodes i).threads) := by
  induction fs using List.reverseRecOn with
  | nil =>
    refine ⟨c, (c.raft i).replicators, .refl app Q i c, rfl, ?_, fun h ↦ absurd rfl h⟩
    intro reps _ f _ rep _
    exact Nat.zero_le _
  | append_singleton fs f ih =>
    obtain ⟨c', reps, hbrings, hstate, hfailed, -⟩ := ih
    have hact : (c'.raft i).act app i (.replicateFailed f true) =
        some (((c'.raft i).countFailure f true).spawn .checkQuorumHealth) := rfl
    obtain ⟨c'', hnext, hstate', hthreads, -⟩ :=
      exists_brings hi hact (Or.inl rfl) (Or.inl rfl)
    refine ⟨c'', ((c'.raft i).countFailure f true).replicators, hbrings.trans hnext, ?_, ?_, ?_⟩
    · rw [hstate', hstate]
      rfl
    · have hmore := hfailed.fails f (congrArg Raft.replicators hstate')
      intro reps hreps g hg rep hrep
      have hle := hmore reps hreps g hg rep hrep
      simp only [List.count_append, List.count_singleton, beq_iff_eq]
      exact hle
    · intro _
      exact hthreads _ (List.mem_singleton.mpr rfl)

theorem one_lt_majority (hn : 2 ≤ n) : 1 < majority n := by
  unfold majority
  omega

/-- Node `i` is not the leader any more, and has kept its term and its log. -/
theorem exists_not_leader (app : Application σ) (hi : i ∈ Q) (hn : 2 ≤ n) (c : Cluster n σ) :
    ∃ c', Brings app Q i c c' ∧ (c'.raft i).currentRole ≠ .leader ∧
      (c'.raft i).currentTerm = (c.raft i).currentTerm ∧ (c.raft i).SameLog (c'.raft i) := by
  by_cases hrole : (c.raft i).currentRole = .leader
  · -- five failures for every follower
    have hcount : ∀ f, ((List.finRange n) ++ (List.finRange n) ++ (List.finRange n) ++
        (List.finRange n) ++ (List.finRange n)).count f = 5 := by
      intro f
      have hone := List.count_eq_one_of_mem (List.nodup_finRange n) (List.mem_finRange f)
      rw [List.count_append, List.count_append, List.count_append, List.count_append, hone]
    obtain ⟨c', reps, hbrings, hstate, hfailed, hthread⟩ := exists_failures app hi c
      ((List.finRange n) ++ (List.finRange n) ++ (List.finRange n) ++ (List.finRange n) ++
        (List.finRange n))
    have hfive : Raft.FailedOn (Finset.univ.erase i) (fun _ ↦ maxConsecutiveFailures)
        (c'.raft i) := by
      intro reps hreps f _ rep hrep
      have hle := hfailed reps hreps f (Finset.mem_univ f) rep hrep
      simp only [hcount f] at hle
      exact hle
    have hothers : n < majority n + (Finset.univ.erase i).card := by
      have hmajority := one_lt_majority hn
      rw [Finset.card_erase_of_mem (Finset.mem_univ i), Finset.card_fin]
      omega
    have hloses : (c'.raft i).losesQuorum i := by
      apply hfive.losesQuorum (Finset.notMem_erase i _) hothers
      rw [hstate]
      exact hrole
    have hmem : Thread.checkQuorumHealth ∈ (c'.nodes i).threads := by
      apply hthread
      intro hnil
      have hfive := hcount i
      rw [hnil] at hfive
      cases hfive
    have hact : (c'.raft i).act app i .checkQuorumHealth =
        some ((c'.raft i).becomeFollowerUnlocked (c'.raft i).currentTerm).quiet := by
      show some ((c'.raft i).checkQuorumHealth i).quiet = _
      rw [Raft.checkQuorumHealth, if_pos hloses]
    obtain ⟨c'', hnext, hstate', -, -⟩ :=
      exists_brings hi hact (Or.inr ⟨_, hmem, rfl⟩) (Or.inl rfl)
    rw [hstate] at hstate'
    refine ⟨c'', hbrings.trans hnext, ?_, ?_, ?_⟩
    all_goals rw [hstate']
    · show Role.follower ≠ Role.leader
      decide
    · rfl
    · exact ⟨rfl, rfl, rfl⟩
  · exact ⟨c, .refl app Q i c, hrole, rfl, .refl _⟩

/-! ## 2. A candidate raises its term -/

/-- The requests of a candidacy are in the network. -/
def Asked (i : Fin n) (term length lastTerm : Int) (c : Cluster n σ) : Prop :=
  ∀ j, j ≠ i → .voteRequest j (VoteRequestData.wire ⟨i, term, length, lastTerm⟩) ∈ c.network

theorem exists_election (app : Application σ) (hi : i ∈ Q)
    (hrole : (c.raft i).currentRole ≠ .leader) :
    ∃ c', Brings app Q i c c' ∧ (c'.raft i).currentRole = .candidate ∧
      (c'.raft i).currentTerm = (c.raft i).currentTerm + 1 ∧
      (c'.raft i).votesReceived = {i} ∧ (c.raft i).SameLog (c'.raft i) ∧
      Asked i ((c.raft i).currentTerm + 1) (c.raft i).absLength (c.raft i).getLastLogTerm c' := by
  have htimeout : (c.raft i).act app i .electionTimeout =
      some ((c.raft i).spawn .startElection) := if_neg hrole
  obtain ⟨c₁, hfirst, hstate, hthreads, -⟩ :=
    exists_brings hi htimeout (Or.inl rfl) (Or.inl rfl)
  have hstart : (c₁.raft i).act app i .startElection =
      some ((c.raft i).startElectionEffect i) := by
    rw [hstate]
    rfl
  have hpending := hthreads .startElection (List.mem_singleton.mpr rfl)
  obtain ⟨c', hsecond, hstate', -, hnetwork⟩ :=
    exists_brings hi hstart (Or.inr ⟨_, hpending, rfl⟩) (Or.inl rfl)
  refine ⟨c', hfirst.trans hsecond, ?_, ?_, ?_, ?_, ?_⟩
  · rw [hstate']
    rfl
  · rw [hstate']
    rfl
  · rw [hstate']
    rfl
  · rw [hstate']
    exact ⟨rfl, rfl, rfl⟩
  · intro j hj
    rw [hnetwork]
    apply List.mem_append_right
    apply List.mem_map.mpr
    exact ⟨j, List.mem_filter.mpr ⟨List.mem_finRange j, decide_eq_true hj⟩, rfl⟩

variable {r : Raft n σ} {T : Int} {V : Finset (Fin n)}

theorem absLength_congr {r' : Raft n σ} (h : r.SameLog r') : r'.absLength = r.absLength := by
  unfold Raft.absLength
  rw [h.log, h.snapshotter]

theorem getLastLogTerm_congr {r' : Raft n σ} (h : r.SameLog r') :
    r'.getLastLogTerm = r.getLastLogTerm := by
  unfold Raft.getLastLogTerm
  rw [h.log, h.snapshotter]

/-- Node `i` starts one election after another. -/
theorem exists_candidate (app : Application σ) (hi : i ∈ Q) (k : Nat)
    (hrole : (c.raft i).currentRole ≠ .leader) :
    ∃ c', Brings app Q i c c' ∧ (c'.raft i).currentRole = .candidate ∧
      (c'.raft i).currentTerm = (c.raft i).currentTerm + (k + 1) ∧
      (c'.raft i).votesReceived = {i} ∧ (c.raft i).SameLog (c'.raft i) ∧
      Asked i ((c.raft i).currentTerm + (k + 1)) (c.raft i).absLength (c.raft i).getLastLogTerm
        c' := by
  obtain ⟨c₁, hbrings, hcandidate, hterm, hvotes, hsame, hasked⟩ := exists_election app hi hrole
  induction k generalizing c c₁ with
  | zero => exact ⟨c₁, hbrings, hcandidate, hterm, hvotes, hsame, hasked⟩
  | succ k ih =>
    have hrole₁ : (c₁.raft i).currentRole ≠ .leader := by
      rw [hcandidate]
      exact nofun
    obtain ⟨c₂, hbrings₂, hcandidate₂, hterm₂, hvotes₂, hsame₂, hasked₂⟩ :=
      exists_election app hi hrole₁
    obtain ⟨c', hbrings', hcandidate', hterm', hvotes', hsame', hasked'⟩ :=
      ih hrole₁ c₂ hbrings₂ hcandidate₂ hterm₂ hvotes₂ hsame₂ hasked₂
    have hsum : (c₁.raft i).currentTerm + ((k : Int) + 1) =
        (c.raft i).currentTerm + (((k + 1 : Nat) : Int) + 1) := by
      rw [hterm]
      push_cast
      omega
    rw [hsum, absLength_congr hsame, getLastLogTerm_congr hsame] at hasked'
    exact ⟨c', hbrings.trans hbrings', hcandidate', hterm'.trans hsum, hvotes',
      hsame.trans hsame', hasked'⟩

/-! ## 3. The votes -/

/-- The candidate has the votes `V`, or enough of them. -/
def Gathered (T : Int) (V : Finset (Fin n)) (r : Raft n σ) : Prop :=
  r.currentTerm = T ∧ (r.currentRole = .leader ∨
    r.currentRole = .candidate ∧ r.votesReceived = V ∧ V.card < majority n)

/-- A vote for the candidate of term `T` is counted. -/
theorem Gathered.receiveVote (h : Gathered T V r) (j : Fin n) :
    Gathered T (insert j V) (r.receiveVote i ⟨j, T, true⟩).1 ∧
      r.SameLog (r.receiveVote i ⟨j, T, true⟩).1 := by
  obtain ⟨hterm, hrole⟩ := h
  unfold Raft.receiveVote
  rw [if_neg (by rw [hterm]; exact Int.lt_irrefl T)]
  cases hrole with
  | inl hleader =>
    rw [if_neg (fun hcounts ↦ by
      have hcandidate := hcounts.2.2
      rw [hleader] at hcandidate
      cases hcandidate)]
    exact ⟨⟨hterm, Or.inl hleader⟩, .refl r⟩
  | inr hcandidate =>
    obtain ⟨hcandidate, hvotes, -⟩ := hcandidate
    rw [if_pos ⟨rfl, hterm, hcandidate⟩]
    simp only [hvotes]
    split
    next => exact ⟨⟨hterm, Or.inl rfl⟩, rfl, rfl, rfl⟩
    next hfew =>
      exact ⟨⟨hterm, Or.inr ⟨hcandidate, rfl, Nat.lt_of_not_le hfew⟩⟩, rfl, rfl, rfl⟩

/-- Node `j` follows the candidate that it has voted for. -/
structure VotedIn (T : Int) (i : Fin n) (r r' : Raft n σ) : Prop where
  term : r'.currentTerm = T
  role : r'.currentRole = .follower
  vote : r'.votedFor = some i
  same : r.SameLog r'

/-- A newer term and a log that is no worse: the vote is granted. -/
theorem voteRequest_granted {args : VoteRequestArgs n} (j : Fin n)
    (hterm : r.currentTerm < args.candidateTerm) (hlog : r.voteLogOk args)
    (hfits : FitsInt32 args.candidateTerm) :
    (r.voteRequest j args).2 = ⟨j, args.candidateTerm, true⟩ ∧
      VotedIn args.candidateTerm args.candidateId r (r.voteRequest j args).1 := by
  have hbefore : (r.beforeVote args).currentTerm = args.candidateTerm := by
    rw [Raft.beforeVote_term]
    omega
  have hvoted : (r.beforeVote args).votedFor = none := by
    have hdrop : (r.dropLeader args.candidateId).currentTerm = r.currentTerm := by
      unfold Raft.dropLeader
      split <;> rfl
    unfold Raft.beforeVote Raft.adoptTerm
    rw [hdrop, if_pos hterm]
  have hgrants : (r.beforeVote args).grantsVote args :=
    ⟨hbefore.symm, Raft.beforeVote_voteLogOk.mpr hlog, Or.inl hvoted⟩
  have hsame := r.beforeVote_sameLog args
  unfold Raft.voteRequest
  simp only
  rw [if_pos hgrants, hbefore, int32_eq_self hfits]
  exact ⟨rfl, hbefore, rfl, rfl, hsame.log, hsame.snapshotter, hsame.commitedLength⟩

/-- Node `j` votes for the candidate, and the candidate hears of it. -/
theorem exists_vote (app : Application σ) {length lastTerm : Int} (hi : i ∈ Q) (hj : j ∈ Q)
    (hne : j ≠ i) (hfits : FitsInt32 T)
    (hpacket : .voteRequest j ⟨i, T, length, lastTerm⟩ ∈ c.network)
    (hterm : (c.raft j).currentTerm < T) (hlog : (c.raft j).voteLogOk ⟨i, T, length, lastTerm⟩)
    (hgathered : Gathered T V (c.raft i)) :
    ∃ c', Reaches (Cluster.step app) (fun _ x ↦ x.1 ∈ Q) c c' ∧
      Gathered T (insert j V) (c'.raft i) ∧ (c.raft i).SameLog (c'.raft i) ∧
      VotedIn T i (c.raft j) (c'.raft j) ∧ (∀ k, k ≠ i → k ≠ j → c'.nodes k = c.nodes k) ∧
      ∀ p ∈ c.network, p ∈ c'.network := by
  obtain ⟨hreply, hvoted⟩ := voteRequest_granted j hterm hlog hfits
  have hact : (c.raft j).act app j (.voteRequest ⟨i, T, length, lastTerm⟩) =
      some ((c.raft j).voteRequestEffect j ⟨i, T, length, lastTerm⟩) := rfl
  obtain ⟨c₁, hfirst, hj₁, -, hnetwork₁⟩ :=
    exists_brings hj hact (Or.inl rfl) (Or.inr ⟨_, hpacket, rfl⟩)
  have hi₁ : c₁.raft i = c.raft i := by
    show (c₁.nodes i).state = (c.nodes i).state
    rw [hfirst.others i (Ne.symm hne)]
  have hresponse : Packet.voteResponse i ⟨j, T, true⟩ ∈ c₁.network := by
    rw [hnetwork₁]
    apply List.mem_append_right
    show _ ∈ [Packet.voteResponse i ((c.raft j).voteRequest j _).2]
    rw [hreply]
    exact List.mem_singleton.mpr rfl
  have hact₁ : (c₁.raft i).act app i (.receiveVote ⟨j, T, true⟩) =
      some ((c₁.raft i).receiveVoteEffect i ⟨j, T, true⟩) := rfl
  obtain ⟨c', hsecond, hi', -, hnetwork'⟩ :=
    exists_brings hi hact₁ (Or.inl rfl) (Or.inr ⟨_, hresponse, rfl⟩)
  have hcounted := hgathered.receiveVote (i := i) j
  rw [hi₁] at hi'
  refine ⟨c', hfirst.run.trans hsecond.run, ?_, ?_, ?_, ?_, ?_⟩
  · rw [hi']
    exact hcounted.1
  · rw [hi']
    exact hcounted.2
  · show VotedIn T i (c.raft j) (c'.nodes j).state
    rw [hsecond.others j hne]
    show VotedIn T i (c.raft j) (c₁.raft j)
    rw [hj₁]
    exact hvoted
  · intro k hki hkj
    exact (hsecond.others k hki).trans (hfirst.others k hkj)
  · intro p hp
    rw [hnetwork', hnetwork₁]
    exact List.mem_append_left _ (List.mem_append_left _ hp)

/-- The voters `js`, one after another. -/
theorem exists_votes (app : Application σ) {length lastTerm : Int} (hi : i ∈ Q)
    (hfits : FitsInt32 T) (js : List (Fin n)) (hnodup : js.Nodup)
    (hvoters : ∀ j ∈ js, j ∈ Q ∧ j ≠ i ∧ .voteRequest j ⟨i, T, length, lastTerm⟩ ∈ c.network ∧
      (c.raft j).currentTerm < T ∧ (c.raft j).voteLogOk ⟨i, T, length, lastTerm⟩)
    (hgathered : Gathered T V (c.raft i)) :
    ∃ c', Reaches (Cluster.step app) (fun _ x ↦ x.1 ∈ Q) c c' ∧
      Gathered T (V ∪ js.toFinset) (c'.raft i) ∧ (c.raft i).SameLog (c'.raft i) ∧
      (∀ j ∈ js, VotedIn T i (c.raft j) (c'.raft j)) ∧
      ∀ j, j ≠ i → j ∉ js → c'.nodes j = c.nodes j := by
  induction js generalizing c V with
  | nil =>
    refine ⟨c, .refl, ?_, .refl _, nofun, fun _ _ _ ↦ rfl⟩
    rw [List.toFinset_nil, Finset.union_empty]
    exact hgathered
  | cons j js ih =>
    obtain ⟨hj, hrest⟩ := List.nodup_cons.mp hnodup
    obtain ⟨hjQ, hne, hpacket, hterm, hlog⟩ := hvoters j (List.mem_cons_self ..)
    obtain ⟨c₁, hrun₁, hgathered₁, hsame₁, hvoted₁, hothers₁, hnetwork₁⟩ :=
      exists_vote app hi hjQ hne hfits hpacket hterm hlog hgathered
    have hvoters₁ : ∀ k ∈ js, k ∈ Q ∧ k ≠ i ∧
        .voteRequest k ⟨i, T, length, lastTerm⟩ ∈ c₁.network ∧ (c₁.raft k).currentTerm < T ∧
        (c₁.raft k).voteLogOk ⟨i, T, length, lastTerm⟩ := by
      intro k hk
      obtain ⟨hkQ, hki, hkpacket, hkterm, hklog⟩ := hvoters k (List.mem_cons_of_mem j hk)
      have hkj : k ≠ j := by
        intro heq
        rw [heq] at hk
        exact hj hk
      have hkeep : c₁.raft k = c.raft k := by
        show (c₁.nodes k).state = (c.nodes k).state
        rw [hothers₁ k hki hkj]
      rw [hkeep]
      exact ⟨hkQ, hki, hnetwork₁ _ hkpacket, hkterm, hklog⟩
    obtain ⟨c', hrun, hgathered', hsame, hvoted, hothers⟩ := ih hrest hvoters₁ hgathered₁
    refine ⟨c', hrun₁.trans hrun, ?_, hsame₁.trans hsame, ?_, ?_⟩
    · rw [List.toFinset_cons, Finset.union_insert, ← Finset.insert_union]
      exact hgathered'
    · intro k hk
      cases List.mem_cons.mp hk with
      | inl heq =>
        have hkeep := hothers j hne hj
        rw [heq]
        show VotedIn T i (c.raft j) (c'.nodes j).state
        rw [hkeep]
        exact hvoted₁
      | inr hk =>
        have hvote := hvoted k hk
        have hki := (hvoters₁ k hk).2.1
        have hkj : k ≠ j := by
          intro heq
          rw [heq] at hk
          exact hj hk
        have hkeep : c₁.raft k = c.raft k := by
          show (c₁.nodes k).state = (c.nodes k).state
          rw [hothers₁ k hki hkj]
        rw [hkeep] at hvote
        exact hvote
    · intro k hki hk
      obtain ⟨hkj, hkjs⟩ := not_or.mp (fun h ↦ hk (List.mem_cons.mpr h))
      exact (hothers k hki hkjs).trans (hothers₁ k hki hkj)

/-! ## 4. An election that is won -/

/-- The node of a majority whose log no other of them can refuse to vote for. -/
theorem exists_best_log (c : Cluster n σ) (hQ : Q.Nonempty) :
    ∃ i ∈ Q, ∀ j ∈ Q, (c.raft j).getLastLogTerm < (c.raft i).getLastLogTerm ∨
      (c.raft i).getLastLogTerm = (c.raft j).getLastLogTerm ∧
        (c.raft j).absLength ≤ (c.raft i).absLength := by
  obtain ⟨i, hi, hbest⟩ :=
    Q.exists_max_image (fun j ↦ toLex ((c.raft j).getLastLogTerm, (c.raft j).absLength)) hQ
  refine ⟨i, hi, ?_⟩
  intro j hj
  have hle := (Prod.Lex.toLex_le_toLex).mp (hbest j hj)
  exact hle.imp_right fun h ↦ ⟨h.1.symm, h.2⟩

/-- From every state of a cluster of two or more nodes, the nodes of any majority can elect one of
themselves in a term that is above all of theirs, without a step of any other node. -/
theorem majority_can_elect (app : Application σ) (c : Cluster n σ) {Q : Finset (Fin n)}
    (hn : 2 ≤ n) (hQ : majority n ≤ Q.card)
    (hterm : ∀ j ∈ Q, FitsInt32 ((c.raft j).currentTerm + 1))
    (hlog : ∀ j ∈ Q, FitsInt32 (c.raft j).absLength ∧ FitsInt32 (c.raft j).getLastLogTerm) :
    ∃ i ∈ Q, ∃ c', Reaches (Cluster.step app) (fun _ x ↦ x.1 ∈ Q) c c' ∧
      (c'.raft i).currentRole = .leader ∧
      (∀ j ∈ Q, (c.raft j).currentTerm < (c'.raft i).currentTerm ∧
        (c'.raft j).currentTerm = (c'.raft i).currentTerm ∧
        (j ≠ i → (c'.raft j).currentRole = .follower ∧ (c'.raft j).votedFor = some i)) ∧
      ∀ j, (c.raft j).SameLog (c'.raft j) := by
  have hmajority := one_lt_majority hn
  have hne : Q.Nonempty := Finset.card_pos.mp (by omega)
  obtain ⟨i, hi, hbest⟩ := exists_best_log c hne
  obtain ⟨top, htop, hmax⟩ := Q.exists_max_image (fun j ↦ (c.raft j).currentTerm) hne
  have hfits := hterm top htop
  -- the candidate, in the first term above all others
  obtain ⟨c₁, hbrings₁, hrole₁, hterm₁, hsame₁⟩ := exists_not_leader app hi hn c
  obtain ⟨k, hk⟩ : ∃ k : Nat,
      (c₁.raft i).currentTerm + (k + 1) = (c.raft top).currentTerm + 1 := by
    have hle := hmax i hi
    exact ⟨((c.raft top).currentTerm - (c.raft i).currentTerm).toNat, by rw [hterm₁]; omega⟩
  obtain ⟨c₂, hbrings₂, hrole₂, hterm₂, hvotes₂, hsame₂, hasked⟩ := exists_candidate app hi k hrole₁
  have hbrings := hbrings₁.trans hbrings₂
  have hsame := hsame₁.trans hsame₂
  rw [hk] at hterm₂ hasked
  rw [absLength_congr hsame₁, getLastLogTerm_congr hsame₁] at hasked
  have hgathered : Gathered ((c.raft top).currentTerm + 1) {i} (c₂.raft i) :=
    ⟨hterm₂, Or.inr ⟨hrole₂, hvotes₂, by rw [Finset.card_singleton]; exact hmajority⟩⟩
  have hwire : VoteRequestData.wire ⟨i, (c.raft top).currentTerm + 1, (c.raft i).absLength,
      (c.raft i).getLastLogTerm⟩ = ⟨i, (c.raft top).currentTerm + 1, (c.raft i).absLength,
        (c.raft i).getLastLogTerm⟩ := by
    simp only [VoteRequestData.wire, int32_eq_self hfits, int32_eq_self (hlog i hi).1,
      int32_eq_self (hlog i hi).2]
  rw [Asked, hwire] at hasked
  have hvoters : ∀ j ∈ (Q.erase i).toList, j ∈ Q ∧ j ≠ i ∧
      .voteRequest j ⟨i, (c.raft top).currentTerm + 1, (c.raft i).absLength,
        (c.raft i).getLastLogTerm⟩ ∈ c₂.network ∧
      (c₂.raft j).currentTerm < (c.raft top).currentTerm + 1 ∧
      (c₂.raft j).voteLogOk ⟨i, (c.raft top).currentTerm + 1, (c.raft i).absLength,
        (c.raft i).getLastLogTerm⟩ := by
    intro j hj
    obtain ⟨hji, hjQ⟩ := Finset.mem_erase.mp (Finset.mem_toList.mp hj)
    have hkeep : c₂.raft j = c.raft j := by
      show (c₂.nodes j).state = (c.nodes j).state
      rw [hbrings.others j hji]
    rw [hkeep]
    exact ⟨hjQ, hji, hasked j hji, Int.lt_add_one_of_le (hmax j hjQ), hbest j hjQ⟩
  obtain ⟨c', hrun, hgathered', hsame', hvoted, hothers⟩ :=
    exists_votes app hi hfits (Q.erase i).toList (Finset.nodup_toList _) hvoters hgathered
  have hkeep : ∀ j, j ≠ i → c₂.raft j = c.raft j := by
    intro j hj
    show (c₂.nodes j).state = (c.nodes j).state
    rw [hbrings.others j hj]
  -- all of `Q` have voted, which is enough
  have hall : {i} ∪ (Q.erase i).toList.toFinset = Q := by
    rw [Finset.toList_toFinset, Finset.singleton_union, Finset.insert_erase hi]
  rw [hall] at hgathered'
  have hleader : (c'.raft i).currentRole = .leader := by
    cases hgathered'.2 with
    | inl h => exact h
    | inr h =>
      have hfew := h.2.2
      omega
  refine ⟨i, hi, c', hbrings.run.trans hrun, hleader, ?_, ?_⟩
  · intro j hj
    rw [hgathered'.1]
    refine ⟨Int.lt_add_one_of_le (hmax j hj), ?_, ?_⟩
    · by_cases hji : j = i
      · rw [hji]
        exact hgathered'.1
      · exact (hvoted j (Finset.mem_toList.mpr (Finset.mem_erase.mpr ⟨hji, hj⟩))).term
    · intro hji
      have hvote := hvoted j (Finset.mem_toList.mpr (Finset.mem_erase.mpr ⟨hji, hj⟩))
      exact ⟨hvote.role, hvote.vote⟩
  · intro j
    by_cases hji : j = i
    · rw [hji]
      exact hsame.trans hsame'
    · by_cases hj : j ∈ (Q.erase i).toList
      · have hvote := (hvoted j hj).same
        rw [hkeep j hji] at hvote
        exact hvote
      · have hstay : c'.raft j = c.raft j := by
          show (c'.nodes j).state = _
          rw [hothers j hji hj]
          exact hkeep j hji
        rw [hstay]
        exact .refl _

/-- Two of three nodes elect one of themselves at once. -/
theorem majority_can_elect_two : ∃ i ∈ ({0, 1} : Finset (Fin 3)), ∃ c' : Cluster 3 Unit,
    Reaches (Cluster.step keepsNothing) (fun _ x ↦ x.1 ∈ ({0, 1} : Finset (Fin 3)))
      (Cluster.fresh 3) c' ∧ (c'.raft i).currentRole = .leader := by
  obtain ⟨i, hi, c', hrun, hleader, -⟩ := majority_can_elect keepsNothing (Cluster.fresh 3)
    (Q := {0, 1}) (by decide) (by decide) (by decide) (by decide)
  exact ⟨i, hi, c', hrun, hleader⟩

/-! ## 5. One node alone -/

/-- Nobody leads and nobody has been asked for a vote. -/
structure Leaderless (c : Cluster 1 σ) : Prop where
  role : ∀ i, (c.raft i).currentRole ≠ .leader
  network : ∀ p ∈ c.network, p.isVote = false

theorem leaderless_start (snapshotThreshold : Int) (application : Fin 1 → σ) :
    Leaderless (Cluster.start 1 snapshotThreshold application) where
  role := by
    intro i
    show Role.follower ≠ .leader
    decide
  network := by
    intro p hp
    have hp : p ∈ ([] : List (Packet 1)) := hp
    cases hp

theorem Leaderless.step {c c' : Cluster 1 σ} {i : Fin 1} {a : Action 1} (h : Leaderless c)
    (hstep : Cluster.step app c (i, a) = some c') : Leaderless c' := by
  obtain ⟨-, hpacket, e, hact, rfl⟩ := step_cases hstep
  have hone : ∀ j : Fin 1, j = i := fun j ↦ Subsingleton.elim j i
  have hafter : e.state.currentRole ≠ .leader ∧ ∀ p ∈ e.packets, p.isVote = false := by
    cases Raft.act_election hact with
    | stands =>
      refine ⟨nofun, ?_⟩
      intro p hp
      -- there is nobody else to ask
      obtain ⟨j, hj, -⟩ := List.mem_map.mp hp
      exact absurd (hone j) (of_decide_eq_true (List.mem_filter.mp hj).2)
    | grants | refuses | counts | wins =>
      have hvote := h.network _ (hpacket _ rfl)
      cases hvote
    | other hpackets _ hballot =>
      refine ⟨?_, fun p hp ↦ (hpackets p hp).1⟩
      cases hballot with
      | same hsame =>
        rw [hsame.role]
        exact h.role i
      | follows hrole | forgets hrole =>
        rw [hrole]
        exact nofun
  constructor
  · intro j
    rw [hone j]
    simp only [Cluster.raft, Config.apply_self]
    exact hafter.1
  · intro p hp
    rw [Config.apply_network] at hp
    cases List.mem_append.mp hp with
    | inl hp => exact h.network p hp
    | inr hp => exact hafter.2 p hp

/-- A cluster of one node never has a leader, so it never accepts a message. -/
theorem sole_node_never_leads {snapshotThreshold : Int} {application : Fin 1 → σ}
    {c : Cluster 1 σ}
    (hrun : Reachable (Cluster.step app) (Cluster.start 1 snapshotThreshold application) c) :
    (∀ i, (c.raft i).currentRole ≠ .leader) ∧
      ∀ i m, Cluster.step app c (i, .getLeaderData m) = none := by
  have h : Leaderless c := by
    apply Reaches.invariant Leaderless (leaderless_start snapshotThreshold application) _ hrun
    intro c x c' _ h _ hstep
    exact h.step hstep
  refine ⟨h.role, ?_⟩
  intro i m
  cases hstep : Cluster.step app c (i, .getLeaderData m) with
  | none => rfl
  | some c' =>
    obtain ⟨-, -, e, hact, -⟩ := step_cases hstep
    exact absurd (Raft.act_getLeaderData hact).1 (h.role i)

/-- Even after two elections in a row. -/
theorem sole_node_never_leads_twice : ∃ c : Cluster 1 Unit,
    Reachable (Cluster.step keepsNothing) (Cluster.fresh 1) c ∧
      (c.raft 0).currentTerm = 2 ∧ (c.raft 0).currentRole ≠ .leader := by
  obtain ⟨c, hrun, hterm⟩ : ∃ c : Cluster 1 Unit,
      Reachable (Cluster.step keepsNothing) (Cluster.fresh 1) c ∧ (c.raft 0).currentTerm = 2 :=
    exists_reaches_of_exec [(0, .electionTimeout), (0, .startElection), (0, .electionTimeout),
      (0, .startElection)] (by decide +kernel)
  exact ⟨c, hrun, hterm, (sole_node_never_leads hrun).1 0⟩

end Cluster

end DistributedCache
