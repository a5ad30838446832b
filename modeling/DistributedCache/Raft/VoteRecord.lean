import DistributedCache.Raft.Election

/-!
# `votedFor` and the votes that were cast

`votedFor` is to hold the vote of the current term and nothing else.  A vote that is given up within
its term is what `VotesKept` excludes; the other failure is a vote that outlives its term.
`receiveVote` and `InstallSnapshot` take over a newer term and leave `votedFor` alone, so that the
node counts as having voted in a term in which it has not.
-/

namespace DistributedCache

open Network Transition

variable {n : Nat} {σ : Type} {app : Application σ} {i : Fin n} {r : Raft n σ} {a : Action n}
  {e : RaftEffect n σ} {history : List (Event n)}

/-- The action neither makes its node forget a vote of its term nor carries a vote into a new
term. -/
def Raft.recordsVote (r : Raft n σ) (i : Fin n) : Action n → Bool
  | .receiveVote vote => r.currentTerm < vote.currentTerm → r.votedFor = none
  | .installSnapshot req _ => r.currentTerm < req.leaderTerm → r.votedFor = none
  | a => r.votesKept i a

theorem Raft.recordsVote.votesKept (h : r.recordsVote i a = true) : r.votesKept i a = true := by
  cases a with
  | receiveVote | installSnapshot => rfl
  | _ => exact h

def VotesRecorded (c : Cluster n σ) (x : Fin n × Action n) : Prop :=
  (c.raft x.1).recordsVote x.1 x.2 = true
deriving Decidable

/-- The event is a vote of `v` for `c` in term `t`. -/
def Event.isVote (v c : Fin n) (t : Int) : Event n → Bool
  | .granted voter args _ _ => voter = v ∧ args.candidateId = c ∧ args.candidateTerm = t
  | .candidacy data => v = c ∧ data.candidateId = c ∧ data.candidateTerm = t
  | _ => false

theorem voted_iff {v c : Fin n} {t : Int} :
    (∃ ev ∈ history, ev.isVote v c t = true) ↔ Voted history v c t := by
  constructor
  · rintro ⟨ev, hev, hvote⟩
    cases ev with
    | granted voter args lastTerm length =>
      obtain ⟨rfl, hid, hterm⟩ := of_decide_eq_true hvote
      exact Or.inl ⟨args, lastTerm, length, hev, hid, hterm⟩
    | candidacy data =>
      obtain ⟨hself, hid, hterm⟩ := of_decide_eq_true hvote
      exact Or.inr ⟨hself, data, hev, hid, hterm⟩
    | _ => cases hvote
  · rintro (⟨args, lastTerm, length, hev, hid, hterm⟩ | ⟨hself, data, hev, hid, hterm⟩)
    · exact ⟨_, hev, decide_eq_true ⟨rfl, hid, hterm⟩⟩
    · exact ⟨_, hev, decide_eq_true ⟨hself, hid, hterm⟩⟩

instance (v c : Fin n) (t : Int) : Decidable (Voted history v c t) :=
  decidable_of_iff _ voted_iff

/-! ## A vote that is recorded was cast -/

/-- `votedFor` names a candidate that the node has voted for in its current term. -/
def CastThisTerm (history : List (Event n)) (i : Fin n) (r : Raft n σ) : Prop :=
  ∀ c, r.votedFor = some c → Voted history i c r.currentTerm

theorem CastThisTerm.mono {history' : List (Event n)} (h : CastThisTerm history i r)
    (hsub : history ⊆ history') : CastThisTerm history' i r :=
  fun c hc ↦ (h c hc).mono hsub

/-- Without a new term or a new vote the record stands. -/
theorem CastThisTerm.congr {r' : Raft n σ} (h : CastThisTerm history i r)
    (hterm : r'.currentTerm = r.currentTerm) (hvote : r'.votedFor = r.votedFor) :
    CastThisTerm history i r' := by
  intro c hc
  rw [hterm]
  exact h c (hvote ▸ hc)

/-- What `VoteRequest` finds before it decides: the vote as it was, or none. -/
theorem beforeVote_votedFor (args : VoteRequestArgs n) :
    (r.beforeVote args).votedFor = none ∨
      (r.beforeVote args).votedFor = r.votedFor ∧
        (r.beforeVote args).currentTerm = r.currentTerm := by
  unfold Raft.beforeVote Raft.dropLeader Raft.adoptTerm
  split <;> split <;> simp

/-- `InstallSnapshot` does not look at the vote. -/
theorem Raft.InstallOutcome.votedFor {req : InstallSnapshotRequest n} {disk : Disk}
    {r' : Raft n σ} {reply : Option InstallSnapshotResponse}
    (h : InstallOutcome app disk r req r' reply) : r'.votedFor = r.votedFor := by
  have hfollow : (r.followSnapshot req).votedFor = r.votedFor := by
    unfold followSnapshot
    split <;> rfl
  cases h with
  | stale => rfl
  | stored | failed | restored => exact hfollow

/-- Outside the elections, a node that takes over a new term has no vote in it. -/
theorem votedFor_of_newTerm (hact : r.act app i a = some e) (hrecords : r.recordsVote i a = true)
    (hchanges : r.changesTerm a = true) (hstart : a ≠ .startElection)
    (hvote : ∀ args, a ≠ .voteRequest args) : e.state.votedFor = none := by
  cases a with
  | startElection => exact absurd rfl hstart
  | voteRequest args => exact absurd rfl (hvote args)
  | receiveVote vote =>
    have hlt : r.currentTerm < vote.currentTerm := of_decide_eq_true hchanges
    obtain rfl := Option.some.inj hact
    simp only [Raft.receiveVoteEffect, Raft.receiveVote, if_pos hlt]
    exact of_decide_eq_true hrecords hlt
  | logRequest args =>
    have hlt : r.currentTerm < args.term := of_decide_eq_true hchanges
    obtain rfl := Option.some.inj hact
    obtain ⟨-, heq⟩ | ⟨hsame, -⟩ | ⟨hgt, -⟩ := r.followLeader_cases i args
    · unfold Raft.logRequestEffect
      simp only [heq]
      split <;> rfl
    · omega
    · omega
  | replicateResponse f req resp =>
    obtain ⟨⟨r', ds⟩, hresp, rfl⟩ := Option.map_eq_some_iff.mp hact
    rw [Raft.replicateResponse, if_pos (of_decide_eq_true hchanges)] at hresp
    obtain ⟨rfl, -⟩ := Prod.mk.inj (Option.some.inj hresp)
    rfl
  | snapshotReply t req resp =>
    obtain rfl := Option.some.inj hact
    simp only [Raft.snapshotReplyEffect, if_pos (of_decide_eq_true hchanges)]
    rfl
  | installSnapshot req disk =>
    have hlt : r.currentTerm < req.leaderTerm := of_decide_eq_true hchanges
    obtain rfl := Option.some.inj hact
    exact (Raft.installSnapshot_outcome app disk r req).votedFor.trans
      (of_decide_eq_true hrecords hlt)
  | _ => cases hchanges

/-- Outside the elections a node keeps the vote of its term or has none. -/
theorem votedFor_kept (hact : r.act app i a = some e) (hrecords : r.recordsVote i a = true)
    (h0 : 0 ≤ r.currentTerm) (hlt : r.currentTerm < 2 ^ 31) (hstart : a ≠ .startElection)
    (hvote : ∀ args, a ≠ .voteRequest args) :
    e.state.votedFor = none ∨
      e.state.votedFor = r.votedFor ∧ e.state.currentTerm = r.currentTerm := by
  cases Raft.act_election hact with
  | stands => exact absurd rfl hstart
  | grants args | refuses args => exact absurd rfl (hvote args)
  | counts | wins => exact Or.inr ⟨rfl, rfl⟩
  | other _ _ hballot =>
    cases hballot with
    | same h => exact Or.inr ⟨h.vote, h.term⟩
    | follows _ hterm =>
      rcases hterm with ⟨-, hchanges, -⟩ | ⟨hterm, hkeeps⟩
      · exact Or.inl (votedFor_of_newTerm hact hrecords hchanges hstart hvote)
      · exact Or.inr ⟨hkeeps, hterm⟩
    | forgets _ hcause =>
      exact absurd hcause (not_forgets (Raft.recordsVote.votesKept hrecords) h0 hlt)

theorem CastThisTerm.act (h : CastThisTerm history i r) (hact : r.act app i a = some e)
    (hrecords : r.recordsVote i a = true) (h0 : 0 ≤ r.currentTerm)
    (hlt : r.currentTerm < 2 ^ 31) : CastThisTerm (history ++ e.events) i e.state := by
  have hsub : history ⊆ history ++ e.events := List.subset_append_left _ _
  -- a vote that was there before, in the same term
  have hkeep : ∀ r' : Raft n σ, (r'.votedFor = none ∨
      r'.votedFor = r.votedFor ∧ r'.currentTerm = r.currentTerm) →
      CastThisTerm (history ++ e.events) i r' := by
    rintro r' (hnone | ⟨hvote, hterm⟩)
    · intro c hc
      rw [hnone] at hc
      cases hc
    · exact (h.mono hsub).congr hterm hvote
  by_cases hstart : a = .startElection
  · subst hstart
    obtain rfl := Option.some.inj hact
    intro c hc
    obtain rfl : i = c := Option.some.inj hc
    exact Or.inr ⟨rfl, _, List.mem_append_right _ (List.mem_singleton.mpr rfl), rfl, rfl⟩
  by_cases hvote : ∃ args, a = .voteRequest args
  · obtain ⟨args, rfl⟩ := hvote
    obtain rfl := Option.some.inj hact
    unfold Raft.voteRequestEffect Raft.voteRequest at hsub hkeep ⊢
    simp only at hsub hkeep ⊢
    split
    · rename_i hgrants
      rintro c hc
      obtain rfl : args.candidateId = c := Option.some.inj hc
      refine Or.inl ⟨args, r.getLastLogTerm, r.absLength, ?_, rfl, hgrants.1⟩
      exact List.mem_append_right _ (List.mem_singleton.mpr rfl)
    · rename_i hrefuses
      rw [if_neg hrefuses] at hkeep
      exact hkeep _ (beforeVote_votedFor args)
  · exact hkeep _ (votedFor_kept hact hrecords h0 hlt hstart fun args hargs ↦ hvote ⟨args, hargs⟩)

/-! ## Whole runs -/

/-- In a run in which no vote is forgotten within its term or carried into another, `votedFor` is
the vote of the current term. -/
theorem votedFor_is_vote_of_term (app : Application σ) (snapshotThreshold : Int)
    (application : Fin n → σ) {c : Cluster n σ}
    (hrun : Reaches (Cluster.step app) VotesRecorded
      (Cluster.start n snapshotThreshold application) c) (v candidate : Fin n) :
    (c.raft v).votedFor = some candidate ↔
      Voted c.history v candidate (c.raft v).currentTerm := by
  have hinv : ElectionInv c ∧ ∀ i, CastThisTerm c.history i (c.raft i) := by
    refine hrun.invariant (fun c ↦ ElectionInv c ∧ ∀ i, CastThisTerm c.history i (c.raft i))
      ⟨electionInv_start snapshotThreshold application, fun i cand hcand ↦ by cases hcand⟩ ?_
    rintro c ⟨i, a⟩ c' - ⟨helection, hcast⟩ hrecords hstep
    refine ⟨electionInv_step helection (Raft.recordsVote.votesKept hrecords) hstep, fun j ↦ ?_⟩
    obtain ⟨-, -, e, hact, rfl⟩ := Cluster.step_cases hstep
    obtain ⟨⟨h0, hlt⟩, -⟩ := helection.sound.nodes i
    rw [Config.apply_history]
    by_cases hij : j = i
    · subst hij
      simpa [Cluster.raft] using (hcast j).act hact hrecords h0 hlt
    · simpa [Cluster.raft, Config.apply_of_ne hij]
        using (hcast j).mono (List.subset_append_left _ e.events)
  obtain ⟨helection, hcast⟩ := hinv
  refine ⟨hcast v candidate, fun hvoted ↦ ?_⟩
  exact ((helection.sound.nodes v).2.1 candidate _ hvoted).2 rfl

theorem votedFor_is_vote_of_term_firstElection : ∃ c : Cluster 3 Unit,
    Reaches (Cluster.step keepsNothing) VotesRecorded (Cluster.fresh 3) c ∧
      (c.raft 1).votedFor = some 0 ∧ Voted c.history 1 0 (c.raft 1).currentTerm := by
  obtain ⟨c, hrun, hvote⟩ : ∃ c : Cluster 3 Unit,
      Reaches (Cluster.step keepsNothing) VotesRecorded (Cluster.fresh 3) c ∧
        (c.raft 1).votedFor = some 0 :=
    exists_reaches_of_exec firstElection (by decide +kernel)
  exact ⟨c, hrun, hvote,
    (votedFor_is_vote_of_term keepsNothing 1000 (fun _ ↦ ()) hrun 1 0).mp hvote⟩

/-- Node 0 stands in term 1 and node 1 in term 2.  Node 1 answers the request of node 0 with its own
term, which node 0 takes over together with the vote it gave itself in term 1. -/
def outlivedVote : List (Fin 3 × Action 3) :=
  [(0, .electionTimeout), (0, .startElection), (1, .electionTimeout), (1, .startElection),
    (1, .electionTimeout), (1, .startElection), (1, .voteRequest ⟨0, 1, 0, 0⟩),
    (0, .receiveVote ⟨1, 2, false⟩)]

/-- The record is wrong both ways: after the run `secondVote`, up to the request of term 1, node 2
has voted for node 0 in its term and has no vote on record, and `outlivedVote` leaves a vote on
record that was cast in no such term. -/
theorem votedFor_is_not_vote_of_term :
    (∃ c : Cluster 3 Unit, Reachable (Cluster.step keepsNothing) (Cluster.fresh 3) c ∧
      (c.raft 2).votedFor = none ∧ Voted c.history 2 0 (c.raft 2).currentTerm) ∧
    ∃ c : Cluster 3 Unit, Reachable (Cluster.step keepsNothing) (Cluster.fresh 3) c ∧
      (c.raft 0).votedFor = some 0 ∧ ¬ Voted c.history 0 0 (c.raft 0).currentTerm :=
  ⟨exists_reaches_of_exec (secondVote.take 14) (by decide +kernel),
    exists_reaches_of_exec outlivedVote (by decide +kernel)⟩

end DistributedCache
