import Mathlib.Data.Fintype.Card
import DistributedCache.Raft.Ballot
import DistributedCache.Raft.LogSteps

/-!
# A leader that is not answered

Every replicator counts the requests that failed in a row, and `checkQuorumHealth`, which follows
each failure, takes the replicators with five of them for lost.  So a leader that is cut off from
too many followers does not stay one: after five failures each it is a follower again, unless it
has won another election in the meantime.
-/

namespace DistributedCache

open Network Transition

variable {n : Nat} {σ : Type} {app : Application σ} {i : Fin n} {F : Finset (Fin n)}
  {k : Fin n → Nat}

namespace Raft

variable {r r' : Raft n σ} {a : Action n} {e : RaftEffect n σ}

/-- What an action does to the failures that the replicators have counted. -/
inductive FailureCase (i : Fin n) (r : Raft n σ) : Action n → RaftEffect n σ → Prop
  | keeps {a : Action n} {e : RaftEffect n σ} (hsame : e.state.replicators = r.replicators)
      (hother : ∀ f, a ≠ .replicateFailed f true) : FailureCase i r a e
  | fails {f : Fin n} {e : RaftEffect n σ}
      (hcount : e.state.replicators = (r.countFailure f true).replicators) :
      FailureCase i r (.replicateFailed f true) e
  | answered {f : Fin n} {req : LogRequestArgs n} {resp : LogResponse n} {e : RaftEffect n σ}
      (hcount : e.state.replicators = (r.countFailure f false).replicators) :
      FailureCase i r (.replicateAnswered f req resp) e
  | stops {a : Action n} {e : RaftEffect n σ} (hnone : e.state.replicators = none)
      (hother : ∀ f, a ≠ .replicateFailed f true) : FailureCase i r a e
  | elected {a : Action n} {e : RaftEffect n σ} {term base : Int} {log : List LogEntry}
      (hevent : .becameLeader i term base log ∈ e.events) : FailureCase i r a e

theorem voteRequest_replicators (args : VoteRequestArgs n) :
    (r.voteRequest i args).1.replicators = r.replicators := by
  have hbefore : (r.beforeVote args).replicators = r.replicators := by
    rw [beforeVote_eq]
  unfold voteRequest
  simp only
  split
  · exact hbefore
  · exact hbefore

theorem receiveVote_failures (vote : VoteResponse n) :
    FailureCase i r (.receiveVote vote) (r.receiveVoteEffect i vote) := by
  unfold receiveVoteEffect receiveVote
  simp only
  split
  · exact .keeps rfl nofun
  split
  · split
    · exact .elected (List.mem_singleton.mpr rfl)
    · exact .keeps rfl nofun
  · exact .keeps rfl nofun

theorem followLeader_replicators (args : LogRequestArgs n) :
    (r.followLeader i args).replicators = r.replicators := by
  rcases r.followLeader_cases i args with ⟨-, h⟩ | ⟨-, h⟩ | ⟨-, h⟩
  all_goals rw [h]

theorem replicateResponse_failures {f : Fin n} {resp : LogResponse n}
    {ds : List Delivery} (h : r.replicateResponse i f resp = some (r', ds)) :
    r'.replicators = r.replicators ∨ r'.replicators = none := by
  cases replicateResponse_cases h with
  | newer => exact Or.inr rfl
  | acked _ _ _ _ hcommit =>
    obtain ⟨rfl, -⟩ := commitLogEntries_spec hcommit
    exact Or.inl rfl
  | refused =>
    obtain ⟨sent, heq⟩ := r.retreat_eq f
    rw [heq]
    exact Or.inl rfl
  | ignored => exact Or.inl rfl

theorem appendEntries_replicators {disk : Disk} {args : LogRequestArgs n} {ds : List Delivery}
    (h : r.appendEntries app disk args = some (r', ds)) : r'.replicators = r.replicators := by
  obtain ⟨r₁, hcommit, hsnap⟩ := appendEntries_cases h
  have hfirst : r₁.replicators = r.replicators := by
    obtain ⟨-, rfl, -⟩ | ⟨-, -, -, application, rfl⟩ := commitTo_spec hcommit
    · rfl
    · rfl
  obtain ⟨file, rfl⟩ | ⟨file, entry, -, -, -, -, rfl⟩ := decideRunSnapshot_cases hsnap
  · exact hfirst
  · exact hfirst

theorem followSnapshot_replicators (req : InstallSnapshotRequest n) :
    (r.followSnapshot req).replicators = r.replicators := by
  unfold followSnapshot
  split <;> rfl

theorem InstallOutcome.replicators {req : InstallSnapshotRequest n} {disk : Disk}
    {reply : Option InstallSnapshotResponse} (h : InstallOutcome app disk r req r' reply) :
    r'.replicators = r.replicators := by
  cases h with
  | stale => rfl
  | stored | failed | restored => exact followSnapshot_replicators req

theorem act_failures (h : r.act app i a = some e) : FailureCase i r a e := by
  cases a with
  | startElection | broadcast | prepareLogRequestArgs | logReply | sendInstallSnapshotRPC
  | finishTransfer =>
    cases h
    exact .keeps rfl nofun
  | voteRequest args =>
    cases h
    exact .keeps (voteRequest_replicators args) nofun
  | receiveVote vote =>
    cases h
    exact receiveVote_failures vote
  | electionTimeout =>
    obtain rfl := act_electionTimeout h
    exact .keeps rfl nofun
  | getLeaderData m =>
    obtain ⟨-, rfl⟩ := act_getLeaderData h
    exact .keeps rfl nofun
  | forward =>
    cases h
    refine .keeps ?_ nofun
    show (r.forwardClearsLeader i).replicators = r.replicators
    unfold forwardClearsLeader
    split <;> rfl
  | replicate f =>
    obtain ⟨-, rfl⟩ := act_replicate h
    exact .keeps rfl nofun
  | replicateFailed f current =>
    cases h
    cases current with
    | true => exact .fails rfl
    | false => exact .keeps rfl nofun
  | checkQuorumHealth =>
    cases h
    unfold checkQuorumHealth
    split
    · exact .stops rfl nofun
    · exact .keeps rfl nofun
  | logRequest args =>
    cases h
    refine .keeps ?_ nofun
    unfold logRequestEffect
    simp only
    split
    · exact followLeader_replicators args
    · exact followLeader_replicators args
  | appendEntries args disk =>
    obtain ⟨⟨r', ds⟩, happ, rfl⟩ := Option.map_eq_some_iff.mp h
    exact .keeps (appendEntries_replicators happ) nofun
  | replicateAnswered f req resp =>
    cases h
    exact .answered rfl
  | replicateResponse f req resp =>
    obtain ⟨⟨r', ds⟩, hresp, rfl⟩ := Option.map_eq_some_iff.mp h
    cases replicateResponse_failures hresp with
    | inl hsame => exact .keeps hsame nofun
    | inr hnone => exact .stops hnone nofun
  | openSnapshot t =>
    obtain ⟨bytes, -, rfl⟩ := Option.map_eq_some_iff.mp h
    exact .keeps rfl nofun
  | readChunk t =>
    cases h
    refine .keeps ?_ nofun
    unfold readChunkEffect
    simp only
    split <;> rfl
  | snapshotReply t req resp =>
    cases h
    refine .keeps ?_ nofun
    unfold snapshotReplyEffect
    split
    · rfl
    · split <;> rfl
  | installSnapshot req disk =>
    cases h
    exact .keeps (installSnapshot_outcome app disk r req).replicators nofun
  | deliver batch =>
    obtain ⟨d, rest, -, rfl⟩ := act_deliver h
    exact .keeps rfl nofun

/-- Only an election makes a leader. -/
theorem act_elects (h : r.act app i a = some e) (hrole : r.currentRole ≠ .leader) :
    e.state.currentRole ≠ .leader ∨
      ∃ term base log, .becameLeader i term base log ∈ e.events := by
  cases act_election h with
  | wins vote =>
    exact Or.inr ⟨r.currentTerm, r.snapshotter.lastIndex, r.log, List.mem_singleton.mpr rfl⟩
  | stands | grants => exact Or.inl nofun
  | refuses args =>
    left
    show (r.beforeVote args).currentRole ≠ .leader
    cases r.beforeVote_role args with
    | inl hfollower =>
      rw [hfollower]
      exact nofun
    | inr hsame =>
      rw [hsame]
      exact hrole
  | counts vote => exact Or.inl hrole
  | other _ _ hballot =>
    left
    cases hballot with
    | same hsame =>
      rw [hsame.role]
      exact hrole
    | follows hfollower | forgets hfollower =>
      rw [hfollower]
      exact nofun

/-- The replicators for `F` have failed at least so often in a row. -/
def FailedOn (F : Finset (Fin n)) (k : Fin n → Nat) (r : Raft n σ) : Prop :=
  ∀ reps, r.replicators = some reps → ∀ f ∈ F, ∀ rep, reps f = some rep →
    k f ≤ rep.consecutiveFailures

theorem FailedOn.congr (h : FailedOn F k r) (hsame : r'.replicators = r.replicators) :
    FailedOn F k r' := by
  intro reps hreps
  rw [hsame] at hreps
  exact h reps hreps

theorem FailedOn.fails (h : FailedOn F k r) (g : Fin n)
    (hcount : r'.replicators = (r.countFailure g true).replicators) :
    FailedOn F (fun f ↦ k f + if g = f then 1 else 0) r' := by
  intro reps hreps f hf rep hrep
  rw [hcount] at hreps
  obtain ⟨old, hold, rfl⟩ := Option.map_eq_some_iff.mp hreps
  simp only at hrep ⊢
  by_cases hfg : f = g
  · rw [if_pos hfg] at hrep
    obtain ⟨rep', hrep', rfl⟩ := Option.map_eq_some_iff.mp hrep
    have hle := h old hold f hf rep' hrep'
    rw [if_pos hfg.symm]
    exact Nat.succ_le_succ hle
  · rw [if_neg hfg] at hrep
    rw [if_neg (Ne.symm hfg)]
    exact h old hold f hf rep hrep

/-- An answer of a follower that is not counted here. -/
theorem FailedOn.answered (h : FailedOn F k r) {g : Fin n} (hg : g ∉ F)
    (hcount : r'.replicators = (r.countFailure g false).replicators) : FailedOn F k r' := by
  intro reps hreps f hf rep hrep
  rw [hcount] at hreps
  obtain ⟨old, hold, rfl⟩ := Option.map_eq_some_iff.mp hreps
  simp only at hrep
  have hfg : f ≠ g := by
    intro heq
    rw [heq] at hf
    exact hg hf
  rw [if_neg hfg] at hrep
  exact h old hold f hf rep hrep

/-- Five failures for each follower of `F` leave too few of the others. -/
theorem FailedOn.losesQuorum (h : FailedOn F (fun _ ↦ maxConsecutiveFailures) r) (hself : i ∉ F)
    (hF : n < majority n + F.card) (hleader : r.currentRole = .leader) : r.losesQuorum i := by
  refine ⟨hleader, ?_⟩
  have hle : r.healthyFollowers i ≤ (Finset.univ \ insert i F).card := by
    unfold healthyFollowers
    split
    · exact Nat.zero_le _
    next reps hreps =>
      apply Finset.card_le_card
      intro f hf
      obtain ⟨-, hfi, rep, hrep, hlt⟩ := Finset.mem_filter.mp hf
      apply Finset.mem_sdiff.mpr
      refine ⟨Finset.mem_univ f, ?_⟩
      intro hmem
      cases Finset.mem_insert.mp hmem with
      | inl heq => exact hfi heq
      | inr hmem => exact absurd (h reps hreps f hmem rep hrep) (Nat.not_le_of_lt hlt)
  have hinsert : (insert i F).card = F.card + 1 := Finset.card_insert_of_notMem hself
  have hcard := Finset.card_sdiff_add_card_eq_card (Finset.subset_univ (insert i F))
  have huniv : (Finset.univ : Finset (Fin n)).card = n := Finset.card_fin n
  omega

end Raft

namespace Cluster

/-- Since `past` events ago node `i` has won an election, or it does not lead, or its replicators
have failed at least so often. -/
def Pressed (i : Fin n) (F : Finset (Fin n)) (past : Nat) (k : Fin n → Nat) (c : Cluster n σ) :
    Prop :=
  (∃ term base log, .becameLeader i term base log ∈ c.history.drop past) ∨
    (c.raft i).currentRole ≠ .leader ∨ Raft.FailedOn F k (c.raft i)

variable {past : Nat} {c c' : Cluster n σ}

theorem mem_drop_append {α : Type} {x : α} {l l' : List α} {m : Nat} (h : x ∈ l.drop m) :
    x ∈ (l ++ l').drop m := by
  rw [List.drop_append]
  exact List.mem_append_left _ h

/-- A step of another node, or one of node `i` that is no answer of `F`. -/
theorem Pressed.step (h : Pressed i F past k c) (hpast : past ≤ c.history.length)
    {x : Fin n × Action n}
    (hsilent : ∀ f ∈ F, ∀ req resp, x ≠ (i, .replicateAnswered f req resp))
    (hstep : Cluster.step app c x = some c') :
    Pressed i F past (fun f ↦ k f + if x = (i, .replicateFailed f true) then 1 else 0) c' := by
  obtain ⟨j, a⟩ := x
  obtain ⟨-, -, e, hact, rfl⟩ := step_cases hstep
  by_cases hj : i = j
  · subst hj
    simp only [Pressed, Cluster.raft, Config.apply_self, Config.apply_history]
    rcases h with ⟨term, base, log, hevent⟩ | hrole | hfailed
    · exact Or.inl ⟨term, base, log, mem_drop_append hevent⟩
    · cases Raft.act_elects hact hrole with
      | inl hstays => exact Or.inr (Or.inl hstays)
      | inr helected =>
        obtain ⟨term, base, log, hevent⟩ := helected
        refine Or.inl ⟨term, base, log, ?_⟩
        rw [List.drop_append_of_le_length hpast]
        exact List.mem_append_right _ hevent
    · cases Raft.act_failures hact with
      | keeps hsame hother =>
        right
        right
        have hzero : ∀ f, (i, a) ≠ (i, Action.replicateFailed f true) :=
          fun f heq ↦ hother f (Prod.mk.inj heq).2
        simp only [hzero, if_false, Nat.add_zero]
        exact hfailed.congr hsame
      | @fails f _ hcount =>
        right
        right
        have hone : ∀ g, ((i, Action.replicateFailed f true) = (i, Action.replicateFailed g true)) ↔
            f = g := by
          intro g
          constructor
          · intro heq
            injection heq with _ heq
            injection heq
          · intro heq
            rw [heq]
        simp only [hone]
        exact hfailed.fails f hcount
      | @answered f req resp _ hcount =>
        right
        right
        have hzero : ∀ g, (i, Action.replicateAnswered f req resp) ≠
            (i, Action.replicateFailed g true) := nofun
        simp only [hzero, if_false, Nat.add_zero]
        exact hfailed.answered (fun hf ↦ hsilent f hf req resp rfl) hcount
      | stops hnone =>
        right
        right
        intro reps hreps
        rw [hnone] at hreps
        cases hreps
      | @elected _ _ term base log hevent =>
        refine Or.inl ⟨term, base, log, ?_⟩
        rw [List.drop_append_of_le_length hpast]
        exact List.mem_append_right _ hevent
  · have hzero : ∀ f, (j, a) ≠ (i, Action.replicateFailed f true) :=
      fun f heq ↦ hj (Prod.mk.inj heq).1.symm
    simp only [Pressed, Cluster.raft, Config.apply_of_ne hj, Config.apply_history, hzero, if_false,
      Nat.add_zero]
    rcases h with ⟨term, base, log, hevent⟩ | hrole | hfailed
    · exact Or.inl ⟨term, base, log, mem_drop_append hevent⟩
    · exact Or.inr (Or.inl hrole)
    · exact Or.inr (Or.inr hfailed)

theorem history_length_le {x : Fin n × Action n} (hstep : Cluster.step app c x = some c') :
    c.history.length ≤ c'.history.length := by
  obtain ⟨j, a⟩ := x
  obtain ⟨-, -, e, -, rfl⟩ := step_cases hstep
  rw [Config.apply_history, List.length_append]
  exact Nat.le_add_right _ _

/-- What the run adds to the failures, on the actions of the run. -/
theorem Pressed.exec {as : List (Fin n × Action n)} (h : Pressed i F past k c)
    (hpast : past ≤ c.history.length)
    (hsilent : ∀ f ∈ F, ∀ req resp, (i, Action.replicateAnswered f req resp) ∉ as)
    (hrun : exec (Cluster.step app) (fun _ _ ↦ True) c as = some c') :
    Pressed i F past (fun f ↦ k f + as.count (i, .replicateFailed f true)) c' ∧
      past ≤ c'.history.length := by
  induction as generalizing c k with
  | nil =>
    cases hrun
    exact ⟨h, hpast⟩
  | cons x as ih =>
    obtain ⟨-, hrun⟩ := Option.ite_none_right_eq_some.mp hrun
    obtain ⟨c₁, hstep, hrun⟩ := Option.bind_eq_some_iff.mp hrun
    have hfirst := h.step hpast (fun f hf req resp heq ↦
      hsilent f hf req resp (heq ▸ List.mem_cons_self ..)) hstep
    have hrest := ih hfirst (hpast.trans (history_length_le hstep))
      (fun f hf req resp hmem ↦ hsilent f hf req resp (List.mem_cons_of_mem x hmem)) hrun
    simp only [List.count_cons, beq_iff_eq]
    have hsum : ∀ f, k f + (if x = (i, Action.replicateFailed f true) then 1 else 0) +
        as.count (i, Action.replicateFailed f true) = k f + (as.count (i, .replicateFailed f true) +
          if x = (i, .replicateFailed f true) then 1 else 0) := by
      intro f
      omega
    simp only [hsum] at hrest
    exact hrest

/-- A leader whose requests to the followers `F` have failed five times each, with no answer of any
of them in between, is not the leader any more after the next `checkQuorumHealth`, unless it was
elected again; `F` are so many followers that those left are no majority with the leader. -/
theorem unanswered_leader_steps_down (hself : i ∉ F) (hF : n < majority n + F.card)
    {as : List (Fin n × Action n)} {c₁ : Cluster n σ}
    (hsilent : ∀ f ∈ F, ∀ req resp, (i, Action.replicateAnswered f req resp) ∉ as)
    (hfails : ∀ f ∈ F, 5 ≤ as.count (i, .replicateFailed f true))
    (hrun : exec (Cluster.step app) (fun _ _ ↦ True) c as = some c₁)
    (hcheck : Cluster.step app c₁ (i, .checkQuorumHealth) = some c') :
    (c'.raft i).currentRole ≠ .leader ∨
      ∃ term base log, .becameLeader i term base log ∈ c'.history.drop c.history.length := by
  have hstart : Pressed i F c.history.length (fun _ ↦ 0) c :=
    Or.inr (Or.inr fun _ _ _ _ _ _ ↦ Nat.zero_le _)
  obtain ⟨hpressed, hpast⟩ := hstart.exec (Nat.le_refl _) hsilent hrun
  obtain ⟨-, -, e, hact, rfl⟩ := step_cases hcheck
  cases hact
  simp only [Cluster.raft, Config.apply_self, Config.apply_history]
  rcases hpressed with ⟨term, base, log, hevent⟩ | hrole | hfailed
  · exact Or.inr ⟨term, base, log, mem_drop_append hevent⟩
  · left
    show ((c₁.raft i).checkQuorumHealth i).currentRole ≠ .leader
    unfold Raft.checkQuorumHealth
    split
    · exact nofun
    · exact hrole
  · left
    show ((c₁.raft i).checkQuorumHealth i).currentRole ≠ .leader
    by_cases hleader : (c₁.raft i).currentRole = .leader
    · have hfive : Raft.FailedOn F (fun _ ↦ maxConsecutiveFailures) (c₁.raft i) := by
        intro reps hreps f hf rep hrep
        have hle := hfailed reps hreps f hf rep hrep
        have hcount := hfails f hf
        simp only [Nat.zero_add] at hle
        exact hcount.trans hle
      rw [Raft.checkQuorumHealth, if_pos (hfive.losesQuorum hself hF hleader)]
      exact nofun
    · rw [Raft.checkQuorumHealth, if_neg (fun hloses ↦ hleader hloses.1)]
      exact hleader

/-- Five requests to each follower of node 0 fail. -/
def lostRequests : List (Fin 3 × Action 3) :=
  [(0, .replicateFailed 1 true), (0, .replicateFailed 1 true), (0, .replicateFailed 1 true),
    (0, .replicateFailed 1 true), (0, .replicateFailed 1 true), (0, .replicateFailed 2 true),
    (0, .replicateFailed 2 true), (0, .replicateFailed 2 true), (0, .replicateFailed 2 true),
    (0, .replicateFailed 2 true)]

theorem unanswered_leader_steps_down_three : ∃ c c₁ c' : Cluster 3 Unit,
    Reachable (Cluster.step keepsNothing) (Cluster.fresh 3) c ∧
      (c.raft 0).currentRole = .leader ∧
      exec (Cluster.step keepsNothing) (fun _ _ ↦ True) c lostRequests = some c₁ ∧
      Cluster.step keepsNothing c₁ (0, .checkQuorumHealth) = some c' ∧
      ((c'.raft 0).currentRole ≠ .leader ∨
        ∃ term base log, .becameLeader 0 term base log ∈ c'.history.drop c.history.length) := by
  obtain ⟨c, hreach, hleader, hnext⟩ : ∃ c : Cluster 3 Unit,
      Reachable (Cluster.step keepsNothing) (Cluster.fresh 3) c ∧
        (c.raft 0).currentRole = .leader ∧
        ((exec (Cluster.step keepsNothing) (fun _ _ ↦ True) c lostRequests).bind fun c₁ ↦
          Cluster.step keepsNothing c₁ (0, .checkQuorumHealth)).isSome = true :=
    exists_reaches_of_exec [(0, .electionTimeout), (0, .startElection),
      (1, .voteRequest ⟨0, 1, 0, 0⟩), (0, .receiveVote ⟨1, 1, true⟩)] (by decide +kernel)
  obtain ⟨c', hc'⟩ := Option.isSome_iff_exists.mp hnext
  obtain ⟨c₁, hrun, hcheck⟩ := Option.bind_eq_some_iff.mp hc'
  have hsilent : ∀ f ∈ ({1, 2} : Finset (Fin 3)), ∀ req resp,
      (0, Action.replicateAnswered f req resp) ∉ lostRequests := by
    intro f _ req resp
    simp [lostRequests]
  exact ⟨c, c₁, c', hreach, hleader, hrun, hcheck,
    unanswered_leader_steps_down (F := {1, 2}) (by decide) (by decide) hsilent (by decide) hrun
      hcheck⟩

end Cluster

end DistributedCache
