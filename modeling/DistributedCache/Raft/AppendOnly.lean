import DistributedCache.Raft.Ballot
import DistributedCache.Raft.LogSteps

/-!
# Leaders only append

`LogRequest` checks a request in one lock region and calls `appendEntries` in another.  If the term
moves on in between, the node may be a leader when its log is cut.  As long as no term changes in
that gap, a pending `appendEntries` belongs to a follower in the request's term, and a leader's log
only grows.
-/

namespace DistributedCache

open Network Transition Window

variable {n : Nat} {σ : Type} {app : Application σ} {i : Fin n} {r : Raft n σ} {a : Action n}
  {e : RaftEffect n σ} {ts : List (Thread n)}

def Thread.isAppendEntries : Thread n → Bool
  | .appendEntries _ => true
  | _ => false

/-- A leader completes a snapshot of its own term. -/
def Raft.installsOverLeader (r : Raft n σ) : Action n → Bool
  | .installSnapshot req _ =>
    r.currentRole = .leader ∧ req.leaderTerm = r.currentTerm ∧ req.done = true
  | _ => false

/-- No term changes between the check and the append of a `LogRequest` on the node, and no leader
installs a snapshot of its own term. -/
def GapUndisturbed (c : Cluster n σ) (x : Fin n × Action n) : Prop :=
  ((c.nodes x.1).threads.any Thread.isAppendEntries = true → (c.raft x.1).changesTerm x.2 = false) ∧
    (c.raft x.1).installsOverLeader x.2 = false
deriving Decidable

/-- A pending `appendEntries` is a follower's, in the term of its request. -/
def appendsAsFollower (n : Nat) (σ : Type) :
    Claims (Fin n) (Raft n σ) (Thread n) (Packet n) Unit where
  node _ _ _ := True
  thread _ _ r
    | .appendEntries args => r.currentTerm = args.term ∧ r.currentRole = .follower
    | _ => True
  packet _ _ := True

/-- A follower whose term does not change stays a follower. -/
theorem follower_stays (hact : r.act app i a = some e) (hsame : r.changesTerm a = false)
    (hrole : r.currentRole = .follower) :
    e.state.currentTerm = r.currentTerm ∧ e.state.currentRole = .follower := by
  cases Raft.act_election hact with
  | stands => cases hsame
  | grants args hgrants =>
    have hle : ¬ r.currentTerm < args.candidateTerm := of_decide_eq_false hsame
    refine ⟨?_, rfl⟩
    change (r.beforeVote args).currentTerm = _
    rw [Raft.beforeVote_term]
    omega
  | refuses args =>
    have hle : ¬ r.currentTerm < args.candidateTerm := of_decide_eq_false hsame
    refine ⟨?_, ?_⟩
    · change (r.beforeVote args).currentTerm = _
      rw [Raft.beforeVote_term]
      omega
    · rcases r.beforeVote_role args with h | h
      · exact h
      · simp only [h, hrole]
  | counts vote hcounts | wins vote hcounts =>
    exact absurd (hcounts.2.2.symm.trans hrole) (by decide)
  | other _ _ hballot =>
    cases hballot with
    | same h => exact ⟨h.term, h.role.trans hrole⟩
    | follows hf hterm =>
      rcases hterm with ⟨-, hchange, -⟩ | ⟨hterm, -⟩
      · rw [hsame] at hchange
        cases hchange
      · exact ⟨hterm, hf⟩
    | forgets hf hcause =>
      rcases hcause with ⟨-, -, hterm⟩ | ⟨f, req, resp, rfl, hlt, -⟩
      · exact ⟨hterm, hf⟩
      · exact absurd hlt (of_decide_eq_false hsame)

theorem appendsAsFollower_restores {c : Cluster n σ} (hact : (c.raft i).act app i a = some e)
    (hgap : GapUndisturbed c (i, a)) :
    (appendsAsFollower n σ).Restores i () () (c.nodes i) e where
  node := trivial
  pending t ht h := by
    cases t with
    | appendEntries args =>
      obtain ⟨hterm, hrole⟩ := h
      have hsame := hgap.1 (List.any_eq_true.mpr ⟨_, ht, rfl⟩)
      obtain ⟨hterm', hrole'⟩ := follower_stays hact hsame hrole
      exact ⟨hterm'.trans hterm, hrole'⟩
    | _ => trivial
  threads t ht := by
    cases t with
    | appendEntries args =>
      cases Raft.act_log hact with
      | accepts args' haccepts =>
        cases List.mem_singleton.mp ht
        exact (Raft.acceptsLogRequest_follower haccepts).2
      | broadcasts | installs => cases ht
      | appends => cases List.mem_singleton.mp ht
      | commits | delivers => cases List.mem_singleton.mp (List.mem_ite_nil_left.mp ht).2
      | other _ hthreads _ => cases hthreads _ ht
    | _ => trivial
  packets _ _ := trivial

theorem appendsAsFollower_of_run {snapshotThreshold : Int} {application : Fin n → σ}
    {c : Cluster n σ} (hrun : Reaches (Cluster.step app) GapUndisturbed
      (Cluster.start n snapshotThreshold application) c) :
    Sound (appendsAsFollower n σ) () c := by
  refine hrun.invariant (fun c ↦ Sound (appendsAsFollower n σ) () c)
    ⟨fun _ ↦ trivial, fun _ _ ht ↦ absurd ht List.not_mem_nil, fun _ _ ↦ trivial⟩ ?_
  rintro c ⟨i, a⟩ c' - hs hgap hstep
  obtain ⟨-, -, e, hact, rfl⟩ := Cluster.step_cases hstep
  exact hs.apply ⟨fun _ _ _ h ↦ h, fun _ _ _ _ h ↦ h, fun _ h ↦ h⟩
    (appendsAsFollower_restores hact hgap)

/-- Every entry stays where it is. -/
def Raft.Retains (r r' : Raft n σ) : Prop := ∀ p e, r.entryAt p = some e → r'.entryAt p = some e

theorem Raft.SameLog.retains {r r' : Raft n σ} (h : r.SameLog r') : r.Retains r' := by
  intro p e he
  unfold Raft.entryAt at he ⊢
  rwa [h.log, h.snapshotter]

theorem Raft.broadcast_retains (m : Message) : r.Retains (r.broadcast i m) := by
  intro p e he
  obtain ⟨h0, hget⟩ := index?_eq_some.mp he
  exact index?_eq_some.mpr ⟨h0, prefix_getElem? (List.prefix_append _ _) hget⟩

/-- One step of a leader that stays one. -/
theorem leader_retains (hact : r.act app i a = some e)
    (happend : ∀ args disk, a = .appendEntries args disk → r.currentRole = .follower)
    (hinst : r.installsOverLeader a = false) (hlead : r.currentRole = .leader)
    (hlead' : e.state.currentRole = .leader) : r.Retains e.state := by
  cases Raft.act_log hact with
  | broadcasts m => exact Raft.broadcast_retains m
  | appends => exact absurd ((happend _ _ rfl).symm.trans hlead) (by decide)
  | accepts => exact Raft.followLeader_sameLog.retains
  | installs _ hout =>
    have hdone : ∀ {req : InstallSnapshotRequest n} {disk : Disk}, r.currentTerm ≤ req.leaderTerm →
        req.done = true → r.installsOverLeader (.installSnapshot req disk) = false →
        (r.followSnapshot req).currentRole = .leader → False := by
      intro req disk hterm hdone hno hrole
      unfold Raft.followSnapshot at hrole
      split at hrole
      · cases hrole
      · exact of_decide_eq_false hno ⟨hlead, by omega, hdone⟩
    cases hout with
    | stale => exact (Raft.SameLog.refl r).retains
    | stored => exact Raft.SameLog.retains ⟨by simp, by simp, by simp⟩
    | failed hterm h | restored hterm h => exact (hdone hterm h hinst hlead').elim
  | commits _ hcommit =>
    obtain ⟨rfl, -⟩ := Raft.commitLogEntries_spec hcommit
    exact fun p e h ↦ h
  | delivers => exact fun p e h ↦ h
  | other hsame _ _ => exact hsame.retains

/-- In a run without disturbed gaps, a step keeps every entry of a node that leads before and after
it, and every `appendEntries` runs in the term of the request that was checked. -/
theorem leader_append_only (app : Application σ) (snapshotThreshold : Int)
    (application : Fin n → σ) {c c' : Cluster n σ} {x : Fin n × Action n}
    (hrun : Reaches (Cluster.step app) GapUndisturbed
      (Cluster.start n snapshotThreshold application) c)
    (hgap : GapUndisturbed c x) (hstep : Cluster.step app c x = some c') :
    (∀ j, (c.raft j).currentRole = .leader → (c'.raft j).currentRole = .leader →
      ∀ p entry, (c.raft j).entryAt p = some entry → (c'.raft j).entryAt p = some entry) ∧
    ∀ j args disk, x = (j, .appendEntries args disk) → (c'.raft j).log ≠ (c.raft j).log →
      (c.raft j).currentTerm = args.term := by
  have hs := appendsAsFollower_of_run hrun
  obtain ⟨i, a⟩ := x
  obtain ⟨hthread, -, e, hact, rfl⟩ := Cluster.step_cases hstep
  have happend : ∀ args disk, a = .appendEntries args disk →
      (c.raft i).currentTerm = args.term ∧ (c.raft i).currentRole = .follower := by
    rintro args disk rfl
    exact hs.threads i _ (hthread _ rfl)
  refine ⟨fun j hlead hlead' ↦ ?_, ?_⟩
  · by_cases hj : j = i
    · subst hj
      simp only [Cluster.raft, Config.apply_self] at hlead' ⊢
      exact leader_retains hact (fun args disk h ↦ (happend args disk h).2) hgap.2 hlead hlead'
    · simp only [Cluster.raft, Config.apply_of_ne hj]
      exact fun p entry h ↦ h
  · rintro j args disk heq -
    obtain ⟨rfl, rfl⟩ := Prod.mk.inj heq
    exact (happend args disk rfl).1

/-- Node 0 leads term 1 and has appended one message; a second one is under way. -/
def firstMessages : List (Fin 3 × Action 3) :=
  firstElection ++ [(0, .getLeaderData (samplePut 1)), (0, .broadcast (samplePut 1)),
    (0, .getLeaderData (samplePut 2))]

theorem leader_append_only_firstMessages : ∃ c c' : Cluster 3 Unit,
    Reaches (Cluster.step keepsNothing) GapUndisturbed (Cluster.fresh 3) c ∧
      (c.raft 0).entryAt 0 = some ⟨1, samplePut 1⟩ ∧
      Cluster.step keepsNothing c (0, .broadcast (samplePut 2)) = some c' ∧
      (c'.raft 0).entryAt 0 = some ⟨1, samplePut 1⟩ := by
  obtain ⟨c, c', hrun, ⟨hlead, hentry⟩, hgap, hstep, hlead'⟩ : ∃ c c' : Cluster 3 Unit,
      Reaches (Cluster.step keepsNothing) GapUndisturbed (Cluster.fresh 3) c ∧
        ((c.raft 0).currentRole = .leader ∧ (c.raft 0).entryAt 0 = some ⟨1, samplePut 1⟩) ∧
        GapUndisturbed c (0, .broadcast (samplePut 2)) ∧
        Cluster.step keepsNothing c (0, .broadcast (samplePut 2)) = some c' ∧
        (c'.raft 0).currentRole = .leader :=
    exists_step_of_exec firstMessages _ (by decide +kernel)
  refine ⟨c, c', hrun, hentry, hstep, ?_⟩
  exact (leader_append_only keepsNothing 1000 (fun _ ↦ ()) hrun hgap hstep).1 0 hlead hlead' 0 _
    hentry

/-- Node 1, leading term 1, sends an entry to node 0, which checks the request.  Before it appends,
it is elected for term 2 and appends a message of its own. -/
def staleAppend : List (Fin 3 × Action 3) :=
  [(1, .electionTimeout), (1, .startElection), (2, .voteRequest ⟨1, 1, 0, 0⟩),
    (1, .receiveVote ⟨2, 1, true⟩), (1, .getLeaderData (samplePut 1)),
    (1, .broadcast (samplePut 1)), (1, .replicate 0), (1, .prepareLogRequestArgs 0),
    (0, .logRequest ⟨1, 1, 0, 0, 0, [⟨1, samplePut 1⟩]⟩), (0, .electionTimeout),
    (0, .startElection), (2, .voteRequest ⟨0, 2, 0, 0⟩), (0, .receiveVote ⟨2, 2, true⟩),
    (0, .getLeaderData (samplePut 2)), (0, .broadcast (samplePut 2))]

theorem leader_log_truncated : ∃ c c' : Cluster 3 Unit,
    Reachable (Cluster.step keepsNothing) (Cluster.fresh 3) c ∧
      ((c.raft 0).currentRole = .leader ∧ (c.raft 0).currentTerm = 2 ∧
        (c.raft 0).entryAt 0 = some ⟨2, samplePut 2⟩) ∧
      Cluster.step keepsNothing c
        (0, .appendEntries ⟨1, 1, 0, 0, 0, [⟨1, samplePut 1⟩]⟩ .healthy) = some c' ∧
      (c'.raft 0).currentRole = .leader ∧ (c'.raft 0).log = [] := by
  obtain ⟨c, c', hrun, hbefore, -, hstep, hafter⟩ : ∃ c c' : Cluster 3 Unit,
      Reachable (Cluster.step keepsNothing) (Cluster.fresh 3) c ∧
        ((c.raft 0).currentRole = .leader ∧ (c.raft 0).currentTerm = 2 ∧
          (c.raft 0).entryAt 0 = some ⟨2, samplePut 2⟩) ∧ True ∧
        Cluster.step keepsNothing c
          (0, .appendEntries ⟨1, 1, 0, 0, 0, [⟨1, samplePut 1⟩]⟩ .healthy) = some c' ∧
        (c'.raft 0).currentRole = .leader ∧ (c'.raft 0).log = [] :=
    exists_step_of_exec staleAppend _ (by decide +kernel)
  exact ⟨c, c', hrun, hbefore, hstep, hafter⟩

end DistributedCache
