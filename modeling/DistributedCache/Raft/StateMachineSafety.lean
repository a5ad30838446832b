import DistributedCache.Raft.LogMatching

/-!
# State machine safety and leader completeness

Beyond what logs need to match, committed entries are safe only if a node acknowledges no more than
it has of its leader's log and never gives up what it acknowledged, if a leader counts only answers
to requests of its own term, and if it commits nothing but what comes before an entry of its term.
-/

namespace DistributedCache

open Network Window Transition ReplicatedLog

variable {n : Nat} {σ : Type}

/-- Logs are kept matching, and acknowledgements are kept and counted as commitment needs it. -/
def CommitKept (app : Application σ) (c : Cluster n σ) (x : Fin n × Action n) : Prop :=
  MatchKept c x ∧ (c.raft x.1).commitKept app x.1 x.2 = true
deriving Decidable

theorem refines_of_commitKept {app : Application σ} {snapshotThreshold : Int}
    {application : Fin n → σ} {c : Cluster n σ}
    (hrun : Reaches (Cluster.step app) (CommitKept app)
      (Cluster.start n snapshotThreshold application) c) : ∃ s, Refines True s c :=
  refines_run (fun _ _ h ↦ h.1) (fun _ _ _ h ↦ h.2) hrun

/-- No two nodes deliver different messages for one position. -/
theorem state_machine_safety (app : Application σ) (snapshotThreshold : Int)
    (application : Fin n → σ) {c : Cluster n σ}
    (hrun : Reaches (Cluster.step app) (CommitKept app)
      (Cluster.start n snapshotThreshold application) c)
    {i j : Fin n} {p : Int} {m m' : Message} (hi : .delivered i (p, m) ∈ c.history)
    (hj : .delivered j (p, m') ∈ c.history) : m = m' := by
  obtain ⟨s, hs⟩ := refines_of_commitKept hrun
  obtain ⟨t, l, e, hcov, -, he, rfl⟩ := hs.history _ hi trivial
  obtain ⟨t', l', e', hcov', -, he', rfl⟩ := hs.history _ hj trivial
  have hmatch := hs.ghost.matchInv
  have heq : e = e' := by
    rcases hcov.comparable hmatch (hs.ghost.ackInv trivial) hcov' with hpre | hpre
    · exact Option.some.inj ((prefix_getElem? hpre he).symm.trans he')
    · exact Option.some.inj (he.symm.trans (prefix_getElem? hpre he'))
  rw [heq]

theorem state_machine_safety_twoTerms : ∃ c : Cluster 3 Unit,
    Reaches (Cluster.step keepsNothing) (CommitKept keepsNothing) (Cluster.fresh 3) c ∧
      .delivered 0 (0, samplePut 1) ∈ c.history ∧
      (∀ m, .delivered 1 (0, m) ∈ c.history → m = samplePut 1) ∧
      .delivered 1 (0, samplePut 1) ∈ c.history := by
  obtain ⟨c, hrun, h0, h1⟩ : ∃ c : Cluster 3 Unit,
      Reaches (Cluster.step keepsNothing) (CommitKept keepsNothing) (Cluster.fresh 3) c ∧
        .delivered 0 (0, samplePut 1) ∈ c.history ∧ .delivered 1 (0, samplePut 1) ∈ c.history :=
    exists_reaches_of_exec twoTerms (by decide +kernel)
  exact ⟨c, hrun, h0, fun m hm ↦
    state_machine_safety keepsNothing 1000 (fun _ ↦ ()) hrun hm h0, h1⟩

/-- After `lateAppend` node 1 replicates its message.  Node 0 has an entry of the same term in its
place, takes the request for a repetition and acknowledges it; both then deliver what they have. -/
def divergingDelivery : List (Fin 2 × Action 2) :=
  lateAppend ++
    [(1, .replicate 0), (1, .prepareLogRequestArgs 0),
      (0, .logRequest ⟨1, 2, 0, 0, 0, [⟨2, samplePut 2⟩]⟩),
      (0, .appendEntries ⟨1, 2, 0, 0, 0, [⟨2, samplePut 2⟩]⟩ .healthy),
      (0, .logReply ⟨1, 2, 0, 0, 0, [⟨2, samplePut 2⟩]⟩),
      (1, .replicateResponse 0 ⟨1, 2, 0, 0, 0, [⟨2, samplePut 2⟩]⟩ ⟨0, 2, 1, true⟩),
      (1, .deliver [(0, samplePut 2)]), (1, .replicate 0), (1, .prepareLogRequestArgs 0),
      (0, .logRequest ⟨1, 2, 1, 2, 1, []⟩), (0, .appendEntries ⟨1, 2, 1, 2, 1, []⟩ .healthy)]

theorem deliveries_diverge : ∃ c : Cluster 2 Unit,
    Reachable (Cluster.step keepsNothing) (Cluster.fresh 2) c ∧
      .delivered 0 (0, samplePut 1) ∈ c.history ∧ .delivered 1 (0, samplePut 2) ∈ c.history ∧
      samplePut 1 ≠ samplePut 2 :=
  exists_reaches_of_exec divergingDelivery (by decide +kernel)

/-- Whatever a leader has committed is in the log or behind the snapshot of every later leader. -/
theorem later_leader_holds_committed (app : Application σ) (snapshotThreshold : Int)
    (application : Fin n → σ) {c : Cluster n σ}
    (hrun : Reaches (Cluster.step app) (CommitKept app)
      (Cluster.start n snapshotThreshold application) c)
    {i j : Fin n} {t u base base' length : Int} {log log' : List LogEntry}
    (hcommit : .committed i t base log length ∈ c.history)
    (hlead : .becameLeader j u base' log' ∈ c.history) (htu : t < u) {p : Int} (h0 : 0 ≤ p)
    (hp : p < length) :
    p < base' ∨ ∃ e, at? base' log' p = some e ∧ ∀ x, at? base log p = some x → x = e := by
  obtain ⟨s, hs⟩ := refines_of_commitKept hrun
  obtain ⟨full, hwin, hle, hcov⟩ := hs.history _ hcommit trivial
  obtain ⟨hleader, hwin'⟩ := hs.history _ hlead
  have hpre := hcov.prefix_elected hs.ghost.matchInv (hs.ghost.ackInv trivial) htu hleader
  by_cases hbase : p < base'
  · exact Or.inl hbase
  -- what the later leader has at the position is what was covered there
  have hlt : p.toNat < full.length := by omega
  have hentry : (s.elected u)[p.toNat]? = some full[p.toNat] := by
    refine prefix_getElem? hpre ?_
    rw [List.getElem?_take_of_lt (by omega), List.getElem?_eq_getElem hlt]
  refine Or.inr ⟨full[p.toNat], ?_, fun x hx ↦ ?_⟩
  · rw [hwin'.at?_eq (by omega), hentry]
  · have hge : base ≤ p := by
      have := (index?_lt hx).1
      omega
    rw [hwin.at?_eq hge, List.getElem?_eq_getElem hlt] at hx
    exact (Option.some.inj hx).symm

theorem later_leader_holds_committed_twoTerms : ∃ c : Cluster 3 Unit,
    Reaches (Cluster.step keepsNothing) (CommitKept keepsNothing) (Cluster.fresh 3) c ∧
      .committed 0 1 0 [⟨1, samplePut 1⟩] 1 ∈ c.history ∧
      ∃ base log, .becameLeader 1 2 base log ∈ c.history ∧
        ((0 : Int) < base ∨ ∃ e, at? base log 0 = some e ∧
          ∀ x, at? 0 [⟨1, samplePut 1⟩] 0 = some x → x = e) := by
  obtain ⟨c, hrun, hcommit, hlead⟩ : ∃ c : Cluster 3 Unit,
      Reaches (Cluster.step keepsNothing) (CommitKept keepsNothing) (Cluster.fresh 3) c ∧
        .committed 0 1 0 [⟨1, samplePut 1⟩] 1 ∈ c.history ∧
        .becameLeader 1 2 0 [⟨1, samplePut 1⟩] ∈ c.history :=
    exists_reaches_of_exec twoTerms (by decide +kernel)
  exact ⟨c, hrun, hcommit, 0, _, hlead, later_leader_holds_committed keepsNothing 1000
    (fun _ ↦ ()) hrun hcommit hlead (by decide) (by decide) (by decide)⟩

/-- Node 0 appends in term 1 and node 2 in term 2, neither replicating.  In term 3 node 0 replicates
its entry of term 1 to node 1 and commits it; in term 4 node 2, whose last entry is of a later term,
is elected by node 1. -/
def oldTermCommitted : List (Fin 3 × Action 3) :=
  firstElection ++ [(0, .getLeaderData (samplePut 1)), (0, .broadcast (samplePut 1)),
    (2, .electionTimeout), (2, .startElection),
    (2, .electionTimeout), (2, .startElection), (1, .voteRequest ⟨2, 2, 0, 0⟩),
    (2, .receiveVote ⟨1, 2, true⟩), (2, .getLeaderData (samplePut 2)),
    (2, .broadcast (samplePut 2)), (0, .voteRequest ⟨2, 2, 0, 0⟩), (0, .electionTimeout),
    (0, .startElection), (1, .voteRequest ⟨0, 3, 1, 1⟩), (0, .receiveVote ⟨1, 3, true⟩),
    (0, .replicate 1), (0, .prepareLogRequestArgs 1), (1, .logRequest ⟨0, 3, 1, 1, 0, []⟩),
    (0, .replicateResponse 1 ⟨0, 3, 1, 1, 0, []⟩ ⟨1, 3, 0, false⟩), (0, .replicate 1),
    (0, .prepareLogRequestArgs 1), (1, .logRequest ⟨0, 3, 0, 0, 0, [⟨1, samplePut 1⟩]⟩),
    (1, .appendEntries ⟨0, 3, 0, 0, 0, [⟨1, samplePut 1⟩]⟩ .healthy),
    (1, .logReply ⟨0, 3, 0, 0, 0, [⟨1, samplePut 1⟩]⟩),
    (0, .replicateResponse 1 ⟨0, 3, 0, 0, 0, [⟨1, samplePut 1⟩]⟩ ⟨1, 3, 1, true⟩),
    (2, .voteRequest ⟨0, 3, 1, 1⟩), (2, .electionTimeout), (2, .startElection),
    (1, .voteRequest ⟨2, 4, 1, 2⟩), (2, .receiveVote ⟨1, 4, true⟩)]

theorem leader_lacks_committed : ∃ c : Cluster 3 Unit,
    Reachable (Cluster.step keepsNothing) (Cluster.fresh 3) c ∧
      .committed 0 3 0 [⟨1, samplePut 1⟩] 1 ∈ c.history ∧
      .becameLeader 2 4 0 [⟨2, samplePut 2⟩] ∈ c.history ∧
      at? 0 [(⟨2, samplePut 2⟩ : LogEntry)] 0 ≠ at? 0 [⟨1, samplePut 1⟩] 0 :=
  exists_reaches_of_exec oldTermCommitted (by decide +kernel)

end DistributedCache
