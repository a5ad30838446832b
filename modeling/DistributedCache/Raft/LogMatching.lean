import DistributedCache.Raft.Simulation

/-!
# Log matching

`Broadcast` tests for leadership in one lock region and appends in another, with the term it finds
there; `LogRequest` checks the prefix in one region and appends in another; `appendEntries` compares
only the first entry of a request with the log; and `InstallSnapshot` keeps the wrong suffix.  In
runs where none of this does harm the logs match.
-/

namespace DistributedCache

open Network Window Transition ReplicatedLog

variable {n : Nat} {σ : Type}

/-- No vote of a running term is forgotten, and logs are read and changed only in the role and the
term for which that was prepared. -/
def MatchKept (c : Cluster n σ) (x : Fin n × Action n) : Prop :=
  VotesKept c x ∧ (c.raft x.1).matchKept x.2 = true
deriving Decidable

/-- Entries of one term at one position are the same, and so are all entries before them. -/
theorem log_matching (app : Application σ) (snapshotThreshold : Int) (application : Fin n → σ)
    {c : Cluster n σ}
    (hrun : Reaches (Cluster.step app) MatchKept (Cluster.start n snapshotThreshold application) c)
    {i j : Fin n} {p : Int} {e e' : LogEntry} (hi : (c.raft i).entryAt p = some e)
    (hj : (c.raft j).entryAt p = some e') (hterm : e.term = e'.term) :
    e.message = e'.message ∧ ∀ q x x', q < p → (c.raft i).entryAt q = some x →
      (c.raft j).entryAt q = some x' → x = x' := by
  obtain ⟨s, hs⟩ : ∃ s, Refines False s c := refines_run (fun _ _ h ↦ h) (fun h ↦ h.elim) hrun
  have hni := hs.sound.nodes i
  have hnj := hs.sound.nodes j
  have hei := hni.shows.entryAt hi
  have hej := hnj.shows.entryAt hj
  have hagree := (hs.ghost.matchInv.log_ok i).1.agree (hs.ghost.matchInv.log_ok j).1 hei hej hterm
  have hsame : ∀ q x x', q ≤ p → (c.raft i).entryAt q = some x →
      (c.raft j).entryAt q = some x' → x = x' := by
    intro q x x' hq hx hx'
    have hget := congrArg (fun l : List LogEntry ↦ l[q.toNat]?) hagree
    rw [List.getElem?_take_of_lt (by omega), List.getElem?_take_of_lt (by omega),
      hni.shows.entryAt hx, hnj.shows.entryAt hx'] at hget
    exact Option.some.inj hget
  exact ⟨congrArg LogEntry.message (hsame p e e' le_rfl hi hj),
    fun q x x' hq ↦ hsame q x x' hq.le⟩

/-- Node 0 leads term 1, and its first message reaches node 1 and is committed and delivered on
both.  Then node 1 is elected for term 2. -/
def twoTerms : List (Fin 3 × Action 3) :=
  firstElection ++ firstCommit ++ [(0, .deliver [(0, samplePut 1)]), (0, .replicate 1),
    (0, .prepareLogRequestArgs 1),
    (1, .logRequest ⟨0, 1, 1, 1, 1, []⟩), (1, .appendEntries ⟨0, 1, 1, 1, 1, []⟩ .healthy),
    (1, .electionTimeout), (1, .startElection), (2, .voteRequest ⟨1, 2, 1, 1⟩),
    (1, .receiveVote ⟨2, 2, true⟩)]

theorem log_matching_twoTerms : ∃ c : Cluster 3 Unit,
    Reaches (Cluster.step keepsNothing) MatchKept (Cluster.fresh 3) c ∧
      ∃ e e', (c.raft 0).entryAt 0 = some e ∧ (c.raft 1).entryAt 0 = some e' ∧
        e.message = e'.message := by
  obtain ⟨c, hrun, h0, h1⟩ : ∃ c : Cluster 3 Unit,
      Reaches (Cluster.step keepsNothing) MatchKept (Cluster.fresh 3) c ∧
        (c.raft 0).entryAt 0 = some ⟨1, samplePut 1⟩ ∧
        (c.raft 1).entryAt 0 = some ⟨1, samplePut 1⟩ :=
    exists_reaches_of_exec twoTerms (by decide +kernel)
  exact ⟨c, hrun, _, _, h0, h1,
    (log_matching keepsNothing 1000 (fun _ ↦ ()) hrun h0 h1 rfl).1⟩

/-- Node 0, leading term 1, passes the leadership test of `Broadcast`.  Node 1 is elected for term 2
with the vote of node 0 and appends a message; then node 0 appends its own, in term 2. -/
def lateAppend : List (Fin 2 × Action 2) :=
  [(0, .electionTimeout), (0, .startElection), (1, .voteRequest ⟨0, 1, 0, 0⟩),
    (0, .receiveVote ⟨1, 1, true⟩), (0, .getLeaderData (samplePut 1)), (1, .electionTimeout),
    (1, .startElection), (0, .voteRequest ⟨1, 2, 0, 0⟩), (1, .receiveVote ⟨0, 2, true⟩),
    (1, .getLeaderData (samplePut 2)), (1, .broadcast (samplePut 2)),
    (0, .broadcast (samplePut 1))]

theorem logs_mismatch : ∃ c : Cluster 2 Unit,
    Reachable (Cluster.step keepsNothing) (Cluster.fresh 2) c ∧
      (c.raft 0).entryAt 0 = some ⟨2, samplePut 1⟩ ∧
      (c.raft 1).entryAt 0 = some ⟨2, samplePut 2⟩ ∧ samplePut 1 ≠ samplePut 2 :=
  exists_reaches_of_exec lateAppend (by decide +kernel)

end DistributedCache
