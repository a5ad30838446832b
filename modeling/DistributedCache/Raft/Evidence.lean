import DistributedCache.Lib.Quorum
import DistributedCache.Raft.Ballot

/-!
# What stands behind a leader

Whatever is lost, delayed or repeated, a vote that a candidate has counted was granted by the voter
to this candidate, in exactly the candidate's term, when the candidate's advertised log was at least
as up to date as the voter's.
-/

namespace DistributedCache

open Network Transition Quorum

variable {n : Nat} {σ : Type} {app : Application σ} {i : Fin n} {r : Raft n σ}
  {ts : List (Thread n)} {history : List (Event n)}

theorem majority_eq (n : Nat) : majority n = n / 2 + 1 := by
  unfold majority
  omega

theorem isMajority_iff {q : Finset (Fin n)} : IsMajority q ↔ majority n ≤ q.card := by
  unfold IsMajority majority
  rw [Fintype.card_fin]
  omega

/-! ## The invariant -/

/-- `v` granted `c`'s candidacy for term `t`. -/
def Backed (history : List (Event n)) (c v : Fin n) (t : Int) : Prop :=
  ∃ data lastTerm length, .candidacy data ∈ history ∧ data.candidateId = c ∧
    .granted v data.wire lastTerm length ∈ history ∧ data.wire.candidateTerm = t ∧
    (lastTerm < data.wire.candidateLogTerm ∨
      lastTerm = data.wire.candidateLogTerm ∧ length ≤ data.wire.candidateLogLength)

theorem Backed.mono {history' : List (Event n)} {c v : Fin n} {t : Int} (h : Backed history c v t)
    (hsub : history ⊆ history') : Backed history' c v t := by
  obtain ⟨data, lastTerm, length, hc, hid, hg, hrest⟩ := h
  exact ⟨data, lastTerm, length, hsub hc, hid, hsub hg, hrest⟩

def evidence (n : Nat) (σ : Type) :
    Claims (Fin n) (Raft n σ) (Thread n) (Packet n) (List (Event n)) where
  node history i r := r.currentRole ≠ .follower →
    (∀ v ∈ r.votesReceived, v ≠ i → Backed history i v r.currentTerm) ∧
      (r.currentRole = .leader → majority n ≤ r.votesReceived.card)
  thread _ _ _ _ := True
  packet history
    | .voteRequest _ args => ∃ data, .candidacy data ∈ history ∧ data.wire = args
    | .voteResponse target vote =>
      vote.granted = true → Backed history target vote.nodeId vote.currentTerm
    | _ => True

theorem evidence_keeps {history' : List (Event n)} (hsub : history ⊆ history') :
    (evidence n σ).Keeps i history history' where
  node j r _ h hrole := by
    obtain ⟨hback, hlead⟩ := h hrole
    exact ⟨fun v hv hne ↦ (hback v hv hne).mono hsub, hlead⟩
  thread _ _ _ _ _ := trivial
  packet p h := by
    cases p with
    | voteRequest target args =>
      obtain ⟨data, hdata, hwire⟩ := h
      exact ⟨data, hsub hdata, hwire⟩
    | voteResponse target vote => exact fun hg ↦ (h hg).mono hsub
    | _ => trivial

theorem evidence_restores {a : Action n} {e : RaftEffect n σ} (hcase : r.ElectionCase i a e)
    (hnode : (evidence n σ).node history i r)
    (hpacket : ∀ p ∈ a.packet i, (evidence n σ).packet history p) :
    (evidence n σ).Restores i history (history ++ e.events) ⟨r, ts⟩ e := by
  have hsub : history ⊆ history ++ e.events := List.subset_append_left _ _
  -- counting a vote that is backed keeps all counted votes backed
  have hinsert : ∀ vote, a = .receiveVote vote → r.countsVote vote →
      ∀ v ∈ insert vote.nodeId r.votesReceived, v ≠ i →
        Backed (history ++ e.events) i v r.currentTerm := by
    rintro vote rfl ⟨hgranted, hterm, hrole⟩ v hv hne
    rcases Finset.mem_insert.mp hv with rfl | hv
    · rw [hterm]
      exact (hpacket _ rfl hgranted).mono hsub
    · exact ((hnode (by rw [hrole]; decide)).1 v hv hne).mono hsub
  refine ⟨?_, fun _ _ _ ↦ trivial, fun _ _ ↦ trivial, ?_⟩
  · cases hcase with
    | stands =>
      refine fun _ ↦ ⟨fun v hv hne ↦ absurd (Finset.mem_singleton.mp hv) hne, fun hlead ↦ ?_⟩
      cases hlead
    | grants => exact fun hrole ↦ absurd rfl hrole
    | refuses args =>
      intro hrole
      simp only [(r.beforeVote_role args).resolve_left hrole] at hrole ⊢
      obtain ⟨hback, hlead⟩ := hnode hrole
      exact ⟨fun v hv hne ↦ (hback v hv hne).mono hsub, hlead⟩
    | counts vote hcounts =>
      refine fun _ ↦ ⟨hinsert vote rfl hcounts, fun hlead ↦ ?_⟩
      exact absurd (hcounts.2.2.symm.trans hlead) (by decide)
    | wins vote hcounts hmajority => exact fun _ ↦ ⟨hinsert vote rfl hcounts, fun _ ↦ hmajority⟩
    | other _ _ hballot =>
      cases hballot with
      | same h =>
        intro hrole
        rw [h.role] at hrole
        obtain ⟨hback, hlead⟩ := hnode hrole
        rw [h.role, h.term, h.votes]
        exact ⟨fun v hv hne ↦ (hback v hv hne).mono hsub, hlead⟩
      | follows h | forgets h => exact fun hrole ↦ absurd h hrole
  · intro p hp
    cases hcase with
    | stands =>
      obtain ⟨j, -, rfl⟩ := List.mem_map.mp hp
      exact ⟨_, List.mem_append_right _ (List.mem_singleton.mpr rfl), rfl⟩
    | grants args hgrants =>
      rw [List.mem_singleton.mp hp]
      intro _
      obtain ⟨data, hdata, rfl⟩ := hpacket _ rfl
      refine ⟨data, r.getLastLogTerm, r.absLength, List.mem_append_left _ hdata, rfl,
        List.mem_append_right _ (List.mem_singleton.mpr rfl), (int32_int32 _).symm, ?_⟩
      rcases Raft.beforeVote_voteLogOk.mp hgrants.2.1 with h | ⟨h, hlen⟩
      · exact Or.inl h
      · exact Or.inr ⟨h.symm, hlen⟩
    | refuses args =>
      rw [List.mem_singleton.mp hp]
      exact fun h ↦ absurd h Bool.false_ne_true
    | counts | wins => cases hp
    | other hpackets _ _ =>
      have := (hpackets p hp).1
      cases p with
      | voteRequest | voteResponse => cases this
      | _ => trivial

theorem evidence_start (snapshotThreshold : Int) (application : Fin n → σ) :
    Sound (evidence n σ) [] (Cluster.start n snapshotThreshold application) where
  nodes _ h := absurd rfl h
  threads _ _ _ := trivial
  packets p hp := by cases hp

theorem evidence_step {c c' : Cluster n σ} {x : Fin n × Action n}
    (hs : Sound (evidence n σ) c.history c) (hstep : Cluster.step app c x = some c') :
    Sound (evidence n σ) c'.history c' := by
  obtain ⟨i, a⟩ := x
  obtain ⟨-, hpacket, e, hact, rfl⟩ := Cluster.step_cases hstep
  rw [Config.apply_history]
  exact hs.apply (evidence_keeps (List.subset_append_left _ _))
    (evidence_restores (Raft.act_election hact) (hs.nodes i)
      fun p hp ↦ hs.packets p (hpacket p hp))

/-- A leader's votes are a majority, and each of them but its own was granted to it in its term by
a node whose log was no more up to date than the one it advertised. -/
theorem leader_has_quorum_evidence (app : Application σ) (snapshotThreshold : Int)
    (application : Fin n → σ) {c : Cluster n σ}
    (hrun : Reachable (Cluster.step app) (Cluster.start n snapshotThreshold application) c)
    (i : Fin n) (hlead : (c.raft i).currentRole = .leader) :
    n / 2 + 1 ≤ (c.raft i).votesReceived.card ∧
      ∀ v ∈ (c.raft i).votesReceived, v ≠ i → ∃ data lastTerm length,
        .candidacy data ∈ c.history ∧ data.candidateId = i ∧
        .granted v data.wire lastTerm length ∈ c.history ∧
        data.wire.candidateTerm = (c.raft i).currentTerm ∧
        (FitsInt32 data.candidateTerm → data.candidateTerm = (c.raft i).currentTerm) ∧
        (lastTerm < data.wire.candidateLogTerm ∨
          lastTerm = data.wire.candidateLogTerm ∧ length ≤ data.wire.candidateLogLength) := by
  have hs : Sound (evidence n σ) c.history c :=
    hrun.invariant (fun c ↦ Sound (evidence n σ) c.history c)
      (evidence_start snapshotThreshold application) fun _ _ _ _ hs _ h ↦ evidence_step hs h
  obtain ⟨hback, hmajority⟩ := hs.nodes i (by rw [hlead]; decide)
  refine ⟨majority_eq n ▸ hmajority hlead, fun v hv hne ↦ ?_⟩
  obtain ⟨data, lastTerm, length, hc, hid, hg, hterm, hlog⟩ := hback v hv hne
  refine ⟨data, lastTerm, length, hc, hid, hg, hterm, fun hfits ↦ ?_, hlog⟩
  rw [← hterm]
  exact (int32_eq_self hfits).symm

theorem leader_has_quorum_evidence_firstElection : ∃ c : Cluster 3 Unit,
    Reachable (Cluster.step keepsNothing) (Cluster.fresh 3) c ∧
      (c.raft 0).currentRole = .leader ∧ 2 ≤ (c.raft 0).votesReceived.card := by
  obtain ⟨c, hrun, hlead⟩ : ∃ c : Cluster 3 Unit,
      Reachable (Cluster.step keepsNothing) (Cluster.fresh 3) c ∧
        (c.raft 0).currentRole = .leader :=
    exists_reaches_of_exec firstElection (by decide +kernel)
  exact ⟨c, hrun, hlead, (leader_has_quorum_evidence keepsNothing 1000 (fun _ ↦ ()) hrun 0 hlead).1⟩

end DistributedCache
