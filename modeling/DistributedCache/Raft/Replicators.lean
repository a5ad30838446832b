import DistributedCache.Raft.Cluster
import Mathlib.Tactic.MkIffOfInductiveProp

/-!
# The replicators a node starts and stops

`becomeLeader` starts one replicator for each other node, and `becomeFollowerUnlocked` is the only
function that stops them.  The state of a node forgets a replicator as soon as it is no longer in
`r.replicators`; here every node has, beside its state, the record of all replicators it ever
started and of how often the channel `stopCh` of each was closed.

A leader gives up its role through `becomeFollowerUnlocked` in two places only.  All other places
that set `currentRole` leave the replicators running (`Raft.leavesAlone` lists them).  In a run in
which no leader comes to one of those, replicators live exactly as long as leadership.
-/

namespace DistributedCache

open Transition

variable {n : Nat} {σ : Type}

/-- The replicators of one call of `becomeLeader`: how often the `stopCh` of each was closed, and
`none` in the leader's own place. -/
abbrev Crew (n : Nat) := Fin n → Option Nat

namespace Crew

/-- `NewReplicator` and `start` for each node but `i`. -/
def hired (i : Fin n) : Crew n := fun f ↦ if f = i then none else some 0

/-- `stop` of each replicator, that is `close(rep.stopCh)`. -/
def stop (crew : Crew n) : Crew n := fun f ↦ (crew f).map (· + 1)

def Stopped (crew : Crew n) : Prop := ∀ f, ∀ closes ∈ crew f, 0 < closes
deriving Decidable

/-- No channel was closed twice, which would panic. -/
def ClosedOnce (crew : Crew n) : Prop := ∀ f, ∀ closes ∈ crew f, closes ≤ 1
deriving Decidable

theorem mem_hired {i f : Fin n} {closes : Nat} (h : closes ∈ hired i f) : closes = 0 := by
  unfold hired at h
  split at h
  · cases h
  · exact (Option.some.inj h).symm

theorem hired_closedOnce (i : Fin n) : (hired i).ClosedOnce := by
  intro f closes h
  rw [mem_hired h]
  omega

theorem mem_stop_hired {i f : Fin n} {closes : Nat} (h : closes ∈ (hired i).stop f) :
    closes = 1 := by
  obtain ⟨before, hbefore, rfl⟩ := Option.map_eq_some_iff.mp h
  rw [mem_hired hbefore]

theorem not_hired_stopped {i j : Fin n} (hne : j ≠ i) : ¬ (hired i).Stopped := by
  intro h
  have hmem : 0 ∈ hired i j := if_neg hne
  exact absurd (h j 0 hmem) (by omega)

end Crew

/-- All replicators a node ever started. -/
structure Crews (n : Nat) where
  /-- The slice `r.replicators`. -/
  current : Option (Crew n)
  /-- The slices that `r.replicators` was earlier. -/
  former : List (Crew n)

namespace Crews

def all (crews : Crews n) : List (Crew n) := crews.current.toList ++ crews.former

def becomeLeader (crews : Crews n) (i : Fin n) : Crews n :=
  -- a slice that is still there is overwritten without a `stop`
  ⟨some (.hired i), crews.all⟩

def becomeFollowerUnlocked (crews : Crews n) : Crews n :=
  ⟨none, (crews.current.map Crew.stop).toList ++ crews.former⟩

/-- The number of running replicators for `f`. -/
def unstopped (crews : Crews n) (f : Fin n) : Nat := crews.all.countP fun crew ↦ crew f = some 0

/-- The replicators of node `i` live exactly as long as its leadership. -/
@[mk_iff]
structure FollowRole (crews : Crews n) (i : Fin n) (role : Role) : Prop where
  stopped : role ≠ .leader → ∀ crew ∈ crews.all, crew.Stopped
  one : role = .leader → ∀ f, crews.unstopped f = if f = i then 0 else 1
  closedOnce : ∀ crew ∈ crews.all, crew.ClosedOnce

instance (crews : Crews n) (i : Fin n) (role : Role) : Decidable (crews.FollowRole i role) :=
  decidable_of_iff' _ (followRole_iff crews i role)

end Crews

/-- The two functions that start and stop replicators. -/
inductive RoleCall where
  | becomeLeader
  | becomeFollowerUnlocked

namespace Raft

/-- Which of them an action calls. -/
def calls (r : Raft n σ) (i : Fin n) : Action n → Option RoleCall
  | .receiveVote vote => if (r.receiveVote i vote).2 then some .becomeLeader else none
  | .replicateResponse _ _ resp =>
    if int32 r.currentTerm < resp.currentTerm then some .becomeFollowerUnlocked else none
  | .checkQuorumHealth => if r.losesQuorum i then some .becomeFollowerUnlocked else none
  | _ => none

/-- The action sets `currentRole` to `Follower` or `Candidate` itself. -/
def leavesAlone (r : Raft n σ) : Action n → Bool
  -- the timer read the role before, so this may come to a node that has won in the meantime
  | .startElection => true
  | .voteRequest args =>
    r.currentLeaderId = some args.candidateId ∨ r.currentTerm < args.candidateTerm ∨
      r.grantsVote args
  | .receiveVote vote => r.currentTerm < vote.currentTerm
  | .logRequest args => r.currentTerm ≤ args.term
  | .snapshotReply _ _ resp => r.currentTerm < resp.term
  | .installSnapshot req _ => r.currentTerm < req.leaderTerm
  | _ => false

end Raft

/-- The record after an action. -/
def Crews.after (crews : Crews n) (i : Fin n) : Option RoleCall → Crews n
  | some .becomeLeader => crews.becomeLeader i
  | some .becomeFollowerUnlocked => crews.becomeFollowerUnlocked
  | none => crews

/-- A cluster with the record of each node. -/
structure CrewedCluster (n : Nat) (σ : Type) where
  cluster : Cluster n σ
  crews : Fin n → Crews n

namespace CrewedCluster

def start (n : Nat) (snapshotThreshold : Int) (application : Fin n → σ) : CrewedCluster n σ where
  cluster := Cluster.start n snapshotThreshold application
  crews _ := ⟨none, []⟩

def step (app : Application σ) (s : CrewedCluster n σ) (x : Fin n × Action n) :
    Option (CrewedCluster n σ) :=
  (Cluster.step app s.cluster x).map fun c ↦
    ⟨c, Function.update s.crews x.1 ((s.crews x.1).after x.1 ((s.cluster.raft x.1).calls x.1 x.2))⟩

/-- On every node the replicators live exactly as long as leadership. -/
def FollowRoles (s : CrewedCluster n σ) : Prop :=
  ∀ i, (s.crews i).FollowRole i (s.cluster.raft i).currentRole
deriving Decidable

/-- A leader does not take an action that sets its role without `becomeFollowerUnlocked`. -/
def LeavesProperly (s : CrewedCluster n σ) (x : Fin n × Action n) : Prop :=
  (s.cluster.raft x.1).currentRole = .leader → (s.cluster.raft x.1).leavesAlone x.2 = false
deriving Decidable

end CrewedCluster

/-! ## What an action does to the role and to `r.replicators` -/

namespace Raft

variable {app : Application σ} {i : Fin n} {r : Raft n σ} {a : Action n} {e : RaftEffect n σ}
  {r' : Raft n σ}

/-- The places of `r.replicators` that hold a replicator. -/
def employs (r : Raft n σ) : Option (Fin n → Bool) := r.replicators.map fun reps f ↦ (reps f).isSome

inductive CrewCase (i : Fin n) (r : Raft n σ) (a : Action n) (r' : Raft n σ) : Prop
  | elected (hcalls : r.calls i a = some .becomeLeader) (hbefore : r.currentRole = .candidate)
      (hrole : r'.currentRole = .leader) (hreps : r'.employs = some fun f ↦ decide (f ≠ i))
  | stepsDown (hcalls : r.calls i a = some .becomeFollowerUnlocked)
      (hleaves : r.leavesAlone a = false) (hrole : r'.currentRole ≠ .leader)
      (hreps : r'.employs = none)
  | leaves (hcalls : r.calls i a = none) (hleaves : r.leavesAlone a = true)
      (hrole : r'.currentRole ≠ .leader) (hreps : r'.employs = r.employs)
  | stays (hcalls : r.calls i a = none) (hleaves : r.leavesAlone a = false)
      (hrole : r'.currentRole = r.currentRole) (hreps : r'.employs = r.employs)

theorem countFailure_employs (r : Raft n σ) (f : Fin n) (failed : Bool) :
    (r.countFailure f failed).employs = r.employs := by
  cases hreps : r.replicators with
  | none => simp [employs, countFailure, hreps]
  | some reps =>
    simp only [employs, countFailure, hreps, Option.map_some, Option.some.injEq]
    ext g
    split <;> simp

theorem becomeLeader_employs (r : Raft n σ) (i : Fin n) :
    (r.becomeLeader i).employs = some fun f ↦ decide (f ≠ i) := by
  simp only [employs, becomeLeader, Option.map_some, Option.some.injEq]
  ext f
  by_cases hf : f = i <;> simp [hf]

theorem appendEntries_employs {disk : Disk} {args : LogRequestArgs n} {ds : List Delivery}
    (h : r.appendEntries app disk args = some (r', ds)) : r'.employs = r.employs := by
  obtain ⟨r₁, hcommit, hsnap⟩ := appendEntries_cases h
  -- none of the three parts writes the field
  have hcommitted : r₁.employs = r.employs := by
    obtain ⟨-, rfl, -⟩ | ⟨-, -, -, application, rfl⟩ := commitTo_spec hcommit <;> rfl
  rw [← hcommitted]
  obtain ⟨file, rfl⟩ | ⟨file, e, -, -, -, -, rfl⟩ := decideRunSnapshot_cases hsnap <;> rfl

theorem voteRequest_crew (args : VoteRequestArgs n) :
    CrewCase i r (.voteRequest args) (r.voteRequest i args).1 := by
  have hemploys : (r.beforeVote args).employs = r.employs := by
    rw [beforeVote_eq]
    rfl
  by_cases hleaves : r.leavesAlone (.voteRequest args) = true
  · refine .leaves rfl hleaves ?_ ?_
    · unfold voteRequest
      simp only
      split
      · simp [castVote]
      · rename_i hrefuses
        -- without the vote it is one of the first two branches that applied
        simp only [leavesAlone, decide_eq_true_eq] at hleaves
        unfold beforeVote dropLeader adoptTerm at hrefuses ⊢
        split <;> split <;> simp_all
    · unfold voteRequest
      simp only
      split <;> exact hemploys
  · simp only [leavesAlone, decide_eq_true_eq, not_or] at hleaves
    have hsame : r.beforeVote args = r := by
      unfold beforeVote dropLeader adoptTerm
      rw [if_neg hleaves.1, if_neg hleaves.2.1]
    have hvote : (r.voteRequest i args).1 = r := by
      unfold voteRequest
      simp only [hsame, if_neg hleaves.2.2]
    rw [hvote]
    exact .stays rfl (by simpa [leavesAlone] using hleaves) rfl rfl

theorem receiveVote_crew (vote : VoteResponse n) :
    CrewCase i r (.receiveVote vote) (r.receiveVote i vote).1 := by
  by_cases hnewer : r.currentTerm < vote.currentTerm
  · have hvote : r.receiveVote i vote =
        ({ r with currentTerm := vote.currentTerm, currentRole := .follower }, false) :=
      if_pos hnewer
    rw [hvote]
    exact .leaves (by simp [calls, hvote]) (decide_eq_true hnewer) (by simp) rfl
  have hnot : r.leavesAlone (.receiveVote vote) = false := decide_eq_false hnewer
  by_cases hcounts : r.countsVote vote
  · by_cases hmajority : majority n ≤ (insert vote.nodeId r.votesReceived).card
    · have hvote : r.receiveVote i vote =
          ({ r with
            votesReceived := insert vote.nodeId r.votesReceived }.becomeLeader i, true) := by
        simp only [receiveVote, if_neg hnewer, if_pos hcounts, if_pos hmajority]
      rw [hvote]
      exact .elected (by simp [calls, hvote]) hcounts.2.2 rfl (becomeLeader_employs _ i)
    · have hvote : r.receiveVote i vote =
          ({ r with votesReceived := insert vote.nodeId r.votesReceived }, false) := by
        simp only [receiveVote, if_neg hnewer, if_pos hcounts, if_neg hmajority]
      rw [hvote]
      exact .stays (by simp [calls, hvote]) hnot rfl rfl
  · have hvote : r.receiveVote i vote = (r, false) := by
      simp only [receiveVote, if_neg hnewer, if_neg hcounts]
    rw [hvote]
    exact .stays (by simp [calls, hvote]) hnot rfl rfl

theorem checkQuorumHealth_crew : CrewCase i r .checkQuorumHealth (r.checkQuorumHealth i) := by
  unfold checkQuorumHealth
  split
  · rename_i hloses
    exact .stepsDown (if_pos hloses) rfl (by simp [becomeFollowerUnlocked]) rfl
  · rename_i hkeeps
    exact .stays (if_neg hkeeps) rfl rfl rfl

theorem followLeader_crew (args : LogRequestArgs n) :
    CrewCase i r (.logRequest args) (r.followLeader i args) := by
  rcases r.followLeader_cases i args with ⟨hlt, heq⟩ | ⟨hsame, heq⟩ | ⟨hold, heq⟩
  · rw [heq]
    exact .leaves rfl (decide_eq_true hlt.le) (by simp) rfl
  · rw [heq]
    exact .leaves rfl (decide_eq_true hsame.le) (by simp) rfl
  · rw [heq]
    exact .stays rfl (decide_eq_false (by omega)) rfl rfl

theorem replicateResponse_crew {f : Fin n} {req : LogRequestArgs n} {resp : LogResponse n}
    {ds : List Delivery} (h : r.replicateResponse i f resp = some (r', ds)) :
    CrewCase i r (.replicateResponse f req resp) r' := by
  cases replicateResponse_cases h with
  | newer hnewer =>
    exact .stepsDown (if_pos hnewer) rfl (by simp [becomeFollowerUnlocked]) rfl
  | acked hold _ _ _ hcommit =>
    obtain ⟨rfl, -⟩ := commitLogEntries_spec hcommit
    exact .stays (if_neg hold) rfl rfl rfl
  | refused hold =>
    obtain ⟨sent, heq⟩ := r.retreat_eq f
    rw [heq]
    exact .stays (if_neg hold) rfl rfl rfl
  | ignored hold => exact .stays (if_neg hold) rfl rfl rfl

theorem followSnapshot_crew (req : InstallSnapshotRequest n) (disk : Disk) :
    CrewCase i r (.installSnapshot req disk) (r.followSnapshot req) := by
  unfold followSnapshot
  split
  · rename_i hnewer
    exact .leaves rfl (decide_eq_true hnewer) (by simp) rfl
  · rename_i hnewer
    exact .stays rfl (decide_eq_false hnewer) rfl rfl

theorem CrewCase.congr {r'' : Raft n σ} (h : CrewCase i r a r')
    (hrole : r''.currentRole = r'.currentRole) (hreps : r''.employs = r'.employs) :
    CrewCase i r a r'' := by
  cases h with
  | elected hcalls hbefore hleader hhired =>
    exact .elected hcalls hbefore (hrole.trans hleader) (hreps.trans hhired)
  | stepsDown hcalls hleaves hnot hnone =>
    exact .stepsDown hcalls hleaves (hrole ▸ hnot) (hreps.trans hnone)
  | leaves hcalls hleaves hnot hsame =>
    exact .leaves hcalls hleaves (hrole ▸ hnot) (hreps.trans hsame)
  | stays hcalls hleaves hkeeps hsame =>
    exact .stays hcalls hleaves (hrole.trans hkeeps) (hreps.trans hsame)

-- after `followSnapshot` neither field is written
theorem InstallOutcome.crew {req : InstallSnapshotRequest n} {disk : Disk}
    {reply : Option InstallSnapshotResponse} (h : InstallOutcome app disk r req r' reply) :
    CrewCase i r (.installSnapshot req disk) r' := by
  cases h with
  | stale hterm => exact .stays rfl (decide_eq_false (by omega)) rfl rfl
  | stored | failed | restored => exact (followSnapshot_crew req disk).congr rfl rfl

theorem act_crew (h : r.act app i a = some e) : CrewCase i r a e.state := by
  cases a with
  | startElection =>
    obtain rfl := Option.some.inj h
    exact .leaves rfl rfl (by simp [startElectionEffect, startElection]) rfl
  | voteRequest args =>
    obtain rfl := Option.some.inj h
    exact voteRequest_crew args
  | receiveVote vote =>
    obtain rfl := Option.some.inj h
    exact receiveVote_crew vote
  | checkQuorumHealth =>
    obtain rfl := Option.some.inj h
    exact checkQuorumHealth_crew
  | logRequest args =>
    obtain rfl := Option.some.inj h
    have hstate : (r.logRequestEffect i args).state = r.followLeader i args := by
      unfold logRequestEffect
      simp only
      split <;> rfl
    rw [hstate]
    exact followLeader_crew args
  | replicateResponse f req resp =>
    obtain ⟨⟨r', ds⟩, hresp, rfl⟩ := Option.map_eq_some_iff.mp h
    exact replicateResponse_crew hresp
  | snapshotReply t req resp =>
    obtain rfl := Option.some.inj h
    unfold snapshotReplyEffect
    split
    · rename_i hnewer
      exact .leaves rfl (decide_eq_true hnewer) (by simp [snapshotReplyNewer, quiet]) rfl
    · rename_i hnewer
      have hnot : r.leavesAlone (.snapshotReply t req resp) = false := decide_eq_false hnewer
      split <;> exact .stays rfl hnot rfl rfl
  | installSnapshot req disk =>
    obtain rfl := Option.some.inj h
    exact (installSnapshot_outcome app disk r req).crew
  -- the other actions leave the role and the slice alone
  | electionTimeout =>
    obtain rfl := act_electionTimeout h
    exact .stays rfl rfl rfl rfl
  | getLeaderData m =>
    obtain ⟨-, rfl⟩ := act_getLeaderData h
    exact .stays rfl rfl rfl rfl
  | broadcast | prepareLogRequestArgs | logReply | sendInstallSnapshotRPC | finishTransfer =>
    obtain rfl := Option.some.inj h
    exact .stays rfl rfl rfl rfl
  | forward =>
    obtain rfl := Option.some.inj h
    unfold forwardClearsLeader
    split <;> exact .stays rfl rfl rfl rfl
  | replicate f =>
    obtain ⟨-, rfl⟩ := act_replicate h
    exact .stays rfl rfl rfl rfl
  | replicateFailed f current =>
    obtain rfl := Option.some.inj h
    split
    · exact .stays rfl rfl rfl (countFailure_employs r f true)
    · exact .stays rfl rfl rfl rfl
  | appendEntries args disk =>
    obtain ⟨⟨r', ds⟩, happ, rfl⟩ := Option.map_eq_some_iff.mp h
    exact .stays rfl rfl (appendEntries_sameControl happ).role (appendEntries_employs happ)
  | replicateAnswered f req resp =>
    obtain rfl := Option.some.inj h
    exact .stays rfl rfl rfl (countFailure_employs r f false)
  | openSnapshot t =>
    obtain ⟨bytes, -, rfl⟩ := Option.map_eq_some_iff.mp h
    exact .stays rfl rfl rfl rfl
  | readChunk t =>
    obtain rfl := Option.some.inj h
    unfold readChunkEffect
    simp only
    split <;> exact .stays rfl rfl rfl rfl
  | deliver batch =>
    obtain ⟨d, rest, -, rfl⟩ := act_deliver h
    exact .stays rfl rfl rfl rfl

end Raft

/-! ## Whole runs -/

namespace Crews

variable {i : Fin n} {r r' : Raft n σ} {a : Action n} {crews : Crews n}

/-- What holds of a record in every run. -/
structure Sound (crews : Crews n) (i : Fin n) (r : Raft n σ) : Prop where
  /-- The record and the state agree on the slice. -/
  slice : (crews.current.map fun crew f ↦ (crew f).isSome) = r.employs
  current : ∀ crew ∈ crews.current, crew = .hired i
  former : ∀ crew ∈ crews.former, crew.ClosedOnce

theorem Sound.closedOnce (h : crews.Sound i r) : ∀ crew ∈ crews.all, crew.ClosedOnce := by
  intro crew hcrew
  cases List.mem_append.mp hcrew with
  | inl hcurrent =>
    rw [h.current crew (Option.mem_toList.mp hcurrent)]
    exact Crew.hired_closedOnce i
  | inr hformer => exact h.former crew hformer

-- only the channels of the slice are closed, and those are open
theorem Sound.mem_stop (h : crews.Sound i r) {crew : Crew n}
    (hcrew : crew ∈ (crews.current.map Crew.stop).toList) : crew = (Crew.hired i).stop := by
  obtain ⟨before, hbefore, rfl⟩ := Option.map_eq_some_iff.mp (Option.mem_toList.mp hcrew)
  rw [h.current before hbefore]

theorem Sound.after (h : crews.Sound i r) (hcase : Raft.CrewCase i r a r') :
    (crews.after i (r.calls i a)).Sound i r' := by
  cases hcase with
  | elected hcalls _ _ hreps =>
    rw [hcalls]
    refine ⟨?_, fun crew hcrew ↦ (Option.some.inj hcrew).symm, h.closedOnce⟩
    rw [hreps]
    simp only [Crews.after, becomeLeader, Option.map_some, Option.some.injEq]
    ext f
    by_cases hf : f = i <;> simp [Crew.hired, hf]
  | stepsDown hcalls _ _ hreps =>
    rw [hcalls]
    refine ⟨hreps.symm, fun crew hcrew ↦ (by cases hcrew), fun crew hcrew ↦ ?_⟩
    cases List.mem_append.mp hcrew with
    | inl hstopped =>
      rw [h.mem_stop hstopped]
      intro f closes hcloses
      exact (Crew.mem_stop_hired hcloses).le
    | inr hformer => exact h.former crew hformer
  | leaves hcalls _ _ hreps | stays hcalls _ _ hreps =>
    rw [hcalls]
    exact ⟨h.slice.trans hreps.symm, h.current, h.former⟩

/-- What holds of a record as long as the leader gives up its role through
`becomeFollowerUnlocked`. -/
structure Tidy (crews : Crews n) (i : Fin n) (r : Raft n σ) : Prop where
  current : crews.current = if r.currentRole = .leader then some (.hired i) else none
  former : ∀ crew ∈ crews.former, crew.Stopped

theorem Tidy.all_of_ne (h : crews.Tidy i r) (hrole : r.currentRole ≠ .leader) :
    crews.all = crews.former := by
  unfold all
  rw [h.current, if_neg hrole]
  rfl

theorem Tidy.all_of_leader (h : crews.Tidy i r) (hrole : r.currentRole = .leader) :
    crews.all = .hired i :: crews.former := by
  unfold all
  rw [h.current, if_pos hrole]
  rfl

theorem Tidy.after (h : crews.Tidy i r) (hsound : crews.Sound i r)
    (hcase : Raft.CrewCase i r a r')
    (hproper : r.currentRole = .leader → r.leavesAlone a = false) :
    (crews.after i (r.calls i a)).Tidy i r' := by
  cases hcase with
  | elected hcalls hbefore hrole _ =>
    rw [hcalls]
    -- a candidate has an empty slice, so none is overwritten
    have hformer : crews.all = crews.former := h.all_of_ne (by simp [hbefore])
    refine ⟨(if_pos hrole).symm, ?_⟩
    show ∀ crew ∈ crews.all, crew.Stopped
    rw [hformer]
    exact h.former
  | stepsDown hcalls _ hrole _ =>
    rw [hcalls]
    refine ⟨(if_neg hrole).symm, fun crew hcrew ↦ ?_⟩
    cases List.mem_append.mp hcrew with
    | inl hstopped =>
      rw [hsound.mem_stop hstopped]
      intro f closes hcloses
      rw [Crew.mem_stop_hired hcloses]
      omega
    | inr hformer => exact h.former crew hformer
  | leaves hcalls hleaves hrole _ =>
    rw [hcalls]
    have hbefore : r.currentRole ≠ .leader := fun hleader ↦ by simp [hproper hleader] at hleaves
    refine ⟨?_, h.former⟩
    show crews.current = _
    rw [h.current, if_neg hbefore, if_neg hrole]
  | stays hcalls _ hrole _ =>
    rw [hcalls]
    refine ⟨?_, h.former⟩
    show crews.current = _
    rw [h.current, hrole]

theorem Tidy.followRole (h : crews.Tidy i r) (hsound : crews.Sound i r) :
    crews.FollowRole i r.currentRole where
  stopped hrole := by
    rw [h.all_of_ne hrole]
    exact h.former
  one hrole f := by
    have hformer : crews.former.countP (fun crew ↦ crew f = some 0) = 0 := by
      apply List.countP_eq_zero.mpr
      intro crew hcrew hzero
      exact absurd (h.former crew hcrew f 0 (of_decide_eq_true hzero)) (by omega)
    unfold unstopped
    rw [h.all_of_leader hrole, List.countP_cons, hformer]
    by_cases hf : f = i <;> simp [Crew.hired, hf]
  closedOnce := hsound.closedOnce

/-- A leader that sets its role itself leaves its replicators running. -/
theorem Tidy.not_followRole_after (h : crews.Tidy i r) (hcase : Raft.CrewCase i r a r')
    (hrole : r.currentRole = .leader) (hleaves : r.leavesAlone a = true) {j : Fin n}
    (hne : j ≠ i) : ¬ (crews.after i (r.calls i a)).FollowRole i r'.currentRole := by
  cases hcase with
  | elected _ hbefore _ _ => simp [hbefore] at hrole
  | stepsDown _ hnot | stays _ hnot => simp [hnot] at hleaves
  | leaves hcalls _ hafter _ =>
    rw [hcalls]
    intro hfollow
    have hmem : Crew.hired i ∈ crews.all := by simp [h.all_of_leader hrole]
    exact Crew.not_hired_stopped hne (hfollow.stopped hafter _ hmem)

end Crews

namespace CrewedCluster

variable {app : Application σ} {snapshotThreshold : Int} {application : Fin n → σ}
  {s s' : CrewedCluster n σ} {i : Fin n} {a : Action n}

/-- A step moves one node and its record. -/
theorem step_cases (h : step app s (i, a) = some s') :
    Raft.CrewCase i (s.cluster.raft i) a (s'.cluster.raft i) ∧
      s'.crews i = (s.crews i).after i ((s.cluster.raft i).calls i a) ∧
      ∀ j, j ≠ i → s'.cluster.raft j = s.cluster.raft j ∧ s'.crews j = s.crews j := by
  obtain ⟨c, hstep, rfl⟩ := Option.map_eq_some_iff.mp h
  obtain ⟨-, -, e, hact, rfl⟩ := Cluster.step_cases hstep
  refine ⟨?_, Function.update_self .., fun j hne ↦ ⟨?_, Function.update_of_ne hne ..⟩⟩
  · simp only [Cluster.raft, Network.Config.apply_self]
    exact Raft.act_crew hact
  · simp only [Cluster.raft, Network.Config.apply_of_ne hne]

/-- A fact about each node and its record, step by step. -/
theorem forall_after {P : Fin n → Crews n → Raft n σ → Prop}
    (h : ∀ j, P j (s.crews j) (s.cluster.raft j)) (hstep : step app s (i, a) = some s')
    (hself : Raft.CrewCase i (s.cluster.raft i) a (s'.cluster.raft i) →
      P i ((s.crews i).after i ((s.cluster.raft i).calls i a)) (s'.cluster.raft i)) (j : Fin n) :
    P j (s'.crews j) (s'.cluster.raft j) := by
  obtain ⟨hcase, hcrews, hothers⟩ := step_cases hstep
  by_cases hj : j = i
  · rw [hj, hcrews]
    exact hself hcase
  · rw [(hothers j hj).1, (hothers j hj).2]
    exact h j

theorem sound_of_reaches {guard : CrewedCluster n σ → Fin n × Action n → Prop}
    (hrun : Reaches (step app) guard (start n snapshotThreshold application) s) :
    ∀ j, (s.crews j).Sound j (s.cluster.raft j) := by
  refine hrun.invariant (fun s ↦ ∀ j, (s.crews j).Sound j (s.cluster.raft j)) ?_ ?_
  · intro j
    exact ⟨rfl, fun crew hcrew ↦ (by cases hcrew), fun crew hcrew ↦ (by cases hcrew)⟩
  · intro s x s' _ hsound _ hstep
    exact forall_after (P := fun j crews r ↦ crews.Sound j r) hsound hstep (hsound x.1).after

/-- No channel is closed twice, in whatever way leadership is lost. -/
theorem closedOnce_of_reachable
    (hrun : Reachable (step app) (start n snapshotThreshold application) s) (i : Fin n) :
    ∀ crew ∈ (s.crews i).all, crew.ClosedOnce :=
  (sound_of_reaches hrun i).closedOnce

theorem tidy_of_reaches
    (hrun : Reaches (step app) LeavesProperly (start n snapshotThreshold application) s) :
    ∀ j, (s.crews j).Tidy j (s.cluster.raft j) := by
  refine hrun.invariant (fun s ↦ ∀ j, (s.crews j).Tidy j (s.cluster.raft j)) ?_ ?_
  · intro j
    exact ⟨rfl, fun crew hcrew ↦ (by cases hcrew)⟩
  · intro s x s' hbefore htidy hproper hstep
    have hsound := sound_of_reaches hbefore x.1
    exact forall_after (P := fun j crews r ↦ crews.Tidy j r) htidy hstep
      fun hcase ↦ (htidy x.1).after hsound hcase hproper

theorem followRoles_of_reaches
    (hrun : Reaches (step app) LeavesProperly (start n snapshotThreshold application) s) :
    s.FollowRoles := by
  intro j
  exact (tidy_of_reaches hrun j).followRole (sound_of_reaches hrun j)

end CrewedCluster

open CrewedCluster

/-- Replicators live exactly as long as leadership in a run in which no leader sets its role past
`becomeFollowerUnlocked`, and the first step by which one does, beside other nodes, ends that. -/
theorem replicators_follow_role {app : Application σ} {snapshotThreshold : Int}
    {application : Fin n → σ} {s : CrewedCluster n σ}
    (hrun : Reaches (step app) LeavesProperly (start n snapshotThreshold application) s) :
    s.FollowRoles ∧ ∀ (i j : Fin n) (a : Action n) (s' : CrewedCluster n σ), j ≠ i →
      step app s (i, a) = some s' → (s'.FollowRoles ↔ s.LeavesProperly (i, a)) := by
  refine ⟨followRoles_of_reaches hrun,
    fun i j a s' hne hstep ↦ ⟨fun hafter hrole ↦ ?_, fun hproper ↦ ?_⟩⟩
  · obtain ⟨hcase, hcrews, -⟩ := step_cases hstep
    by_contra hleaves
    apply (tidy_of_reaches hrun i).not_followRole_after hcase hrole (by simpa using hleaves) hne
    rw [← hcrews]
    exact hafter i
  · exact followRoles_of_reaches (hrun.tail hproper hstep)

/-- Node 0 is elected and steps down when node 2 answers it from a newer term. -/
theorem replicators_follow_role_newer : ∃ s : CrewedCluster 3 Unit,
    Reaches (step keepsNothing) LeavesProperly (start 3 1000 fun _ ↦ ()) s ∧
      ((s.cluster.raft 0).currentRole = .follower ∧ (s.crews 0).all.length = 1) ∧
      s.FollowRoles := by
  obtain ⟨s, hrun, hstate⟩ : ∃ s : CrewedCluster 3 Unit,
      Reaches (step keepsNothing) LeavesProperly (start 3 1000 fun _ ↦ ()) s ∧
        ((s.cluster.raft 0).currentRole = .follower ∧ (s.crews 0).all.length = 1) :=
    exists_reaches_of_exec
      (firstElection ++ [(2, .electionTimeout), (2, .startElection), (2, .electionTimeout),
        (2, .startElection), (0, .replicate 2), (0, .prepareLogRequestArgs 2),
        (2, .logRequest ⟨0, 1, 0, 0, 0, []⟩),
        (0, .replicateResponse 2 ⟨0, 1, 0, 0, 0, []⟩ ⟨2, 2, 0, false⟩)])
      (by decide +kernel)
  exact ⟨s, hrun, hstate, (replicators_follow_role hrun).1⟩

/-- Node 0 is elected, follows the `VoteRequest` of node 2 in term 2 with its replicators running,
and is elected again in term 3: then two of its replicators for node 1 run. -/
theorem voted_out_replicators_run : ∃ s s' : CrewedCluster 3 Unit,
    Reachable (step keepsNothing) (start 3 1000 fun _ ↦ ()) s ∧
      ((s.cluster.raft 0).currentRole = .follower ∧ (s.crews 0).unstopped 1 = 1 ∧
        ¬ s.FollowRoles) ∧
      Reachable (step keepsNothing) s s' ∧
      ((s'.cluster.raft 0).currentRole = .leader ∧ (s'.crews 0).unstopped 1 = 2 ∧
        ¬ s'.FollowRoles) :=
  exists_later_of_exec
    (firstElection ++ [(2, .electionTimeout), (2, .startElection), (2, .electionTimeout),
      (2, .startElection), (0, .voteRequest ⟨2, 2, 0, 0⟩)])
    [(0, .electionTimeout), (0, .startElection), (1, .voteRequest ⟨0, 3, 0, 0⟩),
      (0, .receiveVote ⟨1, 3, true⟩)]
    (by decide +kernel)

end DistributedCache
