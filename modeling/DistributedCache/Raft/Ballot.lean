import DistributedCache.Raft.Cluster

/-!
# What an action does to terms, votes and roles

Only `startElection`, `VoteRequest` and `receiveVote` deal in votes.  Every other action leaves a
node's term, vote, role and received votes alone or makes the node a follower; `act_ballot` says so
once for all of them.
-/

namespace DistributedCache

open Network

variable {n : Nat} {σ : Type} {app : Application σ} {i : Fin n} {r : Raft n σ} {a : Action n}
  {e : RaftEffect n σ}

def Packet.isVote : Packet n → Bool
  | .voteRequest _ _ => true
  | .voteResponse _ _ => true
  | _ => false

/-- The term a message carries. -/
def Packet.term : Packet n → Int
  | .voteRequest _ args => args.candidateTerm
  | .voteResponse _ vote => vote.currentTerm
  | .logRequest _ args => args.term
  | .logResponse _ _ _ resp => resp.currentTerm
  | .installSnapshot _ req => req.leaderTerm
  | .snapshotResponse _ _ _ resp => resp.term

def Event.isElection : Event n → Bool
  | .candidacy _ => true
  | .granted _ _ _ _ => true
  | .becameLeader _ _ _ _ => true
  | _ => false

namespace Raft

structure SameBallot (r r' : Raft n σ) : Prop where
  term : r'.currentTerm = r.currentTerm
  vote : r'.votedFor = r.votedFor
  role : r'.currentRole = r.currentRole
  votes : r'.votesReceived = r.votesReceived

variable {r' : Raft n σ}

theorem SameControl.ballot {r : Raft n σ} (h : SameControl r r') : SameBallot r r' :=
  ⟨h.term, h.vote, h.role, h.votes⟩

/-- The action sets `currentTerm` anew. -/
def changesTerm (r : Raft n σ) : Action n → Bool
  | .startElection => true
  | .voteRequest args => r.currentTerm < args.candidateTerm
  | .receiveVote vote => r.currentTerm < vote.currentTerm
  | .logRequest args => r.currentTerm < args.term
  | .replicateResponse _ _ resp => int32 r.currentTerm < resp.currentTerm
  | .snapshotReply _ _ resp => r.currentTerm < resp.term
  | .installSnapshot req _ => r.currentTerm < req.leaderTerm
  | _ => false

/-- How an action that does not deal in votes moves a node. -/
inductive Ballot (i : Fin n) (a : Action n) (r r' : Raft n σ) : Prop
  | same (h : SameBallot r r')
  | follows (hrole : r'.currentRole = .follower)
      (hterm : (r.currentTerm < r'.currentTerm ∧ r.changesTerm a = true ∧
          ∃ p ∈ a.packet i, p.term = r'.currentTerm) ∨
        r'.currentTerm = r.currentTerm ∧ r'.votedFor = r.votedFor)
  /-- The two ways to give up a vote of the current term: losing the quorum, and a reply whose term
  only seems newer. -/
  | forgets (hrole : r'.currentRole = .follower)
      (hcause : (a = .checkQuorumHealth ∧ r.losesQuorum i ∧ r'.currentTerm = r.currentTerm) ∨
        ∃ f req resp, a = .replicateResponse f req resp ∧ int32 r.currentTerm < resp.currentTerm ∧
          resp.currentTerm ≤ r.currentTerm)

theorem Ballot.unchanged : Ballot i a r r := .same ⟨rfl, rfl, rfl, rfl⟩

theorem checkQuorumHealth_ballot : Ballot i .checkQuorumHealth r (r.checkQuorumHealth i) := by
  unfold checkQuorumHealth
  split
  · rename_i hlose
    exact .forgets rfl (Or.inl ⟨rfl, hlose, rfl⟩)
  · exact .unchanged

theorem forwardClearsLeader_ballot : Ballot i a r (r.forwardClearsLeader i) := by
  unfold forwardClearsLeader
  split
  · exact .same ⟨rfl, rfl, rfl, rfl⟩
  · exact .unchanged

theorem followLeader_ballot {args : LogRequestArgs n} :
    Ballot i (.logRequest args) r (r.followLeader i args) := by
  rcases r.followLeader_cases i args with ⟨hlt, heq⟩ | ⟨hsame, heq⟩ | ⟨-, heq⟩
  · rw [heq]
    exact .follows rfl (Or.inl ⟨hlt, decide_eq_true hlt, _, rfl, rfl⟩)
  · rw [heq]
    exact .follows rfl (Or.inr ⟨rfl, rfl⟩)
  · rw [heq]
    exact .unchanged

theorem replicateResponse_ballot {f : Fin n} {req : LogRequestArgs n} {resp : LogResponse n}
    {ds : List Delivery} (h : r.replicateResponse i f resp = some (r', ds)) :
    Ballot i (.replicateResponse f req resp) r r' := by
  cases replicateResponse_cases h with
  | newer hlt =>
    by_cases hnew : r.currentTerm < resp.currentTerm
    · exact .follows rfl (Or.inl ⟨hnew, decide_eq_true hlt, _, rfl, rfl⟩)
    · exact .forgets rfl (Or.inr ⟨f, req, resp, rfl, hlt, by omega⟩)
  | acked _ _ _ _ hcommit =>
    obtain ⟨rfl, -⟩ := commitLogEntries_spec hcommit
    exact .same ⟨rfl, rfl, rfl, rfl⟩
  | refused =>
    obtain ⟨sent, heq⟩ := r.retreat_eq f
    rw [heq]
    exact .same ⟨rfl, rfl, rfl, rfl⟩
  | ignored => exact .unchanged

theorem followSnapshot_ballot {req : InstallSnapshotRequest n} {disk : Disk} :
    Ballot i (.installSnapshot req disk) r (r.followSnapshot req) := by
  unfold followSnapshot
  split
  · rename_i hlt
    exact .follows rfl (Or.inl ⟨hlt, decide_eq_true hlt, _, rfl, rfl⟩)
  · exact .same ⟨rfl, rfl, rfl, rfl⟩

theorem Ballot.congr {r'' : Raft n σ} (h : Ballot i a r r') (h' : SameBallot r' r'') :
    Ballot i a r r'' := by
  cases h with
  | same h =>
    exact .same ⟨h'.term.trans h.term, h'.vote.trans h.vote, h'.role.trans h.role,
      h'.votes.trans h.votes⟩
  | follows hrole hterm =>
    refine .follows (h'.role.trans hrole) ?_
    rw [h'.term, h'.vote]
    exact hterm
  | forgets hrole hcause =>
    refine .forgets (h'.role.trans hrole) ?_
    rw [h'.term]
    exact hcause

theorem InstallOutcome.ballot {req : InstallSnapshotRequest n} {disk : Disk}
    {reply : Option InstallSnapshotResponse} (h : InstallOutcome app disk r req r' reply) :
    Ballot i (.installSnapshot req disk) r r' := by
  cases h with
  | stale => exact .unchanged
  | stored | failed | restored => exact followSnapshot_ballot.congr ⟨rfl, rfl, rfl, rfl⟩

/-- An action deals in votes, or it is silent about them and moves the node as `Ballot` says. -/
inductive ElectionCase (i : Fin n) (r : Raft n σ) : Action n → RaftEffect n σ → Prop
  | stands : ElectionCase i r .startElection (r.startElectionEffect i)
  | grants (args : VoteRequestArgs n) (hgrants : (r.beforeVote args).grantsVote args) :
    ElectionCase i r (.voteRequest args)
      ⟨(r.beforeVote args).castVote args.candidateId, [],
        [.voteResponse args.candidateId ⟨i, int32 args.candidateTerm, true⟩],
        [.granted i args r.getLastLogTerm r.absLength]⟩
  | refuses (args : VoteRequestArgs n) (hrefuses : ¬ (r.beforeVote args).grantsVote args) :
    ElectionCase i r (.voteRequest args)
      ⟨r.beforeVote args, [],
        [.voteResponse args.candidateId ⟨i, int32 (r.beforeVote args).currentTerm, false⟩], []⟩
  | counts (vote : VoteResponse n) (hcounts : r.countsVote vote) :
    ElectionCase i r (.receiveVote vote)
      { r with votesReceived := insert vote.nodeId r.votesReceived }.quiet
  | wins (vote : VoteResponse n) (hcounts : r.countsVote vote)
      (hmajority : majority n ≤ (insert vote.nodeId r.votesReceived).card) :
    ElectionCase i r (.receiveVote vote)
      ⟨{ r with votesReceived := insert vote.nodeId r.votesReceived }.becomeLeader i, [], [],
        [.becameLeader i r.currentTerm r.snapshotter.lastIndex r.log]⟩
  | other {a : Action n} {e : RaftEffect n σ}
      (hpackets : ∀ p ∈ e.packets, p.isVote = false ∧ FitsInt32 p.term)
      (hevents : ∀ ev ∈ e.events, ev.isElection = false) (hballot : Ballot i a r e.state) :
    ElectionCase i r a e

theorem fits_singleton {p : Packet n} (hvote : p.isVote = false) (hfits : FitsInt32 p.term) :
    ∀ q ∈ [p], q.isVote = false ∧ FitsInt32 q.term := by
  intro q hq
  rw [List.mem_singleton.mp hq]
  exact ⟨hvote, hfits⟩

theorem ElectionCase.quiet (h : Ballot i a r r') : ElectionCase i r a r'.quiet :=
  .other (by simp [Raft.quiet]) (by simp [Raft.quiet]) h

theorem ElectionCase.spawn {t : Thread n} (h : Ballot i a r r') : ElectionCase i r a (r'.spawn t) :=
  .other (by simp [Raft.spawn]) (by simp [Raft.spawn]) h

theorem voteRequestEffect_cases (args : VoteRequestArgs n) :
    ElectionCase i r (.voteRequest args) (r.voteRequestEffect i args) := by
  unfold voteRequestEffect voteRequest
  simp only
  split
  · rename_i hgrants
    simp only [if_true, ← hgrants.1]
    exact .grants args hgrants
  · rename_i hrefuses
    exact .refuses args hrefuses

theorem receiveVoteEffect_cases (vote : VoteResponse n) :
    ElectionCase i r (.receiveVote vote) (r.receiveVoteEffect i vote) := by
  unfold receiveVoteEffect receiveVote
  simp only
  split
  · rename_i hterm
    exact .quiet (.follows rfl (Or.inl ⟨hterm, decide_eq_true hterm, _, rfl, rfl⟩))
  split
  · rename_i hcounts
    split
    · rename_i hmajority
      exact .wins vote hcounts hmajority
    · exact .counts vote hcounts
  · exact .quiet .unchanged

theorem act_election (h : r.act app i a = some e) : ElectionCase i r a e := by
  cases a with
  | startElection =>
    obtain rfl := Option.some.inj h
    exact .stands
  | voteRequest args =>
    obtain rfl := Option.some.inj h
    exact voteRequestEffect_cases args
  | receiveVote vote =>
    obtain rfl := Option.some.inj h
    exact receiveVoteEffect_cases vote
  | electionTimeout =>
    obtain rfl := act_electionTimeout h
    exact .spawn .unchanged
  | getLeaderData m =>
    obtain ⟨-, rfl⟩ := act_getLeaderData h
    exact .spawn .unchanged
  | broadcast | replicateAnswered | finishTransfer =>
    obtain rfl := Option.some.inj h
    exact .quiet (.same ⟨rfl, rfl, rfl, rfl⟩)
  | forward =>
    obtain rfl := Option.some.inj h
    exact .quiet forwardClearsLeader_ballot
  | replicate f =>
    obtain ⟨-, rfl⟩ := act_replicate h
    exact .spawn .unchanged
  | replicateFailed f current =>
    obtain rfl := Option.some.inj h
    refine .spawn ?_
    split <;> exact .same ⟨rfl, rfl, rfl, rfl⟩
  | checkQuorumHealth =>
    obtain rfl := Option.some.inj h
    exact .quiet checkQuorumHealth_ballot
  | prepareLogRequestArgs f =>
    obtain rfl := Option.some.inj h
    refine .other ?_ (by simp [prepareLogRequestEffect]) .unchanged
    intro p hp
    rw [List.mem_singleton.mp hp]
    refine ⟨rfl, ?_⟩
    change FitsInt32 (r.prepareLogRequestArgs i f).term
    rw [prepareLogRequestArgs_term]
    exact int32_fits _
  | logRequest args =>
    obtain rfl := Option.some.inj h
    unfold logRequestEffect
    simp only
    split
    · exact .spawn followLeader_ballot
    · exact .other (fits_singleton rfl (int32_fits _)) (by simp) followLeader_ballot
  | appendEntries args disk =>
    obtain ⟨⟨r', ds⟩, happ, rfl⟩ := Option.map_eq_some_iff.mp h
    refine .other (by simp) ?_ (.same (appendEntries_sameControl happ).ballot)
    intro ev hev
    obtain ⟨d, -, rfl⟩ := List.mem_map.mp hev
    rfl
  | logReply args =>
    obtain rfl := Option.some.inj h
    exact .other (fits_singleton rfl (int32_fits _)) (by simp) .unchanged
  | replicateResponse f req resp =>
    obtain ⟨⟨r', ds⟩, hresp, rfl⟩ := Option.map_eq_some_iff.mp h
    refine .other (by simp) ?_ (replicateResponse_ballot hresp)
    intro ev hev
    obtain rfl := List.mem_singleton.mp (List.mem_ite_nil_right.mp hev).2
    rfl
  | sendInstallSnapshotRPC f =>
    obtain rfl := Option.some.inj h
    exact .spawn .unchanged
  | openSnapshot t =>
    obtain ⟨bytes, -, rfl⟩ := Option.map_eq_some_iff.mp h
    exact .spawn .unchanged
  | readChunk t =>
    obtain rfl := Option.some.inj h
    unfold readChunkEffect
    simp only
    split
    · exact .spawn .unchanged
    · exact .other (fits_singleton rfl (int32_fits _)) (by simp) .unchanged
  | snapshotReply t req resp =>
    obtain rfl := Option.some.inj h
    unfold snapshotReplyEffect
    split
    · rename_i hlt
      exact .quiet (.follows rfl (Or.inl ⟨hlt, decide_eq_true hlt, _, rfl, rfl⟩))
    · split <;> exact .spawn .unchanged
  | installSnapshot req disk =>
    obtain rfl := Option.some.inj h
    have hout := installSnapshot_outcome app disk r req
    refine .other ?_ (by simp [installSnapshotEffect]) hout.ballot
    intro p hp
    obtain ⟨reply, hreply, rfl⟩ := List.mem_map.mp hp
    refine ⟨rfl, ?_⟩
    change FitsInt32 reply.term
    rw [hout.reply_term (Option.mem_toList.mp hreply)]
    exact int32_fits _
  | deliver batch =>
    obtain ⟨d, rest, -, rfl⟩ := act_deliver h
    exact .other (by simp) (by simp [Event.isElection]) (.same ⟨rfl, rfl, rfl, rfl⟩)

end Raft

end DistributedCache
