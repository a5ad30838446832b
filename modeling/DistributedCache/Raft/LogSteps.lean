import DistributedCache.Raft.Cluster

/-!
# What an action does to logs and deliveries

The log changes in the second region of `Broadcast`, in `appendEntries` and in `InstallSnapshot`;
`commitedLength` also changes in `commitLogEntries`, and messages are delivered by `appendEntries`
and by the goroutine that `commitLogEntries` leaves behind.  `act_log` says so once, and
`act_sends` says which requests an action sends.
-/

namespace DistributedCache

open Network Window

variable {n : Nat} {σ : Type} {app : Application σ} {i : Fin n} {r : Raft n σ} {a : Action n}
  {e : RaftEffect n σ}

def Event.isLog : Event n → Bool
  | .committed _ _ _ _ _ => true
  | .delivered _ _ => true
  | _ => false

/-- The thread will append to the log or deliver from it. -/
def Thread.isLog : Thread n → Bool
  | .appendEntries _ => true
  | .deliver _ => true
  | _ => false

/-- The log, its snapshot and the commit length are untouched. -/
structure Raft.SameLog (r r' : Raft n σ) : Prop where
  log : r'.log = r.log
  snapshotter : r'.snapshotter = r.snapshotter
  commitedLength : r'.commitedLength = r.commitedLength

theorem Raft.SameLog.refl (r : Raft n σ) : r.SameLog r := ⟨rfl, rfl, rfl⟩

namespace Raft

inductive LogCase (app : Application σ) (i : Fin n) (r : Raft n σ) :
    Action n → RaftEffect n σ → Prop
  | broadcasts (m : Message) : LogCase app i r (.broadcast m) (r.broadcast i m).quiet
  | appends {args : LogRequestArgs n} {disk : Disk} {r' : Raft n σ} {ds : List Delivery}
      (happ : r.appendEntries app disk args = some (r', ds)) :
    LogCase app i r (.appendEntries args disk)
      ⟨r', [.logReply args], [], ds.map (.delivered i)⟩
  | accepts (args : LogRequestArgs n) (haccepts : r.acceptsLogRequest i args) :
    LogCase app i r (.logRequest args) ((r.followLeader i args).spawn (.appendEntries args))
  | installs {req : InstallSnapshotRequest n} {disk : Disk} {r' : Raft n σ}
      {reply : Option InstallSnapshotResponse}
      (hinst : r.installSnapshot app disk req = (r', reply))
      (hout : InstallOutcome app disk r req r' reply) :
    LogCase app i r (.installSnapshot req disk)
      ⟨r', [], reply.toList.map (.snapshotResponse req.leaderId i req), []⟩
  | commits {f : Fin n} {req : LogRequestArgs n} {resp : LogResponse n} {r' : Raft n σ}
      {ds : List Delivery} (hcommits : r.commits resp)
      (hcommit : (r.recordAck f resp.ack).commitLogEntries i = some (r', ds)) :
    LogCase app i r (.replicateResponse f req resp)
      ⟨r', if ds = [] then [] else [.deliver ds], [],
        [.committed i r'.currentTerm r'.snapshotter.lastIndex r'.log r'.commitedLength]⟩
  | delivers (d : Delivery) (rest : List Delivery) :
    LogCase app i r (.deliver (d :: rest))
      ⟨r.deliver app d.2, if rest = [] then [] else [.deliver rest], [], [.delivered i d]⟩
  | other {a : Action n} {e : RaftEffect n σ} (hsame : r.SameLog e.state)
      (hthreads : ∀ t ∈ e.threads, t.isLog = false)
      (hevents : ∀ ev ∈ e.events, ev.isLog = false) : LogCase app i r a e

theorem LogCase.quiet {r' : Raft n σ} (h : r.SameLog r') : LogCase app i r a r'.quiet :=
  .other h (by simp [Raft.quiet]) (by simp [Raft.quiet])

theorem LogCase.spawn {r' : Raft n σ} {t : Thread n} (h : r.SameLog r')
    (ht : t.isLog = false) : LogCase app i r a (r'.spawn t) :=
  .other h (by simpa [Raft.spawn] using ht) (by simp [Raft.spawn])

theorem beforeVote_sameLog (r : Raft n σ) (args : VoteRequestArgs n) :
    r.SameLog (r.beforeVote args) := by
  rw [beforeVote_eq]
  exact ⟨rfl, rfl, rfl⟩

theorem voteRequestEffect_log {args : VoteRequestArgs n} :
    LogCase app i r (.voteRequest args) (r.voteRequestEffect i args) := by
  have hsame := r.beforeVote_sameLog args
  unfold voteRequestEffect voteRequest
  simp only
  split
  · exact .other ⟨hsame.log, hsame.snapshotter, hsame.commitedLength⟩ (by simp)
      (by simp [Event.isLog])
  · exact .other hsame (by simp) (by simp)

theorem receiveVoteEffect_log {vote : VoteResponse n} :
    LogCase app i r (.receiveVote vote) (r.receiveVoteEffect i vote) := by
  unfold receiveVoteEffect receiveVote
  simp only
  split
  · exact .other ⟨rfl, rfl, rfl⟩ (by simp) (by simp)
  split
  · split
    · exact .other ⟨rfl, rfl, rfl⟩ (by simp) (by simp [Event.isLog])
    · exact .other ⟨rfl, rfl, rfl⟩ (by simp) (by simp)
  · exact .other ⟨rfl, rfl, rfl⟩ (by simp) (by simp)

theorem followLeader_sameLog {args : LogRequestArgs n} : r.SameLog (r.followLeader i args) := by
  rcases r.followLeader_cases i args with ⟨-, h⟩ | ⟨-, h⟩ | ⟨-, h⟩
  all_goals
    rw [h]
    exact ⟨rfl, rfl, rfl⟩

theorem replicateResponseEffect_log {f : Fin n} {req : LogRequestArgs n} {resp : LogResponse n}
    (h : r.replicateResponseEffect i f resp = some e) :
    LogCase app i r (.replicateResponse f req resp) e := by
  obtain ⟨⟨r', ds⟩, hresp, rfl⟩ := Option.map_eq_some_iff.mp h
  cases replicateResponse_cases hresp with
  | newer hnewer =>
    simp only [if_neg fun hcommits : r.commits resp ↦ hcommits.1 hnewer]
    exact .other ⟨rfl, rfl, rfl⟩ (by simp) (by simp)
  | acked hold hrole hterm hok hcommit =>
    have hcommits : r.commits resp := ⟨hold, hrole, hterm, hok⟩
    simp only [if_pos hcommits]
    exact .commits hcommits hcommit
  | refused _ hok =>
    obtain ⟨sent, heq⟩ := r.retreat_eq f
    rw [heq]
    simp only [if_neg fun hcommits : r.commits resp ↦ by simp [hcommits.2.2.2] at hok]
    exact .other ⟨rfl, rfl, rfl⟩ (by simp) (by simp)
  | ignored _ hother =>
    simp only [if_neg fun hcommits : r.commits resp ↦ hother ⟨hcommits.2.1, hcommits.2.2.1⟩]
    exact .other ⟨rfl, rfl, rfl⟩ (by simp) (by simp)

theorem act_log (h : r.act app i a = some e) : LogCase app i r a e := by
  cases a with
  | broadcast m =>
    obtain rfl := Option.some.inj h
    exact .broadcasts m
  | appendEntries args disk =>
    obtain ⟨⟨r', ds⟩, happ, rfl⟩ := Option.map_eq_some_iff.mp h
    exact .appends happ
  | installSnapshot req disk =>
    obtain rfl := Option.some.inj h
    exact .installs rfl (installSnapshot_outcome app disk r req)
  | replicateResponse f req resp => exact replicateResponseEffect_log h
  | deliver batch =>
    obtain ⟨d, rest, rfl, rfl⟩ := act_deliver h
    exact .delivers d rest
  | startElection =>
    obtain rfl := Option.some.inj h
    exact .other ⟨rfl, rfl, rfl⟩ (by simp [startElectionEffect])
      (by simp [startElectionEffect, Event.isLog])
  | voteRequest args =>
    obtain rfl := Option.some.inj h
    exact voteRequestEffect_log
  | receiveVote vote =>
    obtain rfl := Option.some.inj h
    exact receiveVoteEffect_log
  | electionTimeout =>
    obtain rfl := act_electionTimeout h
    exact .spawn (.refl r) rfl
  | getLeaderData m =>
    obtain ⟨-, rfl⟩ := act_getLeaderData h
    exact .spawn (.refl r) rfl
  | forward =>
    obtain rfl := Option.some.inj h
    unfold forwardClearsLeader
    split <;> exact .quiet ⟨rfl, rfl, rfl⟩
  | replicate f =>
    obtain ⟨-, rfl⟩ := act_replicate h
    exact .spawn (.refl r) (by split <;> rfl)
  | replicateFailed f current =>
    obtain rfl := Option.some.inj h
    refine .spawn ?_ rfl
    split <;> exact ⟨rfl, rfl, rfl⟩
  | checkQuorumHealth =>
    obtain rfl := Option.some.inj h
    unfold checkQuorumHealth
    split <;> exact .quiet ⟨rfl, rfl, rfl⟩
  | prepareLogRequestArgs f =>
    obtain rfl := Option.some.inj h
    refine .other (.refl r) ?_ (by simp [prepareLogRequestEffect])
    intro t ht
    obtain rfl := List.mem_singleton.mp (List.mem_ite_nil_right.mp ht).2
    rfl
  | logRequest args =>
    obtain rfl := Option.some.inj h
    unfold logRequestEffect
    simp only
    split
    · rename_i haccepts
      exact .accepts args haccepts
    · exact .other followLeader_sameLog (by simp) (by simp)
  | logReply args =>
    obtain rfl := Option.some.inj h
    exact .other (.refl r) (by simp) (by simp)
  | replicateAnswered | finishTransfer =>
    obtain rfl := Option.some.inj h
    exact .quiet ⟨rfl, rfl, rfl⟩
  | sendInstallSnapshotRPC f =>
    obtain rfl := Option.some.inj h
    exact .spawn (.refl r) rfl
  | openSnapshot t =>
    obtain ⟨bytes, -, rfl⟩ := Option.map_eq_some_iff.mp h
    exact .spawn (.refl r) rfl
  | readChunk t =>
    obtain rfl := Option.some.inj h
    unfold readChunkEffect
    simp only
    split
    · exact .spawn (.refl r) rfl
    · exact .other (.refl r) (by simp [Thread.isLog]) (by simp)
  | snapshotReply t req resp =>
    obtain rfl := Option.some.inj h
    unfold snapshotReplyEffect
    split
    · exact .quiet ⟨rfl, rfl, rfl⟩
    · split <;> exact .spawn (.refl r) rfl

/-! ## What an action sends -/

/-- The requests for votes, for the log and for a snapshot have one sender each; an answer may come
from any handler. -/
inductive Sends (i : Fin n) (r : Raft n σ) : Action n → Packet n → Prop
  | requestVote (j : Fin n) (args : VoteRequestArgs n) :
    Sends i r .startElection (.voteRequest j args)
  | requestLog (f : Fin n) :
    Sends i r (.prepareLogRequestArgs f) (.logRequest f (r.prepareLogRequestArgs i f))
  | sendChunk (t : Transfer n) (hne : r.readChunk t ≠ []) :
    Sends i r (.readChunk t) (.installSnapshot t.followerId (chunkRequest i t (r.readChunk t)))
  | answerVote (a : Action n) (target : Fin n) (vote : VoteResponse n) :
    Sends i r a (.voteResponse target vote)
  | answerLog (a : Action n) (target sender : Fin n) (req : LogRequestArgs n)
      (resp : LogResponse n) : Sends i r a (.logResponse target sender req resp)
  | answerChunk (a : Action n) (target sender : Fin n) (req : InstallSnapshotRequest n)
      (resp : InstallSnapshotResponse) : Sends i r a (.snapshotResponse target sender req resp)

theorem act_sends (h : r.act app i a = some e) {p : Packet n} (hp : p ∈ e.packets) :
    Sends i r a p := by
  cases a with
  | startElection =>
    obtain rfl := Option.some.inj h
    obtain ⟨j, -, rfl⟩ := List.mem_map.mp hp
    exact .requestVote j _
  | voteRequest args =>
    obtain rfl := Option.some.inj h
    rw [List.mem_singleton.mp hp]
    exact .answerVote _ _ _
  | prepareLogRequestArgs f =>
    obtain rfl := Option.some.inj h
    rw [List.mem_singleton.mp hp]
    exact .requestLog f
  | logRequest args =>
    obtain rfl := Option.some.inj h
    unfold logRequestEffect at hp
    simp only at hp
    split at hp
    · cases hp
    · rw [List.mem_singleton.mp hp]
      exact .answerLog _ _ _ _ _
  | logReply args =>
    obtain rfl := Option.some.inj h
    rw [List.mem_singleton.mp hp]
    exact .answerLog _ _ _ _ _
  | readChunk t =>
    obtain rfl := Option.some.inj h
    unfold readChunkEffect at hp
    simp only at hp
    split at hp
    · cases hp
    · rename_i hne
      rw [List.mem_singleton.mp hp]
      exact .sendChunk t hne
  | installSnapshot req disk =>
    obtain rfl := Option.some.inj h
    obtain ⟨resp, -, rfl⟩ := List.mem_map.mp hp
    exact .answerChunk _ _ _ _ _
  -- the others send nothing
  | replicateResponse | appendEntries =>
    obtain ⟨⟨r', ds⟩, -, rfl⟩ := Option.map_eq_some_iff.mp h
    cases hp
  | openSnapshot t =>
    obtain ⟨bytes, -, rfl⟩ := Option.map_eq_some_iff.mp h
    cases hp
  | deliver batch =>
    obtain ⟨d, rest, -, rfl⟩ := act_deliver h
    cases hp
  | electionTimeout =>
    obtain rfl := act_electionTimeout h
    cases hp
  | getLeaderData m =>
    obtain ⟨-, rfl⟩ := act_getLeaderData h
    cases hp
  | replicate f =>
    obtain ⟨-, rfl⟩ := act_replicate h
    cases hp
  | snapshotReply t req resp =>
    obtain rfl := Option.some.inj h
    unfold snapshotReplyEffect at hp
    split at hp
    · cases hp
    · split at hp <;> cases hp
  | _ =>
    obtain rfl := Option.some.inj h
    cases hp

end Raft

/-! ## What an action leaves alone -/

/-- The action changes neither the application nor the snapshot file. -/
def Action.leavesStore : Action n → Bool
  | .appendEntries _ _ => false
  | .installSnapshot _ _ => false
  | .deliver _ => false
  | _ => true

theorem replicateResponse_store {r' : Raft n σ} {f : Fin n} {resp : LogResponse n}
    {ds : List Delivery}
    (h : r.replicateResponse i f resp = some (r', ds)) :
    r'.application = r.application ∧ r'.snapshotFile = r.snapshotFile := by
  cases Raft.replicateResponse_cases h with
  | newer | ignored => exact ⟨rfl, rfl⟩
  | acked _ _ _ _ hcommit =>
    obtain ⟨rfl, -⟩ := Raft.commitLogEntries_spec hcommit
    exact ⟨rfl, rfl⟩
  | refused =>
    obtain ⟨sent, heq⟩ := r.retreat_eq f
    rw [heq]
    exact ⟨rfl, rfl⟩

theorem act_leavesStore (hact : r.act app i a = some e) (ha : a.leavesStore = true) :
    e.state.application = r.application ∧ e.state.snapshotFile = r.snapshotFile := by
  cases a with
  | appendEntries | installSnapshot | deliver => cases ha
  | replicateResponse f req resp =>
    obtain ⟨⟨r', ds⟩, hresp, rfl⟩ := Option.map_eq_some_iff.mp hact
    exact replicateResponse_store hresp
  | openSnapshot t =>
    obtain ⟨bytes, -, rfl⟩ := Option.map_eq_some_iff.mp hact
    exact ⟨rfl, rfl⟩
  | electionTimeout =>
    obtain rfl := Raft.act_electionTimeout hact
    exact ⟨rfl, rfl⟩
  | getLeaderData m =>
    obtain ⟨-, rfl⟩ := Raft.act_getLeaderData hact
    exact ⟨rfl, rfl⟩
  | replicate f =>
    obtain ⟨-, rfl⟩ := Raft.act_replicate hact
    exact ⟨rfl, rfl⟩
  | voteRequest args =>
    obtain rfl := Option.some.inj hact
    unfold Raft.voteRequestEffect Raft.voteRequest
    simp only
    rw [Raft.beforeVote_eq]
    split <;> exact ⟨rfl, rfl⟩
  | receiveVote vote =>
    obtain rfl := Option.some.inj hact
    unfold Raft.receiveVoteEffect Raft.receiveVote
    simp only
    split
    · exact ⟨rfl, rfl⟩
    split
    · split <;> exact ⟨rfl, rfl⟩
    · exact ⟨rfl, rfl⟩
  | forward =>
    obtain rfl := Option.some.inj hact
    unfold Raft.forwardClearsLeader
    split <;> exact ⟨rfl, rfl⟩
  | replicateFailed f current =>
    obtain rfl := Option.some.inj hact
    cases current <;> exact ⟨rfl, rfl⟩
  | checkQuorumHealth =>
    obtain rfl := Option.some.inj hact
    unfold Raft.checkQuorumHealth
    split <;> exact ⟨rfl, rfl⟩
  | logRequest args =>
    obtain rfl := Option.some.inj hact
    unfold Raft.logRequestEffect
    obtain ⟨-, heq⟩ | ⟨-, heq⟩ | ⟨-, heq⟩ := r.followLeader_cases i args
    all_goals
      simp only [heq]
      split <;> exact ⟨rfl, rfl⟩
  | readChunk t =>
    obtain rfl := Option.some.inj hact
    unfold Raft.readChunkEffect
    simp only
    split <;> exact ⟨rfl, rfl⟩
  | snapshotReply t req resp =>
    obtain rfl := Option.some.inj hact
    unfold Raft.snapshotReplyEffect
    split
    · exact ⟨rfl, rfl⟩
    · split <;> exact ⟨rfl, rfl⟩
  | _ =>
    obtain rfl := Option.some.inj hact
    exact ⟨rfl, rfl⟩

end DistributedCache
