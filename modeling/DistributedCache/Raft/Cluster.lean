import Mathlib.Data.List.FinRange
import DistributedCache.Lib.Network
import DistributedCache.Raft.Replication

/-!
# The cluster

An action is one lock region of one node (or one unlocked read or write that matters).  What a
goroutine still has to do when it releases the lock is a pending thread; RPCs and their replies are
messages of a network that delays, reorders, duplicates and loses them.  The caller of an RPC is
the node that its arguments name, and a reply is kept together with the request it answers, as gRPC
matches them.

Replicators that were not stopped when a leader stepped down keep running next to those of a later
term, so `replicate` may run any number of times at once.
-/

namespace DistributedCache

open Network

/-- What a goroutine does when it next gets the lock. -/
inductive Thread (n : Nat) where
  | startElection
  | broadcast (message : Message)
  | checkQuorumHealth
  | prepareLogRequestArgs (followerId : Fin n)
  | appendEntries (args : LogRequestArgs n)
  /-- `LogRequest` after `appendEntries` has returned. -/
  | logReply (args : LogRequestArgs n)
  | sendInstallSnapshotRPC (followerId : Fin n)
  | openSnapshot (t : Transfer n)
  | readChunk (t : Transfer n)
  | awaitReply (t : Transfer n) (req : InstallSnapshotRequest n)
  | finishTransfer (t : Transfer n)
  /-- The messages a `commitLogEntries` has yet to deliver, outside the lock. -/
  | deliver (batch : List Delivery)
  deriving DecidableEq

inductive Packet (n : Nat) where
  | voteRequest (target : Fin n) (args : VoteRequestArgs n)
  | voteResponse (target : Fin n) (vote : VoteResponse n)
  | logRequest (target : Fin n) (args : LogRequestArgs n)
  | logResponse (target sender : Fin n) (req : LogRequestArgs n) (resp : LogResponse n)
  | installSnapshot (target : Fin n) (req : InstallSnapshotRequest n)
  | snapshotResponse (target sender : Fin n) (req : InstallSnapshotRequest n)
      (resp : InstallSnapshotResponse)
  deriving DecidableEq

/-- What the properties below speak of and the state forgets. -/
inductive Event (n : Nat) where
  | candidacy (data : VoteRequestData n)
  /-- A granted `VoteRequest`, with the voter's own last term and log length. -/
  | granted (voter : Fin n) (args : VoteRequestArgs n) (lastTerm length : Int)
  /-- A call of `becomeLeader`, with the leader's log. -/
  | becameLeader (id : Fin n) (term base : Int) (log : List LogEntry)
  /-- A call of `commitLogEntries`, with the log and the commit length it leaves. -/
  | committed (id : Fin n) (term base : Int) (log : List LogEntry) (length : Int)
  | delivered (id : Fin n) (delivery : Delivery)
  deriving DecidableEq

inductive Action (n : Nat) where
  /-- The election timer fires and the role is read. -/
  | electionTimeout
  | startElection
  | voteRequest (args : VoteRequestArgs n)
  | receiveVote (vote : VoteResponse n)
  /-- The leadership test of `Broadcast`. -/
  | getLeaderData (message : Message)
  | broadcast (message : Message)
  | forward
  /-- The first lock region of `replicate`. -/
  | replicate (followerId : Fin n)
  /-- A request that could not be sent or was not answered; `current` tells the replicators of this
  leadership from leftover ones. -/
  | replicateFailed (followerId : Fin n) (current : Bool)
  | checkQuorumHealth
  | prepareLogRequestArgs (followerId : Fin n)
  /-- The first lock region of `LogRequest`. -/
  | logRequest (args : LogRequestArgs n)
  | appendEntries (args : LogRequestArgs n) (disk : Disk)
  | logReply (args : LogRequestArgs n)
  | replicateAnswered (followerId : Fin n) (req : LogRequestArgs n) (resp : LogResponse n)
  | replicateResponse (followerId : Fin n) (req : LogRequestArgs n) (resp : LogResponse n)
  | sendInstallSnapshotRPC (followerId : Fin n)
  | openSnapshot (t : Transfer n)
  | readChunk (t : Transfer n)
  | snapshotReply (t : Transfer n) (req : InstallSnapshotRequest n)
      (resp : InstallSnapshotResponse)
  | finishTransfer (t : Transfer n)
  | installSnapshot (req : InstallSnapshotRequest n) (disk : Disk)
  | deliver (batch : List Delivery)
  deriving DecidableEq

variable {n : Nat} {σ : Type}

/-- The pending thread that an action continues. -/
def Action.thread : Action n → Option (Thread n)
  | .startElection => some .startElection
  | .broadcast m => some (.broadcast m)
  | .checkQuorumHealth => some .checkQuorumHealth
  | .prepareLogRequestArgs f => some (.prepareLogRequestArgs f)
  | .appendEntries args _ => some (.appendEntries args)
  | .logReply args => some (.logReply args)
  | .sendInstallSnapshotRPC f => some (.sendInstallSnapshotRPC f)
  | .openSnapshot t => some (.openSnapshot t)
  | .readChunk t => some (.readChunk t)
  | .snapshotReply t req _ => some (.awaitReply t req)
  | .finishTransfer t => some (.finishTransfer t)
  | .deliver batch => some (.deliver batch)
  | _ => none

/-- The message that an action of node `i` consumes. -/
def Action.packet (i : Fin n) : Action n → Option (Packet n)
  | .voteRequest args => some (.voteRequest i args)
  -- a reply stays in the network, so it may be handled again
  | .receiveVote vote => some (.voteResponse i vote)
  | .logRequest args => some (.logRequest i args)
  | .replicateAnswered f req resp => some (.logResponse i f req resp)
  | .replicateResponse f req resp => some (.logResponse i f req resp)
  | .snapshotReply t req resp => some (.snapshotResponse i t.followerId req resp)
  | .installSnapshot req _ => some (.installSnapshot i req)
  | _ => none

abbrev RaftEffect (n : Nat) (σ : Type) := Effect (Raft n σ) (Thread n) (Packet n) (Event n)

namespace Raft

/-- Only the node's state changes. -/
def quiet (r : Raft n σ) : RaftEffect n σ := ⟨r, [], [], []⟩

/-- The state stays and a goroutine goes on to `t`. -/
def spawn (r : Raft n σ) (t : Thread n) : RaftEffect n σ := ⟨r, [t], [], []⟩

/-- `replicate` calls `commitLogEntries`. -/
def commits (r : Raft n σ) (resp : LogResponse n) : Prop :=
  ¬ int32 r.currentTerm < resp.currentTerm ∧ r.currentRole = .leader ∧
    resp.currentTerm = r.currentTerm ∧ resp.success = true
deriving Decidable

def startElectionEffect (r : Raft n σ) (i : Fin n) : RaftEffect n σ :=
  ⟨(r.startElection i).1, [],
    -- the log is read under the lock, the requests leave after it
    ((List.finRange n).filter (· ≠ i)).map fun j ↦ .voteRequest j (r.startElection i).2.wire,
    [.candidacy (r.startElection i).2]⟩

def voteRequestEffect (r : Raft n σ) (i : Fin n) (args : VoteRequestArgs n) : RaftEffect n σ :=
  let resp := (r.voteRequest i args).2
  ⟨(r.voteRequest i args).1, [], [.voteResponse args.candidateId resp],
    if resp.granted then [.granted i args r.getLastLogTerm r.absLength] else []⟩

def receiveVoteEffect (r : Raft n σ) (i : Fin n) (vote : VoteResponse n) : RaftEffect n σ :=
  let r' := (r.receiveVote i vote).1
  ⟨r', [], [],
    if (r.receiveVote i vote).2 then
      [.becameLeader i r'.currentTerm r'.snapshotter.lastIndex r'.log]
    else []⟩

def prepareLogRequestEffect (r : Raft n σ) (i f : Fin n) : RaftEffect n σ :=
  ⟨r, if r.needsSnapshot f then [.sendInstallSnapshotRPC f] else [],
    [.logRequest f (r.prepareLogRequestArgs i f)], []⟩

def logRequestEffect (r : Raft n σ) (i : Fin n) (args : LogRequestArgs n) : RaftEffect n σ :=
  let r' := r.followLeader i args
  -- the lock is released here; `appendEntries` takes it again
  if r.acceptsLogRequest i args then r'.spawn (.appendEntries args)
  else ⟨r', [], [.logResponse args.leaderId i args (r'.rejectLogRequest i)], []⟩

def appendEntriesEffect (app : Application σ) (disk : Disk) (r : Raft n σ) (i : Fin n)
    (args : LogRequestArgs n) : Option (RaftEffect n σ) :=
  (r.appendEntries app disk args).map fun (r', ds) ↦
    ⟨r', [.logReply args], [], ds.map (.delivered i)⟩

def replicateResponseEffect (r : Raft n σ) (i f : Fin n) (resp : LogResponse n) :
    Option (RaftEffect n σ) :=
  (r.replicateResponse i f resp).map fun (r', ds) ↦
    -- the batch is delivered after the unlock, one message at a time
    ⟨r', if ds = [] then [] else [.deliver ds], [],
      if r.commits resp then
        [.committed i r'.currentTerm r'.snapshotter.lastIndex r'.log r'.commitedLength]
      else []⟩

def readChunkEffect (r : Raft n σ) (i : Fin n) (t : Transfer n) : RaftEffect n σ :=
  let data := r.readChunk t
  -- an empty file ends the loop without a single request
  if data = [] then r.spawn (.finishTransfer t)
  else
    let req := chunkRequest i t data
    ⟨r, [.awaitReply t req], [.installSnapshot t.followerId req], []⟩

def snapshotReplyEffect (r : Raft n σ) (t : Transfer n) (req : InstallSnapshotRequest n)
    (resp : InstallSnapshotResponse) : RaftEffect n σ :=
  if r.currentTerm < resp.term then (r.snapshotReplyNewer resp).quiet
  else if req.done then r.spawn (.finishTransfer t)
  else r.spawn (.readChunk { t with offset := t.offset + req.data.length })

def installSnapshotEffect (app : Application σ) (disk : Disk) (r : Raft n σ) (i : Fin n)
    (req : InstallSnapshotRequest n) : RaftEffect n σ :=
  ⟨(r.installSnapshot app disk req).1, [],
    (r.installSnapshot app disk req).2.toList.map (.snapshotResponse req.leaderId i req), []⟩

def deliverEffect (app : Application σ) (r : Raft n σ) (i : Fin n) :
    List Delivery → Option (RaftEffect n σ)
  | [] => none
  | d :: rest =>
    -- the next message is delivered by the same goroutine, after any number of other steps
    some ⟨r.deliver app d.2, if rest = [] then [] else [.deliver rest], [], [.delivered i d]⟩

/-- The effect of an action of node `i`; `none` when the code panics or has nothing to do. -/
def act (app : Application σ) (i : Fin n) (r : Raft n σ) : Action n → Option (RaftEffect n σ)
  | .electionTimeout => if r.currentRole = .leader then none else some (r.spawn .startElection)
  | .startElection => some (r.startElectionEffect i)
  | .voteRequest args => some (r.voteRequestEffect i args)
  | .receiveVote vote => some (r.receiveVoteEffect i vote)
  | .getLeaderData m => if r.currentRole = .leader then some (r.spawn (.broadcast m)) else none
  | .broadcast m => some (r.broadcast i m).quiet
  | .forward => some (r.forwardClearsLeader i).quiet
  | .replicate f =>
    if f ≠ i ∧ r.currentRole = .leader then
      if r.needsSnapshot f then some (r.spawn (.sendInstallSnapshotRPC f))
      else some (r.spawn (.prepareLogRequestArgs f))
    else none
  -- a leftover replicator counts its failures in a structure that nothing reads any more
  | .replicateFailed f current =>
    some ((if current then r.countFailure f true else r).spawn .checkQuorumHealth)
  | .checkQuorumHealth => some (r.checkQuorumHealth i).quiet
  | .prepareLogRequestArgs f => some (r.prepareLogRequestEffect i f)
  | .logRequest args => some (r.logRequestEffect i args)
  | .appendEntries args disk => r.appendEntriesEffect app disk i args
  | .logReply args =>
    some ⟨r, [], [.logResponse args.leaderId i args (r.acceptLogRequest i args)], []⟩
  | .replicateAnswered f _ _ => some (r.countFailure f false).quiet
  | .replicateResponse f _ resp => r.replicateResponseEffect i f resp
  | .sendInstallSnapshotRPC f => some (r.spawn (.openSnapshot (r.sendInstallSnapshotRPC f)))
  -- without a file the transfer ends
  | .openSnapshot t => r.snapshotFile.map fun bytes ↦
      r.spawn (.readChunk { t with totalSize := bytes.length })
  | .readChunk t => some (r.readChunkEffect i t)
  | .snapshotReply t req resp => some (r.snapshotReplyEffect t req resp)
  | .finishTransfer t => some (r.finishTransfer t).quiet
  | .installSnapshot req disk => some (r.installSnapshotEffect app disk i req)
  | .deliver batch => r.deliverEffect app i batch

section

variable {app : Application σ} {i f : Fin n} {r : Raft n σ} {m : Message} {e : RaftEffect n σ}

theorem act_electionTimeout (h : r.act app i .electionTimeout = some e) :
    e = r.spawn .startElection := by
  obtain ⟨-, h⟩ := Option.ite_none_left_eq_some.mp h
  exact (Option.some.inj h).symm

theorem act_getLeaderData (h : r.act app i (.getLeaderData m) = some e) :
    r.currentRole = .leader ∧ e = r.spawn (.broadcast m) := by
  obtain ⟨hrole, h⟩ := Option.ite_none_right_eq_some.mp h
  exact ⟨hrole, (Option.some.inj h).symm⟩

theorem act_replicate (h : r.act app i (.replicate f) = some e) :
    (f ≠ i ∧ r.currentRole = .leader) ∧
      e = r.spawn
        (if r.needsSnapshot f then .sendInstallSnapshotRPC f else .prepareLogRequestArgs f) := by
  obtain ⟨hlead, h⟩ := Option.ite_none_right_eq_some.mp h
  refine ⟨hlead, ?_⟩
  split at h <;> simp_all

theorem act_deliver {batch : List Delivery} (h : r.act app i (.deliver batch) = some e) :
    ∃ d rest, batch = d :: rest ∧ e =
      ⟨r.deliver app d.2, if rest = [] then [] else [.deliver rest], [], [.delivered i d]⟩ := by
  cases batch with
  | nil => cases h
  | cons d rest => exact ⟨d, rest, rfl, (Option.some.inj h).symm⟩

end

end Raft

/-- The handlers as a protocol over a network. -/
def raftProtocol (app : Application σ) :
    Protocol (Fin n) (Raft n σ) (Thread n) (Packet n) (Event n) (Action n) where
  thread := Action.thread
  packet := Action.packet
  act := Raft.act app

abbrev Cluster (n : Nat) (σ : Type) := Config (Fin n) (Raft n σ) (Thread n) (Packet n) (Event n)

namespace Cluster

/-- Every node starts from `NewRaft` on an empty disk. -/
def start (n : Nat) (snapshotThreshold : Int) (application : Fin n → σ) : Cluster n σ where
  -- nothing is under way
  nodes i := ⟨newRaft n snapshotThreshold (application i), []⟩
  network := []
  history := []

def step (app : Application σ) (c : Cluster n σ) (x : Fin n × Action n) : Option (Cluster n σ) :=
  Network.step (raftProtocol app) c x

/-- The state of node `i`. -/
abbrev raft (c : Cluster n σ) (i : Fin n) : Raft n σ := (c.nodes i).state

theorem step_cases {app : Application σ} {c c' : Cluster n σ} {i : Fin n} {a : Action n}
    (h : Cluster.step app c (i, a) = some c') :
    (∀ t ∈ a.thread, t ∈ (c.nodes i).threads) ∧ (∀ p ∈ a.packet i, p ∈ c.network) ∧
      ∃ e, (c.raft i).act app i a = some e ∧ c' = c.apply i a.thread e := by
  obtain ⟨⟨hthread, hpacket⟩, e, hact, hc'⟩ := Network.step_cases h
  exact ⟨hthread, hpacket, e, hact, hc'⟩

end Cluster

/-- An application that keeps nothing, for concrete runs. -/
def keepsNothing : Application Unit where
  appendMessage _ _ := ((), true, 0)
  getSnapshot _ := some []
  restoreFromSnapshot _ _ := ((), some 0)
  getValue _ _ := 0

/-- New nodes with that application, which never compact their logs in a short run. -/
abbrev Cluster.fresh (n : Nat) : Cluster n Unit := Cluster.start n 1000 fun _ ↦ ()

-- the sample clusters have two or three nodes, which literals name
instance sampleOfTwo : NeZero 2 := ⟨by decide⟩

instance sampleOfThree : NeZero 3 := ⟨by decide⟩

/-- A client's message, for concrete runs. -/
def samplePut (key : Int) : Message := ⟨.put, key, some key, [], "", ""⟩

/-- Node 1 votes for node 0, which thereby leads term 1. -/
def firstElection : List (Fin 3 × Action 3) :=
  [(0, .electionTimeout), (0, .startElection), (1, .voteRequest ⟨0, 1, 0, 0⟩),
    (0, .receiveVote ⟨1, 1, true⟩)]

/-- The first message of node 0 reaches node 1 and is committed. -/
def firstCommit : List (Fin 3 × Action 3) :=
  [(0, .getLeaderData (samplePut 1)), (0, .broadcast (samplePut 1)), (0, .replicate 1),
    (0, .prepareLogRequestArgs 1), (1, .logRequest ⟨0, 1, 0, 0, 0, [⟨1, samplePut 1⟩]⟩),
    (1, .appendEntries ⟨0, 1, 0, 0, 0, [⟨1, samplePut 1⟩]⟩ .healthy),
    (1, .logReply ⟨0, 1, 0, 0, 0, [⟨1, samplePut 1⟩]⟩),
    (0, .replicateResponse 1 ⟨0, 1, 0, 0, 0, [⟨1, samplePut 1⟩]⟩ ⟨1, 1, 1, true⟩)]

end DistributedCache
