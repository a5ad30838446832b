import Mathlib.Data.Finset.Card
import Mathlib.Data.Fintype.Basic
import DistributedCache.Lib.Window
import DistributedCache.Raft.Types

/-!
# The state of one node

`Raft` holds the fields that `r.mu` protects, the application behind them and the bytes of the
snapshot file.  Each function below is one region of the code that holds the lock throughout, so
that a run of a node is an interleaving of such regions.  The id of the node and the number of
nodes are fixed at construction and are parameters; a Go panic is `none`.
-/

namespace DistributedCache

open Window

/-- `application.go`.  `none` stands for an error; the state is kept either way, since the code does
not look at it. -/
structure Application (σ : Type) where
  appendMessage : σ → Message → σ × Bool × Int
  getSnapshot : σ → Option (List UInt8)
  restoreFromSnapshot : σ → List UInt8 → σ × Option Int
  getValue : σ → Int → Int

structure Snapshot where
  lastIndex : Int
  lastTerm : Int
  snapshotThreshold : Int
  deriving DecidableEq, Repr

structure Replicator where
  consecutiveFailures : Nat
  deriving DecidableEq, Repr

/-- The value `NewReplicator` gives every replicator. -/
def maxConsecutiveFailures : Nat := 5

structure Raft (n : Nat) (σ : Type) where
  currentTerm : Int
  votedFor : Option (Fin n)
  log : List LogEntry
  commitedLength : Int
  currentRole : Role
  currentLeaderId : Option (Fin n)
  votesReceived : Finset (Fin n)
  sentLengths : Fin n → Int
  ackedLengths : Fin n → Int
  /-- `none` is the nil slice. -/
  replicators : Option (Fin n → Option Replicator)
  snapshotter : Snapshot
  application : σ
  /-- The file `snapshotFilename`, if it exists. -/
  snapshotFile : Option (List UInt8)

variable {n : Nat} {σ : Type}

/-- `NewRaft` with no files on disk. -/
def newRaft (n : Nat) (snapshotThreshold : Int) (application : σ) : Raft n σ where
  currentTerm := 0
  votedFor := none
  log := []
  commitedLength := 0
  currentRole := .follower
  currentLeaderId := none
  votesReceived := ∅
  sentLengths _ := 0
  ackedLengths _ := 0
  replicators := none
  snapshotter := ⟨0, 0, snapshotThreshold⟩
  application := application
  snapshotFile := none

/-- `int(math.Ceil(float64(r.totalNodes+1) / 2))`. -/
def majority (n : Nat) : Nat := (n + 2) / 2

namespace Raft

/-- `r.snapshotter.lastIndex + len(r.log)`. -/
def absLength (r : Raft n σ) : Int := r.snapshotter.lastIndex + r.log.length

/-- The entry at an absolute position, if it is still in memory. -/
def entryAt (r : Raft n σ) (p : Int) : Option LogEntry := at? r.snapshotter.lastIndex r.log p

def getLastLogTerm (r : Raft n σ) : Int :=
  match r.log.getLast? with
  | some e => e.term
  -- an empty log: the last entry is the one the snapshot ends with
  | none => if 0 < r.snapshotter.lastIndex then r.snapshotter.lastTerm else 0

/-- `deliverToApplication`, for the effect on the application. -/
def deliver (app : Application σ) (r : Raft n σ) (m : Message) : Raft n σ :=
  { r with application := (app.appendMessage r.application m).1 }

/-- The two states agree on everything but the log, what was committed and applied of it, and its
snapshot. -/
structure SameControl (r r' : Raft n σ) : Prop where
  term : r'.currentTerm = r.currentTerm
  vote : r'.votedFor = r.votedFor
  role : r'.currentRole = r.currentRole
  leader : r'.currentLeaderId = r.currentLeaderId
  votes : r'.votesReceived = r.votesReceived
  sent : r'.sentLengths = r.sentLengths
  acked : r'.ackedLengths = r.ackedLengths

theorem SameControl.refl (r : Raft n σ) : SameControl r r := ⟨rfl, rfl, rfl, rfl, rfl, rfl, rfl⟩

theorem SameControl.trans {r r' r'' : Raft n σ} (h : SameControl r r') (h' : SameControl r' r'') :
    SameControl r r'' where
  term := h'.term.trans h.term
  vote := h'.vote.trans h.vote
  role := h'.role.trans h.role
  leader := h'.leader.trans h.leader
  votes := h'.votes.trans h.votes
  sent := h'.sent.trans h.sent
  acked := h'.acked.trans h.acked

/-! ## Roles -/

def becomeFollowerUnlocked (r : Raft n σ) (term : Int) : Raft n σ :=
  { r with
    currentRole := .follower
    currentTerm := term
    -- cleared even when `term` is the current one, as in `checkQuorumHealth`
    votedFor := none
    currentLeaderId := none
    replicators := none }

def becomeLeader (r : Raft n σ) (id : Fin n) : Raft n σ :=
  { r with
    currentRole := .leader
    currentLeaderId := some id
    replicators := some fun f ↦ if f = id then none else some ⟨0⟩
    -- the arrays keep what they had in the leader's own places
    sentLengths := fun f ↦ if f = id then r.sentLengths f else r.absLength + 1
    ackedLengths := fun f ↦ if f = id then r.ackedLengths f else 0 }

/-- The followers whose replicator has failed fewer than five times in a row. -/
def healthyFollowers (r : Raft n σ) (id : Fin n) : Nat :=
  match r.replicators with
  | none => 0
  | some reps => (Finset.univ.filter fun f ↦ f ≠ id ∧
      ∃ rep ∈ reps f, rep.consecutiveFailures < maxConsecutiveFailures).card

def losesQuorum (r : Raft n σ) (id : Fin n) : Prop :=
  r.currentRole = .leader ∧ r.healthyFollowers id < majority n - 1
deriving Decidable

def checkQuorumHealth (r : Raft n σ) (id : Fin n) : Raft n σ :=
  if r.losesQuorum id then r.becomeFollowerUnlocked r.currentTerm else r

/-- The second lock region of `Forward` on a node that takes itself for the leader wrongly. -/
def forwardClearsLeader (r : Raft n σ) (id : Fin n) : Raft n σ :=
  if r.currentRole ≠ .leader ∧ r.currentLeaderId = some id then { r with currentLeaderId := none }
  else r

/-- `rep.consecutiveFailures` after a failed or an answered request of the replicator for `f`. -/
def countFailure (r : Raft n σ) (f : Fin n) (failed : Bool) : Raft n σ :=
  { r with
    replicators := r.replicators.map fun reps g ↦
      if g = f then
        (reps g).map fun rep ↦ ⟨if failed then rep.consecutiveFailures + 1 else 0⟩
      else reps g }

/-! ## Elections -/

def startElection (r : Raft n σ) (id : Fin n) : Raft n σ × VoteRequestData n :=
  ({ r with
      currentRole := .candidate
      currentTerm := r.currentTerm + 1
      votedFor := some id
      votesReceived := {id}
      currentLeaderId := none },
    ⟨id, r.currentTerm + 1, r.absLength, r.getLastLogTerm⟩)

/-- The first branch of `VoteRequest`: the candidate is the node this one followed. -/
def dropLeader (r : Raft n σ) (candidateId : Fin n) : Raft n σ :=
  if r.currentLeaderId = some candidateId then
    -- this happens before the terms are compared, so an old request does it, too
    { r with currentRole := .follower, votedFor := none, currentLeaderId := none }
  else r

/-- The second branch of `VoteRequest`: a newer term. -/
def adoptTerm (r : Raft n σ) (term : Int) : Raft n σ :=
  if r.currentTerm < term then
    { r with currentTerm := term, currentRole := .follower, votedFor := none }
  else r

/-- The candidate's log is at least as up to date as this node's. -/
def voteLogOk (r : Raft n σ) (args : VoteRequestArgs n) : Prop :=
  r.getLastLogTerm < args.candidateLogTerm ∨
    args.candidateLogTerm = r.getLastLogTerm ∧ r.absLength ≤ args.candidateLogLength
deriving Decidable

/-- The state in which `VoteRequest` decides. -/
def beforeVote (r : Raft n σ) (args : VoteRequestArgs n) : Raft n σ :=
  (r.dropLeader args.candidateId).adoptTerm args.candidateTerm

def grantsVote (r : Raft n σ) (args : VoteRequestArgs n) : Prop :=
  args.candidateTerm = r.currentTerm ∧ r.voteLogOk args ∧
    (r.votedFor = none ∨ r.votedFor = some args.candidateId)
deriving Decidable

def castVote (r : Raft n σ) (candidateId : Fin n) : Raft n σ :=
  { r with votedFor := some candidateId, currentRole := .follower, currentLeaderId := none }

/-- `VoteRequest`: the new state and the reply. -/
def voteRequest (r : Raft n σ) (id : Fin n) (args : VoteRequestArgs n) :
    Raft n σ × VoteResponse n :=
  let r' := r.beforeVote args
  if r'.grantsVote args then
    (r'.castVote args.candidateId, ⟨id, int32 r'.currentTerm, true⟩)
  else (r', ⟨id, int32 r'.currentTerm, false⟩)

/-- Whether `VoteRequest` asks for the state to be saved. -/
def voteRequestSaves (r : Raft n σ) (args : VoteRequestArgs n) : Bool :=
  (r.beforeVote args).grantsVote args ∨ r.currentLeaderId = some args.candidateId ∨
    r.currentTerm < args.candidateTerm

/-- `receiveVote` counts the vote. -/
def countsVote (r : Raft n σ) (vote : VoteResponse n) : Prop :=
  vote.granted = true ∧ r.currentTerm = vote.currentTerm ∧ r.currentRole = .candidate
deriving Decidable

/-- `receiveVote`: the new state, and whether `becomeLeader` was called. -/
def receiveVote (r : Raft n σ) (id : Fin n) (vote : VoteResponse n) : Raft n σ × Bool :=
  if r.currentTerm < vote.currentTerm then
    -- a newer term, but `votedFor` keeps the vote of the old one
    ({ r with currentTerm := vote.currentTerm, currentRole := .follower }, false)
  else if r.countsVote vote then
    let r' := { r with votesReceived := insert vote.nodeId r.votesReceived }
    -- a set of voters, so a vote that is delivered twice counts once
    if majority n ≤ r'.votesReceived.card then (r'.becomeLeader id, true) else (r', false)
  else (r, false)

/-! ## Facts about the vote handlers -/

variable {r : Raft n σ} {args : VoteRequestArgs n}

theorem beforeVote_term :
    (r.beforeVote args).currentTerm = max r.currentTerm args.candidateTerm := by
  unfold beforeVote dropLeader adoptTerm
  split <;> split <;> simp_all <;> omega

-- only these four fields are touched before the vote is decided
theorem beforeVote_eq : r.beforeVote args = { r with
    currentTerm := (r.beforeVote args).currentTerm
    votedFor := (r.beforeVote args).votedFor
    currentRole := (r.beforeVote args).currentRole
    currentLeaderId := (r.beforeVote args).currentLeaderId } := by
  unfold beforeVote dropLeader adoptTerm
  split <;> split <;> rfl

theorem beforeVote_role (r : Raft n σ) (args : VoteRequestArgs n) :
    (r.beforeVote args).currentRole = .follower ∨ r.beforeVote args = r := by
  unfold beforeVote dropLeader adoptTerm
  split <;> split <;> simp

theorem beforeVote_voteLogOk : (r.beforeVote args).voteLogOk args ↔ r.voteLogOk args := by
  rw [beforeVote_eq]
  rfl

end Raft

end DistributedCache
