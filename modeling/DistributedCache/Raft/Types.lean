import Mathlib.Algebra.Group.Int.Defs
import Mathlib.Algebra.GroupWithZero.Nat
import Mathlib.Data.Int.Order.Basic
import Mathlib.Data.List.Basic

/-!
# Messages, log entries and wire types of `pkg/raft`

Go's `int` is an unbounded integer here; the conversions to `int32` that the gRPC messages force on
terms, lengths, keys and values are explicit.  Node ids are indices into the list of addresses, so
they are elements of `Fin n`, with `Option` for the places where the code stores `-1`.
-/

namespace DistributedCache

/-! ## `int32` -/

/-- Go's conversion `int32(x)`: the two's complement value of the low 32 bits. -/
def int32 (x : Int) : Int := Int.bmod x (2 ^ 32)

/-- The values that survive a trip through an `int32` field. -/
def FitsInt32 (x : Int) : Prop := -2 ^ 31 ≤ x ∧ x < 2 ^ 31
deriving Decidable

theorem int32_fits (x : Int) : FitsInt32 (int32 x) := by
  unfold FitsInt32 int32
  have hlo := @Int.le_bmod x (2 ^ 32) (by decide)
  have hhi := @Int.bmod_lt x (2 ^ 32) (by decide)
  omega

theorem int32_eq_self {x : Int} (h : FitsInt32 x) : int32 x = x := by
  unfold FitsInt32 at h
  unfold int32
  rw [Int.bmod_eq_of_le] <;> omega

theorem int32_eq_self_iff {x : Int} : int32 x = x ↔ FitsInt32 x :=
  ⟨fun h ↦ h ▸ int32_fits x, int32_eq_self⟩

@[simp] theorem int32_int32 (x : Int) : int32 (int32 x) = int32 x := int32_eq_self (int32_fits x)

@[simp] theorem int32_zero : int32 0 = 0 := rfl

/-- Converting a non-negative value never makes it larger. -/
theorem int32_le {x : Int} (h : 0 ≤ x) : int32 x ≤ x := by
  by_cases hfit : FitsInt32 x
  · exact Int.le_of_eq (int32_eq_self hfit)
  · have := int32_fits x
    unfold FitsInt32 at *
    omega

/-! ## Messages -/

inductive MessageType where
  | get
  | put
  | delete
  | command
  deriving DecidableEq, Repr

/-- A client command.  `Message.ResponseChan` is left out: it is local to the process that made the
message, and no field below depends on it. -/
structure Message where
  msgType : MessageType
  key : Int
  value : Option Int
  data : List UInt8
  idempotencyToken : String
  clientID : String
  deriving DecidableEq, Repr

/-- `toProtoMsgType` and the field conversions of `raftpb.Message`, followed by the conversions back
in `convertLogRequestArgs`: only the integers change. -/
def Message.wire (m : Message) : Message :=
  { m with key := int32 m.key, value := m.value.map int32 }

def Message.Fits (m : Message) : Prop := FitsInt32 m.key ∧ ∀ v ∈ m.value, FitsInt32 v
deriving Decidable

theorem Message.wire_eq_self {m : Message} (h : m.Fits) : m.wire = m := by
  obtain ⟨hkey, hvalue⟩ := h
  unfold Message.wire
  have hv : m.value.map int32 = m.value := by
    cases hm : m.value with
    | none => rfl
    | some v => rw [Option.map_some, int32_eq_self (hvalue v hm)]
  rw [int32_eq_self hkey, hv]

@[simp] theorem Message.wire_wire (m : Message) : m.wire.wire = m.wire := by
  cases hv : m.value <;> simp [Message.wire, hv]

/-- The token crosses the wire unchanged. -/
theorem Message.token_of_wire_eq {m m' : Message} (h : m.wire = m'.wire) :
    m.idempotencyToken = m'.idempotencyToken :=
  show m.wire.idempotencyToken = m'.wire.idempotencyToken by rw [h]

structure LogEntry where
  term : Int
  message : Message
  deriving DecidableEq, Repr

def LogEntry.wire (e : LogEntry) : LogEntry := ⟨int32 e.term, e.message.wire⟩

def LogEntry.Fits (e : LogEntry) : Prop := FitsInt32 e.term ∧ e.message.Fits
deriving Decidable

theorem LogEntry.wire_eq_self {e : LogEntry} (h : e.Fits) : e.wire = e := by
  unfold LogEntry.wire
  rw [int32_eq_self h.1, Message.wire_eq_self h.2]

theorem map_wire_eq_self {l : List LogEntry} (h : ∀ e ∈ l, e.Fits) : l.map LogEntry.wire = l := by
  conv_rhs => rw [← List.map_id l]
  exact List.map_congr_left fun e he ↦ LogEntry.wire_eq_self (h e he)

/-! ## Roles and requests -/

inductive Role where
  | follower
  | candidate
  | leader
  deriving DecidableEq, Repr

/-- What `startElection` hands to `sendVoteRequest`. -/
structure VoteRequestData (n : Nat) where
  candidateId : Fin n
  candidateTerm : Int
  candidateLogLength : Int
  candidateLogTerm : Int
  deriving DecidableEq, Repr

structure VoteRequestArgs (n : Nat) where
  candidateId : Fin n
  candidateTerm : Int
  candidateLogLength : Int
  candidateLogTerm : Int
  deriving DecidableEq, Repr

structure VoteResponse (n : Nat) where
  nodeId : Fin n
  currentTerm : Int
  granted : Bool
  deriving DecidableEq, Repr

structure LogRequestArgs (n : Nat) where
  leaderId : Fin n
  term : Int
  prefixLen : Int
  prefixTerm : Int
  commitLength : Int
  suffix : List LogEntry
  deriving DecidableEq, Repr

structure LogResponse (n : Nat) where
  nodeId : Fin n
  currentTerm : Int
  ack : Int
  success : Bool
  deriving DecidableEq, Repr

structure InstallSnapshotRequest (n : Nat) where
  leaderTerm : Int
  leaderId : Fin n
  lastIncludedIndex : Int
  lastIncludedTerm : Int
  offset : Int
  data : List UInt8
  done : Bool
  deriving DecidableEq, Repr

structure InstallSnapshotResponse where
  term : Int
  deriving DecidableEq, Repr

/-- The conversion in `sendVoteRequest`. -/
def VoteRequestData.wire {n : Nat} (d : VoteRequestData n) : VoteRequestArgs n where
  candidateId := d.candidateId
  candidateTerm := int32 d.candidateTerm
  candidateLogLength := int32 d.candidateLogLength
  candidateLogTerm := int32 d.candidateLogTerm

end DistributedCache
