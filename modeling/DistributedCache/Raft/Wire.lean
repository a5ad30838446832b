import DistributedCache.Raft.Cluster

/-!
# Messages on the wire

The types of `raftpb` with their own integers, and the conversions at both ends: to the wire in
`prepareLogRequestArgs` and `forwardToLeader`, back in `convertLogRequestArgs` and `Forward`.
Elsewhere in this development the two ends are one function, `LogEntry.wire` or `Message.wire`.
-/

namespace DistributedCache

/-! ## The types of `raftpb` -/

inductive PbMessageType where
  | get
  | put
  | delete
  | command
  deriving DecidableEq, Repr

structure PbMessage where
  type : PbMessageType
  key : Int32
  /-- `Int32Value` is a message of its own, so that it can be missing. -/
  value : Option Int32
  idempotencyToken : String
  clientId : String
  commandPayload : List UInt8
  deriving DecidableEq

structure PbLogEntry where
  term : Int32
  message : PbMessage
  deriving DecidableEq

structure PbLogRequestArgs where
  leaderId : Int32
  term : Int32
  prefixLen : Int32
  prefixTerm : Int32
  commitLength : Int32
  suffix : List PbLogEntry
  deriving DecidableEq

def toProtoMsgType : MessageType → PbMessageType
  | .get => .get
  | .put => .put
  | .delete => .delete
  | .command => .command

/-- `MessageType(t.String())`. -/
def PbMessageType.toMessageType : PbMessageType → MessageType
  | .get => .get
  | .put => .put
  | .delete => .delete
  | .command => .command

theorem toMessageType_toProtoMsgType (m : MessageType) : (toProtoMsgType m).toMessageType = m := by
  cases m <;> rfl

/-! ## The conversions -/

/-- The two encoders build a message in the same way. -/
def Message.toProto (m : Message) : PbMessage where
  type := toProtoMsgType m.msgType
  key := Int32.ofInt m.key
  value := m.value.map Int32.ofInt
  idempotencyToken := m.idempotencyToken
  clientId := m.clientID
  commandPayload := m.data

/-- The two decoders read a message in the same way. -/
def PbMessage.toMessage (m : PbMessage) : Message where
  msgType := m.type.toMessageType
  key := m.key.toInt
  value := m.value.map Int32.toInt
  data := m.commandPayload
  idempotencyToken := m.idempotencyToken
  clientID := m.clientId

/-- The message that `forwardToLeader` sends. -/
def forwardToLeader (message : Message) : PbMessage := message.toProto

/-- `internal` in `Forward`. -/
def forwardInternal (msg : PbMessage) : Message := msg.toMessage

/-- An element of `pbSuffix` in `prepareLogRequestArgs`. -/
def LogEntry.toProto (e : LogEntry) : PbLogEntry := ⟨Int32.ofInt e.term, e.message.toProto⟩

def PbLogEntry.toLogEntry (e : PbLogEntry) : LogEntry := ⟨e.term.toInt, e.message.toMessage⟩

/-- The six results of `convertLogRequestArgs`. -/
structure ConvertedLogRequest where
  leaderId : Int
  term : Int
  prefixLen : Int
  prefixTerm : Int
  commitLength : Int
  suffix : List LogEntry
  deriving DecidableEq

def convertLogRequestArgs (args : PbLogRequestArgs) : ConvertedLogRequest where
  leaderId := args.leaderId.toInt
  term := args.term.toInt
  prefixLen := args.prefixLen.toInt
  prefixTerm := args.prefixTerm.toInt
  commitLength := args.commitLength.toInt
  suffix := args.suffix.map PbLogEntry.toLogEntry

namespace Raft

variable {n : Nat} {σ : Type}

/-- The request without a prefix, a commit length or entries. -/
def pbBareLogRequest (r : Raft n σ) (id : Fin n) : PbLogRequestArgs :=
  ⟨Int32.ofInt id, Int32.ofInt r.currentTerm, 0, 0, 0, []⟩

/-- The entries that go into the request for a follower, as they are in the log. -/
def suffixFor (r : Raft n σ) (followerId : Fin n) : List LogEntry :=
  if r.needsSnapshot followerId ∨ r.prevTerm (r.nextIndex followerId - 1) = none then []
  else r.log.drop (r.nextIndex followerId - r.snapshotter.lastIndex - 1).toNat

/-- `prepareLogRequestArgs`, with the request in the types of the wire. -/
def pbLogRequestArgs (r : Raft n σ) (id followerId : Fin n) : PbLogRequestArgs :=
  if r.needsSnapshot followerId then r.pbBareLogRequest id
  else
    let prevIndex := r.nextIndex followerId - 1
    match r.prevTerm prevIndex with
    | none => r.pbBareLogRequest id
    | some prevTerm =>
      { leaderId := Int32.ofInt id
        term := Int32.ofInt r.currentTerm
        prefixLen := Int32.ofInt prevIndex
        prefixTerm := Int32.ofInt prevTerm
        commitLength := Int32.ofInt r.commitedLength
        suffix := (r.suffixFor followerId).map LogEntry.toProto }

end Raft

/-! ## What arrives -/

theorem toInt_ofInt (x : Int) : (Int32.ofInt x).toInt = int32 x := Int32.toInt_ofInt

theorem toMessage_toProto (m : Message) : m.toProto.toMessage = m.wire := by
  simp only [Message.toProto, PbMessage.toMessage, toMessageType_toProtoMsgType, toInt_ofInt,
    Option.map_map, Function.comp_def]
  rfl

theorem toLogEntry_toProto (e : LogEntry) : e.toProto.toLogEntry = e.wire := by
  rw [LogEntry.toProto, PbLogEntry.toLogEntry, toMessage_toProto, toInt_ofInt]
  rfl

theorem Message.wire_eq_self_iff {m : Message} : m.wire = m ↔ m.Fits := by
  refine ⟨fun h ↦ ⟨?_, fun v hv ↦ ?_⟩, Message.wire_eq_self⟩
  · exact int32_eq_self_iff.mp (congrArg Message.key h)
  · have hvalue : m.value.map int32 = m.value := congrArg Message.value h
    rw [Option.mem_def.mp hv, Option.map_some] at hvalue
    exact int32_eq_self_iff.mp (Option.some.inj hvalue)

theorem LogEntry.wire_eq_self_iff {e : LogEntry} : e.wire = e ↔ e.Fits := by
  refine ⟨fun h ↦ ⟨?_, ?_⟩, LogEntry.wire_eq_self⟩
  · exact int32_eq_self_iff.mp (congrArg LogEntry.term h)
  · exact Message.wire_eq_self_iff.mp (congrArg LogEntry.message h)

theorem map_wire_eq_self_iff {l : List LogEntry} :
    l.map LogEntry.wire = l ↔ ∀ e ∈ l, e.Fits := by
  refine ⟨fun h e he ↦ ?_, map_wire_eq_self⟩
  nth_rewrite 2 [← List.map_id l] at h
  exact LogEntry.wire_eq_self_iff.mp (List.map_inj_left.mp h e he)

namespace Raft

variable {n : Nat} {σ : Type} (r : Raft n σ) (id f : Fin n)

theorem convert_suffix : (convertLogRequestArgs (r.pbLogRequestArgs id f)).suffix =
    (r.suffixFor f).map LogEntry.wire := by
  unfold pbLogRequestArgs
  by_cases hsnap : r.needsSnapshot f
  · rw [if_pos hsnap, suffixFor, if_pos (Or.inl hsnap)]
    rfl
  rw [if_neg hsnap]
  cases hprev : r.prevTerm (r.nextIndex f - 1) with
  | none =>
    simp only [hprev]
    rw [suffixFor, if_pos (Or.inr hprev)]
    rfl
  | some prevTerm =>
    simp only [hprev, convertLogRequestArgs, List.map_map]
    exact List.map_congr_left fun e _ ↦ toLogEntry_toProto e

theorem convert_pbBareLogRequest (hn : n ≤ 2 ^ 31) :
    convertLogRequestArgs (r.pbBareLogRequest id) = ⟨id, int32 r.currentTerm, 0, 0, 0, []⟩ := by
  have hid : int32 (id : Nat) = (id : Nat) := int32_eq_self ⟨by omega, by omega⟩
  simp only [convertLogRequestArgs, pbBareLogRequest, toInt_ofInt, hid]
  rfl

/-- The two ends of a request together are what `prepareLogRequestArgs` stands for elsewhere. -/
theorem convert_pbLogRequestArgs (hn : n ≤ 2 ^ 31) :
    convertLogRequestArgs (r.pbLogRequestArgs id f) =
      ⟨id, (r.prepareLogRequestArgs id f).term, (r.prepareLogRequestArgs id f).prefixLen,
        (r.prepareLogRequestArgs id f).prefixTerm, (r.prepareLogRequestArgs id f).commitLength,
        (r.prepareLogRequestArgs id f).suffix⟩ := by
  have hid : int32 (id : Nat) = (id : Nat) := int32_eq_self ⟨by omega, by omega⟩
  have hsuffix := r.convert_suffix id f
  unfold pbLogRequestArgs prepareLogRequestArgs at *
  by_cases hsnap : r.needsSnapshot f
  · simp only [if_pos hsnap, r.convert_pbBareLogRequest id hn]
    rfl
  simp only [if_neg hsnap] at hsuffix ⊢
  cases hprev : r.prevTerm (r.nextIndex f - 1) with
  | none =>
    simp only [r.convert_pbBareLogRequest id hn]
    rfl
  | some prevTerm =>
    have hdrop : (r.suffixFor f).map LogEntry.wire = r.wireSuffix (r.nextIndex f) := by
      rw [suffixFor, if_neg (by simp [hsnap, hprev])]
      rfl
    simp only [hprev] at hsuffix ⊢
    rw [hdrop] at hsuffix
    rw [← hsuffix]
    simp only [convertLogRequestArgs, toInt_ofInt, hid]

end Raft

/-- Entries and messages arrive as they were sent exactly when their integers fit into the fields of
the wire: the entries of a request at a follower, and a message that is passed on to the leader. -/
theorem wire_faithful_iff_fits {n : Nat} {σ : Type} :
    (∀ (r : Raft n σ) (id f : Fin n),
      (convertLogRequestArgs (r.pbLogRequestArgs id f)).suffix = r.suffixFor f ↔
        ∀ e ∈ r.suffixFor f, e.Fits) ∧
    ∀ message : Message,
      forwardInternal (forwardToLeader message) = message ↔ message.Fits := by
  refine ⟨fun r id f ↦ ?_, fun message ↦ ?_⟩
  · rw [Raft.convert_suffix]
    exact map_wire_eq_self_iff
  · rw [forwardInternal, forwardToLeader, toMessage_toProto]
    exact Message.wire_eq_self_iff

/-- A message whose key and value are the least that do not fit. -/
def sampleWide : Message := ⟨.put, 2 ^ 31, some (2 ^ 31), [], "", ""⟩

/-- A leader that has this message in its log. -/
def sampleWideLeader : Raft 2 Unit :=
  { newRaft 2 1000 () with currentTerm := 1, log := [⟨1, sampleWide⟩], sentLengths := fun _ ↦ 1 }

/-- The leader's entry is about key `2 ^ 31`, the follower's about key `-2 ^ 31`; the value and a
term are treated alike, and so is a message that is passed on. -/
theorem wire_unfaithful :
    (convertLogRequestArgs (sampleWideLeader.pbLogRequestArgs 0 1)).suffix =
      [⟨1, ⟨.put, -2 ^ 31, some (-2 ^ 31), [], "", ""⟩⟩] ∧
    forwardInternal (forwardToLeader sampleWide) =
      ⟨.put, -2 ^ 31, some (-2 ^ 31), [], "", ""⟩ ∧
    (LogEntry.toProto ⟨2 ^ 31, sampleWide⟩).toLogEntry.term = -2 ^ 31 := by
  decide +kernel

end DistributedCache
