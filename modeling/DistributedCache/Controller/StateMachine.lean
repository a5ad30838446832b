import DistributedCache.Controller.Plane
import DistributedCache.Raft.Unchanged

/-!
# `ControllerApp`: a controller as the application of its Raft node

`AppendMessage` and `RestoreFromSnapshot` receive bytes.  What they do once the bytes are decoded
are the steps of the control plane; bytes that cannot be decoded leave the controller as it was.
-/

namespace DistributedCache

/-- `Command` as it is decoded first; the payload is decoded once the type is known. -/
structure RawCommand where
  type : String
  payload : List UInt8
  deriving DecidableEq, Repr

structure RegisterNodePayload where
  nodeID : String
  address : String
  deriving DecidableEq, Repr

/-- `encoding/json` at the types of the application; `none` is an error. -/
structure Json where
  command : List UInt8 → Option RawCommand
  registerNode : List UInt8 → Option RegisterNodePayload
  updateTopology : List UInt8 → Option ClusterConfig
  config : List UInt8 → Option ClusterConfig
  marshal : ClusterConfig → Option (List UInt8)

/-- What is marshalled can be decoded again. -/
def Json.RoundTrips (json : Json) : Prop :=
  ∀ config bytes, json.marshal config = some bytes → json.config bytes = some config

/-- The state of the application: the controller, once `SetController` was called. -/
abbrev ControllerApp := Option Controller

namespace ControllerApp

variable {json : Json} {a : ControllerApp} {c : Controller} {data : List UInt8} {now : Nat}

/-- The command a message stands for; `AppendMessage` logs and ignores all others. -/
def command (json : Json) (msg : Message) : Option Command :=
  if msg.msgType ≠ .command then none
  else (json.command msg.data).bind fun cmd ↦
    if cmd.type = "RegisterNode" then
      (json.registerNode cmd.payload).map fun p ↦ .registerNode p.nodeID p.address
    else if cmd.type = "UpdateTopology" then (json.updateTopology cmd.payload).map .updateTopology
    else if cmd.type = "NoOp" then some .noOp
    else none

/-- `AppendMessage`; `none` is the panic of a command that needs the controller before there is
one. -/
def appendMessage (json : Json) (now : Nat) (a : ControllerApp) (msg : Message) :
    Option (ControllerApp × Bool × Int) :=
  match command json msg, a with
  | none, a => some (a, false, 0)
  | some cmd, some c => some (some (c.appendMessage now cmd), true, 0)
  | some .noOp, none => some (none, true, 0)
  | some _, none => none

def getSnapshot (json : Json) : ControllerApp → Option (List UInt8)
  | none => some "\x7b\x7d".toUTF8.toList
  | some c => json.marshal c.config

def restoreFromSnapshot (json : Json) : ControllerApp → List UInt8 → ControllerApp × Option Int
  -- there is nothing to restore into, which is not an error
  | none, _ => (none, some 0)
  | some c, data =>
    match json.config data with
    | none => (some c, none)
    | some config => (some (c.publish config), some 0)

/-- A message that is a command moves the controller as the control plane has it; any other message
leaves it alone. -/
theorem appendMessage_some {msg : Message} :
    appendMessage json now (some c) msg =
      some ((command json msg).elim (some c, false, 0) fun cmd ↦
        (some (c.appendMessage now cmd), true, 0)) := by
  unfold appendMessage
  cases command json msg <;> rfl

/-- A snapshot of one controller gives its configuration to another. -/
theorem restoreFromSnapshot_getSnapshot {c' : Controller} (hjson : json.RoundTrips)
    (h : getSnapshot json (some c) = some data) :
    restoreFromSnapshot json (some c') data = (some (c'.publish c.config), some 0) := by
  unfold restoreFromSnapshot
  simp only [hjson c.config data h]

theorem restoreFromSnapshot_rejects (h : (restoreFromSnapshot json a data).2 = none) :
    (restoreFromSnapshot json a data).1 = a := by
  unfold restoreFromSnapshot at h ⊢
  split at h
  · rfl
  · cases hconfig : json.config data with
    | none => rfl
    | some config =>
      simp only [hconfig] at h
      cases h

end ControllerApp

/-- The bytes of a snapshot are decoded in full before the controller is touched. -/
theorem controllerApp_rejectsCleanly {json : Json} {app : Application ControllerApp}
    (happ : app.restoreFromSnapshot = ControllerApp.restoreFromSnapshot json) :
    app.RejectsCleanly := by
  intro a data h
  rw [happ] at h ⊢
  exact ControllerApp.restoreFromSnapshot_rejects h

namespace ControlPlane

variable {ι : Type} [DecidableEq ι] {json : Json} {s s' : ControlPlane ι} {i : ι} {now : Nat}

/-- When a controller's Raft node hands it the next message of the log, the controller moves as the
plane does. -/
theorem appendMessage_refines {msg : Message} {cmd : Command}
    (hmsg : ControllerApp.command json msg = some cmd) (hnext : s.log[s.applied i]? = some cmd)
    (hstep : s.step (.appendMessage i now) = some s') :
    ControllerApp.appendMessage json now (some (s.controllers i)) msg =
      some (some (s'.controllers i), true, 0) := by
  rw [step, hnext, Option.map_some] at hstep
  obtain rfl := Option.some.inj hstep
  rw [ControllerApp.appendMessage_some, hmsg]
  simp [setController]

/-- When a controller's Raft node hands it a snapshot that another controller has taken, the
controller moves as the plane does. -/
theorem restoreFromSnapshot_refines (hjson : json.RoundTrips) {sender : Controller}
    {data : List UInt8} {t : SentSnapshot ι} {k : Nat}
    (hdata : ControllerApp.getSnapshot json (some sender) = some data)
    (hconfig : t.config = sender.config) (hk : s.snapshots[k]? = some t)
    (hstep : s.step (.restoreFromSnapshot k) = some s') :
    ControllerApp.restoreFromSnapshot json (some (s.controllers t.receiver)) data =
      (some (s'.controllers t.receiver), some 0) := by
  rw [step, hk, Option.map_some] at hstep
  obtain rfl := Option.some.inj hstep
  rw [ControllerApp.restoreFromSnapshot_getSnapshot hjson hdata, ← hconfig]
  simp [setController]

end ControlPlane

/-! ## A snapshot in place of messages -/

namespace ControllerApp

variable {json : Json} {c c' : Controller}

/-- Raft hands over messages, each at its own time. -/
def appendMessages (json : Json) (a : ControllerApp) (msgs : List (Nat × Message)) :
    Option ControllerApp :=
  msgs.foldlM (fun a msg ↦ (appendMessage json msg.1 a msg.2).map Prod.fst) a

/-- What a message makes of the configuration depends on nothing else in the controller. -/
theorem appendMessage_config (json : Json) (hconfig : c.config = c'.config) (now : Nat)
    (msg : Message) :
    ∃ d d', (appendMessage json now (some c) msg).map Prod.fst = some (some d) ∧
      (appendMessage json now (some c') msg).map Prod.fst = some (some d') ∧
      d.config = d'.config := by
  rw [appendMessage_some, appendMessage_some]
  cases command json msg with
  | none => exact ⟨c, c', rfl, rfl, hconfig⟩
  | some cmd =>
    refine ⟨c.appendMessage now cmd, c'.appendMessage now cmd, rfl, rfl, ?_⟩
    cases cmd with
    | registerNode nodeID address =>
      show c.config.applyRegisterNode nodeID address now = _
      rw [hconfig]
      rfl
    | updateTopology config => rfl
    | noOp => exact hconfig

theorem appendMessages_config (json : Json) (hconfig : c.config = c'.config)
    (msgs : List (Nat × Message)) :
    ∃ d d', appendMessages json (some c) msgs = some (some d) ∧
      appendMessages json (some c') msgs = some (some d') ∧ d.config = d'.config := by
  induction msgs generalizing c c' with
  | nil => exact ⟨c, c', rfl, rfl, hconfig⟩
  | cons msg msgs ih =>
    obtain ⟨d, d', hd, hd', hsame⟩ := appendMessage_config json hconfig msg.1 msg.2
    unfold appendMessages
    rw [List.foldlM_cons, List.foldlM_cons, hd, hd']
    exact ih hsame

/-- A controller that restores the snapshot of another and is handed the messages after it has the
configuration of one that was handed all messages, whatever these are. -/
theorem snapshot_replaces_messages (hjson : json.RoundTrips) {sender : Controller}
    {msgs later : List (Nat × Message)} {data : List UInt8}
    (hsender : appendMessages json (some c) msgs = some (some sender))
    (hdata : getSnapshot json (some sender) = some data) :
    ∃ whole restored, appendMessages json (some c) (msgs ++ later) = some (some whole) ∧
      appendMessages json (restoreFromSnapshot json (some c') data).1 later =
        some (some restored) ∧
      restored.config = whole.config := by
  have hwhole : appendMessages json (some c) (msgs ++ later) =
      appendMessages json (some sender) later := by
    unfold appendMessages at hsender ⊢
    rw [List.foldlM_append, hsender]
    rfl
  obtain ⟨restored, whole, hrestored, hsent, hsame⟩ :=
    appendMessages_config json (Controller.publish_config (c := c') sender.config) later
  refine ⟨whole, restored, hwhole.trans hsent, ?_, hsame⟩
  rw [restoreFromSnapshot_getSnapshot hjson hdata]
  exact hrestored

/-! ## A sample table of texts -/

def sampleRegister : List UInt8 :=
  "\x7b\"node_id\":\"n\",\"address\":\"n:1\"\x7d".toUTF8.toList

def sampleCommand : List UInt8 :=
  "\x7b\"type\":\"RegisterNode\",\"payload\":".toUTF8.toList ++ sampleRegister ++
    "\x7d".toUTF8.toList

/-- The node that registers one nanosecond after the zero time. -/
def sampleConfig : ClusterConfig := (ClusterConfig.newClusterConfig 1).applyRegisterNode "n" "n:1" 1

def sampleSnapshot : List UInt8 :=
  ("\x7b\"epoch\":1,\"total_shards\":1,\"nodes\":\x7b\"n\":\x7b\"id\":\"n\",\"address\":\"n:1\"," ++
    "\"status\":\"ACTIVE\",\"last_heartbeat\":\"0001-01-01T00:00:00.000000001Z\"\x7d\x7d," ++
    "\"shards\":\x7b\"0\":\x7b\"id\":0,\"primary_id\":\"\",\"replica_ids\":[]," ++
    "\"status\":\"ACTIVE\"" ++
    "\x7d\x7d\x7d").toUTF8.toList

/-- What `encoding/json` does with these texts and this configuration. -/
def sampleJson : Json where
  command data := if data = sampleCommand then some ⟨"RegisterNode", sampleRegister⟩ else none
  registerNode data := if data = sampleRegister then some ⟨"n", "n:1"⟩ else none
  updateTopology _ := none
  config data := if data = sampleSnapshot then some sampleConfig else none
  marshal config := if config = sampleConfig then some sampleSnapshot else none

/-- The snapshot takes the place of a registration; the one after it is of a known node. -/
theorem snapshot_replaces_messages_first : ∃ whole restored,
    appendMessages sampleJson (some (.newController 1))
        ([(1, ⟨.command, 0, none, sampleCommand, "", ""⟩)] ++
          [(2, ⟨.command, 0, none, sampleCommand, "", ""⟩)]) = some (some whole) ∧
      appendMessages sampleJson
        (restoreFromSnapshot sampleJson (some (.newController 1)) sampleSnapshot).1
        [(2, ⟨.command, 0, none, sampleCommand, "", ""⟩)] = some (some restored) ∧
      restored.config = whole.config := by
  have hjson : sampleJson.RoundTrips := by
    intro config bytes h
    obtain ⟨rfl, hbytes⟩ := Option.ite_none_right_eq_some.mp h
    cases hbytes
    exact if_pos rfl
  have hcommand : command sampleJson ⟨.command, 0, none, sampleCommand, "", ""⟩ =
      some (.registerNode "n" "n:1") := by
    simp [command, sampleJson]
  have hsender : appendMessages sampleJson (some (.newController 1))
      [(1, ⟨.command, 0, none, sampleCommand, "", ""⟩)] =
        some (some ((Controller.newController 1).appendMessage 1 (.registerNode "n" "n:1"))) := by
    simp [appendMessages, appendMessage_some, hcommand]
  have hdata : getSnapshot sampleJson
      (some ((Controller.newController 1).appendMessage 1 (.registerNode "n" "n:1"))) =
        some sampleSnapshot := by
    show (if sampleConfig = sampleConfig then some sampleSnapshot else none) = _
    exact if_pos rfl
  exact snapshot_replaces_messages hjson hsender hdata

end ControllerApp

end DistributedCache
