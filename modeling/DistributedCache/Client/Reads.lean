import DistributedCache.Client.Calls
import DistributedCache.Cluster.Failover
import DistributedCache.Cluster.Migration
import Mathlib.Tactic.MkIffOfInductiveProp

/-!
# Reads after writes

`HandlePut` and `HandleDelete` compare the epoch of the client with that of the node and check that
the node is the primary.  `HandleGet` does neither: a client with an old topology reads from the
node that was the primary then, for as long as that node renews its lease.
-/

namespace DistributedCache

open FiniteMap Transition UrlQuery

/-- Where a `Get` is under way to. -/
def CallStage.readsFrom : CallStage → Option String
  | .reading address => some address
  | _ => none

/-- The key that a new call writes. -/
def ClientAction.writes : ClientAction → Option String
  | .call _ op => op.write.map Prod.fst
  | _ => none

namespace ClientWorld

/-! ## The order -/

/-- Besides the order of `Orderly`, a `Get` of the key is answered by the controller's primary. -/
def FromPrimary (shardID : Nat) (key : String) (s : ClientWorld) : ClientAction → Prop
  | .world a => Orderly shardID key s.world a
  | .serve id _ => ∀ call ∈ s.calls.lookup id, call.op = .get key →
    ∀ address ∈ call.stage.readsFrom,
      s.world.controller.config.primaryAddress shardID = some address
  | _ => True

instance (shardID : Nat) (key : String) (s : ClientWorld) :
    ∀ a, Decidable (s.FromPrimary shardID key a)
  | .world _ => inferInstanceAs (Decidable (Orderly _ _ _ _))
  | .serve _ _ => inferInstanceAs (Decidable (∀ call ∈ _, _ → _))
  | .call _ _ | .route _ | .arrive _ _ | .receive _ | .giveUp _ | .stray _ _ | .topologyHandled _
  | .updateTopology _ | .fetchFailed _ _ => isTrue trivial

/-- The same, and no write of the key is called. -/
def NoWrite (shardID : Nat) (key : String) (s : ClientWorld) (a : ClientAction) : Prop :=
  s.FromPrimary shardID key a ∧ a.writes ≠ some key
deriving Decidable

/-- No write of the key is under way, not even one that its client has given up. -/
@[mk_iff]
structure Quiet (key : String) (s : ClientWorld) : Prop where
  call : Every (fun _ call ↦ call.op.write.map Prod.fst ≠ some key) s.calls
  stray : ∀ x ∈ s.strays, x.2.key ≠ key
  handler : Every (fun _ h ↦ h.write.key ≠ key) s.world.data.handlers

instance (key : String) (s : ClientWorld) : Decidable (s.Quiet key) :=
  decidable_of_iff' _ (quiet_iff key s)

variable {s s' : ClientWorld} {a : ClientAction} {key value : String}
variable {m n k shardID numShards : Nat}

/-- The world takes a step in order, or none. -/
theorem world_step (hok : s.FromPrimary shardID key a) (hstep : s.step a = some s') :
    s'.world = s.world ∨
      ∃ b, Orderly shardID key s.world b ∧ s.world.step b = some s'.world := by
  cases step_cases hstep with
  | world hnone hw => exact Or.inr ⟨_, hok, hw⟩
  | arrived hcall hstage hw | strayed hk hw => exact Or.inr ⟨.data (.request _ _ _), trivial, hw⟩
  | called | wentOn | sent | served | answered | gaveUp | ended => exact Or.inl rfl

/-! ## Reads -/

/-- Once the value is acknowledged, it is all that an up-to-date copy can hold. -/
theorem OnlyWrites.possible (h : s.OnlyWrites key value n) (hack : s.Acknowledged key n)
    {x : Option String} (hx : x ∈ s.world.possible key) : x = some value := by
  obtain ⟨id, write, hmem, hkey⟩ := hack
  obtain ⟨before, after, hsplit⟩ := List.mem_iff_append.mp hmem
  have hhistory : s.world.data.history =
      (s.world.data.history.take n ++ before) ++ .ended id write DataNode.written :: after := by
    rw [List.append_assoc, ← hsplit, List.take_append_drop]
  rcases later_of_possible hkey hhistory hx with hvalue | ⟨e, he, -, hkey', hvalue⟩
  · rw [hvalue]
    exact h.event _ hmem hkey
  · rw [← hvalue]
    refine h.event e ?_ hkey'
    rw [hsplit]
    exact List.mem_append_right _ (List.mem_cons_of_mem _ he)

/-- A result that is not out of date. -/
def Current (value : String) (result : Result) : Prop :=
  result = .value value ∨ ∃ e, result = .error e ∧ ∀ key, e ≠ .keyNotFound key

/-- An answer that is not out of date. -/
def CurrentReply (value : String) (reply : Reply) : Prop :=
  reply = ⟨.ok, value⟩ ∨ (reply.status ≠ .ok ∧ reply.status ≠ .notFound)

theorem current_of_verdict {reply : Reply} {result : Result} (h : CurrentReply value reply)
    (hverdict : getVerdict key reply = .done result) : Current value result := by
  obtain ⟨status, body⟩ := reply
  rcases h with heq | ⟨hok, hfound⟩
  · cases heq
    cases hverdict
    exact Or.inl rfl
  · cases status with
    | ok => exact absurd rfl hok
    | notFound => exact absurd rfl hfound
    | locked | serviceUnavailable => cases hverdict
    | _ =>
      cases hverdict
      exact Or.inr ⟨_, rfl, fun key heq ↦ by cases heq⟩

/-- What a node with the value answers. -/
theorem currentReply_handleGet {node : DataNode} (now : Nat) (hvalue : value ≠ "")
    (hcell : node.cache.lookup key = some value) : CurrentReply value (node.handleGet now key) := by
  have hget : node.cache.get key = value := by
    unfold ConcurrentMapCache.get
    rw [hcell]
    rfl
  unfold DataNode.handleGet
  split
  · exact Or.inr ⟨by decide, by decide⟩
  · split
    · exact Or.inr ⟨by decide, by decide⟩
    · rw [hget, if_neg hvalue]
      exact Or.inl rfl

/-- Calls from `m` on that get the key have current answers and results. -/
structure Answers (key value : String) (m : Nat) (s : ClientWorld) : Prop where
  read : Every (fun id call ↦ m ≤ id → call.op = .get key →
    ∀ reply, call.stage = .read reply → CurrentReply value reply) s.calls
  result : ∀ id result, m ≤ id → .returned id (.get key) result ∈ s.log → Current value result

/-- A call returns, with a current result if it has got the key. -/
theorem Answers.finish (h : s.Answers key value m) {id : Nat} {op : Op} {result : Result}
    (hresult : m ≤ id → op = .get key → Current value result) :
    (s.finish id op result).Answers key value m := by
  refine ⟨h.read.erase _, ?_⟩
  intro id' result' hid' hmem
  rcases List.mem_append.mp hmem with hmem | hmem
  · exact h.result id' result' hid' hmem
  · obtain ⟨rfl, hop, rfl⟩ := CallEvent.returned.inj (List.mem_singleton.mp hmem)
    exact hresult hid' hop.symm

theorem Answers.step (h : s.Answers key value m) (hsound : s.Sound)
    (hfresh : Fresh numShards shardID key s.world) (honly : s.OnlyWrites key value n)
    (hack : s.Acknowledged key n) (hplain : ∀ b ∈ utf8 key, Plain b) (hvalue : value ≠ "")
    (hok : s.FromPrimary shardID key a) (hstep : s.step a = some s') :
    s'.Answers key value m := by
  have hquiet : ∀ {stage : CallStage}, stage.isQuiet = true → ∀ reply, stage ≠ .read reply := by
    rintro stage hnone reply rfl
    cases hnone
  cases step_cases hstep with
  | world | strayed => exact ⟨h.read, h.result⟩
  | wentOn hcall hstage =>
    exact ⟨h.read.insert fun _ _ reply heq ↦ absurd heq (hquiet hstage reply), h.result⟩
  | gaveUp | sent | arrived => exact ⟨h.read.insert fun _ _ reply heq ↦ (by cases heq), h.result⟩
  | called client op =>
    refine ⟨h.read.insert fun _ _ reply heq ↦
      absurd heq (hquiet (isQuiet_firstStage op) reply), ?_⟩
    intro id result hid hmem
    rcases List.mem_append.mp hmem with hmem | hmem
    · exact h.result id result hid hmem
    · cases List.mem_singleton.mp hmem
  | @served id now call address key' reply hcall hop hstage hreply =>
    refine ⟨h.read.insert ?_, h.result⟩
    intro _ hget _ heq
    cases heq
    rw [show call.op = .get key from hget] at hop
    cases hop
    rw [answerGet_plain hplain] at hreply
    cases hreply
    -- the node is the primary, and what it holds is the value
    have hprimary := hok call hcall hget address (by rw [hstage]; rfl)
    have hpossible := hfresh.holder address (World.holds_primaryAddress hprimary)
    exact currentReply_handleGet now hvalue (honly.possible hack hpossible)
  | @answered id call reply result hcall hreply hverdict =>
    apply h.finish
    intro hid hop
    rw [hop] at hverdict
    unfold replyTo at hreply
    split at hreply
    · -- only writes wait for an answer in this way
      rename_i k req hstage
      have hwrite := (hsound.call _ call hcall).request req (by rw [hstage]; rfl)
      rw [hop] at hwrite
      cases hwrite
    · rename_i hstage
      cases hreply
      exact current_of_verdict (h.read _ call hcall hid hop _ hstage) hverdict
    · cases hreply
  | @ended _ id call result clients hcall hresult =>
    have hfinish : (s.finish id call.op result).Answers key value m := by
      apply h.finish
      intro _ hop
      rcases hresult with hfetch | rfl
      · rw [hop] at hfetch
        cases hfetch
      · exact Or.inr ⟨_, rfl, fun key heq ↦ by cases heq⟩
    exact ⟨hfinish.read, hfinish.result⟩

/-! ## Runs -/

/-- The invariant of a run in order. -/
structure Ordered (numShards shardID : Nat) (key : String) (s : ClientWorld) : Prop where
  sound : s.Sound
  fresh : Fresh numShards shardID key s.world

theorem Ordered.step (h : s.Ordered numShards shardID key)
    (hkey : shardIDOf key numShards = shardID) (hok : s.FromPrimary shardID key a)
    (hstep : s.step a = some s') : s'.Ordered numShards shardID key := by
  refine ⟨h.sound.step hstep, ?_⟩
  rcases world_step hok hstep with hsame | ⟨b, hb, hw⟩
  · rw [hsame]
    exact h.fresh
  · exact h.fresh.step hkey hb hw

/-- The invariant from the call of `Put` on. -/
structure Writing (numShards shardID : Nat) (key value : String) (m n k : Nat) (s : ClientWorld) :
    Prop where
  ordered : s.Ordered numShards shardID key
  only : s.OnlyWrites key value n
  watched : s.Watched key m n k

theorem Writing.step (h : s.Writing numShards shardID key value m n k)
    (hkey : shardIDOf key numShards = shardID) (hok : s.NoWrite shardID key a)
    (hstep : s.step a = some s') : s'.Writing numShards shardID key value m n k := by
  refine ⟨h.ordered.step hkey hok.1 hstep, h.only.step h.ordered.sound ?_ hstep,
    h.watched.step h.ordered.sound h.only.length hstep⟩
  rintro client op x rfl hwrite
  refine absurd ?_ hok.2
  change op.write.map Prod.fst = some key
  rw [hwrite]
  rfl

/-- The `Put` is called while no other write of the key is under way. -/
theorem writing_called {client : Nat} (h : s.Ordered numShards shardID key)
    (hquiet : s.Quiet key) (hkey : shardIDOf key numShards = shardID)
    (hstep : s.step (.call client (.put key value)) = some s') :
    s'.Writing numShards shardID key value s.nextCall s.world.data.history.length
      s.world.data.nextID := by
  have hok : s.FromPrimary shardID key (.call client (.put key value)) := trivial
  have hordered := h.step hkey hok hstep
  cases hstep
  refine ⟨hordered, ⟨?_, ?_, ?_, Nat.le_refl _, ?_⟩, ⟨Nat.le_refl _, ?_, ?_, ?_⟩⟩
  · refine Every.insert ?_ ?_
    · intro id call hcall x hwrite
      refine absurd ?_ (hquiet.call id call hcall)
      rw [hwrite]
      rfl
    · rintro x ⟨⟩
      rfl
  · exact fun x hx hxkey ↦ absurd hxkey (hquiet.stray x hx)
  · exact fun id handler hid hhandler ↦ absurd hhandler (hquiet.handler id handler hid)
  · intro e he
    change e ∈ s.world.data.history.drop s.world.data.history.length at he
    rw [List.drop_length] at he
    cases he
  · intro e he
    exact h.sound.recorded.lt e (List.mem_of_mem_take he)
  · refine Every.insert ?_ ?_
    · exact fun id call hcall hid ↦ absurd (h.sound.lt id call hcall) (Nat.not_lt.mpr hid)
    · rintro - k' req ⟨⟩
  · intro id op x hid hmem
    rcases List.mem_append.mp hmem with hmem | hmem
    · exact absurd (h.sound.logged _ hmem) (Nat.not_lt.mpr hid)
    · cases List.mem_singleton.mp hmem

/-- The invariant from the call of `Get` on. -/
structure Reading (numShards shardID : Nat) (key value : String) (m n k m' : Nat)
    (s : ClientWorld) : Prop where
  writing : s.Writing numShards shardID key value m n k
  acknowledged : s.Acknowledged key n
  answers : s.Answers key value m'

theorem Reading.step {m' : Nat} (h : s.Reading numShards shardID key value m n k m')
    (hkey : shardIDOf key numShards = shardID) (hplain : ∀ b ∈ utf8 key, Plain b)
    (hvalue : value ≠ "")
    (hok : s.NoWrite shardID key a) (hstep : s.step a = some s') :
    s'.Reading numShards shardID key value m n k m' :=
  ⟨h.writing.step hkey hok hstep, h.acknowledged.step h.writing.only.length hstep,
    h.answers.step h.writing.ordered.sound h.writing.ordered.fresh h.writing.only h.acknowledged
      hplain hvalue hok.1 hstep⟩

/-- No call from now on has been answered yet. -/
theorem Sound.answers (h : s.Sound) : s.Answers key value s.nextCall :=
  ⟨fun id call hcall hid ↦ absurd (h.lt id call hcall) (Nat.not_lt.mpr hid),
    fun _ _ hid hmem ↦ absurd (h.logged _ hmem) (Nat.not_lt.mpr hid)⟩

end ClientWorld

open ClientWorld

/-- In a run in order, in which every `Get` of the key is answered by the controller's primary, a
`Get` that is called after a `Put` has returned `nil` returns the value or fails, but not with
`key not found`, if no other write of the key is under way when the `Put` is called or called
later. -/
theorem get_after_put {numShards duration client client' : Nat}
    {nodeID : String → String} {key value : String} {s₀ s₁ s₂ s₃ s₄ : ClientWorld}
    {result : Result}
    (halphanumeric : key.toList.all Char.isAlphanum = true) (hvalue : value ≠ "")
    (hrun : Reaches step (FromPrimary (shardIDOf key numShards) key)
      (.start numShards duration nodeID) s₀)
    (hquiet : s₀.Quiet key)
    (hput : s₀.step (.call client (.put key value)) = some s₁)
    (hwriting : Reaches step (NoWrite (shardIDOf key numShards) key) s₁ s₂)
    (hreturned : .returned s₀.nextCall (.put key value) .nil ∈ s₂.log)
    (hget : s₂.step (.call client' (.get key)) = some s₃)
    (hreading : Reaches step (NoWrite (shardIDOf key numShards) key) s₃ s₄)
    (hresult : .returned s₂.nextCall (.get key) result ∈ s₄.log) :
    result = .value value ∨ ∃ e, result = .error e ∧ ∀ key', e ≠ .keyNotFound key' := by
  have hplain := plain_of_alphanumeric halphanumeric
  have hordered : s₀.Ordered numShards (shardIDOf key numShards) key :=
    Reaches.invariant (Ordered numShards (shardIDOf key numShards) key)
      ⟨sound_start, fresh_start⟩ (fun _ _ _ _ h hok hstep ↦ h.step rfl hok hstep) hrun
  have hwritten : s₂.Writing numShards (shardIDOf key numShards) key value s₀.nextCall
      s₀.world.data.history.length s₀.world.data.nextID :=
    Reaches.invariant _ (writing_called hordered hquiet rfl hput)
      (fun _ _ _ _ h hok hstep ↦ h.step rfl hok hstep) hwriting
  have hack := hwritten.watched.returned _ _ (some value) (Nat.le_refl _) hreturned rfl
  have hbegun : s₂.Reading numShards (shardIDOf key numShards) key value s₀.nextCall
      s₀.world.data.history.length s₀.world.data.nextID s₂.nextCall :=
    ⟨hwritten, hack, hwritten.ordered.sound.answers⟩
  have hread : s₄.Reading numShards (shardIDOf key numShards) key value s₀.nextCall
      s₀.world.data.history.length s₀.world.data.nextID s₂.nextCall := by
    have hok : s₂.NoWrite (shardIDOf key numShards) key (.call client' (.get key)) :=
      ⟨trivial, fun hwrites ↦ by cases hwrites⟩
    refine Reaches.invariant _ (hbegun.step rfl hplain hvalue hok hget)
      (fun _ _ _ _ h hok hstep ↦ ?_) hreading
    exact h.step rfl hplain hvalue hok hstep
  exact hread.answers.result _ result (Nat.le_refl _) hresult

/-- A client fetches the topology. -/
def ClientWorld.sampleTopology (client id : Nat) : List ClientAction :=
  [.call client .fetchTopology, .topologyHandled id, .updateTopology id]

/-- A `Put` of the key `k` that has been called, at a primary without replicas. -/
def ClientWorld.sampleWrite (id request : Nat) : List ClientAction :=
  [.route id, .arrive id 1, .world (.data (.checkShard request)), .world (.data (.route request)),
    .world (.data (.finish request)), .receive id]

/-- A `Get` that has been called. -/
def ClientWorld.sampleRead (id : Nat) : List ClientAction := [.route id, .serve id 1, .receive id]

/-- One client puts, and another one gets. -/
theorem get_after_put_twoClients :
    ∃ s₀ s₁ s₂ s₃ s₄ : ClientWorld,
      Reaches step (FromPrimary (shardIDOf "k" 10) "k") (.start 10 40 id) s₀ ∧
      s₀.step (.call 0 (.put "k" "v")) = some s₁ ∧
      Reaches step (NoWrite (shardIDOf "k" 10) "k") s₁ s₂ ∧
      s₂.step (.call 1 (.get "k")) = some s₃ ∧
      Reaches step (NoWrite (shardIDOf "k" 10) "k") s₃ s₄ ∧
      ∃ result, .returned s₂.nextCall (.get "k") result ∈ s₄.log ∧
        (result = .value "v" ∨ ∃ e, result = .error e ∧ ∀ key', e ≠ .keyNotFound key') := by
  obtain ⟨s₀, hrun, hquiet, hput⟩ :
      ∃ s₀, Reaches step (FromPrimary (shardIDOf "k" 10) "k") (.start 10 40 id) s₀ ∧
        s₀.Quiet "k" ∧ (s₀.step (.call 0 (.put "k" "v"))).any (fun s₁ ↦
          (exec step (NoWrite (shardIDOf "k" 10) "k") s₁ (sampleWrite 2 0)).any (fun s₂ ↦
            .returned s₀.nextCall (.put "k" "v") .nil ∈ s₂.log ∧
            (s₂.step (.call 1 (.get "k"))).any (fun s₃ ↦
              (exec step (NoWrite (shardIDOf "k" 10) "k") s₃ (sampleRead 3)).any (fun s₄ ↦
                .returned s₂.nextCall (.get "k") (.value "v") ∈ s₄.log)) = true)) = true :=
    exists_reaches_of_exec ((World.sampleNodes ++ World.sampleRenewal "a").map .world ++
      sampleTopology 0 0 ++ sampleTopology 1 1) (by decide +kernel)
  obtain ⟨s₁, hput, hwriting⟩ := (Option.any_eq_true _ _).mp hput
  obtain ⟨s₂, hwriting, hreturned, hget⟩ := exists_reaches_of_exec _ hwriting
  obtain ⟨s₃, hget, hreading⟩ := (Option.any_eq_true _ _).mp hget
  obtain ⟨s₄, hreading, hresult⟩ := exists_reaches_of_exec _ hreading
  exact ⟨s₀, s₁, s₂, s₃, s₄, hrun, hput, hwriting, hget, hreading, _, hresult,
    get_after_put (by decide) (by decide) hrun hquiet hput hwriting hreturned hget
      hreading hresult⟩

/-- The whole move of shard 0 to `b`, which then fetches the topology. -/
def sampleMoved : List WorldAction :=
  sampleMove ++ [.pullImport 0 true, .controller (.cutOver 0)] ++ World.sampleRenewal "b"

/-- Shard 0 is moved from `a` to `b`; a client with the old topology then reads from `a` what was
put before the move, although another client has put a new value. -/
theorem get_after_put_stale :
    ∃ s : ClientWorld, Reachable step (.start 10 40 id) s ∧ s.world.controller.tasks = [] ∧
      s.log =
        [.called 0 .fetchTopology, .returned 0 .fetchTopology .nil,
          .called 1 (.put "k" "u"), .returned 1 (.put "k" "u") .nil,
          .called 2 .fetchTopology, .returned 2 .fetchTopology .nil,
          .called 3 (.put "k" "v"), .returned 3 (.put "k" "v") .nil,
          .called 4 (.get "k"), .returned 4 (.get "k") (.value "u")] :=
  exists_reaches_of_exec
    ((World.sampleNodes ++ World.sampleRenewal "a").map .world ++ sampleTopology 0 0 ++
      .call 0 (.put "k" "u") :: sampleWrite 1 0 ++ sampleMoved.map .world ++ sampleTopology 1 2 ++
      .call 1 (.put "k" "v") :: sampleWrite 3 1 ++ .call 0 (.get "k") :: sampleRead 4)
    (by decide +kernel)

end DistributedCache
