import DistributedCache.Client.SmartClient

/-!
# Calls and what they have written

Every request that reaches a data node was sent by a call, and a call that returns `nil` has been
acknowledged by a data node.
-/

namespace DistributedCache

open FiniteMap Transition

/-- The request that a call has sent. -/
def CallStage.request : CallStage → Option DataRequest
  | .sent _ req => some req
  | .handling _ req => some req
  | _ => none

namespace ClientWorld

/-! ## Requests of clients -/

variable {s s' : ClientWorld} {a : ClientAction} {key value : String}
variable {m n k : Nat}

/-- The request is under way to a node. -/
def Sends (s : ClientWorld) (address : String) (req : DataRequest) : Prop :=
  (∃ id call, s.calls.lookup id = some call ∧ call.stage = .sent address req) ∨
    (address, req) ∈ s.strays

/-- What a step does to the data nodes; every request has been under way. -/
theorem data_step (hstep : s.step a = some s') :
    (∃ b, s.world.data.step b = some s'.world.data ∧
      ∀ address now req, b = .request address now req → s.Sends address req) ∨
    ∃ nodes, s'.world.data = { s.world.data with nodes := nodes } := by
  have hrequest : ∀ {address : String} {now : Nat} {req : DataRequest} {w : World},
      s.Sends address req → s.world.step (.data (.request address now req)) = some w →
      ∃ b, s.world.data.step b = some w.data ∧
        ∀ address now req, b = .request address now req → s.Sends address req := by
    intro address now req w hsends hw
    obtain ⟨data, hdata, rfl⟩ := Option.map_eq_some_iff.mp hw
    refine ⟨_, hdata, ?_⟩
    rintro _ _ _ ⟨⟩
    exact hsends
  cases step_cases hstep with
  | world hnone hw =>
    rcases World.data_step hw with ⟨b, rfl, hdata⟩ | hnodes
    · refine Or.inl ⟨b, hdata, ?_⟩
      rintro address now req rfl
      cases hnone
    · exact Or.inr hnodes
  | arrived hcall hstage hw => exact Or.inl (hrequest (Or.inl ⟨_, _, hcall, hstage⟩) hw)
  | strayed hk hw => exact Or.inl (hrequest (Or.inr (List.mem_of_getElem? hk)) hw)
  | called | wentOn | sent | served | answered | gaveUp | ended => exact Or.inr ⟨_, rfl⟩

/-- The events of the data nodes are kept. -/
theorem history_prefix_step (hstep : s.step a = some s') :
    ∃ events, s'.world.data.history = s.world.data.history ++ events := by
  rcases data_step hstep with ⟨b, hdata, -⟩ | ⟨nodes, hnodes⟩
  · obtain ⟨events, hevents, -⟩ := DataPlane.history_step hdata
    exact ⟨events, hevents⟩
  · exact ⟨[], by rw [hnodes, List.append_nil]⟩

/-- What is known about a call. -/
structure CallSound (data : DataPlane) (call : Call) : Prop where
  request : ∀ req, call.stage.request = some req → call.op.write = some (req.key, req.effect)
  names : ∀ id req, call.stage = .handling id req → data.Names id req
  read : ∀ reply, call.stage = .read reply → call.op.write = none

structure Sound (s : ClientWorld) : Prop where
  numbered : s.world.data.Numbered
  recorded : s.world.data.Recorded
  lt : Every (fun id _ ↦ id < s.nextCall) s.calls
  logged : ∀ e ∈ s.log, e.id < s.nextCall
  call : Every (fun _ call ↦ CallSound s.world.data call) s.calls

theorem sound_start {numShards duration : Nat} {nodeID : String → String} :
    (start numShards duration nodeID).Sound := by
  refine ⟨DataPlane.numbered_start _, DataPlane.recorded_start _, ?_, fun e he ↦ (by cases he), ?_⟩
  · intro id call hcall
    rw [start, Finmap.lookup_empty] at hcall
    cases hcall
  · intro id call hcall
    rw [start, Finmap.lookup_empty] at hcall
    cases hcall

/-- A stage in which nothing is under way says nothing. -/
theorem callSound_of_isQuiet {data : DataPlane} {call : Call} (h : call.stage.isQuiet = true) :
    CallSound data call := by
  obtain ⟨client, op, attempt, stage⟩ := call
  refine ⟨?_, ?_, ?_⟩
  · intro req hreq
    cases stage with
    | sent | handling => cases h
    | _ => cases hreq
  · rintro id req rfl
    cases h
  · rintro reply rfl
    cases h

theorem isQuiet_firstStage (op : Op) : op.firstStage.isQuiet = true := by
  cases op <;> rfl

/-- The numbers of calls and events. -/
theorem Sound.numbers_step (h : s.Sound) (hstep : s.step a = some s') :
    Every (fun id _ ↦ id < s'.nextCall) s'.calls ∧ ∀ e ∈ s'.log, e.id < s'.nextCall := by
  have hmem : ∀ {id : Nat} {call : Call}, s.calls.lookup id = some call → id < s.nextCall :=
    fun hcall ↦ h.lt _ _ hcall
  have hreturned : ∀ {id : Nat} {op : Op} {result : Result}, id < s.nextCall →
      ∀ e ∈ s.log ++ [.returned id op result], e.id < s.nextCall := by
    intro id op result hid e he
    rcases List.mem_append.mp he with he | he
    · exact h.logged e he
    · rw [List.mem_singleton.mp he]
      exact hid
  cases step_cases hstep with
  | world | strayed => exact ⟨h.lt, h.logged⟩
  | wentOn hcall | sent hcall | arrived hcall | served hcall | gaveUp hcall =>
    exact ⟨h.lt.insert (hmem hcall), h.logged⟩
  | answered hcall | ended hcall => exact ⟨h.lt.erase _, hreturned (hmem hcall)⟩
  | called client op =>
    refine ⟨(h.lt.mono fun _ _ hlt ↦ Nat.lt_succ_of_lt hlt).insert (Nat.lt_succ_self _), ?_⟩
    intro e he
    rcases List.mem_append.mp he with he | he
    · exact Nat.lt_succ_of_lt (h.logged e he)
    · rw [List.mem_singleton.mp he]
      exact Nat.lt_succ_self _

theorem Sound.step (h : s.Sound) (hstep : s.step a = some s') : s'.Sound := by
  have hdata : s'.world.data.Numbered ∧ s'.world.data.Recorded ∧
      ∀ id req, s.world.data.Names id req → s'.world.data.Names id req := by
    rcases data_step hstep with ⟨b, hb, -⟩ | ⟨nodes, hnodes⟩
    · exact ⟨h.numbered.step hb, h.recorded.step h.numbered hb, fun _ _ hname ↦ hname.step hb⟩
    · rw [hnodes]
      exact ⟨h.numbered, ⟨h.recorded.lt, h.recorded.reply⟩,
        fun _ _ hname ↦ ⟨hname.lt, hname.handler, hname.event⟩⟩
  obtain ⟨hnumbered, hrecorded, hnames⟩ := hdata
  obtain ⟨hlt, hlogged⟩ := h.numbers_step hstep
  refine ⟨hnumbered, hrecorded, hlt, hlogged, ?_⟩
  have hold : Every (fun _ call ↦ CallSound s'.world.data call) s.calls :=
    h.call.mono fun _ call hsound ↦
      ⟨hsound.request, fun id req hstage ↦ hnames id req (hsound.names id req hstage),
        hsound.read⟩
  cases step_cases hstep with
  | world | strayed => exact hold
  | called client op => exact hold.insert (callSound_of_isQuiet (isQuiet_firstStage op))
  | wentOn hcall hstage => exact hold.insert (callSound_of_isQuiet hstage)
  | gaveUp => exact hold.insert (callSound_of_isQuiet rfl)
  | served hcall hop =>
    refine hold.insert ⟨fun req hreq ↦ (by cases hreq), fun id req hstage ↦ (by cases hstage), ?_⟩
    intro reply hstage
    rw [hop]
    rfl
  | answered | ended => exact hold.erase _
  | sent hcall hreq =>
    refine hold.insert ⟨?_, fun id req hstage ↦ (by cases hstage),
      fun reply hstage ↦ (by cases hstage)⟩
    rintro _ ⟨⟩
    exact Op.write_of_request hreq
  | arrived hcall hstage hw =>
    obtain ⟨data, hdata, rfl⟩ := Option.map_eq_some_iff.mp hw
    refine hold.insert ⟨?_, ?_, fun reply hstage ↦ (by cases hstage)⟩
    · rintro _ ⟨⟩
      exact (h.call _ _ hcall).request _ (by rw [hstage]; rfl)
    · rintro _ _ ⟨⟩
      exact DataPlane.names_request h.numbered h.recorded hdata

/-! ## One value -/

/-- After the first `n` events nothing but the value is written to the key. -/
structure OnlyWrites (key value : String) (n : Nat) (s : ClientWorld) : Prop where
  call : Every (fun _ call ↦ ∀ x, call.op.write = some (key, x) → x = some value) s.calls
  stray : ∀ x ∈ s.strays, x.2.key = key → x.2.effect = some value
  handler : Every (fun _ h ↦ h.write.key = key → h.write.effect = some value)
    s.world.data.handlers
  length : n ≤ s.world.data.history.length
  event : ∀ e ∈ s.world.data.history.drop n, e.write.key = key → e.write.effect = some value

/-- What is under way to a node. -/
theorem OnlyWrites.sends (h : s.OnlyWrites key value n) (hsound : s.Sound) {address : String}
    {req : DataRequest} (hsends : s.Sends address req) (hkey : req.key = key) :
    req.effect = some value := by
  rcases hsends with ⟨id, call, hcall, hstage⟩ | hstray
  · have hwrite := (hsound.call id call hcall).request req (by rw [hstage]; rfl)
    rw [hkey] at hwrite
    exact h.call id call hcall _ hwrite
  · exact h.stray _ hstray hkey

theorem OnlyWrites.calls_step (h : s.OnlyWrites key value n)
    (hwrites : ∀ client op x, a = .call client op → op.write = some (key, x) → x = some value)
    (hstep : s.step a = some s') :
    Every (fun _ call ↦ ∀ x, call.op.write = some (key, x) → x = some value) s'.calls := by
  have hold : ∀ {id : Nat} {call : Call}, s.calls.lookup id = some call →
      ∀ x, call.op.write = some (key, x) → x = some value := fun hcall ↦ h.call _ _ hcall
  cases step_cases hstep with
  | world | strayed => exact h.call
  | called client op => exact h.call.insert fun x ↦ hwrites client op x rfl
  | wentOn hcall | sent hcall | arrived hcall | served hcall | gaveUp hcall =>
    exact h.call.insert fun x hx ↦ hold hcall x hx
  | answered | ended => exact h.call.erase _

theorem OnlyWrites.strays_step (h : s.OnlyWrites key value n) (hsound : s.Sound)
    (hstep : s.step a = some s') :
    ∀ x ∈ s'.strays, x.2.key = key → x.2.effect = some value := by
  cases step_cases hstep with
  | @gaveUp id call hcall =>
    rintro ⟨address, req⟩ hmem hkey
    rcases List.mem_append.mp hmem with hmem | hmem
    · exact h.stray _ hmem hkey
    · have hsent : call.stage = .sent address req := by
        unfold CallStage.underWay at hmem
        split at hmem
        · rename_i hstage
          cases List.mem_singleton.mp hmem
          exact hstage
        · cases hmem
      have hsends : s.Sends address req := Or.inl ⟨id, call, hcall, hsent⟩
      exact h.sends hsound hsends hkey
  | strayed => exact fun x hmem ↦ h.stray x (List.mem_of_mem_eraseIdx hmem)
  | world | called | wentOn | sent | arrived | served | answered | ended => exact h.stray

theorem OnlyWrites.step (h : s.OnlyWrites key value n) (hsound : s.Sound)
    (hwrites : ∀ client op x, a = .call client op → op.write = some (key, x) → x = some value)
    (hstep : s.step a = some s') : s'.OnlyWrites key value n := by
  have hcall := h.calls_step hwrites hstep
  have hstray := h.strays_step hsound hstep
  rcases data_step hstep with ⟨b, hdata, hrequest⟩ | ⟨nodes, hnodes⟩
  · obtain ⟨events, hevents, hadds⟩ := DataPlane.history_step hdata
    refine ⟨hcall, hstray, ?_, ?_, ?_⟩
    · refine DataPlane.writes_step (P := fun w ↦ w.key = key → w.effect = some value) h.handler
        hdata ?_
      intro address now req hb hkey
      exact h.sends hsound (hrequest address now req hb) hkey
    · rw [hevents, List.length_append]
      exact Nat.le_add_right_of_le h.length
    · intro e he hkey
      rw [hevents, List.drop_append_of_le_length h.length] at he
      rcases List.mem_append.mp he with he | he
      · exact h.event e he hkey
      · rcases (hadds e he).source with ⟨handler, hid, heq⟩ | ⟨-, address, now, req, hb, heq⟩
        · rw [← heq] at hkey ⊢
          exact h.handler _ handler hid hkey
        · rw [heq] at hkey ⊢
          exact h.sends hsound (hrequest address now req hb) hkey
  · refine ⟨hcall, hstray, ?_, ?_, ?_⟩ <;> rw [hnodes]
    · exact h.handler
    · exact h.length
    · exact h.event

/-! ## Acknowledged writes -/

/-- A write of the key was acknowledged after the first `n` events. -/
def Acknowledged (key : String) (n : Nat) (s : ClientWorld) : Prop :=
  ∃ id write, .ended id write DataNode.written ∈ s.world.data.history.drop n ∧ write.key = key

/-- Calls from `m` on send requests with numbers from `k` on, whose events come after the first
`n`; one that returns `nil` has been acknowledged. -/
structure Watched (key : String) (m n k : Nat) (s : ClientWorld) : Prop where
  next : k ≤ s.world.data.nextID
  older : ∀ e ∈ s.world.data.history.take n, e.id < k
  late : Every (fun id call ↦ m ≤ id → ∀ k' req, call.stage = .handling k' req → k ≤ k') s.calls
  returned : ∀ id op x, m ≤ id → .returned id op .nil ∈ s.log → op.write = some (key, x) →
    s.Acknowledged key n

theorem Acknowledged.step (h : s.Acknowledged key n) (hlength : n ≤ s.world.data.history.length)
    (hstep : s.step a = some s') : s'.Acknowledged key n := by
  obtain ⟨id, write, hmem, hkey⟩ := h
  obtain ⟨events, hevents⟩ := history_prefix_step hstep
  refine ⟨id, write, ?_, hkey⟩
  rw [hevents, List.drop_append_of_le_length hlength]
  exact List.mem_append_left _ hmem

theorem Watched.late_step (h : s.Watched key m n k) (hstep : s.step a = some s') :
    Every (fun id call ↦ m ≤ id → ∀ k' req, call.stage = .handling k' req → k ≤ k') s'.calls := by
  have hquiet : ∀ {stage : CallStage}, stage.isQuiet = true → ∀ k' req,
      stage = .handling k' req → k ≤ k' := by
    rintro stage hnone k' req rfl
    cases hnone
  cases step_cases hstep with
  | world | strayed => exact h.late
  | answered | ended => exact h.late.erase _
  | called client op => exact h.late.insert fun _ ↦ hquiet (isQuiet_firstStage op)
  | wentOn hcall hstage => exact h.late.insert fun _ ↦ hquiet hstage
  | gaveUp => exact h.late.insert fun _ ↦ hquiet rfl
  | served | sent =>
    refine h.late.insert ?_
    rintro - k' req ⟨⟩
  | arrived =>
    refine h.late.insert ?_
    rintro - k' req ⟨⟩
    exact h.next

/-- A write returns `nil` only for the status 200. -/
theorem status_of_verdict {op : Op} {reply : Reply} {x : Option String}
    (hwrite : op.write = some (key, x)) (h : op.verdict reply = .done .nil) :
    reply.status = .ok := by
  obtain ⟨status, body⟩ := reply
  cases op with
  | put | delete => cases status <;> first | rfl | cases h
  | get | fetchTopology => cases hwrite

/-- The answer that ends a write is in the history. -/
theorem Watched.acknowledged (h : s.Watched key m n k) (hsound : s.Sound) {id : Nat} {call : Call}
    {reply : Reply} {x : Option String} (hid : m ≤ id) (hcall : s.calls.lookup id = some call)
    (hreply : s.replyTo call.stage = some reply) (hwrite : call.op.write = some (key, x))
    (hstatus : reply.status = .ok) :
    s.Acknowledged key n := by
  unfold replyTo at hreply
  split at hreply
  · rename_i k' req hstage
    obtain ⟨write, hmem⟩ := DataPlane.exists_of_replyOf hreply
    have hwritten := hsound.recorded.reply _ hmem reply rfl hstatus
    have hlate := h.late id call hcall hid k' req hstage
    have hrequest := ((hsound.call id call hcall).names k' req hstage).event _ hmem rfl
    refine ⟨k', write, ?_, ?_⟩
    · rw [← hwritten]
      -- the event has too high a number for one of the first
      rw [← List.take_append_drop n s.world.data.history] at hmem
      rcases List.mem_append.mp hmem with hmem | hmem
      · exact absurd (h.older _ hmem) (Nat.not_lt.mpr hlate)
      · exact hmem
    · have hop := (hsound.call id call hcall).request req (by rw [hstage]; rfl)
      rw [hwrite] at hop
      cases hop
      change write.request.key = _
      rw [show write.request = req from hrequest]
  · rename_i hstage
    rw [(hsound.call id call hcall).read _ hstage] at hwrite
    cases hwrite
  · cases hreply

theorem Watched.step (h : s.Watched key m n k) (hsound : s.Sound)
    (hlength : n ≤ s.world.data.history.length)
    (hstep : s.step a = some s') : s'.Watched key m n k := by
  have hold : s.Acknowledged key n → s'.Acknowledged key n := fun hack ↦ hack.step hlength hstep
  refine ⟨?_, ?_, h.late_step hstep, ?_⟩
  · rcases data_step hstep with ⟨b, hdata, -⟩ | ⟨nodes, hnodes⟩
    · exact Nat.le_trans h.next (DataPlane.nextID_le_step hdata)
    · rw [hnodes]
      exact h.next
  · obtain ⟨events, hevents⟩ := history_prefix_step hstep
    rw [hevents, List.take_append_of_le_length hlength]
    exact h.older
  · intro id op x hid hmem hwrite
    cases step_cases hstep with
    | world | strayed | wentOn | sent | arrived | served | gaveUp =>
      exact hold (h.returned id op x hid hmem hwrite)
    | called =>
      rcases List.mem_append.mp hmem with hmem | hmem
      · exact hold (h.returned id op x hid hmem hwrite)
      · cases List.mem_singleton.mp hmem
    | answered hcall hreply hverdict =>
      rcases List.mem_append.mp hmem with hmem | hmem
      · exact hold (h.returned id op x hid hmem hwrite)
      · cases List.mem_singleton.mp hmem
        exact hold (h.acknowledged hsound hid hcall hreply hwrite
          (status_of_verdict hwrite hverdict))
    | ended hcall hresult =>
      rcases List.mem_append.mp hmem with hmem | hmem
      · exact hold (h.returned id op x hid hmem hwrite)
      · cases List.mem_singleton.mp hmem
        rcases hresult with hop | hresult
        · rw [hop] at hwrite
          cases hwrite
        · cases hresult

end ClientWorld

end DistributedCache
