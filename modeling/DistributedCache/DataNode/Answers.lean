import DistributedCache.DataNode.Writes

/-!
# Requests and their answers

A request gets a number when it reaches its node, and its answer is found under that number in the
history.
-/

namespace DistributedCache

open FiniteMap Transition

namespace DataPlane

/-- The answer to a request. -/
def replyOf (s : DataPlane) (id : Nat) : Option Reply :=
  s.history.findSome? fun e ↦ if e.id = id then e.reply else none

theorem exists_of_replyOf {s : DataPlane} {id : Nat} {reply : Reply}
    (h : s.replyOf id = some reply) : ∃ w, .ended id w reply ∈ s.history := by
  obtain ⟨e, hmem, he⟩ := List.exists_of_findSome?_eq_some h
  obtain ⟨rfl, hreply⟩ := Option.ite_none_right_eq_some.mp he
  cases e with
  | begun id' w => cases hreply
  | ended id' w reply' =>
    cases hreply
    exact ⟨w, hmem⟩

/-- Events have numbers that are not given out any more, and only `written` has the status 200. -/
structure Recorded (s : DataPlane) : Prop where
  lt : ∀ e ∈ s.history, e.id < s.nextID
  reply : ∀ e ∈ s.history, ∀ reply, e.reply = some reply → reply.status = .ok →
    reply = DataNode.written

/-- Everything under the number is about the request. -/
structure Names (s : DataPlane) (id : Nat) (req : DataRequest) : Prop where
  lt : id < s.nextID
  handler : ∀ h, s.handlers.lookup id = some h → h.write.request = req
  event : ∀ e ∈ s.history, e.id = id → e.write.request = req

variable {s s' : DataPlane} {a : WriteAction} {id : Nat} {req : DataRequest}

theorem recorded_start (nodes : String → DataNode) : (start nodes).Recorded :=
  ⟨fun e he ↦ (by cases he), fun e he ↦ (by cases he)⟩

theorem Recorded.step (h : s.Recorded) (hnumbered : s.Numbered) (hstep : s.step a = some s') :
    s'.Recorded := by
  obtain ⟨events, hevents, hadds⟩ := history_step hstep
  refine ⟨fun e he ↦ ?_, fun e he ↦ ?_⟩
  · rw [hevents] at he
    rcases List.mem_append.mp he with he | he
    · exact Nat.lt_of_lt_of_le (h.lt e he) (nextID_le_step hstep)
    · rcases (hadds e he).source with ⟨handler, hid, -⟩ | ⟨hid, address, now, req, rfl, -⟩
      · exact Nat.lt_of_lt_of_le (hnumbered _ handler hid) (nextID_le_step hstep)
      · rw [hid, nextID_request hstep]
        exact Nat.lt_succ_self _
  · rw [hevents] at he
    rcases List.mem_append.mp he with he | he
    · exact h.reply e he
    · exact (hadds e he).reply

/-- What a number stands for never changes. -/
theorem Names.step (h : s.Names id req) (hstep : s.step a = some s') : s'.Names id req := by
  refine ⟨Nat.lt_of_lt_of_le h.lt (nextID_le_step hstep), ?_, ?_⟩
  · intro handler' hid
    rcases handler_step hstep hid with ⟨handler, hold, heq⟩ | ⟨hnew, -⟩
    · rw [← heq]
      exact h.handler handler hold
    · exact absurd hnew (Nat.ne_of_lt h.lt)
  · intro e he hid
    obtain ⟨events, hevents, hadds⟩ := history_step hstep
    rw [hevents] at he
    rcases List.mem_append.mp he with he | he
    · exact h.event e he hid
    · rcases (hadds e he).source with ⟨handler, hold, heq⟩ | ⟨hnew, -⟩
      · rw [hid] at hold
        rw [← heq]
        exact h.handler handler hold
      · exact absurd (hid.symm.trans hnew) (Nat.ne_of_lt h.lt)

/-- A request that reaches its node gets a number of its own. -/
theorem names_request {address : String} {now : Nat} (hnumbered : s.Numbered)
    (hrecorded : s.Recorded) (hstep : s.step (.request address now req) = some s') :
    s'.Names s.nextID req := by
  refine ⟨?_, ?_, ?_⟩
  · rw [nextID_request hstep]
    exact Nat.lt_succ_self _
  · intro handler' hid
    rcases handler_step hstep hid with ⟨handler, hold, -⟩ | ⟨-, address', now', req', ha, heq⟩
    · rw [hnumbered.lookup_nextID] at hold
      cases hold
    · cases ha
      rw [heq]
  · intro e he hid
    obtain ⟨events, hevents, hadds⟩ := history_step hstep
    rw [hevents] at he
    rcases List.mem_append.mp he with he | he
    · exact absurd hid (Nat.ne_of_lt (hrecorded.lt e he))
    · rcases (hadds e he).source with ⟨handler, hold, -⟩ | ⟨-, address', now', req', ha, heq⟩
      · rw [hid, hnumbered.lookup_nextID] at hold
        cases hold
      · cases ha
        rw [heq]

end DataPlane

end DistributedCache
