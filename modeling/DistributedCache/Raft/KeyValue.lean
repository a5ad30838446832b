import DistributedCache.Raft.Delivery

/-!
# Applications that store values under keys

What an application holds under a key is left open: `view` says it.  After some messages it is what
the last write to the key has left there.
-/

namespace DistributedCache

variable {σ : Type} {app : Application σ} {view : σ → Int → Option Int}

def Message.isWrite (m : Message) : Bool := m.msgType = .put ∨ m.msgType = .delete

/-- What a write leaves under its key. -/
def Message.effect (m : Message) : Option Int := if m.msgType = .put then m.value else none

/-- `AppendMessage` stores on `PUT` and removes on `DELETE`. -/
structure Application.StoresWrites (app : Application σ) (view : σ → Int → Option Int) :
    Prop where
  put : ∀ s m, m.msgType = .put →
    view (app.appendMessage s m).1 = Function.update (view s) m.key m.value
  delete : ∀ s m, m.msgType = .delete →
    view (app.appendMessage s m).1 = Function.update (view s) m.key none

theorem Application.StoresWrites.write (h : app.StoresWrites view) (s : σ) {m : Message}
    (hwrite : m.isWrite = true) :
    view (app.appendMessage s m).1 = Function.update (view s) m.key m.effect := by
  rcases of_decide_eq_true hwrite with hput | hdelete
  · rw [h.put s m hput, Message.effect, if_pos hput]
  · rw [h.delete s m hdelete, Message.effect, if_neg (by rw [hdelete]; decide)]

/-- The last of the messages that writes to the key. -/
def lastWrite (ms : List Message) (key : Int) : Option Message :=
  (ms.filter fun m ↦ m.isWrite ∧ m.key = key).getLast?

theorem lastWrite_concat (ms : List Message) (m : Message) (key : Int) :
    lastWrite (ms ++ [m]) key =
      if m.isWrite = true ∧ m.key = key then some m else lastWrite ms key := by
  unfold lastWrite
  rw [List.filter_append]
  split
  · rename_i hm
    rw [List.filter_singleton, decide_eq_true hm, cond_true, List.getLast?_concat]
  · rename_i hm
    rw [List.filter_singleton, decide_eq_false hm, cond_false, List.append_nil]

/-- From any write to the key on, there is a last one. -/
theorem exists_lastWrite {ms : List Message} {p : Nat} {m : Message} {key : Int}
    (hp : ms[p]? = some m) (hwrite : m.isWrite = true) (hkey : m.key = key) :
    ∃ q w, p ≤ q ∧ ms[q]? = some w ∧ lastWrite ms key = some w := by
  induction ms using List.reverseRecOn with
  | nil => cases hp
  | append_singleton ms x ih =>
    have hlt := (List.getElem?_eq_some_iff.mp hp).1
    rw [List.length_append, List.length_singleton] at hlt
    rw [lastWrite_concat]
    by_cases hx : x.isWrite = true ∧ x.key = key
    · exact ⟨ms.length, x, by omega, List.getElem?_concat_length, if_pos hx⟩
    · have hne : p ≠ ms.length := by
        rintro rfl
        rw [List.getElem?_concat_length] at hp
        cases hp
        exact hx ⟨hwrite, hkey⟩
      rw [List.getElem?_append_left (by omega)] at hp
      obtain ⟨q, w, hle, hq, hlast⟩ := ih hp
      refine ⟨q, w, hle, ?_, by rw [if_neg hx, hlast]⟩
      rw [List.getElem?_append_left (List.getElem?_eq_some_iff.mp hq).1, hq]

theorem view_applied (h : app.StoresWrites view) (s : σ) {ms : List Message} (key : Int)
    (hother : ∀ m ∈ ms, m.isWrite = false → ∀ t, view (app.appendMessage t m).1 = view t) :
    view (app.applied s ms) key =
      match lastWrite ms key with
      | none => view s key
      | some m => m.effect := by
  -- the last message decides, or it leaves the key to those before it
  induction ms using List.reverseRecOn with
  | nil => rfl
  | append_singleton ms m ih =>
    have ih := ih fun x hx ↦ hother x (List.mem_append_left _ hx)
    rw [Application.applied_append, lastWrite_concat]
    change view (app.appendMessage (app.applied s ms) m).1 key = _
    cases hm : m.isWrite with
    | false =>
      rw [hother m (by simp) hm, ih]
      simp
    | true =>
      rw [h.write _ hm]
      by_cases hkey : m.key = key
      · subst hkey
        simp
      · rw [Function.update_of_ne (Ne.symm hkey), ih]
        simp [hkey]

/-- `GetValue` answers with what the application holds under the key, as `value` turns it into a
number, and no message other than a write changes that. -/
structure Application.ServesReads (app : Application σ) (view : σ → Int → Option Int)
    (value : Option Int → Int) : Prop extends app.StoresWrites view where
  other : ∀ s m, m.isWrite = false → view (app.appendMessage s m).1 = view s
  get : ∀ s key, app.getValue s key = value (view s key)

/-- What is read after some messages, the last write of which is known. -/
theorem Application.ServesReads.getValue_applied {value : Option Int → Int}
    (h : app.ServesReads view value) (s : σ) {ms : List Message} {key : Int} {w : Message}
    (hlast : lastWrite ms key = some w) :
    app.getValue (app.applied s ms) key = value w.effect := by
  rw [h.get, view_applied h.toStoresWrites s key fun m _ hm t ↦ h.other t m hm, hlast]

/-- An application that is a map from keys to values. -/
def keepsValues : Application (Int → Option Int) where
  appendMessage s m :=
    match m.msgType with
    | .put => (Function.update s m.key m.value, true, 0)
    | .delete => (Function.update s m.key none, true, 0)
    | _ => (s, true, 0)
  getSnapshot _ := some []
  restoreFromSnapshot s _ := (s, some 0)
  getValue s key := (s key).getD 0

theorem keepsValues_stores : keepsValues.StoresWrites id where
  put s m hm := by simp [keepsValues, hm]
  delete s m hm := by simp [keepsValues, hm]

theorem keepsValues_serves : keepsValues.ServesReads id (·.getD 0) where
  toStoresWrites := keepsValues_stores
  other s m hm := by
    cases htype : m.msgType with
    | put | delete => simp [Message.isWrite, htype] at hm
    | get | command => simp [keepsValues, htype]
  get _ _ := rfl

end DistributedCache
