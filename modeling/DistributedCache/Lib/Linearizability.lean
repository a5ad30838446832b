import Mathlib.Data.List.Nodup

/-!
# Linearizability

Clients call the operations of an object.  The history of a run has an event for every call and one
for every return.  It is linearizable if the operations can be put in an order in which the object,
used by one client at a time, gives the same results, and in which an operation that had returned
before another one was called comes before it.

Such an order is found by giving every operation a point at which it takes effect; the rules for
`Explains` follow a run event by event and point by point.
-/

namespace Linearizability

/-! ## Two elements of a list in their order -/

section

variable {α : Type*} {a b c : α} {l : List α}

def Before (a b : α) (l : List α) : Prop := [a, b].Sublist l

theorem Before.append_right (h : Before a b l) (l' : List α) : Before a b (l ++ l') :=
  h.trans (List.sublist_append_left l l')

theorem before_concat (h : a ∈ l) : Before a b (l ++ [b]) :=
  (List.singleton_sublist.mpr h).append (List.Sublist.refl [b])

theorem Before.of_concat (h : Before a b (l ++ [c])) : Before a b l ∨ b = c ∧ a ∈ l := by
  obtain ⟨l₁, l₂, heq, h₁, h₂⟩ := List.sublist_append_iff.mp h
  -- how many of the two stand in `l`
  match l₁, heq with
  | [], heq =>
    rw [List.nil_append] at heq
    subst heq
    have hlen := h₂.length_le
    simp at hlen
  | [x], heq =>
    simp only [List.cons_append, List.nil_append, List.cons.injEq] at heq
    obtain ⟨rfl, rfl⟩ := heq
    right
    exact ⟨List.mem_singleton.mp (h₂.subset List.mem_cons_self), h₁.subset List.mem_cons_self⟩
  | x :: y :: rest, heq =>
    simp only [List.cons_append, List.cons.injEq, List.nil_eq, List.append_eq_nil_iff] at heq
    obtain ⟨rfl, rfl, rfl, -⟩ := heq
    exact Or.inl h₁

end

variable {S S' Op R : Type*}

/-- The calls of a run are numbered. -/
inductive Event (Op R : Type*) where
  | invoked (call : Nat) (op : Op)
  | returned (call : Nat) (result : R)
  deriving DecidableEq, Repr

structure Entry (Op R : Type*) where
  call : Nat
  op : Op
  result : R
  deriving DecidableEq, Repr

/-- The operations of the list, one after another, have the results that stand beside them and leave
the last state. -/
inductive Legal (spec : S → Op → S × R) (init : S) : List (Entry Op R) → S → Prop
  | nil : Legal spec init [] init
  | concat {order : List (Entry Op R)} {s : S} (before : Legal spec init order s) (call : Nat)
      (op : Op) : Legal spec init (order ++ [⟨call, op, (spec s op).2⟩]) (spec s op).1

/-- The calls in the order of the list. -/
def calls (order : List (Entry Op R)) : List Nat := order.map Entry.call

structure Explains (order : List (Entry Op R)) (history : List (Event Op R)) : Prop where
  nodup : (calls order).Nodup
  invoked : ∀ e ∈ order, .invoked e.call e.op ∈ history
  returned : ∀ i r, .returned i r ∈ history → ∃ op, ⟨i, op, r⟩ ∈ order
  respects : ∀ i r j op, Before (.returned i r) (.invoked j op) history → j ∈ calls order →
    Before i j (calls order)

def Linearizable (spec : S → Op → S × R) (init : S) (history : List (Event Op R)) : Prop :=
  ∃ order s, Legal spec init order s ∧ Explains order history

/-- What is legal for one object is legal for another one that goes along with it. -/
theorem Legal.map {spec : S → Op → S × R} {spec' : S' → Op → S' × R} {init : S} {init' : S'}
    {order : List (Entry Op R)} {s : S} (Rel : S → S' → Prop) (hinit : Rel init init')
    (hspec : ∀ s s' op, Rel s s' → Rel (spec s op).1 (spec' s' op).1 ∧
      (spec s op).2 = (spec' s' op).2)
    (h : Legal spec init order s) : ∃ s', Legal spec' init' order s' ∧ Rel s s' := by
  induction h with
  | nil => exact ⟨init', .nil, hinit⟩
  | @concat order s _ call op ih =>
    obtain ⟨s', hlegal, hrel⟩ := ih
    obtain ⟨hrel', hresult⟩ := hspec s s' op hrel
    rw [hresult]
    exact ⟨_, hlegal.concat call op, hrel'⟩

/-! ## Following a run -/

theorem mem_calls {e : Entry Op R} {order : List (Entry Op R)} (h : e ∈ order) :
    e.call ∈ calls order := List.mem_map_of_mem h

@[simp] theorem calls_concat (order : List (Entry Op R)) (e : Entry Op R) :
    calls (order ++ [e]) = calls order ++ [e.call] := List.map_append

namespace Explains

variable {order : List (Entry Op R)} {history : List (Event Op R)} {i j : Nat} {op : Op} {r : R}

theorem empty : Explains ([] : List (Entry Op R)) [] where
  nodup := List.nodup_nil
  invoked := nofun
  returned := nofun
  respects := nofun

theorem exists_invoked (h : Explains order history) (hj : j ∈ calls order) :
    ∃ op, .invoked j op ∈ history := by
  obtain ⟨e, he, rfl⟩ := List.mem_map.mp hj
  exact ⟨e.op, h.invoked e he⟩

/-- A new call. -/
theorem invoke (h : Explains order history) (hnew : ∀ op', .invoked j op' ∉ history) (op : Op) :
    Explains order (history ++ [.invoked j op]) where
  nodup := h.nodup
  invoked e he := List.mem_append_left _ (h.invoked e he)
  returned i r hr := by
    cases List.mem_append.mp hr with
    | inl hr => exact h.returned i r hr
    | inr hr => cases List.mem_singleton.mp hr
  respects i r k op' hbefore hk := by
    cases hbefore.of_concat with
    | inl hbefore => exact h.respects i r k op' hbefore hk
    | inr hlast =>
      -- the new call has no place in the order yet
      obtain ⟨op'', hinvoked⟩ := h.exists_invoked hk
      have heq := hlast.1
      rw [Event.invoked.injEq] at heq
      rw [heq.1] at hinvoked
      exact absurd hinvoked (hnew op'')

/-- A call takes effect. -/
theorem point (h : Explains order history) (hcall : .invoked i op ∈ history)
    (hnew : i ∉ calls order) (r : R) : Explains (order ++ [⟨i, op, r⟩]) history where
  nodup := by
    rw [calls_concat, ← List.concat_eq_append]
    exact h.nodup.concat hnew
  invoked e he := by
    cases List.mem_append.mp he with
    | inl he => exact h.invoked e he
    | inr he =>
      rw [List.mem_singleton.mp he]
      exact hcall
  returned j r' hr := by
    obtain ⟨op', he⟩ := h.returned j r' hr
    exact ⟨op', List.mem_append_left _ he⟩
  respects j r' k op' hbefore hk := by
    rw [calls_concat] at hk ⊢
    cases List.mem_append.mp hk with
    | inl hk => exact (h.respects j r' k op' hbefore hk).append_right _
    | inr hk =>
      -- whatever has returned by now has taken effect before
      rw [List.mem_singleton.mp hk]
      obtain ⟨op'', he⟩ := h.returned j r' (hbefore.subset List.mem_cons_self)
      exact before_concat (mem_calls he)

/-- A call that has taken effect returns. -/
theorem respond (h : Explains order history) (he : ⟨i, op, r⟩ ∈ order) :
    Explains order (history ++ [.returned i r]) where
  nodup := h.nodup
  invoked e he := List.mem_append_left _ (h.invoked e he)
  returned j r' hr := by
    cases List.mem_append.mp hr with
    | inl hr => exact h.returned j r' hr
    | inr hr =>
      cases List.mem_singleton.mp hr
      exact ⟨op, he⟩
  respects j r' k op' hbefore hk := by
    cases hbefore.of_concat with
    | inl hbefore => exact h.respects j r' k op' hbefore hk
    | inr hlast => cases hlast.1

end Explains

end Linearizability
