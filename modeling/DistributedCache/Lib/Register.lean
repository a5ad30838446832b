import Mathlib.Data.Set.Insert

/-!
# What the copies of a register may hold

Writes of one register are begun, and some of them are acknowledged later.  When a write is
acknowledged every copy holds its value; after that a copy may have taken over the value of any
write that was begun since.
-/

namespace Register

variable {V : Type*}

inductive Event (V : Type*) where
  | begun (v : V)
  | acknowledged (v : V)
  deriving DecidableEq, Repr

/-- What one more event makes of the values that a copy may hold. -/
def record (values : Set V) : Event V → Set V
  | .begun v => insert v values
  | .acknowledged v => {v}

/-- Before the first acknowledgement a copy may hold anything. -/
def possible (history : List (Event V)) : Set V := history.foldl record Set.univ

theorem possible_concat (history : List (Event V)) (e : Event V) :
    possible (history ++ [e]) = record (possible history) e := by
  unfold possible
  rw [List.foldl_append]
  rfl

theorem foldl_record_subset (values : Set V) (events : List (Event V)) {v : V}
    (h : v ∈ events.foldl record values) :
    v ∈ values ∨ .begun v ∈ events ∨ .acknowledged v ∈ events := by
  induction events generalizing values with
  | nil => exact Or.inl h
  | cons e events ih =>
    rcases ih _ h with hv | hv | hv
    · cases e with
      | begun u =>
        rcases Set.mem_insert_iff.mp hv with rfl | hv
        · exact Or.inr (Or.inl List.mem_cons_self)
        · exact Or.inl hv
      | acknowledged u =>
        rw [Set.mem_singleton_iff.mp hv]
        exact Or.inr (Or.inr List.mem_cons_self)
    · exact Or.inr (Or.inl (List.mem_cons_of_mem _ hv))
    · exact Or.inr (Or.inr (List.mem_cons_of_mem _ hv))

/-- After an acknowledgement a copy holds the value that was acknowledged, or that of a write that
was begun or acknowledged later. -/
theorem possible_after {before after : List (Event V)} {v u : V}
    (h : u ∈ possible (before ++ .acknowledged v :: after)) :
    u = v ∨ .begun u ∈ after ∨ .acknowledged u ∈ after := by
  unfold possible at h
  rw [List.foldl_append, List.foldl_cons] at h
  rcases foldl_record_subset _ _ h with hv | hafter
  · exact Or.inl (Set.mem_singleton_iff.mp hv)
  · exact Or.inr hafter

/-- The value of the last write that was acknowledged. -/
def lastAcknowledged (history : List (Event V)) : Option V :=
  history.foldl (fun last e ↦ match e with
    | .begun _ => last
    | .acknowledged v => some v) none

@[simp] theorem lastAcknowledged_begun (history : List (Event V)) (v : V) :
    lastAcknowledged (history ++ [.begun v]) = lastAcknowledged history := by
  unfold lastAcknowledged
  rw [List.foldl_append]
  rfl

@[simp] theorem lastAcknowledged_acknowledged (history : List (Event V)) (v : V) :
    lastAcknowledged (history ++ [.acknowledged v]) = some v := by
  unfold lastAcknowledged
  rw [List.foldl_append]
  rfl

end Register
