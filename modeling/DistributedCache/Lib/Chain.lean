import Mathlib.Data.Fintype.Pigeonhole

/-!
# Following a partial function

`follow next k a` is the element that `k` applications of `next` lead to.  Over a finite type a
chain that is long enough goes on for ever.
-/

namespace Chain

variable {α : Type*} {next : α → Option α} {a b : α} {j k : Nat}

def follow (next : α → Option α) : Nat → α → Option α
  | 0, a => some a
  | k + 1, a => (next a).bind (follow next k)

theorem follow_add : follow next (j + k) a = (follow next j a).bind (follow next k) := by
  induction j generalizing a with
  | zero => rw [Nat.zero_add, follow, Option.bind_some]
  | succ j ih =>
    rw [Nat.succ_add, follow, follow, Option.bind_assoc]
    exact Option.bind_congr fun b _ ↦ ih

theorem follow_eq_none_of_le (hjk : j ≤ k) (h : follow next j a = none) :
    follow next k a = none := by
  rw [← Nat.add_sub_cancel' hjk, follow_add, h, Option.bind_none]

/-- A chain that returns to its beginning does not end. -/
theorem follow_ne_none_of_return (hj : 0 < j) (h : follow next j a = some a) (k : Nat) :
    follow next k a ≠ none := by
  induction k using Nat.strongRecOn with
  | ind k ih =>
    intro hnone
    by_cases hle : k ≤ j
    · rw [follow_eq_none_of_le hle hnone] at h
      cases h
    · rw [← Nat.add_sub_cancel' (Nat.le_of_not_le hle), follow_add, h, Option.bind_some] at hnone
      exact ih (k - j) (by omega) hnone

/-- A chain with more elements than there are does not end. -/
theorem follow_ne_none_of_card [Fintype α] (h : follow next (Fintype.card α) a ≠ none) (k : Nat) :
    follow next k a ≠ none := by
  have hsome : ∀ i : Fin (Fintype.card α + 1), ∃ b, follow next i a = some b := fun i ↦
    Option.ne_none_iff_exists'.mp fun hnone ↦
      h (follow_eq_none_of_le (Nat.le_of_lt_succ i.isLt) hnone)
  choose visited hvisited using hsome
  -- two places of the chain are the same element, from which it returns to itself
  obtain ⟨i, j, hne, heq⟩ := Fintype.exists_ne_map_eq_of_card_lt visited (by simp)
  wlog hlt : i < j generalizing i j
  · exact this j i hne.symm heq.symm (lt_of_le_of_ne (not_lt.mp hlt) hne.symm)
  have hreturn : follow next (j - i) (visited i) = some (visited i) := by
    have hj := hvisited j
    rw [← Nat.add_sub_cancel' (Fin.le_def.mp hlt.le), follow_add, hvisited i,
      Option.bind_some] at hj
    rw [hj, heq]
  intro hnone
  have hlate := follow_eq_none_of_le (Nat.le_add_left k i) hnone
  rw [follow_add, hvisited i, Option.bind_some] at hlate
  exact follow_ne_none_of_return (Nat.sub_pos_of_lt hlt) hreturn k hlate

end Chain
