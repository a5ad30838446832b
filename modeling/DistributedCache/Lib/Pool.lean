import Mathlib.Algebra.BigOperators.Group.List.Basic
import Mathlib.Algebra.Order.BigOperators.Group.List
import Mathlib.Algebra.Order.Group.Nat
import Mathlib.Algebra.GroupWithZero.Nat

/-!
# Weights over a pool of processes

A pool is a list of processes, each at some place of its code.  A weight gives every place a
number, and the weight of a pool is the sum over its processes: with the weights 0 and 1 it counts
the processes at certain places.  When one process moves, `weigh_set` says what becomes of every
weight.
-/

namespace Pool

variable {β : Type*}

def weigh (w : β → Nat) (pool : List β) : Nat := (pool.map w).sum

variable {w w' : β → Nat} {pool : List β} {b c : β} {k : Nat}

theorem weigh_cons : weigh w (b :: pool) = w b + weigh w pool := List.sum_cons

theorem weigh_append_singleton : weigh w (pool ++ [b]) = weigh w pool + w b := by
  unfold weigh
  rw [List.map_append, List.sum_append, List.map_singleton, List.sum_singleton]

/-- One process moves from `b` to `c`. -/
theorem weigh_set (w : β → Nat) (h : pool[k]? = some b) (c : β) :
    weigh w (pool.set k c) + w b = weigh w pool + w c := by
  induction pool generalizing k with
  | nil => cases h
  | cons a pool ih =>
    cases k with
    | zero =>
      rw [List.getElem?_cons_zero] at h
      cases h
      show w c + weigh w pool + w b = w b + weigh w pool + w c
      omega
    | succ k =>
      rw [List.getElem?_cons_succ] at h
      have hrest := ih h
      show w a + weigh w (pool.set k c) + w b = w a + weigh w pool + w c
      omega

theorem weigh_set_of_eq (h : pool[k]? = some b) (heq : w c = w b) :
    weigh w (pool.set k c) = weigh w pool := by
  have hset := weigh_set w h c
  omega

theorem le_weigh (h : b ∈ pool) : w b ≤ weigh w pool :=
  List.le_sum_of_mem (List.mem_map_of_mem h)

/-- After process `k` has moved, every other process still weighs what it weighed beside it. -/
theorem eq_or_add_le_weigh (w : β → Nat) (h : pool[k]? = some b) {other : β}
    (hmem : other ∈ pool.set k c) : other = c ∨ w other + w b ≤ weigh w pool := by
  induction pool generalizing k with
  | nil => cases h
  | cons a pool ih =>
    rw [weigh_cons]
    cases k with
    | zero =>
      rw [List.getElem?_cons_zero] at h
      cases h
      cases List.mem_cons.mp hmem with
      | inl heq => exact Or.inl heq
      | inr hrest =>
        have hle : w other ≤ weigh w pool := le_weigh hrest
        right
        omega
    | succ k =>
      rw [List.getElem?_cons_succ] at h
      cases List.mem_cons.mp hmem with
      | inl heq =>
        have hle : w b ≤ weigh w pool := le_weigh (List.mem_of_getElem? h)
        rw [heq]
        right
        omega
      | inr hrest =>
        cases ih h hrest with
        | inl heq => exact Or.inl heq
        | inr hle =>
          right
          omega

theorem get_set (h : pool[k]? = some b) : (pool.set k c)[k]? = some c := by
  rw [List.getElem?_set_self', h]
  rfl

theorem forall_set {P : β → Prop} (hall : ∀ b ∈ pool, P b) (hc : P c) :
    ∀ b ∈ pool.set k c, P b := by
  intro b hb
  cases List.mem_or_eq_of_mem_set hb with
  | inl hb => exact hall b hb
  | inr heq =>
    rw [heq]
    exact hc

/-- When process `k` has moved, the others are still there. -/
theorem eq_or_mem_set {other : β} (h : pool[k]? = some b) (hmem : other ∈ pool) :
    other = b ∨ other ∈ pool.set k c := by
  obtain ⟨j, hj⟩ := List.mem_iff_getElem?.mp hmem
  by_cases hkj : k = j
  · subst hkj
    rw [h] at hj
    exact Or.inl (Option.some.inj hj).symm
  · right
    apply List.mem_of_getElem? (i := j)
    rw [List.getElem?_set_ne hkj]
    exact hj

theorem weigh_le_weigh (h : ∀ b ∈ pool, w b ≤ w' b) : weigh w pool ≤ weigh w' pool :=
  List.sum_le_sum h

theorem length_le_weigh (h : ∀ b ∈ pool, 1 ≤ w b) : pool.length ≤ weigh w pool := by
  have hle := List.length_le_sum_of_one_le (pool.map w) (List.forall_mem_map.mpr h)
  rwa [List.length_map] at hle

theorem weigh_add : weigh (fun b ↦ w b + w' b) pool = weigh w pool + weigh w' pool :=
  List.sum_map_add

theorem weigh_eq_zero_iff : weigh w pool = 0 ↔ ∀ b ∈ pool, w b = 0 := by
  unfold weigh
  rw [List.sum_eq_zero_iff, List.forall_mem_map]

theorem exists_of_weigh_pos (h : 0 < weigh w pool) : ∃ b ∈ pool, 0 < w b := by
  by_contra hnone
  have hzero : weigh w pool = 0 := by
    apply weigh_eq_zero_iff.mpr
    intro b hb
    by_contra hne
    exact hnone ⟨b, hb, Nat.pos_of_ne_zero hne⟩
  omega

end Pool
