import Mathlib.Data.List.Infix
import Mathlib.Data.Int.Order.Basic

/-!
# Lists seen through a window

A log whose first entries were compacted away is a window onto the whole log: a list together with
the absolute position of its first element.  Positions are integers, as in the programs whose logs
these are; an index that is negative or too large reads nothing.
-/

namespace Window

variable {α : Type*}

/-- Indexing with an integer; `none` is out of range. -/
def index? (l : List α) (i : ℤ) : Option α := if 0 ≤ i then l[i.toNat]? else none

/-- The element at absolute position `p` of a list that starts at position `base`. -/
def at? (base : ℤ) (w : List α) (p : ℤ) : Option α := index? w (p - base)

/-- `w` is what remains of `full` from position `base` on. -/
def IsWindow (full : List α) (base : ℤ) (w : List α) : Prop :=
  0 ≤ base ∧ base ≤ full.length ∧ w = full.drop base.toNat

variable {l : List α} {i : ℤ} {e : α}

theorem index?_eq_some : index? l i = some e ↔ 0 ≤ i ∧ l[i.toNat]? = some e := by
  unfold index?
  by_cases h : 0 ≤ i <;> simp [h]

theorem index?_lt (h : index? l i = some e) : 0 ≤ i ∧ i < l.length := by
  obtain ⟨hnonneg, hget⟩ := index?_eq_some.mp h
  have hlt := (List.getElem?_eq_some_iff.mp hget).1
  omega

theorem exists_index? (h0 : 0 ≤ i) (hlt : i < l.length) : ∃ e, index? l i = some e :=
  ⟨l[i.toNat], index?_eq_some.mpr ⟨h0, List.getElem?_eq_getElem (by omega)⟩⟩

theorem at?_of_le {base p : ℤ} {w : List α} (h : base ≤ p) :
    at? base w p = w[(p - base).toNat]? := by
  unfold at? index?
  rw [if_pos (by omega)]

/-- Dropping the first elements of a window leaves the others where they are. -/
theorem at?_drop {base p : ℤ} {w : List α} {k : ℕ} (h : base + k ≤ p) :
    at? (base + k) (w.drop k) p = at? base w p := by
  rw [at?_of_le h, at?_of_le (by omega), List.getElem?_drop]
  congr 1
  omega

/-! ## Prefixes -/

theorem prefix_getElem? {l' : List α} {p : ℕ} (hpre : l' <+: l) (hp : l'[p]? = some e) :
    l[p]? = some e := by
  obtain ⟨hlt, rfl⟩ := List.getElem?_eq_some_iff.mp hp
  rw [List.prefix_iff_getElem?.mp hpre p hlt]

theorem prefix_take_eq {l' : List α} {k : ℕ} (hpre : l' <+: l) (hk : k ≤ l'.length) :
    l.take k = l'.take k := by
  rw [List.prefix_iff_eq_take.mp hpre, List.take_take, Nat.min_eq_left hk]

/-- Of two prefixes of one list, the one that is not contained in the other contains it. -/
theorem prefix_flip {a b : List α} (ha : a <+: l) (hb : b <+: l) (h : ¬ a <+: b) : b <+: a :=
  (List.prefix_or_prefix_of_prefix ha hb).resolve_left h

/-! ## Windows -/

namespace IsWindow

variable {full w : List α} {base : ℤ}

theorem length (h : IsWindow full base w) : base + w.length = full.length := by
  obtain ⟨h0, hle, rfl⟩ := h
  rw [List.length_drop]
  omega

theorem at?_eq (h : IsWindow full base w) {p : ℤ} (hp : base ≤ p) :
    at? base w p = full[p.toNat]? := by
  obtain ⟨h0, hle, rfl⟩ := h
  rw [at?_of_le hp, List.getElem?_drop]
  congr 1
  omega

theorem append (h : IsWindow full base w) (l : List α) : IsWindow (full ++ l) base (w ++ l) := by
  obtain ⟨h0, hle, rfl⟩ := h
  refine ⟨h0, by rw [List.length_append]; omega, ?_⟩
  rw [List.drop_append_of_le_length (by omega)]

/-- Cutting the window at relative index `i` cuts the whole list at the absolute position. -/
theorem take (h : IsWindow full base w) (i : ℕ) :
    IsWindow (full.take (base.toNat + i)) base (w.take i) := by
  obtain ⟨h0, hle, rfl⟩ := h
  refine ⟨h0, by rw [List.length_take]; omega, ?_⟩
  rw [List.drop_take]
  congr 1
  omega

/-- Dropping the first `i` elements moves the base. -/
theorem drop (h : IsWindow full base w) {i : ℕ} (hi : i ≤ w.length) :
    IsWindow full (base + i) (w.drop i) := by
  have hlen := h.length
  obtain ⟨h0, hle, rfl⟩ := h
  refine ⟨by omega, by omega, ?_⟩
  rw [List.drop_drop]
  congr 1
  omega

/-- Another list in place of the window. -/
theorem replace (h : IsWindow full base w) (w' : List α) :
    IsWindow (full.take base.toNat ++ w') base w' := by
  obtain ⟨h0, hle, -⟩ := h
  have hhead : (full.take base.toNat).length = base.toNat := by
    rw [List.length_take]
    omega
  refine ⟨h0, by rw [List.length_append, hhead]; omega, ?_⟩
  rw [List.drop_append_of_le_length hhead.ge, List.drop_eq_nil_of_le hhead.le, List.nil_append]

/-- What the two windows have in common, the two whole lists have. -/
theorem take_replace (h : IsWindow full base w) {w' : List α} {k : ℕ} (hk : k ≤ w.length)
    (hpre : w.take k <+: w') :
    (full.take base.toNat ++ w').take (base.toNat + k) = full.take (base.toNat + k) := by
  obtain ⟨h0, hle, rfl⟩ := h
  have hhead : (full.take base.toNat).length = base.toNat := by
    rw [List.length_take]
    omega
  have hsplit : ∀ v : List α,
      (full.take base.toNat ++ v).take (base.toNat + k) = full.take base.toNat ++ v.take k := by
    intro v
    rw [List.take_append, hhead, List.take_of_length_le (by omega), Nat.add_sub_cancel_left]
  have hsame : w'.take k = (full.drop base.toNat).take k := by
    rw [prefix_take_eq hpre (by rw [List.length_take, Nat.min_eq_left hk]), List.take_take,
      Nat.min_self]
  rw [hsplit, hsame, ← hsplit, List.take_append_drop]

theorem nil (h0 : 0 ≤ base) (hlen : (full.length : ℤ) = base) : IsWindow full base [] := by
  refine ⟨h0, by omega, ?_⟩
  rw [List.drop_eq_nil_of_le (by omega)]

end IsWindow

end Window
