import Mathlib.Data.Int.CardIntervalMod
import Mathlib.Data.List.GetD

/-!
# Dealing in turn

Items are dealt to the members of a list in turn, starting again from the front when the end is
reached.  However many items there are, no two members differ by more than one.
-/

namespace RoundRobin

variable {α : Type*}

/-- Who gets item `i`; `fallback` if there is nobody. -/
def deal (members : List α) (fallback : α) (i : Nat) : α :=
  members.getD (i % members.length) fallback

variable {members : List α} {fallback a b : α}

theorem deal_eq_iff (hnodup : members.Nodup) {j : Nat} (hj : j < members.length) (i : Nat) :
    deal members fallback i = members[j] ↔ i ≡ j [MOD members.length] := by
  have hi : i % members.length < members.length := Nat.mod_lt _ (by omega)
  unfold deal
  rw [List.getD_eq_getElem _ _ hi, hnodup.getElem_inj_iff]
  show _ ↔ i % members.length = j % members.length
  rw [Nat.mod_eq_of_lt hj]

variable [DecidableEq α]

/-- How many of the first `m` items go to `a`. -/
def share (members : List α) (fallback a : α) (m : Nat) : Nat :=
  m.count fun i ↦ deal members fallback i = a

theorem share_zero : share members fallback a 0 = 0 := Nat.count_zero _

theorem share_succ (m : Nat) :
    share members fallback a (m + 1) =
      share members fallback a m + if deal members fallback m = a then 1 else 0 :=
  Nat.count_succ _ _

/-- Every member gets the quotient, and those in front one of the items that are left over. -/
theorem share_getElem (hnodup : members.Nodup) {j : Nat} (hj : j < members.length) (m : Nat) :
    share members fallback members[j] m =
      m / members.length + if j < m % members.length then 1 else 0 := by
  have hpos : 0 < members.length := by omega
  unfold share
  simp only [deal_eq_iff hnodup hj]
  rw [Nat.count_modEq_card _ hpos, Nat.mod_eq_of_lt hj]

theorem share_le (hnodup : members.Nodup) (ha : a ∈ members) (hb : b ∈ members) (m : Nat) :
    share members fallback a m ≤ share members fallback b m + 1 := by
  obtain ⟨i, hi, rfl⟩ := List.getElem_of_mem ha
  obtain ⟨j, hj, rfl⟩ := List.getElem_of_mem hb
  rw [share_getElem hnodup hi, share_getElem hnodup hj]
  split <;> split <;> omega

end RoundRobin
