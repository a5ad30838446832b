import Mathlib.Data.Fintype.Card
import Mathlib.Data.Finset.Card

/-!
# Majorities of a finite set of voters
-/

namespace Quorum

variable {ι κ : Type*} [Fintype ι]

/-- More than half of all voters. -/
def IsMajority (q : Finset ι) : Prop := Fintype.card ι < 2 * q.card
deriving Decidable

theorem IsMajority.meet {q q' : Finset ι} (h : IsMajority q) (h' : IsMajority q') :
    ∃ v, v ∈ q ∧ v ∈ q' := by
  classical
  by_contra hnone
  have hdisj : Disjoint q q' := by
    rw [Finset.disjoint_left]
    intro v hv hv'
    exact hnone ⟨v, hv, hv'⟩
  have hunion := Finset.card_union_of_disjoint hdisj
  have hall := Finset.card_le_univ (q ∪ q')
  unfold IsMajority at *
  omega

/-- When every voter supports at most one candidate, two candidates that a majority supports are
the same. -/
theorem winner_unique {voted : ι → κ → Prop}
    (honce : ∀ v a b, voted v a → voted v b → a = b) {q q' : Finset ι} {a b : κ}
    (hq : IsMajority q) (hq' : IsMajority q') (ha : ∀ v ∈ q, voted v a) (hb : ∀ v ∈ q', voted v b) :
    a = b := by
  obtain ⟨v, hv, hv'⟩ := hq.meet hq'
  exact honce v a b (ha v hv) (hb v hv')

end Quorum
