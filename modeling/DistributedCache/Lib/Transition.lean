import Mathlib.Logic.Basic
import Mathlib.Data.Option.Basic

/-!
# Guarded runs of a transition system

A system is a partial step function `step : S → A → Option S`.  `Reaches step guard start` holds of
the states some run from `start` ends in when every action it takes meets `guard` in the state it
is taken in.  The invariant rule below is the only induction over runs in this development.
-/

namespace Transition

variable {S A : Type*}

inductive Reaches (step : S → A → Option S) (guard : S → A → Prop) (start : S) : S → Prop
  | refl : Reaches step guard start start
  | tail {s s' : S} {a : A} (run : Reaches step guard start s) (ok : guard s a)
      (taken : step s a = some s') : Reaches step guard start s'

/-- Reachability by a run that takes any action it likes. -/
abbrev Reachable (step : S → A → Option S) (start : S) : S → Prop :=
  Reaches step (fun _ _ ↦ True) start

variable {step : S → A → Option S} {guard : S → A → Prop} {start s s' : S}

theorem Reaches.invariant (Inv : S → Prop) (hstart : Inv start)
    (hstep : ∀ s a s', Reaches step guard start s → Inv s → guard s a → step s a = some s' →
      Inv s')
    (hrun : Reaches step guard start s) : Inv s := by
  induction hrun with
  | refl => exact hstart
  | tail run ok taken ih => exact hstep _ _ _ run ih ok taken

theorem Reaches.mono {guard' : S → A → Prop} (h : ∀ s a, guard s a → guard' s a)
    (hrun : Reaches step guard start s) : Reaches step guard' start s := by
  induction hrun with
  | refl => exact .refl
  | tail _ ok taken ih => exact ih.tail (h _ _ ok) taken

theorem Reaches.head {a : A} (ok : guard start a) (taken : step start a = some s)
    (hrun : Reaches step guard s s') : Reaches step guard start s' := by
  induction hrun with
  | refl => exact Reaches.refl.tail ok taken
  | tail _ ok' taken' ih => exact ih.tail ok' taken'

theorem Reaches.trans (hrun : Reaches step guard start s) (hrest : Reaches step guard s s') :
    Reaches step guard start s' := by
  induction hrest with
  | refl => exact hrun
  | tail _ ok taken ih => exact ih.tail ok taken

/-- A run that can go on as long as it has not ended, and that comes closer to its end with each
step, does end. -/
theorem exists_reaches_final (Inv Final : S → Prop) (remaining : S → Nat)
    (hstep : ∀ s, Inv s → Final s ∨ ∃ a s', guard s a ∧ step s a = some s' ∧ Inv s' ∧
      remaining s' < remaining s)
    (hstart : Inv start) : ∃ s, Reaches step guard start s ∧ Inv s ∧ Final s := by
  induction hk : remaining start using Nat.strongRecOn generalizing start with
  | ind k ih =>
    obtain hfinal | ⟨a, s', hguard, htaken, hinv, hlt⟩ := hstep start hstart
    · exact ⟨start, .refl, hstart, hfinal⟩
    · obtain ⟨s, hrun, hs⟩ := ih _ (hk ▸ hlt) hinv rfl
      exact ⟨s, .head hguard htaken hrun, hs⟩

/-- Takes the actions of a list one after another; `none` when one of them is refused. -/
def exec (step : S → A → Option S) (guard : S → A → Prop) [∀ s a, Decidable (guard s a)] :
    S → List A → Option S
  | s, [] => some s
  | s, a :: as => if guard s a then (step s a).bind fun t ↦ exec step guard t as else none

theorem reaches_of_exec [∀ s a, Decidable (guard s a)] {as : List A}
    (h : exec step guard start as = some s) : Reaches step guard start s := by
  induction as generalizing start with
  | nil =>
    simp only [exec, Option.some.injEq] at h
    subst h
    exact .refl
  | cons a as ih =>
    simp only [exec] at h
    split at h
    · rename_i hok
      obtain ⟨t, ht, hrest⟩ := Option.bind_eq_some_iff.mp h
      exact Reaches.head hok ht (ih hrest)
    · cases h

/-- A run that comes closer to its end with each step has only so many steps. -/
theorem length_add_le_of_exec [∀ s a, Decidable (guard s a)] (Inv : S → Prop) (remaining : S → Nat)
    (hstep : ∀ s a s', Inv s → guard s a → step s a = some s' →
      Inv s' ∧ remaining s' < remaining s)
    {as : List A} (hstart : Inv start) (h : exec step guard start as = some s) :
    as.length + remaining s ≤ remaining start := by
  induction as generalizing start with
  | nil =>
    cases h
    exact Nat.le_of_eq (Nat.zero_add _)
  | cons a as ih =>
    obtain ⟨hguard, h⟩ := Option.ite_none_right_eq_some.mp h
    obtain ⟨s', htaken, h⟩ := Option.bind_eq_some_iff.mp h
    obtain ⟨hinv, hlt⟩ := hstep start a s' hstart hguard htaken
    have hrest := ih hinv h
    rw [List.length_cons]
    omega

/-- A run on concrete actions, checked by evaluation. -/
theorem exists_reaches_of_exec [∀ s a, Decidable (guard s a)] {P : S → Prop} [DecidablePred P]
    (as : List A) (h : (exec step guard start as).any (fun s ↦ decide (P s)) = true) :
    ∃ s, Reaches step guard start s ∧ P s := by
  cases hs : exec step guard start as with
  | none =>
    rw [hs] at h
    cases h
  | some s =>
    rw [hs] at h
    exact ⟨s, reaches_of_exec hs, of_decide_eq_true h⟩

/-- The same, with one more step that is looked at from both sides. -/
theorem exists_step_of_exec [∀ s a, Decidable (guard s a)] {P Q : S → Prop} [DecidablePred P]
    [DecidablePred Q] (as : List A) (a : A)
    (h : (exec step guard start as).any (fun s ↦ decide (P s ∧ guard s a ∧
      (step s a).any (fun s' ↦ decide (Q s')) = true)) = true) :
    ∃ s s', Reaches step guard start s ∧ P s ∧ guard s a ∧ step s a = some s' ∧ Q s' := by
  obtain ⟨s, hrun, hP, hguard, hnext⟩ := exists_reaches_of_exec as h
  cases hs' : step s a with
  | none =>
    rw [hs'] at hnext
    cases hnext
  | some s' =>
    rw [hs'] at hnext
    exact ⟨s, s', hrun, hP, hguard, hs', of_decide_eq_true hnext⟩

/-- A run that is looked at twice. -/
theorem exists_later_of_exec [∀ s a, Decidable (guard s a)] {P Q : S → Prop} [DecidablePred P]
    [DecidablePred Q] (as bs : List A)
    (h : (exec step guard start as).any (fun s ↦ decide (P s ∧
      (exec step guard s bs).any (fun s' ↦ decide (Q s')) = true)) = true) :
    ∃ s s', Reaches step guard start s ∧ P s ∧ Reaches step guard s s' ∧ Q s' := by
  obtain ⟨s, hrun, hP, hnext⟩ := exists_reaches_of_exec as h
  obtain ⟨s', hrun', hQ⟩ := exists_reaches_of_exec bs hnext
  exact ⟨s, s', hrun, hP, hrun', hQ⟩

end Transition
