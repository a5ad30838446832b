import DistributedCache.Lib.Commitment

/-!
# Steps of one node

An implementation's node takes several steps of the abstract protocol at once.  `Evolves` collects
steps owned by one node, with or without the steps that lose acknowledged entries, and `Frame` says
what they leave alone: everything that belongs to other nodes.
-/

namespace ReplicatedLog

open Quorum

variable {ι ε : Type*} [Fintype ι] [DecidableEq ι] [DecidableEq ε] {tm : ε → ℤ}

/-- The steps of node `i`; those that may lose entries only when not `strict`. -/
inductive Owned (tm : ε → ℤ) (strict : Prop) (i : ι) (s : State ι ε) : State ι ε → Prop
  | raise (t : ℤ) (ht : s.term i < t) : Owned tm strict i s (s.raise i t)
  | stand (t : ℤ) (ht : s.term i < t) : Owned tm strict i s (s.stand i t)
  | grant (c : ι) (l : List ε) (hfree : s.vote i (s.term i) = none)
      (hl : s.campaign c (s.term i) = some l) (hup : UpToDate tm (s.log i) l) :
      Owned tm strict i s (s.grant i c)
  | elect (q : Finset ι) (hnone : s.leader (s.term i) = none)
      (hl : s.campaign i (s.term i) = some (s.log i)) (hq : IsMajority q)
      (hv : ∀ v ∈ q, s.vote v (s.term i) = some i) : Owned tm strict i s (s.elect i)
  | append (e : ε) (hlead : s.leader (s.term i) = some i) (he : tm e = s.term i) :
      Owned tm strict i s (s.append i e)
  | accept (l : ι) (p : List ε) (hlead : s.leader (s.term i) = some l) (hne : l ≠ i)
      (hp : p <+: s.leaderLog (s.term i)) : Owned tm strict i s (s.accept i p)
  | truncate (k : ℕ) (hlossy : ¬ strict) (hlead : s.leader (s.term i) ≠ some i) :
      Owned tm strict i s (s.truncate i k)

inductive Evolves (tm : ε → ℤ) (strict : Prop) (i : ι) (s : State ι ε) : State ι ε → Prop
  | refl : Evolves tm strict i s s
  | tail {s' s'' : State ι ε} (h : Evolves tm strict i s s') (h' : Owned tm strict i s' s'') :
    Evolves tm strict i s s''

/-- What a step of node `i` leaves alone. -/
structure Frame (i : ι) (s s' : State ι ε) : Prop where
  ext : Extends s s'
  term : ∀ j, j ≠ i → s'.term j = s.term j
  log : ∀ j, j ≠ i → s'.log j = s.log j
  vote : ∀ j t, j ≠ i → s'.vote j t = s.vote j t
  campaign : ∀ j t, j ≠ i → s'.campaign j t = s.campaign j t
  leader : ∀ t j, s'.leader t = some j → j = i ∨ s.leader t = some j

variable {strict : Prop} {i : ι} {s s' s'' : State ι ε}

omit [Fintype ι] [DecidableEq ι] [DecidableEq ε] in
theorem Frame.refl (i : ι) (s : State ι ε) : Frame i s s :=
  ⟨.refl s, fun _ _ ↦ rfl, fun _ _ ↦ rfl, fun _ _ _ ↦ rfl, fun _ _ _ ↦ rfl, fun _ _ h ↦ Or.inr h⟩

omit [Fintype ι] [DecidableEq ι] [DecidableEq ε] in
theorem Frame.trans (h : Frame i s s') (h' : Frame i s' s'') : Frame i s s'' where
  ext := h.ext.trans h'.ext
  term j hj := (h'.term j hj).trans (h.term j hj)
  log j hj := (h'.log j hj).trans (h.log j hj)
  vote j t hj := (h'.vote j t hj).trans (h.vote j t hj)
  campaign j t hj := (h'.campaign j t hj).trans (h.campaign j t hj)
  leader t j hlead := by
    rcases h'.leader t j hlead with heq | hlead
    · exact Or.inl heq
    · exact h.leader t j hlead

theorem Owned.step (h : Owned tm strict i s s') (hstrict : strict) : Step tm s s' := by
  cases h with
  | raise t ht => exact .raise i t ht
  | stand t ht => exact .stand i t ht
  | grant c l hfree hl hup => exact .grant i c l hfree hl hup
  | elect q hnone hl hq hv => exact .elect i q hnone hl hq hv
  | append e hlead he => exact .append i e hlead he
  | accept l p hlead hne hp => exact .accept i l p hlead hne hp
  | truncate k hlossy => exact absurd hstrict hlossy

theorem Owned.lossyStep (h : Owned tm strict i s s') : LossyStep tm s s' := by
  cases h with
  | truncate k _ hlead => exact .truncate i k hlead
  | raise t ht => exact .keep (.raise i t ht)
  | stand t ht => exact .keep (.stand i t ht)
  | grant c l hfree hl hup => exact .keep (.grant i c l hfree hl hup)
  | elect q hnone hl hq hv => exact .keep (.elect i q hnone hl hq hv)
  | append e hlead he => exact .keep (.append i e hlead he)
  | accept l p hlead hne hp => exact .keep (.accept i l p hlead hne hp)

theorem Owned.frame (hm : MatchInv tm s) (h : Owned tm strict i s s') : Frame i s s' := by
  have hext := h.lossyStep.extends hm
  refine ⟨hext, fun j hj ↦ ?_, fun j hj ↦ ?_, fun j t hj ↦ ?_, fun j t hj ↦ ?_, fun t j hlead ↦ ?_⟩
  · cases h <;> first | rfl | exact Function.update_of_ne hj _ _
  · cases h <;> first | rfl | exact Function.update_of_ne hj _ _
  · cases h <;> first | rfl | exact update₂_of_ne _ _ fun h ↦ hj h.1
  · cases h <;> first | rfl | exact update₂_of_ne _ _ fun h ↦ hj h.1
  · cases h with
    | elect =>
      by_cases ht : t = s.term i
      · subst ht
        simp only [State.elect, Function.update_self, Option.some.injEq] at hlead
        exact Or.inl hlead.symm
      · simp only [State.elect, Function.update_of_ne ht] at hlead
        exact Or.inr hlead
    | _ => exact Or.inr hlead

theorem Evolves.matchInv (hm : MatchInv tm s) (h : Evolves tm strict i s s') : MatchInv tm s' := by
  induction h with
  | refl => exact hm
  | tail _ h' ih => exact h'.lossyStep.matchInv ih

theorem Evolves.frame (hm : MatchInv tm s) (h : Evolves tm strict i s s') : Frame i s s' := by
  induction h with
  | refl => exact .refl i s
  | tail h h' ih => exact ih.trans (h'.frame (h.matchInv hm))

theorem Evolves.ackInv (hm : MatchInv tm s) (hstrict : strict) (hs : AckInv tm s)
    (h : Evolves tm strict i s s') : AckInv tm s' := by
  induction h with
  | refl => exact hs
  | tail h h' ih => exact (h'.step hstrict).ackInv (h.matchInv hm) ih

theorem Evolves.one (h : Owned tm strict i s s') : Evolves tm strict i s s' := .tail .refl h

theorem Evolves.trans (h : Evolves tm strict i s s') (h' : Evolves tm strict i s' s'') :
    Evolves tm strict i s s'' := by
  induction h' with
  | refl => exact h
  | tail _ hlast ih => exact .tail ih hlast

/-- As long as a follower stays in its term, what agrees with the leader's log goes on to agree. -/
theorem Owned.agrees (h : Owned tm strict i s s') (hterm : s'.term i = s.term i) {l : ι}
    (hlead : s.leader (s.term i) = some l) (hne : l ≠ i) {k : ℕ}
    (hpre : (s.log i).take k <+: s.leaderLog (s.term i)) :
    (s'.log i).take k <+: s'.leaderLog (s.term i) := by
  cases h with
  | raise t ht =>
    simp only [State.raise, Function.update_self] at hterm
    omega
  | stand t ht =>
    simp only [State.stand, Function.update_self] at hterm
    omega
  | grant => exact hpre
  | elect q hnone =>
    rw [hnone] at hlead
    cases hlead
  | append e hown =>
    rw [hown] at hlead
    exact absurd (Option.some.inj hlead).symm hne
  | accept l' p _ _ hp =>
    simp only [State.accept, Function.update_self]
    split
    · exact hpre
    · exact (List.take_prefix _ _).trans hp
  | truncate m =>
    simp only [State.truncate, Function.update_self, List.take_take]
    rw [min_comm, ← List.take_take]
    exact (List.take_prefix _ _).trans hpre

theorem Evolves.agrees (hm : MatchInv tm s) (h : Evolves tm strict i s s')
    (hterm : s'.term i = s.term i) {l : ι} (hlead : s.leader (s.term i) = some l) (hne : l ≠ i)
    {k : ℕ} (hpre : (s.log i).take k <+: s.leaderLog (s.term i)) :
    (s'.log i).take k <+: s'.leaderLog (s.term i) := by
  induction h with
  | refl => exact hpre
  | @tail s₁ s₂ h h' ih =>
    have hle := (h.frame hm).ext.term i
    have hle' := (h'.frame (h.matchInv hm)).ext.term i
    have hsame : s₁.term i = s.term i := by omega
    have hlead' := ((h.frame hm).ext.leader _ l hlead).1
    have := h'.agrees (by omega) (hsame ▸ hlead') hne (hsame ▸ ih hsame)
    rwa [hsame] at this

/-- `i` moves to term `t` unless it is there or beyond. -/
def State.raiseTo (s : State ι ε) (i : ι) (t : ℤ) : State ι ε :=
  { s with term := Function.update s.term i (max (s.term i) t) }

theorem evolves_raiseTo (s : State ι ε) (i : ι) (t : ℤ) :
    Evolves tm strict i s (s.raiseTo i t) := by
  by_cases ht : s.term i < t
  · have heq : s.raiseTo i t = s.raise i t := by
      unfold State.raiseTo State.raise
      rw [max_eq_right ht.le]
    rw [heq]
    exact .one (.raise t ht)
  · have heq : s.raiseTo i t = s := by
      unfold State.raiseTo
      rw [max_eq_left (by omega), Function.update_eq_self]
    rw [heq]
    exact .refl

omit [Fintype ι] [DecidableEq ε] in
@[simp] theorem raiseTo_term (s : State ι ε) (i : ι) (t : ℤ) :
    (s.raiseTo i t).term i = max (s.term i) t := by
  simp [State.raiseTo]

end ReplicatedLog
