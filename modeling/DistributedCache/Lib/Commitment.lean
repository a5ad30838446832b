import Mathlib.Tactic.Linarith
import DistributedCache.Lib.ReplicatedLog

/-!
# Acknowledged prefixes, leader completeness and committed prefixes

A prefix acknowledged in a term stays in the acknowledging node's log unless a later leader was
elected without it.  A majority's acknowledgements and the majority that elected a later leader
have a node in common, so by induction on terms no leader is ever elected without a prefix that a
majority acknowledged and that ends in an entry of the acknowledging term.
-/

namespace ReplicatedLog

open Quorum Window

variable {ι ε : Type*} [Fintype ι] {tm : ε → ℤ}
  {s s' : State ι ε}

/-- A leader after term `t`, up to term `u`, was elected without the first `k` entries of the
leader of `t`. -/
def Lost (s : State ι ε) (t : ℤ) (k : ℕ) (u : ℤ) : Prop :=
  ∃ t' c, t < t' ∧ t' ≤ u ∧ s.leader t' = some c ∧ ¬ (s.leaderLog t).take k <+: s.elected t'

/-- `l` holds whatever `f` acknowledged before term `t`, except what was lost up to term `u`. -/
def Holds (s : State ι ε) (f : ι) (t u : ℤ) (l : List ε) : Prop :=
  ∀ t' k, t' < t → s.ack f t' k → (s.leaderLog t').take k <+: l ∨ Lost s t' k u

structure AckInv (tm : ε → ℤ) (s : State ι ε) : Prop where
  ack_ok : ∀ f t k, s.ack f t k → (∃ c, s.leader t = some c) ∧ t ≤ s.term f ∧
    k ≤ (s.leaderLog t).length ∧ ((s.leaderLog t).take k <+: s.log f ∨ Lost s t k (s.term f))
  vote_ok : ∀ v t c, s.vote v t = some c →
    (∃ l, s.campaign c t = some l ∧ UpToDate tm (s.voteLog v t) l) ∧
      Matches tm s (s.voteLog v t) ∧ Holds s v t t (s.voteLog v t)
  quorum_ok : ∀ t c, s.leader t = some c → ∃ q, IsMajority q ∧
    ∀ v ∈ q, s.vote v t = some c ∧ Holds s v t (t - 1) (s.voteLog v t)

theorem ackInv_start : AckInv tm (State.start : State ι ε) where
  ack_ok _ _ _ h := h.elim
  vote_ok _ _ _ h := by cases h
  quorum_ok _ _ h := by cases h

variable {t u : ℤ} {c d : ι} {k : ℕ} {l : List ε}

omit [Fintype ι] in
theorem Extends.take_eq (hext : Extends s s') (hc : s.leader t = some c)
    (hk : k ≤ (s.leaderLog t).length) : (s'.leaderLog t).take k = (s.leaderLog t).take k :=
  prefix_take_eq (hext.leader t c hc).2.2 hk

omit [Fintype ι] in
theorem Lost.mono (hext : Extends s s') {u' : ℤ} (hc : s.leader t = some c)
    (hk : k ≤ (s.leaderLog t).length) (h : Lost s t k u) (hu : u ≤ u') : Lost s' t k u' := by
  obtain ⟨t', c', hlt, hle, hc', hnot⟩ := h
  obtain ⟨hc'', he, -⟩ := hext.leader t' c' hc'
  refine ⟨t', c', hlt, hle.trans hu, hc'', ?_⟩
  rwa [hext.take_eq hc hk, he]

/-- What has to be checked of a step: old prefixes survive or are lost, and every new
acknowledgement, vote and leader is founded on the state it is made in. -/
theorem AckInv.of_extends (hs : AckInv tm s) (hext : Extends s s') (hmatch : MatchInv tm s')
    (hlog : ∀ f t k, s.ack f t k → (s.leaderLog t).take k <+: s.log f →
      (s.leaderLog t).take k <+: s'.log f ∨ Lost s' t k (s'.term f))
    (hack : ∀ f t k, s'.ack f t k → s.ack f t k ∨ (∃ c, s'.leader t = some c) ∧ t = s'.term f ∧
      k ≤ (s'.leaderLog t).length ∧ (s'.leaderLog t).take k <+: s'.log f)
    (hvote : ∀ v t c, s'.vote v t = some c → s.vote v t = some c ∨ t = s'.term v ∧
      s'.voteLog v t = s'.log v ∧ ∃ l, s'.campaign c t = some l ∧ UpToDate tm (s'.log v) l)
    (hlead : ∀ t c, s'.leader t = some c → s.leader t = some c ∨ s.leader t = none ∧
      ∃ q, IsMajority q ∧ ∀ v ∈ q, s.vote v t = some c) : AckInv tm s' := by
  have hacks : ∀ f t k, s'.ack f t k → (∃ c, s'.leader t = some c) ∧ t ≤ s'.term f ∧
      k ≤ (s'.leaderLog t).length ∧
        ((s'.leaderLog t).take k <+: s'.log f ∨ Lost s' t k (s'.term f)) := by
    intro f t k h
    rcases hack f t k h with hold | ⟨hc, ht, hk, hpre⟩
    · obtain ⟨⟨c, hc⟩, ht, hk, hpre⟩ := hs.ack_ok f t k hold
      obtain ⟨hc', -, hgrow⟩ := hext.leader t c hc
      refine ⟨⟨c, hc'⟩, ht.trans (hext.term f), hk.trans hgrow.length_le, ?_⟩
      rcases hpre with hpre | hlost
      · rw [hext.take_eq hc hk]
        exact hlog f t k hold hpre
      · exact Or.inr (hlost.mono hext hc hk (hext.term f))
    · exact ⟨hc, ht.le, hk, Or.inl hpre⟩
  -- A vote is for a term its voter has reached, so nothing is acknowledged in an earlier term
  -- after it: every acknowledgement a vote has to answer for is an old one.
  have hholds : ∀ v t c u l, s'.vote v t = some c → Holds s v t u l → Holds s' v t u l := by
    intro v t c u l hv hold t' k ht' hk'
    rcases hack v t' k hk' with hk | ⟨-, heq, -⟩
    · obtain ⟨⟨d, hd⟩, -, hlen, -⟩ := hs.ack_ok v t' k hk
      rw [hext.take_eq hd hlen]
      rcases hold t' k ht' hk with hpre | hlost
      · exact Or.inl hpre
      · exact Or.inr (hlost.mono hext hd hlen le_rfl)
    · have := hmatch.vote_term v t c hv
      omega
  refine ⟨hacks, ?_, ?_⟩
  · intro v t c hv
    rcases hvote v t c hv with hold | ⟨ht, hvl, l, hl, hup⟩
    · obtain ⟨⟨l, hl, hup⟩, hm, hh⟩ := hs.vote_ok v t c hold
      rw [(hext.vote v t c hold).2]
      exact ⟨⟨l, hext.campaign c t l hl, hup⟩, hm.mono hext, hholds v t c t _ hv hh⟩
    · rw [hvl]
      refine ⟨⟨l, hl, hup⟩, (hmatch.log_ok v).1, ?_⟩
      intro t' k _ hk
      have := (hacks v t' k hk).2.2.2
      rwa [← ht] at this
  · intro t c hc
    rcases hlead t c hc with hold | ⟨hnone, q, hq, hv⟩
    · obtain ⟨q, hq, hv⟩ := hs.quorum_ok t c hold
      refine ⟨q, hq, fun v hvq ↦ ?_⟩
      obtain ⟨hvote, hh⟩ := hv v hvq
      obtain ⟨hvote', hvl⟩ := hext.vote v t c hvote
      rw [hvl]
      exact ⟨hvote', hholds v t c _ _ hvote' hh⟩
    · refine ⟨q, hq, fun v hvq ↦ ?_⟩
      obtain ⟨hvote', hvl⟩ := hext.vote v t c (hv v hvq)
      rw [hvl]
      refine ⟨hvote', hholds v t c _ _ hvote' ?_⟩
      intro t' k ht' hk
      rcases (hs.vote_ok v t c (hv v hvq)).2.2 t' k ht' hk with hpre | ⟨u, d, hlt, hle, hd, hnot⟩
      · exact Or.inl hpre
      · -- the term had no leader yet, so the loss is due to an earlier one
        have hne : u ≠ t := by
          rintro rfl
          rw [hnone] at hd
          cases hd
        exact Or.inr ⟨u, d, hlt, by omega, hd, hnot⟩

section Steps

variable [DecidableEq ι] [DecidableEq ε]

theorem ackInv_accept (hm : MatchInv tm s) (hs : AckInv tm s) {f l : ι} {p : List ε}
    (hlead : s.leader (s.term f) = some l) (hne : l ≠ f) (hp : p <+: s.leaderLog (s.term f)) :
    AckInv tm (s.accept f p) := by
  have hlog : (s.accept f p).log f = if p <+: s.log f then s.log f else p := by
    simp [State.accept]
  refine hs.of_extends extends_accept (matchInv_accept hm hlead hne hp) ?_ ?_
    (fun _ _ _ h ↦ Or.inl h) (fun _ _ h ↦ Or.inl h)
  · intro g t k hk hpre
    by_cases hgf : g = f
    · subst hgf
      rw [hlog]
      split
      · exact Or.inl hpre
      · rename_i hnp
        by_cases hkp : (s.leaderLog t).take k <+: p
        · exact Or.inl hkp
        · -- `p` is not below the acknowledged prefix, so the leader of this term lacked the latter
          obtain ⟨⟨d, hd⟩, ht, -, -⟩ := hs.ack_ok g t k hk
          have habove : ∀ q, q <+: s.leaderLog (s.term g) → ¬ (s.leaderLog t).take k <+: q := by
            intro q hq hkq
            exact hnp ((prefix_flip (hkq.trans hq) hp hkp).trans hpre)
          have hlt : t < s.term g := by
            refine lt_of_le_of_ne ht fun heq ↦ ?_
            exact habove _ (List.prefix_refl _) (heq ▸ List.take_prefix _ _)
          exact Or.inr ⟨s.term g, l, hlt, le_rfl, hlead,
            habove _ (hm.elected_ok _ l hlead).2⟩
    · simp only [State.accept, Function.update_of_ne hgf]
      exact Or.inl hpre
  · rintro g t k (h | ⟨rfl, rfl, hk⟩)
    · exact Or.inl h
    · refine Or.inr ⟨⟨l, hlead⟩, rfl, hk.trans hp.length_le, ?_⟩
      change (s.leaderLog (s.term g)).take k <+: _
      rw [prefix_take_eq hp hk, hlog]
      split
      · exact (List.take_prefix _ _).trans (by assumption)
      · exact List.take_prefix _ _

theorem Step.ackInv (hm : MatchInv tm s) (hs : AckInv tm s) (h : Step tm s s') : AckInv tm s' := by
  have hext := LossyStep.extends hm (.keep h)
  have hm' := LossyStep.matchInv hm (.keep h)
  cases h with
  | raise i t ht =>
    exact hs.of_extends hext hm' (fun _ _ _ _ h ↦ Or.inl h) (fun _ _ _ h ↦ Or.inl h)
      (fun _ _ _ h ↦ Or.inl h) (fun _ _ h ↦ Or.inl h)
  | stand i t ht =>
    refine hs.of_extends hext hm' (fun _ _ _ _ h ↦ Or.inl h) (fun _ _ _ h ↦ Or.inl h) ?_
      (fun _ _ h ↦ Or.inl h)
    intro v u c hv
    by_cases heq : v = i ∧ u = t
    · obtain ⟨rfl, rfl⟩ := heq
      have hvc : v = c := by simpa [State.stand] using hv
      subst hvc
      refine Or.inr ⟨by simp [State.stand], by simp [State.stand], s.log v, ?_, UpToDate.refl tm _⟩
      simp [State.stand]
    · simp only [State.stand, update₂_of_ne _ _ heq] at hv
      exact Or.inl hv
  | grant v c l hfree hl hup =>
    refine hs.of_extends hext hm' (fun _ _ _ _ h ↦ Or.inl h) (fun _ _ _ h ↦ Or.inl h) ?_
      (fun _ _ h ↦ Or.inl h)
    intro w u d hw
    by_cases heq : w = v ∧ u = s.term v
    · obtain ⟨rfl, rfl⟩ := heq
      have hcd : c = d := by simpa [State.grant] using hw
      subst hcd
      exact Or.inr ⟨rfl, by simp [State.grant], l, hl, hup⟩
    · simp only [State.grant, update₂_of_ne _ _ heq] at hw
      exact Or.inl hw
  | elect c q hnone hl hq hv =>
    refine hs.of_extends hext hm' (fun _ _ _ _ h ↦ Or.inl h) ?_ (fun _ _ _ h ↦ Or.inl h) ?_
    · rintro f t k (h | ⟨rfl, rfl, hk⟩)
      · exact Or.inl h
      · exact Or.inr ⟨⟨f, by simp [State.elect]⟩, rfl, by simpa [State.elect] using hk,
          by simpa [State.elect] using List.take_prefix _ _⟩
    · intro t d hd
      by_cases ht : t = s.term c
      · subst ht
        have hcd : c = d := by simpa [State.elect] using hd
        subst hcd
        exact Or.inr ⟨hnone, q, hq, hv⟩
      · simp only [State.elect, Function.update_of_ne ht] at hd
        exact Or.inl hd
  | append i e hlead he =>
    refine hs.of_extends hext hm' ?_ ?_ (fun _ _ _ h ↦ Or.inl h) (fun _ _ h ↦ Or.inl h)
    · intro f t k _ hpre
      by_cases hfi : f = i
      · subst hfi
        simp only [State.append, Function.update_self]
        exact Or.inl (hpre.trans (List.prefix_append _ _))
      · simp only [State.append, Function.update_of_ne hfi]
        exact Or.inl hpre
    · rintro f t k (h | ⟨rfl, rfl, hk⟩)
      · exact Or.inl h
      · refine Or.inr ⟨⟨f, hlead⟩, rfl, by simpa [State.append] using hk, ?_⟩
        simpa [State.append] using List.take_prefix _ _
  | accept f l p hlead hne hp => exact ackInv_accept hm hs hlead hne hp

end Steps

/-! ## Leader completeness -/

/-- A majority acknowledged, in term `t`, the first `k` entries of its leader, the last of them of
that term. -/
def Committable (tm : ε → ℤ) (s : State ι ε) (t : ℤ) (k : ℕ) : Prop :=
  (∃ c, s.leader t = some c) ∧ 0 < k ∧ (∃ e, (s.leaderLog t)[k - 1]? = some e ∧ tm e = t) ∧
    ∃ q, IsMajority q ∧ ∀ f ∈ q, s.ack f t k

theorem Committable.mono (hext : Extends s s') (h : Committable tm s t k) :
    Committable tm s' t k := by
  obtain ⟨⟨c, hc⟩, hpos, ⟨e, he, hte⟩, q, hq, hack⟩ := h
  obtain ⟨hc', -, hgrow⟩ := hext.leader t c hc
  exact ⟨⟨c, hc'⟩, hpos, ⟨e, prefix_getElem? hgrow he, hte⟩, q, hq,
    fun f hf ↦ hext.ack f t k (hack f hf)⟩

/-- A log at least as up to date as one that holds the first `k` entries of the leader of `t`, the
last of them of term `t`, holds them too, provided that every later leader up to the last term of
the log does. -/
theorem prefix_of_upToDate (hm : MatchInv tm s) {e : ε} {own cand : List ε}
    (hc : s.leader t = some c) (hk : 0 < k) (he : (s.leaderLog t)[k - 1]? = some e) (hte : tm e = t)
    (hown : Matches tm s own) (hcand : Matches tm s cand) (hpre : (s.leaderLog t).take k <+: own)
    (hup : UpToDate tm own cand)
    (hlater : ∀ u d, t < u → u ≤ lastTerm tm cand → s.leader u = some d → (s.leaderLog t).take k <+:
      s.leaderLog u) : (s.leaderLog t).take k <+: cand := by
  have hklen : k ≤ (s.leaderLog t).length := by
    have := (List.getElem?_eq_some_iff.mp he).1
    omega
  have htake : ((s.leaderLog t).take k).length = k := by
    rw [List.length_take]
    omega
  have hownk : own[k - 1]? = some e := by
    refine prefix_getElem? hpre ?_
    rw [List.getElem?_take_of_lt (by omega), he]
  have hownlen : k ≤ own.length := htake ▸ hpre.length_le
  obtain ⟨eo, heo⟩ := exists_last (l := own) (by omega)
  have hlast : t ≤ lastTerm tm own := by
    rw [lastTerm_eq heo, ← hte]
    exact hm.sorted hown (by omega) hownk heo
  have htpos := (hm.leader_term t c hc).1
  have hcandlen : 0 < cand.length := by
    by_contra hzero
    have hnil : cand = [] := List.length_eq_zero_iff.mp (by omega)
    subst hnil
    simp only [UpToDate, List.length_nil, show lastTerm tm ([] : List ε) = 0 from rfl] at hup
    omega
  obtain ⟨ec, hec⟩ := exists_last hcandlen
  have hlc : lastTerm tm cand = tm ec := lastTerm_eq hec
  obtain ⟨d, hd, hcpre⟩ := hcand _ ec hec
  rw [List.take_of_length_le (by omega)] at hcpre
  have hle : t ≤ tm ec := by
    rcases hup with h | ⟨h, -⟩ <;> omega
  rcases hle.lt_or_eq with hlt | heq
  · -- the last entry is of a later term, whose leader has the prefix before its own entries
    have hu := hlater (tm ec) d hlt hlc.ge hd
    refine (List.prefix_or_prefix_of_prefix hu hcpre).resolve_right fun hshort ↦ ?_
    have hmem : ec ∈ s.leaderLog t :=
      List.mem_of_mem_take (hshort.mem (List.mem_of_getElem? hec))
    have := (hm.leaderLog_ok t c hc).2 ec hmem
    omega
  · -- both logs end in term `t`, so the candidate's is the longer part of its leader's log
    have hlen : own.length ≤ cand.length := by
      rcases hup with h | ⟨-, h⟩
      · omega
      · exact h
    rw [← heq] at hcpre
    exact List.prefix_of_prefix_length_le (List.take_prefix _ _) hcpre (by omega)

/-- **Leader completeness.** -/
theorem leader_completeness (hm : MatchInv tm s) (hs : AckInv tm s) (hcom : Committable tm s t k)
    (htu : t < u) (hd : s.leader u = some d) : (s.leaderLog t).take k <+: s.elected u := by
  obtain ⟨⟨c, hc⟩, hk, ⟨e, he, hte⟩, q, hq, hack⟩ := hcom
  have hklen : k ≤ (s.leaderLog t).length := by
    have := (List.getElem?_eq_some_iff.mp he).1
    omega
  -- strong induction on the distance from `t`
  induction hn : (u - t).toNat using Nat.strong_induction_on generalizing u d with
  | _ n ih =>
    obtain ⟨q', hq', hvotes⟩ := hs.quorum_ok u d hd
    obtain ⟨v, hvq, hvq'⟩ := hq.meet hq'
    obtain ⟨hvote, hholds⟩ := hvotes v hvq'
    obtain ⟨⟨l, hl, hup⟩, hvm, -⟩ := hs.vote_ok v u d hvote
    obtain ⟨hcamp, -⟩ := hm.elected_ok u d hd
    obtain rfl : s.elected u = l := Option.some.inj (hcamp.symm.trans hl)
    obtain ⟨hlm, hlb⟩ := hm.campaign_log d u _ hcamp
    have hbefore : ∀ w x, t < w → w < u → s.leader w = some x →
        (s.leaderLog t).take k <+: s.elected w := fun w x htw hwu hx ↦
      ih _ (by omega) htw hx rfl
    have hown : (s.leaderLog t).take k <+: s.voteLog v u := by
      rcases hholds t k htu (hack v hvq) with hpre | ⟨w, x, htw, hwu, hx, hnot⟩
      · exact hpre
      · exact absurd (hbefore w x htw (by omega) hx) hnot
    refine prefix_of_upToDate hm hc hk he hte hvm hlm hown hup fun w x htw hw hx ↦ ?_
    have hwu : w < u := by
      by_cases hnil : 0 < (s.elected u).length
      · obtain ⟨x, hx⟩ := exists_last hnil
        rw [lastTerm_eq hx] at hw
        exact hw.trans_lt (hlb x (List.mem_of_getElem? hx))
      · have : s.elected u = [] := List.length_eq_zero_iff.mp (by omega)
        rw [this, show lastTerm tm ([] : List ε) = 0 from rfl] at hw
        have := (hm.leader_term t c hc).1
        omega
    exact (hbefore w x htw hwu hx).trans (hm.elected_ok w x hx).2

/-! ## Committed prefixes -/

/-- `l` is a prefix of something committable in a term up to `t`. -/
def Covered (tm : ε → ℤ) (s : State ι ε) (t : ℤ) (l : List ε) : Prop :=
  l = [] ∨ ∃ t' k, t' ≤ t ∧ Committable tm s t' k ∧ l <+: (s.leaderLog t').take k

theorem Covered.mono (hext : Extends s s') {t' : ℤ} (h : Covered tm s t l) (ht : t ≤ t') :
    Covered tm s' t' l := by
  rcases h with rfl | ⟨u, k, hu, hcom, hpre⟩
  · exact Or.inl rfl
  · obtain ⟨⟨c, hc⟩, -, ⟨e, he, -⟩, -⟩ := id hcom
    have hk : k ≤ (s.leaderLog u).length := by
      have := (List.getElem?_eq_some_iff.mp he).1
      omega
    refine Or.inr ⟨u, k, hu.trans ht, hcom.mono hext, ?_⟩
    rwa [hext.take_eq hc hk]

theorem Covered.shorten {l' : List ε} (h : Covered tm s t l) (hpre : l' <+: l) :
    Covered tm s t l' := by
  rcases h with rfl | ⟨u, k, hu, hcom, hl⟩
  · exact Or.inl (List.prefix_nil.mp hpre)
  · exact Or.inr ⟨u, k, hu, hcom, hpre.trans hl⟩

/-- Later leaders start with everything covered by then. -/
theorem Covered.prefix_elected (hm : MatchInv tm s) (hs : AckInv tm s) (h : Covered tm s t l)
    (htu : t < u) (hd : s.leader u = some d) : l <+: s.elected u := by
  rcases h with rfl | ⟨t', k, ht', hcom, hl⟩
  · exact List.nil_prefix
  · exact hl.trans (leader_completeness hm hs hcom (by omega) hd)

/-- A leader's log contains everything covered up to its own term. -/
theorem Covered.prefix_leaderLog (hm : MatchInv tm s) (hs : AckInv tm s) (h : Covered tm s t l)
    (hd : s.leader t = some d) : l <+: s.leaderLog t := by
  rcases h with rfl | ⟨t', k, ht', hcom, hl⟩
  · exact List.nil_prefix
  · rcases ht'.lt_or_eq with hlt | rfl
    · exact (hl.trans (leader_completeness hm hs hcom hlt hd)).trans (hm.elected_ok t d hd).2
    · exact hl.trans (List.take_prefix _ _)

/-- The leader of the highest term there is has everything that is covered. -/
theorem Covered.prefix_log (hm : MatchInv tm s) (hs : AckInv tm s) {i : ι} (h : Covered tm s t l)
    (hlead : s.leader (s.term i) = some i) (hhighest : ∀ j, s.term j ≤ s.term i) :
    l <+: s.log i := by
  rw [hm.leader_log _ i hlead rfl]
  refine Covered.prefix_leaderLog hm hs ?_ hlead
  rcases h with rfl | ⟨t', k, -, hcom, hl⟩
  · exact Or.inl rfl
  · obtain ⟨c, hc⟩ := hcom.1
    exact Or.inr ⟨t', k, (hm.leader_term t' c hc).2.trans (hhighest c), hcom, hl⟩

/-- **State machine safety.** Of two covered prefixes one contains the other. -/
theorem Covered.comparable (hm : MatchInv tm s) (hs : AckInv tm s) {t' : ℤ} {l' : List ε}
    (h : Covered tm s t l) (h' : Covered tm s t' l') : l <+: l' ∨ l' <+: l := by
  rcases h with rfl | ⟨u, k, -, hcom, hl⟩
  · exact Or.inl List.nil_prefix
  rcases h' with rfl | ⟨u', k', -, hcom', hl'⟩
  · exact Or.inr List.nil_prefix
  obtain ⟨d, hd⟩ := hcom.1
  obtain ⟨d', hd'⟩ := hcom'.1
  have hleft : Covered tm s u l := Or.inr ⟨u, k, le_rfl, hcom, hl⟩
  have hright : Covered tm s u' l' := Or.inr ⟨u', k', le_rfl, hcom', hl'⟩
  have hsame : ∀ {w x}, s.leader w = some x → Covered tm s w l → Covered tm s w l' →
      l <+: l' ∨ l' <+: l := fun hx hl hl' ↦
    List.prefix_or_prefix_of_prefix (hl.prefix_leaderLog hm hs hx) (hl'.prefix_leaderLog hm hs hx)
  rcases le_total u u' with hle | hle
  · exact hsame hd' (hleft.mono (Extends.refl s) hle) hright
  · exact hsame hd hleft (hright.mono (Extends.refl s) hle)

end ReplicatedLog
