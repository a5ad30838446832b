import Mathlib.Data.List.Infix
import Mathlib.Data.Fintype.Card
import Mathlib.Logic.Function.Basic
import Mathlib.Order.Basic
import DistributedCache.Lib.Quorum
import DistributedCache.Lib.Window

/-!
# An abstract replicated log with term-based elections

The protocol a quorum-replicated log is meant to follow, over an arbitrary set `ι` of nodes and
arbitrary entries `ε` that carry a term `tm`.  A state keeps whole logs (nothing is ever compacted)
and the history an implementation forgets: which log a candidate advertised, which log a voter held
when it voted, and which prefixes were acknowledged in which term.

`MatchInv` is the log matching invariant, kept by every step.  `AckInv` says what acknowledgements
and votes promise about logs; it is kept by every step that does not cut a log short.  From the two
follow leader completeness and the agreement of committed prefixes.
-/

namespace ReplicatedLog

open Quorum Window

variable {ι ε : Type*}

structure State (ι ε : Type*) where
  term : ι → ℤ
  log : ι → List ε
  vote : ι → ℤ → Option ι
  /-- The log a voter held when it voted in a term. -/
  voteLog : ι → ℤ → List ε
  /-- The log a candidate advertised for a term. -/
  campaign : ι → ℤ → Option (List ε)
  leader : ℤ → Option ι
  /-- The log of a term's leader when it was elected. -/
  elected : ℤ → List ε
  /-- The log of a term's leader, as far as it has grown. -/
  leaderLog : ℤ → List ε
  /-- The node has held the first so many entries of the term's leader while in that term. -/
  ack : ι → ℤ → ℕ → Prop

def State.start : State ι ε where
  term _ := 0
  log _ := []
  vote _ _ := none
  voteLog _ _ := []
  campaign _ _ := none
  leader _ := none
  elected _ := []
  leaderLog _ := []
  ack _ _ _ := False

section Entries

variable (tm : ε → ℤ)

/-- The term of the last entry, `0` for the empty log. -/
def lastTerm (l : List ε) : ℤ := (l.getLast?.map tm).getD 0

/-- The election restriction: `cand` is at least as up to date as `own`. -/
def UpToDate (own cand : List ε) : Prop :=
  lastTerm tm own < lastTerm tm cand ∨
    lastTerm tm own = lastTerm tm cand ∧ own.length ≤ cand.length

theorem UpToDate.refl (l : List ε) : UpToDate tm l l := Or.inr ⟨rfl, le_rfl⟩

variable {tm}

theorem lastTerm_eq {l : List ε} {e : ε} (h : l[l.length - 1]? = some e) :
    lastTerm tm l = tm e := by
  rw [lastTerm, List.getLast?_eq_getElem?, h]
  rfl

theorem exists_last {l : List ε} (h : 0 < l.length) : ∃ e, l[l.length - 1]? = some e :=
  ⟨_, List.getElem?_eq_getElem (by omega)⟩

end Entries

/-- Every entry stands where the leader of its term put it, after the same entries. -/
def Matches (tm : ε → ℤ) (s : State ι ε) (l : List ε) : Prop :=
  ∀ p e, l[p]? = some e → ∃ c, s.leader (tm e) = some c ∧ l.take (p + 1) <+: s.leaderLog (tm e)

/-- What later states keep of earlier ones. -/
structure Extends (s s' : State ι ε) : Prop where
  term : ∀ i, s.term i ≤ s'.term i
  vote : ∀ v t c, s.vote v t = some c → s'.vote v t = some c ∧ s'.voteLog v t = s.voteLog v t
  campaign : ∀ c t l, s.campaign c t = some l → s'.campaign c t = some l
  leader : ∀ t c, s.leader t = some c →
    s'.leader t = some c ∧ s'.elected t = s.elected t ∧ s.leaderLog t <+: s'.leaderLog t
  ack : ∀ f t k, s.ack f t k → s'.ack f t k

theorem Extends.refl (s : State ι ε) : Extends s s :=
  ⟨fun _ ↦ le_rfl, fun _ _ _ h ↦ ⟨h, rfl⟩, fun _ _ _ h ↦ h,
    fun _ _ h ↦ ⟨h, rfl, List.prefix_refl _⟩, fun _ _ _ h ↦ h⟩

theorem Extends.trans {s s' s'' : State ι ε} (h : Extends s s') (h' : Extends s' s'') :
    Extends s s'' where
  term i := (h.term i).trans (h'.term i)
  vote v t c hv := by
    obtain ⟨hv', hl⟩ := h.vote v t c hv
    obtain ⟨hv'', hl'⟩ := h'.vote v t c hv'
    exact ⟨hv'', hl'.trans hl⟩
  campaign c t l hc := h'.campaign c t l (h.campaign c t l hc)
  leader t c hc := by
    obtain ⟨hc', he, hp⟩ := h.leader t c hc
    obtain ⟨hc'', he', hp'⟩ := h'.leader t c hc'
    exact ⟨hc'', he'.trans he, hp.trans hp'⟩
  ack f t k hk := h'.ack f t k (h.ack f t k hk)

theorem Matches.mono {tm : ε → ℤ} {s s' : State ι ε} {l : List ε} (h : Matches tm s l)
    (hext : Extends s s') : Matches tm s' l := by
  intro p e hp
  obtain ⟨c, hc, hpre⟩ := h p e hp
  obtain ⟨hc', -, hgrow⟩ := hext.leader _ c hc
  exact ⟨c, hc', hpre.trans hgrow⟩

theorem Matches.shorten {tm : ε → ℤ} {s : State ι ε} {l l' : List ε} (h : Matches tm s l)
    (hpre : l' <+: l) : Matches tm s l' := by
  intro p e hp
  have hlt : p < l'.length := (List.getElem?_eq_some_iff.mp hp).1
  have hle := hpre.length_le
  obtain ⟨c, hc, htake⟩ := h p e (prefix_getElem? hpre hp)
  refine ⟨c, hc, ?_⟩
  rwa [List.prefix_iff_eq_take.mp hpre, List.take_take, Nat.min_eq_left (by omega)]

/-! ## Steps -/

/-- Sets the value of a two-argument function at one pair. -/
def update₂ {α β γ : Type*} [DecidableEq α] [DecidableEq β] (f : α → β → γ) (a : α) (b : β)
    (x : γ) : α → β → γ :=
  fun a' b' ↦ if a' = a ∧ b' = b then x else f a' b'

section Steps

variable [Fintype ι] [DecidableEq ι] [DecidableEq ε] (tm : ε → ℤ)

namespace State

variable (s : State ι ε)

def raise (i : ι) (t : ℤ) : State ι ε := { s with term := Function.update s.term i t }

/-- `i` starts a campaign for term `t`: it votes for itself and advertises its log. -/
def stand (i : ι) (t : ℤ) : State ι ε :=
  { s with
    term := Function.update s.term i t
    vote := update₂ s.vote i t (some i)
    voteLog := update₂ s.voteLog i t (s.log i)
    campaign := update₂ s.campaign i t (some (s.log i)) }

def grant (v c : ι) : State ι ε :=
  { s with
    vote := update₂ s.vote v (s.term v) (some c)
    voteLog := update₂ s.voteLog v (s.term v) (s.log v) }

/-- `c` takes the lead of its term with the log it has. -/
def elect (c : ι) : State ι ε :=
  { s with
    leader := Function.update s.leader (s.term c) (some c)
    elected := Function.update s.elected (s.term c) (s.log c)
    leaderLog := Function.update s.leaderLog (s.term c) (s.log c)
    ack := fun f t k ↦ s.ack f t k ∨ f = c ∧ t = s.term c ∧ k ≤ (s.log c).length }

def append (i : ι) (e : ε) : State ι ε :=
  { s with
    log := Function.update s.log i (s.log i ++ [e])
    leaderLog := Function.update s.leaderLog (s.term i) (s.log i ++ [e])
    ack := fun f t k ↦ s.ack f t k ∨ f = i ∧ t = s.term i ∧ k ≤ (s.log i).length + 1 }

/-- `f` makes sure that it holds the prefix `p` of its leader's log. -/
def accept (f : ι) (p : List ε) : State ι ε :=
  { s with
    -- an old request must not cut what a newer one brought
    log := Function.update s.log f (if p <+: s.log f then s.log f else p)
    ack := fun g t k ↦ s.ack g t k ∨ g = f ∧ t = s.term f ∧ k ≤ p.length }

def truncate (f : ι) (k : ℕ) : State ι ε :=
  { s with log := Function.update s.log f ((s.log f).take k) }

end State

/-- The steps that keep what was acknowledged. -/
inductive Step (s : State ι ε) : State ι ε → Prop
  | raise (i : ι) (t : ℤ) (ht : s.term i < t) : Step s (s.raise i t)
  | stand (i : ι) (t : ℤ) (ht : s.term i < t) : Step s (s.stand i t)
  | grant (v c : ι) (l : List ε) (hfree : s.vote v (s.term v) = none)
      (hl : s.campaign c (s.term v) = some l) (hup : UpToDate tm (s.log v) l) :
      Step s (s.grant v c)
  | elect (c : ι) (q : Finset ι) (hnone : s.leader (s.term c) = none)
      (hl : s.campaign c (s.term c) = some (s.log c)) (hq : IsMajority q)
      (hv : ∀ v ∈ q, s.vote v (s.term c) = some c) : Step s (s.elect c)
  | append (i : ι) (e : ε) (hlead : s.leader (s.term i) = some i) (he : tm e = s.term i) :
      Step s (s.append i e)
  | accept (f l : ι) (p : List ε) (hlead : s.leader (s.term f) = some l) (hne : l ≠ f)
      (hp : p <+: s.leaderLog (s.term f)) : Step s (s.accept f p)

/-- All steps: a node that does not lead may also lose the end of its log. -/
inductive LossyStep (s : State ι ε) : State ι ε → Prop
  | keep {s' : State ι ε} (h : Step tm s s') : LossyStep s s'
  | truncate (f : ι) (k : ℕ) (hlead : s.leader (s.term f) ≠ some f) : LossyStep s (s.truncate f k)

end Steps

/-! ## Log matching -/

section MatchInv

variable [Fintype ι] (tm : ε → ℤ)

/-- What every reachable state satisfies, whether or not logs are cut. -/
structure MatchInv (s : State ι ε) : Prop where
  term_nonneg : ∀ i, 0 ≤ s.term i
  vote_term : ∀ v t c, s.vote v t = some c → t ≤ s.term v
  campaign_term : ∀ c t l, s.campaign c t = some l → 0 < t ∧ t ≤ s.term c
  campaign_log : ∀ c t l, s.campaign c t = some l → Matches tm s l ∧ ∀ e ∈ l, tm e < t
  leader_term : ∀ t c, s.leader t = some c → 0 < t ∧ t ≤ s.term c
  -- a node leads only while it is in its term
  leader_log : ∀ t c, s.leader t = some c → s.term c = t → s.log c = s.leaderLog t
  leader_quorum : ∀ t c, s.leader t = some c →
    ∃ q, IsMajority q ∧ ∀ v ∈ q, s.vote v t = some c
  leaderLog_ok : ∀ t c, s.leader t = some c →
    Matches tm s (s.leaderLog t) ∧ ∀ e ∈ s.leaderLog t, tm e ≤ t
  elected_ok : ∀ t c, s.leader t = some c →
    s.campaign c t = some (s.elected t) ∧ s.elected t <+: s.leaderLog t
  log_ok : ∀ i, Matches tm s (s.log i) ∧ ∀ e ∈ s.log i, tm e ≤ s.term i

theorem matchInv_start : MatchInv tm (State.start : State ι ε) where
  term_nonneg _ := le_rfl
  vote_term _ _ _ h := by cases h
  campaign_term _ _ _ h := by cases h
  campaign_log _ _ _ h := by cases h
  leader_term _ _ h := by cases h
  leader_log _ _ h := by cases h
  leader_quorum _ _ h := by cases h
  leaderLog_ok _ _ h := by cases h
  elected_ok _ _ h := by cases h
  log_ok _ := ⟨fun p e h ↦ by simp [State.start] at h, fun e h ↦ by simp [State.start] at h⟩

variable {tm} {s : State ι ε}

omit [Fintype ι] in
/-- **Log matching.** Entries of one term at one position agree, and so does all before them. -/
theorem Matches.agree {l l' : List ε} {p : ℕ} {e e' : ε} (h : Matches tm s l)
    (h' : Matches tm s l') (hp : l[p]? = some e) (hp' : l'[p]? = some e') (ht : tm e = tm e') :
    l.take (p + 1) = l'.take (p + 1) := by
  obtain ⟨c, -, hpre⟩ := h p e hp
  obtain ⟨c', -, hpre'⟩ := h' p e' hp'
  rw [← ht] at hpre'
  have hlt := (List.getElem?_eq_some_iff.mp hp).1
  have hlt' := (List.getElem?_eq_some_iff.mp hp').1
  have hlen : (l.take (p + 1)).length = (l'.take (p + 1)).length := by
    rw [List.length_take, List.length_take]
    omega
  -- two prefixes of one leader's log, of one length
  exact (List.prefix_of_prefix_length_le hpre hpre' hlen.le).eq_of_length hlen

/-- Terms never decrease along a log. -/
theorem MatchInv.sorted (hs : MatchInv tm s) {l : List ε} (h : Matches tm s l) {p q : ℕ} {e e' : ε}
    (hpq : p ≤ q) (hp : l[p]? = some e) (hq : l[q]? = some e') : tm e ≤ tm e' := by
  -- both entries are in the log of the later one's leader, whose terms are bounded
  obtain ⟨c, hc, hpre⟩ := h q e' hq
  have hmem : e ∈ s.leaderLog (tm e') := by
    have hget : (l.take (q + 1))[p]? = some e := by
      rw [List.getElem?_take_of_lt (by omega), hp]
    exact hpre.mem (List.mem_of_getElem? hget)
  exact (hs.leaderLog_ok _ c hc).2 e hmem

end MatchInv

/-! ## Preservation -/

section Preservation

variable [Fintype ι] [DecidableEq ι] [DecidableEq ε] {tm : ε → ℤ} {s s' : State ι ε}

@[simp] theorem update₂_same {α β γ : Type*} [DecidableEq α] [DecidableEq β] (f : α → β → γ)
    (a : α) (b : β) (x : γ) : update₂ f a b x a b = x := by simp [update₂]

theorem update₂_of_ne {α β γ : Type*} [DecidableEq α] [DecidableEq β] (f : α → β → γ)
    {a a' : α} {b b' : β} (x : γ) (h : ¬ (a' = a ∧ b' = b)) : update₂ f a b x a' b' = f a' b' :=
  if_neg h

variable {i c f : ι} {t : ℤ} {e : ε}

omit [Fintype ι] [DecidableEq ε] in
theorem extends_raise (ht : s.term i < t) : Extends s (s.raise i t) where
  term j := by
    by_cases hj : j = i
    · subst hj
      simpa [State.raise] using ht.le
    · simp [State.raise, hj]
  vote _ _ _ h := ⟨h, rfl⟩
  campaign _ _ _ h := h
  leader _ _ h := ⟨h, rfl, List.prefix_refl _⟩
  ack _ _ _ h := h

omit [DecidableEq ε] in
theorem extends_stand (hs : MatchInv tm s) (ht : s.term i < t) : Extends s (s.stand i t) where
  term j := by
    by_cases hj : j = i
    · subst hj
      simpa [State.stand] using ht.le
    · simp [State.stand, hj]
  vote v u c h := by
    have hne : ¬ (v = i ∧ u = t) := by
      -- no vote of the new term was there before
      rintro ⟨rfl, rfl⟩
      have := hs.vote_term _ _ _ h
      omega
    simp only [State.stand]
    rw [update₂_of_ne _ _ hne, update₂_of_ne _ _ hne]
    exact ⟨h, rfl⟩
  campaign c u l h := by
    have hne : ¬ (c = i ∧ u = t) := by
      rintro ⟨rfl, rfl⟩
      have := (hs.campaign_term _ _ _ h).2
      omega
    simp only [State.stand]
    rwa [update₂_of_ne _ _ hne]
  leader _ _ h := ⟨h, rfl, List.prefix_refl _⟩
  ack _ _ _ h := h

omit [Fintype ι] [DecidableEq ε] in
theorem extends_grant {v : ι} (hfree : s.vote v (s.term v) = none) : Extends s (s.grant v c) where
  term _ := le_rfl
  vote w u d h := by
    have hne : ¬ (w = v ∧ u = s.term v) := by
      rintro ⟨rfl, rfl⟩
      rw [hfree] at h
      cases h
    simp only [State.grant]
    rw [update₂_of_ne _ _ hne, update₂_of_ne _ _ hne]
    exact ⟨h, rfl⟩
  campaign _ _ _ h := h
  leader _ _ h := ⟨h, rfl, List.prefix_refl _⟩
  ack _ _ _ h := h

omit [Fintype ι] [DecidableEq ι] [DecidableEq ε] in
theorem extends_elect (hnone : s.leader (s.term c) = none) : Extends s (s.elect c) where
  term _ := le_rfl
  vote _ _ _ h := ⟨h, rfl⟩
  campaign _ _ _ h := h
  leader t d h := by
    have hne : t ≠ s.term c := by
      rintro rfl
      rw [hnone] at h
      cases h
    simp only [State.elect]
    rw [Function.update_of_ne hne, Function.update_of_ne hne, Function.update_of_ne hne]
    exact ⟨h, rfl, List.prefix_refl _⟩
  ack _ _ _ h := Or.inl h

omit [DecidableEq ε] in
theorem extends_append (hs : MatchInv tm s) (hlead : s.leader (s.term i) = some i) :
    Extends s (s.append i e) where
  term _ := le_rfl
  vote _ _ _ h := ⟨h, rfl⟩
  campaign _ _ _ h := h
  leader t d h := by
    refine ⟨h, rfl, ?_⟩
    simp only [State.append]
    by_cases ht : t = s.term i
    · subst ht
      rw [Function.update_self, hs.leader_log _ i hlead rfl]
      exact List.prefix_append _ _
    · rw [Function.update_of_ne ht]
  ack _ _ _ h := Or.inl h

omit [Fintype ι] in
theorem extends_accept {p : List ε} : Extends s (s.accept f p) where
  term _ := le_rfl
  vote _ _ _ h := ⟨h, rfl⟩
  campaign _ _ _ h := h
  leader _ _ h := ⟨h, rfl, List.prefix_refl _⟩
  ack _ _ _ h := Or.inl h

omit [Fintype ι] [DecidableEq ε] in
theorem extends_truncate {k : ℕ} : Extends s (s.truncate f k) where
  term _ := le_rfl
  vote _ _ _ h := ⟨h, rfl⟩
  campaign _ _ _ h := h
  leader _ _ h := ⟨h, rfl, List.prefix_refl _⟩
  ack _ _ _ h := h

theorem LossyStep.extends (hs : MatchInv tm s) (h : LossyStep tm s s') : Extends s s' := by
  cases h with
  | truncate f k _ => exact extends_truncate
  | keep h =>
    cases h with
    | raise i t ht => exact extends_raise ht
    | stand i t ht => exact extends_stand hs ht
    | grant v c l hfree _ _ => exact extends_grant hfree
    | elect c q hnone _ _ _ => exact extends_elect hnone
    | append i e hlead _ => exact extends_append hs hlead
    | accept f l p _ _ _ => exact extends_accept

omit [DecidableEq ι] in
/-- The fields of `MatchInv` that speak of leaders, votes and campaigns follow from the old ones
when a step records no new leader, vote or campaign. -/
theorem MatchInv.of_logs (hs : MatchInv tm s) (hext : Extends s s')
    (hvote : s'.vote = s.vote) (hcamp : s'.campaign = s.campaign) (hlead : s'.leader = s.leader)
    (hleader_log : ∀ t c, s.leader t = some c → s'.term c = t → s'.log c = s'.leaderLog t)
    (hleaderLog : ∀ t c, s.leader t = some c → s'.leaderLog t ≠ s.leaderLog t →
      Matches tm s' (s'.leaderLog t) ∧ ∀ e ∈ s'.leaderLog t, tm e ≤ t)
    (hlog : ∀ i, s'.log i ≠ s.log i →
      Matches tm s' (s'.log i) ∧ ∀ e ∈ s'.log i, tm e ≤ s'.term i) : MatchInv tm s' where
  term_nonneg i := (hs.term_nonneg i).trans (hext.term i)
  vote_term v t c h := (hs.vote_term v t c (hvote ▸ h)).trans (hext.term v)
  campaign_term c t l h := by
    obtain ⟨hpos, hle⟩ := hs.campaign_term c t l (hcamp ▸ h)
    exact ⟨hpos, hle.trans (hext.term c)⟩
  campaign_log c t l h := by
    obtain ⟨hm, hlt⟩ := hs.campaign_log c t l (hcamp ▸ h)
    exact ⟨hm.mono hext, hlt⟩
  leader_term t c h := by
    obtain ⟨hpos, hle⟩ := hs.leader_term t c (hlead ▸ h)
    exact ⟨hpos, hle.trans (hext.term c)⟩
  leader_log t c h := hleader_log t c (hlead ▸ h)
  leader_quorum t c h := by
    rw [hvote]
    exact hs.leader_quorum t c (hlead ▸ h)
  leaderLog_ok t c h := by
    rw [hlead] at h
    by_cases hsame : s'.leaderLog t = s.leaderLog t
    · obtain ⟨hm, hle⟩ := hs.leaderLog_ok t c h
      rw [hsame]
      exact ⟨hm.mono hext, hle⟩
    · exact hleaderLog t c h hsame
  elected_ok t c h := by
    rw [hlead] at h
    obtain ⟨-, he, hgrow⟩ := hext.leader t c h
    obtain ⟨hc, hpre⟩ := hs.elected_ok t c h
    rw [he, hcamp]
    exact ⟨hc, hpre.trans hgrow⟩
  log_ok i := by
    by_cases hsame : s'.log i = s.log i
    · obtain ⟨hm, hle⟩ := hs.log_ok i
      rw [hsame]
      exact ⟨hm.mono hext, fun e he ↦ (hle e he).trans (hext.term i)⟩
    · exact hlog i hsame

theorem matchInv_raise (hs : MatchInv tm s) (ht : s.term i < t) : MatchInv tm (s.raise i t) := by
  refine hs.of_logs (extends_raise ht) rfl rfl rfl ?_ (fun _ _ _ h ↦ absurd rfl h)
    (fun _ h ↦ absurd rfl h)
  intro u c hc hu
  have hle := (hs.leader_term u c hc).2
  by_cases hci : c = i
  · subst hci
    simp only [State.raise, Function.update_self] at hu
    omega
  · simp only [State.raise, Function.update_of_ne hci] at hu
    exact hs.leader_log u c hc hu

theorem matchInv_stand (hs : MatchInv tm s) (ht : s.term i < t) : MatchInv tm (s.stand i t) := by
  have hext := extends_stand hs ht
  have hterm : (s.stand i t).term i = t := by simp [State.stand]
  have h0 := hs.term_nonneg i
  obtain ⟨hmi, hbi⟩ := hs.log_ok i
  constructor
  case term_nonneg => exact fun j ↦ (hs.term_nonneg j).trans (hext.term j)
  case vote_term =>
    intro v u c h
    by_cases heq : v = i ∧ u = t
    · obtain ⟨rfl, rfl⟩ := heq
      exact hterm.ge
    · simp only [State.stand, update₂_of_ne _ _ heq] at h
      exact (hs.vote_term v u c h).trans (hext.term v)
  case campaign_term =>
    intro c u l h
    by_cases heq : c = i ∧ u = t
    · obtain ⟨rfl, rfl⟩ := heq
      exact ⟨by omega, hterm.ge⟩
    · simp only [State.stand, update₂_of_ne _ _ heq] at h
      obtain ⟨hpos, hle⟩ := hs.campaign_term c u l h
      exact ⟨hpos, hle.trans (hext.term c)⟩
  case campaign_log =>
    intro c u l h
    by_cases heq : c = i ∧ u = t
    -- the new campaign: its entries are of earlier terms, since the node was in one
    · obtain ⟨rfl, rfl⟩ := heq
      simp only [State.stand, update₂_same, Option.some.injEq] at h
      subst h
      exact ⟨hmi.mono hext, fun e he ↦ (hbi e he).trans_lt ht⟩
    · simp only [State.stand, update₂_of_ne _ _ heq] at h
      obtain ⟨hm, hlt⟩ := hs.campaign_log c u l h
      exact ⟨hm.mono hext, hlt⟩
  case leader_term =>
    intro u c h
    obtain ⟨hpos, hle⟩ := hs.leader_term u c h
    exact ⟨hpos, hle.trans (hext.term c)⟩
  case leader_log =>
    intro u c h hu
    have hle := (hs.leader_term u c h).2
    by_cases hci : c = i
    -- a leader that stands again has left the term it led
    · subst hci
      omega
    · simp only [State.stand, Function.update_of_ne hci] at hu
      exact hs.leader_log u c h hu
  case leader_quorum =>
    intro u c h
    obtain ⟨q, hq, hv⟩ := hs.leader_quorum u c h
    exact ⟨q, hq, fun v hvq ↦ (hext.vote v u c (hv v hvq)).1⟩
  case leaderLog_ok =>
    intro u c h
    obtain ⟨hm, hle⟩ := hs.leaderLog_ok u c h
    exact ⟨hm.mono hext, hle⟩
  case elected_ok =>
    intro u c h
    obtain ⟨hc, hpre⟩ := hs.elected_ok u c h
    exact ⟨hext.campaign c u _ hc, hpre⟩
  case log_ok =>
    intro j
    obtain ⟨hm, hle⟩ := hs.log_ok j
    exact ⟨hm.mono hext, fun e he ↦ (hle e he).trans (hext.term j)⟩

omit [DecidableEq ε] in
theorem matchInv_grant (hs : MatchInv tm s) {v : ι} (hfree : s.vote v (s.term v) = none) :
    MatchInv tm (s.grant v c) := by
  have hext : Extends s (s.grant v c) := extends_grant hfree
  refine { hs with
    vote_term := ?vote_term, campaign_log := ?campaign_log, leader_quorum := ?leader_quorum,
    leaderLog_ok := ?leaderLog_ok, log_ok := ?log_ok }
  case vote_term =>
    intro w u d h
    by_cases heq : w = v ∧ u = s.term v
    · obtain ⟨rfl, rfl⟩ := heq
      exact le_rfl
    · simp only [State.grant, update₂_of_ne _ _ heq] at h
      exact hs.vote_term w u d h
  case campaign_log =>
    intro d u l h
    obtain ⟨hm, hlt⟩ := hs.campaign_log d u l h
    exact ⟨hm.mono hext, hlt⟩
  case leader_quorum =>
    intro u d h
    obtain ⟨q, hq, hv⟩ := hs.leader_quorum u d h
    exact ⟨q, hq, fun w hw ↦ (hext.vote w u d (hv w hw)).1⟩
  case leaderLog_ok =>
    intro u d h
    obtain ⟨hm, hle⟩ := hs.leaderLog_ok u d h
    exact ⟨hm.mono hext, hle⟩
  case log_ok =>
    intro j
    obtain ⟨hm, hle⟩ := hs.log_ok j
    exact ⟨hm.mono hext, hle⟩

omit [Fintype ι] [DecidableEq ι] [DecidableEq ε] in
/-- After an election the leaders are those of before and the new one. -/
theorem elect_leader {d : ι} {u : ℤ} (h : (s.elect c).leader u = some d) :
    u = s.term c ∧ d = c ∨ u ≠ s.term c ∧ s.leader u = some d := by
  by_cases hu : u = s.term c
  · subst hu
    simp only [State.elect, Function.update_self, Option.some.injEq] at h
    exact Or.inl ⟨rfl, h.symm⟩
  · simp only [State.elect, Function.update_of_ne hu] at h
    exact Or.inr ⟨hu, h⟩

omit [Fintype ι] [DecidableEq ι] [DecidableEq ε] in
theorem elect_logs_same (s : State ι ε) (c : ι) :
    (s.elect c).elected (s.term c) = s.log c ∧ (s.elect c).leaderLog (s.term c) = s.log c := by
  simp [State.elect]

omit [Fintype ι] [DecidableEq ι] [DecidableEq ε] in
theorem elect_logs_of_ne {u : ℤ} (hu : u ≠ s.term c) :
    (s.elect c).elected u = s.elected u ∧ (s.elect c).leaderLog u = s.leaderLog u := by
  simp [State.elect, hu]

omit [DecidableEq ι] [DecidableEq ε] in
theorem matchInv_elect (hs : MatchInv tm s) {q : Finset ι} (hnone : s.leader (s.term c) = none)
    (hl : s.campaign c (s.term c) = some (s.log c)) (hq : IsMajority q)
    (hv : ∀ v ∈ q, s.vote v (s.term c) = some c) : MatchInv tm (s.elect c) := by
  have hext : Extends s (s.elect c) := extends_elect hnone
  obtain ⟨hmc, hbc⟩ := hs.log_ok c
  obtain ⟨helected, hleaderLog⟩ := elect_logs_same s c
  refine { hs with
    campaign_log := ?campaign_log, leader_term := ?leader_term, leader_log := ?leader_log,
    leader_quorum := ?leader_quorum, leaderLog_ok := ?leaderLog_ok, elected_ok := ?elected_ok,
    log_ok := ?log_ok }
  case campaign_log =>
    intro d u l h
    obtain ⟨hm, hlt⟩ := hs.campaign_log d u l h
    exact ⟨hm.mono hext, hlt⟩
  case leader_term =>
    intro u d h
    obtain ⟨rfl, rfl⟩ | ⟨hu, h⟩ := elect_leader h
    · exact hs.campaign_term _ _ _ hl
    · exact hs.leader_term u d h
  case leader_log =>
    intro u d h hd
    obtain ⟨rfl, rfl⟩ | ⟨hu, h⟩ := elect_leader h
    · exact hleaderLog.symm
    · rw [(elect_logs_of_ne hu).2]
      exact hs.leader_log u d h hd
  case leader_quorum =>
    intro u d h
    obtain ⟨rfl, rfl⟩ | ⟨hu, h⟩ := elect_leader h
    · exact ⟨q, hq, hv⟩
    · exact hs.leader_quorum u d h
  case leaderLog_ok =>
    intro u d h
    obtain ⟨rfl, rfl⟩ | ⟨hu, h⟩ := elect_leader h
    · rw [hleaderLog]
      exact ⟨hmc.mono hext, hbc⟩
    · obtain ⟨hm, hle⟩ := hs.leaderLog_ok u d h
      rw [(elect_logs_of_ne hu).2]
      exact ⟨hm.mono hext, hle⟩
  case elected_ok =>
    intro u d h
    -- the log a candidate is elected with is the one it advertised
    obtain ⟨rfl, rfl⟩ | ⟨hu, h⟩ := elect_leader h
    · rw [helected, hleaderLog]
      exact ⟨hl, List.prefix_refl _⟩
    · rw [(elect_logs_of_ne hu).1, (elect_logs_of_ne hu).2]
      exact hs.elected_ok u d h
  case log_ok =>
    intro j
    obtain ⟨hm, hle⟩ := hs.log_ok j
    exact ⟨hm.mono hext, hle⟩

omit [DecidableEq ε] in
/-- The leader's log with one more entry of its own term still matches. -/
theorem Matches.append (hs : MatchInv tm s) (hlead : s.leader (s.term i) = some i)
    (he : tm e = s.term i) : Matches tm (s.append i e) (s.log i ++ [e]) := by
  have hext := extends_append (e := e) hs hlead
  intro p x hx
  by_cases hp : p < (s.log i).length
  · rw [List.getElem?_append_left hp] at hx
    obtain ⟨c, hc, hpre⟩ := (hs.log_ok i).1.mono hext p x hx
    refine ⟨c, hc, ?_⟩
    rwa [List.take_append_of_le_length (by omega)]
  -- the new entry stands at the end of the log of its own term's leader
  · have hpe : p = (s.log i).length := by
      have := (List.getElem?_eq_some_iff.mp hx).1
      simp only [List.length_append, List.length_singleton] at this
      omega
    subst hpe
    have hxe : x = e := by simpa using hx.symm
    subst hxe
    refine ⟨i, by rw [he]; exact hlead, ?_⟩
    rw [he, List.take_of_length_le (by simp)]
    simp [State.append]

theorem matchInv_append (hs : MatchInv tm s) (hlead : s.leader (s.term i) = some i)
    (he : tm e = s.term i) : MatchInv tm (s.append i e) := by
  have hext := extends_append (e := e) hs hlead
  have hbound : ∀ x ∈ s.log i ++ [e], tm x ≤ s.term i := by
    intro x hx
    rcases List.mem_append.mp hx with hx | hx
    · exact (hs.log_ok i).2 x hx
    · rw [List.mem_singleton.mp hx, he]
  have hmatch := Matches.append hs hlead he
  refine hs.of_logs hext rfl rfl rfl ?_ ?_ ?_
  · intro t c hc ht
    simp only [State.append] at ht ⊢
    by_cases hci : c = i
    · subst hci
      subst ht
      rw [Function.update_self, Function.update_self]
    · have hti : t ≠ s.term i := by
        rintro rfl
        rw [hlead] at hc
        exact hci (Option.some.inj hc).symm
      rw [Function.update_of_ne hci, Function.update_of_ne hti]
      exact hs.leader_log t c hc ht
  · intro t c hc hne
    by_cases hti : t = s.term i
    · subst hti
      simp only [State.append, Function.update_self] at hmatch ⊢
      exact ⟨hmatch, hbound⟩
    · exact absurd (by simp [State.append, hti]) hne
  · intro j hne
    by_cases hji : j = i
    · subst hji
      simp only [State.append, Function.update_self] at hmatch ⊢
      exact ⟨hmatch, hbound⟩
    · exact absurd (by simp [State.append, hji]) hne

theorem matchInv_accept (hs : MatchInv tm s) {l : ι} {p : List ε}
    (hlead : s.leader (s.term f) = some l) (hne : l ≠ f) (hp : p <+: s.leaderLog (s.term f)) :
    MatchInv tm (s.accept f p) := by
  have hext : Extends s (s.accept f p) := extends_accept
  refine hs.of_logs hext rfl rfl rfl ?_ (fun _ _ _ h ↦ absurd rfl h) ?_
  · intro t c hc ht
    -- a leader accepts nothing in its own term
    have hcf : c ≠ f := by
      rintro rfl
      simp only [State.accept] at ht
      rw [ht, hc] at hlead
      exact hne (Option.some.inj hlead).symm
    simp only [State.accept, Function.update_of_ne hcf] at ht ⊢
    exact hs.leader_log t c hc ht
  · intro j hj
    by_cases hjf : j = f
    · subst hjf
      -- the log has changed, so it became the prefix of the leader's log
      have hlog : (s.accept j p).log j = p := by
        simp only [State.accept, Function.update_self] at hj ⊢
        rw [if_neg]
        intro hpre
        exact hj (if_pos hpre)
      obtain ⟨hm, hle⟩ := hs.leaderLog_ok _ l hlead
      rw [hlog]
      exact ⟨(hm.shorten hp).mono hext, fun e he ↦ hle e (hp.mem he)⟩
    · exact absurd (by simp [State.accept, hjf]) hj

theorem matchInv_truncate (hs : MatchInv tm s) {k : ℕ} (hlead : s.leader (s.term f) ≠ some f) :
    MatchInv tm (s.truncate f k) := by
  have hext : Extends s (s.truncate f k) := extends_truncate
  refine hs.of_logs hext rfl rfl rfl ?_ (fun _ _ _ h ↦ absurd rfl h) ?_
  · intro t c hc ht
    -- nor is its log cut
    have hcf : c ≠ f := by
      rintro rfl
      simp only [State.truncate] at ht
      exact hlead (ht ▸ hc)
    simp only [State.truncate, Function.update_of_ne hcf] at ht ⊢
    exact hs.leader_log t c hc ht
  · intro j hj
    by_cases hjf : j = f
    · subst hjf
      simp only [State.truncate, Function.update_self]
      obtain ⟨hm, hle⟩ := hs.log_ok j
      exact ⟨(hm.shorten (List.take_prefix _ _)).mono hext,
        fun e he ↦ hle e (List.mem_of_mem_take he)⟩
    · exact absurd (by simp [State.truncate, hjf]) hj

theorem LossyStep.matchInv (hs : MatchInv tm s) (h : LossyStep tm s s') : MatchInv tm s' := by
  cases h with
  | truncate f k hlead => exact matchInv_truncate hs hlead
  | keep h =>
    cases h with
    | raise i t ht => exact matchInv_raise hs ht
    | stand i t ht => exact matchInv_stand hs ht
    | grant v c l hfree _ _ => exact matchInv_grant hs hfree
    | elect c q hnone hl hq hv => exact matchInv_elect hs hnone hl hq hv
    | append i e hlead he => exact matchInv_append hs hlead he
    | accept f l p hlead hne hp => exact matchInv_accept hs hlead hne hp

end Preservation

end ReplicatedLog
