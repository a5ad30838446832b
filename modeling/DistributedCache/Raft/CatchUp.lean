import DistributedCache.Raft.Follower

/-!
# Catching up a follower

A leader that knows nothing of a follower's log tries ever shorter prefixes until the follower
accepts one.  `replicate` stops retreating at the end of the leader's snapshot, one position before
`needsSnapshot` would hold: a follower that does not have that prefix is asked for it for ever.
-/

namespace DistributedCache

open Transition Window

variable {n : Nat} {σ : Type}

/-- How a call of `replicate` ends when the follower can be reached. -/
inductive Round (n : Nat) (σ : Type) where
  | notLeader
  | snapshot (t : Transfer n)
  /-- The follower panics in `appendEntries`. -/
  | unanswered (args : LogRequestArgs n)
  | accepted (args : LogRequestArgs n) (follower : Raft n σ)
  | rejected (leader follower : Raft n σ)

namespace Raft

/-- `replicate`, with the `LogRequest` on the follower in its middle. -/
def replicateRound (app : Application σ) (disk : Disk) (id followerId : Fin n) (l f : Raft n σ) :
    Round n σ :=
  if l.currentRole ≠ .leader then .notLeader
  else if l.needsSnapshot followerId then .snapshot (l.sendInstallSnapshotRPC followerId)
  else
    let args := l.prepareLogRequestArgs id followerId
    match f.logRequest app disk followerId args with
    | none => .unanswered args
    | some (f', resp) =>
      if resp.success then .accepted args f'
      else
        let l' := l.countFailure followerId false
        -- a rejection commits nothing, so this cannot fail
        .rejected (((l'.replicateResponse id followerId resp).map Prod.fst).getD l') f'

/-- A round that ends in a rejection, on the states of the two nodes. -/
def rejectedRound (app : Application σ) (disk : Disk) (id followerId : Fin n)
    (s : Raft n σ × Raft n σ) (_ : Unit) : Option (Raft n σ × Raft n σ) :=
  match replicateRound app disk id followerId s.1 s.2 with
  | .rejected l f => some (l, f)
  | _ => none

/-- The request brings the leader's log from its prefix to its end. -/
def carriesToEnd (l : Raft n σ) (args : LogRequestArgs n) : Prop :=
  args.prefixLen + args.suffix.length = l.absLength ∧
    args.suffix = (l.log.drop (args.prefixLen - l.snapshotter.lastIndex).toNat).map LogEntry.wire

/-- What the rounds are to come to. -/
def catchesUp (l : Raft n σ) : Round n σ → Prop
  | .snapshot _ => True
  | .accepted args _ => l.carriesToEnd args
  | _ => False

/-- The request with the prefix of length `p`. -/
def requestAt (l : Raft n σ) (id : Fin n) (p : Int) : LogRequestArgs n where
  leaderId := id
  term := int32 l.currentTerm
  prefixLen := int32 p
  prefixTerm := int32 ((l.prevTerm p).getD 0)
  commitLength := int32 l.commitedLength
  suffix := l.wireSuffix (p + 1)

/-- The condition for it: of the prefixes from the one that is tried first down to the end of the
snapshot, the follower accepts one whose length fits `int32` before any other, its `appendEntries`
returns, and it is the first one that is tried unless the leader's term fits `int32`. -/
def AcceptsPrefix (app : Application σ) (disk : Disk) (id followerId : Fin n) (l f : Raft n σ) :
    Prop :=
  ∃ p, l.snapshotter.lastIndex ≤ p ∧ p < l.sentLengths followerId ∧ FitsInt32 p ∧
    f.acceptsLogRequest followerId (l.requestAt id p) ∧
    (f.logRequest app disk followerId (l.requestAt id p)).isSome = true ∧
    (∀ q, p < q → q < l.sentLengths followerId →
      ¬ f.acceptsLogRequest followerId (l.requestAt id q)) ∧
    (FitsInt32 l.currentTerm ∨ p = l.sentLengths followerId - 1)

variable {app : Application σ} {disk : Disk} {id followerId : Fin n} {l f : Raft n σ}
  {s s' : Raft n σ × Raft n σ}

theorem carriesToEnd_requestAt {p : Int} (hlow : l.snapshotter.lastIndex ≤ p)
    (hhigh : p ≤ l.absLength) : l.carriesToEnd (l.requestAt id p) ↔ FitsInt32 p := by
  rw [← int32_eq_self_iff]
  unfold carriesToEnd requestAt wireSuffix
  simp only [List.length_map, List.length_drop]
  unfold absLength at hhigh ⊢
  constructor
  · intro h
    omega
  · intro h
    rw [h]
    refine ⟨by omega, ?_⟩
    congr 2
    omega

/-! ## The follower's side -/

variable {args args' : LogRequestArgs n}

/-- What matters of a request before the check of its prefix is told once. -/
theorem followLeader_followLeader (hterm : args'.term = args.term)
    (hleader : args'.leaderId = args.leaderId) :
    (f.followLeader id args).followLeader id args' = f.followLeader id args' := by
  unfold followLeader
  rw [hterm, hleader]
  by_cases hlt : f.currentTerm < args.term
  · simp [hlt]
  · by_cases heq : f.currentTerm = args.term
    · simp [heq]
    · simp [hlt, heq]

theorem acceptsLogRequest_followLeader (hterm : args'.term = args.term)
    (hleader : args'.leaderId = args.leaderId) :
    (f.followLeader id args).acceptsLogRequest id args' ↔ f.acceptsLogRequest id args' := by
  have hsame : f.SameLog (f.followLeader id args) := followLeader_sameLog
  unfold acceptsLogRequest logOk Raft.absLength
  rw [followLeader_followLeader hterm hleader, hsame.log, hsame.snapshotter]

theorem logRequest_followLeader (hterm : args'.term = args.term)
    (hleader : args'.leaderId = args.leaderId) :
    (f.followLeader id args).logRequest app disk id args' = f.logRequest app disk id args' := by
  unfold logRequest logRequestDelivers
  simp only [followLeader_followLeader hterm hleader,
    acceptsLogRequest_followLeader hterm hleader]

theorem success_of_accepts {x : Raft n σ × LogResponse n} (h : f.acceptsLogRequest id args)
    (hx : f.logRequest app disk id args = some x) : x.2.success = true := by
  rw [logRequest_of_accepts h] at hx
  obtain ⟨y, -, rfl⟩ := Option.map_eq_some_iff.mp hx
  rfl

/-! ## Rounds -/

/-- A leader and a follower between two rounds: the leader's log has not changed, the prefixes
longer than the next one were rejected, and the follower answers as in the beginning. -/
structure Trying (app : Application σ) (disk : Disk) (id followerId : Fin n) (l f : Raft n σ)
    (s : Raft n σ × Raft n σ) : Prop where
  role : s.1.currentRole = .leader
  term : s.1.currentTerm = l.currentTerm
  log : l.SameLog s.1
  low : l.snapshotter.lastIndex < s.1.sentLengths followerId
  high : s.1.sentLengths followerId ≤ l.sentLengths followerId
  rejected : ∀ q, s.1.sentLengths followerId ≤ q → q < l.sentLengths followerId →
    ¬ f.acceptsLogRequest followerId (l.requestAt id q)
  stuck : ¬ FitsInt32 l.currentTerm → s.1.sentLengths followerId = l.sentLengths followerId
  answers : ∀ q, s.2.logRequest app disk followerId (l.requestAt id q) =
    f.logRequest app disk followerId (l.requestAt id q)

section Rounds

variable (hnonneg : 0 ≤ l.snapshotter.lastIndex)
  (hreach : l.sentLengths followerId ≤ l.absLength + 1)

include hnonneg in
theorem Trying.nextIndex (h : Trying app disk id followerId l f s) :
    s.1.nextIndex followerId = s.1.sentLengths followerId ∧ ¬ s.1.needsSnapshot followerId := by
  have hlow := h.low
  have hnext : s.1.nextIndex followerId = s.1.sentLengths followerId := if_neg (by omega)
  refine ⟨hnext, ?_⟩
  unfold needsSnapshot
  rw [hnext, h.log.snapshotter]
  omega

include hnonneg hreach in
theorem Trying.request (h : Trying app disk id followerId l f s) :
    s.1.prepareLogRequestArgs id followerId =
      l.requestAt id (s.1.sentLengths followerId - 1) := by
  obtain ⟨hnext, hsnapshot⟩ := h.nextIndex hnonneg
  have hlow := h.low
  have hhigh := h.high
  have hprev : ∃ t, l.prevTerm (s.1.sentLengths followerId - 1) = some t := by
    unfold absLength at hreach
    unfold Raft.prevTerm
    split
    · exact ⟨0, rfl⟩
    split
    · exact ⟨_, rfl⟩
    obtain ⟨e, he⟩ := exists_index? (l := l.log)
      (i := s.1.sentLengths followerId - 1 - l.snapshotter.lastIndex - 1) (by omega) (by omega)
    exact ⟨e.term, by rw [he]; rfl⟩
  obtain ⟨t, ht⟩ := hprev
  have ht' : s.1.prevTerm (s.1.sentLengths followerId - 1) = some t := by
    unfold Raft.prevTerm at ht ⊢
    rwa [h.log.log, h.log.snapshotter]
  unfold prepareLogRequestArgs requestAt
  rw [if_neg hsnapshot]
  simp only [hnext, ht', ht, h.term, h.log.commitedLength, Option.getD_some, Int.sub_add_cancel]
  unfold wireSuffix
  rw [h.log.log, h.log.snapshotter]

include hnonneg hreach in
theorem Trying.replicateRound (h : Trying app disk id followerId l f s) :
    Raft.replicateRound app disk id followerId s.1 s.2 =
      match f.logRequest app disk followerId (l.requestAt id (s.1.sentLengths followerId - 1)) with
      | none => .unanswered (l.requestAt id (s.1.sentLengths followerId - 1))
      | some (f', resp) =>
        if resp.success then .accepted (l.requestAt id (s.1.sentLengths followerId - 1)) f'
        else .rejected ((((s.1.countFailure followerId false).replicateResponse id followerId
          resp).map Prod.fst).getD (s.1.countFailure followerId false)) f' := by
  unfold Raft.replicateRound
  rw [if_neg (not_not.mpr h.role), if_neg (h.nextIndex hnonneg).2]
  simp only [h.request hnonneg hreach, h.answers]

/-- A rejection of a prefix, on the leader: it steps down, tries the prefix that is one shorter if
there is one, or has no use for the answer. -/
theorem Trying.leader_step (h : Trying app disk id followerId l f s) (term : Int) :
    ∃ l', (s.1.countFailure followerId false).replicateResponse id followerId
        ⟨followerId, int32 term, 0, false⟩ = some (l', []) ∧
      (l'.currentRole = .leader → l'.currentTerm = l.currentTerm ∧ l.SameLog l' ∧
        (l'.sentLengths followerId = s.1.sentLengths followerId ∨
          FitsInt32 l.currentTerm ∧
            l.snapshotter.lastIndex + 1 < s.1.sentLengths followerId ∧
            l'.sentLengths followerId = s.1.sentLengths followerId - 1)) ∧
      (int32 term = l.currentTerm → l.snapshotter.lastIndex + 1 < s.1.sentLengths followerId →
        l'.currentRole = .leader ∧
          l'.sentLengths followerId = s.1.sentLengths followerId - 1) := by
  have hterm : (s.1.countFailure followerId false).currentTerm = l.currentTerm := h.term
  have hsame : l.SameLog (s.1.countFailure followerId false) :=
    ⟨h.log.log, h.log.snapshotter, h.log.commitedLength⟩
  unfold replicateResponse
  simp only [hterm, Bool.false_eq_true, if_false]
  by_cases hnewer : int32 l.currentTerm < int32 term
  · rw [if_pos hnewer]
    refine ⟨_, rfl, ?_, fun hequal _ ↦ ?_⟩
    · intro hrole
      cases hrole
    rw [← hequal, int32_int32] at hnewer
    exact absurd hnewer (Int.lt_irrefl _)
  rw [if_neg hnewer]
  by_cases hequal : int32 term = l.currentTerm
  · rw [if_pos ⟨h.role, hequal⟩]
    refine ⟨_, rfl, ?_, ?_⟩
    · intro _
      unfold retreat
      split
      · rename_i habove
        refine ⟨hterm, ⟨hsame.log, hsame.snapshotter, hsame.commitedLength⟩, Or.inr ⟨?_, ?_, ?_⟩⟩
        · exact hequal ▸ int32_fits term
        · exact hsame.snapshotter ▸ habove
        · exact Function.update_self _ _ _
      · exact ⟨hterm, hsame, Or.inl rfl⟩
    · intro _ habove
      have hretreat : (s.1.countFailure followerId false).snapshotter.lastIndex + 1 <
          (s.1.countFailure followerId false).sentLengths followerId := by
        rw [hsame.snapshotter]
        exact habove
      unfold retreat
      rw [if_pos hretreat]
      exact ⟨h.role, Function.update_self _ _ _⟩
  · rw [if_neg fun hboth ↦ hequal hboth.2]
    exact ⟨_, rfl, fun _ ↦ ⟨hterm, hsame, Or.inl rfl⟩, fun h' ↦ absurd h' hequal⟩

include hnonneg hreach in
/-- A prefix that the follower does not accept is rejected, and the leader goes on trying as long as
it leads. -/
theorem Trying.step (h : Trying app disk id followerId l f s)
    (hrejects : ¬ f.acceptsLogRequest followerId
      (l.requestAt id (s.1.sentLengths followerId - 1))) :
    ∃ s', rejectedRound app disk id followerId s () = some s' ∧
      (s'.1.currentRole = .leader → Trying app disk id followerId l f s') ∧
      (f.currentTerm ≤ int32 l.currentTerm → FitsInt32 l.currentTerm →
        l.snapshotter.lastIndex + 1 < s.1.sentLengths followerId →
        s'.1.currentRole = .leader ∧
          s'.1.sentLengths followerId = s.1.sentLengths followerId - 1) := by
  obtain ⟨l', hresp, hnext, hretreats⟩ := h.leader_step
    (f.followLeader followerId
      (l.requestAt id (s.1.sentLengths followerId - 1))).currentTerm
  have hround : rejectedRound app disk id followerId s () = some (l', f.followLeader followerId
      (l.requestAt id (s.1.sentLengths followerId - 1))) := by
    unfold rejectedRound
    rw [h.replicateRound hnonneg hreach, logRequest_of_rejects hrejects]
    simp only [rejectLogRequest, Bool.false_eq_true, if_false, hresp, Option.map_some,
      Option.getD_some]
  refine ⟨_, hround, fun hrole ↦ ?_, fun hterm hfits habove ↦ ?_⟩
  · obtain ⟨hterm, hlog, hsent⟩ := hnext hrole
    have hlow := h.low
    have hhigh := h.high
    refine ⟨hrole, hterm, hlog, ?_, ?_, fun q hq hlt ↦ ?_, fun hnot ↦ ?_, fun q ↦ ?_⟩
    · change _ < l'.sentLengths followerId
      omega
    · change l'.sentLengths followerId ≤ _
      omega
    · change l'.sentLengths followerId ≤ q at hq
      by_cases hlast : q = s.1.sentLengths followerId - 1
      · rw [hlast]
        exact hrejects
      · exact h.rejected q (by omega) hlt
    · obtain hsame | ⟨hfits, -⟩ := hsent
      · exact hsame.trans (h.stuck hnot)
      · exact absurd hfits hnot
    · exact logRequest_followLeader rfl rfl
  · refine hretreats ?_ habove
    have hself := int32_eq_self hfits
    obtain ⟨-, heq⟩ | ⟨hsame, heq⟩ | ⟨hlt, -⟩ := f.followLeader_cases followerId
      (l.requestAt id (s.1.sentLengths followerId - 1))
    · rw [heq]
      exact (int32_int32 _).trans hself
    · rw [heq]
      exact (congrArg int32 hsame).trans ((int32_int32 _).trans hself)
    · exact absurd hterm (Int.not_le.mpr hlt)

include hnonneg hreach in
/-- A rejection was of a prefix that the follower does not accept. -/
theorem Trying.rejects (h : Trying app disk id followerId l f s)
    (hround : rejectedRound app disk id followerId s () = some s') :
    ¬ f.acceptsLogRequest followerId (l.requestAt id (s.1.sentLengths followerId - 1)) := by
  intro haccepts
  unfold rejectedRound at hround
  rw [h.replicateRound hnonneg hreach] at hround
  cases hreq : f.logRequest app disk followerId
      (l.requestAt id (s.1.sentLengths followerId - 1)) with
  | none =>
    rw [hreq] at hround
    cases hround
  | some x =>
    rw [hreq] at hround
    simp only [success_of_accepts haccepts hreq, if_true] at hround
    cases hround

include hnonneg hreach in
theorem trying_of_reachable (hstart : Trying app disk id followerId l f (l, f))
    (hrun : Reachable (rejectedRound app disk id followerId) (l, f) s)
    (hrole : s.1.currentRole = .leader) : Trying app disk id followerId l f s := by
  refine hrun.invariant
    (fun s ↦ s.1.currentRole = .leader → Trying app disk id followerId l f s) (fun _ ↦ hstart)
    ?_ hrole
  intro s _ s' _ hs _ hround
  have hleads : s.1.currentRole = .leader := by
    by_contra hnot
    unfold rejectedRound Raft.replicateRound at hround
    rw [if_pos hnot] at hround
    cases hround
  have htrying := hs hleads
  obtain ⟨s'', hround', hnext, -⟩ :=
    htrying.step hnonneg hreach (htrying.rejects hnonneg hreach hround)
  rw [Option.some.inj (hround.symm.trans hround')]
  exact hnext

include hnonneg hreach in
/-- An accepted request is of a prefix as the condition asks for. -/
theorem Trying.acceptsPrefix (h : Trying app disk id followerId l f s)
    (hround : l.catchesUp (Raft.replicateRound app disk id followerId s.1 s.2)) :
    AcceptsPrefix app disk id followerId l f := by
  have hlow := h.low
  have hhigh := h.high
  rw [h.replicateRound hnonneg hreach] at hround
  cases hreq : f.logRequest app disk followerId
      (l.requestAt id (s.1.sentLengths followerId - 1)) with
  | none =>
    rw [hreq] at hround
    exact hround.elim
  | some x =>
    rw [hreq] at hround
    simp only at hround
    split at hround
    · rename_i hsuccess
      refine ⟨s.1.sentLengths followerId - 1, by omega, by omega,
        (carriesToEnd_requestAt (by omega) (by omega)).mp hround, ?_, by rw [hreq]; rfl,
        fun q hq ↦ h.rejected q (by omega), ?_⟩
      · by_contra hrejects
        rw [logRequest_of_rejects hrejects] at hreq
        cases hreq
        cases hsuccess
      · refine or_iff_not_imp_left.mpr fun hnot ↦ ?_
        rw [h.stuck hnot]
    · exact hround.elim

section Accepted

variable {p : Int} (hp : l.snapshotter.lastIndex ≤ p)
  (haccepts : f.acceptsLogRequest followerId (l.requestAt id p))
  (hrejects : ∀ q, p < q → q < l.sentLengths followerId →
    ¬ f.acceptsLogRequest followerId (l.requestAt id q))
  (hterm : FitsInt32 l.currentTerm ∨ p = l.sentLengths followerId - 1)

include hnonneg hreach hp haccepts hrejects hterm

/-- Above the prefix that is accepted every round is rejected and tries a shorter one. -/
theorem Trying.advance (h : Trying app disk id followerId l f s)
    (hlt : p + 1 < s.1.sentLengths followerId) :
    ∃ s', rejectedRound app disk id followerId s () = some s' ∧
      Trying app disk id followerId l f s' ∧
      s'.1.sentLengths followerId = s.1.sentLengths followerId - 1 := by
  have hhigh := h.high
  obtain ⟨s', hround, hnext, hretreats⟩ :=
    h.step hnonneg hreach (hrejects _ (by omega) (by omega))
  obtain ⟨hleads, hsent⟩ := hretreats (acceptsLogRequest_follower haccepts).1
    (hterm.resolve_right (by omega)) (by omega)
  exact ⟨s', hround, hnext hleads, hsent⟩

/-- So the rounds come down to it. -/
theorem Trying.catchesUp (h : Trying app disk id followerId l f (l, f)) (hfits : FitsInt32 p)
    (hsome : (f.logRequest app disk followerId (l.requestAt id p)).isSome = true)
    (hsent : p < l.sentLengths followerId) :
    ∃ s, Reachable (rejectedRound app disk id followerId) (l, f) s ∧
      l.catchesUp (Raft.replicateRound app disk id followerId s.1 s.2) := by
  have hdescend : ∀ s, (Trying app disk id followerId l f s ∧ p < s.1.sentLengths followerId) →
      l.catchesUp (Raft.replicateRound app disk id followerId s.1 s.2) ∨
        ∃ a s', True ∧ rejectedRound app disk id followerId s a = some s' ∧
          (Trying app disk id followerId l f s' ∧ p < s'.1.sentLengths followerId) ∧
          (s'.1.sentLengths followerId - p).toNat < (s.1.sentLengths followerId - p).toNat := by
    rintro s ⟨h, hlt⟩
    by_cases hlast : s.1.sentLengths followerId - 1 = p
    · left
      obtain ⟨x, hx⟩ := Option.isSome_iff_exists.mp hsome
      rw [h.replicateRound hnonneg hreach, hlast, hx]
      simp only [success_of_accepts haccepts hx, if_true]
      exact (carriesToEnd_requestAt hp (by omega)).mpr hfits
    · right
      obtain ⟨s', hround, hnext, hsent'⟩ :=
        h.advance hnonneg hreach hp haccepts hrejects hterm (by omega)
      exact ⟨(), s', trivial, hround, ⟨hnext, by omega⟩, by omega⟩
  obtain ⟨s, hrun, -, hfinal⟩ := exists_reaches_final _ _ _ hdescend ⟨h, hsent⟩
  exact ⟨s, hrun, hfinal⟩

/-- A rejection leaves the leader with a shorter prefix to try. -/
theorem Trying.retreats (h : Trying app disk id followerId l f s)
    (hlt : p < s.1.sentLengths followerId)
    (hround : rejectedRound app disk id followerId s () = some s') :
    (Trying app disk id followerId l f s' ∧ p < s'.1.sentLengths followerId) ∧
      s'.1.sentLengths followerId = s.1.sentLengths followerId - 1 := by
  have hne : s.1.sentLengths followerId - 1 ≠ p := fun heq ↦
    h.rejects hnonneg hreach hround (heq.symm ▸ haccepts)
  obtain ⟨s'', hround', hnext, hsent⟩ :=
    h.advance hnonneg hreach hp haccepts hrejects hterm (by omega)
  rw [Option.some.inj (hround.symm.trans hround')]
  exact ⟨⟨hnext, by omega⟩, hsent⟩

end Accepted

end Rounds

/-- A leader with a prefix to try: rounds come to an accepted request that brings the log to its end
or to a transfer, and every rejection on the way changes a state, exactly under the condition. -/
theorem follower_catches_up_iff (app : Application σ) (disk : Disk) (id followerId : Fin n)
    {l f : Raft n σ} (hrole : l.currentRole = .leader) (hnonneg : 0 ≤ l.snapshotter.lastIndex)
    (hlow : l.snapshotter.lastIndex < l.sentLengths followerId)
    (hreach : l.sentLengths followerId ≤ l.absLength + 1) :
    ((∃ s, Reachable (rejectedRound app disk id followerId) (l, f) s ∧
        l.catchesUp (replicateRound app disk id followerId s.1 s.2)) ∧
      ∀ s s', Reachable (rejectedRound app disk id followerId) (l, f) s →
        rejectedRound app disk id followerId s () = some s' → s' ≠ s) ↔
      AcceptsPrefix app disk id followerId l f := by
  have hstart : Trying app disk id followerId l f (l, f) :=
    ⟨hrole, rfl, .refl l, hlow, le_rfl, fun q hq hlt ↦ absurd hlt (Int.not_lt.mpr hq),
      fun _ ↦ rfl, fun _ ↦ rfl⟩
  constructor
  · rintro ⟨⟨s, hrun, hround⟩, -⟩
    by_cases hleads : s.1.currentRole = .leader
    · exact (trying_of_reachable hnonneg hreach hstart hrun hleads).acceptsPrefix hnonneg hreach
        hround
    · unfold replicateRound at hround
      rw [if_pos hleads] at hround
      exact hround.elim
  · rintro ⟨p, hp, hsent, hfits, haccepts, hsome, hrejects, hterm⟩
    refine ⟨hstart.catchesUp hnonneg hreach hp haccepts hrejects hterm hfits hsome hsent, ?_⟩
    intro s s' hrun hround hsame
    obtain ⟨htrying, hlt⟩ := hrun.invariant
      (fun s ↦ Trying app disk id followerId l f s ∧ p < s.1.sentLengths followerId)
      ⟨hstart, hsent⟩ fun s _ s' _ h _ hround ↦
        (h.1.retreats hnonneg hreach hp haccepts hrejects hterm h.2 hround).1
    have hsent' := (htrying.retreats hnonneg hreach hp haccepts hrejects hterm hlt hround).2
    rw [hsame] at hsent'
    omega

/-- A new leader of term 2 with two entries of term 1, and an empty follower. -/
def sampleLeader : Raft 2 Unit :=
  { newRaft 2 1000 () with
    currentTerm := 2
    log := [⟨1, samplePut 1⟩, ⟨1, samplePut 2⟩] }.becomeLeader 0

theorem follower_catches_up_empty :
    (∃ s, Reachable (rejectedRound keepsNothing .healthy 0 1) (sampleLeader, newRaft 2 1000 ()) s ∧
      sampleLeader.catchesUp (replicateRound keepsNothing .healthy 0 1 s.1 s.2)) ∧
    ∀ s s', Reachable (rejectedRound keepsNothing .healthy 0 1)
        (sampleLeader, newRaft 2 1000 ()) s →
      rejectedRound keepsNothing .healthy 0 1 s () = some s' → s' ≠ s := by
  refine (follower_catches_up_iff keepsNothing .healthy 0 1 rfl (by decide +kernel)
    (by decide +kernel) (by decide +kernel)).mpr
    ⟨0, by decide +kernel, by decide +kernel, by decide +kernel, by decide +kernel,
      by decide +kernel, fun q hq hlt ↦ ?_, by decide +kernel⟩
  have hsent : sampleLeader.sentLengths 1 = 3 := by decide +kernel
  obtain rfl | rfl : q = 1 ∨ q = 2 := by omega
  · decide +kernel
  · decide +kernel

/-- A leader of term 1 whose two entries are in its snapshot. -/
def sampleCompacted : Raft 2 Unit :=
  { newRaft 2 1000 () with
    currentTerm := 1
    commitedLength := 2
    snapshotter := ⟨2, 1, 1000⟩
    snapshotFile := some [7] }.becomeLeader 0

/-- A follower of that leader with an empty log. -/
def sampleEmpty : Raft 2 Unit :=
  { newRaft 2 1000 () with currentTerm := 1, currentLeaderId := some 0 }

theorem countFailure_reset {reps : Fin n → Option Replicator} (h : l.replicators = some reps)
    (hzero : reps followerId = some ⟨0⟩) : l.countFailure followerId false = l := by
  have hreps : (fun g ↦ if g = followerId then
      (reps g).map fun rep ↦ (⟨if false then rep.consecutiveFailures + 1 else 0⟩ : Replicator)
      else reps g) = reps := by
    funext g
    split
    · rename_i hg
      rw [hg, hzero]
      rfl
    · rfl
  unfold countFailure
  rw [h, Option.map_some, hreps, ← h]

/-- The leader asks for a prefix of two entries, is refused, and neither node changes: no snapshot
is ever sent. -/
theorem follower_never_catches_up :
    replicateRound keepsNothing .healthy 0 1 sampleCompacted sampleEmpty =
        .rejected sampleCompacted sampleEmpty ∧
      ∀ s, Reachable (rejectedRound keepsNothing .healthy 0 1) (sampleCompacted, sampleEmpty) s →
        s = (sampleCompacted, sampleEmpty) := by
  have hround : replicateRound keepsNothing .healthy 0 1 sampleCompacted sampleEmpty =
      .rejected sampleCompacted sampleEmpty := by
    unfold replicateRound
    rw [if_neg (by decide +kernel)]
    simp only
    rw [if_neg (by decide +kernel), countFailure_reset (l := sampleCompacted) rfl rfl]
    rfl
  refine ⟨hround, fun s hrun ↦ hrun.invariant (· = (sampleCompacted, sampleEmpty)) rfl ?_⟩
  intro s a s' _ hs _ hstep
  subst hs
  unfold rejectedRound at hstep
  simp only [hround] at hstep
  exact (Option.some.inj hstep).symm

end Raft

end DistributedCache
