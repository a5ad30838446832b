import Mathlib.Order.Bounds.Basic
import DistributedCache.Raft.Follower

/-!
# How far `commitLogEntries` commits

The loop takes one position at a time and stops at the first that too few nodes have acknowledged.
Fewer nodes have acknowledged a longer log, so it stops at the greatest length that enough of them
have.
-/

namespace DistributedCache

open Window

variable {n : Nat} {σ : Type} {r r' : Raft n σ} {id : Fin n} {ds : List Delivery} {p : Int}
  {k : Nat}

namespace Raft

/-! ## The loop as it is written -/

/-- How a loop has ended. -/
inductive LoopEnd where
  | broke (delivered : List Delivery)
  | panicked
  deriving DecidableEq

/-- The same, with one delivery before. -/
def LoopEnd.after (d : Delivery) : LoopEnd → LoopEnd
  | .broke ds => .broke (d :: ds)
  | .panicked => .panicked

/-- The `for` loop of `commitLogEntries` at commit length `p`, for a number of rounds; `none` when
it is still running after them. -/
def commitRounds (r : Raft n σ) (id : Fin n) : Nat → Int → Option LoopEnd
  | 0, _ => none
  | k + 1, p =>
    if p < r.absLength then
      if r.quorumAcked id p then
        match r.entryAt p with
        | none => some .panicked
        | some e => (r.commitRounds id k (p + 1)).map (.after (p, e.message))
      else some (.broke [])
    else some (.broke [])

/-- The loop runs to its end in one round more than there are uncommitted entries. -/
theorem commitRounds_eq {fuel : Nat} (hp : p + k = r.absLength) (hfuel : k < fuel)
    (h : r.commitLoop id k p = some ds) : r.commitRounds id fuel p = some (.broke ds) := by
  -- on the rounds that `commitLoop` allows, which are the uncommitted entries
  induction k generalizing p ds fuel with
  | zero =>
    obtain ⟨fuel, rfl⟩ := Nat.exists_eq_add_one_of_ne_zero hfuel.ne'
    obtain rfl : [] = ds := by simpa [commitLoop] using h
    rw [commitRounds, if_neg (by omega)]
  | succ k ih =>
    obtain ⟨fuel, rfl⟩ := Nat.exists_eq_add_one_of_ne_zero (by omega : fuel ≠ 0)
    simp only [commitLoop] at h
    rw [commitRounds, if_pos (by omega)]
    split at h
    · rename_i hacked
      obtain ⟨e, he, hrest⟩ := Option.bind_eq_some_iff.mp h
      obtain ⟨ds', hds', rfl⟩ := Option.map_eq_some_iff.mp hrest
      have hnext : r.commitRounds id fuel (p + 1) = some (.broke ds') :=
        ih (by omega) (by omega) hds'
      rw [if_pos hacked, he]
      simp only [hnext, Option.map_some, LoopEnd.after]
    · rename_i hacked
      obtain rfl : [] = ds := by simpa using h
      rw [if_neg hacked]

/-! ## Where it stops -/

/-- The other nodes that have acknowledged a log of length `k`. -/
def acknowledgers (r : Raft n σ) (id : Fin n) (k : Int) : Finset (Fin n) :=
  Finset.univ.filter fun j ↦ j ≠ id ∧ k ≤ r.ackedLengths j

theorem acknowledgers_anti {k k' : Int} (h : k ≤ k') :
    r.acknowledgers id k' ⊆ r.acknowledgers id k := by
  intro j hj
  obtain ⟨hne, hacked⟩ := (Finset.mem_filter.mp hj).2
  exact Finset.mem_filter.mpr ⟨Finset.mem_univ j, hne, h.trans hacked⟩

/-- The majority of the code is half of the nodes, beside the leader. -/
theorem quorumAcked_iff_acknowledgers :
    r.quorumAcked id p ↔ n / 2 ≤ (r.acknowledgers id (p + 1)).card := by
  unfold quorumAcked acknowledgers majority
  simp only [Int.add_one_le_iff]
  omega

/-- The commit lengths that the acknowledgements allow. -/
def committable (r : Raft n σ) (id : Fin n) : Set Int :=
  {k | r.commitedLength ≤ k ∧ k ≤ r.absLength ∧
    (k = r.commitedLength ∨ n / 2 ≤ (r.acknowledgers id k).card)}

/-- On a log that holds the positions, the loop does not panic, and it stops early only at a
position that is not acknowledged. -/
theorem commitLoop_total (id : Fin n) (hlow : r.snapshotter.lastIndex ≤ p)
    (hhigh : p + k ≤ r.absLength) :
    ∃ ds, r.commitLoop id k p = some ds ∧
      (ds.length < k → ¬ r.quorumAcked id (p + ds.length)) := by
  induction k generalizing p with
  | zero => exact ⟨[], rfl, fun h ↦ absurd h (Nat.not_lt_zero _)⟩
  | succ k ih =>
    simp only [commitLoop]
    split
    · obtain ⟨e, he⟩ := exists_entryAt hlow (by omega)
      obtain ⟨ds, hds, hstop⟩ := ih (p := p + 1) (by omega) (by omega)
      refine ⟨(p, e.message) :: ds, by rw [he, Option.bind_some, hds, Option.map_some], ?_⟩
      intro hlt hacked
      rw [List.length_cons] at hlt hacked
      refine hstop (by omega) ?_
      rwa [show p + 1 + (ds.length : Int) = p + ((ds.length + 1 : Nat) : Int) by omega]
    · rename_i hacked
      exact ⟨[], rfl, fun _ ↦ by simpa using hacked⟩

/-- The delivered messages are a slice of the log. -/
theorem Delivers.messages_eq (h : r.Delivers p ds) (hlow : r.snapshotter.lastIndex ≤ p) :
    ds.map Prod.snd =
      ((r.log.drop (p - r.snapshotter.lastIndex).toNat).take ds.length).map LogEntry.message := by
  refine List.ext_getElem? fun j ↦ ?_
  rw [List.getElem?_map, List.getElem?_map]
  by_cases hj : j < ds.length
  · have hd : ds[j]? = some ds[j] := List.getElem?_eq_getElem hj
    obtain ⟨e, he, hmessage⟩ := h.messages _ (List.getElem_mem hj)
    rw [entryAt, fst_of_positions h.positions hd, at?_of_le (by omega)] at he
    rw [List.getElem?_take_of_lt hj, List.getElem?_drop, hd, Option.map_some, ← hmessage]
    rw [show (p - r.snapshotter.lastIndex).toNat + j =
      (p + j - r.snapshotter.lastIndex).toNat by omega, he, Option.map_some]
  · rw [List.getElem?_eq_none (by omega), List.getElem?_eq_none (by rw [List.length_take]; omega)]
    rfl

/-- The loop stops at the greatest length that the acknowledgements allow. -/
theorem isGreatest_committable {left : Nat}
    (hleft : r.commitedLength + left = r.absLength) (hlen : ds.length ≤ left)
    (hacked : ∀ q, r.commitedLength ≤ q → q < r.commitedLength + ds.length → r.quorumAcked id q)
    (hstop : ds.length < left → ¬ r.quorumAcked id (r.commitedLength + ds.length)) :
    IsGreatest (r.committable id) (r.commitedLength + ds.length) := by
  refine ⟨⟨by omega, by omega, ?_⟩, ?_⟩
  · -- the last position that was taken was acknowledged
    by_cases hnil : ds.length = 0
    · exact Or.inl (by omega)
    · have hlast := hacked (r.commitedLength + ds.length - 1) (by omega) (by omega)
      rw [quorumAcked_iff_acknowledgers, Int.sub_add_cancel] at hlast
      exact Or.inr hlast
  · -- a greater length would have to be acknowledged up to where the loop stopped
    rintro m ⟨-, hle, hm⟩
    by_contra hgt
    refine hstop (by omega) (quorumAcked_iff_acknowledgers.mpr ?_)
    rcases hm with heq | hcard
    · omega
    · exact hcard.trans (Finset.card_le_card (acknowledgers_anti (by omega)))

/-- `commitLogEntries` ends, commits as much as the acknowledgements allow, and hands the messages
of what it commits to the application, in order. -/
theorem commitLogEntries_exact (r : Raft n σ) (id : Fin n)
    (hlow : r.snapshotter.lastIndex ≤ r.commitedLength) (hhigh : r.commitedLength ≤ r.absLength) :
    ∃ r' ds, r.commitLogEntries id = some (r', ds) ∧
      (∀ rounds, (r.absLength - r.commitedLength).toNat < rounds →
        r.commitRounds id rounds r.commitedLength = some (.broke ds)) ∧
      IsGreatest (r.committable id) r'.commitedLength ∧
      ds.map Prod.fst = positions r.commitedLength (r'.commitedLength - r.commitedLength).toNat ∧
      ds.map Prod.snd = ((r.log.drop (r.commitedLength - r.snapshotter.lastIndex).toNat).take
        (r'.commitedLength - r.commitedLength).toNat).map LogEntry.message := by
  have hleft : r.commitedLength + ((r.absLength - r.commitedLength).toNat : Int) = r.absLength := by
    omega
  obtain ⟨ds, hloop, hstop⟩ := commitLoop_total id hlow hleft.le
  obtain ⟨hdel, hlen, hacked⟩ := commitLoop_spec hloop
  have hcount : (r.commitedLength + ds.length - r.commitedLength).toNat = ds.length := by omega
  refine ⟨{ r with commitedLength := r.commitedLength + ds.length }, ds, ?_, ?_, ?_, ?_, ?_⟩
  · rw [commitLogEntries, hloop, Option.map_some]
  · exact fun rounds hrounds ↦ commitRounds_eq hleft hrounds hloop
  · exact isGreatest_committable hleft hlen hacked hstop
  · simp only [hcount, hdel.positions]
  · simp only [hcount]
    exact hdel.messages_eq hlow

/-- A leader of three whose second entry one of the others holds, too. -/
def sampleAcked : Raft 3 Unit :=
  { newRaft 3 1000 () with
    currentTerm := 1
    currentRole := .leader
    log := [⟨1, samplePut 1⟩, ⟨1, samplePut 2⟩, ⟨1, samplePut 3⟩]
    ackedLengths := fun j ↦ if j = 0 then 3 else if j = 1 then 2 else 0 }

theorem commitLogEntries_exact_sample :
    ∃ r' ds, sampleAcked.commitLogEntries 0 = some (r', ds) ∧
      (∀ rounds, (sampleAcked.absLength - sampleAcked.commitedLength).toNat < rounds →
        sampleAcked.commitRounds 0 rounds sampleAcked.commitedLength = some (.broke ds)) ∧
      IsGreatest (sampleAcked.committable 0) r'.commitedLength ∧
      ds.map Prod.fst = positions sampleAcked.commitedLength
        (r'.commitedLength - sampleAcked.commitedLength).toNat ∧
      ds.map Prod.snd = ((sampleAcked.log.drop
        (sampleAcked.commitedLength - sampleAcked.snapshotter.lastIndex).toNat).take
          (r'.commitedLength - sampleAcked.commitedLength).toNat).map LogEntry.message :=
  commitLogEntries_exact sampleAcked 0 (by decide +kernel) (by decide +kernel)

end Raft

end DistributedCache
