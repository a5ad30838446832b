import DistributedCache.Lib.FiniteMap

/-!
# A map split over several shards

A list of maps in which every key belongs to one place, which a function of the key determines.
Such a list stands for one map: what is read and written at a key's place is what is read and
written in that map, and the shards put together, in any order, are that map again.
-/

namespace Sharding

open FiniteMap

variable {K V : Type*} [DecidableEq K]

/-- The shard `i` holds the entries of `m` whose keys belong there, and nothing else. -/
def Splits (index : K → Nat) (shards : List (Map K V)) (m : Map K V) : Prop :=
  ∀ i shard, shards[i]? = some shard →
    ∀ k, shard.lookup k = if index k = i then m.lookup k else none

namespace Splits

variable {index : K → Nat} {shards : List (Map K V)} {m shard : Map K V} {k : K} {i : Nat}

/-! ## Reading -/

theorem replicate_empty (index : K → Nat) (n : Nat) :
    Splits index (List.replicate n (∅ : Map K V)) ∅ := by
  intro i shard hi k
  rw [List.getElem?_replicate] at hi
  obtain ⟨-, hshard⟩ := Option.ite_none_right_eq_some.mp hi
  rw [← Option.some.inj hshard]
  rw [Finmap.lookup_empty, ite_self]

/-- A key is read in its own shard. -/
theorem lookup_eq (h : Splits index shards m) (hi : shards[index k]? = some shard) :
    shard.lookup k = m.lookup k := by
  rw [h _ _ hi, if_pos rfl]

theorem mem_iff (h : Splits index shards m) (hi : shards[i]? = some shard) :
    k ∈ shard ↔ k ∈ m ∧ index k = i := by
  rw [Finmap.mem_iff, h i shard hi, Finmap.mem_iff]
  by_cases hk : index k = i
  · rw [if_pos hk]
    exact (and_iff_left hk).symm
  · rw [if_neg hk]
    constructor
    · rintro ⟨v, hv⟩
      cases hv
    · rintro ⟨-, hindex⟩
      exact absurd hindex hk

/-- A key that is stored at all is stored in one shard. -/
theorem existsUnique_shard (h : Splits index shards m) (hindex : index k < shards.length)
    (hk : k ∈ m) : ∃! i : Nat, ∃ shard, shards[i]? = some shard ∧ k ∈ shard := by
  obtain ⟨shard, hshard⟩ : ∃ shard, shards[index k]? = some shard :=
    ⟨_, List.getElem?_eq_getElem hindex⟩
  refine ⟨index k, ⟨shard, hshard, (h.mem_iff hshard).mpr ⟨hk, rfl⟩⟩, ?_⟩
  rintro j ⟨other, hother, hmem⟩
  exact ((h.mem_iff hother).mp hmem).2.symm

/-! ## Writing -/

/-- Two maps that differ at `k` only, and the shard of `k` changed likewise. -/
theorem modify (h : Splits index shards m) {f : Map K V → Map K V} {m' : Map K V}
    (hself : ∀ s : Map K V, (f s).lookup k = m'.lookup k)
    (hother : ∀ (s : Map K V) k', k' ≠ k → (f s).lookup k' = s.lookup k')
    (hsame : ∀ k', k' ≠ k → m'.lookup k' = m.lookup k') :
    Splits index (shards.modify (index k) f) m' := by
  intro i shard hi k'
  rw [List.getElem?_modify] at hi
  obtain ⟨old, hold, rfl⟩ := Option.map_eq_some_iff.mp hi
  by_cases hplace : index k = i
  · -- the shard that is written to
    rw [if_pos hplace]
    by_cases hk : k' = k
    · rw [hk, hself, if_pos hplace]
    · rw [hother _ _ hk, h i old hold, hsame _ hk]
  · -- a key of another shard is not `k`
    rw [if_neg hplace]
    show old.lookup k' = _
    rw [h i old hold]
    by_cases hk' : index k' = i
    · have hk : k' ≠ k := by
        rintro rfl
        exact hplace hk'
      rw [if_pos hk', if_pos hk', hsame _ hk]
    · rw [if_neg hk', if_neg hk']

theorem insert (h : Splits index shards m) (k : K) (v : V) :
    Splits index (shards.modify (index k) fun shard ↦ shard.insert k v) (m.insert k v) := by
  apply h.modify
  · intro s
    rw [Finmap.lookup_insert, Finmap.lookup_insert]
  · intro s k' hk'
    exact Finmap.lookup_insert_of_ne _ hk'
  · intro k' hk'
    exact Finmap.lookup_insert_of_ne _ hk'

theorem erase (h : Splits index shards m) (k : K) :
    Splits index (shards.modify (index k) fun shard ↦ shard.erase k) (m.erase k) := by
  apply h.modify
  · intro s
    rw [Finmap.lookup_erase, Finmap.lookup_erase]
  · intro s k' hk'
    exact Finmap.lookup_erase_ne hk'
  · intro k' hk'
    exact Finmap.lookup_erase_ne hk'

end Splits

/-! ## Putting the shards together -/

/-- Maps merged one after another, the later ones over the earlier ones. -/
def mergeAll (start : Map K V) (parts : List (Map K V)) : Map K V :=
  parts.foldl (fun acc part ↦ part ∪ acc) start

/-- Parts of a map cannot contradict each other, so the order in which they come does not matter. -/
theorem lookup_mergeAll {m start : Map K V} {parts : List (Map K V)} {k : K}
    (hparts : ∀ part ∈ parts, ∀ v, part.lookup k = some v → m.lookup k = some v) :
    (mergeAll start parts).lookup k =
      if ∃ part ∈ parts, k ∈ part then m.lookup k else start.lookup k := by
  induction parts generalizing start with
  | nil => simp [mergeAll]
  | cons part parts ih =>
    show (mergeAll (part ∪ start) parts).lookup k = _
    rw [ih fun part hpart ↦ hparts part (List.mem_cons_of_mem _ hpart)]
    by_cases hlater : ∃ part ∈ parts, k ∈ part
    · obtain ⟨other, hother, hk⟩ := hlater
      rw [if_pos ⟨other, hother, hk⟩, if_pos ⟨other, List.mem_cons_of_mem _ hother, hk⟩]
    · rw [if_neg hlater, lookup_union]
      cases hfirst : part.lookup k with
      | some v =>
        have hk : k ∈ part := Finmap.mem_of_lookup_eq_some hfirst
        rw [if_pos ⟨part, List.mem_cons_self, hk⟩, Option.some_or]
        exact (hparts part List.mem_cons_self v hfirst).symm
      | none =>
        have hnone : ¬ ∃ other ∈ part :: parts, k ∈ other := by
          rintro ⟨other, hother, hk⟩
          rcases List.mem_cons.mp hother with rfl | hother
          · exact Finmap.lookup_eq_none.mp hfirst hk
          · exact hlater ⟨other, hother, hk⟩
        rw [if_neg hnone, Option.none_or]

end Sharding
