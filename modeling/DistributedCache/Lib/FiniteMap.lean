import Mathlib.Data.Finmap
import Mathlib.Data.Finset.Filter

/-!
# Finite maps whose values have one type

What a program with maps needs beside `insert`, `lookup` and `∪`: changing every value, keeping the
keys with a property, and loops over the keys in an order that is not determined.
-/

namespace FiniteMap

variable {K V W : Type*}

abbrev Map (K V : Type*) := Finmap fun _ : K ↦ V

/-! ## Changing every value -/

def mapValues (f : K → V → W) (m : Map K V) : Map K W where
  entries := m.entries.map fun e ↦ ⟨e.1, f e.1 e.2⟩
  nodupKeys := by
    rw [← Multiset.nodup_keys, Multiset.keys, Multiset.map_map]
    exact Multiset.nodup_keys.mpr m.nodupKeys

@[simp] theorem keys_mapValues (f : K → V → W) (m : Map K V) : (mapValues f m).keys = m.keys := by
  apply Finset.val_inj.mp
  change Multiset.map _ (Multiset.map _ _) = Multiset.map _ _
  rw [Multiset.map_map]
  rfl

variable {m : Map K V} {k : K} {α : Type*} {v : V} {l : List α} {s : Finset α}

@[simp] theorem mem_mapValues {f : K → V → W} : k ∈ mapValues f m ↔ k ∈ m := by
  rw [← Finmap.mem_keys, keys_mapValues, Finmap.mem_keys]

variable [DecidableEq K]

@[simp] theorem lookup_mapValues (f : K → V → W) (m : Map K V) (k : K) :
    (mapValues f m).lookup k = (m.lookup k).map (f k) := by
  cases hk : m.lookup k with
  | none =>
    have hnot : k ∉ mapValues f m := by
      rw [mem_mapValues]
      exact Finmap.lookup_eq_none.mp hk
    exact Finmap.lookup_eq_none.mpr hnot
  | some v =>
    have hentry : (⟨k, v⟩ : Sigma fun _ : K ↦ V) ∈ m.entries := Finmap.lookup_eq_some_iff.mp hk
    exact Finmap.lookup_eq_some_iff.mpr (Multiset.mem_map_of_mem _ hentry)

/-! ## Keeping some keys -/

def filterKeys (p : K → Prop) [DecidablePred p] (m : Map K V) : Map K V where
  entries := m.entries.filter fun e ↦ p e.1
  nodupKeys := by
    rw [← Multiset.nodup_keys]
    exact Multiset.nodup_of_le (Multiset.map_le_map (Multiset.filter_le _ _))
      (Multiset.nodup_keys.mpr m.nodupKeys)

theorem lookup_filterKeys (p : K → Prop) [DecidablePred p] (m : Map K V) (k : K) :
    (filterKeys p m).lookup k = if p k then m.lookup k else none := by
  apply Option.ext
  intro v
  rw [Finmap.lookup_eq_some_iff]
  change (⟨k, v⟩ : Sigma fun _ : K ↦ V) ∈ Multiset.filter _ _ ↔ _
  rw [Multiset.mem_filter, ← Finmap.lookup_eq_some_iff]
  by_cases hk : p k <;> simp [hk]

/-! ## Loops in an undetermined order -/

/-- The list runs through the elements of the set, each once. -/
def Enumerates {α : Type*} (l : List α) (s : Finset α) : Prop := (l : Multiset α) = s.val

instance {α : Type*} [DecidableEq α] (l : List α) (s : Finset α) : Decidable (Enumerates l s) :=
  inferInstanceAs (Decidable (_ = _))

theorem Enumerates.mem_iff (h : Enumerates l s) {a : α} : a ∈ l ↔ a ∈ s := by
  rw [← Finset.mem_val, ← h, Multiset.mem_coe]

theorem Enumerates.nodup (h : Enumerates l s) : l.Nodup := by
  rw [← Multiset.coe_nodup, h]
  exact s.nodup

theorem Enumerates.length_eq (h : Enumerates l s) : l.length = s.card := by
  rw [← Multiset.coe_card, h]
  rfl

/-- The keys whose value has a property. -/
def keysWhere (p : V → Prop) [DecidablePred p] (m : Map K V) : Finset K :=
  m.keys.filter fun k ↦ ∃ v ∈ m.lookup k, p v

theorem mem_keysWhere {p : V → Prop} [DecidablePred p] :
    k ∈ keysWhere p m ↔ ∃ v, m.lookup k = some v ∧ p v := by
  unfold keysWhere
  rw [Finset.mem_filter, Finmap.mem_keys, Finmap.mem_iff]
  constructor
  · rintro ⟨-, v, hv, hp⟩
    exact ⟨v, hv, hp⟩
  · rintro ⟨v, hv, hp⟩
    exact ⟨⟨v, hv⟩, v, hv, hp⟩

/-! ## Properties of all entries -/

def Every (p : K → V → Prop) (m : Map K V) : Prop := ∀ k v, m.lookup k = some v → p k v

instance (p : K → V → Prop) [∀ k v, Decidable (p k v)] (m : Map K V) : Decidable (Every p m) :=
  decidable_of_iff (∀ k ∈ m.keys, ∀ v ∈ m.lookup k, p k v)
    ⟨fun h k v hv ↦ h k (Finmap.mem_keys.mpr (Finmap.mem_of_lookup_eq_some hv)) v hv,
      fun h k _ v hv ↦ h k v hv⟩

/-- An entry after an insertion. -/
theorem lookup_insert_cases {k' : K} {v' : V} (h : (m.insert k v).lookup k' = some v') :
    (k' = k ∧ v' = v) ∨ (k' ≠ k ∧ m.lookup k' = some v') := by
  by_cases hk : k' = k
  · subst hk
    rw [Finmap.lookup_insert] at h
    exact Or.inl ⟨rfl, (Option.some.inj h).symm⟩
  · rw [Finmap.lookup_insert_of_ne _ hk] at h
    exact Or.inr ⟨hk, h⟩

/-- An entry that is left when another is erased. -/
theorem lookup_of_lookup_erase {k' : K} (h : (m.erase k).lookup k' = some v) :
    k' ≠ k ∧ m.lookup k' = some v := by
  by_cases hk : k' = k
  · subst hk
    rw [Finmap.lookup_erase] at h
    cases h
  · rw [Finmap.lookup_erase_ne hk] at h
    exact ⟨hk, h⟩

theorem Every.insert {p : K → V → Prop} (h : Every p m) (hv : p k v) : Every p (m.insert k v) := by
  intro k' v' hlookup
  rcases lookup_insert_cases hlookup with ⟨rfl, rfl⟩ | ⟨-, hold⟩
  · exact hv
  · exact h k' v' hold

theorem Every.erase {p : K → V → Prop} (h : Every p m) (k : K) : Every p (m.erase k) :=
  fun k' v' hlookup ↦ h k' v' (lookup_of_lookup_erase hlookup).2

theorem Every.mono {p q : K → V → Prop} (h : Every p m) (hpq : ∀ k v, p k v → q k v) :
    Every q m := fun k v hv ↦ hpq k v (h k v hv)

/-! ## Merging -/

theorem lookup_union (m m' : Map K V) (k : K) :
    (m ∪ m').lookup k = (m.lookup k).or (m'.lookup k) := by
  cases hk : m.lookup k with
  | none => rw [Finmap.lookup_union_right (Finmap.lookup_eq_none.mp hk), Option.none_or]
  | some v => rw [Finmap.lookup_union_left (Finmap.mem_of_lookup_eq_some hk), hk, Option.some_or]

end FiniteMap
