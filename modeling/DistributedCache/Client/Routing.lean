import DistributedCache.Client.SmartClient
import DistributedCache.Lib.Sharding

/-!
# Exports and routes

`ExportShard`, `Route` and `HandlePut` compute the shard of a key in three places, with the same
lines.  The lines are written out here with 64-bit integers and a remainder that rounds towards
zero.  The exports of all shards are then a partition of the cache, and each of them holds the keys
that clients and data nodes take to its shard.
-/

namespace DistributedCache

open FiniteMap Sharding

/-! ## The shard of a key -/

/-- `int(h.Sum32()) % totalShards`, and the sign taken off. -/
def keyShardID (hash : UInt32) (totalShards : Int64) : Int64 :=
  let keyShardID := hash.toUInt64.toInt64 % totalShards
  if keyShardID < 0 then -keyShardID else keyShardID

/-- A 32-bit hash is not negative as an `int`, so there is no sign to take off. -/
theorem toInt_keyShardID (hash : UInt32) {totalShards : Int64} (hpos : 0 < totalShards) :
    (keyShardID hash totalShards).toInt = hash.toNat % totalShards.toInt := by
  have hlt := hash.toNat_lt
  have hhash : hash.toUInt64.toInt64.toInt = hash.toNat := by
    show hash.toUInt64.toBitVec.toInt = _
    rw [BitVec.toInt_eq_toNat_of_lt]
    · show (hash.toUInt64.toNat : Int) = hash.toNat
      rw [UInt32.toNat_toUInt64]
    · show 2 * hash.toUInt64.toNat < 2 ^ 64
      rw [UInt32.toNat_toUInt64]
      omega
  have hrem : (hash.toUInt64.toInt64 % totalShards).toInt = hash.toNat % totalShards.toInt := by
    rw [Int64.toInt_mod, hhash]
    exact Int.tmod_eq_emod_of_nonneg (Int.natCast_nonneg _)
  rw [Int64.lt_iff_toInt_lt, Int64.toInt_zero] at hpos
  have hnonneg : ¬ hash.toUInt64.toInt64 % totalShards < 0 := by
    rw [Int64.lt_iff_toInt_lt, Int64.toInt_zero, hrem, not_lt]
    exact Int.emod_nonneg _ (by omega)
  unfold keyShardID
  simp only [if_neg hnonneg]
  exact hrem

theorem toNatClampNeg_keyShardID (key : String) {totalShards : Int64} (hpos : 0 < totalShards) :
    (keyShardID (fnv32a key) totalShards).toNatClampNeg =
      shardIDOf key totalShards.toNatClampNeg := by
  have hlt := Int64.lt_iff_toInt_lt.mp hpos
  rw [Int64.toInt_zero] at hlt
  obtain ⟨n, hn⟩ := Int.eq_ofNat_of_zero_le hlt.le
  rw [← Int64.toNat_toInt, toInt_keyShardID _ hpos, shardIDOf, ← Int64.toNat_toInt, hn,
    ← Int.natCast_emod, Int.toNat_natCast, Int.toNat_natCast]

/-- The shard number of a key is one of `0`, ..., `totalShards - 1`. -/
theorem keyShardID_mem (key : String) {totalShards : Int64} (hpos : 0 < totalShards) :
    0 ≤ keyShardID (fnv32a key) totalShards ∧
      keyShardID (fnv32a key) totalShards < totalShards := by
  have hlt := Int64.lt_iff_toInt_lt.mp hpos
  rw [Int64.toInt_zero] at hlt
  rw [Int64.le_iff_toInt_le, Int64.lt_iff_toInt_lt, Int64.toInt_zero, toInt_keyShardID _ hpos]
  exact ⟨Int.emod_nonneg _ (by omega), Int.emod_lt_of_pos _ hlt⟩

/-- Numbers that are not negative are told apart by their absolute values. -/
theorem keyShardID_eq_iff (key : String) {shardID totalShards : Int64} (hpos : 0 < totalShards)
    (hshard : 0 ≤ shardID) : keyShardID (fnv32a key) totalShards = shardID ↔
      shardIDOf key totalShards.toNatClampNeg = shardID.toNatClampNeg := by
  have hnonneg := (keyShardID_mem key hpos).1
  rw [Int64.le_iff_toInt_le, Int64.toInt_zero] at hnonneg hshard
  rw [← toNatClampNeg_keyShardID key hpos, ← Int64.toNat_toInt, ← Int64.toNat_toInt,
    ← Int64.toInt_inj]
  omega

/-! ## Exports -/

/-- `ExportShard` with the integers of the source. -/
def ConcurrentMapCache.exportShard64 (c : ConcurrentMapCache) (shardID totalShards : Int64) :
    ConcurrentMapCache :=
  filterKeys (fun key ↦ keyShardID (fnv32a key) totalShards = shardID) c

namespace ConcurrentMapCache

variable {c : ConcurrentMapCache} {key : String} {shardID totalShards : Int64}

theorem lookup_exportShard64 : (c.exportShard64 shardID totalShards).lookup key =
    if keyShardID (fnv32a key) totalShards = shardID then c.lookup key else none :=
  lookup_filterKeys _ _ _

theorem mem_exportShard64 : key ∈ c.exportShard64 shardID totalShards ↔
    key ∈ c ∧ keyShardID (fnv32a key) totalShards = shardID := by
  rw [Finmap.mem_iff, lookup_exportShard64, Finmap.mem_iff]
  by_cases hshard : keyShardID (fnv32a key) totalShards = shardID <;> simp [hshard]

/-- On shard numbers that are not negative this is the export of the data nodes' model. -/
theorem exportShard64_eq (hpos : 0 < totalShards) (hshard : 0 ≤ shardID) :
    c.exportShard64 shardID totalShards =
      c.exportShard shardID.toNatClampNeg totalShards.toNatClampNeg := by
  apply Finmap.ext_lookup
  intro key
  rw [lookup_exportShard64, lookup_exportShard]
  simp only [keyShardID_eq_iff key hpos hshard]

/-- The exports of all shards, imported one after another in any order, are the cache again. -/
theorem mergeAll_exports (hpos : 0 < totalShards) {order : List Int64}
    (horder : ∀ shardID, shardID ∈ order ↔ 0 ≤ shardID ∧ shardID < totalShards) :
    mergeAll ∅ (order.map fun shardID ↦ c.exportShard64 shardID totalShards) = c := by
  apply Finmap.ext_lookup
  intro key
  have hparts : ∀ part ∈ order.map (fun shardID ↦ c.exportShard64 shardID totalShards),
      ∀ v, part.lookup key = some v → c.lookup key = some v := by
    intro part hpart v hv
    obtain ⟨shardID, -, rfl⟩ := List.mem_map.mp hpart
    rw [lookup_exportShard64] at hv
    exact (Option.ite_none_right_eq_some.mp hv).2
  rw [lookup_mergeAll hparts]
  split
  · rfl
  · rename_i hnowhere
    -- the part of the key's own shard is among them, so the key is not in the cache either
    have hmem := (horder _).mpr (keyShardID_mem key hpos)
    rw [Finmap.lookup_empty, eq_comm, Finmap.lookup_eq_none]
    intro hkey
    exact hnowhere ⟨_, List.mem_map_of_mem hmem, mem_exportShard64.mpr ⟨hkey, rfl⟩⟩

end ConcurrentMapCache

/-! ## Routes -/

/-- The shard that `Route` finds. -/
theorem SmartClient.route_shardID {client : SmartClient} {config : ClusterConfig} {key : String}
    {r : RouteResult} (hconfig : client.config = some config) (h : client.route key = .ok r) :
    r.shardID = shardIDOf key config.totalShards := by
  unfold SmartClient.route at h
  rw [hconfig] at h
  simp only at h
  split at h
  · cases h
  · split at h
    · cases h
    · split at h
      · cases h
      · cases h
        rfl

/-- The shard that `HandlePut` finds. -/
theorem DataNode.checkShard_shardID {node : DataNode} {key : String} {shardID : Nat}
    (hshards : 0 < node.config.totalShards) (h : node.checkShard key = .ok shardID) :
    shardID = shardIDOf key node.config.totalShards := by
  rw [DataNode.checkShard_ok h, ClusterConfig.shardOf, if_pos hshards]

/-- The exports of the shards are disjoint, hold every entry of the cache and nothing else, and
make the cache again when they are imported in any order; and a key is exported with the shard to
which a client routes it and for which a data node takes it. -/
theorem exports_partition (c : ConcurrentMapCache) (totalShards : Int64)
    (hpos : 0 < totalShards) :
    (∀ s s', s ≠ s' →
      (c.exportShard64 s totalShards).Disjoint (c.exportShard64 s' totalShards)) ∧
    (∀ key value, c.lookup key = some value ↔ ∃ s, 0 ≤ s ∧ s < totalShards ∧
      (c.exportShard64 s totalShards).lookup key = some value) ∧
    (∀ order : List Int64, (∀ s, s ∈ order ↔ 0 ≤ s ∧ s < totalShards) →
      (order.map fun s ↦ c.exportShard64 s totalShards).foldl
        ConcurrentMapCache.importData ∅ = c) ∧
    ∀ key ∈ c, ∀ s, 0 ≤ s →
      (∀ (client : SmartClient) config r, client.config = some config →
        config.totalShards = totalShards.toNatClampNeg → client.route key = .ok r →
        (key ∈ c.exportShard64 s totalShards ↔ r.shardID = s.toNatClampNeg)) ∧
      ∀ (node : DataNode) shardID, node.config.totalShards = totalShards.toNatClampNeg →
        node.checkShard key = .ok shardID →
        (key ∈ c.exportShard64 s totalShards ↔ shardID = s.toNatClampNeg) := by
  refine ⟨?_, ?_, ?_, ?_⟩
  · intro s s' hne key hkey hkey'
    apply hne
    rw [← (ConcurrentMapCache.mem_exportShard64.mp hkey).2,
      ← (ConcurrentMapCache.mem_exportShard64.mp hkey').2]
  · intro key value
    constructor
    · intro hvalue
      obtain ⟨hnonneg, hlt⟩ := keyShardID_mem key hpos
      refine ⟨_, hnonneg, hlt, ?_⟩
      rw [ConcurrentMapCache.lookup_exportShard64, if_pos rfl, hvalue]
    · rintro ⟨s, -, -, hvalue⟩
      rw [ConcurrentMapCache.lookup_exportShard64] at hvalue
      exact (Option.ite_none_right_eq_some.mp hvalue).2
  · intro order horder
    exact ConcurrentMapCache.mergeAll_exports hpos horder
  · intro key hkey s hs
    have hexported : key ∈ c.exportShard64 s totalShards ↔
        shardIDOf key totalShards.toNatClampNeg = s.toNatClampNeg := by
      rw [ConcurrentMapCache.mem_exportShard64, and_iff_right hkey, keyShardID_eq_iff key hpos hs]
    constructor
    · intro client config r hconfig htotal hroute
      rw [SmartClient.route_shardID hconfig hroute, htotal, hexported]
    · intro node shardID htotal hcheck
      have hshards : 0 < node.config.totalShards := by
        have hlt := Int64.lt_iff_toInt_lt.mp hpos
        rw [Int64.toInt_zero] at hlt
        rw [htotal, ← Int64.toNat_toInt]
        omega
      rw [DataNode.checkShard_shardID hshards hcheck, htotal, hexported]

/-- Two entries in two shards, the second shard imported first. -/
theorem exports_partition_two : (0 : Int64) < 2 ∧
    ([1, 0].map fun s ↦
        (((∅ : ConcurrentMapCache).put "a" "1").put "b" "2").exportShard64 s 2).foldl
      ConcurrentMapCache.importData ∅ = ((∅ : ConcurrentMapCache).put "a" "1").put "b" "2" := by
  refine ⟨by decide, (exports_partition _ 2 (by decide)).2.2.1 [1, 0] ?_⟩
  intro s
  rw [Int64.le_iff_toInt_le, Int64.lt_iff_toInt_lt, List.mem_cons, List.mem_singleton,
    ← Int64.toInt_inj, ← Int64.toInt_inj]
  show s.toInt = 1 ∨ s.toInt = 0 ↔ 0 ≤ s.toInt ∧ s.toInt < 2
  omega

end DistributedCache
