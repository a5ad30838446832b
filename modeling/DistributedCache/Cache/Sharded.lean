import DistributedCache.Cache.ConcurrentMap
import DistributedCache.Lib.Sharding

/-!
# `ShardedCache` and `BasicMapCache`

`ShardedCache` spreads its keys over a number of maps with a lock each.  An operation locks the map
of its key from beginning to end, so it is one step.  A slice index out of range, on which Go would
panic, is `none`.
-/

namespace DistributedCache

open FiniteMap Sharding

/-! ## `BasicMapCache` -/

abbrev BasicMapCache := Map String String

namespace BasicMapCache

def newBasicMapCache : BasicMapCache := ∅

def get (c : BasicMapCache) (key : String) : String := (c.lookup key).getD ""

def delete (c : BasicMapCache) (key : String) : BasicMapCache := c.erase key

def put (c : BasicMapCache) (key value : String) : BasicMapCache := c.insert key value

end BasicMapCache

/-! ## `ShardedCache` -/

def defaultNumShards : Int64 := 16

structure ShardedCache where
  /-- The `data` of every `cacheShard`. -/
  shards : List (Map String String)
  numShards : Int64
  shardMask : Int64

/-- The number of shards that `NewShardedCache` settles on. -/
def usedNumShards (numShards : Int64) : Int64 :=
  -- a power of two has one bit, which is cleared by its predecessor
  if numShards ≤ 0 ∨ numShards &&& (numShards - 1) ≠ 0 then defaultNumShards else numShards

namespace ShardedCache

def newShardedCache (numShards : Int64) : ShardedCache :=
  let numShards := usedNumShards numShards
  ⟨List.replicate numShards.toNatClampNeg ∅, numShards, numShards - 1⟩

/-- The index that `getShard` computes. -/
def shardIndex (sc : ShardedCache) (key : String) : Nat :=
  ((fnv32a key).toUInt64 &&& sc.shardMask.toUInt64).toNat

def getShard (sc : ShardedCache) (key : String) : Option (Map String String) :=
  sc.shards[sc.shardIndex key]?

def get (sc : ShardedCache) (key : String) : Option String :=
  (sc.getShard key).map fun data ↦ (data.lookup key).getD ""

/-- A change of the map that `getShard` returns. -/
def modifyShard (sc : ShardedCache) (key : String) (f : Map String String → Map String String) :
    Option ShardedCache :=
  (sc.getShard key).map fun _ ↦ { sc with shards := sc.shards.modify (sc.shardIndex key) f }

def delete (sc : ShardedCache) (key : String) : Option ShardedCache :=
  sc.modifyShard key fun data ↦ data.erase key

def put (sc : ShardedCache) (key value : String) : Option ShardedCache :=
  sc.modifyShard key fun data ↦ data.insert key value

end ShardedCache

/-! ## Sequences of operations -/

inductive CacheOp where
  | put (key value : String)
  | get (key : String)
  | delete (key : String)
  deriving DecidableEq, Repr

/-- What the `Get`s of a sequence return, and the cache afterwards. -/
def BasicMapCache.run (c : BasicMapCache) : List CacheOp → BasicMapCache × List String
  | [] => (c, [])
  | .put key value :: ops => (c.put key value).run ops
  | .delete key :: ops => (c.delete key).run ops
  | .get key :: ops =>
    let (c', values) := c.run ops
    (c', c.get key :: values)

def ShardedCache.run (sc : ShardedCache) : List CacheOp → Option (ShardedCache × List String)
  | [] => some (sc, [])
  | .put key value :: ops => (sc.put key value).bind fun sc' ↦ sc'.run ops
  | .delete key :: ops => (sc.delete key).bind fun sc' ↦ sc'.run ops
  | .get key :: ops => (sc.get key).bind fun value ↦
    (sc.run ops).map fun (sc', values) ↦ (sc', value :: values)

/-! ## The mask -/

theorem usedNumShards_pos (numShards : Int64) : 0 < (usedNumShards numShards).toInt := by
  unfold usedNumShards
  split
  · decide
  · rename_i hused
    rw [not_or] at hused
    have hpos := hused.1
    rw [Int64.le_iff_toInt_le, Int64.toInt_zero] at hpos
    omega

theorem toNat_mask {n : Int64} (hpos : 0 < n.toInt) :
    (n - 1).toUInt64.toNat = n.toNatClampNeg - 1 := by
  have hlt := n.toInt_lt
  have hsub : (n - 1).toInt = n.toInt - 1 := by
    rw [Int64.toInt_sub, Int64.toInt_one]
    exact Int.bmod_eq_of_le (by omega) (by omega)
  have hnonneg : 0 ≤ n - 1 := by
    rw [Int64.le_iff_toInt_le, Int64.toInt_zero, hsub]
    omega
  rw [Int64.toNat_toUInt64_of_le hnonneg, ← Int64.toNat_toInt, ← Int64.toNat_toInt, hsub]
  omega

/-- Below a mask of `n - 1` there are `n` indices, whether or not `n` is a power of two: the test
for that only makes all of them occur. -/
theorem shardIndex_lt (numShards : Int64) (key : String) :
    (ShardedCache.newShardedCache numShards).shardIndex key <
      (ShardedCache.newShardedCache numShards).shards.length := by
  have hpos := usedNumShards_pos numShards
  have hmask := toNat_mask hpos
  unfold ShardedCache.newShardedCache ShardedCache.shardIndex
  simp only [List.length_replicate, UInt64.toNat_and, hmask]
  have hle : (fnv32a key).toUInt64.toNat &&& ((usedNumShards numShards).toNatClampNeg - 1) ≤
      (usedNumShards numShards).toNatClampNeg - 1 := Nat.and_le_right
  have hclamp : 0 < (usedNumShards numShards).toNatClampNeg := by
    rw [← Int64.toNat_toInt]
    omega
  omega

/-! ## The simulation -/

/-- The shards stand for the map, and every key has a place in them. -/
structure ShardedCache.Represents (sc : ShardedCache) (c : BasicMapCache) : Prop where
  splits : Splits sc.shardIndex sc.shards c
  inRange : ∀ key, sc.shardIndex key < sc.shards.length

namespace ShardedCache.Represents

variable {sc : ShardedCache} {c c' : BasicMapCache} {key : String}

theorem new (numShards : Int64) : (newShardedCache numShards).Represents .newBasicMapCache :=
  ⟨Splits.replicate_empty _ _, shardIndex_lt numShards⟩

theorem exists_getShard (h : sc.Represents c) (key : String) :
    ∃ data, sc.getShard key = some data :=
  ⟨_, List.getElem?_eq_getElem (h.inRange key)⟩

theorem get (h : sc.Represents c) (key : String) : sc.get key = some (c.get key) := by
  obtain ⟨data, hdata⟩ := h.exists_getShard key
  unfold ShardedCache.get BasicMapCache.get
  rw [hdata, Option.map_some, h.splits.lookup_eq hdata]

/-- A change of one shard that is a change of the map keeps everything in its place. -/
theorem modifyShard (h : sc.Represents c) {f : Map String String → Map String String}
    (hsplits : Splits sc.shardIndex (sc.shards.modify (sc.shardIndex key) f) c') :
    ∃ sc', sc.modifyShard key f = some sc' ∧ sc'.Represents c' := by
  obtain ⟨data, hdata⟩ := h.exists_getShard key
  refine ⟨_, by rw [ShardedCache.modifyShard, hdata, Option.map_some], hsplits, ?_⟩
  intro key'
  -- the mask and the number of shards are the same as before
  rw [List.length_modify]
  exact h.inRange key'

theorem delete (h : sc.Represents c) (key : String) :
    ∃ sc', sc.delete key = some sc' ∧ sc'.Represents (c.delete key) :=
  h.modifyShard (h.splits.erase key)

theorem put (h : sc.Represents c) (key value : String) :
    ∃ sc', sc.put key value = some sc' ∧ sc'.Represents (c.put key value) :=
  h.modifyShard (h.splits.insert key value)

/-- Both caches go through a sequence of operations side by side. -/
theorem run (h : sc.Represents c) (ops : List CacheOp) :
    ∃ sc', sc.run ops = some (sc', (c.run ops).2) ∧ sc'.Represents (c.run ops).1 := by
  induction ops generalizing sc c with
  | nil => exact ⟨sc, rfl, h⟩
  | cons op ops ih =>
    cases op with
    | put key value =>
      obtain ⟨sc₁, hput, h₁⟩ := h.put key value
      obtain ⟨sc₂, hrun, h₂⟩ := ih h₁
      refine ⟨sc₂, ?_, h₂⟩
      rw [ShardedCache.run, hput, Option.bind_some, hrun]
      rfl
    | delete key =>
      obtain ⟨sc₁, hdelete, h₁⟩ := h.delete key
      obtain ⟨sc₂, hrun, h₂⟩ := ih h₁
      refine ⟨sc₂, ?_, h₂⟩
      rw [ShardedCache.run, hdelete, Option.bind_some, hrun]
      rfl
    | get key =>
      obtain ⟨sc', hrun, h'⟩ := ih h
      refine ⟨sc', ?_, h'⟩
      rw [ShardedCache.run, h.get key, Option.bind_some, hrun]
      rfl

end ShardedCache.Represents

/-- A `ShardedCache` of any size goes through any sequence of operations without a panic and
returns what a `BasicMapCache` returns; a key that is stored is in one shard, and no other is in
any. -/
theorem shardedCache_refines (numShards : Int64) (ops : List CacheOp) :
    ∃ sc, (ShardedCache.newShardedCache numShards).run ops =
        some (sc, (BasicMapCache.newBasicMapCache.run ops).2) ∧
      (∀ key, sc.shardIndex key < sc.shards.length) ∧
      (∀ key ∈ (BasicMapCache.newBasicMapCache.run ops).1,
        ∃! i : Nat, ∃ shard, sc.shards[i]? = some shard ∧ key ∈ shard) ∧
      ∀ shard ∈ sc.shards, ∀ key ∈ shard, key ∈ (BasicMapCache.newBasicMapCache.run ops).1 := by
  obtain ⟨sc, hrun, h⟩ := (ShardedCache.Represents.new numShards).run ops
  refine ⟨sc, hrun, h.inRange, ?_, ?_⟩
  · intro key hkey
    exact h.splits.existsUnique_shard (h.inRange key) hkey
  · intro shard hshard key hkey
    obtain ⟨i, hi⟩ := List.getElem?_of_mem hshard
    exact ((h.splits.mem_iff hi).mp hkey).1

end DistributedCache
