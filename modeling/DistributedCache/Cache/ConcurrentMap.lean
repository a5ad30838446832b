import DistributedCache.Lib.FiniteMap
import Mathlib.Data.UInt

/-!
# `ConcurrentMapCache`

Every method holds the cache's lock from beginning to end, so each of them is one step.
-/

namespace DistributedCache

open FiniteMap

/-- `fnv.New32a`, written with the bytes of a key. -/
def fnv32a (key : String) : UInt32 :=
  key.toUTF8.toList.foldl (fun hash byte ↦ (hash ^^^ byte.toUInt32) * 16777619) 2166136261

/-- The shard of a key.  An `int` has 64 bits, so the remainder is not negative. -/
def shardIDOf (key : String) (totalShards : Nat) : Nat := (fnv32a key).toNat % totalShards

abbrev ConcurrentMapCache := Map String String

namespace ConcurrentMapCache

/-- A missing key reads as the empty string. -/
def get (c : ConcurrentMapCache) (key : String) : String := (c.lookup key).getD ""

def delete (c : ConcurrentMapCache) (key : String) : ConcurrentMapCache := c.erase key

def put (c : ConcurrentMapCache) (key value : String) : ConcurrentMapCache := c.insert key value

def exportShard (c : ConcurrentMapCache) (shardID totalShards : Nat) : ConcurrentMapCache :=
  filterKeys (fun key ↦ shardIDOf key totalShards = shardID) c

/-- `Import`. -/
def importData (c data : ConcurrentMapCache) : ConcurrentMapCache := data ∪ c

variable {c data : ConcurrentMapCache} {key key' value : String}

@[simp] theorem lookup_put_self : (c.put key value).lookup key = some value :=
  Finmap.lookup_insert _

theorem lookup_put_of_ne (h : key' ≠ key) : (c.put key value).lookup key' = c.lookup key' :=
  Finmap.lookup_insert_of_ne _ h

@[simp] theorem lookup_delete_self : (c.delete key).lookup key = none := Finmap.lookup_erase _ _

theorem lookup_delete_of_ne (h : key' ≠ key) : (c.delete key).lookup key' = c.lookup key' :=
  Finmap.lookup_erase_ne h

theorem lookup_exportShard (shardID totalShards : Nat) :
    (c.exportShard shardID totalShards).lookup key =
      if shardIDOf key totalShards = shardID then c.lookup key else none :=
  lookup_filterKeys _ _ _

theorem lookup_importData : (c.importData data).lookup key = (data.lookup key).or (c.lookup key) :=
  lookup_union _ _ _

end ConcurrentMapCache

end DistributedCache
