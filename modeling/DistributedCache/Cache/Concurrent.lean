import DistributedCache.Cache.Sharded
import DistributedCache.Lib.LockedObject

/-!
# Concurrent use of the caches

The methods of the caches step by step: taking the lock, the accesses to the map and the turns of
the loops, letting go of the lock.  Any number of goroutines call them at once.  Every history is
linearizable, so that in the rest of this development a method may be one step.

`range` over a map visits every key once, in an order that is not determined: a step of a loop
chooses the key.
-/

namespace DistributedCache

open FiniteMap Linearizability LockedObject Transition

/-! ## 1. `Get`, `Put` and `Delete` -/

inductive CacheResult where
  | value (v : String)
  | done
  deriving DecidableEq, Repr

/-- What a method of a cache has done since it has its lock. -/
inductive CacheLocal where
  | locked
  | read (v : String)
  | written
  deriving DecidableEq, Repr

namespace CacheOp

def key : CacheOp → String
  | .put key _ => key
  | .get key => key
  | .delete key => key

def writes : CacheOp → Bool
  | .get _ => false
  | .put _ _ => true
  | .delete _ => true

/-- The one access to the map. -/
def work : CacheOp → CacheLocal → Map String String → Option (CacheLocal × Map String String)
  | .get key, .locked, data => some (.read ((data.lookup key).getD ""), data)
  | .put key value, .locked, data => some (.written, data.insert key value)
  | .delete key, .locked, data => some (.written, data.erase key)
  | _, _, _ => none

def result : CacheOp → CacheLocal → Option CacheResult
  | .get _, .read v => some (.value v)
  | .put _ _, .written => some .done
  | .delete _, .written => some .done
  | _, _ => none

end CacheOp

/-- A method as one step. -/
def BasicMapCache.perform (c : BasicMapCache) : CacheOp → BasicMapCache × CacheResult
  | .get key => (c, .value (c.get key))
  | .put key value => (c.put key value, .done)
  | .delete key => (c.delete key, .done)

/-- A method that has found `data₀` and has got as far as `l`. -/
def CacheOp.Running (op : CacheOp) (data₀ : Map String String) (l : CacheLocal)
    (data : Map String String) : Prop :=
  match l with
  | .locked => data = data₀
  | .read v => BasicMapCache.perform data₀ op = (data, .value v)
  | .written => BasicMapCache.perform data₀ op = (data, .done)

namespace CacheOp

variable {op : CacheOp} {data₀ data data' : Map String String} {l l' : CacheLocal} {r : CacheResult}

theorem Running.work (h : op.Running data₀ l data) (hwork : op.work l data = some (l', data')) :
    op.Running data₀ l' data' := by
  cases l with
  | locked =>
    cases h
    cases op with
    | get | put | delete => cases hwork; rfl
  | read | written => cases op <;> cases hwork

theorem Running.result (h : op.Running data₀ l data) (hresult : op.result l = some r) :
    BasicMapCache.perform data₀ op = (data, r) := by
  cases l with
  | locked => cases op <;> cases hresult
  | read v =>
    cases op with
    | get key => cases hresult; exact h
    | put | delete => cases hresult
  | written =>
    cases op with
    | get key => cases hresult
    | put | delete => cases hresult; exact h

theorem work_reads (hreads : op.writes = false) (hwork : op.work l data = some (l', data')) :
    data' = data := by
  cases op with
  | get key =>
    cases l with
    | locked => cases hwork; rfl
    | read | written => cases hwork
  | put | delete => cases hreads

end CacheOp

/-! ## 2. `ShardedCache` -/

/-- The locks and maps of a `ShardedCache` with `numShards` shards. -/
def shardedCacheObject (numShards : Int64) :
    Object Nat (Map String String) CacheOp CacheLocal Unit CacheResult where
  part op := (ShardedCache.newShardedCache numShards).shardIndex op.key
  writes := CacheOp.writes
  enter _ := .locked
  work op l data _ := op.work l data
  result op l _ := op.result l

theorem shardedCacheObject_correct (numShards : Int64) :
    (shardedCacheObject numShards).Correct BasicMapCache.perform CacheOp.Running where
  enter _ _ := rfl
  work := CacheOp.Running.work
  result := CacheOp.Running.result
  reads := CacheOp.work_reads

/-- The maps of the shards in a slice. -/
def shardList (numShards : Int64) (shards : Nat → Map String String) : List (Map String String) :=
  (List.range (ShardedCache.newShardedCache numShards).shards.length).map shards

section

variable {numShards : Int64} {shards : Nat → Map String String} {c : BasicMapCache} {key : String}

theorem shardList_get (key : String) :
    (shardList numShards shards)[(ShardedCache.newShardedCache numShards).shardIndex key]? =
      some (shards ((ShardedCache.newShardedCache numShards).shardIndex key)) := by
  unfold shardList
  rw [List.getElem?_map, List.getElem?_range (shardIndex_lt numShards key), Option.map_some]

theorem shardList_update (i : Nat) (f : Map String String → Map String String) :
    shardList numShards (Function.update shards i (f (shards i))) =
      (shardList numShards shards).modify i f := by
  apply List.ext_getElem?
  intro j
  unfold shardList
  by_cases hj : j < (ShardedCache.newShardedCache numShards).shards.length
  · rw [List.getElem?_modify, List.getElem?_map, List.getElem?_map, List.getElem?_range hj]
    by_cases hi : i = j
    · subst hi
      simp only [Option.map_some, Function.update_self, Option.map_eq_map, if_true]
    · simp only [Option.map_some, Function.update_of_ne (Ne.symm hi), Option.map_eq_map, if_neg hi]
  · have hrange :
        (List.range (ShardedCache.newShardedCache numShards).shards.length)[j]? = none := by
      rw [List.getElem?_eq_none_iff, List.length_range]
      exact Nat.le_of_not_lt hj
    rw [List.getElem?_modify, List.getElem?_map, List.getElem?_map, hrange]
    rfl

theorem shardList_new : (shardList numShards fun i ↦
      ((ShardedCache.newShardedCache numShards).shards[i]?).getD ∅) =
    (ShardedCache.newShardedCache numShards).shards := by
  apply List.ext_getElem?
  intro j
  unfold shardList
  rw [List.getElem?_map]
  by_cases hj : j < (ShardedCache.newShardedCache numShards).shards.length
  · rw [List.getElem?_range hj, Option.map_some, List.getElem?_eq_getElem hj, Option.getD_some]
  · have hj := Nat.le_of_not_lt hj
    rw [List.getElem?_eq_none hj, List.getElem?_eq_none (by rw [List.length_range]; exact hj)]
    rfl

/-- One operation on its shard is that operation on the map. -/
theorem splits_perform (h : Sharding.Splits (ShardedCache.newShardedCache numShards).shardIndex
      (shardList numShards shards) c) (op : CacheOp) :
    Sharding.Splits (ShardedCache.newShardedCache numShards).shardIndex
        (shardList numShards
          ((shardedCacheObject numShards).onParts BasicMapCache.perform shards op).1)
        (c.perform op).1 ∧
      ((shardedCacheObject numShards).onParts BasicMapCache.perform shards op).2 =
        (c.perform op).2 := by
  cases op with
  | get key =>
    constructor
    · show Sharding.Splits _ (shardList numShards (Function.update shards _ (shards _))) c
      rw [Function.update_eq_self]
      exact h
    · have hget := h.lookup_eq (shardList_get key)
      exact congrArg (fun v ↦ CacheResult.value (v.getD "")) hget
  | put key value =>
    have hinsert := h.insert key value
    rw [← shardList_update] at hinsert
    exact ⟨hinsert, rfl⟩
  | delete key =>
    have herase := h.erase key
    rw [← shardList_update] at herase
    exact ⟨herase, rfl⟩

end

/-- Before the first call. -/
def shardedCacheStart (numShards : Int64) :
    State Nat (Map String String) CacheOp CacheLocal CacheResult :=
  LockedObject.start fun i ↦ ((ShardedCache.newShardedCache numShards).shards[i]?).getD ∅

/-- However many goroutines use a `ShardedCache` at once, and however their steps interleave, it
behaves like one map that is used by one goroutine at a time. -/
theorem shardedCache_linearizable (numShards : Int64)
    {s : State Nat (Map String String) CacheOp CacheLocal CacheResult}
    (hrun : Reachable (shardedCacheObject numShards).step (shardedCacheStart numShards) s) :
    Linearizable BasicMapCache.perform .newBasicMapCache s.history := by
  obtain ⟨order, shards, hlegal, hexplains, -⟩ :=
    (shardedCacheObject_correct numShards).linearizable hrun
  have hinit : Sharding.Splits (ShardedCache.newShardedCache numShards).shardIndex
      (shardList numShards fun i ↦ ((ShardedCache.newShardedCache numShards).shards[i]?).getD ∅)
      BasicMapCache.newBasicMapCache := by
    rw [shardList_new]
    exact Sharding.Splits.replicate_empty _ _
  obtain ⟨c, hlegal', -⟩ := hlegal.map
    (fun shards c ↦ Sharding.Splits (ShardedCache.newShardedCache numShards).shardIndex
      (shardList numShards shards) c) hinit fun _ _ op h ↦ splits_perform h op
  exact ⟨order, c, hlegal', hexplains⟩

/-- Two goroutines on one key, with a third one in between. -/
theorem shardedCache_linearizable_three :
    ∃ s, Reachable (shardedCacheObject 2).step (shardedCacheStart 2) s ∧
      s.history = [.invoked 0 (.put "a" "1"), .invoked 1 (.get "a"), .invoked 2 (.put "b" "2"),
        .returned 2 .done, .returned 1 (.value "1"), .returned 0 .done] ∧
      Linearizable BasicMapCache.perform .newBasicMapCache s.history := by
  obtain ⟨s, hrun, hhistory⟩ : ∃ s,
      Reachable (shardedCacheObject 2).step (shardedCacheStart 2) s ∧
        s.history = [.invoked 0 (.put "a" "1"), .invoked 1 (.get "a"), .invoked 2 (.put "b" "2"),
          .returned 2 .done, .returned 1 (.value "1"), .returned 0 .done] :=
    exists_reaches_of_exec
      [.invoke (.put "a" "1"), .invoke (.get "a"), .acquire 0, .work 0 (), .invoke (.put "b" "2"),
        .acquire 2, .work 2 (), .release 0, .release 2, .acquire 1, .work 1 (), .release 1,
        .respond 2, .respond 1, .respond 0] (by decide +kernel)
  exact ⟨s, hrun, hhistory, shardedCache_linearizable 2 hrun⟩

/-! ## 3. `ConcurrentMapCache` -/

inductive MapOp where
  | basic (op : CacheOp)
  | exportShard (shardID totalShards : Nat)
  | importData (data : Map String String)
  deriving DecidableEq

inductive MapResult where
  | basic (r : CacheResult)
  | exported (data : Map String String)
  | imported
  deriving DecidableEq

/-- What a method has done since it has its lock; the loops know the keys that they have visited. -/
inductive MapLocal where
  | basic (l : CacheLocal)
  | exporting (visited : Finset String) (result : Map String String)
  | importing (visited : Finset String)
  deriving DecidableEq

namespace MapOp

def writes : MapOp → Bool
  | .basic op => op.writes
  | .exportShard _ _ => false
  | .importData _ => true

def enter : MapOp → MapLocal
  | .basic _ => .basic .locked
  | .exportShard _ _ => .exporting ∅ ∅
  | .importData _ => .importing ∅

/-- A turn of the loop of `ExportShard`.  Its caller has seen to it that there are shards. -/
def exports (shardID totalShards : Nat) (visited : Finset String)
    (result data : Map String String) (key : String) : Option (MapLocal × Map String String) :=
  if key ∉ visited ∧ 0 < totalShards then
    (data.lookup key).map fun v ↦
      let result := if shardIDOf key totalShards = shardID then result.insert key v else result
      (.exporting (insert key visited) result, data)
  else none

/-- A turn of the loop of `Import`. -/
def imports (new : Map String String) (visited : Finset String) (data : Map String String)
    (key : String) : Option (MapLocal × Map String String) :=
  if key ∉ visited then
    (new.lookup key).map fun v ↦ (.importing (insert key visited), data.insert key v)
  else none

def work : MapOp → MapLocal → Map String String → String → Option (MapLocal × Map String String)
  | .basic op, .basic l, data, _ => (op.work l data).map fun done ↦ (.basic done.1, done.2)
  | .exportShard shardID totalShards, .exporting visited result, data, key =>
    exports shardID totalShards visited result data key
  | .importData new, .importing visited, data, key => imports new visited data key
  | _, _, _, _ => none

/-- A loop ends when no key is left. -/
def result : MapOp → MapLocal → Map String String → Option MapResult
  | .basic op, .basic l, _ => (op.result l).map .basic
  | .exportShard _ _, .exporting visited result, data =>
    if data.keys ⊆ visited then some (.exported result) else none
  | .importData new, .importing visited, _ =>
    if new.keys ⊆ visited then some .imported else none
  | _, _, _ => none

end MapOp

/-- A method as one step. -/
def ConcurrentMapCache.perform (c : ConcurrentMapCache) : MapOp → ConcurrentMapCache × MapResult
  | .basic op => ((BasicMapCache.perform c op).1, .basic (BasicMapCache.perform c op).2)
  | .exportShard shardID totalShards => (c, .exported (c.exportShard shardID totalShards))
  | .importData data => (c.importData data, .imported)

/-- A method that has found `data₀` and has got as far as `l`. -/
def MapOp.Running (op : MapOp) (data₀ : Map String String) (l : MapLocal)
    (data : Map String String) : Prop :=
  match op, l with
  | .basic op, .basic l => op.Running data₀ l data
  | .exportShard shardID totalShards, .exporting visited result =>
    data = data₀ ∧ ∀ key, result.lookup key =
      if key ∈ visited ∧ shardIDOf key totalShards = shardID then data₀.lookup key else none
  | .importData new, .importing visited =>
    ∀ key, data.lookup key =
      if key ∈ visited then (new.lookup key).or (data₀.lookup key) else data₀.lookup key
  | _, _ => False

def concurrentMapObject : Object Unit (Map String String) MapOp MapLocal String MapResult where
  part _ := ()
  writes := MapOp.writes
  enter := MapOp.enter
  work := MapOp.work
  result := MapOp.result

namespace MapOp

variable {op : MapOp} {data₀ data data' new res : Map String String} {l l' : MapLocal}
  {visited : Finset String} {key : String} {shardID totalShards : Nat} {r : MapResult}

theorem Running.exports
    (h : Running (.exportShard shardID totalShards) data₀ (.exporting visited res) data)
    (hwork : MapOp.exports shardID totalShards visited res data key = some (l', data')) :
    Running (.exportShard shardID totalShards) data₀ l' data' := by
  obtain ⟨hdata, hresult⟩ := h
  obtain ⟨⟨hnew, -⟩, hwork⟩ := Option.ite_none_right_eq_some.mp hwork
  obtain ⟨v, hv, hwork⟩ := Option.map_eq_some_iff.mp hwork
  cases hwork
  refine ⟨hdata, ?_⟩
  intro key'
  rw [hdata] at hv
  by_cases hkey : key' = key
  · -- the key of this turn
    subst hkey
    by_cases hshard : shardIDOf key' totalShards = shardID
    · rw [if_pos hshard, Finmap.lookup_insert, if_pos ⟨Finset.mem_insert_self _ _, hshard⟩, hv]
    · rw [if_neg hshard, hresult, if_neg fun h ↦ hshard h.2, if_neg fun h ↦ hshard h.2]
  · have hlookup : (if shardIDOf key totalShards = shardID then res.insert key v
        else res).lookup key' = res.lookup key' := by
      split
      · exact Finmap.lookup_insert_of_ne _ hkey
      · rfl
    rw [hlookup, hresult]
    simp only [Finset.mem_insert, hkey, false_or]

theorem Running.imports (h : Running (.importData new) data₀ (.importing visited) data)
    (hwork : MapOp.imports new visited data key = some (l', data')) :
    Running (.importData new) data₀ l' data' := by
  obtain ⟨hnew, hwork⟩ := Option.ite_none_right_eq_some.mp hwork
  obtain ⟨v, hv, hwork⟩ := Option.map_eq_some_iff.mp hwork
  cases hwork
  intro key'
  by_cases hkey : key' = key
  · subst hkey
    rw [Finmap.lookup_insert, if_pos (Finset.mem_insert_self _ _), hv]
    rfl
  · rw [Finmap.lookup_insert_of_ne _ hkey, h key']
    simp only [Finset.mem_insert, hkey, false_or]

theorem Running.work (h : op.Running data₀ l data) (hwork : op.work l data key = some (l', data')) :
    op.Running data₀ l' data' := by
  cases op with
  | basic op =>
    cases l with
    | basic l =>
      obtain ⟨done, hdone, heq⟩ := Option.map_eq_some_iff.mp hwork
      cases heq
      exact CacheOp.Running.work h hdone
    | exporting | importing => cases hwork
  | exportShard shardID totalShards =>
    cases l with
    | exporting visited result => exact Running.exports h hwork
    | basic | importing => cases hwork
  | importData new =>
    cases l with
    | importing visited => exact Running.imports h hwork
    | basic | exporting => cases hwork

/-- When no key is left, the loops have built what one step would have built. -/
theorem Running.result (h : op.Running data₀ l data) (hresult : op.result l data = some r) :
    ConcurrentMapCache.perform data₀ op = (data, r) := by
  cases op with
  | basic op =>
    cases l with
    | basic l =>
      obtain ⟨r', hr', rfl⟩ := Option.map_eq_some_iff.mp hresult
      have hperform := CacheOp.Running.result h hr'
      exact congrArg (fun done ↦ (done.1, MapResult.basic done.2)) hperform
    | exporting | importing => cases hresult
  | exportShard shardID totalShards =>
    cases l with
    | exporting visited result =>
      obtain ⟨hall, hresult⟩ := Option.ite_none_right_eq_some.mp hresult
      cases hresult
      obtain ⟨hdata, hlookup⟩ := h
      subst hdata
      have heq : result = ConcurrentMapCache.exportShard data shardID totalShards := by
        apply Finmap.ext_lookup
        intro key
        rw [hlookup, ConcurrentMapCache.lookup_exportShard]
        by_cases hkey : key ∈ visited
        · simp only [hkey, true_and]
        · -- a key that was not visited is not there
          have hnone : data.lookup key = none := by
            apply Finmap.lookup_eq_none.mpr
            intro hmem
            exact hkey (hall (Finmap.mem_keys.mpr hmem))
          rw [hnone, ite_self, ite_self]
      rw [heq]
      rfl
    | basic | importing => cases hresult
  | importData new =>
    cases l with
    | importing visited =>
      obtain ⟨hall, hresult⟩ := Option.ite_none_right_eq_some.mp hresult
      cases hresult
      have heq : data = ConcurrentMapCache.importData data₀ new := by
        apply Finmap.ext_lookup
        intro key
        rw [h key, ConcurrentMapCache.lookup_importData]
        by_cases hkey : key ∈ visited
        · rw [if_pos hkey]
        · have hnone : new.lookup key = none := by
            apply Finmap.lookup_eq_none.mpr
            intro hmem
            exact hkey (hall (Finmap.mem_keys.mpr hmem))
          rw [if_neg hkey, hnone, Option.none_or]
      rw [heq]
      rfl
    | basic | exporting => cases hresult

theorem work_reads (hreads : op.writes = false)
    (hwork : op.work l data key = some (l', data')) : data' = data := by
  cases op with
  | basic op =>
    cases l with
    | basic l =>
      obtain ⟨done, hdone, heq⟩ := Option.map_eq_some_iff.mp hwork
      cases heq
      exact CacheOp.work_reads hreads hdone
    | exporting | importing => cases hwork
  | exportShard shardID totalShards =>
    cases l with
    | exporting visited result =>
      obtain ⟨-, hwork⟩ := Option.ite_none_right_eq_some.mp hwork
      obtain ⟨v, -, hwork⟩ := Option.map_eq_some_iff.mp hwork
      cases hwork
      rfl
    | basic | importing => cases hwork
  | importData new => cases hreads

end MapOp

theorem concurrentMapObject_correct :
    concurrentMapObject.Correct ConcurrentMapCache.perform MapOp.Running where
  enter op data := by
    cases op with
    | basic op => rfl
    | exportShard shardID totalShards =>
      refine ⟨rfl, ?_⟩
      intro key
      rw [Finmap.lookup_empty]
      simp only [Finset.notMem_empty, false_and, if_false]
    | importData new =>
      intro key
      simp only [Finset.notMem_empty, if_false]
  work := MapOp.Running.work
  result := MapOp.Running.result
  reads := MapOp.work_reads

/-- Before the first call. -/
def concurrentMapStart : State Unit (Map String String) MapOp MapLocal MapResult :=
  LockedObject.start fun _ ↦ ∅

/-- However many goroutines use a `ConcurrentMapCache` at once, and in whatever order the loops of
`ExportShard` and `Import` go through their keys, there is an order of the calls in which each of
them, done in one step, returns what it has returned; while nobody writes, the map is what the calls
of that order leave. -/
theorem concurrentMapCache_linearizable
    {s : State Unit (Map String String) MapOp MapLocal MapResult}
    (hrun : Reachable concurrentMapObject.step concurrentMapStart s) :
    ∃ order c, Legal ConcurrentMapCache.perform ∅ order c ∧ Explains order s.history ∧
      ((s.mutex ()).writer = false → s.data () = c) := by
  obtain ⟨order, a, hlegal, hexplains, hsettled⟩ := concurrentMapObject_correct.linearizable hrun
  -- there is one part only
  have hspec : ∀ (a : Unit → Map String String) c op, a () = c →
      (concurrentMapObject.onParts ConcurrentMapCache.perform a op).1 () =
          (ConcurrentMapCache.perform c op).1 ∧
        (concurrentMapObject.onParts ConcurrentMapCache.perform a op).2 =
          (ConcurrentMapCache.perform c op).2 := by
    intro a c op hrel
    subst hrel
    refine ⟨?_, rfl⟩
    show Function.update a () (ConcurrentMapCache.perform (a ()) op).1 () = _
    rw [Function.update_self]
  obtain ⟨c, hlegal', rfl⟩ := hlegal.map (fun a c ↦ a () = c) rfl hspec
  exact ⟨order, a (), hlegal', hexplains, hsettled ()⟩

/-- An export of two keys, with a read inside it and a write that has to wait for it. -/
def exportHistory : List (Event MapOp MapResult) :=
  [.invoked 0 (.importData (.insert "a" "1" (.singleton "b" "2"))), .returned 0 .imported,
    .invoked 1 (.exportShard 0 1), .invoked 2 (.basic (.put "a" "3")),
    .invoked 3 (.basic (.get "a")), .returned 3 (.basic (.value "1")),
    .returned 1 (.exported (.insert "b" "2" (.singleton "a" "1"))), .returned 2 (.basic .done)]

theorem concurrentMapCache_linearizable_export :
    ∃ s, Reachable concurrentMapObject.step concurrentMapStart s ∧
      s.history = exportHistory ∧
      ∃ order c, Legal ConcurrentMapCache.perform ∅ order c ∧ Explains order s.history ∧
        ((s.mutex ()).writer = false → s.data () = c) := by
  obtain ⟨s, hrun, hhistory⟩ : ∃ s, Reachable concurrentMapObject.step concurrentMapStart s ∧
      s.history = exportHistory :=
    exists_reaches_of_exec
      [.invoke (.importData (.insert "a" "1" (.singleton "b" "2"))), .acquire 0, .work 0 "b",
        .work 0 "a", .release 0, .respond 0, .invoke (.exportShard 0 1),
        .invoke (.basic (.put "a" "3")), .acquire 1, .work 1 "a", .invoke (.basic (.get "a")),
        .acquire 3, .work 3 "", .release 3, .respond 3, .work 1 "b", .release 1, .acquire 2,
        .work 2 "", .respond 1, .release 2, .respond 2] (by decide +kernel)
  exact ⟨s, hrun, hhistory, concurrentMapCache_linearizable hrun⟩

end DistributedCache
