import DistributedCache.Client.Routing

/-!
# One pull

`HandlePull` on the target asks the source for the export of a shard and imports the answer.
`Import` overwrites and adds keys and never removes one.  A key that the target has from an earlier
copy, and that was deleted on the source since, is still there after the pull; the second pull of a
migration meets just that.
-/

namespace DistributedCache

open FiniteMap

/-- The parameter `shard` of a request. -/
inductive ShardParameter where
  | missing
  /-- `Sscanf` finds no integer in it. -/
  | invalid
  | id (shardID : Int64)
  deriving DecidableEq

structure PullRequest where
  /-- The empty string when the parameter is missing. -/
  source : String
  shard : ShardParameter
  deriving DecidableEq

/-- What becomes of the request to the source. -/
inductive PullTransfer where
  /-- `httpClient.Get` returns an error. -/
  | failed
  /-- The body of the answer cannot be decoded. -/
  | garbled
  | delivered
  deriving DecidableEq, Repr

/-- `HandleExport` with the integers of the source. -/
def exportOf (source : ConcurrentMapCache) (totalShards : Int64) :
    ShardParameter → Except Reply ConcurrentMapCache
  | .missing => .error (httpError "Missing shard parameter" .badRequest)
  | .invalid => .error (httpError "Invalid shard parameter" .badRequest)
  | .id shardID =>
    if totalShards = 0 then .error (httpError "Cluster not configured" .serviceUnavailable)
    else .ok (source.exportShard64 shardID totalShards)

/-- `HandlePull` on a node with the cache `target`, while the source has the cache `source`. -/
def handlePull (source : ConcurrentMapCache) (totalShards : Int64) (transfer : PullTransfer)
    (target : ConcurrentMapCache) (request : PullRequest) : Reply × ConcurrentMapCache :=
  if request.source = "" ∨ request.shard = .missing then
    (httpError "Missing source or shard parameter" .badRequest, target)
  else if transfer = .failed then (httpError "Failed to pull data" .badGateway, target)
  else
    match exportOf source totalShards request.shard with
    -- any status but 200
    | .error _ => (httpError "Source returned error" .badGateway, target)
    | .ok data =>
      if transfer = .garbled then (httpError "Failed to decode data" .internalServerError, target)
      else (DataNode.written, target.importData data)

/-! ## The handlers of the data nodes' model -/

/-- For shards that there are this is the export of the data nodes' model. -/
theorem exportOf_eq_handleExport {node : DataNode} {shardID totalShards : Int64}
    (hpos : 0 < totalShards) (hshard : 0 ≤ shardID)
    (htotal : node.config.totalShards = totalShards.toNatClampNeg) :
    exportOf node.cache totalShards (.id shardID) = node.handleExport shardID.toNatClampNeg := by
  have hne : totalShards ≠ 0 := by
    rintro rfl
    exact absurd hpos (by decide)
  have hcount : node.config.totalShards ≠ 0 := by
    rw [Int64.lt_iff_toInt_lt, Int64.toInt_zero] at hpos
    rw [htotal, ← Int64.toNat_toInt]
    omega
  have hexport : exportOf node.cache totalShards (.id shardID) =
      .ok (node.cache.exportShard64 shardID totalShards) := if_neg hne
  unfold DataNode.handleExport
  rw [hexport, if_neg hcount, htotal, ConcurrentMapCache.exportShard64_eq hpos hshard]

/-! ## What a pull does -/

section Pull

variable {source target : ConcurrentMapCache} {totalShards : Int64} {transfer : PullTransfer}
  {request : PullRequest}

/-- A pull that succeeds has imported the export of a shard. -/
theorem handlePull_ok (h : (handlePull source totalShards transfer target request).1.status = .ok) :
    ∃ shardID, request.shard = .id shardID ∧
      (handlePull source totalShards transfer target request).2 =
        target.importData (source.exportShard64 shardID totalShards) := by
  unfold handlePull at h ⊢
  split at h
  · cases h
  · rename_i hgiven
    rw [if_neg hgiven]
    split at h
    · cases h
    · rename_i hreached
      rw [if_neg hreached]
      cases hparameter : request.shard with
      | missing => exact absurd (Or.inr hparameter) hgiven
      | invalid =>
        rw [hparameter] at h
        cases h
      | id shardID =>
        rw [hparameter] at h
        unfold exportOf at h ⊢
        by_cases hnone : totalShards = 0
        · simp only [if_pos hnone] at h
          cases h
        · simp only [if_neg hnone] at h ⊢
          by_cases hgarbled : transfer = .garbled
          · rw [if_pos hgarbled] at h
            cases h
          · rw [if_neg hgarbled]
            exact ⟨shardID, rfl, rfl⟩

/-- What the target holds after it has imported an export. -/
theorem lookup_import_export (shardID : Int64) (key : String) :
    (target.importData (source.exportShard64 shardID totalShards)).lookup key =
      if keyShardID (fnv32a key) totalShards = shardID then
        (source.lookup key).or (target.lookup key)
      else target.lookup key := by
  rw [ConcurrentMapCache.lookup_importData, ConcurrentMapCache.lookup_exportShard64]
  split
  · rfl
  · exact Option.none_or

end Pull

/-- The two caches agree on the shard, and the target has its other keys from before. -/
def CopiesShard (shardID totalShards : Int64) (source before after : ConcurrentMapCache) : Prop :=
  ∀ key, after.lookup key =
    if keyShardID (fnv32a key) totalShards = shardID then source.lookup key else before.lookup key

/-- A pull that succeeds makes the copies of the shard equal exactly when the target had no key of
the shard that the source does not have. -/
theorem pull_copies_iff {source target : ConcurrentMapCache} {shardID totalShards : Int64}
    {transfer : PullTransfer} {url : String}
    (hok : (handlePull source totalShards transfer target ⟨url, .id shardID⟩).1.status = .ok) :
    CopiesShard shardID totalShards source target
        (handlePull source totalShards transfer target ⟨url, .id shardID⟩).2 ↔
      ∀ key ∈ target, keyShardID (fnv32a key) totalShards = shardID → key ∈ source := by
  obtain ⟨shardID', hsame, hafter⟩ := handlePull_ok hok
  cases hsame
  unfold CopiesShard
  rw [hafter]
  constructor
  · intro hcopies key htarget hshard
    have hkey := hcopies key
    rw [lookup_import_export, if_pos hshard, if_pos hshard] at hkey
    by_contra hgone
    -- the source has nothing under the key, so the target keeps what it has
    rw [Finmap.lookup_eq_none.mpr hgone, Option.none_or, Finmap.lookup_eq_none] at hkey
    exact hkey htarget
  · intro hsubset key
    rw [lookup_import_export]
    split
    · rename_i hshard
      cases hsource : source.lookup key with
      | none =>
        have hnot : key ∉ target := by
          intro htarget
          exact Finmap.lookup_eq_none.mp hsource (hsubset key htarget hshard)
        rw [Finmap.lookup_eq_none.mpr hnot, Option.none_or]
      | some value => exact Option.some_or
    · rfl

/-- The target has an earlier value of the key. -/
theorem pull_copies_iff_rewritten :
    (handlePull ((∅ : ConcurrentMapCache).put "k" "2") 1 .delivered
        ((∅ : ConcurrentMapCache).put "k" "1") ⟨"http://s", .id 0⟩).1.status = .ok ∧
      CopiesShard 0 1 ((∅ : ConcurrentMapCache).put "k" "2")
        ((∅ : ConcurrentMapCache).put "k" "1")
        (handlePull ((∅ : ConcurrentMapCache).put "k" "2") 1 .delivered
          ((∅ : ConcurrentMapCache).put "k" "1") ⟨"http://s", .id 0⟩).2 := by
  have hok : (handlePull ((∅ : ConcurrentMapCache).put "k" "2") 1 .delivered
      ((∅ : ConcurrentMapCache).put "k" "1") ⟨"http://s", .id 0⟩).1.status = .ok := by
    decide +kernel
  refine ⟨hok, (pull_copies_iff hok).mpr ?_⟩
  intro key hkey _
  rcases Finmap.mem_insert.mp hkey with rfl | hnone
  · exact Finmap.mem_insert.mpr (Or.inl rfl)
  · exact absurd hnone Finmap.notMem_empty

/-- The key is pulled, deleted on the source, and the shard is pulled again. -/
theorem pulled_key_stays :
    ∃ first second : ConcurrentMapCache,
      handlePull ((∅ : ConcurrentMapCache).put "k" "v") 1 .delivered ∅ ⟨"http://s", .id 0⟩ =
        (DataNode.written, first) ∧
      handlePull (((∅ : ConcurrentMapCache).put "k" "v").delete "k") 1 .delivered first
        ⟨"http://s", .id 0⟩ = (DataNode.written, second) ∧
      keyShardID (fnv32a "k") 1 = 0 ∧
      (((∅ : ConcurrentMapCache).put "k" "v").delete "k").lookup "k" = none ∧
      second.lookup "k" = some "v" := by
  refine ⟨(handlePull ((∅ : ConcurrentMapCache).put "k" "v") 1 .delivered ∅ ⟨"http://s", .id 0⟩).2,
    (handlePull (((∅ : ConcurrentMapCache).put "k" "v").delete "k") 1 .delivered
      (handlePull ((∅ : ConcurrentMapCache).put "k" "v") 1 .delivered ∅ ⟨"http://s", .id 0⟩).2
      ⟨"http://s", .id 0⟩).2, ?_⟩
  decide +kernel

end DistributedCache
