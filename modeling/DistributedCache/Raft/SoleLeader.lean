import DistributedCache.Raft.Attempts
import DistributedCache.Raft.Delivery
import DistributedCache.Raft.Follower

/-!
# A leader that stays

While one node appends every entry and takes none from others, its log is the list of what was
appended.  If besides at most one entry is yet to be delivered, no two batches can overtake each
other, and its application is what the delivered entries make of it, in their order.
-/

namespace DistributedCache

open Network Window

variable {n : Nat} {σ : Type} {app : Application σ} {application : σ} {leader : Fin n}
  {s s' : Service n σ}

/-- The node appends every entry.  Before the first one it may answer other leaders, who have
nothing to send, and it takes no snapshot. -/
def Service.ledBy (s : Service n σ) (leader : Fin n) : Fin n × Action n → Bool
  | (i, .broadcast _) => i = leader
  | (i, .appendEntries args _) => i = leader → args.suffix = [] ∧ s.appended = []
  | (i, .installSnapshot req disk) =>
    i = leader → (s.raft i).takesSnapshot (.installSnapshot req disk) = false
  | _ => true

structure SoleLog (app : Application σ) (application : σ) (leader : Fin n) (s : Service n σ) :
    Prop where
  base : (s.raft leader).snapshotter.lastIndex = 0
  log : (s.raft leader).log.map LogEntry.message = s.appended.map Prod.snd
  positions : s.appended.map Prod.fst = positions 0 s.appended.length
  order : InOrder (s.raft leader) (s.cluster.nodes leader).threads
    (deliveredBy leader s.cluster.history)
  application : (s.raft leader).application =
    app.applied application ((deliveredBy leader s.cluster.history).map Prod.snd)

namespace SoleLog

theorem start (app : Application σ) (snapshotThreshold : Int) (application : Fin n → σ) :
    SoleLog app (application leader) leader (Service.start n snapshotThreshold application) where
  base := rfl
  log := rfl
  positions := rfl
  order := ⟨[], rfl, le_rfl, le_rfl, le_rfl, rfl, fun _ hd ↦ absurd hd List.not_mem_nil⟩
  application := rfl

theorem congr (h : SoleLog app application leader s) (hcluster : s'.cluster = s.cluster)
    (happended : s'.appended = s.appended) : SoleLog app application leader s' := by
  obtain ⟨hbase, hlog, hpositions, horder, happ⟩ := h
  constructor
  · rwa [Service.raft, hcluster]
  · rwa [Service.raft, hcluster, happended]
  · rwa [happended]
  · rwa [Service.raft, hcluster]
  · rwa [Service.raft, hcluster]

theorem absLength (h : SoleLog app application leader s) :
    (s.raft leader).absLength = s.appended.length := by
  have hlen := congrArg List.length h.log
  rw [List.length_map, List.length_map] at hlen
  rw [Raft.absLength, h.base, hlen, Int.zero_add]

theorem committed_length (h : SoleLog app application leader s) :
    ∃ batch, pendingBatches (s.cluster.nodes leader).threads = single batch ∧
      Committed (s.raft leader) (deliveredBy leader s.cluster.history ++ batch) ∧
      (s.raft leader).commitedLength =
        (deliveredBy leader s.cluster.history).length + batch.length := by
  obtain ⟨batch, hpend, hcom⟩ := h.order
  refine ⟨batch, hpend, hcom, ?_⟩
  have hlen := congrArg List.length hcom.positions
  have hbase := hcom.base
  rw [List.length_map, List.length_append, length_positions] at hlen
  rw [h.base] at hbase
  omega

/-- What was delivered are the first entries that were appended. -/
theorem delivered_first (h : SoleLog app application leader s) :
    deliveredBy leader s.cluster.history <+: s.appended := by
  obtain ⟨batch, -, hcom, hlen⟩ := h.committed_length
  have hbound := hcom.bound
  rw [h.absLength] at hbound
  refine List.prefix_iff_getElem?.mpr fun k hk ↦ ?_
  have hlt : k < s.appended.length := by omega
  -- the delivery, the entry in the log and the appended message with this number
  let d := (deliveredBy leader s.cluster.history)[k]
  obtain ⟨e, he⟩ : ∃ e, (s.raft leader).entryAt k = some e :=
    Raft.exists_entryAt (by rw [h.base]; omega) (by rw [h.absLength]; omega)
  have hposition : d.1 = k := by
    have hd : (deliveredBy leader s.cluster.history ++ batch)[k]? = some d := by
      rw [List.getElem?_append_left hk, List.getElem?_eq_getElem hk]
    rw [fst_of_positions hcom.positions hd, Int.zero_add]
  have hmessage : e.message = d.2 :=
    hcom.messages d (List.mem_append_left _ (List.getElem_mem hk)) e (by rw [hposition, he])
  have hfirst : (s.appended[k]).1 = k := by
    rw [fst_of_positions h.positions (List.getElem?_eq_getElem hlt), Int.zero_add]
  have hsecond : (s.appended[k]).2 = e.message := by
    have hget := congrArg (fun l : List Message ↦ l[k]?) h.log
    simp only [List.getElem?_map] at hget
    rw [Raft.entryAt, h.base, at?_of_le (by omega), Int.sub_zero, Int.toNat_natCast] at he
    rw [he, List.getElem?_eq_getElem hlt] at hget
    exact (Option.some.inj hget).symm
  rw [List.getElem?_eq_getElem hlt]
  exact congrArg some (Prod.ext (hfirst.trans hposition.symm) (hsecond.trans hmessage))

variable {a : Action n} {e : RaftEffect n σ}

/-- With at most one entry to be delivered, nothing is committed beside an undelivered batch. -/
theorem keepsOrder (h : SoleLog app application leader s)
    (hbehind : s.appended.length ≤ (deliveredBy leader s.cluster.history).length + 1)
    (hled : s.ledBy leader (leader, a) = true) :
    (s.raft leader).keepsOrder leader (s.cluster.nodes leader).threads a = true := by
  obtain ⟨batch, hpend, hcom, hlen⟩ := h.committed_length
  have habs := h.absLength
  cases a with
  | replicateResponse f req resp =>
    refine decide_eq_true ?_
    rintro ⟨-, hlt, -⟩
    have hnil : batch = [] := List.eq_nil_of_length_eq_zero (by omega)
    rw [hpend, hnil]
    rfl
  | appendEntries args disk =>
    obtain ⟨hsuffix, hnone⟩ := of_decide_eq_true hled rfl
    have hbound := hcom.bound
    rw [habs, hnone, List.length_nil] at hbound
    have hnil : batch = [] := List.eq_nil_of_length_eq_zero (by omega)
    refine decide_eq_true ⟨fun _ ↦ by rw [hpend, hnil]; rfl, fun hconflict ↦ ?_⟩
    obtain ⟨-, x, hx, -⟩ := hconflict
    rw [hsuffix] at hx
    cases hx
  | installSnapshot req disk =>
    have hno := of_decide_eq_false (of_decide_eq_true hled rfl)
    refine decide_eq_true fun hdone ↦ Or.inl ?_
    by_contra hle
    exact hno ⟨hdone, by omega⟩
  | _ => rfl

/-- A request without entries leaves the log as it is. -/
theorem appendSuffix_nil (r : Raft n σ) (p : Int) : r.appendSuffix p [] = r := by
  have hfree : ¬ r.conflicts p [] := by
    rintro ⟨-, x, hx, -⟩
    cases hx
  have hmissing : r.missingEntries p [] = [] := by
    unfold Raft.missingEntries
    split <;> simp
  unfold Raft.appendSuffix Raft.truncatedLog
  rw [if_neg hfree, hmissing, List.append_nil]

/-- A request without entries that comes before the first entry leaves log and base alone. -/
theorem appendEntries_idle (h : SoleLog app application leader s) {args : LogRequestArgs n}
    {disk : Disk} {r' : Raft n σ} {ds : List Delivery} (hsuffix : args.suffix = [])
    (hnone : s.appended = [])
    (happ : (s.raft leader).appendEntries app disk args = some (r', ds)) :
    r'.log = (s.raft leader).log ∧ r'.snapshotter = (s.raft leader).snapshotter := by
  obtain ⟨batch, -, hcom, -⟩ := h.committed_length
  have habs := h.absLength
  have hbound := hcom.bound
  rw [habs, hnone, List.length_nil] at hbound
  rw [hnone, List.length_nil] at habs
  obtain ⟨r₁, hcommit, hsnap⟩ := Raft.appendEntries_cases happ
  rw [hsuffix, appendSuffix_nil] at hcommit
  have hr₁ : r₁.log = (s.raft leader).log ∧ r₁.snapshotter = (s.raft leader).snapshotter ∧
      r₁.commitedLength ≤ 0 := by
    obtain ⟨-, rfl, -⟩ | ⟨-, -, -, state, rfl⟩ := Raft.commitTo_spec hcommit
    · exact ⟨rfl, rfl, hbound⟩
    · refine ⟨rfl, rfl, ?_⟩
      change min args.commitLength (s.raft leader).absLength ≤ 0
      omega
  obtain ⟨file, rfl⟩ | ⟨file, entry, -, hpos, -, -, -⟩ := Raft.decideRunSnapshot_cases hsnap
  · exact ⟨hr₁.1, hr₁.2.1⟩
  · -- there is nothing to compact
    have hbase := h.base
    rw [Raft.comittedCount, hr₁.2.1, hbase] at hpos
    omega

/-- The leader's log and its base after an action of its own. -/
theorem log_act (h : SoleLog app application leader s)
    (hact : (s.raft leader).act app leader a = some e) (hled : s.ledBy leader (leader, a) = true) :
    e.state.snapshotter.lastIndex = 0 ∧
      e.state.log.map LogEntry.message =
        (s.appended ++ s.appendedBy (leader, a)).map Prod.snd := by
  have hsame (hlog : e.state.log = (s.raft leader).log)
      (hsnap : e.state.snapshotter = (s.raft leader).snapshotter)
      (hnew : s.appendedBy (leader, a) = []) : e.state.snapshotter.lastIndex = 0 ∧
        e.state.log.map LogEntry.message =
          (s.appended ++ s.appendedBy (leader, a)).map Prod.snd := by
    rw [hsnap, hlog, hnew, List.append_nil]
    exact ⟨h.base, h.log⟩
  cases Raft.act_log hact with
  | broadcasts m =>
    refine ⟨h.base, ?_⟩
    change ((s.raft leader).log ++ [_]).map LogEntry.message = _
    rw [List.map_append, h.log, List.map_append]
    rfl
  | appends happ =>
    obtain ⟨hsuffix, hnone⟩ := of_decide_eq_true hled rfl
    obtain ⟨hlog, hsnap⟩ := h.appendEntries_idle hsuffix hnone happ
    exact hsame hlog hsnap rfl
  | accepts args =>
    exact hsame Raft.followLeader_sameLog.log Raft.followLeader_sameLog.snapshotter rfl
  | installs hinst hout =>
    have hno := of_decide_eq_false (of_decide_eq_true hled rfl)
    cases hout with
    | stale => exact hsame rfl rfl rfl
    | stored => exact hsame (by simp) (by simp) rfl
    | failed hterm hdone | restored hterm hdone => exact absurd ⟨hdone, hterm⟩ hno
  | commits hcommits hcommit =>
    obtain ⟨rfl, -⟩ := Raft.commitLogEntries_spec hcommit
    exact hsame rfl rfl rfl
  | delivers d rest => exact hsame rfl rfl rfl
  | other hlog =>
    refine hsame hlog.log hlog.snapshotter ?_
    cases a with
    | broadcast m =>
      obtain rfl := Option.some.inj hact
      have hlen := congrArg List.length hlog.log
      simp [Raft.quiet, Raft.broadcast] at hlen
    | _ => rfl

theorem positions_appendedBy (h : SoleLog app application leader s) (a : Action n) :
    (s.appended ++ s.appendedBy (leader, a)).map Prod.fst =
      DistributedCache.positions 0 (s.appended ++ s.appendedBy (leader, a)).length := by
  cases a with
  | broadcast m =>
    rw [Service.appendedBy, List.map_append, List.length_append, h.positions, positions_add,
      h.absLength, Int.zero_add]
    rfl
  | _ =>
    rw [Service.appendedBy_eq_nil (by simp), List.append_nil]
    exact h.positions

/-- Only a snapshot could change the application otherwise, and the leader takes none. -/
theorem takesSnapshot_eq_false (hled : s.ledBy leader (leader, a) = true) :
    (s.raft leader).takesSnapshot a = false := by
  cases a with
  | installSnapshot req disk => exact of_decide_eq_true hled rfl
  | _ => rfl

theorem cluster_act (h : SoleLog app application leader s)
    (hbehind : s.appended.length ≤ (deliveredBy leader s.cluster.history).length + 1)
    (hthread : ∀ t ∈ a.thread, t ∈ (s.cluster.nodes leader).threads)
    (hact : (s.raft leader).act app leader a = some e) (hled : s.ledBy leader (leader, a) = true)
    (hcluster : s'.cluster = s.cluster.apply leader a.thread e)
    (happended : s'.appended = s.appended ++ s.appendedBy (leader, a)) :
    SoleLog app application leader s' := by
  have hnode : s'.cluster.nodes leader =
      ⟨e.state, remove (s.cluster.nodes leader).threads a.thread ++ e.threads⟩ := by
    rw [hcluster, Config.apply_self]
  have hhistory : deliveredBy leader s'.cluster.history =
      deliveredBy leader s.cluster.history ++ deliveredBy leader e.events := by
    rw [hcluster, Config.apply_history, deliveredBy_append]
  obtain ⟨hbase, hlog⟩ := h.log_act hact hled
  constructor
  · rw [Service.raft, Cluster.raft, hnode]
    exact hbase
  · rw [Service.raft, Cluster.raft, hnode, happended]
    exact hlog
  · rw [happended]
    exact h.positions_appendedBy a
  · rw [Service.raft, Cluster.raft, hnode, hhistory]
    exact inOrder_act hact hthread (h.keepsOrder hbehind hled) h.order
  · rw [Service.raft, Cluster.raft, hnode, hhistory, List.map_append, Application.applied_append,
      ← h.application]
    exact act_application hact (takesSnapshot_eq_false hled)

/-- Another node's action is none of the leader's business. -/
theorem cluster_other (h : SoleLog app application leader s) {i : Fin n} (hne : leader ≠ i)
    (hact : (s.raft i).act app i a = some e) (hled : s.ledBy leader (i, a) = true)
    (hcluster : s'.cluster = s.cluster.apply i a.thread e)
    (happended : s'.appended = s.appended ++ s.appendedBy (i, a)) :
    SoleLog app application leader s' := by
  have hnode : s'.cluster.nodes leader = s.cluster.nodes leader := by
    rw [hcluster, Config.apply_of_ne hne]
  have hhistory : deliveredBy leader s'.cluster.history =
      deliveredBy leader s.cluster.history := by
    rw [hcluster, Config.apply_history, deliveredBy_append, deliveredBy_other hact hne,
      List.append_nil]
  have hnone : s'.appended = s.appended := by
    cases a with
    | broadcast m => exact absurd (of_decide_eq_true hled) hne.symm
    | _ => rw [happended, Service.appendedBy_eq_nil (by simp), List.append_nil]
  obtain ⟨hbase, hlog, hpositions, horder, happ⟩ := h
  constructor
  · rwa [Service.raft, Cluster.raft, hnode]
  · rwa [Service.raft, Cluster.raft, hnode, hnone]
  · rwa [hnone]
  · rwa [Service.raft, Cluster.raft, hnode, hhistory]
  · rwa [Service.raft, Cluster.raft, hnode, hhistory]

theorem step (h : SoleLog app application leader s) {a : ServiceAction n}
    (hbehind : s.appended.length ≤ (deliveredBy leader s.cluster.history).length + 1)
    (hled : ∀ x ∈ a.raftStep s, s.ledBy leader x = true) (hstep : s.step app a = some s') :
    SoleLog app application leader s' := by
  rcases Service.cluster_step hstep with ⟨hcluster, happended⟩ | ⟨⟨i, b⟩, hx, htaken, happended⟩
  · exact h.congr hcluster happended
  · obtain ⟨hthread, -, e, hact, hcluster⟩ := Cluster.step_cases htaken
    by_cases hi : leader = i
    · subst hi
      exact h.cluster_act hbehind hthread hact (hled _ hx) hcluster happended
    · exact h.cluster_other hi hact (hled _ hx) hcluster happended

end SoleLog

end DistributedCache
