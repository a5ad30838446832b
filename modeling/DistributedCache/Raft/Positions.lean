import DistributedCache.Raft.Follower
import DistributedCache.Raft.Forward
import DistributedCache.Raft.LogSteps

/-!
# Where entries stand

`Broadcast` appends a message at one position of one log.  As long as requests and snapshots leave
entries at their positions, every copy of the message stands at that position, in whatever log,
request or batch it is, and it is delivered for that position only.
-/

namespace DistributedCache

open Network Window

variable {n : Nat} {σ : Type} {app : Application σ} {i : Fin n} {r r' : Raft n σ} {a : Action n}
  {e : RaftEffect n σ} {g g' : List Delivery} {p : Int} {m : Message}

/-! ## Conditions on runs -/

/-- The action leaves every entry at its position. -/
def Raft.keepsPlaces (r : Raft n σ) : Action n → Bool
  -- the position of the first entry is sent as an `int32`
  | .prepareLogRequestArgs f =>
    (r.entryAt (r.nextIndex f - 1)).isSome = true → FitsInt32 (r.nextIndex f - 1)
  | .appendEntries args _ => r.missingEntries args.prefixLen args.suffix ≠ [] →
      args.prefixLen ≤ r.absLength ∧ ¬ r.conflicts args.prefixLen args.suffix
  | .installSnapshot req _ =>
    req.done = true → r.currentTerm ≤ req.leaderTerm → ¬ r.retainsSuffix req
  | _ => true

def PlacesKept (c : Cluster n σ) (x : Fin n × Action n) : Prop :=
  (c.raft x.1).keepsPlaces x.2 = true
deriving Decidable

/-! ## The claims -/

/-- The message was appended at the position; on the way its integers may have been converted. -/
def Placed (g : List Delivery) (p : Int) (m : Message) : Prop :=
  ∃ d ∈ g, d.1 = p ∧ d.2.wire = m.wire

theorem Placed.mono (h : Placed g p m) (hsub : g ⊆ g') : Placed g' p m := by
  obtain ⟨d, hd, hp, hm⟩ := h
  exact ⟨d, hsub hd, hp, hm⟩

theorem Placed.wire (h : Placed g p m) : Placed g p m.wire := by
  obtain ⟨d, hd, hp, hm⟩ := h
  exact ⟨d, hd, hp, by rw [hm, Message.wire_wire]⟩

def LogPlaced (g : List Delivery) (r : Raft n σ) : Prop :=
  ∀ p e, r.entryAt p = some e → Placed g p e.message

def RequestPlaced (g : List Delivery) (args : LogRequestArgs n) : Prop :=
  ∀ (k : Nat) (e : LogEntry), args.suffix[k]? = some e → Placed g (args.prefixLen + k) e.message

def BatchPlaced (g : List Delivery) (ds : List Delivery) : Prop := ∀ d ∈ ds, Placed g d.1 d.2

/-- The ghost is the list of what was appended. -/
def places (n : Nat) (σ : Type) :
    Claims (Fin n) (Raft n σ) (Thread n) (Packet n) (List Delivery) where
  node g _ r := LogPlaced g r
  thread g _ _ t :=
    match t with
    | .appendEntries args => RequestPlaced g args
    | .deliver batch => BatchPlaced g batch
    | _ => True
  packet g p :=
    match p with
    | .logRequest _ args => RequestPlaced g args
    | _ => True

theorem LogPlaced.mono (h : LogPlaced g r) (hsub : g ⊆ g') : LogPlaced g' r :=
  fun p e he ↦ (h p e he).mono hsub

theorem RequestPlaced.mono {args : LogRequestArgs n} (h : RequestPlaced g args) (hsub : g ⊆ g') :
    RequestPlaced g' args :=
  fun k e he ↦ (h k e he).mono hsub

theorem BatchPlaced.mono {ds : List Delivery} (h : BatchPlaced g ds) (hsub : g ⊆ g') :
    BatchPlaced g' ds :=
  fun d hd ↦ (h d hd).mono hsub

theorem places_thread_mono {t : Thread n} (h : (places n σ).thread g i r t) (hsub : g ⊆ g') :
    (places n σ).thread g' i r' t := by
  cases t with
  | appendEntries args => exact RequestPlaced.mono h hsub
  | deliver batch => exact BatchPlaced.mono h hsub
  | _ => trivial

theorem places_packet_mono {p : Packet n} (h : (places n σ).packet g p) (hsub : g ⊆ g') :
    (places n σ).packet g' p := by
  cases p with
  | logRequest target args => exact RequestPlaced.mono h hsub
  | _ => trivial

theorem places_keeps (hsub : g ⊆ g') : (places n σ).Keeps i g g' where
  node _ _ _ h := h.mono hsub
  thread _ _ _ _ h := places_thread_mono h hsub
  packet _ h := places_packet_mono h hsub

/-! ## One region -/

namespace LogPlaced

theorem sameLog (h : LogPlaced g r) (hsame : r.SameLog r') : LogPlaced g r' := by
  intro p e he
  rw [hsame.entryAt] at he
  exact h p e he

theorem delivers (h : LogPlaced g r) {ds : List Delivery} (hdel : r.Delivers p ds) :
    BatchPlaced g ds := by
  intro d hd
  obtain ⟨e, he, hmessage⟩ := hdel.messages d hd
  exact hmessage ▸ h d.1 e he

theorem broadcast (h : LogPlaced g r) (hmem : (r.absLength, m) ∈ g) :
    LogPlaced g (r.broadcast i m) := by
  intro p e he
  have hlow := (Raft.entryAt_bounds he).1
  change at? r.snapshotter.lastIndex (r.log ++ [_]) p = some e at he
  change r.snapshotter.lastIndex ≤ p at hlow
  rw [at?_of_le hlow, List.getElem?_append] at he
  split at he
  · exact h p e (by rw [Raft.entryAt, at?_of_le hlow, he])
  · rename_i hge
    obtain ⟨hlt, rfl⟩ := List.getElem?_eq_some_iff.mp he
    rw [List.length_singleton] at hlt
    rw [List.getElem_singleton]
    refine ⟨_, hmem, ?_, rfl⟩
    unfold Raft.absLength
    omega

/-- The entries of a request follow the position that it names. -/
theorem prepareLogRequestArgs (h : LogPlaced g r) {f : Fin n}
    (hkept : r.keepsPlaces (.prepareLogRequestArgs f) = true) :
    RequestPlaced g (r.prepareLogRequestArgs i f) := by
  unfold Raft.prepareLogRequestArgs
  split
  · intro k e he
    cases he
  rename_i hnext
  unfold Raft.needsSnapshot at hnext
  simp only
  split
  · intro k e he
    cases he
  · intro k e he
    simp only [Raft.wireSuffix, List.getElem?_map, List.getElem?_drop] at he
    obtain ⟨entry, hentry, rfl⟩ := Option.map_eq_some_iff.mp he
    have hlt := (List.getElem?_eq_some_iff.mp hentry).1
    obtain ⟨first, hfirst⟩ := Raft.exists_entryAt (r := r) (p := r.nextIndex f - 1) (by omega)
      (by unfold Raft.absLength; omega)
    change Placed g (int32 (r.nextIndex f - 1) + k) _
    rw [int32_eq_self (of_decide_eq_true hkept (by rw [hfirst]; rfl))]
    refine Placed.wire (h _ entry ?_)
    rw [Raft.entryAt, at?_of_le (by omega), ← hentry]
    congr 1
    omega

theorem appendSuffix (h : LogPlaced g r) {args : LogRequestArgs n} (hargs : RequestPlaced g args)
    (hkept : r.missingEntries args.prefixLen args.suffix ≠ [] →
      args.prefixLen ≤ r.absLength ∧ ¬ r.conflicts args.prefixLen args.suffix) :
    LogPlaced g (r.appendSuffix args.prefixLen args.suffix) := by
  intro p e he
  have hlow : r.snapshotter.lastIndex ≤ p := (Raft.entryAt_bounds he).1
  by_cases hmissing : r.missingEntries args.prefixLen args.suffix ≠ []
  · obtain ⟨hle, hfree⟩ := hkept hmissing
    rw [Raft.entryAt_appendSuffix hle hfree hlow] at he
    split at he
    · exact h p e he
    · rename_i hge
      have hplaced := hargs _ e he
      rwa [show args.prefixLen + ((p - args.prefixLen).toNat : Int) = p by omega] at hplaced
  · -- nothing is added, and what is cut off leaves the rest where it was
    refine h p e ?_
    have hlog : (r.appendSuffix args.prefixLen args.suffix).log =
        r.truncatedLog args.prefixLen args.suffix := by
      simp only [Raft.appendSuffix, not_not.mp hmissing, List.append_nil]
    rw [Raft.entryAt, hlog] at he
    change at? r.snapshotter.lastIndex _ p = some e at he
    rw [at?_of_le hlow] at he
    rw [Raft.entryAt, at?_of_le hlow]
    refine prefix_getElem? ?_ he
    unfold Raft.truncatedLog
    split
    · exact List.take_prefix _ _
    · exact List.prefix_refl _

theorem decideRunSnapshot (h : LogPlaced g r) {disk : Disk}
    (hsnap : r.decideRunSnapshot app disk = some r') : LogPlaced g r' := by
  intro p e he
  rw [Raft.entryAt_decideRunSnapshot hsnap (Raft.entryAt_bounds he).1] at he
  exact h p e he

theorem appendEntries (h : LogPlaced g r) {args : LogRequestArgs n} {disk : Disk}
    {ds : List Delivery} (hargs : RequestPlaced g args)
    (hkept : r.keepsPlaces (.appendEntries args disk) = true)
    (happ : r.appendEntries app disk args = some (r', ds)) : LogPlaced g r' ∧ BatchPlaced g ds := by
  obtain ⟨r₁, hcommit, hsnap⟩ := Raft.appendEntries_cases happ
  have hstored := h.appendSuffix hargs (of_decide_eq_true hkept)
  obtain ⟨-, rfl, rfl⟩ | ⟨-, hdel, -, application, rfl⟩ := Raft.commitTo_spec hcommit
  · exact ⟨hstored.decideRunSnapshot hsnap, by simp [BatchPlaced]⟩
  · have hcommitted : LogPlaced g { r.appendSuffix args.prefixLen args.suffix with
        application := application
        commitedLength := min args.commitLength
          (r.appendSuffix args.prefixLen args.suffix).absLength } := hstored
    exact ⟨hcommitted.decideRunSnapshot hsnap, hstored.delivers hdel⟩

theorem installSnapshot (h : LogPlaced g r) {disk : Disk} {req : InstallSnapshotRequest n}
    {reply : Option InstallSnapshotResponse} (hout : Raft.InstallOutcome app disk r req r' reply)
    (hkept : r.keepsPlaces (.installSnapshot req disk) = true) : LogPlaced g r' := by
  have hempty (hdone : req.done = true) (hterm : r.currentTerm ≤ req.leaderTerm) :
      r.logAfterSnapshot req = [] := if_neg (of_decide_eq_true hkept hdone hterm)
  cases hout with
  | stale => exact h
  | stored => exact h.sameLog ⟨by simp, by simp, by simp⟩
  | failed hterm hdone | restored hterm hdone =>
    intro p e he
    have := index?_lt he
    simp [hempty hdone hterm] at this
    omega

end LogPlaced

/-- What an action does to the claims, once `g'` has what it appends. -/
theorem places_act (hact : r.act app i a = some e) (hkept : r.keepsPlaces a = true)
    (hbroadcast : ∀ m, a = .broadcast m → (r.absLength, m) ∈ g) (h : LogPlaced g r)
    (hthread : ∀ t ∈ a.thread, (places n σ).thread g i r t)
    (hpacket : ∀ p ∈ a.packet i, (places n σ).packet g p) :
    LogPlaced g e.state ∧ (∀ t ∈ e.threads, (places n σ).thread g i e.state t) ∧
      ∀ j d, .delivered j d ∈ e.events → Placed g d.1 d.2 := by
  cases Raft.act_log hact with
  | broadcasts m =>
    exact ⟨h.broadcast (hbroadcast m rfl), by simp [Raft.quiet], by simp [Raft.quiet]⟩
  | appends happ =>
    obtain ⟨hlog, hbatch⟩ := h.appendEntries (hthread _ rfl) hkept happ
    refine ⟨hlog, by simp [places], fun j d hd ↦ ?_⟩
    obtain ⟨d', hd', heq⟩ := List.mem_map.mp hd
    cases heq
    exact hbatch _ hd'
  | accepts args haccepts =>
    refine ⟨h.sameLog Raft.followLeader_sameLog, fun t ht ↦ ?_, by simp [Raft.spawn]⟩
    rw [List.mem_singleton.mp ht]
    exact hpacket _ rfl
  | installs hinst hout =>
    exact ⟨h.installSnapshot hout hkept, by simp, by simp⟩
  | @commits f req resp r' ds hcommits hcommit =>
    obtain ⟨rfl, hdel, -, -⟩ := Raft.commitLogEntries_spec hcommit
    have hacked : LogPlaced g (r.recordAck f resp.ack) := h.sameLog ⟨rfl, rfl, rfl⟩
    refine ⟨hacked, fun t ht ↦ ?_, by simp⟩
    obtain rfl := List.mem_singleton.mp (List.mem_ite_nil_left.mp ht).2
    exact hacked.delivers hdel
  | delivers d rest =>
    have hbatch : BatchPlaced g (d :: rest) := hthread _ rfl
    refine ⟨h.sameLog ⟨rfl, rfl, rfl⟩, fun t ht ↦ ?_, fun j d' hd' ↦ ?_⟩
    · obtain rfl := List.mem_singleton.mp (List.mem_ite_nil_left.mp ht).2
      exact fun d' hd' ↦ hbatch d' (List.mem_cons_of_mem _ hd')
    · cases List.mem_singleton.mp hd'
      exact hbatch _ List.mem_cons_self
  | other hsame hthreads hevents =>
    refine ⟨h.sameLog hsame, fun t ht ↦ ?_, fun j d hd ↦ ?_⟩
    · have := hthreads t ht
      cases t with
      | appendEntries | deliver => cases this
      | _ => trivial
    · cases hevents _ hd

theorem places_act_packets (hact : r.act app i a = some e) (hkept : r.keepsPlaces a = true)
    (h : LogPlaced g r) : ∀ p ∈ e.packets, (places n σ).packet g p := by
  intro p hp
  cases Raft.act_sends hact hp with
  | requestLog f => exact h.prepareLogRequestArgs hkept
  | _ => trivial

/-! ## Runs -/

/-- Whatever is anywhere in the cluster stands where it was appended. -/
structure InPlace (g : List Delivery) (c : Cluster n σ) : Prop where
  sound : Sound (places n σ) g c
  delivered : ∀ j d, .delivered j d ∈ c.history → Placed g d.1 d.2

theorem InPlace.start (snapshotThreshold : Int) (application : Fin n → σ) :
    InPlace [] (Cluster.start n snapshotThreshold application) where
  sound := by
    refine ⟨fun i p e he ↦ ?_, fun i t ht ↦ ?_, fun p hp ↦ ?_⟩
    · have := index?_lt he
      simp [Cluster.start, newRaft] at this
      omega
    · cases ht
    · cases hp
  delivered _ _ hd := by cases hd

theorem InPlace.step {c c' : Cluster n σ} (h : InPlace g c) (hsub : g ⊆ g')
    (hbroadcast : ∀ m, a = .broadcast m → ((c.raft i).absLength, m) ∈ g')
    (hkept : PlacesKept c (i, a)) (hstep : Cluster.step app c (i, a) = some c') :
    InPlace g' c' := by
  obtain ⟨hthread, hpacket, e, hact, rfl⟩ := Cluster.step_cases hstep
  have hnode : LogPlaced g' (c.raft i) := LogPlaced.mono (h.sound.nodes i) hsub
  obtain ⟨hstate, hthreads, hevents⟩ := places_act hact hkept hbroadcast hnode
    (fun t ht ↦ places_thread_mono (h.sound.threads i t (hthread t ht)) hsub)
    (fun p hp ↦ places_packet_mono (h.sound.packets p (hpacket p hp)) hsub)
  constructor
  · refine h.sound.apply (places_keeps hsub) ⟨hstate, fun t _ ht ↦ ?_, hthreads, ?_⟩
    · exact places_thread_mono ht hsub
    · exact places_act_packets hact hkept hnode
  · intro j d hd
    rw [Config.apply_history] at hd
    rcases List.mem_append.mp hd with hold | hnew
    · exact (h.delivered j d hold).mono hsub
    · exact hevents j d hnew

/-- With clients, the list of what was appended is part of the state. -/
theorem InPlace.serviceStep {s s' : Service n σ} {b : ServiceAction n}
    (h : InPlace s.appended s.cluster) (hkept : s.Keeps PlacesKept b)
    (hstep : s.step app b = some s') : InPlace s'.appended s'.cluster := by
  rcases Service.cluster_step hstep with ⟨hcluster, happended⟩ | ⟨⟨i, a⟩, hx, htaken, happended⟩
  · rwa [hcluster, happended]
  · rw [happended]
    refine h.step (List.subset_append_left _ _) (fun m hm ↦ ?_) (hkept _ hx) htaken
    subst hm
    exact List.mem_append_right _ List.mem_cons_self

end DistributedCache
