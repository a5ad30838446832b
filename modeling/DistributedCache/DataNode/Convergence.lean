import DistributedCache.DataNode.Writes

/-!
# Convergence of a primary and its replicas

A write goes to the replicas one after another and then into the primary's cache.  Two writes of one
key that do this at the same time may reach different copies in different orders.  Here the
configurations are fixed and all writes of the key go to one node; when it carries them out one at a
time, the copies agree after the last one.
-/

namespace DistributedCache

open FiniteMap Transition

namespace Convergence

variable (primary key : String)

/-- All writes of the key go to the primary, and it sends one of them to the replicas only when it
has finished with the one before. -/
def OneAtATime (s : DataPlane) : WriteAction → Prop
  | .request address _ req => req.key = key → address = primary
  | .route id => ∀ h ∈ s.handlers.lookup id, h.write.key = key → s.Idle key
  | _ => True

instance (s : DataPlane) : ∀ a, Decidable (OneAtATime primary key s a)
  | .request _ _ _ => inferInstanceAs (Decidable (_ → _))
  | .route _ => inferInstanceAs (Decidable (∀ h ∈ _, _ → _))
  | .checkShard _ | .replicate _ _ | .finish _ | .deliver _ => isTrue trivial

/-- Some write of the key was not answered with 200. -/
def Failed (s : DataPlane) : Prop :=
  ∃ e ∈ s.history, e.write.key = key ∧ ∃ reply ∈ e.reply, reply ≠ DataNode.written

/-- Some write of the key was answered. -/
def Answered (s : DataPlane) : Prop := ∃ e ∈ s.history, e.write.key = key ∧ e.reply ≠ none

variable (config : ClusterConfig)

/-- The replicas of the key in the primary's configuration. -/
def replicas : List String := config.getReplicaURLs (config.shardOf key)

/-- A handler of a write of the key runs on the primary and goes through its replicas; the copies it
has passed hold its value. -/
def Sound (s : DataPlane) (h : Handler) : Prop :=
  h.write.key = key → h.write.address = primary ∧
    match h.stage with
    | .accepted => True
    | .admitted shardID => shardID = config.shardOf key
    | .replicating done rest =>
      done ++ rest = replicas key config ∧ ∀ url ∈ done, s.cell url key = h.write.effect

structure Serial (s : DataPlane) : Prop where
  numbered : s.Numbered
  fixed : (s.nodes primary).config = config
  sound : Every (fun _ h ↦ Sound primary key config s h) s.handlers
  alone : s.Alone key
  stray : ∀ x ∈ s.strays, x.2.key ≠ key
  settled : s.Idle key → Answered key s →
    ∀ url ∈ replicas key config, s.cell url key = s.cell primary key

variable {primary key config} {s s' : DataPlane} {id : Nat} {w : Write}

theorem Failed.mono (h : Failed key s) (hhistory : s.history ⊆ s'.history) : Failed key s' := by
  obtain ⟨e, hmem, hkey, hreply⟩ := h
  exact ⟨e, hhistory hmem, hkey, hreply⟩

theorem serial_start (nodes : String → DataNode) :
    Serial primary key (nodes primary).config (.start nodes) := by
  have hnone : ∀ id, (DataPlane.start nodes).handlers.lookup id = none :=
    fun id ↦ Finmap.lookup_empty id
  refine ⟨DataPlane.numbered_start nodes, rfl, ?_, DataPlane.alone_start nodes, ?_, ?_⟩
  · intro id h hid
    rw [hnone] at hid
    cases hid
  · intro x hx
    cases hx
  · rintro - ⟨e, hmem, -⟩
    cases hmem

theorem Sound.congr {h : Handler} (hsound : Sound primary key config s h)
    (hcells : h.stage.isReplicating = true → ∀ url, s'.cell url key = s.cell url key) :
    Sound primary key config s' h := by
  intro hkey
  obtain ⟨haddress, hstage⟩ := hsound hkey
  refine ⟨haddress, ?_⟩
  cases hh : h.stage with
  | accepted => trivial
  | admitted shardID =>
    rw [hh] at hstage
    exact hstage
  | replicating done rest =>
    rw [hh] at hstage hcells
    refine ⟨hstage.1, fun url hurl ↦ ?_⟩
    rw [hcells rfl]
    exact hstage.2 url hurl

/-- A step that has nothing to do with the key. -/
theorem Serial.other (h : Serial primary key config s) (hnumbered : s'.Numbered)
    (hfixed : (s'.nodes primary).config = config) (halone : s'.Alone key)
    (hsame : DataPlane.SameFor key s s') : Serial primary key config s' := by
  refine ⟨hnumbered, hfixed, ?_, halone, ?_, ?_⟩
  · intro id handler hid hkey
    have hsound := h.sound id handler ((hsame.handler id handler hkey).mp hid)
    exact hsound.congr (fun _ ↦ hsame.cell) hkey
  · intro x hx hkey
    exact h.stray x (hsame.stray x hx hkey) hkey
  · rintro hidle ⟨e, hmem, hkey, hreply⟩ url hurl
    rw [hsame.cell, hsame.cell]
    refine h.settled ?_ ⟨e, (hsame.event e hkey).mp hmem, hkey, hreply⟩ url hurl
    intro id handler hid hkey
    exact hidle id handler ((hsame.handler id handler hkey).mpr hid) hkey

/-- A handler of the key begins, or goes on before it sends anything to the replicas. -/
theorem Serial.waits (h : Serial primary key config s) {nextID : Nat} {handler : Handler}
    (hnumbered : DataPlane.Numbered { s.resume id handler with nextID := nextID })
    (halone : DataPlane.Alone key { s.resume id handler with nextID := nextID })
    (hsound : Sound primary key config s handler)
    (hold : ∀ h, s.handlers.lookup id = some h → h.stage.isReplicating = false) :
    Serial primary key config { s.resume id handler with nextID := nextID } := by
  refine ⟨hnumbered, h.fixed, Every.insert h.sound hsound, halone, h.stray, ?_⟩
  intro hidle hsome
  refine h.settled ?_ hsome
  intro id' h' hid' hkey'
  by_cases hne : id' = id
  · subst hne
    exact hold h' hid'
  · exact hidle id' h' ((Finmap.lookup_insert_of_ne _ hne).trans hid') hkey'

theorem Serial.routed (h : Serial primary key config s) {shardID : Nat}
    (hid : s.handlers.lookup id = some ⟨w, .admitted shardID⟩) (hkey : w.key = key)
    (hnumbered : DataPlane.Numbered { s.resume id ⟨w, .replicating []
      ((s.nodes w.address).config.getReplicaURLs shardID)⟩ with
        history := s.history ++ [.begun id w] })
    (halone : DataPlane.Alone key { s.resume id ⟨w, .replicating []
      ((s.nodes w.address).config.getReplicaURLs shardID)⟩ with
        history := s.history ++ [.begun id w] }) :
    Serial primary key config { s.resume id ⟨w, .replicating []
      ((s.nodes w.address).config.getReplicaURLs shardID)⟩ with
        history := s.history ++ [.begun id w] } := by
  obtain ⟨haddress, hshard⟩ := h.sound id _ hid hkey
  refine ⟨hnumbered, h.fixed, ?_, halone, h.stray, ?_⟩
  · apply Every.insert h.sound
    intro _
    refine ⟨haddress, ?_, by simp⟩
    rw [haddress, h.fixed, hshard]
    rfl
  · intro hidle
    have hrep := hidle id _ (Finmap.lookup_insert _) hkey
    cases hrep

/-- The write reaches one more replica. -/
theorem Serial.replicated (h : Serial primary key config s) {done rest : List String}
    {url : String} (hid : s.handlers.lookup id = some ⟨w, .replicating done (url :: rest)⟩)
    (hkey : w.key = key)
    (hnumbered : DataPlane.Numbered ((s.setNode url ((s.nodes url).store w.request)).resume id ⟨w,
      .replicating (done ++ [url]) rest⟩))
    (halone : DataPlane.Alone key ((s.setNode url ((s.nodes url).store w.request)).resume id ⟨w,
      .replicating (done ++ [url]) rest⟩)) :
    Serial primary key config ((s.setNode url ((s.nodes url).store w.request)).resume id
      ⟨w, .replicating (done ++ [url]) rest⟩) := by
  have hfixed := (DataPlane.sameNode_store s url w.request primary).config.trans h.fixed
  obtain ⟨haddress, hall, hdone⟩ := h.sound id _ hid hkey
  refine ⟨hnumbered, hfixed, ?_, halone, h.stray, ?_⟩
  · intro id' h' hid'
    rcases lookup_insert_cases hid' with ⟨rfl, rfl⟩ | ⟨hne, hold⟩
    · refine fun _ ↦ ⟨haddress, ?_, ?_⟩
      · rw [List.append_assoc]
        exact hall
      · intro u hu
        refine (s.cell_store url w.request u key).trans ?_
        split
        · rfl
        · rename_i hnot
          rcases List.mem_append.mp hu with hu | hu
          · exact hdone u hu
          · exact absurd ⟨List.mem_singleton.mp hu, hkey.symm⟩ hnot
    · intro hkey'
      refine (h.sound id' h' hold).congr ?_ hkey'
      intro hrep'
      rw [h.alone.waits hid hkey rfl hold hkey' hne] at hrep'
      cases hrep'
  · intro hidle
    have hrep := hidle id _ (Finmap.lookup_insert _) hkey
    cases hrep

/-- The write has reached all replicas and is stored on the primary. -/
theorem Serial.finished (h : Serial primary key config s) {done : List String}
    (hid : s.handlers.lookup id = some ⟨w, .replicating done []⟩) (hkey : w.key = key)
    (hnumbered : DataPlane.Numbered ((s.setNode w.address ((s.nodes w.address).store
      w.request)).answer id w DataNode.written))
    (halone : DataPlane.Alone key ((s.setNode w.address ((s.nodes w.address).store
      w.request)).answer id w DataNode.written)) :
    Serial primary key config ((s.setNode w.address ((s.nodes w.address).store
      w.request)).answer id w DataNode.written) := by
  have hfixed := (DataPlane.sameNode_store s w.address w.request primary).config.trans h.fixed
  obtain ⟨haddress, hall, hdone⟩ := h.sound id _ hid hkey
  refine ⟨hnumbered, hfixed, ?_, halone, h.stray, ?_⟩
  · intro id' h' hid' hkey'
    obtain ⟨hne, hold⟩ := lookup_of_lookup_erase hid'
    refine (h.sound id' h' hold).congr ?_ hkey'
    intro hrep'
    rw [h.alone.waits hid hkey rfl hold hkey' hne] at hrep'
    cases hrep'
  · rintro - - url hurl
    have hin : url ∈ done := by
      rw [List.append_nil] at hall
      rwa [hall]
    have hprimary := s.cell_store w.address w.request primary key
    rw [if_pos ⟨haddress.symm, hkey.symm⟩] at hprimary
    refine Eq.trans ?_ hprimary.symm
    refine (s.cell_store w.address w.request url key).trans ?_
    split
    · rfl
    · exact hdone url hin

/-- One step: a write of the key fails, or the copies stay in order. -/
theorem Serial.step (h : Serial primary key config s) {a : WriteAction}
    (hok : OneAtATime primary key s a) (hstep : s.step a = some s') :
    Failed key s' ∨ Serial primary key config s' := by
  have hnumbered := h.numbered.step hstep
  have halone : s'.Alone key := by
    apply h.alone.step hstep
    rintro id handler rfl hid hkey
    exact hok handler hid hkey
  by_cases hkeyOf : s.keyOf a = some key
  · -- a write of the key that is answered here with anything but 200
    have hfail : ∀ {id : Nat} {w : Write} {reply : Reply}, w.key = key →
        reply ≠ DataNode.written → WriteEvent.ended id w reply ∈ s'.history → Failed key s' :=
      fun hkey hreply hmem ↦ ⟨_, hmem, hkey, _, rfl, hreply⟩
    cases DataPlane.step_cases hstep with
    | @accepted address now req haccept =>
      right
      have hkey : req.key = key := Option.some.inj hkeyOf
      refine h.waits hnumbered halone (fun _ ↦ ⟨hok hkey, trivial⟩) ?_
      intro h' hh'
      rw [h.numbered.lookup_nextID] at hh'
      cases hh'
    | @refused address now req reply herror =>
      left
      have hkey : req.key = key := Option.some.inj hkeyOf
      exact hfail (w := ⟨address, req⟩) hkey (DataNode.accept_error_ne_written herror)
        (List.mem_append_right _ (List.mem_singleton_self _))
    | admitted hid hadmit =>
      right
      have hkey := (DataPlane.handler_key_iff hid).mp hkeyOf
      obtain ⟨haddress, -⟩ := h.sound _ _ hid hkey
      refine h.waits hnumbered halone (fun _ ↦ ⟨haddress, ?_⟩) ?_
      · have hshard := DataNode.checkShard_ok hadmit
        rw [hkey, show _ = primary from haddress, h.fixed] at hshard
        exact hshard
      · intro h' hh'
        rw [hid] at hh'
        cases hh'
        rfl
    | rejected hid herror =>
      left
      exact hfail ((DataPlane.handler_key_iff hid).mp hkeyOf)
        (DataNode.checkShard_error_ne_written herror)
        (List.mem_append_right _ (List.mem_singleton_self _))
    | routed hid =>
      right
      exact h.routed hid ((DataPlane.handler_key_iff hid).mp hkeyOf) hnumbered halone
    | replicated hid =>
      exact Or.inr
        (h.replicated hid ((DataPlane.handler_key_iff hid).mp hkeyOf) hnumbered halone)
    | gaveUp hid | failed hid =>
      left
      exact hfail ((DataPlane.handler_key_iff hid).mp hkeyOf) (by decide)
        (List.mem_append_right _ (List.mem_singleton_self _))
    | finished hid =>
      exact Or.inr (h.finished hid ((DataPlane.handler_key_iff hid).mp hkeyOf) hnumbered halone)
    | @delivered k url req node hk =>
      -- a request that was given up belongs to another key
      exact absurd ((DataPlane.stray_key_iff hk).mp hkeyOf) (h.stray _ (List.mem_of_getElem? hk))
  · right
    exact h.other hnumbered ((DataPlane.sameNode_step hstep primary).config.trans h.fixed)
      halone (DataPlane.sameFor_step h.numbered hstep hkeyOf)

end Convergence

open Convergence

/-- When the primary carries out the writes of a key one at a time and all of them are answered with
200, the primary and its replicas agree on the key after the last one. -/
theorem replicas_converge {nodes : String → DataNode} {primary key : String} {s : DataPlane}
    (hrun : Reaches DataPlane.step (OneAtATime primary key) (.start nodes) s)
    (hdone : Every (fun _ h ↦ h.write.key ≠ key) s.handlers)
    (hanswers : ∀ e ∈ s.history, e.write.key = key → ∀ reply ∈ e.reply,
      reply = DataNode.written)
    (hsome : ∃ e ∈ s.history, e.write.key = key ∧ e.reply ≠ none) :
    ∀ url ∈ (nodes primary).config.getReplicaURLs ((nodes primary).config.shardOf key),
      s.cell url key = s.cell primary key := by
  have hinv : Failed key s ∨ Serial primary key (nodes primary).config s := by
    refine Reaches.invariant
      (fun t ↦ Failed key t ∨ Serial primary key (nodes primary).config t)
      (Or.inr (serial_start nodes)) ?_ hrun
    intro t a t' _ hinv hok hstep
    rcases hinv with hfailed | hserial
    · exact Or.inl (hfailed.mono (DataPlane.history_subset hstep))
    · exact hserial.step hok hstep
  rcases hinv with ⟨e, hmem, hkey, reply, hreply, hne⟩ | hserial
  · exact absurd (hanswers e hmem hkey reply hreply) hne
  · exact hserial.settled (fun id h hid hkey ↦ absurd hkey (hdone id h hid)) hsome

/-- A primary `a` and a replica `b` with one shard. -/
def samplePair : String → DataNode := fun address ↦
  { nodeID := address
    config :=
      { epoch := 1
        totalShards := 1
        nodes := ((∅ : Map String NodeMetadata).insert "a" ⟨"a", "a", .active, 0⟩).insert "b"
          ⟨"b", "b", .active, 0⟩
        shards := (∅ : Map Nat ShardMetadata).insert 0 ⟨0, "a", ["b"], .active⟩ }
    cache := ∅
    validUntil := 10
    duration := 10
    stage := .idle }

/-- Two writes of one key are accepted and admitted. -/
def sampleWrites (req req' : DataRequest) : List WriteAction :=
  [.request "a" 0 req, .request "a" 0 req', .checkShard 0, .checkShard 1]

/-- A put and a delete are accepted together and carried out one after the other. -/
theorem replicas_converge_pair :
    ∃ s, Reaches DataPlane.step (OneAtATime "a" "k") (.start samplePair) s ∧
      s.history.length = 4 ∧ s.cell "b" "k" = s.cell "a" "k" := by
  obtain ⟨s, hrun, hlength, hdone, hanswers, hsome⟩ :
      ∃ s, Reaches DataPlane.step (OneAtATime "a" "k") (.start samplePair) s ∧
        s.history.length = 4 ∧ Every (fun _ h ↦ h.write.key ≠ "k") s.handlers ∧
        (∀ e ∈ s.history, e.write.key = "k" → ∀ reply ∈ e.reply, reply = DataNode.written) ∧
        ∃ e ∈ s.history, e.write.key = "k" ∧ e.reply ≠ none :=
    exists_reaches_of_exec
      (sampleWrites (.put ⟨"k", "v", 1⟩) (.delete ⟨"k", 1⟩) ++
        [.route 1, .replicate 1 .answered, .finish 1, .route 0, .replicate 0 .answered, .finish 0])
      (by decide +kernel)
  have hreplica : "b" ∈
      (samplePair "a").config.getReplicaURLs ((samplePair "a").config.shardOf "k") := by
    decide +kernel
  exact ⟨s, hrun, hlength, replicas_converge hrun hdone hanswers hsome "b" hreplica⟩

/-- Two puts reach the replica in one order and the primary in the other. -/
theorem replicas_diverge :
    ∃ s, Reachable DataPlane.step (.start samplePair) s ∧
      Every (fun _ h ↦ h.write.key ≠ "k") s.handlers ∧
      (∀ e ∈ s.history, e.write.key = "k" → ∀ reply ∈ e.reply, reply = DataNode.written) ∧
      (samplePair "a").config.getReplicaURLs ((samplePair "a").config.shardOf "k") = ["b"] ∧
      s.cell "a" "k" = some "v" ∧ s.cell "b" "k" = some "u" :=
  exists_reaches_of_exec
    (sampleWrites (.put ⟨"k", "v", 1⟩) (.put ⟨"k", "u", 1⟩) ++
      [.route 0, .route 1, .replicate 0 .answered, .replicate 1 .answered, .finish 1, .finish 0])
    (by decide +kernel)

end DistributedCache
