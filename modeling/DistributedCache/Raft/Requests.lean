import DistributedCache.Raft.LogSteps

/-!
# Requests and the logs they are made from

A node's log in memory is a window onto a whole log, of which the compacted part is only implied.
This module relates the three index bases of the code (absolute, relative to the snapshot, relative
to the suffix of a request) to positions of that whole log.
-/

namespace DistributedCache

open Window

variable {n : Nat} {σ : Type} {app : Application σ} {r r' : Raft n σ} {full own : List LogEntry}

/-- `t` is the term of the entry before position `p`, `0` at the start of the log. -/
def PrefixTerm (full : List LogEntry) (p t : Int) : Prop :=
  p = 0 ∧ t = 0 ∨ 0 < p ∧ ∃ e, full[(p - 1).toNat]? = some e ∧ e.term = t

variable {p t : Int} {args : LogRequestArgs n}

theorem PrefixTerm.mono {full' : List LogEntry} (h : PrefixTerm full p t) (hpre : full <+: full') :
    PrefixTerm full' p t := by
  rcases h with h | ⟨hp, e, he, ht⟩
  · exact Or.inl h
  · exact Or.inr ⟨hp, e, prefix_getElem? hpre he, ht⟩

theorem PrefixTerm.take (h : PrefixTerm full p t) {k : ℕ} (hk : p ≤ k) :
    PrefixTerm (full.take k) p t := by
  rcases h with h | ⟨hp, e, he, ht⟩
  · exact Or.inl h
  · exact Or.inr ⟨hp, e, by rw [List.getElem?_take_of_lt (by omega), he], ht⟩

/-- The node's memory shows `full`: the log is a window onto it and the snapshot ends in it. -/
structure Shows (full : List LogEntry) (r : Raft n σ) : Prop where
  window : IsWindow full r.snapshotter.lastIndex r.log
  snapshot : 0 < r.snapshotter.lastIndex →
    PrefixTerm full r.snapshotter.lastIndex r.snapshotter.lastTerm

theorem Shows.absLength (h : Shows full r) : r.absLength = full.length := h.window.length

theorem Shows.congr (h : Shows full r) (hlog : r'.log = r.log)
    (hsnap : r'.snapshotter = r.snapshotter) : Shows full r' := by
  obtain ⟨hwin, hterm⟩ := h
  exact ⟨by rwa [hlog, hsnap], by rwa [hsnap]⟩

theorem Shows.sameLog (h : Shows full r) (hsame : r.SameLog r') : Shows full r' :=
  h.congr hsame.log hsame.snapshotter

/-- Everything from the log that a request carries can go over the wire unchanged. -/
structure WireSafe (full : List LogEntry) : Prop where
  length : (full.length : Int) < 2 ^ 31
  entries : ∀ e ∈ full, e.Fits

theorem WireSafe.append (h : WireSafe full) {entry : LogEntry}
    (hfits : entry.Fits) (hlen : (full.length : Int) + 1 < 2 ^ 31) :
    WireSafe (full ++ [entry]) where
  length := by
    rw [List.length_append, List.length_singleton]
    omega
  entries x hx := by
    rcases List.mem_append.mp hx with hx | hx
    · exact h.entries x hx
    · rw [List.mem_singleton.mp hx]
      exact hfits

theorem WireSafe.shorten (h : WireSafe full) (hpre : own <+: full) : WireSafe own where
  length := lt_of_le_of_lt (by exact_mod_cast hpre.length_le) h.length
  entries x hx := h.entries x (hpre.mem hx)

theorem fits_of_bounds {x : Int} (h0 : 0 ≤ x) (hlt : x < 2 ^ 31) : FitsInt32 x :=
  ⟨by omega, hlt⟩

/-- The request carries the entries of `full` after some prefix of it. -/
structure CarriesLog (full : List LogEntry) (args : LogRequestArgs n) : Prop where
  nonneg : 0 ≤ args.prefixLen
  bound : args.prefixLen ≤ full.length
  entries : full.take args.prefixLen.toNat ++ args.suffix <+: full
  term : PrefixTerm full args.prefixLen args.prefixTerm

theorem CarriesLog.length_le (h : CarriesLog full args) :
    args.prefixLen + args.suffix.length ≤ full.length := by
  have hlen := h.entries.length_le
  have hnonneg := h.nonneg
  have hbound := h.bound
  rw [List.length_append, List.length_take] at hlen
  omega

theorem CarriesLog.mono {full' : List LogEntry} (h : CarriesLog full args) (hpre : full <+: full') :
    CarriesLog full' args where
  nonneg := h.nonneg
  bound := h.bound.trans (by exact_mod_cast hpre.length_le)
  entries := by
    have hnonneg := h.nonneg
    have hbound := h.bound
    rw [prefix_take_eq hpre (by omega)]
    exact h.entries.trans hpre
  term := h.term.mono hpre

theorem carriesLog_bare (full : List LogEntry) (r : Raft n σ) (id : Fin n) :
    CarriesLog full (r.bareLogRequest id) where
  nonneg := le_rfl
  bound := by simp [Raft.bareLogRequest]
  entries := by simp [Raft.bareLogRequest]
  term := Or.inl ⟨rfl, rfl⟩

theorem Shows.entryAt (h : Shows full r) {entry : LogEntry} (he : r.entryAt p = some entry) :
    full[p.toNat]? = some entry := by
  have := (index?_lt he).1
  unfold Raft.entryAt at he
  rwa [h.window.at?_eq (by omega)] at he

/-- The entry before position `p`, read relative to the snapshot. -/
theorem Shows.entry_before (h : Shows full r) {e : LogEntry}
    (he : index? r.log (p - r.snapshotter.lastIndex - 1) = some e) :
    p ≤ full.length ∧ PrefixTerm full p e.term := by
  have hentry : at? r.snapshotter.lastIndex r.log (p - 1) = some e := by
    unfold at?
    rwa [show p - 1 - r.snapshotter.lastIndex = p - r.snapshotter.lastIndex - 1 by omega]
  have hlt := index?_lt he
  have hlen := h.window.length
  have h0 := h.window.1
  rw [h.window.at?_eq (by omega)] at hentry
  exact ⟨by omega, Or.inr ⟨by omega, e, hentry, rfl⟩⟩

/-- The term that `prepareLogRequestArgs` finds is that of the entry before. -/
theorem prevTerm_spec (h : Shows full r) (hp : r.snapshotter.lastIndex ≤ p)
    (ht : r.prevTerm p = some t) : p ≤ full.length ∧ PrefixTerm full p t := by
  obtain ⟨h0, hle, -⟩ := id h.window
  unfold Raft.prevTerm at ht
  split at ht
  · rename_i hzero
    exact ⟨by omega, Or.inl ⟨hzero, (Option.some.inj ht).symm⟩⟩
  split at ht
  · rename_i hbase
    subst hbase
    cases ht
    exact ⟨hle, h.snapshot (by omega)⟩
  · obtain ⟨e, he, rfl⟩ := Option.map_eq_some_iff.mp ht
    exact h.entry_before he

/-- The requests a node makes carry its log. -/
theorem prepareLogRequestArgs_carries (h : Shows full r) (hsafe : WireSafe full) (i f : Fin n) :
    CarriesLog full (r.prepareLogRequestArgs i f) := by
  obtain ⟨h0, -, hlog⟩ := id h.window
  unfold Raft.prepareLogRequestArgs
  split
  · exact carriesLog_bare full r i
  rename_i hnext
  unfold Raft.needsSnapshot at hnext
  simp only
  split
  · exact carriesLog_bare full r i
  rename_i t ht
  obtain ⟨hle, hterm⟩ := prevTerm_spec h (by omega) ht
  have hlen := hsafe.length
  have hprev : int32 (r.nextIndex f - 1) = r.nextIndex f - 1 :=
    int32_eq_self (fits_of_bounds (by omega) (by omega))
  have hfits : int32 t = t := by
    rcases hterm with ⟨-, rfl⟩ | ⟨-, e, he, rfl⟩
    · exact int32_zero
    · exact int32_eq_self (hsafe.entries e (List.mem_of_getElem? he)).1
  have hsuffix : r.wireSuffix (r.nextIndex f) = full.drop (r.nextIndex f - 1).toNat := by
    unfold Raft.wireSuffix
    rw [hlog, List.drop_drop]
    rw [show r.snapshotter.lastIndex.toNat + (r.nextIndex f - r.snapshotter.lastIndex - 1).toNat =
      (r.nextIndex f - 1).toNat by omega]
    exact map_wire_eq_self fun e he ↦ hsafe.entries e (List.mem_of_mem_drop he)
  refine ⟨?_, ?_, ?_, ?_⟩
  · simp only [hprev]
    omega
  · simpa only [hprev] using hle
  · simp only [hprev, hsuffix, List.take_append_drop, List.prefix_refl]
  · simpa only [hprev, hfits] using hterm

/-- No request tells of more committed entries than the leader has committed, or than it brings. -/
theorem prepareLogRequestArgs_commitLength (h : Shows full r) (hsafe : WireSafe full)
    (h0 : 0 ≤ r.commitedLength) (hle : r.commitedLength ≤ full.length) (i f : Fin n) :
    (r.prepareLogRequestArgs i f).commitLength ≤ r.commitedLength ∧
      (r.prepareLogRequestArgs i f).commitLength ≤
        (r.prepareLogRequestArgs i f).prefixLen + (r.prepareLogRequestArgs i f).suffix.length := by
  have hbase := h.window.1
  have hlen := h.window.length
  have hsmall := hsafe.length
  unfold Raft.prepareLogRequestArgs
  split
  · exact ⟨h0, le_rfl⟩
  rename_i hnext
  unfold Raft.needsSnapshot at hnext
  simp only
  split
  · exact ⟨h0, le_rfl⟩
  rename_i t ht
  obtain ⟨hprev, -⟩ := prevTerm_spec h (by omega) ht
  simp only [Raft.wireSuffix, List.length_map, List.length_drop,
    int32_eq_self (fits_of_bounds h0 (by omega) : FitsInt32 r.commitedLength),
    int32_eq_self (fits_of_bounds (by omega) (by omega) : FitsInt32 (r.nextIndex f - 1))]
  omega

/-- A request for a position that the log reaches has the prefix up to there. -/
theorem prepareLogRequestArgs_prefixLen (h : Shows full r) (hsafe : WireSafe full) {i f : Fin n}
    (hsent : r.snapshotter.lastIndex < r.sentLengths f)
    (hle : r.sentLengths f ≤ full.length + 1) :
    ¬ r.needsSnapshot f ∧ (r.prepareLogRequestArgs i f).prefixLen = r.sentLengths f - 1 := by
  have h0 := h.window.1
  have hlen := h.window.length
  have hsmall := hsafe.length
  have hnext : r.nextIndex f = r.sentLengths f := if_neg (by omega)
  have hsnap : ¬ r.needsSnapshot f := by
    unfold Raft.needsSnapshot
    omega
  have hprev : (r.prevTerm (r.nextIndex f - 1)).isSome := by
    unfold Raft.prevTerm
    split
    · rfl
    split
    · rfl
    obtain ⟨e, he⟩ := exists_index? (l := r.log)
      (i := r.nextIndex f - 1 - r.snapshotter.lastIndex - 1) (by omega) (by omega)
    rw [he]
    rfl
  obtain ⟨t, ht⟩ := Option.isSome_iff_exists.mp hprev
  refine ⟨hsnap, ?_⟩
  simp only [Raft.prepareLogRequestArgs, if_neg hsnap, ht]
  rw [hnext]
  exact int32_eq_self (fits_of_bounds (by omega) (by omega))

/-- A request that passes the check has a prefix that ends in the node's log, in the right term. -/
theorem logOk_spec (h : Shows own r) (h0 : 0 ≤ p) (hok : r.logOk p t = true) :
    p ≤ own.length ∧ PrefixTerm own p t := by
  have hlen := h.absLength
  unfold Raft.logOk at hok
  split at hok
  · rename_i hzero
    exact ⟨by omega, Or.inl ⟨hzero, of_decide_eq_true hok⟩⟩
  split at hok
  · cases hok
  rename_i hpos hle
  refine ⟨by omega, ?_⟩
  split at hok
  · rename_i hbase
    subst hbase
    rw [← of_decide_eq_true hok]
    exact h.snapshot (by omega)
  · cases he : index? r.log (p - r.snapshotter.lastIndex - 1) with
    | none =>
      rw [he] at hok
      cases hok
    | some e =>
      rw [he] at hok
      rw [← of_decide_eq_true hok]
      exact (h.entry_before he).2

/-! ## Appending -/

theorem CarriesLog.suffix_eq (h : CarriesLog full args) :
    args.suffix = (full.drop args.prefixLen.toNat).take args.suffix.length := by
  have hnonneg := h.nonneg
  have hbound := h.bound
  have htake : (full.take args.prefixLen.toNat).length = args.prefixLen.toNat := by
    rw [List.length_take]
    omega
  have heq := List.prefix_iff_eq_take.mp h.entries
  rw [List.length_append, htake, List.take_add, List.append_cancel_left_eq] at heq
  exact heq

theorem CarriesLog.getElem? (h : CarriesLog full args) {k : ℕ} {e : LogEntry}
    (he : args.suffix[k]? = some e) : full[args.prefixLen.toNat + k]? = some e := by
  have hnonneg := h.nonneg
  have hbound := h.bound
  refine prefix_getElem? h.entries ?_
  rw [List.getElem?_append_right (by rw [List.length_take]; omega), List.length_take,
    Nat.min_eq_left (by omega), Nat.add_sub_cancel_left, he]

/-- A conflict is between the entries that the two logs have at one position. -/
theorem conflicts_spec (h : Shows own r) (hcarry : CarriesLog full args)
    (hconf : r.conflicts args.prefixLen args.suffix) :
    r.snapshotter.lastIndex ≤ args.prefixLen ∧ 0 < args.suffix.length ∧
      ∃ e x, own[args.prefixLen.toNat]? = some e ∧ full[args.prefixLen.toNat]? = some x ∧
        e.term ≠ x.term := by
  obtain ⟨-, x, hx, e, he, hne⟩ := hconf
  have hbase : r.snapshotter.lastIndex ≤ args.prefixLen := by
    have := (index?_lt he).1
    omega
  unfold Raft.entryAt at he
  rw [Option.mem_def, h.window.at?_eq hbase] at he
  rw [Option.mem_def, List.head?_eq_getElem?] at hx
  exact ⟨hbase, (List.getElem?_eq_some_iff.mp hx).1, e, x, he, hcarry.getElem? hx, hne⟩

/-- A log that agrees with the request's does not conflict with it. -/
theorem not_conflicts (h : Shows own r) (hpre : own <+: full) (hcarry : CarriesLog full args) :
    ¬ r.conflicts args.prefixLen args.suffix := by
  intro hconf
  obtain ⟨-, -, e, x, he, hx, hne⟩ := conflicts_spec h hcarry hconf
  rw [prefix_getElem? hpre he] at hx
  cases hx
  exact hne rfl

/-- The whole log after `appendEntries` on a log that agrees with the request's. -/
def extendedLog (own full : List LogEntry) (args : LogRequestArgs n) : List LogEntry :=
  if (own.length : Int) < args.prefixLen + args.suffix.length then
    full.take (args.prefixLen.toNat + args.suffix.length)
  else own

theorem prefix_extendedLog (hpre : own <+: full) :
    own <+: extendedLog own full args ∧ extendedLog own full args <+: full := by
  unfold extendedLog
  split
  · refine ⟨?_, List.take_prefix _ _⟩
    rw [List.prefix_take_iff]
    exact ⟨hpre, by omega⟩
  · exact ⟨List.prefix_refl _, hpre⟩

theorem appendSuffix_shows (h : Shows own r) (hpre : own <+: full) (hcarry : CarriesLog full args)
    (hle : args.prefixLen ≤ own.length) :
    Shows (extendedLog own full args) (r.appendSuffix args.prefixLen args.suffix) := by
  have h0 := hcarry.nonneg
  have hlen := hcarry.length_le
  have habs := h.absLength
  have htrunc : r.truncatedLog args.prefixLen args.suffix = r.log :=
    if_neg (not_conflicts h hpre hcarry)
  refine ⟨?_, fun hpos ↦ (h.snapshot hpos).mono (prefix_extendedLog hpre).1⟩
  simp only [Raft.appendSuffix, htrunc, Raft.missingEntries, habs, extendedLog]
  split
  · have hown : own = full.take own.length := List.prefix_iff_eq_take.mp hpre
    have hsplit : full.take (args.prefixLen.toNat + args.suffix.length) =
        own ++ args.suffix.drop (own.length - args.prefixLen).toNat := by
      rw [congrArg (List.drop (own.length - args.prefixLen).toNat) hcarry.suffix_eq,
        List.drop_take, List.drop_drop,
        show args.prefixLen.toNat + (own.length - args.prefixLen).toNat = own.length by omega,
        show args.suffix.length - (own.length - args.prefixLen).toNat =
          args.prefixLen.toNat + args.suffix.length - own.length by omega]
      conv_rhs => lhs; rw [hown]
      rw [← List.take_add]
      congr 1
      omega
    rw [hsplit]
    exact h.window.append _
  · rw [List.append_nil]
    exact h.window

/-- Compaction changes what is in memory, not the log it shows. -/
theorem decideRunSnapshot_shows (h : Shows full r) {disk : Disk}
    (hsnap : r.decideRunSnapshot app disk = some r') : Shows full r' := by
  obtain ⟨file, rfl⟩ | ⟨file, e, -, hpos, hle, he, rfl⟩ := Raft.decideRunSnapshot_cases hsnap
  · exact h.sameLog ⟨rfl, rfl, rfl⟩
  · have hcommit : r.snapshotter.lastIndex + r.comittedCount.toNat = r.commitedLength := by
      unfold Raft.comittedCount at hpos ⊢
      omega
    refine ⟨?_, fun _ ↦ ?_⟩
    · simp only [Raft.compact]
      rw [← hcommit]
      exact h.window.drop (by omega)
    · refine (h.entry_before (p := r.commitedLength) ?_).2
      exact he

theorem decideRunSnapshot_commit {disk : Disk} (hsnap : r.decideRunSnapshot app disk = some r')
    (hbase : r.snapshotter.lastIndex ≤ r.commitedLength) :
    r'.commitedLength = r.commitedLength ∧ r'.snapshotter.lastIndex ≤ r.commitedLength := by
  obtain ⟨file, rfl⟩ | ⟨file, e, -, -, -, -, rfl⟩ := Raft.decideRunSnapshot_cases hsnap
  · exact ⟨rfl, hbase⟩
  · exact ⟨rfl, le_rfl⟩

end DistributedCache
