import DistributedCache.Raft.Snapshot

/-!
# Log replication: `Broadcast`, `replicate`, `LogRequest`, `appendEntries` and commitment
-/

namespace DistributedCache

open Window

/-- A message together with the absolute position it is delivered for. -/
abbrev Delivery := Int × Message

/-- The `k` positions from `p` on. -/
def positions (p : Int) : Nat → List Int
  | 0 => []
  | k + 1 => p :: positions (p + 1) k

theorem positions_add (p : Int) (j k : Nat) :
    positions p (j + k) = positions p j ++ positions (p + j) k := by
  induction j generalizing p with
  | zero => simp [positions]
  | succ j ih =>
    rw [Nat.succ_add, positions, positions, ih, List.cons_append]
    congr 3
    omega

theorem mem_positions {p q : Int} {k : Nat} : q ∈ positions p k ↔ p ≤ q ∧ q < p + k := by
  induction k generalizing p with
  | zero =>
    simp only [positions, List.not_mem_nil, false_iff]
    omega
  | succ k ih =>
    rw [positions, List.mem_cons, ih]
    omega

theorem getElem?_positions {p : Int} {k j : Nat} (hj : j < k) :
    (positions p k)[j]? = some (p + j) := by
  induction k generalizing p j with
  | zero => omega
  | succ k ih =>
    cases j with
    | zero => simp [positions]
    | succ j =>
      rw [positions, List.getElem?_cons_succ, ih (by omega)]
      congr 1
      omega

theorem length_positions (p : Int) (k : Nat) : (positions p k).length = k := by
  induction k generalizing p with
  | zero => rfl
  | succ k ih => rw [positions, List.length_cons, ih]

section

variable {α : Type} {ds : List (Int × α)} {p : Int} {k j : Nat}

/-- Where the first components are consecutive positions, each element is at its own. -/
theorem fst_of_positions {d : Int × α} (h : ds.map Prod.fst = positions p k)
    (hj : ds[j]? = some d) : d.1 = p + j := by
  have hlen := congrArg List.length h
  rw [List.length_map, length_positions] at hlen
  have hget := getElem?_positions (p := p) (hlen ▸ (List.getElem?_eq_some_iff.mp hj).1)
  rw [← h, List.getElem?_map, hj, Option.map_some] at hget
  exact Option.some.inj hget

theorem exists_of_positions (h : ds.map Prod.fst = positions p k) (hj : j < k) :
    ∃ d, ds[j]? = some d ∧ d.1 = p + j := by
  have hget := getElem?_positions (p := p) hj
  rw [← h, List.getElem?_map] at hget
  exact Option.map_eq_some_iff.mp hget

end

namespace Raft

variable {n : Nat} {σ : Type}

/-! ## The leader's side -/

/-- The second lock region of `Broadcast`. -/
def broadcast (r : Raft n σ) (id : Fin n) (message : Message) : Raft n σ :=
  { r with
    -- the role is not tested again, and the term is the one found now
    log := r.log ++ [⟨r.currentTerm, message⟩]
    ackedLengths := Function.update r.ackedLengths id (r.absLength + 1) }

def nextIndex (r : Raft n σ) (followerId : Fin n) : Int :=
  -- `0` is what a slot holds before the node ever led
  if r.sentLengths followerId = 0 then r.absLength + 1 else r.sentLengths followerId

def needsSnapshot (r : Raft n σ) (followerId : Fin n) : Prop :=
  r.nextIndex followerId ≤ r.snapshotter.lastIndex
deriving Decidable

/-- The term of the entry before position `nextIndex`; `none` when the log does not reach there. -/
def prevTerm (r : Raft n σ) (prevIndex : Int) : Option Int :=
  if prevIndex = 0 then some 0
  else if prevIndex = r.snapshotter.lastIndex then some r.snapshotter.lastTerm
  else (index? r.log (prevIndex - r.snapshotter.lastIndex - 1)).map LogEntry.term

/-- The request without a prefix, a commit length or entries. -/
def bareLogRequest (r : Raft n σ) (id : Fin n) : LogRequestArgs n :=
  ⟨id, int32 r.currentTerm, 0, 0, 0, []⟩

/-- The entries from `nextIndex` on, as they go over the wire. -/
def wireSuffix (r : Raft n σ) (nextIndex : Int) : List LogEntry :=
  (r.log.drop (nextIndex - r.snapshotter.lastIndex - 1).toNat).map LogEntry.wire

/-- `prepareLogRequestArgs`; it also starts a snapshot transfer when `needsSnapshot`. -/
def prepareLogRequestArgs (r : Raft n σ) (id followerId : Fin n) : LogRequestArgs n :=
  if r.needsSnapshot followerId then r.bareLogRequest id
  else
    let prevIndex := r.nextIndex followerId - 1
    match r.prevTerm prevIndex with
    -- `nextIndex` points past the log
    | none => r.bareLogRequest id
    | some term =>
      { leaderId := id
        term := int32 r.currentTerm
        prefixLen := int32 prevIndex
        prefixTerm := int32 term
        commitLength := int32 r.commitedLength
        suffix := r.wireSuffix (r.nextIndex followerId) }

variable {r r' : Raft n σ} {id followerId : Fin n} {args : LogRequestArgs n} {app : Application σ}
  {leaderCommit : Int} {p : Int} {ds : List Delivery}

theorem prepareLogRequestArgs_term :
    (r.prepareLogRequestArgs id followerId).term = int32 r.currentTerm := by
  unfold prepareLogRequestArgs
  split
  · rfl
  · simp only
    split <;> rfl

theorem prepareLogRequestArgs_leaderId : (r.prepareLogRequestArgs id followerId).leaderId = id := by
  unfold prepareLogRequestArgs
  split
  · rfl
  · simp only
    split <;> rfl

/-- The leader and a majority hold the entry at this position, as far as the leader knows. -/
def quorumAcked (r : Raft n σ) (id : Fin n) (p : Int) : Prop :=
  -- the terms of the entries play no part in this
  majority n ≤ 1 + (Finset.univ.filter fun j ↦ j ≠ id ∧ p < r.ackedLengths j).card
deriving Decidable

theorem quorumAcked_iff : r.quorumAcked id p ↔
    majority n ≤ (insert id (Finset.univ.filter fun j ↦ j ≠ id ∧ p < r.ackedLengths j)).card := by
  rw [Finset.card_insert_of_notMem (by simp), Nat.add_comm]
  rfl

/-- `ds` are the messages of the log at consecutive positions from `p` on. -/
structure Delivers (r : Raft n σ) (p : Int) (ds : List Delivery) : Prop where
  positions : ds.map Prod.fst = positions p ds.length
  messages : ∀ d ∈ ds, ∃ e, r.entryAt d.1 = some e ∧ e.message = d.2

theorem Delivers.nil (r : Raft n σ) (p : Int) : r.Delivers p [] := ⟨rfl, by simp⟩

theorem Delivers.cons {e : LogEntry} (he : r.entryAt p = some e) (h : r.Delivers (p + 1) ds) :
    r.Delivers p ((p, e.message) :: ds) where
  positions := by rw [List.map_cons, h.positions, List.length_cons, DistributedCache.positions]
  messages d hd := by
    rcases List.mem_cons.mp hd with rfl | hd
    · exact ⟨e, he, rfl⟩
    · exact h.messages d hd

/-- The loop of `commitLogEntries` from commit length `p` on; the first argument bounds the number
of rounds. -/
def commitLoop (r : Raft n σ) (id : Fin n) : Nat → Int → Option (List Delivery)
  | 0, _ => some []
  | k + 1, p =>
    -- `r.log[...]` panics when the position is not in memory
    if r.quorumAcked id p then
      (r.entryAt p).bind fun e ↦ (r.commitLoop id k (p + 1)).map ((p, e.message) :: ·)
    else some []

theorem commitLoop_spec {k : Nat} (h : r.commitLoop id k p = some ds) :
    r.Delivers p ds ∧ ds.length ≤ k ∧ ∀ q, p ≤ q → q < p + ds.length → r.quorumAcked id q := by
  -- on the rounds of the loop; every round adds one delivery and one acknowledged position
  induction k generalizing p ds with
  | zero =>
    obtain rfl : [] = ds := by simpa [commitLoop] using h
    exact ⟨.nil r p, le_rfl, fun q h1 h2 ↦ by simp only [List.length_nil] at h2; omega⟩
  | succ k ih =>
    simp only [commitLoop] at h
    split at h
    · rename_i hacked
      obtain ⟨e, he, hrest⟩ := Option.bind_eq_some_iff.mp h
      obtain ⟨ds', hds', rfl⟩ := Option.map_eq_some_iff.mp hrest
      obtain ⟨hdel, hlen, hq⟩ := ih hds'
      refine ⟨.cons he hdel, by rw [List.length_cons]; omega, fun q h1 h2 ↦ ?_⟩
      rw [List.length_cons] at h2
      by_cases hqp : q = p
      · exact hqp ▸ hacked
      · exact hq q (by omega) (by omega)
    · obtain rfl : [] = ds := by simpa using h
      exact ⟨.nil r p, by simp, fun q h1 h2 ↦ by simp only [List.length_nil] at h2; omega⟩

/-- `commitLogEntries` up to the unlock: the new state and the messages left to deliver. -/
def commitLogEntries (r : Raft n σ) (id : Fin n) : Option (Raft n σ × List Delivery) :=
  (r.commitLoop id (r.absLength - r.commitedLength).toNat r.commitedLength).map fun ds ↦
    ({ r with commitedLength := r.commitedLength + ds.length }, ds)

theorem commitLogEntries_spec (h : r.commitLogEntries id = some (r', ds)) :
    r' = { r with commitedLength := r.commitedLength + ds.length } ∧
      r.Delivers r.commitedLength ds ∧ (ds ≠ [] → r'.commitedLength ≤ r.absLength) ∧
      ∀ q, r.commitedLength ≤ q → q < r'.commitedLength → r.quorumAcked id q := by
  obtain ⟨ds', hloop, heq⟩ := Option.map_eq_some_iff.mp h
  obtain ⟨rfl, rfl⟩ := Prod.mk.inj heq
  obtain ⟨hdel, hlen, hq⟩ := commitLoop_spec hloop
  refine ⟨rfl, hdel, fun hne ↦ ?_, hq⟩
  have := List.length_pos_iff.mpr hne
  change r.commitedLength + _ ≤ _
  omega

/-- The follower holds its log up to `ack`. -/
def recordAck (r : Raft n σ) (followerId : Fin n) (ack : Int) : Raft n σ :=
  { r with
    sentLengths := Function.update r.sentLengths followerId (ack + 1)
    ackedLengths := Function.update r.ackedLengths followerId ack }

/-- The follower does not hold the prefix: try an earlier one. -/
def retreat (r : Raft n σ) (followerId : Fin n) : Raft n σ :=
  if r.snapshotter.lastIndex + 1 < r.sentLengths followerId then
    { r with
      sentLengths := Function.update r.sentLengths followerId (r.sentLengths followerId - 1) }
  else r

/-- The lock region of `replicate` that handles the reply. -/
def replicateResponse (r : Raft n σ) (id followerId : Fin n) (resp : LogResponse n) :
    Option (Raft n σ × List Delivery) :=
  -- the comparison is made in `int32`, the next one in `int`
  if int32 r.currentTerm < resp.currentTerm then
    some (r.becomeFollowerUnlocked resp.currentTerm, [])
  else if r.currentRole = .leader ∧ resp.currentTerm = r.currentTerm then
    -- that the request was of this term is not checked, and `ack` may be below an earlier one
    if resp.success then (r.recordAck followerId resp.ack).commitLogEntries id
    else some (r.retreat followerId, [])
  else some (r, [])

theorem retreat_eq (r : Raft n σ) (followerId : Fin n) :
    ∃ sent, r.retreat followerId = { r with sentLengths := sent } := by
  unfold retreat
  split
  · exact ⟨_, rfl⟩
  · exact ⟨r.sentLengths, rfl⟩

/-- `replicate` steps down, counts what the follower acknowledged, tries an earlier prefix, or has
no use for the reply. -/
inductive ResponseCase (id followerId : Fin n) (r : Raft n σ) (resp : LogResponse n) :
    Raft n σ → List Delivery → Prop
  | newer (hnewer : int32 r.currentTerm < resp.currentTerm) :
    ResponseCase id followerId r resp (r.becomeFollowerUnlocked resp.currentTerm) []
  | acked {r' : Raft n σ} {ds : List Delivery} (hold : ¬ int32 r.currentTerm < resp.currentTerm)
      (hrole : r.currentRole = .leader) (hterm : resp.currentTerm = r.currentTerm)
      (hok : resp.success = true)
      (hcommit : (r.recordAck followerId resp.ack).commitLogEntries id = some (r', ds)) :
    ResponseCase id followerId r resp r' ds
  | refused (hold : ¬ int32 r.currentTerm < resp.currentTerm) (hok : resp.success = false) :
    ResponseCase id followerId r resp (r.retreat followerId) []
  | ignored (hold : ¬ int32 r.currentTerm < resp.currentTerm)
      (hother : ¬ (r.currentRole = .leader ∧ resp.currentTerm = r.currentTerm)) :
    ResponseCase id followerId r resp r []

theorem replicateResponse_cases {resp : LogResponse n}
    (h : r.replicateResponse id followerId resp = some (r', ds)) :
    ResponseCase id followerId r resp r' ds := by
  unfold replicateResponse at h
  split at h
  · rename_i hnewer
    obtain ⟨rfl, rfl⟩ := Prod.mk.inj (Option.some.inj h)
    exact .newer hnewer
  rename_i hold
  split at h
  · rename_i hlead
    split at h
    · rename_i hok
      exact .acked hold hlead.1 hlead.2 hok h
    · rename_i hok
      obtain ⟨rfl, rfl⟩ := Prod.mk.inj (Option.some.inj h)
      exact .refused hold (Bool.eq_false_iff.mpr hok)
  · rename_i hother
    obtain ⟨rfl, rfl⟩ := Prod.mk.inj (Option.some.inj h)
    exact .ignored hold hother

/-! ## The follower's side -/

/-- `LogRequest` before the check of the prefix: the term and the leader of the request. -/
def followLeader (r : Raft n σ) (id : Fin n) (args : LogRequestArgs n) : Raft n σ :=
  let r' :=
    -- only a newer term frees the vote
    if r.currentTerm < args.term then { r with currentTerm := args.term, votedFor := none } else r
  if r'.currentTerm = args.term then
    { r' with
      currentRole := .follower
      -- a request that names this node as its leader leaves it without one
      currentLeaderId := if id ≠ args.leaderId then some args.leaderId else none }
  else r'

theorem followLeader_cases (r : Raft n σ) (id : Fin n) (args : LogRequestArgs n) :
    (r.currentTerm < args.term ∧ r.followLeader id args = { r with
      currentTerm := args.term
      votedFor := none
      currentRole := .follower
      currentLeaderId := if id ≠ args.leaderId then some args.leaderId else none }) ∨
    (r.currentTerm = args.term ∧ r.followLeader id args = { r with
      currentRole := .follower
      currentLeaderId := if id ≠ args.leaderId then some args.leaderId else none }) ∨
    (args.term < r.currentTerm ∧ r.followLeader id args = r) := by
  unfold followLeader
  by_cases hlt : r.currentTerm < args.term
  · simp only [if_pos hlt, if_true]
    exact Or.inl ⟨hlt, trivial⟩
  · simp only [if_neg hlt]
    by_cases heq : r.currentTerm = args.term
    · rw [if_pos heq]
      exact Or.inr (Or.inl ⟨heq, rfl⟩)
    · rw [if_neg heq]
      exact Or.inr (Or.inr ⟨by omega, rfl⟩)

/-- The check of the prefix in `LogRequest`. -/
def logOk (r : Raft n σ) (prevIndex prevTerm : Int) : Bool :=
  if prevIndex = 0 then prevTerm = 0
  else if r.absLength < prevIndex then false
  else if prevIndex = r.snapshotter.lastIndex then r.snapshotter.lastTerm = prevTerm
  else (index? r.log (prevIndex - r.snapshotter.lastIndex - 1)).any fun e ↦ e.term = prevTerm

/-- `LogRequest` goes on to `appendEntries`. -/
def acceptsLogRequest (r : Raft n σ) (id : Fin n) (args : LogRequestArgs n) : Prop :=
  (r.followLeader id args).currentTerm = args.term ∧ r.logOk args.prefixLen args.prefixTerm
deriving Decidable

/-- A request that is accepted leaves a follower in the request's term. -/
theorem acceptsLogRequest_follower (h : r.acceptsLogRequest id args) :
    r.currentTerm ≤ args.term ∧
      (r.followLeader id args).currentTerm = args.term ∧
      (r.followLeader id args).currentRole = .follower := by
  obtain ⟨hterm, -⟩ := h
  rcases r.followLeader_cases id args with ⟨hlt, heq⟩ | ⟨hsame, heq⟩ | ⟨hlt, heq⟩
  · exact ⟨hlt.le, hterm, by rw [heq]⟩
  · exact ⟨hsame.le, hterm, by rw [heq]⟩
  · rw [heq] at hterm
    omega

/-- The rejection, with the term the node has after the first lock region. -/
def rejectLogRequest (r : Raft n σ) (id : Fin n) : LogResponse n :=
  ⟨id, int32 r.currentTerm, 0, false⟩

/-- The reply after `appendEntries`.  The term is read without the lock. -/
def acceptLogRequest (r : Raft n σ) (id : Fin n) (args : LogRequestArgs n) : LogResponse n :=
  -- the acknowledged length is computed from the request, not read from the log
  ⟨id, int32 r.currentTerm, int32 (args.prefixLen + args.suffix.length), true⟩

/-- The entry at `prefixLen` and the first entry of the suffix are of different terms. -/
def conflicts (r : Raft n σ) (prefixLen : Int) (suffix : List LogEntry) : Prop :=
  prefixLen < r.absLength ∧ ∃ s ∈ suffix.head?, ∃ e ∈ r.entryAt prefixLen, e.term ≠ s.term
deriving Decidable

/-- The log after the check for a conflict in `appendEntries`. -/
def truncatedLog (r : Raft n σ) (prefixLen : Int) (suffix : List LogEntry) : List LogEntry :=
  -- only the first entry of the suffix is compared with the log
  if r.conflicts prefixLen suffix then r.log.take (prefixLen - r.snapshotter.lastIndex).toNat
  else r.log

/-- The entries `appendEntries` adds.  Where they start in the suffix is computed from the length
the log had before the truncation. -/
def missingEntries (r : Raft n σ) (prefixLen : Int) (suffix : List LogEntry) : List LogEntry :=
  if r.absLength < prefixLen + suffix.length then suffix.drop (r.absLength - prefixLen).toNat
  else []

def appendSuffix (r : Raft n σ) (prefixLen : Int) (suffix : List LogEntry) : Raft n σ :=
  { r with log := r.truncatedLog prefixLen suffix ++ r.missingEntries prefixLen suffix }

theorem appendSuffix_sameControl (r : Raft n σ) (prefixLen : Int) (suffix : List LogEntry) :
    SameControl r (r.appendSuffix prefixLen suffix) := ⟨rfl, rfl, rfl, rfl, rfl, rfl, rfl⟩

/-- The messages at `k` positions from `p` on; `none` when one of them is not in memory. -/
def messagesFrom (r : Raft n σ) : Nat → Int → Option (List Delivery)
  | 0, _ => some []
  | k + 1, p => (r.entryAt p).bind fun e ↦ (r.messagesFrom k (p + 1)).map ((p, e.message) :: ·)

theorem messagesFrom_spec {k : Nat} (h : r.messagesFrom k p = some ds) :
    r.Delivers p ds ∧ ds.length = k := by
  induction k generalizing p ds with
  | zero =>
    obtain rfl : [] = ds := by simpa [messagesFrom] using h
    exact ⟨.nil r p, rfl⟩
  | succ k ih =>
    obtain ⟨e, he, hrest⟩ := Option.bind_eq_some_iff.mp h
    obtain ⟨ds', hds', rfl⟩ := Option.map_eq_some_iff.mp hrest
    obtain ⟨hdel, hlen⟩ := ih hds'
    exact ⟨.cons he hdel, by rw [List.length_cons, hlen]⟩

def deliverAll (app : Application σ) (r : Raft n σ) (ds : List Delivery) : Raft n σ :=
  ds.foldl (fun r d ↦ r.deliver app d.2) r

theorem deliverAll_eq (app : Application σ) (r : Raft n σ) (ds : List Delivery) :
    r.deliverAll app ds = { r with application := (r.deliverAll app ds).application } := by
  induction ds generalizing r with
  | nil => rfl
  -- each delivery changes the application only
  | cons d ds ih => exact ih (r.deliver app d.2)

/-- The commit loop of `appendEntries`, which delivers under the lock. -/
def commitTo (app : Application σ) (r : Raft n σ) (leaderCommit : Int) :
    Option (Raft n σ × List Delivery) :=
  if r.commitedLength < leaderCommit then
    -- a leader that is ahead cannot make the node commit what it does not have
    let leaderCommit := min leaderCommit r.absLength
    (r.messagesFrom (leaderCommit - r.commitedLength).toNat r.commitedLength).map fun ds ↦
      ({ r.deliverAll app ds with commitedLength := leaderCommit }, ds)
  else some (r, [])

theorem commitTo_spec (h : r.commitTo app leaderCommit = some (r', ds)) :
    (leaderCommit ≤ r.commitedLength ∧ r' = r ∧ ds = []) ∨
      (r.commitedLength < leaderCommit ∧ r.Delivers r.commitedLength ds ∧
        ds.length = (min leaderCommit r.absLength - r.commitedLength).toNat ∧
        ∃ application, r' = { r with
          application := application
          commitedLength := min leaderCommit r.absLength }) := by
  unfold commitTo at h
  split at h
  · rename_i hlt
    obtain ⟨ds', hds', heq⟩ := Option.map_eq_some_iff.mp h
    obtain ⟨rfl, rfl⟩ := Prod.mk.inj heq
    obtain ⟨hdel, hlen⟩ := messagesFrom_spec hds'
    refine Or.inr ⟨hlt, hdel, hlen, (r.deliverAll app ds').application, ?_⟩
    rw [deliverAll_eq]
  · rename_i hle
    obtain ⟨rfl, rfl⟩ := Prod.mk.inj (Option.some.inj h)
    exact Or.inl ⟨by omega, rfl, rfl⟩

/-- On a log that holds everything committed, the commit length advances by what is delivered, and
no further than the leader's. -/
theorem commitTo_advance (h : r.commitTo app leaderCommit = some (r', ds))
    (hbound : r.commitedLength ≤ r.absLength) :
    r.Delivers r.commitedLength ds ∧ r.commitedLength + ds.length ≤ r.absLength ∧
      (ds ≠ [] → r.commitedLength + ds.length ≤ leaderCommit) ∧
      ∃ application, r' = { r with
        application := application
        commitedLength := r.commitedLength + ds.length } := by
  obtain ⟨-, rfl, rfl⟩ | ⟨hlt, hdel, hlen, application, rfl⟩ := commitTo_spec h
  · exact ⟨.nil _ _, by simpa using hbound, fun h ↦ absurd rfl h, r'.application, by simp⟩
  · have hstop : r.commitedLength + (ds.length : Int) = min leaderCommit r.absLength := by omega
    exact ⟨hdel, by omega, fun _ ↦ by omega, application, by rw [hstop]⟩

theorem commitTo_sameControl (h : r.commitTo app leaderCommit = some (r', ds)) :
    SameControl r r' := by
  obtain ⟨-, rfl, -⟩ | ⟨-, -, -, application, rfl⟩ := commitTo_spec h
  · exact .refl r'
  · exact ⟨rfl, rfl, rfl, rfl, rfl, rfl, rfl⟩

/-- `appendEntries`: the new state and what it delivered. -/
def appendEntries (app : Application σ) (disk : Disk) (r : Raft n σ) (args : LogRequestArgs n) :
    Option (Raft n σ × List Delivery) :=
  ((r.appendSuffix args.prefixLen args.suffix).commitTo app args.commitLength).bind
    fun (r', ds) ↦ (r'.decideRunSnapshot app disk).map fun r'' ↦ (r'', ds)

theorem appendEntries_cases {disk : Disk} (h : r.appendEntries app disk args = some (r', ds)) :
    ∃ r₁, (r.appendSuffix args.prefixLen args.suffix).commitTo app args.commitLength =
        some (r₁, ds) ∧ r₁.decideRunSnapshot app disk = some r' := by
  obtain ⟨⟨r₁, ds₁⟩, hcommit, hrest⟩ := Option.bind_eq_some_iff.mp h
  obtain ⟨r₂, hsnap, heq⟩ := Option.map_eq_some_iff.mp hrest
  obtain ⟨rfl, rfl⟩ := Prod.mk.inj heq
  exact ⟨r₁, hcommit, hsnap⟩

theorem appendEntries_sameControl {disk : Disk}
    (h : r.appendEntries app disk args = some (r', ds)) : SameControl r r' := by
  obtain ⟨r₁, hcommit, hsnap⟩ := appendEntries_cases h
  exact ((r.appendSuffix_sameControl args.prefixLen args.suffix).trans
    (commitTo_sameControl hcommit)).trans (decideRunSnapshot_sameControl hsnap)

end Raft

end DistributedCache
