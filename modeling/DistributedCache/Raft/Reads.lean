import DistributedCache.Raft.Attempts
import DistributedCache.Raft.KeyValue
import DistributedCache.Raft.StateMachineSafety
import Mathlib.Tactic.MkIffOfInductiveProp

/-!
# Reads

`ForwardGet` reads the application of a node that takes itself for the leader.  It asks no other
node, so a leader that was voted out without hearing of it answers with what it had, and so does a
new leader that has yet to apply what its predecessors committed.

The leader of the highest term has every committed entry in its log.  Once it has committed and
delivered all of its log, its application has every write that was answered anywhere.
-/

namespace DistributedCache

open Network Window Transition ReplicatedLog

variable {n : Nat} {σ : Type} {app : Application σ} {i j : Fin n}

/-- The conditions of state machine safety and of delivery in order, without snapshots. -/
def ReadKept (app : Application σ) (c : Cluster n σ) (x : Fin n × Action n) : Prop :=
  CommitKept app c x ∧ OrderKept c x ∧ (c.raft x.1).takesSnapshot x.2 = false
deriving Decidable

/-- The node leads the highest term, and its application has all of its log. -/
@[mk_iff]
structure Cluster.UpToDate (c : Cluster n σ) (i : Fin n) : Prop where
  role : (c.raft i).currentRole = .leader
  highest : ∀ j, (c.raft j).currentTerm ≤ (c.raft i).currentTerm
  committed : (c.raft i).commitedLength = (c.raft i).absLength
  delivered : pendingBatches (c.nodes i).threads = []

instance (c : Cluster n σ) (i : Fin n) : Decidable (c.UpToDate i) :=
  decidable_of_iff' _ (c.upToDate_iff i)

/-! ## The leader of the highest term -/

/-- Whatever was delivered stands in its log. -/
theorem Refines.delivered_in_log {s : Ghost n} {c : Cluster n σ} (hs : Refines True s c)
    (hi : c.UpToDate i) {d : Delivery} (hd : .delivered j d ∈ c.history) :
    0 ≤ d.1 ∧ ∃ e, (s.log i)[d.1.toNat]? = some e ∧ e.message = d.2 := by
  obtain ⟨t, l, e, hcov, hpos, he, hmessage⟩ := hs.history _ hd trivial
  have hterm : ∀ j, s.term j = (c.raft j).currentTerm := fun j ↦ (hs.sound.nodes j).term
  have hlead : s.leader (s.term i) = some i := by
    rw [hterm]
    exact (hs.sound.nodes i).leads hi.role
  have hhighest : ∀ j, s.term j ≤ s.term i := by
    intro j
    rw [hterm, hterm]
    exact hi.highest j
  have hpre := hcov.prefix_log hs.ghost.matchInv (hs.ghost.ackInv trivial) hlead hhighest
  exact ⟨hpos, e, prefix_getElem? hpre he, hmessage⟩

section

variable {snapshotThreshold : Int} {application : Fin n → σ} {c : Cluster n σ}

/-- Its deliveries are those at all positions of its log. -/
theorem Cluster.UpToDate.positions (hi : c.UpToDate i)
    (hrun : Reaches (Cluster.step app) OrderKept
      (Cluster.start n snapshotThreshold application) c) :
    (deliveredBy i c.history).map Prod.fst = positions 0 (c.raft i).absLength.toNat := by
  obtain ⟨batch, hpend, hcom⟩ := inOrder_of_run hrun i
  obtain rfl := batch_eq_nil hi.delivered hpend
  rw [← hi.committed, ← hcom.positions, List.append_nil]

/-- It has delivered whatever any node has delivered, each message at its place. -/
theorem Cluster.UpToDate.delivered_all (hi : c.UpToDate i)
    (hrun : Reaches (Cluster.step app) (ReadKept app)
      (Cluster.start n snapshotThreshold application) c) {d : Delivery}
    (hd : .delivered j d ∈ c.history) :
    0 ≤ d.1 ∧ (deliveredBy i c.history)[d.1.toNat]? = some d := by
  obtain ⟨s, hs⟩ := refines_of_commitKept (hrun.mono fun _ _ h ↦ h.1)
  have hpositions := hi.positions (hrun.mono fun _ _ h ↦ h.2.1)
  obtain ⟨hpos, e, he, hmessage⟩ := hs.delivered_in_log hi hd
  have hlt : d.1.toNat < (c.raft i).absLength.toNat := by
    have := (List.getElem?_eq_some_iff.mp he).1
    rw [(hs.sound.nodes i).shows.absLength]
    omega
  obtain ⟨d', hd', hplace⟩ := exists_of_positions hpositions hlt
  have hsame : d'.1 = d.1 := by omega
  -- both messages are those of one entry of the leader's log
  obtain ⟨-, e', he', hmessage'⟩ :=
    hs.delivered_in_log hi (mem_deliveredBy.mp (List.mem_of_getElem? hd'))
  rw [hsame, he] at he'
  cases he'
  exact ⟨hpos, by rw [hd', Prod.ext hsame (hmessage'.symm.trans hmessage)]⟩

/-- Each of its deliveries stands at its own position. -/
theorem Cluster.UpToDate.position_eq (hi : c.UpToDate i)
    (hrun : Reaches (Cluster.step app) OrderKept (Cluster.start n snapshotThreshold application) c)
    {p : Nat} {d : Delivery} (hp : (deliveredBy i c.history)[p]? = some d) : d.1 = p := by
  rw [fst_of_positions (hi.positions hrun) hp, Int.zero_add]

end

/-! ## Gets -/

/-- The node whose application an action reads. -/
def ServiceAction.reader (s : Service n σ) : ServiceAction n → Option (Fin n)
  | .get id .readValue => s.gets[id]?.map GetInvocation.node
  | _ => none

/-- Nodes answer reads only when they are up to date. -/
def Service.ReadsLatest (app : Application σ) (s : Service n σ) (a : ServiceAction n) : Prop :=
  s.Keeps (ReadKept app) a ∧ ∀ i ∈ a.reader s, s.cluster.UpToDate i
deriving Decidable

namespace Service

variable {application : Fin n → σ} {s₀ s s' : Service n σ} {id : Nat} {call : GetInvocation n}

/-- The value is what an application gave for the key after the messages at the first positions,
among them everything that was delivered before `s₀`. -/
def Latest (app : Application σ) (application : Fin n → σ) (s₀ s : Service n σ) (key v : Int) :
    Prop :=
  ∃ j ms, (∀ (p : Nat) m, ms[p]? = some m → .delivered j ((p : Int), m) ∈ s.cluster.history) ∧
    (∀ i d, .delivered i d ∈ s₀.cluster.history → 0 ≤ d.1 ∧ ms[d.1.toNat]? = some d.2) ∧
    v = int32 (app.getValue (app.applied (application j) ms) key)

/-- A get that is made after `s₀` waits for another such get with its key, or has the latest
value. -/
def Recent (app : Application σ) (application : Fin n → σ) (s₀ s : Service n σ)
    (call : GetInvocation n) : Prop :=
  match call.stage with
  | .calling callee => s₀.gets.length ≤ callee ∧
      ∃ other, s.gets[callee]? = some other ∧ other.key = call.key
  | .returned (.ok v) => Latest app application s₀ s call.key v
  | _ => True

/-- Gets keep their keys, and no delivery is forgotten. -/
structure KeepsGets (s s' : Service n σ) : Prop where
  gets : ∀ (k : Nat) (g : GetInvocation n), s.gets[k]? = some g →
    ∃ g', s'.gets[k]? = some g' ∧ g'.key = g.key
  history : s.cluster.history <+: s'.cluster.history

theorem Latest.mono {key v : Int} (h : Latest app application s₀ s key v)
    (hhistory : s.cluster.history <+: s'.cluster.history) :
    Latest app application s₀ s' key v := by
  obtain ⟨j, ms, hms, hrest⟩ := h
  exact ⟨j, ms, fun p m hp ↦ hhistory.subset (hms p m hp), hrest⟩

theorem Recent.mono (h : Recent app application s₀ s call) (hkeeps : KeepsGets s s') :
    Recent app application s₀ s' call := by
  obtain ⟨node, key, stage⟩ := call
  cases stage with
  | calling callee =>
    obtain ⟨hle, other, hother, hkey⟩ := h
    obtain ⟨other', hother', hkey'⟩ := hkeeps.gets callee other hother
    exact ⟨hle, other', hother', hkey'.trans hkey⟩
  | returned result =>
    cases result with
    | error => trivial
    | ok v => exact Latest.mono h hkeeps.history
  | _ => trivial

theorem getElem?_invokeGet (hcall : s.gets[id]? = some call) (other : GetInvocation n) :
    (s.invokeGet other).gets[id]? = some call := by
  have hlt := (List.getElem?_eq_some_iff.mp hcall).1
  rw [invokeGet, List.getElem?_append_left hlt, hcall]

theorem keepsGets_invokeGet (s : Service n σ) (call : GetInvocation n) :
    KeepsGets s (s.invokeGet call) :=
  ⟨fun _ g hg ↦ ⟨g, getElem?_invokeGet hg call, rfl⟩, List.prefix_refl _⟩

theorem keepsGets_resumeGet (hcall : s.gets[id]? = some call) (stage : GetStage) :
    KeepsGets s (s.resumeGet id call stage) := by
  refine ⟨fun k g hg ↦ ?_, List.prefix_refl _⟩
  rw [resumeGet, List.getElem?_set]
  split
  · rename_i heq
    subst heq
    rw [hcall] at hg
    cases hg
    exact ⟨_, if_pos (List.getElem?_eq_some_iff.mp hcall).1, rfl⟩
  · exact ⟨g, hg, rfl⟩

/-- This is so for every get that is made after `s₀`. -/
structure AllRecent (app : Application σ) (application : Fin n → σ) (s₀ s : Service n σ) :
    Prop where
  length_le : s₀.gets.length ≤ s.gets.length
  recent : ∀ id call, s₀.gets.length ≤ id → s.gets[id]? = some call →
    Recent app application s₀ s call

namespace AllRecent

theorem start (app : Application σ) (application : Fin n → σ) (s₀ : Service n σ) :
    AllRecent app application s₀ s₀ where
  length_le := le_rfl
  recent id call hle hcall := by
    have := (List.getElem?_eq_some_iff.mp hcall).1
    omega

theorem moved (h : AllRecent app application s₀ s) (hgets : s'.gets = s.gets)
    (hhistory : s.cluster.history <+: s'.cluster.history) :
    AllRecent app application s₀ s' := by
  have hkeeps : KeepsGets s s' := ⟨fun k g hg ↦ ⟨g, hgets ▸ hg, rfl⟩, hhistory⟩
  exact ⟨hgets ▸ h.length_le, fun id call hle hcall ↦
    (h.recent id call hle (hgets ▸ hcall)).mono hkeeps⟩

theorem invokeGet (h : AllRecent app application s₀ s)
    (hnew : Recent app application s₀ s call) :
    AllRecent app application s₀ (s.invokeGet call) := by
  have hkeeps := keepsGets_invokeGet s call
  constructor
  · simp only [Service.invokeGet, List.length_append]
    exact h.length_le.trans (Nat.le_add_right _ _)
  · intro id g hle hg
    rw [Service.invokeGet, List.getElem?_append] at hg
    split at hg
    · exact (h.recent id g hle hg).mono hkeeps
    · rw [List.mem_singleton.mp (List.mem_of_getElem? hg)]
      exact hnew.mono hkeeps

theorem resumeGet (h : AllRecent app application s₀ s) (hcall : s.gets[id]? = some call)
    {stage : GetStage}
    (hnew : s₀.gets.length ≤ id → Recent app application s₀ s { call with stage := stage }) :
    AllRecent app application s₀ (s.resumeGet id call stage) := by
  have hkeeps := keepsGets_resumeGet hcall stage
  constructor
  · rw [Service.resumeGet, List.length_set]
    exact h.length_le
  · intro k g hle hg
    rw [Service.resumeGet, List.getElem?_set] at hg
    split at hg
    · rename_i heq
      subst heq
      rw [if_pos (List.getElem?_eq_some_iff.mp hcall).1] at hg
      cases hg
      exact (hnew hle).mono hkeeps
    · exact (h.recent k g hle hg).mono hkeeps

/-- The steps of a get; `hread` says what a node answers from its own application. -/
theorem stepGet (h : AllRecent app application s₀ s) (hcall : s.gets[id]? = some call)
    {b : GetAction} (hcase : GetCase app s id call b s')
    (hread : b = .readValue → Latest app application s₀ s call.key
      (int32 (app.getValue (s.raft call.node).application call.key))) :
    AllRecent app application s₀ s' := by
  cases hcase with
  | leads | failed => exact h.resumeGet hcall fun _ ↦ trivial
  | forwarded peer hstage =>
    let other : GetInvocation n := ⟨peer, call.key, .forwardGet⟩
    have hinvoked : AllRecent app application s₀ (s.invokeGet other) := h.invokeGet trivial
    refine hinvoked.resumeGet (getElem?_invokeGet hcall other) fun _ ↦
      ⟨h.length_le, other, ?_, rfl⟩
    rw [Service.invokeGet, List.getElem?_concat_length]
  | read hstage => exact h.resumeGet hcall fun _ ↦ hread rfl
  | @replied callee other value hstage hother hreturned =>
    refine h.resumeGet hcall fun hle ↦ ?_
    have hwaits := h.recent id call hle hcall
    unfold Recent at hwaits
    rw [hstage] at hwaits
    obtain ⟨hcallee, other', hother', hkey⟩ := hwaits
    cases hother.symm.trans hother'
    have hanswer := h.recent callee other hcallee hother
    unfold Recent at hanswer
    rw [hreturned, hkey] at hanswer
    exact hanswer

theorem step {a : ServiceAction n} (h : AllRecent app application s₀ s)
    (hstep : s.step app a = some s')
    (hread : ∀ k g, a = .get k .readValue → s.gets[k]? = some g →
      Latest app application s₀ s g.key
        (int32 (app.getValue (s.raft g.node).application g.key))) :
    AllRecent app application s₀ s' := by
  have hhistory := (extends_step hstep).history
  cases step_cases hstep with
  | raft | invokeForward | invokeBroadcastSync => exact h.moved rfl hhistory
  | invokeGet => exact h.invokeGet trivial
  | @get k g b s' hg hcase =>
    refine h.stepGet hg hcase fun hb ↦ hread k g ?_ hg
    rw [hb]
  | call hcall hcase => exact h.moved hcase.gets_eq hhistory

end AllRecent

/-- A node that is up to date reads the latest value. -/
theorem latest_of_upToDate {snapshotThreshold : Int} {i : Fin n}
    (hrun : Reaches (Cluster.step app) (ReadKept app)
      (Cluster.start n snapshotThreshold application) s.cluster)
    (hhistory : s₀.cluster.history <+: s.cluster.history) (hi : s.cluster.UpToDate i)
    (key : Int) :
    Latest app application s₀ s key (int32 (app.getValue (s.raft i).application key)) := by
  have happlied := application_of_run (hrun.mono fun _ _ h ↦ h.2.2) i
  refine ⟨i, (deliveredBy i s.cluster.history).map Prod.snd, ?_, ?_, by rw [← happlied]⟩
  · intro p m hp
    rw [List.getElem?_map] at hp
    obtain ⟨d, hd, rfl⟩ := Option.map_eq_some_iff.mp hp
    rw [← hi.position_eq (hrun.mono fun _ _ h ↦ h.2.1) hd]
    exact mem_deliveredBy.mp (List.mem_of_getElem? hd)
  · intro k d hd
    obtain ⟨hpos, hget⟩ := hi.delivered_all hrun (hhistory.subset hd)
    exact ⟨hpos, by rw [List.getElem?_map, hget, Option.map_some]⟩

/-- What the run up to a state gives: the calls have their evidence, and every entry that was
appended crosses the wire unchanged. -/
theorem evidence_of_run {snapshotThreshold : Int}
    (hrun : Reaches (Service.step app) (Service.Keeps (ReadKept app))
      (Service.start n snapshotThreshold application) s) :
    Evidence (fun _ ↦ True) s ∧ ∀ d ∈ s.appended, d.2.Fits := by
  refine hrun.invariant (fun s ↦ Evidence (fun _ ↦ True) s ∧ ∀ d ∈ s.appended, d.2.Fits)
    ⟨fun _ h ↦ absurd h List.not_mem_nil, fun _ h ↦ absurd h List.not_mem_nil⟩ ?_
  intro s a s' _ ⟨hevidence, hfits⟩ hkeeps hstep
  refine ⟨hevidence.step hstep fun _ _ _ _ ↦ trivial, ?_⟩
  rcases cluster_step hstep with ⟨-, hsame⟩ | ⟨⟨i, b⟩, hx, -, happended⟩
  · rwa [hsame]
  · intro d hd
    rw [happended] at hd
    rcases List.mem_append.mp hd with hold | hnew
    · exact hfits d hold
    · cases b with
      | broadcast m =>
        obtain rfl := List.mem_singleton.mp hnew
        obtain ⟨⟨⟨-, hmatch⟩, -⟩, -⟩ := hkeeps _ hx
        exact (of_decide_eq_true hmatch).2.1
      | _ => exact absurd hnew List.not_mem_nil

end Service

/-- If nodes answer reads only when they lead the highest term and have committed and applied all of
their log, a read returns the latest write.  The value is that of the last write to its key among
the messages at the first positions; all that was delivered before the read was made stands there at
its position, and so does every write to the key that was answered. -/
theorem get_returns_latest (app : Application σ) {view : σ → Int → Option Int}
    {value : Option Int → Int} (hserves : app.ServesReads view value) (snapshotThreshold : Int)
    (application : Fin n → σ) {s₀ s : Service n σ}
    (hbefore : Reaches (Service.step app) (Service.ReadsLatest app)
      (Service.start n snapshotThreshold application) s₀)
    (hrun : Reaches (Service.step app) (Service.ReadsLatest app) s₀ s) {id : Nat}
    {g : GetInvocation n} {v : Int} (hmade : s₀.gets.length ≤ id) (hg : s.gets[id]? = some g)
    (hreturned : g.stage = .returned (.ok v)) :
    ∃ ms : List Message,
      (∀ (p : Nat) m, ms[p]? = some m → ∃ j, .delivered j ((p : Int), m) ∈ s.cluster.history) ∧
      (∀ i d, .delivered i d ∈ s₀.cluster.history → 0 ≤ d.1 ∧ ms[d.1.toNat]? = some d.2) ∧
      ∀ call ∈ s₀.calls, ∀ answer, call.stage = .returned (.ok answer) →
        call.message.isWrite = true → call.message.wire.key = g.key →
        ∃ (p q : Nat) (m w : Message), p ≤ q ∧ ms[p]? = some m ∧ m.wire = call.message.wire ∧
          (∃ i, .delivered i ((p : Int), m) ∈ s₀.cluster.history) ∧
          ms[q]? = some w ∧ lastWrite ms g.key = some w ∧ v = int32 (value w.effect) := by
  obtain ⟨-, -, hrecent⟩ : Reaches (Service.step app) (Service.ReadsLatest app)
      (Service.start n snapshotThreshold application) s ∧
      s₀.cluster.history <+: s.cluster.history ∧ Service.AllRecent app application s₀ s := by
    refine hrun.invariant (fun s ↦ Reaches (Service.step app) (Service.ReadsLatest app)
      (Service.start n snapshotThreshold application) s ∧
      s₀.cluster.history <+: s.cluster.history ∧ Service.AllRecent app application s₀ s)
      ⟨hbefore, List.prefix_refl _, .start app application s₀⟩ ?_
    intro s a s' _ ⟨hreach, hgrown, hrecent⟩ hok hstep
    refine ⟨hreach.tail hok hstep, hgrown.trans (Service.extends_step hstep).history,
      hrecent.step hstep ?_⟩
    rintro k g rfl hg
    have hcluster := Service.cluster_reaches (hreach.mono fun _ _ h ↦ h.1)
    exact Service.latest_of_upToDate hcluster hgrown
      (hok.2 g.node (Option.map_eq_some_iff.mpr ⟨g, hg, rfl⟩)) g.key
  obtain ⟨hevidence, hfits⟩ := Service.evidence_of_run (hbefore.mono fun _ _ h ↦ h.1)
  have hlatest := hrecent.recent id g hmade hg
  unfold Service.Recent at hlatest
  rw [hreturned] at hlatest
  obtain ⟨j, ms, hms, hseen, hv⟩ := hlatest
  refine ⟨ms, fun p m hp ↦ ⟨j, hms p m hp⟩, hseen,
    fun call hcall answer hanswer hwrite hkey ↦ ?_⟩
  -- the answer rests on a delivery, which the reader has seen
  have hbacked := hevidence call hcall
  unfold Service.Backed at hbacked
  rw [hanswer] at hbacked
  obtain ⟨i, p, m, -, happended, hdelivered, hwire⟩ := hbacked
  obtain ⟨hpos, hget⟩ := hseen i (p, m) hdelivered
  have hmkey : m.key = g.key := by
    rw [← hkey, ← hwire, Message.wire_eq_self (hfits _ happended)]
  have hmwrite : m.isWrite = true := by
    change m.wire.isWrite = true
    rw [hwire]
    exact hwrite
  obtain ⟨q, w, hle, hq, hlast⟩ := exists_lastWrite hget hmwrite hmkey
  refine ⟨p.toNat, q, m, w, hle, hget, hwire, ⟨i, ?_⟩, hq, hlast, ?_⟩
  · rwa [Int.toNat_of_nonneg hpos]
  · rw [hv, hserves.getValue_applied _ hlast]

/-! ## Sample runs -/

/-- Node `i` is elected with the vote of node `f` and stores a message, which `f` confirms. -/
def storesWith (i f : Fin 3) (term : Int) (m : Message) : List (ServiceAction 3) :=
  let args : LogRequestArgs 3 := ⟨i, term, 0, 0, 0, [⟨term, m⟩]⟩
  [.raft i .electionTimeout, .raft i .startElection, .raft f (.voteRequest ⟨i, term, 0, 0⟩),
    .raft i (.receiveVote ⟨f, term, true⟩), .invokeBroadcastSync i m,
    .call 0 (.testBroadcast true), .call 0 .append, .raft i (.replicate f),
    .raft i (.prepareLogRequestArgs f), .raft f (.logRequest args),
    .raft f (.appendEntries args .healthy), .raft f (.logReply args),
    .raft i (.replicateResponse f args ⟨f, term, 1, true⟩), .raft i (.deliver [(0, m)]),
    .call 0 (.respond true 0)]

abbrev emptyService : Service 3 (Int → Option Int) := Service.start 3 1000 fun _ _ ↦ none

/-- A read that node 1 passes on to the leader. -/
theorem get_returns_latest_forwarded : ∃ s₀ s : Service 3 (Int → Option Int),
    Reaches (Service.step keepsValues) (Service.ReadsLatest keepsValues) emptyService s₀ ∧
      s₀.calls[0]? = some ⟨0, samplePut 1, .returned (.ok (true, 0))⟩ ∧
      Reaches (Service.step keepsValues) (Service.ReadsLatest keepsValues) s₀ s ∧
      s.gets[0]? = some ⟨1, 1, .returned (.ok 1)⟩ ∧
      ∃ ms m w, m ∈ ms ∧ m.wire = (samplePut 1).wire ∧ lastWrite ms 1 = some w ∧
        1 = int32 (w.effect.getD 0) := by
  obtain ⟨s₀, s, hbefore, ⟨hcall, hgets⟩, hrun, hget⟩ :
      ∃ s₀ s : Service 3 (Int → Option Int),
        Reaches (Service.step keepsValues) (Service.ReadsLatest keepsValues) emptyService s₀ ∧
        (s₀.calls[0]? = some ⟨0, samplePut 1, .returned (.ok (true, 0))⟩ ∧ s₀.gets.length ≤ 0) ∧
        Reaches (Service.step keepsValues) (Service.ReadsLatest keepsValues) s₀ s ∧
        s.gets[0]? = some ⟨1, 1, .returned (.ok 1)⟩ :=
    exists_later_of_exec (storesWith 0 1 1 (samplePut 1))
      [.invokeGet 1 1, .get 0 (.testGet true), .get 1 (.testGet true), .get 1 .readValue,
        .get 0 .reply]
      (by decide +kernel)
  obtain ⟨ms, -, -, hlatest⟩ := get_returns_latest keepsValues keepsValues_serves 1000
    (fun _ _ ↦ none) hbefore hrun hgets hget rfl
  obtain ⟨p, q, m, w, -, hp, hwire, -, -, hlast, hv⟩ :=
    hlatest _ (List.mem_of_getElem? hcall) _ rfl rfl rfl
  exact ⟨s₀, s, hbefore, hcall, hrun, hget, ms, m, w, List.mem_of_getElem? hp, hwire, hlast, hv⟩

/-- Node 1 leads term 2 and has stored a value.  Node 0 leads term 1 as far as it knows. -/
theorem deposed_leader_answers_get : ∃ s₀ s : Service 3 (Int → Option Int),
    Reachable (Service.step keepsValues) emptyService s₀ ∧
      (s₀.calls = [⟨1, samplePut 1, .returned (.ok (true, 0))⟩] ∧ s₀.gets = []) ∧
      Reachable (Service.step keepsValues) s₀ s ∧
      s.calls = [⟨1, samplePut 1, .returned (.ok (true, 0))⟩] ∧
      s.gets = [⟨0, 1, .returned (.ok 0)⟩] :=
  exists_later_of_exec
    ([.raft 0 .electionTimeout, .raft 0 .startElection, .raft 1 (.voteRequest ⟨0, 1, 0, 0⟩),
      .raft 0 (.receiveVote ⟨1, 1, true⟩)] ++ storesWith 1 2 2 (samplePut 1))
    [.invokeGet 0 1, .get 0 (.testGet true), .get 0 .readValue] (by decide +kernel)

end DistributedCache
