import DistributedCache.Raft.LogSimulation

/-!
# The abstract protocol simulates every run

Snapshots are the last actions to be simulated; `act_simulates` puts all actions together, and
`refines_run` follows a run.
-/

namespace DistributedCache

open Network Window ReplicatedLog Quorum Transition

variable {n : Nat} {σ : Type} {app : Application σ} {i : Fin n} {r r' : Raft n σ}
  {strict : Prop} {s s' : Ghost n}

/-! ## The leader's side of a snapshot transfer -/

theorem sendInstallSnapshotRPC_ok (hg : GhostOk strict s) (h : NodeOk strict s i r) {f : Fin n}
    (hrole : r.currentRole = .leader) (hne : i ≠ f) :
    ThreadOk strict s i (.openSnapshot (r.sendInstallSnapshotRPC f)) := by
  have hlog := h.leaderLog hg.matchInv hrole
  obtain ⟨h0, hle, -⟩ := h.shows.window
  refine ⟨hne, h.leads hrole, h0, ?_, fun hpos ↦ ?_, fun hstrict ↦ ?_⟩
  · change r.snapshotter.lastIndex ≤ ((s.leaderLog r.currentTerm).length : Int)
    rwa [hlog]
  · change PrefixTerm (s.leaderLog r.currentTerm) _ _
    rw [hlog]
    exact h.shows.snapshot hpos
  · obtain ⟨hbase, -, hcov, -, -⟩ := h.commit hstrict
    change Covered LogEntry.term s r.currentTerm
      ((s.leaderLog r.currentTerm).take r.snapshotter.lastIndex.toNat)
    rw [hlog, ← h.term]
    exact hcov.shorten (List.take_prefix_take_left (by omega))

variable {t : Transfer n} {req : InstallSnapshotRequest n}

theorem readChunk_simulates (hg : GhostOk strict s) (h : NodeOk strict s i r)
    (hthread : ThreadOk strict s i (.readChunk t)) (hdata : strict → r.readChunk t ≠ []) :
    Simulates strict s i (r.readChunkEffect i t) := by
  have htransfer : SnapshotFrom strict s i t.followerId t.currentTerm t.lastIndex t.lastTerm :=
    hthread
  obtain ⟨hpos, hle⟩ := hg.matchInv.leader_term _ i htransfer.lead
  have hbound := h.bound
  have hsafe := hg.safe _ i htransfer.lead
  have hlen := hsafe.length
  have hindex := htransfer.bound
  have hterm : int32 t.currentTerm = t.currentTerm :=
    int32_eq_self (fits_of_bounds (by omega) (by rw [h.term] at hle; omega))
  have hlast : int32 t.lastIndex = t.lastIndex :=
    int32_eq_self (fits_of_bounds htransfer.nonneg (by omega))
  unfold Raft.readChunkEffect
  simp only
  split
  · rename_i hempty
    exact .spawn hg.safe h fun hstrict ↦ absurd hempty (hdata hstrict)
  · refine .stay hg.safe h ?_ ?_ (by simp)
    · intro x hx
      rw [List.mem_singleton.mp hx]
      exact ⟨htransfer, hterm, hlast⟩
    · intro p hp
      rw [List.mem_singleton.mp hp]
      change SnapshotFrom strict s i t.followerId (int32 t.currentTerm) (int32 t.lastIndex)
        (int32 t.lastTerm)
      rw [hterm, hlast]
      refine { htransfer with snapshot := fun hpos ↦ ?_ }
      have hsnap := htransfer.snapshot hpos
      rcases id hsnap with ⟨hzero, -⟩ | ⟨-, e, he, ht⟩
      · omega
      · rwa [int32_eq_self (ht ▸ (hsafe.entries e (List.mem_of_getElem? he)).1)]

theorem snapshotReply_simulates (hg : GhostOk strict s) (h : NodeOk strict s i r)
    {resp : InstallSnapshotResponse} (hthread : ThreadOk strict s i (.awaitReply t req))
    (hpacket : PacketOk strict s (.snapshotResponse i t.followerId req resp))
    (hfits : FitsInt32 resp.term) : Simulates strict s i (r.snapshotReplyEffect t req resp) := by
  obtain ⟨htransfer, hterm, hindex⟩ := hthread
  unfold Raft.snapshotReplyEffect
  split
  · rename_i hlt
    exact .after (evolves_raiseTo s i resp.term)
      (.quiet hg.safe (h.yields hg.matchInv (.of_newer hlt rfl rfl ⟨rfl, rfl, rfl⟩) hfits.2))
  rename_i hold
  split
  · rename_i hdone
    refine .spawn hg.safe h fun hstrict ↦ ?_
    refine ⟨(hg.matchInv.leader_term _ i htransfer.lead).2, fun hsame ↦ ?_⟩
    have hack := hpacket hstrict hdone (by rw [h.term] at hsame; omega)
    rwa [hterm, hindex] at hack
  · refine .spawn hg.safe h ?_
    exact { htransfer with }

theorem NodeOk.finishTransfer (h : NodeOk strict s i r)
    (hthread : ThreadOk strict s i (.finishTransfer t))
    (hterm : strict → r.currentTerm = t.currentTerm) : NodeOk strict s i (r.finishTransfer t) := by
  change NodeOk strict s i (r.recordAck t.followerId t.lastIndex)
  refine h.recordAck fun hstrict ↦ ?_
  rw [hterm hstrict]
  exact (hthread hstrict).2 (h.term.trans (hterm hstrict))

/-! ## The follower's side -/

theorem followSnapshot_yields (hle : r.currentTerm ≤ req.leaderTerm) :
    r.Yields (r.followSnapshot req) req.leaderTerm := by
  unfold Raft.followSnapshot
  split
  · rename_i hlt
    exact .of_newer hlt rfl rfl ⟨rfl, rfl, rfl⟩
  · exact ⟨by simp only; omega, fun _ _ hc ↦ hc, Or.inr ⟨rfl, rfl, rfl, rfl⟩, ⟨rfl, rfl, rfl⟩⟩

/-- The ghost takes over a prefix of its leader's log, and nothing else. -/
theorem exists_restored {l : Fin n} {t index lastTerm : Int}
    (hsnap : SnapshotFrom strict s l i t index lastTerm) (hterm : s.term i = t)
    (hlen : strict → ((s.log i).length : Int) ≤ index) :
    ∃ s', Evolves LogEntry.term strict i s s' ∧ s'.term = s.term ∧ s'.vote = s.vote ∧
      s'.campaign = s.campaign ∧ s'.leader = s.leader ∧ s'.leaderLog = s.leaderLog ∧
      s'.log i = (s.leaderLog t).take index.toNat ∧ AckedUpTo s' i t index := by
  subst hterm
  have hbound := hsnap.bound
  have h0 := hsnap.nonneg
  have hsize : ((s.leaderLog (s.term i)).take index.toNat).length = index.toNat := by
    rw [List.length_take]
    omega
  have haccept : Owned LogEntry.term strict i s
      (s.accept i ((s.leaderLog (s.term i)).take index.toNat)) :=
    .accept l _ hsnap.lead hsnap.ne (List.take_prefix _ _)
  have hlog : (s.accept i ((s.leaderLog (s.term i)).take index.toNat)).log i =
      if (s.leaderLog (s.term i)).take index.toNat <+: s.log i then s.log i
      else (s.leaderLog (s.term i)).take index.toNat := by
    simp [State.accept]
  have hack : AckedUpTo (s.accept i ((s.leaderLog (s.term i)).take index.toNat)) i (s.term i)
      index := fun k _ hk ↦ Or.inr ⟨rfl, rfl, by omega⟩
  by_cases hstrict : strict
  · refine ⟨_, .one haccept, rfl, rfl, rfl, rfl, rfl, ?_, hack⟩
    have := hlen hstrict
    rw [hlog]
    split
    · rename_i hpre
      exact (hpre.eq_of_length_le (by omega)).symm
    · rfl
  · have hown : s.leader (s.term i) ≠ some i := by
      rw [hsnap.lead]
      exact fun heq ↦ hsnap.ne (Option.some.inj heq)
    refine ⟨_, .tail (.one haccept) (.truncate index.toNat hstrict hown), rfl, rfl, rfl, rfl, rfl,
      ?_, hack⟩
    change Function.update _ i _ i = _
    rw [Function.update_self, hlog]
    split
    · rename_i hpre
      rw [prefix_take_eq hpre hsize.ge, List.take_take, Nat.min_self]
    · rw [List.take_take, Nat.min_self]

/-- What a node and its ghost know once the node follows the sender of a snapshot. -/
structure FollowsSender (strict : Prop) (s : Ghost n) (i : Fin n) (r : Raft n σ)
    (req : InstallSnapshotRequest n) : Prop where
  node : NodeOk strict (s.raiseTo i req.leaderTerm) i (r.followSnapshot req)
  term : (s.raiseTo i req.leaderTerm).term i = req.leaderTerm
  lead : s.leader (r.followSnapshot req).currentTerm = some req.leaderId

theorem followsSender (hg : GhostOk strict s) (h : NodeOk strict s i r)
    (hlead : s.leader req.leaderTerm = some req.leaderId) (hfits : FitsInt32 req.leaderTerm)
    (hle : r.currentTerm ≤ req.leaderTerm) : FollowsSender strict s i r req := by
  have hyields := followSnapshot_yields hle
  have hnode := h.yields hg.matchInv hyields (hyields.term ▸ max_lt h.bound hfits.2)
  have hterm : (s.raiseTo i req.leaderTerm).term i = req.leaderTerm := by
    have := h.term
    rw [raiseTo_term]
    omega
  refine ⟨hnode, hterm, ?_⟩
  rw [← hnode.term, hterm]
  exact hlead

/-- A node that is sent a snapshot does not lead the term. -/
theorem FollowsSender.role_ne (h : FollowsSender strict s i r req) (hne : req.leaderId ≠ i) :
    (r.followSnapshot req).currentRole ≠ .leader := by
  intro hrole
  have hown := h.node.leads hrole
  change s.leader _ = _ at hown
  rw [h.lead] at hown
  exact hne (Option.some.inj hown)

/-- The snapshot cannot be restored, and the log is gone all the same. -/
theorem installFailed_simulates (hg : GhostOk strict s) (h : NodeOk strict s i r)
    (hfollow : FollowsSender strict s i r req) (hne : req.leaderId ≠ i) (hlossy : ¬ strict)
    (hnil : r.logAfterSnapshot req = []) (file : Option (List UInt8)) (application : σ) :
    Simulates strict s i
      ⟨{ r.followSnapshot req with
          snapshotFile := file
          log := r.logAfterSnapshot req
          application := application }, [], [], []⟩ := by
  have hown : (s.raiseTo i req.leaderTerm).leader ((s.raiseTo i req.leaderTerm).term i) ≠
      some i := by
    rw [hfollow.node.term]
    change s.leader _ ≠ _
    rw [hfollow.lead]
    exact fun heq ↦ hne (Option.some.inj heq)
  obtain ⟨hbase, hbound, -⟩ := h.shows.window
  have hlog : ((s.raiseTo i req.leaderTerm).truncate i r.snapshotter.lastIndex.toNat).log i =
      (s.log i).take r.snapshotter.lastIndex.toNat := by
    simp [State.truncate, State.raiseTo]
  refine .after ((evolves_raiseTo s i req.leaderTerm).tail
      (.truncate r.snapshotter.lastIndex.toNat hlossy hown))
    (.stay hg.safe ?_ (by simp) (by simp) (by simp))
  refine hfollow.node.relog ⟨rfl, rfl, rfl, rfl, rfl, rfl, rfl⟩ hfollow.lead rfl rfl rfl rfl ?_ ?_
    fun hstrict ↦ absurd hstrict hlossy
  · rw [hlog]
    refine ⟨?_, fun hpos ↦ ?_⟩
    · simp only [hnil, Raft.followSnapshot_snapshotter]
      exact .nil hbase (by rw [List.length_take]; omega)
    · simp only [Raft.followSnapshot_snapshotter] at hpos ⊢
      exact (h.shows.snapshot hpos).take (by omega)
  · rw [hlog]
    exact h.safe.shorten (List.take_prefix _ _)

/-- The snapshot stands for a prefix of the leader's log, and nothing is kept after it. -/
theorem installRestored_simulates (hg : GhostOk strict s) (h : NodeOk strict s i r)
    (hfollow : FollowsSender strict s i r req)
    (hsnap : SnapshotFrom strict s req.leaderId i req.leaderTerm req.lastIncludedIndex
      req.lastIncludedTerm) (hnil : r.logAfterSnapshot req = [])
    (hshort : strict → ((s.log i).length : Int) ≤ req.lastIncludedIndex)
    (file : Option (List UInt8)) (application : σ) (resp : InstallSnapshotResponse) :
    Simulates strict s i
      ⟨{ r.followSnapshot req with
          snapshotFile := file
          log := r.logAfterSnapshot req
          application := application
          snapshotter :=
            { r.snapshotter with
              lastIndex := req.lastIncludedIndex
              lastTerm := req.lastIncludedTerm }
          commitedLength := max r.commitedLength req.lastIncludedIndex },
        [], [.snapshotResponse req.leaderId i req resp], []⟩ := by
  have hbound := hsnap.bound
  have hnonneg := hsnap.nonneg
  have hfollows := hfollow.role_ne hsnap.ne
  have hsnap' : SnapshotFrom strict (s.raiseTo i req.leaderTerm) req.leaderId i req.leaderTerm
    req.lastIncludedIndex req.lastIncludedTerm := { hsnap with }
  obtain ⟨s', hev, hterm', hvote, hcamp, hleader, hleaderLog, hlog, hack⟩ :=
    exists_restored hsnap' hfollow.term hshort
  have hext := (hev.frame (hg.raiseTo i req.leaderTerm).matchInv).ext
  change s'.log i = (s.leaderLog req.leaderTerm).take _ at hlog
  have hsize : (s'.log i).length = req.lastIncludedIndex.toNat := by
    rw [hlog, List.length_take]
    omega
  refine .after ((evolves_raiseTo s i req.leaderTerm).trans hev)
    (.stay ?_ ?_ (by simp) ?_ (by simp))
  · rw [hleader, hleaderLog]
    exact hg.safe
  · refine hfollow.node.relog ⟨rfl, rfl, rfl, rfl, rfl, rfl, rfl⟩ hfollow.lead
      (congrFun hterm' i) hvote hcamp hleader ?_ ?_ fun hstrict ↦ ?_
    · refine ⟨?_, fun hpos ↦ ?_⟩
      · simp only [hnil]
        exact .nil hnonneg (by omega)
      · rw [hlog]
        exact (hsnap.snapshot hpos).take (by omega)
    · rw [hlog]
      exact (hg.safe _ _ hsnap.lead).shorten (List.take_prefix _ _)
    · have hcbound := (h.commit hstrict).bound
      have hlen := hshort hstrict
      have hmax : max r.commitedLength req.lastIncludedIndex = req.lastIncludedIndex := by omega
      refine ⟨by simp only; omega, by simp only [hmax]; omega, ?_,
        fun hrole ↦ absurd hrole hfollows, fun hrole ↦ absurd hrole hfollows⟩
      simp only [hmax]
      rw [hlog, List.take_take, Nat.min_self, hterm', hfollow.term]
      exact (hsnap'.covered hstrict).mono hext le_rfl
  · intro p hp
    obtain rfl := List.mem_singleton.mp hp
    exact fun _ _ _ ↦ hack

theorem installSnapshot_simulates (hg : GhostOk strict s) (h : NodeOk strict s i r) {disk : Disk}
    {reply : Option InstallSnapshotResponse} (hpacket : PacketOk strict s (.installSnapshot i req))
    (hfits : FitsInt32 req.leaderTerm)
    (hkept : req.done = true → r.currentTerm ≤ req.leaderTerm → ¬ r.retainsSuffix req)
    (hstrictly : strict → req.done = true → r.currentTerm ≤ req.leaderTerm → r.absLength ≤
      req.lastIncludedIndex ∧ r.restorable app disk req = true)
    (hout : r.InstallOutcome app disk req r' reply) :
    Simulates strict s i
      ⟨r', [], reply.toList.map (.snapshotResponse req.leaderId i req), []⟩ := by
  have hsnap : SnapshotFrom strict s req.leaderId i req.leaderTerm req.lastIncludedIndex
    req.lastIncludedTerm := hpacket
  cases hout with
  | stale hlt =>
    refine .stay hg.safe h (by simp) ?_ (by simp)
    intro p hp
    obtain rfl := List.mem_singleton.mp hp
    intro _ _ hle
    -- the reply carries the newer term
    have h0 := hg.matchInv.term_nonneg i
    have hterm := h.term
    change int32 r.currentTerm ≤ req.leaderTerm at hle
    rw [int32_eq_self (fits_of_bounds (by omega) h.bound)] at hle
    omega
  | stored hle file _ hreply =>
    have hnode := (followsSender hg h hsnap.lead hfits hle).node
    refine .after (evolves_raiseTo s i req.leaderTerm) (.stay hg.safe
      (hnode.same ⟨rfl, rfl, rfl, rfl⟩ ⟨rfl, rfl, rfl⟩ rfl) (by simp) ?_ (by simp))
    intro p hp
    obtain ⟨resp, hresp, rfl⟩ := List.mem_map.mp hp
    intro _ hdone
    obtain rfl | ⟨hmore, -⟩ := hreply
    · cases hresp
    · rw [hdone] at hmore
      cases hmore
  | failed hle hdone hfail file application =>
    have hlossy : ¬ strict := fun hstrict ↦ by
      rw [(hstrictly hstrict hdone hle).2] at hfail
      cases hfail
    exact installFailed_simulates hg h (followsSender hg h hsnap.lead hfits hle) hsnap.ne hlossy
      (if_neg (hkept hdone hle)) file application
  | restored hle hdone file application =>
    have hshort : strict → ((s.log i).length : Int) ≤ req.lastIncludedIndex := fun hstrict ↦
      h.shows.absLength ▸ (hstrictly hstrict hdone hle).1
    exact installRestored_simulates hg h (followsSender hg h hsnap.lead hfits hle) hsnap
      (if_neg (hkept hdone hle)) hshort file application _

/-! ## All actions -/

variable {a : Action n} {e : RaftEffect n σ}

theorem act_simulates (hg : GhostOk strict s) (h : NodeOk strict s i r)
    (hthread : ∀ t ∈ a.thread, ThreadOk strict s i t)
    (hpacket : ∀ p ∈ a.packet i, FitsInt32 p.term ∧ PacketOk strict s p)
    (hvotes : r.votesKept i a = true) (hmatch : r.matchKept a = true)
    (hcommit : strict → r.commitKept app i a = true) (hact : r.act app i a = some e) :
    Simulates strict s i e := by
  cases a with
  | electionTimeout =>
    obtain rfl := Raft.act_electionTimeout hact
    exact .spawn hg.safe h trivial
  | startElection =>
    obtain rfl := Option.some.inj hact
    exact startElection_simulates hg h (of_decide_eq_true hvotes)
  | voteRequest args =>
    obtain rfl := Option.some.inj hact
    obtain ⟨hfits, hok⟩ := hpacket _ rfl
    exact voteRequest_simulates hg h (of_decide_eq_true hvotes) hok hfits
  | receiveVote vote =>
    obtain rfl := Option.some.inj hact
    obtain ⟨hfits, hok⟩ := hpacket _ rfl
    exact receiveVote_simulates hg h hok hfits
  | getLeaderData m =>
    obtain ⟨-, rfl⟩ := Raft.act_getLeaderData hact
    exact .spawn hg.safe h trivial
  | broadcast m =>
    obtain rfl := Option.some.inj hact
    obtain ⟨hrole, hfits, hlen⟩ := of_decide_eq_true hmatch
    exact broadcast_simulates hg h hrole hfits hlen
  | forward =>
    obtain rfl := Option.some.inj hact
    refine .quiet hg.safe ?_
    unfold Raft.forwardClearsLeader
    split
    · exact h.same ⟨rfl, rfl, rfl, rfl⟩ ⟨rfl, rfl, rfl⟩ rfl
    · exact h
  | replicate f =>
    obtain ⟨⟨hne, -⟩, rfl⟩ := Raft.act_replicate hact
    refine .spawn hg.safe h ?_
    split <;> exact hne.symm
  | replicateFailed f current =>
    obtain rfl := Option.some.inj hact
    refine .spawn hg.safe ?_ trivial
    split
    · exact h.same ⟨rfl, rfl, rfl, rfl⟩ ⟨rfl, rfl, rfl⟩ rfl
    · exact h
  | checkQuorumHealth =>
    obtain rfl := Option.some.inj hact
    refine .quiet hg.safe ?_
    rw [Raft.checkQuorumHealth, if_neg (of_decide_eq_true hvotes)]
    exact h
  | prepareLogRequestArgs f =>
    obtain rfl := Option.some.inj hact
    exact prepareLogRequest_simulates hg h (of_decide_eq_true hmatch) (hthread _ rfl)
  | logRequest args =>
    obtain rfl := Option.some.inj hact
    obtain ⟨hfits, hok⟩ := hpacket _ rfl
    exact logRequest_simulates hg h hok hfits
  | appendEntries args disk =>
    obtain ⟨⟨r', ds⟩, happ, rfl⟩ := Option.map_eq_some_iff.mp hact
    obtain ⟨hterm, hclean⟩ := of_decide_eq_true hmatch
    exact appendEntries_simulates hg h (hthread _ rfl) hterm hclean
      (fun hstrict ↦ of_decide_eq_true (hcommit hstrict)) happ
  | logReply args =>
    obtain rfl := Option.some.inj hact
    exact logReply_simulates hg h (hthread _ rfl)
  | replicateAnswered f req resp =>
    obtain rfl := Option.some.inj hact
    exact .quiet hg.safe (h.same ⟨rfl, rfl, rfl, rfl⟩ ⟨rfl, rfl, rfl⟩ rfl)
  | replicateResponse f req resp =>
    obtain ⟨hfits, hok⟩ := hpacket _ rfl
    exact replicateResponse_simulates hg h hok hfits
      (fun hstrict ↦ of_decide_eq_true (hcommit hstrict)) hact
  | sendInstallSnapshotRPC f =>
    obtain rfl := Option.some.inj hact
    exact .spawn hg.safe h
      (sendInstallSnapshotRPC_ok hg h (of_decide_eq_true hmatch) (hthread _ rfl))
  | openSnapshot t =>
    obtain ⟨bytes, -, rfl⟩ := Option.map_eq_some_iff.mp hact
    have htransfer : SnapshotFrom strict s i t.followerId t.currentTerm t.lastIndex t.lastTerm :=
      hthread _ rfl
    refine .spawn hg.safe h ?_
    exact { htransfer with }
  | readChunk t =>
    obtain rfl := Option.some.inj hact
    exact readChunk_simulates hg h (hthread _ rfl)
      fun hstrict ↦ of_decide_eq_true (hcommit hstrict)
  | snapshotReply t req resp =>
    obtain rfl := Option.some.inj hact
    obtain ⟨hfits, hok⟩ := hpacket _ rfl
    exact snapshotReply_simulates hg h (hthread _ rfl) hok hfits
  | finishTransfer t =>
    obtain rfl := Option.some.inj hact
    exact .quiet hg.safe
      (h.finishTransfer (hthread _ rfl) fun hstrict ↦ of_decide_eq_true (hcommit hstrict))
  | installSnapshot req disk =>
    obtain rfl := Option.some.inj hact
    obtain ⟨hfits, hok⟩ := hpacket _ rfl
    exact installSnapshot_simulates hg h hok hfits (of_decide_eq_true hmatch)
      (fun hstrict ↦ of_decide_eq_true (hcommit hstrict))
      (Raft.installSnapshot_outcome app disk r req)
  | deliver batch =>
    obtain ⟨d, rest, rfl, rfl⟩ := Raft.act_deliver hact
    have hok : ThreadOk strict s i (.deliver (d :: rest)) := hthread _ rfl
    refine .stay hg.safe (h.same ⟨rfl, rfl, rfl, rfl⟩ ⟨rfl, rfl, rfl⟩ rfl) ?_ (by simp) ?_
    · intro t ht
      obtain rfl := List.mem_singleton.mp (List.mem_ite_nil_left.mp ht).2
      exact fun hstrict x hx ↦ hok hstrict x (List.mem_cons_of_mem _ hx)
    · intro ev hev
      rw [List.mem_singleton.mp hev]
      exact fun hstrict ↦ hok hstrict d List.mem_cons_self

/-- In a run that meets the conditions the cluster implements the abstract protocol. -/
theorem refines_run {guard : Cluster n σ → Fin n × Action n → Prop} {c : Cluster n σ}
    (hmatch : ∀ c x, guard c x → VotesKept c x ∧ (c.raft x.1).matchKept x.2 = true)
    (hcommit : strict → ∀ c x, guard c x → (c.raft x.1).commitKept app x.1 x.2 = true)
    {snapshotThreshold : Int} {application : Fin n → σ}
    (hrun : Reaches (Cluster.step app) guard (Cluster.start n snapshotThreshold application) c) :
    ∃ s, Refines strict s c := by
  refine hrun.invariant (fun c ↦ ∃ s, Refines strict s c)
    ⟨State.start, refines_start snapshotThreshold application⟩ ?_
  rintro c ⟨i, a⟩ c' - ⟨s, hs⟩ hguard hstep
  obtain ⟨hthread, hpacket, e, hact, rfl⟩ := Cluster.step_cases hstep
  obtain ⟨hvotes, hkept⟩ := hmatch c (i, a) hguard
  refine hs.apply (packets_fit (Raft.act_election hact)) ?_
  exact act_simulates hs.ghost (hs.sound.nodes i) (fun t ht ↦ hs.sound.threads i t (hthread t ht))
    (fun p hp ↦ hs.sound.packets p (hpacket p hp)) hvotes hkept
    (fun hstrict ↦ hcommit hstrict c (i, a) hguard) hact

end DistributedCache
