import DistributedCache.Client.SmartClient
import DistributedCache.DataNode.Serve

/-!
# What an answer of 200 says to the client

`SmartClient` sends a write to the primary of its own configuration, with the epoch of that
configuration.  The node compares the epochs as numbers, and takes the request when its own is not
larger; whether it is the primary, and which replicas get the write, it looks up in its own
configuration, at two later moments.  So a node that is behind the client may leave replicas of the
client's configuration out, and so may one that gets a new configuration in between.
-/

namespace DistributedCache

open FiniteMap

/-! ## A node whose configuration changes while it handles a write -/

/-- The configurations in the `StateManager` when a handler reads it. -/
structure ConfigReads where
  /-- For the comparison of the epochs. -/
  epoch : ClusterConfig
  /-- For `checkShard`. -/
  shard : ClusterConfig
  /-- For `GetReplicaURLs`. -/
  replicas : ClusterConfig

/-- `HandlePut` and `HandleDelete` with a configuration for each of their reads. -/
def serveReading (nodes : String → DataNode) (address : String) (reads : ConfigReads) (now : Nat)
    (req : DataRequest) (outcome : Nat → Outcome) : Reply × (String → DataNode) :=
  match { nodes address with config := reads.epoch }.accept now (some req) with
  | .error reply => (reply, nodes)
  | .ok req =>
    match { nodes address with config := reads.shard }.checkShard req.key with
    | .error reply => (reply, nodes)
    | .ok shardID =>
      answerWrite address req (replicateAll req nodes
        (replicaCalls outcome (reads.replicas.getReplicaURLs shardID)))

/-- The handler of a node that keeps its configuration. -/
theorem serveReading_same (nodes : String → DataNode) (address : String) (now : Nat)
    (req : DataRequest) (outcome : Nat → Outcome) :
    serveReading nodes address
        ⟨(nodes address).config, (nodes address).config, (nodes address).config⟩ now req outcome =
      serveWrite nodes address now (some req) outcome := rfl

/-- The requests to replicas that the handler sends when it gets that far. -/
def ConfigReads.calls (reads : ConfigReads) (key : String) (outcome : Nat → Outcome) :
    List ReplicaCall :=
  replicaCalls outcome (reads.replicas.getReplicaURLs (reads.shard.shardOf key))

section Served

variable {nodes : String → DataNode} {address : String} {reads : ConfigReads} {now shardID : Nat}
  {req : DataRequest} {outcome : Nat → Outcome}

theorem DataNode.accept_of_le {node : DataNode} (hactive : node.isActive now = true)
    (hepoch : node.config.epoch ≤ req.epoch) : node.accept now (some req) = .ok req := by
  simp [DataNode.accept, hactive, Nat.not_lt.mpr hepoch]

theorem serveReading_admitted (hactive : (nodes address).isActive now = true)
    (hepoch : reads.epoch.epoch ≤ req.epoch)
    (hshard : { nodes address with config := reads.shard }.checkShard req.key = .ok shardID) :
    serveReading nodes address reads now req outcome =
      answerWrite address req (replicateAll req nodes (reads.calls req.key outcome)) := by
  have haccept : { nodes address with config := reads.epoch }.accept now (some req) = .ok req :=
    DataNode.accept_of_le hactive hepoch
  unfold serveReading ConfigReads.calls
  simp only [haccept, hshard, DataNode.checkShard_ok hshard]

/-- When the answer is 200. -/
theorem serveReading_ok_iff :
    (serveReading nodes address reads now req outcome).1.status = .ok ↔
      (nodes address).isActive now = true ∧ reads.epoch.epoch ≤ req.epoch ∧
      (∃ shardID, { nodes address with config := reads.shard }.checkShard req.key = .ok shardID) ∧
      ∀ call ∈ reads.calls req.key outcome, call.Acks nodes req := by
  constructor
  · intro hok
    have hadmitted := hok
    unfold serveReading at hadmitted
    cases haccept : { nodes address with config := reads.epoch }.accept now (some req) with
    | error reply =>
      rw [haccept] at hadmitted
      exact absurd hadmitted (DataNode.accept_error_status haccept)
    | ok req' =>
      obtain ⟨hactive, hsame, hepoch⟩ := DataNode.accept_ok haccept
      cases hsame
      rw [haccept] at hadmitted
      simp only at hadmitted
      cases hshard : { nodes address with config := reads.shard }.checkShard req.key with
      | error reply =>
        rw [hshard] at hadmitted
        exact absurd hadmitted (DataNode.checkShard_error_status hshard)
      | ok shardID =>
        refine ⟨hactive, hepoch, ⟨shardID, rfl⟩, fst_replicateAll.mp ?_⟩
        rw [serveReading_admitted hactive hepoch hshard, answerWrite] at hok
        by_contra hall
        rw [if_neg hall] at hok
        cases hok
  · rintro ⟨hactive, hepoch, ⟨shardID, hshard⟩, hall⟩
    rw [serveReading_admitted hactive hepoch hshard, answerWrite,
      if_pos (fst_replicateAll.mpr hall)]
    rfl

/-- A replica that has confirmed the write holds it afterwards. -/
theorem held_serveReading {call : ReplicaCall}
    (hok : (serveReading nodes address reads now req outcome).1.status = .ok)
    (hcall : call ∈ reads.calls req.key outcome) :
    held (serveReading nodes address reads now req outcome).2 call.url req.key = req.effect := by
  obtain ⟨hactive, hepoch, ⟨shardID, hshard⟩, hall⟩ := serveReading_ok_iff.mp hok
  have hacks := hall call hcall
  have htried : Tried nodes req (reads.calls req.key outcome) call := by
    obtain ⟨before, after, hsplit⟩ := List.append_of_mem hcall
    exact ⟨before, after, hsplit, fun c hc ↦ hall c (hsplit ▸ List.mem_append_left _ hc)⟩
  have htakes : call.Takes nodes req := ⟨by rw [hacks.1]; decide, hacks.2⟩
  rw [serveReading_admitted hactive hepoch hshard, answerWrite, if_pos (fst_replicateAll.mpr hall)]
  simp only
  rw [held_update_store, held_replicateAll_of_tried htried htakes, ite_self]

end Served

/-! ## The client's configuration -/

theorem SmartClient.epoch_of_route {c : SmartClient} {client : ClusterConfig} {key : String}
    {target : RouteResult} (hclient : c.config = some client) (h : c.route key = .ok target) :
    target.epoch = client.epoch := by
  unfold SmartClient.route at h
  rw [hclient] at h
  simp only at h
  repeat' split at h
  all_goals cases h
  rfl

/-- The shard of the key as the client's configuration has it; `Route` has found it. -/
def ClusterConfig.shardFor (client : ClusterConfig) (key : String) : Option ShardMetadata :=
  client.shards.lookup (client.shardOf key)

/-- The node is the primary of the client's configuration, and each of the replicas that this lists
has confirmed the write and holds it. -/
structure ReachesListed (client : ClusterConfig) (nodes : String → DataNode) (address : String)
    (req : DataRequest) (calls : List ReplicaCall) (nodes' : String → DataNode) : Prop where
  primary : ∀ shard ∈ client.shardFor req.key, (nodes address).nodeID = shard.primaryID
  replicas : ∀ shard ∈ client.shardFor req.key, ∀ r ∈ shard.replicaIDs, ∃ call ∈ calls,
    (nodes call.url).nodeID = r ∧ call.Acks nodes req ∧
      held nodes' call.url req.key = req.effect

/-- The condition under which the answer means what the client takes it for.  If the node has a
lease and at first no newer configuration than the client, then finds itself the primary of a shard
that is open, and all the replicas that it finds at last confirm the write: it is the primary of the
client's configuration, and the replicas of that are among those it has found. -/
def CoversListed (client : ClusterConfig) (nodes : String → DataNode) (address : String)
    (reads : ConfigReads) (now : Nat) (key : String) (outcome : Nat → Outcome) : Prop :=
  (nodes address).isActive now = true → reads.epoch.epoch ≤ client.epoch →
    (∃ shardID, { nodes address with config := reads.shard }.checkShard key = .ok shardID) →
      (∀ call ∈ reads.calls key outcome,
        call.outcome = .answered ∧ (nodes call.url).config.epoch ≤ client.epoch) →
      ∀ shard ∈ client.shardFor key, (nodes address).nodeID = shard.primaryID ∧
        ∀ r ∈ shard.replicaIDs, ∃ call ∈ reads.calls key outcome, (nodes call.url).nodeID = r

/-- A write that `Route` sends with the client's epoch, and any configurations at the node: an
answer of 200 means that it comes from the primary and after all replicas of the client's
configuration exactly under the condition. -/
theorem acknowledged_reaches_replicas_iff (nodes : String → DataNode) (reads : ConfigReads)
    (now : Nat) (req : DataRequest) (outcome : Nat → Outcome) {c : SmartClient}
    {client : ClusterConfig} {target : RouteResult} (hclient : c.config = some client)
    (hroute : c.route req.key = .ok target) (hepoch : req.epoch = target.epoch) :
    ((serveReading nodes target.address reads now req outcome).1.status = .ok →
      ReachesListed client nodes target.address req (reads.calls req.key outcome)
        (serveReading nodes target.address reads now req outcome).2) ↔
      CoversListed client nodes target.address reads now req.key outcome := by
  have hclientEpoch : req.epoch = client.epoch :=
    hepoch.trans (SmartClient.epoch_of_route hclient hroute)
  unfold CoversListed
  constructor
  · intro h hactive hcurrent hadmitted hconfirm shard hshard
    have hok : (serveReading nodes target.address reads now req outcome).1.status = .ok :=
      serveReading_ok_iff.mpr ⟨hactive, hclientEpoch ▸ hcurrent, hadmitted, fun call hcall ↦
        ⟨(hconfirm call hcall).1, hclientEpoch ▸ (hconfirm call hcall).2⟩⟩
    refine ⟨(h hok).primary shard hshard, fun r hr ↦ ?_⟩
    obtain ⟨call, hcall, hname, -⟩ := (h hok).replicas shard hshard r hr
    exact ⟨call, hcall, hname⟩
  · intro h hok
    obtain ⟨hactive, hcurrent, hadmitted, hall⟩ := serveReading_ok_iff.mp hok
    have hlisted := h hactive (hclientEpoch ▸ hcurrent) hadmitted
      fun call hcall ↦ ⟨(hall call hcall).1, hclientEpoch ▸ (hall call hcall).2⟩
    refine ⟨fun shard hshard ↦ (hlisted shard hshard).1, fun shard hshard r hr ↦ ?_⟩
    obtain ⟨call, hcall, hname⟩ := (hlisted shard hshard).2 r hr
    exact ⟨call, hcall, hname, hall call hcall, held_serveReading hok hcall⟩

/-- One shard, with node `a` as its primary. -/
def sampleOneShard (epoch : Nat) (replicaIDs : List String) : ClusterConfig where
  epoch := epoch
  totalShards := 1
  nodes := (Finmap.singleton "a" ⟨"a", "a", .active, 0⟩).insert "b" ⟨"b", "b", .active, 0⟩
  shards := Finmap.singleton 0 ⟨0, "a", replicaIDs, .active⟩

/-- The nodes have the configuration and a lease until 10. -/
def sampleServers (config : ClusterConfig) : String → DataNode := fun address ↦
  { DataNode.newServer address 10 with config := config, validUntil := 10 }

/-- Every read of the node finds the same configuration. -/
def sampleReads (config : ClusterConfig) : ConfigReads := ⟨config, config, config⟩

/-- Node and client have the same configuration, and the replica gets the write. -/
theorem acknowledged_reaches_replicas_same :
    ReachesListed (sampleOneShard 2 ["b"]) (sampleServers (sampleOneShard 2 ["b"])) "a"
      (.put ⟨"k", "v", 2⟩)
      ((sampleReads (sampleOneShard 2 ["b"])).calls "k" fun _ ↦ .answered)
      (serveReading (sampleServers (sampleOneShard 2 ["b"])) "a"
        (sampleReads (sampleOneShard 2 ["b"])) 5 (.put ⟨"k", "v", 2⟩) fun _ ↦ .answered).2 := by
  have hroute : SmartClient.route ⟨some (sampleOneShard 2 ["b"]), 5⟩
      (DataRequest.put ⟨"k", "v", 2⟩).key = .ok ⟨"a", 2, 0⟩ := by decide +kernel
  refine (acknowledged_reaches_replicas_iff (sampleServers (sampleOneShard 2 ["b"]))
    (sampleReads (sampleOneShard 2 ["b"])) 5 (.put ⟨"k", "v", 2⟩) (fun _ ↦ .answered) rfl hroute
    rfl).mpr (fun _ _ _ _ ↦ ?_) (by decide +kernel)
  decide +kernel

/-- The node has an older configuration, in which the shard has no replicas.  It takes the write of
a client that knows the replica, and answers 200; the replica has nothing.  The same happens when a
configuration without the replica arrives after the comparison of the epochs. -/
theorem acknowledged_by_older_node :
    SmartClient.route ⟨some (sampleOneShard 2 ["b"]), 5⟩ "k" = .ok ⟨"a", 2, 0⟩ ∧
    ∀ reads ∈ [sampleReads (sampleOneShard 1 []),
        ⟨sampleOneShard 2 ["b"], sampleOneShard 3 [], sampleOneShard 3 []⟩],
      (serveReading (sampleServers (sampleOneShard 1 [])) "a" reads 5 (.put ⟨"k", "v", 2⟩)
          fun _ ↦ .answered).1 = DataNode.written ∧
      held (serveReading (sampleServers (sampleOneShard 1 [])) "a" reads 5 (.put ⟨"k", "v", 2⟩)
          fun _ ↦ .answered).2 "b" "k" = none := by
  decide +kernel

end DistributedCache
