import CollabEditor.Relay.Broker
/-!
# Relaying between pods

Any number of pods of which each has a room for the same document. Redis delivers a
published message to a subscriber at most once and may lose it.
-/

namespace CollabEditor.Relay

open Support.Execution SyncMsg Room List Function Option

abbrev Cluster (ι D : Type) := ι → Pod ι D

inductive ClusterAction (ι : Type)
  | addPeer (pod : ι) (p : Nat)
  | removePeer (pod : ι) (p : Nat)
  | clientSend (pod : ι) (p : Nat) (frame : List UInt8)
  | perform (pod : ι) (p now : Nat)
  | write (pod : ι) (p : Nat)
  | versionCreated (pod : ι) (payload : List UInt8)
  | brokerWrite (pod : ι) (receivers : List ι)
  | storePublish (pod : ι) (payload : List UInt8) (receivers : List ι)
  | brokerRead (pod : ι)

variable {ι D : Type}

/-- A message published by pod `source` reaches the subscriptions of `receivers`. -/
def fanOut [DecidableEq ι] (instanceID : ι → InstanceID) (c : Cluster ι D) (source : ι)
    (receivers : List ι) (data : List UInt8) : Cluster ι D := fun j =>
  if j ∈ receivers then
    (c j).subscriptionReceive (instanceID j) source (brokerMessage (instanceID source) data)
  else c j

/-- One step of the cluster. The broker peer stays in its room. -/
def clusterStep [DecidableEq ι] (engine : Engine D) (instanceID : ι → InstanceID)
    (c : Cluster ι D) : ClusterAction ι → Option (Cluster ι D)
  | .addPeer i p =>
    if (c i).room.HasPeer p then none
    else some (update c i { c i with room := (c i).room.addPeer p })
  | .removePeer i p =>
    if p ≠ brokerPeer ∧ (c i).pending p = [] then
      some (update c i { c i with room := (c i).room.removePeer p })
    else none
  | .clientSend i p frame =>
    if p ≠ brokerPeer ∧ (c i).room.HasPeer p ∧ (c i).pending p = [] then
      (messageSection engine (c i).room frame).map fun (room, effects) =>
        update c i { c i with
          room
          pending := update (c i).pending p effects
          clientFrames := (c i).clientFrames ++ [(p, frame)] }
    else none
  | .perform i p now =>
    match (c i).pending p with
    | [] => none
    | e :: rest => some (update c i ((c i).perform p now e rest))
  | .write i p =>
    if p ≠ brokerPeer then
      some (update c i { c i with room := (c i).room.writeNext p })
    else none
  | .versionCreated i payload =>
    some (update c i { c i with
      room := (c i).room.broadcastAll (0x03 :: payload)
      events := (c i).events ++ [0x03 :: payload] })
  | .brokerWrite i receivers =>
    match queueOf (c i).room brokerPeer with
    | [] => none
    | data :: _ =>
      some (fanOut instanceID
        (update c i { c i with
          room := (c i).room.writeNext brokerPeer
          published := (c i).published ++ [data] }) i receivers data)
  | .storePublish i payload receivers =>
    if payload ∈ (c i).room.appends then
      some (fanOut instanceID
        (update c i { c i with
          room := { (c i).room with appends := (c i).room.appends.erase payload }
          storePublished := (c i).storePublished ++ [payload] }) i receivers payload)
    else none
  | .brokerRead i =>
    match (c i).recvCh, (c i).pending brokerPeer with
    | (source, data) :: rest, [] =>
      (messageSection engine (c i).room data).map fun (room, effects) =>
        update c i { c i with
          room
          pending := update (c i).pending brokerPeer effects
          recvCh := rest
          delivered := (c i).delivered ++ [(source, data)] }
    | _, _ => none

/-! ## What a pod receives -/

/-- What pod `j` has received from pod `i`, handled or not, is what pod `i` has
published, each message once at most and none of its own. -/
structure ChannelInv [DecidableEq ι] (c : Cluster ι D) (i j : ι) : Prop where
  count : ∀ f, (c j).recvCh.count (i, f) + (c j).delivered.count (i, f) ≤
    (c i).published.count f + (c i).storePublished.count f
  own : i = j → ∀ f, (i, f) ∉ (c j).recvCh ∧ (i, f) ∉ (c j).delivered

structure ClusterInv [DecidableEq ι] (engine : Engine D) (c : Cluster ι D) : Prop where
  counts : ∀ i, PodCounts (c i)
  origins : ∀ i, PodOrigins engine (c i)
  channels : ∀ i j, ChannelInv c i j

lemma clusterInv_initial [DecidableEq ι] {engine : Engine D} (rooms : ι → Room D) :
    ClusterInv engine (fun i => .initial (rooms i) : Cluster ι D) where
  counts := fun i => podCounts_initial (rooms i)
  origins := fun i => podOrigins_initial (rooms i)
  channels := fun i j => ⟨by simp [Pod.initial], by simp [Pod.initial]⟩

variable [DecidableEq ι] {engine : Engine D} {c : Cluster ι D}

lemma ClusterInv.local (h : ClusterInv engine c) {i : ι} {new : Pod ι D}
    (hcounts : PodCounts new) (horigins : PodOrigins engine new)
    (hpublished : new.published = (c i).published)
    (hstore : new.storePublished = (c i).storePublished)
    (hmoved : ∀ m, new.recvCh.count m + new.delivered.count m =
      (c i).recvCh.count m + (c i).delivered.count m) : ClusterInv engine (update c i new) := by
  have hpub := (forall_update_iff c fun k pod => pod.published = (c k).published).2
    ⟨hpublished, fun _ _ => rfl⟩
  have hst := (forall_update_iff c fun k pod =>
    pod.storePublished = (c k).storePublished).2 ⟨hstore, fun _ _ => rfl⟩
  have hmv := (forall_update_iff c fun k pod => ∀ m, pod.recvCh.count m + pod.delivered.count m =
      (c k).recvCh.count m + (c k).delivered.count m).2 ⟨hmoved, fun _ _ _ => rfl⟩
  refine ⟨?_, ?_, ?_⟩
  · exact (forall_update_iff c fun _ => PodCounts).2 ⟨hcounts, fun k _ => h.counts k⟩
  · exact (forall_update_iff c fun _ => PodOrigins engine).2
      ⟨horigins, fun k _ => h.origins k⟩
  · intro k j
    have hold := h.channels k j
    refine ⟨?_, ?_⟩
    · intro f
      rw [hpub, hst, hmv]
      exact hold.count f
    · intro hkj f
      have hnone := hold.own hkj f
      have hzero := hmv j (k, f)
      rw [count_eq_zero.2 hnone.1, count_eq_zero.2 hnone.2] at hzero
      exact ⟨count_eq_zero.1 (by omega), count_eq_zero.1 (by omega)⟩

lemma fanOut_eq (instanceID : ι → InstanceID) (c : Cluster ι D) (i : ι) (receivers : List ι)
    (data : List UInt8) (j : ι) :
    ∃ recvCh, fanOut instanceID c i receivers data j = { c j with recvCh } ∧
      (recvCh = (c j).recvCh ∨ i ≠ j ∧ recvCh = (c j).recvCh ++ [(i, data)]) := by
  unfold fanOut
  split
  · obtain ⟨recvCh, heq, hch⟩ :=
      subscriptionReceive_eq (instanceID j) (instanceID i) (c j) i data
    exact ⟨recvCh, heq, hch.imp_right fun ⟨hne, hr⟩ => ⟨fun hij => hne (by rw [hij]), hr⟩⟩
  · exact ⟨_, rfl, .inl rfl⟩

lemma ClusterInv.publish (h : ClusterInv engine c) (instanceID : ι → InstanceID) {i : ι}
    {new : Pod ι D} {data : List UInt8} (receivers : List ι) (hcounts : PodCounts new)
    (horigins : PodOrigins engine new) (hrecvCh : new.recvCh = (c i).recvCh)
    (hdelivered : new.delivered = (c i).delivered)
    (hpublished : ∀ f, new.published.count f + new.storePublished.count f =
      (c i).published.count f + (c i).storePublished.count f + [data].count f) :
    ClusterInv engine (fanOut instanceID (update c i new) i receivers data) := by
  have hpods := fanOut_eq instanceID (update c i new) i receivers data
  have hrecv := (forall_update_iff c fun k pod => pod.recvCh = (c k).recvCh).2
    ⟨hrecvCh, fun _ _ => rfl⟩
  have hdel := (forall_update_iff c fun k pod => pod.delivered = (c k).delivered).2
    ⟨hdelivered, fun _ _ => rfl⟩
  have hpub : ∀ k f, (update c i new k).published.count f +
      (update c i new k).storePublished.count f =
        (c k).published.count f + (c k).storePublished.count f + [(i, data)].count (k, f) := by
    intro k f
    by_cases hk : k = i
    · subst hk
      rw [update_self, hpublished f]
      simp [count_cons]
    · rw [update_of_ne hk]
      simp [Ne.symm hk]
  refine ⟨?_, ?_, ?_⟩
  · intro j
    obtain ⟨recvCh, heq, -⟩ := hpods j
    rw [heq]
    exact { (forall_update_iff c fun _ => PodCounts).2
      ⟨hcounts, fun k _ => h.counts k⟩ j with }
  · intro j
    obtain ⟨recvCh, heq, -⟩ := hpods j
    rw [heq]
    exact { (forall_update_iff c fun _ => PodOrigins engine).2
      ⟨horigins, fun k _ => h.origins k⟩ j with }
  · intro k j
    obtain ⟨recvCh, heq, hch⟩ := hpods j
    obtain ⟨recvChk, heqk, -⟩ := hpods k
    rw [hrecv] at hch
    have hold := h.channels k j
    refine ⟨?_, ?_⟩
    · intro f
      have hcount := hold.count f
      rw [heq, heqk]
      simp only [hdel, hpub]
      rcases hch with rfl | ⟨-, rfl⟩
      · omega
      · rw [count_append]
        omega
    · intro hkj f
      obtain ⟨hnone, hdelv⟩ := hold.own hkj f
      rw [heq]
      simp only [hdel]
      refine ⟨?_, hdelv⟩
      rcases hch with rfl | ⟨hij, rfl⟩
      · exact hnone
      · have : k ≠ i := fun hki => hij (hki.symm.trans hkj)
        simp [hnone, this]

lemma ClusterInv.setRoom (h : ClusterInv engine c) (i : ι) {room : Room D}
    (hqueue : queueOf room brokerPeer = queueOf (c i).room brokerPeer)
    (happends : room.appends = (c i).room.appends) :
    ClusterInv engine (update c i { c i with room }) :=
  h.local ((h.counts i).setRoom hqueue happends) { h.origins i with } rfl rfl (fun _ => rfl)

lemma queueOf_of_peers_eq {r r' : Room D} (h : r'.peers = r.peers) (id : Nat) :
    queueOf r' id = queueOf r id := by
  rw [queueOf, h, queueOf]

lemma clusterInv_step {instanceID : ι → InstanceID} {t : Cluster ι D} {a : ClusterAction ι}
    (h : ClusterInv engine c) (hs : clusterStep engine instanceID c a = some t) :
    ClusterInv engine t := by
  cases a with
  | addPeer i p =>
    obtain ⟨-, ⟨⟩⟩ := ite_none_left_eq_some.1 hs
    exact h.setRoom i (queueOf_addPeer _ _ p) rfl
  | removePeer i p =>
    obtain ⟨hleaves, rfl⟩ := ite_some_none_eq_some.1 hs
    exact h.setRoom i (queueOf_removePeer _ hleaves.1) rfl
  | clientSend i p frame =>
    obtain ⟨hready, hs⟩ := ite_none_right_eq_some.1 hs
    obtain ⟨⟨room, effects⟩, hsection, rfl⟩ := map_eq_some_iff.1 hs
    obtain ⟨hpeers, happends, -⟩ := messageSection_room hsection
    refine h.local ?_ ?_ rfl rfl (fun _ => rfl)
    · exact (h.counts i).clientSend hready.2.2 (queueOf_of_peers_eq hpeers _) happends
        (messageSection_broadcast_count hsection)
    · refine (h.origins i).receive hsection ?_ (fun _ hf => hf) ?_
      · intro f hf
        rw [map_append]
        exact mem_append_left _ hf
      · exact .inl ⟨by simp, hready.1⟩
  | perform i p now =>
    simp only [clusterStep] at hs
    split at hs <;> cases hs
    rename_i e rest hpending
    exact h.local ((h.counts i).perform hpending) ((h.origins i).perform hpending) rfl rfl
      (fun _ => rfl)
  | write i p =>
    obtain ⟨hp, rfl⟩ := ite_some_none_eq_some.1 hs
    refine h.setRoom i ?_ rfl
    rw [queueOf_writeNext, if_neg hp]
  | versionCreated i payload =>
    cases hs
    exact h.local ((h.counts i).versionCreated _) { h.origins i with } rfl rfl (fun _ => rfl)
  | brokerWrite i receivers =>
    simp only [clusterStep] at hs
    split at hs <;> cases hs
    rename_i data rest hqueue
    refine h.publish instanceID receivers ((h.counts i).brokerWrite hqueue) { h.origins i with }
      rfl rfl fun f => ?_
    simp only [count_append]
    omega
  | storePublish i payload receivers =>
    obtain ⟨hmem, rfl⟩ := ite_some_none_eq_some.1 hs
    refine h.publish instanceID receivers ((h.counts i).storePublish hmem) { h.origins i with }
      rfl rfl fun f => ?_
    simp only [count_append]
    omega
  | brokerRead i =>
    simp only [clusterStep] at hs
    split at hs
    · rename_i source data rest hrecv hidle
      obtain ⟨⟨room, effects⟩, hsection, rfl⟩ := map_eq_some_iff.1 hs
      obtain ⟨hpeers, happends, -⟩ := messageSection_room hsection
      refine h.local ?_ ?_ rfl rfl ?_
      · exact (h.counts i).brokerRead (queueOf_of_peers_eq hpeers _) happends
      · refine (h.origins i).receive hsection (fun _ hf => hf) ?_ (.inr (by simp))
        intro f hf
        rw [map_append]
        exact mem_append_left _ hf
      · intro m
        simp only [hrecv, count_append, count_cons, count_nil]
        omega
    · cases hs

/-- What is delivered to pod `j` from pod `i`: never its own messages, and each byte string at most
as often as pod `i` got it from clients, announced it, handed it to its state store as the payload
of an Update, or replied it to a delivered message. -/
def DeliveriesAccounted (engine : Engine D) (c : Cluster ι D) : Prop :=
  ∀ i j, (∀ f, (c j).delivered.count (i, f) ≤
      ((c i).clientFrames.map Prod.snd).count f + (c i).events.count f +
        (c i).replies.count f + (c i).handed.count f) ∧
    (i = j → ∀ f, (i, f) ∉ (c j).delivered) ∧
    (∀ payload ∈ (c i).handed, (c i).HandledUpdate payload) ∧
    (∀ framed ∈ (c i).replies, (c i).AnsweredDelivery engine framed)

lemma ClusterInv.deliveriesAccounted (h : ClusterInv engine c) :
    DeliveriesAccounted engine c := by
  intro i j
  refine ⟨?_, fun hij f => ((h.channels i j).own hij f).2, (h.origins i).handed,
    (h.origins i).replies⟩
  intro f
  have hchannel := (h.channels i j).count f
  have hpublished := (h.counts i).published_count_le f
  omega

/-- The pod's state store has published nothing, and the pod has announced no version and replied to
nothing that came through the broker. -/
def Pod.FramesOnly (pod : Pod ι D) : Prop :=
  pod.storePublished = [] ∧ pod.events = [] ∧ pod.replies = []
  deriving Decidable

/-- In every run the deliveries are accounted for, and those from a pod of which this is so are
frames that clients sent to that pod, each at most as often as it was sent. -/
theorem deliveries_accounted (engine : Engine D) (instanceID : ι → InstanceID)
    (rooms : ι → Room D) {c : Cluster ι D}
    (hrun : Run (clusterStep engine instanceID) anyStep (fun i => Pod.initial (rooms i)) c) :
    DeliveriesAccounted engine c ∧ ∀ i, (c i).FramesOnly → ∀ j f,
      (c j).delivered.count (i, f) ≤ ((c i).clientFrames.map Prod.snd).count f := by
  have h : ClusterInv engine c :=
    hrun.invariant (clusterInv_initial rooms) fun _ _ _ h _ hs => clusterInv_step h hs
  refine ⟨h.deliveriesAccounted, fun i hframes j f => ?_⟩
  obtain ⟨hstore, hevents, hreplies⟩ := hframes
  have hchannel := (h.channels i j).count f
  have hqueue := (h.counts i).queue f
  have hclients := (h.counts i).broadcasts_count_le f
  rw [hstore, count_nil] at hchannel
  rw [hevents, hreplies, count_nil] at hqueue
  omega

def podID (i : Fin 2) : InstanceID :=
  ⟨replicate instanceIDLen (UInt8.ofNat i.val), length_replicate⟩

/-- A client of pod 0 inserts a character, and pod 1 gets the frame. -/
def relayedInsert : List (ClusterAction (Fin 2)) :=
  [.addPeer 0 1, .clientSend 0 1 insertFrame, .perform 0 1 0, .perform 0 1 0, .perform 0 1 0,
    .brokerWrite 0 [0, 1], .brokerRead 1, .perform 1 0 0, .perform 1 0 0, .perform 1 0 0]

theorem deliveries_accounted_relayedInsert :
    ∃ c, exec (clusterStep storedUpdates podID) anyStep (fun _ => Pod.initial emptyRoom)
        relayedInsert = some c ∧
      ((c 1).delivered = [(0, insertFrame)] ∧ (c 0).FramesOnly) ∧
      DeliveriesAccounted storedUpdates c ∧
      ∀ i, (c i).FramesOnly → ∀ j f,
        (c j).delivered.count (i, f) ≤ ((c i).clientFrames.map Prod.snd).count f :=
  exec_and (by decide +kernel) fun _ hrun =>
    deliveries_accounted storedUpdates podID (fun _ => emptyRoom) hrun

/-- The state store publishes the payload too, and no client sent it. -/
theorem bare_payload_delivered : ¬ ∀ c : Cluster (Fin 2) (List (List UInt8)),
      Run (clusterStep storedUpdates podID) anyStep (fun _ => Pod.initial emptyRoom) c →
        ∀ j, ∀ m ∈ (c j).delivered, ∃ i ≠ j, m.2 ∈ (c i).clientFrames.map Prod.snd :=
  not_forall_run (relayedInsert ++ [.storePublish 0 (insertFrame.drop 3) [0, 1], .brokerRead 1])
    (by decide +kernel)

end CollabEditor.Relay
