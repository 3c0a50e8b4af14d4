import CollabEditor.Relay.Join
import Mathlib.Data.List.Count
/-!
# The message broker and the pods it connects

`internal/relay/redis_broker.go`, `broker_conn.go` and the wiring of `cmd/relay/main.go`, for one
pod: how often it publishes a byte string, and where payloads and replies come from.
-/

namespace CollabEditor.Relay

open Support.Execution SyncMsg Room List Function Nat

/-! ## The message broker -/

def instanceIDLen : Nat := 16

abbrev InstanceID := { id : List UInt8 // id.length = instanceIDLen }

def brokerMessage (instanceID : InstanceID) (data : List UInt8) : List UInt8 :=
  instanceID.val ++ data

/-- What the goroutine of `Subscribe` forwards of a message: nothing if it is too short
or an echo of an own one. -/
def forwarded (instanceID : InstanceID) (raw : List UInt8) : Option (List UInt8) :=
  if raw.length ≤ instanceIDLen then none
  else if raw.take instanceIDLen = instanceID.val then none
  else some (raw.drop instanceIDLen)

lemma forwarded_brokerMessage {own other : InstanceID} {data payload : List UInt8}
    (h : forwarded own (brokerMessage other data) = some payload) :
    payload = data ∧ other ≠ own := by
  unfold forwarded brokerMessage at h
  split_ifs at h with hshort hown
  rw [take_left' other.property] at hown
  rw [drop_left' other.property] at h
  exact ⟨(Option.some.inj h).symm, fun heq => hown (congrArg Subtype.val heq)⟩

/-! ## Pods -/

def brokerPeer : Nat := 0

def recvChCap : Nat := 256

/-- A pod. `pending` holds what the handler of each peer has still to do; `recvCh` and `delivered`
give each message with the pod it came from. The fields after these record what the pod has handled
and sent. -/
structure Pod (ι D : Type) where
  room : Room D
  pending : Nat → List Effect
  recvCh : List (ι × List UInt8)
  delivered : List (ι × List UInt8)
  clientFrames : List (Nat × List UInt8)
  broadcasts : List (Nat × List UInt8)
  events : List (List UInt8)
  replies : List (List UInt8)
  handed : List (List UInt8)
  published : List (List UInt8)
  storePublished : List (List UInt8)

def Pod.initial {ι D : Type} (room : Room D) : Pod ι D :=
  ⟨{ room with peers := [⟨brokerPeer, []⟩], appends := [] }, fun _ => [], [], [], [], [], [], [],
    [], [], []⟩

variable {ι D : Type}

def queueOf (r : Room D) (id : Nat) : List (List UInt8) :=
  match r.peers.find? fun p => p.id = id with
  | some p => p.writeCh
  | none => []

namespace Pod

def perform (pod : Pod ι D) (p now : Nat) (e : Effect) (rest : List Effect) : Pod ι D :=
  { pod with
    room := Room.perform p now pod.room e
    pending := update pod.pending p rest
    broadcasts := match e with
      | .broadcast frame =>
        if p = brokerPeer then pod.broadcasts else pod.broadcasts ++ [(p, frame)]
      | _ => pod.broadcasts
    replies := match e with
      | .reply framed => if p = brokerPeer then pod.replies ++ [framed] else pod.replies
      | _ => pod.replies
    handed := match e with
      | .append payload => pod.handed ++ [payload]
      | _ => pod.handed }

/-- The subscription of a pod gets a message that pod `source` published. -/
def subscriptionReceive (instanceID : InstanceID) (pod : Pod ι D) (source : ι)
    (raw : List UInt8) : Pod ι D :=
  match forwarded instanceID raw with
  | some payload =>
    if pod.recvCh.length < recvChCap then
      { pod with recvCh := pod.recvCh ++ [(source, payload)] }
    else pod
  | none => pod

end Pod

/-! ## The broker peer's queue -/

lemma queueOf_map (r : Room D) (id : Nat) {g : Peer → Peer} (hid : ∀ p, (g p).id = p.id) :
    queueOf { r with peers := r.peers.map g } id =
      match r.peers.find? fun p => p.id = id with
      | some p => (g p).writeCh
      | none => [] := by
  have hcomp : (fun p : Peer => decide (p.id = id)) ∘ g = fun p => decide (p.id = id) := by
    funext p
    simp only [comp_apply, hid]
  simp only [queueOf, find?_map, hcomp]
  cases r.peers.find? fun p => p.id = id <;> rfl

lemma queueOf_map_count_le (r : Room D) (id : Nat) {g : Peer → Peer}
    (hid : ∀ p, (g p).id = p.id) {frame : List UInt8} {n : Nat}
    (h : ∀ p : Peer, p.id = id → (g p).writeCh.count frame ≤ p.writeCh.count frame + n) :
    (queueOf { r with peers := r.peers.map g } id).count frame ≤
      (queueOf r id).count frame + n := by
  rw [queueOf_map r id hid, queueOf]
  cases hfind : r.peers.find? fun p => p.id = id with
  | none => exact zero_le _
  | some p => exact h p (by simpa using find?_some hfind)

lemma send_count_le (p : Peer) (data frame : List UInt8) :
    (p.send data).writeCh.count frame ≤ p.writeCh.count frame + [data].count frame := by
  unfold Peer.send
  split
  · rw [count_append]
  · exact le_add_right _ _

lemma queueOf_broadcast_count_le (r : Room D) (id sender : Nat) (data frame : List UInt8) :
    (queueOf (r.broadcast sender data) id).count frame ≤ (queueOf r id).count frame +
      if sender = id then 0 else [data].count frame := by
  refine queueOf_map_count_le r id (fun p => ?_) (fun p hp => ?_)
  · split <;> simp
  · subst hp
    simp only [eq_comm]
    split
    · rfl
    · exact send_count_le p data frame

lemma queueOf_sendTo_count_le (r : Room D) (id sender : Nat) (data frame : List UInt8) :
    (queueOf (r.sendTo sender data) id).count frame ≤ (queueOf r id).count frame +
      if sender = id then [data].count frame else 0 := by
  refine queueOf_map_count_le r id (fun p => ?_) (fun p hp => ?_)
  · split <;> simp
  · subst hp
    simp only [eq_comm]
    split
    · exact send_count_le p data frame
    · rfl

lemma queueOf_broadcastAll_count_le (r : Room D) (id : Nat) (data frame : List UInt8) :
    (queueOf (r.broadcastAll data) id).count frame ≤
      (queueOf r id).count frame + [data].count frame :=
  queueOf_map_count_le r id (fun p => p.send_id data) (fun p _ => send_count_le p data frame)

lemma queueOf_addPeer (r : Room D) (id p : Nat) : queueOf (r.addPeer p) id = queueOf r id := by
  simp only [queueOf, Room.addPeer, find?_append]
  cases r.peers.find? fun q => q.id = id with
  | some q => rfl
  | none => by_cases hp : p = id <;> simp [hp]

lemma queueOf_removePeer (r : Room D) {id p : Nat} (hne : p ≠ id) :
    queueOf (r.removePeer p) id = queueOf r id := by
  have hfind : (r.peers.filter fun q => q.id ≠ p).find? (fun q => q.id = id) =
      r.peers.find? fun q => q.id = id := by
    rw [find?_filter]
    congr 1
    funext q
    by_cases hq : q.id = id
    · simp [hq, hne.symm]
    · simp [hq]
  simp only [queueOf, Room.removePeer, hfind]

lemma queueOf_writeNext (r : Room D) (id p : Nat) :
    queueOf (r.writeNext p) id = if p = id then (queueOf r id).tail else queueOf r id := by
  have hid : ∀ q : Peer,
      (if q.id = p then { q with writeCh := q.writeCh.tail } else q).id = q.id := by
    intro q
    split <;> rfl
  rw [Room.writeNext, queueOf_map r id hid, queueOf]
  cases hfind : r.peers.find? fun q => q.id = id with
  | none => simp
  | some q =>
    have hq : q.id = id := by simpa using find?_some hfind
    by_cases hp : p = id
    · simp [hq, hp]
    · rw [if_neg hp]
      simp only
      rw [if_neg (fun h => hp (h.symm.trans hq))]

/-! ## What a pod publishes -/

/-- How often each byte string can have been published: what is queued for the broker peer is a
broadcast, an event or a reply. -/
structure PodCounts (pod : Pod ι D) : Prop where
  clients : ∀ p ≠ brokerPeer, ∀ f,
    pod.broadcasts.count (p, f) + (pod.pending p).count (.broadcast f) ≤
      pod.clientFrames.count (p, f)
  own : ∀ f, pod.broadcasts.count (brokerPeer, f) = 0
  queue : ∀ f, (queueOf pod.room brokerPeer).count f + pod.published.count f ≤
    (pod.broadcasts.map Prod.snd).count f + pod.events.count f + pod.replies.count f
  store : ∀ f, pod.room.appends.count f + pod.storePublished.count f ≤ pod.handed.count f

lemma podCounts_initial (room : Room D) : PodCounts (.initial room : Pod ι D) where
  clients := by simp [Pod.initial]
  own := by simp [Pod.initial]
  queue := by simp [Pod.initial, queueOf]
  store := by simp [Pod.initial]

variable {pod : Pod ι D} {room : Room D} {effects rest : List Effect} {p now : Nat} {e : Effect}

section

variable (h : PodCounts pod)
include h

lemma PodCounts.setRoom (hqueue : queueOf room brokerPeer = queueOf pod.room brokerPeer)
    (happends : room.appends = pod.room.appends) : PodCounts { pod with room } :=
  { h with queue := hqueue ▸ h.queue, store := happends ▸ h.store }

lemma PodCounts.clientSend {frame : List UInt8} (hidle : pod.pending p = [])
    (hqueue : queueOf room brokerPeer = queueOf pod.room brokerPeer)
    (happends : room.appends = pod.room.appends)
    (heffects : ∀ f, effects.count (.broadcast f) ≤ [frame].count f) :
    PodCounts { pod with
      room
      pending := update pod.pending p effects
      clientFrames := pod.clientFrames ++ [(p, frame)] } := by
  refine { h.setRoom hqueue happends with clients := fun q hq f => ?_ }
  have hold := h.clients q hq f
  rw [count_append]
  by_cases hqp : q = p
  · subst hqp
    rw [hidle, count_nil] at hold
    have hnew := heffects f
    have hpair : [(q, frame)].count (q, f) = [frame].count f := by simp [count_cons]
    simp only [update_self, hpair]
    omega
  · simp only [update_of_ne hqp]
    omega

lemma PodCounts.brokerRead {recvCh delivered : List (ι × List UInt8)}
    (hqueue : queueOf room brokerPeer = queueOf pod.room brokerPeer)
    (happends : room.appends = pod.room.appends) :
    PodCounts { pod with
      room
      pending := update pod.pending brokerPeer effects
      recvCh
      delivered } := by
  refine { h.setRoom hqueue happends with clients := fun q hq f => ?_ }
  simp only [update_of_ne hq]
  exact h.clients q hq f

lemma PodCounts.versionCreated (msg : List UInt8) :
    PodCounts { pod with
      room := pod.room.broadcastAll msg
      events := pod.events ++ [msg] } := by
  refine { h with queue := fun f => ?_ }
  have hold := h.queue f
  have hadd := queueOf_broadcastAll_count_le pod.room brokerPeer msg f
  simp only [count_append]
  omega

lemma PodCounts.brokerWrite {data : List UInt8} {rest : List (List UInt8)}
    (hqueue : queueOf pod.room brokerPeer = data :: rest) :
    PodCounts { pod with
      room := pod.room.writeNext brokerPeer
      published := pod.published ++ [data] } := by
  refine { h with queue := fun f => ?_ }
  have hold := h.queue f
  rw [hqueue, count_cons] at hold
  simp only [queueOf_writeNext, if_true, hqueue, tail_cons, count_append, count_singleton]
  omega

lemma PodCounts.storePublish {payload : List UInt8} (hmem : payload ∈ pod.room.appends) :
    PodCounts { pod with
      room := { pod.room with appends := pod.room.appends.erase payload }
      storePublished := pod.storePublished ++ [payload] } := by
  refine { h with store := fun f => ?_ }
  have hold := h.store f
  have hpos := count_pos_iff.2 hmem
  simp only [count_append, count_singleton, count_erase]
  by_cases hf : payload = f
  · subst hf
    simp only [beq_self_eq_true, if_true]
    omega
  · simp only [beq_iff_eq, hf, if_false]
    omega

lemma PodCounts.setPending (hpending : pod.pending p = e :: rest) :
    PodCounts { pod with pending := update pod.pending p rest } := by
  refine { h with clients := fun q hq f => ?_ }
  have hold := h.clients q hq f
  by_cases hqp : q = p
  · subst hqp
    rw [hpending, count_cons] at hold
    simp only [update_self]
    omega
  · simpa only [update_of_ne hqp] using hold

lemma PodCounts.performBroadcast {frame : List UInt8}
    (hpending : pod.pending p = .broadcast frame :: rest) :
    PodCounts (pod.perform p now (.broadcast frame) rest) := by
  have hdone := h.setPending hpending
  by_cases hp : p = brokerPeer
  · refine ⟨?_, ?_, ?_, h.store⟩
    · simpa only [Pod.perform, if_pos hp] using hdone.clients
    · simpa only [Pod.perform, if_pos hp] using hdone.own
    · intro f
      have hold := h.queue f
      have hadd := queueOf_broadcast_count_le pod.room brokerPeer p frame f
      rw [if_pos hp] at hadd
      simp only [Pod.perform, Room.perform, if_pos hp]
      omega
  · refine ⟨?_, ?_, ?_, h.store⟩
    · intro q hq f
      have hold := h.clients q hq f
      simp only [Pod.perform, if_neg hp, count_append]
      by_cases hqp : q = p
      · subst hqp
        rw [hpending, count_cons] at hold
        have hpair : [(q, frame)].count (q, f) =
            if Effect.broadcast frame == .broadcast f then 1 else 0 := by
          simp [count_cons]
        simp only [update_self, hpair]
        omega
      · have hpair : [(p, frame)].count (q, f) = 0 := by
          simp [Ne.symm hqp]
        simp only [update_of_ne hqp, hpair]
        omega
    · intro f
      have hpair : [(p, frame)].count (brokerPeer, f) = 0 := by
        simp [hp]
      simp only [Pod.perform, if_neg hp, count_append, h.own f, hpair]
    · intro f
      have hold := h.queue f
      have hadd := queueOf_broadcast_count_le pod.room brokerPeer p frame f
      rw [if_neg hp] at hadd
      simp only [Pod.perform, Room.perform, if_neg hp, map_append, count_append,
        map_cons, map_nil]
      omega

lemma PodCounts.performReply {framed : List UInt8}
    (hpending : pod.pending p = .reply framed :: rest) :
    PodCounts (pod.perform p now (.reply framed) rest) := by
  refine { h.setPending hpending with queue := fun f => ?_ }
  have hold := h.queue f
  have hadd := queueOf_sendTo_count_le pod.room brokerPeer p framed f
  simp only [Pod.perform, Room.perform]
  split_ifs at hadd ⊢
  · rw [count_append]
    omega
  · omega

lemma PodCounts.performAppend {payload : List UInt8}
    (hpending : pod.pending p = .append payload :: rest) :
    PodCounts (pod.perform p now (.append payload) rest) := by
  refine { h.setPending hpending with store := fun f => ?_ }
  have hold := h.store f
  simp only [Pod.perform, Room.perform, count_append]
  omega

lemma PodCounts.perform (hpending : pod.pending p = e :: rest) :
    PodCounts (pod.perform p now e rest) := by
  cases e with
  | broadcast frame => exact h.performBroadcast hpending
  | reply framed => exact h.performReply hpending
  | append payload => exact h.performAppend hpending
  | buffer frame => exact { h.setPending hpending with }

lemma PodCounts.broadcasts_count_le (f : List UInt8) :
    (pod.broadcasts.map Prod.snd).count f ≤ (pod.clientFrames.map Prod.snd).count f := by
  have hsub : List.Subperm pod.broadcasts pod.clientFrames := by
    refine subperm_ext_iff.2 fun x _ => ?_
    obtain ⟨p, frame⟩ := x
    by_cases hp : p = brokerPeer
    · rw [hp, h.own frame]
      exact zero_le _
    · exact le_trans (le_add_right _ _) (h.clients p hp frame)
  simp only [count_eq_countP, countP_map]
  exact hsub.countP_le _

lemma PodCounts.published_count_le (f : List UInt8) :
    pod.published.count f + pod.storePublished.count f ≤
      (pod.clientFrames.map Prod.snd).count f + pod.events.count f + pod.replies.count f +
        pod.handed.count f := by
  have hqueue := h.queue f
  have hstore := h.store f
  have hclients := h.broadcasts_count_le f
  omega

end

/-! ## Where payloads and replies come from -/

def Pod.HandledUpdate (pod : Pod ι D) (payload : List UInt8) : Prop :=
  ∃ frame, (frame ∈ pod.clientFrames.map Prod.snd ∨ frame ∈ pod.delivered.map Prod.snd) ∧
    readSyncSubMessage frame.tail = .value (msgUpdate, payload)

def Pod.AnsweredDelivery (engine : Engine D) (pod : Pod ι D) (framed : List UInt8) : Prop :=
  ∃ data ∈ pod.delivered.map Prod.snd, ∃ doc et reply,
    (engine.syncMessage doc data.tail).2 = .ok (et, reply) ∧ framed = msgTypeSync :: reply

def Pod.Accounted (engine : Engine D) (pod : Pod ι D) (p : Nat) : Effect → Prop
  | .append payload => pod.HandledUpdate payload
  | .reply framed => p = brokerPeer → pod.AnsweredDelivery engine framed
  | _ => True

structure PodOrigins (engine : Engine D) (pod : Pod ι D) : Prop where
  pending : ∀ p, ∀ e ∈ pod.pending p, pod.Accounted engine p e
  handed : ∀ payload ∈ pod.handed, pod.HandledUpdate payload
  replies : ∀ framed ∈ pod.replies, pod.AnsweredDelivery engine framed

variable {engine : Engine D}

lemma podOrigins_initial (room : Room D) : PodOrigins engine (.initial room : Pod ι D) where
  pending := by simp [Pod.initial]
  handed := by simp [Pod.initial]
  replies := by simp [Pod.initial]

lemma PodOrigins.perform (h : PodOrigins engine pod) (hpending : pod.pending p = e :: rest) :
    PodOrigins engine (pod.perform p now e rest) := by
  have he : pod.Accounted engine p e := h.pending p e (hpending ▸ mem_cons_self)
  refine ⟨?_, ?_, ?_⟩
  · intro q e' he'
    refine h.pending q e' ?_
    by_cases hq : q = p
    · subst hq
      rw [hpending]
      simp only [Pod.perform, update_self] at he'
      exact mem_cons_of_mem _ he'
    · simpa only [Pod.perform, update_of_ne hq] using he'
  · intro payload hmem
    cases e with
    | append new =>
      rcases mem_snoc.1 hmem with hold | rfl
      · exact h.handed payload hold
      · exact he
    | reply | broadcast | buffer => exact h.handed payload hmem
  · intro framed hmem
    cases e with
    | reply new =>
      simp only [Pod.perform] at hmem
      split_ifs at hmem with hp
      · rcases mem_snoc.1 hmem with hold | rfl
        · exact h.replies framed hold
        · exact he hp
      · exact h.replies framed hmem
    | append | broadcast | buffer => exact h.replies framed hmem

lemma Pod.HandledUpdate.mono {new : Pod ι D} {payload : List UInt8} (h : pod.HandledUpdate payload)
    (hclients : ∀ f ∈ pod.clientFrames.map Prod.snd, f ∈ new.clientFrames.map Prod.snd)
    (hdelivered : ∀ f ∈ pod.delivered.map Prod.snd, f ∈ new.delivered.map Prod.snd) :
    new.HandledUpdate payload :=
  h.imp fun frame hframe => ⟨hframe.1.imp (hclients frame) (hdelivered frame), hframe.2⟩

lemma Pod.AnsweredDelivery.mono {new : Pod ι D} {framed : List UInt8}
    (h : pod.AnsweredDelivery engine framed)
    (hdelivered : ∀ f ∈ pod.delivered.map Prod.snd, f ∈ new.delivered.map Prod.snd) :
    new.AnsweredDelivery engine framed :=
  h.imp fun frame hframe => ⟨hdelivered frame hframe.1, hframe.2⟩

/-- A handler starts on `data`, which is recorded among the frames of clients or the
messages delivered. -/
lemma PodOrigins.receive (h : PodOrigins engine pod) {data : List UInt8}
    {clientFrames : List (Nat × List UInt8)} {recvCh delivered : List (ι × List UInt8)}
    (hsection : messageSection engine pod.room data = some (room, effects))
    (hclients : ∀ f ∈ pod.clientFrames.map Prod.snd, f ∈ clientFrames.map Prod.snd)
    (hdelivered : ∀ f ∈ pod.delivered.map Prod.snd, f ∈ delivered.map Prod.snd)
    (hdata : data ∈ clientFrames.map Prod.snd ∧ p ≠ brokerPeer ∨
      data ∈ delivered.map Prod.snd) :
    PodOrigins engine { pod with
      room
      pending := update pod.pending p effects
      recvCh
      clientFrames
      delivered } := by
  refine ⟨?_, fun payload hmem => (h.handed payload hmem).mono hclients hdelivered,
    fun framed hmem => (h.replies framed hmem).mono hdelivered⟩
  intro q e he
  by_cases hq : q = p
  · subst hq
    simp only [update_self] at he
    have harises := messageSection_effects hsection e he
    cases e with
    | append payload => exact ⟨data, hdata.imp_left And.left, harises⟩
    | reply framed =>
      intro hbroker
      rcases hdata with hclient | hdeliv
      · exact absurd hbroker hclient.2
      · obtain ⟨et, reply, hcall, rfl⟩ := harises
        exact ⟨data, hdeliv, pod.room.doc, et, reply, hcall, rfl⟩
    | broadcast | buffer => trivial
  · simp only [update_of_ne hq] at he
    have hold := h.pending q e he
    cases e with
    | append payload => exact Pod.HandledUpdate.mono hold hclients hdelivered
    | reply framed => exact fun hbroker => (hold hbroker).mono hdelivered
    | broadcast | buffer => trivial

lemma subscriptionReceive_eq (own other : InstanceID) (pod : Pod ι D) (source : ι)
    (data : List UInt8) :
    ∃ recvCh, pod.subscriptionReceive own source (brokerMessage other data) = { pod with recvCh } ∧
      (recvCh = pod.recvCh ∨ other ≠ own ∧ recvCh = pod.recvCh ++ [(source, data)]) := by
  unfold Pod.subscriptionReceive
  split
  · rename_i payload hforward
    obtain ⟨rfl, hne⟩ := forwarded_brokerMessage hforward
    split
    · exact ⟨_, rfl, .inr ⟨hne, rfl⟩⟩
    · exact ⟨_, rfl, .inl rfl⟩
  · exact ⟨_, rfl, .inl rfl⟩

end CollabEditor.Relay
