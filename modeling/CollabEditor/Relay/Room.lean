import CollabEditor.Relay.Buffer
import CollabEditor.Relay.SyncMsg
/-!
# Room message handling

`internal/relay/room.go` and `peer.go`.  The CRDT engine is a parameter.  In `handleSyncMessage` the
engine call runs under `engMu`: `syncSection` is the part up to the unlock, and returns the effects
still to come.  Metrics and log lines are left out.
-/

namespace CollabEditor.Relay

open SyncMsg List

def msgTypeSync : UInt8 := 0x00

/-- The engine of one document, `yjsengine.Engine`, as a room uses it for sync
frames: the sub-type and the reply, or an error. -/
structure Engine (D : Type) where
  syncMessage : D → List UInt8 → D × Except String (UInt8 × List UInt8)

/-- A connected peer. `writeCh` is its queue, oldest frame first. -/
structure Peer where
  id : Nat
  writeCh : List (List UInt8)

def writeChCap : Nat := 256

/-- `Peer.Send`: non-blocking, drops the frame when the queue is full. -/
def Peer.send (p : Peer) (data : List UInt8) : Peer :=
  if p.writeCh.length < writeChCap then { p with writeCh := p.writeCh ++ [data] } else p

@[simp] lemma Peer.send_id (p : Peer) (data : List UInt8) : (p.send data).id = p.id := by
  unfold Peer.send
  split <;> rfl

lemma Peer.mem_send_of_mem (p : Peer) {frame data : List UInt8} (h : frame ∈ p.writeCh) :
    frame ∈ (p.send data).writeCh := by
  unfold Peer.send
  split
  · exact mem_append_left _ h
  · exact h

lemma Peer.mem_send (p : Peer) {data : List UInt8} (h : p.writeCh.length < writeChCap) :
    data ∈ (p.send data).writeCh := by
  rw [Peer.send, if_pos h]
  exact mem_concat_self

/-- A room. `flushSignaled` is the one slot of `flushCh`, and `appends` holds the
payloads handed to an append goroutine, in the order they were started. -/
structure Room (D : Type) where
  peers : List Peer
  doc : D
  dirty : Bool
  buffer : UpdateBuffer
  flushSignaled : Bool
  flushMaxBytes : Nat
  appends : List (List UInt8)

/-- What `handleSyncMessage` does after it has released `engMu`. -/
inductive Effect
  | reply (framed : List UInt8)
  | broadcast (frame : List UInt8)
  | buffer (frame : List UInt8)
  | append (payload : List UInt8)
  deriving DecidableEq

namespace Room

variable {D : Type}

def addPeer (r : Room D) (id : Nat) : Room D := { r with peers := r.peers ++ [⟨id, []⟩] }

def removePeer (r : Room D) (id : Nat) : Room D :=
  { r with peers := r.peers.filter fun p => p.id ≠ id }

def writeNext (r : Room D) (id : Nat) : Room D :=
  { r with peers := r.peers.map fun p =>
      if p.id = id then { p with writeCh := p.writeCh.tail } else p }

def sendTo (r : Room D) (id : Nat) (data : List UInt8) : Room D :=
  { r with peers := r.peers.map fun p => if p.id = id then p.send data else p }

def broadcast (r : Room D) (sender : Nat) (data : List UInt8) : Room D :=
  { r with peers := r.peers.map fun p => if p.id = sender then p else p.send data }

def broadcastAll (r : Room D) (data : List UInt8) : Room D :=
  { r with peers := r.peers.map fun p => p.send data }

/-- `buffer.Append(frame, 0)`, then the flush signal if the buffer has grown past
the limit. -/
def bufferUpdate (r : Room D) (frame : List UInt8) (now : Nat) : Room D :=
  let buffer := r.buffer.append frame 0 now
  { r with
    buffer
    flushSignaled := r.flushSignaled || decide (r.flushMaxBytes ≤ buffer.size) }

def replyEffects (reply : List UInt8) : List Effect :=
  if reply = [] then [] else [.reply (msgTypeSync :: reply)]

def updateEffects (frame payload : List UInt8) : List Effect :=
  [.broadcast frame, .buffer frame] ++ if payload = [] then [] else [.append payload]

/-- `handleSyncMessage` up to the release of `engMu`; `none` is a run-time panic.
When the engine fails, only an Update frame goes on, without a reply. -/
def syncSection (engine : Engine D) (r : Room D) (frame : List UInt8) :
    Option (Room D × List Effect) :=
  if frame.length < 2 then some (r, [])
  else
    let syncMsg := frame.tail
    match readSyncSubMessage syncMsg with
    | .panicked => none
    | .error _ => some (r, [])
    | .value (msgType, payload) =>
      let fanOut := if msgType = msgUpdate then updateEffects frame payload else []
      match engine.syncMessage r.doc syncMsg with
      | (doc, .error _) => some ({ r with doc }, fanOut)
      | (doc, .ok (engineMsgType, reply)) =>
        some ({ r with doc, dirty := r.dirty || decide (engineMsgType = msgUpdate) },
          replyEffects reply ++ fanOut)

def perform (sender now : Nat) (r : Room D) : Effect → Room D
  | .reply framed => r.sendTo sender framed
  | .broadcast frame => r.broadcast sender frame
  | .buffer frame => r.bufferUpdate frame now
  | .append payload => { r with appends := r.appends ++ [payload] }

def handleSyncMessage (engine : Engine D) (r : Room D) (sender now : Nat)
    (frame : List UInt8) : Option (Room D) :=
  (syncSection engine r frame).map fun (r, effects) => effects.foldl (perform sender now) r

/-- `handleMessage`. Awareness frames, application events and frames of unknown
type are all broadcast unchanged. -/
def handleMessage (engine : Engine D) (r : Room D) (sender now : Nat) (data : List UInt8) :
    Option (Room D) :=
  match data with
  | [] => some r
  | b :: _ =>
    if b = msgTypeSync then handleSyncMessage engine r sender now data
    else some (r.broadcast sender data)

/-- `handleMessage` up to the point where no lock is held any more. -/
def messageSection (engine : Engine D) (r : Room D) (data : List UInt8) :
    Option (Room D × List Effect) :=
  match data with
  | [] => some (r, [])
  | b :: _ => if b = msgTypeSync then syncSection engine r data else some (r, [.broadcast data])

lemma handleMessage_eq_messageSection (engine : Engine D) (r : Room D) (sender now : Nat)
    (data : List UInt8) : r.handleMessage engine sender now data =
      (messageSection engine r data).map fun (r, effects) =>
        effects.foldl (perform sender now) r := by
  unfold handleMessage messageSection
  cases data with
  | nil => rfl
  | cons b rest =>
    simp only
    split <;> rfl

variable {data : List UInt8} {effects : List Effect} {engine : Engine D} {r r' : Room D} {id : Nat}

section

variable (h : messageSection engine r data = some (r', effects))
include h

/-- What a section can do: ignore the data, pass it on unread, or call the engine. -/
lemma messageSection_cases : (r' = r ∧ (effects = [] ∨ effects = [.broadcast data])) ∨
      ∃ t payload, readSyncSubMessage data.tail = .value (t, payload) ∧
        ((∃ doc e, engine.syncMessage r.doc data.tail = (doc, .error e) ∧ r' = { r with doc } ∧
            effects = if t = msgUpdate then updateEffects data payload else []) ∨
          ∃ doc et reply, engine.syncMessage r.doc data.tail = (doc, .ok (et, reply)) ∧
            r' = { r with doc, dirty := r.dirty || decide (et = msgUpdate) } ∧
            effects = replyEffects reply ++
              if t = msgUpdate then updateEffects data payload else []) := by
  unfold messageSection syncSection at h
  split at h
  · obtain ⟨rfl, rfl⟩ := Prod.mk.inj (Option.some.inj h)
    exact .inl ⟨rfl, .inl rfl⟩
  · dsimp only at h
    split_ifs at h with hsync hshort
    · obtain ⟨rfl, rfl⟩ := Prod.mk.inj (Option.some.inj h)
      exact .inl ⟨rfl, .inl rfl⟩
    · split at h
      · cases h
      · obtain ⟨rfl, rfl⟩ := Prod.mk.inj (Option.some.inj h)
        exact .inl ⟨rfl, .inl rfl⟩
      · rename_i t payload hparse
        refine .inr ⟨t, payload, hparse, ?_⟩
        split at h
        · rename_i doc e hcall
          obtain ⟨rfl, rfl⟩ := Prod.mk.inj (Option.some.inj h)
          exact .inl ⟨doc, e, hcall, rfl, rfl⟩
        · rename_i doc et reply hcall
          obtain ⟨rfl, rfl⟩ := Prod.mk.inj (Option.some.inj h)
          exact .inr ⟨doc, et, reply, hcall, rfl, rfl⟩
    · obtain ⟨rfl, rfl⟩ := Prod.mk.inj (Option.some.inj h)
      exact .inl ⟨rfl, .inr rfl⟩

lemma messageSection_room : r'.peers = r.peers ∧ r'.appends = r.appends ∧
      (r'.doc = r.doc ∨ r'.doc = (engine.syncMessage r.doc data.tail).1) := by
  rcases messageSection_cases h with ⟨rfl, -⟩ |
    ⟨t, payload, -, ⟨doc, e, hcall, rfl, -⟩ | ⟨doc, et, reply, hcall, rfl, -⟩⟩
  · exact ⟨rfl, rfl, .inl rfl⟩
  · exact ⟨rfl, rfl, .inr (by rw [hcall])⟩
  · exact ⟨rfl, rfl, .inr (by rw [hcall])⟩

end

/-- Where an effect of the section on `data` comes from: the data is passed on as it is,
a payload that is appended is that of an Update, and a reply is the engine's. -/
def ArisesFrom (engine : Engine D) (doc : D) (data : List UInt8) : Effect → Prop
  | .broadcast frame => frame = data
  | .buffer frame => frame = data
  | .append payload => readSyncSubMessage data.tail = .value (msgUpdate, payload)
  | .reply framed => ∃ et reply, (engine.syncMessage doc data.tail).2 = .ok (et, reply) ∧
      framed = msgTypeSync :: reply

lemma arisesFrom_fanOut (engine : Engine D) (doc : D) {payload : List UInt8} {t : UInt8}
    (hparse : readSyncSubMessage data.tail = .value (t, payload)) :
    ∀ e ∈ (if t = msgUpdate then updateEffects data payload else []),
      ArisesFrom engine doc data e := by
  intro e he
  split_ifs at he with ht
  · subst ht
    unfold updateEffects at he
    simp only [mem_append, mem_cons, not_mem_nil, or_false] at he
    rcases he with (rfl | rfl) | he
    · rfl
    · rfl
    · split_ifs at he
      · cases he
      · rw [mem_singleton.1 he]
        exact hparse
  · cases he

section

variable (h : messageSection engine r data = some (r', effects))
include h

lemma messageSection_effects : ∀ e ∈ effects, ArisesFrom engine r.doc data e := by
  rcases messageSection_cases h with ⟨-, rfl | rfl⟩ |
    ⟨t, payload, hparse, ⟨doc, e, -, -, rfl⟩ | ⟨doc, et, reply, hcall, -, rfl⟩⟩
  · simp
  · simp [ArisesFrom]
  · exact arisesFrom_fanOut engine r.doc hparse
  · intro e he
    rcases mem_append.1 he with hreply | hrest
    · unfold replyEffects at hreply
      split_ifs at hreply
      · cases hreply
      · rw [mem_singleton.1 hreply]
        exact ⟨et, reply, by rw [hcall], rfl⟩
    · exact arisesFrom_fanOut engine r.doc hparse e hrest

lemma messageSection_broadcast_count (frame : List UInt8) :
    effects.count (.broadcast frame) ≤ [data].count frame := by
  have hcount : ∀ (t : UInt8) (payload : List UInt8),
      (if t = msgUpdate then updateEffects data payload else []).count (.broadcast frame) ≤
        [data].count frame := by
    intro t payload
    unfold updateEffects
    split_ifs <;> simp [count_cons]
  have hreply : ∀ reply, (replyEffects reply).count (.broadcast frame) = 0 := by
    intro reply
    unfold replyEffects
    split_ifs <;> simp
  rcases messageSection_cases h with ⟨-, rfl | rfl⟩ |
    ⟨t, payload, -, ⟨doc, e, -, -, rfl⟩ | ⟨doc, et, reply, -, -, rfl⟩⟩
  · simp
  · simp [count_cons]
  · exact hcount t payload
  · rw [count_append, hreply, Nat.zero_add]
    exact hcount t payload

end

@[simp] lemma foldl_perform_doc (sender now : Nat) (effects : List Effect) (r : Room D) :
    (effects.foldl (perform sender now) r).doc = r.doc := by
  induction effects generalizing r with
  | nil => rfl
  | cons e rest ih =>
    rw [foldl_cons, ih]
    cases e <;> rfl

lemma perform_peers_id (sender now : Nat) (r : Room D) (e : Effect) :
    (perform sender now r e).peers.map Peer.id = r.peers.map Peer.id := by
  cases e with
  | reply framed =>
    simp only [perform, sendTo, map_map]
    refine map_congr_left fun p _ => ?_
    simp only [Function.comp_apply]
    split
    · exact p.send_id framed
    · rfl
  | broadcast data =>
    simp only [perform, broadcast, map_map]
    refine map_congr_left fun p _ => ?_
    simp only [Function.comp_apply]
    split
    · rfl
    · exact p.send_id data
  | buffer data => rfl
  | append payload => rfl

lemma foldl_updateEffects_peers (sender now : Nat) (frame payload : List UInt8) (r : Room D) :
    ((updateEffects frame payload).foldl (perform sender now) r).peers =
      (r.broadcast sender frame).peers := by
  unfold updateEffects
  split <;> rfl

/-! ## Queues -/

def Queued (r : Room D) (id : Nat) (frame : List UInt8) : Prop :=
  ∃ p ∈ r.peers, p.id = id ∧ frame ∈ p.writeCh
  deriving Decidable

def QueuesHaveRoom (r : Room D) : Prop := ∀ p ∈ r.peers, p.writeCh.length < writeChCap
  deriving Decidable

def HasPeer (r : Room D) (id : Nat) : Prop := ∃ p ∈ r.peers, p.id = id
  deriving Decidable

lemma Queued.map {frame : List UInt8} {f : Peer → Peer} (h : r.Queued id frame)
    (hid : ∀ p, (f p).id = p.id) (hkeep : ∀ p, frame ∈ p.writeCh → frame ∈ (f p).writeCh) :
    Queued { r with peers := r.peers.map f } id frame := by
  obtain ⟨p, hp, rfl, hframe⟩ := h
  exact ⟨f p, mem_map_of_mem hp, hid p, hkeep p hframe⟩

lemma Queued.perform {frame : List UInt8} (h : r.Queued id frame) (sender now : Nat)
    (e : Effect) : (Room.perform sender now r e).Queued id frame := by
  cases e with
  | reply framed =>
    refine h.map (fun p => ?_) (fun p hp => ?_)
    · split
      · exact p.send_id framed
      · rfl
    · split
      · exact p.mem_send_of_mem hp
      · exact hp
  | broadcast data =>
    refine h.map (fun p => ?_) (fun p hp => ?_)
    · split
      · rfl
      · exact p.send_id data
    · split
      · exact hp
      · exact p.mem_send_of_mem hp
  | buffer data => exact h
  | append payload => exact h

lemma hasPeer_iff : r.HasPeer id ↔ id ∈ r.peers.map Peer.id := by
  simp only [HasPeer, mem_map]

lemma HasPeer.perform (h : r.HasPeer id) (sender now : Nat) (e : Effect) :
    (Room.perform sender now r e).HasPeer id := by
  rw [hasPeer_iff, perform_peers_id]
  exact hasPeer_iff.1 h

lemma queued_broadcast {sender : Nat} (hpeer : r.HasPeer id) (hroom : r.QueuesHaveRoom)
    (hne : id ≠ sender) (frame : List UInt8) : (r.broadcast sender frame).Queued id frame := by
  obtain ⟨p, hp, rfl⟩ := hpeer
  refine ⟨p.send frame, mem_map.2 ⟨p, hp, if_neg hne⟩, p.send_id frame, ?_⟩
  exact p.mem_send (hroom p hp)

lemma queued_sendTo (hpeer : r.HasPeer id) (hroom : r.QueuesHaveRoom) (frame : List UInt8) :
    (r.sendTo id frame).Queued id frame := by
  obtain ⟨p, hp, rfl⟩ := hpeer
  refine ⟨p.send frame, mem_map.2 ⟨p, hp, if_pos rfl⟩, p.send_id frame, ?_⟩
  exact p.mem_send (hroom p hp)

/-! ## Frames from a client -/

lemma handleMessage_sync_isSome (engine : Engine D) (r : Room D) (sender now : Nat)
    {body : List UInt8} (h : readSyncSubMessage body ≠ .panicked) :
    (r.handleMessage engine sender now (msgTypeSync :: body)).isSome := by
  simp only [handleMessage, if_true, handleSyncMessage, Option.isSome_map, syncSection, tail_cons]
  split
  · rfl
  · split
    · exact absurd ‹_› h
    · rfl
    · split <;> rfl

/-- A sync frame is handled as the parser's contract asks, by every room with any
engine and for any sender, exactly when the lengths its body declares stay in
the range of Go's `int`. -/
theorem sync_frame_safe_iff (body : List UInt8) :
    (ParsesSafely body ∧ ∀ (D : Type) (engine : Engine D) (r : Room D) (sender now : Nat),
        (r.handleMessage engine sender now (msgTypeSync :: body)).isSome) ↔
      LengthsInRange body := by
  rw [← parsesSafely_iff]
  refine and_iff_left_of_imp ?_
  intro hsafe D engine r sender now
  refine handleMessage_sync_isSome engine r sender now ?_
  intro hpanic
  rw [ParsesSafely, hpanic] at hsafe
  exact hsafe

/-- An Update whose length varuint is `2 ^ 63`: its twelve bytes make the handler
panic, whatever the engine. -/
theorem length_two_pow_63_panics :
    ¬ ParsesSafely [0x02, 0x80, 0x80, 0x80, 0x80, 0x80, 0x80, 0x80, 0x80, 0x80, 0x01] ∧
      ∀ (D : Type) (engine : Engine D) (r : Room D) (sender now : Nat),
        r.handleMessage engine sender now
          [0x00, 0x02, 0x80, 0x80, 0x80, 0x80, 0x80, 0x80, 0x80, 0x80, 0x80, 0x01] = none := by
  have hpanic : readSyncSubMessage
      [0x02, 0x80, 0x80, 0x80, 0x80, 0x80, 0x80, 0x80, 0x80, 0x80, 0x01] = .panicked := by
    decide +kernel
  constructor
  · rw [ParsesSafely, hpanic]
    exact not_false
  · intro D engine r sender now
    simp [handleMessage, msgTypeSync, handleSyncMessage, syncSection, hpanic]

end Room

end CollabEditor.Relay
