import CollabEditor.Relay.Room
import CollabEditor.Support.SharedText
/-!
# The text of a room

What `BootstrapContent` seeds a room's doc with, and the update that a frame of a client brings to
it.  `decode`, for the bytes of a Yjs update, is shared by the room's engine and the providers.
-/

namespace CollabEditor.Relay

open Support SharedText SyncMsg List

variable {K : Type}

def serverClientID : Nat := 1

def bootstrapContent (content : List K) : Doc K := ⟨serverClientID, content, []⟩

/-- No transport passes a longer message on: this is the limit of the gRPC library, that
of the WebSocket library is lower, and both are left as they are. -/
def readLimit : Nat := 4 * 2 ^ 20

def updateFrame (payload : List UInt8) : List UInt8 := msgTypeSync :: updateBody payload

/-- A frame with an update that a client gets through to the room. -/
def ClientFrame (frame : List UInt8) : Prop :=
  ∃ payload, frame = updateFrame payload ∧ frame.length ≤ readLimit

def frameUpdate (decode : List UInt8 → Option (Update K)) (frame : List UInt8) :
    Option (Update K) :=
  match readSyncSubMessage frame.tail with
  | .value (t, payload) => if t = msgUpdate then decode payload else none
  | .error _ => none
  | .panicked => none

def batchUpdates (decode : List UInt8 → Option (Update K)) (batch : List BufferedUpdate) :
    List (Update K) :=
  batch.filterMap fun u => frameUpdate decode u.data

lemma batchUpdates_cons (decode : List UInt8 → Option (Update K)) (u : BufferedUpdate)
    (batch : List BufferedUpdate) : batchUpdates decode (u :: batch) =
      (frameUpdate decode u.data).toList ++ batchUpdates decode batch := by
  rw [batchUpdates, batchUpdates, filterMap_cons]
  cases frameUpdate decode u.data <;> rfl

lemma length_payload_lt_of_readLimit {payload : List UInt8}
    (h : (updateFrame payload).length ≤ readLimit) : payload.length < readLimit := by
  simp only [updateFrame, updateBody, length_cons, length_append, readLimit] at h ⊢
  omega

lemma frameUpdate_updateFrame (decode : List UInt8 → Option (Update K)) {payload : List UInt8}
    (h : payload.length < readLimit) :
    frameUpdate decode (updateFrame payload) = decode payload := by
  have hread : readSyncSubMessage (updateBody payload) = .value (msgUpdate, payload) :=
    readSyncSubMessage_updateBody (by rw [readLimit] at h; omega)
  rw [frameUpdate, updateFrame, tail_cons, hread]
  exact if_pos rfl

instance (frame : List UInt8) : Decidable (ClientFrame frame) :=
  -- the only payload to try is the one the relay reads
  decidable_of_iff
    (∃ payload ∈ match readSyncSubMessage frame.tail with
      | .value (_, payload) => some payload
      | _ => none, frame = updateFrame payload ∧ frame.length ≤ readLimit) <| by
    constructor
    · rintro ⟨payload, -, h⟩
      exact ⟨payload, h⟩
    · rintro ⟨payload, rfl, hlen⟩
      have hlt := length_payload_lt_of_readLimit hlen
      have hread : readSyncSubMessage (updateBody payload) = .value (msgUpdate, payload) :=
        readSyncSubMessage_updateBody (by rw [readLimit] at hlt; omega)
      refine ⟨payload, ?_, rfl, hlen⟩
      rw [updateFrame, tail_cons, hread]
      rfl

/-- What a provider gets out of a frame is what the room's engine has applied, if the
provider finds the payload of every frame a client writes. -/
lemma bind_decode_of_clientFrame (decode : List UInt8 → Option (Update K))
    {extract : List UInt8 → Option (List UInt8)} (hextract : ∀ payload, payload.length < readLimit →
      extract (updateFrame payload) = some payload) {frame : List UInt8} (h : ClientFrame frame) :
    (extract frame).bind decode = frameUpdate decode frame := by
  obtain ⟨payload, rfl, hlen⟩ := h
  have hlt := length_payload_lt_of_readLimit hlen
  rw [hextract payload hlt, frameUpdate_updateFrame decode hlt, Option.bind_some]

/-! ### Typed characters -/

def typeA : List UInt8 :=
  [1, 1, 5, 0, 0x04, 1, 6, 0x73, 0x6f, 0x75, 0x72, 0x63, 0x65, 1, 0x61, 0]

def typeAB : List UInt8 := [1, 1, 5, 1, 0x84, 5, 0, 1, 0x62, 0]

def typeAfterSeed : List UInt8 := [1, 1, 5, 0, 0x84, 1, 0, 1, 0x62, 0]

def decodeTyped (payload : List UInt8) : Option (Update Nat) :=
  if payload = typeA then some ⟨[⟨5, 0, [], some 0x61⟩], []⟩
  else if payload = typeAB then some ⟨[⟨5, 1, [(5, 0)], some 0x62⟩], []⟩
  else if payload = typeAfterSeed then some ⟨[⟨5, 0, [(1, 0)], some 0x62⟩], []⟩
  else none

def typed (payload : List UInt8) : BufferedUpdate := ⟨1, updateFrame payload, 5, 0⟩

end CollabEditor.Relay
