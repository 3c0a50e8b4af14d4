import CollabEditor.Relay.RoomText
/-!
# The Go provider SDK

`pkg/spi/processor.go` with `ReadSyncMessage` of `third_party/ygo`.  `ResolveStore` applies a
request to a cached engine, which starts empty, and puts the engine's text into the request.
-/

namespace CollabEditor.Spi

open Support SharedText CausalOps CollabEditor.Relay SyncMsg List VarUint

variable {K : Type}

/-! ## `ReadSyncMessage` of ygo -/

inductive DecodeError
  | unexpectedEOF
  | overflow

inductive YsyncError
  | unexpectedEOF
  | unknownMessage

namespace Decoder

def readVarUintLoop : List UInt8 → UInt64 → Nat → Except DecodeError (UInt64 × List UInt8)
  | [], _, _ => .error .unexpectedEOF
  | b :: rest, result, shift =>
    let result := result ||| ((b &&& 0x7f).toUInt64 <<< UInt64.ofNat shift)
    if b &&& 0x80 = 0 then .ok (result, rest)
    else if shift + 7 > 49 then .error .overflow
    else readVarUintLoop rest result (shift + 7)

def readVarUint (buf : List UInt8) : Except DecodeError (UInt64 × List UInt8) :=
  readVarUintLoop buf 0 0

def maxStringBytes : Nat := 16 * 2 ^ 20

def readVarBytes (buf : List UInt8) : Except DecodeError (List UInt8 × List UInt8) :=
  match readVarUint buf with
  | .error e => .error e
  | .ok (n, rest) =>
    if n.toNat > maxStringBytes then .error .overflow
    else if n.toNat > rest.length then .error .unexpectedEOF
    else .ok (rest.take n.toNat, rest.drop n.toNat)

end Decoder

/-- `ReadSyncMessage`; every error of the decoder becomes `ErrUnexpectedEOF`. -/
def readSyncMessage (msg : List UInt8) : Except YsyncError (UInt64 × List UInt8) :=
  match Decoder.readVarUint msg with
  | .error _ => .error .unexpectedEOF
  | .ok (t, rest) =>
    if t = msgSyncStep1.toUInt64 ∨ t = msgSyncStep2.toUInt64 ∨ t = msgUpdate.toUInt64 then
      match Decoder.readVarBytes rest with
      | .error _ => .error .unexpectedEOF
      | .ok (payload, _) => .ok (t, payload)
    else .error .unknownMessage

lemma readVarUintLoop_of_relay {bytes rest : List UInt8} (hterm : VarUint.Terminated bytes)
    {n m : UInt64} {shift off off' : Nat} (hlen : shift + 7 * bytes.length ≤ 56)
    (h : SyncMsg.readVarUintLoop (bytes ++ rest) off n shift = .ok (m, off')) :
    Decoder.readVarUintLoop (bytes ++ rest) n shift = .ok (m, rest) := by
  induction bytes generalizing n shift off with
  | nil => exact absurd hterm not_terminated_nil
  | cons b bytes ih =>
    simp only [length_cons] at hlen
    simp only [cons_append, SyncMsg.readVarUintLoop, Decoder.readVarUintLoop,
      and_0x80_eq_zero_iff] at h ⊢
    by_cases hb : b.toNat < 128
    · obtain rfl := (terminated_cons_of_lt hb).1 hterm
      rw [if_pos hb] at h ⊢
      obtain ⟨rfl, rfl⟩ := Prod.mk.inj (Except.ok.inj h)
      rfl
    · rw [terminated_cons_of_ge hb] at hterm
      have hpos := length_pos_of_terminated hterm
      rw [if_neg hb, if_neg (by omega)] at h ⊢
      exact ih hterm (by omega) h

lemma readVarUint_of_encodes {bytes rest : List UInt8} {n : Nat}
    (h : VarUint.Encodes bytes n) (hlen : bytes.length ≤ 8) :
    Decoder.readVarUint (bytes ++ rest) = .ok (UInt64.ofNat n, rest) := by
  obtain ⟨m, hm, hvalue⟩ := readVarUintLoop_append rest h.1 0 zero_toNat_lt (by omega)
  have heq : m = UInt64.ofNat n := by
    apply UInt64.toNat_inj.1
    rw [hvalue, h.2, UInt64.toNat_ofNat']
    simp
  rw [← heq]
  exact readVarUintLoop_of_relay h.1 (by omega) hm

lemma readSyncMessage_updateBody {payload : List UInt8} (h : payload.length < readLimit) :
    readSyncMessage (updateBody payload) = .ok (msgUpdate.toUInt64, payload) := by
  rw [readLimit] at h
  have htype : Decoder.readVarUint (updateBody payload) =
      .ok (msgUpdate.toUInt64, encode payload.length ++ payload) :=
    readVarUint_of_encodes (show VarUint.Encodes [msgUpdate] 2 from ⟨by decide, rfl⟩) (by simp)
  have hlength : Decoder.readVarUint (encode payload.length ++ payload) =
      .ok (UInt64.ofNat payload.length, payload) :=
    readVarUint_of_encodes (encode_encodes _)
      (length_encode_le (k := 7) (by omega))
  have hnat : (UInt64.ofNat payload.length).toNat = payload.length := by
    rw [UInt64.toNat_ofNat', Nat.mod_eq_of_lt (by omega)]
  have hbytes : Decoder.readVarBytes (encode payload.length ++ payload) = .ok (payload, []) := by
    simp only [Decoder.readVarBytes, hlength, hnat, Decoder.maxStringBytes]
    rw [if_neg (by omega), if_neg (by omega), take_length, drop_length]
  rw [readSyncMessage, htype]
  simp only [or_true, if_true, hbytes]

/-! ## `ResolveStore` -/

structure StoreRequest (K : Type) where
  updates : List UpdatePayload
  content : List K
  mimeType : String

/-- The fields of `ProviderProcessor` that `ResolveStore` uses. -/
structure ProviderProcessor (K : Type) where
  cache : String → Option (Doc K)

namespace ProviderProcessor

def new : ProviderProcessor K := ⟨fun _ => none⟩

/-- What `NewYgoEngine` makes. The engine inserts nothing itself, so that its client
id plays no part. -/
def newEngine : Doc K := Doc.started 0 []

def engine (pp : ProviderProcessor K) (documentID : String) : Doc K :=
  (pp.cache documentID).getD newEngine

/-- The cache holds `doc`, which is changed in place, for the document. -/
def setEngine (pp : ProviderProcessor K) (documentID : String) (doc : Doc K) :
    ProviderProcessor K :=
  ⟨Function.update pp.cache documentID (some doc)⟩

end ProviderProcessor

/-- `extractYjsUpdate`; `none` is the nil slice. -/
def extractYjsUpdate (frame : List UInt8) : Option (List UInt8) :=
  if frame.length < 3 then none
  else if frame.head? ≠ some 0x00 then none
  else
    match readSyncMessage frame.tail with
    | .error _ => none
    | .ok (msgType, payload) =>
      if msgType ≠ msgSyncStep2.toUInt64 ∧ msgType ≠ msgUpdate.toUInt64 then none
      else some payload

def hasExtension (name ext : String) : Bool :=
  ext.length < name.length && name.toList.drop (name.length - ext.length) == ext.toList

def detectMimeType (docID : String) : String :=
  if hasExtension docID ".md" then "text/markdown"
  else if hasExtension docID ".html" || hasExtension docID ".htm" then "text/html"
  else if hasExtension docID ".json" then "application/json"
  else if hasExtension docID ".py" then "text/x-python"
  else if hasExtension docID ".js" then "text/javascript"
  else if hasExtension docID ".jsx" then "text/jsx"
  else if hasExtension docID ".ts" then "text/typescript"
  else if hasExtension docID ".tsx" then "text/tsx"
  else "text/plain"

/-- `ApplyUpdate` of the engine; on an error, which is only logged, the doc stays as it
is. -/
def applyUpdate (decode : List UInt8 → Option (Update K)) (doc : Doc K) (update : List UInt8) :
    Doc K :=
  match decode update with
  | none => doc
  | some u => doc.apply u

/-- The body of the loop over `req.Updates`. -/
def applyPayload (decode : List UInt8 → Option (Update K)) (doc : Doc K) (u : UpdatePayload) :
    Doc K :=
  match Base64.decode u.data with
  | none => doc
  | some raw =>
    match extractYjsUpdate raw with
    | none => doc
    | some yjsUpdate => applyUpdate decode doc yjsUpdate

/-- The update that a payload brings to the document, if its data can be decoded, is a frame with
an update, and is accepted by the engine. -/
def appliedUpdate (decode : List UInt8 → Option (Update K)) (u : UpdatePayload) :
    Option (Update K) :=
  ((Base64.decode u.data).bind extractYjsUpdate).bind decode

section

variable {P : Type} [LinearOrder P] [DecidableEq K]

def resolveStore (decode : List UInt8 → Option (Update K)) (order : DocOrder K P)
    (pp : ProviderProcessor K) (documentID : String) (req : StoreRequest K) :
    ProviderProcessor K × StoreRequest K :=
  if req.updates.length = 0 then (pp, req)
  else
    let doc := req.updates.foldl (applyPayload decode) (pp.engine documentID)
    (pp.setEngine documentID doc, { req with
        content := doc.text order
        mimeType := if req.mimeType = "" then detectMimeType documentID else req.mimeType })

end

lemma extractYjsUpdate_updateFrame {payload : List UInt8} (h : payload.length < readLimit) :
    extractYjsUpdate (updateFrame payload) = some payload := by
  have hlength : ¬ (updateFrame payload).length < 3 := by
    have := length_pos_of_terminated (encode_encodes payload.length).1
    simp only [updateFrame, updateBody, length_cons, length_append]
    omega
  rw [extractYjsUpdate, if_neg hlength, if_neg (by simp [updateFrame, msgTypeSync]), updateFrame,
    tail_cons, readSyncMessage_updateBody h]
  simp

variable (decode : List UInt8 → Option (Update K)) (doc : Doc K)

lemma applyPayload_eq (u : UpdatePayload) :
    applyPayload decode doc u = doc.applyAll (appliedUpdate decode u).toList := by
  unfold applyPayload appliedUpdate
  cases Base64.decode u.data with
  | none => simp
  | some raw =>
    cases hextract : extractYjsUpdate raw with
    | none => simp [hextract]
    | some update =>
      simp only [Option.bind_some, hextract, applyUpdate]
      cases decode update with
      | none => simp
      | some u => rfl

lemma foldl_applyPayload_eq (updates : List UpdatePayload) :
    updates.foldl (applyPayload decode) doc =
      doc.applyAll (updates.filterMap (appliedUpdate decode)) := by
  induction updates generalizing doc with
  | nil => simp
  | cons u updates ih =>
    rw [foldl_cons, ih, applyPayload_eq, ← Doc.applyAll_append]
    cases happlied : appliedUpdate decode u with
    | none => simp [happlied]
    | some update => simp [happlied]

lemma applyPayload_toPayload {u : BufferedUpdate} (h : ClientFrame u.data) :
    applyPayload decode doc (toPayload u) = doc.applyAll (frameUpdate decode u.data).toList := by
  have hbind := bind_decode_of_clientFrame decode (fun _ => extractYjsUpdate_updateFrame) h
  rw [applyPayload_eq, appliedUpdate, toPayload, Base64.decode_encode, Option.bind_some, hbind]

lemma foldl_applyPayload {batch : List BufferedUpdate} (h : ∀ u ∈ batch, ClientFrame u.data) :
    (toPayloads batch).foldl (applyPayload decode) doc =
      doc.applyAll (batchUpdates decode batch) := by
  induction batch generalizing doc with
  | nil => simp [toPayloads, batchUpdates]
  | cons u batch ih =>
    have hu := applyPayload_toPayload decode doc (h u mem_cons_self)
    have hrest := ih (doc.applyAll (frameUpdate decode u.data).toList)
      fun v hv => h v (mem_cons_of_mem _ hv)
    rw [toPayloads] at hrest
    rw [toPayloads, map_cons, foldl_cons, hu, hrest, ← Doc.applyAll_append, batchUpdates_cons]

end CollabEditor.Spi
