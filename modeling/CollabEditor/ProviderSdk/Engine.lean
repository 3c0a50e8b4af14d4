import CollabEditor.Relay.RoomText
/-!
# The engines of the TypeScript and Python provider SDKs

`engine.ts` of `provider-sdk-ts` and `engine.py` of `provider-sdk-py`.  Both strip the header of a
frame and apply the update to a doc; what either raises ends the request.
-/

namespace CollabEditor.ProviderSdk

open Support SharedText CollabEditor.Relay SyncMsg List VarUint

variable {K : Type}

/-- The library functions the SDKs call, `none` being a raised exception: the base64
decoders read what a standard encoder writes, and lib0's decoders what lib0 writes. -/
structure Libraries where
  base64Decode : List Char → Option (List UInt8)
  readVarUint : List UInt8 → Option (Nat × List UInt8)
  readVarUint8Array : List UInt8 → Option (List UInt8 × List UInt8)
  base64Decode_encode : ∀ bytes, base64Decode (Base64.encode bytes) = some bytes
  readVarUint_encode : ∀ n rest, n < 2 ^ 53 → readVarUint (encode n ++ rest) = some (n, rest)
  readVarUint8Array_encode : ∀ bytes rest, bytes.length < 2 ^ 53 →
    readVarUint8Array (encode bytes.length ++ (bytes ++ rest)) = some (bytes, rest)

inductive SdkError
  | invalidBase64
  | malformedFrame
  | invalidUpdate

inductive Sdk
  | typescript
  | python

namespace Typescript

def extractYjsUpdate (lib : Libraries) (data : List UInt8) :
    Except SdkError (Option (List UInt8)) :=
  if data.length < 2 then .ok none
  else
    match lib.readVarUint data with
    | none => .error .malformedFrame
    | some (messageType, rest) =>
      if messageType ≠ 0 then .ok none
      else
        match lib.readVarUint rest with
        | none => .error .malformedFrame
        | some (syncType, rest) =>
          if syncType ≠ 2 then .ok none
          else
            match lib.readVarUint8Array rest with
            | none => .error .malformedFrame
            | some (update, _) => .ok (some update)

lemma extractYjsUpdate_updateFrame (lib : Libraries) {payload : List UInt8}
    (h : payload.length < readLimit) :
    extractYjsUpdate lib (updateFrame payload) = .ok (some payload) := by
  rw [readLimit] at h
  have htype : lib.readVarUint (updateFrame payload) = some (0, updateBody payload) :=
    lib.readVarUint_encode 0 (updateBody payload) (by omega)
  have hsub : lib.readVarUint (updateBody payload) = some (2, encode payload.length ++ payload) :=
    lib.readVarUint_encode 2 (encode payload.length ++ payload) (by omega)
  have hpayload : lib.readVarUint8Array (encode payload.length ++ payload) =
      some (payload, []) := by
    simpa using lib.readVarUint8Array_encode payload [] (by omega)
  have hlength : ¬ (updateFrame payload).length < 2 := by
    simp [updateFrame, updateBody]
  simp [extractYjsUpdate, hlength, htype, hsub, hpayload]

end Typescript

namespace Python

/-- The loop of `_read_varuint`, on the bytes that are left. It stops without an error
at the end of the data. -/
def readVaruintLoop : List UInt8 → Nat → Nat → Nat × List UInt8
  | [], value, _ => (value, [])
  | b :: rest, value, shift =>
    let value := value ||| ((b &&& 0x7f).toNat <<< shift)
    if b < 0x80 then (value, rest) else readVaruintLoop rest value (shift + 7)

def readVaruint (data : List UInt8) : Nat × List UInt8 := readVaruintLoop data 0 0

def extractYjsUpdate (data : List UInt8) : Option (List UInt8) :=
  if data.length < 2 then none
  else
    let (messageType, data) := readVaruint data
    if messageType ≠ 0 then none
    else
      let (syncType, data) := readVaruint data
      if syncType ≠ 2 then none
      else
        let (length, data) := readVaruint data
        if length > data.length then none else some (data.take length)

lemma readVaruintLoop_append {bytes : List UInt8} (rest : List UInt8)
    (hterm : VarUint.Terminated bytes) {value shift : Nat} (hvalue : value < 2 ^ shift) :
    readVaruintLoop (bytes ++ rest) value shift =
      (value + 2 ^ shift * VarUint.value bytes, rest) := by
  induction bytes generalizing value shift with
  | nil => exact absurd hterm not_terminated_nil
  | cons b bytes ih =>
    have hor : value ||| ((b &&& 0x7f).toNat <<< shift) = value + 2 ^ shift * (b.toNat % 128) := by
      rw [and_0x7f_toNat, Nat.shiftLeft_eq, Nat.mul_comm, Nat.or_comm,
        ← Nat.two_pow_add_eq_or_of_lt hvalue, Nat.add_comm]
    simp only [cons_append, readVaruintLoop, hor, UInt8.lt_iff_toNat_lt]
    by_cases hb : b.toNat < 128
    · obtain rfl := (VarUint.terminated_cons_of_lt hb).1 hterm
      rw [if_pos (by simpa using hb)]
      simp
    · rw [terminated_cons_of_ge hb] at hterm
      have hfit := add_digit_lt b hvalue
      rw [if_neg (by simpa using hb), ih hterm hfit, value_cons, Nat.pow_add]
      congr 1
      ring

lemma readVaruint_encode (n : Nat) (rest : List UInt8) :
    readVaruint (encode n ++ rest) = (n, rest) := by
  have h := encode_encodes n
  rw [readVaruint, readVaruintLoop_append rest h.1 (by simp), h.2]
  simp

lemma extractYjsUpdate_updateFrame (payload : List UInt8) :
    extractYjsUpdate (updateFrame payload) = some payload := by
  have htype : readVaruint (updateFrame payload) = (0, updateBody payload) :=
    readVaruint_encode 0 (updateBody payload)
  have hsub : readVaruint (updateBody payload) = (2, encode payload.length ++ payload) :=
    readVaruint_encode 2 (encode payload.length ++ payload)
  have hlength : ¬ (updateFrame payload).length < 2 := by
    simp [updateFrame, updateBody]
  simp [extractYjsUpdate, hlength, htype, hsub, readVaruint_encode]

end Python

/-- Library functions as documented: lib0 reads the same numbers, but raises when one
does not end or when an array is longer than the data. -/
def Libraries.standard : Libraries where
  base64Decode := Base64.decode
  readVarUint data :=
    if data.any fun b => b.toNat < 128 then some (Python.readVaruint data) else none
  readVarUint8Array data :=
    let (length, rest) := Python.readVaruint data
    if (data.any fun b => b.toNat < 128) ∧ length ≤ rest.length then
      some (rest.take length, rest.drop length)
    else none
  base64Decode_encode := Base64.decode_encode
  readVarUint_encode n rest _ := by
    obtain ⟨b, hb, hlt⟩ := exists_lt_of_terminated (encode_encodes n).1
    rw [if_pos (any_eq_true.2 ⟨b, mem_append_left _ hb, by simpa using hlt⟩),
      Python.readVaruint_encode]
  readVarUint8Array_encode bytes rest _ := by
    obtain ⟨b, hb, hlt⟩ :=
      exists_lt_of_terminated (encode_encodes bytes.length).1
    have hany : (encode bytes.length ++ (bytes ++ rest)).any
        (fun b => b.toNat < 128) = true :=
      any_eq_true.2 ⟨b, mem_append_left _ hb, by simpa using hlt⟩
    simp [Python.readVaruint_encode, hany]

def Sdk.extractYjsUpdate (lib : Libraries) (data : List UInt8) :
    Sdk → Except SdkError (Option (List UInt8))
  | typescript => Typescript.extractYjsUpdate lib data
  | python => .ok (Python.extractYjsUpdate data)

lemma Sdk.extractYjsUpdate_updateFrame (lib : Libraries) (sdk : Sdk) {payload : List UInt8}
    (h : payload.length < readLimit) :
    sdk.extractYjsUpdate lib (updateFrame payload) = .ok (some payload) := by
  cases sdk with
  | typescript => exact Typescript.extractYjsUpdate_updateFrame lib h
  | python => exact congrArg Except.ok (Python.extractYjsUpdate_updateFrame payload)

/-! ## Docs -/

def createDocWithContent (clientID : Nat) (content : List K) : Doc K := ⟨clientID, content, []⟩

def applyBase64Update (sdk : Sdk) (lib : Libraries) (decode : List UInt8 → Option (Update K))
    (doc : Doc K) (base64Data : List Char) : Except SdkError (Doc K × Bool) :=
  match lib.base64Decode base64Data with
  | none => .error .invalidBase64
  | some raw =>
    match sdk.extractYjsUpdate lib raw with
    | .error e => .error e
    | .ok none => .ok (doc, false)
    | .ok (some yjsUpdate) =>
      match decode yjsUpdate with
      | none => .error .invalidUpdate
      | some u => .ok (doc.apply u, true)

/-- The loop over the updates of a request: the doc, which is changed in place, and how
many updates were applied unless one was refused. -/
def applyUpdates (sdk : Sdk) (lib : Libraries) (decode : List UInt8 → Option (Update K)) :
    Doc K → Nat → List UpdatePayload → Doc K × Except SdkError Nat
  | doc, applied, [] => (doc, .ok applied)
  | doc, applied, u :: updates =>
    match applyBase64Update sdk lib decode doc u.data with
    | .error e => (doc, .error e)
    | .ok (doc, done) =>
      applyUpdates sdk lib decode doc (if done then applied + 1 else applied) updates

lemma applyBase64Update_toPayload (sdk : Sdk) (lib : Libraries)
    (decode : List UInt8 → Option (Update K)) (doc : Doc K) {u : BufferedUpdate}
    (h : ClientFrame u.data) : applyBase64Update sdk lib decode doc (toPayload u).data =
      match frameUpdate decode u.data with
      | none => .error .invalidUpdate
      | some update => .ok (doc.apply update, true) := by
  obtain ⟨payload, hframe, hlen⟩ := h
  rw [hframe] at hlen
  have hlt := length_payload_lt_of_readLimit hlen
  rw [applyBase64Update, toPayload, lib.base64Decode_encode, hframe,
    frameUpdate_updateFrame decode hlt]
  simp only [sdk.extractYjsUpdate_updateFrame lib hlt]

lemma applyUpdates_toPayloads {sdk : Sdk} {lib : Libraries}
    {decode : List UInt8 → Option (Update K)} {batch : List BufferedUpdate} {doc : Doc K}
    {applied n : Nat} (hframes : ∀ u ∈ batch, ClientFrame u.data)
    (hok : (applyUpdates sdk lib decode doc applied (toPayloads batch)).2 = .ok n) :
    (applyUpdates sdk lib decode doc applied (toPayloads batch)).1 =
      doc.applyAll (batchUpdates decode batch) := by
  induction batch generalizing doc applied with
  | nil => simp [toPayloads, applyUpdates, batchUpdates]
  | cons u batch ih =>
    have hu := applyBase64Update_toPayload sdk lib decode doc (hframes u mem_cons_self)
    rw [toPayloads, map_cons, applyUpdates, hu] at hok ⊢
    cases hupdate : frameUpdate decode u.data with
    | none =>
      simp only [hupdate] at hok
      cases hok
    | some update =>
      simp only [hupdate] at hok ⊢
      have hrest := ih (fun v hv => hframes v (mem_cons_of_mem _ hv)) hok
      rw [toPayloads] at hrest
      rw [hrest, batchUpdates_cons, hupdate, Option.toList_some, singleton_append,
        Doc.applyAll_cons]

end CollabEditor.ProviderSdk
