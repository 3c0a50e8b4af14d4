import CollabEditor.Relay.SidecarSocket
import CollabEditor.Relay.SidecarSync
/-!
# The docs of the sidecar

The handlers of `cmd/yjs-engine/index.js` and the calls of `sidecar_client.go` that reach them.  The
relay's ids are any bytes: they are cut to 65535 bytes and read as UTF-8, so two documents can end
up with one doc.
-/

namespace CollabEditor.Relay.Sidecar

open Support SharedText Socket List Function BigEndian

/-! ## The sidecar -/

abbrev Docs (K : Type) := List Char → Option (Doc K)

/-- What the handlers use of yjs beside sync messages. An error is the text of an exception;
`getText` may add the type to the doc. -/
structure Library (K : Type) extends Yjs K where
  newDoc : Doc K
  encodeStateVector : Doc K → Except String (List UInt8)
  getText : Doc K → List Char → Doc K × Except String (List UInt8)

variable {K : Type}

/-- `readVarString`: the string and the offset after it. -/
def readVarString (buf : List UInt8) (offset : Nat) : Except Thrown (List Char × Nat) :=
  (readUInt 2 buf offset).map fun len =>
    (Utf8.decode ((buf.drop (offset + 2)).take len), offset + 2 + len)

/-- `getDoc`, and then what is done with the doc. -/
def withDoc (docs : Docs K) (docID : List Char)
    (act : Doc K → Doc K × Except String (List UInt8)) :
    Docs K × Except Thrown (List UInt8) :=
  match docs docID with
  | none => (docs, .error (.ofText ("UNKNOWN_DOC: unknown doc: " ++ String.ofList docID)))
  | some doc =>
    (update docs docID (some (act doc).1), (act doc).2.mapError Thrown.ofText)

/-- What each handler starts with: the id at the front of the payload. -/
def withDocID (docs : Docs K) (payload : List UInt8)
    (act : List Char → Nat → Docs K × Except Thrown (List UInt8)) :
    Docs K × Except Thrown (List UInt8) :=
  match readVarString payload 0 with
  | .error e => (docs, .error e)
  | .ok (docID, next) => act docID next

section

variable (lib : Library K) (docs : Docs K) (payload : List UInt8)

def handleOpen : Docs K × Except Thrown (List UInt8) :=
  withDocID docs payload fun docID _ =>
    (update docs docID (some ((docs docID).getD lib.newDoc)), .ok [])

def handleClose : Docs K × Except Thrown (List UInt8) :=
  withDocID docs payload fun docID _ => (update docs docID none, .ok [])

def handleApplyUpdate : Docs K × Except Thrown (List UInt8) :=
  withDocID docs payload fun docID next =>
    withDoc docs docID fun doc =>
      let applied := applyUpdate lib.toYjs doc (payload.drop next)
      (applied.1, applied.2.map fun _ => [])

def handleSync : Docs K × Except Thrown (List UInt8) :=
  withDocID docs payload fun docID next =>
    withDoc docs docID fun doc =>
      let synced := handleSyncMessage lib.toYjs doc (payload.drop next)
      (synced.1, synced.2.map fun (msgType, reply) => msgType :: reply)

/-- `handleEncodeState`. Without a state vector, yjs takes the one of an empty doc. -/
def handleEncodeState : Docs K × Except Thrown (List UInt8) :=
  withDocID docs payload fun docID _ =>
    withDoc docs docID fun doc => (doc, lib.encodeStateAsUpdate doc [0])

def handleEncodeSV : Docs K × Except Thrown (List UInt8) :=
  withDocID docs payload fun docID _ =>
    withDoc docs docID fun doc => (doc, lib.encodeStateVector doc)

/-- `handleGetText`, which reads the name before it looks for the doc. -/
def handleGetText : Docs K × Except Thrown (List UInt8) :=
  withDocID docs payload fun docID next =>
    match readVarString payload next with
    | .error e => (docs, .error e)
    | .ok (name, _) => withDoc docs docID fun doc => lib.getText doc name

end

def opOpen : UInt8 := 0x01
def opClose : UInt8 := 0x02
def opApplyUpdate : UInt8 := 0x03
def opSyncMessage : UInt8 := 0x04
def opEncodeState : UInt8 := 0x05
def opEncodeSV : UInt8 := 0x06
def opGetText : UInt8 := 0x07
def opPing : UInt8 := 0x08

def handlers (lib : Library K) : Handlers (Docs K) := fun op =>
  if op = opOpen.toNat then some (handleOpen lib)
  else if op = opClose.toNat then some handleClose
  else if op = opApplyUpdate.toNat then some (handleApplyUpdate lib)
  else if op = opSyncMessage.toNat then some (handleSync lib)
  else if op = opEncodeState.toNat then some (handleEncodeState lib)
  else if op = opEncodeSV.toNat then some (handleEncodeSV lib)
  else if op = opGetText.toNat then some (handleGetText lib)
  else if op = opPing.toNat then some fun docs _ => (docs, .ok [])
  else none

/-! ## The relay -/

/-- `writeVarString`, which cuts a string that is too long for its length field. -/
def writeVarString (buf s : List UInt8) : List UInt8 :=
  let s := if s.length > 0xffff then s.take 0xffff else s
  buf ++ (encode 2 s.length ++ s)

inductive EngineCall
  | openDoc
  | closeDoc
  | bootstrapText (name content : List UInt8)
  | applyUpdate (update : List UInt8)
  | syncMessage (syncBody : List UInt8)
  | encodeStateAsUpdate
  | encodeStateVector
  | getText (name : List UInt8)

/-- What the relay's own engine encodes for a text that is to be seeded. -/
abbrev SeedEncoder := List UInt8 → List UInt8 → Except String (List UInt8)

/-- `ApplyUpdate`; without bytes there is nothing to send. -/
def applyUpdateRequest (docID update : List UInt8) : Option (UInt8 × List UInt8) :=
  if update = [] then none else some (opApplyUpdate, writeVarString [] docID ++ update)

def request (encodeSeed : SeedEncoder) (docID : List UInt8) :
    EngineCall → Except String (Option (UInt8 × List UInt8))
  | .openDoc => .ok (some (opOpen, writeVarString [] docID))
  | .closeDoc => .ok (some (opClose, writeVarString [] docID))
  | .bootstrapText name content =>
    if content = [] then .ok none
    else (encodeSeed name content).map (applyUpdateRequest docID)
  | .applyUpdate update => .ok (applyUpdateRequest docID update)
  | .syncMessage syncBody => .ok (some (opSyncMessage, writeVarString [] docID ++ syncBody))
  | .encodeStateAsUpdate => .ok (some (opEncodeState, writeVarString [] docID))
  | .encodeStateVector => .ok (some (opEncodeSV, writeVarString [] docID))
  | .getText name => .ok (some (opGetText, writeVarString (writeVarString [] docID) name))

inductive CallResult
  /-- The relay has no seed to send. -/
  | failed (message : String)
  /-- There was nothing to send. -/
  | done
  | response (status : UInt8) (payload : List UInt8)
  /-- The sidecar is gone, or has answered with something that is no frame. -/
  | unavailable

def CallResult.ofFrame (r : Frame) : CallResult := .response r.status r.payload

/-- One request over the socket. With an exception that nothing catches the sidecar ends, and
its docs with it. -/
def roundTrip (lib : Library K) (docs : Docs K) (f : Frame) : Docs K × CallResult :=
  match serveChunks (handlers lib) docs [encodeFrame f] with
  | .error _ => (fun _ => none, .unavailable)
  | .ok (served, _) =>
    (served.docs, match readFrame served.written.flatten with
      | .error _ => .unavailable
      | .ok (r, _) => .ofFrame r)

structure DocCall where
  seq : UInt32
  docID : List UInt8
  call : EngineCall

def DocCall.perform (lib : Library K) (encodeSeed : SeedEncoder) (docs : Docs K) (c : DocCall) :
    Docs K × CallResult :=
  match request encodeSeed c.docID c.call with
  | .error e => (docs, .failed e)
  | .ok none => (docs, .done)
  | .ok (some (op, payload)) => roundTrip lib docs ⟨c.seq, op, statusOK, payload⟩

def DocCall.Fits (encodeSeed : SeedEncoder) (c : DocCall) : Prop :=
  ∀ op payload, request encodeSeed c.docID c.call = .ok (some (op, payload)) →
    payload.length < 2 ^ 32 - 6

def performAll (lib : Library K) (encodeSeed : SeedEncoder) (docs : Docs K) :
    List DocCall → Docs K
  | [] => docs
  | c :: calls => performAll lib encodeSeed (c.perform lib encodeSeed docs).1 calls

/-! ## Calls stay with one doc -/

def docKey (docID : List UInt8) : List Char := Utf8.decode (docID.take 0xffff)

/-- What is done to the docs is done to the one of a key, and depends on that one only. -/
def ConfinedTo (key : List Char) {α : Type} (op : Docs K → Docs K × α) : Prop :=
  ∃ act : Option (Doc K) → Option (Doc K) × α,
    ∀ docs, op docs = (update docs key (act (docs key)).1, (act (docs key)).2)

variable {α : Type} {docID docID' : List UInt8} {op : UInt8} {encodeSeed : SeedEncoder}

lemma ConfinedTo.map {key : List Char} {β : Type} {op : Docs K → Docs K × α}
    (h : ConfinedTo key op) (f : α → β) :
    ConfinedTo key fun docs => ((op docs).1, f (op docs).2) := by
  obtain ⟨act, hact⟩ := h
  exact ⟨fun d => ((act d).1, f (act d).2), fun docs => by simp only [hact]⟩

lemma confinedTo_pure (key : List Char) (a : α) : ConfinedTo key fun docs : Docs K => (docs, a) :=
  ⟨fun d => (d, a), fun docs => by rw [update_eq_self]⟩

lemma confinedTo_withDoc (key : List Char) (act : Doc K → Doc K × Except String (List UInt8)) :
    ConfinedTo key fun docs => withDoc docs key act := by
  refine ⟨fun d => match d with
    | none => (none, .error (.ofText ("UNKNOWN_DOC: unknown doc: " ++ String.ofList key)))
    | some doc => (some (act doc).1, (act doc).2.mapError Thrown.ofText), fun docs => ?_⟩
  simp only [withDoc]
  cases hdoc : docs key with
  | none => simp only [← hdoc, update_eq_self]
  | some doc => rfl

lemma readVarString_writeVarString (docID rest : List UInt8) :
    readVarString (writeVarString [] docID ++ rest) 0 =
      .ok (docKey docID, 2 + (docID.take 0xffff).length) := by
  have hcut : (if docID.length > 0xffff then docID.take 0xffff else docID) = docID.take 0xffff := by
    split
    · rfl
    · rw [take_of_length_le (by omega)]
  have hlen : (docID.take 0xffff).length < 256 ^ 2 := by
    rw [length_take]
    omega
  have hvalue := value_encode_of_lt hlen
  rw [writeVarString, hcut, nil_append, append_assoc, readVarString, readUInt,
    if_pos (by simp), drop_zero, take_left' (length_encode _ _), hvalue,
    drop_left' (by rw [length_encode])]
  simp [Except.map, docKey]

lemma confinedTo_withDocID (rest : List UInt8)
    {act : Docs K → List Char → Nat → Docs K × Except Thrown (List UInt8)}
    (hact : ∀ next, ConfinedTo (docKey docID) fun docs => act docs (docKey docID) next) :
    ConfinedTo (docKey docID) fun docs =>
      withDocID docs (writeVarString [] docID ++ rest) (act docs) := by
  simp only [withDocID, readVarString_writeVarString]
  exact hact _

lemma confinedTo_handler (lib : Library K)
    {handler : Docs K → List UInt8 → Docs K × Except Thrown (List UInt8)}
    (hop : handlers lib op.toNat = some handler) (docID rest : List UInt8) :
    ConfinedTo (docKey docID) fun docs => handler docs (writeVarString [] docID ++ rest) := by
  simp only [handlers, ite_eq_iff, Option.some.injEq, reduceCtorEq, and_false, or_false] at hop
  obtain ⟨-, rfl⟩ | ⟨-, ⟨-, rfl⟩ | ⟨-, ⟨-, rfl⟩ | ⟨-, ⟨-, rfl⟩ | ⟨-, ⟨-, rfl⟩ | ⟨-, ⟨-, rfl⟩ |
    ⟨-, ⟨-, rfl⟩ | ⟨-, -, rfl⟩⟩⟩⟩⟩⟩⟩ := hop
  · exact confinedTo_withDocID rest fun _ =>
      ⟨fun d => (some (d.getD lib.newDoc), .ok []), fun _ => rfl⟩
  · exact confinedTo_withDocID rest fun _ => ⟨fun _ => (none, .ok []), fun _ => rfl⟩
  iterate 4 exact confinedTo_withDocID rest fun _ => confinedTo_withDoc _ _
  · refine confinedTo_withDocID rest fun next => ?_
    cases readVarString (writeVarString [] docID ++ rest) next with
    | error e => exact confinedTo_pure _ _
    | ok name => exact confinedTo_withDoc _ _
  · exact confinedTo_pure _ _

lemma roundTrip_eq (lib : Library K) (docs : Docs K) {f : Frame}
    (hf : f.payload.length < 2 ^ 32 - 6) : roundTrip lib docs f =
      ((answer (handlers lib) docs f).1, .ofFrame (answer (handlers lib) docs f).2) := by
  have hserve : serveChunks (handlers lib) docs [encodeFrame f] =
      .ok (⟨(answers (handlers lib) docs [f]).1,
        (answers (handlers lib) docs [f]).2.map encodeFrame⟩, []) :=
    serveChunks_eq (handlers lib) docs (by simpa using hf) (by simp)
  have hfits := (answer_frame (handlers lib) docs f).1
  have hread : readFrame (encodeFrame (answer (handlers lib) docs f).2) =
      .ok ((answer (handlers lib) docs f).2, []) := by
    have h := readFrame_encodeFrame (f := (answer (handlers lib) docs f).2) (by omega) []
    rwa [append_nil] at h
  rw [roundTrip, hserve]
  simp only [answers, map_cons, map_nil, flatten_cons, flatten_nil, append_nil, hread]

lemma request_eq_some {c : EngineCall} {payload : List UInt8} (lib : Library K)
    (h : request encodeSeed docID c = .ok (some (op, payload))) :
    ∃ handler rest, handlers lib op.toNat = some handler ∧
      payload = writeVarString [] docID ++ rest := by
  have hupdate {update : List UInt8} (h : applyUpdateRequest docID update = some (op, payload)) :
      ∃ handler rest, handlers lib op.toNat = some handler ∧
        payload = writeVarString [] docID ++ rest := by
    rw [applyUpdateRequest] at h
    split at h <;> cases h
    exact ⟨_, _, rfl, rfl⟩
  have hplain {op' : UInt8} (hop : op' = op) (hpayload : writeVarString [] docID = payload)
      {handler} (hhandler : handlers lib op'.toNat = some handler) :
      ∃ handler rest, handlers lib op.toNat = some handler ∧
        payload = writeVarString [] docID ++ rest :=
    ⟨handler, [], hop ▸ hhandler, by rw [append_nil, hpayload]⟩
  cases c with
  | openDoc | closeDoc | encodeStateAsUpdate | encodeStateVector =>
    cases h
    exact hplain rfl rfl rfl
  | syncMessage | getText =>
    cases h
    exact ⟨_, _, rfl, rfl⟩
  | applyUpdate update => exact hupdate (Except.ok.inj h)
  | bootstrapText name content =>
    rw [request] at h
    split at h
    · cases h
    · cases hseed : encodeSeed name content with
      | error e => rw [hseed] at h; cases h
      | ok state => rw [hseed] at h; exact hupdate (Except.ok.inj h)

lemma DocCall.perform_of_request {lib : Library K} {c : DocCall} {payload : List UInt8}
    {handler : Docs K → List UInt8 → Docs K × Except Thrown (List UInt8)}
    (hfits : c.Fits encodeSeed)
    (hrequest : request encodeSeed c.docID c.call = .ok (some (op, payload)))
    (hhandler : handlers lib op.toNat = some handler) (docs : Docs K) :
    c.perform lib encodeSeed docs =
      ((handler docs payload).1, .ofFrame (responseFrame c.seq op (handler docs payload).2)) := by
  have hlen := hfits op payload hrequest
  simp only [DocCall.perform, hrequest]
  rw [roundTrip_eq lib docs hlen, answer]
  simp only [hhandler]

lemma DocCall.confinedTo_perform (lib : Library K) {c : DocCall} (hfits : c.Fits encodeSeed) :
    ConfinedTo (docKey c.docID) (c.perform lib encodeSeed) := by
  cases hrequest : request encodeSeed c.docID c.call with
  | error e =>
    have hperform : c.perform lib encodeSeed = fun docs => (docs, .failed e) := by
      funext docs
      rw [DocCall.perform, hrequest]
    exact hperform ▸ confinedTo_pure _ _
  | ok sent =>
    cases sent with
    | none =>
      have hperform : c.perform lib encodeSeed = fun docs => (docs, .done) := by
        funext docs
        rw [DocCall.perform, hrequest]
      exact hperform ▸ confinedTo_pure _ _
    | some sent =>
      obtain ⟨op, payload⟩ := sent
      obtain ⟨handler, rest, hhandler, rfl⟩ := request_eq_some lib hrequest
      rw [funext fun docs => DocCall.perform_of_request hfits hrequest hhandler docs]
      exact (confinedTo_handler lib hhandler c.docID rest).map
        fun handled => CallResult.ofFrame (responseFrame c.seq op handled)

/-! ## Isolation -/

/-- After any calls, a call for the first document leaves the second one's doc as it is, and does
the same and answers the same whatever that doc is. -/
def Isolated (lib : Library K) (encodeSeed : SeedEncoder) (docID docID' : List UInt8) : Prop :=
  ∀ (history : List DocCall) (c : DocCall), c.docID = docID → c.Fits encodeSeed →
    let docs := performAll lib encodeSeed (fun _ => none) history
    (c.perform lib encodeSeed docs).1 (docKey docID') = docs (docKey docID') ∧
    ∀ d, c.perform lib encodeSeed (update docs (docKey docID') d) =
      (update (c.perform lib encodeSeed docs).1 (docKey docID') d,
        (c.perform lib encodeSeed docs).2)

lemma ConfinedTo.frame {key key' : List Char} {op : Docs K → Docs K × α} (h : ConfinedTo key op)
    (hne : key' ≠ key) (docs : Docs K) : (op docs).1 key' = docs key' ∧
      ∀ d, op (update docs key' d) = (update (op docs).1 key' d, (op docs).2) := by
  obtain ⟨act, hact⟩ := h
  refine ⟨by simp only [hact, update_of_ne hne], fun d => ?_⟩
  rw [hact, hact, update_of_ne hne.symm, update_comm hne.symm]

lemma isolated_of_docKey_ne (lib : Library K) (encodeSeed : SeedEncoder)
    (hne : docKey docID ≠ docKey docID') : Isolated lib encodeSeed docID docID' := by
  rintro history c rfl hfits
  exact (DocCall.confinedTo_perform lib hfits).frame hne.symm _

lemma length_writeVarString_le (docID : List UInt8) :
    (writeVarString [] docID).length ≤ 2 + 0xffff := by
  rw [writeVarString]
  split <;> simp <;> omega

lemma not_isolated_of_docKey_eq (lib : Library K) (encodeSeed : SeedEncoder)
    (heq : docKey docID = docKey docID') : ¬ Isolated lib encodeSeed docID docID' := by
  intro hisolated
  have hlen := length_writeVarString_le docID
  have hfits : DocCall.Fits encodeSeed ⟨1, docID, .openDoc⟩ := by
    intro op payload h
    obtain rfl : writeVarString [] docID = payload := by cases h; rfl
    omega
  have hopen : (DocCall.perform lib encodeSeed (fun _ => none) ⟨1, docID, .openDoc⟩).1
      (docKey docID') = none := (hisolated [] ⟨1, docID, .openDoc⟩ rfl hfits).1
  have hhandler : handlers lib opOpen.toNat = some (handleOpen lib) := rfl
  have hread := readVarString_writeVarString docID []
  rw [append_nil] at hread
  rw [DocCall.perform_of_request hfits rfl hhandler] at hopen
  simp only [handleOpen, withDocID, hread, heq, update_self] at hopen
  cases hopen

lemma docKey_ne_of_valid (hvalid : Utf8.Valid docID) (hvalid' : Utf8.Valid docID')
    (hlen : docID.length ≤ 0xffff) (hlen' : docID'.length ≤ 0xffff) (hne : docID ≠ docID') :
    docKey docID ≠ docKey docID' := by
  intro heq
  rw [docKey, docKey, take_of_length_le hlen, take_of_length_le hlen'] at heq
  exact hne (Utf8.eq_of_decode_eq hvalid hvalid' heq)

/-- Two documents are isolated from each other exactly if the sidecar tells their ids apart, which
it does for different ids of valid UTF-8 that are not too long. -/
theorem isolated_iff_docKey_ne (lib : Library K) (encodeSeed : SeedEncoder)
    (docID docID' : List UInt8) :
    (Isolated lib encodeSeed docID docID' ↔ docKey docID ≠ docKey docID') ∧
      (Utf8.Valid docID → Utf8.Valid docID' → docID.length ≤ 0xffff → docID'.length ≤ 0xffff →
        docID ≠ docID' → docKey docID ≠ docKey docID') := by
  refine ⟨⟨fun hisolated heq => ?_, isolated_of_docKey_ne lib encodeSeed⟩, docKey_ne_of_valid⟩
  exact not_isolated_of_docKey_eq lib encodeSeed heq hisolated

def quietLibrary : Library Nat where
  read _ := (⟨[], []⟩, none)
  encodeStateAsUpdate _ _ := .ok [0, 0]
  newDoc := .started 1 []
  encodeStateVector _ := .ok [0]
  getText doc _ := (doc, .ok [])

/-- The documents `a` and `b`. -/
theorem letters_isolated : Isolated quietLibrary (fun _ _ => .ok [0, 0]) [0x61] [0x62] := by
  obtain ⟨hiff, hkeys⟩ := isolated_iff_docKey_ne quietLibrary (fun _ _ => .ok [0, 0]) [0x61] [0x62]
  exact hiff.2 (hkeys (by decide) (by decide) (by decide) (by decide) (by decide))

/-- Two ids of one byte that are no UTF-8. -/
theorem documents_share_a_doc : ¬ ∀ docID docID' : List UInt8, docID ≠ docID' →
      Isolated quietLibrary (fun _ _ => .ok [0, 0]) docID docID' := by
  intro hall
  have heq : docKey [0xff] = docKey [0xfe] := by decide
  exact not_isolated_of_docKey_eq quietLibrary (fun _ _ => .ok [0, 0]) heq
    (hall [0xff] [0xfe] (by decide))

end CollabEditor.Relay.Sidecar
