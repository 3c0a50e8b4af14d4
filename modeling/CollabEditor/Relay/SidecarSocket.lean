import CollabEditor.Support.BigEndian
import CollabEditor.Support.Framing
import CollabEditor.Support.Utf8
/-!
# The socket between the relay and the sidecar

`internal/relay/yjsengine/protocol.go` and the connection loop of `cmd/yjs-engine/index.js`, with
frames [version u8][length u32 BE][seq u32 BE][op u8][status u8][payload] where `length` covers
everything after itself.  A handler is a function of the docs and the payload.
-/

namespace CollabEditor.Relay.Socket

open Support Framing List Nat BigEndian Utf8

def protocolVersion : UInt8 := 1

def statusOK : UInt8 := 0
def statusErr : UInt8 := 1

/-- `version(1) + length(4) + seq(4) + op(1) + status(1)`. -/
def headerLen : Nat := 11

structure Frame where
  seq : UInt32
  op : UInt8
  status : UInt8
  payload : List UInt8
  deriving DecidableEq

/-! ## The relay's side -/

/-- `encodeFrame`; the length is cut to 32 bits. -/
def encodeFrame (f : Frame) : List UInt8 :=
  let bodyLen := 4 + 1 + 1 + f.payload.length
  protocolVersion :: (encode 4 bodyLen ++ (encode 4 f.seq.toNat ++ (f.op :: f.status :: f.payload)))

inductive ReadError
  | eof
  | unexpectedEof
  | version (got : UInt8)
  | bodyTooSmall (bodyLen : Nat)
  | shortPayload
  deriving DecidableEq

/-- `readFrame` on the bytes that the peer has still to send before it closes: the frame and
what is left of them. -/
def readFrame (bytes : List UInt8) : Except ReadError (Frame × List UInt8) :=
  if bytes = [] then .error .eof
  else if bytes.length < headerLen then .error .unexpectedEof
  else
    let header := bytes.take headerLen
    let rest := bytes.drop headerLen
    let version := header.getD 0 0
    let bodyLen := value ((header.drop 1).take 4)
    if version ≠ protocolVersion then .error (.version version)
    else if bodyLen < 6 then .error (.bodyTooSmall bodyLen)
    else if rest.length < bodyLen - 6 then .error .shortPayload
    else
      .ok (⟨UInt32.ofNat (value ((header.drop 5).take 4)), header.getD 9 0,
        header.getD 10 0, rest.take (bodyLen - 6)⟩, rest.drop (bodyLen - 6))

def readFrames : Nat → List UInt8 → Except ReadError (List Frame × List UInt8)
  | 0, bytes => .ok ([], bytes)
  | n + 1, bytes =>
    match readFrame bytes with
    | .error e => .error e
    | .ok (f, rest) =>
      match readFrames n rest with
      | .error e => .error e
      | .ok (frames, rest) => .ok (f :: frames, rest)

/-! ## The sidecar's side -/

/-- The text of a JavaScript exception, as far as the protocol shows it: `CODE: message`. A
JavaScript string has less than `2 ^ 29` units, so it fits a frame. -/
structure Thrown where
  text : String
  fits : 6 + (encode text.toList).length < 2 ^ 32

/-- The exception with a text. A string that is too long is refused by an exception of its
own. -/
def Thrown.ofText (text : String) : Thrown :=
  if h : (encode text.toList).length < 2 ^ 31 then ⟨text, by omega⟩
  else ⟨"ERR: Invalid string length", by decide⟩

/-- What node throws for an access at `offset` that takes `width` bytes. -/
def boundsError (offset width length : Nat) : Thrown :=
  .ofText (if length < width then
    "ERR_BUFFER_OUT_OF_BOUNDS: Attempt to access memory outside buffer bounds"
  else "ERR_OUT_OF_RANGE: The value of \"offset\" is out of range. It must be >= 0 and <= " ++
    toString (length - width) ++ ". Received " ++ toString offset)

/-- `buf.readUInt8`, `buf.readUInt16BE` and `buf.readUInt32BE`. -/
def readUInt (width : Nat) (buf : List UInt8) (offset : Nat) : Except Thrown Nat :=
  if offset + width ≤ buf.length then .ok (value ((buf.drop offset).take width))
  else .error (boundsError offset width buf.length)

/-- The check of `buf.writeUInt32BE`. -/
def lengthError (length : Nat) : Thrown :=
  .ofText ("ERR_OUT_OF_RANGE: The value of \"value\" is out of range. " ++
    "It must be >= 0 and <= 4294967295. Received " ++ toString length)

/-- `buildFrame`, which throws if the length does not fit its field. -/
def buildFrame (seq op : Nat) (status : UInt8) (payload : List UInt8) :
    Except Thrown (List UInt8) :=
  let length := 4 + 1 + 1 + payload.length
  if length < 2 ^ 32 then
    .ok (protocolVersion :: (encode 4 length ++
      (encode 4 seq ++ (UInt8.ofNat op :: status :: payload))))
  else .error (lengthError length)

abbrev Handlers (σ : Type) := Nat → Option (σ → List UInt8 → σ × Except Thrown (List UInt8))

/-- `op.toString(16)` of a byte. -/
def hexDigits (op : Nat) : List Char :=
  if op < 16 then [digitChar op] else [digitChar (op / 16), digitChar (op % 16)]

variable {σ : Type}

/-- What the handler of a known op leads to. An exception of `buildFrame` is caught like one
of the handler. -/
def respond (seq op : Nat) (handled : σ × Except Thrown (List UInt8)) :
    σ × Except Thrown (List UInt8) :=
  (handled.1, match handled.2.bind (buildFrame seq op statusOK) with
    | .ok response => .ok response
    | .error e => buildFrame seq op statusErr (encode e.text.toList))

/-- The checks and reads with which `processFrame` starts: the sequence number and the op. -/
def readHeader (frame : List UInt8) : Except Thrown (Nat × Nat) :=
  (readUInt 1 frame 0).bind fun version =>
    if version = protocolVersion.toNat then
      (readUInt 4 frame 5).bind fun seq => (readUInt 1 frame 9).bind fun op => .ok (seq, op)
    else
      .error (.ofText ("ERR: protocol version mismatch: got " ++ toString version ++ ", want 1"))

def unknownOp (op : Nat) : List UInt8 := encode ("unknown op 0x".toList ++ hexDigits op)

/-- `processFrame`: the docs, and the response or the exception that it lets through. -/
def processFrame (handlers : Handlers σ) (docs : σ) (frame : List UInt8) :
    σ × Except Thrown (List UInt8) :=
  match readHeader frame with
  | .error e => (docs, .error e)
  | .ok (seq, op) =>
    match handlers op with
    | none => (docs, buildFrame seq op statusErr (unknownOp op))
    | some handler => respond seq op (handler docs (frame.drop headerLen))

def nextFrame (buffer : List UInt8) : Option (List UInt8 × List UInt8) :=
  if buffer.length < 5 then none
  else
    let total := 1 + 4 + value ((buffer.drop 1).take 4)
    if buffer.length < total then none else some (buffer.take total, buffer.drop total)

def processFrames (handlers : Handlers σ) :
    σ → List (List UInt8) → σ × List (Except Thrown (List UInt8))
  | docs, [] => (docs, [])
  | docs, frame :: frames =>
    let processed := processFrame handlers docs frame
    let others := processFrames handlers processed.1 frames
    (others.1, processed.2 :: others.2)

/-- The sidecar and one connection: the docs, and what has been written to the socket. -/
structure Served (σ : Type) where
  docs : σ
  written : List (List UInt8)

/-- One frame of the connection loop; an exception that `processFrame` lets through ends the
process. -/
def serveFrame (handlers : Handlers σ) (s : Served σ) (frame : List UInt8) :
    Except Thrown (Served σ) :=
  match processFrame handlers s.docs frame with
  | (_, .error e) => .error e
  | (docs, .ok response) => .ok ⟨docs, s.written ++ [response]⟩

/-! ## The fields of a frame -/

section

variable (f : Frame) (rest : List UInt8)

lemma length_encodeFrame : (encodeFrame f).length = headerLen + f.payload.length := by
  simp [encodeFrame, headerLen]
  omega

lemma lengthField_encodeFrame : ((encodeFrame f ++ rest).drop 1).take 4 =
    encode 4 (4 + 1 + 1 + f.payload.length) := rfl

lemma seqField_encodeFrame : ((encodeFrame f ++ rest).drop 5).take 4 = encode 4 f.seq.toNat := rfl

lemma payload_encodeFrame : (encodeFrame f ++ rest).drop headerLen = f.payload ++ rest := rfl

end

lemma value_lengthField {f : Frame} (hf : f.payload.length < 2 ^ 32 - 6) (rest : List UInt8) :
    value (((encodeFrame f ++ rest).drop 1).take 4) = 6 + f.payload.length := by
  rw [lengthField_encodeFrame, value_encode_of_lt (by omega)]

lemma value_seqField (f : Frame) (rest : List UInt8) :
    value (((encodeFrame f ++ rest).drop 5).take 4) = f.seq.toNat := by
  rw [seqField_encodeFrame, value_encode_of_lt f.seq.toNat_lt]

/-! ## Reading responses -/

lemma readFrame_encodeFrame {f : Frame} (hf : f.payload.length < 2 ^ 32 - 6)
    (rest : List UInt8) : readFrame (encodeFrame f ++ rest) = .ok (f, rest) := by
  have hlen : (encodeFrame f ++ rest).length = headerLen + (f.payload.length + rest.length) := by
    rw [length_append, length_encodeFrame, add_assoc]
  have hne : encodeFrame f ++ rest ≠ [] := cons_ne_nil _ _
  have hbody : value ((((encodeFrame f ++ rest).take headerLen).drop 1).take 4) =
      6 + f.payload.length := value_lengthField hf rest
  have hseq : value ((((encodeFrame f ++ rest).take headerLen).drop 5).take 4) =
      f.seq.toNat := value_seqField f rest
  have hversion : ((encodeFrame f ++ rest).take headerLen).getD 0 0 = protocolVersion := rfl
  have hop : ((encodeFrame f ++ rest).take headerLen).getD 9 0 = f.op := rfl
  have hstatus : ((encodeFrame f ++ rest).take headerLen).getD 10 0 = f.status := rfl
  rw [readFrame, if_neg hne, if_neg (by omega)]
  simp only [hbody, hseq, hversion, hop, hstatus, payload_encodeFrame, Nat.add_sub_cancel_left,
    UInt32.ofNat_toNat, take_left, drop_left]
  rw [if_neg (by simp), if_neg (by omega), if_neg (by simp)]

lemma readFrames_encodeFrame {frames : List Frame}
    (hframes : ∀ f ∈ frames, f.payload.length < 2 ^ 32 - 6) (rest : List UInt8) :
    readFrames frames.length ((frames.map encodeFrame).flatten ++ rest) = .ok (frames, rest) := by
  induction frames with
  | nil => rfl
  | cons f frames ih =>
    rw [map_cons, flatten_cons, append_assoc, length_cons, readFrames,
      readFrame_encodeFrame (hframes f mem_cons_self)]
    simp only [ih fun g hg => hframes g (mem_cons_of_mem _ hg)]

/-! ## Answering requests -/

lemma buildFrame_of_lt {seq op : Nat} {status : UInt8} {payload : List UInt8}
    (hseq : seq < 2 ^ 32) (hpayload : 6 + payload.length < 2 ^ 32) :
    buildFrame seq op status payload =
      .ok (encodeFrame ⟨UInt32.ofNat seq, UInt8.ofNat op, status, payload⟩) := by
  have hword : (UInt32.ofNat seq).toNat = seq := by
    rw [UInt32.toNat_ofNat', mod_eq_of_lt hseq]
  rw [buildFrame, if_pos (by omega), encodeFrame, hword]

/-- What an op answers: the payload of its handler if that fits a frame, and otherwise the text
of the exception. -/
def responseFrame (seq : UInt32) (op : UInt8) : Except Thrown (List UInt8) → Frame
  | .error e => ⟨seq, op, statusErr, encode e.text.toList⟩
  | .ok payload =>
    if 6 + payload.length < 2 ^ 32 then ⟨seq, op, statusOK, payload⟩
    else ⟨seq, op, statusErr, encode (lengthError (6 + payload.length)).text.toList⟩

/-- What a request does to the docs and what is answered, without the framing. -/
def answer (handlers : Handlers σ) (docs : σ) (f : Frame) : σ × Frame :=
  match handlers f.op.toNat with
  | none => (docs, ⟨f.seq, f.op, statusErr, unknownOp f.op.toNat⟩)
  | some handler =>
    ((handler docs f.payload).1, responseFrame f.seq f.op (handler docs f.payload).2)

lemma length_unknownOp_lt (op : Nat) : 6 + (unknownOp op).length < 2 ^ 32 := by
  have hdigits : (hexDigits op).length ≤ 2 := by
    rw [hexDigits]
    split <;> simp
  have hlen := length_encode_le ("unknown op 0x".toList ++ hexDigits op)
  rw [length_append] at hlen
  have htext : "unknown op 0x".toList.length = 13 := by decide
  rw [unknownOp]
  omega

section

variable {seq : UInt32} {op : UInt8} {payload : List UInt8}

lemma responseFrame_error (e : Thrown) :
    responseFrame seq op (.error e) = ⟨seq, op, statusErr, encode e.text.toList⟩ := rfl

lemma responseFrame_of_lt (h : 6 + payload.length < 2 ^ 32) :
    responseFrame seq op (.ok payload) = ⟨seq, op, statusOK, payload⟩ := if_pos h

lemma responseFrame_of_not_lt (h : ¬ 6 + payload.length < 2 ^ 32) :
    responseFrame seq op (.ok payload) = responseFrame seq op
      (.error (lengthError (6 + payload.length))) := if_neg h

lemma responseFrame_frame (handled : Except Thrown (List UInt8)) :
    6 + (responseFrame seq op handled).payload.length < 2 ^ 32 ∧
      (responseFrame seq op handled).seq = seq ∧ (responseFrame seq op handled).op = op := by
  cases handled with
  | error e => exact ⟨e.fits, rfl, rfl⟩
  | ok payload =>
    by_cases h : 6 + payload.length < 2 ^ 32
    · rw [responseFrame_of_lt h]
      exact ⟨h, rfl, rfl⟩
    · rw [responseFrame_of_not_lt h]
      generalize lengthError (6 + payload.length) = e
      exact ⟨e.fits, rfl, rfl⟩

end

lemma answer_frame (handlers : Handlers σ) (docs : σ) (f : Frame) :
    6 + (answer handlers docs f).2.payload.length < 2 ^ 32 ∧
      (answer handlers docs f).2.seq = f.seq ∧ (answer handlers docs f).2.op = f.op := by
  rw [answer]
  cases handlers f.op.toNat with
  | none => exact ⟨length_unknownOp_lt f.op.toNat, rfl, rfl⟩
  | some handler => exact responseFrame_frame (handler docs f.payload).2

lemma respond_eq (f : Frame) (handled : σ × Except Thrown (List UInt8)) :
    respond f.seq.toNat f.op.toNat handled =
      (handled.1, .ok (encodeFrame (responseFrame f.seq f.op handled.2))) := by
  have hbuild {status : UInt8} {payload : List UInt8} (h : 6 + payload.length < 2 ^ 32) :
      buildFrame f.seq.toNat f.op.toNat status payload =
        .ok (encodeFrame ⟨f.seq, f.op, status, payload⟩) := by
    rw [buildFrame_of_lt f.seq.toNat_lt h, UInt32.ofNat_toNat, UInt8.ofNat_toNat]
  obtain ⟨docs, result⟩ := handled
  cases result with
  | error e => simp only [respond, Except.bind, responseFrame_error, hbuild e.fits]
  | ok payload =>
    by_cases h : 6 + payload.length < 2 ^ 32
    · simp only [respond, Except.bind, responseFrame_of_lt h, hbuild h]
    · have hthrow : buildFrame f.seq.toNat f.op.toNat statusOK payload =
          .error (lengthError (6 + payload.length)) := by
        rw [buildFrame, if_neg (by omega)]
      rw [responseFrame_of_not_lt h, responseFrame_error]
      simp only [respond, Except.bind, hthrow]
      generalize lengthError (6 + payload.length) = e
      rw [hbuild e.fits]

lemma readHeader_encodeFrame (f : Frame) :
    readHeader (encodeFrame f) = .ok (f.seq.toNat, f.op.toNat) := by
  have hlen := length_encodeFrame f
  rw [headerLen] at hlen
  have hversion : readUInt 1 (encodeFrame f) 0 = .ok protocolVersion.toNat := by
    rw [readUInt, if_pos (by omega)]
    rfl
  have hseq : readUInt 4 (encodeFrame f) 5 = .ok f.seq.toNat := by
    have h := value_seqField f []
    rw [append_nil] at h
    rw [readUInt, if_pos (by omega), h]
  have hop : readUInt 1 (encodeFrame f) 9 = .ok f.op.toNat := by
    have hvalue : value (((encodeFrame f).drop 9).take 1) = f.op.toNat * 256 ^ 0 + 0 := rfl
    rw [readUInt, if_pos (by omega), hvalue, pow_zero, mul_one, add_zero]
  rw [readHeader, hversion, Except.bind, if_pos rfl, hseq, hop]
  rfl

lemma processFrame_encodeFrame (handlers : Handlers σ) (docs : σ) (f : Frame) :
    processFrame handlers docs (encodeFrame f) =
      ((answer handlers docs f).1, .ok (encodeFrame (answer handlers docs f).2)) := by
  have hpayload : (encodeFrame f).drop headerLen = f.payload := rfl
  simp only [processFrame, readHeader_encodeFrame, hpayload, answer]
  cases handlers f.op.toNat with
  | none =>
    dsimp only
    rw [buildFrame_of_lt f.seq.toNat_lt (length_unknownOp_lt f.op.toNat), UInt32.ofNat_toNat,
      UInt8.ofNat_toNat]
  | some handler => exact respond_eq f (handler docs f.payload)

/-! ## The connection loop -/

lemma nextFrame_eq_some {buffer frame rest : List UInt8}
    (h : nextFrame buffer = some (frame, rest)) :
    5 ≤ buffer.length ∧ ∃ total, total = 5 + value ((buffer.drop 1).take 4) ∧
      total ≤ buffer.length ∧ frame = buffer.take total ∧ rest = buffer.drop total := by
  rw [nextFrame] at h
  split at h
  · cases h
  · dsimp only at h
    split at h <;> cases h
    exact ⟨by omega, _, rfl, by omega, rfl, rfl⟩

lemma nextFrame_append {buffer frame rest : List UInt8} (more : List UInt8)
    (h : nextFrame buffer = some (frame, rest)) :
    nextFrame (buffer ++ more) = some (frame, rest ++ more) := by
  obtain ⟨hlen, total, htotal, hle, rfl, rfl⟩ := nextFrame_eq_some h
  have hlength : ((buffer ++ more).drop 1).take 4 = (buffer.drop 1).take 4 := by
    rw [drop_append_of_le_length (by omega), take_append_of_le_length (by rw [length_drop]; omega)]
  rw [nextFrame, hlength, if_neg (by rw [length_append]; omega), ← htotal,
    if_neg (by rw [length_append]; omega), take_append_of_le_length hle,
    drop_append_of_le_length hle]

def frameSplitter : Splitter UInt8 (List UInt8) where
  next := nextFrame
  length_lt h := by
    obtain ⟨hlen, total, htotal, hle, -, rfl⟩ := nextFrame_eq_some h
    rw [List.length_drop]
    omega
  append := nextFrame_append

lemma frameSplitter_next : frameSplitter.next = nextFrame := rfl

def serveChunks (handlers : Handlers σ) (docs : σ) (chunks : List (List UInt8)) :
    Except Thrown (Served σ × List UInt8) :=
  feedAll frameSplitter (serveFrame handlers) (⟨docs, []⟩, []) chunks

lemma nextFrame_encodeFrame {f : Frame} (hf : f.payload.length < 2 ^ 32 - 6)
    (rest : List UInt8) : nextFrame (encodeFrame f ++ rest) = some (encodeFrame f, rest) := by
  have hlen := length_encodeFrame f
  rw [headerLen] at hlen
  have htotal : 1 + 4 + (6 + f.payload.length) = (encodeFrame f).length := by omega
  rw [nextFrame, value_lengthField hf, if_neg (by rw [length_append]; omega), htotal,
    if_neg (by rw [length_append]; omega), take_left, drop_left]

def answers (handlers : Handlers σ) : σ → List Frame → σ × List Frame
  | docs, [] => (docs, [])
  | docs, f :: frames =>
    let answered := answer handlers docs f
    let others := answers handlers answered.1 frames
    (others.1, answered.2 :: others.2)

section

variable (handlers : Handlers σ)

include handlers

lemma handleAll_serveFrame (s : Served σ) (frames : List Frame) :
    handleAll (serveFrame handlers) s (frames.map encodeFrame) =
      .ok ⟨(answers handlers s.docs frames).1,
        s.written ++ (answers handlers s.docs frames).2.map encodeFrame⟩ := by
  induction frames generalizing s with
  | nil => simp [handleAll, answers]
  | cons f frames ih =>
    rw [map_cons, handleAll, serveFrame, processFrame_encodeFrame]
    simp only [ih, answers, map_cons, append_assoc, singleton_append]

lemma processFrames_encodeFrame (docs : σ) (frames : List Frame) :
    processFrames handlers docs (frames.map encodeFrame) = ((answers handlers docs frames).1,
        (answers handlers docs frames).2.map fun r => .ok (encodeFrame r)) := by
  induction frames generalizing docs with
  | nil => rfl
  | cons f frames ih =>
    rw [map_cons, processFrames, processFrame_encodeFrame]
    simp only [ih, answers, map_cons]

lemma answers_name_requests (docs : σ) (frames : List Frame) :
    List.Forall₂ (fun f r => r.seq = f.seq ∧ r.op = f.op) frames
      (answers handlers docs frames).2 := by
  induction frames generalizing docs with
  | nil => exact .nil
  | cons f frames ih => exact .cons (answer_frame handlers docs f).2 (ih _)

lemma answers_fit (docs : σ) (frames : List Frame) :
    ∀ r ∈ (answers handlers docs frames).2, r.payload.length < 2 ^ 32 - 6 := by
  induction frames generalizing docs with
  | nil => exact fun r hr => absurd hr not_mem_nil
  | cons f frames ih =>
    intro r hr
    obtain rfl | hr := mem_cons.1 hr
    · have hfits := (answer_frame handlers docs f).1
      omega
    · exact ih _ r hr

lemma serveChunks_eq (docs : σ) {frames : List Frame}
    (hframes : ∀ f ∈ frames, f.payload.length < 2 ^ 32 - 6) {chunks : List (List UInt8)}
    (hcut : chunks.flatten = (frames.map encodeFrame).flatten) : serveChunks handlers docs chunks =
      .ok (⟨(answers handlers docs frames).1, (answers handlers docs frames).2.map encodeFrame⟩,
        []) := by
  have hnext : ∀ frame ∈ frames.map encodeFrame, ∀ rest,
      frameSplitter.next (id frame ++ rest) = some (frame, rest) := by
    intro frame hframe rest
    obtain ⟨f, hf, rfl⟩ := mem_map.1 hframe
    rw [frameSplitter_next, id, nextFrame_encodeFrame (hframes f hf)]
  have hdrain : drain frameSplitter (serveFrame handlers) ⟨docs, []⟩
      ((frames.map encodeFrame).map id).flatten = _ := drain_flatten rfl hnext _
  rw [map_id, handleAll_serveFrame, nil_append] at hdrain
  rw [serveChunks, feedAll_eq_drain rfl, hcut, nil_append, hdrain]

end

/-- However the requests are cut into chunks, each is answered once and in order by what
`processFrame` makes of it, and the relay reads exactly these answers. -/
theorem serveChunks_answers_each_frame (handlers : Handlers σ) (docs : σ) (frames : List Frame)
    (hframes : ∀ f ∈ frames, f.payload.length < 2 ^ 32 - 6) (chunks : List (List UInt8))
    (hcut : chunks.flatten = (frames.map encodeFrame).flatten) :
    ∃ (after : σ) (responses : List Frame),
      serveChunks handlers docs chunks = .ok (⟨after, responses.map encodeFrame⟩, []) ∧
      processFrames handlers docs (frames.map encodeFrame) =
        (after, responses.map fun r => .ok (encodeFrame r)) ∧
      List.Forall₂ (fun f r => r.seq = f.seq ∧ r.op = f.op) frames responses ∧
      readFrames responses.length (responses.map encodeFrame).flatten = .ok (responses, []) := by
  refine ⟨_, _, serveChunks_eq handlers docs hframes hcut,
    processFrames_encodeFrame handlers docs frames, answers_name_requests handlers docs frames, ?_⟩
  have h := readFrames_encodeFrame (answers_fit handlers docs frames) []
  rwa [append_nil] at h

def pingHandlers : Handlers Unit :=
  fun op => if op = 8 then some fun docs _ => (docs, .ok []) else none

def pingRequests : List Frame := [⟨1, 8, statusOK, []⟩, ⟨2, 9, statusOK, [0x61]⟩]

/-- A ping and an unknown op, cut within the second header. -/
theorem ping_requests_answered : let bytes := (pingRequests.map encodeFrame).flatten
    ∃ responses : List Frame, serveChunks pingHandlers () [bytes.take 14, bytes.drop 14] =
        .ok (⟨(), responses.map encodeFrame⟩, []) ∧
      readFrames responses.length (responses.map encodeFrame).flatten = .ok (responses, []) := by
  obtain ⟨_, responses, hserve, -, -, hread⟩ := serveChunks_answers_each_frame pingHandlers ()
    pingRequests (by decide) [(pingRequests.map encodeFrame).flatten.take 14,
      (pingRequests.map encodeFrame).flatten.drop 14] (by decide)
  exact ⟨responses, hserve, hread⟩

end CollabEditor.Relay.Socket
