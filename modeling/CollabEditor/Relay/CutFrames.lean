import CollabEditor.Relay.SidecarSocket
/-!
# A stream that ends inside a frame

`readFrame` of `internal/relay/yjsengine/protocol.go` and `readLoop` of `sidecar_client.go` at the
end of the stream.  In a header `io.ReadFull` gives `io.ErrUnexpectedEOF`.
-/

namespace CollabEditor.Relay.Socket

open Support List

/-- `errors.Is(err, errInvalidFrame)`. -/
def ReadError.isInvalidFrame : ReadError → Bool
  | .eof | .unexpectedEof => false
  | .version _ | .bodyTooSmall _ | .shortPayload => true

/-- What the pending requests fail with: `ErrSidecarUnavailable` alone, or with the error that
broke the connection. -/
inductive LoopEnd
  | closed
  | broken (err : ReadError)

lemma length_of_readFrame {bytes rest : List UInt8} {f : Frame}
    (h : readFrame bytes = .ok (f, rest)) : rest.length < bytes.length := by
  simp only [readFrame] at h
  split_ifs at h with hempty hheader
  cases h
  simp only [headerLen, length_drop] at hheader ⊢
  omega

/-- `readLoop`: the frames that are delivered until an error ends the loop. -/
def readLoop (bytes : List UInt8) : List Frame × LoopEnd :=
  match h : readFrame bytes with
  | .error .eof => ([], .closed)
  | .error err => ([], .broken err)
  | .ok (f, rest) =>
    have := length_of_readFrame h
    let rest := readLoop rest
    (f :: rest.1, rest.2)
termination_by bytes.length

lemma readLoop_of_error {bytes : List UInt8} {err : ReadError} (h : readFrame bytes = .error err) :
    readLoop bytes = ([], if err = .eof then .closed else .broken err) := by
  rw [readLoop]
  split <;> simp_all

lemma readLoop_of_ok {bytes rest : List UInt8} {f : Frame} (h : readFrame bytes = .ok (f, rest)) :
    readLoop bytes = (f :: (readLoop rest).1, (readLoop rest).2) := by
  rw [readLoop]
  split
  · rename_i heof
    exact absurd (heof.symm.trans h) nofun
  · rename_i herr
    exact absurd (herr.symm.trans h) nofun
  · rename_i hok
    cases hok.symm.trans h
    rfl

lemma readLoop_encodeFrames {frames : List Frame}
    (hframes : ∀ f ∈ frames, f.payload.length < 2 ^ 32 - 6) (rest : List UInt8) :
    readLoop ((frames.map encodeFrame).flatten ++ rest) =
      (frames ++ (readLoop rest).1, (readLoop rest).2) := by
  induction frames with
  | nil => rfl
  | cons f frames ih =>
    rw [map_cons, flatten_cons, append_assoc,
      readLoop_of_ok (readFrame_encodeFrame (hframes f mem_cons_self) _),
      ih fun g hg => hframes g (mem_cons_of_mem _ hg)]
    rfl

lemma readFrame_cut {f : Frame} (hf : f.payload.length < 2 ^ 32 - 6) {cut : List UInt8}
    (hcut : cut <+: encodeFrame f) (hproper : cut ≠ encodeFrame f) :
    readFrame cut = .error (if cut = [] then .eof
      else if cut.length < headerLen then .unexpectedEof else .shortPayload) := by
  have hshort : cut.length < headerLen + f.payload.length := by
    rw [← length_encodeFrame]
    exact Nat.lt_of_le_of_ne hcut.length_le fun hlen => hproper (hcut.eq_of_length hlen)
  rw [readFrame]
  by_cases hempty : cut = []
  · rw [if_pos hempty, if_pos hempty]
  by_cases hheader : cut.length < headerLen
  · rw [if_neg hempty, if_neg hempty, if_pos hheader, if_pos hheader]
  have htake : cut.take headerLen = (encodeFrame f ++ []).take headerLen := by
    obtain ⟨tail, htail⟩ := hcut
    rw [append_nil, ← htail, take_append_of_le_length (by omega)]
  have hbody : BigEndian.value (((cut.take headerLen).drop 1).take 4) = 6 + f.payload.length := by
    rw [htake]
    exact value_lengthField hf []
  have hversion : (cut.take headerLen).getD 0 0 = protocolVersion := by
    rw [htake]
    rfl
  simp only [hempty, hheader, hbody, hversion, length_drop, if_false, ne_eq, not_true]
  rw [if_neg (by omega), if_pos (by omega)]

/-- The frames before the cut are read in order. The error is an `errInvalidFrame` exactly if the
header of the cut frame is complete. -/
theorem cut_frame_invalid_iff (frames : List Frame) (next : Frame) (cut : List UInt8)
    (hframes : ∀ f ∈ frames, f.payload.length < 2 ^ 32 - 6)
    (hnext : next.payload.length < 2 ^ 32 - 6) (hcut : cut <+: encodeFrame next)
    (hproper : cut ≠ encodeFrame next) :
    readFrames frames.length ((frames.map encodeFrame).flatten ++ cut) = .ok (frames, cut) ∧
    ∃ err, readFrame cut = .error err ∧ (err = .eof ↔ cut = []) ∧
      (err.isInvalidFrame ↔ headerLen ≤ cut.length) ∧
      ∃ ending, readLoop ((frames.map encodeFrame).flatten ++ cut) = (frames, ending) ∧
        (ending = .closed ↔ cut = []) := by
  have hread := readFrame_cut hnext hcut hproper
  have hloop := readLoop_encodeFrames hframes cut
  rw [readLoop_of_error hread, append_nil] at hloop
  refine ⟨readFrames_encodeFrame hframes cut, _, hread, ?_, ?_, _, hloop, ?_⟩
  · split_ifs <;> simp_all
  · split_ifs <;> simp_all [ReadError.isInvalidFrame, headerLen]
  · split_ifs <;> simp_all

/-- One frame, and the header of the next without its payload. -/
theorem cut_payload_invalid : ∃ err, readFrame ((encodeFrame ⟨2, 3, 0, [7]⟩).take 11) = .error err ∧
      err.isInvalidFrame = true := by
  obtain ⟨-, err, hread, -, hinvalid, -⟩ := cut_frame_invalid_iff [⟨1, 3, 0, []⟩] ⟨2, 3, 0, [7]⟩
    ((encodeFrame ⟨2, 3, 0, [7]⟩).take 11) (by decide) (by decide) (by exact take_prefix _ _)
    (by decide)
  exact ⟨err, hread, hinvalid.2 (by decide)⟩

/-- The stream ends after the first byte of a frame. -/
theorem cut_header_not_invalid :
    ¬ ∀ (next : Frame) (cut : List UInt8), next.payload.length < 2 ^ 32 - 6 →
      cut <+: encodeFrame next → cut ≠ encodeFrame next → cut ≠ [] →
      ∃ err, readFrame cut = .error err ∧ err.isInvalidFrame = true := by
  intro hevery
  obtain ⟨err, hread, hinvalid⟩ := hevery ⟨2, 3, 0, []⟩ [1] (by decide) ⟨_, rfl⟩ (by decide)
    (by decide)
  cases hread
  cases hinvalid

end CollabEditor.Relay.Socket
