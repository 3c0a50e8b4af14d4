import CollabEditor.ProviderSdk.SyncParsers
/-!
# What the sidecar writes, the others read

The writer of `cmd/yjs-engine/index.js` with the three readers.  JavaScript's `&`, `|` and `<<` work
on signed 32-bit integers, `>>>` on unsigned ones.
-/

namespace CollabEditor.Relay.Sidecar

open Support SharedText List Nat VarUint

/-! ## The writer -/

structure Encoder where
  chunks : List (List UInt8)
  length : Nat

namespace Encoder

def createEncoder : Encoder := ⟨[], 0⟩

def push (e : Encoder) (chunk : List UInt8) (length : Nat) : Encoder :=
  ⟨e.chunks ++ [chunk], e.length + length⟩

def byteOf (x : Int32) : UInt8 := x.toUInt32.toUInt8

def shiftRight7 (n : Nat) : Nat := (UInt32.ofNat n >>> 7).toNat

lemma shiftRight7_le (n : Nat) : shiftRight7 n ≤ n / 128 := by
  have hmod : n % 2 ^ 32 ≤ n := mod_le n _
  rw [shiftRight7, UInt32.toNat_shiftRight, UInt32.toNat_ofNat', shiftRight_eq_div_pow]
  exact Nat.div_le_div_right hmod

/-- `writeVarUint`, of a number that is a natural one. -/
def writeVarUint (e : Encoder) (n : Nat) : Encoder :=
  if 0x7f < n then
    writeVarUint (e.push [byteOf (0x80 ||| (Int32.ofNat n &&& 0x7f))] 1) (shiftRight7 n)
  else e.push [byteOf (Int32.ofNat n &&& 0x7f)] 1
termination_by n
decreasing_by
  have := shiftRight7_le n
  omega

def writeVarUint8Array (e : Encoder) (bytes : List UInt8) : Encoder :=
  (e.writeVarUint bytes.length).push bytes bytes.length

/-- `Buffer.concat`: cut off or filled up with zeros to the given length. -/
def encoderToBuffer (e : Encoder) : List UInt8 :=
  let bytes := e.chunks.flatten
  bytes.take e.length ++ replicate (e.length - bytes.length) 0

end Encoder

def syncStep2Reply (update : List UInt8) : List UInt8 :=
  ((Encoder.createEncoder.writeVarUint SyncMsg.msgSyncStep2.toNat).writeVarUint8Array
    update).encoderToBuffer

def varUintBytes (n : Nat) : List UInt8 := (Encoder.createEncoder.writeVarUint n).encoderToBuffer

namespace Encoder

lemma and_0x7f_toNat (n : Nat) : (Int32.ofNat n &&& 0x7f).toUInt32.toNat = n % 128 := by
  have hmask : (0x7f : Int32).toUInt32.toNat = 2 ^ 7 - 1 := rfl
  have hnum : (Int32.ofNat n).toUInt32.toNat = n % 2 ^ 32 := UInt32.toNat_ofNat'
  rw [Int32.toUInt32_and, UInt32.toNat_and, hmask, hnum, and_two_pow_sub_one_eq_mod]
  omega

variable {n : Nat} {bytes : List UInt8} {e : Encoder}

lemma byteOf_last (h : n < 128) : byteOf (Int32.ofNat n &&& 0x7f) = UInt8.ofNat n := by
  apply UInt8.toNat_inj.1
  rw [byteOf, UInt32.toNat_toUInt8, and_0x7f_toNat, UInt8.toNat_ofNat']
  omega

lemma byteOf_more (n : Nat) :
    byteOf (0x80 ||| (Int32.ofNat n &&& 0x7f)) = UInt8.ofNat (128 + n % 128) := by
  have hlow : n % 128 < 2 ^ 7 := mod_lt _ (by omega)
  have hor : (0x80 : Int32).toUInt32.toNat ||| n % 128 = 128 + n % 128 :=
    (two_pow_add_eq_or_of_lt hlow 1).symm
  apply UInt8.toNat_inj.1
  rw [byteOf, UInt32.toNat_toUInt8, Int32.toUInt32_or, UInt32.toNat_or, and_0x7f_toNat, hor,
    UInt8.toNat_ofNat']

lemma shiftRight7_of_lt (h : n < 2 ^ 32) : shiftRight7 n = n / 128 := by
  rw [shiftRight7, UInt32.toNat_shiftRight, UInt32.toNat_ofNat', mod_eq_of_lt h,
    shiftRight_eq_div_pow]
  rfl

/-- The encoder has counted the bytes of its chunks, which are these. -/
structure Holds (e : Encoder) (bytes : List UInt8) : Prop where
  flatten : e.chunks.flatten = bytes
  length : e.length = bytes.length

lemma holds_createEncoder : Holds createEncoder [] := ⟨rfl, rfl⟩

variable (h : Holds e bytes)
include h

lemma Holds.push (chunk : List UInt8) : Holds (e.push chunk chunk.length) (bytes ++ chunk) where
  flatten := by simp [Encoder.push, h.flatten]
  length := by simp [Encoder.push, h.length]

lemma Holds.writeVarUint (hn : n < 2 ^ 32) : Holds (e.writeVarUint n) (bytes ++ encode n) := by
  fun_induction Encoder.writeVarUint e n generalizing bytes with
  | case1 e n hmore ih =>
    rw [shiftRight7_of_lt hn, byteOf_more] at ih
    have hrest := ih (h.push _) (by omega)
    rwa [shiftRight7_of_lt hn, byteOf_more, encode_of_ge (by omega), append_cons]
  | case2 e n hlast =>
    rw [byteOf_last (by omega), encode_of_lt (by omega)]
    exact h.push _

lemma Holds.encoderToBuffer : e.encoderToBuffer = bytes := by
  simp [Encoder.encoderToBuffer, h.flatten, h.length]

end Encoder

lemma varUintBytes_eq {n : Nat} (hn : n < 2 ^ 32) : varUintBytes n = encode n :=
  (Encoder.holds_createEncoder.writeVarUint hn).encoderToBuffer

lemma syncStep2Reply_eq {update : List UInt8} (h : update.length < 2 ^ 32) :
    syncStep2Reply update = SyncMsg.msgSyncStep2 :: (encode update.length ++ update) := by
  have htype := Encoder.holds_createEncoder.writeVarUint (n := SyncMsg.msgSyncStep2.toNat)
    (by decide)
  have hbody := ((htype.writeVarUint h).push update).encoderToBuffer
  rw [encode_of_lt (n := SyncMsg.msgSyncStep2.toNat) (by decide), UInt8.ofNat_toNat,
    nil_append, append_assoc] at hbody
  exact hbody

/-! ## The reader, on signed integers -/

namespace Signed

/-- The loop of `readVarUint` as `n |= (b & 0x7f) << shift` computes it, with `n >>> 0` at the
end. -/
def readVarUintLoop : List UInt8 → Nat → Int32 → Nat → Except String (UInt32 × Nat)
  | [], _, _, _ => .error "ERR: readVarUint: unexpected eof"
  | b :: rest, pos, n, shift =>
    let n := n ||| ((b &&& 0x7f).toUInt32.toInt32 <<< Int32.ofNat shift)
    if b &&& 0x80 = 0 then .ok (n.toUInt32, pos + 1)
    else if shift + 7 > 35 then .error "ERR: readVarUint: overflow"
    else readVarUintLoop rest (pos + 1) n (shift + 7)

def readVarUint (buf : List UInt8) (pos : Nat) : Except String (UInt32 × Nat) :=
  readVarUintLoop (buf.drop pos) pos 0 0

lemma toUInt32_shiftLeft (x : UInt32) {shift : Nat} (h : shift < 36) :
    (x.toInt32 <<< Int32.ofNat shift).toUInt32 = x <<< UInt32.ofNat shift := by
  have hamount : ∀ shift < 36,
      (Int32.ofNat shift).toBitVec.smod 32 = (UInt32.ofNat shift).toBitVec % 32 := by decide
  apply UInt32.toBitVec_inj.1
  rw [Int32.toBitVec_toUInt32, Int32.toBitVec_shiftLeft, UInt32.toBitVec_toInt32,
    UInt32.toBitVec_shiftLeft, hamount shift h]

lemma readVarUintLoop_eq (bytes : List UInt8) (pos : Nat) (n : Int32) {shift : Nat}
    (h : shift < 36) :
    readVarUintLoop bytes pos n shift = Sidecar.readVarUintLoop bytes pos n.toUInt32 shift := by
  induction bytes generalizing pos n shift with
  | nil => rfl
  | cons b bytes ih =>
    have hacc : (n ||| ((b &&& 0x7f).toUInt32.toInt32 <<< Int32.ofNat shift)).toUInt32 =
        n.toUInt32 ||| ((b &&& 0x7f).toUInt32 <<< UInt32.ofNat shift) := by
      rw [Int32.toUInt32_or, toUInt32_shiftLeft _ h]
    rw [readVarUintLoop, Sidecar.readVarUintLoop, ← hacc]
    by_cases hover : shift + 7 > 35
    · simp only [hover, if_true]
    · simp only [hover, if_false]
      rw [ih (pos + 1) _ (by omega)]

lemma readVarUint_eq (buf : List UInt8) (pos : Nat) :
    readVarUint buf pos = Sidecar.readVarUint buf pos :=
  readVarUintLoop_eq _ pos 0 (by omega)

end Signed

lemma readVarUint_encode (before rest : List UInt8) {n : Nat} (hn : n < 2 ^ 32) :
    ∃ m, readVarUint (before ++ (encode n ++ rest)) before.length =
      .ok (m, before.length + (encode n).length) ∧ m.toNat = n := by
  obtain ⟨hterm, hvalue⟩ := encode_encodes n
  have hlen : (encode n).length ≤ 5 := length_encode_le (k := 4) (by omega)
  have hdrop : (before ++ (encode n ++ rest)).drop before.length = encode n ++ rest :=
    drop_left
  obtain ⟨m, hread, hm⟩ := readVarUint_of_length_le hdrop hterm (by omega) (by omega)
  exact ⟨m, hread, hm.trans hvalue⟩

end CollabEditor.Relay.Sidecar

namespace CollabEditor.ProviderSdk

open Support CollabEditor.Relay SyncMsg

/-- The relay reads the sidecar's reply as the update that it was made for. The sidecar and the
Python SDK read a number below `2 ^ 32` as it was written, and no encoding of it is shorter. -/
theorem sidecar_messages_round_trip : (∀ update : List UInt8, update.length < 2 ^ 31 →
      readSyncSubMessage (Sidecar.syncStep2Reply update) = .value (msgSyncStep2, update)) ∧
    ∀ n < 2 ^ 32, (∀ before rest : List UInt8,
        ∃ m, Sidecar.Signed.readVarUint (before ++ (Sidecar.varUintBytes n ++ rest))
            before.length = .ok (m, before.length + (Sidecar.varUintBytes n).length) ∧
          m.toNat = n) ∧ (∀ rest, Python.readVaruint (Sidecar.varUintBytes n ++ rest) = (n, rest)) ∧
      VarUint.Encodes (Sidecar.varUintBytes n) n ∧
      ∀ bytes, VarUint.Encodes bytes n → (Sidecar.varUintBytes n).length ≤ bytes.length := by
  constructor
  · intro update h
    rw [Sidecar.syncStep2Reply_eq (by omega)]
    exact readSyncSubMessage_written (by decide) (by omega)
  · intro n hn
    simp only [Sidecar.varUintBytes_eq hn, Sidecar.Signed.readVarUint_eq]
    exact ⟨fun before rest => Sidecar.readVarUint_encode before rest hn,
      Python.readVaruint_encode n,
      VarUint.encode_encodes n, fun bytes => VarUint.length_encode_le_of_encodes⟩

theorem round_trip_of_two_bytes :
    readSyncSubMessage (Sidecar.syncStep2Reply [7, 8]) = .value (1, [7, 8]) ∧
      Python.readVaruint (Sidecar.varUintBytes 4294967295 ++ [9]) = (4294967295, [9]) := by
  obtain ⟨hreply, hnumber⟩ := sidecar_messages_round_trip
  exact ⟨hreply [7, 8] (by decide), (hnumber 4294967295 (by decide)).2.1 [9]⟩

end CollabEditor.ProviderSdk
