import CollabEditor.Support.Replication
import CollabEditor.Relay.RoomText
/-!
# Sync messages in the sidecar

`handleSyncMessage` of `cmd/yjs-engine/index.js`, which reads a sync message again with a varuint
reader of its own: 32-bit integers, at most six bytes, and a shift that counts modulo 32.
-/

namespace CollabEditor.Relay.Sidecar

open Support SharedText List VarUint Nat

/-! ## Reading -/

/-- The loop of `readVarUint` on the bytes that are left. JavaScript's `<<` takes the shift
modulo 32, as `<<<` does here. -/
def readVarUintLoop : List UInt8 → Nat → UInt32 → Nat → Except String (UInt32 × Nat)
  | [], _, _, _ => .error "ERR: readVarUint: unexpected eof"
  | b :: rest, pos, n, shift =>
    let n := n ||| ((b &&& 0x7f).toUInt32 <<< UInt32.ofNat shift)
    if b &&& 0x80 = 0 then .ok (n, pos + 1)
    else if shift + 7 > 35 then .error "ERR: readVarUint: overflow"
    else readVarUintLoop rest (pos + 1) n (shift + 7)

def readVarUint (buf : List UInt8) (pos : Nat) : Except String (UInt32 × Nat) :=
  readVarUintLoop (buf.drop pos) pos 0 0

def readVarUint8Array (buf : List UInt8) (pos : Nat) : Except String (List UInt8) :=
  match readVarUint buf pos with
  | .error e => .error e
  | .ok (len, pos) =>
    if pos + len.toNat > buf.length then .error "ERR: readVarUint8Array: short buffer"
    else .ok ((buf.drop pos).take len.toNat)

/-! ## The handler -/

/-- The part of the yjs library that the handler calls. `read` is what `applyUpdate` gets out
of an update, with the exception if it throws: an update that is damaged near its end throws
after the part before has been integrated. -/
structure Yjs (K : Type) where
  read : List UInt8 → Update K × Option String
  encodeStateAsUpdate : Doc K → List UInt8 → Except String (List UInt8)

variable {K : Type}

def applyUpdate (yjs : Yjs K) (doc : Doc K) (update : List UInt8) : Doc K × Except String Unit :=
  if update = [] then (doc, .ok ())
  else
    let read := yjs.read update
    (doc.receive read.1, match read.2 with | some e => .error e | none => .ok ())

/-- `handleSyncMessage`; an error is the text of the response. -/
def handleSyncMessage (yjs : Yjs K) (doc : Doc K) (syncBody : List UInt8) :
    Doc K × Except String (UInt8 × List UInt8) :=
  match readVarUint syncBody 0 with
  | .error e => (doc, .error e)
  | .ok (msgType, pos) =>
    if msgType = SyncMsg.msgSyncStep1.toUInt32 then
      let reply := do
        let sv ← readVarUint8Array syncBody pos
        let update ← yjs.encodeStateAsUpdate doc sv
        return SyncMsg.msgSyncStep2 :: (encode update.length ++ update)
      (doc, reply.map fun bytes => (SyncMsg.msgSyncStep1, bytes))
    else if msgType = SyncMsg.msgSyncStep2.toUInt32 ∨ msgType = SyncMsg.msgUpdate.toUInt32 then
      match readVarUint8Array syncBody pos with
      | .error e => (doc, .error e)
      | .ok update =>
        let applied := applyUpdate yjs doc update
        (applied.1, applied.2.map fun _ => (msgType.toUInt8, []))
    else (doc, .error ("BAD_SYNC_TYPE: unknown sync sub-type " ++ toString msgType.toNat))

def engine (yjs : Yjs K) : Engine (Doc K) := ⟨handleSyncMessage yjs⟩

/-! ## What the reader accepts -/

variable {n m : UInt32} {shift pos pos' : Nat} {bytes : List UInt8}

lemma accumulate_toNat (b : UInt8) (hn : n.toNat < 2 ^ shift)
    (hfit : n.toNat + 2 ^ shift * (b.toNat % 128) < 2 ^ 32) :
    (n ||| ((b &&& 0x7f).toUInt32 <<< UInt32.ofNat shift)).toNat =
      n.toNat + 2 ^ shift * (b.toNat % 128) := by
  have hdigit : (b &&& 0x7f).toUInt32.toNat = b.toNat % 128 := by
    rw [UInt8.toNat_toUInt32, SyncMsg.and_0x7f_toNat]
  by_cases hzero : b.toNat % 128 = 0
  · -- whatever the shift is taken for, nothing is shifted
    rw [UInt32.toNat_or, UInt32.toNat_shiftLeft, hdigit, hzero, zero_shiftLeft]
    simp
  · have hshift : shift < 32 := by
      by_contra hge
      have hpow : 2 ^ 32 ≤ 2 ^ shift := Nat.pow_le_pow_right (by omega) (by omega)
      have hmul : 2 ^ shift * 1 ≤ 2 ^ shift * (b.toNat % 128) :=
        mul_le_mul_left _ (by omega)
      omega
    have hamount : (UInt32.ofNat shift).toNat % 32 = shift := by
      rw [UInt32.toNat_ofNat', mod_eq_of_lt (by omega), mod_eq_of_lt (by omega)]
    rw [UInt32.toNat_or, UInt32.toNat_shiftLeft, hamount, hdigit, shiftLeft_eq, mul_comm,
      Nat.mod_eq_of_lt (by omega), Nat.or_comm, ← Nat.two_pow_add_eq_or_of_lt hn, Nat.add_comm]

lemma readVarUintLoop_ok (rest : List UInt8) (hterm : VarUint.Terminated bytes)
    (h : readVarUintLoop (bytes ++ rest) pos n shift = .ok (m, pos')) :
    pos' = pos + bytes.length ∧ (shift ≤ 35 → shift + 7 * bytes.length ≤ 42) ∧
      (n.toNat < 2 ^ shift → n.toNat + 2 ^ shift * value bytes < 2 ^ 32 →
        m.toNat = n.toNat + 2 ^ shift * value bytes) := by
  induction bytes generalizing pos n shift with
  | nil => exact absurd hterm not_terminated_nil
  | cons b bytes ih =>
    have hsum : n.toNat + 2 ^ shift * value (b :: bytes) =
        n.toNat + 2 ^ shift * (b.toNat % 128) + 2 ^ (shift + 7) * value bytes := by
      rw [value_cons, pow_add]
      ring
    simp only [cons_append, readVarUintLoop, SyncMsg.and_0x80_eq_zero_iff] at h
    by_cases hb : b.toNat < 128
    · obtain rfl := (terminated_cons_of_lt hb).1 hterm
      rw [if_pos hb] at h
      obtain ⟨rfl, rfl⟩ := Prod.mk.inj (Except.ok.inj h)
      refine ⟨rfl, fun hshift => by rw [length_singleton]; omega, fun hn hfit => ?_⟩
      rw [accumulate_toNat b hn (by omega), hsum, value_nil, mul_zero, add_zero]
    · rw [if_neg hb] at h
      split at h
      · cases h
      · obtain ⟨rfl, hlen, hvalue⟩ := ih ((terminated_cons_of_ge hb).1 hterm) h
        refine ⟨by rw [length_cons]; omega, fun _ => by rw [length_cons]; omega, fun hn hfit => ?_⟩
        have hacc := accumulate_toNat b hn (by omega)
        rw [hsum, ← hacc]
        refine hvalue ?_ ?_
        · rw [hacc]
          exact add_digit_lt b hn
        · rwa [hacc, ← hsum]

lemma readVarUint_ok {buf rest : List UInt8} (hsplit : buf.drop pos = bytes ++ rest)
    (hterm : VarUint.Terminated bytes) (h : readVarUint buf pos = .ok (m, pos')) :
    pos' = pos + bytes.length ∧ bytes.length ≤ 6 ∧
      (value bytes < 2 ^ 32 → m.toNat = value bytes) := by
  rw [readVarUint, hsplit] at h
  obtain ⟨hpos, hlen, hvalue⟩ := readVarUintLoop_ok rest hterm h
  exact ⟨hpos, by omega, fun hfit => by simpa using hvalue (by simp) (by simpa using hfit)⟩

lemma value_lt_of_length_le (h : bytes.length ≤ 6) : value bytes < 2 ^ 64 := by
  calc value bytes < 128 ^ bytes.length := value_lt bytes
    _ ≤ 128 ^ 6 := Nat.pow_le_pow_right (by omega) h
    _ < 2 ^ 64 := by norm_num

lemma readVarUint8Array_ok {body tb lb rest update : List UInt8}
    (hh : SyncMsg.Header body tb lb rest) (hlen : body.length < 2 ^ 32)
    (hfit : value lb % 2 ^ 64 ≤ rest.length) (h : readVarUint8Array body tb.length = .ok update) :
    update = rest.take (value lb % 2 ^ 64) := by
  have hdrop : body.drop tb.length = lb ++ rest := by
    rw [hh.split, drop_left]
  have hlength : body.length = tb.length + (lb.length + rest.length) := by
    rw [hh.split, length_append, length_append]
  rw [readVarUint8Array] at h
  split at h
  · cases h
  · rename_i len pos hpos
    obtain ⟨rfl, hlb, hvalue⟩ := readVarUint_ok hdrop hh.lengthTerminated hpos
    rw [mod_eq_of_lt (value_lt_of_length_le hlb)] at hfit ⊢
    rw [hvalue (by omega)] at h
    split at h
    · cases h
    · obtain rfl := Except.ok.inj h
      rw [← drop_drop, hdrop, drop_left]

/-- What the sidecar applies for a message of which the relay has read the type and the payload:
nothing, or that payload, and this only for a message that carries an update. -/
lemma handleSyncMessage_doc (yjs : Yjs K) (doc : Doc K) {body payload : List UInt8} {t : UInt8}
    (hread : SyncMsg.readSyncSubMessage body = .value (t, payload)) (hlen : body.length < 2 ^ 32) :
    (handleSyncMessage yjs doc body).1 = doc ∨ t ≠ SyncMsg.msgSyncStep1 ∧ payload ≠ [] ∧
        (handleSyncMessage yjs doc body).1 = doc.receive (yjs.read payload).1 := by
  obtain ⟨tb, lb, rest, hh, ht, hfit, rfl⟩ := SyncMsg.header_of_value hread
  have hstart : body.drop 0 = tb ++ (lb ++ rest) := hh.split
  rw [handleSyncMessage]
  split
  · exact .inl rfl
  · rename_i msgType pos hpos
    obtain ⟨rfl, htb, htype⟩ := readVarUint_ok hstart hh.typeTerminated hpos
    have hsub := hh.subType
    rw [mod_eq_of_lt (value_lt_of_length_le htb)] at ht hsub
    rw [zero_add]
    split
    · exact .inl rfl
    · rename_i hstep1
      have hne : t ≠ SyncMsg.msgSyncStep1 := by
        rintro rfl
        exact hstep1 (UInt32.toNat_inj.1 (by rw [htype (by omega), ← ht]; rfl))
      split
      · split
        · exact .inl rfl
        · rename_i update hupdate
          obtain rfl := readVarUint8Array_ok hh hlen hfit hupdate
          rw [applyUpdate]
          split
          · exact .inl rfl
          · rename_i hpayload
            exact .inr ⟨hne, hpayload, rfl⟩
      · exact .inl rfl

end CollabEditor.Relay.Sidecar
