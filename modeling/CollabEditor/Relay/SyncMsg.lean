import CollabEditor.Support.VarUint
import Mathlib.Tactic.NormNum
/-!
# The relay's sync sub-frame parser

`internal/relay/yjsengine/syncmsg.go`: `varuint(type)`, `varuint(payloadLen)`, payload.  Go's `int`
wraps at 64 bits, and a slice expression whose bounds are out of order panics.
-/

namespace CollabEditor.Relay.SyncMsg

open Support List VarUint Nat

def msgSyncStep1 : UInt8 := 0
def msgSyncStep2 : UInt8 := 1
def msgUpdate : UInt8 := 2

inductive SyncError
  | unexpectedEof
  | overflow
  | unknownSubType (t : UInt64)
  | shortPayload
  deriving DecidableEq

def SyncError.message : SyncError → String
  | unexpectedEof => "yjsengine: varuint: unexpected eof"
  | overflow => "yjsengine: varuint: overflow"
  | unknownSubType t => "yjsengine: unknown sync sub-type " ++ toString t.toNat
  | shortPayload => "yjsengine: short sync payload"

/-- What a call of a Go function can end in: a value, a returned error, or a
run-time panic. -/
inductive Outcome (ε α : Type)
  | value (a : α)
  | error (e : ε)
  | panicked
  deriving DecidableEq

/-- The loop of `readVarUint` on the bytes that are left, with the accumulator
`n` and the shift. -/
def readVarUintLoop : List UInt8 → Nat → UInt64 → Nat → Except SyncError (UInt64 × Nat)
  | [], _, _, _ => .error .unexpectedEof
  | b :: rest, off, n, shift =>
    let n := n ||| ((b &&& 0x7f).toUInt64 <<< UInt64.ofNat shift)
    if b &&& 0x80 = 0 then .ok (n, off + 1)
    else if shift + 7 > 63 then .error .overflow
    else readVarUintLoop rest (off + 1) n (shift + 7)

def readVarUint (buf : List UInt8) (off : Nat) : Except SyncError (UInt64 × Nat) :=
  readVarUintLoop (buf.drop off) off 0 0

/-- The slice expression `body[low:high]`; `none` is the run-time panic. -/
def slice (body : List UInt8) (low high : Int) : Option (List UInt8) :=
  if 0 ≤ low ∧ low ≤ high ∧ high ≤ body.length then
    some ((body.take high.toNat).drop low.toNat)
  else none

/-- The part of `ReadSyncSubMessage` after both varuints have been read: the
bounds check and the slice, both with the wrapped sum `off + int(plen)`. -/
def slicePayload (body : List UInt8) (t plen : UInt64) (off : Nat) :
    Outcome SyncError (UInt8 × List UInt8) :=
  let high := Int64.ofNat off + plen.toInt64
  if high.toInt > body.length then .error .shortPayload
  else
    match slice body off high.toInt with
    | none => .panicked
    | some payload => .value (t.toUInt8, payload)

def readSyncSubMessage (body : List UInt8) : Outcome SyncError (UInt8 × List UInt8) :=
  match readVarUint body 0 with
  | .error e => .error e
  | .ok (t, off) =>
    if t = msgSyncStep1.toUInt64 ∨ t = msgSyncStep2.toUInt64 ∨ t = msgUpdate.toUInt64 then
      match readVarUint body off with
      | .error e => .error e
      | .ok (plen, off) => slicePayload body t plen off
    else .error (.unknownSubType t)

/-! ## One varuint -/

lemma and_0x7f_toNat (b : UInt8) : (b &&& 0x7f).toNat = b.toNat % 128 := by
  rw [UInt8.toNat_and, show (0x7f : UInt8).toNat = 2 ^ 7 - 1 from rfl, and_two_pow_sub_one_eq_mod]

lemma and_0x80_eq_zero_iff (b : UInt8) : b &&& 0x80 = 0 ↔ b.toNat < 128 := by
  have h : ∀ b : BitVec 8, (b &&& 0x80#8 = 0#8) ↔ b.toNat < 128 := by decide
  rw [← UInt8.toBitVec_inj]
  exact h b.toBitVec

variable {n plen t : UInt64} {shift off : Nat} {body lb rest tb payload : List UInt8}

lemma accumulate_toNat (b : UInt8) (hn : n.toNat < 2 ^ shift) (hshift : shift ≤ 63) :
    (n ||| ((b &&& 0x7f).toUInt64 <<< UInt64.ofNat shift)).toNat =
      (n.toNat + 2 ^ shift * (b.toNat % 128)) % 2 ^ 64 := by
  have hsplit : (2 : Nat) ^ 64 = 2 ^ shift * 2 ^ (64 - shift) := by
    rw [← Nat.pow_add, Nat.add_sub_cancel' (by omega)]
  have hamount : (UInt64.ofNat shift).toNat % 64 = shift := by
    rw [UInt64.toNat_ofNat', mod_eq_of_lt (by omega), mod_eq_of_lt (by omega)]
  have hlow : 2 ^ shift * (b.toNat % 128) % 2 ^ 64 =
      2 ^ shift * (b.toNat % 128 % 2 ^ (64 - shift)) := by
    rw [hsplit, mul_mod_mul_left]
  have hsum : 2 ^ shift * (b.toNat % 128 % 2 ^ (64 - shift)) + n.toNat < 2 ^ 64 := by
    have hlt : b.toNat % 128 % 2 ^ (64 - shift) + 1 ≤ 2 ^ (64 - shift) :=
      Nat.mod_lt _ (Nat.two_pow_pos _)
    calc 2 ^ shift * (b.toNat % 128 % 2 ^ (64 - shift)) + n.toNat
        < 2 ^ shift * (b.toNat % 128 % 2 ^ (64 - shift) + 1) := by
          rw [mul_add, mul_one]; omega
      _ ≤ 2 ^ shift * 2 ^ (64 - shift) := mul_le_mul_left _ hlt
      _ = 2 ^ 64 := hsplit.symm
  have hword : (n.toNat + 2 ^ shift * (b.toNat % 128)) % 2 ^ 64 =
      2 ^ shift * (b.toNat % 128 % 2 ^ (64 - shift)) + n.toNat := by
    rw [add_comm, add_mod, hlow, mod_eq_of_lt (a := n.toNat) n.toNat_lt, mod_eq_of_lt hsum]
  rw [UInt64.toNat_or, UInt64.toNat_shiftLeft, hamount, UInt8.toNat_toUInt64,
    and_0x7f_toNat, Nat.shiftLeft_eq, Nat.mul_comm, hlow, Nat.or_comm,
    ← two_pow_add_eq_or_of_lt hn, hword]

/-- What the loop accepts: a complete varuint that ends before the shift passes
63.  The value returned is the encoded one modulo `2 ^ 64`. -/
lemma readVarUintLoop_append {bytes : List UInt8} (rest : List UInt8)
    (hterm : VarUint.Terminated bytes) (off : Nat) (hn : n.toNat < 2 ^ shift)
    (hlen : shift + 7 * bytes.length ≤ 70) :
    ∃ m : UInt64, readVarUintLoop (bytes ++ rest) off n shift = .ok (m, off + bytes.length) ∧
      m.toNat = (n.toNat + 2 ^ shift * value bytes) % 2 ^ 64 := by
  induction bytes generalizing n shift off with
  | nil => exact absurd hterm not_terminated_nil
  | cons b bytes ih =>
    simp only [length_cons] at hlen
    have hacc := accumulate_toNat b hn (by omega)
    by_cases hb : b.toNat < 128
    · obtain rfl := (terminated_cons_of_lt hb).1 hterm
      refine ⟨n ||| ((b &&& 0x7f).toUInt64 <<< UInt64.ofNat shift), ?_, ?_⟩
      · simp only [cons_append, nil_append, readVarUintLoop,
          (and_0x80_eq_zero_iff b).2 hb, if_true, length_singleton]
      · rw [hacc]; simp
    · rw [terminated_cons_of_ge hb] at hterm
      have hpos := length_pos_of_terminated hterm
      -- a continuation byte below shift 63 leaves room for its seven bits
      have hfit := add_digit_lt b hn
      have hword : (2 : Nat) ^ (shift + 7) ≤ 2 ^ 64 :=
        Nat.pow_le_pow_right (by omega) (by omega)
      rw [mod_eq_of_lt (hfit.trans_le hword)] at hacc
      obtain ⟨m, hm, hvalue⟩ := ih hterm (off + 1) (hacc ▸ hfit) (by omega)
      refine ⟨m, ?_, ?_⟩
      · simp only [cons_append, readVarUintLoop, and_0x80_eq_zero_iff, hb, if_false,
          show ¬ shift + 7 > 63 by omega, hm, length_cons]
        congr 2
        omega
      · rw [hvalue, hacc, value_cons, pow_add]
        congr 1
        ring

lemma terminated_of_readVarUintLoop {bytes : List UInt8} {off' : Nat} {m : UInt64}
    (h : readVarUintLoop bytes off n shift = .ok (m, off')) (hshift : shift ≤ 63) :
    ∃ pre rest, bytes = pre ++ rest ∧ VarUint.Terminated pre ∧ shift + 7 * pre.length ≤ 70 := by
  induction bytes generalizing off n shift with
  | nil => simp [readVarUintLoop] at h
  | cons b bytes ih =>
    simp only [readVarUintLoop, and_0x80_eq_zero_iff] at h
    by_cases hb : b.toNat < 128
    · exact ⟨[b], bytes, rfl, (terminated_cons_of_lt hb).2 rfl, by simp; omega⟩
    · rw [if_neg hb] at h
      split at h
      · cases h
      · obtain ⟨pre, rest, rfl, hterm, hlen⟩ := ih h (by omega)
        exact ⟨b :: pre, rest, rfl, (terminated_cons_of_ge hb).2 hterm,
          by simp only [length_cons]; omega⟩

lemma zero_toNat_lt : (0 : UInt64).toNat < 2 ^ 0 := by
  simp

lemma readVarUint_eq_ok_iff {buf : List UInt8} {off' : Nat} {m : UInt64} :
    readVarUint buf off = .ok (m, off') ↔
      ∃ pre rest, buf.drop off = pre ++ rest ∧ VarUint.Terminated pre ∧ pre.length ≤ 10 ∧
        m.toNat = value pre % 2 ^ 64 ∧ off' = off + pre.length := by
  constructor
  · intro h
    obtain ⟨pre, rest, hsplit, hterm, hlen⟩ := terminated_of_readVarUintLoop h (by omega)
    obtain ⟨m', hm, hvalue⟩ :=
      readVarUintLoop_append rest hterm off zero_toNat_lt (by omega)
    rw [readVarUint, hsplit, hm] at h
    obtain ⟨rfl, rfl⟩ := Prod.mk.inj (Except.ok.inj h)
    exact ⟨pre, rest, hsplit, hterm, by omega, by simpa using hvalue, rfl⟩
  · rintro ⟨pre, rest, hsplit, hterm, hlen, hvalue, rfl⟩
    obtain ⟨m', hm, hvalue'⟩ :=
      readVarUintLoop_append rest hterm off zero_toNat_lt (by omega)
    have heq : m = m' := UInt64.toNat_inj.1 (by rw [hvalue, hvalue']; simp)
    rw [readVarUint, hsplit, hm, heq]

/-! ## The whole sub-frame -/

/-- `body` starts with the two varuints `tb` and `lb` that the parser gets past:
each complete within ten bytes, the first with a known sub-type. -/
structure Header (body tb lb rest : List UInt8) : Prop where
  split : body = tb ++ (lb ++ rest)
  typeTerminated : VarUint.Terminated tb
  lengthTerminated : VarUint.Terminated lb
  typeLength : tb.length ≤ 10
  lengthLength : lb.length ≤ 10
  subType : value tb % 2 ^ 64 ≤ 2

lemma subType_iff (t : UInt64) :
    (t = msgSyncStep1.toUInt64 ∨ t = msgSyncStep2.toUInt64 ∨ t = msgUpdate.toUInt64) ↔
      t.toNat ≤ 2 := by
  simp only [← UInt64.toNat_inj, msgSyncStep1, msgSyncStep2, msgUpdate, UInt8.toNat_toUInt64]
  simp
  omega

lemma readSyncSubMessage_of_no_header (h : ¬ ∃ tb lb rest, Header body tb lb rest) :
    ∃ e, readSyncSubMessage body = .error e := by
  rw [readSyncSubMessage]
  cases htype : readVarUint body 0 with
  | error e => exact ⟨e, rfl⟩
  | ok p =>
    obtain ⟨t, off⟩ := p
    simp only [subType_iff]
    split
    · rename_i hsub
      cases hlength : readVarUint body off with
      | error e => exact ⟨e, rfl⟩
      | ok q =>
        obtain ⟨plen, off'⟩ := q
        obtain ⟨tb, r, hsplit, htb, htblen, htval, rfl⟩ := readVarUint_eq_ok_iff.1 htype
        obtain ⟨lb, rest, hsplit', hlb, hlblen, -, -⟩ := readVarUint_eq_ok_iff.1 hlength
        rw [drop_zero] at hsplit
        rw [hsplit, zero_add, drop_left] at hsplit'
        exact absurd ⟨tb, lb, rest, by rw [hsplit, hsplit'], htb, hlb, htblen, hlblen,
          htval ▸ hsub⟩ h
    · exact ⟨_, rfl⟩

lemma high_toInt (plen : UInt64) (hoff : off < 2 ^ 62) : (Int64.ofNat off + plen.toInt64).toInt =
      if off + plen.toNat < 2 ^ 63 then ((off + plen.toNat : Nat) : Int)
      else ((off + plen.toNat : Nat) : Int) - 2 ^ 64 := by
  have hplen := plen.toNat_lt
  have hbits : (Int64.ofNat off + plen.toInt64).toBitVec = BitVec.ofNat 64 (off + plen.toNat) := by
    rw [Int64.toBitVec_add, Int64.toBitVec_ofNat', UInt64.toBitVec_toInt64, BitVec.ofNat_add,
      ← UInt64.toNat_toBitVec, BitVec.ofNat_toNat, BitVec.setWidth_eq]
  rw [Int64.toInt, hbits, BitVec.toInt_ofNat', Int.bmod_def]
  split <;> split <;> omega

lemma slicePayload_eq (hoff : off < 2 ^ 62) (hlength : body.length = off + rest.length)
    (hdrop : body.drop off = rest) : slicePayload body t plen off =
      if off + plen.toNat < 2 ^ 63 then
        if plen.toNat ≤ rest.length then .value (t.toUInt8, rest.take plen.toNat)
        else .error .shortPayload else .panicked := by
  have hplen := plen.toNat_lt
  simp only [slicePayload, high_toInt plen hoff, slice]
  by_cases hwrap : off + plen.toNat < 2 ^ 63
  · simp only [if_pos hwrap]
    by_cases hfit : plen.toNat ≤ rest.length
    · rw [if_neg (by omega), if_pos (by omega), if_pos hfit, ← hdrop]
      simp only [Int.toNat_natCast, take_drop]
    · rw [if_pos (by omega), if_neg hfit]
  · simp only [if_neg hwrap]
    rw [if_neg (by omega), if_neg (by omega)]

lemma readSyncSubMessage_of_header (h : Header body tb lb rest) :
    ∃ t plen : UInt64, t.toNat = value tb % 2 ^ 64 ∧ plen.toNat = value lb % 2 ^ 64 ∧
      readSyncSubMessage body = if tb.length + lb.length + plen.toNat < 2 ^ 63 then
          if plen.toNat ≤ rest.length then .value (t.toUInt8, rest.take plen.toNat)
          else .error .shortPayload else .panicked := by
  have hword : ∀ n : Nat, (UInt64.ofNat (n % 2 ^ 64)).toNat = n % 2 ^ 64 := fun n => by
    rw [UInt64.toNat_ofNat', mod_mod]
  have htype : readVarUint body 0 = .ok (UInt64.ofNat (value tb % 2 ^ 64), tb.length) :=
    readVarUint_eq_ok_iff.2 ⟨tb, lb ++ rest, h.split, h.typeTerminated, h.typeLength,
      hword _, (zero_add _).symm⟩
  have hdrop : body.drop tb.length = lb ++ rest := by
    rw [h.split, drop_left]
  have hlength : readVarUint body tb.length =
      .ok (UInt64.ofNat (value lb % 2 ^ 64), tb.length + lb.length) :=
    readVarUint_eq_ok_iff.2 ⟨lb, rest, hdrop, h.lengthTerminated, h.lengthLength, hword _, rfl⟩
  refine ⟨_, _, hword _, hword _, ?_⟩
  rw [readSyncSubMessage, htype]
  simp only [subType_iff, hword, h.subType, if_true, hlength]
  refine (slicePayload_eq ?_ ?_ ?_).trans (by rw [hword])
  · have := h.typeLength
    have := h.lengthLength
    omega
  · rw [h.split]; simp only [length_append]; omega
  · rw [h.split, ← append_assoc, ← length_append, drop_left]

lemma header_of_value {t : UInt8} (h : readSyncSubMessage body = .value (t, payload)) :
    ∃ tb lb rest, Header body tb lb rest ∧ t.toNat = value tb % 2 ^ 64 ∧
      value lb % 2 ^ 64 ≤ rest.length ∧ payload = rest.take (value lb % 2 ^ 64) := by
  by_cases hheader : ∃ tb lb rest, Header body tb lb rest
  · obtain ⟨tb, lb, rest, hh⟩ := hheader
    obtain ⟨t', plen, ht, hplen, hread⟩ := readSyncSubMessage_of_header hh
    rw [hread] at h
    split at h
    · split at h
      · rename_i hfit
        obtain ⟨rfl, rfl⟩ := Prod.mk.inj (Outcome.value.inj h)
        have hsub := hh.subType
        refine ⟨tb, lb, rest, hh, ?_, hplen ▸ hfit, by rw [hplen]⟩
        rw [UInt64.toNat_toUInt8, ht, mod_eq_of_lt (by omega)]
      · cases h
    · cases h
  · obtain ⟨e, he⟩ := readSyncSubMessage_of_no_header hheader
    rw [he] at h
    cases h

lemma subType_of_value {t : UInt8} (h : readSyncSubMessage body = .value (t, payload)) :
    t = msgSyncStep1 ∨ t = msgSyncStep2 ∨ t = msgUpdate := by
  obtain ⟨tb, lb, rest, hh, ht, -, -⟩ := header_of_value h
  have hsub := hh.subType
  simp only [← UInt8.toNat_inj, msgSyncStep1, msgSyncStep2, msgUpdate]
  simp
  omega

/-- The parser's contract: it returns an error, or a known sub-type and a payload
such that the body is an encoding of the two followed by some rest; it never
evaluates a slice expression with bounds out of order. -/
def ParsesSafely (body : List UInt8) : Prop :=
  match readSyncSubMessage body with
  | .panicked => False
  | .error _ => True
  | .value (t, payload) =>
    (t = msgSyncStep1 ∨ t = msgSyncStep2 ∨ t = msgUpdate) ∧
      ∃ tb lb rest, body = tb ++ (lb ++ (payload ++ rest)) ∧
        VarUint.Encodes tb t.toNat ∧ VarUint.Encodes lb payload.length

/-- No header of `body` declares a payload that ends at or beyond `2 ^ 63`, and
where the payload lies inside the body neither varuint has bits beyond the 64th
(a tenth byte above 1). -/
def LengthsInRange (body : List UInt8) : Prop :=
  ∀ tb lb rest, Header body tb lb rest → tb.length + lb.length + value lb % 2 ^ 64 < 2 ^ 63 ∧
      (value lb % 2 ^ 64 ≤ rest.length → value tb < 2 ^ 64 ∧ value lb < 2 ^ 64)

section

variable (h : Header body tb lb rest)
include h

lemma Header.unique {tb' lb' rest' : List UInt8} (h' : Header body tb' lb' rest') :
    tb = tb' ∧ lb = lb' ∧ rest = rest' := by
  obtain ⟨rfl, htail⟩ := terminated_append_inj h.typeTerminated h'.typeTerminated
    (h.split.symm.trans h'.split)
  obtain ⟨rfl, rfl⟩ := terminated_append_inj h.lengthTerminated h'.lengthTerminated
    htail
  exact ⟨rfl, rfl, rfl⟩

lemma payload_encoded_iff (ht : t.toNat = value tb % 2 ^ 64) {n : Nat}
    (hn : n = value lb % 2 ^ 64) (hfit : n ≤ rest.length) :
    (∃ tb' lb' rest', body = tb' ++ (lb' ++ (rest.take n ++ rest')) ∧
        VarUint.Encodes tb' t.toNat ∧ VarUint.Encodes lb' (rest.take n).length) ↔
      value tb < 2 ^ 64 ∧ value lb < 2 ^ 64 := by
  have hlen : (rest.take n).length = n := by
    rw [length_take, min_eq_left hfit]
  constructor
  · rintro ⟨tb', lb', rest', hbody, ⟨htb, htv⟩, hlb, hlv⟩
    obtain ⟨rfl, htail⟩ := terminated_append_inj h.typeTerminated htb
      (h.split.symm.trans hbody)
    obtain ⟨rfl, -⟩ := terminated_append_inj h.lengthTerminated hlb htail
    have := t.toNat_lt
    rw [hlen] at hlv
    exact ⟨by omega, by omega⟩
  · rintro ⟨htb, hlb⟩
    refine ⟨tb, lb, rest.drop n, ?_, ⟨h.typeTerminated, ?_⟩, h.lengthTerminated, ?_⟩
    · rw [take_append_drop, ← h.split]
    · rw [ht, mod_eq_of_lt htb]
    · rw [hlen, hn, mod_eq_of_lt hlb]

lemma lengthsInRange_iff_of_header : LengthsInRange body ↔
      tb.length + lb.length + value lb % 2 ^ 64 < 2 ^ 63 ∧ (value lb % 2 ^ 64 ≤ rest.length →
          value tb < 2 ^ 64 ∧ value lb < 2 ^ 64) := by
  constructor
  · intro hrange
    exact hrange tb lb rest h
  · intro hrange tb' lb' rest' h'
    obtain ⟨rfl, rfl, rfl⟩ := h.unique h'
    exact hrange

end

/-- The parser meets its contract on a body exactly when the lengths the body
declares stay in the range of Go's `int`. -/
lemma parsesSafely_iff (body : List UInt8) : ParsesSafely body ↔ LengthsInRange body := by
  by_cases hheader : ∃ tb lb rest, Header body tb lb rest
  · obtain ⟨tb, lb, rest, hh⟩ := hheader
    obtain ⟨t, plen, ht, hplen, hread⟩ := readSyncSubMessage_of_header hh
    rw [lengthsInRange_iff_of_header hh, ← hplen, ParsesSafely, hread]
    by_cases hwrap : tb.length + lb.length + plen.toNat < 2 ^ 63
    · by_cases hfit : plen.toNat ≤ rest.length
      · have hsub : t.toUInt8 = msgSyncStep1 ∨ t.toUInt8 = msgSyncStep2 ∨
            t.toUInt8 = msgUpdate := by
          have := hh.subType
          rcases (subType_iff t).2 (ht ▸ this) with rfl | rfl | rfl <;> decide
        have htype : t.toUInt8.toNat = t.toNat := by
          have := hh.subType
          rw [UInt64.toNat_toUInt8, mod_eq_of_lt (by omega)]
        simp only [hwrap, hfit, if_true, true_and, forall_const, hsub, htype]
        exact payload_encoded_iff hh ht hplen hfit
      · simp only [hwrap, hfit, if_true, if_false, false_implies, and_self]
    · simp only [hwrap, if_false, false_and]
  · obtain ⟨e, he⟩ := readSyncSubMessage_of_no_header hheader
    simp only [ParsesSafely, he, true_iff]
    intro tb lb rest hh
    exact absurd ⟨tb, lb, rest, hh⟩ hheader

/-! ## What lib0 writes -/

section

variable {t : UInt8} {payload : List UInt8}

lemma written_header (ht : t.toNat ≤ 2) (h : payload.length < 128 ^ 8) :
    Header (t :: (encode payload.length ++ payload)) [t] (encode payload.length) payload where
  split := rfl
  typeTerminated := (terminated_cons_of_lt (by omega)).2 rfl
  lengthTerminated := (encode_encodes _).1
  typeLength := by simp
  lengthLength := (length_encode_le h).trans (by omega)
  subType := by
    rw [value_cons, value_nil]
    omega

lemma readSyncSubMessage_written (ht : t.toNat ≤ 2) (h : payload.length < 128 ^ 8) :
    readSyncSubMessage (t :: (encode payload.length ++ payload)) = .value (t, payload) := by
  have hheader := written_header ht h
  obtain ⟨t', plen, ht', hplen, hread⟩ := readSyncSubMessage_of_header hheader
  have htype : t'.toUInt8 = t := by
    apply UInt8.toNat_inj.1
    rw [UInt64.toNat_toUInt8, ht', value_cons, value_nil]
    omega
  have hlen : plen.toNat = payload.length := by
    rw [hplen, (encode_encodes _).2]
    omega
  have hoff := hheader.lengthLength
  rw [hread, length_singleton, if_pos (by omega), if_pos hlen.le, hlen, take_length, htype]

end

def updateBody (payload : List UInt8) : List UInt8 :=
  msgUpdate :: (encode payload.length ++ payload)

lemma readSyncSubMessage_updateBody (h : payload.length < 128 ^ 8) :
    readSyncSubMessage (updateBody payload) = .value (msgUpdate, payload) :=
  readSyncSubMessage_written (by decide) h

end CollabEditor.Relay.SyncMsg
