import CollabEditor.Relay.SidecarSync
import CollabEditor.ProviderSdk.Engine
/-!
# Three readers of one sync update

The same bytes are parsed by the relay (`syncmsg.go`), the sidecar (`index.js`) and the Python SDK
(`engine.py`).  They accept varuints of ten bytes, six bytes and any length, and keep 64 bits, 32
bits and all bits of them.
-/

namespace CollabEditor.Relay.Sidecar

open Support SharedText VarUint

variable {K : Type}

def readSyncMessage (syncBody : List UInt8) : Except String (UInt8 × List UInt8) :=
  match readVarUint syncBody 0 with
  | .error e => .error e
  | .ok (msgType, pos) =>
    if msgType = SyncMsg.msgSyncStep1.toUInt32 ∨ msgType = SyncMsg.msgSyncStep2.toUInt32 ∨
        msgType = SyncMsg.msgUpdate.toUInt32 then
      (readVarUint8Array syncBody pos).map fun payload => (msgType.toUInt8, payload)
    else .error ("BAD_SYNC_TYPE: unknown sync sub-type " ++ toString msgType.toNat)

lemma handleSyncMessage_eq (yjs : Yjs K) (doc : Doc K) (syncBody : List UInt8) :
    handleSyncMessage yjs doc syncBody = match readSyncMessage syncBody with
      | .error e => (doc, .error e)
      | .ok (msgType, payload) => if msgType = SyncMsg.msgSyncStep1 then
          (doc, (yjs.encodeStateAsUpdate doc payload).map fun update => (SyncMsg.msgSyncStep1,
              SyncMsg.msgSyncStep2 :: (encode update.length ++ update))) else
          ((applyUpdate yjs doc payload).1,
            (applyUpdate yjs doc payload).2.map fun _ => (msgType, [])) := by
  rw [handleSyncMessage, readSyncMessage]
  cases readVarUint syncBody 0 with
  | error e => rfl
  | ok read =>
    obtain ⟨msgType, pos⟩ := read
    dsimp only
    by_cases hstep1 : msgType = SyncMsg.msgSyncStep1.toUInt32
    · subst hstep1
      rw [if_pos rfl, if_pos (.inl rfl)]
      cases readVarUint8Array syncBody pos with
      | error e => rfl
      | ok payload =>
        cases hstate : yjs.encodeStateAsUpdate doc payload with
        | error e => simp [Except.map, bind, Except.bind, hstate]
        | ok update => simp [Except.map, bind, Except.bind, hstate, pure, Except.pure]
    · rw [if_neg hstep1]
      by_cases hupdate : msgType = SyncMsg.msgSyncStep2.toUInt32 ∨
          msgType = SyncMsg.msgUpdate.toUInt32
      · rw [if_pos hupdate, if_pos (.inr hupdate)]
        have hne : msgType.toUInt8 ≠ SyncMsg.msgSyncStep1 := by
          obtain rfl | rfl := hupdate <;> decide
        cases readVarUint8Array syncBody pos with
        | error e => rfl
        | ok payload => simp [Except.map, hne]
      · rw [if_neg hupdate, if_neg (not_or.2 ⟨hstep1, hupdate⟩)]

lemma readVarUintLoop_append {bytes : List UInt8} (rest : List UInt8)
    (hterm : VarUint.Terminated bytes) (n : UInt32) (pos shift : Nat)
    (hlen : shift + 7 * bytes.length ≤ 42) :
    ∃ m, readVarUintLoop (bytes ++ rest) pos n shift = .ok (m, pos + bytes.length) := by
  induction bytes generalizing pos n shift with
  | nil => exact absurd hterm not_terminated_nil
  | cons b bytes ih =>
    simp only [List.cons_append, readVarUintLoop, SyncMsg.and_0x80_eq_zero_iff,
      List.length_cons] at hlen ⊢
    by_cases hb : b.toNat < 128
    · obtain rfl := (terminated_cons_of_lt hb).1 hterm
      exact ⟨_, if_pos hb⟩
    · have hrest := (terminated_cons_of_ge hb).1 hterm
      have hpos := length_pos_of_terminated hrest
      obtain ⟨m, hm⟩ := ih hrest (n ||| ((b &&& 0x7f).toUInt32 <<< UInt32.ofNat shift)) (pos + 1)
        (shift + 7) (by omega)
      exact ⟨m, by rw [if_neg hb, if_neg (by omega), hm]; congr 2; omega⟩

lemma readVarUint_of_length_le {buf bytes rest : List UInt8} {pos : Nat}
    (hsplit : buf.drop pos = bytes ++ rest) (hterm : VarUint.Terminated bytes)
    (hlen : bytes.length ≤ 6) (hvalue : value bytes < 2 ^ 32) :
    ∃ m, readVarUint buf pos = .ok (m, pos + bytes.length) ∧ m.toNat = value bytes := by
  obtain ⟨m, hm⟩ := readVarUintLoop_append rest hterm 0 pos 0 (by omega)
  have hread : readVarUint buf pos = .ok (m, pos + bytes.length) := by rw [readVarUint, hsplit, hm]
  exact ⟨m, hread, (readVarUint_ok hsplit hterm hread).2.2 hvalue⟩

end CollabEditor.Relay.Sidecar

namespace CollabEditor.ProviderSdk

open Support CollabEditor.Relay SyncMsg List

section

variable {body tb lb rest : List UInt8} (hh : Header body tb lb rest)
include hh

/-- The sidecar reads the array after the type exactly if its length is in six bytes and below
`2 ^ 32`. -/
lemma readVarUint8Array_eq_ok_iff (hfit : VarUint.value lb % 2 ^ 64 ≤ rest.length) :
    Sidecar.readVarUint8Array body tb.length = .ok (rest.take (VarUint.value lb % 2 ^ 64)) ↔
      lb.length ≤ 6 ∧ VarUint.value lb % 2 ^ 64 < 2 ^ 32 := by
  have hdrop : body.drop tb.length = lb ++ rest := by
    rw [hh.split, drop_left]
  have hlength : body.length = tb.length + (lb.length + rest.length) := by
    rw [hh.split, length_append, length_append]
  have htail : body.drop (tb.length + lb.length) = rest := by
    rw [← drop_drop, hdrop, drop_left]
  constructor
  · intro h
    rw [Sidecar.readVarUint8Array] at h
    split at h
    · cases h
    · rename_i len pos hpos
      obtain ⟨rfl, hlb, -⟩ := Sidecar.readVarUint_ok hdrop hh.lengthTerminated hpos
      refine ⟨hlb, ?_⟩
      split at h
      · cases h
      · have htake := congrArg List.length (Except.ok.inj h)
        rw [htail, length_take, length_take, Nat.min_eq_left hfit] at htake
        have := len.toNat_lt
        omega
  · rintro ⟨hlb, hvalue⟩
    rw [Nat.mod_eq_of_lt (Sidecar.value_lt_of_length_le hlb)] at hfit hvalue ⊢
    obtain ⟨len, hread, hlen⟩ :=
      Sidecar.readVarUint_of_length_le hdrop hh.lengthTerminated hlb hvalue
    simp only [Sidecar.readVarUint8Array, hread]
    rw [hlen, if_neg (by omega), htail]

lemma readSyncMessage_eq_ok_iff (htype : VarUint.value tb % 2 ^ 64 = 2)
    (hfit : VarUint.value lb % 2 ^ 64 ≤ rest.length) :
    Sidecar.readSyncMessage body = .ok (msgUpdate, rest.take (VarUint.value lb % 2 ^ 64)) ↔
      tb.length ≤ 6 ∧ lb.length ≤ 6 ∧ VarUint.value lb % 2 ^ 64 < 2 ^ 32 := by
  have hstart : body.drop 0 = tb ++ (lb ++ rest) := hh.split
  rw [← readVarUint8Array_eq_ok_iff hh hfit]
  constructor
  · intro h
    rw [Sidecar.readSyncMessage] at h
    split at h
    · cases h
    · rename_i msgType pos hpos
      obtain ⟨rfl, htb, -⟩ := Sidecar.readVarUint_ok hstart hh.typeTerminated hpos
      rw [Nat.zero_add] at h
      refine ⟨htb, ?_⟩
      split at h
      · cases harray : Sidecar.readVarUint8Array body tb.length with
        | error e => rw [harray] at h; cases h
        | ok payload =>
          rw [harray] at h
          rw [(Prod.mk.inj (Except.ok.inj h)).2]
      · cases h
  · rintro ⟨htb, harray⟩
    rw [Nat.mod_eq_of_lt (Sidecar.value_lt_of_length_le htb)] at htype
    obtain ⟨msgType, hread, hvalue⟩ :=
      Sidecar.readVarUint_of_length_le hstart hh.typeTerminated htb (by omega)
    obtain rfl : msgType = msgUpdate.toUInt32 := UInt32.toNat_inj.1 (by rw [hvalue, htype]; rfl)
    rw [Nat.zero_add] at hread
    simp only [Sidecar.readSyncMessage, hread, harray]
    rfl

lemma Python.extractYjsUpdate_of_header (htype : VarUint.value tb = 2)
    (hfit : VarUint.value lb ≤ rest.length) :
    Python.extractYjsUpdate (0 :: body) = some (rest.take (VarUint.value lb)) := by
  have hread (bytes rest : List UInt8) (hterm : VarUint.Terminated bytes) :
      Python.readVaruint (bytes ++ rest) = (VarUint.value bytes, rest) := by
    rw [Python.readVaruint, Python.readVaruintLoop_append rest hterm (by simp)]
    simp
  have henvelope : Python.readVaruint (0 :: body) = (0, body) :=
    hread [0] body ((VarUint.terminated_cons_of_lt (by decide)).2 rfl)
  have hlong : ¬ (0 :: body).length < 2 := by
    have := VarUint.length_pos_of_terminated hh.typeTerminated
    rw [hh.split, length_cons, length_append]
    omega
  have hsub : Python.readVaruint body = (2, lb ++ rest) := by
    rw [hh.split, hread tb (lb ++ rest) hh.typeTerminated, htype]
  rw [Python.extractYjsUpdate, if_neg hlong, henvelope]
  simp only [ne_eq, not_true, if_false, hsub, hread lb rest hh.lengthTerminated]
  rw [if_neg (by omega)]

end

/-- For an update that the relay accepts, the sidecar and the Python SDK read the same type and
payload exactly if the type and the length are each encoded in at most six bytes and the payload
has less than `2 ^ 32` of them. -/
theorem sync_parsers_agree_iff {body payload : List UInt8}
    (hread : readSyncSubMessage body = .value (msgUpdate, payload)) :
    (Sidecar.readSyncMessage body = .ok (msgUpdate, payload) ∧
        Python.extractYjsUpdate (0 :: body) = some payload) ↔ payload.length < 2 ^ 32 ∧
        ∃ tb lb rest, Header body tb lb rest ∧ tb.length ≤ 6 ∧ lb.length ≤ 6 := by
  obtain ⟨tb, lb, rest, hh, ht, hfit, rfl⟩ := header_of_value hread
  have htype : VarUint.value tb % 2 ^ 64 = 2 := ht.symm
  rw [readSyncMessage_eq_ok_iff hh htype hfit, length_take, Nat.min_eq_left hfit]
  constructor
  · rintro ⟨⟨htb, hlb, hvalue⟩, -⟩
    exact ⟨hvalue, tb, lb, rest, hh, htb, hlb⟩
  · rintro ⟨hvalue, tb', lb', rest', hh', htb, hlb⟩
    obtain ⟨rfl, rfl, rfl⟩ := hh.unique hh'
    refine ⟨⟨htb, hlb, hvalue⟩, ?_⟩
    rw [Nat.mod_eq_of_lt (Sidecar.value_lt_of_length_le hlb)] at hfit ⊢
    rw [Nat.mod_eq_of_lt (Sidecar.value_lt_of_length_le htb)] at htype
    exact Python.extractYjsUpdate_of_header hh htype hfit

/-- An update of two bytes, written as lib0 writes it. -/
theorem lib0_update_read_alike :
    Sidecar.readSyncMessage [2, 2, 0x61, 0x62] = .ok (msgUpdate, [0x61, 0x62]) ∧
      Python.extractYjsUpdate [0, 2, 2, 0x61, 0x62] = some [0x61, 0x62] := by
  refine (sync_parsers_agree_iff (by decide)).2 ⟨by decide, [2], [2], [0x61, 0x62], ?_, by decide,
    by decide⟩
  exact ⟨rfl, by decide, by decide, by decide, by decide, by decide⟩

/-- The type 2 in seven bytes: the relay accepts it and the sidecar does not. -/
theorem long_type_read_differently :
    ¬ ∀ body payload : List UInt8, readSyncSubMessage body = .value (msgUpdate, payload) →
      Sidecar.readSyncMessage body = .ok (msgUpdate, payload) ∧
        Python.extractYjsUpdate (0 :: body) = some payload := by
  intro hall
  have hboth := hall [0x82, 0x80, 0x80, 0x80, 0x80, 0x80, 0, 1, 0x61] [0x61] (by decide)
  exact absurd hboth.1 (by decide)

end CollabEditor.ProviderSdk
