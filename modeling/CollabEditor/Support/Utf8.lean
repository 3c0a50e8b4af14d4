import Mathlib.Data.List.Basic
/-!
# UTF-8 with replacement

The decoder of the Encoding standard, which never fails: where the bytes are no UTF-8 it writes
`U+FFFD` and goes on.  `replaceInvalid` replaces each byte of what is no UTF-8 by itself.
-/

namespace CollabEditor.Support.Utf8

open List

def encode (text : List Char) : List UInt8 := text.flatMap String.utf8EncodeChar

def replacement : Char := Char.ofNat 0xfffd

/-- A character of which some bytes may have been read. -/
structure Pending where
  owed : Nat
  code : Nat
  lower : Nat
  upper : Nat
  deriving DecidableEq

def Pending.idle : Pending := ⟨0, 0, 0x80, 0xbf⟩

/-- The first byte of a character: what is written, and what is then owed. -/
def first (b : Nat) : List Char × Pending :=
  if b < 0x80 then ([Char.ofNat b], .idle)
  else if b < 0xc2 then ([replacement], .idle)
  else if b < 0xe0 then ([], ⟨1, b - 0xc0, 0x80, 0xbf⟩)
  else if b < 0xf0 then
    ([], ⟨2, b - 0xe0, if b = 0xe0 then 0xa0 else 0x80, if b = 0xed then 0x9f else 0xbf⟩)
  else if b < 0xf5 then
    ([], ⟨3, b - 0xf0, if b = 0xf0 then 0x90 else 0x80, if b = 0xf4 then 0x8f else 0xbf⟩)
  else ([replacement], .idle)

/-- One more byte. A byte out of range ends the character that was begun and is then looked
at again as a first byte. -/
def step (p : Pending) (b : Nat) : List Char × Pending :=
  if p.owed = 0 then first b
  else if p.lower ≤ b ∧ b ≤ p.upper then
    if p.owed = 1 then ([Char.ofNat (p.code * 64 + (b - 0x80))], .idle)
    else ([], ⟨p.owed - 1, p.code * 64 + (b - 0x80), 0x80, 0xbf⟩)
  else (replacement :: (first b).1, (first b).2)

def decodeFrom : Pending → List UInt8 → List Char
  | p, [] => if p.owed = 0 then [] else [replacement]
  | p, b :: rest => (step p b.toNat).1 ++ decodeFrom (step p b.toNat).2 rest

def decode (bytes : List UInt8) : List Char := decodeFrom .idle bytes

lemma length_encode_le (text : List Char) : (encode text).length ≤ 4 * text.length := by
  induction text with
  | nil => exact Nat.le_refl 0
  | cons c text ih =>
    have hc := c.utf8Size_le_four
    rw [encode] at ih ⊢
    rw [flatMap_cons, length_append, length_cons, String.length_utf8EncodeChar]
    omega

/-! ## One character -/

variable {n b : Nat} {bytes : List UInt8}

lemma toNat_ofNat_of_lt (h : n < 256) : (UInt8.ofNat n).toNat = n := by
  rw [UInt8.toNat_ofNat', Nat.mod_eq_of_lt (by omega)]

lemma decodeFrom_cons_of_silent {p q : Pending} (h : step p n = ([], q)) (hn : n < 256)
    (rest : List UInt8) : decodeFrom p (UInt8.ofNat n :: rest) = decodeFrom q rest := by
  rw [decodeFrom, toNat_ofNat_of_lt hn, h, nil_append]

lemma decodeFrom_cons_of_char {p q : Pending} {m : Nat} (h : step p n = ([Char.ofNat m], q))
    (hn : n < 256) {c : Char} (hm : m = c.toNat) (rest : List UInt8) :
    decodeFrom p (UInt8.ofNat n :: rest) = c :: decodeFrom q rest := by
  rw [decodeFrom, toNat_ofNat_of_lt hn, h, hm, Char.ofNat_toNat, singleton_append]

lemma step_last {code lower upper : Nat} (hlower : lower ≤ b) (hupper : b ≤ upper) :
    step ⟨1, code, lower, upper⟩ b = ([Char.ofNat (code * 64 + (b - 0x80))], .idle) := by
  simp [step, hlower, hupper]

lemma step_middle {owed code lower upper : Nat} (hlower : lower ≤ b) (hupper : b ≤ upper) :
    step ⟨owed + 2, code, lower, upper⟩ b =
      ([], ⟨owed + 1, code * 64 + (b - 0x80), 0x80, 0xbf⟩) := by
  simp [step, hlower, hupper]

lemma step_idle (b : Nat) : step .idle b = first b := rfl

lemma step_one (h : b < 0x80) : step .idle b = ([Char.ofNat b], .idle) := by
  rw [step_idle, first, if_pos h]

lemma step_two (h : 0xc2 ≤ b) (h' : b < 0xe0) :
    step .idle b = ([], ⟨1, b - 0xc0, 0x80, 0xbf⟩) := by
  rw [step_idle, first, if_neg (by omega), if_neg (by omega), if_pos h']

lemma step_three (h : 0xe0 ≤ b) (h' : b < 0xf0) :
    step .idle b = ([], ⟨2, b - 0xe0, if b = 0xe0 then 0xa0 else 0x80,
      if b = 0xed then 0x9f else 0xbf⟩) := by
  rw [step_idle, first, if_neg (by omega), if_neg (by omega), if_neg (by omega), if_pos h']

lemma step_four (h : 0xf0 ≤ b) (h' : b < 0xf5) :
    step .idle b = ([], ⟨3, b - 0xf0, if b = 0xf0 then 0x90 else 0x80,
      if b = 0xf4 then 0x8f else 0xbf⟩) := by
  rw [step_idle, first, if_neg (by omega), if_neg (by omega), if_neg (by omega),
    if_neg (by omega), if_pos h']

lemma valid_toNat (c : Char) : c.toNat < 0xd800 ∨ 0xdfff < c.toNat ∧ c.toNat < 0x110000 := c.valid

lemma decodeFrom_utf8EncodeChar (c : Char) (rest : List UInt8) :
    decodeFrom .idle (String.utf8EncodeChar c ++ rest) = c :: decodeFrom .idle rest := by
  have hvalid := valid_toNat c
  have hval : c.val.toNat = c.toNat := rfl
  rw [String.utf8EncodeChar, hval]
  by_cases h1 : c.toNat ≤ 127
  · rw [if_pos h1, singleton_append]
    exact decodeFrom_cons_of_char (step_one (by omega)) (by omega) rfl _
  rw [if_neg h1]
  by_cases h2 : c.toNat ≤ 2047
  · rw [if_pos h2, cons_append, singleton_append,
      decodeFrom_cons_of_silent (step_two (by omega) (by omega)) (by omega)]
    exact decodeFrom_cons_of_char (step_last (by omega) (by omega)) (by omega) (by omega) _
  rw [if_neg h2]
  by_cases h3 : c.toNat ≤ 65535
  · rw [if_pos h3, cons_append, cons_append, singleton_append,
      decodeFrom_cons_of_silent (step_three (by omega) (by omega)) (by omega),
      decodeFrom_cons_of_silent (step_middle (by split <;> omega) (by split <;> omega)) (by omega)]
    exact decodeFrom_cons_of_char (step_last (by omega) (by omega)) (by omega) (by omega) _
  · rw [if_neg h3, cons_append, cons_append, cons_append, singleton_append,
      decodeFrom_cons_of_silent (step_four (by omega) (by omega)) (by omega),
      decodeFrom_cons_of_silent (step_middle (by split <;> omega) (by split <;> omega)) (by omega),
      decodeFrom_cons_of_silent (step_middle (by omega) (by omega)) (by omega)]
    exact decodeFrom_cons_of_char (step_last (by omega) (by omega)) (by omega) (by omega) _

lemma decode_encode (text : List Char) : decode (encode text) = text := by
  induction text with
  | nil => rfl
  | cons c text ih =>
    rw [encode, flatMap_cons, decode, decodeFrom_utf8EncodeChar]
    exact congrArg (c :: ·) ih

def Valid (bytes : List UInt8) : Prop := ∃ text, encode text = bytes

lemma valid_iff : Valid bytes ↔ encode (decode bytes) = bytes := by
  constructor
  · rintro ⟨text, rfl⟩
    rw [decode_encode]
  · exact fun h => ⟨_, h⟩

instance decidableValid (bytes : List UInt8) : Decidable (Valid bytes) :=
  decidable_of_iff (encode (decode bytes) = bytes) valid_iff.symm

lemma eq_of_decode_eq {xs ys : List UInt8} (hx : Valid xs) (hy : Valid ys)
    (h : decode xs = decode ys) : xs = ys := by
  rw [← valid_iff.1 hx, ← valid_iff.1 hy, h]

/-! ## Replacing byte by byte -/

def front (bytes : List UInt8) : Option Char :=
  (decode bytes).head?.filter fun c => (String.utf8EncodeChar c).isPrefixOf bytes

/-- Each byte at which no character begins is replaced. The first `n` bytes are the rest of a
character. -/
def replaceFrom : Nat → List UInt8 → List UInt8
  | _, [] => []
  | n + 1, b :: rest => b :: replaceFrom n rest
  | 0, b :: rest =>
    match front (b :: rest) with
    | some c => b :: replaceFrom (c.utf8Size - 1) rest
    | none => encode [replacement] ++ replaceFrom 0 rest

def replaceInvalid (bytes : List UInt8) : List UInt8 := replaceFrom 0 bytes

lemma front_append (c : Char) (rest : List UInt8) :
    front (String.utf8EncodeChar c ++ rest) = some c := by
  rw [front, decode, decodeFrom_utf8EncodeChar, head?_cons, Option.filter_some, if_pos]
  exact isPrefixOf_iff_prefix.2 (prefix_append ..)

lemma front_eq_some {c : Char} (h : front bytes = some c) :
    ∃ rest, bytes = String.utf8EncodeChar c ++ rest := by
  obtain ⟨-, hinitial⟩ := Option.filter_eq_some_iff.1 h
  obtain ⟨rest, hrest⟩ := isPrefixOf_iff_prefix.1 hinitial
  exact ⟨rest, hrest.symm⟩

lemma replaceFrom_append (xs rest : List UInt8) :
    replaceFrom xs.length (xs ++ rest) = xs ++ replaceInvalid rest := by
  induction xs with
  | nil => rfl
  | cons b xs ih => rw [length_cons, cons_append, replaceFrom, ih, cons_append]

lemma replaceInvalid_append (c : Char) (rest : List UInt8) :
    replaceInvalid (String.utf8EncodeChar c ++ rest) =
      String.utf8EncodeChar c ++ replaceInvalid rest := by
  have hfront := front_append c rest
  have hlength := String.length_utf8EncodeChar c
  cases hbytes : String.utf8EncodeChar c with
  | nil => exact absurd hbytes String.utf8EncodeChar_ne_nil
  | cons b bs =>
    rw [hbytes, cons_append] at hfront
    rw [hbytes, length_cons] at hlength
    have hsize : c.utf8Size - 1 = bs.length := by omega
    rw [replaceInvalid, cons_append, replaceFrom, hfront]
    dsimp only
    rw [hsize, replaceFrom_append, cons_append]

lemma encode_cons (c : Char) (text : List Char) :
    encode (c :: text) = String.utf8EncodeChar c ++ encode text := flatMap_cons

lemma replaceInvalid_of_valid (h : Valid bytes) : replaceInvalid bytes = bytes := by
  obtain ⟨text, rfl⟩ := h
  induction text with
  | nil => rfl
  | cons c text ih => rw [encode_cons, replaceInvalid_append, ih]

lemma valid_append (c : Char) (h : Valid bytes) : Valid (String.utf8EncodeChar c ++ bytes) := by
  obtain ⟨text, rfl⟩ := h
  exact ⟨c :: text, encode_cons c text⟩

lemma valid_replaceInvalid (bytes : List UInt8) : Valid (replaceInvalid bytes) := by
  -- by length: a character takes all its bytes at once
  induction hn : bytes.length using Nat.strongRecOn generalizing bytes with
  | _ n ih =>
    cases bytes with
    | nil => exact ⟨[], rfl⟩
    | cons b rest =>
      cases hfront : front (b :: rest) with
      | none =>
        rw [replaceInvalid, replaceFrom, hfront]
        have hrest := ih rest.length (by rw [← hn, length_cons]; omega) rest rfl
        exact valid_append replacement hrest
      | some c =>
        obtain ⟨after, hafter⟩ := front_eq_some hfront
        have hpos := c.utf8Size_pos
        rw [hafter, length_append, String.length_utf8EncodeChar] at hn
        rw [hafter, replaceInvalid_append]
        exact valid_append c (ih after.length (by omega) after rfl)

lemma eq_nil_of_replaceInvalid (h : replaceInvalid bytes = []) : bytes = [] := by
  cases bytes with
  | nil => rfl
  | cons b rest =>
    rw [replaceInvalid, replaceFrom] at h
    split at h
    · cases h
    · exact absurd (append_eq_nil_iff.1 h).1 (by decide)

lemma toNat_charOfNat (h : n < 0xd800) : (Char.ofNat n).toNat = n := by
  rw [Char.ofNat, dif_pos (Or.inl h)]
  rfl

lemma utf8EncodeChar_ofNat {b : UInt8} (h : b < 0x80) :
    String.utf8EncodeChar (Char.ofNat b.toNat) = [b] := by
  rw [UInt8.lt_iff_toNat_lt] at h
  have hchar : (Char.ofNat b.toNat).val.toNat = b.toNat :=
    toNat_charOfNat (Nat.lt_trans h (by decide))
  rw [String.utf8EncodeChar, hchar, if_pos (Nat.le_of_lt_succ h), UInt8.ofNat_toNat]

lemma valid_of_ascii (h : ∀ b ∈ bytes, b < 0x80) : Valid bytes := by
  induction bytes with
  | nil => exact ⟨[], rfl⟩
  | cons b rest ih =>
    rw [← singleton_append, ← utf8EncodeChar_ofNat (h b mem_cons_self)]
    exact valid_append _ (ih fun b hb => h b (mem_cons_of_mem _ hb))

end CollabEditor.Support.Utf8
