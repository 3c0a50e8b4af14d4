import Mathlib.Data.List.Basic
/-!
# UTF-16 and code points

A text as a list of 16-bit units, and as the list of its code points, in which each pair of a
high and a low surrogate is one. A surrogate without its partner is a code point of its own.
-/

namespace CollabEditor.Support.Utf16

open List

def isHigh (u : UInt16) : Bool := 0xd800 ≤ u.toNat && u.toNat < 0xdc00

def isLow (u : UInt16) : Bool := 0xdc00 ≤ u.toNat && u.toNat < 0xe000

def pair (u v : UInt16) : Nat := 0x10000 + (u.toNat - 0xd800) * 0x400 + (v.toNat - 0xdc00)

def codePoints : List UInt16 → List Nat
  | u :: v :: rest =>
    if isHigh u && isLow v then pair u v :: codePoints rest
    else u.toNat :: codePoints (v :: rest)
  | [u] => [u.toNat]
  | [] => []

def encodePoint (c : Nat) : List UInt16 :=
  if c < 0x10000 then [UInt16.ofNat c]
  else
    [UInt16.ofNat (0xd800 + (c - 0x10000) / 0x400), UInt16.ofNat (0xdc00 + (c - 0x10000) % 0x400)]

def encode (points : List Nat) : List UInt16 := points.flatMap encodePoint

lemma encodePoint_toNat (u : UInt16) : encodePoint u.toNat = [u] := by
  have hu := u.toNat_lt
  simp [encodePoint, hu]

lemma encodePoint_pair {u v : UInt16} (hu : isHigh u) (hv : isLow v) :
    encodePoint (pair u v) = [u, v] := by
  simp only [isHigh, isLow, Bool.and_eq_true, decide_eq_true_eq] at hu hv
  have hbig : ¬pair u v < 0x10000 := by unfold pair; omega
  have hdiv : 0xd800 + (pair u v - 0x10000) / 0x400 = u.toNat := by unfold pair; omega
  have hmod : 0xdc00 + (pair u v - 0x10000) % 0x400 = v.toNat := by unfold pair; omega
  rw [encodePoint, if_neg hbig, hdiv, hmod, UInt16.ofNat_toNat, UInt16.ofNat_toNat]

lemma encode_codePoints (text : List UInt16) : encode (codePoints text) = text := by
  fun_induction codePoints text with
  | case1 u v rest h ih =>
    rw [Bool.and_eq_true] at h
    rw [encode, flatMap_cons, encodePoint_pair h.1 h.2]
    exact congrArg ([u, v] ++ ·) ih
  | case2 u v rest h ih =>
    rw [encode, flatMap_cons, encodePoint_toNat]
    exact congrArg ([u] ++ ·) ih
  | case3 u => simp [encode, encodePoint_toNat]
  | case4 => rfl

lemma codePoints_injective : Function.Injective codePoints :=
  Function.LeftInverse.injective encode_codePoints

lemma length_codePoints_le (text : List UInt16) : (codePoints text).length ≤ text.length := by
  fun_induction codePoints text <;> simp only [length_cons, length_nil] at * <;> omega

lemma length_codePoints_eq_iff (text : List UInt16) :
    (codePoints text).length = text.length ↔ ∀ c ∈ codePoints text, c < 0x10000 := by
  fun_induction codePoints text with
  | case1 u v rest h ih =>
    have hle := length_codePoints_le rest
    refine iff_of_false ?_ fun hall => ?_
    · simp only [length_cons]
      omega
    · have hsmall := hall (pair u v) mem_cons_self
      unfold pair at hsmall
      omega
  | case2 u v rest h ih =>
    have hu := u.toNat_lt
    rw [forall_mem_cons, ← ih]
    simp only [length_cons] at *
    omega
  | case3 u => simpa using u.toNat_lt
  | case4 => simp

lemma codePoints_cons {u : UInt16} {text : List UInt16}
    (h : ¬(isHigh u ∧ ∃ v ∈ text.head?, isLow v)) :
    codePoints (u :: text) = u.toNat :: codePoints text := by
  cases text with
  | nil => rfl
  | cons v rest =>
    have hpair : ¬(isHigh u && isLow v) := by simpa using h
    rw [codePoints, if_neg hpair]

lemma prefix_of_splitOn {α : Type} [BEq α] {a : α} {text line : List α} {lines : List (List α)}
    (h : text.splitOn a = line :: lines) : line <+: text := by
  induction text generalizing line lines with
  | nil =>
    cases h
    exact nil_prefix
  | cons x text ih =>
    obtain ⟨first, rest, hsplit⟩ := exists_cons_of_ne_nil (splitOn_ne_nil a text)
    rw [splitOn_cons_eq_if_modifyHead, hsplit, modifyHead_cons] at h
    split at h
    · cases h
      exact nil_prefix
    · cases h
      exact cons_prefix_cons.2 ⟨rfl, ih hsplit⟩

lemma splitOn_codePoints_cons {a u : UInt16} {text : List UInt16}
    (hpair : ¬(isHigh u ∧ ∃ v ∈ text.head?, isLow v))
    (ih : (codePoints text).splitOn a.toNat = (text.splitOn a).map codePoints) :
    (u.toNat :: codePoints text).splitOn a.toNat = ((u :: text).splitOn a).map codePoints := by
  rw [splitOn_cons_eq_if_modifyHead, splitOn_cons_eq_if_modifyHead, ih]
  by_cases hu : u = a
  · subst hu
    simp [codePoints]
  · have hunit : (u == a) = false := beq_eq_false_iff_ne.2 hu
    have hpoint : (u.toNat == a.toNat) = false :=
      beq_eq_false_iff_ne.2 fun heq => hu (UInt16.toNat_inj.1 heq)
    obtain ⟨line, lines, hlines⟩ := exists_cons_of_ne_nil (splitOn_ne_nil a text)
    have hline : ¬(isHigh u ∧ ∃ v ∈ line.head?, isLow v) := by
      rintro ⟨hhigh, v, hv, hlow⟩
      obtain ⟨rest, rfl⟩ := prefix_of_splitOn hlines
      exact hpair ⟨hhigh, v, by simp_all, hlow⟩
    simp only [hunit, hpoint, hlines, map_cons, modifyHead_cons, Bool.false_eq_true,
      if_false, codePoints_cons hline]

lemma splitOn_codePoints {a : UInt16} (hhigh : ¬isHigh a) (hlow : ¬isLow a) (text : List UInt16) :
    (codePoints text).splitOn a.toNat = (text.splitOn a).map codePoints := by
  fun_induction codePoints text with
  | case1 u v rest h ih =>
    rw [Bool.and_eq_true] at h
    have hu : (u == a) = false := by
      rw [beq_eq_false_iff_ne]
      rintro rfl
      exact hhigh h.1
    have hv : (v == a) = false := by
      rw [beq_eq_false_iff_ne]
      rintro rfl
      exact hlow h.2
    have hp : (pair u v == a.toNat) = false := by
      have ha := a.toNat_lt
      rw [beq_eq_false_iff_ne]
      unfold pair
      omega
    obtain ⟨line, lines, hlines⟩ := exists_cons_of_ne_nil (splitOn_ne_nil a rest)
    simp only [splitOn_cons_eq_if_modifyHead, hp, hu, hv, ih, hlines, map_cons,
      modifyHead_cons, Bool.false_eq_true, if_false]
    rw [codePoints, if_pos (by simp [h])]
  | case2 u v rest h ih => exact splitOn_codePoints_cons (by simpa using h) ih
  | case3 u =>
    have hpair : ¬(isHigh u ∧ ∃ v ∈ ([] : List UInt16).head?, isLow v) := by simp
    exact splitOn_codePoints_cons hpair rfl
  | case4 => rfl

end CollabEditor.Support.Utf16
