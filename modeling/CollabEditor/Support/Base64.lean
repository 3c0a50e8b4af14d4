import Mathlib.Data.List.Basic
/-!
# Standard base64

RFC 4648 base64 with padding, as `base64.StdEncoding` of Go. Every three bytes
become four characters; a last group of one or two bytes is padded with `=`.
-/

namespace CollabEditor.Support.Base64

open Option

def alphabet : List Char :=
  "ABCDEFGHIJKLMNOPQRSTUVWXYZabcdefghijklmnopqrstuvwxyz0123456789+/".toList

def encodeDigit (n : Nat) : Char := alphabet.getD n '='

def decodeDigit (c : Char) : Option Nat :=
  (alphabet.findIdx? (· == c))

def encode : List UInt8 → List Char
  | [] => []
  | [a] => [encodeDigit (a.toNat / 4), encodeDigit (a.toNat % 4 * 16), '=', '=']
  | [a, b] =>
    [encodeDigit (a.toNat / 4), encodeDigit (a.toNat % 4 * 16 + b.toNat / 16),
      encodeDigit (b.toNat % 16 * 4), '=']
  | a :: b :: c :: rest =>
    encodeDigit (a.toNat / 4) :: encodeDigit (a.toNat % 4 * 16 + b.toNat / 16) ::
      encodeDigit (b.toNat % 16 * 4 + c.toNat / 64) :: encodeDigit (c.toNat % 64) ::
      encode rest

def decodeGroups : List Char → Option (List UInt8)
  | [] => some []
  | x :: y :: z :: t :: rest => do
      let u ← decodeDigit x
      let v ← decodeDigit y
      let first := UInt8.ofNat (u * 4 + v / 16)
      if t = '=' then
        if rest ≠ [] then none
        else if z = '=' then return [first]
        else
          let w ← decodeDigit z
          return [first, UInt8.ofNat (v % 16 * 16 + w / 4)]
      else
        let w ← decodeDigit z
        let s ← decodeDigit t
        let tail ← decodeGroups rest
        return first :: UInt8.ofNat (v % 16 * 16 + w / 4) :: UInt8.ofNat (w % 4 * 64 + s) :: tail
  | _ => none

def decode (text : List Char) : Option (List UInt8) :=
  decodeGroups (text.filter fun c => c ≠ '\r' ∧ c ≠ '\n')

lemma decodeDigit_encodeDigit {n : Nat} (h : n < 64) : decodeDigit (encodeDigit n) = some n := by
  have hall : ∀ n < 64, decodeDigit (encodeDigit n) = some n := by decide +kernel
  exact hall n h

lemma encodeDigit_ne {n : Nat} (h : n < 64) : encodeDigit n ≠ '=' := by
  have hall : ∀ n < 64, encodeDigit n ≠ '=' := by decide +kernel
  exact hall n h

lemma encodeDigit_no_line_break (n : Nat) : encodeDigit n ≠ '\r' ∧ encodeDigit n ≠ '\n' := by
  have hall : ∀ n ≤ 64, encodeDigit n ≠ '\r' ∧ encodeDigit n ≠ '\n' := by decide +kernel
  by_cases h : n ≤ 64
  · exact hall n h
  · rw [encodeDigit, List.getD, List.getElem?_eq_none (show 64 ≤ n by omega)]
    decide

lemma decodeGroups_encode (bytes : List UInt8) : decodeGroups (encode bytes) = some bytes := by
  fun_induction encode bytes with
  | case1 => rfl
  | case2 a =>
    have ha := a.toNat_lt
    simp only [decodeGroups, decodeDigit_encodeDigit (show a.toNat / 4 < 64 by omega),
      decodeDigit_encodeDigit (show a.toNat % 4 * 16 < 64 by omega), bind_eq_bind,
      bind_some, if_true, ne_eq, not_true_eq_false, if_false]
    rw [show a.toNat / 4 * 4 + a.toNat % 4 * 16 / 16 = a.toNat by omega]
    simp
  | case3 a b =>
    have ha := a.toNat_lt
    have hb := b.toNat_lt
    have hz := encodeDigit_ne (show b.toNat % 16 * 4 < 64 by omega)
    simp only [decodeGroups, decodeDigit_encodeDigit (show a.toNat / 4 < 64 by omega),
      decodeDigit_encodeDigit (show a.toNat % 4 * 16 + b.toNat / 16 < 64 by omega),
      decodeDigit_encodeDigit (show b.toNat % 16 * 4 < 64 by omega), bind_eq_bind,
      bind_some, if_true, ne_eq, not_true_eq_false, if_false, hz]
    rw [show a.toNat / 4 * 4 + (a.toNat % 4 * 16 + b.toNat / 16) / 16 = a.toNat by omega,
      show (a.toNat % 4 * 16 + b.toNat / 16) % 16 * 16 + b.toNat % 16 * 4 / 4 = b.toNat by
        omega]
    simp
  | case4 a b c rest ih =>
    have ha := a.toNat_lt
    have hb := b.toNat_lt
    have hc := c.toNat_lt
    have ht := encodeDigit_ne (show c.toNat % 64 < 64 by omega)
    simp only [decodeGroups, decodeDigit_encodeDigit (show a.toNat / 4 < 64 by omega),
      decodeDigit_encodeDigit (show a.toNat % 4 * 16 + b.toNat / 16 < 64 by omega),
      decodeDigit_encodeDigit (show b.toNat % 16 * 4 + c.toNat / 64 < 64 by omega),
      decodeDigit_encodeDigit (show c.toNat % 64 < 64 by omega), bind_eq_bind,
      bind_some, if_false, ht, ih]
    rw [show a.toNat / 4 * 4 + (a.toNat % 4 * 16 + b.toNat / 16) / 16 = a.toNat by omega,
      show (a.toNat % 4 * 16 + b.toNat / 16) % 16 * 16 + (b.toNat % 16 * 4 + c.toNat / 64) / 4 =
        b.toNat by omega,
      show (b.toNat % 16 * 4 + c.toNat / 64) % 4 * 64 + c.toNat % 64 = c.toNat by omega]
    simp

lemma encode_no_line_break (bytes : List UInt8) : ∀ c ∈ encode bytes, c ≠ '\r' ∧ c ≠ '\n' := by
  fun_induction encode bytes with
  | case1 => simp
  | case2 => simp [encodeDigit_no_line_break]
  | case3 => simp [encodeDigit_no_line_break]
  | case4 a b c rest ih => simpa [encodeDigit_no_line_break] using ih

@[simp] lemma decode_encode (bytes : List UInt8) : decode (encode bytes) = some bytes := by
  have hfilter : (encode bytes).filter (fun c => c ≠ '\r' ∧ c ≠ '\n') = encode bytes :=
    List.filter_eq_self.2 fun c hc => by simpa using encode_no_line_break bytes c hc
  rw [decode, hfilter, decodeGroups_encode]

end CollabEditor.Support.Base64
