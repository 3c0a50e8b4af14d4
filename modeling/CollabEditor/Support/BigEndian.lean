import Mathlib.Algebra.Order.Ring.Nat
/-!
# Big-endian integers of a fixed width

`encode width n` writes the low `width` bytes of `n`, the most significant first; `value` is
the number that any byte string stands for.
-/

namespace CollabEditor.Support.BigEndian

def encode : Nat → Nat → List UInt8
  | 0, _ => []
  | width + 1, n => UInt8.ofNat (n / 256 ^ width) :: encode width n

def value : List UInt8 → Nat
  | [] => 0
  | b :: rest => b.toNat * 256 ^ rest.length + value rest

@[simp] lemma length_encode (width n : Nat) : (encode width n).length = width := by
  induction width with
  | zero => rfl
  | succ width ih => rw [encode, List.length_cons, ih]

lemma value_encode (width n : Nat) : value (encode width n) = n % 256 ^ width := by
  induction width with
  | zero => rw [encode, value, Nat.pow_zero, Nat.mod_one]
  | succ width ih =>
    have hbyte : (UInt8.ofNat (n / 256 ^ width)).toNat = n / 256 ^ width % 256 :=
      UInt8.toNat_ofNat'
    rw [encode, value, ih, length_encode, hbyte, Nat.pow_succ, Nat.mod_mul, Nat.mul_comm,
      Nat.add_comm]

lemma value_encode_of_lt {width n : Nat} (h : n < 256 ^ width) : value (encode width n) = n := by
  rw [value_encode, Nat.mod_eq_of_lt h]

end CollabEditor.Support.BigEndian
