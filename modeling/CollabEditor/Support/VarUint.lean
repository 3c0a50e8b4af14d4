import Mathlib.Data.Nat.Digits.Defs
import Mathlib.Tactic.Ring
/-!
# Base-128 variable-length integers

The lib0 `varuint` layout: seven value bits per byte, least significant group first, and bit 7 set
on every byte but the last.  The value is taken over the naturals; readers with a fixed word width
are compared with it.
-/

namespace CollabEditor.Support.VarUint

/-- The bytes are one complete varuint: bit 7 is set on all of them but the
last. -/
def Terminated : List UInt8 → Prop
  | [] => False
  | b :: rest => if b.toNat < 128 then rest = [] else Terminated rest

instance decidableTerminated : (bytes : List UInt8) → Decidable (Terminated bytes)
  | [] => inferInstanceAs (Decidable False)
  | b :: rest =>
    if h : b.toNat < 128 then
      decidable_of_iff (rest = []) (by simp [Terminated, h])
    else
      have := decidableTerminated rest
      decidable_of_iff (Terminated rest) (by simp [Terminated, h])

/-- The number a byte string stands for, without any width limit. -/
def value (bytes : List UInt8) : Nat :=
  Nat.ofDigits 128 (bytes.map fun b => b.toNat % 128)

/-- `bytes` is a varuint encoding of `n` (not necessarily the shortest one). -/
def Encodes (bytes : List UInt8) (n : Nat) : Prop :=
  Terminated bytes ∧ value bytes = n

@[simp] lemma not_terminated_nil : ¬ Terminated [] := id

@[simp] lemma value_nil : value [] = 0 := rfl

@[simp] lemma value_cons (b : UInt8) (rest : List UInt8) :
    value (b :: rest) = b.toNat % 128 + 128 * value rest := by
  simp [value, Nat.ofDigits_cons]

lemma terminated_cons_of_lt {b : UInt8} {rest : List UInt8} (h : b.toNat < 128) :
    Terminated (b :: rest) ↔ rest = [] := by
  simp [Terminated, h]

lemma terminated_cons_of_ge {b : UInt8} {rest : List UInt8} (h : ¬ b.toNat < 128) :
    Terminated (b :: rest) ↔ Terminated rest := by
  simp [Terminated, h]

variable {bytes : List UInt8} {n fuel : Nat}

lemma length_pos_of_terminated (h : Terminated bytes) : 0 < bytes.length := by
  cases bytes with
  | nil => exact absurd h not_terminated_nil
  | cons b rest => simp

lemma exists_lt_of_terminated (h : Terminated bytes) : ∃ b ∈ bytes, b.toNat < 128 := by
  induction bytes with
  | nil => exact absurd h not_terminated_nil
  | cons b rest ih =>
    by_cases hb : b.toNat < 128
    · exact ⟨b, List.mem_cons_self, hb⟩
    · obtain ⟨c, hc, hlt⟩ := ih ((terminated_cons_of_ge hb).1 h)
      exact ⟨c, List.mem_cons_of_mem _ hc, hlt⟩

lemma add_digit_lt {shift : Nat} (b : UInt8) (hn : n < 2 ^ shift) :
    n + 2 ^ shift * (b.toNat % 128) < 2 ^ (shift + 7) := by
  have hdigit : b.toNat % 128 + 1 ≤ 2 ^ 7 := Nat.mod_lt _ (by omega)
  calc n + 2 ^ shift * (b.toNat % 128)
      < 2 ^ shift * (b.toNat % 128 + 1) := by rw [Nat.mul_add, Nat.mul_one]; omega
    _ ≤ 2 ^ shift * 2 ^ 7 := Nat.mul_le_mul_left _ hdigit
    _ = 2 ^ (shift + 7) := (Nat.pow_add 2 shift 7).symm

/-- Complete varuints are prefix-free: a byte string starts with at most one. -/
lemma terminated_append_inj {xs ys r s : List UInt8} (hx : Terminated xs)
    (hy : Terminated ys) (h : xs ++ r = ys ++ s) : xs = ys ∧ r = s := by
  induction xs generalizing ys with
  | nil => exact absurd hx not_terminated_nil
  | cons b xs ih =>
    cases ys with
    | nil => exact absurd hy not_terminated_nil
    | cons c ys =>
      obtain ⟨rfl, htail⟩ := List.cons.inj h
      by_cases hb : b.toNat < 128
      · rw [terminated_cons_of_lt hb] at hx hy
        subst hx hy
        exact ⟨rfl, by simpa using htail⟩
      · rw [terminated_cons_of_ge hb] at hx hy
        obtain ⟨rfl, rfl⟩ := ih hx hy htail
        exact ⟨rfl, rfl⟩

/-! ## Writing -/

/-- The writer's loop; `fuel` bounds the number of continuation bytes. -/
def encodeLoop : Nat → Nat → List UInt8
  | 0, n => [UInt8.ofNat n]
  | fuel + 1, n =>
    if n < 128 then [UInt8.ofNat n]
    else UInt8.ofNat (128 + n % 128) :: encodeLoop fuel (n / 128)

/-- The shortest encoding of `n`, as `writeVarUint` of lib0 writes it. -/
def encode (n : Nat) : List UInt8 := encodeLoop n n

lemma encodeLoop_encodes (h : n < 128 ^ (fuel + 1)) : Encodes (encodeLoop fuel n) n := by
  have hlast : ∀ m < 128, Encodes [UInt8.ofNat m] m := by
    intro m hm
    have hnat : (UInt8.ofNat m).toNat = m := UInt8.toNat_ofNat_of_lt' (by rw [UInt8.size]; omega)
    exact ⟨(terminated_cons_of_lt (by omega)).2 rfl, by simp [hnat]; omega⟩
  induction fuel generalizing n with
  | zero => exact hlast n (by simpa using h)
  | succ fuel ih =>
    rw [encodeLoop]
    split
    · rename_i hn
      exact hlast n hn
    · have hbyte : (UInt8.ofNat (128 + n % 128)).toNat = 128 + n % 128 :=
        UInt8.toNat_ofNat_of_lt' (by rw [UInt8.size]; omega)
      have hrest := ih (n := n / 128) (by rw [Nat.pow_succ] at h; omega)
      refine ⟨(terminated_cons_of_ge (by omega)).2 hrest.1, ?_⟩
      rw [value_cons, hbyte, hrest.2]
      omega

lemma lt_pow_succ_self (n : Nat) : n < 128 ^ (n + 1) :=
  (Nat.lt_succ_self n).trans (Nat.lt_pow_self (by omega))

lemma encode_encodes (n : Nat) : Encodes (encode n) n :=
  encodeLoop_encodes (lt_pow_succ_self n)

lemma length_encodeLoop_le {k : Nat} (h : n < 128 ^ (k + 1)) :
    (encodeLoop fuel n).length ≤ k + 1 := by
  induction fuel generalizing n k with
  | zero => simp [encodeLoop]
  | succ fuel ih =>
    rw [encodeLoop]
    split
    · simp
    · cases k with
      | zero => omega
      | succ k =>
        have := ih (n := n / 128) (k := k) (by rw [Nat.pow_succ] at h; omega)
        rw [List.length_cons]
        omega

lemma length_encode_le {k : Nat} (h : n < 128 ^ (k + 1)) : (encode n).length ≤ k + 1 :=
  length_encodeLoop_le h

lemma encodeLoop_eq_of_lt {f : Nat} (h : n < 128 ^ (fuel + 1)) (h' : n < 128 ^ (f + 1)) :
    encodeLoop fuel n = encodeLoop f n := by
  induction fuel generalizing f n with
  | zero =>
    have hn : n < 128 := by simpa using h
    cases f with
    | zero => rfl
    | succ f => rw [encodeLoop, encodeLoop, if_pos hn]
  | succ fuel ih =>
    cases f with
    | zero =>
      have hn : n < 128 := by simpa using h'
      rw [encodeLoop, encodeLoop, if_pos hn]
    | succ f =>
      rw [Nat.pow_succ] at h h'
      rw [encodeLoop, encodeLoop, ih (n := n / 128) (f := f) (by omega) (by omega)]

lemma encode_of_lt (h : n < 128) : encode n = [UInt8.ofNat n] := by
  rw [encode, encodeLoop_eq_of_lt (f := 0) (lt_pow_succ_self n) (by omega), encodeLoop]

lemma encode_of_ge (h : 128 ≤ n) :
    encode n = UInt8.ofNat (128 + n % 128) :: encode (n / 128) := by
  obtain ⟨fuel, rfl⟩ : ∃ fuel, n = fuel + 1 := ⟨n - 1, by omega⟩
  have hlt := lt_pow_succ_self (fuel + 1)
  rw [Nat.pow_succ] at hlt
  rw [encode, encodeLoop, if_neg (by omega),
    encodeLoop_eq_of_lt (f := (fuel + 1) / 128) (by omega) (lt_pow_succ_self _), encode]

lemma value_lt (bytes : List UInt8) : value bytes < 128 ^ bytes.length := by
  have hdigits : value bytes < 128 ^ (bytes.map fun b => b.toNat % 128).length := by
    refine Nat.ofDigits_lt_base_pow_length (by omega) fun d hd => ?_
    obtain ⟨b, -, rfl⟩ := List.mem_map.1 hd
    exact Nat.mod_lt _ (by omega)
  rwa [List.length_map] at hdigits

lemma length_encode_le_of_encodes (h : Encodes bytes n) : (encode n).length ≤ bytes.length := by
  obtain ⟨k, hk⟩ : ∃ k, bytes.length = k + 1 :=
    ⟨bytes.length - 1, by have := length_pos_of_terminated h.1; omega⟩
  have hlt := value_lt bytes
  rw [h.2, hk] at hlt
  rw [hk]
  exact length_encode_le hlt

end CollabEditor.Support.VarUint
