import Mathlib.Data.List.Basic
import Mathlib.Data.Int.Init
/-!
# Redis list ranges

`LRANGE key start stop` and `LTRIM key start stop` address a list by inclusive,
zero-based indices; a negative index counts from the end and a range that is
empty after clamping selects nothing.
-/

namespace CollabEditor.Support.RedisList

variable {β : Type}

def range (l : List β) (start stop : Int) : List β :=
  let first := if start < 0 then max 0 (start + l.length) else start
  let last := if stop < 0 then stop + l.length else stop
  if last < first ∨ (l.length : Int) ≤ first then []
  else (l.take (last + 1).toNat).drop first.toNat

lemma range_to_end (l : List β) {start : Int} (h : 0 ≤ start) :
    range l start (-1) = l.drop start.toNat := by
  have hlast : (-1 : Int) + l.length + 1 = l.length := by omega
  simp only [range, if_neg (Int.not_lt.2 h), show (-1 : Int) < 0 by omega, if_true, hlast,
    Int.toNat_natCast, List.take_length]
  split_ifs with hout
  · rw [List.drop_eq_nil_of_le (by omega)]
  · rfl

lemma range_one_zero (l : List β) : range l 1 0 = [] := by
  simp [range]

end CollabEditor.Support.RedisList
