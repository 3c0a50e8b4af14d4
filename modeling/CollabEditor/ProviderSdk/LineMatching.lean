import CollabEditor.ProviderSdk.Blame
import CollabEditor.Support.CommonSubsequence
/-!
# The lines that `computeLCS` matches

The table of `computeLCS` bounds the common subsequences of the prefixes, and the way back through
it is a matching of that length: no matching of the lines has more pairs.
-/

namespace CollabEditor.ProviderSdk.Blame

open Support CommonSubsequence List Nat

variable {β : Type} [DecidableEq β]

/-! ## The table -/

variable {b a : List β} {j i : Nat} {x : β}

lemma length_cells (x : β) (left : Nat) {above : List Nat} (h : above.length = b.length + 1) :
    (cells x left b above).length = b.length := by
  induction b generalizing left above with
  | nil => simp [cells]
  | cons y b ih =>
    rcases above with _ | ⟨diagonal, _ | ⟨up, above⟩⟩
    · cases h
    · cases h
    · rw [cells, length_cons, ih _ (succ.inj h), length_cons]

lemma getD_cells {y : β} (left : Nat) {above : List Nat} (h : above.length = b.length + 1)
    (hy : b[j]? = some y) : (left :: cells x left b above).getD (j + 1) 0 =
      if x = y then above.getD j 0 + 1
      else max (above.getD (j + 1) 0) ((left :: cells x left b above).getD j 0) := by
  induction b generalizing left above j with
  | nil => cases hy
  | cons z b ih =>
    rcases above with _ | ⟨diagonal, _ | ⟨up, above⟩⟩
    · cases h
    · cases h
    · rw [cells]
      cases j with
      | zero =>
        obtain rfl : z = y := Option.some.inj hy
        rfl
      | succ j =>
        have hrest := ih (if x = z then diagonal + 1 else max up left) (succ.inj h) hy
        simpa only [getD_cons_succ] using hrest

lemma getD_rows_zero (a b : List β) (row : List Nat) : (rows b row a).getD 0 [] = row := by
  cases a <;> rfl

lemma getD_rows_succ (b : List β) (row : List Nat) (hx : a[i]? = some x) :
    (rows b row a).getD (i + 1) [] = 0 :: cells x 0 b ((rows b row a).getD i []) := by
  induction a generalizing row i with
  | nil => cases hx
  | cons z a ih =>
    cases i with
    | zero =>
      obtain rfl : z = x := by simpa using hx
      rw [rows, getD_cons_succ, getD_rows_zero, getD_cons_zero]
    | succ i =>
      rw [rows, getD_cons_succ, getD_cons_succ]
      exact ih _ (by simpa using hx)

lemma length_getD_lcsTable (a b : List β) (hi : i ≤ a.length) :
    ((lcsTable a b).getD i []).length = b.length + 1 := by
  induction i with
  | zero => rw [lcsTable, getD_rows_zero, length_replicate]
  | succ i ih =>
    have hx : a[i]? = some a[i] := getElem?_eq_getElem hi
    have hrow := length_cells a[i] 0 (ih (le_of_succ_le hi))
    rw [lcsTable] at hrow ⊢
    rw [getD_rows_succ b _ hx, length_cons, hrow]

lemma lookup_zero_left (a b : List β) (j : Nat) : lookup (lcsTable a b) 0 j = 0 := by
  rw [lookup, lcsTable, getD_rows_zero]
  simp only [getD_eq_getElem?_getD, getElem?_replicate]
  split <;> rfl

lemma lookup_zero_right (a b : List β) (hi : i ≤ a.length) : lookup (lcsTable a b) i 0 = 0 := by
  cases i with
  | zero => exact lookup_zero_left a b 0
  | succ i =>
    have hx : a[i]? = some a[i] := getElem?_eq_getElem hi
    rw [lookup, lcsTable, getD_rows_succ b _ hx, getD_cons_zero]

lemma lookup_succ_succ {y : β} (hx : a[i]? = some x) (hy : b[j]? = some y) :
    lookup (lcsTable a b) (i + 1) (j + 1) = if x = y then lookup (lcsTable a b) i j + 1
      else max (lookup (lcsTable a b) i (j + 1)) (lookup (lcsTable a b) (i + 1) j) := by
  have hi : i < a.length := (List.getElem?_eq_some_iff.1 hx).1
  have hrow := getD_rows_succ b (List.replicate (b.length + 1) 0) hx
  have hlength := length_getD_lcsTable a b (le_of_lt hi)
  rw [lookup, lookup, lookup, lookup, lcsTable, hrow]
  exact getD_cells 0 hlength hy

lemma bounds_lookup (a b : List β) (hi : i ≤ a.length) (hj : j ≤ b.length) :
    Bounds (a.take i) (b.take j) (lookup (lcsTable a b) i j) := by
  induction i generalizing j with
  | zero =>
    rw [lookup_zero_left, take_zero]
    exact .nil_left _
  | succ i ihi =>
    induction j with
    | zero =>
      rw [lookup_zero_right a b hi, take_zero]
      exact .nil_right _
    | succ j ihj =>
      have hx : a[i]? = some a[i] := getElem?_eq_getElem hi
      have hy : b[j]? = some b[j] := getElem?_eq_getElem hj
      have hab := ihi (le_of_succ_le hi) (le_of_succ_le hj)
      have hup := ihi (le_of_succ_le hi) hj
      have hleft := ihj (le_of_succ_le hj)
      rw [lookup_succ_succ hx hy]
      rw [take_succ_eq_append_getElem hi] at hleft ⊢
      rw [take_succ_eq_append_getElem hj] at hup ⊢
      split
      · rename_i heq
        rw [← heq]
        exact hab.concat_self _
      · rename_i hne
        exact hup.concat_of_ne hleft hne

/-! ## The way back -/

lemma lt_of_mem_backtrack {dp : List (List Nat)} {p : Nat × Nat} (h : p ∈ backtrack a b dp i j) :
    p.1 < i ∧ p.2 < j := by
  fun_induction backtrack a b dp i j with
  | case1 i j heq ih =>
    rcases mem_cons.1 h with rfl | h
    · exact ⟨lt_succ_self i, lt_succ_self j⟩
    · obtain ⟨hi, hj⟩ := ih h
      exact ⟨lt_succ_of_lt hi, lt_succ_of_lt hj⟩
  | case2 i j hne hle ih => exact ⟨lt_succ_of_lt (ih h).1, (ih h).2⟩
  | case3 i j hne hle ih => exact ⟨(ih h).1, lt_succ_of_lt (ih h).2⟩
  | case4 i j hshape => cases h

lemma matching_backtrack {dp : List (List Nat)} (hi : i ≤ a.length) (hj : j ≤ b.length) :
    Matching a b 0 0 (backtrack a b dp i j).reverse := by
  fun_induction backtrack a b dp i j with
  | case1 i j heq ih =>
    rw [reverse_cons]
    have hx : a[i]? = some a[i] := getElem?_eq_getElem hi
    refine (ih (le_of_succ_le hi) (le_of_succ_le hj)).concat (fun p hp => ?_)
      (zero_le i) (zero_le j) hx (heq ▸ hx)
    exact lt_of_mem_backtrack (mem_reverse.1 hp)
  | case2 i j hne hle ih => exact ih (le_of_succ_le hi) hj
  | case3 i j hne hle ih => exact ih hi (le_of_succ_le hj)
  | case4 i j hshape => exact trivial

lemma length_backtrack (hi : i ≤ a.length) (hj : j ≤ b.length) :
    (backtrack a b (lcsTable a b) i j).length = lookup (lcsTable a b) i j := by
  fun_induction backtrack a b (lcsTable a b) i j with
  | case1 i j heq ih =>
    have hx : a[i]? = some a[i] := getElem?_eq_getElem hi
    rw [lookup_succ_succ hx (heq ▸ hx), if_pos rfl, length_cons,
      ih (le_of_succ_le hi) (le_of_succ_le hj)]
  | case2 i j hne hle ih =>
    have hx : a[i]? = some a[i] := getElem?_eq_getElem hi
    have hy : b[j]? = some b[j] := getElem?_eq_getElem hj
    have hxy : a[i] ≠ b[j] := fun heq => hne (by rw [hx, hy, heq])
    rw [ih (le_of_succ_le hi) hj, lookup_succ_succ hx hy, if_neg hxy, max_eq_left hle]
  | case3 i j hne hlt ih =>
    have hx : a[i]? = some a[i] := getElem?_eq_getElem hi
    have hy : b[j]? = some b[j] := getElem?_eq_getElem hj
    have hxy : a[i] ≠ b[j] := fun heq => hne (by rw [hx, hy, heq])
    rw [ih hi (le_of_succ_le hj), lookup_succ_succ hx hy, if_neg hxy,
      Nat.max_eq_right (Nat.le_of_lt (Nat.lt_of_not_le hlt))]
  | case4 i j hshape =>
    cases i with
    | zero => rw [lookup_zero_left, length_nil]
    | succ i =>
      cases j with
      | zero => rw [lookup_zero_right a b hi, length_nil]
      | succ j => exact absurd rfl (hshape i j rfl)

lemma matching_computeLCS (a b : List β) : Matching a b 0 0 (computeLCS a b) :=
  matching_backtrack (le_refl _) (le_refl _)

lemma bounds_computeLCS (a b : List β) : Bounds a b (computeLCS a b).length := by
  have hbounds := bounds_lookup a b (le_refl _) (le_refl _)
  rw [take_length, take_length] at hbounds
  rwa [computeLCS, length_reverse, length_backtrack (le_refl _) (le_refl _)]

end CollabEditor.ProviderSdk.Blame
