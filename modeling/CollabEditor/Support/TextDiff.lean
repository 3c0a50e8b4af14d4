import Mathlib.Data.List.Basic
/-!
# The changed range of a text

Two versions of a text, compared from both ends: what lies between their common start
and their common end is the range that changed.
-/

namespace CollabEditor.Support.TextDiff

open List Option

variable {K : Type}

def slice (t : List K) (start stop : Nat) : List K := (t.take stop).drop start

def splice (t : List K) (start stop : Nat) (new : List K) : List K :=
  t.take start ++ new ++ t.drop stop

lemma slice_subset (t : List K) (start stop : Nat) : slice t start stop ⊆ t :=
  List.Subset.trans (drop_subset _ _) (take_subset _ _)

lemma slice_infix (t : List K) (start stop : Nat) : slice t start stop <:+: t :=
  (drop_suffix start _).isInfix.trans (IsPrefix.isInfix <| take_prefix stop t)

@[simp] lemma slice_self (t : List K) (n : Nat) : slice t n n = [] := by
  simp [slice]

variable {start stop : Nat} {t : List K}

lemma take_append_slice (h : start ≤ stop) :
    t.take start ++ slice t start stop = t.take stop := by
  have htake : t.take start = (t.take stop).take start := by rw [take_take, Nat.min_eq_left h]
  rw [slice, htake, take_append_drop]

lemma length_slice (h : stop ≤ t.length) : (slice t start stop).length = stop - start := by
  simp [slice, h]

lemma slice_eq_nil (h : stop ≤ start) : slice t start stop = [] :=
  drop_of_length_le (Nat.le_trans (length_take_le _ _) h)

lemma lt_of_mem_slice {u : K} (h : u ∈ slice t start stop) : start < stop := by
  by_contra hge
  rw [slice_eq_nil (Nat.not_lt.1 hge)] at h
  cases h

lemma of_mem_head?_slice {u : K} (h : u ∈ (slice t start stop).head?) :
    start < stop ∧ t[start]? = some u := by
  have hlt := lt_of_mem_slice (mem_of_mem_head? h)
  rw [slice, head?_drop, getElem?_take, if_pos hlt] at h
  exact ⟨hlt, h⟩

lemma of_mem_getLast?_slice {u : K} (hstop : stop ≤ t.length)
    (h : u ∈ (slice t start stop).getLast?) : start < stop ∧ t[stop - 1]? = some u := by
  have hlt := lt_of_mem_slice (mem_of_getLast? h)
  have hindex : start + (stop - start - 1) = stop - 1 := by omega
  rw [getLast?_eq_getElem?, length_slice hstop, slice, getElem?_drop, getElem?_take,
    hindex, if_pos (by omega)] at h
  exact ⟨hlt, h⟩

@[simp] lemma splice_slice (h : start ≤ stop) : splice t start stop (slice t start stop) = t := by
  rw [splice, take_append_slice h, take_append_drop]

lemma slice_eq_and_splice_eq_iff {s new : List K} (hle : start ≤ stop) (hstop : stop ≤ t.length) :
    slice s start stop = slice t start stop ∧ splice s start stop new = splice t start stop new ↔
      s = t := by
  constructor
  · rintro ⟨hslice, hsplice⟩
    have hlen : s.length = t.length := by
      have h₁ := congrArg length hslice
      have h₂ := congrArg length hsplice
      simp only [slice, splice, length_drop, length_take, length_append] at h₁ h₂
      omega
    have htake : (s.take start).length = (t.take start).length := by simp [hlen]
    rw [splice, splice, append_assoc, append_assoc] at hsplice
    obtain ⟨hfront, hrest⟩ := append_inj hsplice htake
    have hback := append_cancel_left hrest
    calc s = s.take start ++ slice s start stop ++ s.drop stop := by
          rw [take_append_slice hle, take_append_drop]
      _ = t.take start ++ slice t start stop ++ t.drop stop := by rw [hfront, hslice, hback]
      _ = t := by rw [take_append_slice hle, take_append_drop]
  · rintro rfl
    exact ⟨rfl, rfl⟩

section

variable [DecidableEq K]

def commonPrefix : List K → List K → Nat
  | a :: s, b :: t => if a = b then commonPrefix s t + 1 else 0
  | _, _ => 0

lemma take_commonPrefix (s t : List K) :
    s.take (commonPrefix s t) = t.take (commonPrefix s t) := by
  induction s generalizing t with
  | nil => simp [commonPrefix]
  | cons a s ih =>
    cases t with
    | nil => simp [commonPrefix]
    | cons b t =>
      rw [commonPrefix]
      split
      · rename_i hab
        rw [take_succ_cons, take_succ_cons, ih, hab]
      · rfl

lemma commonPrefix_le (s t : List K) : commonPrefix s t ≤ min s.length t.length := by
  induction s generalizing t with
  | nil => simp [commonPrefix]
  | cons a s ih =>
    cases t with
    | nil => simp [commonPrefix]
    | cons b t =>
      have := ih t
      rw [commonPrefix]
      simp only [length_cons]
      split <;> omega

variable {s t : List K}

lemma getElem?_commonPrefix_ne {a b : K} (ha : s[commonPrefix s t]? = some a)
    (hb : t[commonPrefix s t]? = some b) : a ≠ b := by
  induction s generalizing t with
  | nil => cases ha
  | cons c s ih =>
    cases t with
    | nil => cases hb
    | cons d t =>
      rw [commonPrefix] at ha hb
      split at ha
      · rename_i hcd
        rw [if_pos hcd] at hb
        exact ih ha hb
      · rename_i hcd
        rw [if_neg hcd] at hb
        cases ha
        cases hb
        exact hcd

lemma take_eq_of_le_commonPrefix {n : Nat} (h : n ≤ commonPrefix s t) : s.take n = t.take n := by
  have htake := congrArg (take n) (take_commonPrefix s t)
  rwa [take_take, take_take, Nat.min_eq_left h] at htake

lemma drop_eq_of_le_commonPrefix_reverse {n : Nat} (h : n ≤ commonPrefix s.reverse t.reverse) :
    s.drop (s.length - n) = t.drop (t.length - n) := by
  have htake := take_eq_of_le_commonPrefix h
  rwa [take_reverse, take_reverse, reverse_inj] at htake

lemma commonPrefix_self (t : List K) : commonPrefix t t = t.length := by
  induction t with
  | nil => rfl
  | cons c t ih => rw [commonPrefix, if_pos rfl, ih, length_cons]

/-- How many characters the two texts have in common at the end, apart from those that they have
in common at the start. -/
def commonSuffix (s t : List K) : Nat :=
  min (min s.length t.length - commonPrefix s t) (commonPrefix s.reverse t.reverse)

lemma commonPrefix_add_commonSuffix_le (s t : List K) :
    commonPrefix s t + commonSuffix s t ≤ min s.length t.length := by
  have hp := commonPrefix_le s t
  have hs : commonSuffix s t ≤ min s.length t.length - commonPrefix s t := Nat.min_le_left _ _
  omega

lemma getElem?_commonSuffix_ne {a b : K}
    (hlt : commonPrefix s t + commonSuffix s t < min s.length t.length)
    (ha : s[s.length - commonSuffix s t - 1]? = some a)
    (hb : t[t.length - commonSuffix s t - 1]? = some b) : a ≠ b := by
  have hmax : commonSuffix s t = commonPrefix s.reverse t.reverse := by
    rw [commonSuffix] at hlt ⊢
    omega
  have hback (u : List K) (hu : commonSuffix s t < u.length) :
      u[u.length - commonSuffix s t - 1]? = u.reverse[commonPrefix s.reverse t.reverse]? := by
    rw [← hmax, getElem?_reverse hu, Nat.sub_right_comm]
  rw [hback s (by omega)] at ha
  rw [hback t (by omega)] at hb
  exact getElem?_commonPrefix_ne ha hb

lemma splice_changed (s t : List K) : splice s (commonPrefix s t) (s.length - commonSuffix s t)
      (slice t (commonPrefix s t) (t.length - commonSuffix s t)) = t := by
  have hle := commonPrefix_add_commonSuffix_le s t
  have hback : s.drop (s.length - commonSuffix s t) = t.drop (t.length - commonSuffix s t) :=
    drop_eq_of_le_commonPrefix_reverse (Nat.min_le_right _ _)
  calc splice s (commonPrefix s t) (s.length - commonSuffix s t)
        (slice t (commonPrefix s t) (t.length - commonSuffix s t))
      = t.take (commonPrefix s t) ++ slice t (commonPrefix s t) (t.length - commonSuffix s t) ++
          t.drop (t.length - commonSuffix s t) := by
        rw [splice, take_commonPrefix, hback]
    _ = t := by
        rw [take_append_slice (by omega), take_append_drop]

end

/-! ## Where a text occurs -/

section

variable [DecidableEq K]

def indexOf (pattern : List K) : List K → Option Nat
  | [] => if pattern = [] then some 0 else none
  | c :: rest =>
    if pattern <+: c :: rest then some 0 else (indexOf pattern rest).map (· + 1)

variable {pattern text : List K}

lemma slice_of_indexOf {i : Nat} (h : indexOf pattern text = some i) :
    slice text i (i + pattern.length) = pattern ∧ i + pattern.length ≤ text.length := by
  induction text generalizing i with
  | nil =>
    rw [indexOf, ite_none_right_eq_some] at h
    obtain ⟨rfl, ⟨⟩⟩ := h
    exact ⟨rfl, Nat.le_refl _⟩
  | cons c rest ih =>
    rw [indexOf] at h
    split at h
    · rename_i hfront
      cases h
      obtain ⟨tail, htail⟩ := hfront
      rw [← htail]
      simp [slice]
    · obtain ⟨j, hj, rfl⟩ := map_eq_some_iff.1 h
      obtain ⟨hslice, hle⟩ := ih hj
      refine ⟨?_, by simp only [length_cons]; omega⟩
      have hadd : j + 1 + pattern.length = j + pattern.length + 1 := by omega
      rw [hadd]
      simpa [slice] using hslice

/-- The pattern is at `i` and nowhere before. -/
structure FirstAt (pattern text : List K) (i : Nat) : Prop where
  here : pattern <+: text.drop i
  earlier : ∀ j < i, ¬ pattern <+: text.drop j

lemma indexOf_eq_some_iff {i : Nat} : indexOf pattern text = some i ↔ FirstAt pattern text i := by
  induction text generalizing i with
  | nil =>
    rw [indexOf, ite_none_right_eq_some, some.injEq]
    constructor
    · rintro ⟨rfl, rfl⟩
      exact ⟨by simp, by simp⟩
    · intro h
      have hnil : pattern = [] := by simpa using h.here
      refine ⟨hnil, ?_⟩
      by_contra hpos
      exact h.earlier 0 (by omega) (by simp [hnil])
  | cons c rest ih =>
    rw [indexOf]
    split
    · rename_i hfront
      rw [some.injEq]
      constructor
      · rintro rfl
        exact ⟨hfront, by simp⟩
      · intro h
        by_contra hpos
        exact h.earlier 0 (by omega) hfront
    · rename_i hfront
      rw [map_eq_some_iff]
      constructor
      · rintro ⟨j, hj, rfl⟩
        have h := ih.1 hj
        refine ⟨h.here, fun k hk => ?_⟩
        cases k with
        | zero => exact hfront
        | succ k => exact h.earlier k (by omega)
      · intro h
        cases i with
        | zero => exact absurd h.here hfront
        | succ j => exact ⟨j, ih.2 ⟨h.here, fun k hk => h.earlier (k + 1) (by omega)⟩, rfl⟩

lemma isSome_indexOf_iff : (indexOf pattern text).isSome ↔ pattern <:+: text := by
  induction text with
  | nil =>
    rw [indexOf, infix_nil]
    split <;> simp_all
  | cons c rest ih =>
    rw [indexOf, infix_cons_iff, ← ih]
    split
    · rename_i hfront
      simp [hfront]
    · rename_i hfront
      rw [isSome_map]
      exact ⟨.inr, fun h => h.resolve_left hfront⟩

end

end CollabEditor.Support.TextDiff
