import Mathlib.Data.List.Basic
/-!
# Common subsequences of two lists

An upper bound on the length of the common subsequences of two lists, with the rules by which a
table over the prefixes computes one, and matchings of equal entries.
-/

namespace CollabEditor.Support.CommonSubsequence

open List

universe u

variable {β : Type u} {a b : List β} {x y : β} {m n : Nat}

/-! ## Bounds -/

/-- No common subsequence of `a` and `b` is longer than `n`. -/
def Bounds (a b : List β) (n : Nat) : Prop :=
  ∀ c : List β, List.Sublist c a → List.Sublist c b → c.length ≤ n

lemma Bounds.nil_left (b : List β) : Bounds [] b 0 := by
  intro c ha _
  obtain rfl := sublist_nil.1 ha
  exact Nat.le_refl 0

lemma Bounds.nil_right (a : List β) : Bounds a [] 0 := by
  intro c _ hb
  obtain rfl := sublist_nil.1 hb
  exact Nat.le_refl 0

lemma Bounds.mono (h : Bounds a b m) (hle : m ≤ n) : Bounds a b n :=
  fun c ha hb => Nat.le_trans (h c ha hb) hle

lemma Bounds.symm (h : Bounds a b n) : Bounds b a n := fun c hb ha => h c ha hb

lemma Bounds.singleton_left (h : x ∉ b) : Bounds [x] b 0 := by
  intro c hx hb
  rcases sublist_singleton.1 hx with rfl | rfl
  · exact Nat.le_refl 0
  · exact absurd (singleton_sublist.1 hb) h

lemma sublist_concat {c : List β} (h : List.Sublist c (a ++ [x])) :
    List.Sublist c a ∨ ∃ c', c = c' ++ [x] ∧ List.Sublist c' a := by
  obtain ⟨front, last, rfl, hfront, hlast⟩ := sublist_append_iff.1 h
  rcases sublist_singleton.1 hlast with rfl | rfl
  · left
    rw [append_nil]
    exact hfront
  · exact .inr ⟨front, rfl, hfront⟩

lemma Bounds.concat_self (h : Bounds a b n) (x : β) : Bounds (a ++ [x]) (b ++ [x]) (n + 1) := by
  intro c ha hb
  rcases sublist_concat ha with ha | ⟨front, rfl, hfront⟩
  · rcases sublist_concat hb with hb | ⟨front, rfl, hfront⟩
    · exact Nat.le_succ_of_le (h c ha hb)
    · rw [length_append]
      have hle := h front ((sublist_append_left front [x]).trans ha) hfront
      exact Nat.succ_le_succ hle
  · rcases sublist_concat hb with hb | ⟨front', heq, hfront'⟩
    · rw [length_append]
      have hle := h front hfront ((sublist_append_left front [x]).trans hb)
      exact Nat.succ_le_succ hle
    · obtain ⟨rfl, -⟩ := append_inj' heq rfl
      rw [length_append]
      exact Nat.succ_le_succ (h front hfront hfront')

lemma Bounds.concat_of_ne (hleft : Bounds a (b ++ [y]) m) (hright : Bounds (a ++ [x]) b n)
    (hne : x ≠ y) : Bounds (a ++ [x]) (b ++ [y]) (max m n) := by
  intro c ha hb
  rcases sublist_concat ha with ha' | ⟨front, hfront, -⟩
  · exact Nat.le_trans (hleft c ha' hb) (Nat.le_max_left m n)
  · rcases sublist_concat hb with hb' | ⟨front', hfront', -⟩
    · exact Nat.le_trans (hright c ha hb') (Nat.le_max_right m n)
    · obtain ⟨-, hlast⟩ := append_inj' (hfront.symm.trans hfront') rfl
      exact absurd (singleton_inj.1 hlast) hne

/-! ## Matchings -/

/-- The pairs are places of `a` and `b` with the same entry, increasing on both sides, from `i` and
`j` on. -/
def Matching (a b : List β) : Nat → Nat → List (Nat × Nat) → Prop
  | _, _, [] => True
  | i, j, p :: pairs =>
    i ≤ p.1 ∧ j ≤ p.2 ∧ (∃ x, a[p.1]? = some x ∧ b[p.2]? = some x) ∧
      Matching a b (p.1 + 1) (p.2 + 1) pairs

variable {i j : Nat} {pairs : List (Nat × Nat)}

lemma Matching.eq_nil_of_left (h : Matching [] b i j pairs) : pairs = [] := by
  cases pairs with
  | nil => rfl
  | cons p pairs =>
    obtain ⟨-, -, ⟨x, hx, -⟩, -⟩ := h
    cases hx

lemma Matching.eq_nil_of_right (h : Matching a [] i j pairs) : pairs = [] := by
  cases pairs with
  | nil => rfl
  | cons p pairs =>
    obtain ⟨-, -, ⟨x, -, hx⟩, -⟩ := h
    cases hx

section

variable (h : Matching a b i j pairs)
include h

lemma Matching.concat {i' j' : Nat} (hbefore : ∀ p ∈ pairs, p.1 < i' ∧ p.2 < j') (hi : i ≤ i')
    (hj : j ≤ j') (ha : a[i']? = some x) (hb : b[j']? = some x) :
    Matching a b i j (pairs ++ [(i', j')]) := by
  induction pairs generalizing i j with
  | nil => exact ⟨hi, hj, ⟨x, ha, hb⟩, trivial⟩
  | cons p pairs ih =>
    obtain ⟨hp, hp', hsame, hrest⟩ := h
    obtain ⟨hlt, hlt'⟩ := hbefore p mem_cons_self
    exact ⟨hp, hp', hsame, ih hrest (fun q hq => hbefore q (mem_cons_of_mem p hq)) hlt hlt'⟩

lemma Matching.le_of_mem {p : Nat × Nat} (hp : p ∈ pairs) : i ≤ p.1 ∧ j ≤ p.2 := by
  induction pairs generalizing i j with
  | nil => cases hp
  | cons q pairs ih =>
    obtain ⟨hi, hj, -, hrest⟩ := h
    rcases mem_cons.1 hp with rfl | hp
    · exact ⟨hi, hj⟩
    · have := ih hrest hp
      omega

lemma Matching.left_unique {k k' n : Nat} (hk : (k, n) ∈ pairs) (hk' : (k', n) ∈ pairs) :
    k = k' := by
  induction pairs generalizing i j with
  | nil => cases hk
  | cons q pairs ih =>
    obtain ⟨-, -, -, hrest⟩ := h
    rcases mem_cons.1 hk with rfl | hlater <;> rcases mem_cons.1 hk' with heq | hlater'
    · exact (Prod.mk.inj heq).1.symm
    · have := (hrest.le_of_mem hlater').2
      omega
    · subst heq
      have := (hrest.le_of_mem hlater).2
      omega
    · exact ih hrest hlater hlater'

lemma Matching.same_of_mem {p : Nat × Nat} (hp : p ∈ pairs) :
    ∃ x, a[p.1]? = some x ∧ b[p.2]? = some x := by
  induction pairs generalizing i j with
  | nil => cases hp
  | cons q pairs ih =>
    obtain ⟨-, -, hsame, hrest⟩ := h
    rcases mem_cons.1 hp with rfl | hp
    · exact hsame
    · exact ih hrest hp

end

lemma cons_sublist_drop {c : List β} {k : Nat} (hk : a[k]? = some x)
    (hc : List.Sublist c (a.drop (k + 1))) (hi : i ≤ k) : List.Sublist (x :: c) (a.drop i) := by
  obtain ⟨hlt, rfl⟩ := List.getElem?_eq_some_iff.1 hk
  have hcons : List.Sublist (a[k] :: c) (a.drop k) := by
    rw [List.drop_eq_getElem_cons hlt]
    exact hc.cons_cons _
  exact hcons.trans (List.drop_sublist_drop_left a hi)

lemma Matching.exists_sublist (h : Matching a b i j pairs) :
    ∃ c, List.Sublist c (a.drop i) ∧ List.Sublist c (b.drop j) ∧ c.length = pairs.length := by
  induction pairs generalizing i j with
  | nil => exact ⟨[], nil_sublist _, nil_sublist _, rfl⟩
  | cons p pairs ih =>
    obtain ⟨hi, hj, ⟨x, ha, hb⟩, hrest⟩ := h
    obtain ⟨c, hca, hcb, hlength⟩ := ih hrest
    exact ⟨x :: c, cons_sublist_drop ha hca hi, cons_sublist_drop hb hcb hj, by simp [hlength]⟩

lemma Matching.length_le (h : Matching a b i j pairs) (hbounds : Bounds a b n) :
    pairs.length ≤ n := by
  obtain ⟨c, hca, hcb, hlength⟩ := h.exists_sublist
  rw [← hlength]
  exact hbounds c (hca.trans (drop_sublist i a)) (hcb.trans (drop_sublist j b))

end CollabEditor.Support.CommonSubsequence
