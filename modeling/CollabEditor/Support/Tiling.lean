import Mathlib.Data.List.Chain
/-!
# Tilings of a text by labelled spans

Spans tile a text when they lie side by side over the whole of it and neighbours bear different
labels.  A text that grows by characters of one label is tiled by prolonging the last span or by
adding one.
-/

namespace CollabEditor.Support.Tiling

open List Option Nat

universe u

variable {N : Type u}

structure Span (N : Type u) where
  start : Nat
  stop : Nat
  label : N

structure Tiles (spans : List (Span N)) (n : Nat) : Prop where
  adjacent : spans.IsChain fun s t => s.stop = t.start ∧ s.label ≠ t.label
  nonempty : ∀ s ∈ spans, s.start < s.stop
  first : ∀ s ∈ spans.head?, s.start = 0
  last : (spans.getLast?.map Span.stop).getD 0 = n

structure Labels (spans : List (Span N)) (labels : List N) : Prop extends
    Tiles spans labels.length where
  named : ∀ s ∈ spans, ∀ i, s.start ≤ i → i < s.stop → labels[i]? = some s.label

/-- The spans of a text that grows by `n` characters of one label behind `offset`. -/
def grow [DecidableEq N] (spans : List (Span N)) (offset n : Nat) (label : N) : List (Span N) :=
  match spans.getLast? with
  | none => [⟨offset, offset + n, label⟩]
  | some last =>
    if last.label = label ∧ last.stop = offset then
      spans.dropLast ++ [{ last with stop := last.stop + n }]
    else spans ++ [⟨offset, offset + n, label⟩]

variable {spans : List (Span N)} {labels : List N} {n : Nat} {label : N}

lemma Tiles.unique {m : Nat} (hm : Tiles spans m) (hn : Tiles spans n) : m = n :=
  hm.last.symm.trans hn.last

/-! ## Growing -/

lemma Labels.nil : Labels ([] : List (Span N)) [] :=
  ⟨⟨.nil, by simp, by simp, rfl⟩, by simp⟩

lemma Labels.stop_le (h : Labels spans labels) {s : Span N} (hs : s ∈ spans) :
    s.stop ≤ labels.length := by
  have hlt := h.nonempty s hs
  have hlast := h.named s hs (s.stop - 1) (by omega) (by omega)
  have := (List.getElem?_eq_some_iff.1 hlast).1
  omega

lemma Labels.named_append (h : Labels spans labels) {s : Span N} (hs : s ∈ spans) {i : Nat}
    (hstart : s.start ≤ i) (hstop : i < s.stop) (more : List N) :
    (labels ++ more)[i]? = some s.label := by
  rw [getElem?_append_left (lt_of_lt_of_le hstop (h.stop_le hs))]
  exact h.named s hs i hstart hstop

lemma getElem?_append_replicate {i : Nat} (hstart : labels.length ≤ i)
    (hstop : i < labels.length + n) : (labels ++ replicate n label)[i]? = some label := by
  rw [getElem?_append_right hstart, getElem?_replicate_of_lt (by omega)]

lemma Labels.push (h : Labels spans labels) (hn : 0 < n)
    (hlabel : ∀ s ∈ spans.getLast?, s.label ≠ label) :
    Labels (spans ++ [⟨labels.length, labels.length + n, label⟩])
      (labels ++ replicate n label) where
  adjacent := by
    refine isChain_append.2 ⟨h.adjacent, .singleton _, fun s hs t ht => ?_⟩
    obtain rfl := some.inj ht
    have hstop := h.last
    rw [hs] at hstop
    exact ⟨hstop, hlabel s hs⟩
  nonempty := by
    intro s hs
    rcases mem_append.1 hs with hs | hs
    · exact h.nonempty s hs
    · obtain rfl := mem_singleton.1 hs
      exact Nat.lt_add_of_pos_right hn
  first := by
    intro s hs
    cases spans with
    | nil =>
      obtain rfl := some.inj hs
      exact h.last.symm
    | cons => exact h.first s hs
  last := by simp
  named := by
    intro s hs i hstart hstop
    rcases mem_append.1 hs with hs | hs
    · exact h.named_append hs hstart hstop _
    · obtain rfl := mem_singleton.1 hs
      exact getElem?_append_replicate hstart hstop

lemma Labels.extend {front : List (Span N)} {s : Span N} (h : Labels (front ++ [s]) labels) :
    Labels (front ++ [{ s with stop := s.stop + n }]) (labels ++ replicate n s.label) := by
  have hmem : s ∈ front ++ [s] := by simp
  have hstop : s.stop = labels.length := by simpa using h.last
  obtain ⟨hfront, -, hmeet⟩ := isChain_append.1 h.adjacent
  refine ⟨⟨isChain_append.2 ⟨hfront, .singleton _, fun t ht r hr => ?_⟩, ?_, ?_, ?_⟩, ?_⟩
  · obtain rfl := some.inj hr
    exact hmeet t ht s rfl
  · intro t ht
    rcases mem_append.1 ht with ht | ht
    · exact h.nonempty t (mem_append_left _ ht)
    · obtain rfl := mem_singleton.1 ht
      exact Nat.lt_add_right n (h.nonempty s hmem)
  · intro t ht
    cases front with
    | nil =>
      obtain rfl := some.inj ht
      exact h.first s rfl
    | cons => exact h.first t ht
  · simp [hstop]
  · intro t ht i hstart hi
    rcases mem_append.1 ht with ht | ht
    · exact h.named_append (mem_append_left _ ht) hstart hi _
    · obtain rfl := mem_singleton.1 ht
      by_cases hold : i < s.stop
      · exact h.named_append hmem hstart hold _
      · exact getElem?_append_replicate (by omega) (by simp only at hi; omega)

lemma Labels.grow [DecidableEq N] (h : Labels spans labels) (hn : 0 < n) (label : N) :
    Labels (Tiling.grow spans labels.length n label) (labels ++ replicate n label) := by
  unfold Tiling.grow
  split
  · rename_i hempty
    obtain rfl := getLast?_eq_none_iff.1 hempty
    exact h.push hn (by simp)
  · rename_i last hlast
    obtain ⟨front, rfl⟩ := getLast?_eq_some_iff.1 hlast
    split
    · rename_i hsame
      rw [dropLast_concat, ← hsame.1]
      exact h.extend
    · rename_i hother
      refine h.push hn fun s hs => ?_
      obtain rfl := mem_unique hlast hs
      exact fun hlabel => hother ⟨hlabel, by simpa using h.last⟩

/-! ## Where a character lies -/

lemma Tiles.exists_span (h : Tiles spans n) {i : Nat} (hi : i < n) :
    ∃ front s back, spans = front ++ s :: back ∧ s.start ≤ i ∧ i < s.stop := by
  obtain ⟨hadjacent, -, hfirst, rfl⟩ := h
  have hle : ∀ s ∈ spans.head?, s.start ≤ i := fun s hs => by rw [hfirst s hs]; exact zero_le i
  clear hfirst
  -- the first span that does not end before the character
  induction spans with
  | nil => simp at hi
  | cons s rest ih =>
    by_cases hstop : i < s.stop
    · exact ⟨[], s, rest, rfl, hle s rfl, hstop⟩
    · cases rest with
      | nil => exact absurd hi hstop
      | cons t rest =>
        obtain ⟨⟨hmeet, -⟩, hrest⟩ := isChain_cons_cons.1 hadjacent
        have hnext : ∀ r ∈ (t :: rest).head?, r.start ≤ i := fun r hr => by
          obtain rfl := some.inj hr
          omega
        obtain ⟨front, r, back, hsplit, hin⟩ := ih hrest (by simpa using hi) hnext
        exact ⟨s :: front, r, back, by rw [hsplit, cons_append], hin⟩

lemma Labels.exists_named (h : Labels spans labels) {i : Nat} (hi : i < labels.length) :
    ∃ s ∈ spans, s.start ≤ i ∧ i < s.stop ∧ labels[i]? = some s.label := by
  obtain ⟨front, s, back, rfl, hstart, hstop⟩ := h.exists_span hi
  exact ⟨s, by simp, hstart, hstop, h.named s (by simp) i hstart hstop⟩

lemma Labels.exists_within (h : Labels spans labels) {i j : Nat} (hij : i < j)
    (hrun : ∀ k, i ≤ k → k < j → labels[k]? = some label) :
    ∃ s ∈ spans, s.start ≤ i ∧ j ≤ s.stop ∧ s.label = label := by
  have hi := (List.getElem?_eq_some_iff.1 (hrun i (le_refl i) hij)).1
  have hj := (List.getElem?_eq_some_iff.1 (hrun (j - 1) (by omega) (by omega))).1
  obtain ⟨front, s, back, rfl, hstart, hstop⟩ := h.exists_span hi
  have hlabel : s.label = label := by
    have hnamed := h.named s (by simp) i hstart hstop
    rw [hrun i (le_refl i) hij] at hnamed
    exact (some.inj hnamed).symm
  refine ⟨s, by simp, hstart, Nat.le_of_not_lt fun hlt => ?_, hlabel⟩
  -- the span behind it would begin in the run, with another label
  cases back with
  | nil =>
    have hend : s.stop = labels.length := by simpa using h.last
    omega
  | cons t back =>
    obtain ⟨-, ⟨hmeet, hne⟩, -⟩ := isChain_append_cons_cons.1 h.adjacent
    have hnamed := h.named t (by simp) s.stop (le_of_eq hmeet.symm)
      (hmeet ▸ h.nonempty t (by simp))
    rw [hrun s.stop (by omega) hlt] at hnamed
    exact hne (hlabel.trans (some.inj hnamed))

end CollabEditor.Support.Tiling
