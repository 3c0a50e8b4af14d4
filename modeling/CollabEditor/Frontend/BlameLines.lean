import Mathlib.Data.List.Chain
import Mathlib.Data.List.Sort
import CollabEditor.Frontend.BlameEngine
/-!
# Blame on the lines of the source editor

`buildLineDecorations` of `collab/blame-cm-extension.ts`, over `Text` and `RangeSetBuilder` of the
editor's library.  The user name stands for the color, which is a function of it.
-/

namespace CollabEditor.Frontend.BlameLines

open List Nat

variable {K : Type}

inductive RangeError
  | invalidPosition
  | invalidLine
  | unsorted
  deriving DecidableEq

structure Line where
  number : Nat
  start : Nat
  stop : Nat

structure Text (K : Type) where
  lines : List (List K)
  nonempty : lines ≠ []

/-- Where the line with index `i` begins, each line before it with its break; behind the last line
there may be empty ones. -/
def lineFrom : List (List K) → Nat → Nat
  | [], i => i
  | _ :: _, 0 => 0
  | line :: rest, i + 1 => line.length + 1 + lineFrom rest i

/-- `lineInner`: the first line with the number, or that ends at the position or behind it. -/
def lineInner (isLine : Bool) (target : Nat) : List (List K) → Nat → Nat → Option Line
  | [], _, _ => none
  | string :: rest, line, offset =>
    let stop := offset + string.length
    if target ≤ (if isLine then line else stop) then some ⟨line, offset, stop⟩
    else lineInner isLine target rest (line + 1) (stop + 1)

namespace Text

/-- The last line has no break. -/
def length (doc : Text K) : Nat := lineFrom doc.lines doc.lines.length - 1

def lineAt (doc : Text K) (pos : Nat) : Except RangeError Line :=
  if doc.length < pos then .error .invalidPosition
  else (lineInner false pos doc.lines 1 0).elim (.error .invalidPosition) .ok

def line (doc : Text K) (n : Nat) : Except RangeError Line :=
  if n < 1 ∨ doc.lines.length < n then .error .invalidLine
  else (lineInner true n doc.lines 1 0).elim (.error .invalidLine) .ok

end Text

/-- `RangeSetBuilder.add`, with what has been added before, the last first. -/
def add (added : List (Nat × String)) (range : Nat × String) :
    Except RangeError (List (Nat × String)) :=
  if ∀ last ∈ added.head?, last.1 ≤ range.1 then .ok (range :: added) else .error .unsorted

def addLine (doc : Text K) (userName : String) (added : List (Nat × String)) (lineNum : Nat) :
    Except RangeError (List (Nat × String)) := do
  let line ← doc.line lineNum
  add added (line.start, userName)

def addSegment (doc : Text K) (added : List (Nat × String)) (seg : BlameSegment) :
    Except RangeError (List (Nat × String)) := do
  let startLine ← doc.lineAt (min seg.start doc.length)
  let endPos := min seg.stop doc.length
  let endLine ← if 0 < endPos then doc.lineAt (endPos - 1) else .ok startLine
  (range' startLine.number (endLine.number + 1 - startLine.number)).foldlM
    (addLine doc seg.userName) added

def sortSegments (segments : List BlameSegment) : List BlameSegment :=
  segments.insertionSort fun a b => a.start ≤ b.start

def buildLineDecorations (doc : Text K) (segments : List BlameSegment) :
    Except RangeError (List (Nat × String)) := do
  let added ← (sortSegments segments).foldlM (addSegment doc) []
  return added.reverse

/-! ## The lines of a text -/

def lineIndex : List (List K) → Nat → Nat
  | [], pos => pos
  | line :: rest, pos =>
    if pos ≤ line.length then 0 else lineIndex rest (pos - (line.length + 1)) + 1

section

variable {lines : List (List K)} {i j pos : Nat}

@[simp] lemma lineFrom_zero : lineFrom lines 0 = 0 := by cases lines <;> rfl

lemma lineFrom_le_iff : lineFrom lines i ≤ pos ↔ i ≤ lineIndex lines pos := by
  induction lines generalizing i pos with
  | nil => rfl
  | cons line rest ih =>
    cases i with
    | zero => simp
    | succ i =>
      have := @ih i (pos - (line.length + 1))
      rw [lineFrom, lineIndex]
      split_ifs <;> omega

lemma lt_lineFrom_iff : pos < lineFrom lines i ↔ lineIndex lines pos < i := by
  rw [← not_le, lineFrom_le_iff, not_le]

lemma lineIndex_lineFrom : lineIndex lines (lineFrom lines i) = i := by
  induction lines generalizing i with
  | nil => rfl
  | cons line rest ih =>
    cases i with
    | zero => simp [lineIndex]
    | succ i => rw [lineFrom, lineIndex, if_neg (by omega), Nat.add_sub_cancel_left, ih]

lemma lineFrom_le_lineFrom_iff : lineFrom lines i ≤ lineFrom lines j ↔ i ≤ j := by
  rw [lineFrom_le_iff, lineIndex_lineFrom]

lemma lineFrom_lt_succ : lineFrom lines i < lineFrom lines (i + 1) := by
  rw [lt_lineFrom_iff, lineIndex_lineFrom]
  exact lt_succ_self i

lemma lineInner_position (line offset : Nat) (hpos : lineIndex lines pos < lines.length) :
    (lineInner false (offset + pos) lines line offset).map Line.number =
      some (line + lineIndex lines pos) := by
  induction lines generalizing line offset pos with
  | nil => exact absurd hpos (not_lt_zero _)
  | cons string rest ih =>
    rw [lineIndex] at hpos ⊢
    simp only [lineInner, Bool.false_eq_true, if_false, Nat.add_le_add_iff_left]
    split_ifs at hpos ⊢
    · rfl
    · have hadd : offset + pos = offset + string.length + 1 + (pos - (string.length + 1)) := by
        omega
      rw [hadd, ih _ _ (Nat.lt_of_succ_lt_succ hpos), Nat.add_right_comm, Nat.add_assoc]

lemma lineInner_number (line offset : Nat) (hi : i < lines.length) :
    lineInner true (line + i) lines line offset = some ⟨line + i, offset + lineFrom lines i,
      offset + lineFrom lines (i + 1) - 1⟩ := by
  induction lines generalizing line offset i with
  | nil => cases hi
  | cons string rest ih =>
    cases i with
    | zero => simp [lineInner, lineFrom, ← Nat.add_assoc]
    | succ i =>
      have hline : line + (i + 1) = line + 1 + i := by omega
      rw [lineInner, hline, if_pos rfl, if_neg (by omega), ih _ _ (lt_of_succ_lt_succ hi)]
      simp only [lineFrom, ← Nat.add_assoc]

end

namespace Text

variable {doc : Text K}

lemma lineIndex_lt {pos : Nat} (h : pos ≤ doc.length) :
    lineIndex doc.lines pos < doc.lines.length := by
  have hfrom : lineFrom doc.lines 0 < lineFrom doc.lines doc.lines.length := by
    rw [lt_lineFrom_iff, lineIndex_lineFrom]
    exact length_pos_iff.2 doc.nonempty
  rw [← lt_lineFrom_iff]
  unfold length at h
  omega

lemma lineAt_of_le {pos : Nat} (h : pos ≤ doc.length) :
    ∃ line, doc.lineAt pos = .ok line ∧ line.number = lineIndex doc.lines pos + 1 := by
  have hinner := lineInner_position 1 0 (lineIndex_lt h)
  obtain ⟨line, hline, hnumber⟩ := Option.map_eq_some_iff.1 hinner
  rw [Nat.zero_add] at hline
  rw [lineAt, if_neg (Nat.not_lt_of_le h), hline]
  exact ⟨line, rfl, hnumber.trans (Nat.add_comm _ _)⟩

lemma line_succ {i : Nat} (hi : i < doc.lines.length) :
    doc.line (i + 1) = .ok ⟨i + 1, lineFrom doc.lines i, lineFrom doc.lines (i + 1) - 1⟩ := by
  have hinner := lineInner_number 1 0 hi
  rw [Nat.add_comm 1 i, Nat.zero_add, Nat.zero_add] at hinner
  rw [line, if_neg (by omega), hinner]
  rfl

lemma line_eq_ok {n : Nat} {line : Line} (h : doc.line n = .ok line) :
    ∃ i < doc.lines.length, n = i + 1 ∧
      line = ⟨i + 1, lineFrom doc.lines i, lineFrom doc.lines (i + 1) - 1⟩ := by
  by_cases hn : n < 1 ∨ doc.lines.length < n
  · rw [Text.line, if_pos hn] at h
    cases h
  · obtain ⟨i, rfl⟩ := Nat.exists_eq_add_of_le' (Nat.le_of_not_lt (not_or.1 hn).1)
    have hi : i < doc.lines.length := by omega
    cases (line_succ hi).symm.trans h
    exact ⟨i, hi, rfl, rfl⟩

end Text

/-! ## The lines of a segment -/

section

variable (doc : Text K)

/-- The indices of the lines that the loop of a segment goes through. -/
def segmentLines (seg : BlameSegment) : List Nat :=
  let first := lineIndex doc.lines (min seg.start doc.length)
  let endPos := min seg.stop doc.length
  let last := if 0 < endPos then lineIndex doc.lines (endPos - 1) else first
  range' first (last + 1 - first)

def segmentDecorations (seg : BlameSegment) : List (Nat × String) :=
  (segmentLines doc seg).map fun i => (lineFrom doc.lines i, seg.userName)

def decorations (segments : List BlameSegment) : List (Nat × String) :=
  (sortSegments segments).flatMap (segmentDecorations doc)

variable {doc} {seg a b : BlameSegment} {i : Nat}

lemma mem_segmentLines : i ∈ segmentLines doc seg ↔
    lineIndex doc.lines (min seg.start doc.length) ≤ i ∧
      i ≤ if 0 < min seg.stop doc.length then lineIndex doc.lines (min seg.stop doc.length - 1)
        else lineIndex doc.lines (min seg.start doc.length) := by
  simp only [segmentLines, mem_range'_1]
  omega

lemma segmentLines_lt (h : i ∈ segmentLines doc seg) : i < doc.lines.length := by
  refine lt_of_le_of_lt (mem_segmentLines.1 h).2 ?_
  split_ifs <;> exact Text.lineIndex_lt (by omega)

lemma segmentLines_le (hle : a.start ≤ b.start) (hstop : a.stop ≤ b.start ∨ a.stop ≤ a.start)
    (h : i ∈ segmentLines doc a) : i ≤ lineIndex doc.lines (min b.start doc.length) := by
  refine le_trans (mem_segmentLines.1 h).2 ?_
  split_ifs <;> exact lineFrom_le_iff.1 (le_trans (lineFrom_le_iff.2 (le_refl _)) (by omega))

/-! ## What is added -/

lemma foldlM_add (ranges : List (Nat × String)) {added : List (Nat × String)}
    (hadded : added.IsChain fun a b => b.1 ≤ a.1) : ranges.foldlM add added =
      if (ranges.reverse ++ added).IsChain fun a b => b.1 ≤ a.1 then .ok (ranges.reverse ++ added)
      else .error .unsorted := by
  induction ranges generalizing added with
  | nil => exact (if_pos hadded).symm
  | cons range ranges ih =>
    rw [foldlM_cons, reverse_cons, append_assoc, singleton_append, add]
    by_cases hlast : ∀ last ∈ added.head?, last.1 ≤ range.1
    · rw [if_pos hlast]
      exact ih (isChain_cons.2 ⟨hlast, hadded⟩)
    · rw [if_neg hlast, if_neg]
      · rfl
      · intro hsorted
        exact hlast (isChain_cons.1 (isChain_append.1 hsorted).2.1).1

lemma foldlM_addLine {indices : List Nat} (userName : String) (added : List (Nat × String))
    (h : ∀ i ∈ indices, i < doc.lines.length) :
    (indices.map (1 + ·)).foldlM (addLine doc userName) added =
      (indices.map fun i => (lineFrom doc.lines i, userName)).foldlM add added := by
  induction indices generalizing added with
  | nil => rfl
  | cons i rest ih =>
    rw [map_cons, foldlM_cons, map_cons, foldlM_cons, addLine, Nat.add_comm 1 i,
      Text.line_succ (h i mem_cons_self)]
    refine bind_congr fun added => ?_
    exact ih added fun m hm => h m (mem_cons_of_mem _ hm)

lemma addSegment_eq (added : List (Nat × String)) (seg : BlameSegment) :
    addSegment doc added seg = (segmentDecorations doc seg).foldlM add added := by
  obtain ⟨startLine, hstart, hfirst⟩ := Text.lineAt_of_le (min_le_right seg.start doc.length)
  rw [segmentDecorations, ← foldlM_addLine _ _ fun i hi => segmentLines_lt hi, addSegment, hstart,
    segmentLines, map_add_range', Nat.add_comm 1, ← hfirst]
  by_cases hend : 0 < min seg.stop doc.length
  · obtain ⟨endLine, hendLine, hlast⟩ := @Text.lineAt_of_le _ doc (min seg.stop doc.length - 1)
      (by omega)
    simp only [if_pos hend, hendLine]
    rw [← Nat.add_sub_add_right _ 1, ← hlast, ← hfirst]
    rfl
  · simp only [if_neg hend]
    rw [← Nat.add_sub_add_right _ 1, ← hfirst]
    rfl

lemma buildLineDecorations_eq (doc : Text K) (segments : List BlameSegment) :
    buildLineDecorations doc segments =
      if (decorations doc segments).Pairwise fun a b => a.1 ≤ b.1 then
        .ok (decorations doc segments) else .error .unsorted := by
  have hfold (sorted : List BlameSegment) (added : List (Nat × String)) :
      sorted.foldlM (addSegment doc) added =
        (sorted.flatMap (segmentDecorations doc)).foldlM add added := by
    induction sorted generalizing added with
    | nil => rfl
    | cons seg rest ih =>
      rw [foldlM_cons, flatMap_cons, foldlM_append, addSegment_eq]
      exact bind_congr ih
  have htrans : IsTrans (Nat × String) fun a b => b.1 ≤ a.1 :=
    ⟨fun _ _ _ hab hbc => le_trans hbc hab⟩
  rw [buildLineDecorations, hfold, ← decorations, foldlM_add _ .nil, append_nil]
  simp only [isChain_iff_pairwise, pairwise_reverse]
  split_ifs
  · exact congrArg Except.ok (reverse_reverse _)
  · rfl

/-! ## The order of the lines -/

/-- The lines of a segment that has no character are not before those of a segment that comes
before it in the sorted list. -/
def EmptyInOrder (doc : Text K) (segments : List BlameSegment) : Prop :=
  (sortSegments segments).Pairwise fun a b => b.stop ≤ b.start →
    ∀ i ∈ segmentLines doc a, ∀ j ∈ segmentLines doc b, i ≤ j
  deriving Decidable

lemma decorations_sorted_iff (segments : List BlameSegment) :
    ((decorations doc segments).Pairwise fun a b => a.1 ≤ b.1) ↔
      (sortSegments segments).Pairwise fun a b =>
        ∀ i ∈ segmentLines doc a, ∀ j ∈ segmentLines doc b, i ≤ j := by
  rw [decorations, pairwise_flatMap, and_iff_right]
  · simp only [segmentDecorations, forall_mem_map, lineFrom_le_lineFrom_iff]
  · intro seg _
    exact pairwise_map.2 (pairwise_le_range'.imp lineFrom_le_lineFrom_iff.2)

lemma sortSegments_sorted (segments : List BlameSegment) :
    (sortSegments segments).Pairwise fun a b => a.start ≤ b.start := by
  have htotal : Std.Total fun a b : BlameSegment => a.start ≤ b.start :=
    ⟨fun a b => le_total a.start b.start⟩
  have htrans : IsTrans BlameSegment fun a b => a.start ≤ b.start :=
    ⟨fun _ _ _ => le_trans⟩
  exact pairwise_insertionSort _ segments

/-- No character is in both segments. -/
def Apart (a b : BlameSegment) : Prop := ∀ i, ¬ (a.Covers i ∧ b.Covers i)

/-- A segment with characters comes behind the lines of all that begin before it. -/
lemma decorations_sorted_iff_emptyInOrder (doc : Text K) {segments : List BlameSegment}
    (hapart : segments.Pairwise Apart) :
    ((decorations doc segments).Pairwise fun a b => a.1 ≤ b.1) ↔ EmptyInOrder doc segments := by
  have happart : (sortSegments segments).Pairwise Apart :=
    hapart.perm (perm_insertionSort _ _).symm fun h i hi => h i hi.symm
  rw [decorations_sorted_iff]
  refine ⟨fun h => Pairwise.imp ?_ h, fun h => ?_⟩
  · exact fun hab _ => hab
  refine (h.and ((sortSegments_sorted segments).and happart)).imp fun {a b} hab i hi j hj => ?_
  obtain ⟨hab, hsorted⟩ := hab
  by_cases hb : b.stop ≤ b.start
  · exact hab hb i hi j hj
  · refine le_trans (segmentLines_le hsorted.1 ?_ hi) (mem_segmentLines.1 hj).1
    by_contra hover
    have := hsorted.2 b.start
    simp only [BlameSegment.Covers] at this
    omega

lemma mem_segmentLines_iff (hne : seg.start < seg.stop) (hin : seg.stop ≤ doc.length) :
    i ∈ segmentLines doc seg ↔
      ∃ p, seg.Covers p ∧ lineFrom doc.lines i ≤ p ∧ p < lineFrom doc.lines (i + 1) := by
  have hfrom : lineFrom doc.lines i < lineFrom doc.lines (i + 1) := lineFrom_lt_succ
  rw [mem_segmentLines, min_eq_left (hne.le.trans hin), min_eq_left hin, if_pos (by omega),
    ← Nat.lt_add_one_iff, ← lt_lineFrom_iff, ← lineFrom_le_iff]
  constructor
  · intro h
    exact ⟨max seg.start (lineFrom doc.lines i), ⟨by omega, by omega⟩, by omega, by omega⟩
  · rintro ⟨p, ⟨hle, hlt⟩, hp⟩
    omega

lemma exists_decoration_iff (segments : List BlameSegment) :
    (∃ d ∈ decorations doc segments, d.1 = lineFrom doc.lines i) ↔
      ∃ seg ∈ segments, i ∈ segmentLines doc seg := by
  constructor
  · rintro ⟨d, hd, hfrom⟩
    obtain ⟨seg, hseg, hd⟩ := mem_flatMap.1 hd
    obtain ⟨j, hj, rfl⟩ := mem_map.1 hd
    obtain rfl := le_antisymm (lineFrom_le_lineFrom_iff.1 hfrom.le)
      (lineFrom_le_lineFrom_iff.1 hfrom.ge)
    exact ⟨seg, (mem_insertionSort _).1 hseg, hj⟩
  · rintro ⟨seg, hseg, hlines⟩
    exact ⟨_, mem_flatMap.2 ⟨seg, (mem_insertionSort _).2 hseg, mem_map_of_mem hlines⟩, rfl⟩

end

/-- The decorations are accepted exactly if no segment without characters comes behind a later line.
If all segments have characters and lie inside the document, the lines with a decoration are those
with a character of a segment. -/
theorem blame_lines_accepted_iff (doc : Text K) (segments : List BlameSegment)
    (hapart : segments.Pairwise Apart) :
    (∀ err, buildLineDecorations doc segments = .error err → err = .unsorted) ∧
    ((∃ added, buildLineDecorations doc segments = .ok added) ↔ EmptyInOrder doc segments) ∧
    ((∀ seg ∈ segments, seg.start < seg.stop) → EmptyInOrder doc segments) ∧
    ∀ added, buildLineDecorations doc segments = .ok added → (added.Pairwise fun a b => a.1 ≤ b.1) ∧
      ((∀ seg ∈ segments, seg.start < seg.stop ∧ seg.stop ≤ doc.length) →
        ∀ n line, doc.line n = .ok line → ((∃ d ∈ added, d.1 = line.start) ↔
          ∃ seg ∈ segments, ∃ p, seg.Covers p ∧ line.start ≤ p ∧ p ≤ line.stop)) := by
  have hbuild := buildLineDecorations_eq doc segments
  have hsorted := decorations_sorted_iff_emptyInOrder doc hapart
  have hmem {seg : BlameSegment} : seg ∈ sortSegments segments ↔ seg ∈ segments :=
    mem_insertionSort _
  refine ⟨fun err herr => ?_, ?_, fun hne => ?_, fun added hadded => ?_⟩
  · rw [hbuild] at herr
    split_ifs at herr
    cases herr
    rfl
  · rw [hbuild, ← hsorted]
    split_ifs with h
    · exact iff_of_true ⟨_, rfl⟩ h
    · exact iff_of_false nofun h
  · refine pairwise_of_forall_mem_list fun a _ b hb hempty => ?_
    exact absurd (hne b (hmem.1 hb)) (Nat.not_lt_of_le hempty)
  · rw [hbuild] at hadded
    split_ifs at hadded with h
    cases hadded
    refine ⟨h, fun hin n line hline => ?_⟩
    obtain ⟨i, hi, rfl, rfl⟩ := Text.line_eq_ok hline
    rw [exists_decoration_iff segments]
    refine exists_congr fun seg => and_congr_right fun hseg => ?_
    rw [mem_segmentLines_iff (hin seg hseg).1 (hin seg hseg).2]
    simp only [Nat.le_sub_one_iff_lt (Nat.zero_lt_of_lt lineFrom_lt_succ)]

def threeLines : Text Nat := ⟨[[97, 98, 99, 100], [101, 102, 103, 104], [105, 106]], by decide⟩

theorem blame_lines_accepted_three :
    ∃ added, buildLineDecorations threeLines [⟨3, 6, "bob"⟩, ⟨0, 3, "ann"⟩] = .ok added ∧
      added.Pairwise fun a b => a.1 ≤ b.1 := by
  obtain ⟨-, haccepted, hne, hadded⟩ := blame_lines_accepted_iff threeLines
    [⟨3, 6, "bob"⟩, ⟨0, 3, "ann"⟩] (pairwise_pair.2 fun i hi =>
      absurd hi.1.1 (Nat.not_le_of_lt hi.2.2))
  obtain ⟨added, h⟩ := haccepted.2 (hne (by decide))
  exact ⟨added, h, (hadded added h).1⟩

/-- An empty segment at the start of one that reaches the next line. -/
theorem empty_segment_unsorted :
    ¬ ∀ (doc : Text Nat) (segments : List BlameSegment), segments.Pairwise Apart →
      ∃ added, buildLineDecorations doc segments = .ok added := by
  intro hevery
  obtain ⟨added, hadded⟩ := hevery threeLines [⟨3, 10, "ann"⟩, ⟨3, 3, "bob"⟩]
    (pairwise_pair.2 fun i hi => absurd hi.2.2 (Nat.not_lt_of_le hi.2.1))
  have herror : buildLineDecorations threeLines [⟨3, 10, "ann"⟩, ⟨3, 3, "bob"⟩] =
      .error .unsorted := by decide
  exact absurd (hadded.symm.trans herror) nofun

end CollabEditor.Frontend.BlameLines
