import Mathlib.Data.List.Flatten
import CollabEditor.ProviderSdk.LineMatching
/-!
# The diff of two versions

`diff-engine.ts`, over texts of UTF-16 units.  The lines that `computeLCS` pairs are unchanged.  A
diff of two texts is any list of lines that gives both back, numbered from 1 on either side.
-/

namespace CollabEditor.Frontend.DiffEngine

open Support CommonSubsequence CollabEditor.ProviderSdk List Nat

abbrev Line := List UInt16

inductive LineType
  | added
  | removed
  | unchanged
  deriving DecidableEq

structure DiffLine where
  type : LineType
  content : Line
  oldLineNumber : Option Nat
  newLineNumber : Option Nat

def newline : UInt16 := 10

/-- `splitLines`: the empty text has no lines. -/
def splitLines (text : List UInt16) : List Line :=
  if text = [] then [] else text.splitOn newline

def computeLCS (a b : List Line) : List (Nat × Nat) := Blame.computeLCS a b

def removedLines (oldLines : List Line) (oi stop : Nat) : List DiffLine :=
  (range' oi (stop - oi)).map fun k => ⟨.removed, oldLines.getD k [], some (k + 1), none⟩

def addedLines (newLines : List Line) (ni stop : Nat) : List DiffLine :=
  (range' ni (stop - ni)).map fun k => ⟨.added, newLines.getD k [], none, some (k + 1)⟩

def unchangedLine (oldLines : List Line) (oi ni : Nat) : DiffLine :=
  ⟨.unchanged, oldLines.getD oi [], some (oi + 1), some (ni + 1)⟩

/-- The loop over the pairs and the two loops behind it, from the cursors `oi` and `ni`. A cursor
that is before a pair has reached it when its loop ends. -/
def emitLines (oldLines newLines : List Line) : Nat → Nat → List (Nat × Nat) → List DiffLine
  | oi, ni, [] => removedLines oldLines oi oldLines.length ++ addedLines newLines ni newLines.length
  | oi, ni, (oldIdx, newIdx) :: lcs =>
    removedLines oldLines oi oldIdx ++ addedLines newLines ni newIdx ++
      unchangedLine oldLines (max oi oldIdx) (max ni newIdx) ::
        emitLines oldLines newLines (max oi oldIdx + 1) (max ni newIdx + 1) lcs

def computeLineDiff (oldText newText : List UInt16) : List DiffLine :=
  let oldLines := splitLines oldText
  let newLines := splitLines newText
  emitLines oldLines newLines 0 0 (computeLCS oldLines newLines)

/-! ## What a diff is -/

def ofTypes (types : List LineType) (diff : List DiffLine) : List DiffLine :=
  diff.filter fun line => line.type ∈ types

def oldSide (diff : List DiffLine) : List DiffLine := ofTypes [.unchanged, .removed] diff

def newSide (diff : List DiffLine) : List DiffLine := ofTypes [.unchanged, .added] diff

def unchangedLines (diff : List DiffLine) : List DiffLine := ofTypes [.unchanged] diff

def joinLines (lines : List Line) : List UInt16 := intercalate [newline] lines

/-- Either side gives its text back and is numbered 1, 2, 3 and so on. -/
structure IsDiff (oldText newText : List UInt16) (diff : List DiffLine) : Prop where
  oldText : joinLines ((oldSide diff).map DiffLine.content) = oldText
  newText : joinLines ((newSide diff).map DiffLine.content) = newText
  oldNumbers : (oldSide diff).map DiffLine.oldLineNumber = (range' 1 (oldSide diff).length).map some
  newNumbers : (newSide diff).map DiffLine.newLineNumber = (range' 1 (newSide diff).length).map some

def EmptyAgainstEmptyLine (oldText newText : List UInt16) : Prop :=
  oldText = [] ∧ [] ∈ newText.splitOn newline ∨ newText = [] ∧ [] ∈ oldText.splitOn newline

/-! ## The emission loop -/

section

variable {oldLines newLines : List Line} {oi ni : Nat} {lcs : List (Nat × Nat)}

def numbered (lines : List Line) (start stop : Nat) : List (Line × Option Nat) :=
  (range' start (stop - start)).map fun k => (lines.getD k [], some (k + 1))

lemma numbered_append_cons (lines : List Line) {start mid stop : Nat} (hstart : start ≤ mid)
    (hmid : mid < stop) : numbered lines start mid ++ (lines.getD mid [], some (mid + 1)) ::
        numbered lines (mid + 1) stop = numbered lines start stop := by
  have hrest : stop - mid = (stop - (mid + 1)) + 1 := by omega
  have hlength : stop - start = (mid - start) + (stop - mid) := by omega
  have hplace : start + 1 * (mid - start) = mid := by omega
  have hsplit : range' start (stop - start) =
      range' start (mid - start) ++ mid :: range' (mid + 1) (stop - (mid + 1)) := by
    rw [hlength, ← range'_append, hplace, hrest, range'_succ]
  rw [numbered, numbered, numbered, hsplit, map_append, map_cons]

lemma map_fst_numbered (lines : List Line) :
    (numbered lines 0 lines.length).map Prod.fst = lines := by
  refine ext_getElem (by simp [numbered]) fun k _ hk => ?_
  simp [numbered, getElem?_eq_getElem hk]

lemma map_snd_numbered (lines : List Line) :
    (numbered lines 0 lines.length).map Prod.snd = (range' 1 lines.length).map some := by
  refine ext_getElem (by simp [numbered]) fun k _ _ => ?_
  simp [numbered, add_comm]

lemma ofTypes_append (types : List LineType) (diff diff' : List DiffLine) :
    ofTypes types (diff ++ diff') = ofTypes types diff ++ ofTypes types diff' :=
  filter_append ..

lemma ofTypes_of_forall {types : List LineType} {diff : List DiffLine} {type : LineType}
    (h : ∀ line ∈ diff, line.type = type) :
    ofTypes types diff = if type ∈ types then diff else [] := by
  split
  · rename_i htype
    exact filter_eq_self.2 fun line hline => by simpa [h line hline] using htype
  · rename_i htype
    exact filter_eq_nil_iff.2 fun line hline => by simpa [h line hline] using htype

lemma ofTypes_removedLines (types : List LineType) (lines : List Line) (oi stop : Nat) :
    ofTypes types (removedLines lines oi stop) =
      if .removed ∈ types then removedLines lines oi stop else [] := by
  apply ofTypes_of_forall
  intro line hline
  obtain ⟨k, -, rfl⟩ := mem_map.1 hline
  rfl

lemma ofTypes_addedLines (types : List LineType) (lines : List Line) (ni stop : Nat) :
    ofTypes types (addedLines lines ni stop) =
      if .added ∈ types then addedLines lines ni stop else [] := by
  apply ofTypes_of_forall
  intro line hline
  obtain ⟨k, -, rfl⟩ := mem_map.1 hline
  rfl

lemma ofTypes_emitLines_nil (types : List LineType) :
    ofTypes types (emitLines oldLines newLines oi ni []) =
      (if .removed ∈ types then removedLines oldLines oi oldLines.length else []) ++
        if .added ∈ types then addedLines newLines ni newLines.length else [] := by
  rw [emitLines, ofTypes_append, ofTypes_removedLines, ofTypes_addedLines]

lemma ofTypes_emitLines_cons {types : List LineType} {p : Nat × Nat} (hold : oi ≤ p.1)
    (hnew : ni ≤ p.2) (htypes : .unchanged ∈ types) :
    ofTypes types (emitLines oldLines newLines oi ni (p :: lcs)) =
      (if .removed ∈ types then removedLines oldLines oi p.1 else []) ++
        (if .added ∈ types then addedLines newLines ni p.2 else []) ++
          unchangedLine oldLines p.1 p.2 ::
            ofTypes types (emitLines oldLines newLines (p.1 + 1) (p.2 + 1) lcs) := by
  rw [emitLines, max_eq_right hold, max_eq_right hnew, ofTypes_append, ofTypes_append,
    ofTypes_removedLines, ofTypes_addedLines]
  congr 1
  exact filter_cons_of_pos (by simpa [unchangedLine] using htypes)

section

variable (h : Matching oldLines newLines oi ni lcs)
include h

lemma oldSide_emitLines : (oldSide (emitLines oldLines newLines oi ni lcs)).map
        (fun line => (line.content, line.oldLineNumber)) =
      numbered oldLines oi oldLines.length := by
  have hremoved : .removed ∈ [LineType.unchanged, .removed] := by decide
  have hadded : .added ∉ [LineType.unchanged, .removed] := by decide
  induction lcs generalizing oi ni with
  | nil =>
    rw [oldSide, ofTypes_emitLines_nil, if_pos hremoved, if_neg hadded, append_nil,
      removedLines, map_map]
    rfl
  | cons p lcs ih =>
    obtain ⟨hold, hnew, ⟨line, hline, -⟩, hrest⟩ := h
    have hlt : p.1 < oldLines.length := (List.getElem?_eq_some_iff.1 hline).1
    rw [oldSide, ofTypes_emitLines_cons hold hnew (by decide), if_pos hremoved, if_neg hadded,
      append_nil, map_append, map_cons, ← oldSide, ih hrest, removedLines,
      map_map, ← numbered_append_cons oldLines hold hlt]
    rfl

lemma newSide_emitLines : (newSide (emitLines oldLines newLines oi ni lcs)).map
        (fun line => (line.content, line.newLineNumber)) =
      numbered newLines ni newLines.length := by
  have hremoved : .removed ∉ [LineType.unchanged, .added] := by decide
  have hadded : .added ∈ [LineType.unchanged, .added] := by decide
  induction lcs generalizing oi ni with
  | nil =>
    rw [newSide, ofTypes_emitLines_nil, if_neg hremoved, if_pos hadded, nil_append,
      addedLines, map_map]
    rfl
  | cons p lcs ih =>
    obtain ⟨hold, hnew, ⟨line, hline, hline'⟩, hrest⟩ := h
    have hlt : p.2 < newLines.length := (List.getElem?_eq_some_iff.1 hline').1
    -- The content is taken from the old lines.
    have hcontent : oldLines.getD p.1 [] = newLines.getD p.2 [] := by
      rw [getD_eq_getElem?_getD, getD_eq_getElem?_getD, hline, hline']
    rw [newSide, ofTypes_emitLines_cons hold hnew (by decide), if_neg hremoved, if_pos hadded,
      nil_append, map_append, map_cons, ← newSide, ih hrest, addedLines,
      map_map, ← numbered_append_cons newLines hnew hlt, unchangedLine, hcontent]
    rfl

lemma length_unchangedLines_emitLines :
    (unchangedLines (emitLines oldLines newLines oi ni lcs)).length = lcs.length := by
  have hremoved : .removed ∉ [LineType.unchanged] := by decide
  have hadded : .added ∉ [LineType.unchanged] := by decide
  induction lcs generalizing oi ni with
  | nil => rw [unchangedLines, ofTypes_emitLines_nil, if_neg hremoved, if_neg hadded]; rfl
  | cons p lcs ih =>
    obtain ⟨hold, hnew, -, hrest⟩ := h
    rw [unchangedLines, ofTypes_emitLines_cons hold hnew (by decide), if_neg hremoved,
      if_neg hadded, nil_append, nil_append, length_cons, ← unchangedLines,
      ih hrest, length_cons]

end

lemma contents_and_numbers {side : List DiffLine} {number : DiffLine → Option Nat}
    {lines : List Line}
    (h : side.map (fun line => (line.content, number line)) = numbered lines 0 lines.length) :
    side.map DiffLine.content = lines ∧ side.map number = (range' 1 side.length).map some := by
  have hcontents := congrArg (map Prod.fst) h
  have hnumbers := congrArg (map Prod.snd) h
  rw [map_map, map_fst_numbered] at hcontents
  rw [map_map, map_snd_numbered] at hnumbers
  have hlength : side.length = lines.length := by
    rw [← hcontents, length_map]
  rw [hlength]
  exact ⟨hcontents, hnumbers⟩

lemma isDiff_emitLines (h : Matching oldLines newLines 0 0 lcs) :
    IsDiff (joinLines oldLines) (joinLines newLines) (emitLines oldLines newLines 0 0 lcs) := by
  obtain ⟨holdLines, holdNumbers⟩ := contents_and_numbers (oldSide_emitLines h)
  obtain ⟨hnewLines, hnewNumbers⟩ := contents_and_numbers (newSide_emitLines h)
  exact ⟨by rw [holdLines], by rw [hnewLines], holdNumbers, hnewNumbers⟩

end

/-! ## Lines and texts -/

lemma joinLines_splitOn (text : List UInt16) : joinLines (text.splitOn newline) = text :=
  intercalate_splitOn newline

lemma joinLines_splitLines (text : List UInt16) : joinLines (splitLines text) = text := by
  unfold splitLines
  split
  · rename_i hempty
    rw [hempty]
    rfl
  · exact joinLines_splitOn text

lemma splitOn_joinLines {contents : List Line} (h : contents ≠ []) :
    (joinLines contents).splitOn newline = contents.flatMap (·.splitOn newline) := by
  induction contents with
  | nil => exact absurd rfl h
  | cons content contents ih =>
    cases contents with
    | nil => simp [joinLines]
    | cons next contents =>
      have hsplit : joinLines (content :: next :: contents) =
          content ++ newline :: joinLines (next :: contents) := by
        simp [joinLines, intercalate_cons_cons]
      have hrest := ih (cons_ne_nil next contents)
      rw [flatMap_cons, hsplit, ← hrest]
      exact splitOnP_append_cons _ _ (beq_self_eq_true newline)

lemma length_le_flatMap_splitOn (contents : List Line) :
    contents.length ≤ (contents.flatMap (·.splitOn newline)).length := by
  induction contents with
  | nil => exact le_refl 0
  | cons content contents ih =>
    have hpos := length_pos_of_ne_nil (splitOn_ne_nil newline content)
    rw [flatMap_cons, length_append, length_cons]
    omega

/-! ## No diff keeps more lines -/

lemma sublist_ofTypes {types types' : List LineType} (h : ∀ type ∈ types, type ∈ types')
    (diff : List DiffLine) : List.Sublist (ofTypes types diff) (ofTypes types' diff) :=
  monotone_filter_right diff fun line hline => by
    simpa using h line.type (by simpa using hline)

lemma sublist_splitOn_side {diff : List DiffLine} (types : List LineType)
    (htypes : .unchanged ∈ types) (hne : unchangedLines diff ≠ []) :
    List.Sublist (((unchangedLines diff).map DiffLine.content).flatMap (·.splitOn newline))
      ((joinLines ((ofTypes types diff).map DiffLine.content)).splitOn newline) := by
  have hsub : List.Sublist (unchangedLines diff) (ofTypes types diff) :=
    sublist_ofTypes (by simpa using htypes) diff
  have hcontents := hsub.map DiffLine.content
  rw [splitOn_joinLines fun hnil => ?_]
  · exact hcontents.flatMap _
  · rw [hnil] at hcontents
    exact hne (map_eq_nil_iff.1 (sublist_nil.1 hcontents))

variable {newText oldText : List UInt16}

lemma length_unchangedLines_le {diff : List DiffLine} {n : Nat}
    (hbounds : Bounds (oldText.splitOn newline) (newText.splitOn newline) n)
    (hdiff : IsDiff oldText newText diff) : (unchangedLines diff).length ≤ n := by
  by_cases hne : unchangedLines diff = []
  · rw [hne]
    exact zero_le n
  · have hold := sublist_splitOn_side [.unchanged, .removed] (by decide) hne
    have hnew := sublist_splitOn_side [.unchanged, .added] (by decide) hne
    rw [← oldSide, hdiff.oldText] at hold
    rw [← newSide, hdiff.newText] at hnew
    calc (unchangedLines diff).length
        = ((unchangedLines diff).map DiffLine.content).length := (length_map _).symm
      _ ≤ (((unchangedLines diff).map DiffLine.content).flatMap (·.splitOn newline)).length :=
          length_le_flatMap_splitOn _
      _ ≤ n := hbounds _ hold hnew

lemma length_unchangedLines_computeLineDiff (oldText newText : List UInt16) :
    (unchangedLines (computeLineDiff oldText newText)).length =
      (computeLCS (splitLines oldText) (splitLines newText)).length :=
  length_unchangedLines_emitLines (Blame.matching_computeLCS _ _)

lemma isDiff_computeLineDiff (oldText newText : List UInt16) :
    IsDiff oldText newText (computeLineDiff oldText newText) := by
  have h := isDiff_emitLines
    (Blame.matching_computeLCS (splitLines oldText) (splitLines newText))
  rwa [joinLines_splitLines, joinLines_splitLines] at h

lemma bounds_of_not_emptyAgainstEmptyLine (h : ¬ EmptyAgainstEmptyLine oldText newText) :
    Bounds (oldText.splitOn newline) (newText.splitOn newline)
      (computeLCS (splitLines oldText) (splitLines newText)).length := by
  by_cases hold : oldText = []
  · have hmem : [] ∉ newText.splitOn newline := fun hmem => h (.inl ⟨hold, hmem⟩)
    rw [hold, splitOn_nil]
    exact (Bounds.singleton_left hmem).mono (zero_le _)
  · by_cases hnew : newText = []
    · have hmem : [] ∉ oldText.splitOn newline := fun hmem => h (.inr ⟨hnew, hmem⟩)
      rw [hnew, splitOn_nil]
      exact ((Bounds.singleton_left hmem).mono (zero_le _)).symm
    · rw [splitLines, if_neg hold, splitLines, if_neg hnew]
      exact Blame.bounds_computeLCS _ _

lemma exists_diff_of_emptyAgainstEmptyLine (h : EmptyAgainstEmptyLine oldText newText) :
    ∃ diff, IsDiff oldText newText diff ∧
      (unchangedLines (computeLineDiff oldText newText)).length < (unchangedLines diff).length := by
  rcases h with ⟨rfl, hmem⟩ | ⟨rfl, hmem⟩
  · obtain ⟨k, hk⟩ := mem_iff_getElem?.1 hmem
    have hmatch : Matching [[]] (newText.splitOn newline) 0 0 [(0, k)] :=
      ⟨le_refl 0, zero_le k, ⟨[], rfl, hk⟩, trivial⟩
    have hdiff := isDiff_emitLines hmatch
    rw [joinLines_splitOn] at hdiff
    have hnone : computeLCS (splitLines []) (splitLines newText) = [] :=
      (Blame.matching_computeLCS _ _).eq_nil_of_left
    refine ⟨_, hdiff, ?_⟩
    rw [length_unchangedLines_computeLineDiff, hnone, length_unchangedLines_emitLines hmatch]
    exact Nat.zero_lt_one
  · obtain ⟨k, hk⟩ := mem_iff_getElem?.1 hmem
    have hmatch : Matching (oldText.splitOn newline) [[]] 0 0 [(k, 0)] :=
      ⟨zero_le k, le_refl 0, ⟨[], hk, rfl⟩, trivial⟩
    have hdiff := isDiff_emitLines hmatch
    rw [joinLines_splitOn] at hdiff
    have hnone : computeLCS (splitLines oldText) (splitLines []) = [] :=
      (Blame.matching_computeLCS _ _).eq_nil_of_right
    refine ⟨_, hdiff, ?_⟩
    rw [length_unchangedLines_computeLineDiff, hnone, length_unchangedLines_emitLines hmatch]
    exact Nat.zero_lt_one

/-- The lines of `computeLineDiff` are a diff of the two texts, and no diff has more unchanged
lines, unless one text is empty and the other one has an empty line. -/
theorem computeLineDiff_fewest_changes (oldText newText : List UInt16) :
    IsDiff oldText newText (computeLineDiff oldText newText) ∧
      ((∀ diff, IsDiff oldText newText diff → (unchangedLines diff).length ≤
            (unchangedLines (computeLineDiff oldText newText)).length) ↔
        ¬ EmptyAgainstEmptyLine oldText newText) := by
  refine ⟨isDiff_computeLineDiff oldText newText, fun hfewest hempty => ?_, fun h diff hdiff => ?_⟩
  · obtain ⟨diff, hdiff, hlt⟩ := exists_diff_of_emptyAgainstEmptyLine hempty
    exact Nat.not_le_of_lt hlt (hfewest diff hdiff)
  · rw [length_unchangedLines_computeLineDiff]
    exact length_unchangedLines_le (bounds_of_not_emptyAgainstEmptyLine h) hdiff

/-- Two empty texts have no unchanged line in common, where a diff could have one. -/
theorem empty_texts_keep_no_line :
    ¬ ∀ (oldText newText : List UInt16) (diff : List DiffLine), IsDiff oldText newText diff →
      (unchangedLines diff).length ≤ (unchangedLines (computeLineDiff oldText newText)).length := by
  intro hfewest
  have hdiff : IsDiff [] [] [⟨.unchanged, [], some 1, some 1⟩] := ⟨rfl, rfl, rfl, rfl⟩
  have hle := hfewest [] [] _ hdiff
  rw [length_unchangedLines_computeLineDiff] at hle
  revert hle
  decide +kernel

end CollabEditor.Frontend.DiffEngine
