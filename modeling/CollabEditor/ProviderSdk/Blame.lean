import CollabEditor.Support.Tiling
import CollabEditor.Support.Utf16
import Mathlib.Algebra.GroupWithZero.Nat
/-!
# Blame from the versions of a document

`computeBlameFromVersions` of `blame.ts` and `compute_blame_from_versions` of `blame.py`: a line
matched with one of the version before keeps its author.  The two differ in the units they count and
in what a missing creator is.
-/

namespace CollabEditor.ProviderSdk.Blame

open Support Tiling List Utf16

structure BlameSegment where
  start : Nat
  stop : Nat
  userName : String
  deriving DecidableEq

def BlameSegment.span (segment : BlameSegment) : Span String :=
  ⟨segment.start, segment.stop, segment.userName⟩

structure VersionEntry (α : Type) where
  content : Option (List α)
  creator : Option String
  deriving DecidableEq

/-! ## The longest common subsequence -/

section

variable {β : Type} [DecidableEq β]

def cells (x : β) (left : Nat) : List β → List Nat → List Nat
  | y :: b, diagonal :: up :: above =>
    let cell := if x = y then diagonal + 1 else max up left
    cell :: cells x cell b (up :: above)
  | _, _ => []

def rows (b : List β) (row : List Nat) : List β → List (List Nat)
  | [] => [row]
  | x :: a => row :: rows b (0 :: cells x 0 b row) a

def lcsTable (a b : List β) : List (List Nat) := rows b (replicate (b.length + 1) 0) a

def lookup (dp : List (List Nat)) (i j : Nat) : Nat := (dp.getD i []).getD j 0

def backtrack (a b : List β) (dp : List (List Nat)) : Nat → Nat → List (Nat × Nat)
  | i + 1, j + 1 =>
    if a[i]? = b[j]? then (i, j) :: backtrack a b dp i j
    else if lookup dp (i + 1) j ≤ lookup dp i (j + 1) then backtrack a b dp i (j + 1)
    else backtrack a b dp (i + 1) j
  | _, _ => []
termination_by i j => i + j

def computeLCS (a b : List β) : List (Nat × Nat) :=
  (backtrack a b (lcsTable a b) a.length b.length).reverse

/-- A matched line keeps its author, the others are the creator's. -/
def applyDiffAttribution (oldLines newLines : List β) (oldAuthors : List String)
    (creator : String) : List String :=
  (computeLCS oldLines newLines).foldl
    (fun newAuthors (o, n) => newAuthors.set n (oldAuthors[o]?.getD creator))
    (replicate newLines.length creator)

end

/-! ## Segments -/

structure Progress where
  segments : List BlameSegment
  offset : Nat

def Progress.push (p : Progress) (author : String) (lineLen : Nat) : Progress :=
  ⟨p.segments ++ [⟨p.offset, p.offset + lineLen, author⟩], p.offset + lineLen⟩

def Progress.line (p : Progress) (author : String) (lineLen : Nat) : Progress :=
  if lineLen = 0 then p
  else
    match p.segments.getLast? with
    | none => p.push author lineLen
    | some last =>
      if last.userName = author ∧ last.stop = p.offset then
        ⟨p.segments.dropLast ++ [{ last with stop := last.stop + lineLen }], p.offset + lineLen⟩
      else p.push author lineLen

/-- The loop over the lines; a line without an author is `unknown`'s. -/
def Progress.lines (p : Progress) : List Nat → List String → Progress
  | [], _ => p
  | lineLen :: lineLens, authors =>
    (p.line (authors.headD "unknown") lineLen).lines lineLens authors.tail

section

variable {α : Type}

def lineLengths : List (List α) → List Nat
  | [] => []
  | [line] => [line.length]
  | line :: next :: lines => (line.length + 1) :: lineLengths (next :: lines)

def linesToSegments (lines : List (List α)) (authors : List String) : List BlameSegment :=
  (Progress.lines ⟨[], 0⟩ (lineLengths lines) authors).segments

variable [DecidableEq α] (newline : α) (name : Option String → String)

def splitLines (v : VersionEntry α) : List (List α) := (v.content.getD []).splitOn newline

/-- The loop over the later versions: the last one and the authors of its lines. -/
def walkVersions (prev : VersionEntry α) (lineAuthors : List String) :
    List (VersionEntry α) → VersionEntry α × List String
  | [] => (prev, lineAuthors)
  | curr :: rest =>
    walkVersions curr
      (applyDiffAttribution (splitLines newline prev) (splitLines newline curr) lineAuthors
        (name curr.creator)) rest

/-- The two programs, with the name that stands for a creator. -/
def blameVersions : List (VersionEntry α) → List BlameSegment
  | [] => []
  | first :: rest =>
    let lineAuthors := replicate (splitLines newline first).length (name first.creator)
    let final := walkVersions newline name first lineAuthors rest
    linesToSegments (splitLines newline final.1) final.2

end

namespace TypeScript

def creatorName (creator : Option String) : String := creator.getD "unknown"

def computeBlameFromVersions (versions : List (VersionEntry UInt16)) : List BlameSegment :=
  blameVersions 10 creatorName versions

end TypeScript

namespace Python

def creatorName (creator : Option String) : String :=
  match creator with
  | none => "unknown"
  | some name => if name = "" then "unknown" else name

def computeBlameFromVersions (versions : List (VersionEntry Nat)) : List BlameSegment :=
  blameVersions 10 creatorName versions

def ofTypeScript (v : VersionEntry UInt16) : VersionEntry Nat :=
  ⟨v.content.map codePoints, v.creator⟩

end Python

/-! ## What the strings do not change -/

section

variable {β γ : Type} [DecidableEq β] [DecidableEq γ] {f : β → γ} (hf : Function.Injective f)
include hf

lemma cells_map (x : β) (left : Nat) (b : List β) (above : List Nat) :
    cells (f x) left (b.map f) above = cells x left b above := by
  fun_induction cells x left b above with
  | case1 left y b diagonal up above cell ih =>
    simp only [map_cons, cells, hf.eq_iff]
    exact congrArg (cell :: ·) ih
  | case2 left b above hshape =>
    unfold cells
    split
    · rename_i y b' diagonal up above' hb
      obtain ⟨y', b'', rfl, -, -⟩ := map_eq_cons_iff.1 hb
      exact absurd rfl (hshape y' b'' diagonal up above' rfl)
    · rfl

lemma rows_map (a b : List β) (row : List Nat) : rows (b.map f) row (a.map f) = rows b row a := by
  induction a generalizing row with
  | nil => rfl
  | cons x a ih => simp only [map_cons, rows, cells_map hf, ih]

lemma lcsTable_map (a b : List β) : lcsTable (a.map f) (b.map f) = lcsTable a b := by
  simp only [lcsTable, length_map, rows_map hf]

lemma backtrack_map (a b : List β) (dp : List (List Nat)) (i j : Nat) :
    backtrack (a.map f) (b.map f) dp i j = backtrack a b dp i j := by
  have hsame : ∀ i j : Nat, (a.map f)[i]? = (b.map f)[j]? ↔ a[i]? = b[j]? := fun i j => by
    rw [getElem?_map, getElem?_map, (Option.map_injective hf).eq_iff]
  fun_induction backtrack a b dp i j with
  | case1 i j heq ih => rw [backtrack, if_pos ((hsame i j).2 heq), ih]
  | case2 i j hne hle ih => rw [backtrack, if_neg (mt (hsame i j).1 hne), if_pos hle, ih]
  | case3 i j hne hle ih => rw [backtrack, if_neg (mt (hsame i j).1 hne), if_neg hle, ih]
  | case4 i j hshape => rw [backtrack]; exact hshape

lemma computeLCS_map (a b : List β) : computeLCS (a.map f) (b.map f) = computeLCS a b := by
  simp only [computeLCS, lcsTable_map hf, backtrack_map hf, length_map]

lemma applyDiffAttribution_map (old new : List β) (authors : List String) (creator : String) :
    applyDiffAttribution (old.map f) (new.map f) authors creator =
      applyDiffAttribution old new authors creator := by
  simp only [applyDiffAttribution, computeLCS_map hf, length_map]

end

lemma map_applyDiffAttribution {β : Type} [DecidableEq β] (g : String → String)
    (old new : List β) (authors : List String) (creator : String) :
    (applyDiffAttribution old new authors creator).map g =
      applyDiffAttribution old new (authors.map g) (g creator) := by
  unfold applyDiffAttribution
  rw [← map_replicate]
  generalize replicate new.length creator = init
  induction computeLCS old new generalizing init with
  | nil => rfl
  | cons pair pairs ih =>
    obtain ⟨o, n⟩ := pair
    have hauthor : g (authors[o]?.getD creator) = (authors.map g)[o]?.getD (g creator) := by
      rw [getElem?_map, Option.getD_map]
    rw [foldl_cons, foldl_cons, ih, map_set, hauthor]

/-! ## Offsets and names of the segments -/

def lineLabels : List Nat → List String → List String
  | [], _ => []
  | lineLen :: lineLens, authors =>
    replicate lineLen (authors.headD "unknown") ++ lineLabels lineLens authors.tail

lemma length_lineLabels (lineLens : List Nat) (authors : List String) :
    (lineLabels lineLens authors).length = lineLens.sum := by
  induction lineLens generalizing authors with
  | nil => rfl
  | cons lineLen lineLens ih =>
    rw [lineLabels, length_append, length_replicate, ih, sum_cons]

namespace Progress

variable {p : Progress}

def names (p : Progress) : List String := p.segments.map BlameSegment.userName

def Labelled (p : Progress) (labels : List String) : Prop :=
  Labels (p.segments.map BlameSegment.span) labels ∧ p.offset = labels.length

lemma line_offset (p : Progress) (author : String) (lineLen : Nat) :
    (p.line author lineLen).offset = p.offset + lineLen := by
  unfold line push
  repeat' split
  all_goals simp_all

lemma segments_line (p : Progress) (author : String) {lineLen : Nat} (h : lineLen ≠ 0) :
    (p.line author lineLen).segments.map BlameSegment.span =
      grow (p.segments.map BlameSegment.span) p.offset lineLen author := by
  rw [line, if_neg h, grow, getLast?_map]
  cases hlast : p.segments.getLast? with
  | none => simp [push, getLast?_eq_none_iff.1 hlast, BlameSegment.span]
  | some last =>
    dsimp only [Option.map_some, BlameSegment.span]
    split
    · simp [BlameSegment.span, map_dropLast]
    · simp [push, BlameSegment.span]

variable {labels : List String}

lemma Labelled.line (h : p.Labelled labels) (author : String) (lineLen : Nat) :
    (p.line author lineLen).Labelled (labels ++ replicate lineLen author) := by
  obtain ⟨hlabels, hoffset⟩ := h
  by_cases hempty : lineLen = 0
  · subst hempty
    rw [replicate_zero, append_nil]
    exact ⟨hlabels, hoffset⟩
  · rw [Labelled, segments_line p author hempty, line_offset, hoffset]
    exact ⟨hlabels.grow (Nat.pos_of_ne_zero hempty) author, by simp⟩

lemma Labelled.lines (h : p.Labelled labels) (lineLens : List Nat) (authors : List String) :
    (p.lines lineLens authors).Labelled (labels ++ lineLabels lineLens authors) := by
  induction lineLens generalizing p authors labels with
  | nil => rwa [lineLabels, append_nil]
  | cons lineLen lineLens ih =>
    rw [lineLabels, ← append_assoc]
    exact ih (h.line _ _) _

lemma mem_names_line (p : Progress) (author : String) (lineLen : Nat) (name : String) :
    name ∈ (p.line author lineLen).names ↔ name ∈ p.names ∨ (lineLen ≠ 0 ∧ name = author) := by
  unfold Progress.line push names
  split
  · simp_all
  · split
    · simp_all
    · rename_i last hlast
      obtain ⟨front, hfront⟩ := getLast?_eq_some_iff.1 hlast
      split <;> simp_all [eq_comm, or_assoc]

/-- The names of the segments are those of the lines that have a character. -/
lemma mem_names_lines {name : String} {lineLens : List Nat} {authors : List String} :
    name ∈ (p.lines lineLens authors).names ↔ name ∈ p.names ∨ ∃ i lineLen : Nat,
      lineLens[i]? = some (lineLen + 1) ∧ authors[i]?.getD "unknown" = name := by
  induction lineLens generalizing p authors with
  | nil => simp [lines]
  | cons n lineLens ih =>
    have hhead : authors.headD "unknown" = authors[0]?.getD "unknown" := by cases authors <;> rfl
    rw [lines, ih, mem_names_line, or_assoc, hhead]
    refine or_congr_right ⟨?_, ?_⟩
    · rintro (⟨hne, rfl⟩ | ⟨i, lineLen, hlen, hname⟩)
      · exact ⟨0, n - 1, by rw [Nat.sub_add_cancel (Nat.pos_of_ne_zero hne)]; rfl, rfl⟩
      · exact ⟨i + 1, lineLen, hlen, getElem?_tail (l := authors) ▸ hname⟩
    · rintro ⟨i, lineLen, hlen, hname⟩
      cases i with
      | zero =>
        cases hlen
        exact .inl ⟨Nat.succ_ne_zero _, hname.symm⟩
      | succ i => exact .inr ⟨i, lineLen, hlen, (getElem?_tail (l := authors)).symm ▸ hname⟩

lemma lines_map_authors {g : String → String} (hunknown : g "unknown" = "unknown")
    {lineLens : List Nat} {authors : List String}
    (h : ∀ name ∈ (p.lines lineLens authors).names, g name = name) :
    p.lines lineLens (authors.map g) = p.lines lineLens authors := by
  induction lineLens generalizing p authors with
  | nil => rfl
  | cons lineLen lineLens ih =>
    have hhead : (authors.map g).headD "unknown" = g (authors.headD "unknown") := by
      cases authors with
      | nil => exact hunknown.symm
      | cons => rfl
    have hline : p.line ((authors.map g).headD "unknown") lineLen =
        p.line (authors.headD "unknown") lineLen := by
      by_cases hempty : lineLen = 0
      · simp only [Progress.line, if_pos hempty]
      · rw [hhead, h _ ((mem_names_lines (p := p.line _ lineLen)).2
          (.inl ((mem_names_line p _ lineLen _).2 (.inr ⟨hempty, rfl⟩))))]
    rw [lines, lines, hline, ← map_tail]
    exact ih h

end Progress

section

variable {α : Type}

lemma lineLengths_cons_of_ne_nil (line : List α) {lines : List (List α)} (h : lines ≠ []) :
    lineLengths (line :: lines) = (line.length + 1) :: lineLengths lines := by
  cases lines with
  | nil => exact absurd rfl h
  | cons next lines => rfl

lemma sum_lineLengths_modifyHead (x : α) {lines : List (List α)} (h : lines ≠ []) :
    (lineLengths (lines.modifyHead (x :: ·))).sum = (lineLengths lines).sum + 1 := by
  fun_cases lineLengths lines with
  | case1 => exact absurd rfl h
  | case2 line => simp [lineLengths]
  | case3 line next lines =>
    simp only [modifyHead_cons, lineLengths, length_cons, sum_cons]
    omega

lemma sum_lineLengths_splitOn [BEq α] (a : α) (text : List α) :
    (lineLengths (text.splitOn a)).sum = text.length := by
  induction text with
  | nil => rfl
  | cons x text ih =>
    have hne := splitOn_ne_nil a text
    rw [splitOn_cons_eq_if_modifyHead]
    split
    · rw [lineLengths_cons_of_ne_nil [] hne, sum_cons, ih, length_cons, length_nil]
      omega
    · rw [sum_lineLengths_modifyHead x hne, ih, length_cons]

lemma mem_of_mem_splitOn [BEq α] {a x : α} {text line : List α} (hline : line ∈ text.splitOn a)
    (hx : x ∈ line) : x ∈ text := by
  induction text generalizing line with
  | nil => simp_all
  | cons y text ih =>
    rw [splitOn_cons_eq_if_modifyHead] at hline
    split at hline
    · rcases mem_cons.1 hline with rfl | hline
      · exact absurd hx not_mem_nil
      · exact mem_cons_of_mem y (ih hline hx)
    · obtain ⟨first, rest, hsplit⟩ := exists_cons_of_ne_nil (splitOn_ne_nil a text)
      rw [hsplit] at hline ih
      rcases mem_cons.1 hline with rfl | hline
      · rcases mem_cons.1 hx with rfl | hx
        · exact mem_cons_self
        · exact mem_cons_of_mem y (ih mem_cons_self hx)
      · exact mem_cons_of_mem y (ih (mem_cons_of_mem first hline) hx)

lemma lineLengths_map {β : Type} {f : List α → List β} {lines : List (List α)}
    (h : ∀ line ∈ lines, (f line).length = line.length) :
    lineLengths (lines.map f) = lineLengths lines := by
  fun_induction lineLengths lines with
  | case1 => rfl
  | case2 line => simp [lineLengths, h line]
  | case3 line next lines ih =>
    rw [map_cons, map_cons, lineLengths, h line mem_cons_self]
    exact congrArg (_ :: ·) (ih fun l hl => h l (mem_cons_of_mem line hl))

lemma labels_linesToSegments (lines : List (List α)) (authors : List String) :
    Labels ((linesToSegments lines authors).map BlameSegment.span)
      (lineLabels (lineLengths lines) authors) := by
  have hinit : Progress.Labelled ⟨[], 0⟩ [] := ⟨.nil, rfl⟩
  exact (hinit.lines (lineLengths lines) authors).1

lemma tiles_linesToSegments [BEq α] (a : α) (text : List α) (authors : List String) :
    Tiles ((linesToSegments (text.splitOn a) authors).map BlameSegment.span) text.length := by
  have htiles := (labels_linesToSegments (text.splitOn a) authors).toTiles
  rwa [length_lineLabels, sum_lineLengths_splitOn] at htiles

end

/-! ## The two programs side by side -/

/-- What Python makes of a name that TypeScript gives. -/
def pythonName (name : String) : String := if name = "" then "unknown" else name

lemma pythonName_ne_empty (name : String) : pythonName name ≠ "" := by
  unfold pythonName
  split
  · decide
  · assumption

lemma creatorName_python (creator : Option String) :
    Python.creatorName creator = pythonName (TypeScript.creatorName creator) := by
  cases creator <;> rfl

lemma splitLines_ofTypeScript (v : VersionEntry UInt16) :
    splitLines 10 (Python.ofTypeScript v) = (splitLines 10 v).map codePoints := by
  have hhigh : ¬isHigh 10 := by decide
  have hlow : ¬isLow 10 := by decide
  obtain ⟨content, creator⟩ := v
  cases content with
  | none => rfl
  | some text => exact splitOn_codePoints hhigh hlow text

lemma walkVersions_python (prev : VersionEntry UInt16) (authors : List String)
    (rest : List (VersionEntry UInt16)) :
    walkVersions 10 Python.creatorName (Python.ofTypeScript prev) (authors.map pythonName)
        (rest.map Python.ofTypeScript) =
      (walkVersions 10 TypeScript.creatorName prev authors rest).map Python.ofTypeScript
        (map pythonName) := by
  induction rest generalizing prev authors with
  | nil => rfl
  | cons curr rest ih =>
    have hcreator : Python.creatorName (Python.ofTypeScript curr).creator =
        pythonName (TypeScript.creatorName curr.creator) := creatorName_python _
    rw [map_cons, walkVersions, walkVersions, splitLines_ofTypeScript,
      splitLines_ofTypeScript, applyDiffAttribution_map codePoints_injective, hcreator,
      ← map_applyDiffAttribution, ih]

lemma walkVersions_fst {α : Type} [DecidableEq α] (newline : α) (name : Option String → String)
    (prev : VersionEntry α) (authors : List String) (rest : List (VersionEntry α)) :
    (prev :: rest).getLast? = some (walkVersions newline name prev authors rest).1 := by
  induction rest generalizing prev authors with
  | nil => rfl
  | cons curr rest ih => rw [getLast?_cons_cons, walkVersions, ← ih]

def finalContent {α : Type} (versions : List (VersionEntry α)) : List α :=
  (versions.getLast?.bind VersionEntry.content).getD []

/-- The segments of the two programs are those of the same lines and authors, up to the units of
the strings and the name of the empty creator. -/
lemma computeBlame_eq (versions : List (VersionEntry UInt16)) (hne : versions ≠ []) :
    ∃ authors : List String, TypeScript.computeBlameFromVersions versions =
          linesToSegments ((finalContent versions).splitOn 10) authors ∧
        Python.computeBlameFromVersions (versions.map Python.ofTypeScript) =
          linesToSegments ((codePoints (finalContent versions)).splitOn 10)
            (authors.map pythonName) := by
  obtain ⟨first, rest, rfl⟩ := exists_cons_of_ne_nil hne
  have hlast := walkVersions_fst 10 TypeScript.creatorName first
    (replicate (splitLines 10 first).length (TypeScript.creatorName first.creator)) rest
  refine ⟨(walkVersions 10 TypeScript.creatorName first
    (replicate (splitLines 10 first).length (TypeScript.creatorName first.creator)) rest).2,
    ?_, ?_⟩
  · rw [finalContent, hlast]
    rfl
  · have hcreator : Python.creatorName (Python.ofTypeScript first).creator =
        pythonName (TypeScript.creatorName first.creator) := creatorName_python _
    have hlines := splitLines_ofTypeScript
      (walkVersions 10 TypeScript.creatorName first
        (replicate (splitLines 10 first).length (TypeScript.creatorName first.creator)) rest).1
    have hpoints := splitOn_codePoints (a := 10) (by decide) (by decide)
      (finalContent (first :: rest))
    rw [Python.computeBlameFromVersions, map_cons, blameVersions, splitLines_ofTypeScript,
      length_map, hcreator, ← map_replicate, walkVersions_python]
    dsimp only [Prod.map]
    rw [hlines]
    rw [finalContent, hlast] at hpoints ⊢
    exact congrArg (linesToSegments · _) hpoints.symm

lemma linesToSegments_codePoints {text : List UInt16}
    (hbasic : ∀ c ∈ codePoints text, c < 0x10000) (authors : List String) :
    linesToSegments ((codePoints text).splitOn 10) authors =
      linesToSegments (text.splitOn 10) authors := by
  have hlines := splitOn_codePoints (a := 10) (by decide) (by decide) text
  have hlengths : lineLengths ((codePoints text).splitOn 10) = lineLengths (text.splitOn 10) := by
    refine (congrArg lineLengths hlines).trans (lineLengths_map fun line hline => ?_)
    refine (length_codePoints_eq_iff line).2 fun c hc => hbasic c ?_
    exact mem_of_mem_splitOn (hlines ▸ mem_map_of_mem hline) hc
  rw [linesToSegments, linesToSegments, hlengths]

lemma getD_unknown_eq_empty {o : Option String} : o.getD "unknown" = "" ↔ o = some "" := by
  cases o <;> simp

lemma blame_alike_iff_names_ne_empty (versions : List (VersionEntry UInt16)) :
    TypeScript.computeBlameFromVersions versions =
        Python.computeBlameFromVersions (versions.map Python.ofTypeScript) ↔
      (∀ c ∈ codePoints (finalContent versions), c < 0x10000) ∧
        ∀ segment ∈ TypeScript.computeBlameFromVersions versions, segment.userName ≠ "" := by
  by_cases hne : versions = []
  · subst hne
    simp [TypeScript.computeBlameFromVersions, Python.computeBlameFromVersions, blameVersions,
      finalContent, codePoints]
  · obtain ⟨authors, hts, hpy⟩ := computeBlame_eq versions hne
    rw [hts, hpy]
    constructor
    · intro heq
      constructor
      · have hts := (tiles_linesToSegments 10 (finalContent versions) authors).last
        have hpy := (tiles_linesToSegments 10 (codePoints (finalContent versions))
          (authors.map pythonName)).last
        rw [← length_codePoints_eq_iff, ← hpy, ← heq, hts]
      · intro segment hsegment hempty
        rw [heq] at hsegment
        have hname := Progress.mem_names_lines.1 (mem_map_of_mem hsegment)
        obtain ⟨i, -, -, hauthor⟩ := hname.resolve_left not_mem_nil
        rw [hempty, getD_unknown_eq_empty, getElem?_map] at hauthor
        obtain ⟨name, -, hname⟩ := Option.map_eq_some_iff.1 hauthor
        exact pythonName_ne_empty name hname
    · rintro ⟨hbasic, hnames⟩
      rw [linesToSegments_codePoints hbasic]
      refine (congrArg Progress.segments (Progress.lines_map_authors rfl ?_)).symm
      intro name hname
      obtain ⟨segment, hsegment, rfl⟩ := mem_map.1 hname
      exact if_neg (hnames segment hsegment)

end CollabEditor.ProviderSdk.Blame
