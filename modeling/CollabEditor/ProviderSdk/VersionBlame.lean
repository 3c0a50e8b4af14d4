import CollabEditor.ProviderSdk.LineMatching
/-!
# What version blame says

The segments of `computeBlameFromVersions` tile the last version, and the author of a line is the
creator of the version that it came in with, followed back through the matchings.
-/

namespace CollabEditor.ProviderSdk.Blame

open Support Tiling CommonSubsequence List

/-! ## The authors after one step -/

section

variable {β : Type} {old new : List β} {pairs : List (Nat × Nat)} {f : Nat → String} {i j o n : Nat}

lemma length_foldl_set (pairs : List (Nat × Nat)) (init : List String) :
    (pairs.foldl (fun acc p => acc.set p.2 (f p.1)) init).length = init.length := by
  induction pairs generalizing init with
  | nil => rfl
  | cons p pairs ih => rw [foldl_cons, ih, length_set]

lemma getElem?_foldl_set_of_forall_ne (h : ∀ p ∈ pairs, p.2 ≠ n) (init : List String) :
    (pairs.foldl (fun acc p => acc.set p.2 (f p.1)) init)[n]? = init[n]? := by
  induction pairs generalizing init with
  | nil => rfl
  | cons p pairs ih =>
    rw [foldl_cons, ih fun q hq => h q (mem_cons_of_mem p hq),
      getElem?_set_ne (h p mem_cons_self)]

lemma getElem?_foldl_set_of_mem (hpairs : Matching old new i j pairs) (h : (o, n) ∈ pairs)
    {init : List String} (hn : n < init.length) :
    (pairs.foldl (fun acc p => acc.set p.2 (f p.1)) init)[n]? = some (f o) := by
  induction pairs generalizing init i j with
  | nil => cases h
  | cons p pairs ih =>
    obtain ⟨-, -, -, hrest⟩ := hpairs
    rw [foldl_cons]
    rcases mem_cons.1 h with rfl | h
    · -- no later pair is about the same line
      have hlater : ∀ q ∈ pairs, q.2 ≠ n := fun q hq => by
        have := (hrest.le_of_mem hq).2
        omega
      rw [getElem?_foldl_set_of_forall_ne hlater, getElem?_set_self hn]
    · exact ih hrest h (by simpa using hn)

variable [DecidableEq β] {authors : List String} {creator : String}

lemma length_applyDiffAttribution (old new : List β) (authors : List String) (creator : String) :
    (applyDiffAttribution old new authors creator).length = new.length := by
  have hlength := length_foldl_set (f := fun o => authors[o]?.getD creator) (computeLCS old new)
    (replicate new.length creator)
  rw [length_replicate] at hlength
  exact hlength

lemma getElem?_applyDiffAttribution_of_mem {author : String} (h : (o, n) ∈ computeLCS old new)
    (ho : authors[o]? = some author) :
    (applyDiffAttribution old new authors creator)[n]? = some author := by
  have hmatching := matching_computeLCS old new
  obtain ⟨line, -, hline⟩ := hmatching.same_of_mem h
  have hn : n < (replicate new.length creator).length := by
    rw [length_replicate]
    exact (List.getElem?_eq_some_iff.1 hline).1
  have hset := getElem?_foldl_set_of_mem (f := fun o => authors[o]?.getD creator) hmatching h hn
  rw [ho, Option.getD_some] at hset
  exact hset

lemma getElem?_applyDiffAttribution_of_not_mem (h : ∀ o, (o, n) ∉ computeLCS old new)
    (hn : n < new.length) :
    (applyDiffAttribution old new authors creator)[n]? = some creator := by
  have hother : ∀ p ∈ computeLCS old new, p.2 ≠ n := by
    rintro ⟨o, m⟩ hp rfl
    exact h o hp
  have hset := getElem?_foldl_set_of_forall_ne (f := fun o => authors[o]?.getD creator) hother
    (replicate new.length creator)
  rw [getElem?_replicate_of_lt hn] at hset
  exact hset

end

/-! ## The authors of the last version -/

section

variable {α : Type} [DecidableEq α] (newline : α) (name : Option String → String)

def lineAuthors : List (VersionEntry α) → List String
  | [] => []
  | first :: rest =>
    (walkVersions newline name first
      (replicate (splitLines newline first).length (name first.creator)) rest).2

/-- The line at `p` of the newest of the versions, which stand newest first, has come to it from the
version of the author. -/
inductive Credits : List (VersionEntry α) → Nat → List α → String → Prop
  | introduced {v : VersionEntry α} {past : List (VersionEntry α)} {p : Nat} {line : List α} :
      (splitLines newline v)[p]? = some line →
      (∀ prev ∈ past.head?, ∀ q,
        (q, p) ∉ computeLCS (splitLines newline prev) (splitLines newline v)) →
      Credits (v :: past) p line (name v.creator)
  | kept {v prev : VersionEntry α} {past : List (VersionEntry α)} {p q : Nat} {line : List α}
      {author : String} :
      (splitLines newline v)[p]? = some line →
      (q, p) ∈ computeLCS (splitLines newline prev) (splitLines newline v) →
      Credits (prev :: past) q line author → Credits (v :: prev :: past) p line author

def AllCredited (v : VersionEntry α) (past : List (VersionEntry α)) (authors : List String) :
    Prop :=
  ∀ p line, (splitLines newline v)[p]? = some line →
    ∃ author, authors[p]? = some author ∧ Credits newline name (v :: past) p line author

variable {newline name} {prev : VersionEntry α} {past : List (VersionEntry α)}
  {authors : List String}

section

variable {versions : List (VersionEntry α)} {p : Nat} {line line' : List α}
  {author author' : String}

lemma Credits.exists_line (h : Credits newline name versions p line author) :
    ∃ v ∈ versions.head?, (splitLines newline v)[p]? = some line := by
  cases h with
  | introduced hline _ => exact ⟨_, rfl, hline⟩
  | kept hline _ _ => exact ⟨_, rfl, hline⟩

lemma Credits.unique (h : Credits newline name versions p line author)
    (h' : Credits newline name versions p line' author') : author = author' := by
  induction h generalizing line' author' with
  | introduced _ hnone =>
    cases h' with
    | introduced => rfl
    | kept _ hq _ => exact absurd hq (hnone _ rfl _)
  | kept _ hq _ ih =>
    cases h' with
    | introduced _ hnone => exact absurd hq (hnone _ rfl _)
    | kept _ hq' hcredits =>
      obtain rfl := (matching_computeLCS _ _).left_unique hq hq'
      exact ih hcredits

end

section

variable (h : AllCredited newline name prev past authors)
include h

lemma AllCredited.next (v : VersionEntry α) :
    AllCredited newline name v (prev :: past)
      (applyDiffAttribution (splitLines newline prev) (splitLines newline v) authors
        (name v.creator)) := by
  intro p line hline
  by_cases hmatched : ∃ q, (q, p) ∈ computeLCS (splitLines newline prev) (splitLines newline v)
  · obtain ⟨q, hq⟩ := hmatched
    obtain ⟨line', hprev, hv⟩ := (matching_computeLCS _ _).same_of_mem hq
    obtain rfl := Option.mem_unique hv hline
    obtain ⟨author, hauthor, hcredits⟩ := h q line' hprev
    exact ⟨author, getElem?_applyDiffAttribution_of_mem hq hauthor, .kept hline hq hcredits⟩
  · have hnone := not_exists.1 hmatched
    refine ⟨name v.creator, getElem?_applyDiffAttribution_of_not_mem hnone
      (List.getElem?_eq_some_iff.1 hline).1, .introduced hline fun w hw => ?_⟩
    obtain rfl := Option.some.inj hw
    exact hnone

lemma AllCredited.walkVersions (rest : List (VersionEntry α)) :
    ∃ v past', rest.reverse ++ prev :: past = v :: past' ∧
      AllCredited newline name v past' (walkVersions newline name prev authors rest).2 := by
  induction rest generalizing prev past authors with
  | nil => exact ⟨prev, past, rfl, h⟩
  | cons curr rest ih =>
    rw [reverse_cons, append_assoc, Blame.walkVersions]
    exact ih (h.next curr)

end

lemma credits_lineAuthors (newline : α) (name : Option String → String) {first : VersionEntry α}
    {rest : List (VersionEntry α)} {p : Nat} {line : List α}
    (hline : ((finalContent (first :: rest)).splitOn newline)[p]? = some line) :
    ∃ author, (lineAuthors newline name (first :: rest))[p]? = some author ∧
      Credits newline name (first :: rest).reverse p line author := by
  have hfirst : AllCredited newline name first []
      (replicate (splitLines newline first).length (name first.creator)) := by
    intro p line hline
    have hp := (List.getElem?_eq_some_iff.1 hline).1
    exact ⟨_, getElem?_replicate_of_lt hp, .introduced hline (by simp)⟩
  obtain ⟨v, past, hversions, hall⟩ := hfirst.walkVersions rest
  rw [← reverse_cons] at hversions
  have hlast : (first :: rest).getLast? = some v := by
    rw [← head?_reverse, hversions, head?_cons]
  rw [hversions]
  rw [finalContent, hlast] at hline
  exact hall p line hline

lemma length_walkVersions (h : authors.length = (splitLines newline prev).length)
    (rest : List (VersionEntry α)) :
    (walkVersions newline name prev authors rest).2.length =
      (splitLines newline (walkVersions newline name prev authors rest).1).length := by
  induction rest generalizing prev authors with
  | nil => exact h
  | cons curr rest ih => exact ih (length_applyDiffAttribution _ _ _ _)

lemma length_lineAuthors (first : VersionEntry α) (rest : List (VersionEntry α)) :
    (lineAuthors newline name (first :: rest)).length =
      ((finalContent (first :: rest)).splitOn newline).length := by
  rw [finalContent, walkVersions_fst newline name first
    (replicate (splitLines newline first).length (name first.creator)) rest]
  exact length_walkVersions length_replicate rest

lemma blameVersions_eq (first : VersionEntry α) (rest : List (VersionEntry α)) :
    blameVersions newline name (first :: rest) =
      linesToSegments ((finalContent (first :: rest)).splitOn newline)
        (lineAuthors newline name (first :: rest)) := by
  rw [finalContent, walkVersions_fst newline name first
    (replicate (splitLines newline first).length (name first.creator)) rest]
  rfl

lemma tiles_blameVersions (newline : α) (name : Option String → String)
    (versions : List (VersionEntry α)) :
    Tiles ((blameVersions newline name versions).map BlameSegment.span)
      (finalContent versions).length := by
  cases versions with
  | nil => exact Labels.nil.toTiles
  | cons first rest =>
    rw [blameVersions_eq]
    exact tiles_linesToSegments newline _ _

end

/-! ## The characters of a line -/

lemma getElem?_lineLabels {lineLens : List Nat} {authors : List String} {i k lineLen : Nat}
    {author : String} (hlen : lineLens[i]? = some lineLen) (hauthor : authors[i]? = some author)
    (hk : k < lineLen) : (lineLabels lineLens authors)[(lineLens.take i).sum + k]? =
      some author := by
  induction lineLens generalizing authors i with
  | nil => cases hlen
  | cons n lineLens ih =>
    cases authors with
    | nil => cases hauthor
    | cons a authors =>
      rw [lineLabels]
      cases i with
      | zero =>
        cases hlen
        cases hauthor
        rw [take_zero, sum_nil, Nat.zero_add, getElem?_append_left (by simpa using hk)]
        exact getElem?_replicate_of_lt hk
      | succ i =>
        rw [take_succ_cons, sum_cons, getElem?_append_right (by simp; omega)]
        simpa [Nat.add_assoc] using ih hlen hauthor

def lineStart {α : Type} (lines : List (List α)) (i : Nat) : Nat := ((lineLengths lines).take i).sum

namespace TypeScript

def lineAuthors (versions : List (VersionEntry UInt16)) : List String :=
  Blame.lineAuthors 10 creatorName versions

theorem version_blame_tiles (first : VersionEntry UInt16) (rest : List (VersionEntry UInt16)) :
    let text := finalContent (first :: rest)
    let segments := computeBlameFromVersions (first :: rest)
    let authors := lineAuthors (first :: rest)
    Tiles (segments.map BlameSegment.span) text.length ∧
      authors.length = (text.splitOn 10).length ∧
      ∀ i lineLen author, (lineLengths (text.splitOn 10))[i]? = some lineLen → 0 < lineLen →
        authors[i]? = some author →
        ∃ segment ∈ segments, segment.start ≤ lineStart (text.splitOn 10) i ∧
          lineStart (text.splitOn 10) i + lineLen ≤ segment.stop ∧ segment.userName = author := by
  intro text segments authors
  have hsegments : segments = linesToSegments (text.splitOn 10) authors :=
    blameVersions_eq first rest
  refine ⟨tiles_blameVersions 10 creatorName (first :: rest), length_lineAuthors first rest, ?_⟩
  intro i lineLen author hlen hpos hauthor
  have hlabels := labels_linesToSegments (text.splitOn 10) authors
  rw [← hsegments] at hlabels
  have hrun : ∀ k, lineStart (text.splitOn 10) i ≤ k → k < lineStart (text.splitOn 10) i + lineLen →
      (lineLabels (lineLengths (text.splitOn 10)) authors)[k]? = some author := by
    intro k hk hlt
    obtain ⟨d, rfl⟩ := Nat.exists_eq_add_of_le hk
    exact getElem?_lineLabels hlen hauthor (by omega)
  obtain ⟨span, hspan, hstart, hstop, hname⟩ := hlabels.exists_within (by omega) hrun
  obtain ⟨segment, hsegment, rfl⟩ := mem_map.1 hspan
  exact ⟨segment, hsegment, hstart, hstop, hname⟩

def newlineAdded : List (VersionEntry UInt16) :=
  [⟨some [97], some "ann"⟩, ⟨some [97, 10], some "bob"⟩]

theorem empty_last_line_in_no_segment :
    (lineAuthors newlineAdded)[1]? = some "bob" ∧
      ∀ segment ∈ computeBlameFromVersions newlineAdded, segment.userName ≠ "bob" := by
  decide +kernel

theorem version_blame_credits_introducer (first : VersionEntry UInt16)
    (rest : List (VersionEntry UInt16)) :
    (∀ p line, ((finalContent (first :: rest)).splitOn 10)[p]? = some line →
      ∃ author, (lineAuthors (first :: rest))[p]? = some author ∧
        Credits 10 creatorName (first :: rest).reverse p line author) ∧
    ∀ prev curr, [prev, curr] <:+: first :: rest →
      Matching (splitLines 10 prev) (splitLines 10 curr) 0 0
          (computeLCS (splitLines 10 prev) (splitLines 10 curr)) ∧
        ∀ pairs, Matching (splitLines 10 prev) (splitLines 10 curr) 0 0 pairs →
          pairs.length ≤ (computeLCS (splitLines 10 prev) (splitLines 10 curr)).length := by
  constructor
  · exact fun p line => credits_lineAuthors 10 creatorName
  · intro prev curr _
    exact ⟨matching_computeLCS _ _, fun pairs hpairs => hpairs.length_le (bounds_computeLCS _ _)⟩

end TypeScript

/-! ## The two SDKs -/

/-- No line that has a character, the line break counted, is credited to the empty name, that is, to
a version whose creator is the empty string. -/
def NoneNameless (versions : List (VersionEntry UInt16)) : Prop :=
  ∀ p lineLen line, (lineLengths ((finalContent versions).splitOn 10))[p]? = some (lineLen + 1) →
    ¬Credits 10 TypeScript.creatorName versions.reverse p line ""

lemma names_ne_empty_iff (versions : List (VersionEntry UInt16)) :
    (∀ segment ∈ TypeScript.computeBlameFromVersions versions, segment.userName ≠ "") ↔
      NoneNameless versions := by
  cases versions with
  | nil =>
    refine iff_of_true nofun fun p lineLen line _ hcredits => ?_
    obtain ⟨v, hv, -⟩ := hcredits.exists_line
    cases hv
  | cons first rest =>
    rw [TypeScript.computeBlameFromVersions, blameVersions_eq, NoneNameless]
    constructor
    · intro hnames p lineLen line hlen hcredits
      obtain ⟨v, hv, hline⟩ := hcredits.exists_line
      have hfinal : ((finalContent (first :: rest)).splitOn 10)[p]? = some line := by
        rw [head?_reverse] at hv
        rw [finalContent, hv]
        exact hline
      obtain ⟨author, hauthor, hcredits'⟩ := credits_lineAuthors 10 TypeScript.creatorName hfinal
      obtain rfl := hcredits.unique hcredits'
      have hname := (Progress.mem_names_lines (p := ⟨[], 0⟩)).2
        (.inr ⟨p, lineLen, hlen, by rw [hauthor, Option.getD_some]⟩)
      obtain ⟨segment, hsegment, hempty⟩ := mem_map.1 hname
      exact hnames segment hsegment hempty
    · intro hnone segment hsegment hempty
      have hname := Progress.mem_names_lines.1 (mem_map_of_mem hsegment)
      obtain ⟨p, lineLen, hlen, hauthor⟩ := hname.resolve_left not_mem_nil
      rw [hempty, getD_unknown_eq_empty] at hauthor
      have hlt := (List.getElem?_eq_some_iff.1 hauthor).1
      rw [length_lineAuthors] at hlt
      obtain ⟨author, hauthor', hcredits⟩ := credits_lineAuthors 10 TypeScript.creatorName
        (List.getElem?_eq_getElem hlt)
      rw [hauthor] at hauthor'
      cases hauthor'
      exact hnone p lineLen _ hlen hcredits

/-- The two SDKs blame alike exactly when the last version is in the basic plane and credits no line
to an empty creator. -/
theorem sdks_blame_alike_iff (versions : List (VersionEntry UInt16)) :
    TypeScript.computeBlameFromVersions versions =
        Python.computeBlameFromVersions (versions.map Python.ofTypeScript) ↔
      (∀ c ∈ Utf16.codePoints (finalContent versions), c < 0x10000) ∧ NoneNameless versions := by
  rw [blame_alike_iff_names_ne_empty, names_ne_empty_iff]

def smileyVersion : VersionEntry UInt16 := ⟨some [0xd83d, 0xde00], some "ann"⟩

def namelessVersion : VersionEntry UInt16 := ⟨some [104, 105], some ""⟩

theorem sdks_blame_differently :
    TypeScript.computeBlameFromVersions [smileyVersion] = [⟨0, 2, "ann"⟩] ∧
      Python.computeBlameFromVersions ([smileyVersion].map Python.ofTypeScript) = [⟨0, 1, "ann"⟩] ∧
      TypeScript.computeBlameFromVersions [namelessVersion] = [⟨0, 2, ""⟩] ∧
      Python.computeBlameFromVersions ([namelessVersion].map Python.ofTypeScript) =
        [⟨0, 2, "unknown"⟩] := by
  decide

end CollabEditor.ProviderSdk.Blame
