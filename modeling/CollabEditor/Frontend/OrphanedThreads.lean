import CollabEditor.Frontend.AcceptSuggestion
import CollabEditor.Frontend.AnchorPolling
/-!
# Orphaned threads

`isThreadOrphaned` looks for the quoted text anywhere in the text. `resolveAnchor` takes the
range between the positions of the thread as long as these are known, whatever it reads, and only
then looks for the quoted text.
-/

namespace CollabEditor.Frontend

open Support Execution SharedText TextDiff List Option

variable {K : Type} {P : Type} [LinearOrder P] [DecidableEq K]

def isThreadOrphaned (order : DocOrder K P) (d : Doc K) : Option (StoredThread K) → Bool
  | none => false
  | some t =>
    let quoted := t.anchor.quotedText
    if quoted.length = 0 then false else !(indexOf quoted (d.text order)).isSome

def ResolvesToQuote (order : DocOrder K P) (d : Doc K) (t : StoredThread K) : Prop :=
  ∃ range, resolveAnchor order d t = some range ∧
    slice (d.text order) range.1 range.2 = t.anchor.quotedText

/-- Where the positions of the thread are known, the text between them is what was quoted, or what
was quoted is gone from the text. -/
def QuoteNotElsewhere (order : DocOrder K P) (d : Doc K) (t : StoredThread K) : Prop :=
  ∀ text ∈ anchoredText order d t,
    text = t.anchor.quotedText ∨ ¬t.anchor.quotedText <:+: d.text order
  deriving Decidable

section

variable {order : DocOrder K P} {d : Doc K} {t : StoredThread K}

lemma isThreadOrphaned_eq_false_iff (hquoted : t.anchor.quotedText ≠ []) :
    isThreadOrphaned order d (some t) = false ↔ t.anchor.quotedText <:+: d.text order := by
  have hlength : ¬t.anchor.quotedText.length = 0 := fun h => hquoted (length_eq_zero_iff.1 h)
  rw [isThreadOrphaned, if_neg hlength, Bool.not_eq_false', isSome_indexOf_iff]

lemma resolvesToQuote_of_anchoredText_none (hquoted : t.anchor.quotedText ≠ [])
    (hnone : anchoredText order d t = none) :
    ResolvesToQuote order d t ↔ t.anchor.quotedText <:+: d.text order := by
  rw [ResolvesToQuote, resolveAnchor_of_anchoredText_none hnone, resolveQuote, if_pos hquoted,
    ← isSome_indexOf_iff]
  constructor
  · rintro ⟨range, hrange, -⟩
    obtain ⟨i, hi, -⟩ := map_eq_some_iff.1 hrange
    rw [hi]
    rfl
  · intro hsome
    obtain ⟨i, hi⟩ := isSome_iff_exists.1 hsome
    exact ⟨_, by rw [hi]; rfl, (slice_of_indexOf hi).1⟩

lemma resolvesToQuote_of_anchoredText {text : List K} (htext : anchoredText order d t = some text) :
    ResolvesToQuote order d t ↔ text = t.anchor.quotedText := by
  obtain ⟨start, stop, hresolve, -, -, hslice⟩ := resolveAnchor_of_anchoredText htext
  constructor
  · rintro ⟨range, hrange, hreads⟩
    obtain rfl := mem_unique hresolve hrange
    exact hslice.symm.trans hreads
  · rintro rfl
    exact ⟨_, hresolve, hslice⟩

lemma infix_of_anchoredText {text : List K} (htext : anchoredText order d t = some text) :
    text <:+: d.text order := by
  obtain ⟨start, stop, -, -, -, rfl⟩ := resolveAnchor_of_anchoredText htext
  exact slice_infix _ _ _

lemma orphaned_iff_quoteNotElsewhere (hquoted : t.anchor.quotedText ≠ []) :
    (isThreadOrphaned order d (some t) = false ↔ ResolvesToQuote order d t) ↔
      QuoteNotElsewhere order d t := by
  rw [isThreadOrphaned_eq_false_iff hquoted, QuoteNotElsewhere]
  cases htext : anchoredText order d t with
  | none =>
    rw [resolvesToQuote_of_anchoredText_none hquoted htext]
    exact iff_of_true Iff.rfl fun text hmem => by cases hmem
  | some text =>
    have hinfix := infix_of_anchoredText htext
    rw [resolvesToQuote_of_anchoredText htext]
    constructor
    · intro hiff text' hmem
      cases hmem
      by_cases hreads : text = t.anchor.quotedText
      · exact .inl hreads
      · exact .inr fun hfound => hreads (hiff.1 hfound)
    · intro h
      rcases h text rfl with rfl | hgone
      · exact iff_of_true hinfix rfl
      · refine iff_of_false hgone ?_
        rintro rfl
        exact hgone hinfix

end

omit [LinearOrder P] [DecidableEq K] in
lemma anchor_reviewStep {bytes : List K → Nat} {s s' : Reviewed K} {a : ReviewEvent K}
    (h : reviewStep bytes s a = some s') : s'.thread.anchor = s.thread.anchor := by
  cases a with
  | update u =>
    cases h
    rfl
  | call caller call =>
    obtain ⟨thread, hthread, rfl⟩ := map_eq_some_iff.1 h
    exact (StoredThread.mutate_keeps hthread).1.1
  | load =>
    cases h
    rfl

/-- The thread is reported as orphaned just if it is not resolved to what it quotes, exactly as long
as the quoted text is not somewhere else than between its positions. -/
theorem orphaned_matches_resolution_iff {bytes : List K → Nat} {order : DocOrder K P} {d : Doc K}
    {t : StoredThread K} {s : Reviewed K} (hquoted : t.anchor.quotedText ≠ [])
    (hrun : Run (reviewStep bytes) anyStep ⟨d, t⟩ s) :
    (isThreadOrphaned order s.doc (some s.thread) = false ↔ ResolvesToQuote order s.doc s.thread) ↔
      QuoteNotElsewhere order s.doc s.thread := by
  have hanchor : s.thread.anchor = t.anchor :=
    hrun.invariant (P := fun s => s.thread.anchor = t.anchor) rfl
      fun _ _ _ h _ hs => (anchor_reviewStep hs).trans h
  exact orphaned_iff_quoteNotElsewhere (by rwa [hanchor])

def threadOn (start stop : Nat) : Option (StoredThread Nat) :=
  let (anchor, startRel, endRel) := createAnchor .byId reviewedDoc start stop
  createThread length ⟨1, 0, none⟩ anchor startRel endRel (some (1, [0x63])) none

/-- The `b` is deleted, and the thread on it is orphaned. -/
theorem orphaned_matches_resolution_deleted : ∃ thread, threadOn 1 2 = some thread ∧
      ∃ s, Run (reviewStep length) anyStep ⟨reviewedDoc, thread⟩ s ∧
        isThreadOrphaned .byId s.doc (some s.thread) = true ∧
          ¬ResolvesToQuote .byId s.doc s.thread := by
  have hrun : ∃ thread ∈ threadOn 1 2, thread.anchor.quotedText ≠ [] ∧
      ∃ s ∈ exec (reviewStep length) anyStep ⟨reviewedDoc, thread⟩ [.update ⟨[], [(3, 0)]⟩],
        QuoteNotElsewhere .byId s.doc s.thread ∧
        isThreadOrphaned .byId s.doc (some s.thread) = true := by
    decide +kernel
  obtain ⟨thread, hthread, hquoted, s, hs, hnot, horphaned⟩ := hrun
  refine ⟨thread, hthread, s, run_of_exec hs, horphaned, fun hresolves => ?_⟩
  have hiff := (orphaned_matches_resolution_iff hquoted (run_of_exec hs)).2 hnot
  exact absurd (horphaned.symm.trans (hiff.2 hresolves)) (by decide)

/-- The first `a` is deleted. The other one keeps the thread from being orphaned, while it is
resolved to an empty range in front of the `b`. -/
theorem quote_elsewhere_not_orphaned : ∃ thread, threadOn 0 1 = some thread ∧
      ∃ s, Run (reviewStep length) anyStep ⟨reviewedDoc, thread⟩ s ∧
        s.doc.text .byId = [0x62, 0x63, 0x61] ∧
        isThreadOrphaned .byId s.doc (some s.thread) = false ∧
        resolveAnchor .byId s.doc s.thread = some (0, 0) ∧
        ¬ResolvesToQuote .byId s.doc s.thread := by
  have hrun : ∃ thread ∈ threadOn 0 1,
      ∃ s ∈ exec (reviewStep length) anyStep ⟨reviewedDoc, thread⟩ [.update ⟨[], [(1, 0)]⟩],
        s.doc.text .byId = [0x62, 0x63, 0x61] ∧
        isThreadOrphaned .byId s.doc (some s.thread) = false ∧
        resolveAnchor .byId s.doc s.thread = some (0, 0) ∧ s.thread.anchor.quotedText ≠ [] := by
    decide +kernel
  obtain ⟨thread, hthread, s, hs, htext, horphaned, hresolve, hquoted⟩ := hrun
  refine ⟨thread, hthread, s, run_of_exec hs, htext, horphaned, hresolve, ?_⟩
  rintro ⟨range, hrange, hreads⟩
  obtain rfl := mem_unique hresolve hrange
  exact hquoted (hreads.symm.trans (slice_self _ _))

end CollabEditor.Frontend
