import CollabEditor.Frontend.CommentEngine
import CollabEditor.Frontend.EditorCore
/-!
# Accepting a suggestion

The accept handler replaces the range of the suggestion's anchor in `syncDoc`, if there is one, and
records the acceptance in any case.  Updates of the old format are not considered.
-/

namespace CollabEditor.Frontend

open Support Execution SharedText TextDiff Option List

variable {K : Type} {P : Type} [LinearOrder P] [DecidableEq K]

structure AcceptOutcome (K : Type) where
  text : List K
  replaced : Option (Nat × Nat)
  thread : StoredThread K

/-- The range, unless it reads the after-text already or is no range of the text. -/
def replacedRange (text afterText : List K) (anchor : Option (Nat × Nat)) : Option (Nat × Nat) :=
  anchor.filter fun range => decide (Replacement.changes ⟨range.1, range.2, afterText⟩ text)

def handleSuggestionAccept (order : DocOrder K P) (caller : Caller) (d : Doc K)
    (t : StoredThread K) : Option (AcceptOutcome K) :=
  t.suggestion.map fun s =>
    let text := d.text order
    let replaced := replacedRange text s.view.afterText (resolveAnchor order d t)
    { text := (replaced.map fun range => splice text range.1 range.2 s.view.afterText).getD text
      replaced
      thread := t.decided caller .accepted s }

/-- Accepted is recorded only for a range that read the before-text and now reads the after-text;
otherwise the text is as it was. -/
structure AcceptSound (text : List K) (view : SuggestionView K) (o : AcceptOutcome K) : Prop where
  accepted : o.thread.suggestion.map (·.status) = some .accepted →
    ∃ range, o.replaced = some range ∧ slice text range.1 range.2 = view.beforeText ∧
      o.text = splice text range.1 range.2 view.afterText
  otherwise : o.thread.suggestion.map (·.status) ≠ some .accepted → o.text = text

/-! ## The thread of a suggestion -/

/-- A suggestion of `view` as it was built: it quotes what it replaces. -/
structure QuotesBefore (view : SuggestionView K) (t : StoredThread K) : Prop where
  suggested : t.suggestion.map (·.view) = some view
  quoted : t.anchor.quotedText = view.beforeText
  insertion : t.anchor.quotedText = [] → t.anchor.start = t.anchor.stop
  differs : view.beforeText ≠ view.afterText

omit [DecidableEq K] in
lemma QuotesBefore.mutate {view : SuggestionView K} {bytes : List K → Nat} {caller : Caller}
    {t t' : StoredThread K} {call : ThreadCall K} (h : QuotesBefore view t)
    (hs : t.mutate bytes caller call = some t') : QuotesBefore view t' := by
  obtain ⟨⟨hanchor, -⟩, hview⟩ := StoredThread.mutate_keeps hs
  exact ⟨hview.trans h.suggested, hanchor ▸ h.quoted, hanchor ▸ h.insertion, h.differs⟩

lemma quotesBefore_commitSuggestion {bytes : List K → Nat} {order : DocOrder K P} {caller : Caller}
    {d : Doc K} {note : Option (List K)} {base draft : List K} {t : StoredThread K}
    (hdraft : draft ≠ base)
    (h : commitSuggestion bytes order caller d (buildSuggestion note base draft) = some t) :
    QuotesBefore (buildSuggestion note base draft).view t := by
  simp only [commitSuggestion, createThread, ite_none_right_eq_some, Option.some.injEq] at h
  obtain ⟨-, rfl⟩ := h
  have hle := computeAnchor_start_le base draft
  refine ⟨rfl, rfl, fun hempty => ?_, fun hsame => hdraft ?_⟩
  · have hlen : (slice base (computeAnchor base draft).start
        (computeAnchor base draft).stop).length =
        (computeAnchor base draft).stop - (computeAnchor base draft).start :=
      length_slice (computeAnchor_stop_le base draft)
    have hzero : 0 = (computeAnchor base draft).stop - (computeAnchor base draft).start :=
      (congrArg length hempty).symm.trans hlen
    exact Nat.le_antisymm hle (Nat.sub_eq_zero_iff_le.1 hzero.symm)
  · calc draft = splice base (computeAnchor base draft).start (computeAnchor base draft).stop
          (buildSuggestion note base draft).view.afterText :=
            (splice_buildSuggestion base draft note).symm
      _ = splice base (computeAnchor base draft).start (computeAnchor base draft).stop
          (buildSuggestion note base draft).view.beforeText := by rw [hsame]
      _ = base := splice_slice hle

/-- Between its positions the text still reads the before-text; or, with the positions not known
to the client, the before-text is still somewhere in the text. -/
def StillReads (order : DocOrder K P) (view : SuggestionView K) (d : Doc K) (t : StoredThread K) :
    Prop :=
  match anchoredText order d t with
  | some text => text = view.beforeText
  | none => view.beforeText <:+: d.text order

instance (order : DocOrder K P) (view : SuggestionView K) (d : Doc K) (t : StoredThread K) :
    Decidable (StillReads order view d t) := by
  rw [StillReads]
  split <;> infer_instance

section

variable {order : DocOrder K P} {view : SuggestionView K} {d : Doc K} {t : StoredThread K}
  (h : QuotesBefore view t)
include h

lemma slice_of_resolveQuote {range : Nat × Nat}
    (hrange : resolveQuote (d.text order) t.anchor = some range) :
    slice (d.text order) range.1 range.2 = view.beforeText ∧ range.1 ≤ range.2 ∧
      range.2 ≤ (d.text order).length := by
  rw [resolveQuote] at hrange
  split at hrange
  · obtain ⟨i, hi, rfl⟩ := map_eq_some_iff.1 hrange
    obtain ⟨hslice, hle⟩ := slice_of_indexOf hi
    exact ⟨hslice.trans h.quoted, Nat.le_add_right _ _, hle⟩
  · rename_i hempty
    cases hrange
    have hnil : t.anchor.quotedText = [] := not_not.1 hempty
    rw [← h.insertion hnil, Nat.max_self, ← h.quoted, hnil]
    exact ⟨slice_self _ _, Nat.le_refl _, Nat.min_le_right _ _⟩

lemma isSome_resolveQuote :
    (resolveQuote (d.text order) t.anchor).isSome ↔ view.beforeText <:+: d.text order := by
  rw [resolveQuote, ← h.quoted]
  split
  · rw [isSome_map, isSome_indexOf_iff]
  · rename_i hempty
    simp [not_not.1 hempty]

lemma stillReads_iff : StillReads order view d t ↔
    ∃ range, resolveAnchor order d t = some range ∧ range.1 ≤ range.2 ∧
      range.2 ≤ (d.text order).length ∧ slice (d.text order) range.1 range.2 = view.beforeText := by
  cases htext : anchoredText order d t with
  | some text =>
    obtain ⟨start, stop, hresolve, hle, hlen, hslice⟩ := resolveAnchor_of_anchoredText htext
    simp only [StillReads, htext, hresolve]
    constructor
    · rintro rfl
      exact ⟨_, rfl, hle, hlen, hslice⟩
    · rintro ⟨range, hrange, -, -, hread⟩
      cases hrange
      exact hslice.symm.trans hread
  | none =>
    simp only [StillReads, htext, resolveAnchor_of_anchoredText_none htext]
    rw [← isSome_resolveQuote h, isSome_iff_exists]
    constructor
    · rintro ⟨range, hrange⟩
      obtain ⟨hslice, hle, hlen⟩ := slice_of_resolveQuote h hrange
      exact ⟨range, hrange, hle, hlen, hslice⟩
    · rintro ⟨range, hrange, -⟩
      exact ⟨range, hrange⟩

lemma acceptSound_iff (caller : Caller) : ∃ o, handleSuggestionAccept order caller d t = some o ∧
      (AcceptSound (d.text order) view o ↔ StillReads order view d t) := by
  obtain ⟨s, hs, rfl⟩ := map_eq_some_iff.1 h.suggested
  refine ⟨_, by rw [handleSuggestionAccept, hs]; rfl, ?_⟩
  rw [stillReads_iff h]
  constructor
  · intro hsound
    obtain ⟨range, hreplaced, hslice, -⟩ := hsound.accepted rfl
    obtain ⟨hresolve, hchanges⟩ := filter_eq_some_iff.1 hreplaced
    obtain ⟨⟨hle, hlen⟩, -⟩ := of_decide_eq_true hchanges
    exact ⟨range, hresolve, hle, hlen, hslice⟩
  · rintro ⟨range, hresolve, hle, hlen, hslice⟩
    have hchanges : Replacement.changes ⟨range.1, range.2, s.view.afterText⟩ (d.text order) :=
      ⟨⟨hle, hlen⟩, fun hafter => h.differs (hslice.symm.trans hafter)⟩
    have hreplaced : replacedRange (d.text order) s.view.afterText (resolveAnchor order d t) =
        some range :=
      filter_eq_some_iff.2 ⟨hresolve, decide_eq_true hchanges⟩
    refine ⟨fun _ => ⟨range, hreplaced, hslice, ?_⟩, fun hnot => absurd rfl hnot⟩
    simp only [hreplaced, map_some, getD_some]

end

/-! ## What happens after the suggestion is committed -/

structure Reviewed (K : Type) where
  doc : Doc K
  thread : StoredThread K

/-- Edits of the text by anyone, accepts of other suggestions included; calls on the thread; and
loading the thread from the server. -/
inductive ReviewEvent (K : Type)
  | update (u : Update K)
  | call (caller : Caller) (call : ThreadCall K)
  | load

def reviewStep (bytes : List K → Nat) (s : Reviewed K) : ReviewEvent K → Option (Reviewed K)
  | .update u => some { s with doc := s.doc.apply u }
  | .call caller call =>
    (s.thread.mutate bytes caller call).map fun thread => { s with thread }
  | .load => some { s with thread := s.thread.fromWire }

omit [DecidableEq K] in
lemma QuotesBefore.step {bytes : List K → Nat} {view : SuggestionView K} {s t : Reviewed K}
    {a : ReviewEvent K} (h : QuotesBefore view s.thread) (hs : reviewStep bytes s a = some t) :
    QuotesBefore view t.thread := by
  cases a with
  | update u =>
    cases hs
    exact h
  | call caller call =>
    obtain ⟨thread, hthread, rfl⟩ := map_eq_some_iff.1 hs
    exact h.mutate hthread
  | load =>
    cases hs
    exact { h with }

/-- `abca`, the first `a` by client 1 and the rest by client 3. -/
def reviewedDoc : Doc Nat := .started 9 [⟨seed 1 [0x61], []⟩, ⟨seed 3 [0x62, 0x63, 0x61], []⟩]

end CollabEditor.Frontend
