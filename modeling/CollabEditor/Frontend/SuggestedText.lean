import CollabEditor.Frontend.CommentEngine
import CollabEditor.Frontend.WriteBack
/-!
# From a draft to the accepted text

A suggestion is built from the draft, committed with positions in the author's `syncText`, and
accepted by a client that has the same text, perhaps in other items.  `received` is what that client
has of a text in the thread.
-/

namespace CollabEditor.Frontend.SuggestedText

open Support ItemText SharedText TextDiff Option

variable {K : Type} [DecidableEq K]

def commitSuggestion (bytes : List K → Nat) (caller : Caller) (ytext : List (TextItem K))
    (payload : SuggestionPayload K) : Option (StoredThread K) :=
  createThread bytes caller payload.anchor (positionAt ytext payload.anchor.start)
    (positionAt ytext payload.anchor.stop) none
    (some { view := payload.view, author := caller.user, authorNote := payload.authorNote,
            status := .pending })

def resolveAnchor (ytext : List (TextItem K)) (t : StoredThread K) : Option (Nat × Nat) :=
  match t.startRel.bind (index ytext), t.endRel.bind (index ytext) with
  | some start, some stop =>
    if start ≤ stop ∧ stop ≤ (text ytext).length then some (start, stop)
    else resolveQuote (text ytext) t.anchor
  | _, _ => resolveQuote (text ytext) t.anchor

/-- The text afterwards, and whether the anchor is a range of it. `client` and `clock` are for the
id of the item that is inserted. -/
def tryApplyTextSuggestion (sp : Splitting K) (client clock : Nat) (ytext : List (TextItem K))
    (anchor : Option (Nat × Nat)) (afterText : List K) : List (TextItem K) × Bool :=
  match anchor with
  | none => (ytext, false)
  | some (start, stop) =>
    if stop > (text ytext).length ∨ start > stop then (ytext, false)
    else if slice (text ytext) start stop = afterText then (ytext, true)
    else
      let deleted := if start < stop then delete sp ytext start (stop - start) else ytext
      let new : TextItem K := ⟨client, clock, afterText, false⟩
      (if 0 < new.content.length then insert sp deleted start new else deleted, true)

def accept (sp : Splitting K) (client clock : Nat) (received : List K → List K)
    (ytext : List (TextItem K)) (t : StoredThread K) : List (TextItem K) :=
  match t.suggestion with
  | none => ytext
  | some s =>
    (tryApplyTextSuggestion sp client clock ytext (resolveAnchor ytext t)
      (received s.view.afterText)).1

section

variable {sp : Splitting K} {client clock : Nat} {received : List K → List K}
  {author reviewer : List (TextItem K)}

lemma tryApplyTextSuggestion_eq_replace {ytext : List (TextItem K)} {start stop : Nat}
    {afterText : List K} (hle : start ≤ stop) (hstop : stop ≤ (text ytext).length)
    (hne : slice (text ytext) start stop ≠ afterText) :
    tryApplyTextSuggestion sp client clock ytext (some (start, stop)) afterText =
      (replace sp ytext start (stop - start) ⟨client, clock, afterText, false⟩, true) := by
  have hrange : ¬(stop > (text ytext).length ∨ start > stop) := by omega
  simp only [tryApplyTextSuggestion, if_neg hrange, if_neg hne, replace, Nat.sub_pos_iff_lt]

/-- The range is replaced as it should be exactly if `suggested` is the after-text and the range has
no end inside a character. -/
lemma text_tryApplyTextSuggestion_iff {ytext : List (TextItem K)} {start stop : Nat}
    {suggested afterText : List K} (hle : start ≤ stop) (hstop : stop ≤ (text ytext).length)
    (hchanges : splice (text ytext) start stop afterText ≠ text ytext) :
    text (tryApplyTextSuggestion sp client clock ytext (some (start, stop)) suggested).1 =
        splice (text ytext) start stop afterText ↔
      suggested = afterText ∧ WholeCharacters sp ytext start (stop - start) := by
  obtain ⟨count, rfl⟩ := Nat.exists_eq_add_of_le hle
  by_cases hreads : slice (text ytext) start (start + count) = suggested
  · have hrange : ¬(start + count > (text ytext).length ∨ start > start + count) := by omega
    have hkept : tryApplyTextSuggestion sp client clock ytext (some (start, start + count))
        suggested = (ytext, true) := by
      simp only [tryApplyTextSuggestion, if_neg hrange, if_pos hreads]
    rw [hkept]
    refine iff_of_false hchanges.symm ?_
    rintro ⟨rfl, -⟩
    rw [← hreads] at hchanges
    exact hchanges (splice_slice hle)
  · have hchange : 0 < count ∨ suggested ≠ [] := by
      by_contra hnone
      obtain ⟨hempty, hnil⟩ := not_or.1 hnone
      exact hreads ((slice_eq_nil (by omega)).trans (not_not.1 hnil).symm)
    rw [tryApplyTextSuggestion_eq_replace hle hstop hreads, Nat.add_sub_cancel_left]
    have hiff := text_replace_eq_iff sp ⟨client, clock, suggested, false⟩ hstop rfl hchange
    constructor
    · intro heq
      obtain rfl : suggested = afterText := content_eq_of_text_replace_eq hstop rfl hchange heq
      exact ⟨rfl, hiff.1 heq⟩
    · rintro ⟨rfl, hwhole⟩
      exact hiff.2 hwhole

omit [DecidableEq K] in
lemma index_positionAt_of_chars_eq (hids : (ids reviewer).Nodup)
    (hsame : ItemText.chars reviewer = ItemText.chars author) {n : Nat}
    (hn : n ≤ (text author).length) : index reviewer (positionAt author n) = some n := by
  have hposition : positionAt author n = positionAt reviewer n := by
    rw [positionAt_eq, positionAt_eq, hsame]
  have htext : text reviewer = text author := by rw [text_eq, text_eq, hsame]
  rw [hposition, index_positionAt hids (by rwa [htext])]

lemma resolveAnchor_commitSuggestion {bytes : List K → Nat} {caller : Caller}
    {payload : SuggestionPayload K} {thread : StoredThread K} (hids : (ids reviewer).Nodup)
    (hsame : ItemText.chars reviewer = ItemText.chars author)
    (hle : payload.anchor.start ≤ payload.anchor.stop)
    (hstop : payload.anchor.stop ≤ (text author).length)
    (hcommit : commitSuggestion bytes caller author payload = some thread) :
    resolveAnchor reviewer thread = some (payload.anchor.start, payload.anchor.stop) ∧
      thread.suggestion.map (·.view) = some payload.view := by
  simp only [commitSuggestion, createThread, ite_none_right_eq_some, some.injEq]
    at hcommit
  obtain ⟨-, rfl⟩ := hcommit
  have htext : text reviewer = text author := by rw [text_eq, text_eq, hsame]
  have hstart := index_positionAt_of_chars_eq hids hsame (Nat.le_trans hle hstop)
  have hend := index_positionAt_of_chars_eq hids hsame hstop
  refine ⟨?_, rfl⟩
  simp only [resolveAnchor, bind_some, hstart, hend, htext]
  exact if_pos ⟨hle, hstop⟩

end

/-- Accepting a suggestion gives the author's text exactly if the after-text is received as it was
sent and no end of the replaced range is inside a character. -/
theorem accepted_text_eq_draft_iff {sp : Splitting UInt16} {client clock : Nat}
    {received : List UInt16 → List UInt16} {author reviewer : List (TextItem UInt16)}
    {bytes : List UInt16 → Nat} {caller : Caller} {note : Option (List UInt16)}
    {draft : List UInt16} {thread : StoredThread UInt16} (hids : (ids reviewer).Nodup)
    (hsame : ItemText.chars reviewer = ItemText.chars author) (hdraft : draft ≠ text author)
    (hcommit : commitSuggestion bytes caller author (buildSuggestion note (text author) draft) =
      some thread) : text (accept sp client clock received reviewer thread) = draft ↔
      received (buildSuggestion note (text author) draft).view.afterText =
          (buildSuggestion note (text author) draft).view.afterText ∧
        WholeCharacters sp reviewer (computeAnchor (text author) draft).start
          ((computeAnchor (text author) draft).stop -
            (computeAnchor (text author) draft).start) := by
  have htext : text reviewer = text author := by rw [text_eq, text_eq, hsame]
  have hle := computeAnchor_start_le (text author) draft
  have hstop := computeAnchor_stop_le (text author) draft
  obtain ⟨hresolve, hview⟩ := resolveAnchor_commitSuggestion hids hsame hle hstop hcommit
  obtain ⟨s, hs, hview⟩ := map_eq_some_iff.1 hview
  have hsplice := splice_buildSuggestion (text author) draft note
  simp only [accept, hs, hview, hresolve]
  have hchanges : splice (text reviewer) (computeAnchor (text author) draft).start
      (computeAnchor (text author) draft).stop
      (buildSuggestion note (text author) draft).view.afterText ≠ text reviewer := by
    rwa [htext, hsplice]
  rw [← text_tryApplyTextSuggestion_iff hle (by rwa [htext]) hchanges, htext, hsplice]
  rfl

def typedByTwo : List (TextItem UInt16) :=
  [⟨1, 0, [0x61, 0x62], false⟩, ⟨2, 0, [0x7a], true⟩, ⟨2, 1, [0x63], false⟩]

theorem accepted_text_eq_draft_replaced :
    ∃ thread, commitSuggestion List.length ⟨1, 0, none⟩ typedByTwo
        (buildSuggestion none (text typedByTwo) [0x61, 0x78, 0x63]) = some thread ∧
      text (accept WriteBack.surrogates 3 0 id typedByTwo thread) = [0x61, 0x78, 0x63] := by
  have hcommit : ∃ thread, commitSuggestion List.length ⟨1, 0, none⟩ typedByTwo
      (buildSuggestion none (text typedByTwo) [0x61, 0x78, 0x63]) = some thread := ⟨_, rfl⟩
  obtain ⟨thread, hcommit⟩ := hcommit
  refine ⟨thread, hcommit, ?_⟩
  exact (accepted_text_eq_draft_iff (by decide) rfl (by decide) hcommit).2 ⟨rfl, by decide⟩

/-- U+1F600 is to become U+1F601, which has the same high surrogate. -/
theorem accepted_text_lacks_character :
    ∃ thread, commitSuggestion List.length ⟨1, 0, none⟩ WriteBack.grinningFace
        (buildSuggestion none (text WriteBack.grinningFace) [0xd83d, 0xde01]) = some thread ∧
      text (accept WriteBack.surrogates 3 0 id WriteBack.grinningFace thread) = [0xfffd, 0xde01] :=
  ⟨_, rfl, by decide⟩

end CollabEditor.Frontend.SuggestedText
