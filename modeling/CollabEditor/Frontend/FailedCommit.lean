import CollabEditor.Frontend.CommentEngine
import CollabEditor.Frontend.MultiEditor
/-!
# Commits that fail

`_handleSuggestNoteConfirm` and `_commitPendingSuggestion` in `multi-editor.ts`.  The comment engine
refuses a note over its limit, and any of the calls may throw before it has done anything.
-/

namespace CollabEditor.Frontend.FailedCommit

open Support Execution CausalOps SharedText

variable {K : Type}

inductive CommitCall
  | buildSuggestion
  | resetEditorDoc
  | disable
  | commitSuggestion
  deriving DecidableEq

def trim (isSpace : K → Bool) (text : List K) : List K :=
  ((text.dropWhile isSpace).reverse.dropWhile isSpace).reverse

section

lemma enable_of_enabled {s : EditorCore K} {text : List K} (h : s.textAtEnable = some text)
    (currentText : List K) : s.enable currentText = s := by
  rw [EditorCore.enable, h]

lemma enable_of_disabled {s : EditorCore K} (h : s.textAtEnable = none) (currentText : List K) :
    (s.enable currentText).shown = s.shown ∧
      (s.enable currentText).textAtEnable = some currentText := by
  rw [EditorCore.enable, h]
  exact ⟨rfl, rfl⟩

lemma textAtEnable_disable (s : EditorCore K) : s.disable.textAtEnable = none := by
  rw [EditorCore.disable]
  split
  · rfl
  · assumption

end

section

variable {P : Type} [LinearOrder P] [DecidableEq K] (order : DocOrder K P) (bytes : List K → Nat)
  (caller : Caller) (fault : Option CommitCall)

/-- The editor, and the call that has thrown. `fault` is the call that throws in any case. -/
def commitPendingSuggestion (s : EditorCore K) (note : Option (List K)) :
    EditorCore K × Option CommitCall :=
  match s.textAtEnable with
  | none => (s, none)
  | some text =>
    if s.shown = text then (s, none)
    else if fault = some .buildSuggestion then (s, fault)
    else
      let payload := buildSuggestion note text s.shown
      if fault = some .resetEditorDoc then (s, fault)
      else
        let s := s.resetEditorDoc order
        if fault = some .disable then (s, fault)
        else
          let s := s.disable
          if fault = some .commitSuggestion then (s, fault)
          else
            match commitSuggestion bytes order caller s.provider.syncDoc payload with
            | none => (s, some .commitSuggestion)
            | some _ =>
              ({ s with
                submitted := s.submitted ++ [payload]
                history := s.history.released payload.view.afterText }, none)

/-- `active` says whether Suggest Mode is on, for the buttons. -/
def handleSuggestNoteConfirm (isSpace : K → Bool) (active : Bool) (s : EditorCore K)
    (noteDraft : List K) : EditorCore K × Option CommitCall :=
  let note := trim isSpace noteDraft
  let (s, thrown) := commitPendingSuggestion order bytes caller fault s
    (if note.length > 0 then some note else none)
  (if active then s.enable s.shown else s, thrown)

/-- The text in the editor, the draft in `editorDoc`, the gate and the baseline are the same. -/
@[mk_iff]
structure Kept (s t : EditorCore K) : Prop where
  shown : t.shown = s.shown
  draft : t.editorText order = s.editorText order
  gate : t.outboundOpen = s.outboundOpen
  baseline : t.textAtEnable = s.textAtEnable

instance (s t : EditorCore K) : Decidable (Kept order s t) :=
  decidable_of_iff' _ (kept_iff ..)

variable {order bytes caller fault}

lemma commitPendingSuggestion_thrown {s t : EditorCore K} {note : Option (List K)}
    {call : CommitCall}
    (h : commitPendingSuggestion order bytes caller fault s note = (t, some call)) :
    ∃ text, s.textAtEnable = some text ∧ s.shown ≠ text ∧
      ((call = .buildSuggestion ∨ call = .resetEditorDoc) ∧ t = s ∨
        call = .disable ∧ t = s.resetEditorDoc order ∨
        call = .commitSuggestion ∧ t = (s.resetEditorDoc order).disable) := by
  rw [commitPendingSuggestion] at h
  split at h
  · cases h
  · rename_i text hbase
    refine ⟨text, hbase, ?_⟩
    split at h
    · cases h
    · rename_i hpending
      refine ⟨hpending, ?_⟩
      split at h
      · rename_i hfault
        cases hfault
        cases h
        exact .inl ⟨.inl rfl, rfl⟩
      · dsimp only at h
        split at h
        · rename_i hfault
          cases hfault
          cases h
          exact .inl ⟨.inr rfl, rfl⟩
        · split at h
          · rename_i hfault
            cases hfault
            cases h
            exact .inr (.inl ⟨rfl, rfl⟩)
          · split at h
            · rename_i hfault
              cases hfault
              cases h
              exact .inr (.inr ⟨rfl, rfl⟩)
            · split at h <;> cases h
              exact .inr (.inr ⟨rfl, rfl⟩)

/-- With no other fault, committing a draft with a note throws exactly if the note is over the
size limit. -/
lemma thrown_iff_note_too_long {s : EditorCore K} {text note : List K} (hempty : bytes [] = 0)
    (hbase : s.textAtEnable = some text) (hpending : s.shown ≠ text) (hnote : note ≠ []) :
    (commitPendingSuggestion order bytes caller none s (some note)).2 = some .commitSuggestion ↔
      caller.withinSize (bytes note) = false := by
  have hthread (d : Doc K) :
      commitSuggestion bytes order caller d (buildSuggestion (some note) text s.shown) = none ↔
        caller.withinSize (bytes note) = false := by
    have hkept : (buildSuggestion (some note) text s.shown).authorNote = some note := by
      change (some note).filter (fun note => !note.isEmpty) = some note
      simp [hnote]
    simp [commitSuggestion, createThread, hkept, Caller.withinSize, hempty, hnote]
  simp only [commitPendingSuggestion, hbase, if_neg hpending, reduceCtorEq, if_false]
  split
  · rename_i hnone
    exact iff_of_true rfl ((hthread _).1 hnone)
  · rename_i thread hsome
    refine iff_of_false (by simp) fun hlong => ?_
    rw [(hthread _).2 hlong] at hsome
    cases hsome

lemma textAtEnable_resetEditorDoc (s : EditorCore K) :
    (s.resetEditorDoc order).textAtEnable = s.textAtEnable := by
  obtain ⟨shown, lastApplied, hreset⟩ := s.resetEditorDoc_eq order
  rw [hreset]

lemma outboundOpen_resetEditorDoc (s : EditorCore K) :
    (s.resetEditorDoc order).outboundOpen = true := by
  rw [EditorCore.outboundOpen, EditorCore.provider_resetEditorDoc]
  rfl

/-- A commit that fails keeps what there was exactly if it fails before the editor is reset. -/
theorem failed_commit_keeps_iff {isSpace : K → Bool} {active : Bool} {s : EditorCore K}
    {noteDraft : List K} {call : CommitCall} (hgate : s.outboundOpen = false)
    (h : (handleSuggestNoteConfirm order bytes caller fault isSpace active s noteDraft).2 =
      some call) :
    Kept order s (handleSuggestNoteConfirm order bytes caller fault isSpace active s noteDraft).1 ↔
      call = .buildSuggestion ∨ call = .resetEditorDoc := by
  rw [handleSuggestNoteConfirm] at h ⊢
  generalize hcommit : commitPendingSuggestion order bytes caller fault s _ = result at h ⊢
  obtain ⟨failed, thrown⟩ := result
  obtain rfl : thrown = some call := h
  dsimp only
  obtain ⟨text, hbase, hpending, hfailed⟩ := commitPendingSuggestion_thrown hcommit
  obtain ⟨hbefore, rfl⟩ | ⟨rfl, rfl⟩ | ⟨rfl, rfl⟩ := hfailed
  · -- Suggest Mode is still on, and is not enabled again.
    rw [enable_of_enabled hbase, ite_self]
    exact iff_of_true ⟨rfl, rfl, rfl, rfl⟩ hbefore
  · rw [enable_of_enabled ((textAtEnable_resetEditorDoc s).trans hbase), ite_self]
    refine iff_of_false (fun hkept => ?_) (by simp)
    have hopen := hkept.gate
    rw [outboundOpen_resetEditorDoc, hgate] at hopen
    cases hopen
  · refine iff_of_false (fun hkept => ?_) (by simp)
    have hnone := textAtEnable_disable (s.resetEditorDoc order)
    obtain ⟨hshown, henabled⟩ :=
      enable_of_disabled hnone (s.resetEditorDoc order).disable.shown
    have hbaseline := hkept.baseline.trans hbase
    cases active with
    | true =>
      -- The baseline is what is shown, and there was a draft.
      rw [if_pos rfl] at hkept hbaseline
      rw [henabled, ← hshown, hkept.shown] at hbaseline
      exact hpending (Option.some.inj hbaseline)
    | false =>
      rw [if_neg Bool.false_ne_true, hnone] at hbaseline
      cases hbaseline

end

def confirmLongNote (fault : Option CommitCall) (s : EditorCore Nat) :
    EditorCore Nat × Option CommitCall :=
  handleSuggestNoteConfirm .byId List.length ⟨1, 0, some ⟨false, false, [], 1⟩⟩ fault (· == 0x20)
    true s [0x6e, 0x6f]

/-- If the payload could not be built, the draft would be there as before. -/
theorem failed_commit_keeps_unbuilt : ∃ s : EditorCore Nat, s.shown = [0x61, 0x78] ∧
      (confirmLongNote (some .buildSuggestion) s).2 = some .buildSuggestion ∧
      Kept .byId s (confirmLongNote (some .buildSuggestion) s).1 := by
  obtain ⟨s, -, hshown, hgate, hthrown⟩ :
      ∃ s ∈ exec (eventStep .byId evenIds) anyStep (.initial evenIds) draftAppended,
        s.core.shown = [0x61, 0x78] ∧ s.core.outboundOpen = false ∧
        (confirmLongNote (some .buildSuggestion) s.core).2 = some .buildSuggestion := by
    decide +kernel
  exact ⟨s.core, hshown, hthrown, (failed_commit_keeps_iff hgate hthrown).2 (.inl rfl)⟩

/-- The note is too long: the `x` that was drafted is neither in the editor nor in `editorDoc`, and
has not been submitted. -/
theorem failed_commit_loses_draft :
    ∃ s ∈ exec (eventStep .byId evenIds) anyStep (.initial evenIds) draftAppended,
      s.core.shown = [0x61, 0x78] ∧ s.core.editorText .byId = [0x61, 0x78] ∧
      s.core.outboundOpen = false ∧ (confirmLongNote none s.core).2 = some .commitSuggestion ∧
      (confirmLongNote none s.core).1.shown = [0x61] ∧
      (confirmLongNote none s.core).1.editorText .byId = [0x61] ∧
      (confirmLongNote none s.core).1.submitted = [] ∧
      ¬Kept .byId s.core (confirmLongNote none s.core).1 := by
  decide +kernel

end CollabEditor.Frontend.FailedCommit
