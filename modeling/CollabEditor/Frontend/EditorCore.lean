import CollabEditor.Frontend.Lockstep
import CollabEditor.Frontend.SuggestEngine
/-!
# Text on its way between the editor and the docs

The parts of `text-binding.ts`, `suggest-engine.ts`, `collab-provider.ts`, `version-manager.ts` and
`multi-editor.ts` that move text between the WYSIWYG editor, `editorDoc`, `syncDoc` and the version
endpoint.  A keystroke starts a timer, which writes the difference to `editorDoc`; a change of
`editorDoc` by anyone else is put into the editor and cancels the timer.  The editor serializes what
it was given unchanged.  A Yjs transaction is any local edit after which the doc shows the text
asked for.
-/

namespace CollabEditor.Frontend

open Support Execution CausalOps SharedText TextDiff Option

variable {K : Type}

structure Replacement (K : Type) where
  start : Nat
  stop : Nat
  afterText : List K

/-- Where characters have come from. `drafts` have been typed with the outbound gate closed,
`others` with it open, by peers or in a submitted suggestion; `drafting` says that something typed
with the gate closed has not been reset; `normalText` is what the last keystroke with the gate open
has left, with what has been done to `syncDoc` since it showed that text. -/
structure History (K : Type) where
  drafting : Bool
  drafts : List K
  others : List K
  normalText : List K

/-- `textAtEnable` is there while the suggest engine is enabled, and `versions` are the
contents posted to the version endpoint. No function reads `history`. -/
structure EditorCore (K : Type) where
  provider : CollaborationProvider K
  shown : List K
  syncTimer : Bool
  lastApplied : List K
  textAtEnable : Option (List K)
  submitted : List (SuggestionPayload K)
  versions : List (List K)
  history : History K

section

variable {P : Type} [LinearOrder P] [DecidableEq K] (order : DocOrder K P)

/-- The transaction `u` makes `d` show `target`; what it inserts is taken from `inserted`. -/
@[mk_iff]
structure Writes (d : Doc K) (target inserted : List K) (u : Update K) : Prop where
  edit : d.LocalEdit u
  text : (d.apply u).text order = target
  chars : ∀ o ∈ u.items, ∀ c ∈ o.content, c ∈ inserted

instance (d : Doc K) (target inserted : List K) (u : Update K) :
    Decidable (Writes order d target inserted u) :=
  decidable_of_iff' _ (writes_iff ..)

namespace Replacement

def applies (r : Replacement K) (text : List K) : Prop := r.start ≤ r.stop ∧ r.stop ≤ text.length
  deriving Decidable

def changes (r : Replacement K) (text : List K) : Prop :=
  r.applies text ∧ slice text r.start r.stop ≠ r.afterText

def result (r : Replacement K) (text : List K) : List K :=
  splice text r.start r.stop r.afterText

instance (r : Replacement K) (text : List K) : Decidable (r.changes text) :=
  inferInstanceAs (Decidable (_ ∧ _))

end Replacement

namespace History

def typed (h : History K) (isOpen : Bool) (before after : List K) : History K :=
  let new := after.filter fun c => decide (c ∉ before)
  if isOpen then { h with others := h.others ++ new, normalText := after }
  else { h with drafting := true, drafts := h.drafts ++ new }

def released (h : History K) (chars : List K) : History K :=
  { h with others := h.others ++ chars }

def reset (h : History K) : History K := { h with drafting := false }

def shared (h : History K) (before after : List K) : History K :=
  if h.normalText = before then { h with normalText := after } else h

end History

def chars (items : List (Item K)) : List K := items.filterMap (·.content)

namespace EditorCore

def initial (ids : ClientIds) : EditorCore K where
  provider := .initial ids
  shown := []
  syncTimer := false
  lastApplied := []
  textAtEnable := none
  submitted := []
  versions := []
  history := ⟨false, [], [], []⟩

def editorText (s : EditorCore K) : List K := s.provider.editorDoc.text order

def syncText (s : EditorCore K) : List K := s.provider.syncDoc.text order

def outboundOpen (s : EditorCore K) : Bool := s.provider.replicator.outboundOpen

/-! ### The text binding -/

/-- An empty text is not put into the editor. -/
def applyYTextToEditor (s : EditorCore K) : EditorCore K :=
  let text := s.editorText order
  if text = [] then s else { s with shown := text, syncTimer := false, lastApplied := text }

def observe (before : Doc K) (s : EditorCore K) : EditorCore K :=
  if (Doc.change before s.provider.editorDoc).isEmpty then s else s.applyYTextToEditor order

def retargetYText (s : EditorCore K) : EditorCore K :=
  let s := { s with syncTimer := false }
  if s.shown = s.editorText order then s else s.applyYTextToEditor order

def resetEditorDoc (s : EditorCore K) : EditorCore K :=
  retargetYText order
    { s with provider := s.provider.resetEditorDoc, history := s.history.reset }

/-- `none` unless `u` is a transaction that the timer could make; it makes none if the text
is that of the doc, or that last put into the editor. -/
def applyEditorToYText (s : EditorCore K) (u : Update K) : Option (EditorCore K) :=
  if s.shown = s.editorText order ∨ s.shown = s.lastApplied then some s
  else if Writes order s.provider.editorDoc s.shown s.shown u then
    some { s with provider := s.provider.transact (.editor s.provider.replicator.editor) u }
  else none

/-! ### The suggest engine -/

def setOutbound (s : EditorCore K) (isOpen : Bool) : EditorCore K :=
  { s with provider := s.provider.setOutbound isOpen }

def enable (s : EditorCore K) (currentText : List K) : EditorCore K :=
  match s.textAtEnable with
  | some _ => s
  | none => { s.setOutbound false with textAtEnable := some currentText }

def disable (s : EditorCore K) : EditorCore K :=
  match s.textAtEnable with
  | some _ => { s.setOutbound true with textAtEnable := none }
  | none => s

def rebase (s : EditorCore K) (newBaseline : List K) : EditorCore K :=
  { s with textAtEnable := s.textAtEnable.map fun _ => newBaseline }

def hasPendingChanges (s : EditorCore K) : Bool :=
  match s.textAtEnable with
  | some text => decide (s.shown ≠ text)
  | none => false

def discard (s : EditorCore K) : EditorCore K :=
  match s.textAtEnable with
  | some _ => (s.resetEditorDoc order).disable
  | none => s

def commitPendingSuggestion (s : EditorCore K) (note : Option (List K)) : EditorCore K :=
  match s.textAtEnable with
  | none => s
  | some text =>
    if s.shown = text then s
    else
      let payload := buildSuggestion note text s.shown
      let s := (s.resetEditorDoc order).disable
      { s with
        submitted := s.submitted ++ [payload]
        history := s.history.released payload.view.afterText }

/-! ### Suggestions of others -/

def previewSuggestion (s : EditorCore K) (r : Replacement K) (u : Update K) :
    Option (EditorCore K) :=
  let released := { s with history := s.history.released r.afterText }
  if r.changes (s.editorText order) then
    if Writes order s.provider.editorDoc (r.result (s.editorText order)) r.afterText u then
      some ({ released with
        provider := s.provider.transact (.editor s.provider.replicator.editor) u }.observe order
          s.provider.editorDoc)
    else none
  else some released

def transactSync (s : EditorCore K) (u : Update K) (arrived : List K) : EditorCore K :=
  let provider := s.provider.transact .sync u
  observe order s.provider.editorDoc { s with
    provider := provider
    history :=
      (s.history.released arrived).shared (s.syncText order) (provider.syncDoc.text order) }

def acceptSuggestion (s : EditorCore K) (r : Replacement K) (u : Update K) :
    Option (EditorCore K) :=
  if r.changes (s.syncText order) then
    if Writes order s.provider.syncDoc (r.result (s.syncText order)) r.afterText u then
      some (s.transactSync order u r.afterText)
    else none
  else some { s with history := s.history.released r.afterText }

/-! ### What of this touches the docs -/

@[simp] lemma provider_applyYTextToEditor (s : EditorCore K) :
    (s.applyYTextToEditor order).provider = s.provider := by
  rw [applyYTextToEditor]
  split <;> rfl

@[simp] lemma provider_observe (before : Doc K) (s : EditorCore K) :
    (s.observe order before).provider = s.provider := by
  rw [observe]
  split <;> simp

@[simp] lemma provider_retargetYText (s : EditorCore K) :
    (s.retargetYText order).provider = s.provider := by
  rw [retargetYText]
  split <;> simp

@[simp] lemma provider_resetEditorDoc (s : EditorCore K) :
    (s.resetEditorDoc order).provider = s.provider.resetEditorDoc := by
  rw [resetEditorDoc, provider_retargetYText]

@[simp] lemma provider_transactSync (s : EditorCore K) (u : Update K) (arrived : List K) :
    (s.transactSync order u arrived).provider = s.provider.transact .sync u := by
  rw [transactSync, provider_observe]

@[simp] lemma history_applyYTextToEditor (s : EditorCore K) :
    (s.applyYTextToEditor order).history = s.history := by
  rw [applyYTextToEditor]
  split <;> rfl

@[simp] lemma history_observe (before : Doc K) (s : EditorCore K) :
    (s.observe order before).history = s.history := by
  rw [observe]
  split <;> simp

@[simp] lemma history_resetEditorDoc (s : EditorCore K) :
    (s.resetEditorDoc order).history = s.history.reset := by
  simp only [resetEditorDoc, retargetYText]
  split <;> simp

@[simp] lemma syncTimer_resetEditorDoc (s : EditorCore K) :
    (s.resetEditorDoc order).syncTimer = false := by
  simp only [resetEditorDoc, retargetYText, applyYTextToEditor]
  split_ifs <;> rfl

lemma shown_applyYTextToEditor (s : EditorCore K) : (s.applyYTextToEditor order).shown =
      if s.editorText order = [] then s.shown else s.editorText order :=
  apply_ite EditorCore.shown _ _ _

lemma shown_retargetYText (s : EditorCore K) : (s.retargetYText order).shown =
      if s.editorText order = [] then s.shown else s.editorText order := by
  by_cases hshown : s.shown = s.editorText order
  · have hkept : s.retargetYText order = { s with syncTimer := false } := if_pos hshown
    rw [hkept, ← hshown, ite_self]
  · have hput : s.retargetYText order = { s with syncTimer := false }.applyYTextToEditor order :=
      if_neg hshown
    rw [hput]
    exact shown_applyYTextToEditor order { s with syncTimer := false }

lemma resetEditorDoc_eq (s : EditorCore K) : ∃ shown lastApplied, s.resetEditorDoc order =
    { s with
      provider := s.provider.resetEditorDoc
      shown := shown
      syncTimer := false
      lastApplied := lastApplied
      history := s.history.reset } := by
  simp only [resetEditorDoc, retargetYText, applyYTextToEditor]
  split_ifs <;> exact ⟨_, _, rfl⟩

lemma syncTimer_observe {before : Doc K} {s : EditorCore K} (h : s.syncTimer = false) :
    (s.observe order before).syncTimer = false := by
  rw [observe, applyYTextToEditor]
  split_ifs <;> simp [h]

end EditorCore

/-! ## Calls -/

inductive EditorCall (K : Type)
  | type (text : List K)
  | fireTimer (u : Update K)
  | wire (u : Update K)
  | resetEditorDoc
  | closeOutbound
  | enable
  | disable
  | discard
  | commit (note : Option (List K))
  | preview (r : Replacement K) (u : Update K)
  | accept (r : Replacement K) (u : Update K)
  | rebase
  | snapshot

def callStep (ids : ClientIds) (s : EditorCore K) : EditorCall K → Option (EditorCore K)
  | .type text =>
    if text = s.shown then none
    else some { s with
      shown := text
      syncTimer := true
      history := s.history.typed s.outboundOpen s.shown text }
  | .fireTimer u =>
    if s.syncTimer then { s with syncTimer := false }.applyEditorToYText order u else none
  | .wire u =>
    if FromPeers ids s.provider.syncDoc u then some (s.transactSync order u (chars u.items))
    else none
  | .resetEditorDoc => some (s.resetEditorDoc order)
  | .closeOutbound => some (s.setOutbound false)
  | .enable => some (s.enable s.shown)
  | .disable => some s.disable
  | .discard => some (s.discard order)
  | .commit note => some (s.commitPendingSuggestion order note)
  | .preview r u => s.previewSuggestion order r u
  | .accept r u => s.acceptSuggestion order r u
  | .rebase => some (s.rebase s.shown)
  -- the version manager was attached to the first editor doc, and keeps it
  | .snapshot => some { s with versions := s.versions ++ [(s.provider.editorDocs 0).text order] }

/-! ### What a call that was made came to -/

variable {order} {ids : ClientIds} {s t : EditorCore K} {r : Replacement K} {u : Update K}

lemma callStep_type {text : List K} (hs : callStep order ids s (.type text) = some t) :
    t = { s with
      shown := text
      syncTimer := true
      history := s.history.typed s.outboundOpen s.shown text } := by
  simp only [callStep, ite_none_left_eq_some, some.injEq] at hs
  exact hs.2.symm

lemma callStep_fireTimer (hs : callStep order ids s (.fireTimer u) = some t) :
    s.syncTimer = true ∧
      ((s.shown = s.editorText order ∨ s.shown = s.lastApplied) ∧
          t = { s with syncTimer := false } ∨
        Writes order s.provider.editorDoc s.shown s.shown u ∧
          t = { s with
            syncTimer := false
            provider := s.provider.transact (.editor s.provider.replicator.editor) u }) := by
  simp only [callStep, EditorCore.applyEditorToYText] at hs
  split_ifs at hs with htimer hskip hwrites <;> cases hs
  · exact ⟨htimer, .inl ⟨hskip, rfl⟩⟩
  · exact ⟨htimer, .inr ⟨hwrites, rfl⟩⟩

lemma callStep_wire (hs : callStep order ids s (.wire u) = some t) :
    FromPeers ids s.provider.syncDoc u ∧ t = s.transactSync order u (chars u.items) := by
  simp only [callStep, ite_none_right_eq_some, some.injEq] at hs
  exact ⟨hs.1, hs.2.symm⟩

lemma callStep_preview (hs : callStep order ids s (.preview r u) = some t) :
    Writes order s.provider.editorDoc (r.result (s.editorText order)) r.afterText u ∧
        t = { s with
          history := s.history.released r.afterText
          provider := s.provider.transact (.editor s.provider.replicator.editor) u }.observe order
            s.provider.editorDoc ∨
      t = { s with history := s.history.released r.afterText } := by
  simp only [callStep, EditorCore.previewSuggestion] at hs
  split_ifs at hs with _ hwrites <;> cases hs
  · exact .inl ⟨hwrites, rfl⟩
  · exact .inr rfl

lemma callStep_accept (hs : callStep order ids s (.accept r u) = some t) :
    Writes order s.provider.syncDoc (r.result (s.syncText order)) r.afterText u ∧
        t = s.transactSync order u r.afterText ∨
      t = { s with history := s.history.released r.afterText } := by
  simp only [callStep, EditorCore.acceptSuggestion] at hs
  split_ifs at hs with _ hwrites <;> cases hs
  · exact .inl ⟨hwrites, rfl⟩
  · exact .inr rfl

/-- What transactions, resets and the gate keep of the docs, every call keeps. -/
lemma callStep_provider {Q : CollaborationProvider K → Prop}
    (htransact : ∀ p name u, Q p → Q (p.transact name u))
    (hreset : ∀ p, Q p → Q p.resetEditorDoc) (hgate : ∀ p isOpen, Q p → Q (p.setOutbound isOpen))
    {a : EditorCall K} (h : Q s.provider) (hs : callStep order ids s a = some t) :
    Q t.provider := by
  have hdisable (s : EditorCore K) (h : Q s.provider) : Q s.disable.provider := by
    rw [EditorCore.disable]
    split
    · exact hgate _ true h
    · exact h
  have hdiscarded : Q (s.resetEditorDoc order).disable.provider :=
    hdisable _ (by simpa using hreset _ h)
  cases a with
  | type text =>
    obtain rfl := callStep_type hs
    exact h
  | fireTimer u =>
    obtain ⟨-, ⟨-, rfl⟩ | ⟨-, rfl⟩⟩ := callStep_fireTimer hs
    · exact h
    · exact htransact _ _ u h
  | wire u =>
    obtain ⟨-, rfl⟩ := callStep_wire hs
    simpa using htransact _ .sync u h
  | resetEditorDoc =>
    cases hs
    simpa using hreset _ h
  | closeOutbound =>
    cases hs
    exact hgate _ false h
  | enable =>
    cases hs
    rw [EditorCore.enable]
    split
    · exact h
    · exact hgate _ false h
  | disable =>
    cases hs
    exact hdisable s h
  | discard =>
    cases hs
    rw [EditorCore.discard]
    split
    · exact hdiscarded
    · exact h
  | commit note =>
    cases hs
    rw [EditorCore.commitPendingSuggestion]
    split
    · exact h
    · split
      · exact h
      · exact hdiscarded
  | preview r u =>
    obtain ⟨-, rfl⟩ | rfl := callStep_preview hs
    · simpa using htransact _ _ u h
    · exact h
  | accept r u =>
    obtain ⟨-, rfl⟩ | rfl := callStep_accept hs
    · simpa using htransact _ .sync u h
    · exact h
  | rebase | snapshot =>
    cases hs
    exact h

lemma wired_callStep {a : EditorCall K} (h : s.provider.Wired)
    (hs : callStep order ids s a = some t) : t.provider.Wired :=
  callStep_provider (fun _ name u h => h.transact name u) (fun _ h => h.reset)
    (fun _ _ h => { h with }) h hs

end

end CollabEditor.Frontend
