import CollabEditor.Frontend.OpenGate
/-!
# Edits made in no mode

A keystroke made with the outbound gate open lives in the editor alone until the timer
writes it to `editorDoc`, and reaches `syncDoc` only if the gate is still open then.
-/

namespace CollabEditor.Frontend

open Support Execution CausalOps SharedText TextDiff EditorCore

variable {K : Type} {P : Type} [LinearOrder P] [DecidableEq K]

/-- Once the timer has fired or been cancelled, `syncDoc` shows the text as the edits made with
the gate open have left it, or a submitted suggestion turns it into that. -/
def NormalEditsKept (order : DocOrder K P) (s : EditorCore K) : Prop :=
  s.syncTimer = false → s.syncText order = s.history.normalText ∨
    ∃ p ∈ s.submitted, splice (s.syncText order) p.anchor.start p.anchor.stop p.view.afterText =
      s.history.normalText
  deriving Decidable

/-- While the gate is open, it is not closed, the editor doc is not replaced and `syncDoc` not
changed from outside with a write-back pending; the suggest engine is disabled with no write-back
pending and nothing held back; and no write-back finds the text back at what was last put into the
editor. -/
def WrittenBackFirst (order : DocOrder K P) (s : EditorCore K) : EditorCall K → Prop
  | .fireTimer _ => s.shown = s.lastApplied → s.shown = s.editorText order
  | .wire _ | .accept .. | .resetEditorDoc | .closeOutbound | .enable | .discard | .commit _ =>
    s.outboundOpen = true → s.syncTimer = false
  | .disable => s.textAtEnable.isSome → s.syncTimer = false ∧ NothingHeldBack s.provider
  | .preview .. => s.outboundOpen = false
  | .type _ | .rebase | .snapshot => True

instance (order : DocOrder K P) (s : EditorCore K) (a : EditorCall K) :
    Decidable (WrittenBackFirst order s a) := by
  rcases a with ⟨⟩ <;> dsimp only [WrittenBackFirst] <;> infer_instance

/-- `typed`: what is on the way. `saved`: what has arrived, if nothing is on the way. -/
structure NormalInv (order : DocOrder K P) (ids : ClientIds) (s : EditorCore K) : Prop where
  gate : GateInv ids s.provider
  typed : s.outboundOpen = true → s.syncTimer = true → s.shown = s.history.normalText
  saved : (s.outboundOpen = true → s.syncTimer = false) → s.syncText order = s.history.normalText

variable {order : DocOrder K P} {ids : ClientIds} {s t : EditorCore K}

lemma GateInv.syncText_eq (h : GateInv ids s.provider) (hopen : s.outboundOpen = true) :
    s.syncText order = s.editorText order :=
  (h.lockstep hopen).same.text_eq order

section

variable (h : NormalInv order ids s)
include h

lemma NormalInv.reset (hok : s.outboundOpen = true → s.syncTimer = false) :
    NormalInv order ids (s.resetEditorDoc order) := by
  refine ⟨by simpa using GateInv.reset h.gate.docs, fun _ htimer => ?_, fun _ => ?_⟩
  · rw [syncTimer_resetEditorDoc] at htimer
    cases htimer
  · have hsync : (s.resetEditorDoc order).provider.syncDoc = s.provider.syncDoc := by
      rw [provider_resetEditorDoc, h.gate.docs.wired.resetEditorDoc_eq]
    rw [history_resetEditorDoc, syncText, hsync]
    exact h.saved hok

lemma NormalInv.disable (htimer : s.syncTimer = false) (hlock : s.provider.InLockstep) :
    NormalInv order ids s.disable := by
  refine ⟨h.gate.disable fun _ => hlock, ?_, ?_⟩ <;> rw [EditorCore.disable] <;> split
  · intro _ htimer'
    exact absurd (htimer.symm.trans htimer') (by simp)
  · exact h.typed
  · exact fun _ => h.saved fun _ => htimer
  · exact h.saved

section

variable (hok : s.outboundOpen = true → s.syncTimer = false)
include hok

lemma NormalInv.discarded : NormalInv order ids (s.resetEditorDoc order).disable :=
  (h.reset hok).disable (by simp) (by simpa using h.gate.docs.inLockstep_reset)

lemma NormalInv.closeOutbound : NormalInv order ids (s.setOutbound false) :=
  ⟨h.gate.closeOutbound, fun hopen => (by cases hopen), fun _ => h.saved hok⟩

lemma NormalInv.transactSync {u : Update K} {arrived : List K}
    (hu : Arrives ids s.provider.syncDoc u) :
    NormalInv order ids (s.transactSync order u arrived) := by
  refine ⟨by simpa using h.gate.transact_sync hu, fun hopen htimer => ?_, fun _ => ?_⟩
  · rw [EditorCore.outboundOpen, provider_transactSync,
      replicator_transact h.gate.docs.wired] at hopen
    have hstopped : (s.transactSync order u arrived).syncTimer = false :=
      syncTimer_observe order (hok hopen)
    exact absurd (hstopped.symm.trans htimer) (by simp)
  · rw [EditorCore.syncText, provider_transactSync, EditorCore.transactSync,
      history_observe, History.shared, if_pos]
    exact (h.saved hok).symm

end

lemma NormalInv.fireTimer {u : Update K}
    (hok : s.shown = s.lastApplied → s.shown = s.editorText order)
    (hs : callStep order ids s (.fireTimer u) = some t) : NormalInv order ids t := by
  obtain ⟨htimer, ⟨hskip, rfl⟩ | ⟨hwrites, rfl⟩⟩ := callStep_fireTimer hs
  · refine ⟨h.gate, fun _ h' => (by cases h'), fun _ => ?_⟩
    cases hopen : s.outboundOpen with
    | true =>
      calc s.syncText order = s.editorText order := h.gate.syncText_eq hopen
        _ = s.shown := (hskip.elim id hok).symm
        _ = s.history.normalText := h.typed hopen htimer
    | false => exact h.saved (by simp [hopen])
  · refine ⟨h.gate.transact_editor hwrites.edit, fun _ h' => (by cases h'), fun _ => ?_⟩
    cases hopen : s.outboundOpen with
    | true =>
      have hlock := h.gate.docs.inLockstep_transact_editor (h.gate.lockstep hopen)
        hwrites.edit hopen
      calc (s.provider.transact (.editor s.provider.replicator.editor) u).syncDoc.text order
          = (s.provider.transact (.editor s.provider.replicator.editor) u).editorDoc.text order :=
            hlock.same.text_eq order
        _ = s.shown := by rw [h.gate.docs.wired.editorDoc_transact, hwrites.text]
        _ = s.history.normalText := h.typed hopen htimer
    | false =>
      rw [syncText, h.gate.docs.wired.syncDoc_transact_closed hopen]
      exact h.saved (by simp [hopen])

lemma NormalInv.preview {r : Replacement K} {u : Update K} (hclosed : s.outboundOpen = false)
    (hs : callStep order ids s (.preview r u) = some t) : NormalInv order ids t := by
  have hsaved := h.saved (by simp [hclosed])
  rcases callStep_preview hs with ⟨hwrites, rfl⟩ | rfl
  · have hwired := h.gate.docs.wired
    refine ⟨by simpa using h.gate.transact_editor hwrites.edit, fun hopen => ?_, fun _ => ?_⟩
    · rw [outboundOpen, provider_observe, replicator_transact hwired] at hopen
      exact absurd (hclosed.symm.trans hopen) (by simp)
    · simpa [syncText, hwired.syncDoc_transact_closed hclosed, History.released] using hsaved
  · exact ⟨h.gate, fun hopen => absurd (hclosed.symm.trans hopen) (by simp), fun _ => hsaved⟩

lemma normalInv_call {a : EditorCall K} (hok : WrittenBackFirst order s a)
    (hs : callStep order ids s a = some t) : NormalInv order ids t := by
  cases a with
  | type text =>
    obtain rfl := callStep_type hs
    cases hopen : s.outboundOpen with
    | true =>
      refine ⟨h.gate, fun _ _ => by simp [History.typed], fun hsettled => ?_⟩
      exact absurd (hsettled hopen) (by simp)
    | false =>
      refine ⟨h.gate, fun hopen' => absurd (hopen.symm.trans hopen') (by simp), fun _ => ?_⟩
      simpa [EditorCore.syncText, History.typed] using h.saved (by simp [hopen])
  | fireTimer u => exact h.fireTimer hok hs
  | wire u =>
    obtain ⟨hu, rfl⟩ := callStep_wire hs
    exact h.transactSync hok hu.arrives
  | resetEditorDoc =>
    cases hs
    exact h.reset hok
  | closeOutbound =>
    cases hs
    exact h.closeOutbound hok
  | enable =>
    cases hs
    rw [EditorCore.enable]
    split
    · exact h
    · have hclosed := h.closeOutbound hok
      exact { hclosed with }
  | disable =>
    cases hs
    cases htext : s.textAtEnable with
    | none => simpa [EditorCore.disable, htext] using h
    | some text =>
      obtain ⟨htimer, hback⟩ := hok (by simp [htext])
      exact h.disable htimer (h.gate.docs.inLockstep_of_nothingHeldBack hback)
  | discard =>
    cases hs
    rw [EditorCore.discard]
    split
    · exact h.discarded hok
    · exact h
  | commit note =>
    cases hs
    rw [EditorCore.commitPendingSuggestion]
    split
    · exact h
    · split
      · exact h
      · have hdone := h.discarded hok
        exact { hdone with }
  | preview r u => exact h.preview hok hs
  | accept r u =>
    rcases callStep_accept hs with ⟨hwrites, rfl⟩ | rfl
    · exact h.transactSync hok (arrives_of_localEdit h.gate.docs.sync.client hwrites.edit)
    · exact { h with }
  | rebase | snapshot =>
    cases hs
    exact { h with }

lemma NormalInv.normalEditsKept : NormalEditsKept order s :=
  fun htimer => .inl (h.saved fun _ => htimer)

end

lemma normalInv_initial (order : DocOrder K P) (ids : ClientIds) :
    NormalInv order ids (.initial ids) :=
  ⟨gateInv_initial ids, fun _ => nofun, fun _ => rfl⟩

/-- What is typed with the gate open is in `syncDoc` once no write-back is pending, in every run
in which the write-back comes before the gate is closed or the editor doc replaced. -/
theorem normal_edits_kept_of_writtenBackFirst {s : MultiEditor K}
    (hrun : Run (eventStep order ids) (CallsMeet order ids (WrittenBackFirst order))
      (.initial ids) s) : NormalEditsKept order s.core := by
  have hinv := (run_calls_of_run hrun).invariant (P := NormalInv order ids)
    (normalInv_initial order ids) fun _ _ _ h hok hs => normalInv_call h hok hs
  exact hinv.normalEditsKept

theorem normal_edits_kept_draftDiscarded :
    ∃ s, Run (eventStep .byId evenIds) (CallsMeet .byId evenIds (WrittenBackFirst .byId))
        (.initial evenIds) s ∧ s.core.history.normalText = [0x61, 0x63] ∧
      s.core.syncTimer = false ∧ NormalEditsKept .byId s.core :=
  exists_run_imp draftDiscarded
    (P := fun s => s.core.history.normalText = [0x61, 0x63] ∧ s.core.syncTimer = false)
    (by decide +kernel)
    fun _ hrun ⟨htext, htimer⟩ => ⟨htext, htimer, normal_edits_kept_of_writtenBackFirst hrun⟩

def typedBeforeSuggest : List (EditorEvent Nat) :=
  [.type [0x61], .timer ⟨[⟨2, 0, [], some 0x61⟩], []⟩, .type [0x61, 0x62], .suggestOn, .discard,
    .suggestOff false]

/-- The gate was closed before the `b` was written and the editor doc replaced before the timer
fired, so that it is in neither doc, and nothing was submitted. -/
theorem edit_before_suggest_swallowed :
    ∃ s : MultiEditor Nat, Run (eventStep .byId evenIds) anyStep (.initial evenIds) s ∧
      s.ui.mode = .none ∧ s.core.outboundOpen = true ∧ s.core.syncTimer = false ∧
      s.core.history.normalText = [0x61, 0x62] ∧ s.core.syncText .byId = [0x61] ∧
      s.core.shown = [0x61] ∧ s.core.submitted = [] ∧ ¬ NormalEditsKept .byId s.core :=
  exists_run typedBeforeSuggest (by decide +kernel)

end CollabEditor.Frontend
