import CollabEditor.Frontend.MultiEditor
/-!
# An open gate

While the outbound gate is open, what has taken effect in `editorDoc` has done so in `syncDoc`,
unless Suggest Mode was left with an unchanged text.
-/

namespace CollabEditor.Frontend

open Support Execution CausalOps SharedText

variable {K : Type}

structure GateInv (ids : ClientIds) (p : CollaborationProvider K) : Prop where
  docs : DocInv ids p
  lockstep : p.replicator.outboundOpen = true → p.InLockstep

@[mk_iff]
structure NothingHeldBack (p : CollaborationProvider K) : Prop where
  items : ∀ o ∈ p.editorDoc.items, o ∈ p.syncDoc.items
  deletes : ∀ i ∈ p.editorDoc.deletes, i ∈ p.syncDoc.deletes

instance [DecidableEq K] (p : CollaborationProvider K) : Decidable (NothingHeldBack p) :=
  decidable_of_iff' _ (nothingHeldBack_iff ..)

lemma DocInv.inLockstep_of_nothingHeldBack {ids : ClientIds} {p : CollaborationProvider K}
    (h : DocInv ids p) (hback : NothingHeldBack p) : p.InLockstep :=
  ⟨hback.items, hback.deletes, h.editor.within, Doc.within_of_subset hback.items hback.deletes⟩

def ReopenedInLockstep (s : EditorCore K) : EditorCall K → Prop
  | .disable => s.textAtEnable.isSome → NothingHeldBack s.provider
  | _ => True

instance [DecidableEq K] (s : EditorCore K) (a : EditorCall K) :
    Decidable (ReopenedInLockstep s a) := by
  rcases a with ⟨⟩ <;> dsimp only [ReopenedInLockstep] <;> infer_instance

section

variable {ids : ClientIds} {p : CollaborationProvider K} {u : Update K}

lemma gateInv_initial (ids : ClientIds) :
    GateInv ids (CollaborationProvider.initial ids : CollaborationProvider K) :=
  ⟨docInv_initial ids, fun _ => lockstep_initial ids⟩

lemma GateInv.closeOutbound (h : GateInv ids p) : GateInv ids (p.setOutbound false) :=
  ⟨h.docs.setOutbound false, fun hopen => by cases hopen⟩

lemma GateInv.setOutbound (h : DocInv ids p) (hlock : p.InLockstep) (isOpen : Bool) :
    GateInv ids (p.setOutbound isOpen) :=
  ⟨h.setOutbound isOpen, fun _ => hlock⟩

lemma GateInv.disable {s : EditorCore K} (h : GateInv ids s.provider)
    (hlock : s.textAtEnable.isSome → s.provider.InLockstep) : GateInv ids s.disable.provider := by
  rw [EditorCore.disable]
  split
  · rename_i htext
    exact .setOutbound h.docs (hlock (by simp [htext])) true
  · exact h

variable [DecidableEq K]

lemma GateInv.reset (h : DocInv ids p) : GateInv ids p.resetEditorDoc :=
  ⟨h.reset, fun _ => h.inLockstep_reset⟩

lemma GateInv.transact_sync (h : GateInv ids p) (hu : Arrives ids p.syncDoc u) :
    GateInv ids (p.transact .sync u) := by
  refine ⟨h.docs.transact_sync hu, fun hopen => ?_⟩
  rw [replicator_transact h.docs.wired] at hopen
  exact h.docs.inLockstep_transact_sync (h.lockstep hopen) u

lemma GateInv.transact_editor (h : GateInv ids p) (hu : p.editorDoc.LocalEdit u) :
    GateInv ids (p.transact (.editor p.replicator.editor) u) := by
  cases hout : p.replicator.outboundOpen with
  | true =>
    exact ⟨h.docs.transact_editor (h.lockstep hout) hu,
      fun _ => h.docs.inLockstep_transact_editor (h.lockstep hout) hu hout⟩
  | false =>
    refine ⟨h.docs.transact_editor_closed hu hout, fun hopen => ?_⟩
    rw [replicator_transact h.docs.wired, hout] at hopen
    cases hopen

variable {P : Type} [LinearOrder P] {order : DocOrder K P} {s t : EditorCore K}

lemma GateInv.discarded (h : GateInv ids s.provider) :
    GateInv ids ((s.resetEditorDoc order).disable).provider := by
  apply GateInv.disable
  · simpa using GateInv.reset h.docs
  · intro _
    simpa using h.docs.inLockstep_reset

lemma gateInv_call {a : EditorCall K} (h : GateInv ids s.provider) (hok : ReopenedInLockstep s a)
    (hs : callStep order ids s a = some t) : GateInv ids t.provider := by
  cases a with
  | type text =>
    obtain rfl := callStep_type hs
    exact h
  | fireTimer u =>
    obtain ⟨-, ⟨-, rfl⟩ | ⟨hwrites, rfl⟩⟩ := callStep_fireTimer hs
    · exact h
    · exact h.transact_editor hwrites.edit
  | wire u =>
    obtain ⟨hu, rfl⟩ := callStep_wire hs
    simpa using h.transact_sync hu.arrives
  | resetEditorDoc =>
    cases hs
    simpa using GateInv.reset h.docs
  | closeOutbound =>
    cases hs
    exact h.closeOutbound
  | enable =>
    cases hs
    simp only [EditorCore.enable]
    split
    · exact h
    · exact h.closeOutbound
  | disable =>
    cases hs
    exact h.disable fun htext => h.docs.inLockstep_of_nothingHeldBack (hok htext)
  | discard =>
    cases hs
    simp only [EditorCore.discard]
    split
    · exact h.discarded
    · exact h
  | commit note =>
    cases hs
    simp only [EditorCore.commitPendingSuggestion]
    split
    · exact h
    · split
      · exact h
      · exact h.discarded
  | preview r u =>
    rcases callStep_preview hs with ⟨hwrites, rfl⟩ | rfl
    · simpa using h.transact_editor hwrites.edit
    · exact h
  | accept r u =>
    rcases callStep_accept hs with ⟨hwrites, rfl⟩ | rfl
    · simpa using h.transact_sync (arrives_of_localEdit h.docs.sync.client hwrites.edit)
    · exact h
  | rebase | snapshot =>
    cases hs
    exact h

/-- Everything in the editor doc has reached `syncDoc` and is in effect there if it is in the
editor doc, and whatever is typed next takes effect in `syncDoc` at once. -/
structure NoHiddenDivergence (p : CollaborationProvider K) : Prop where
  held : NothingHeldBack p
  within : p.editorDoc.Within p.syncDoc
  edits : ∀ u, p.editorDoc.LocalEdit u →
    ∀ o ∈ u.items, Integrated (p.transact (.editor p.replicator.editor) u).syncDoc.items o

lemma GateInv.noHiddenDivergence (h : GateInv ids p) (hopen : p.replicator.outboundOpen = true) :
    NoHiddenDivergence p := by
  have hlock := h.lockstep hopen
  refine ⟨{ hlock with }, hlock.same.within', fun u hu o ho => ?_⟩
  have hlock' := h.docs.inLockstep_transact_editor hlock hu hopen
  apply hlock'.same.within'.integrated
  rw [h.docs.wired.editorDoc_transact]
  exact hu.integrated o ho

/-- In every state with the gate open nothing hides in the editor doc, whatever mode is on, as
long as the suggest engine is never disabled while something does. -/
theorem no_hidden_divergence_of_reopenedInLockstep {s : MultiEditor K}
    (hrun : Run (eventStep order ids) (CallsMeet order ids ReopenedInLockstep) (.initial ids) s)
    (hopen : s.core.outboundOpen = true) : NoHiddenDivergence s.core.provider := by
  have hinv := (run_calls_of_run hrun).invariant (P := fun s => GateInv ids s.provider)
    (gateInv_initial ids) fun _ _ _ h hok hs => gateInv_call h hok hs
  exact hinv.noHiddenDivergence hopen

end

def draftDiscarded : List (EditorEvent Nat) :=
  [.type [0x61], .timer ⟨[⟨2, 0, [], some 0x61⟩], []⟩, .suggestOn, .type [0x61, 0x62],
    .timer ⟨[⟨2, 1, [(2, 0)], some 0x62⟩], []⟩, .suggestOff false, .type [0x61, 0x63],
    .timer ⟨[⟨4, 0, [(2, 0)], some 0x63⟩], []⟩]

theorem no_hidden_divergence_draftDiscarded :
    ∃ s, Run (eventStep .byId evenIds) (CallsMeet .byId evenIds ReopenedInLockstep)
        (.initial evenIds) s ∧ s.core.syncText .byId = [0x61, 0x63] ∧
      NoHiddenDivergence s.core.provider :=
  exists_run_imp draftDiscarded
    (P := fun s => s.core.syncText .byId = [0x61, 0x63] ∧ s.core.outboundOpen = true)
    (by decide +kernel)
    fun _ hrun ⟨htext, hopen⟩ => ⟨htext, no_hidden_divergence_of_reopenedInLockstep hrun hopen⟩

def draftTakenBack : List (EditorEvent Nat) :=
  [.type [0x61], .timer ⟨[⟨2, 0, [], some 0x61⟩], []⟩, .suggestOn, .type [0x61, 0x62],
    .timer ⟨[⟨2, 1, [(2, 0)], some 0x62⟩], []⟩, .type [0x61], .timer ⟨[], [(2, 1)]⟩,
    .suggestOff false]

/-- The editor doc is kept and the gate opened; the clock of the `b` is missing from `syncDoc`,
where nothing typed after it is ever integrated. -/
theorem draft_taken_back_hides_operation :
    ∃ s : MultiEditor Nat, Run (eventStep .byId evenIds) anyStep (.initial evenIds) s ∧
      s.ui.mode = .none ∧ s.ui.previewing = none ∧ s.core.outboundOpen = true ∧
      ¬ NoHiddenDivergence s.core.provider ∧
      ∃ t, Run (eventStep .byId evenIds) anyStep s t ∧ t.core.shown = [0x61, 0x63] ∧
        t.core.editorText .byId = [0x61, 0x63] ∧ t.core.syncText .byId = [0x61] := by
  have hrun : ∃ s ∈ exec (eventStep .byId evenIds) anyStep (.initial evenIds) draftTakenBack,
      s.ui.mode = .none ∧ s.ui.previewing = none ∧ s.core.outboundOpen = true ∧
      ¬ NothingHeldBack s.core.provider ∧
      ∃ t ∈ exec (eventStep .byId evenIds) anyStep s
          [.type [0x61, 0x63], .timer ⟨[⟨2, 2, [(2, 1)], some 0x63⟩], []⟩],
        t.core.shown = [0x61, 0x63] ∧ t.core.editorText .byId = [0x61, 0x63] ∧
          t.core.syncText .byId = [0x61] := by
    decide +kernel
  obtain ⟨s, hs, hmode, hpreview, hopen, hheld, t, ht, htexts⟩ := hrun
  exact ⟨s, run_of_exec hs, hmode, hpreview, hopen, fun h => hheld h.held, t,
    run_of_exec ht, htexts⟩

end CollabEditor.Frontend
