import CollabEditor.Frontend.OpenGate
/-!
# What becomes of a draft

Characters typed with the outbound gate closed are in the editor and in `editorDoc`.  A character
stands for itself: one that was also typed with the gate open, or by a peer, is not secret.
-/

namespace CollabEditor.Frontend

open Support Execution CausalOps SharedText TextDiff List Function
open EditorCore CollaborationProvider

variable {K : Type}

/-! ## Characters of a doc -/

lemma mem_chars {items : List (Item K)} {c : K} :
    c ∈ chars items ↔ ∃ o ∈ items, o.content = some c := by
  rw [chars, mem_filterMap]

lemma chars_subset {items items' : List (Item K)} (h : ∀ o ∈ items, o ∈ items') :
    chars items ⊆ chars items' := by
  intro c hc
  obtain ⟨o, ho, hcontent⟩ := mem_chars.1 hc
  exact mem_chars.2 ⟨o, h o ho, hcontent⟩

lemma chars_apply (d : Doc K) (u : Update K) :
    chars (d.apply u).items = chars d.items ++ chars u.items := by
  rw [chars, Doc.items_apply, filterMap_append]
  rfl

section

variable [DecidableEq K]

lemma chars_change_subset (d e : Doc K) : chars (Doc.change d e).items ⊆ chars e.items :=
  chars_subset fun _ ho => (Doc.mem_items_change.1 ho).1.mem

lemma text_subset_chars {P : Type} [LinearOrder P] (order : DocOrder K P) (d : Doc K) :
    d.text order ⊆ chars d.items := by
  intro c hc
  obtain ⟨o, ho, hcontent⟩ := mem_filterMap.1 hc
  have hshows := Doc.mem_visible.1 ((mem_insertionSort order.le).1 ho)
  exact mem_chars.2 ⟨o, hshows.integrated.mem, hcontent⟩

end

/-! ## The docs -/

/-- `syncDoc` holds none but the `others`, nor does the editor doc unless something is being
drafted; and then the gate is closed. -/
structure DraftInDoc (p : CollaborationProvider K) (drafting : Bool) (others : List K) : Prop where
  wired : p.Wired
  unborn : ∀ n, p.replicator.editor < n → p.editorDocs n = .started (p.editorDocs n).client []
  sync : chars p.syncDoc.items ⊆ others
  editor : drafting = false → chars p.editorDoc.items ⊆ others
  closed : p.replicator.outboundOpen = true → drafting = false

namespace DraftInDoc

variable {p : CollaborationProvider K} {drafting : Bool} {others : List K} {u : Update K}

lemma mono (h : DraftInDoc p drafting others) {others' : List K} (hsub : others ⊆ others') :
    DraftInDoc p drafting others' :=
  { h with
    sync := List.Subset.trans h.sync hsub
    editor := fun hd => List.Subset.trans (h.editor hd) hsub }

lemma closeOutbound (h : DraftInDoc p drafting others) :
    DraftInDoc (p.setOutbound false) drafting others :=
  { h with wired := ⟨h.wired.replaced, h.wired.live, h.wired.inbound⟩, closed := nofun }

lemma setOutbound (h : DraftInDoc p false others) (isOpen : Bool) :
    DraftInDoc (p.setOutbound isOpen) false others :=
  { h with wired := ⟨h.wired.replaced, h.wired.live, h.wired.inbound⟩, closed := fun _ => rfl }

lemma unborn_update (h : DraftInDoc p drafting others) (d : Doc K) (n : Nat)
    (hn : p.replicator.editor < n) : Function.update p.editorDocs p.replicator.editor d n =
      .started (Function.update p.editorDocs p.replicator.editor d n).client [] := by
  rw [update_of_ne (ne_of_gt hn)]
  exact h.unborn n hn

variable [DecidableEq K]

section

variable (h : DraftInDoc p drafting others)
include h

lemma transact_sync (hu : chars u.items ⊆ others) :
    DraftInDoc (p.transact .sync u) drafting others := by
  have hsync : chars (p.syncDoc.apply u).items ⊆ others := by
    rw [chars_apply]
    exact append_subset.2 ⟨h.sync, hu⟩
  rw [h.wired.transact_sync]
  split
  · exact { h with wired := ⟨h.wired.replaced, h.wired.live, h.wired.inbound⟩, sync := hsync }
  · refine ⟨{ h.wired with }, h.unborn_update _, hsync, fun hd => ?_, h.closed⟩
    simp only [editorDoc, update_self, chars_apply]
    exact append_subset.2 ⟨h.editor hd, List.Subset.trans (chars_change_subset _ _) hsync⟩

lemma transact_editor (hu : drafting = false → chars u.items ⊆ others) :
    DraftInDoc (p.transact (.editor p.replicator.editor) u) drafting others := by
  have heditor : drafting = false → chars (p.editorDoc.apply u).items ⊆ others := by
    intro hd
    rw [chars_apply]
    exact append_subset.2 ⟨h.editor hd, hu hd⟩
  have hwired := h.wired
  simp only [h.wired.transact_editor]
  split
  · refine ⟨{ hwired with }, h.unborn_update _, h.sync, fun hd => ?_, h.closed⟩
    simpa only [editorDoc, update_self] using heditor hd
  · rename_i hmirrored
    -- the gate is open, so nothing is being drafted
    have hd : drafting = false := h.closed (by simpa using (not_or.1 hmirrored).1)
    refine ⟨{ hwired with }, h.unborn_update _, ?_, fun hd => ?_, h.closed⟩
    · rw [chars_apply]
      exact append_subset.2 ⟨h.sync, List.Subset.trans (chars_change_subset _ _) (heditor hd)⟩
    · simpa only [editorDoc, update_self] using heditor hd

lemma editorDoc_reset : p.resetEditorDoc.editorDoc =
      (Doc.started (p.editorDocs (p.replicator.editor + 1)).client []).apply
        p.syncDoc.asUpdate := by
  rw [h.wired.resetEditorDoc_eq, ← h.unborn _ (Nat.lt_succ_self _)]
  simp [editorDoc]

end

lemma text_editorDoc_reset {P : Type} [LinearOrder P] (order : DocOrder K P)
    (h : DraftInDoc p drafting others) :
    p.resetEditorDoc.editorDoc.text order = p.syncDoc.text order := by
  rw [h.editorDoc_reset]
  apply Doc.text_eq_of_mem_iff <;> simp [Doc.asUpdate]

lemma reset (h : DraftInDoc p drafting others) : DraftInDoc p.resetEditorDoc false others := by
  have heditor := h.editorDoc_reset
  have hwired := h.wired
  rw [h.wired.resetEditorDoc_eq] at heditor ⊢
  refine ⟨⟨fun r hr => ?_, rfl, rfl⟩, fun n hn => ?_, h.sync, fun _ => ?_, fun _ => rfl⟩
  · rcases mem_snoc.1 hr with hr | rfl
    · exact hwired.replaced r hr
    · rfl
  · simp only [update_of_ne (ne_of_gt hn)]
    exact h.unborn n (Nat.lt_of_succ_lt hn)
  · rw [heditor, chars_apply]
    simpa [chars, Doc.asUpdate] using h.sync

end DraftInDoc

/-! ## The session -/

/-- What is posted of a suggestion, apart from the note that goes with it. -/
def SuggestionPayload.texts (p : SuggestionPayload K) : List (List K) :=
  p.anchor.quotedText :: p.view.beforeText :: p.view.afterText ::
    p.view.operations.filterMap (·.insertedText)

/-- The character is in `syncDoc`, from where it goes to the relay, or was posted. -/
def Disclosed (s : EditorCore K) (c : K) : Prop :=
  c ∈ chars s.provider.syncDoc.items ∨ (∃ v ∈ s.versions, c ∈ v) ∨
    ∃ p ∈ s.submitted, ∃ t ∈ p.texts, c ∈ t

instance [DecidableEq K] (s : EditorCore K) (c : K) : Decidable (Disclosed s c) :=
  inferInstanceAs (Decidable (_ ∨ _ ∨ _))

def DraftsSecret (s : EditorCore K) : Prop :=
  ∀ c ∈ s.history.drafts, c ∉ s.history.others → ¬ Disclosed s c

instance [DecidableEq K] (s : EditorCore K) : Decidable (DraftsSecret s) :=
  inferInstanceAs (Decidable (∀ c ∈ s.history.drafts, _ → _))

lemma chars_subset_of_writes {P : Type} [LinearOrder P] [DecidableEq K] {order : DocOrder K P}
    {d : Doc K} {target inserted : List K} {u : Update K} (h : Writes order d target inserted u) :
    chars u.items ⊆ inserted := by
  intro c hc
  obtain ⟨o, ho, hcontent⟩ := mem_chars.1 hc
  exact h.chars o ho c hcontent

lemma insertedText_toOperationSummaries [DecidableEq K] {before after : List K}
    {anchor : CommentAnchor K} {op : OperationSummary K}
    (hop : op ∈ toOperationSummaries before after anchor) {t : List K}
    (ht : op.insertedText = some t) : t = after := by
  rw [toOperationSummaries] at hop
  split_ifs at hop <;> simp_all

lemma texts_buildSuggestion_subset [DecidableEq K] {note : Option (List K)}
    {base draft others t : List K} (hbase : base ⊆ others)
    (ht : t ∈ (buildSuggestion note base draft).texts) :
    t ⊆ others ++ (buildSuggestion note base draft).view.afterText := by
  have hslice : ∀ start stop, slice base start stop ⊆
      others ++ (buildSuggestion note base draft).view.afterText := fun start stop =>
    List.Subset.trans (slice_subset base start stop)
      (List.Subset.trans hbase (subset_append_left _ _))
  simp only [SuggestionPayload.texts, mem_cons, mem_filterMap] at ht
  rcases ht with rfl | rfl | rfl | ⟨op, hop, ht⟩
  · exact hslice _ _
  · exact hslice _ _
  · exact subset_append_right _ _
  · rw [insertedText_toOperationSummaries hop ht]
    exact subset_append_right _ _

section

variable {P : Type} [LinearOrder P] [DecidableEq K]

/-- A version is taken only of what `syncDoc` holds as well; Suggest Mode is entered, or left as
it is, with nothing drafted; and a draft is taken back only if there is a text to put in its
place. -/
def DraftGuarded (order : DocOrder K P) (s : EditorCore K) : EditorCall K → Prop
  | .snapshot => ∀ c ∈ (s.provider.editorDocs 0).text order, c ∈ chars s.provider.syncDoc.items
  | .enable => s.textAtEnable = none → s.history.drafting = false
  | .disable => s.textAtEnable.isSome → s.history.drafting = false
  | .rebase => s.history.drafting = false
  | .resetEditorDoc | .discard | .commit _ => s.history.drafting = true → s.syncText order ≠ []
  | .type _ | .fireTimer _ | .wire _ | .closeOutbound | .preview .. | .accept .. => True

instance (order : DocOrder K P) (s : EditorCore K) (a : EditorCall K) :
    Decidable (DraftGuarded order s a) := by
  rcases a with ⟨⟩ <;> dsimp only [DraftGuarded] <;> infer_instance

end

section

structure SecrecyInv (s : EditorCore K) : Prop where
  docs : DraftInDoc s.provider s.history.drafting s.history.others
  shown : s.history.drafting = false → s.shown ⊆ s.history.others
  baseline : ∀ text ∈ s.textAtEnable, text ⊆ s.history.others
  versions : ∀ v ∈ s.versions, v ⊆ s.history.others
  submitted : ∀ p ∈ s.submitted, ∀ t ∈ p.texts, t ⊆ s.history.others

lemma SecrecyInv.draftsSecret {s : EditorCore K} (h : SecrecyInv s) : DraftsSecret s := by
  intro c _ hother hdisclosed
  rcases hdisclosed with hsync | ⟨v, hv, hc⟩ | ⟨p, hp, t, ht, hc⟩
  · exact hother (h.docs.sync hsync)
  · exact hother (h.versions v hv hc)
  · exact hother (h.submitted p hp t ht hc)

lemma secrecyInv_initial (ids : ClientIds) : SecrecyInv (.initial ids : EditorCore K) := by
  have hdocs := docInv_initial (K := K) ids
  refine ⟨⟨hdocs.wired, fun _ _ => rfl, ?_, fun _ => ?_, fun _ => rfl⟩, fun _ => ?_, ?_, ?_, ?_⟩
  all_goals simp [EditorCore.initial, CollaborationProvider.initial,
    CollaborationProvider.editorDoc, chars]

variable {s : EditorCore K}

lemma SecrecyInv.mono (h : SecrecyInv s) {history : History K}
    (hdrafting : history.drafting = s.history.drafting)
    (hothers : s.history.others ⊆ history.others) : SecrecyInv { s with history } := by
  refine ⟨?_, ?_, ?_, ?_, ?_⟩
  · rw [hdrafting]
    exact h.docs.mono hothers
  · intro hd
    exact List.Subset.trans (h.shown (hdrafting.symm.trans hd)) hothers
  · exact fun text htext => List.Subset.trans (h.baseline text htext) hothers
  · exact fun v hv => List.Subset.trans (h.versions v hv) hothers
  · exact fun p hp text htext => List.Subset.trans (h.submitted p hp text htext) hothers

lemma SecrecyInv.withProvider (h : SecrecyInv s) {p : CollaborationProvider K}
    (hdocs : DraftInDoc p s.history.drafting s.history.others) :
    SecrecyInv { s with provider := p } :=
  { h with docs := hdocs }

lemma SecrecyInv.released (h : SecrecyInv s) (arrived : List K) :
    SecrecyInv { s with history := s.history.released arrived } :=
  h.mono rfl (subset_append_left _ _)

lemma EditorCore.history_disable (s : EditorCore K) : s.disable.history = s.history := by
  rw [disable]
  split <;> rfl

lemma SecrecyInv.disable (h : SecrecyInv s)
    (hok : s.textAtEnable.isSome → s.history.drafting = false) : SecrecyInv s.disable := by
  rw [EditorCore.disable]
  split
  · rename_i htext
    have hd := hok (by simp [htext])
    refine { h with docs := ?_, baseline := by simp }
    have hdocs := h.docs
    rw [EditorCore.setOutbound]
    rw [hd] at hdocs ⊢
    exact hdocs.setOutbound true
  · exact h

variable {P : Type} [LinearOrder P] [DecidableEq K] {order : DocOrder K P}

lemma SecrecyInv.observe (h : SecrecyInv s) (before : Doc K) :
    SecrecyInv (s.observe order before) := by
  rw [EditorCore.observe, EditorCore.applyYTextToEditor]
  split_ifs
  · exact h
  · exact h
  · refine { h with shown := fun hd => ?_ }
    exact List.Subset.trans (text_subset_chars order _) (h.docs.editor hd)

lemma History.shared_others (h : History K) (before after : List K) :
    (h.shared before after).others = h.others := by
  rw [History.shared]
  split <;> rfl

lemma History.shared_drafting (h : History K) (before after : List K) :
    (h.shared before after).drafting = h.drafting := by
  rw [History.shared]
  split <;> rfl

section

variable (h : SecrecyInv s)
include h

lemma SecrecyInv.transactSync {u : Update K} {arrived : List K} (hu : chars u.items ⊆ arrived) :
    SecrecyInv (s.transactSync order u arrived) := by
  have hmore := h.mono (History.shared_drafting (s.history.released arrived) (s.syncText order)
      ((s.provider.transact .sync u).syncDoc.text order)) (by
    rw [History.shared_others]
    exact subset_append_left _ _)
  apply SecrecyInv.observe
  refine hmore.withProvider (hmore.docs.transact_sync ?_)
  rw [History.shared_others]
  exact List.Subset.trans hu (subset_append_right _ _)

lemma SecrecyInv.reset (hok : s.history.drafting = true → s.syncText order ≠ []) :
    SecrecyInv (s.resetEditorDoc order) := by
  have hdocs : DraftInDoc s.provider.resetEditorDoc false s.history.others := h.docs.reset
  have hshown : (s.resetEditorDoc order).shown ⊆ s.history.others := by
    rw [EditorCore.resetEditorDoc, EditorCore.shown_retargetYText]
    split
    · rename_i hempty
      apply h.shown
      by_contra hdrafting
      apply hok (Bool.eq_true_of_not_eq_false hdrafting)
      rw [EditorCore.syncText, ← h.docs.text_editorDoc_reset order]
      exact hempty
    · exact List.Subset.trans (text_subset_chars order _) (hdocs.editor rfl)
  obtain ⟨shown, lastApplied, heq⟩ := s.resetEditorDoc_eq order
  rw [heq] at hshown ⊢
  exact { h with docs := hdocs, shown := fun _ => hshown }

lemma SecrecyInv.discarded (hok : s.history.drafting = true → s.syncText order ≠ []) :
    SecrecyInv (s.resetEditorDoc order).disable :=
  (h.reset hok).disable fun _ => by rw [history_resetEditorDoc]; rfl

lemma SecrecyInv.commit (note : Option (List K))
    (hok : s.history.drafting = true → s.syncText order ≠ []) :
    SecrecyInv (s.commitPendingSuggestion order note) := by
  rw [commitPendingSuggestion]
  split
  · exact h
  · rename_i text htext
    split
    · exact h
    · have hdone := (h.discarded hok).released (buildSuggestion note text s.shown).view.afterText
      refine { hdone with submitted := fun p hp t ht => ?_ }
      rcases mem_snoc.1 hp with hp | rfl
      · exact hdone.submitted p hp t ht
      · apply texts_buildSuggestion_subset _ ht
        rw [history_disable, history_resetEditorDoc]
        exact h.baseline text htext

end

variable {ids : ClientIds} {t : EditorCore K}

section

variable (h : SecrecyInv s)
include h

lemma SecrecyInv.type {text : List K} (hs : callStep order ids s (.type text) = some t) :
    SecrecyInv t := by
  obtain rfl := callStep_type hs
  cases hopen : s.outboundOpen with
  | true =>
    have hd := h.docs.closed hopen
    have hmore : SecrecyInv { s with history := s.history.typed true s.shown text } :=
      h.mono rfl (subset_append_left _ _)
    refine { hmore with shown := fun _ c hc => ?_ }
    by_cases hold : c ∈ s.shown
    · exact mem_append_left _ (h.shown hd hold)
    · exact mem_append_right _ (mem_filter.2 ⟨hc, by simpa using hold⟩)
  | false =>
    have hdocs := h.docs
    refine { h with
      docs := ⟨hdocs.wired, hdocs.unborn, hdocs.sync, nofun, fun hopen' => ?_⟩
      shown := nofun }
    exact absurd (hopen.symm.trans hopen') (by simp)

lemma SecrecyInv.fireTimer {u : Update K} (hs : callStep order ids s (.fireTimer u) = some t) :
    SecrecyInv t := by
  obtain ⟨-, ⟨-, rfl⟩ | ⟨hwrites, rfl⟩⟩ := callStep_fireTimer hs
  · exact { h with }
  · refine { h with docs := h.docs.transact_editor fun hd => ?_ }
    exact List.Subset.trans (chars_subset_of_writes hwrites) (h.shown hd)

lemma SecrecyInv.preview {r : Replacement K} {u : Update K}
    (hs : callStep order ids s (.preview r u) = some t) : SecrecyInv t := by
  have hmore := h.released r.afterText
  rcases callStep_preview hs with ⟨hwrites, rfl⟩ | rfl
  · apply SecrecyInv.observe
    refine hmore.withProvider (hmore.docs.transact_editor fun _ => ?_)
    exact List.Subset.trans (chars_subset_of_writes hwrites) (subset_append_right _ _)
  · exact hmore

lemma secrecyInv_call {a : EditorCall K} (hok : DraftGuarded order s a)
    (hs : callStep order ids s a = some t) : SecrecyInv t := by
  cases a with
  | type text => exact h.type hs
  | fireTimer u => exact h.fireTimer hs
  | wire u =>
    obtain ⟨-, rfl⟩ := callStep_wire hs
    exact h.transactSync (List.Subset.refl _)
  | resetEditorDoc =>
    cases hs
    exact h.reset hok
  | closeOutbound =>
    cases hs
    exact h.withProvider h.docs.closeOutbound
  | enable =>
    cases hs
    rw [EditorCore.enable]
    split
    · exact h
    · rename_i htext
      refine { h with docs := h.docs.closeOutbound, baseline := fun text htext' => ?_ }
      cases htext'
      exact h.shown (hok htext)
  | disable =>
    cases hs
    exact h.disable hok
  | discard =>
    cases hs
    rw [EditorCore.discard]
    split
    · exact h.discarded hok
    · exact h
  | commit note =>
    cases hs
    exact h.commit note hok
  | preview r u => exact h.preview hs
  | accept r u =>
    rcases callStep_accept hs with ⟨hwrites, rfl⟩ | rfl
    · exact h.transactSync (chars_subset_of_writes hwrites)
    · exact h.released _
  | rebase =>
    cases hs
    refine { h with baseline := fun text htext => ?_ }
    obtain ⟨_, _, rfl⟩ := Option.map_eq_some_iff.1 htext
    exact h.shown hok
  | snapshot =>
    cases hs
    refine { h with versions := fun v hv => ?_ }
    rcases mem_snoc.1 hv with hv | rfl
    · exact h.versions v hv
    · exact fun c hc => h.docs.sync (hok c hc)

end

/-- No character of a draft leaves the client in a run whose calls are all guarded. -/
theorem drafts_secret_of_draftGuarded {s : MultiEditor K}
    (hrun : Run (eventStep order ids) (CallsMeet order ids (DraftGuarded order)) (.initial ids) s) :
    DraftsSecret s.core := by
  have hinv := (run_calls_of_run hrun).invariant (P := SecrecyInv) (secrecyInv_initial ids)
    fun _ _ _ h hok hs => secrecyInv_call h hok hs
  exact hinv.draftsSecret

end

theorem drafts_secret_draftDiscarded :
    ∃ s, Run (eventStep .byId evenIds) (CallsMeet .byId evenIds (DraftGuarded .byId))
        (.initial evenIds) s ∧ 0x62 ∈ s.core.history.drafts ∧ 0x62 ∉ s.core.history.others ∧
      DraftsSecret s.core :=
  exists_run_imp draftDiscarded
    (P := fun s => 0x62 ∈ s.core.history.drafts ∧ 0x62 ∉ s.core.history.others) (by decide +kernel)
    fun _ hrun ⟨hdraft, hother⟩ => ⟨hdraft, hother, drafts_secret_of_draftGuarded hrun⟩

def versionOfDraft : List (EditorEvent Nat) :=
  [.type [0x61], .timer ⟨[⟨2, 0, [], some 0x61⟩], []⟩, .suggestOn, .type [0x61, 0x62],
    .timer ⟨[⟨2, 1, [(2, 0)], some 0x62⟩], []⟩, .snapshot]

def draftOnEmptyText : List (EditorEvent Nat) :=
  [.suggestOn, .type [0x62], .timer ⟨[⟨2, 0, [], some 0x62⟩], []⟩, .discard, .suggestOff false,
    .type [0x62, 0x63],
    .timer ⟨[⟨4, 0, [], some 0x62⟩, ⟨4, 1, [(4, 0)], some 0x63⟩], []⟩]

/-- The version manager reads `editorDoc` whatever the gate says; and a draft on an empty document
stays in the editor when it is reset. -/
theorem draft_posted_and_draft_kept :
    (∃ s : MultiEditor Nat, Run (eventStep .byId evenIds) anyStep (.initial evenIds) s ∧
      s.core.submitted = [] ∧ s.core.versions = [[0x61, 0x62]] ∧ ¬ DraftsSecret s.core) ∧
    ∃ s : MultiEditor Nat, Run (eventStep .byId evenIds) anyStep (.initial evenIds) s ∧
      s.core.submitted = [] ∧ s.core.syncText .byId = [0x62, 0x63] ∧ ¬ DraftsSecret s.core :=
  ⟨exists_run versionOfDraft (by decide +kernel), exists_run draftOnEmptyText (by decide +kernel)⟩

end CollabEditor.Frontend
