import CollabEditor.Frontend.FeatureModes
/-!
# Modes, gate and preview agree

A preview is shown only for the open thread and with the gate closed, the suggest engine is enabled
in Suggest Mode only, and otherwise the gate is open.  This is kept until the previewed thread is
deleted.
-/

namespace CollabEditor.Frontend

open Support Execution CausalOps SharedText List Option EditorCore FeatureUi

variable {K : Type}

/-! ## Calls, the gate and the suggest engine -/

namespace CollaborationProvider

@[simp] lemma replicator_setDoc (s : CollaborationProvider K) (name : DocName) (d : Doc K) :
    (s.setDoc name d).replicator = s.replicator := by
  cases name <;> rfl

variable [DecidableEq K]

@[simp] lemma outboundOpen_transact (s : CollaborationProvider K) (name : DocName) (u : Update K) :
    (s.transact name u).replicator.outboundOpen = s.replicator.outboundOpen := by
  have hkept : (s.transact name u).replicator = s.replicator :=
    applyUpdate_invariant (Q := fun t => t.replicator = s.replicator)
      (fun t name _ ht => (t.replicator_setDoc name _).trans ht) (fun _ _ _ ht => ht)
      s.listeners callDepth rfl name u .other
  rw [hkept]

end CollaborationProvider

namespace EditorCore

def enabled (s : EditorCore K) : Bool := s.textAtEnable.isSome

def SameControl (s t : EditorCore K) : Prop :=
  t.outboundOpen = s.outboundOpen ∧ t.enabled = s.enabled

section

variable {s : EditorCore K}

@[simp] lemma enabled_enable (text : List K) : (s.enable text).enabled = true := by
  rw [enable]
  split <;> simp_all [enabled]

@[simp] lemma outboundOpen_enable (text : List K) :
    (s.enable text).outboundOpen = (s.enabled && s.outboundOpen) := by
  rw [enable, enabled]
  split <;> simp_all [outboundOpen, setOutbound, CollaborationProvider.setOutbound]

@[simp] lemma enabled_disable : s.disable.enabled = false := by
  rw [disable]
  split <;> simp_all [enabled]

@[simp] lemma outboundOpen_disable : s.disable.outboundOpen = (s.enabled || s.outboundOpen) := by
  rw [disable, enabled]
  split <;> simp_all [outboundOpen, setOutbound, CollaborationProvider.setOutbound]

end

section

variable {P : Type} [LinearOrder P] [DecidableEq K] {order : DocOrder K P} {ids : ClientIds}
  {s t : EditorCore K}

@[simp] lemma enabled_resetEditorDoc : (s.resetEditorDoc order).enabled = s.enabled := by
  obtain ⟨shown, lastApplied, hreset⟩ := s.resetEditorDoc_eq order
  rw [hreset]
  rfl

@[simp] lemma outboundOpen_resetEditorDoc : (s.resetEditorDoc order).outboundOpen = true := by
  rw [outboundOpen, provider_resetEditorDoc]
  rfl

@[simp] lemma enabled_discard : (s.discard order).enabled = false := by
  rw [discard]
  split
  · exact enabled_disable
  · simp_all [enabled]

@[simp] lemma outboundOpen_discard :
    (s.discard order).outboundOpen = (s.enabled || s.outboundOpen) := by
  rw [discard, enabled]
  split <;> simp_all

lemma enabled_of_hasPendingChanges (h : s.hasPendingChanges = true) : s.enabled = true := by
  rw [hasPendingChanges] at h
  rw [enabled]
  split at h <;> simp_all

lemma commitPendingSuggestion_control (h : s.hasPendingChanges = true) (note : Option (List K)) :
    (s.commitPendingSuggestion order note).outboundOpen = true ∧
      (s.commitPendingSuggestion order note).enabled = false := by
  rw [hasPendingChanges] at h
  rw [commitPendingSuggestion]
  split at h
  · rename_i text htext
    simp only [htext, of_decide_eq_true h, if_false]
    have hopen := outboundOpen_disable (s := s.resetEditorDoc order)
    rw [outboundOpen_resetEditorDoc, Bool.or_true] at hopen
    exact ⟨hopen, enabled_disable (s := s.resetEditorDoc order)⟩
  · cases h

lemma sameControl_observe (before : Doc K) (hs : SameControl t s) :
    SameControl t (s.observe order before) := by
  simp only [SameControl, observe, applyYTextToEditor] at hs ⊢
  split_ifs <;> exact hs

lemma sameControl_of_callStep {a : EditorCall K} (hs : callStep order ids s a = some t)
    (ha : (∃ text, a = .type text) ∨ (∃ u, a = .fireTimer u) ∨ (∃ u, a = .wire u) ∨
      (∃ r u, a = .preview r u) ∨ (∃ r u, a = .accept r u) ∨ a = .rebase) : SameControl s t := by
  have hsync (u : Update K) (arrived : List K) : SameControl s (s.transactSync order u arrived) :=
    sameControl_observe _ ⟨by simp [outboundOpen], rfl⟩
  rcases ha with ⟨text, rfl⟩ | ⟨u, rfl⟩ | ⟨u, rfl⟩ | ⟨r, u, rfl⟩ | ⟨r, u, rfl⟩ | rfl
  · obtain rfl := callStep_type hs
    exact ⟨rfl, rfl⟩
  · obtain ⟨-, ⟨-, rfl⟩ | ⟨-, rfl⟩⟩ := callStep_fireTimer hs
    · exact ⟨rfl, rfl⟩
    · exact ⟨by simp [outboundOpen], rfl⟩
  · obtain ⟨-, rfl⟩ := callStep_wire hs
    exact hsync u _
  · obtain ⟨-, rfl⟩ | rfl := callStep_preview hs
    · exact sameControl_observe _ ⟨by simp [outboundOpen], rfl⟩
    · exact ⟨rfl, rfl⟩
  · obtain ⟨-, rfl⟩ | rfl := callStep_accept hs
    · exact hsync u _
    · exact ⟨rfl, rfl⟩
  · cases hs
    exact ⟨rfl, by simp [rebase, enabled]⟩

end

end EditorCore

/-! ## Handlers -/

namespace Handled

variable {P : Type} [LinearOrder P] [DecidableEq K] (order : DocOrder K P) (ids : ClientIds)

def Leaves (core : EditorCore K) (h : Handled K) (Q : FeatureUi → EditorCore K → Prop) : Prop :=
  ∀ core', exec (callStep order ids) anyStep core h.2 = some core' → Q h.1 core'

variable {order ids} {core : EditorCore K} {Q R : FeatureUi → EditorCore K → Prop}

lemma Leaves.pure {ui : FeatureUi} (h : Q ui core) : Leaves order ids core (ui, []) Q := by
  intro core' hexec
  cases hexec
  exact h

lemma Leaves.andThen {h : Handled K} {next : FeatureUi → Handled K}
    (hfirst : Leaves order ids core h Q)
    (hnext : ∀ mid, Q h.1 mid → Leaves order ids mid (next h.1) R) :
    Leaves order ids core (h.andThen next) R := by
  intro core' hexec
  rw [Handled.andThen, exec_append, bind_eq_some_iff] at hexec
  obtain ⟨mid, hmid, hrest⟩ := hexec
  exact hnext mid (hfirst mid hmid) core' hrest

end Handled

namespace FeatureUi

@[simp] lemma previewing_endSuggestionPreview (ui : FeatureUi) :
    (ui.endSuggestionPreview (K := K)).1.previewing = none := by
  rw [endSuggestionPreview]
  split <;> simp_all

@[simp] lemma mode_endSuggestionPreview (ui : FeatureUi) :
    (ui.endSuggestionPreview (K := K)).1.mode = ui.mode := by
  rw [endSuggestionPreview]
  split <;> rfl

@[simp] lemma threads_endSuggestionPreview (ui : FeatureUi) :
    (ui.endSuggestionPreview (K := K)).1.threads = ui.threads := by
  rw [endSuggestionPreview]
  split <;> rfl

@[simp] lemma mode_activateFeatureMode (ui : FeatureUi) (mode : FeatureMode) :
    (ui.activateFeatureMode (K := K) mode).1.mode = mode := by
  rw [activateFeatureMode]
  split_ifs with hmode
  · exact hmode
  · split <;> simp

@[simp] lemma threads_activateFeatureMode (ui : FeatureUi) (mode : FeatureMode) :
    (ui.activateFeatureMode (K := K) mode).1.threads = ui.threads := by
  rw [activateFeatureMode]
  split_ifs
  · rfl
  · split <;> simp

lemma mem_of_mem_onThreadsChange {ui : FeatureUi} {threads : List ThreadInfo}
    {thread : ThreadInfo} (h : thread ∈ (ui.onThreadsChange threads).activeThread) :
    thread ∈ threads := by
  obtain ⟨old, -, hfresh⟩ := mem_bind_iff.1 h
  exact mem_of_find?_eq_some hfresh

end FeatureUi

structure FeatureInv (ui : FeatureUi) (core : EditorCore K) : Prop where
  preview : ∀ id ∈ ui.previewing,
    ui.mode = .comments ∧ (∃ t ∈ ui.activeThread, t.id = id) ∧ core.outboundOpen = false
  enabled : core.enabled = decide (ui.mode = .suggest)
  gate : ui.previewing = none → core.outboundOpen = decide (ui.mode ≠ .suggest)
  writable : ui.previewing = none → ui.bindingReadonly = ui.readonly
  listed : ∀ t ∈ ui.activeThread, t ∈ ui.threads

namespace FeatureInv

variable {ui : FeatureUi} {core core' : EditorCore K}

section

variable (h : FeatureInv ui core)
include h

lemma panels {drafting noteModalOpen commentsListOpen suggestionsListOpen : Bool} :
    FeatureInv { ui with
      drafting := drafting
      noteModalOpen := noteModalOpen
      commentsListOpen := commentsListOpen
      suggestionsListOpen := suggestionsListOpen } core :=
  { h with }

lemma of_sameControl (hsame : core.SameControl core') : FeatureInv ui core' where
  preview := by rw [hsame.1]; exact h.preview
  enabled := by rw [hsame.2]; exact h.enabled
  gate := by rw [hsame.1]; exact h.gate
  writable := h.writable
  listed := h.listed

lemma previewing_none (hmode : ui.mode ≠ .comments) : ui.previewing = none :=
  eq_none_iff_forall_not_mem.2 fun id hid => hmode (h.preview id hid).1

lemma onThreadsChange {threads : List ThreadInfo}
    (hstays : ∀ id ∈ ui.previewing, ∃ t ∈ threads, t.id = id) :
    FeatureInv (ui.onThreadsChange threads) core where
  preview := by
    intro id hid
    obtain ⟨hmode, ⟨t, ht, htid⟩, hclosed⟩ := h.preview id hid
    obtain ⟨kept, hkept, hkeptId⟩ := hstays id hid
    have hfound : (threads.find? fun fresh => fresh.id = t.id).isSome := by
      rw [find?_isSome]
      exact ⟨kept, hkept, by simp [hkeptId, htid]⟩
    obtain ⟨fresh, hfresh⟩ := isSome_iff_exists.1 hfound
    have hfreshId : fresh.id = t.id := by simpa using find?_some hfresh
    exact ⟨hmode, ⟨fresh, mem_bind_iff.2 ⟨t, ht, hfresh⟩, hfreshId.trans htid⟩, hclosed⟩
  enabled := h.enabled
  gate := h.gate
  writable := h.writable
  listed := by
    exact fun t ht => mem_of_mem_onThreadsChange ht

lemma onThreadsChange_of_ids {threads : List ThreadInfo}
    (hids : ∀ t ∈ ui.threads, ∃ t' ∈ threads, t'.id = t.id) :
    FeatureInv (ui.onThreadsChange threads) core := by
  refine h.onThreadsChange fun id hid => ?_
  obtain ⟨-, ⟨t, ht, rfl⟩, -⟩ := h.preview id hid
  exact hids t (h.listed t ht)

lemma decideSuggestion (id : Nat) (decision : SuggestionStatus) :
    FeatureInv (ui.decideSuggestion id decision) core := by
  refine h.onThreadsChange_of_ids fun t ht => ⟨_, mem_map_of_mem ht, ?_⟩
  split <;> rfl

lemma maybeExitCommentsMode : FeatureInv ui.maybeExitCommentsMode core := by
  rw [FeatureUi.maybeExitCommentsMode]
  split_ifs with hexit
  · obtain ⟨hmode, hactive, -, -⟩ := hexit
    have hnone : ui.previewing = none := eq_none_iff_forall_not_mem.2 fun id hid => by
      obtain ⟨-, ⟨t, ht, -⟩, -⟩ := h.preview id hid
      rw [hactive] at ht
      cases ht
    exact { h with
      preview := by simp [hnone]
      enabled := by simpa [hmode] using h.enabled
      gate := by simpa [hmode] using h.gate }
  · exact h

lemma switch (hprev : ui.previewing = none) {mode : FeatureMode}
    (hopen : core'.outboundOpen = decide (mode ≠ .suggest))
    (henabled : core'.enabled = decide (mode = .suggest)) :
    FeatureInv { ui with mode := mode } core' where
  preview := by simp [hprev]
  enabled := henabled
  gate := fun _ => hopen
  writable := h.writable
  listed := h.listed

lemma reenable (hmode : ui.mode = .suggest)
    (hcontrol : (core'.enabled && core'.outboundOpen) = false) (text : List K) :
    FeatureInv ui (core'.enable text) := by
  have hprev := h.previewing_none (by simp [hmode])
  have hswitch : FeatureInv { ui with mode := .suggest } (core'.enable text) :=
    h.switch hprev (by simpa using hcontrol) (by simp)
  rwa [← hmode] at hswitch

end

section

variable {P : Type} [LinearOrder P] [DecidableEq K] {order : DocOrder K P} {ids : ClientIds}
  (h : FeatureInv ui core)
include h

lemma endSuggestionPreview :
    Handled.Leaves order ids core ui.endSuggestionPreview FeatureInv := by
  intro core' hexec
  rw [FeatureUi.endSuggestionPreview] at hexec ⊢
  cases hprev : ui.previewing with
  | none =>
    simp only [hprev] at hexec ⊢
    cases hexec
    exact h
  | some id =>
    have hmode := (h.preview id hprev).1
    simp only [hprev, hmode, reduceCtorEq, if_false] at hexec ⊢
    cases hexec
    exact { h with
      preview := by simp
      enabled := by simpa [hmode] using h.enabled
      gate := by simp
      writable := fun _ => rfl }

/-- On the way into a mode the preview is ended and what the last mode held is discarded. Into
Suggest Mode the end of a preview already enables the engine. -/
lemma activateFeatureMode_of_ne {mode : FeatureMode} (hmode : ui.mode ≠ mode) :
    Handled.Leaves order ids core (ui.activateFeatureMode mode) fun ui' core' =>
      ui'.previewing = none ∧ ui'.bindingReadonly = ui'.readonly ∧
        (∀ t ∈ ui'.activeThread, t ∈ ui'.threads) ∧
        if mode = .suggest then (core'.enabled && core'.outboundOpen) = false
        else core'.outboundOpen = true ∧ core'.enabled = false := by
  intro core' hexec
  have henabled := h.enabled
  simp only [FeatureUi.activateFeatureMode, hmode, if_false] at hexec ⊢
  cases hui : ui.mode with
  | comments =>
    simp only [hui, FeatureUi.endSuggestionPreview] at hexec henabled ⊢
    cases hprev : ui.previewing with
    | none =>
      simp only [hprev] at hexec ⊢
      cases hexec
      have hgate := h.gate hprev
      refine ⟨trivial, h.writable hprev, by simp, ?_⟩
      split_ifs <;> simp_all
    | some id =>
      simp only [hprev] at hexec ⊢
      refine ⟨trivial, trivial, by simp, ?_⟩
      split_ifs at hexec ⊢ <;> obtain rfl := Option.some.inj hexec <;> simp_all
  | _ =>
    have hprev := h.previewing_none (by simp [hui])
    have hgate := h.gate hprev
    simp only [hui] at hexec ⊢
    cases hexec
    refine ⟨hprev, h.writable hprev, h.listed, ?_⟩
    split_ifs <;> simp_all

lemma activateFeatureMode {mode : FeatureMode} (hmode : mode ≠ .suggest) :
    Handled.Leaves order ids core (ui.activateFeatureMode mode) FeatureInv := by
  intro core' hexec
  by_cases hsame : ui.mode = mode
  · simp only [FeatureUi.activateFeatureMode, hsame, if_true] at hexec ⊢
    cases hexec
    exact h
  · obtain ⟨hprev, hwritable, hlisted, hcontrol⟩ := h.activateFeatureMode_of_ne hsame core' hexec
    rw [if_neg hmode] at hcontrol
    exact
      { preview := by simp [hprev]
        enabled := by simp [hcontrol.2, hmode]
        gate := by simp [hcontrol.1, hmode]
        writable := fun _ => hwritable
        listed := hlisted }

lemma closeThread : Handled.Leaves order ids core ui.closeThread FeatureInv := by
  intro core' hexec
  simp only [FeatureUi.closeThread, Handled.andThen, append_nil] at hexec ⊢
  have hended := h.endSuggestionPreview core' hexec
  exact maybeExitCommentsMode { hended with
    preview := by simp
    listed := by simp }

lemma openThread_inComments {thread : ThreadInfo} (hmode : ui.mode = .comments)
    (hthread : thread ∈ ui.threads) (hprev : ui.previewing = none ∨ ui.previewing = some thread.id)
    (anchor : Option (Replacement K)) (u : Update K) :
    Handled.Leaves order ids core
      (let ui := { ui with activeThread := some thread }
        if thread.suggestion = some .pending ∧ ui.previewing ≠ some thread.id then
          ui.startSuggestionPreview thread.id anchor u
        else (ui, [])) FeatureInv := by
  intro core' hexec
  have hopened : FeatureInv { ui with activeThread := some thread } core :=
    { h with
      preview := by
        intro id hid
        obtain rfl : thread.id = id := by
          rcases hprev with hnone | hsome
          · cases hnone.symm.trans hid
          · exact mem_unique hsome hid
        exact ⟨hmode, ⟨thread, rfl, rfl⟩, (h.preview _ hid).2.2⟩
      listed := by
        rintro t ⟨⟩
        exact hthread }
  cases anchor with
  | none =>
    simp only [startSuggestionPreview, ite_self] at hexec ⊢
    cases hexec
    exact hopened
  | some r =>
    simp only [startSuggestionPreview] at hexec ⊢
    split_ifs at hexec ⊢ with hpending
    · obtain ⟨last, hlast, ⟨⟩⟩ := bind_eq_some_iff.1 hexec
      have hsame := sameControl_of_callStep hlast (.inr (.inr (.inr (.inl ⟨r, u, rfl⟩))))
      exact
        { preview := by
            rintro id ⟨⟩
            exact ⟨hmode, ⟨thread, rfl, rfl⟩, hsame.1⟩
          enabled := hsame.2.trans h.enabled
          gate := by simp
          writable := by simp
          listed := hopened.listed }
    · cases hexec
      exact hopened

lemma openThread {thread : ThreadInfo} (hthread : thread ∈ ui.threads)
    (anchor : Option (Replacement K)) (u : Update K) :
    Handled.Leaves order ids core (ui.openThread thread anchor u) FeatureInv := by
  refine Handled.Leaves.andThen (h.activateFeatureMode (by simp)) fun mid h => ?_
  have hthread : thread ∈ (ui.activateFeatureMode (K := K) .comments).1.threads := by simpa
  have hmode := ui.mode_activateFeatureMode (K := K) .comments
  generalize (ui.activateFeatureMode (K := K) .comments).1 = ui at h hthread hmode ⊢
  split_ifs with hprev
  · refine Handled.Leaves.andThen (h := (ui, [])) (.pure h) fun mid h => ?_
    exact h.openThread_inComments hmode hthread (.inr hprev) anchor u
  · refine Handled.Leaves.andThen h.endSuggestionPreview fun mid h => ?_
    exact h.openThread_inComments (by simpa) (by simpa) (.inl (by simp)) anchor u

lemma listToggle {isOpen : Bool} {closeList openList : FeatureUi → FeatureUi}
    (hclose : ∀ {ui core}, FeatureInv ui core → FeatureInv (K := K) (closeList ui) core)
    (hopen : ∀ {ui core}, FeatureInv ui core → FeatureInv (K := K) (openList ui) core) :
    Handled.Leaves order ids core (ui.listToggle isOpen closeList openList) FeatureInv := by
  rw [FeatureUi.listToggle]
  split_ifs
  · exact .pure (hclose h).maybeExitCommentsMode
  · refine Handled.Leaves.andThen (h.activateFeatureMode (by simp)) fun mid h => ?_
    exact .pure (hopen h).maybeExitCommentsMode

lemma commitPendingSuggestion (note : Option (List K)) (created : Option Nat)
    (hpending : core.hasPendingChanges = true) :
    Handled.Leaves order ids core (ui.commitPendingSuggestion true note created)
      fun ui' core' => FeatureInv ui' core ∧ ui'.mode = ui.mode ∧
        core'.outboundOpen = true ∧ core'.enabled = false := by
  intro core' hexec
  simp only [FeatureUi.commitPendingSuggestion, if_true] at hexec ⊢
  cases hexec
  have hcontrol : (core.commitPendingSuggestion order note).outboundOpen = true ∧ _ :=
    commitPendingSuggestion_control hpending note
  cases created with
  | none => exact ⟨h, rfl, hcontrol⟩
  | some id =>
    exact ⟨h.onThreadsChange_of_ids fun t ht => ⟨t, mem_append_left _ ht, rfl⟩, rfl, hcontrol⟩

lemma suggestToggle (submit : Bool) (created : Option Nat) : Handled.Leaves order ids core
      (ui.suggestToggle core.hasPendingChanges submit created) FeatureInv := by
  rw [FeatureUi.suggestToggle]
  by_cases hmode : ui.mode = .suggest
  · have hprev := h.previewing_none (by simp [hmode])
    have henabled : core.enabled = true := by simp [h.enabled, hmode]
    rw [if_pos hmode]
    intro core' hexec
    cases hpending : core.hasPendingChanges with
    | false =>
      simp only [hpending, Bool.false_eq_true, if_false] at hexec ⊢
      cases hexec
      exact h.switch hprev (by simp [henabled]) (by simp)
    | true =>
      simp only [hpending, if_true] at hexec ⊢
      cases submit with
      | false =>
        cases hexec
        exact h.switch hprev (by simp [henabled]) (by simp)
      | true =>
        obtain ⟨h', hmode', hopen, hoff⟩ :=
          h.commitPendingSuggestion none created hpending core' hexec
        exact h'.switch (h'.previewing_none (by simp [hmode', hmode])) (by simp [hopen])
          (by simp [hoff])
  · rw [if_neg hmode]
    refine Handled.Leaves.andThen (h.activateFeatureMode_of_ne hmode) ?_
    rintro mid ⟨hprev, hwritable, hlisted, hcontrol⟩ core' hexec
    cases hexec
    exact
      { preview := by simp [hprev]
        enabled := by simp
        gate := by simpa using fun _ => hcontrol
        writable := fun _ => hwritable
        listed := hlisted }

lemma noteConfirm (note : Option (List K)) (created : Option Nat) :
    Handled.Leaves order ids core
      (Handled.andThen
        ({ ui with noteModalOpen := false }.commitPendingSuggestion core.hasPendingChanges note
          created)
        fun ui => (ui, if ui.mode = .suggest then [.enable] else [])) FeatureInv := by
  have hclosed : FeatureInv { ui with noteModalOpen := false } core := h.panels
  cases hpending : core.hasPendingChanges with
  | false =>
    -- there is nothing to submit, and in Suggest Mode the engine is enabled already
    refine Handled.Leaves.andThen (.pure hclosed) fun mid h core' hexec => ?_
    split_ifs at hexec with hmode <;> cases hexec
    · have hgate := h.gate (h.previewing_none (by rw [hmode]; simp))
      exact h.reenable hmode (by rw [hgate, hmode]; simp) _
    · exact h
  | true =>
    refine Handled.Leaves.andThen (hclosed.commitPendingSuggestion note created hpending) ?_
    rintro mid ⟨h', hmode', -, hoff⟩ core' hexec
    have hmode : ui.mode = .suggest := by
      simpa [enabled_of_hasPendingChanges hpending] using h.enabled.symm
    simp only [if_pos (hmode'.trans hmode)] at hexec
    cases hexec
    exact h'.reenable (hmode'.trans hmode) (by rw [hoff]; rfl) _

lemma textCall {a : EditorCall K}
    (ha : (∃ text, a = .type text) ∨ (∃ u, a = .fireTimer u) ∨ ∃ u, a = .wire u) :
    Handled.Leaves order ids core (ui, [a]) FeatureInv := by
  intro core' hexec
  obtain ⟨last, hlast, ⟨⟩⟩ := bind_eq_some_iff.1 hexec
  exact h.of_sameControl (sameControl_of_callStep hlast (by tauto))

lemma suggestionAccept (id : Nat) (anchor : Option (Replacement K)) (u : Update K) :
    Handled.Leaves order ids core (ui.suggestionAccept id anchor u) FeatureInv := by
  refine Handled.Leaves.andThen h.closeThread fun mid h core' hexec => ?_
  -- the text of the suggestion and the new baseline leave gate and engine alone
  refine (h.of_sameControl ?_).decideSuggestion id .accepted
  generalize (ui.closeThread (K := K)).1.mode = mode at hexec
  have hrebase {s t : EditorCore K} (hexec : exec (callStep order ids) anyStep s
      (if mode = .suggest then [.rebase] else []) = some t) : s.SameControl t := by
    split_ifs at hexec
    · have hcall : callStep order ids s .rebase = some t := hexec
      exact sameControl_of_callStep hcall (by simp)
    · cases hexec
      exact ⟨rfl, rfl⟩
  cases anchor with
  | none => exact hrebase hexec
  | some r =>
    obtain ⟨last, hlast, hdone⟩ := bind_eq_some_iff.1 hexec
    have haccept := sameControl_of_callStep hlast (by simp)
    have hrest := hrebase hdone
    exact ⟨hrest.1.trans haccept.1, hrest.2.trans haccept.2⟩

end

end FeatureInv

/-! ## Events -/

/-- Modes, gate, preview and the editor's writability agree. -/
structure FeatureEditor.Consistent (s : FeatureEditor K) : Prop where
  preview : s.ui.previewing.isSome ↔ s.ui.mode = .comments ∧ s.core.outboundOpen = false
  previewed : ∀ id ∈ s.ui.previewing, ∃ t ∈ s.ui.activeThread, t.id = id
  suggest : s.core.enabled = true ↔ s.ui.mode = .suggest
  closed : s.ui.mode = .suggest → s.core.outboundOpen = false
  otherwise : s.ui.previewing = none → s.ui.mode ≠ .suggest →
    s.core.outboundOpen = true ∧ (s.ui.bindingReadonly = true → s.ui.readonly = true)

lemma FeatureInv.consistent {s : FeatureEditor K} (h : FeatureInv s.ui s.core) :
    s.Consistent where
  preview := by
    cases hprev : s.ui.previewing with
    | none => simp +contextual [h.gate hprev]
    | some id =>
      obtain ⟨hmode, -, hclosed⟩ := h.preview id hprev
      simp [hmode, hclosed]
  previewed := fun id hid => (h.preview id hid).2.1
  suggest := by simp [h.enabled]
  closed := fun hmode => by
    simp [h.gate (h.previewing_none (by simp [hmode])), hmode]
  otherwise := fun hprev hmode =>
    ⟨by simp [h.gate hprev, hmode], fun hreadonly => h.writable hprev ▸ hreadonly⟩

def FeatureEvent.kept (ui : FeatureUi) : FeatureEvent K → List ThreadInfo
  | .threadsChanged threads => threads
  | .threadDelete id => ui.threads.filter fun t => t.id ≠ id
  | _ => ui.threads

def PreviewedKept (s : FeatureEditor K) (a : FeatureEvent K) : Prop :=
  ∀ id ∈ s.ui.previewing, ∃ t ∈ a.kept s.ui, t.id = id
  deriving Decidable

lemma FeatureUi.threadDelete_eq (ui : FeatureUi) (id : Nat) : ui.threadDelete (K := K) id =
      (ui.onThreadsChange (ui.threads.filter fun t => t.id ≠ id), []) := by
  refine if_neg fun hactive => ?_
  obtain ⟨thread, hthread, hid⟩ := map_eq_some_iff.1 hactive
  have hkept := (mem_filter.1 (mem_of_mem_onThreadsChange hthread)).2
  exact of_decide_eq_true hkept hid

lemma featureInv_initial (ids : ClientIds) (readonly : Bool) :
    FeatureInv (FeatureEditor.initial (K := K) ids readonly).ui
      (FeatureEditor.initial (K := K) ids readonly).core where
  preview := by simp [FeatureEditor.initial]
  enabled := rfl
  gate := fun _ => rfl
  writable := fun _ => rfl
  listed := by simp [FeatureEditor.initial]

section

variable {P : Type} [LinearOrder P] [DecidableEq K] {order : DocOrder K P} {ids : ClientIds}
  {s t : FeatureEditor K} {a : FeatureEvent K}

section

variable (h : FeatureInv s.ui s.core)
include h

lemma FeatureInv.handle {handled : Handled K} (hkept : PreviewedKept s a)
    (hhandle : s.ui.handle s.core.hasPendingChanges a = some handled) :
    handled.Leaves order ids s.core FeatureInv := by
  cases a with
  | type text =>
    obtain ⟨-, ⟨⟩⟩ := ite_none_left_eq_some.1 hhandle
    exact h.textCall (by simp)
  | timer u | wire u =>
    cases hhandle
    exact h.textCall (by simp)
  | readonlyChanged readonly =>
    cases hhandle
    exact .pure { h with writable := fun _ => rfl }
  | threadsChanged threads =>
    cases hhandle
    exact .pure (h.onThreadsChange hkept)
  | blameToggle =>
    simp only [FeatureUi.handle] at hhandle
    split_ifs at hhandle with hmode <;> cases hhandle
    · have hprev := h.previewing_none (by simp [hmode])
      exact .pure (h.switch hprev (by simp [h.gate hprev, hmode]) (by simp [h.enabled, hmode]))
    · exact h.activateFeatureMode (by simp)
  | suggestToggle submit created =>
    cases hhandle
    exact h.suggestToggle submit created
  | suggestSubmit =>
    obtain ⟨-, ⟨⟩⟩ := ite_none_right_eq_some.1 hhandle
    split_ifs
    · exact .pure h.panels
    · exact .pure h
  | noteConfirm note created =>
    obtain ⟨-, ⟨⟩⟩ := ite_none_right_eq_some.1 hhandle
    exact h.noteConfirm note created
  | noteCancel | draftCancel =>
    cases hhandle
    exact .pure h.panels
  | suggestDiscard =>
    obtain ⟨hmode, ⟨⟩⟩ := ite_none_right_eq_some.1 hhandle
    intro core' hexec
    cases hexec
    exact h.reenable hmode (by simp) _
  | commentAdd =>
    cases hhandle
    exact h.panels.closeThread
  | draftSubmit created =>
    obtain ⟨-, ⟨⟩⟩ := ite_none_right_eq_some.1 hhandle
    rw [FeatureUi.draftSubmit]
    have h' : FeatureInv (s.ui.onThreadsChange (s.ui.threads ++ [⟨created, none⟩])) s.core :=
      h.onThreadsChange_of_ids fun t ht => ⟨t, mem_append_left _ ht, rfl⟩
    split
    · exact .pure h'.panels
    · rename_i thread hthread
      exact h'.panels.openThread (mem_of_find?_eq_some hthread) _ _
  | threadActivate id anchor u =>
    obtain ⟨thread, hthread, rfl⟩ := map_eq_some_iff.1 hhandle
    exact h.openThread (mem_of_find?_eq_some hthread) anchor u
  | pendingSuggestionActivate id anchor u | resolvedThreadActivate id anchor u =>
    obtain ⟨thread, hthread, rfl⟩ := map_eq_some_iff.1 hhandle
    refine h.panels.openThread ?_ anchor u
    exact mem_of_find?_eq_some hthread
  | panelClose =>
    cases hhandle
    exact h.closeThread
  | threadResolve id =>
    cases hhandle
    split_ifs
    · exact h.closeThread
    · exact .pure h
  | threadDelete id =>
    cases hhandle
    rw [FeatureUi.threadDelete]
    have h' := h.onThreadsChange hkept
    split_ifs
    · exact h'.closeThread
    · exact .pure h'
  | suggestionAccept id anchor u =>
    simp only [FeatureUi.handle] at hhandle
    split at hhandle <;> cases hhandle
    exact h.suggestionAccept id anchor u
  | suggestionReject id | suggestionDismiss id =>
    cases hhandle
    exact (h.decideSuggestion id _).closeThread
  | commentsListToggle | suggestionsListToggle =>
    cases hhandle
    exact h.listToggle (fun h => h.panels) fun h => h.panels
  | commentsListClose | suggestionsListClose =>
    cases hhandle
    exact .pure h.panels.maybeExitCommentsMode

lemma featureInv_step (hkept : PreviewedKept s a) (hs : featureStep order ids s a = some t) :
    FeatureInv t.ui t.core := by
  simp only [featureStep, bind_eq_bind, bind_eq_some_iff] at hs
  obtain ⟨handled, hhandle, core, hcore, ⟨⟩⟩ := hs
  exact h.handle hkept hhandle core hcore

lemma not_consistent_of_previewed_lost (hlost : ¬ PreviewedKept s a)
    (hs : featureStep order ids s a = some t) : ¬ t.Consistent := by
  simp only [featureStep, bind_eq_bind, bind_eq_some_iff] at hs
  obtain ⟨handled, hhandle, core, -, ⟨⟩⟩ := hs
  have hforgotten {threads : List ThreadInfo} (hui : handled.1 = s.ui.onThreadsChange threads)
      (hlost : ¬ ∀ id ∈ s.ui.previewing, ∃ t ∈ threads, t.id = id) :
      ¬ FeatureEditor.Consistent ⟨handled.1, core⟩ := by
    intro hconsistent
    refine hlost fun id hid => ?_
    obtain ⟨thread, hthread, hthreadId⟩ := hconsistent.previewed id (by rw [hui]; exact hid)
    simp only [hui] at hthread
    exact ⟨thread, mem_of_mem_onThreadsChange hthread, hthreadId⟩
  cases a with
  | threadsChanged threads =>
    cases hhandle
    exact hforgotten rfl hlost
  | threadDelete id =>
    cases hhandle
    exact hforgotten (congrArg Prod.fst (threadDelete_eq _ _)) hlost
  | _ =>
    refine absurd (fun id hid => ?_) hlost
    obtain ⟨-, ⟨thread, hthread, hthreadId⟩, -⟩ := h.preview id hid
    exact ⟨thread, h.listed thread hthread, hthreadId⟩

end

/-- The modes stay consistent for as long as no event takes the previewed thread away, and the
first that does breaks them. -/
theorem consistent_iff_previewedKept (readonly : Bool)
    (hrun : Run (featureStep order ids) PreviewedKept (.initial ids readonly) s) :
    s.Consistent ∧ ∀ a t, featureStep order ids s a = some t →
      (t.Consistent ↔ PreviewedKept s a) := by
  have h : FeatureInv s.ui s.core :=
    hrun.invariant (P := fun s => FeatureInv s.ui s.core) (featureInv_initial ids readonly)
      fun _ _ _ h hkept hs => featureInv_step h hkept hs
  refine ⟨h.consistent, fun a t hs => ⟨fun hconsistent => ?_, fun hkept => ?_⟩⟩
  · by_contra hlost
    exact not_consistent_of_previewed_lost h hlost hs hconsistent
  · exact (featureInv_step h hkept hs).consistent

end

def previewedThenSuggest : List (FeatureEvent Nat) :=
  [.threadsChanged [⟨1, some .pending⟩],
    .threadActivate 1 (some ⟨0, 0, [0x78]⟩) ⟨[⟨2, 0, [], some 0x78⟩], []⟩,
    .threadsChanged [⟨1, some .accepted⟩, ⟨2, none⟩], .suggestToggle false none]

theorem consistent_previewedThenSuggest : ∃ s : FeatureEditor Nat,
      Run (featureStep .byId evenIds) PreviewedKept (.initial evenIds false) s ∧
      s.ui.mode = .suggest ∧ s.Consistent :=
  exists_run_and previewedThenSuggest (by decide +kernel) fun _ hrun =>
    (consistent_iff_previewedKept false hrun).1

lemma stranded_of_deleted {a : FeatureEvent Nat}
    (ha : a = .threadsChanged [] ∨ a = .threadDelete 1) :
    ∃ s t : FeatureEditor Nat, Run (featureStep .byId evenIds) anyStep (.initial evenIds false) s ∧
      featureStep .byId evenIds s a = some t ∧
      t.ui.bindingReadonly = true ∧ t.core.outboundOpen = false ∧ ¬ t.Consistent := by
  have hrun : ∃ s ∈ exec (featureStep .byId evenIds) anyStep (.initial evenIds false)
      (previewedThenSuggest.take 2), ∃ t ∈ featureStep .byId evenIds s a,
        t.ui.previewing = some 1 ∧ t.ui.activeThread = none ∧
        t.ui.bindingReadonly = true ∧ t.core.outboundOpen = false := by
    rcases ha with rfl | rfl <;> decide +kernel
  obtain ⟨s, hs, t, ht, hprev, hactive, hreadonly, hclosed⟩ := hrun
  refine ⟨s, t, run_of_exec hs, ht, hreadonly, hclosed, fun hconsistent => ?_⟩
  obtain ⟨thread, hthread, -⟩ := hconsistent.previewed 1 hprev
  rw [hactive] at hthread
  cases hthread

/-- The thread is deleted while its suggestion is previewed, elsewhere or in its own panel: the
editor stays read-only and the gate closed. -/
theorem previewed_thread_deleted :
    (∃ s t : FeatureEditor Nat, Run (featureStep .byId evenIds) anyStep (.initial evenIds false) s ∧
      featureStep .byId evenIds s (.threadsChanged []) = some t ∧
      t.ui.bindingReadonly = true ∧ t.core.outboundOpen = false ∧ ¬ t.Consistent) ∧
    ∃ s t : FeatureEditor Nat, Run (featureStep .byId evenIds) anyStep (.initial evenIds false) s ∧
      featureStep .byId evenIds s (.threadDelete 1) = some t ∧
      t.ui.bindingReadonly = true ∧ t.core.outboundOpen = false ∧ ¬ t.Consistent :=
  ⟨stranded_of_deleted (.inl rfl), stranded_of_deleted (.inr rfl)⟩

end CollabEditor.Frontend
