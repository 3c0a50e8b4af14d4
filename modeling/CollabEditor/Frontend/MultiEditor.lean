import CollabEditor.Frontend.EditorCore
/-!
# The event handlers of the editor

A handler of `multi-editor.ts` changes which of Suggest Mode, comments and blame is on, and makes
the calls of `EditorCore` in turn.  Handlers run when their control is there.
-/

namespace CollabEditor.Frontend

open Support Execution CausalOps SharedText TextDiff Option

variable {K : Type}

inductive FeatureMode
  | none
  | blame
  | suggest
  | comments
  deriving DecidableEq

structure EditorUi where
  mode : FeatureMode := .none
  activeThread : Option Nat := none
  listOpen : Bool := false
  previewing : Option Nat := none
  readonly : Bool := false

namespace EditorUi

def endSuggestionPreview (ui : EditorUi) : EditorUi × List (EditorCall K) :=
  match ui.previewing with
  | none => (ui, [])
  | some _ =>
    ({ ui with readonly := false, previewing := none }, .resetEditorDoc ::
        if ui.mode = .suggest then [.closeOutbound, .disable, .enable] else [])

/-- The new mode is set first, so that ending a preview on the way into Suggest Mode already
finds Suggest Mode on. -/
def activateFeatureMode (ui : EditorUi) (mode : FeatureMode) : EditorUi × List (EditorCall K) :=
  if ui.mode = mode then (ui, [])
  else
    match ui.mode with
    | .suggest => ({ ui with mode := mode }, [.discard])
    | .comments =>
      { ui with mode := mode, activeThread := none, listOpen := false }.endSuggestionPreview
    | .blame => ({ ui with mode := mode }, [])
    | .none => ({ ui with mode := mode }, [])

def maybeExitCommentsMode (ui : EditorUi) : EditorUi :=
  if ui.mode = .comments ∧ ui.activeThread = none ∧ ui.listOpen = false then
    { ui with mode := .none }
  else ui

def closeThread (ui : EditorUi) : EditorUi × List (EditorCall K) :=
  let (ui, calls) := ui.endSuggestionPreview
  ({ ui with activeThread := none }.maybeExitCommentsMode, calls)

/-- `_setActiveCommentThread`, with the pending suggestion of the thread if its anchor
resolves. That Suggest Mode holds a draft cannot be the case any more where it is asked
for. -/
def openThread (ui : EditorUi) (id : Nat) (pending : Option (Replacement K)) (u : Update K) :
    EditorUi × List (EditorCall K) :=
  let (ui, calls) := ui.activateFeatureMode .comments
  let (ui, calls') := if ui.previewing = some id then (ui, []) else ui.endSuggestionPreview
  let ui := { ui with activeThread := some id }
  match pending with
  | none => (ui, calls ++ calls')
  | some r =>
    if ui.previewing = some id then (ui, calls ++ calls')
    else
      ({ ui with readonly := true, previewing := some id },
        calls ++ calls' ++ [.closeOutbound, .preview r u])

/-- The accept handler, up to the decision it records. -/
def accept (ui : EditorUi) (r : Option (Replacement K)) (u : Update K) :
    EditorUi × List (EditorCall K) :=
  let (ui, calls) := ui.closeThread
  (ui, calls ++ (r.toList.map fun r => .accept r u) ++ if ui.mode = .suggest then [.rebase] else [])

end EditorUi

inductive EditorEvent (K : Type)
  | type (text : List K)
  | timer (u : Update K)
  | wire (u : Update K)
  | suggestOn
  | suggestOff (submit : Bool)
  | submit (note : Option (List K))
  | discard
  | openThread (id : Nat) (pending : Option (Replacement K)) (u : Update K)
  | closeThread
  | accept (r : Option (Replacement K)) (u : Update K)
  | toggleList
  | toggleBlame
  | snapshot

structure MultiEditor (K : Type) where
  ui : EditorUi
  core : EditorCore K

def MultiEditor.initial [DecidableEq K] (ids : ClientIds) : MultiEditor K := ⟨{}, .initial ids⟩

lemma EditorCore.submitted_enable (s : EditorCore K) (text : List K) :
    (s.enable text).submitted = s.submitted := by
  rw [EditorCore.enable]
  split <;> rfl

section

variable {P : Type} [LinearOrder P] [DecidableEq K] (order : DocOrder K P) (ids : ClientIds)

/-- What an event does to the modes, and the calls its handler makes. -/
def handle (s : MultiEditor K) : EditorEvent K → Option (EditorUi × List (EditorCall K))
  | .type text => if s.ui.readonly then none else some (s.ui, [.type text])
  | .timer u => some (s.ui, [.fireTimer u])
  | .wire u => some (s.ui, [.wire u])
  | .suggestOn =>
    if s.ui.mode = .suggest then none
    else
      let (ui, calls) := s.ui.activateFeatureMode .suggest
      some (ui, calls ++ [.enable])
  | .suggestOff submit =>
    if s.ui.mode = .suggest then
      some ({ s.ui with mode := .none }, if s.core.hasPendingChanges then
          if submit then [.commit none] else [.discard]
        else [.disable])
    else none
  | .submit note => if s.ui.mode = .suggest then some (s.ui, [.commit note, .enable]) else none
  | .discard => if s.ui.mode = .suggest then some (s.ui, [.discard, .enable]) else none
  | .openThread id pending u => some (s.ui.openThread id pending u)
  | .closeThread => some s.ui.closeThread
  | .accept r u => if s.ui.activeThread.isSome then some (s.ui.accept r u) else none
  | .toggleList =>
    if s.ui.listOpen then some ({ s.ui with listOpen := false }.maybeExitCommentsMode, [])
    else
      let (ui, calls) := s.ui.activateFeatureMode .comments
      some ({ ui with listOpen := true }, calls)
  | .toggleBlame =>
    if s.ui.mode = .blame then some ({ s.ui with mode := .none }, [])
    else some (s.ui.activateFeatureMode .blame)
  | .snapshot => some (s.ui, [.snapshot])

def eventStep (s : MultiEditor K) (a : EditorEvent K) : Option (MultiEditor K) := do
  let (ui, calls) ← handle s a
  let core ← exec (callStep order ids) anyStep s.core calls
  return ⟨ui, core⟩

/-- Every call that the handler makes meets `ok` in the state it is made in. -/
def CallsMeet (ok : EditorCore K → EditorCall K → Prop) [∀ s a, Decidable (ok s a)]
    (s : MultiEditor K) (a : EditorEvent K) : Prop :=
  ∀ h ∈ handle s a, (exec (callStep order ids) ok s.core h.2).isSome
  deriving Decidable

variable {order ids}

lemma run_of_eventStep {ok : EditorCore K → EditorCall K → Prop} [∀ s a, Decidable (ok s a)]
    {s t : MultiEditor K} {a : EditorEvent K} (hok : CallsMeet order ids ok s a)
    (hs : eventStep order ids s a = some t) : Run (callStep order ids) ok s.core t.core := by
  simp only [eventStep, bind_eq_bind, bind_eq_some_iff] at hs
  obtain ⟨h, hhandle, core, hcore, ⟨⟩⟩ := hs
  obtain ⟨core', hcore'⟩ := isSome_iff_exists.1 (hok h hhandle)
  obtain rfl : core' = core := some.inj
    ((exec_mono (fun _ _ _ => trivial) hcore').symm.trans hcore)
  exact run_of_exec hcore'

lemma run_calls_of_run {ok : EditorCore K → EditorCall K → Prop} [∀ s a, Decidable (ok s a)]
    {s t : MultiEditor K} (hrun : Run (eventStep order ids) (CallsMeet order ids ok) s t) :
    Run (callStep order ids) ok s.core t.core := by
  induction hrun with
  | refl => exact .refl
  | tail a _ hok hs ih => exact ih.trans (run_of_eventStep hok hs)

/-! ## What is submitted -/

def EditorEvent.submits : EditorEvent K → Bool
  | .submit _ => true
  | .suggestOff submitted => submitted
  | _ => false

lemma EditorCore.submitted_commit {s : EditorCore K} {base : List K} (note : Option (List K))
    (hbase : s.textAtEnable = some base) (hpending : s.shown ≠ base) :
    (s.commitPendingSuggestion order note).submitted =
      s.submitted ++ [buildSuggestion note base s.shown] := by
  have hkept : ∀ s : EditorCore K, s.disable.submitted = s.submitted := by
    intro s
    rw [EditorCore.disable]
    split <;> rfl
  obtain ⟨shown, lastApplied, hreset⟩ := s.resetEditorDoc_eq order
  simp only [EditorCore.commitPendingSuggestion, hbase, hpending, if_false, hkept, hreset]

lemma submitted_of_submits {s t : MultiEditor K} {a : EditorEvent K} {base : List K}
    (ha : a.submits) (hbase : s.core.textAtEnable = some base) (hpending : s.core.shown ≠ base)
    (hs : eventStep order ids s a = some t) :
    ∃ note, t.core.submitted = s.core.submitted ++ [buildSuggestion note base s.core.shown] := by
  have hcommit : ∀ note, (s.core.commitPendingSuggestion order note).submitted =
      s.core.submitted ++ [buildSuggestion note base s.core.shown] :=
    fun note => EditorCore.submitted_commit note hbase hpending
  cases a with
  | submit note =>
    simp only [eventStep, handle] at hs
    split_ifs at hs
    · cases hs
      exact ⟨note, (EditorCore.submitted_enable _ _).trans (hcommit note)⟩
    · cases hs
  | suggestOff submit =>
    obtain rfl : submit = true := ha
    have hpending' : s.core.hasPendingChanges = true := by
      simp [EditorCore.hasPendingChanges, hbase, hpending]
    simp only [eventStep, handle, hpending', if_true] at hs
    split_ifs at hs
    · cases hs
      exact ⟨none, hcommit none⟩
    · cases hs
  | _ => cases ha

/-- With all that was typed written back, what is submitted fits the shared text of that moment
exactly when this is still the text that Suggest Mode was entered with. -/
theorem submitted_fits_iff_syncText_eq {s t : MultiEditor K} {a : EditorEvent K} {base : List K}
    (ha : a.submits) (hbase : s.core.textAtEnable = some base) (hpending : s.core.shown ≠ base)
    (hshown : s.core.shown = s.core.editorText order) (hs : eventStep order ids s a = some t) :
    ∃ payload, t.core.submitted = s.core.submitted ++ [payload] ∧
      (FitsSyncText payload (s.core.syncText order) (s.core.editorText order) ↔
        s.core.syncText order = base) := by
  obtain ⟨note, hsubmitted⟩ := submitted_of_submits ha hbase hpending hs
  refine ⟨_, hsubmitted, ?_⟩
  rw [← hshown]
  exact fitsSyncText_buildSuggestion_iff note base (s.core.syncText order) s.core.shown

end

def draftAppended : List (EditorEvent Nat) :=
  [.type [0x61], .timer ⟨[⟨2, 0, [], some 0x61⟩], []⟩, .suggestOn, .type [0x61, 0x78],
    .timer ⟨[⟨2, 1, [(2, 0)], some 0x78⟩], []⟩]

theorem submitted_fits_draftAppended :
    ∃ s t : MultiEditor Nat, Run (eventStep .byId evenIds) anyStep (.initial evenIds) s ∧
      eventStep .byId evenIds s (.submit none) = some t ∧
      ∃ payload, t.core.submitted = s.core.submitted ++ [payload] ∧
        FitsSyncText payload (s.core.syncText .byId) (s.core.editorText .byId) := by
  have hrun : ∃ s ∈ exec (eventStep .byId evenIds) anyStep (.initial evenIds) draftAppended,
      s.core.textAtEnable = some [0x61] ∧ s.core.shown ≠ [0x61] ∧
      s.core.shown = s.core.editorText .byId ∧ s.core.syncText .byId = [0x61] ∧
      (eventStep .byId evenIds s (.submit none)).isSome := by
    decide +kernel
  obtain ⟨s, hs, hbase, hpending, hshown, hsync, hsome⟩ := hrun
  obtain ⟨t, ht⟩ := isSome_iff_exists.1 hsome
  obtain ⟨payload, hsubmitted, hiff⟩ := submitted_fits_iff_syncText_eq rfl hbase hpending hshown ht
  exact ⟨s, t, run_of_exec hs, ht, payload, hsubmitted, hiff.2 hsync⟩

def peerInFront : List (EditorEvent Nat) :=
  [.type [0x61], .timer ⟨[⟨2, 0, [], some 0x61⟩], []⟩, .suggestOn,
    .wire ⟨[⟨1, 0, [], some 0x70⟩], []⟩, .type [0x70, 0x61, 0x78],
    .timer ⟨[⟨2, 1, [(2, 0)], some 0x78⟩], []⟩]

/-- The suggestion claims the `p` of the peer for its author, and is anchored where the shared
text reads `p`, not `a`. -/
theorem submitted_with_peer_edit :
    ∃ s t : MultiEditor Nat, Run (eventStep .byId evenIds) anyStep (.initial evenIds) s ∧
      s.core.syncText .byId = [0x70, 0x61] ∧ s.core.editorText .byId = [0x70, 0x61, 0x78] ∧
      s.core.shown = s.core.editorText .byId ∧ eventStep .byId evenIds s (.submit none) = some t ∧
      ∃ payload, t.core.submitted = [payload] ∧ payload.view.beforeText = [0x61] ∧
        payload.view.afterText = [0x70, 0x61, 0x78] ∧
        slice (s.core.syncText .byId) payload.anchor.start payload.anchor.stop = [0x70] ∧
        splice (s.core.syncText .byId) payload.anchor.start payload.anchor.stop
          payload.view.afterText = [0x70, 0x61, 0x78, 0x61] := by
  have hrun : ∃ s ∈ exec (eventStep .byId evenIds) anyStep (.initial evenIds) peerInFront,
      s.core.syncText .byId = [0x70, 0x61] ∧ s.core.editorText .byId = [0x70, 0x61, 0x78] ∧
      s.core.shown = s.core.editorText .byId ∧
      ∃ t ∈ eventStep .byId evenIds s (.submit none),
        t.core.submitted = [buildSuggestion none [0x61] [0x70, 0x61, 0x78]] := by
    decide +kernel
  obtain ⟨s, hs, hsync, heditor, hshown, t, ht, hsubmitted⟩ := hrun
  refine ⟨s, t, run_of_exec hs, hsync, heditor, hshown, ht, _, hsubmitted, ?_⟩
  rw [hsync]
  decide

end CollabEditor.Frontend
