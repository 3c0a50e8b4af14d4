import CollabEditor.Frontend.CommentEngine
import CollabEditor.Frontend.MultiEditor
/-!
# Feature modes

The handlers of `multi-editor.ts` that switch between Suggest Mode, comments and blame.  Of a thread
they read its id and the status of its suggestion.
-/

namespace CollabEditor.Frontend

open Support Execution CausalOps SharedText

variable {K : Type}

structure ThreadInfo where
  id : Nat
  suggestion : Option SuggestionStatus

/-- `readonly` is the attribute of the component and `bindingReadonly` what the editor was last
told; `drafting` says that the panel for a new comment is open. -/
structure FeatureUi where
  mode : FeatureMode := .none
  threads : List ThreadInfo := []
  activeThread : Option ThreadInfo := none
  commentsListOpen : Bool := false
  suggestionsListOpen : Bool := false
  previewing : Option Nat := none
  drafting : Bool := false
  noteModalOpen : Bool := false
  readonly : Bool
  bindingReadonly : Bool

abbrev Handled (K : Type) := FeatureUi × List (EditorCall K)

def Handled.andThen (h : Handled K) (next : FeatureUi → Handled K) : Handled K :=
  ((next h.1).1, h.2 ++ (next h.1).2)

namespace FeatureUi

/-- The callback that the engine makes after every change of the threads, its own included. -/
def onThreadsChange (ui : FeatureUi) (threads : List ThreadInfo) : FeatureUi :=
  { ui with
    threads := threads
    activeThread := ui.activeThread.bind fun t => threads.find? fun fresh => fresh.id = t.id }

def decideSuggestion (ui : FeatureUi) (id : Nat) (decision : SuggestionStatus) : FeatureUi :=
  ui.onThreadsChange (ui.threads.map fun t =>
    if t.id = id then { t with suggestion := t.suggestion.map fun _ => decision } else t)

def startSuggestionPreview (ui : FeatureUi) (id : Nat) (anchor : Option (Replacement K))
    (u : Update K) : Handled K :=
  match anchor with
  | none => (ui, [])
  | some r =>
    ({ ui with bindingReadonly := true, previewing := some id }, [.closeOutbound, .preview r u])

def endSuggestionPreview (ui : FeatureUi) : Handled K :=
  match ui.previewing with
  | none => (ui, [])
  | some _ =>
    ({ ui with bindingReadonly := ui.readonly, previewing := none }, .resetEditorDoc ::
        if ui.mode = .suggest then [.closeOutbound, .disable, .enable] else [])

def activateFeatureMode (ui : FeatureUi) (mode : FeatureMode) : Handled K :=
  if ui.mode = mode then (ui, [])
  else
    match ui.mode with
    | .none => ({ ui with mode := mode }, [])
    -- the blame coordinator calls back that it is off, and finds the new mode
    | .blame => ({ ui with mode := mode }, [])
    | .suggest => ({ ui with mode := mode }, [.discard])
    | .comments =>
      { ui with
        mode := mode
        activeThread := none
        commentsListOpen := false
        suggestionsListOpen := false }.endSuggestionPreview

def maybeExitCommentsMode (ui : FeatureUi) : FeatureUi :=
  if ui.mode = .comments ∧ ui.activeThread = none ∧ ui.commentsListOpen = false ∧
      ui.suggestionsListOpen = false then
    { ui with mode := .none }
  else ui

def closeThread (ui : FeatureUi) : Handled K :=
  Handled.andThen ui.endSuggestionPreview fun ui =>
    ({ ui with activeThread := none }.maybeExitCommentsMode, [])

/-- `_setActiveCommentThread(thread)`, with the range and the text of the suggestion if the
anchor of the thread resolves. Suggest Mode is off where the source asks whether it holds a
draft. -/
def openThread (ui : FeatureUi) (thread : ThreadInfo) (anchor : Option (Replacement K))
    (u : Update K) : Handled K :=
  Handled.andThen (ui.activateFeatureMode .comments) fun ui =>
  Handled.andThen
    (if ui.previewing = some thread.id then (ui, []) else ui.endSuggestionPreview) fun ui =>
  let ui := { ui with activeThread := some thread }
  if thread.suggestion = some .pending ∧ ui.previewing ≠ some thread.id then
    ui.startSuggestionPreview thread.id anchor u
  else (ui, [])

/-- No thread is created if `commitSuggestion` throws, which is caught after the engine's commit. -/
def commitPendingSuggestion (ui : FeatureUi) (pending : Bool) (note : Option (List K))
    (created : Option Nat) : Handled K :=
  if pending then
    (match created with
      | some id => ui.onThreadsChange (ui.threads ++ [⟨id, some .pending⟩])
      | none => ui, [.commit note])
  else (ui, [])

def listToggle (ui : FeatureUi) (isOpen : Bool) (closeList openList : FeatureUi → FeatureUi) :
    Handled K :=
  if isOpen then ((closeList ui).maybeExitCommentsMode, [])
  else
    Handled.andThen (ui.activateFeatureMode .comments) fun ui =>
      ((openList ui).maybeExitCommentsMode, [])

/-- One of the two lists is open at a time. -/
def commentsListToggle (ui : FeatureUi) : Handled K :=
  ui.listToggle ui.commentsListOpen (fun ui => { ui with commentsListOpen := false })
    fun ui => { ui with commentsListOpen := true, suggestionsListOpen := false }

def suggestionsListToggle (ui : FeatureUi) : Handled K :=
  ui.listToggle ui.suggestionsListOpen (fun ui => { ui with suggestionsListOpen := false })
    fun ui => { ui with suggestionsListOpen := true, commentsListOpen := false }

/-- `_handleSuggestToggle`; `submit` is the answer to the question whether to submit. -/
def suggestToggle (ui : FeatureUi) (pending submit : Bool) (created : Option Nat) : Handled K :=
  if ui.mode = .suggest then
    let handled : Handled K :=
      if pending then
        if submit then ui.commitPendingSuggestion pending none created else (ui, [.discard])
      else (ui, [.disable])
    ({ handled.1 with mode := .none }, handled.2)
  else Handled.andThen (ui.activateFeatureMode .suggest) fun ui => (ui, [.enable])

def draftSubmit (ui : FeatureUi) (created : Nat) : Handled K :=
  let ui := { ui.onThreadsChange (ui.threads ++ [⟨created, none⟩]) with drafting := false }
  match ui.threads.find? fun t => t.id = created with
  | none => (ui, [])
  | some t => ui.openThread t none ⟨[], []⟩

/-- The thread is gone, and the callback made, before the handler asks whether it is open. -/
def threadDelete (ui : FeatureUi) (id : Nat) : Handled K :=
  let ui := ui.onThreadsChange (ui.threads.filter fun t => t.id ≠ id)
  if ui.activeThread.map ThreadInfo.id = some id then ui.closeThread else (ui, [])

def suggestionAccept (ui : FeatureUi) (id : Nat) (anchor : Option (Replacement K))
    (u : Update K) : Handled K :=
  Handled.andThen ui.closeThread fun ui =>
    (ui.decideSuggestion id .accepted,
      (anchor.toList.map fun r => .accept r u) ++ if ui.mode = .suggest then [.rebase] else [])

end FeatureUi

/-- `threadsChanged` is any change that reaches the engine from elsewhere. -/
inductive FeatureEvent (K : Type)
  | type (text : List K)
  | timer (u : Update K)
  | wire (u : Update K)
  | readonlyChanged (readonly : Bool)
  | threadsChanged (threads : List ThreadInfo)
  | blameToggle
  | suggestToggle (submit : Bool) (created : Option Nat)
  | suggestSubmit
  | noteConfirm (note : Option (List K)) (created : Option Nat)
  | noteCancel
  | suggestDiscard
  | commentAdd
  | draftSubmit (created : Nat)
  | draftCancel
  | threadActivate (id : Nat) (anchor : Option (Replacement K)) (u : Update K)
  | pendingSuggestionActivate (id : Nat) (anchor : Option (Replacement K)) (u : Update K)
  | resolvedThreadActivate (id : Nat) (anchor : Option (Replacement K)) (u : Update K)
  | panelClose
  | threadResolve (id : Nat)
  | threadDelete (id : Nat)
  | suggestionAccept (id : Nat) (anchor : Option (Replacement K)) (u : Update K)
  | suggestionReject (id : Nat)
  | suggestionDismiss (id : Nat)
  | commentsListToggle
  | commentsListClose
  | suggestionsListToggle
  | suggestionsListClose

namespace FeatureUi

/-- What an event does; `pending` says that Suggest Mode holds a draft. `none` where the
control that sends the event is not there. -/
def handle (ui : FeatureUi) (pending : Bool) : FeatureEvent K → Option (Handled K)
  | .type text => if ui.bindingReadonly then none else some (ui, [.type text])
  | .timer u => some (ui, [.fireTimer u])
  | .wire u => some (ui, [.wire u])
  | .readonlyChanged readonly =>
    some ({ ui with readonly := readonly, bindingReadonly := readonly }, [])
  | .threadsChanged threads => some (ui.onThreadsChange threads, [])
  | .blameToggle =>
    if ui.mode = .blame then some ({ ui with mode := .none }, [])
    else some (ui.activateFeatureMode .blame)
  | .suggestToggle submit created => some (ui.suggestToggle pending submit created)
  | .suggestSubmit =>
    if ui.mode = .suggest then
      some (if pending then ({ ui with noteModalOpen := true }, []) else (ui, []))
    else none
  | .noteConfirm note created =>
    if ui.noteModalOpen then
      some (Handled.andThen
        ({ ui with noteModalOpen := false }.commitPendingSuggestion pending note created)
        fun ui => (ui, if ui.mode = .suggest then [.enable] else []))
    else none
  | .noteCancel => some ({ ui with noteModalOpen := false }, [])
  | .suggestDiscard => if ui.mode = .suggest then some (ui, [.discard, .enable]) else none
  | .commentAdd => some { ui with drafting := true }.closeThread
  | .draftSubmit created => if ui.drafting then some (ui.draftSubmit created) else none
  | .draftCancel => some ({ ui with drafting := false }, [])
  | .threadActivate id anchor u =>
    (ui.threads.find? fun t => t.id = id).map fun t => ui.openThread t anchor u
  | .pendingSuggestionActivate id anchor u =>
    (ui.threads.find? fun t => t.id = id).map fun t =>
      { ui with suggestionsListOpen := false }.openThread t anchor u
  | .resolvedThreadActivate id anchor u =>
    (ui.threads.find? fun t => t.id = id).map fun t =>
      { ui with commentsListOpen := false }.openThread t anchor u
  | .panelClose => some ui.closeThread
  | .threadResolve id =>
    some (if ui.activeThread.map ThreadInfo.id = some id then ui.closeThread else (ui, []))
  | .threadDelete id => some (ui.threadDelete id)
  | .suggestionAccept id anchor u =>
    match (ui.threads.find? fun t => t.id = id).bind ThreadInfo.suggestion with
    | none => none
    | some _ => some (ui.suggestionAccept id anchor u)
  | .suggestionReject id => some (ui.decideSuggestion id .rejected).closeThread
  | .suggestionDismiss id => some (ui.decideSuggestion id .notApplicable).closeThread
  | .commentsListToggle => some ui.commentsListToggle
  | .commentsListClose => some ({ ui with commentsListOpen := false }.maybeExitCommentsMode, [])
  | .suggestionsListToggle => some ui.suggestionsListToggle
  | .suggestionsListClose =>
    some ({ ui with suggestionsListOpen := false }.maybeExitCommentsMode, [])

end FeatureUi

structure FeatureEditor (K : Type) where
  ui : FeatureUi
  core : EditorCore K

def FeatureEditor.initial (ids : ClientIds) (readonly : Bool) : FeatureEditor K :=
  ⟨{ readonly := readonly, bindingReadonly := readonly }, .initial ids⟩

def featureStep {P : Type} [LinearOrder P] [DecidableEq K] (order : DocOrder K P) (ids : ClientIds)
    (s : FeatureEditor K) (a : FeatureEvent K) : Option (FeatureEditor K) := do
  let handled ← s.ui.handle s.core.hasPendingChanges a
  let core ← exec (callStep order ids) anyStep s.core handled.2
  return ⟨handled.1, core⟩

end CollabEditor.Frontend
