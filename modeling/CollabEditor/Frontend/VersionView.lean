import CollabEditor.Frontend.Coordinators
/-!
# Looking at a version

`VersionCoordinator` makes the editor read-only and gives the binding the content of a version, and
afterwards the live text.  In a collaborative document this writes only into an empty shared text:
the one that the binding was mounted with.
-/

namespace CollabEditor.Frontend

open Support Execution CausalOps SharedText Option EditorCore

variable {K : Type}

/-- `readonly` is what the coordinator was told when it was attached. -/
structure VersionView (K : Type) where
  core : EditorCore K
  viewing : Bool
  readonly : Bool
  bindingReadonly : Bool

/-- `exit` is the panel being closed, and `revert` writes after it has left the view. The updates
are the transactions that these make. -/
inductive VersionEvent (K : Type)
  | call (a : EditorCall K)
  | view (content : List K) (u : Update K)
  | exit (u : Update K)
  | revert (content : List K) (left u : Update K)

def EditorCall.types : EditorCall K → Bool
  | .type _ => true
  | _ => false

def VersionView.attach (core : EditorCore K) (readonly : Bool) : VersionView K :=
  ⟨core, false, readonly, readonly⟩

section

variable {P : Type} [LinearOrder P] [DecidableEq K] (order : DocOrder K P) (ids : ClientIds)

/-- `none` unless `u` is a transaction that writes the text; the empty text writes nothing. -/
def setCollabContent (s : EditorCore K) (text : List K) (u : Update K) : Option (EditorCore K) :=
  if (s.provider.editorDocs 0).text order ≠ [] ∨ text = [] then some s
  else if Writes order (s.provider.editorDocs 0) text text u then some (s.transactAttached order u)
  else none

namespace VersionView

def view (s : VersionView K) (content : List K) (u : Update K) : Option (VersionView K) :=
  (setCollabContent order s.core content u).map fun core =>
    { s with core := core, viewing := true, bindingReadonly := true }

def exitVersionView (s : VersionView K) (u : Update K) : Option (VersionView K) :=
  if s.viewing then
    (setCollabContent order s.core (s.core.editorText order) u).map fun core =>
      { s with core := core, viewing := false, bindingReadonly := s.readonly }
  else some s

def revertToVersion (s : VersionView K) (content : List K) (u : Update K) :
    Option (VersionView K) :=
  if Writes order (s.core.provider.editorDocs 0) content content u then
    (callStep order ids (s.core.transactAttached order u) .snapshot).map fun core =>
      { s with core := core }
  else none

end VersionView

/-- Saving a version is the call `snapshot`; what lists, selects or compares versions changes the
panel only. -/
def versionStep (s : VersionView K) : VersionEvent K → Option (VersionView K)
  | .call a =>
    if s.bindingReadonly = true ∧ a.types = true then none
    else (callStep order ids s.core a).map fun core => { s with core := core }
  | .view content u => s.view order content u
  | .exit u => s.exitVersionView order u
  | .revert content left u =>
    (s.exitVersionView order left).bind fun s => s.revertToVersion order ids content u

/-- Nothing has happened to the docs that the users share. -/
structure SameDocs (s t : EditorCore K) : Prop where
  sync : t.provider.syncDoc = s.provider.syncDoc
  editor : t.provider.editorDoc = s.provider.editorDoc

/-- Entering the view shows the version, leaving it shows the live text, and neither, nor saving a
version, is an edit. -/
def ViewsPurely (s t : VersionView K) : VersionEvent K → Prop
  | .view content _ => t.core.shown = content ∧ SameDocs s.core t.core
  | .exit _ => s.viewing = true → t.core.shown = t.core.editorText order ∧ SameDocs s.core t.core
  | .call .snapshot => SameDocs s.core t.core
  | _ => True

/-- The editor shows what it is to show already, and a text to be shown is not the first one that
the document gets. -/
def ShownAlready (s : VersionView K) : VersionEvent K → Prop
  | .view content _ => s.core.shown = content ∧
      (content = [] ∨ s.core.editorText order ≠ [] ∨ s.core.provider.replicator.editor ≠ 0)
  | .exit _ => s.viewing = true → s.core.shown = s.core.editorText order
  | _ => True

end

section

variable {P : Type} [LinearOrder P] [DecidableEq K] {order : DocOrder K P} {ids : ClientIds}

section

variable {s t : EditorCore K} {text : List K} {u : Update K}

section

variable (hwired : s.provider.Wired)
include hwired

lemma sameDocs_setCollabContent
    (hidle : text = [] ∨ s.editorText order ≠ [] ∨ s.provider.replicator.editor ≠ 0)
    (hs : setCollabContent order s text u = some t) : SameDocs s t ∧ t.shown = s.shown := by
  rw [setCollabContent] at hs
  split_ifs at hs with hnothing hwrites
  · cases hs
    exact ⟨⟨rfl, rfl⟩, rfl⟩
  · cases hs
    obtain ⟨hempty, htext⟩ := not_or.1 hnothing
    have hreplaced : s.provider.replicator.editor ≠ 0 := by
      rcases hidle with htext' | hlive | hreplaced
      · exact absurd htext' htext
      · intro hfirst
        rw [editorText, CollaborationProvider.editorDoc, hfirst] at hlive
        exact hempty hlive
      · exact hreplaced
    -- nobody listens to the doc that is written to
    have heditor : (s.provider.transact (.editor 0) u).editorDoc = s.provider.editorDoc := by
      rw [hwired.transact_replaced hreplaced.symm]
      exact Function.update_of_ne hreplaced _ _
    refine ⟨⟨?_, ?_⟩, ?_⟩
    · rw [provider_transactAttached, hwired.transact_replaced hreplaced.symm]
    · rw [provider_transactAttached, heditor]
    · rw [transactAttached, observe]
      simp only [heditor, Doc.isEmpty_change_self, if_true]

lemma editorText_setCollabContent (hfirst : s.provider.replicator.editor = 0)
    (hlive : s.editorText order = []) (htext : text ≠ [])
    (hs : setCollabContent order s text u = some t) : t.editorText order = text := by
  have hydoc : s.provider.editorDocs 0 = s.provider.editorDoc := by
    rw [CollaborationProvider.editorDoc, hfirst]
  rw [editorText, ← hydoc] at hlive
  rw [setCollabContent, if_neg (by simp [hlive, htext])] at hs
  obtain ⟨hwrites, ⟨⟩⟩ := ite_none_right_eq_some.1 hs
  have hdoc := hwired.editorDoc_transact u
  rw [hfirst] at hdoc
  rw [editorText, provider_transactAttached, hdoc, ← hydoc, hwrites.text]

lemma sameDocs_setCollabContent_iff (hs : setCollabContent order s text u = some t) :
    SameDocs s t ↔ text = [] ∨ s.editorText order ≠ [] ∨ s.provider.replicator.editor ≠ 0 := by
  refine ⟨fun hsame => ?_, fun hidle => (sameDocs_setCollabContent hwired hidle hs).1⟩
  by_contra hwritten
  obtain ⟨htext, hlive, hfirst⟩ : text ≠ [] ∧ s.editorText order = [] ∧
      s.provider.replicator.editor = 0 := by simpa using hwritten
  have hshown := editorText_setCollabContent hwired hfirst hlive htext hs
  rw [editorText, hsame.editor] at hshown
  exact htext (hshown.symm.trans hlive)

end

lemma wired_setCollabContent (h : s.provider.Wired)
    (hs : setCollabContent order s text u = some t) : t.provider.Wired := by
  rw [setCollabContent] at hs
  split_ifs at hs <;> cases hs
  · exact h
  · simpa using h.transact (.editor 0) u

end

variable {s t : VersionView K}

lemma wired_exitVersionView {u : Update K} (h : s.core.provider.Wired)
    (hs : s.exitVersionView order u = some t) : t.core.provider.Wired := by
  rw [VersionView.exitVersionView] at hs
  split_ifs at hs
  · obtain ⟨core, hcore, rfl⟩ := map_eq_some_iff.1 hs
    exact wired_setCollabContent h hcore
  · cases hs
    exact h

lemma wired_versionStep {a : VersionEvent K} (h : s.core.provider.Wired)
    (hs : versionStep order ids s a = some t) : t.core.provider.Wired := by
  cases a with
  | call a =>
    obtain ⟨-, hs⟩ := ite_none_left_eq_some.1 hs
    obtain ⟨core, hcore, rfl⟩ := map_eq_some_iff.1 hs
    exact wired_callStep h hcore
  | view content u =>
    obtain ⟨core, hcore, rfl⟩ := map_eq_some_iff.1 hs
    exact wired_setCollabContent h hcore
  | exit u => exact wired_exitVersionView h hs
  | revert content left u =>
    obtain ⟨mid, hmid, hs⟩ := bind_eq_some_iff.1 hs
    obtain ⟨-, hs⟩ := ite_none_right_eq_some.1 hs
    obtain ⟨core, hcore, rfl⟩ := map_eq_some_iff.1 hs
    have hwired : (mid.core.transactAttached order u).provider.Wired := by
      simpa using (wired_exitVersionView h hmid).transact (.editor 0) u
    exact wired_callStep hwired hcore

lemma viewsPurely_view (hwired : s.core.provider.Wired) {content : List K} {u : Update K}
    (hs : s.view order content u = some t) :
    ViewsPurely order s t (.view content u) ↔ ShownAlready order s (.view content u) := by
  obtain ⟨core, hcore, rfl⟩ := map_eq_some_iff.1 hs
  constructor
  · rintro ⟨hshown, hsame⟩
    have hidle := (sameDocs_setCollabContent_iff hwired hcore).1 hsame
    obtain ⟨-, hkept⟩ := sameDocs_setCollabContent hwired hidle hcore
    exact ⟨hkept.symm.trans hshown, hidle⟩
  · rintro ⟨hshown, hidle⟩
    obtain ⟨hsame, hkept⟩ := sameDocs_setCollabContent hwired hidle hcore
    exact ⟨hkept.trans hshown, hsame⟩

lemma viewsPurely_exit (hwired : s.core.provider.Wired) {u : Update K}
    (hs : s.exitVersionView order u = some t) :
    ViewsPurely order s t (.exit u) ↔ ShownAlready order s (.exit u) := by
  refine forall_congr' fun hviewing => ?_
  rw [VersionView.exitVersionView, if_pos hviewing] at hs
  obtain ⟨core, hcore, rfl⟩ := map_eq_some_iff.1 hs
  obtain ⟨hsame, hkept⟩ := sameDocs_setCollabContent hwired ((em _).imp_right .inl) hcore
  have hlive : core.editorText order = s.core.editorText order := by
    rw [editorText, hsame.editor, editorText]
  rw [hkept, hlive]
  exact and_iff_left hsame

/-- Whether a step of the view is a pure view: only if the editor shows already what it is to
show, and no text is written into an empty document. -/
theorem viewsPurely_iff_shownAlready {core : EditorCore K} {readonly : Bool} {a : VersionEvent K}
    (hstart : Run (callStep order ids) anyStep (.initial ids) core)
    (hrun : Run (versionStep order ids) anyStep (.attach core readonly) s)
    (hs : versionStep order ids s a = some t) :
    ViewsPurely order s t a ↔ ShownAlready order s a := by
  have hattached : core.provider.Wired :=
    hstart.invariant (P := fun s => s.provider.Wired) (docInv_initial ids).wired
      fun _ _ _ h _ hs => wired_callStep h hs
  have hwired : s.core.provider.Wired :=
    hrun.invariant (P := fun s => s.core.provider.Wired) hattached
      fun _ _ _ h _ hs => wired_versionStep h hs
  cases a with
  | call a =>
    obtain ⟨-, hs⟩ := ite_none_left_eq_some.1 hs
    obtain ⟨core, hcore, rfl⟩ := map_eq_some_iff.1 hs
    cases a with
    | snapshot =>
      cases hcore
      exact iff_of_true ⟨rfl, rfl⟩ trivial
    | _ => exact Iff.rfl
  | view content u => exact viewsPurely_view hwired hs
  | exit u => exact viewsPurely_exit hwired hs
  | revert content left u => exact Iff.rfl

end

def typedOnce : List (VersionEvent Nat) :=
  [.call (.type [0x61]), .call (.fireTimer ⟨[⟨2, 0, [], some 0x61⟩], []⟩)]

theorem viewsPurely_typedOnce : ∃ s t : VersionView Nat,
      Run (versionStep .byId evenIds) anyStep (.attach (.initial evenIds) false) s ∧
      versionStep .byId evenIds s (.view [0x61] ⟨[], []⟩) = some t ∧
      t.viewing = true ∧ ViewsPurely .byId s t (.view [0x61] ⟨[], []⟩) := by
  have hrun : ∃ s ∈ exec (versionStep .byId evenIds) anyStep (.attach (.initial evenIds) false)
      typedOnce, ∃ t ∈ versionStep .byId evenIds s (.view [0x61] ⟨[], []⟩),
      t.viewing = true ∧ s.core.shown = [0x61] ∧ s.core.editorText .byId ≠ [] := by
    decide +kernel
  obtain ⟨s, hs, t, ht, hviewing, hshown, hlive⟩ := hrun
  exact ⟨s, t, run_of_exec hs, ht, hviewing,
    (viewsPurely_iff_shownAlready .refl (run_of_exec hs) ht).2 ⟨hshown, .inr (.inl hlive)⟩⟩

/-- A version `b` of a document that reads `a` is not shown, and one of an empty document is
written into the text of all users. -/
theorem version_not_viewed : (∃ s t : VersionView Nat,
      Run (versionStep .byId evenIds) anyStep (.attach (.initial evenIds) false) s ∧
      versionStep .byId evenIds s (.view [0x62] ⟨[], []⟩) = some t ∧
      t.viewing = true ∧ t.core.shown = [0x61] ∧ ¬ ViewsPurely .byId s t (.view [0x62] ⟨[], []⟩)) ∧
    ∃ t : VersionView Nat, versionStep .byId evenIds (.attach (.initial evenIds) false)
        (.view [0x62] ⟨[⟨2, 0, [], some 0x62⟩], []⟩) = some t ∧
      t.viewing = true ∧ t.core.syncText .byId = [0x62] ∧
      ¬ ViewsPurely .byId (.attach (.initial evenIds) false) t
        (.view [0x62] ⟨[⟨2, 0, [], some 0x62⟩], []⟩) := by
  have hshown : ∃ s ∈ exec (versionStep .byId evenIds) anyStep (.attach (.initial evenIds) false)
      typedOnce, ∃ t ∈ versionStep .byId evenIds s (.view [0x62] ⟨[], []⟩),
      t.viewing = true ∧ t.core.shown = [0x61] := by
    decide +kernel
  have hwritten : ∃ t ∈ versionStep .byId evenIds (.attach (.initial evenIds) false)
      (.view [0x62] ⟨[⟨2, 0, [], some 0x62⟩], []⟩),
      t.viewing = true ∧ t.core.syncText .byId = [0x62] := by
    decide +kernel
  obtain ⟨s, hs, t, ht, hviewing, hkept⟩ := hshown
  obtain ⟨t', ht', hviewing', hsync⟩ := hwritten
  refine ⟨⟨s, t, run_of_exec hs, ht, hviewing, hkept, ?_⟩, t', ht', hviewing', hsync, ?_⟩
  · rintro ⟨hpure, -⟩
    rw [hkept] at hpure
    cases hpure
  · rintro ⟨-, hsame⟩
    rw [syncText, hsame.sync] at hsync
    cases hsync

end CollabEditor.Frontend
