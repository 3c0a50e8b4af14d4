import CollabEditor.Frontend.BlameEngine
import CollabEditor.Frontend.OpenGate
/-!
# The coordinators and resets of the editor doc

The version manager and the blame engine are attached to the first editor doc and keep it when a
reset replaces it.  A doc that has been replaced is destroyed with its observers.
-/

namespace CollabEditor.Frontend

open Support Execution CausalOps SharedText Option List

variable {K : Type}

structure Coordinators (K : Type) where
  core : EditorCore K
  updateCount : Nat
  snapshotInFlight : Bool

/-- `revert` comes with the transaction that makes the doc show the content of the version. -/
inductive CoordinatorEvent (K : Type)
  | call (a : EditorCall K)
  | snapshotTimer
  | snapshotDone
  | revert (content : List K) (u : Update K)

/-- A transaction on the first editor doc, by someone who has kept it. The binding hears of it if
the doc is still under the editor. -/
def EditorCore.transactAttached {P : Type} [LinearOrder P] [DecidableEq K] (order : DocOrder K P)
    (s : EditorCore K) (u : Update K) : EditorCore K :=
  { s with provider := s.provider.transact (.editor 0) u }.observe order s.provider.editorDoc

@[simp] lemma EditorCore.provider_transactAttached {P : Type} [LinearOrder P] [DecidableEq K]
    (order : DocOrder K P) (s : EditorCore K) (u : Update K) :
    (s.transactAttached order u).provider = s.provider.transact (.editor 0) u :=
  provider_observe order _ _

namespace Coordinators

/-- The coordinators are attached once the docs have synced, and no editor doc is replaced before
that. -/
def attach (core : EditorCore K) : Coordinators K := ⟨core, 0, false⟩

/-- The doc that was there when the coordinators were attached. -/
def ydoc (s : Coordinators K) : Doc K := s.core.provider.editorDocs 0

section

variable {P : Type} [LinearOrder P] [DecidableEq K] (order : DocOrder K P)

def createVersion (s : Coordinators K) : Coordinators K :=
  { s with core := { s.core with versions := s.core.versions ++ [s.ydoc.text order] } }

def autoSnapshot (s : Coordinators K) : Coordinators K :=
  if s.snapshotInFlight then s else { s.createVersion order with snapshotInFlight := true }

/-- The observer of the doc, after a transaction that found `before`; it counts up to
`threshold`, and 0 turns it off. -/
def onUpdate (threshold : Nat) (before : Doc K) (s : Coordinators K) : Coordinators K :=
  if threshold = 0 ∨ s.core.provider.replicator.editor ≠ 0 ∨ (Doc.change before s.ydoc).isEmpty then
    s
  else if s.updateCount + 1 < threshold then { s with updateCount := s.updateCount + 1 }
  else { s.autoSnapshot order with updateCount := 0 }

def getLiveBlame (s : Coordinators K) (clientToUser : Nat → Option String) : List BlameSegment :=
  extractBlameFromText order s.ydoc clientToUser

end

end Coordinators

section

variable {P : Type} [LinearOrder P] [DecidableEq K] (order : DocOrder K P) (ids : ClientIds)
  (threshold : Nat)

def coordinatorStep (s : Coordinators K) : CoordinatorEvent K → Option (Coordinators K)
  | .call a =>
    (callStep order ids s.core a).map fun core =>
      { s with core := core }.onUpdate order threshold s.ydoc
  | .snapshotTimer =>
    if 0 < s.updateCount then some { s.autoSnapshot order with updateCount := 0 } else none
  | .snapshotDone => some { s with snapshotInFlight := false }
  | .revert content u =>
    if Writes order s.ydoc content content u then
      some (({ s with core := s.core.transactAttached order u }.onUpdate order threshold
        s.ydoc).createVersion order)
    else none

/-- What is posted is the text of the editor, reverting reaches the other users, and blame is
about the text of the editor. -/
structure FollowsEditor (s : Coordinators K) : Prop where
  posts : ∀ a t, coordinatorStep order ids threshold s a = some t →
    ∀ content ∈ t.core.versions.drop s.core.versions.length, content = t.core.editorText order
  reverts : s.core.outboundOpen = true → ∀ content u t,
    coordinatorStep order ids threshold s (.revert content u) = some t →
      t.core.syncText order = content
  blame : ∀ clientToUser, s.getLiveBlame order clientToUser =
    extractBlameFromText order s.core.provider.editorDoc clientToUser

end

def ReopenedWithNothingHeld (s : Coordinators K) : CoordinatorEvent K → Prop
  | .call a => ReopenedInLockstep s.core a
  | _ => True

instance [DecidableEq K] (s : Coordinators K) (a : CoordinatorEvent K) :
    Decidable (ReopenedWithNothingHeld s a) := by
  rcases a with ⟨⟩ <;> dsimp only [ReopenedWithNothingHeld] <;> infer_instance

/-! ## What is posted -/

lemma Coordinators.ydoc_eq {s : Coordinators K} (h : s.core.provider.replicator.editor = 0) :
    s.ydoc = s.core.provider.editorDoc := by
  rw [ydoc, CollaborationProvider.editorDoc, h]

section

variable {P : Type} [LinearOrder P] [DecidableEq K] {order : DocOrder K P} {ids : ClientIds}
  {threshold : Nat} {s t : Coordinators K}

lemma EditorCore.versions_observe (before : Doc K) (s : EditorCore K) :
    (s.observe order before).versions = s.versions := by
  simp only [EditorCore.observe, EditorCore.applyYTextToEditor]
  split_ifs <;> rfl

lemma versions_callStep {s t : EditorCore K} {a : EditorCall K}
    (hs : callStep order ids s a = some t) : t.versions = s.versions ∨ t.provider = s.provider ∧
      t.versions = s.versions ++ [(s.provider.editorDocs 0).text order] := by
  have hreset (s : EditorCore K) : (s.resetEditorDoc order).disable.versions = s.versions := by
    obtain ⟨shown, lastApplied, hreset⟩ := s.resetEditorDoc_eq order
    rw [EditorCore.disable, hreset]
    split <;> rfl
  cases a with
  | type text =>
    obtain rfl := callStep_type hs
    exact .inl rfl
  | fireTimer u =>
    obtain ⟨-, ⟨-, rfl⟩ | ⟨-, rfl⟩⟩ := callStep_fireTimer hs <;> exact .inl rfl
  | wire u =>
    obtain ⟨-, rfl⟩ := callStep_wire hs
    exact .inl (EditorCore.versions_observe _ _)
  | resetEditorDoc =>
    cases hs
    obtain ⟨shown, lastApplied, hreset⟩ := s.resetEditorDoc_eq order
    rw [hreset]
    exact .inl rfl
  | closeOutbound =>
    cases hs
    exact .inl rfl
  | enable =>
    cases hs
    simp only [EditorCore.enable]
    split <;> exact .inl rfl
  | disable =>
    cases hs
    simp only [EditorCore.disable]
    split <;> exact .inl rfl
  | discard =>
    cases hs
    simp only [EditorCore.discard]
    split
    · exact .inl (hreset s)
    · exact .inl rfl
  | commit note =>
    cases hs
    simp only [EditorCore.commitPendingSuggestion]
    split
    · exact .inl rfl
    · split
      · exact .inl rfl
      · exact .inl (hreset s)
  | preview r u =>
    obtain ⟨-, rfl⟩ | rfl := callStep_preview hs
    · exact .inl (EditorCore.versions_observe _ _)
    · exact .inl rfl
  | accept r u =>
    obtain ⟨-, rfl⟩ | rfl := callStep_accept hs
    · exact .inl (EditorCore.versions_observe _ _)
    · exact .inl rfl
  | rebase =>
    cases hs
    exact .inl rfl
  | snapshot =>
    cases hs
    exact .inr ⟨rfl, rfl⟩

namespace Coordinators

/-- `t` is `s` after `content` has been posted, each time the text of the editor. -/
def Posted (order : DocOrder K P) (s t : EditorCore K) : Prop :=
  ∃ contents, t = { s with versions := s.versions ++ contents } ∧
    ∀ content ∈ contents, content = s.editorText order

lemma Posted.refl (s : EditorCore K) : Posted order s s := ⟨[], by simp, by simp⟩

lemma Posted.trans {s t u : EditorCore K} (hst : Posted order s t) (htu : Posted order t u) :
    Posted order s u := by
  obtain ⟨contents, rfl, hcontents⟩ := hst
  obtain ⟨contents', rfl, hcontents'⟩ := htu
  refine ⟨contents ++ contents', by simp, fun content hmem => ?_⟩
  rcases mem_append.1 hmem with hmem | hmem
  · exact hcontents content hmem
  · exact hcontents' content hmem

section

variable (h : s.core.provider.replicator.editor = 0)
include h

lemma posted_createVersion : Posted order s.core (s.createVersion order).core := by
  refine ⟨[s.ydoc.text order], rfl, fun content hmem => ?_⟩
  rw [mem_singleton.1 hmem, ydoc, EditorCore.editorText, CollaborationProvider.editorDoc, h]

lemma posted_autoSnapshot : Posted order s.core (s.autoSnapshot order).core := by
  rw [autoSnapshot]
  split
  · exact .refl _
  · exact posted_createVersion h

end

lemma posted_onUpdate (threshold : Nat) (before : Doc K) (s : Coordinators K) :
    Posted order s.core (s.onUpdate order threshold before).core := by
  rw [onUpdate]
  split_ifs with hoff
  · exact .refl _
  · exact .refl _
  · exact posted_autoSnapshot (by simpa using (not_or.1 (not_or.1 hoff).2).1)

lemma Posted.provider_eq {s t : EditorCore K} (h : Posted order s t) :
    t.provider = s.provider := by
  obtain ⟨contents, rfl, -⟩ := h
  rfl

lemma Posted.eq_editorText {s t : EditorCore K} (h : Posted order s t) {content : List K}
    (hmem : content ∈ t.versions.drop s.versions.length) : content = t.editorText order := by
  obtain ⟨contents, rfl, hcontents⟩ := h
  rw [drop_left] at hmem
  exact hcontents content hmem

end Coordinators

lemma coordinatorStep_revert {content : List K} {u : Update K}
    (hs : coordinatorStep order ids threshold s (.revert content u) = some t) :
    Writes order s.ydoc content content u ∧
      t.core.provider = s.core.provider.transact (.editor 0) u := by
  obtain ⟨hwrites, ⟨⟩⟩ := ite_none_right_eq_some.1 hs
  exact ⟨hwrites, (Coordinators.posted_onUpdate threshold s.ydoc _).provider_eq.trans
    (s.core.provider_transactAttached order u)⟩

lemma posts_editorText (hgate : GateInv ids s.core.provider)
    (hfirst : s.core.provider.replicator.editor = 0) {a : CoordinatorEvent K}
    (hs : coordinatorStep order ids threshold s a = some t) :
    ∀ content ∈ t.core.versions.drop s.core.versions.length, content = t.core.editorText order := by
  intro content hmem
  cases a with
  | call a =>
    obtain ⟨core, hcore, rfl⟩ := map_eq_some_iff.1 hs
    have hposted : Coordinators.Posted order core _ :=
      Coordinators.posted_onUpdate threshold s.ydoc { s with core := core }
    rcases versions_callStep hcore with hkept | ⟨hprovider, hone⟩
    · rw [← hkept] at hmem
      exact hposted.eq_editorText hmem
    · obtain ⟨contents, ht, hcontents⟩ := hposted
      rw [ht, hone, append_assoc, drop_left] at hmem
      rw [ht]
      rcases mem_append.1 hmem with hmem | hmem
      · rw [mem_singleton.1 hmem]
        simp only [EditorCore.editorText, CollaborationProvider.editorDoc, hprovider, hfirst]
      · exact hcontents content hmem
  | snapshotTimer =>
    obtain ⟨-, ⟨⟩⟩ := ite_none_right_eq_some.1 hs
    exact (Coordinators.posted_autoSnapshot hfirst).eq_editorText hmem
  | snapshotDone =>
    cases hs
    simp at hmem
  | revert content u =>
    obtain ⟨-, ⟨⟩⟩ := ite_none_right_eq_some.1 hs
    have hupdated : Coordinators.Posted order _ _ :=
      Coordinators.posted_onUpdate threshold s.ydoc
        { s with core := s.core.transactAttached order u }
    refine (hupdated.trans (Coordinators.posted_createVersion ?_)).eq_editorText ?_
    · rw [hupdated.provider_eq, EditorCore.provider_transactAttached,
        replicator_transact hgate.docs.wired, hfirst]
    · have hkept : (s.core.transactAttached order u).versions = s.core.versions :=
        EditorCore.versions_observe _ _
      rwa [hkept]

end

/-! ## Before and after the first reset -/

section

variable {P : Type} [LinearOrder P] [DecidableEq K] {order : DocOrder K P} {ids : ClientIds}
  {threshold : Nat} {s t : Coordinators K}

lemma GateInv.transact_replaced {p : CollaborationProvider K} (h : GateInv ids p) {n : Nat}
    (hn : n < p.replicator.editor) (u : Update K) : GateInv ids (p.transact (.editor n) u) := by
  refine ⟨h.docs.transact_replaced hn, fun hopen => ?_⟩
  rw [replicator_transact h.docs.wired] at hopen
  rw [h.docs.wired.transact_replaced hn.ne]
  simpa [CollaborationProvider.InLockstep, CollaborationProvider.editorDoc,
    Function.update_of_ne hn.ne'] using h.lockstep hopen

section

variable (h : GateInv ids s.core.provider)
include h

lemma gateInv_coordinatorStep {a : CoordinatorEvent K} (hok : ReopenedWithNothingHeld s a)
    (hs : coordinatorStep order ids threshold s a = some t) : GateInv ids t.core.provider := by
  cases a with
  | call a =>
    obtain ⟨core, hcore, rfl⟩ := map_eq_some_iff.1 hs
    rw [(Coordinators.posted_onUpdate threshold s.ydoc { s with core := core }).provider_eq]
    exact gateInv_call h hok hcore
  | snapshotTimer =>
    obtain ⟨-, ⟨⟩⟩ := ite_none_right_eq_some.1 hs
    simp only [Coordinators.autoSnapshot]
    split <;> exact h
  | snapshotDone =>
    cases hs
    exact h
  | revert content u =>
    obtain ⟨hwrites, hprovider⟩ := coordinatorStep_revert hs
    rw [hprovider]
    rcases Nat.eq_zero_or_pos s.core.provider.replicator.editor with hfirst | hreplaced
    · rw [← hfirst]
      exact h.transact_editor (Coordinators.ydoc_eq hfirst ▸ hwrites.edit)
    · exact h.transact_replaced hreplaced u

lemma followsEditor_of_first (hfirst : s.core.provider.replicator.editor = 0) :
    FollowsEditor order ids threshold s where
  posts := fun _ _ hs => posts_editorText h hfirst hs
  reverts := by
    intro hopen content u t hs
    obtain ⟨hwrites, hprovider⟩ := coordinatorStep_revert hs
    have hydoc := Coordinators.ydoc_eq hfirst
    have hnext : GateInv ids t.core.provider :=
      gateInv_coordinatorStep (a := .revert content u) h trivial hs
    have hstill : t.core.outboundOpen = true := by
      rw [EditorCore.outboundOpen, hprovider, replicator_transact h.docs.wired]
      exact hopen
    -- the gate is open, so `syncDoc` shows what the editor doc was made to show
    calc t.core.syncText order
        = t.core.editorText order := (hnext.lockstep hstill).same.text_eq order
      _ = (s.core.provider.editorDoc.apply u).text order := by
          rw [EditorCore.editorText, hprovider, ← h.docs.wired.editorDoc_transact, hfirst]
      _ = content := hydoc ▸ hwrites.text
  blame := fun clientToUser => by
    rw [Coordinators.getLiveBlame, Coordinators.ydoc_eq hfirst]

lemma docs_revert_of_replaced (hreplaced : s.core.provider.replicator.editor ≠ 0)
    {content : List K} {u : Update K}
    (hs : coordinatorStep order ids threshold s (.revert content u) = some t) :
    t.core.provider.syncDoc = s.core.provider.syncDoc ∧
      t.core.provider.editorDoc = s.core.provider.editorDoc := by
  rw [(coordinatorStep_revert hs).2, h.docs.wired.transact_replaced hreplaced.symm]
  exact ⟨rfl, Function.update_of_ne hreplaced _ _⟩

end

/-- Until the first reset versions, reverts and blame are about the editor doc; from then on a
revert does nothing to the text that the users share. -/
theorem followsEditor_until_reset {core : EditorCore K}
    (hstart : Run (callStep order ids) ReopenedInLockstep (.initial ids) core)
    (hrun : Run (coordinatorStep order ids threshold) ReopenedWithNothingHeld (.attach core) s) :
    (s.core.provider.replicator.editor = 0 → FollowsEditor order ids threshold s) ∧
      (s.core.provider.replicator.editor ≠ 0 → ∀ content u t,
        coordinatorStep order ids threshold s (.revert content u) = some t →
          t.core.syncText order = s.core.syncText order) := by
  have hattached : GateInv ids core.provider :=
    hstart.invariant (P := fun s => GateInv ids s.provider) (gateInv_initial ids)
      fun _ _ _ h hok hs => gateInv_call h hok hs
  have hgate : GateInv ids s.core.provider :=
    hrun.invariant (P := fun s => GateInv ids s.core.provider) hattached
      fun _ _ _ h hok hs => gateInv_coordinatorStep h hok hs
  refine ⟨followsEditor_of_first hgate, fun hreplaced content u t hs => ?_⟩
  rw [EditorCore.syncText, (docs_revert_of_replaced hgate hreplaced hs).1, EditorCore.syncText]

end

def draftAttached : List (CoordinatorEvent Nat) :=
  [.call (.type [0x61]), .call (.fireTimer ⟨[⟨2, 0, [], some 0x61⟩], []⟩), .call .enable,
    .call (.type [0x61, 0x62]), .call (.fireTimer ⟨[⟨2, 1, [(2, 0)], some 0x62⟩], []⟩)]

theorem followsEditor_draftAttached : ∃ s : Coordinators Nat,
      Run (coordinatorStep .byId evenIds 2) ReopenedWithNothingHeld (.attach (.initial evenIds)) s ∧
      s.core.versions = [[0x61, 0x62]] ∧ FollowsEditor .byId evenIds 2 s :=
  exists_run_imp draftAttached (P := fun s => s.core.versions = [[0x61, 0x62]] ∧
      s.core.provider.replicator.editor = 0) (by decide +kernel) fun _ hrun ⟨hversions, hfirst⟩ =>
    ⟨hversions, (followsEditor_until_reset .refl hrun).1 hfirst⟩

/-- The draft is discarded. A version saved now holds the draft all the same, blame is about two
characters where the editor has one, and a revert to `c` reaches nobody. -/
theorem coordinators_keep_replaced_doc : ∃ s : Coordinators Nat,
      Run (coordinatorStep .byId evenIds 50) anyStep (.attach (.initial evenIds)) s ∧
      ¬ FollowsEditor .byId evenIds 50 s ∧
      (∃ t, coordinatorStep .byId evenIds 50 s (.call .snapshot) = some t ∧
        t.core.versions = [[0x61, 0x62]] ∧ t.core.editorText .byId = [0x61]) ∧
      (∃ t, coordinatorStep .byId evenIds 50 s
          (.revert [0x63] ⟨[⟨2, 2, [], some 0x63⟩], [(2, 0), (2, 1)]⟩) = some t ∧
        s.core.outboundOpen = true ∧ t.core.syncText .byId = [0x61]) ∧
      s.getLiveBlame .byId (fun _ => none) = [⟨0, 2, "user-2"⟩] ∧
      extractBlameFromText .byId s.core.provider.editorDoc (fun _ => none) = [⟨0, 1, "user-2"⟩] :=
  exists_run_imp (draftAttached ++ [.call .discard])
    (P := fun s => (∃ t ∈ coordinatorStep .byId evenIds 50 s (.call .snapshot),
        t.core.versions = [[0x61, 0x62]] ∧ t.core.editorText .byId = [0x61]) ∧
      (∃ t ∈ coordinatorStep .byId evenIds 50 s
          (.revert [0x63] ⟨[⟨2, 2, [], some 0x63⟩], [(2, 0), (2, 1)]⟩),
        s.core.outboundOpen = true ∧ t.core.syncText .byId = [0x61]) ∧
      s.getLiveBlame .byId (fun _ => none) = [⟨0, 2, "user-2"⟩] ∧
      extractBlameFromText .byId s.core.provider.editorDoc (fun _ => none) = [⟨0, 1, "user-2"⟩])
    (by decide +kernel) fun _ _ ⟨hposted, hrevert, hblame, hcurrent⟩ => by
      refine ⟨fun hfollows => ?_, hposted, hrevert, hblame, hcurrent⟩
      have hnames := hfollows.blame fun _ => none
      rw [hblame, hcurrent] at hnames
      cases hnames

end CollabEditor.Frontend
