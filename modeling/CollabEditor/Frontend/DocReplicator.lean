import CollabEditor.Support.Changes
import CollabEditor.Support.Execution
/-!
# The two docs of a client

`CollaborationProvider` keeps `syncDoc`, which is on the wire, and `editorDoc`, which is under the
editor.  A `DocReplicator` applies what changed in one to the other and ignores its own writes; each
direction has a gate.
-/

namespace CollabEditor.Frontend

open Support Execution CausalOps SharedText List Function

variable {K : Type}

/-- The editor docs are numbered in the order of their creation. -/
inductive DocName
  | sync
  | editor (n : Nat)

/-- The private origin of a replicator bears the number of its editor doc. -/
inductive Origin
  | replicator (n : Nat)
  | other
  deriving DecidableEq

structure DocReplicator where
  editor : Nat
  inboundOpen : Bool := true
  outboundOpen : Bool := true
  destroyed : Bool := false

namespace DocReplicator

def destroy (r : DocReplicator) : DocReplicator := { r with destroyed := true }

/-- `_onSyncUpdate` and `_onEditorUpdate`: where the listener applies an update of the doc. -/
def onUpdate (r : DocReplicator) (origin : Origin) : DocName → Option DocName
  | .sync =>
    if r.destroyed then none
    else if origin = .replicator r.editor then none
    else if r.inboundOpen then some (.editor r.editor) else none
  | .editor n =>
    if n ≠ r.editor then none
    else if r.destroyed then none
    else if origin = .replicator r.editor then none
    else if r.outboundOpen then some .sync else none

lemma onUpdate_destroyed {r : DocReplicator} (h : r.destroyed) (origin : Origin) (name : DocName) :
    r.onUpdate origin name = none := by
  cases name <;> simp [onUpdate, h]

/-- Loop prevention: a replicator does not hear its own writes. -/
lemma onUpdate_own (r : DocReplicator) (name : DocName) :
    r.onUpdate (.replicator r.editor) name = none := by
  cases name <;> simp [onUpdate]

end DocReplicator

/-- Client ids of this client's docs. Yjs picks them at random from a range in which they
do not collide. -/
structure ClientIds where
  sync : Nat
  editor : Nat → Nat
  isLocal : Nat → Bool
  sync_local : isLocal sync
  editor_local : ∀ n, isLocal (editor n)
  editor_ne_sync : ∀ n, editor n ≠ sync
  editor_injective : Function.Injective editor

/-- `applied` records what the listeners have applied, and to which doc. -/
structure CollaborationProvider (K : Type) where
  syncDoc : Doc K
  editorDocs : Nat → Doc K
  replicator : DocReplicator
  replaced : List DocReplicator
  applied : List (DocName × Update K)

namespace CollaborationProvider

/-- The docs before anything was typed or received. An editor doc that has not been created
yet is an empty doc with its client id. -/
def initial (ids : ClientIds) : CollaborationProvider K where
  syncDoc := Doc.started ids.sync []
  editorDocs n := Doc.started (ids.editor n) []
  replicator := { editor := 0 }
  replaced := []
  applied := []

def editorDoc (s : CollaborationProvider K) : Doc K := s.editorDocs s.replicator.editor

def doc (s : CollaborationProvider K) : DocName → Doc K
  | .sync => s.syncDoc
  | .editor n => s.editorDocs n

def setDoc (s : CollaborationProvider K) (name : DocName) (d : Doc K) : CollaborationProvider K :=
  match name with
  | .sync => { s with syncDoc := d }
  | .editor n => { s with editorDocs := update s.editorDocs n d }

def record (s : CollaborationProvider K) (name : DocName) (u : Update K) :
    CollaborationProvider K :=
  { s with applied := s.applied ++ [(name, u)] }

def listeners (s : CollaborationProvider K) : List DocReplicator := s.replaced ++ [s.replicator]

variable [DecidableEq K]

/-- A transaction that applies `u`, and the updates that its listeners then apply in turn, up
to a depth. -/
def applyUpdate (listeners : List DocReplicator) : Nat → CollaborationProvider K → DocName →
    Update K → Origin → CollaborationProvider K
  | 0, s, _, _, _ => s
  | depth + 1, s, name, u, origin =>
    let before := s.doc name
    let after := before.apply u
    let changed := Doc.change before after
    if changed.isEmpty then s.setDoc name after
    else
      listeners.foldl (fun s r =>
        match r.onUpdate origin name with
        | none => s
        | some target =>
          applyUpdate listeners depth (s.record target changed) target changed
            (.replicator r.editor))
        (s.setDoc name after)

def callDepth : Nat := 2

def transact (s : CollaborationProvider K) (name : DocName) (u : Update K) :
    CollaborationProvider K :=
  applyUpdate s.listeners callDepth s name u .other

/-- The new replicator is attached to `syncDoc` before the old one is destroyed. -/
def resetEditorDoc (s : CollaborationProvider K) : CollaborationProvider K :=
  let new : DocReplicator := { editor := s.replicator.editor + 1 }
  let seeded := applyUpdate (s.listeners ++ [new]) callDepth s (.editor new.editor)
    s.syncDoc.asUpdate (.replicator new.editor)
  { seeded with replicator := new, replaced := s.replaced ++ [s.replicator.destroy] }

def setOutbound (s : CollaborationProvider K) (isOpen : Bool) : CollaborationProvider K :=
  { s with replicator := { s.replicator with outboundOpen := isOpen } }

/-! ## What a transaction comes to -/

variable {s : CollaborationProvider K}

/-- What writing an update to a doc keeps, and does not depend on the record of the listeners, a
transaction keeps with all that its listeners do. -/
lemma applyUpdate_invariant {Q : CollaborationProvider K → Prop}
    (happly : ∀ s name u, Q s → Q (s.setDoc name ((s.doc name).apply u)))
    (hrecord : ∀ s name u, Q s → Q (s.record name u)) (listeners : List DocReplicator) (depth : Nat)
    (h : Q s) (name : DocName) (u : Update K) (origin : Origin) :
    Q (applyUpdate listeners depth s name u origin) := by
  induction depth generalizing s name u origin with
  | zero => exact h
  | succ depth ih =>
    rw [applyUpdate]
    split
    · exact happly s name u h
    · refine List.foldlRecOn (motive := Q) _ _ (happly s name u h) ?_
      intro t ht r _
      cases r.onUpdate origin name with
      | none => exact ht
      | some target => exact ih (hrecord t target _ ht) _ _ _

lemma foldl_unheard (listeners : List DocReplicator) {attached : List DocReplicator}
    {origin : Origin} {name : DocName}
    (h : ∀ r ∈ attached, r.onUpdate origin name = none) (depth : Nat) (changed : Update K)
    (s : CollaborationProvider K) :
    attached.foldl (fun s r =>
      match r.onUpdate origin name with
      | none => s
      | some target => applyUpdate listeners depth (s.record target changed) target changed
          (.replicator r.editor)) s = s := by
  induction attached generalizing s with
  | nil => rfl
  | cons r rest ih =>
    rw [foldl_cons, h r mem_cons_self]
    exact ih (fun q hq => h q (mem_cons_of_mem _ hq)) s

lemma applyUpdate_unheard {listeners : List DocReplicator} {origin : Origin} {name : DocName}
    (h : ∀ r ∈ listeners, r.onUpdate origin name = none) (depth : Nat)
    (s : CollaborationProvider K) (u : Update K) :
    applyUpdate listeners (depth + 1) s name u origin = s.setDoc name ((s.doc name).apply u) := by
  simp only [applyUpdate, foldl_unheard listeners h, ite_self]

/-- Replicators that have been replaced are destroyed, and nothing closes the gate towards the
editor. -/
structure Wired (s : CollaborationProvider K) : Prop where
  replaced : ∀ r ∈ s.replaced, r.destroyed
  live : s.replicator.destroyed = false
  inbound : s.replicator.inboundOpen = true

variable (h : s.Wired)
include h

/-- The current replicator mirrors a change once, and the other doc's event ends there. -/
lemma Wired.applyUpdate_eq (depth : Nat) (name : DocName) (u : Update K) (origin : Origin) :
    applyUpdate s.listeners (depth + 2) s name u origin =
      let after := (s.doc name).apply u
      let changed := Doc.change (s.doc name) after
      match s.replicator.onUpdate origin name with
      | none => s.setDoc name after
      | some target =>
        if changed.isEmpty then s.setDoc name after
        else ((s.setDoc name after).record target changed).setDoc target
          (((s.setDoc name after).doc target).apply changed) := by
  have hdestroyed : ∀ r ∈ s.replaced, ∀ origin name, r.onUpdate origin name = none :=
    fun r hr origin name => DocReplicator.onUpdate_destroyed (h.replaced r hr) origin name
  have hown : ∀ target, ∀ r ∈ s.listeners,
      r.onUpdate (.replicator s.replicator.editor) target = none := by
    intro target r hr
    rcases mem_snoc.1 hr with hr | rfl
    · exact hdestroyed r hr _ _
    · exact DocReplicator.onUpdate_own _ _
  rw [applyUpdate]
  cases hheard : s.replicator.onUpdate origin name with
  | none =>
    have hunheard : ∀ r ∈ s.listeners, r.onUpdate origin name = none := by
      intro r hr
      rcases mem_snoc.1 hr with hr | rfl
      · exact hdestroyed r hr _ _
      · exact hheard
    simp only [foldl_unheard s.listeners hunheard, ite_self]
  | some target =>
    have hfold := fun depth changed (t : CollaborationProvider K) =>
      foldl_unheard s.listeners (fun r hr => hdestroyed r hr origin name) depth changed t
    simp only [listeners, foldl_append, foldl_cons, foldl_nil, hheard]
    simp only [listeners] at hfold hown
    simp only [hfold, applyUpdate_unheard (hown target)]
    rfl

lemma Wired.transact_sync (u : Update K) :
    s.transact .sync u =
      if (Doc.change s.syncDoc (s.syncDoc.apply u)).isEmpty then
        { s with syncDoc := s.syncDoc.apply u }
      else
        { s with
          syncDoc := s.syncDoc.apply u
          editorDocs := update s.editorDocs s.replicator.editor
            (s.editorDoc.apply (Doc.change s.syncDoc (s.syncDoc.apply u)))
          applied := s.applied ++
            [(.editor s.replicator.editor, Doc.change s.syncDoc (s.syncDoc.apply u))] } := by
  rw [transact, callDepth, h.applyUpdate_eq 0]
  simp only [DocReplicator.onUpdate, h.live, h.inbound, Bool.false_eq_true, if_false, if_true,
    reduceCtorEq]
  rfl

lemma Wired.transact_editor (u : Update K) :
    s.transact (.editor s.replicator.editor) u =
      let after := s.editorDoc.apply u
      let changed := Doc.change s.editorDoc after
      if s.replicator.outboundOpen = false ∨ changed.isEmpty then
        { s with editorDocs := update s.editorDocs s.replicator.editor after }
      else
        { s with
          editorDocs := update s.editorDocs s.replicator.editor after
          syncDoc := s.syncDoc.apply changed
          applied := s.applied ++ [(.sync, changed)] } := by
  rw [transact, callDepth, h.applyUpdate_eq 0]
  cases hout : s.replicator.outboundOpen
  · simp [DocReplicator.onUpdate, h.live, hout, doc, setDoc, editorDoc]
  · simp only [DocReplicator.onUpdate, h.live, hout, ne_eq, not_true_eq_false, Bool.false_eq_true,
      if_false, if_true, reduceCtorEq, false_or]
    rfl

lemma Wired.editorDoc_transact (u : Update K) :
    (s.transact (.editor s.replicator.editor) u).editorDoc = s.editorDoc.apply u := by
  rw [h.transact_editor]
  dsimp only
  split <;> simp [editorDoc]

lemma Wired.syncDoc_transact_closed (hclosed : s.replicator.outboundOpen = false) (u : Update K) :
    (s.transact (.editor s.replicator.editor) u).syncDoc = s.syncDoc := by
  simp only [h.transact_editor, hclosed, true_or, if_true]

lemma Wired.transact_replaced {n : Nat} (hn : n ≠ s.replicator.editor) (u : Update K) :
    s.transact (.editor n) u =
      { s with editorDocs := update s.editorDocs n ((s.editorDocs n).apply u) } := by
  rw [transact, callDepth, h.applyUpdate_eq 0]
  simp [DocReplicator.onUpdate, hn, doc, setDoc]

lemma Wired.resetEditorDoc_eq :
    s.resetEditorDoc =
      let n := s.replicator.editor + 1
      { s with
        editorDocs := update s.editorDocs n ((s.editorDocs n).apply s.syncDoc.asUpdate)
        replicator := { editor := n }
        replaced := s.replaced ++ [s.replicator.destroy] } := by
  have hunheard : ∀ r ∈ s.listeners ++ [⟨s.replicator.editor + 1, true, true, false⟩],
      r.onUpdate (.replicator (s.replicator.editor + 1)) (.editor (s.replicator.editor + 1)) =
        none := by
    intro r hr
    rcases mem_snoc.1 hr with hr | rfl
    · rcases mem_snoc.1 hr with hr | rfl
      · exact DocReplicator.onUpdate_destroyed (h.replaced r hr) _ _
      · simp [DocReplicator.onUpdate]
    · exact DocReplicator.onUpdate_own ⟨s.replicator.editor + 1, true, true, false⟩ _
  simp only [resetEditorDoc, callDepth, applyUpdate_unheard hunheard]
  rfl

lemma Wired.transact (name : DocName) (u : Update K) : (s.transact name u).Wired := by
  refine applyUpdate_invariant (Q := Wired) ?_ ?_ s.listeners callDepth h name u .other
  · intro s name u h
    cases name <;> exact { h with }
  · exact fun s name u h => { h with }

lemma Wired.reset : s.resetEditorDoc.Wired := by
  rw [h.resetEditorDoc_eq]
  refine ⟨?_, rfl, rfl⟩
  intro r hr
  rcases mem_snoc.1 hr with hr | rfl
  · exact h.replaced r hr
  · rfl

end CollaborationProvider

end CollabEditor.Frontend
