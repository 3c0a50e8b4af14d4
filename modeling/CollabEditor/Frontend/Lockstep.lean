import CollabEditor.Frontend.DocReplicator
/-!
# The two docs in lockstep

With the outbound gate open the same operations are integrated in `syncDoc` and the current
`editorDoc`.  With it closed the editor doc runs ahead, and `resetEditorDoc` brings the two together
again.
-/

namespace CollabEditor.Frontend

open Support Execution CausalOps SharedText Function Doc CollaborationProvider Nat

variable {K : Type}

/-- Only this client makes operations under its ids, and others refer to them only after they
have got them from `syncDoc`. -/
@[mk_iff]
structure FromPeers (ids : ClientIds) (sync : Doc K) (u : Update K) : Prop where
  items : ∀ o ∈ u.items, ids.isLocal o.client → o ∈ sync.items
  deps : ∀ o ∈ u.items, ∀ d ∈ o.deps, ids.isLocal d.1 → ∃ p ∈ sync.items, p.id = d
  deletes : ∀ i ∈ u.deletes, ids.isLocal i.1 → ∃ p ∈ sync.items, p.id = i

instance [DecidableEq K] (ids : ClientIds) (sync : Doc K) (u : Update K) :
    Decidable (FromPeers ids sync u) :=
  decidable_of_iff' _ (fromPeers_iff ..)

/-- What holds of an update that `syncDoc` gets from elsewhere than the editor. -/
structure Arrives (ids : ClientIds) (sync : Doc K) (u : Update K) : Prop where
  items : ∀ o ∈ u.items, ∀ n, o.client = ids.editor n → o ∈ sync.items
  deps : ∀ o ∈ u.items, ∀ d ∈ o.deps, ids.isLocal d.1 → ∃ p ∈ (sync.apply u).items, p.id = d
  deletes : ∀ i ∈ u.deletes, ids.isLocal i.1 → ∃ p ∈ (sync.apply u).items, p.id = i

section

variable {ids : ClientIds} {sync : Doc K} {u : Update K}

lemma exists_id_apply {i : Nat × Nat} (h : ∃ p ∈ sync.items, p.id = i) (u : Update K) :
    ∃ p ∈ (sync.apply u).items, p.id = i :=
  h.imp fun _ hp => ⟨mem_items_apply_of_mem hp.1, hp.2⟩

lemma FromPeers.arrives (h : FromPeers ids sync u) : Arrives ids sync u where
  items o ho n hn := h.items o ho (hn ▸ ids.editor_local n)
  deps o ho d hd hlocal := exists_id_apply (h.deps o ho d hd hlocal) u
  deletes i hi hlocal := exists_id_apply (h.deletes i hi hlocal) u

lemma arrives_of_localEdit (hclient : sync.client = ids.sync) (h : sync.LocalEdit u) :
    Arrives ids sync u := by
  refine ⟨?_, ?_, ?_⟩
  · intro o ho n hn
    have := (h.own o ho).symm.trans hn
    exact absurd (hclient ▸ this) (ids.editor_ne_sync n).symm
  · intro o ho d hd _
    obtain ⟨p, hid, hp⟩ := (h.integrated o ho).dep hd
    exact ⟨p, hp.mem, hid⟩
  · intro i hi _
    obtain ⟨p, hp, hid⟩ := (h.deleted i hi).integrated
    exact ⟨p, hp.mem, hid⟩

lemma Arrives.own (hu : Arrives ids sync u) (n : Nat) :
    ∀ o ∈ (sync.apply u).items, o.client = ids.editor n → o ∈ sync.items :=
  forall_mem_items_apply.2 ⟨fun _ ho _ => ho, fun o ho => hu.items o ho n⟩

end

/-- Nothing in `syncDoc` refers to an operation that this client has yet to make, `n` being
the number of its editor doc. -/
structure SyncInv (ids : ClientIds) (d : Doc K) (n : Nat) : Prop where
  client : d.client = ids.sync
  deps : ∀ o ∈ d.items, ∀ i ∈ o.deps, ids.isLocal i.1 → ∃ p ∈ d.items, p.id = i
  deletes : ∀ i ∈ d.deletes, ids.isLocal i.1 → ∃ p ∈ d.items, p.id = i
  later : ∀ o ∈ d.items, ∀ m, o.client = ids.editor m → m ≤ n

/-- `e` is the editor doc with the number `n`. What it has and `d` has not it has made itself. -/
structure EditorInv (ids : ClientIds) (d e : Doc K) (n : Nat) : Prop where
  own : ∀ o ∈ d.items, o.client = ids.editor n → o ∈ e.items
  items : ∀ o ∈ e.items, o ∈ d.items ∨ o.client = ids.editor n
  within : d.Within e

structure DocInv (ids : ClientIds) (s : CollaborationProvider K) : Prop where
  wired : s.Wired
  clients : ∀ n, (s.editorDocs n).client = ids.editor n
  unborn : ∀ n, s.replicator.editor < n → s.editorDocs n = Doc.started (ids.editor n) []
  sync : SyncInv ids s.syncDoc s.replicator.editor
  editor : EditorInv ids s.syncDoc s.editorDoc s.replicator.editor

/-- The editor doc holds nothing that `syncDoc` does not hold, and the same has taken effect
in both. -/
structure Lockstep (d e : Doc K) : Prop where
  items : ∀ o ∈ e.items, o ∈ d.items
  deletes : ∀ i ∈ e.deletes, i ∈ d.deletes
  same : d.Same e

lemma lockstep_of_mem_iff {d e : Doc K} (hitems : ∀ o, o ∈ e.items ↔ o ∈ d.items)
    (hdeletes : ∀ i, i ∈ e.deletes ↔ i ∈ d.deletes) : Lockstep d e :=
  ⟨fun o => (hitems o).1, fun i => (hdeletes i).1,
    within_of_subset (fun o => (hitems o).2) (fun i => (hdeletes i).2),
    within_of_subset (fun o => (hitems o).1) (fun i => (hdeletes i).1)⟩

lemma lockstep_initial (ids : ClientIds) :
    Lockstep (CollaborationProvider.initial ids : CollaborationProvider K).syncDoc
      (CollaborationProvider.initial ids).editorDoc :=
  lockstep_of_mem_iff (fun _ => by simp [initial, editorDoc])
    (fun _ => Iff.rfl)

lemma docInv_initial (ids : ClientIds) :
    DocInv ids (CollaborationProvider.initial ids : CollaborationProvider K) := by
  have hitems : ∀ n, (Doc.started n [] : Doc K).items = [] := by simp
  have hdeletes : ∀ n, (Doc.started n [] : Doc K).deletes = [] := fun _ => rfl
  refine ⟨⟨by simp [initial], rfl, rfl⟩, fun _ => rfl, fun _ _ => rfl,
    ⟨rfl, ?_, ?_, ?_⟩, ⟨?_, ?_, (lockstep_initial ids).same.within⟩⟩
  all_goals simp [initial, editorDoc, hitems, hdeletes]

section

variable {ids : ClientIds} {d e : Doc K} {n : Nat} {u : Update K}

lemma SyncInv.extend (h : SyncInv ids d n)
    (hdeps : ∀ o ∈ u.items, ∀ i ∈ o.deps, ids.isLocal i.1 → ∃ p ∈ (d.apply u).items, p.id = i)
    (hdeletes : ∀ i ∈ u.deletes, ids.isLocal i.1 → ∃ p ∈ (d.apply u).items, p.id = i)
    (hlater : ∀ o ∈ u.items, ∀ m, o.client = ids.editor m → m ≤ n) : SyncInv ids (d.apply u) n where
  client := h.client
  deps := forall_mem_items_apply.2
    ⟨fun o ho i hi hlocal => exists_id_apply (h.deps o ho i hi hlocal) u, hdeps⟩
  deletes := forall_mem_deletes_apply.2
    ⟨fun i hi hlocal => exists_id_apply (h.deletes i hi hlocal) u, hdeletes⟩
  later := forall_mem_items_apply.2 ⟨h.later, hlater⟩

lemma SyncInv.apply (h : SyncInv ids d n) (hu : Arrives ids d u) : SyncInv ids (d.apply u) n :=
  h.extend hu.deps hu.deletes fun o ho m hm => h.later o (hu.items o ho m hm) m hm

lemma EditorInv.apply_editor (h : EditorInv ids d e n) (hclient : e.client = ids.editor n)
    (hu : e.LocalEdit u) : EditorInv ids d (e.apply u) n where
  own o ho hown := mem_items_apply_of_mem (h.own o ho hown)
  items := forall_mem_items_apply.2 ⟨h.items, fun o ho => .inr ((hu.own o ho).trans hclient)⟩
  within := h.within.trans (e.within_apply u)

lemma EditorInv.independent (h : EditorInv ids d e n) (hsync : SyncInv ids d n)
    (hclient : e.client = ids.editor n) (hu : e.LocalEdit u) : d.Independent u.items := by
  have hnew : ∀ q ∈ u.items, ∀ p ∈ d.items, p.id ≠ q.id := by
    intro q hq p hp hid
    have hp' : p.client = ids.editor n :=
      (congrArg Prod.fst hid).trans ((hu.own q hq).trans hclient)
    exact hu.fresh q hq p (h.own p hp hp') hid
  have hlocal : ∀ q ∈ u.items, ids.isLocal q.id.1 = true := by
    intro q hq
    have hq' : q.id.1 = ids.editor n := (hu.own q hq).trans hclient
    rw [hq']
    exact ids.editor_local n
  constructor
  · intro p hp q hq hdep
    obtain ⟨p', hp', hid⟩ := hsync.deps p hp q.id hdep (hlocal q hq)
    exact hnew q hq p' hp' hid
  · rintro i hi q hq rfl
    obtain ⟨p', hp', hid⟩ := hsync.deletes q.id hi (hlocal q hq)
    exact hnew q hq p' hp' hid

lemma Lockstep.independent (h : Lockstep d e) (hfree : d.Independent u.items) :
    e.Independent u.items :=
  ⟨fun p hp => hfree.deps p (h.items p hp), fun i hi => hfree.deletes i (h.deletes i hi)⟩

variable [DecidableEq K]

/-! ### Updates of `syncDoc` -/

lemma EditorInv.apply_sync (h : EditorInv ids d e n) (hu : Arrives ids d u) :
    EditorInv ids (d.apply u) (e.apply (Doc.change d (d.apply u))) n where
  own o ho hown := mem_items_apply_of_mem (h.own o (hu.own n o ho hown) hown)
  items := forall_mem_items_apply.2 ⟨fun o ho => (h.items o ho).imp_left mem_items_apply_of_mem,
    fun _ ho => .inl (mem_items_change.1 ho).1.mem⟩
  within := h.within.apply_change _

lemma EditorInv.apply_sync_unchanged (h : EditorInv ids d e n) (hu : Arrives ids d u)
    (hempty : (Doc.change d (d.apply u)).isEmpty) : EditorInv ids (d.apply u) e n where
  own o ho hown := h.own o (hu.own n o ho hown) hown
  items o ho := (h.items o ho).imp_left mem_items_apply_of_mem
  within := (within_of_isEmpty_change hempty).trans h.within

lemma Lockstep.apply_sync (h : Lockstep d e) (u : Update K) :
    Lockstep (d.apply u) (e.apply (Doc.change d (d.apply u))) := by
  have hitems : ∀ o ∈ e.items, o ∈ (d.apply u).items :=
    fun o ho => mem_items_apply_of_mem (h.items o ho)
  have hdeletes : ∀ i ∈ e.deletes, i ∈ (d.apply u).deletes :=
    fun i hi => mem_deletes_apply.2 (.inl (h.deletes i hi))
  refine ⟨?_, ?_, h.same.within.apply_change _, apply_change_within_of_subset hitems hdeletes⟩
  · exact forall_mem_items_apply.2 ⟨hitems, fun _ ho => (mem_items_change.1 ho).1.mem⟩
  · exact forall_mem_deletes_apply.2 ⟨hdeletes, fun _ hi => (mem_deletes_change.1 hi).1.mem⟩

lemma Lockstep.apply_sync_unchanged (h : Lockstep d e)
    (hempty : (Doc.change d (d.apply u)).isEmpty) : Lockstep (d.apply u) e where
  items o ho := mem_items_apply_of_mem (h.items o ho)
  deletes i hi := mem_deletes_apply.2 (.inl (h.deletes i hi))
  same := ⟨(within_of_isEmpty_change hempty).trans h.same.within,
    h.same.within'.trans (d.within_apply u)⟩

/-! ### Edits of the editor doc, with the gate open -/

lemma mem_items_change_of_localEdit (hfree : e.Independent u.items) (hu : e.LocalEdit u)
    {o : Item K} : o ∈ (Doc.change e (e.apply u)).items ↔ o ∈ u.items := by
  rw [mem_items_change]
  constructor
  · rintro ⟨hint, hnot⟩
    rw [items_apply] at hint
    exact (hint.of_independent hfree.deps).resolve_left hnot
  · intro ho
    exact ⟨hu.integrated o ho, fun hint => hu.fresh o ho o hint.mem rfl⟩

lemma Lockstep.apply_editor (h : Lockstep d e) (hfree : d.Independent u.items)
    (hu : e.LocalEdit u) : Lockstep (d.apply (Doc.change e (e.apply u))) (e.apply u) := by
  have hitems := fun o => mem_items_change_of_localEdit (h.independent hfree) hu (o := o)
  refine ⟨?_, ?_, ?_, h.same.within'.apply_change _⟩
  · intro o ho
    rw [mem_items_apply, hitems]
    exact (mem_items_apply.1 ho).imp_left (h.items o)
  · intro i hi
    rw [mem_deletes_apply]
    by_cases hold : e.Deleted i
    · exact .inl (h.deletes i hold.mem)
    · rcases mem_deletes_apply.1 hi with hi | hi
      · exact .inl (h.deletes i hi)
      · exact .inr (mem_deletes_change.2 ⟨hu.deleted i hi, hold⟩)
  · apply apply_change_within_of_independent (h.same.within.trans (e.within_apply u))
    exact ⟨fun p hp q hq => hfree.deps p hp q ((hitems q).1 hq),
      fun i hi q hq => hfree.deletes i hi q ((hitems q).1 hq)⟩

lemma Lockstep.apply_editor_unchanged (h : Lockstep d e) (hu : e.LocalEdit u)
    (hempty : (Doc.change e (e.apply u)).isEmpty) : Lockstep d (e.apply u) := by
  have hwithin := within_of_isEmpty_change hempty
  refine ⟨?_, ?_, h.same.within.trans (e.within_apply u), hwithin.trans h.same.within'⟩
  · exact forall_mem_items_apply.2
      ⟨h.items, fun o ho => h.items o (hwithin.integrated o (hu.integrated o ho)).mem⟩
  · exact forall_mem_deletes_apply.2
      ⟨h.deletes, fun i hi => h.deletes i (hwithin.deleted i (hu.deleted i hi)).mem⟩

lemma SyncInv.apply_editor (h : SyncInv ids d n) (hlock : Lockstep d e)
    (hclient : e.client = ids.editor n) (hfree : d.Independent u.items) (hu : e.LocalEdit u) :
    SyncInv ids (d.apply (Doc.change e (e.apply u))) n := by
  have hsub := (hlock.apply_editor hfree hu).items
  refine h.extend (fun o ho i hi _ => ?_) (fun i hi _ => ?_) fun o ho m hm => ?_
  · obtain ⟨p, hid, hp⟩ := (mem_items_change.1 ho).1.dep hi
    exact ⟨p, hsub p hp.mem, hid⟩
  · obtain ⟨p, hp, hid⟩ := (mem_deletes_change.1 hi).1.integrated
    exact ⟨p, hsub p hp.mem, hid⟩
  · have ho := (mem_items_change_of_localEdit (hlock.independent hfree) hu).1 ho
    exact (ids.editor_injective (hm.symm.trans ((hu.own o ho).trans hclient))).le

lemma EditorInv.apply_editor_mirrored (h : EditorInv ids d e n) (hlock : Lockstep d e)
    (hfree : d.Independent u.items) (hu : e.LocalEdit u) :
    EditorInv ids (d.apply (Doc.change e (e.apply u))) (e.apply u) n := by
  have hlock' := hlock.apply_editor hfree hu
  refine ⟨?_, fun o ho => .inl (hlock'.items o ho), hlock'.same.within⟩
  exact forall_mem_items_apply.2 ⟨fun o ho hown => mem_items_apply_of_mem (h.own o ho hown),
    fun _ ho _ => (mem_items_change.1 ho).1.mem⟩

end

/-! ## The operations of the provider -/

namespace CollaborationProvider

def InLockstep (s : CollaborationProvider K) : Prop := Lockstep s.syncDoc s.editorDoc

end CollaborationProvider

section

variable {ids : ClientIds} {s : CollaborationProvider K} {u : Update K}

lemma DocInv.clients_update (h : DocInv ids s) {m : Nat} {d : Doc K}
    (hd : d.client = ids.editor m) (n : Nat) :
    (Function.update s.editorDocs m d n).client = ids.editor n := by
  rw [update_apply]
  split
  · rename_i hn
    rw [hd, hn]
  · exact h.clients n

lemma DocInv.of_docs (h : DocInv ids s) {sync e : Doc K} {docs : Nat → Doc K} {m : Nat}
    (applied : List (DocName × Update K)) (hdocs : docs = Function.update s.editorDocs m e)
    (hm : m ≤ s.replicator.editor) (hclient : e.client = ids.editor m)
    (hsync : SyncInv ids sync s.replicator.editor)
    (heditor : EditorInv ids sync (docs s.replicator.editor) s.replicator.editor) :
    DocInv ids ⟨sync, docs, s.replicator, s.replaced, applied⟩ where
  wired := { h.wired with }
  clients := hdocs ▸ h.clients_update hclient
  unborn n hn := by
    subst hdocs
    exact (update_of_ne (lt_of_le_of_lt hm hn).ne' _ _).trans (h.unborn n hn)
  sync := hsync
  editor := heditor

lemma DocInv.setOutbound (h : DocInv ids s) (isOpen : Bool) : DocInv ids (s.setOutbound isOpen) :=
  { h with wired := ⟨h.wired.replaced, h.wired.live, h.wired.inbound⟩ }

variable [DecidableEq K] (h : DocInv ids s)
include h

lemma DocInv.transact_sync (hu : Arrives ids s.syncDoc u) : DocInv ids (s.transact .sync u) := by
  rw [h.wired.transact_sync]
  split
  · rename_i hempty
    exact h.of_docs _ (update_eq_self _ _).symm (le_refl _) (h.clients _) (h.sync.apply hu)
      (h.editor.apply_sync_unchanged hu hempty)
  · refine h.of_docs _ rfl (le_refl _) (h.clients _) (h.sync.apply hu) ?_
    simpa using h.editor.apply_sync hu

lemma DocInv.inLockstep_transact_sync (hlock : s.InLockstep) (u : Update K) :
    (s.transact .sync u).InLockstep := by
  rw [h.wired.transact_sync]
  split
  · rename_i hempty
    exact hlock.apply_sync_unchanged hempty
  · simpa [InLockstep, editorDoc] using hlock.apply_sync u

lemma DocInv.transact_editor_closed (hu : s.editorDoc.LocalEdit u)
    (hclosed : s.replicator.outboundOpen = false) :
    DocInv ids (s.transact (.editor s.replicator.editor) u) := by
  simp only [h.wired.transact_editor, hclosed, true_or, if_true]
  refine h.of_docs _ rfl (le_refl _) (h.clients _) h.sync ?_
  simpa using h.editor.apply_editor (h.clients _) hu

lemma DocInv.transact_editor (hlock : s.InLockstep) (hu : s.editorDoc.LocalEdit u) :
    DocInv ids (s.transact (.editor s.replicator.editor) u) := by
  have hfree := h.editor.independent h.sync (h.clients _) hu
  simp only [h.wired.transact_editor]
  split
  · refine h.of_docs _ rfl (le_refl _) (h.clients _) h.sync ?_
    simpa using h.editor.apply_editor (h.clients _) hu
  · refine h.of_docs _ rfl (le_refl _) (h.clients _)
      (h.sync.apply_editor hlock (h.clients _) hfree hu) ?_
    simpa using h.editor.apply_editor_mirrored hlock hfree hu

lemma DocInv.inLockstep_transact_editor (hlock : s.InLockstep) (hu : s.editorDoc.LocalEdit u)
    (hopen : s.replicator.outboundOpen = true) :
    (s.transact (.editor s.replicator.editor) u).InLockstep := by
  have hfree := h.editor.independent h.sync (h.clients _) hu
  simp only [h.wired.transact_editor, hopen, Bool.true_eq_false, false_or]
  split
  · rename_i hempty
    simpa [InLockstep, editorDoc] using hlock.apply_editor_unchanged hu hempty
  · simpa [InLockstep, editorDoc] using hlock.apply_editor hfree hu

lemma DocInv.transact_replaced {n : Nat} (hn : n < s.replicator.editor) :
    DocInv ids (s.transact (.editor n) u) := by
  rw [h.wired.transact_replaced hn.ne]
  refine h.of_docs _ rfl hn.le (h.clients n) h.sync ?_
  rw [update_of_ne hn.ne']
  exact h.editor

lemma DocInv.inLockstep_reset : s.resetEditorDoc.InLockstep := by
  rw [h.wired.resetEditorDoc_eq]
  apply lockstep_of_mem_iff <;> intro x <;>
    simp [editorDoc, h.unborn _ (lt_succ_self _), Doc.asUpdate]

lemma DocInv.reset : DocInv ids s.resetEditorDoc := by
  have hlock := h.inLockstep_reset
  have hwired := h.wired.reset
  rw [h.wired.resetEditorDoc_eq] at hlock hwired ⊢
  refine ⟨hwired, h.clients_update (h.clients _), ?_, ?_, ?_⟩
  · intro m (hm : s.replicator.editor + 1 < m)
    simp only [update_of_ne (by omega : m ≠ s.replicator.editor + 1)]
    exact h.unborn m (by omega)
  · exact { h.sync with later := fun o ho m hm => (h.sync.later o ho m hm).trans (le_succ _) }
  · refine ⟨?_, fun o ho => .inl (hlock.items o ho), hlock.same.within⟩
    intro o ho _
    simpa [editorDoc, h.unborn _ (lt_succ_self _), Doc.asUpdate] using ho

end

/-! ## Both gates open -/

inductive DocEvent (K : Type)
  | edit (n : Nat) (u : Update K)
  | wire (u : Update K)
  | reset

section

variable [DecidableEq K]

def docStep (ids : ClientIds) (s : CollaborationProvider K) :
    DocEvent K → Option (CollaborationProvider K)
  | .edit n u =>
    if n ≤ s.replicator.editor ∧ (s.editorDocs n).LocalEdit u then
      some (s.transact (.editor n) u)
    else none
  | .wire u => if FromPeers ids s.syncDoc u then some (s.transact .sync u) else none
  | .reset => some s.resetEditorDoc

/-- What the listeners have to apply because of an event: what it changed, to the other doc. -/
def CollaborationProvider.mirrored (s : CollaborationProvider K) :
    DocEvent K → List (DocName × Update K)
  | .edit n u =>
    let changed := Doc.change (s.editorDocs n) ((s.editorDocs n).apply u)
    if n ≠ s.replicator.editor ∨ changed.isEmpty then [] else [(.sync, changed)]
  | .wire u =>
    let changed := Doc.change s.syncDoc (s.syncDoc.apply u)
    if changed.isEmpty then [] else [(.editor s.replicator.editor, changed)]
  | .reset => []

def DocEvent.onReplaced (s : CollaborationProvider K) : DocEvent K → Prop
  | .edit n _ => n ≠ s.replicator.editor
  | _ => False

structure OpenInv (ids : ClientIds) (s : CollaborationProvider K) : Prop where
  docs : DocInv ids s
  lockstep : s.InLockstep
  isOpen : s.replicator.outboundOpen = true

variable {ids : ClientIds} {s s' : CollaborationProvider K} {a : DocEvent K}

lemma replicator_transact (hwired : s.Wired) (name : DocName) (u : Update K) :
    (s.transact name u).replicator = s.replicator := by
  cases name with
  | sync =>
    rw [hwired.transact_sync]
    split <;> rfl
  | editor n =>
    by_cases hn : n = s.replicator.editor
    · rw [hn, hwired.transact_editor]
      simp only
      split <;> rfl
    · rw [hwired.transact_replaced hn]

lemma OpenInv.step (h : OpenInv ids s) (hs : docStep ids s a = some s') :
    OpenInv ids s' ∧ s'.applied = s.applied ++ s.mirrored a ∧
      (a.onReplaced s → s'.syncDoc = s.syncDoc ∧ s'.editorDoc = s.editorDoc) := by
  cases a with
  | edit n u =>
    obtain ⟨⟨hle, hu⟩, rfl⟩ := Option.ite_some_none_eq_some.1 hs
    have hopen := (replicator_transact h.docs.wired (.editor n) u).symm ▸ h.isOpen
    by_cases hn : n = s.replicator.editor
    · subst hn
      refine ⟨⟨h.docs.transact_editor h.lockstep hu,
        h.docs.inLockstep_transact_editor h.lockstep hu h.isOpen, hopen⟩, ?_, absurd rfl⟩
      rw [h.docs.wired.transact_editor]
      simp only [h.isOpen, Bool.true_eq_false, false_or, mirrored, ne_eq, not_true_eq_false,
        editorDoc]
      split <;> simp
    · have hinv := h.docs.transact_replaced (u := u) (by omega : n < s.replicator.editor)
      rw [h.docs.wired.transact_replaced hn] at hinv hopen ⊢
      have heditor := update_of_ne (Ne.symm hn) ((s.editorDocs n).apply u) s.editorDocs
      refine ⟨⟨hinv, ?_, hopen⟩, by simp [mirrored, hn], fun _ => ⟨rfl, heditor⟩⟩
      simpa [InLockstep, editorDoc, heditor] using h.lockstep
  | wire u =>
    obtain ⟨hu, rfl⟩ := Option.ite_some_none_eq_some.1 hs
    refine ⟨⟨h.docs.transact_sync hu.arrives, h.docs.inLockstep_transact_sync h.lockstep u,
      (replicator_transact h.docs.wired .sync u).symm ▸ h.isOpen⟩, ?_, False.elim⟩
    rw [h.docs.wired.transact_sync]
    simp only [mirrored]
    split <;> simp
  | reset =>
    cases hs
    refine ⟨⟨h.docs.reset, h.docs.inLockstep_reset, ?_⟩, ?_, False.elim⟩
    all_goals simp [h.docs.wired.resetEditorDoc_eq, mirrored]

/-- After every event the same operations are integrated in both docs, each change is applied to the
other doc once and goes no further, and an editor doc that has been replaced no longer matters. -/
theorem docs_in_lockstep (hrun : Run (docStep ids) anyStep (.initial ids) s) :
    Lockstep s.syncDoc s.editorDoc ∧ ∀ a s', docStep ids s a = some s' →
      s'.applied = s.applied ++ s.mirrored a ∧
        (a.onReplaced s → s'.syncDoc = s.syncDoc ∧ s'.editorDoc = s.editorDoc) := by
  have hinv := hrun.invariant (P := OpenInv ids)
    ⟨docInv_initial ids, lockstep_initial ids, rfl⟩ fun _ _ _ h _ hs => (h.step hs).1
  exact ⟨hinv.lockstep, fun a s' hs => (hinv.step hs).2⟩

end

def evenIds : ClientIds where
  sync := 0
  editor n := 2 * n + 2
  isLocal c := c % 2 = 0
  sync_local := rfl
  editor_local n := by simp
  editor_ne_sync n := by simp
  editor_injective a b h := by
    have : 2 * a + 2 = 2 * b + 2 := h
    omega

/-- A peer's second character arrives before its first, the editor types, the editor doc is
replaced while the character is still waiting, and the first one arrives. -/
def outOfOrder : List (DocEvent Nat) :=
  [.wire ⟨[⟨7, 1, [(7, 0)], some 0x62⟩], []⟩, .edit 0 ⟨[⟨2, 0, [], some 0x78⟩], []⟩, .reset,
    .edit 0 ⟨[⟨2, 1, [], some 0x79⟩], []⟩, .wire ⟨[⟨7, 0, [], some 0x61⟩], []⟩]

theorem docs_in_lockstep_outOfOrder :
    ∃ s : CollaborationProvider Nat, Run (docStep evenIds) anyStep (.initial evenIds) s ∧
      s.applied.length = 2 ∧ Lockstep s.syncDoc s.editorDoc :=
  exists_run_and outOfOrder (by decide +kernel) fun _ hrun => (docs_in_lockstep hrun).1

/-- An operation that waits for another in `syncDoc` is no change, so the editor doc does not
get it. -/
theorem waiting_operation_only_in_syncDoc :
    ¬ ∀ s : CollaborationProvider Nat, Run (docStep evenIds) anyStep (.initial evenIds) s →
      ∀ o, o ∈ s.syncDoc.items ↔ o ∈ s.editorDoc.items := by
  intro hsame
  have hrun : ∃ s ∈ exec (docStep evenIds) anyStep (.initial evenIds)
      [.wire ⟨[⟨7, 1, [(7, 0)], some 0x62⟩], []⟩],
      ⟨7, 1, [(7, 0)], some 0x62⟩ ∈ s.syncDoc.items ∧ s.editorDoc.items = [] := by
    decide +kernel
  obtain ⟨s, hs, hsync, heditor⟩ := hrun
  have hmem := (hsame s (run_of_exec hs) _).1 hsync
  simp [heditor] at hmem

end CollabEditor.Frontend
