import CollabEditor.Support.Replication
/-!
# What an update changes

`Doc.change` is what took effect when an update was applied, with the waiting operations that went
ahead.  It brings another replica to the same state, provided it sets nothing free there.
-/

namespace CollabEditor.Support

namespace CausalOps

variable {χ : Type} {known new : List (Op χ)} {o : Op χ}

/-- What nothing known waits for sets nothing known free. -/
lemma Integrated.of_independent (hfree : ∀ p ∈ known, ∀ q ∈ new, q.id ∉ p.deps)
    (h : Integrated (known ++ new) o) : Integrated known o ∨ o ∈ new := by
  induction h with
  | @intro o dep hmem hid hdep ih =>
    rcases List.mem_append.1 hmem with hknown | hnew
    · left
      refine .intro dep hknown hid fun d hd => ?_
      rcases ih d hd with hint | hnew
      · exact hint
      · have hdeps : (dep d).id ∈ o.deps := by
          rw [hid d hd]
          exact hd
        exact absurd hdeps (hfree o hknown _ hnew)
    · exact .inr hnew

end CausalOps

namespace SharedText

open CausalOps

variable {K : Type}

def Update.isEmpty (u : Update K) : Bool := u.items.isEmpty && u.deletes.isEmpty

namespace Doc

/-- The deletion of `i` has taken effect. -/
structure Deleted (d : Doc K) (i : Nat × Nat) : Prop where
  mem : i ∈ d.deletes
  integrated : ∃ o, Integrated d.items o ∧ o.id = i

structure NothingWaiting (d : Doc K) : Prop where
  items : ∀ o ∈ d.items, Integrated d.items o
  deletes : ∀ i ∈ d.deletes, d.Deleted i

structure Within (d e : Doc K) : Prop where
  integrated : ∀ o, Integrated d.items o → Integrated e.items o
  deleted : ∀ i, d.Deleted i → e.Deleted i

structure Same (d e : Doc K) : Prop where
  within : d.Within e
  within' : e.Within d

variable {d e : Doc K}

lemma Within.trans {f : Doc K} (h : d.Within e) (h' : e.Within f) : d.Within f :=
  ⟨fun o ho => h'.integrated o (h.integrated o ho), fun i hi => h'.deleted i (h.deleted i hi)⟩

lemma Same.symm (h : d.Same e) : e.Same d := ⟨h.within', h.within⟩

lemma within_of_subset (hitems : ∀ o ∈ d.items, o ∈ e.items)
    (hdeletes : ∀ i ∈ d.deletes, i ∈ e.deletes) : d.Within e := by
  refine ⟨fun o ho => ho.mono hitems, fun i hi => ?_⟩
  obtain ⟨o, ho, hid⟩ := hi.integrated
  exact ⟨hdeletes i hi.mem, o, ho.mono hitems, hid⟩

lemma within_apply (d : Doc K) (u : Update K) : d.Within (d.apply u) :=
  within_of_subset (fun _ => mem_items_apply_of_mem) (fun _ hi => mem_deletes_apply.2 (.inl hi))

lemma Same.shows (h : d.Same e) {o : Item K} (ho : d.Shows o) : e.Shows o := by
  refine ⟨h.within.integrated o ho.integrated, ho.hasContent, fun hdel => ho.notDeleted ?_⟩
  exact (h.within'.deleted o.id ⟨hdel, o, h.within.integrated o ho.integrated, rfl⟩).mem

lemma Same.text_eq {P : Type} [LinearOrder P] [DecidableEq K] (order : DocOrder K P)
    (h : d.Same e) : d.text order = e.text order :=
  text_eq_of_shows_iff order fun _ => ⟨h.shows, h.symm.shows⟩

section

variable [DecidableEq K]

instance (d : Doc K) (i : Nat × Nat) : Decidable (d.Deleted i) :=
  decidable_of_iff (i ∈ d.deletes ∧ ∃ o ∈ integrate d.items, o.id = i) <| by
    constructor
    · rintro ⟨hmem, o, ho, hid⟩
      exact ⟨hmem, o, mem_integrate_iff.1 ho, hid⟩
    · rintro ⟨hmem, o, ho, hid⟩
      exact ⟨hmem, o, mem_integrate_iff.2 ho, hid⟩

/-- What has taken effect in `after` and not in `before`. -/
def change (before after : Doc K) : Update K where
  items := (integrate after.items).filter fun o => decide (¬ Integrated before.items o)
  deletes := after.deletes.filter fun i => decide (after.Deleted i ∧ ¬ before.Deleted i)

variable {d e : Doc K}

@[simp] lemma mem_items_change {o : Item K} :
    o ∈ (change d e).items ↔ Integrated e.items o ∧ ¬ Integrated d.items o := by
  rw [change, List.mem_filter, mem_integrate_iff, decide_eq_true_eq]

@[simp] lemma mem_deletes_change {i : Nat × Nat} :
    i ∈ (change d e).deletes ↔ e.Deleted i ∧ ¬ d.Deleted i := by
  rw [change, List.mem_filter, decide_eq_true_eq]
  exact ⟨fun h => h.2, fun h => ⟨h.1.mem, h⟩⟩

@[simp] lemma isEmpty_change_self (d : Doc K) : (change d d).isEmpty := by
  simp +contextual [change, Update.isEmpty, mem_integrate_iff]

lemma within_of_isEmpty_change (h : (change d e).isEmpty) : e.Within d := by
  simp only [Update.isEmpty, Bool.and_eq_true, List.isEmpty_iff] at h
  constructor
  · intro o ho
    by_contra hnot
    have := mem_items_change.2 ⟨ho, hnot⟩
    simp [h.1] at this
  · intro i hi
    by_contra hnot
    have := mem_deletes_change.2 ⟨hi, hnot⟩
    simp [h.2] at this

lemma Within.apply_change (h : d.Within e) (d' : Doc K) : d'.Within (e.apply (change d d')) := by
  have hint : ∀ o, Integrated d'.items o → Integrated (e.apply (change d d')).items o := by
    intro o ho
    induction ho with
    | @intro o dep hmem hid hdep ih =>
      by_cases hold : Integrated d.items o
      · exact (within_apply e _).integrated o (h.integrated o hold)
      · have hnew := mem_items_change.2 ⟨.intro dep hmem hid hdep, hold⟩
        exact .intro dep (mem_items_apply.2 (.inr hnew)) hid ih
  refine ⟨hint, fun i hi => ?_⟩
  by_cases hold : d.Deleted i
  · exact (within_apply e _).deleted i (h.deleted i hold)
  · obtain ⟨o, ho, hid⟩ := hi.integrated
    exact ⟨mem_deletes_apply.2 (.inr (mem_deletes_change.2 ⟨hi, hold⟩)), o, hint o ho, hid⟩

lemma apply_change_within_of_subset {d' : Doc K} (hitems : ∀ o ∈ e.items, o ∈ d'.items)
    (hdeletes : ∀ i ∈ e.deletes, i ∈ d'.deletes) : (e.apply (change d d')).Within d' :=
  within_of_subset
    (forall_mem_items_apply.2 ⟨hitems, fun _ ho => (mem_items_change.1 ho).1.mem⟩)
    (forall_mem_deletes_apply.2 ⟨hdeletes, fun _ hi => (mem_deletes_change.1 hi).1.mem⟩)

/-- Nothing that `e` holds, be it waiting or not, depends on the items or deletes them. -/
structure Independent (e : Doc K) (items : List (Item K)) : Prop where
  deps : ∀ p ∈ e.items, ∀ q ∈ items, q.id ∉ p.deps
  deletes : ∀ i ∈ e.deletes, ∀ q ∈ items, q.id ≠ i

lemma apply_change_within_of_independent {d' : Doc K} (h : e.Within d')
    (hfree : e.Independent (change d d').items) : (e.apply (change d d')).Within d' := by
  have hsplit : ∀ o, Integrated (e.apply (change d d')).items o →
      Integrated e.items o ∨ o ∈ (change d d').items := by
    intro o ho
    rw [items_apply] at ho
    exact ho.of_independent hfree.deps
  constructor
  · intro o ho
    rcases hsplit o ho with hold | hnew
    · exact h.integrated o hold
    · exact (mem_items_change.1 hnew).1
  · rintro i ⟨hmem, o, ho, hid⟩
    rcases mem_deletes_apply.1 hmem with hi | hi
    · rcases hsplit o ho with hold | hnew
      · exact h.deleted i ⟨hi, o, hold, hid⟩
      · exact absurd hid (hfree.deletes i hi o hnew)
    · exact (mem_deletes_change.1 hi).1

end

/-! ## Local edits -/

/-- An update that the owner of `d` makes on it: all of it takes effect at once. -/
@[mk_iff]
structure LocalEdit (d : Doc K) (u : Update K) : Prop where
  own : ∀ o ∈ u.items, o.client = d.client
  fresh : ∀ o ∈ u.items, ∀ p ∈ d.items, p.id ≠ o.id
  integrated : ∀ o ∈ u.items, Integrated (d.apply u).items o
  deleted : ∀ i ∈ u.deletes, (d.apply u).Deleted i

instance [DecidableEq K] (d : Doc K) (u : Update K) : Decidable (d.LocalEdit u) :=
  decidable_of_iff' _ (localEdit_iff ..)

end Doc

end SharedText

end CollabEditor.Support
