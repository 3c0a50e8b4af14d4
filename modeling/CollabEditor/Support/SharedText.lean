import CollabEditor.Support.CausalOps
import Mathlib.Data.List.Sort
import Mathlib.Data.Prod.Lex
import Mathlib.Logic.Equiv.List
/-!
# Replicas of a shared text

A text is edited by inserting items, each with one character (or nothing that is shown), and by
deleting items by id.  A replica shows the items it has integrated and not deleted, in an order of
all items.
-/

namespace CollabEditor.Support.SharedText

open CausalOps List

variable {K : Type}

abbrev Item (K : Type) := Op (Option K)

structure Update (K : Type) where
  items : List (Item K)
  deletes : List (Nat × Nat)
  deriving DecidableEq

instance [DecidableEq K] : LawfulBEq (Item K) := inferInstance

instance [DecidableEq K] : LawfulBEq (Update K) := inferInstance

/-- The items of a text that `client` types into an empty document: each character
follows the one before it. -/
def seed (client : Nat) (text : List K) : List (Item K) :=
  text.mapIdx fun k c =>
    ⟨client, k, match k with | 0 => [] | j + 1 => [(client, j)], some c⟩

/-- A replica: the text it was created with, under its own client id, and the
updates applied to it since, in order. -/
structure Doc (K : Type) where
  client : Nat
  content : List K
  updates : List (Update K)
  deriving DecidableEq

namespace Doc

def apply (d : Doc K) (u : Update K) : Doc K :=
  { d with updates := d.updates ++ [u] }

def applyAll (d : Doc K) (us : List (Update K)) : Doc K :=
  { d with updates := d.updates ++ us }

def items (d : Doc K) : List (Item K) :=
  seed d.client d.content ++ d.updates.flatMap Update.items

def deletes (d : Doc K) : List (Nat × Nat) :=
  d.updates.flatMap Update.deletes

structure Shows (d : Doc K) (o : Item K) : Prop where
  integrated : Integrated d.items o
  hasContent : o.content.isSome
  notDeleted : o.id ∉ d.deletes

lemma items_applyAll (d : Doc K) (us : List (Update K)) :
    (d.applyAll us).items = d.items ++ us.flatMap Update.items := by
  simp [items, applyAll]

lemma deletes_applyAll (d : Doc K) (us : List (Update K)) :
    (d.applyAll us).deletes = d.deletes ++ us.flatMap Update.deletes := by
  simp [deletes, applyAll]

@[simp] lemma applyAll_nil (d : Doc K) : d.applyAll [] = d := by
  simp [applyAll]

lemma applyAll_cons (d : Doc K) (u : Update K) (us : List (Update K)) :
    d.applyAll (u :: us) = (d.apply u).applyAll us := by
  simp [applyAll, apply]

lemma applyAll_append (d : Doc K) (us vs : List (Update K)) :
    d.applyAll (us ++ vs) = (d.applyAll us).applyAll vs := by
  simp [applyAll]

end Doc

/-! ## The text -/

/-- An order of all items, by their position on a line. -/
structure DocOrder (K P : Type) [LinearOrder P] where
  pos : Item K → P
  injective : Function.Injective pos

/-- Items in the order of their ids, then of the rest of what they hold. -/
def DocOrder.byId [Encodable K] : DocOrder K (Nat ×ₗ Nat ×ₗ Nat) where
  pos o := toLex (o.client, toLex (o.clock, Encodable.encode (o.refs, o.content)))
  injective := by
    rintro ⟨client, clock, refs, content⟩ ⟨client', clock', refs', content'⟩ h
    simp only [toLex_inj, Prod.mk.injEq, Encodable.encode_inj] at h
    obtain ⟨rfl, rfl, rfl, rfl⟩ := h
    rfl

section

variable {P : Type} [LinearOrder P] [DecidableEq K]

def DocOrder.le (order : DocOrder K P) (a b : Item K) : Prop := order.pos a ≤ order.pos b

instance (order : DocOrder K P) : DecidableRel order.le :=
  fun a b => inferInstanceAs (Decidable (order.pos a ≤ order.pos b))

instance (order : DocOrder K P) : IsTrans (Item K) order.le :=
  ⟨fun _ _ _ hab hbc => le_trans hab hbc⟩

instance (order : DocOrder K P) : Std.Total order.le :=
  ⟨fun a b => le_total (order.pos a) (order.pos b)⟩

instance (order : DocOrder K P) : Std.Antisymm order.le :=
  ⟨fun _ _ hab hba => order.injective (le_antisymm hab hba)⟩

namespace Doc

def visible (d : Doc K) : List (Item K) :=
  (integrate d.items).filter fun o => o.content.isSome && decide (o.id ∉ d.deletes)

def text (order : DocOrder K P) (d : Doc K) : List K :=
  (d.visible.insertionSort order.le).filterMap (·.content)

lemma mem_visible {d : Doc K} {o : Item K} : o ∈ d.visible ↔ d.Shows o := by
  rw [visible, mem_filter, mem_integrate_iff, Bool.and_eq_true, decide_eq_true_eq]
  constructor
  · rintro ⟨hint, hsome, hdel⟩
    exact ⟨hint, hsome, hdel⟩
  · intro h
    exact ⟨h.integrated, h.hasContent, h.notDeleted⟩

lemma visible_nodup (d : Doc K) : d.visible.Nodup :=
  (settle_nodup d.items.length nodup_nil).filter _

lemma length_text (order : DocOrder K P) (d : Doc K) :
    (d.text order).length = d.visible.length := by
  have hsome : ∀ o ∈ d.visible.insertionSort order.le, o.content.isSome := by
    intro o ho
    exact (mem_visible.1 ((mem_insertionSort order.le).1 ho)).hasContent
  rw [text, length_filterMap_eq_countP, countP_eq_length.2 hsome, length_insertionSort]

lemma text_eq_nil_iff {order : DocOrder K P} {d : Doc K} : d.text order = [] ↔ d.visible = [] := by
  rw [← length_eq_zero_iff, length_text, length_eq_zero_iff]

lemma text_eq_of_shows_iff (order : DocOrder K P) {d e : Doc K}
    (h : ∀ o, d.Shows o ↔ e.Shows o) : d.text order = e.text order := by
  have hperm : d.visible.Perm e.visible := by
    apply (perm_ext_iff_of_nodup d.visible_nodup e.visible_nodup).2
    intro o
    rw [mem_visible, mem_visible, h]
  have hsorted : d.visible.insertionSort order.le = e.visible.insertionSort order.le := by
    apply List.Perm.eq_of_pairwise' (pairwise_insertionSort order.le _)
      (pairwise_insertionSort order.le _)
    exact (perm_insertionSort order.le _).trans
      (hperm.trans (perm_insertionSort order.le _).symm)
  rw [text, text, hsorted]

/-- A replica that shows no more than another shows the same text only if it shows
the same items: characters are not made up for elsewhere. -/
lemma text_eq_iff_of_shows_imp (order : DocOrder K P) {d e : Doc K}
    (h : ∀ o, d.Shows o → e.Shows o) :
    d.text order = e.text order ↔ ∀ o, e.Shows o → d.Shows o := by
  constructor
  · intro htext
    have hsub : d.visible ⊆ e.visible := by
      intro o ho
      exact mem_visible.2 (h o (mem_visible.1 ho))
    have hlen : e.visible.length ≤ d.visible.length := by
      rw [← length_text order, ← length_text order, htext]
    have hperm := (subperm_of_subset d.visible_nodup hsub).perm_of_length_le hlen
    intro o ho
    exact mem_visible.1 (hperm.mem_iff.2 (mem_visible.2 ho))
  · intro hback
    exact text_eq_of_shows_iff order fun o => ⟨h o, hback o⟩

end Doc

end

/-! ## Updates that stay pending -/

/-- Nothing of the updates takes effect: their items stay pending, and no item shown is
among those they delete. -/
@[mk_iff]
structure StayPending [DecidableEq K] (d : Doc K) (us : List (Update K)) : Prop where
  items : ∀ o ∈ us.flatMap Update.items, ¬ Integrated (d.applyAll us).items o
  deletes : ∀ o ∈ d.visible, o.id ∉ us.flatMap Update.deletes

instance [DecidableEq K] (d : Doc K) (us : List (Update K)) : Decidable (StayPending d us) :=
  decidable_of_iff' _ (stayPending_iff ..)

lemma StayPending.text_applyAll {P : Type} [LinearOrder P] [DecidableEq K]
    (order : DocOrder K P) {d : Doc K} {us : List (Update K)} (h : StayPending d us) :
    (d.applyAll us).text order = d.text order := by
  have hitems := h.items
  rw [d.items_applyAll] at hitems
  apply Doc.text_eq_of_shows_iff
  intro o
  constructor
  · rintro ⟨hint, hsome, hdel⟩
    rw [d.items_applyAll] at hint
    rw [d.deletes_applyAll, mem_append, not_or] at hdel
    exact ⟨hint.of_pending hitems, hsome, hdel.1⟩
  · intro ho
    refine ⟨?_, ho.hasContent, ?_⟩
    · rw [d.items_applyAll]
      exact ho.integrated.mono fun p hp => mem_append_left _ hp
    · rw [d.deletes_applyAll, mem_append, not_or]
      exact ⟨ho.notDeleted, h.deletes o (Doc.mem_visible.2 ho)⟩

/-! ## Updates made on a replica -/

/-- What an update of a client that edits `d` has to do with it: its items are new
there, and it deletes only items of `d` or its own. -/
@[mk_iff]
structure MadeOn (d : Doc K) (u : Update K) : Prop where
  fresh : ∀ o ∈ u.items, ∀ p ∈ d.items, p.id ≠ o.id
  known : ∀ i ∈ u.deletes, ∃ p ∈ d.items ++ u.items, p.id = i

instance (d : Doc K) (u : Update K) : Decidable (MadeOn d u) :=
  decidable_of_iff' _ (madeOn_iff ..)

/-- Each of the updates is made on the replica that the ones before it lead to. -/
def MadeInOrder (d : Doc K) : List (Update K) → Prop
  | [] => True
  | u :: us => MadeOn d u ∧ MadeInOrder (d.apply u) us

instance decidableMadeInOrder : (d : Doc K) → (us : List (Update K)) → Decidable (MadeInOrder d us)
  | _, [] => inferInstanceAs (Decidable True)
  | d, u :: us =>
    have := decidableMadeInOrder (d.apply u) us
    inferInstanceAs (Decidable (MadeOn d u ∧ MadeInOrder (d.apply u) us))

namespace MadeInOrder

variable {d : Doc K} {us vs : List (Update K)}

lemma append_iff :
    MadeInOrder d (us ++ vs) ↔ MadeInOrder d us ∧ MadeInOrder (d.applyAll us) vs := by
  induction us generalizing d with
  | nil => simp [MadeInOrder]
  | cons u us ih => rw [cons_append, MadeInOrder, MadeInOrder, ih, d.applyAll_cons, and_assoc]

lemma fresh (h : MadeInOrder d us) :
    ∀ o ∈ us.flatMap Update.items, ∀ p ∈ d.items, p.id ≠ o.id := by
  induction us generalizing d with
  | nil => simp
  | cons u us ih =>
    intro o ho p hp
    rw [flatMap_cons, mem_append] at ho
    rcases ho with ho | ho
    · exact h.1.fresh o ho p hp
    · apply ih h.2 o ho p
      simp only [Doc.items, Doc.apply, flatMap_append, ← append_assoc]
      exact mem_append_left _ hp

lemma known (h : MadeInOrder d us) :
    ∀ i ∈ us.flatMap Update.deletes, ∃ p ∈ (d.applyAll us).items, p.id = i := by
  induction us generalizing d with
  | nil => simp
  | cons u us ih =>
    intro i hi
    rw [flatMap_cons, mem_append] at hi
    rcases hi with hi | hi
    · obtain ⟨p, hp, hid⟩ := h.1.known i hi
      refine ⟨p, ?_, hid⟩
      rw [d.items_applyAll, flatMap_cons, ← append_assoc]
      exact mem_append_left _ hp
    · rw [d.applyAll_cons]
      exact ih h.2 i hi

end MadeInOrder

section

variable {d : Doc K} {us vs : List (Update K)} {o : Item K}

/-- The replica that `client` starts with nothing and that gets `vs`. -/
def Doc.started (client : Nat) (vs : List (Update K)) : Doc K := ⟨client, [], vs⟩

@[simp] lemma Doc.items_started (client : Nat) (vs : List (Update K)) :
    (Doc.started client vs).items = vs.flatMap Update.items := by
  simp [started, items, seed]

lemma shows_of_shows_started {client : Nat} (hd : d.updates = [])
    (hmade : MadeInOrder d (us ++ vs)) (h : (Doc.started client vs).Shows o) :
    (d.applyAll (us ++ vs)).Shows o := by
  obtain ⟨hus, hvs⟩ := MadeInOrder.append_iff.1 hmade
  have hint := h.integrated
  rw [Doc.items_started] at hint
  refine ⟨hint.mono ?_, h.hasContent, ?_⟩
  · intro p hp
    rw [d.items_applyAll, flatMap_append]
    exact mem_append_right _ (mem_append_right _ hp)
  · rw [d.deletes_applyAll, flatMap_append, Doc.deletes, hd, flatMap_nil, nil_append, mem_append]
    rintro (hdel | hdel)
    · obtain ⟨p, hp, hid⟩ := hus.known _ hdel
      exact hvs.fresh o hint.mem p hp hid
    · exact h.notDeleted hdel

/-- A replica that starts with nothing and gets only the last updates shows the full
text exactly when everything that is shown can be integrated from these alone. -/
lemma text_started_eq_iff {P : Type} [LinearOrder P] [DecidableEq K] (order : DocOrder K P)
    {client : Nat} (hd : d.updates = []) (hmade : MadeInOrder d (us ++ vs)) :
    (Doc.started client vs).text order = (d.applyAll (us ++ vs)).text order ↔
      ∀ o, (d.applyAll (us ++ vs)).Shows o → Integrated (vs.flatMap Update.items) o := by
  rw [Doc.text_eq_iff_of_shows_imp order fun o => shows_of_shows_started hd hmade]
  constructor
  · intro h o ho
    have hint := (h o ho).integrated
    rwa [Doc.items_started] at hint
  · intro h o ho
    refine ⟨?_, ho.hasContent, ?_⟩
    · rw [Doc.items_started]
      exact h o ho
    · intro hdel
      apply ho.notDeleted
      rw [d.deletes_applyAll, flatMap_append]
      exact mem_append_right _ (mem_append_right _ hdel)

end

end CollabEditor.Support.SharedText
