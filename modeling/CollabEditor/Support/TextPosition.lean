import CollabEditor.Support.SharedText
import CollabEditor.Support.TextDiff
/-!
# Positions that move with the text

A position is the id of the item it is in front of, or the end of the text, whether or not the item
itself is still shown.
-/

namespace CollabEditor.Support

open List

section

variable {α β : Type}

lemma take_drop_countP {r : α → α → Prop} {l : List α} (hl : l.Pairwise r) {b : α → Bool}
    (hdown : ∀ x y, r x y → b y → b x) :
    l.filter b = l.take (l.countP b) ∧ l.filter (fun x => !b x) = l.drop (l.countP b) := by
  induction l with
  | nil => exact ⟨rfl, rfl⟩
  | cons x l ih =>
    obtain ⟨hx, hl⟩ := pairwise_cons.1 hl
    by_cases hb : b x
    · simp [hb, ih hl]
    · have hnone : ∀ y ∈ l, ¬ b y := fun y hy h => hb (hdown x y (hx y hy) h)
      rw [filter_cons_of_neg hb, countP_cons_of_neg hb, countP_eq_zero.2 hnone,
        filter_eq_nil_iff.2 hnone, filter_eq_self.2 (by simpa [hb] using hnone)]
      exact ⟨rfl, rfl⟩

lemma filterMap_take_drop {f : α → Option β} {l : List α} (h : ∀ x ∈ l, (f x).isSome) (n : Nat) :
    (l.take n).filterMap f = (l.filterMap f).take n ∧
      (l.drop n).filterMap f = (l.filterMap f).drop n := by
  induction l generalizing n with
  | nil => simp
  | cons x l ih =>
    obtain ⟨y, hy⟩ := Option.isSome_iff_exists.1 (h x mem_cons_self)
    cases n with
    | zero => simp
    | succ n => simp [hy, ih fun z hz => h z (mem_cons_of_mem _ hz)]

end

namespace SharedText

open CausalOps TextDiff

variable {K : Type} {P : Type} [LinearOrder P] [DecidableEq K] (order : DocOrder K P)

inductive Position
  | before (id : Nat × Nat)
  | textEnd
  deriving DecidableEq

namespace Doc

/-- The items shown, in the order of the text. -/
def inOrder (d : Doc K) : List (Item K) := d.visible.insertionSort order.le

def positionAt (d : Doc K) (n : Nat) : Position :=
  match (d.inOrder order)[n]? with
  | some o => .before o.id
  | none => .textEnd

/-- Which items are before the position; none if the item of the position is not known. -/
def cut (d : Doc K) : Position → Option (Item K → Bool)
  | .before id =>
    ((integrate d.items).find? fun o => o.id = id).map fun o x => decide (order.pos x < order.pos o)
  | .textEnd => some fun _ => true

def index (d : Doc K) (p : Position) : Option Nat := (d.cut order p).map fun b => d.visible.countP b

/-- The text from `p` to `q`, if these are known and in this order. -/
def between (d : Doc K) (p q : Position) : Option (List K) :=
  match d.cut order p, d.cut order q with
  | some b, some b' =>
    if ∀ o ∈ d.visible, b o → b' o then
      some (((d.inOrder order).filter fun o => !b o && b' o).filterMap (·.content))
    else none
  | _, _ => none

variable {order} {d : Doc K} {p q : Position} {b b' : Item K → Bool}

lemma text_eq_filterMap (order : DocOrder K P) (d : Doc K) :
    d.text order = (d.inOrder order).filterMap (·.content) := rfl

lemma pairwise_inOrder (order : DocOrder K P) (d : Doc K) : (d.inOrder order).Pairwise order.le :=
  pairwise_insertionSort order.le _

lemma mem_inOrder {o : Item K} : o ∈ d.inOrder order ↔ o ∈ d.visible :=
  mem_insertionSort order.le

lemma countP_inOrder (order : DocOrder K P) (b : Item K → Bool) :
    (d.inOrder order).countP b = d.visible.countP b :=
  (perm_insertionSort order.le d.visible).countP_eq b

variable (h : d.cut order p = some b)
include h

lemma cut_down : ∀ x y, order.le x y → b y → b x := by
  intro x y hle hy
  cases p with
  | before id =>
    obtain ⟨o, -, rfl⟩ := Option.map_eq_some_iff.1 h
    have hlt : order.pos y < order.pos o := by simpa using hy
    exact decide_eq_true (lt_of_le_of_lt hle hlt)
  | textEnd =>
    cases h
    rfl

lemma countP_le_iff (h' : d.cut order q = some b') :
    d.visible.countP b ≤ d.visible.countP b' ↔ ∀ o ∈ d.visible, b o → b' o := by
  constructor
  · intro hle o ho hb
    have htake := (take_drop_countP (d.pairwise_inOrder order) (cut_down h)).1
    have htake' := (take_drop_countP (d.pairwise_inOrder order) (cut_down h')).1
    rw [countP_inOrder] at htake htake'
    have hmem : o ∈ (d.inOrder order).filter b := mem_filter.2 ⟨mem_inOrder.2 ho, hb⟩
    rw [htake] at hmem
    have hmem' : o ∈ (d.inOrder order).filter b' := by
      rw [htake']
      exact (take_subset_take_left _ hle) hmem
    exact (mem_filter.1 hmem').2
  · exact fun hsub => countP_mono_left hsub

lemma between_eq (h' : d.cut order q = some b') (hsub : ∀ o ∈ d.visible, b o → b' o) :
    ((d.inOrder order).filter fun o => !b o && b' o).filterMap (·.content) =
      slice (d.text order) (d.visible.countP b) (d.visible.countP b') := by
  have hsome : ∀ o ∈ d.inOrder order, o.content.isSome :=
    fun o ho => (mem_visible.1 (mem_inOrder.1 ho)).hasContent
  have hsorted := d.pairwise_inOrder order
  have hcount : ((d.inOrder order).filter b').countP b = d.visible.countP b := by
    rw [countP_filter, ← countP_inOrder order]
    apply countP_congr
    intro o ho
    have := hsub o (mem_inOrder.1 ho)
    simp only [Bool.and_eq_true]
    exact ⟨fun h => h.1, fun h => ⟨h, this h⟩⟩
  calc ((d.inOrder order).filter fun o => !b o && b' o).filterMap (·.content)
      = (((d.inOrder order).filter b').filter fun o => !b o).filterMap (·.content) := by
        rw [filter_filter]
    _ = (((d.inOrder order).filter b').drop (d.visible.countP b)).filterMap (·.content) := by
        rw [(take_drop_countP (hsorted.filter b') (cut_down h)).2, hcount]
    _ = (((d.inOrder order).filter b').filterMap (·.content)).drop (d.visible.countP b) :=
        (filterMap_take_drop (fun o ho => hsome o (mem_of_mem_filter ho)) _).2
    _ = slice (d.text order) (d.visible.countP b) (d.visible.countP b') := by
        rw [(take_drop_countP hsorted (cut_down h')).1, countP_inOrder,
          (filterMap_take_drop hsome _).1, ← text_eq_filterMap, slice]

end Doc

end SharedText

end CollabEditor.Support
