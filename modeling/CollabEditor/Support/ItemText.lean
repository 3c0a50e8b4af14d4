import Mathlib.Tactic.MkIffOfInductiveProp
import CollabEditor.Support.TextPosition
/-!
# Texts kept in items

A shared text as a list of items, which stay in the list when they are deleted.  An index inside an
item splits it, and a split may damage the units on both sides, where these are halves of one
character.
-/

namespace CollabEditor.Support.ItemText

open SharedText TextDiff List Option Nat

variable {K : Type}

structure TextItem (K : Type) where
  client : Nat
  clock : Nat
  content : List K
  deleted : Bool
  deriving DecidableEq

/-- Between which units a split does damage, and what is left of them. -/
structure Splitting (K : Type) where
  damages : K → K → Bool
  replacement : K
  damaged_ne : ∀ u v, damages u v → u ≠ replacement

namespace Splitting

def breaks (sp : Splitting K) (content : List K) : Nat → Bool
  | 0 => false
  | n + 1 =>
    match content[n]?, content[n + 1]? with
    | some u, some v => sp.damages u v
    | _, _ => false

def split (sp : Splitting K) (content : List K) (n : Nat) : List K × List K :=
  if sp.breaks content n then
    (content.take (n - 1) ++ [sp.replacement], sp.replacement :: content.drop (n + 1))
  else (content.take n, content.drop n)

end Splitting

namespace TextItem

def shown (i : TextItem K) : List K := if i.deleted then [] else i.content

def chars (i : TextItem K) : List ((Nat × Nat) × K) :=
  if i.deleted then [] else i.content.mapIdx fun k u => ((i.client, i.clock + k), u)

def ids (i : TextItem K) : List (Nat × Nat) :=
  (range i.content.length).map fun k => (i.client, i.clock + k)

def left (sp : Splitting K) (i : TextItem K) (n : Nat) : TextItem K :=
  { i with content := (sp.split i.content n).1 }

def right (sp : Splitting K) (i : TextItem K) (n : Nat) : TextItem K :=
  { i with clock := i.clock + n, content := (sp.split i.content n).2 }

def delete (i : TextItem K) : TextItem K := { i with deleted := true }

end TextItem

/-! ## Reading and changing a text -/

def text (t : List (TextItem K)) : List K := t.flatMap TextItem.shown

def chars (t : List (TextItem K)) : List ((Nat × Nat) × K) := t.flatMap TextItem.chars

def ids (t : List (TextItem K)) : List (Nat × Nat) := t.flatMap TextItem.ids

section

variable (sp : Splitting K)

/-- The items before an index and those after it. -/
def findPosition : List (TextItem K) → Nat → List (TextItem K) × List (TextItem K)
  | items, 0 => ([], items)
  | [], _ + 1 => ([], [])
  | i :: rest, n + 1 =>
    if i.deleted then
      let (before, after) := findPosition rest (n + 1)
      (i :: before, after)
    else if n + 1 < i.content.length then ([i.left sp (n + 1)], i.right sp (n + 1) :: rest)
    else
      let (before, after) := findPosition rest (n + 1 - i.content.length)
      (i :: before, after)

/-- The first units that are shown are deleted. -/
def deleteText : List (TextItem K) → Nat → List (TextItem K)
  | items, 0 => items
  | [], _ + 1 => []
  | i :: rest, n + 1 =>
    if i.deleted then i :: deleteText rest (n + 1)
    else if n + 1 < i.content.length then
      (i.left sp (n + 1)).delete :: i.right sp (n + 1) :: rest
    else i.delete :: deleteText rest (n + 1 - i.content.length)

def delete (t : List (TextItem K)) (index length : Nat) : List (TextItem K) :=
  let (before, after) := findPosition sp t index
  before ++ deleteText sp after length

/-- The new item is put behind the deleted ones at the index. -/
def insert (t : List (TextItem K)) (index : Nat) (new : TextItem K) : List (TextItem K) :=
  let (before, after) := findPosition sp t index
  before ++ after.takeWhile (·.deleted) ++ new :: after.dropWhile (·.deleted)

/-- A deletion, if there is anything to delete, and an insertion, if there is anything to insert,
at one index. -/
def replace (t : List (TextItem K)) (index length : Nat) (new : TextItem K) : List (TextItem K) :=
  let deleted := if 0 < length then delete sp t index length else t
  if 0 < new.content.length then insert sp deleted index new else deleted

/-- The index is inside an item and a split there does damage. -/
def damagedAt : List (TextItem K) → Nat → Bool
  | [], _ => false
  | i :: rest, n =>
    if i.deleted then damagedAt rest n
    else if n < i.content.length then sp.breaks i.content n
    else damagedAt rest (n - i.content.length)

end

/-! ## One item -/

section

variable {sp : Splitting K} {content : List K} {i : TextItem K} {n : Nat}

lemma Splitting.split_of_not_breaks (h : sp.breaks content n = false) :
    sp.split content n = (content.take n, content.drop n) := by
  rw [split, h]
  rfl

lemma Splitting.split_of_breaks (h : sp.breaks content n = true) : sp.split content n =
      (content.take (n - 1) ++ [sp.replacement], sp.replacement :: content.drop (n + 1)) :=
  if_pos h

lemma Splitting.breaks_drop (h : sp.breaks content n = false) (k : Nat) :
    sp.breaks (content.drop n) k = sp.breaks content (n + k) := by
  cases k with
  | zero => exact h.symm
  | succ k =>
    rw [breaks, ← Nat.add_assoc, breaks, getElem?_drop, getElem?_drop, Nat.add_assoc]

lemma Splitting.breaks_eq_true (h : sp.breaks content n = true) :
    0 < n ∧ n < content.length ∧ ∃ u ∈ content[n - 1]?, u ≠ sp.replacement := by
  cases n with
  | zero => exact absurd h Bool.false_ne_true
  | succ n =>
    simp only [breaks] at h
    split at h
    · rename_i u v hu hv
      refine ⟨n.succ_pos, (List.getElem?_eq_some_iff.1 hv).1, u, hu, sp.damaged_ne u v h⟩
    · exact absurd h Bool.false_ne_true

lemma TextItem.shown_eq (i : TextItem K) : i.shown = i.chars.map Prod.snd := by
  rw [shown, chars]
  split
  · rfl
  · apply ext_getElem?
    simp

lemma TextItem.chars_of_deleted (h : i.deleted = true) : i.chars = [] := if_pos h

lemma TextItem.chars_of_not_deleted (h : i.deleted = false) :
    i.chars = i.content.mapIdx fun k u => ((i.client, i.clock + k), u) := by
  rw [chars, h]
  rfl

lemma TextItem.shown_of_not_deleted (h : i.deleted = false) : i.shown = i.content := by
  rw [shown, h]
  rfl

lemma TextItem.length_chars (h : i.deleted = false) : i.chars.length = i.content.length := by
  rw [chars_of_not_deleted h, length_mapIdx]

lemma TextItem.chars_split (hdeleted : i.deleted = false) (hn : n ≤ i.content.length)
    (h : sp.breaks i.content n = false) :
    (i.left sp n).chars = i.chars.take n ∧ (i.right sp n).chars = i.chars.drop n := by
  have hleft : (i.left sp n).chars =
      (i.content.take n).mapIdx fun k u => ((i.client, i.clock + k), u) := by
    rw [chars_of_not_deleted (by exact hdeleted), left, Splitting.split_of_not_breaks h]
  have hright : (i.right sp n).chars =
      (i.content.drop n).mapIdx fun k u => ((i.client, i.clock + (k + n)), u) := by
    rw [chars_of_not_deleted (by exact hdeleted), right, Splitting.split_of_not_breaks h]
    simp only [Nat.add_assoc, Nat.add_comm n]
  have hwhole : i.chars = (i.left sp n).chars ++ (i.right sp n).chars := by
    rw [hleft, hright, chars_of_not_deleted hdeleted]
    conv_lhs => rw [← take_append_drop n i.content, mapIdx_append]
    rw [length_take, min_eq_left hn]
  have hlength : (i.left sp n).chars.length = n := by
    rw [hleft, length_mapIdx, length_take, min_eq_left hn]
  rw [hwhole, take_left' hlength, drop_left' hlength]
  exact ⟨rfl, rfl⟩

lemma TextItem.chars_right_of_breaks {v : K} (hdeleted : i.deleted = false)
    (h : sp.breaks i.content n = true) (hv : i.content[n]? = some v) :
    i.chars[n]? = some ((i.client, i.clock + n), v) ∧ (i.right sp n).chars =
        ((i.client, i.clock + n), sp.replacement) :: i.chars.drop (n + 1) := by
  constructor
  · rw [chars_of_not_deleted hdeleted, getElem?_mapIdx, hv]
    rfl
  · rw [chars_of_not_deleted (by exact hdeleted), right, Splitting.split_of_breaks h,
      mapIdx_cons, chars_of_not_deleted hdeleted]
    congr 1
    apply ext_getElem?
    intro k
    simp only [getElem?_mapIdx, getElem?_drop]
    congr 1
    funext u
    have hadd : i.clock + n + (k + 1) = i.clock + (n + 1 + k) := by omega
    rw [hadd]

end

/-! ## Getting to an index -/

section

variable {sp : Splitting K} {t : List (TextItem K)} {n : Nat}

@[simp] lemma chars_nil : chars ([] : List (TextItem K)) = [] := rfl

@[simp] lemma chars_cons (i : TextItem K) (t : List (TextItem K)) :
    chars (i :: t) = i.chars ++ chars t := rfl

@[simp] lemma chars_append (s t : List (TextItem K)) : chars (s ++ t) = chars s ++ chars t :=
  flatMap_append

lemma text_eq (t : List (TextItem K)) : text t = (chars t).map Prod.snd := by
  rw [text, chars, map_flatMap]
  exact congrArg (flatMap · t) (funext TextItem.shown_eq)

@[simp] lemma text_nil : text ([] : List (TextItem K)) = [] := rfl

@[simp] lemma text_cons (i : TextItem K) (t : List (TextItem K)) :
    text (i :: t) = i.shown ++ text t := rfl

lemma length_chars (t : List (TextItem K)) : (chars t).length = (text t).length := by
  rw [text_eq, length_map]

/-- Without damage the items before the index and after it show what was shown before. -/
lemma chars_findPosition (h : damagedAt sp t n = false) :
    chars (findPosition sp t n).1 = (chars t).take n ∧
      chars (findPosition sp t n).2 = (chars t).drop n := by
  fun_induction findPosition sp t n with
  | case1 items => simp
  | case2 n => simp
  | case3 i rest n hdeleted before after heq ih =>
    rw [damagedAt, if_pos hdeleted] at h
    rw [heq] at ih
    simpa [TextItem.chars_of_deleted hdeleted] using ih h
  | case4 i rest n hdeleted hlt =>
    have hshown : i.deleted = false := by simpa using hdeleted
    rw [damagedAt, if_neg hdeleted, if_pos hlt] at h
    obtain ⟨hleft, hright⟩ := TextItem.chars_split hshown hlt.le h
    have hlength := TextItem.length_chars hshown
    rw [chars_cons, chars_cons, chars_cons, chars_nil, append_nil, hleft, hright,
      take_append_of_le_length (by omega), drop_append_of_le_length (by omega)]
    exact ⟨rfl, rfl⟩
  | case5 i rest n hdeleted hge before after heq ih =>
    have hshown : i.deleted = false := by simpa using hdeleted
    rw [damagedAt, if_neg hdeleted, if_neg hge] at h
    rw [heq] at ih
    obtain ⟨hbefore, hafter⟩ := ih h
    have hlength := TextItem.length_chars hshown
    have hle : i.chars.length ≤ n + 1 := by omega
    rw [chars_cons, chars_cons, hbefore, hafter, take_append, drop_append,
      take_of_length_le hle, drop_of_length_le hle, hlength]
    exact ⟨rfl, rfl⟩

/-- What damage does: the unit before the index is changed, and so may be the one after it. -/
structure Damage (sp : Splitting K) (t : List (TextItem K)) (n : Nat) : Prop where
  pos : 0 < n
  lt : n < (text t).length
  before : text (findPosition sp t n).1 = (text t).take (n - 1) ++ [sp.replacement]
  after : ∃ id v, (chars t)[n]? = some (id, v) ∧
    chars (findPosition sp t n).2 = (id, sp.replacement) :: (chars t).drop (n + 1)
  changed : ∃ u ∈ (text t)[n - 1]?, u ≠ sp.replacement

lemma damagedAt_zero (t : List (TextItem K)) : damagedAt sp t 0 = false := by
  induction t with
  | nil => rfl
  | cons i rest ih =>
    rw [damagedAt]
    split
    · exact ih
    · split
      · rfl
      · rw [Nat.zero_sub, ih]

lemma Damage.inside {i : TextItem K} {rest : List (TextItem K)} (hdeleted : i.deleted = false)
    (hlt : n + 1 < i.content.length) (h : sp.breaks i.content (n + 1) = true) :
    Damage sp (i :: rest) (n + 1) := by
  obtain ⟨hpos, -, u, hu, hne⟩ := Splitting.breaks_eq_true h
  have hshown : i.shown = i.content := TextItem.shown_of_not_deleted hdeleted
  have hleft : (i.left sp (n + 1)).shown = i.content.take n ++ [sp.replacement] := by
    rw [TextItem.shown_of_not_deleted (by exact hdeleted), TextItem.left,
      Splitting.split_of_breaks h]
    rfl
  obtain ⟨v, hv⟩ : ∃ v, i.content[n + 1]? = some v := ⟨_, getElem?_eq_getElem hlt⟩
  have hright := TextItem.chars_right_of_breaks hdeleted h hv
  have hfind : findPosition sp (i :: rest) (n + 1) =
      ([i.left sp (n + 1)], i.right sp (n + 1) :: rest) := by
    rw [findPosition, hdeleted, if_neg Bool.false_ne_true, if_pos hlt]
  refine ⟨hpos, ?_, ?_, ⟨(i.client, i.clock + (n + 1)), v, ?_, ?_⟩, u, ?_, hne⟩
  · rw [text_cons, hshown, length_append]
    omega
  · rw [hfind, text_cons, text_nil, append_nil, hleft, text_cons, hshown,
      Nat.add_sub_cancel, take_append_of_le_length (by omega)]
  · rw [chars_cons, getElem?_append_left (by rwa [TextItem.length_chars hdeleted])]
    exact hright.1
  · rw [hfind, chars_cons, hright.2, chars_cons,
      drop_append_of_le_length (by rwa [TextItem.length_chars hdeleted])]
    rfl
  · rw [text_cons, hshown, getElem?_append_left (by omega)]
    exact hu

lemma Damage.behind {i : TextItem K} {rest : List (TextItem K)} (hdeleted : i.deleted = false)
    (hge : i.content.length ≤ n + 1) (h : Damage sp rest (n + 1 - i.content.length)) :
    Damage sp (i :: rest) (n + 1) := by
  obtain ⟨hpos, hlt, hbefore, ⟨id, v, hv, hafter⟩, u, hu, hne⟩ := h
  have hlength := TextItem.length_chars hdeleted
  have hshown : i.shown = i.content := TextItem.shown_of_not_deleted hdeleted
  have hfind : findPosition sp (i :: rest) (n + 1) =
      (i :: (findPosition sp rest (n + 1 - i.content.length)).1,
        (findPosition sp rest (n + 1 - i.content.length)).2) := by
    rw [findPosition, hdeleted, if_neg Bool.false_ne_true, if_neg (not_lt.2 hge)]
  refine ⟨n.succ_pos, ?_, ?_, ⟨id, v, ?_, ?_⟩, u, ?_, hne⟩
  · rw [text_cons, hshown, length_append]
    omega
  · have htake : i.content.take (n + 1 - 1) = i.content := take_of_length_le (by omega)
    rw [hfind, text_cons, text_cons, hbefore, hshown, take_append, htake, append_assoc,
      Nat.sub_right_comm]
  · rw [chars_cons, getElem?_append_right (by omega), hlength]
    exact hv
  · have hdrop : i.chars.drop (n + 1 + 1) = [] := drop_of_length_le (by omega)
    have hsub : n + 1 + 1 - i.content.length = n + 1 - i.content.length + 1 := by omega
    rw [hfind, hafter, chars_cons, drop_append, hdrop, nil_append, hlength, hsub]
  · rw [text_cons, hshown, getElem?_append_right (by omega), Nat.sub_right_comm]
    exact hu

lemma damage_of_damagedAt (h : damagedAt sp t n = true) : Damage sp t n := by
  fun_induction findPosition sp t n with
  | case1 items => exact absurd ((damagedAt_zero items).symm.trans h) Bool.false_ne_true
  | case2 n => exact absurd h Bool.false_ne_true
  | case3 i rest n hdeleted before after heq ih =>
    rw [damagedAt, if_pos hdeleted] at h
    have hd := ih h
    have hshown : i.shown = [] := if_pos hdeleted
    have hchars : i.chars = [] := if_pos hdeleted
    refine ⟨hd.pos, ?_, ?_, ?_, ?_⟩
    · simpa [hshown] using hd.lt
    · simpa [findPosition, hdeleted, hshown] using hd.before
    · simpa [findPosition, hdeleted, hchars] using hd.after
    · simpa [hshown] using hd.changed
  | case4 i rest n hdeleted hlt =>
    rw [damagedAt, if_neg hdeleted, if_pos hlt] at h
    exact .inside (by simpa using hdeleted) hlt h
  | case5 i rest n hdeleted hge before after heq ih =>
    rw [damagedAt, if_neg hdeleted, if_neg hge] at h
    exact .behind (by simpa using hdeleted) (not_lt.1 hge) (ih h)

lemma Damage.before_ne (h : Damage sp t n) : text (findPosition sp t n).1 ≠ (text t).take n := by
  obtain ⟨hpos, hlt, hbefore, -, u, hu, hne⟩ := h
  intro heq
  have hget := congrArg (·[n - 1]?) (hbefore.symm.trans heq)
  have hlength : ((text t).take (n - 1)).length = n - 1 := by
    rw [length_take]
    omega
  simp only [getElem?_append_right hlength.le, hlength, Nat.sub_self, getElem?_take,
    if_pos (sub_lt hpos one_pos)] at hget
  exact hne (some.inj (hu.symm.trans hget.symm))

lemma deleteText_eq (sp : Splitting K) (t : List (TextItem K)) (n : Nat) : deleteText sp t n =
      (findPosition sp t n).1.map TextItem.delete ++ (findPosition sp t n).2 := by
  have hkept : ∀ i : TextItem K, i.deleted = true → i.delete = i := by
    rintro ⟨client, clock, content, deleted⟩ rfl
    rfl
  fun_induction deleteText sp t n with
  | case1 items => simp [findPosition]
  | case2 n => simp [findPosition]
  | case3 i rest n hdeleted ih => simp [findPosition, hdeleted, hkept, ih]
  | case4 i rest n hdeleted hlt => simp [findPosition, hdeleted, hlt]
  | case5 i rest n hdeleted hge ih => simp [findPosition, hdeleted, hge, ih]

lemma chars_map_delete (t : List (TextItem K)) : chars (t.map TextItem.delete) = [] := by
  induction t with
  | nil => rfl
  | cons i t ih => rw [map_cons, chars_cons, ih, TextItem.chars_of_deleted rfl, append_nil]

lemma chars_deleteText (sp : Splitting K) (t : List (TextItem K)) (n : Nat) :
    chars (deleteText sp t n) = chars (findPosition sp t n).2 := by
  rw [deleteText_eq, chars_append, chars_map_delete, nil_append]

lemma damagedAt_append (sp : Splitting K) (s t : List (TextItem K)) (n : Nat) :
    damagedAt sp (s ++ t) ((text s).length + n) = damagedAt sp t n := by
  induction s with
  | nil => rw [nil_append, text_nil, length_nil, Nat.zero_add]
  | cons i s ih =>
    rw [cons_append, damagedAt, text_cons, length_append]
    cases hdeleted : i.deleted with
    | true => simpa [TextItem.shown, hdeleted] using ih
    | false =>
      have hge : ¬i.content.length + (text s).length + n < i.content.length := by omega
      have hsub : i.content.length + (text s).length + n - i.content.length =
          (text s).length + n := by omega
      rw [TextItem.shown_of_not_deleted hdeleted, if_neg Bool.false_ne_true, if_neg hge, hsub, ih]

lemma damagedAt_findPosition (h : damagedAt sp t n = false) (k : Nat) :
    damagedAt sp (findPosition sp t n).2 k = damagedAt sp t (n + k) := by
  fun_induction findPosition sp t n with
  | case1 items => rw [Nat.zero_add]
  | case2 n => rfl
  | case3 i rest n hdeleted before after heq ih =>
    rw [heq] at ih
    rw [damagedAt, if_pos hdeleted] at h
    rw [damagedAt, if_pos hdeleted]
    exact ih h
  | case4 i rest n hdeleted hlt =>
    rw [damagedAt, if_neg hdeleted, if_pos hlt] at h
    have hright : (i.right sp (n + 1)).content = i.content.drop (n + 1) := by
      rw [TextItem.right, Splitting.split_of_not_breaks h]
    have hlength : (i.right sp (n + 1)).content.length = i.content.length - (n + 1) := by
      rw [hright, length_drop]
    rw [damagedAt, damagedAt, if_neg hdeleted, if_neg (by exact hdeleted)]
    by_cases hk : k < i.content.length - (n + 1)
    · rw [if_pos (by omega), if_pos (by omega), hright]
      exact Splitting.breaks_drop h k
    · have hsub : n + 1 + k - i.content.length = k - (i.content.length - (n + 1)) := by omega
      rw [if_neg (by omega), if_neg (by omega), hlength, hsub]
  | case5 i rest n hdeleted hge before after heq ih =>
    rw [heq] at ih
    rw [damagedAt, if_neg hdeleted, if_neg hge] at h
    have hsub : n + 1 + k - i.content.length = n + 1 - i.content.length + k := by omega
    rw [damagedAt, if_neg hdeleted, if_neg (by omega), hsub]
    exact ih h

lemma length_text_findPosition (sp : Splitting K) (hn : n ≤ (text t).length) :
    (text (findPosition sp t n).1).length = n := by
  cases h : damagedAt sp t n with
  | false =>
    rw [text_eq, (chars_findPosition h).1, length_map, length_take, length_chars, min_eq_left hn]
  | true =>
    have hd := damage_of_damagedAt h
    rw [hd.before, length_append, length_take, length_singleton]
    have := hd.pos
    omega

end

/-! ## What a replacement comes to -/

section

variable {sp : Splitting K} {t : List (TextItem K)} {n k : Nat} {new : TextItem K}

lemma chars_insert (t : List (TextItem K)) (n : Nat) (new : TextItem K) :
    chars (insert sp t n new) =
      chars (findPosition sp t n).1 ++ new.chars ++ chars (findPosition sp t n).2 := by
  have hdeleted : ∀ s : List (TextItem K), chars (s.takeWhile (·.deleted)) = [] := by
    intro s
    refine flatMap_eq_nil_iff.2 fun i hi => TextItem.chars_of_deleted ?_
    exact all_eq_true.1 all_takeWhile i hi
  have hafter : chars (findPosition sp t n).2 =
      chars ((findPosition sp t n).2.dropWhile (·.deleted)) := by
    conv_lhs => rw [← takeWhile_append_dropWhile (p := (·.deleted)) (l := (findPosition sp t n).2)]
    rw [chars_append, hdeleted, nil_append]
  simp only [insert, chars_append, chars_cons, hdeleted, hafter, append_assoc, nil_append]

lemma chars_delete (t : List (TextItem K)) (n k : Nat) :
    chars (delete sp t n k) = chars (findPosition sp t n).1 ++
      chars (findPosition sp (findPosition sp t n).2 k).2 := by
  simp only [delete, chars_append, chars_deleteText]

lemma chars_replace (hn : n ≤ (text t).length) (hnew : new.deleted = false)
    (hchange : 0 < k ∨ new.content ≠ []) :
    chars (replace sp t n k new) = chars (findPosition sp t n).1 ++ new.chars ++
      chars (findPosition sp (findPosition sp t n).2 k).2 := by
  have hlength := length_text_findPosition sp hn
  rcases Nat.eq_zero_or_pos k with rfl | hk
  · have hcontent : new.content ≠ [] := hchange.resolve_left (lt_irrefl 0)
    rw [replace, if_neg (lt_irrefl 0), if_pos (length_pos_iff.2 hcontent), chars_insert,
      findPosition]
  · rw [replace, if_pos hk]
    split
    · -- the deletion has split the items at the index already
      have hclean : damagedAt sp (delete sp t n k) n = false := by
        have happend := damagedAt_append sp (findPosition sp t n).1
          (deleteText sp (findPosition sp t n).2 k) 0
        rw [hlength, Nat.add_zero, damagedAt_zero] at happend
        exact happend
      obtain ⟨hleft, hright⟩ := chars_findPosition hclean
      have hlen : (chars (findPosition sp t n).1).length = n := by rw [length_chars, hlength]
      rw [chars_insert, hleft, hright, chars_delete, take_left' hlen, drop_left' hlen]
    · rename_i hempty
      have hnil : new.content = [] := length_eq_zero_iff.1 (Nat.eq_zero_of_not_pos hempty)
      have hchars : new.chars = [] := by rw [TextItem.chars_of_not_deleted hnew, hnil]; rfl
      rw [chars_delete, hchars, append_nil]

lemma length_text_findPosition_snd (sp : Splitting K) (t : List (TextItem K)) (n : Nat) :
    (text (findPosition sp t n).2).length = (text t).length - n := by
  cases h : damagedAt sp t n with
  | false => rw [text_eq, (chars_findPosition h).2, length_map, length_drop, length_chars]
  | true =>
    have hd := damage_of_damagedAt h
    obtain ⟨id, v, -, hafter⟩ := hd.after
    rw [text_eq, hafter, map_cons, length_cons, length_map, length_drop, length_chars]
    have := hd.lt
    omega

lemma text_replace (sp : Splitting K) (hk : n + k ≤ (text t).length) (hnew : new.deleted = false)
    (hchange : 0 < k ∨ new.content ≠ []) :
    ∃ before after, text (replace sp t n k new) = before ++ (new.content ++ after) ∧
      before = text (findPosition sp t n).1 ∧ before.length = n ∧
      after = text (findPosition sp (findPosition sp t n).2 k).2 ∧
      after.length = (text t).length - (n + k) := by
  refine ⟨_, _, ?_, rfl, length_text_findPosition sp (by omega), rfl, ?_⟩
  · rw [text_eq, chars_replace (by omega) hnew hchange, map_append, map_append,
      ← TextItem.shown_eq, TextItem.shown_of_not_deleted hnew, ← text_eq, ← text_eq,
      append_assoc]
  · rw [length_text_findPosition_snd, length_text_findPosition_snd, Nat.sub_sub]

lemma content_eq_of_text_replace_eq {target : List K} (hk : n + k ≤ (text t).length)
    (hnew : new.deleted = false) (hchange : 0 < k ∨ new.content ≠ [])
    (h : text (replace sp t n k new) = splice (text t) n (n + k) target) :
    new.content = target := by
  obtain ⟨before, after, htext, -, hbefore, -, hafter⟩ := text_replace sp hk hnew hchange
  rw [htext, splice, append_assoc] at h
  have htake : ((text t).take n).length = n := by
    rw [length_take]
    omega
  have hrest := (append_inj h (hbefore.trans htake.symm)).2
  have hdrop : after.length = ((text t).drop (n + k)).length := by rw [hafter, length_drop]
  exact (append_inj' hrest hdrop).1

/-- Neither end of the replaced range is inside a character: no damage is done, or none shows. -/
@[mk_iff]
structure WholeCharacters (sp : Splitting K) (t : List (TextItem K)) (n k : Nat) : Prop where
  start : damagedAt sp t n = false
  stop : 0 < k → damagedAt sp t (n + k) = true → (text t)[n + k]? = some sp.replacement

instance [DecidableEq K] : Decidable (WholeCharacters sp t n k) :=
  decidable_of_iff' _ (wholeCharacters_iff ..)

lemma WholeCharacters.chars_replace (h : WholeCharacters sp t n k) (hk : n + k ≤ (text t).length)
    (hnew : new.deleted = false) (hchange : 0 < k ∨ new.content ≠ []) :
    chars (replace sp t n k new) = (chars t).take n ++ new.chars ++ (chars t).drop (n + k) := by
  obtain ⟨hbefore, hafter⟩ := chars_findPosition h.start
  have hdrop : (chars (findPosition sp t n).2).drop k = (chars t).drop (n + k) := by
    rw [hafter, drop_drop]
  rw [ItemText.chars_replace (by omega) hnew hchange, hbefore, ← hdrop]
  congr 1
  cases hdamaged : damagedAt sp (findPosition sp t n).2 k with
  | false => exact (chars_findPosition hdamaged).2
  | true =>
    -- the unit behind the range is replaced by what it is
    obtain ⟨hpos, -, -, ⟨id, v, hv, hright⟩, -⟩ := damage_of_damagedAt hdamaged
    have hunit := h.stop hpos ((damagedAt_findPosition h.start k).symm.trans hdamaged)
    have hget : (chars t)[n + k]? = some (id, v) := by
      rwa [hafter, getElem?_drop] at hv
    rw [text_eq, getElem?_map, hget] at hunit
    obtain rfl : v = sp.replacement := some.inj hunit
    obtain ⟨hlt, hval⟩ := List.getElem?_eq_some_iff.1 hv
    rw [hright, drop_eq_getElem_cons hlt, hval]

/-- The replacement gives the text that it should give exactly if it keeps to whole characters. -/
lemma text_replace_eq_iff (sp : Splitting K) (new : TextItem K)
    (hk : n + k ≤ (text t).length) (hnew : new.deleted = false)
    (hchange : 0 < k ∨ new.content ≠ []) :
    text (replace sp t n k new) = splice (text t) n (n + k) new.content ↔
      WholeCharacters sp t n k := by
  constructor
  · intro heq
    obtain ⟨before, after, htext, rfl, hlength, rfl, -⟩ := text_replace sp hk hnew hchange
    rw [htext, splice, append_assoc] at heq
    have htake : ((text t).take n).length = n := by
      rw [length_take]
      omega
    obtain ⟨hbefore, hrest⟩ := append_inj heq (hlength.trans htake.symm)
    have hafter := append_cancel_left hrest
    have hstart : damagedAt sp t n = false := by
      by_contra hdamaged
      exact (damage_of_damagedAt (by simpa using hdamaged)).before_ne hbefore
    refine ⟨hstart, fun hpos hdamaged => ?_⟩
    have hd := damage_of_damagedAt ((damagedAt_findPosition hstart k).trans hdamaged)
    obtain ⟨id, v, -, hright⟩ := hd.after
    rw [text_eq (findPosition sp (findPosition sp t n).2 k).2, hright] at hafter
    have hhead := congrArg head? hafter
    rw [head?_drop] at hhead
    exact hhead.symm
  · intro h
    rw [text_eq, h.chars_replace hk hnew hchange, map_append, map_append,
      ← TextItem.shown_eq, TextItem.shown_of_not_deleted hnew, map_take, map_drop, ← text_eq,
      splice]

end

/-! ## Positions -/

section

variable {t : List (TextItem K)} {n : Nat}

def positionAt : List (TextItem K) → Nat → Position
  | [], _ => .textEnd
  | i :: rest, n =>
    if i.deleted then positionAt rest n
    else if n < i.content.length then .before (i.client, i.clock + n)
    else positionAt rest (n - i.content.length)

/-- The units shown before the one with the id. -/
def indexOfId : List (TextItem K) → Nat × Nat → Option Nat
  | [], _ => none
  | i :: rest, id =>
    if id ∈ i.ids then some (if i.deleted then 0 else id.2 - i.clock)
    else (indexOfId rest id).map (i.shown.length + ·)

def index (t : List (TextItem K)) : Position → Option Nat
  | .before id => indexOfId t id
  | .textEnd => some (text t).length

lemma positionAt_eq (t : List (TextItem K)) (n : Nat) :
    positionAt t n = ((chars t)[n]?).elim .textEnd fun c => .before c.1 := by
  induction t generalizing n with
  | nil => rfl
  | cons i rest ih =>
    rw [positionAt, chars_cons]
    cases hdeleted : i.deleted with
    | true => rw [if_pos rfl, TextItem.chars_of_deleted hdeleted, nil_append, ih]
    | false =>
      have hlength := TextItem.length_chars hdeleted
      rw [if_neg Bool.false_ne_true]
      split
      · rename_i hlt
        rw [getElem?_append_left (by omega), TextItem.chars_of_not_deleted hdeleted,
          getElem?_mapIdx, getElem?_eq_getElem hlt]
        rfl
      · rw [getElem?_append_right (by omega), hlength, ih]

lemma TextItem.mem_ids_of_mem_chars {i : TextItem K} {c : (Nat × Nat) × K} (h : c ∈ i.chars) :
    c.1 ∈ i.ids := by
  rw [chars] at h
  split at h
  · cases h
  · obtain ⟨k, hk, rfl⟩ := mem_mapIdx.1 h
    exact mem_map.2 ⟨k, mem_range.2 hk, rfl⟩

lemma mem_ids_of_mem_chars {c : (Nat × Nat) × K} (h : c ∈ chars t) : c.1 ∈ ids t := by
  obtain ⟨i, hi, hc⟩ := mem_flatMap.1 h
  exact mem_flatMap.2 ⟨i, hi, TextItem.mem_ids_of_mem_chars hc⟩

lemma indexOfId_eq (hids : (ids t).Nodup) {c : (Nat × Nat) × K} (h : (chars t)[n]? = some c) :
    indexOfId t c.1 = some n := by
  induction t generalizing n with
  | nil => cases h
  | cons i rest ih =>
    obtain ⟨-, hrest, hdisjoint⟩ := nodup_append.1 hids
    rw [chars_cons] at h
    rw [indexOfId]
    by_cases hn : n < i.chars.length
    · rw [getElem?_append_left hn] at h
      have hmem := TextItem.mem_ids_of_mem_chars (mem_of_getElem? h)
      have hdeleted : i.deleted = false := by
        by_contra hdeleted
        rw [TextItem.chars_of_deleted (by simpa using hdeleted)] at h
        cases h
      rw [TextItem.chars_of_not_deleted hdeleted, getElem?_mapIdx, map_eq_some_iff] at h
      obtain ⟨u, -, rfl⟩ := h
      rw [if_pos hmem, hdeleted, if_neg Bool.false_ne_true, Nat.add_sub_cancel_left]
    · rw [getElem?_append_right (not_lt.1 hn)] at h
      have hmem := mem_ids_of_mem_chars (mem_of_getElem? h)
      have hnot : c.1 ∉ i.ids := fun hc => hdisjoint _ hc _ hmem rfl
      have hlength : i.shown.length = i.chars.length := by rw [TextItem.shown_eq, length_map]
      rw [if_neg hnot, ih hrest h, hlength, map_some, add_sub_of_le (not_lt.1 hn)]

lemma index_positionAt (hids : (ids t).Nodup) (hn : n ≤ (text t).length) :
    index t (positionAt t n) = some n := by
  rw [positionAt_eq]
  cases hget : (chars t)[n]? with
  | some c => exact indexOfId_eq hids hget
  | none =>
    have hge := getElem?_eq_none_iff.1 hget
    rw [length_chars] at hge
    exact congrArg some (le_antisymm hge hn)

end

end CollabEditor.Support.ItemText
