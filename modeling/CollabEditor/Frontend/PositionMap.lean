import CollabEditor.Frontend.Highlights
import Mathlib.Data.List.Infix
import Mathlib.Data.List.Pairwise
/-!
# Offsets of the source and positions of the document

`pm-position-map.ts`: the text nodes of a rich-text document are looked for in the source, one
behind the other.  A text node is found where it stands only if its text does not begin earlier.
-/

namespace CollabEditor.Frontend.Highlights

open Support TextDiff List Option Nat

variable {K : Type}

structure TextNode (K : Type) where
  pos : Nat
  text : List K
  marks : List String
  deriving DecidableEq

/-- A document with its text nodes in order, none of them over another. -/
structure Document (K : Type) where
  nodes : List (TextNode K)
  inOrder : nodes.Pairwise fun a b => a.pos + a.text.length ≤ b.pos

def Document.Carries (doc : Document K) (pos : Nat) (c : K) : Prop :=
  ∃ n ∈ doc.nodes, n.pos ≤ pos ∧ n.text[pos - n.pos]? = some c

variable [DecidableEq K]

def Document.positionMap (doc : Document K) (yText : List K) : PositionMap :=
  buildPositionMap ⟨doc.nodes.map fun n => (n.pos, n.text), 0⟩ yText

/-! ## Blocks -/

def found (yText : List K) : (cursor : Nat) → List (TextNode K) → List (Nat × TextNode K)
  | _, [] => []
  | cursor, n :: rest =>
    if n.text = [] then found yText cursor rest
    else
      match indexOf n.text (yText.drop cursor) with
      | none => found yText cursor rest
      | some i => (cursor + i, n) :: found yText (cursor + i + n.text.length) rest

omit [DecidableEq K] in
def block (b : Nat × TextNode K) : PositionMap :=
  (range b.2.text.length).map fun k => (b.1 + k, b.2.pos + k)

variable {yText : List K} {cursor : Nat} {nodes : List (TextNode K)} {b : Nat × TextNode K}
  {e : Nat × Nat}

lemma positionsFrom_eq (yText : List K) (cursor : Nat) (nodes : List (TextNode K)) :
    positionsFrom yText cursor (nodes.map fun n => (n.pos, n.text)) =
      (found yText cursor nodes).flatMap block := by
  fun_induction found yText cursor nodes with
  | case1 => rfl
  | case2 cursor n rest hempty ih => rw [map_cons, positionsFrom, if_pos hempty, ih]
  | case3 cursor n rest hne hnone ih =>
    rw [map_cons, positionsFrom, if_neg hne, hnone]
    exact ih
  | case4 cursor n rest hne i hi ih =>
    rw [map_cons, positionsFrom, if_neg hne, hi, flatMap_cons]
    exact congrArg (_ ++ ·) ih

omit [DecidableEq K] in
lemma mem_block : e ∈ block b ↔ ∃ k < b.2.text.length, e = (b.1 + k, b.2.pos + k) := by
  simp [block, eq_comm]

lemma mem_found (h : b ∈ found yText cursor nodes) :
    cursor ≤ b.1 ∧ b.2.text ≠ [] ∧ b.2.text <+: yText.drop b.1 ∧ b.2 ∈ nodes := by
  fun_induction found yText cursor nodes with
  | case1 => cases h
  | case2 cursor n rest _ ih | case3 cursor n rest _ _ ih =>
    obtain ⟨hle, hne, hpre, hmem⟩ := ih h
    exact ⟨hle, hne, hpre, mem_cons_of_mem n hmem⟩
  | case4 cursor n rest hne i hi ih =>
    rcases mem_cons.1 h with rfl | h
    · have hhere := (indexOf_eq_some_iff.1 hi).here
      rw [drop_drop] at hhere
      exact ⟨le_add_right cursor i, hne, hhere, mem_cons_self⟩
    · obtain ⟨hle, hne, hpre, hmem⟩ := ih h
      exact ⟨by omega, hne, hpre, mem_cons_of_mem n hmem⟩

/-- Later blocks lie behind earlier ones, in the source and in the document. -/
def Behind (a b : Nat × TextNode K) : Prop :=
  a.1 + a.2.text.length ≤ b.1 ∧ a.2.pos + a.2.text.length ≤ b.2.pos

lemma pairwise_found (h : nodes.Pairwise fun a b => a.pos + a.text.length ≤ b.pos) :
    (found yText cursor nodes).Pairwise Behind := by
  fun_induction found yText cursor nodes with
  | case1 => exact .nil
  | case2 cursor n rest _ ih | case3 cursor n rest _ _ ih => exact ih h.of_cons
  | case4 cursor n rest hne i hi ih =>
    refine pairwise_cons.2 ⟨fun b hb => ?_, ih h.of_cons⟩
    obtain ⟨hle, -, -, hmem⟩ := mem_found hb
    exact ⟨hle, rel_of_pairwise_cons h hmem⟩

/-! ## The map -/

def Increasing (map : PositionMap) : Prop := map.Pairwise fun a b => a.1 < b.1 ∧ a.2 < b.2

lemma Increasing.le_of_mem_cons {first : Nat × Nat} {rest : PositionMap}
    (h : Increasing (first :: rest)) (he : e ∈ first :: rest) : first.1 ≤ e.1 ∧ first.2 ≤ e.2 := by
  rcases mem_cons.1 he with rfl | he
  · omega
  · have := rel_of_pairwise_cons h he
    omega

lemma positionMap_eq (doc : Document K) (yText : List K) :
    doc.positionMap yText = (found yText 0 doc.nodes).flatMap block := positionsFrom_eq yText 0 _

lemma mem_positionMap {doc : Document K} :
    e ∈ doc.positionMap yText ↔ ∃ b ∈ found yText 0 doc.nodes, e ∈ block b := by
  rw [positionMap_eq, mem_flatMap]

lemma increasing_positionMap (doc : Document K) (yText : List K) :
    Increasing (doc.positionMap yText) := by
  rw [positionMap_eq]
  refine pairwise_flatMap.2 ⟨fun b _ => ?_, (pairwise_found doc.inOrder).imp ?_⟩
  · refine pairwise_map.2 (pairwise_lt_range.imp fun hlt => ?_)
    omega
  · intro a b hbehind x hx y hy
    obtain ⟨k, hk, rfl⟩ := mem_block.1 hx
    obtain ⟨l, hl, rfl⟩ := mem_block.1 hy
    obtain ⟨hsource, hdoc⟩ := hbehind
    dsimp only
    omega

lemma char_of_found (h : b ∈ found yText cursor nodes) {k : Nat} (hk : k < b.2.text.length) :
    yText[b.1 + k]? = some b.2.text[k] := by
  obtain ⟨-, -, ⟨tail, htail⟩, -⟩ := mem_found h
  rw [← getElem?_drop, ← htail, getElem?_append_left hk, getElem?_eq_getElem hk]

omit [DecidableEq K] in
lemma Document.apart (doc : Document K) {m n : TextNode K} (hm : m ∈ doc.nodes)
    (hn : n ∈ doc.nodes) (hne : m ≠ n) :
    m.pos + m.text.length ≤ n.pos ∨ n.pos + n.text.length ≤ m.pos := by
  let Apart (a b : TextNode K) : Prop :=
    a.pos + a.text.length ≤ b.pos ∨ b.pos + b.text.length ≤ a.pos
  have hsymm : Std.Symm Apart := ⟨fun _ _ => Or.symm⟩
  have hapart : doc.nodes.Pairwise Apart := doc.inOrder.imp Or.inl
  exact hapart.forall hm hn hne

theorem position_map_monotone_faithful (doc : Document K) (yText : List K) :
    Increasing (doc.positionMap yText) ∧
    (∀ e ∈ doc.positionMap yText, ∃ c, yText[e.1]? = some c ∧ doc.Carries e.2 c) ∧ ∀ n ∈ doc.nodes,
      (∃ offset, ∀ k < n.text.length, (offset + k, n.pos + k) ∈ doc.positionMap yText) ∨
      ∀ e ∈ doc.positionMap yText, ¬ (n.pos ≤ e.2 ∧ e.2 < n.pos + n.text.length) := by
  refine ⟨increasing_positionMap doc yText, ?_, ?_⟩
  · intro e he
    obtain ⟨b, hb, he⟩ := mem_positionMap.1 he
    obtain ⟨k, hk, rfl⟩ := mem_block.1 he
    refine ⟨b.2.text[k], char_of_found hb hk, b.2, (mem_found hb).2.2.2, by simp, ?_⟩
    rw [Nat.add_sub_cancel_left, getElem?_eq_getElem hk]
  · intro n hn
    by_cases hfound : ∃ offset, (offset, n) ∈ found yText 0 doc.nodes
    · obtain ⟨offset, hoffset⟩ := hfound
      exact .inl ⟨offset, fun k hk => mem_positionMap.2
        ⟨_, hoffset, mem_block.2 ⟨k, hk, rfl⟩⟩⟩
    · right
      rintro e he ⟨hstart, hstop⟩
      obtain ⟨b, hb, he⟩ := mem_positionMap.1 he
      obtain ⟨k, hk, rfl⟩ := mem_block.1 he
      have hne : b.2 ≠ n := fun heq => hfound ⟨b.1, heq ▸ hb⟩
      have hapart := doc.apart (mem_found hb).2.2.2 hn hne
      dsimp only at hstart hstop
      omega

/-! ## Where the text nodes stand -/

def source (parts : List (List K × TextNode K)) (tail : List K) : List K :=
  parts.flatMap (fun p => p.1 ++ p.2.text) ++ tail

def truePositions : (offset : Nat) → List (List K × TextNode K) → PositionMap
  | _, [] => []
  | offset, (s, n) :: rest =>
    block (offset + s.length, n) ++ truePositions (offset + s.length + n.text.length) rest

/-- No text node begins earlier than where it stands, in `gap` or in the syntax before it. -/
def NoneEarlier : (gap : List K) → List (List K × TextNode K) → Prop
  | _, [] => True
  | gap, (s, n) :: rest =>
    if n.text = [] then NoneEarlier (gap ++ s) rest
    else (∀ j < (gap ++ s).length, ¬ n.text <+: (gap ++ s ++ n.text).drop j) ∧ NoneEarlier [] rest

omit [DecidableEq K] in
lemma le_of_mem_truePositions {offset : Nat} {parts : List (List K × TextNode K)} {p : Nat}
    (h : e ∈ truePositions offset parts) (hp : ∀ q ∈ parts, p ≤ q.2.pos) : p ≤ e.2 := by
  induction parts generalizing offset with
  | nil => cases h
  | cons q parts ih =>
    rcases mem_append.1 h with h | h
    · obtain ⟨k, -, rfl⟩ := mem_block.1 h
      exact le_add_right_of_le (hp q mem_cons_self)
    · exact ih h fun r hr => hp r (mem_cons_of_mem q hr)

lemma le_of_mem_found {p : Nat} (h : e ∈ (found yText cursor nodes).flatMap block)
    (hp : ∀ n ∈ nodes, p ≤ n.pos) : p ≤ e.2 := by
  obtain ⟨b, hb, he⟩ := mem_flatMap.1 h
  obtain ⟨k, -, rfl⟩ := mem_block.1 he
  exact le_add_right_of_le (hp b.2 (mem_found hb).2.2.2)

lemma indexOf_append_iff (w t more : List K) :
    indexOf t (w ++ t ++ more) = some w.length ↔ ∀ j < w.length, ¬ t <+: (w ++ t).drop j := by
  have hdrop : ∀ j ≤ w.length, (t <+: (w ++ t ++ more).drop j ↔ t <+: (w ++ t).drop j) := by
    intro j hj
    rw [drop_append_of_le_length (by simp; omega)]
    exact isPrefix_append_of_length (by simp; omega)
  rw [indexOf_eq_some_iff]
  constructor
  · intro h j hj
    rw [← hdrop j (le_of_lt hj)]
    exact h.earlier j hj
  · intro h
    refine ⟨(hdrop w.length (le_refl _)).2 (by simp), fun j hj => ?_⟩
    rw [hdrop j (le_of_lt hj)]
    exact h j hj

lemma exists_indexOf_le (w t more : List K) :
    ∃ i ≤ w.length, indexOf t (w ++ t ++ more) = some i := by
  have hsome : (indexOf t (w ++ t ++ more)).isSome := isSome_indexOf_iff.2 ⟨w, more, rfl⟩
  obtain ⟨i, hi⟩ := isSome_iff_exists.1 hsome
  refine ⟨i, Nat.le_of_not_lt fun hlt => ?_, hi⟩
  exact (indexOf_eq_some_iff.1 hi).earlier w.length hlt (by simp)

lemma truePositions_subset_iff {parts : List (List K × TextNode K)}
    (h : (parts.map Prod.snd).Pairwise fun a b => a.pos + a.text.length ≤ b.pos)
    (pre gap tail : List K) : (∀ e ∈ truePositions (pre ++ gap).length parts,
      e ∈ (found (pre ++ gap ++ source parts tail) pre.length (parts.map Prod.snd)).flatMap block) ↔
      NoneEarlier gap parts := by
  induction parts generalizing pre gap with
  | nil => simp [truePositions, NoneEarlier]
  | cons p rest ih =>
    obtain ⟨s, n⟩ := p
    obtain ⟨hlater, hrest⟩ := pairwise_cons.1 h
    have hsource : source ((s, n) :: rest) tail = s ++ n.text ++ source rest tail := by
      simp [source]
    rw [map_cons, found, truePositions, NoneEarlier, hsource]
    by_cases hempty : n.text = []
    · have hnext := ih hrest pre (gap ++ s)
      have hblock : block ((pre ++ gap).length + s.length, n) = [] := by simp [block, hempty]
      rw [if_pos hempty, if_pos hempty, hblock, nil_append, hempty]
      simpa only [append_nil, append_assoc, length_append, length_nil,
        Nat.add_zero, Nat.add_assoc] using hnext
    · obtain ⟨i, hle, hi⟩ := exists_indexOf_le (gap ++ s) n.text (source rest tail)
      have hnext := ih hrest (pre ++ gap ++ s ++ n.text) []
      have hpos := length_pos_of_ne_nil hempty
      have hdrop : (pre ++ gap ++ (s ++ n.text ++ source rest tail)).drop pre.length =
          gap ++ s ++ n.text ++ source rest tail := by simp
      rw [if_neg hempty, if_neg hempty, hdrop, ← indexOf_append_iff _ _ (source rest tail), hi,
        flatMap_cons]
      simp only [append_nil, append_assoc, length_append, ← Nat.add_assoc] at hnext hle ⊢
      rw [← hnext, Option.some.injEq]
      constructor
      · intro hall
        have hfirst := hall (pre.length + gap.length + s.length, n.pos)
          (mem_append_left _ (mem_block.2 ⟨0, hpos, rfl⟩))
        have hexact : i = gap.length + s.length := by
          rcases mem_append.1 hfirst with hfirst | hfirst
          · obtain ⟨k, -, hk⟩ := mem_block.1 hfirst
            simp only [Prod.mk.injEq] at hk
            omega
          · have := le_of_mem_found hfirst hlater
            dsimp only at this
            omega
        subst hexact
        simp only [← Nat.add_assoc] at hall
        refine ⟨rfl, fun e he => ?_⟩
        have hbehind := le_of_mem_truePositions he fun q hq => hlater q.2 (mem_map_of_mem hq)
        rcases mem_append.1 (hall e (mem_append_right _ he)) with hblock | hfound
        · obtain ⟨k, hk, rfl⟩ := mem_block.1 hblock
          dsimp only at hbehind hk
          omega
        · exact hfound
      · rintro ⟨rfl, hall⟩ e he
        simp only [← Nat.add_assoc]
        rcases mem_append.1 he with hblock | hrest
        · exact mem_append_left _ hblock
        · exact mem_append_right _ (hall e hrest)

theorem text_nodes_at_true_offsets_iff (doc : Document K) (parts : List (List K × TextNode K))
    (tail : List K) (hnodes : doc.nodes = parts.map Prod.snd) :
    (∀ e ∈ truePositions 0 parts, e ∈ doc.positionMap (source parts tail)) ↔
      NoneEarlier [] parts := by
  rw [positionMap_eq, hnodes]
  exact truePositions_subset_iff (hnodes ▸ doc.inOrder) [] [] tail

def oneNode (pos : Nat) (text : List Nat) : Document Nat := ⟨[⟨pos, text, []⟩], by simp⟩

/-- The heading `# ab`. -/
theorem heading_at_true_offsets :
    NoneEarlier [] [([35, 32], (⟨1, [97, 98], []⟩ : TextNode Nat))] ∧
      ∀ e ∈ truePositions 0 [([35, 32], ⟨1, [97, 98], []⟩)],
        e ∈ (oneNode 1 [97, 98]).positionMap (source [([35, 32], ⟨1, [97, 98], []⟩)] []) := by
  have hnone : NoneEarlier [] [([35, 32], (⟨1, [97, 98], []⟩ : TextNode Nat))] :=
    ⟨by decide, trivial⟩
  exact ⟨hnone, (text_nodes_at_true_offsets_iff (oneNode 1 [97, 98])
    [([35, 32], ⟨1, [97, 98], []⟩)] [] rfl).2 hnone⟩

/-- The paragraph `<p>p</p>` of the one character `p`, which is found in the tag. -/
theorem text_node_found_in_tag :
    truePositions 0 [([60, 112, 62], (⟨1, [112], []⟩ : TextNode Nat))] = [(3, 1)] ∧
      (oneNode 1 [112]).positionMap
        (source [([60, 112, 62], ⟨1, [112], []⟩)] [60, 47, 112, 62]) = [(1, 1)] := by
  decide

/-! ## Selections -/

section

variable {map : PositionMap} {fromPM toPM : Nat}

lemma Increasing.lookup_eq_some_iff (h : Increasing map) {k p : Nat} :
    map.lookup k = some p ↔ (k, p) ∈ map := by
  rw [List.lookup_eq_some_iff]
  constructor
  · rintro ⟨front, back, rfl, -⟩
    simp
  · intro hmem
    obtain ⟨front, back, rfl⟩ := List.append_of_mem hmem
    refine ⟨front, back, rfl, fun q hq => ?_⟩
    have hlt := (pairwise_append.1 h).2.2 q hq (k, p) mem_cons_self
    simpa using ne_of_gt hlt.1

lemma Increasing.snapRange_of_mem (h : Increasing map) {first last : Nat × Nat}
    (hfirst : first ∈ map) (hlast : last ∈ map) (hle : first.1 ≤ last.1) :
    snapRange first.1 (last.1 + 1) map = some (first.2, last.2 + 1) := by
  rw [snapRange, if_neg (by simp [ne_nil_of_mem hfirst]; omega), snapStart,
    h.lookup_eq_some_iff.2 hfirst]
  simp only [bind_some, snapLast, Nat.add_sub_cancel, h.lookup_eq_some_iff.2 hlast, map_some]

def scanEntries (fromPM toPM : Nat) : Option (Nat × Nat) → PositionMap → Option (Nat × Nat)
  | acc, [] => acc
  | acc, (yOff, pmPos) :: rest =>
    if toPM ≤ pmPos then acc
    else if pmPos < fromPM then scanEntries fromPM toPM acc rest
    else scanEntries fromPM toPM (some ((acc.map Prod.fst).getD yOff, yOff)) rest

def pmRangeToYText (doc : Document K) (yText : List K) (fromPM toPM : Nat) :
    Option (Nat × Nat) :=
  if toPM ≤ fromPM then none
  else if doc.positionMap yText = [] then none
  else
    (scanEntries fromPM toPM none
      ((doc.positionMap yText).insertionSort fun a b => a.1 ≤ b.1)).map fun (start, lastYOff) =>
      (start, lastYOff + 1)

def selected (fromPM toPM : Nat) (map : PositionMap) : PositionMap :=
  map.filter fun e => fromPM ≤ e.2 ∧ e.2 < toPM

lemma selected_eq_nil_iff :
    selected fromPM toPM map = [] ↔ ∀ e ∈ map, ¬ (fromPM ≤ e.2 ∧ e.2 < toPM) := by
  simp [selected, filter_eq_nil_iff]

lemma selected_cons (e : Nat × Nat) (map : PositionMap) : selected fromPM toPM (e :: map) =
      if fromPM ≤ e.2 ∧ e.2 < toPM then e :: selected fromPM toPM map
      else selected fromPM toPM map := by
  simp [selected, filter_cons]

lemma scanEntries_eq (h : Increasing map) (acc : Option (Nat × Nat)) :
    scanEntries fromPM toPM acc map =
      (selected fromPM toPM map).foldl (fun acc e => some ((acc.map Prod.fst).getD e.1, e.1))
        acc := by
  induction map generalizing acc with
  | nil => rfl
  | cons e map ih =>
    obtain ⟨hfirst, hrest⟩ := pairwise_cons.1 h
    rw [scanEntries, selected_cons]
    split
    · rename_i hstop
      have hnone : selected fromPM toPM map = [] := selected_eq_nil_iff.2 fun x hx => by
        have := (hfirst x hx).2
        omega
      rw [if_neg (by omega), hnone, foldl_nil]
    · split
      · rw [if_neg (by omega), ih hrest]
      · rw [if_pos (by omega), foldl_cons, ih hrest]

lemma foldl_offsets (entries : PositionMap) (first last : Nat) :
    entries.foldl (fun acc e => some ((acc.map Prod.fst).getD e.1, e.1)) (some (first, last)) =
      some (first, (entries.getLast?.map Prod.fst).getD last) := by
  induction entries generalizing last with
  | nil => rfl
  | cons e entries ih =>
    rw [foldl_cons]
    refine (ih e.1).trans ?_
    cases hlast : entries.getLast? <;> simp [getLast?_cons, hlast]

lemma Increasing.bounds {first last : Nat × Nat} {rest : PositionMap}
    (h : Increasing (first :: rest)) (hlast : (first :: rest).getLast? = some last)
    (he : e ∈ first :: rest) : first.1 ≤ e.1 ∧ e.1 ≤ last.1 ∧ first.2 ≤ e.2 ∧ e.2 ≤ last.2 := by
  have hfirst := h.le_of_mem_cons he
  have hend : e.1 ≤ last.1 ∧ e.2 ≤ last.2 := by
    obtain ⟨front, hfront⟩ := getLast?_eq_some_iff.1 hlast
    rw [hfront] at h he
    rcases Execution.mem_snoc.1 he with he | rfl
    · have := (pairwise_append.1 h).2.2 e he last (mem_singleton_self last)
      omega
    · omega
  omega

lemma pmRangeToYText_eq (doc : Document K) (yText : List K) (fromPM toPM : Nat) :
    pmRangeToYText doc yText fromPM toPM =
      ((selected fromPM toPM (doc.positionMap yText)).head?.bind fun first =>
        (selected fromPM toPM (doc.positionMap yText)).getLast?.map fun last =>
          (first.1, last.1 + 1)) := by
  have hincreasing := increasing_positionMap doc yText
  have hsorted : (doc.positionMap yText).insertionSort (fun a b => a.1 ≤ b.1) =
      doc.positionMap yText :=
    List.Pairwise.insertionSort_eq (hincreasing.imp fun hlt => le_of_lt hlt.1)
  unfold pmRangeToYText
  split
  · rw [selected_eq_nil_iff.2 fun x hx => by omega]
    rfl
  · split
    · rename_i hempty
      rw [hempty]
      rfl
    · rw [hsorted, scanEntries_eq hincreasing]
      cases hselected : selected fromPM toPM (doc.positionMap yText) with
      | nil => rfl
      | cons first rest =>
        rw [foldl_cons]
        refine (congrArg (Option.map _) (foldl_offsets rest first.1 first.1)).trans ?_
        cases hlast : rest.getLast? <;> simp [getLast?_cons, hlast]

theorem selection_to_source_exact (doc : Document K) (yText : List K) (fromPM toPM : Nat) :
    (pmRangeToYText doc yText fromPM toPM = none ↔
      ∀ e ∈ doc.positionMap yText, ¬ (fromPM ≤ e.2 ∧ e.2 < toPM)) ∧
    ∀ start stop, pmRangeToYText doc yText fromPM toPM = some (start, stop) →
      ∃ first ∈ selected fromPM toPM (doc.positionMap yText),
      ∃ last ∈ selected fromPM toPM (doc.positionMap yText), start = first.1 ∧ stop = last.1 + 1 ∧
        (∀ e ∈ selected fromPM toPM (doc.positionMap yText),
          first.1 ≤ e.1 ∧ e.1 ≤ last.1 ∧ first.2 ≤ e.2 ∧ e.2 ≤ last.2) ∧
        snapRange start stop (doc.positionMap yText) = some (first.2, last.2 + 1) := by
  have hincreasing := increasing_positionMap doc yText
  rw [pmRangeToYText_eq]
  constructor
  · rw [← selected_eq_nil_iff]
    cases selected fromPM toPM (doc.positionMap yText) <;> simp [getLast?_cons]
  · intro start stop hrange
    obtain ⟨first, hfirst, last, hlast, heq⟩ := Execution.bind_map_eq_some.1 hrange
    cases heq
    have hbounds : ∀ e ∈ selected fromPM toPM (doc.positionMap yText),
        first.1 ≤ e.1 ∧ e.1 ≤ last.1 ∧ first.2 ≤ e.2 ∧ e.2 ≤ last.2 := by
      obtain ⟨rest, hcons⟩ := head?_eq_some_iff.1 hfirst
      have hinside : Increasing (selected fromPM toPM (doc.positionMap yText)) :=
        hincreasing.filter _
      rw [hcons] at hinside hlast ⊢
      exact fun e he => hinside.bounds hlast he
    have hfirst := mem_of_mem_head? hfirst
    have hlast := mem_of_getLast? hlast
    exact ⟨first, hfirst, last, hlast, rfl, rfl, hbounds,
      hincreasing.snapRange_of_mem (mem_filter.1 hfirst).1 (mem_filter.1 hlast).1
        (hbounds first hfirst).2.1⟩

end

/-! ## Carets -/

section

variable {map : PositionMap} {size offset : Nat}

lemma Increasing.sortedKeys_eq (h : Increasing map) : sortedKeys map = map.map Prod.fst :=
  List.Pairwise.insertionSort_eq
    (pairwise_map.2 (h.imp fun hlt => le_of_lt hlt.1))

lemma filter_keys_eq_nil (h : ∀ x ∈ map, offset < x.1) :
    (map.map Prod.fst).filter (fun k => k < offset) = [] := by
  refine filter_eq_nil_iff.2 fun k hk => ?_
  obtain ⟨x, hx, rfl⟩ := mem_map.1 hk
  simpa using le_of_lt (h x hx)

lemma Increasing.snap_of_split {front back : PositionMap} (h : Increasing (front ++ e :: back))
    (hsize : ∀ x ∈ front ++ e :: back, x.2 ≤ size) (hle : e.1 ≤ offset)
    (hback : ∀ x ∈ back, offset < x.1) :
    snapSinglePosition offset (front ++ e :: back) size =
      some (min (e.2 + (offset - e.1)) size) := by
  have hmem : e ∈ front ++ e :: back := by simp
  have hfront : ∀ x ∈ front, x.1 < e.1 := fun x hx =>
    ((pairwise_append.1 h).2.2 x hx e mem_cons_self).1
  unfold snapSinglePosition
  split
  · rename_i pos hpos
    have hpos := h.lookup_eq_some_iff.1 hpos
    have hexact : (offset, pos) = e := by
      rcases mem_append.1 hpos with hin | hin
      · have := hfront _ hin
        dsimp only at this
        omega
      · rcases mem_cons.1 hin with heq | hin
        · exact heq
        · have := hback _ hin
          dsimp only at this
          omega
    subst hexact
    have := hsize _ hmem
    simp only [Nat.sub_self, Nat.add_zero, Option.some.injEq]
    omega
  · rename_i hnone
    have hne : e.1 ≠ offset := fun heq => by
      have hsome := h.lookup_eq_some_iff.2 (heq ▸ hmem : (offset, e.2) ∈ front ++ e :: back)
      rw [hnone] at hsome
      cases hsome
    have hlast : ((sortedKeys (front ++ e :: back)).filter fun k => k < offset).getLast? =
        some e.1 := by
      rw [h.sortedKeys_eq, map_append, map_cons, filter_append,
        filter_cons_of_pos (by simp; omega), filter_keys_eq_nil hback, getLast?_concat]
    simp only [hlast, h.lookup_eq_some_iff.2 hmem, map_some]

lemma Increasing.snap_before {back : PositionMap} (h : Increasing (e :: back))
    (hsize : e.2 ≤ size) (hlt : offset < e.1) :
    snapSinglePosition offset (e :: back) size = some e.2 := by
  have hall : ∀ x ∈ e :: back, offset < x.1 := fun x hx =>
    lt_of_lt_of_le hlt (h.le_of_mem_cons hx).1
  have hnone : (e :: back).lookup offset = none := by
    cases hlookup : (e :: back).lookup offset with
    | none => rfl
    | some pos => exact absurd (hall _ (h.lookup_eq_some_iff.1 hlookup)) (lt_irrefl _)
  have hself : (e :: back).lookup e.1 = some e.2 := h.lookup_eq_some_iff.2 mem_cons_self
  rw [snapSinglePosition, hnone, h.sortedKeys_eq, filter_keys_eq_nil hall]
  simp only [getLast?_nil, map_cons, head?_cons, bind_some, hself, map_some, min_eq_left hsize]

lemma Increasing.exists_split (h : Increasing map) (hne : map ≠ []) (offset : Nat) :
    (∃ e back, map = e :: back ∧ offset < e.1) ∨
      ∃ front e back, map = front ++ e :: back ∧ e.1 ≤ offset ∧ ∀ x ∈ back, offset < x.1 := by
  induction map with
  | nil => exact absurd rfl hne
  | cons e rest ih =>
    by_cases hlt : offset < e.1
    · exact .inl ⟨e, rest, rfl, hlt⟩
    · right
      cases rest with
      | nil => exact ⟨[], e, [], rfl, by omega, by simp⟩
      | cons b back =>
        rcases ih h.of_cons (by simp) with ⟨e', back', heq, hlt'⟩ | ⟨front, e', back', heq, hin⟩
        · cases heq
          exact ⟨[], e, b :: back, rfl, by omega, fun x hx =>
            lt_of_lt_of_le hlt' (Increasing.le_of_mem_cons h.of_cons hx).1⟩
        · exact ⟨e :: front, e', back', by rw [heq, cons_append], hin⟩

/-- Between two neighbours there is room for the offsets that are counted on from the first. -/
def Roomy (map : PositionMap) (size : Nat) : Prop :=
  ∀ a b, [a, b] <:+: map → b.1 ≤ a.1 + (b.2 - a.2) + 1 ∨ b.2 = size

lemma snap_between (h : Increasing map) (hsize : ∀ x ∈ map, x.2 ≤ size) {a b : Nat × Nat}
    (hab : [a, b] <:+: map) (hle : a.1 ≤ offset) (hlt : offset < b.1) :
    snapSinglePosition offset map size = some (min (a.2 + (offset - a.1)) size) := by
  obtain ⟨front, back, rfl⟩ := hab
  rw [append_assoc, cons_append, singleton_append] at *
  have hback : Increasing (b :: back) := (pairwise_append.1 h).2.1.of_cons
  exact h.snap_of_split hsize hle fun x hx => lt_of_lt_of_le hlt (hback.le_of_mem_cons hx).1

lemma Roomy.snap_le (hroomy : Roomy map size) (h : Increasing map)
    (hsize : ∀ x ∈ map, x.2 ≤ size) (he : e ∈ map) (hlt : offset < e.1) {q : Nat}
    (hq : snapSinglePosition offset map size = some q) : q ≤ e.2 := by
  rcases h.exists_split (ne_nil_of_mem he) offset with
    ⟨a, back, rfl, hbefore⟩ | ⟨front, a, back, rfl, hle, hback⟩
  · cases (h.snap_before (hsize a mem_cons_self) hbefore).symm.trans hq
    exact (h.le_of_mem_cons he).2
  · -- the mapped offset lies behind the split
    have hmem : e ∈ back := by
      rcases mem_append.1 he with he | he
      · have := ((pairwise_append.1 h).2.2 e he a mem_cons_self).1
        omega
      · rcases mem_cons.1 he with rfl | he
        · omega
        · exact he
    cases back with
    | nil => cases hmem
    | cons b back =>
      have hab : [a, b] <:+: front ++ a :: b :: back := ⟨front, back, by simp⟩
      cases (h.snap_of_split hsize hle hback).symm.trans hq
      have hroom := hroomy a b hab
      have hoffset := hback b mem_cons_self
      have hstep := rel_of_pairwise_cons (pairwise_append.1 h).2.1 mem_cons_self
      have hbe := Increasing.le_of_mem_cons (pairwise_append.1 h).2.1.of_cons hmem
      omega

theorem caret_respects_order_iff (doc : Document K) (yText : List K) (size : Nat)
    (hsize : ∀ e ∈ doc.positionMap yText, e.2 ≤ size) : (∀ e ∈ doc.positionMap yText,
      snapSinglePosition e.1 (doc.positionMap yText) size = some e.2) ∧
    ((∀ o o' q q', o ≤ o' → snapSinglePosition o (doc.positionMap yText) size = some q →
        snapSinglePosition o' (doc.positionMap yText) size = some q' → q ≤ q') ∧
      (∀ a b o, [a, b] <:+: doc.positionMap yText → a.1 < o → o < b.1 →
        ∃ q, snapSinglePosition o (doc.positionMap yText) size = some q ∧ a.2 ≤ q ∧ q ≤ b.2) ↔
      Roomy (doc.positionMap yText) size) := by
  have h := increasing_positionMap doc yText
  generalize doc.positionMap yText = map at *
  refine ⟨fun e he => ?_, ?_, fun hroomy => ⟨?_, ?_⟩⟩
  · rw [snapSinglePosition, h.lookup_eq_some_iff.2 he]
  · rintro ⟨-, hbetween⟩ a b hab
    by_cases hgap : a.1 + 1 < b.1
    · obtain ⟨q, hq, -, hle⟩ := hbetween a b (b.1 - 1) hab (by omega) (by omega)
      cases (snap_between h hsize hab (by omega) (by omega)).symm.trans hq
      have := hsize b (hab.subset (by simp))
      omega
    · omega
  · intro o o' q q' hle hq hq'
    have hne : map ≠ [] := by
      rintro rfl
      cases hq
    rcases h.exists_split hne o' with ⟨a, back, rfl, hbefore⟩ | ⟨front, a, back, rfl, hin, hback⟩
    · have hfirst := hsize a mem_cons_self
      cases (h.snap_before hfirst hbefore).symm.trans hq'
      cases (h.snap_before hfirst (lt_of_le_of_lt hle hbefore)).symm.trans hq
      exact le_refl _
    · have hmem : a ∈ front ++ a :: back := by simp
      have hbound := hsize a hmem
      cases (h.snap_of_split hsize hin hback).symm.trans hq'
      by_cases hlt : o < a.1
      · have := hroomy.snap_le h hsize hmem hlt hq
        omega
      · cases (h.snap_of_split hsize (Nat.le_of_not_lt hlt) fun x hx =>
          lt_of_le_of_lt hle (hback x hx)).symm.trans hq
        omega
  · intro a b o hab ha hb
    have hbound := hsize a (hab.subset (by simp))
    refine ⟨_, snap_between h hsize hab (le_of_lt ha) hb, by omega, ?_⟩
    have := hroomy a b hab
    have hstep := rel_of_pairwise_cons (h.sublist hab.sublist) mem_cons_self
    omega

def plainThenBold : Document Nat := ⟨[⟨1, [97], []⟩, ⟨2, [98], ["bold"]⟩], by decide⟩

/-- In `a*b` the offset of the star is in no text node, and there is room for it. -/
theorem caret_respects_order_plain : plainThenBold.positionMap [97, 42, 98] = [(0, 1), (2, 2)] ∧
    (∀ o o' q q', o ≤ o' →
      snapSinglePosition o (plainThenBold.positionMap [97, 42, 98]) 3 = some q →
      snapSinglePosition o' (plainThenBold.positionMap [97, 42, 98]) 3 = some q' → q ≤ q') ∧
    ∃ q, snapSinglePosition 1 (plainThenBold.positionMap [97, 42, 98]) 3 = some q ∧
      1 ≤ q ∧ q ≤ 2 := by
  have hmap : plainThenBold.positionMap [97, 42, 98] = [(0, 1), (2, 2)] := by decide
  have hroomy : Roomy (plainThenBold.positionMap [97, 42, 98]) 3 := by
    intro a b hab
    rw [hmap] at hab
    cases hab.eq_of_length rfl
    exact .inl (by decide)
  obtain ⟨horder, hbetween⟩ :=
    (caret_respects_order_iff plainThenBold [97, 42, 98] 3 (by rw [hmap]; decide)).2.2 hroomy
  exact ⟨hmap, horder, hbetween (0, 1) (2, 2) 1 (by rw [hmap]) (by decide) (by decide)⟩

/-- In `a**b` the offset before the second text node comes behind it. -/
theorem caret_behind_next_node : plainThenBold.positionMap [97, 42, 42, 98] = [(0, 1), (3, 2)] ∧
      snapSinglePosition 2 (plainThenBold.positionMap [97, 42, 42, 98]) 4 = some 3 ∧
      snapSinglePosition 3 (plainThenBold.positionMap [97, 42, 42, 98]) 4 = some 2 := by
  decide

end

end CollabEditor.Frontend.Highlights
