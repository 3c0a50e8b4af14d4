import CollabEditor.Support.TextPosition
import CollabEditor.Support.Tiling
/-!
# Live blame

`BlameEngine` names each item by the user name that awareness has for its client id, or by the id
itself.  `blameRun` is the round for an item of any length.
-/

namespace CollabEditor.Frontend

open Support SharedText Tiling List

variable {K : Type}

structure BlameSegment where
  start : Nat
  stop : Nat
  userName : String
  deriving DecidableEq

def BlameSegment.Covers (segment : BlameSegment) (i : Nat) : Prop :=
  segment.start ≤ i ∧ i < segment.stop

def blameName (clientToUser : Nat → Option String) (client : Nat) : String :=
  (clientToUser client).getD ("user-" ++ toString client)

/-- One round of the loop of `_extractBlameFromText`, with the segments and the offset. -/
def blameItem (clientToUser : Nat → Option String) (acc : List BlameSegment × Nat) (o : Item K) :
    List BlameSegment × Nat :=
  let userName := blameName clientToUser o.client
  match acc.1.getLast? with
  | none => (acc.1 ++ [⟨acc.2, acc.2 + 1, userName⟩], acc.2 + 1)
  | some last =>
    if last.userName = userName ∧ last.stop = acc.2 then
      (acc.1.dropLast ++ [{ last with stop := last.stop + 1 }], acc.2 + 1)
    else (acc.1 ++ [⟨acc.2, acc.2 + 1, userName⟩], acc.2 + 1)

def extractBlameFromText {P : Type} [LinearOrder P] [DecidableEq K] (order : DocOrder K P)
    (d : Doc K) (clientToUser : Nat → Option String) : List BlameSegment :=
  ((d.inOrder order).foldl (blameItem clientToUser) ([], 0)).1

def blameRun (clientToUser : Nat → Option String) (acc : List BlameSegment × Nat)
    (client len : Nat) : List BlameSegment × Nat :=
  let userName := blameName clientToUser client
  match acc.1.getLast? with
  | none => (acc.1 ++ [⟨acc.2, acc.2 + len, userName⟩], acc.2 + len)
  | some last =>
    if last.userName = userName ∧ last.stop = acc.2 then
      (acc.1.dropLast ++ [{ last with stop := last.stop + len }], acc.2 + len)
    else (acc.1 ++ [⟨acc.2, acc.2 + len, userName⟩], acc.2 + len)

/-! ## What the segments say -/

def BlameSegment.span (segment : BlameSegment) : Span String :=
  ⟨segment.start, segment.stop, segment.userName⟩

def Labelled (acc : List BlameSegment × Nat) (labels : List String) : Prop :=
  Labels (acc.1.map BlameSegment.span) labels ∧ acc.2 = labels.length

lemma segments_blameRun (clientToUser : Nat → Option String) (acc : List BlameSegment × Nat)
    (client len : Nat) : (blameRun clientToUser acc client len).1.map BlameSegment.span =
      grow (acc.1.map BlameSegment.span) acc.2 len (blameName clientToUser client) := by
  rw [blameRun, grow, getLast?_map]
  cases hlast : acc.1.getLast? with
  | none => simp [getLast?_eq_none_iff.1 hlast, BlameSegment.span]
  | some last =>
    dsimp only [Option.map_some, BlameSegment.span]
    split
    · simp [BlameSegment.span, map_dropLast]
    · simp [BlameSegment.span]

lemma Labelled.blameRun {acc : List BlameSegment × Nat} {labels : List String} {len : Nat}
    (h : Labelled acc labels) (hlen : 0 < len) (clientToUser : Nat → Option String) (client : Nat) :
    Labelled (blameRun clientToUser acc client len)
      (labels ++ replicate len (blameName clientToUser client)) := by
  obtain ⟨hlabels, hoffset⟩ := h
  have hnext : (Frontend.blameRun clientToUser acc client len).2 = acc.2 + len := by
    simp only [Frontend.blameRun]
    repeat' split
    all_goals rfl
  rw [Labelled, segments_blameRun, hnext, hoffset]
  exact ⟨hlabels.grow hlen _, by simp⟩

lemma Labelled.foldl_blameItem {acc : List BlameSegment × Nat} {labels : List String}
    (h : Labelled acc labels) (clientToUser : Nat → Option String) (items : List (Item K)) :
    Labelled (items.foldl (blameItem clientToUser) acc)
      (labels ++ items.map fun o => blameName clientToUser o.client) := by
  induction items generalizing acc labels with
  | nil => simpa using h
  | cons o items ih =>
    have hround : Labelled (blameItem clientToUser acc o) _ :=
      h.blameRun Nat.one_pos clientToUser o.client
    have hrest := ih hround
    rwa [append_assoc] at hrest

section

variable {P : Type} [LinearOrder P] [DecidableEq K] (order : DocOrder K P) (d : Doc K)
  (clientToUser : Nat → Option String)

lemma labels_extractBlameFromText :
    Labels ((extractBlameFromText order d clientToUser).map BlameSegment.span)
      ((d.inOrder order).map fun o => blameName clientToUser o.client) := by
  have hempty : Labelled ([], 0) [] := ⟨.nil, rfl⟩
  exact (hempty.foldl_blameItem clientToUser (d.inOrder order)).1

lemma userName_of_covers {segment : BlameSegment}
    (hsegment : segment ∈ extractBlameFromText order d clientToUser) {i : Nat}
    (hi : segment.Covers i) : ∃ o, (d.inOrder order)[i]? = some o ∧
      segment.userName = blameName clientToUser o.client := by
  have hnamed := (labels_extractBlameFromText order d clientToUser).named segment.span
    (mem_map_of_mem hsegment) i hi.1 hi.2
  rw [getElem?_map] at hnamed
  obtain ⟨o, ho, hname⟩ := Option.map_eq_some_iff.1 hnamed
  exact ⟨o, ho, hname.symm⟩

lemma exists_covers {i : Nat} (hi : i < (d.inOrder order).length) :
    ∃ segment ∈ extractBlameFromText order d clientToUser, segment.Covers i := by
  obtain ⟨span, hspan, hstart, hstop, -⟩ :=
    (labels_extractBlameFromText order d clientToUser).exists_named (by simpa using hi)
  obtain ⟨segment, hsegment, rfl⟩ := mem_map.1 hspan
  exact ⟨segment, hsegment, hstart, hstop⟩

end

end CollabEditor.Frontend
