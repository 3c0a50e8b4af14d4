import CollabEditor.Support.TextDiff
/-!
# What Suggest Mode submits

`SuggestEngine.buildSuggestion`: the payload is the range in which the editor's text differs from
the one that Suggest Mode was enabled with.  The summary line is left out.
-/

namespace CollabEditor.Frontend

open Support TextDiff

variable {K : Type}

structure CommentAnchor (K : Type) where
  start : Nat
  stop : Nat
  quotedText : List K
  deriving DecidableEq

inductive OperationKind
  | insert
  | delete
  | replace
  deriving DecidableEq

structure OperationSummary (K : Type) where
  kind : OperationKind
  offset : Nat
  length : Nat
  insertedText : Option (List K)
  deriving DecidableEq

structure SuggestionView (K : Type) where
  beforeText : List K
  afterText : List K
  operations : List (OperationSummary K)
  deriving DecidableEq

structure SuggestionPayload (K : Type) where
  anchor : CommentAnchor K
  view : SuggestionView K
  authorNote : Option (List K)
  deriving DecidableEq

variable [DecidableEq K]

def computeAnchor (baseText afterText : List K) : CommentAnchor K :=
  let minLen := min baseText.length afterText.length
  let prefixLen := commonPrefix baseText afterText
  let suffixLen := min (minLen - prefixLen) (commonPrefix baseText.reverse afterText.reverse)
  let start := prefixLen
  let stop := max prefixLen (baseText.length - suffixLen)
  ⟨start, stop, slice baseText start stop⟩

def toOperationSummaries (before after : List K) (anchor : CommentAnchor K) :
    List (OperationSummary K) :=
  if before = after then []
  else if before.length = 0 ∧ after.length > 0 then [⟨.insert, anchor.start, 0, some after⟩]
  else if before.length > 0 ∧ after.length = 0 then [⟨.delete, anchor.start, before.length, none⟩]
  else [⟨.replace, anchor.start, before.length, some after⟩]

def buildSuggestion (authorNote : Option (List K)) (beforeText currentText : List K) :
    SuggestionPayload K :=
  let anchor := computeAnchor beforeText currentText
  let before := slice beforeText anchor.start anchor.stop
  let after := slice currentText anchor.start
    (anchor.stop + currentText.length - beforeText.length)
  { anchor
    view := ⟨before, after, toOperationSummaries before after anchor⟩
    authorNote := authorNote.filter fun note => !note.isEmpty }

section

variable (base after : List K)

lemma computeAnchor_start_le :
    (computeAnchor base after).start ≤ (computeAnchor base after).stop := by
  simp only [computeAnchor]
  omega

lemma computeAnchor_stop_le : (computeAnchor base after).stop ≤ base.length := by
  have := commonPrefix_le base after
  simp only [computeAnchor]
  omega

lemma computeAnchor_stop_eq :
    (computeAnchor base after).stop = base.length - commonSuffix base after := by
  have hle := commonPrefix_add_commonSuffix_le base after
  change max (commonPrefix base after) (base.length - commonSuffix base after) = _
  omega

lemma computeAnchor_stop_add : (computeAnchor base after).stop + after.length - base.length =
    after.length - commonSuffix base after := by
  have hle := commonPrefix_add_commonSuffix_le base after
  rw [computeAnchor_stop_eq]
  omega

lemma afterText_buildSuggestion (note : Option (List K)) :
    (buildSuggestion note base after).view.afterText =
      slice after (commonPrefix base after) (after.length - commonSuffix base after) := by
  rw [← computeAnchor_stop_add]
  rfl

lemma splice_buildSuggestion (note : Option (List K)) :
    splice base (computeAnchor base after).start (computeAnchor base after).stop
      (buildSuggestion note base after).view.afterText = after := by
  rw [computeAnchor_stop_eq, afterText_buildSuggestion]
  exact splice_changed base after

end

/-! ## An exact and minimal difference -/

/-- What an operation of the summary says is done to a text. -/
def OperationSummary.replay (op : OperationSummary K) (text : List K) : List K :=
  match op.kind with
  | .insert => splice text op.offset op.offset (op.insertedText.getD [])
  | .delete => splice text op.offset (op.offset + op.length) []
  | .replace => splice text op.offset (op.offset + op.length) (op.insertedText.getD [])

/-- The payload says what has to be done to `base` to get `draft`, and no more. -/
structure ExactDiff (payload : SuggestionPayload K) (base draft : List K) : Prop where
  start_le : payload.anchor.start ≤ payload.anchor.stop
  stop_le : payload.anchor.stop ≤ base.length
  spliced : base.take payload.anchor.start ++ payload.view.afterText ++
    base.drop payload.anchor.stop = draft
  before : payload.view.beforeText = slice base payload.anchor.start payload.anchor.stop
  quoted : payload.anchor.quotedText = slice base payload.anchor.start payload.anchor.stop
  starts : ∀ u ∈ payload.view.beforeText.head?, u ∉ payload.view.afterText.head?
  ends : ∀ u ∈ payload.view.beforeText.getLast?, u ∉ payload.view.afterText.getLast?
  replayed : ∃ op, payload.view.operations = [op] ∧ op.replay base = draft

section

variable (base draft : List K) (note : Option (List K))

lemma buildSuggestion_starts : ∀ u ∈ (buildSuggestion note base draft).view.beforeText.head?,
    u ∉ (buildSuggestion note base draft).view.afterText.head? := by
  intro u hu hu'
  obtain ⟨-, hbase⟩ := of_mem_head?_slice hu
  obtain ⟨-, hdraft⟩ := of_mem_head?_slice hu'
  exact getElem?_commonPrefix_ne hbase hdraft rfl

lemma buildSuggestion_ends : ∀ u ∈ (buildSuggestion note base draft).view.beforeText.getLast?,
    u ∉ (buildSuggestion note base draft).view.afterText.getLast? := by
  intro u hu hu'
  have hbefore : (buildSuggestion note base draft).view.beforeText =
      slice base (commonPrefix base draft) (base.length - commonSuffix base draft) := by
    rw [← computeAnchor_stop_eq]
    rfl
  rw [hbefore] at hu
  rw [afterText_buildSuggestion] at hu'
  obtain ⟨hlt, hbase⟩ := of_mem_getLast?_slice (Nat.sub_le _ _) hu
  obtain ⟨hlt', hdraft⟩ := of_mem_getLast?_slice (Nat.sub_le _ _) hu'
  exact getElem?_commonSuffix_ne (by omega) hbase hdraft rfl

lemma beforeText_ne_afterText (hdraft : draft ≠ base) :
    (buildSuggestion note base draft).view.beforeText ≠
      (buildSuggestion note base draft).view.afterText := by
  have hsplice := splice_buildSuggestion base draft note
  intro heq
  rw [← heq] at hsplice
  exact hdraft (hsplice.symm.trans (splice_slice (computeAnchor_start_le base draft)))

lemma buildSuggestion_replayed (hdraft : draft ≠ base) :
    ∃ op, (buildSuggestion note base draft).view.operations = [op] ∧ op.replay base = draft := by
  have hsplice := splice_buildSuggestion base draft note
  have hstop := computeAnchor_stop_le base draft
  have hle := computeAnchor_start_le base draft
  have hlength : (buildSuggestion note base draft).view.beforeText.length =
      (computeAnchor base draft).stop - (computeAnchor base draft).start := length_slice hstop
  have hne := beforeText_ne_afterText base draft note hdraft
  change ∃ op, toOperationSummaries (buildSuggestion note base draft).view.beforeText
    (buildSuggestion note base draft).view.afterText (computeAnchor base draft) = [op] ∧ _
  generalize (buildSuggestion note base draft).view.beforeText = before at hlength hne ⊢
  generalize (buildSuggestion note base draft).view.afterText = after at hsplice hne ⊢
  have hend : (computeAnchor base draft).start + before.length =
      (computeAnchor base draft).stop := by
    omega
  rw [toOperationSummaries, if_neg hne]
  split_ifs with hinsert hdelete
  · rw [hinsert.1, Nat.add_zero] at hend
    rw [← hend] at hsplice
    exact ⟨_, rfl, hsplice⟩
  · rw [← hend, List.length_eq_zero_iff.1 hdelete.2] at hsplice
    exact ⟨_, rfl, hsplice⟩
  · rw [← hend] at hsplice
    exact ⟨_, rfl, hsplice⟩

/-- Whatever the two texts are, the payload is an exact difference, and a minimal one. -/
theorem buildSuggestion_exact (hdraft : draft ≠ base) :
    ExactDiff (buildSuggestion note base draft) base draft where
  start_le := computeAnchor_start_le base draft
  stop_le := computeAnchor_stop_le base draft
  spliced := splice_buildSuggestion base draft note
  before := rfl
  quoted := rfl
  starts := buildSuggestion_starts base draft note
  ends := buildSuggestion_ends base draft note
  replayed := buildSuggestion_replayed base draft note hdraft

end

/-- One of three `a` is taken away: it is the last one. -/
theorem buildSuggestion_exact_repeated :
    (buildSuggestion none [0x61, 0x61, 0x61] [0x61, 0x61]).anchor.start = 2 ∧
      ExactDiff (buildSuggestion none [0x61, 0x61, 0x61] [0x61, 0x61]) [0x61, 0x61, 0x61]
        [0x61, 0x61] :=
  ⟨rfl, buildSuggestion_exact [0x61, 0x61, 0x61] [0x61, 0x61] none (by decide)⟩

/-- The payload submitted for `currentText` fits the shared text `syncText`: the anchored range
reads the before-text there, and replacing it by the after-text gives `draft`. -/
def FitsSyncText (payload : SuggestionPayload K) (syncText draft : List K) : Prop :=
  slice syncText payload.anchor.start payload.anchor.stop = payload.view.beforeText ∧
    splice syncText payload.anchor.start payload.anchor.stop payload.view.afterText = draft

lemma fitsSyncText_buildSuggestion_iff (note : Option (List K)) (base syncText draft : List K) :
    FitsSyncText (buildSuggestion note base draft) syncText draft ↔ syncText = base := by
  -- the before-text is the anchored range of the base, and the draft is the base with it replaced
  calc FitsSyncText (buildSuggestion note base draft) syncText draft
      ↔ slice syncText (computeAnchor base draft).start (computeAnchor base draft).stop =
            slice base (computeAnchor base draft).start (computeAnchor base draft).stop ∧
          splice syncText (computeAnchor base draft).start (computeAnchor base draft).stop
              (buildSuggestion note base draft).view.afterText =
            splice base (computeAnchor base draft).start (computeAnchor base draft).stop
              (buildSuggestion note base draft).view.afterText := by
        rw [splice_buildSuggestion base draft note]
        rfl
    _ ↔ syncText = base :=
        slice_eq_and_splice_eq_iff (computeAnchor_start_le base draft)
          (computeAnchor_stop_le base draft)

end CollabEditor.Frontend
