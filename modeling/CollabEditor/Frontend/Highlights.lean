import CollabEditor.Frontend.CommentEngine
import CollabEditor.Support.Execution
/-!
# Highlights of comment threads

`comment-coordinator.ts` with its builders of decorations.  Changes of the shared text and of the
threads push the threads to both editors, which draw them at the offsets that the anchors had when
they were made.  In between the source editor maps what it has drawn through its changes.
-/

namespace CollabEditor.Frontend.Highlights

open Support SharedText TextDiff Execution List

variable {K : Type}

/-! ## Changes of the source editor -/

/-- A stretch of the document that is kept, or one that is replaced. -/
inductive Section (K : Type)
  | keep (length : Nat)
  | replace (length : Nat) (insert : List K)

abbrev ChangeSet (K : Type) := List (Section K)

namespace ChangeSet

def apply : ChangeSet K → List K → List K
  | [], doc => doc
  | .keep n :: rest, doc => doc.take n ++ apply rest (doc.drop n)
  | .replace n insert :: rest, doc => insert ++ apply rest (doc.drop n)

/-- Where a position comes to be; `after` says that it stays behind what is inserted at it. -/
def mapPos (after : Bool) : ChangeSet K → Nat → Nat
  | [], pos => pos
  | .keep n :: rest, pos => if pos < n then pos else n + mapPos after rest (pos - n)
  | .replace n insert :: rest, pos =>
    if pos < n ∨ (pos = n ∧ n = 0 ∧ after = false) then
      if pos = 0 ∨ after = false then 0 else insert.length
    else insert.length + mapPos after rest (pos - n)

def deletes : ChangeSet K → Nat → Bool
  | [], _ => false
  | .keep n :: rest, pos => if pos < n then false else deletes rest (pos - n)
  | .replace n _ :: rest, pos => if pos < n then 0 < pos else deletes rest (pos - n)

end ChangeSet

/-! ## Decorations -/

inductive Shape
  | mark
  | caret
  deriving DecidableEq

structure Drawn where
  shape : Shape
  start : Nat
  stop : Nat
  deriving DecidableEq

structure Decoration where
  threadId : Nat
  drawn : Drawn
  active : Bool
  suggestion : Bool

def highlights (id : Nat) (decorations : List Decoration) : List Drawn :=
  (decorations.filter fun d => d.threadId = id).map Decoration.drawn

/-- A mark is dropped once it is empty, a caret once what is around it has been replaced. -/
def Drawn.map (changes : ChangeSet K) (d : Drawn) : Option Drawn :=
  match d.shape with
  | .mark =>
    let start := changes.mapPos true d.start
    let stop := changes.mapPos false d.stop
    if start < stop then some ⟨.mark, start, stop⟩ else none
  | .caret =>
    let pos := changes.mapPos true d.start
    if changes.deletes d.start then none else some ⟨.caret, pos, pos⟩

def Decoration.map (changes : ChangeSet K) (d : Decoration) : Option Decoration :=
  (d.drawn.map changes).map fun drawn => { d with drawn := drawn }

/-! ## Threads -/

structure CommentThread (K : Type) where
  id : Nat
  anchor : CommentAnchor K
  status : ThreadStatus
  createdAt : Nat
  suggestion : Option (Suggestion K)

def toWireThread (threadId : Nat) (stored : StoredThread K) : CommentThread K :=
  ⟨threadId, stored.anchor, stored.status, stored.createdAt, stored.suggestion⟩

structure ThreadMap (K : Type) where
  entries : List (Nat × StoredThread K)
  nodup : (entries.map Prod.fst).Nodup

def getThreads (threads : ThreadMap K) : List (CommentThread K) :=
  (threads.entries.map fun e => toWireThread e.1 e.2).insertionSort
    fun a b => a.createdAt ≤ b.createdAt

def hasSuggestion (suggestion : Option (Suggestion K)) : Bool :=
  suggestion.any fun s => s.status = .pending

structure SuggestionOverlay where
  threadId : Nat
  start : Nat
  stop : Nat

structure CommentState (K : Type) where
  threads : List (CommentThread K)
  overlays : List SuggestionOverlay
  activeThreadId : Option Nat

/-! ## The source editor -/

def drawSource (length start stop : Nat) : Drawn :=
  let a := min start length
  let b := min stop length
  if a < b then ⟨.mark, a, b⟩ else ⟨.caret, a, a⟩

def decorateSource (length : Nat) (active : Option Nat) (thread : CommentThread K) :
    Option Decoration :=
  if thread.status = .resolved then none
  else
    some ⟨thread.id, drawSource length thread.anchor.start thread.anchor.stop,
      active = some thread.id, hasSuggestion thread.suggestion⟩

/-- The order in which the decorations are added: by start, by end, marks before carets. -/
def Drawn.rank (d : Drawn) : Nat ×ₗ Nat ×ₗ Nat :=
  toLex (d.start, toLex (d.stop, if d.shape = .mark then 0 else 1))

namespace Source

def buildDecorations (length : Nat) (state : CommentState K) : List Decoration :=
  (state.threads.filterMap (decorateSource length state.activeThreadId)).insertionSort
    fun a b => a.drawn.rank ≤ b.drawn.rank

end Source

/-! ## The rich-text editor -/

/-- The text nodes of the document, each with its position, and the size of the content. -/
structure RichDoc (K : Type) where
  textNodes : List (Nat × List K)
  size : Nat

abbrev PositionMap := List (Nat × Nat)

section

variable [DecidableEq K]

/-- Each text node is looked for behind the one before it; one that is not found is left out. -/
def positionsFrom (yText : List K) : (cursor : Nat) → List (Nat × List K) → PositionMap
  | _, [] => []
  | cursor, (pos, text) :: rest =>
    if text = [] then positionsFrom yText cursor rest
    else
      match indexOf text (yText.drop cursor) with
      | none => positionsFrom yText cursor rest
      | some i =>
        (List.range text.length).map (fun k => (cursor + i + k, pos + k)) ++
          positionsFrom yText (cursor + i + text.length) rest

def buildPositionMap (doc : RichDoc K) (yText : List K) : PositionMap :=
  positionsFrom yText 0 doc.textNodes

end

def sortedKeys (map : PositionMap) : List Nat := (map.map Prod.fst).insertionSort (· ≤ ·)

def snapStart (start stop : Nat) (map : PositionMap) : Option (Nat × Nat) :=
  match map.lookup start with
  | some pos => some (start, pos)
  | none =>
    ((sortedKeys map).find? fun k => start ≤ k).bind fun k =>
      if k < stop then (map.lookup k).map fun pos => (k, pos) else none

def snapLast (fromKey stop : Nat) (map : PositionMap) : Option Nat :=
  match map.lookup (stop - 1) with
  | some pos => some pos
  | none =>
    ((sortedKeys map).reverse.find? fun k => k ≤ stop - 1).bind fun k =>
      if fromKey ≤ k then map.lookup k else none

def snapRange (start stop : Nat) (map : PositionMap) : Option (Nat × Nat) :=
  if stop ≤ start ∨ map = [] then none
  else
    (snapStart start stop map).bind fun (fromKey, fromPos) =>
      (snapLast fromKey stop map).map fun lastPos => (fromPos, lastPos + 1)

def snapSinglePosition (offset : Nat) (map : PositionMap) (size : Nat) : Option Nat :=
  match map.lookup offset with
  | some pos => some pos
  | none =>
    let pos :=
      match ((sortedKeys map).filter fun k => k < offset).getLast? with
      | some k => (map.lookup k).map (· + (offset - k))
      | none => (sortedKeys map).head?.bind fun k => map.lookup k
    pos.map fun pos => min pos size

def drawRich (map : PositionMap) (size start stop : Nat) : Option Drawn :=
  if stop ≤ start then (snapSinglePosition start map size).map fun pos => ⟨.caret, pos, pos⟩
  else
    (snapRange start stop map).map fun (a, b) => if a < b then ⟨.mark, a, b⟩ else ⟨.caret, a, a⟩

def decorateRich (map : PositionMap) (size : Nat) (active : Option Nat) (thread : CommentThread K) :
    Option Decoration :=
  if thread.status = .resolved then none
  else
    (drawRich map size thread.anchor.start thread.anchor.stop).map fun drawn =>
      ⟨thread.id, drawn, active = some thread.id, hasSuggestion thread.suggestion⟩

namespace Rich

def buildDecorations [DecidableEq K] (doc : RichDoc K) (yText : List K) (state : CommentState K) :
    List Decoration :=
  state.threads.filterMap
    (decorateRich (buildPositionMap doc yText) doc.size state.activeThreadId)

end Rich

/-! ## The coordinator -/

structure SourceEditor (K : Type) where
  doc : List K
  decorations : List Decoration

structure RichEditor (K : Type) where
  doc : RichDoc K
  state : CommentState K
  decorations : List Decoration

/-- A coordinator that is attached, with the shared text, the threads and the two editors. -/
structure State (K : Type) where
  doc : Doc K
  threads : ThreadMap K
  activeThreadId : Option Nat
  muted : Bool
  source : SourceEditor K
  rich : RichEditor K

/-- An edit of the user is in the source editor before it is in the shared text; one from elsewhere
is in the shared text first. -/
inductive Edit (K : Type)
  | own (changes : ChangeSet K) (update : Update K)
  | remote (update : Update K) (changes : ChangeSet K)

inductive Action (K : Type)
  | edit (e : Edit K)
  | setSource (changes : ChangeSet K)
  | render (doc : RichDoc K)
  | setThreads (threads : ThreadMap K)
  | setActiveThread (threadId : Option Nat)
  | setDecorationsMuted (muted : Bool)

section

variable {P : Type} [LinearOrder P] [DecidableEq K] (order : DocOrder K P)

def getSuggestionOverlays (d : Doc K) (threads : ThreadMap K) : List SuggestionOverlay :=
  threads.entries.filterMap fun (threadId, thread) =>
    if hasSuggestion thread.suggestion then
      (resolveAnchor order d thread).map fun (start, stop) => ⟨threadId, start, stop⟩
    else none

namespace State

def commentState (s : State K) : CommentState K :=
  if s.muted then ⟨[], [], none⟩
  else ⟨getThreads s.threads, getSuggestionOverlays order s.doc s.threads, s.activeThreadId⟩

def pushDecorations (s : State K) : State K :=
  let state := s.commentState order
  { s with
    source := { s.source with
      decorations := Source.buildDecorations s.source.doc.length state }
    rich := ⟨s.rich.doc, state, Rich.buildDecorations s.rich.doc (s.doc.text order) state⟩ }

def changeSource (s : State K) (changes : ChangeSet K) : State K :=
  { s with source :=
      ⟨changes.apply s.source.doc, s.source.decorations.filterMap (Decoration.map changes)⟩ }

def changeRich (s : State K) (doc : RichDoc K) : State K :=
  { s with rich :=
      ⟨doc, s.rich.state, Rich.buildDecorations doc (s.doc.text order) s.rich.state⟩ }

def applyUpdate (s : State K) (u : Update K) : State K := { s with doc := s.doc.apply u }

def edit (s : State K) : Edit K → State K
  | .own changes u => ((s.changeSource changes).applyUpdate u).pushDecorations order
  | .remote u changes => ((s.applyUpdate u).pushDecorations order).changeSource changes

def attach (d : Doc K) (threads : ThreadMap K) (source : List K) (rich : RichDoc K) : State K :=
  pushDecorations order ⟨d, threads, none, false, ⟨source, []⟩, ⟨rich, ⟨[], [], none⟩, []⟩⟩

end State

def step (s : State K) : Action K → Option (State K)
  | .edit e => some (s.edit order e)
  | .setSource changes => some (s.changeSource changes)
  | .render doc => some (s.changeRich order doc)
  | .setThreads threads => some ({ s with threads := threads }.pushDecorations order)
  | .setActiveThread threadId =>
    some (if s.activeThreadId = threadId then s
      else { s with activeThreadId := threadId }.pushDecorations order)
  | .setDecorationsMuted muted =>
    some (if s.muted = muted then s else { s with muted := muted }.pushDecorations order)

end

/-! ## What is drawn for a thread -/

section

lemma filter_key_eq_singleton {α : Type} {key : α → Nat} {l : List α} (hl : (l.map key).Nodup)
    {x : α} (hx : x ∈ l) : (l.filter fun y => key y = key x) = [x] := by
  induction l with
  | nil => exact absurd hx not_mem_nil
  | cons y l ih =>
    obtain ⟨hy, hl⟩ := nodup_cons.1 hl
    rcases mem_cons.1 hx with rfl | hx
    · have hnone : (l.filter fun y => key y = key x) = [] := by
        refine filter_eq_nil_iff.2 fun z hz heq => hy ?_
        exact of_decide_eq_true heq ▸ mem_map_of_mem hz
      rw [filter_cons_of_pos (by simp), hnone]
    · have hne : key y ≠ key x := fun heq => hy (heq ▸ mem_map_of_mem hx)
      rw [filter_cons_of_neg (by simpa using hne), ih hl hx]

lemma highlights_filterMap {f : CommentThread K → Option Decoration}
    (hf : ∀ thread d, f thread = some d → d.threadId = thread.id) {l : List (CommentThread K)}
    (hl : (l.map CommentThread.id).Nodup) {thread : CommentThread K} (hthread : thread ∈ l) :
    highlights thread.id (l.filterMap f) = ((f thread).map Decoration.drawn).toList := by
  have hfilter : (l.filterMap f).filter (fun d => d.threadId = thread.id) =
      (l.filter fun t => t.id = thread.id).filterMap f := by
    rw [filter_filterMap, filterMap_filter]
    refine filterMap_congr fun t _ => ?_
    cases h : f t with
    | none => simp
    | some d => simp [Option.filter, hf t d h]
  rw [highlights, hfilter, filter_key_eq_singleton hl hthread]
  cases h : f thread <;> simp [h]

lemma highlights_of_perm {id : Nat} {l l' : List Decoration} (h : l.Perm l') :
    (highlights id l).Perm (highlights id l') := (h.filter _).map _

lemma highlights_map (changes : ChangeSet K) (id : Nat) (l : List Decoration) :
    highlights id (l.filterMap (Decoration.map changes)) =
      (highlights id l).filterMap (Drawn.map changes) := by
  have hdrawn : ∀ d : Decoration, (((d.map changes).filter fun d => d.threadId = id).map
      Decoration.drawn) = if d.threadId = id then d.drawn.map changes else none := by
    intro d
    rw [Decoration.map]
    cases d.drawn.map changes with
    | none => simp
    | some drawn =>
      simp only [Option.map_some, Option.filter]
      split <;> simp_all
  rw [highlights, filter_filterMap, map_filterMap, highlights, filterMap_map, filterMap_filter]
  exact filterMap_congr fun d _ => by simpa using hdrawn d

lemma mem_getThreads {threads : ThreadMap K} {id : Nat} {thread : StoredThread K}
    (h : (id, thread) ∈ threads.entries) : toWireThread id thread ∈ getThreads threads :=
  (mem_insertionSort _).2 (mem_map.2 ⟨(id, thread), h, rfl⟩)

lemma nodup_getThreads (threads : ThreadMap K) :
    ((getThreads threads).map CommentThread.id).Nodup := by
  have hperm := (perm_insertionSort (fun a b : CommentThread K => a.createdAt ≤ b.createdAt)
    (threads.entries.map fun e => toWireThread e.1 e.2)).map CommentThread.id
  refine hperm.nodup_iff.2 ?_
  rw [map_map]
  exact threads.nodup

end

section

variable {P : Type} [LinearOrder P] [DecidableEq K] (order : DocOrder K P)

/-- The thread is open and its anchor is resolved to a range that is not empty. -/
structure Anchored (s : State K) (id : Nat) (thread : StoredThread K) (start stop : Nat) :
    Prop where
  mem : (id, thread) ∈ s.threads.entries
  isOpen : thread.status = .opened
  resolved : resolveAnchor order s.doc thread = some (start, stop)
  nonempty : start < stop

def State.positionMap (s : State K) : PositionMap :=
  buildPositionMap s.rich.doc (s.doc.text order)

/-- Every such thread is highlighted in the source editor where it is resolved. -/
def SourceFollows (s : State K) : Prop :=
  ∀ ⦃id thread start stop⦄, Anchored order s id thread start stop →
    highlights id s.source.decorations = [drawSource s.source.doc.length start stop]

/-- Every such thread is highlighted in the rich-text editor where the position map has the range
that it is resolved to. -/
def RichFollows (s : State K) : Prop :=
  ∀ ⦃id thread start stop⦄, Anchored order s id thread start stop →
    highlights id s.rich.decorations =
      (drawRich (s.positionMap order) s.rich.doc.size start stop).toList

/-- What the source editor shows after an edit for a thread that was made at some offsets. -/
def Edit.sourceDrawn (s : State K) (anchor : CommentAnchor K) (e : Edit K) : Option Drawn :=
  if s.muted then none
  else
    match e with
    | .own changes _ =>
      some (drawSource (changes.apply s.source.doc).length anchor.start anchor.stop)
    | .remote _ changes => (drawSource s.source.doc.length anchor.start anchor.stop).map changes

def State.richDrawn (s : State K) (anchor : CommentAnchor K) : Option Drawn :=
  if s.muted then none
  else drawRich (s.positionMap order) s.rich.doc.size anchor.start anchor.stop

/-- What the source editor shows agrees with the offsets at which the threads were made. -/
def SourceUndrifted (s : State K) (e : Edit K) : Prop :=
  ∀ ⦃id thread start stop⦄, Anchored order (s.edit order e) id thread start stop →
    e.sourceDrawn s thread.anchor = some (drawSource (s.edit order e).source.doc.length start stop)

def RichUndrifted (s : State K) : Prop :=
  ∀ ⦃id thread start stop⦄, Anchored order s id thread start stop →
    s.richDrawn order thread.anchor = drawRich (s.positionMap order) s.rich.doc.size start stop

/-- What the rich-text editor has drawn is what it would draw now. -/
structure RichInv (s : State K) : Prop where
  state : s.rich.state = s.commentState order
  decorations : s.rich.decorations =
    Rich.buildDecorations s.rich.doc (s.doc.text order) s.rich.state

variable {order} {s t : State K} {id : Nat} {thread : StoredThread K}

section

variable (hmem : (id, thread) ∈ s.threads.entries)
include hmem

variable (hopen : thread.status = .opened)
include hopen

lemma highlights_source : highlights id (s.pushDecorations order).source.decorations =
      (if s.muted then none
        else some (drawSource s.source.doc.length thread.anchor.start
          thread.anchor.stop)).toList := by
  generalize hlength : s.source.doc.length = length
  rw [State.pushDecorations, hlength]
  unfold Source.buildDecorations State.commentState
  split
  · rfl
  · have hid : ∀ (t : CommentThread K) d, decorateSource length s.activeThreadId t = some d →
        d.threadId = t.id := by
      intro t d h
      obtain ⟨-, ⟨⟩⟩ := Option.ite_none_left_eq_some.1 h
      rfl
    have hdraw : highlights id ((getThreads s.threads).filterMap
        (decorateSource length s.activeThreadId)) =
          [drawSource length thread.anchor.start thread.anchor.stop] := by
      rw [show id = (toWireThread id thread).id from rfl,
        highlights_filterMap hid (nodup_getThreads s.threads) (mem_getThreads hmem)]
      simp [decorateSource, toWireThread, hopen]
    have hperm : (highlights id (((getThreads s.threads).filterMap
        (decorateSource length s.activeThreadId)).insertionSort
          fun a b => a.drawn.rank ≤ b.drawn.rank)).Perm _ :=
      highlights_of_perm (perm_insertionSort _ _)
    rw [hdraw] at hperm
    exact perm_singleton.1 hperm

lemma highlights_rich (doc : RichDoc K) (text : List K) :
    highlights id (Rich.buildDecorations doc text (s.commentState order)) = (if s.muted then none
        else drawRich (buildPositionMap doc text) doc.size thread.anchor.start
          thread.anchor.stop).toList := by
  unfold Rich.buildDecorations State.commentState
  split
  · rfl
  · have hid : ∀ (t : CommentThread K) d, decorateRich (buildPositionMap doc text) doc.size
        s.activeThreadId t = some d → d.threadId = t.id := by
      intro t d h
      obtain ⟨-, h⟩ := Option.ite_none_left_eq_some.1 h
      obtain ⟨drawn, -, rfl⟩ := Option.map_eq_some_iff.1 h
      rfl
    rw [show id = (toWireThread id thread).id from rfl,
      highlights_filterMap hid (nodup_getThreads s.threads) (mem_getThreads hmem)]
    simp [decorateRich, toWireThread, hopen, Function.comp_def]

/-- After an edit and its push the source editor shows the offsets at which the thread was made,
mapped through the changes if these came after the push. -/
lemma highlights_edit (e : Edit K) :
    highlights id (s.edit order e).source.decorations = (e.sourceDrawn s thread.anchor).toList := by
  cases e with
  | own changes u =>
    have hmem' : (id, thread) ∈ ((s.changeSource changes).applyUpdate u).threads.entries := hmem
    exact highlights_source hmem' hopen
  | remote u changes =>
    have hmem' : (id, thread) ∈ (s.applyUpdate u).threads.entries := hmem
    refine (highlights_map changes id _).trans ?_
    rw [highlights_source hmem' hopen]
    unfold Edit.sourceDrawn State.applyUpdate
    cases s.muted with
    | true => rfl
    | false =>
      dsimp only
      rw [if_neg Bool.false_ne_true, if_neg Bool.false_ne_true, Option.toList_some, filterMap_cons]
      cases (drawSource s.source.doc.length thread.anchor.start thread.anchor.stop).map changes <;>
        rfl

end

variable (order) in
lemma threads_edit (e : Edit K) : (s.edit order e).threads = s.threads := by cases e <;> rfl

lemma sourceFollows_edit_iff (e : Edit K) :
    SourceFollows order (s.edit order e) ↔ SourceUndrifted order s e := by
  refine forall₄_congr fun id thread start stop => forall_congr' fun h => ?_
  have hmem : (id, thread) ∈ s.threads.entries := by
    rw [← threads_edit order e]
    exact h.mem
  rw [highlights_edit hmem h.isOpen e]
  cases e.sourceDrawn s thread.anchor <;> simp

lemma RichInv.pushDecorations (s : State K) : RichInv order (s.pushDecorations order) := ⟨rfl, rfl⟩

variable (h : RichInv order s)
include h

lemma RichInv.changeSource (changes : ChangeSet K) :
    RichInv order (s.changeSource changes) := { h with }

lemma RichInv.step {a : Action K} (hstep : step order s a = some t) : RichInv order t := by
  cases a with
  | edit e =>
    cases hstep
    cases e with
    | own changes u => exact .pushDecorations _
    | remote u changes => exact (RichInv.pushDecorations _).changeSource changes
  | setSource changes =>
    cases hstep
    exact h.changeSource changes
  | render doc =>
    cases hstep
    exact ⟨h.state, rfl⟩
  | setThreads threads =>
    cases hstep
    exact .pushDecorations _
  | setActiveThread | setDecorationsMuted =>
    cases hstep
    split
    · exact h
    · exact .pushDecorations _

lemma RichInv.richFollows_iff : RichFollows order s ↔ RichUndrifted order s := by
  refine forall₄_congr fun id thread start stop => forall_congr' fun hthread => ?_
  rw [h.decorations, h.state, highlights_rich hthread.mem hthread.isOpen]
  rw [← State.positionMap, ← State.richDrawn]
  cases s.richDrawn order thread.anchor <;>
    cases drawRich (s.positionMap order) s.rich.doc.size start stop <;> simp

end

/-! ## Anchors that have not moved -/

lemma ChangeSet.mapPos_zero (changes : ChangeSet K) : changes.mapPos false 0 = 0 := by
  induction changes with
  | nil => rfl
  | cons change rest ih =>
    cases change with
    | keep n =>
      rw [mapPos]
      split
      · rfl
      · rename_i hn
        rw [Nat.zero_sub, ih, Nat.eq_zero_of_not_pos hn]
    | replace n insert =>
      rw [mapPos]
      split
      · rw [if_pos (.inl rfl)]
      · rename_i hn
        rcases Nat.eq_zero_or_pos n with rfl | hpos
        · exact absurd (.inr ⟨rfl, rfl, rfl⟩) hn
        · exact absurd (.inl hpos) hn

lemma Drawn.map_keep {n start stop : Nat} (hlt : start < stop) (hn : stop ≤ n)
    (rest : ChangeSet K) : Drawn.map (.keep n :: rest) ⟨.mark, start, stop⟩ =
      some ⟨.mark, start, stop⟩ := by
  have hstart : ChangeSet.mapPos true (.keep n :: rest) start = start := by
    rw [ChangeSet.mapPos, if_pos (hlt.trans_le hn)]
  have hstop : ChangeSet.mapPos false (.keep n :: rest) stop = stop := by
    rw [ChangeSet.mapPos]
    split
    · rfl
    · obtain rfl : stop = n := by omega
      rw [Nat.sub_self, ChangeSet.mapPos_zero, Nat.add_zero]
  simp only [Drawn.map, hstart, hstop, if_pos hlt]

lemma drawSource_eq_mark {length start stop : Nat} (hlt : start < stop) (hle : stop ≤ length) :
    drawSource length start stop = ⟨.mark, start, stop⟩ := by
  rw [drawSource, Nat.min_eq_left hle, Nat.min_eq_left (hlt.le.trans hle)]
  exact if_pos hlt

/-- The changes from elsewhere keep the document of the source editor up to `stop`. -/
def Edit.Spares (s : State K) (stop : Nat) : Edit K → Prop
  | .own _ _ => True
  | .remote _ changes =>
    ∃ n rest, changes = .keep n :: rest ∧ stop ≤ n ∧ n ≤ s.source.doc.length

section

variable {P : Type} [LinearOrder P] [DecidableEq K] {order : DocOrder K P} {s : State K}
  {e : Edit K}

lemma undrifted_of_unmoved (hmuted : s.muted = false)
    (h : ∀ ⦃id thread start stop⦄, Anchored order (s.edit order e) id thread start stop →
      thread.anchor.start = start ∧ thread.anchor.stop = stop ∧ e.Spares s stop) :
    SourceUndrifted order s e ∧ RichUndrifted order (s.edit order e) := by
  refine ⟨fun id thread start stop hthread => ?_, fun id thread start stop hthread => ?_⟩
  · obtain ⟨rfl, rfl, hspares⟩ := h hthread
    have hlt := hthread.nonempty
    cases e with
    | own changes u => exact if_neg (by simp [hmuted])
    | remote u changes =>
      obtain ⟨n, rest, rfl, hn, hlength⟩ := hspares
      have hnew : thread.anchor.stop ≤ (ChangeSet.apply (.keep n :: rest) s.source.doc).length := by
        rw [ChangeSet.apply, length_append, length_take]
        omega
      have hdrawn : Edit.sourceDrawn s thread.anchor (.remote u (.keep n :: rest)) =
          (drawSource s.source.doc.length thread.anchor.start thread.anchor.stop).map
            (.keep n :: rest) := if_neg (by simp [hmuted])
      rw [hdrawn, drawSource_eq_mark hlt (hn.trans hlength), Drawn.map_keep hlt hn]
      exact congrArg some (drawSource_eq_mark hlt hnew).symm
  · obtain ⟨rfl, rfl, -⟩ := h hthread
    have hedit : (s.edit order e).muted = false := by cases e <;> exact hmuted
    exact if_neg (by simp [hedit])

end

/-! ## Runs -/

section

variable {P : Type} [LinearOrder P] [DecidableEq K] {order : DocOrder K P} {s : State K}

theorem highlights_follow_iff_undrifted {d : Doc K} {threads : ThreadMap K} {source : List K}
    {rich : RichDoc K} (hrun : Run (step order) anyStep (.attach order d threads source rich) s) :
    (RichFollows order s ↔ RichUndrifted order s) ∧
      ∀ e : Edit K, SourceFollows order (s.edit order e) ∧ RichFollows order (s.edit order e) ↔
        SourceUndrifted order s e ∧ RichUndrifted order (s.edit order e) := by
  have hs : RichInv order s :=
    hrun.invariant (RichInv.pushDecorations _) fun _ _ _ h _ hstep => h.step hstep
  have hedit : ∀ e : Edit K, RichInv order (s.edit order e) := fun e =>
    hs.step (show step order s (.edit e) = some (s.edit order e) from rfl)
  exact ⟨hs.richFollows_iff, fun e =>
    and_congr (sourceFollows_edit_iff e) (hedit e).richFollows_iff⟩

end

def abcDoc : Doc Nat := .started 9 [⟨seed 1 [0x61, 0x62, 0x63], []⟩]

def threadOnB : StoredThread Nat where
  anchor := ⟨1, 2, [0x62]⟩
  startRel := some (abcDoc.positionAt .byId 1)
  endRel := some (abcDoc.positionAt .byId 2)
  status := .opened
  suggestion := none
  comments := []
  reactions := []
  createdAt := 0

def oneThread : ThreadMap Nat := ⟨[(7, threadOnB)], List.nodup_singleton 7⟩

def abcAttached : State Nat :=
  .attach .byId abcDoc oneThread [0x61, 0x62, 0x63] ⟨[(1, [0x61, 0x62, 0x63])], 5⟩

def appendD : Edit Nat := .own [.keep 3, .replace 0 [0x64]] ⟨[⟨2, 0, [], some 0x64⟩], []⟩

theorem highlight_kept_by_append :
    (abcAttached.edit .byId appendD).doc.text .byId = [0x61, 0x62, 0x63, 0x64] ∧
      SourceFollows .byId (abcAttached.edit .byId appendD) ∧
      RichFollows .byId (abcAttached.edit .byId appendD) := by
  refine ⟨by decide +kernel, ((highlights_follow_iff_undrifted .refl).2 appendD).2 ?_⟩
  refine undrifted_of_unmoved rfl fun id thread start stop h => ?_
  obtain ⟨rfl, rfl⟩ : id = 7 ∧ thread = threadOnB := by
    simpa [oneThread] using mem_singleton.1 h.mem
  have hresolved : resolveAnchor .byId (abcAttached.edit .byId appendD).doc threadOnB =
    some (1, 2) := by decide +kernel
  cases h.resolved.symm.trans hresolved
  exact ⟨rfl, rfl, trivial⟩

def prependX : Edit Nat := .own [.replace 0 [0x78], .keep 3] ⟨[⟨0, 0, [], some 0x78⟩], []⟩

def xabcRich : RichDoc Nat := ⟨[(1, [0x78, 0x61, 0x62, 0x63])], 6⟩

/-- The `x` is typed in the rich-text editor. Once it is written back, the thread is resolved to the
`b` and highlighted on the `a`, in both editors. -/
theorem highlight_left_behind :
    ∃ s t : State Nat, Run (step .byId) anyStep abcAttached s ∧ Run (step .byId) anyStep s t ∧
      s = abcAttached.changeRich .byId xabcRich ∧ t = s.edit .byId prependX ∧
      t.doc.text .byId = [0x78, 0x61, 0x62, 0x63] ∧ t.source.doc = [0x78, 0x61, 0x62, 0x63] ∧
      Anchored .byId t 7 threadOnB 2 3 ∧ highlights 7 t.source.decorations = [⟨.mark, 1, 2⟩] ∧
      highlights 7 t.rich.decorations = [⟨.mark, 2, 3⟩] ∧
      drawRich (t.positionMap .byId) t.rich.doc.size 2 3 = some ⟨.mark, 3, 4⟩ := by
  refine ⟨_, _, .tail (.render xabcRich) .refl trivial rfl,
    .tail (.edit prependX) .refl trivial rfl, rfl, rfl, by decide +kernel, by decide +kernel, ?_,
    by decide +kernel, by decide +kernel, by decide +kernel⟩
  exact ⟨mem_singleton_self _, rfl, by decide +kernel, by decide⟩

end CollabEditor.Frontend.Highlights
