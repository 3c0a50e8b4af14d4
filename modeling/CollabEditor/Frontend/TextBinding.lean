import CollabEditor.Support.Execution
import CollabEditor.Support.TextDiff
import CollabEditor.Support.Utf16
/-!
# The binding between the rich-text editor and the shared text

`text-binding.ts` with the switch of modes of `dual-mode-binding.ts`.  An edit starts a timer, which
writes the difference to the `Y.Text`; a change of the `Y.Text` by anyone else is put into the
editor in a microtask.  A flag and a snapshot are to keep the one from following the other.  The
parser, the serializer and what `Y.Text` makes of a difference are any functions.
-/

namespace CollabEditor.Frontend.TextBinding

open Support Execution TextDiff Function

variable {K D : Type}

structure Handler (K D : Type) where
  parse : List K → D
  serialize : D → List K

/-- The normal form of a text is what the editor serializes to once the text is in it. -/
def Handler.normalForm (h : Handler K D) (text : List K) : List K := h.serialize (h.parse text)

/-- `delete` and `insert` of a `Y.Text`. -/
structure TextOps (K : Type) where
  delete : List K → (start count : Nat) → List K
  insert : List K → (start : Nat) → List K → List K

section

variable [DecidableEq K]

/-- `applyStringDiff`: only what lies between the common start and the common end is replaced. -/
def applyStringDiff (ops : TextOps K) (oldStr newStr : List K) : List K :=
  let prefixLen := commonPrefix oldStr newStr
  let suffixLen := min (min oldStr.length newStr.length - prefixLen)
    (commonPrefix oldStr.reverse newStr.reverse)
  let deleteCount := oldStr.length - prefixLen - suffixLen
  let insertText := slice newStr prefixLen (newStr.length - suffixLen)
  let deleted := if 0 < deleteCount then ops.delete oldStr prefixLen deleteCount else oldStr
  if 0 < insertText.length then ops.insert deleted prefixLen insertText else deleted

end

/-- The fields of the binding, the editor's document and the shared texts by number. `writes` are
the texts that the binding has written and `typed` is what the user's last edit serialized to; no
function reads them. -/
structure State (K D : Type) where
  texts : Nat → List K
  target : Nat
  editor : D
  lastApplied : List K
  syncTimer : Bool
  applying : Bool
  paused : Bool
  pendingApply : Bool
  writes : List (Nat × List K)
  typed : Option (List K)

namespace State

variable (h : Handler K D)

def ytext (s : State K D) : List K := s.texts s.target

def editorHandler (s : State K D) : State K D :=
  if s.paused then s else if s.applying then s else { s with syncTimer := true }

/-- `setContent` fires `update` before it returns. -/
def applyContentToEditor (text : List K) (s : State K D) : State K D :=
  editorHandler { s with editor := h.parse text }

def applyYTextToEditor (s : State K D) : State K D :=
  if s.ytext = [] then s
  else
    let s := { s with syncTimer := false, applying := true }
    let s := { s.applyContentToEditor h s.ytext with applying := false }
    { s with lastApplied := h.serialize s.editor }

variable [DecidableEq K] (ops : TextOps K)

def applyEditorToYText (s : State K D) : State K D :=
  let serialized := h.serialize s.editor
  if serialized = s.ytext then s
  else if serialized = s.lastApplied then s
  else
    let text := applyStringDiff ops s.ytext serialized
    { s with texts := update s.texts s.target text
             writes := s.writes ++ [(s.target, text)] }

def ytextObserver (s : State K D) : State K D :=
  if s.paused then s else { s with pendingApply := true }

def setPaused (paused : Bool) (s : State K D) : State K D :=
  let s := { s with paused := paused }
  if paused then { s with syncTimer := false } else s.applyYTextToEditor h

def retargetYText (target : Nat) (s : State K D) : State K D :=
  if target = s.target then s
  else
    let contentChanged := h.serialize s.editor ≠ s.texts target
    let s := { s with syncTimer := false, target := target }
    if contentChanged then s.applyYTextToEditor h else s

end State

/-- What can happen. The user edits only the editor that is shown, `switchMode` is told whether
the source editor is to be shown, and `remote` is a change of a `Y.Text` by anyone else. -/
inductive Action (K D : Type)
  | edit (doc : D)
  | switchMode (source : Bool)
  | setPaused (paused : Bool)
  | retarget (target : Nat)
  | remote (target : Nat) (text : List K)
  | timer
  | microtask

section

variable [DecidableEq K] (h : Handler K D) (ops : TextOps K)

def step (s : State K D) : Action K D → Option (State K D)
  | .edit doc =>
    if s.paused then none
    else some (State.editorHandler { s with editor := doc, typed := some (h.serialize doc) })
  | .switchMode source => some (if source = s.paused then s else s.setPaused h source)
  | .setPaused paused => some (s.setPaused h paused)
  | .retarget target => some (s.retargetYText h target)
  | .remote target text =>
    let changed := { s with texts := update s.texts target text }
    some (if target = s.target then changed.ytextObserver else changed)
  | .timer =>
    if s.syncTimer then some (State.applyEditorToYText h ops { s with syncTimer := false })
    else none
  | .microtask =>
    if s.pendingApply then some (State.applyYTextToEditor h { s with pendingApply := false })
    else none

/-- The constructor, on an editor that is still empty. -/
def new (texts : Nat → List K) (target : Nat) : State K D :=
  State.applyYTextToEditor h
    { texts := texts, target := target, editor := h.parse [], lastApplied := [],
      syncTimer := false, applying := false, paused := false, pendingApply := false,
      writes := [], typed := none }

end

/-! ## What filling the editor does -/

namespace State

variable {h : Handler K D} {s : State K D}

lemma editorHandler_of_shown (hpaused : ¬s.paused) (happlying : s.applying = false) :
    s.editorHandler = { s with syncTimer := true } := by
  rw [editorHandler, if_neg hpaused, happlying]
  rfl

section

variable [DecidableEq K] (h : Handler K D) (ops : TextOps K) (s : State K D)

lemma applyEditorToYText_ytext : (s.applyEditorToYText h ops).ytext =
      if h.serialize s.editor = s.ytext ∨ h.serialize s.editor = s.lastApplied then s.ytext
      else applyStringDiff ops s.ytext (h.serialize s.editor) := by
  unfold applyEditorToYText
  by_cases hsame : h.serialize s.editor = s.ytext
  · simp only [hsame, true_or, if_true]
  · by_cases hback : h.serialize s.editor = s.lastApplied
    · simp only [hback, or_true, if_true, ite_self]
    · simp only [hsame, hback, or_self, if_false]
      exact update_self ..

lemma applyEditorToYText_frame : (s.applyEditorToYText h ops).editor = s.editor ∧
      (s.applyEditorToYText h ops).applying = s.applying ∧
      (s.applyEditorToYText h ops).syncTimer = s.syncTimer ∧
      (s.applyEditorToYText h ops).typed = s.typed := by
  unfold applyEditorToYText
  dsimp only
  repeat' split
  all_goals exact ⟨rfl, rfl, rfl, rfl⟩

end

lemma applyYTextToEditor_nil (hnil : s.ytext = []) : s.applyYTextToEditor h = s := if_pos hnil

lemma applyYTextToEditor_of_ne_nil (hne : s.ytext ≠ []) : s.applyYTextToEditor h = { s with
      editor := h.parse s.ytext, lastApplied := h.normalForm s.ytext
      syncTimer := false, applying := false } := by
  rw [applyYTextToEditor, if_neg hne]
  unfold applyContentToEditor editorHandler
  cases s.paused <;> simp [Handler.normalForm, ytext]

/-- Filling the editor leaves everything but the editor, its snapshot and the timer. -/
structure Filled (h : Handler K D) (s t : State K D) : Prop where
  texts : t.texts = s.texts
  target : t.target = s.target
  paused : t.paused = s.paused
  pendingApply : t.pendingApply = s.pendingApply
  writes : t.writes = s.writes
  typed : t.typed = s.typed
  applying : s.applying = false → t.applying = false
  syncTimer : s.syncTimer = false → t.syncTimer = false
  editor : t.editor = h.parse s.ytext ↔ s.ytext ≠ [] ∨ s.editor = h.parse []

lemma filled (h : Handler K D) (s : State K D) : Filled h s (s.applyYTextToEditor h) := by
  by_cases hnil : s.ytext = []
  · rw [applyYTextToEditor_nil hnil]
    constructor <;> simp [hnil]
  · rw [applyYTextToEditor_of_ne_nil hnil]
    constructor <;> simp [hnil]

lemma Filled.ytext {t : State K D} (hf : Filled h s t) : t.ytext = s.ytext := by
  rw [State.ytext, State.ytext, hf.texts, hf.target]

end State

/-! ## Remote text -/

section

variable {h : Handler K D} {s t : State K D} {a : Action K D}

def NoEdit (_ : State K D) : Action K D → Prop
  | .edit _ => False
  | _ => True

structure Quiet (s : State K D) : Prop where
  syncTimer : s.syncTimer = false
  applying : s.applying = false
  writes : s.writes = []

lemma Quiet.applyYTextToEditor (hq : Quiet s) : Quiet (s.applyYTextToEditor h) :=
  have hf := State.filled h s
  ⟨hf.syncTimer hq.syncTimer, hf.applying hq.applying, hf.writes.trans hq.writes⟩

lemma Quiet.setPaused (hq : Quiet s) (paused : Bool) : Quiet (s.setPaused h paused) := by
  cases paused with
  | true => exact { hq with syncTimer := rfl }
  | false =>
    rw [State.setPaused, if_neg Bool.false_ne_true]
    exact Quiet.applyYTextToEditor { hq with }

lemma quiet_new (h : Handler K D) (texts : Nat → List K) (target : Nat) :
    Quiet (new h texts target) :=
  Quiet.applyYTextToEditor ⟨rfl, rfl, rfl⟩

/-- With nothing pending, the editor shows the rendering of its text. -/
def Shown (h : Handler K D) (s : State K D) : Prop :=
  s.paused = false → s.pendingApply = false → s.syncTimer = false → s.editor = h.parse s.ytext

/-- The editor is given the text that it is to show: an empty text is not put into an editor that
shows something else. -/
def Fills (h : Handler K D) (s : State K D) (text : List K) : Prop :=
  text ≠ [] ∨ s.editor = h.parse []

lemma shown_applyYTextToEditor_iff (htimer : s.syncTimer = false) :
    Shown h (s.applyYTextToEditor h) ↔
      s.paused = true ∨ s.pendingApply = true ∨ Fills h s s.ytext := by
  have hf := State.filled h s
  unfold Shown Fills
  rw [hf.paused, hf.pendingApply, hf.ytext, hf.editor]
  simp only [hf.syncTimer htimer, forall_const]
  cases s.paused <;> cases s.pendingApply <;> simp

lemma shown_setPaused_iff (htimer : s.syncTimer = false) (paused : Bool) :
    Shown h (s.setPaused h paused) ↔ paused = true ∨ s.pendingApply = true ∨ Fills h s s.ytext := by
  cases paused with
  | true => exact iff_of_true (fun hpaused => absurd hpaused (by simp [State.setPaused])) (.inl rfl)
  | false =>
    rw [State.setPaused, if_neg Bool.false_ne_true]
    exact shown_applyYTextToEditor_iff htimer

lemma shown_new (h : Handler K D) (texts : Nat → List K) (target : Nat) :
    Shown h (new h texts target) :=
  (shown_applyYTextToEditor_iff rfl).2 (.inr (.inr (.inr rfl)))

variable [DecidableEq K] {ops : TextOps K}

lemma Quiet.retargetYText (hq : Quiet s) (target : Nat) : Quiet (s.retargetYText h target) := by
  unfold State.retargetYText
  split
  · exact hq
  · dsimp only
    split
    · exact Quiet.applyYTextToEditor { hq with syncTimer := rfl }
    · exact { hq with syncTimer := rfl }

lemma Quiet.step (hq : Quiet s) (hno : NoEdit s a) (hstep : step h ops s a = some t) : Quiet t := by
  cases a with
  | edit doc => exact hno.elim
  | switchMode source =>
    cases hstep
    split
    · exact hq
    · exact hq.setPaused source
  | setPaused paused =>
    cases hstep
    exact hq.setPaused paused
  | retarget target =>
    cases hstep
    exact hq.retargetYText target
  | remote target text =>
    cases hstep
    unfold State.ytextObserver
    repeat' split
    all_goals exact { hq with }
  | timer =>
    rw [TextBinding.step, hq.syncTimer] at hstep
    cases hstep
  | microtask =>
    obtain ⟨-, rfl⟩ := Option.ite_some_none_eq_some.1 hstep
    exact Quiet.applyYTextToEditor { hq with }

/-- The steps after which the editor is up to date. On `retarget` the editor is left as it is if
it serializes to the new text, so it has to be the rendering of that text already. -/
def Renders (h : Handler K D) (s : State K D) : Action K D → Prop
  | .edit _ => False
  | .switchMode source =>
    source = s.paused ∨ source = true ∨ s.pendingApply = true ∨ Fills h s s.ytext
  | .setPaused paused => paused = true ∨ s.pendingApply = true ∨ Fills h s s.ytext
  | .retarget target =>
    target = s.target ∨ s.paused = true ∨ s.pendingApply = true ∨
      if h.serialize s.editor = s.texts target then s.editor = h.parse (s.texts target)
      else Fills h s (s.texts target)
  | .remote _ _ => True
  | .timer => True
  | .microtask => s.paused = true ∨ Fills h s s.ytext

lemma shown_retargetYText_iff (hs : Shown h s) (target : Nat) :
    Shown h (s.retargetYText h target) ↔ Renders h s (.retarget target) := by
  unfold State.retargetYText Renders
  split
  · rename_i heq
    exact iff_of_true hs (.inl heq)
  · rename_i hne
    simp only [hne, false_or]
    split
    · exact shown_applyYTextToEditor_iff rfl
    · rename_i hsame
      rw [if_pos (not_not.1 hsame)]
      unfold Shown
      cases s.paused <;> cases s.pendingApply <;> simp [State.ytext]

lemma shown_step_iff (hq : Quiet s) (hs : Shown h s) (hno : NoEdit s a)
    (hstep : step h ops s a = some t) : Shown h t ↔ Renders h s a := by
  cases a with
  | edit doc => exact hno.elim
  | switchMode source =>
    cases hstep
    split
    · rename_i hsame
      exact iff_of_true hs (.inl hsame)
    · rename_i hne
      rw [shown_setPaused_iff hq.syncTimer]
      exact (or_iff_right hne).symm
  | setPaused paused =>
    cases hstep
    exact shown_setPaused_iff hq.syncTimer paused
  | retarget target =>
    cases hstep
    exact shown_retargetYText_iff hs target
  | remote target text =>
    -- a change of the target leaves a microtask behind, unless the binding is paused
    cases hstep
    refine iff_of_true ?_ trivial
    by_cases htarget : target = s.target
    · rw [if_pos htarget, State.ytextObserver]
      split
      · rename_i hpaused
        exact fun hnot => absurd (hpaused.symm.trans hnot) (by decide)
      · exact fun _ hpending => absurd hpending (by simp)
    · rw [if_neg htarget]
      intro hpaused hpending htimer
      have htext := hs hpaused hpending htimer
      simpa [State.ytext, update_of_ne (Ne.symm htarget)] using htext
  | timer =>
    rw [step, hq.syncTimer] at hstep
    cases hstep
  | microtask =>
    obtain ⟨-, rfl⟩ := Option.ite_some_none_eq_some.1 hstep
    refine Iff.trans (shown_applyYTextToEditor_iff hq.syncTimer) ?_
    exact or_congr_right (or_iff_right Bool.false_ne_true)

lemma Renders.noEdit (hr : Renders h s a) : NoEdit s a := by
  cases a <;> first | exact hr | trivial

/-- Without edits of the user the binding writes nothing, and the editor shows the text as long as
every step renders it; a step that does not render it leaves the editor with another text. -/
theorem remote_text_shown_iff_rendered (h : Handler K D) (ops : TextOps K) (texts : Nat → List K)
    (target : Nat) : (∀ s, Run (step h ops) NoEdit (new h texts target) s → s.writes = []) ∧
      ∀ s, Run (step h ops) (Renders h) (new h texts target) s →
        Shown h s ∧ ∀ a t, NoEdit s a → step h ops s a = some t → (Shown h t ↔ Renders h s a) := by
  constructor
  · intro s hrun
    have hq : Quiet s := hrun.invariant (quiet_new h texts target) fun _ _ _ hq => hq.step
    exact hq.writes
  · intro s hrun
    have hinv : Quiet s ∧ Shown h s := by
      refine hrun.invariant (P := fun s => Quiet s ∧ Shown h s)
        ⟨quiet_new h texts target, shown_new h texts target⟩ ?_
      rintro t u a ⟨hq, hs⟩ hr hstep
      exact ⟨hq.step hr.noEdit hstep, (shown_step_iff hq hs hr.noEdit hstep).2 hr⟩
    exact ⟨hinv.2, fun a t => shown_step_iff hinv.1 hinv.2⟩

end

def plainHandler : Handler Nat (List Nat) := ⟨id, id⟩

/-- A serializer that normalizes: the documents `1` and `2` both become the text `2`. -/
def foldingHandler : Handler Nat (List Nat) := ⟨id, List.map fun c => if c = 1 then 2 else c⟩

def plainOps : TextOps K where
  delete text start count := text.take start ++ text.drop (start + count)
  insert text start new := text.take start ++ new ++ text.drop start

theorem remote_change_shown :
    ∃ s, Run (step plainHandler plainOps) (Renders plainHandler)
        (new plainHandler (fun _ => [1]) 0) s ∧
      s.ytext = [2] ∧ Shown plainHandler s := by
  have hrun : ∃ s, Run (step plainHandler plainOps) (Renders plainHandler)
      (new plainHandler (fun _ => [1]) 0) s ∧ s.ytext = [2] :=
    ⟨_, .tail .microtask (.tail (.remote 0 [2]) .refl trivial rfl) (.inr (.inl (by decide))) rfl,
      rfl⟩
  obtain ⟨s, hrun, htext⟩ := hrun
  exact ⟨s, hrun, htext, ((remote_text_shown_iff_rendered _ _ _ _).2 s hrun).1⟩

/-- All of the text is deleted and the editor goes on showing it; and the editor is bound to
another text, which it seems to show by its serialization. -/
theorem stale_text_shown :
    (∃ s, Run (step plainHandler plainOps) NoEdit (new plainHandler (fun _ => [1]) 0) s ∧
        ¬Shown plainHandler s) ∧
      ∃ s, Run (step foldingHandler plainOps) NoEdit (new foldingHandler (fun i => [i + 1]) 0) s ∧
        ¬Shown foldingHandler s := by
  constructor
  · refine ⟨_, .tail .microtask (.tail (.remote 0 []) .refl trivial rfl) trivial rfl, fun hs => ?_⟩
    exact absurd (hs rfl rfl rfl) (by decide)
  · refine ⟨_, .tail (.retarget 1) .refl trivial rfl, fun hs => ?_⟩
    exact absurd (hs rfl rfl rfl) (by decide)

/-! ## Typed text -/

/-- At `i` no character is cut, if `high` are the units that are the first half of one. -/
def Whole (high : K → Bool) (text : List K) : Nat → Prop
  | 0 => True
  | i + 1 => i + 1 < text.length → ∀ u ∈ text[i]?, high u = false

/-- Where no character is cut, `Y.Text` changes as a string does. -/
structure TextOps.KeepsWhole (ops : TextOps K) (high : K → Bool) : Prop where
  delete : ∀ {text start count}, Whole high text start → Whole high text (start + count) →
    start + count ≤ text.length → ops.delete text start count = splice text start (start + count) []
  insert : ∀ {text start new}, Whole high text start → start ≤ text.length →
    ops.insert text start new = splice text start start new

section

variable {ops : TextOps K} {high : K → Bool} {oldStr newStr new : List K} {start suffix : Nat}

lemma whole_splice {stop : Nat} (h : Whole high oldStr start) (hlt : start < oldStr.length) :
    Whole high (splice oldStr start stop []) start := by
  cases start with
  | zero => trivial
  | succ i =>
    intro _ u hu
    refine h hlt u ?_
    have hfront : i < (oldStr.take (i + 1)).length := by
      rw [List.length_take]
      omega
    rwa [splice, List.append_nil, List.getElem?_append_left hfront,
      List.getElem?_take_of_lt (Nat.lt_succ_self i)] at hu

/-- A deletion, which may be empty, and an insertion in its place. -/
lemma replaced_of_whole (hops : ops.KeepsWhole high) (hle : start + suffix ≤ oldStr.length)
    (hstart : Whole high oldStr start) (hstop : Whole high oldStr (oldStr.length - suffix)) :
    let count := oldStr.length - start - suffix
    let deleted := if 0 < count then ops.delete oldStr start count else oldStr
    (if 0 < new.length then ops.insert deleted start new else deleted) =
      splice oldStr start (oldStr.length - suffix) new := by
  intro count deleted
  have hend : start + count = oldStr.length - suffix := by omega
  have hdeleted : deleted = splice oldStr start (oldStr.length - suffix) [] ∧
      Whole high (splice oldStr start (oldStr.length - suffix) []) start := by
    by_cases hcount : 0 < count
    · rw [← hend] at hstop ⊢
      exact ⟨(if_pos hcount).trans (hops.delete hstart hstop (by omega)),
        whole_splice hstart (by omega)⟩
    · have hnone : oldStr.length - suffix = start := by omega
      rw [hnone, splice, List.append_nil, List.take_append_drop]
      exact ⟨if_neg hcount, hstart⟩
  have hlen : (oldStr.take start).length = start := by
    rw [List.length_take]
    omega
  rw [hdeleted.1]
  split
  · rw [hops.insert hdeleted.2 (by simp [splice]; omega), splice, splice, List.append_nil,
      List.take_left' hlen, List.drop_left' hlen, splice]
  · rename_i hempty
    rw [List.length_eq_zero_iff.1 (Nat.eq_zero_of_not_pos hempty)]

/-- Neither end of the difference cuts a character. -/
def WholeDiff [DecidableEq K] (high : K → Bool) (oldStr newStr : List K) : Prop :=
  Whole high oldStr (commonPrefix oldStr newStr) ∧
    Whole high oldStr (oldStr.length - commonSuffix oldStr newStr)

lemma applyStringDiff_of_wholeDiff [DecidableEq K] (hops : ops.KeepsWhole high)
    (h : WholeDiff high oldStr newStr) : applyStringDiff ops oldStr newStr = newStr := by
  have hle := commonPrefix_add_commonSuffix_le oldStr newStr
  exact (replaced_of_whole hops (by omega) h.1 h.2).trans (splice_changed oldStr newStr)

end

section

variable {h : Handler K D} {s t : State K D} {a : Action K D}

def Local (_ : State K D) : Action K D → Prop
  | .edit _ | .switchMode _ | .timer => True
  | _ => False

/-- While the timer runs, the editor is as the user left it. -/
structure Typing (h : Handler K D) (s : State K D) : Prop where
  applying : s.applying = false
  paused : s.paused = true → s.syncTimer = false
  typed : s.syncTimer = true → s.typed = some (h.serialize s.editor)

/-- With no timer pending, the shared text is what the user's last edit left, up to its normal
form. -/
def Arrived (h : Handler K D) (s : State K D) : Prop :=
  ∀ text, s.typed = some text → s.syncTimer = false → h.normalForm s.ytext = text

lemma Typing.setPaused (hi : Typing h s) (paused : Bool) (hne : paused ≠ s.paused) :
    Typing h (s.setPaused h paused) := by
  cases paused with
  | true => exact ⟨hi.applying, fun _ => rfl, fun htimer => absurd htimer Bool.false_ne_true⟩
  | false =>
    rw [State.setPaused, if_neg Bool.false_ne_true]
    have htimer : s.syncTimer = false := hi.paused (eq_true_of_ne_false hne.symm)
    have hf := State.filled h { s with paused := false }
    have hstill := hf.syncTimer htimer
    exact ⟨hf.applying hi.applying, fun _ => hstill,
      fun hrun => absurd (hstill.symm.trans hrun) (by decide)⟩

lemma typing_new (h : Handler K D) (texts : Nat → List K) (target : Nat) :
    Typing h (new h texts target) ∧ Arrived h (new h texts target) := by
  have hq := quiet_new h texts target
  have htyped : (new h texts target).typed = none := (State.filled h _).typed
  refine ⟨⟨hq.applying, fun _ => hq.syncTimer, fun htimer => ?_⟩, fun text htext => ?_⟩
  · exact absurd (hq.syncTimer.symm.trans htimer) Bool.false_ne_true
  · exact absurd (htyped.symm.trans htext) (by simp)

lemma edit_eq (hpaused : ¬s.paused) (happlying : s.applying = false) {doc : D} {typed : List K} :
    State.editorHandler { s with editor := doc, typed := some typed } =
      { s with editor := doc, typed := some typed, syncTimer := true } :=
  State.editorHandler_of_shown hpaused happlying

/-- The steps that leave nothing unwritten. When the timer fires, the editor may be back at the
snapshot only if the shared text is there too; the source editor is shown only if no edit is pending
that the shared text does not have. -/
def Lossless (h : Handler K D) (s : State K D) : Action K D → Prop
  | .edit _ => True
  | .timer => h.serialize s.editor = s.lastApplied → h.normalForm s.ytext = s.lastApplied
  | .switchMode source =>
    source = true → s.syncTimer = true → h.normalForm s.ytext = h.serialize s.editor
  | _ => False

lemma Lossless.isLocal (hl : Lossless h s a) : Local s a := by
  cases a <;> first | exact hl | trivial

lemma arrived_switchMode_iff (hi : Typing h s) (ha : Arrived h s) (source : Bool) :
    Arrived h (if source = s.paused then s else s.setPaused h source) ↔
      Lossless h s (.switchMode source) := by
  split
  · rename_i hsame
    refine iff_of_true ha fun hsource htimer => ?_
    exact absurd ((hi.paused (hsame ▸ hsource)).symm.trans htimer) (by decide)
  · rename_i hne
    cases source with
    | false =>
      refine iff_of_true ?_ fun hsource => absurd hsource (by decide)
      have htimer : s.syncTimer = false := hi.paused (eq_true_of_ne_false (Ne.symm hne))
      rw [State.setPaused, if_neg Bool.false_ne_true]
      have hf := State.filled h { s with paused := false }
      intro text htext _
      rw [hf.ytext]
      exact ha text (hf.typed ▸ htext) htimer
    | true =>
      constructor
      · intro harrived _ htimer
        exact harrived _ (hi.typed htimer) rfl
      · intro hd text htext _
        cases htimer : s.syncTimer with
        | false => exact ha text htext htimer
        | true =>
          have htyped : some text = some (h.serialize s.editor) :=
            htext.symm.trans (hi.typed htimer)
          cases htyped
          exact hd rfl htimer

variable [DecidableEq K] {ops : TextOps K} {high : K → Bool}

/-- A timer that fires has no difference to write that cuts a character. -/
def WritesWhole (h : Handler K D) (high : K → Bool) (s : State K D) : Action K D → Prop
  | .timer => WholeDiff high s.ytext (h.serialize s.editor)
  | _ => True

def Delivers (h : Handler K D) (high : K → Bool) (s : State K D) (a : Action K D) : Prop :=
  WritesWhole h high s a ∧ Lossless h s a

lemma Typing.step (hi : Typing h s) (hl : Local s a) (hstep : step h ops s a = some t) :
    Typing h t := by
  cases a with
  | edit doc =>
    obtain ⟨hpaused, ⟨⟩⟩ := Option.ite_none_left_eq_some.1 hstep
    rw [edit_eq hpaused hi.applying]
    exact ⟨hi.applying, fun hp => absurd hp hpaused, fun _ => rfl⟩
  | switchMode source =>
    cases hstep
    split
    · exact hi
    · exact hi.setPaused source ‹_›
  | timer =>
    obtain ⟨-, rfl⟩ := Option.ite_some_none_eq_some.1 hstep
    obtain ⟨-, happlying, htimer, -⟩ :=
      State.applyEditorToYText_frame h ops { s with syncTimer := false }
    exact ⟨happlying.trans hi.applying, fun _ => htimer,
      fun hrun => absurd (htimer.symm.trans hrun) Bool.false_ne_true⟩
  | setPaused | retarget | remote | microtask => exact hl.elim

section

variable (hnormal : ∀ doc, h.normalForm (h.serialize doc) = h.serialize doc)
  (hops : ops.KeepsWhole high)
include hnormal hops

lemma arrived_timer_iff (hi : Typing h s) (hwhole : WritesWhole h high s .timer)
    (htimer : s.syncTimer = true) :
    Arrived h (State.applyEditorToYText h ops { s with syncTimer := false }) ↔
      Lossless h s .timer := by
  obtain ⟨-, -, hstill, htyped⟩ :=
    State.applyEditorToYText_frame h ops { s with syncTimer := false }
  have hiff : Arrived h (State.applyEditorToYText h ops { s with syncTimer := false }) ↔
      h.normalForm (State.applyEditorToYText h ops { s with syncTimer := false }).ytext =
        h.serialize s.editor := by
    constructor
    · exact fun harrived => harrived _ (htyped.trans (hi.typed htimer)) hstill
    · intro heq text htext _
      rw [htyped] at htext
      cases htext.symm.trans (hi.typed htimer)
      exact heq
  rw [hiff, State.applyEditorToYText_ytext]
  change h.normalForm (if h.serialize s.editor = s.ytext ∨ h.serialize s.editor = s.lastApplied then
    s.ytext else applyStringDiff ops s.ytext (h.serialize s.editor)) = h.serialize s.editor ↔ _
  by_cases hsame : h.serialize s.editor = s.ytext
  · rw [if_pos (.inl hsame), Lossless, ← hsame, hnormal]
    exact iff_of_true rfl id
  by_cases hback : h.serialize s.editor = s.lastApplied
  · rw [if_pos (.inr hback), Lossless, hback]
    exact ⟨fun heq _ => heq, fun himp => himp rfl⟩
  · rw [if_neg (not_or.2 ⟨hsame, hback⟩), applyStringDiff_of_wholeDiff hops hwhole]
    exact iff_of_true (hnormal _) fun heq => absurd heq hback

lemma arrived_step_iff (hi : Typing h s) (ha : Arrived h s) (hl : Local s a)
    (hwhole : WritesWhole h high s a) (hstep : step h ops s a = some t) :
    Arrived h t ↔ Lossless h s a := by
  cases a with
  | edit doc =>
    obtain ⟨hpaused, ⟨⟩⟩ := Option.ite_none_left_eq_some.1 hstep
    rw [edit_eq hpaused hi.applying]
    exact iff_of_true (fun text _ hstill => absurd hstill (by simp)) trivial
  | switchMode source =>
    cases hstep
    exact arrived_switchMode_iff hi ha source
  | timer =>
    obtain ⟨htimer, rfl⟩ := Option.ite_some_none_eq_some.1 hstep
    exact arrived_timer_iff hnormal hops hi hwhole htimer
  | setPaused | retarget | remote | microtask => exact hl.elim

end

/-- What the user types arrives as long as every difference that is written cuts no character and no
step loses an edit; a step that loses one leaves the shared text without it. -/
theorem typed_text_arrives_iff_delivered
    (hnormal : ∀ doc, h.normalForm (h.serialize doc) = h.serialize doc)
    (hops : ops.KeepsWhole high) {texts : Nat → List K} {target : Nat}
    (hrun : Run (step h ops) (Delivers h high) (new h texts target) s) : Arrived h s ∧
      ∀ a t, Local s a → WritesWhole h high s a → step h ops s a = some t →
        (Arrived h t ↔ Lossless h s a) := by
  have hinv : Typing h s ∧ Arrived h s := by
    refine hrun.invariant (P := fun s => Typing h s ∧ Arrived h s) (typing_new h texts target) ?_
    rintro t u a ⟨hi, ha⟩ ⟨hwhole, hl⟩ hstep
    exact ⟨hi.step hl.isLocal hstep,
      (arrived_step_iff hnormal hops hi ha hl.isLocal hwhole hstep).2 hl⟩
  exact ⟨hinv.2, fun a t => arrived_step_iff hnormal hops hinv.1 hinv.2⟩

end

/-- `Y.Text` splits a string at `i`. A high surrogate at the end of the left part is lost, and
with it the unit after it. -/
def splitString (text : List UInt16) (i : Nat) : List UInt16 × List UInt16 :=
  let left := text.take i
  let right := text.drop i
  if right ≠ [] ∧ left.getLast?.any Utf16.isHigh then
    (left.dropLast ++ [0xfffd], 0xfffd :: right.tail)
  else (left, right)

def utf16Ops : TextOps UInt16 where
  delete text start count :=
    let (left, rest) := splitString text start
    left ++ (splitString rest count).2
  insert text start new :=
    let (left, right) := splitString text start
    left ++ new ++ right

lemma splitString_of_whole {text : List UInt16} {i : Nat} (h : Whole Utf16.isHigh text i) :
    splitString text i = (text.take i, text.drop i) := by
  refine if_neg ?_
  rintro ⟨hright, hany⟩
  have hlt : i < text.length := by simpa using hright
  obtain ⟨u, hu, hhigh⟩ := (Option.any_eq_true ..).1 hany
  cases i with
  | zero => cases hu
  | succ i =>
    have hi : text[i]? = some text[i] := List.getElem?_eq_getElem (by omega)
    rw [List.getLast?_take, if_neg (Nat.succ_ne_zero i), Nat.add_sub_cancel, hi,
      Option.some_or] at hu
    exact Bool.false_ne_true ((h hlt u (hi.trans hu)).symm.trans hhigh)

lemma utf16Ops_keepsWhole : utf16Ops.KeepsWhole Utf16.isHigh where
  delete {text start count} hstart hstop hle := by
    have hrest : Whole Utf16.isHigh (text.drop start) count := by
      cases count with
      | zero => trivial
      | succ j =>
        intro hlt u hu
        rw [List.getElem?_drop] at hu
        rw [List.length_drop] at hlt
        have hlt' : start + j + 1 < text.length := by omega
        exact hstop hlt' u hu
    simp only [utf16Ops, splitString_of_whole hstart, splitString_of_whole hrest, splice,
      List.append_nil, List.drop_drop]
  insert {text start new} hstart _ := by
    simp only [utf16Ops, splitString_of_whole hstart, splice]

def utf16Handler : Handler UInt16 (List UInt16) := ⟨id, id⟩

/-- A letter is typed behind a pair of surrogates. -/
theorem typed_character_arrives :
    ∃ s, Run (step utf16Handler utf16Ops) (Delivers utf16Handler Utf16.isHigh)
        (new utf16Handler (fun _ => [0xd83d, 0xde00]) 0) s ∧
      s.ytext = [0xd83d, 0xde00, 0x61] ∧ s.syncTimer = false ∧ Arrived utf16Handler s := by
  have hrun : ∃ s, Run (step utf16Handler utf16Ops) (Delivers utf16Handler Utf16.isHigh)
      (new utf16Handler (fun _ => [0xd83d, 0xde00]) 0) s ∧
        s.ytext = [0xd83d, 0xde00, 0x61] ∧ s.syncTimer = false := by
    refine ⟨_, .tail .timer (.tail (.edit [0xd83d, 0xde00, 0x61]) .refl ⟨trivial, trivial⟩ rfl)
      ⟨⟨?_, ?_⟩, fun heq => ?_⟩ rfl, rfl, rfl⟩
    · exact fun hlt => absurd hlt (by decide)
    · exact fun hlt => absurd hlt (by decide)
    · exact absurd heq (by decide)
  obtain ⟨s, hrun, htext, htimer⟩ := hrun
  exact ⟨s, hrun, htext, htimer,
    (typed_text_arrives_iff_delivered (fun _ => rfl) utf16Ops_keepsWhole hrun).1⟩

/-- The user types and goes to the source editor before the timer fires; the user types and takes
it back; the user replaces a character by one with the same high surrogate. -/
theorem typed_text_lost :
    (∃ s, Run (step plainHandler plainOps) Local (new plainHandler (fun _ => [1]) 0) s ∧
        ¬Arrived plainHandler s) ∧
      (∃ s, Run (step plainHandler plainOps) Local (new plainHandler (fun _ => [1]) 0) s ∧
        s.paused = false ∧ ¬Arrived plainHandler s) ∧
      ∃ s, Run (step utf16Handler utf16Ops) Local
          (new utf16Handler (fun _ => [0xd83d, 0xde00]) 0) s ∧
        s.writes = [(0, [0xfffd, 0xde01])] ∧ ¬Arrived utf16Handler s := by
  refine ⟨?_, ?_, ?_⟩
  · refine ⟨_, .tail (.switchMode true) (.tail (.edit [1, 2]) .refl trivial rfl) trivial rfl,
      fun ha => ?_⟩
    exact absurd (ha [1, 2] rfl rfl) (by decide)
  · refine ⟨_, .tail .timer (.tail (.edit [1]) (.tail .timer
      (.tail (.edit [1, 2]) .refl trivial rfl) trivial rfl) trivial rfl) trivial rfl, rfl,
      fun ha => ?_⟩
    exact absurd (ha [1] rfl rfl) (by decide)
  · refine ⟨_, .tail .timer (.tail (.edit [0xd83d, 0xde01]) .refl trivial rfl) trivial rfl, rfl,
      fun ha => ?_⟩
    exact absurd (ha [0xd83d, 0xde01] rfl rfl) (by decide)

end CollabEditor.Frontend.TextBinding
