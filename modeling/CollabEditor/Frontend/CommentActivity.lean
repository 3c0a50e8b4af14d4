import CollabEditor.Support.Execution
import CollabEditor.Support.Register
import CollabEditor.Frontend.CommentEngine
/-!
# Several clients at one thread

The clients share a thread as a register: each call puts the whole thread in the place of the one
its client has read, and of whatever others have added meanwhile.
-/

namespace CollabEditor.Frontend

open Support Execution Register List Option

variable {K : Type}

/-! ## What is in a thread -/

inductive Mark
  | comment (id : Nat)
  | reaction (target : Option Nat) (user emoji : Nat)
  deriving DecidableEq

def reactionMarks (target : Option Nat) (list : List Reaction) : List Mark :=
  list.map fun r => .reaction target r.user r.emoji

namespace StoredThread

def commentMarks (t : StoredThread K) : List Mark :=
  t.comments.flatMap fun c => .comment c.id :: reactionMarks (some c.id) c.reactions

def marks (t : StoredThread K) : List Mark := reactionMarks none t.reactions ++ t.commentMarks

end StoredThread

def ThreadCall.removes (caller : Caller) : ThreadCall K → Option Mark
  | .removeReaction target emoji => some (.reaction target caller.user emoji)
  | _ => none

section

variable {t t' : StoredThread K} {m : Mark} {caller : Caller}

lemma mem_reactionMarks {target : Option Nat} {list : List Reaction} :
    m ∈ reactionMarks target list ↔ ∃ r ∈ list, .reaction target r.user r.emoji = m :=
  mem_map

lemma reactionMarks_react (target : Option Nat) (emoji : Nat) {list : List Reaction}
    (h : m ∈ reactionMarks target list) : m ∈ reactionMarks target (caller.react emoji list) := by
  rw [Caller.react]
  split
  · exact h
  · rw [reactionMarks, map_append]
    exact mem_append_left _ h

lemma reactionMarks_unreact (target : Option Nat) (emoji : Nat) {list : List Reaction}
    (h : m ∈ reactionMarks target list) (hkept : m ≠ .reaction target caller.user emoji) :
    m ∈ reactionMarks target (caller.unreact emoji list) := by
  obtain ⟨r, hr, rfl⟩ := mem_reactionMarks.1 h
  refine mem_reactionMarks.2 ⟨r, mem_filter.2 ⟨hr, ?_⟩, rfl⟩
  simp only [Bool.not_eq_true', Bool.and_eq_false_iff, beq_eq_false_iff_ne]
  by_contra hsame
  simp only [not_or, not_not] at hsame
  exact hkept (by rw [hsame.1, hsame.2])

lemma marks_mapComment {id : Nat} {f : Comment K → Comment K} (hid : ∀ c, (f c).id = c.id)
    (hf : ∀ c, m ∈ reactionMarks (some c.id) c.reactions → c.id = id →
      m ∈ reactionMarks (some c.id) (f c).reactions)
    (h : m ∈ t.marks) : m ∈ (t.mapComment id f).marks := by
  rcases mem_append.1 h with h | h
  · exact mem_append_left _ h
  obtain ⟨c, hc, hm⟩ := mem_flatMap.1 h
  refine mem_append_right _ (mem_flatMap.2 ⟨_, mem_map_of_mem hc, ?_⟩)
  split
  · rename_i hhere
    rw [hid]
    rcases mem_cons.1 hm with hm | hm
    · exact mem_cons.2 (.inl hm)
    · exact mem_cons_of_mem _ (hf c hm hhere)
  · exact hm

lemma marks_mutate {bytes : List K → Nat} {call : ThreadCall K}
    (hs : t.mutate bytes caller call = some t') (hm : m ∈ t.marks)
    (hkept : call.removes caller ≠ some m) : m ∈ t'.marks := by
  cases call with
  | addReply id content =>
    obtain ⟨-, rfl⟩ := ite_some_none_eq_some.1 hs
    rcases mem_append.1 hm with hm | hm
    · exact mem_append_left _ hm
    · refine mem_append_right _ ?_
      rw [StoredThread.commentMarks, flatMap_append]
      exact mem_append_left _ hm
  | resolveThread | reopenThread =>
    cases hs
    exact hm
  | editComment id content | deleteComment id =>
    obtain ⟨-, rfl⟩ := ite_some_none_eq_some.1 hs
    exact marks_mapComment (fun _ => rfl) (fun _ h _ => h) hm
  | addReaction target emoji =>
    cases target with
    | none =>
      simp only [StoredThread.mutate, ite_none_right_eq_some,
        ite_none_left_eq_some, some.injEq] at hs
      obtain ⟨-, -, rfl⟩ := hs
      rcases mem_append.1 hm with hm | hm
      · exact mem_append_left _ (reactionMarks_react none emoji hm)
      · exact mem_append_right _ hm
    | some id =>
      obtain ⟨-, rfl⟩ := ite_some_none_eq_some.1 hs
      exact marks_mapComment (fun _ => rfl)
        (fun c h _ => reactionMarks_react (some c.id) emoji h) hm
  | removeReaction target emoji =>
    have hkept' : m ≠ .reaction target caller.user emoji := fun h => hkept (by rw [h]; rfl)
    cases target with
    | none =>
      cases hs
      rcases mem_append.1 hm with hm | hm
      · exact mem_append_left _ (reactionMarks_unreact none emoji hm hkept')
      · exact mem_append_right _ hm
    | some id =>
      cases hs
      refine marks_mapComment (fun _ => rfl) (fun c h hid => ?_) hm
      exact reactionMarks_unreact (some c.id) emoji h (hid ▸ hkept')
  | decideSuggestion decision =>
    obtain ⟨s, -, rfl⟩ := map_eq_some_iff.1 hs
    exact hm

end

/-! ## The clients -/

variable {P : Type} [LinearOrder P]

/-- `kept` has what was added to the thread, at any client, and not taken away again. -/
structure Discussion (P K : Type) where
  thread : Shared P (StoredThread K)
  kept : List Mark

inductive ActivityEvent (P K : Type)
  | call (client : Nat) (caller : Caller) (call : ThreadCall K) (stamp : P)
  | deliver (client : Nat) (w : Write P (StoredThread K))

def Discussion.started (creator : Nat) (w : Write P (StoredThread K)) : Discussion P K :=
  ⟨.started creator w, w.value.marks⟩

section

variable [DecidableEq K] (bytes : List K → Nat)

def activityStep (s : Discussion P K) : ActivityEvent P K → Option (Discussion P K)
  | .call client caller call stamp =>
    (s.thread.value client).bind fun t => (t.mutate bytes caller call).bind fun t' =>
      if s.thread.Follows client stamp then
        some {
          thread := s.thread.write client ⟨stamp, t'⟩
          kept := s.kept.filter (fun m => decide (call.removes caller ≠ some m)) ++
            t'.marks.filter fun m => decide (m ∉ t.marks) }
      else none
  | .deliver client w =>
    if w ∈ s.thread.written then some { s with thread := s.thread.receive client w } else none

/-- A call is made by a client that has received all that was written to the thread. -/
def CalledUpToDate (s : Discussion P K) : ActivityEvent P K → Prop
  | .call client .. => s.thread.UpToDate client
  | .deliver .. => True

instance (s : Discussion P K) (a : ActivityEvent P K) : Decidable (CalledUpToDate s a) := by
  rcases a with ⟨⟩ <;> dsimp only [CalledUpToDate] <;> infer_instance

structure ActivityInv (s : Discussion P K) : Prop where
  thread : s.thread.Inv
  kept : ∃ w, latest s.thread.written = some w ∧ ∀ m ∈ s.kept, m ∈ w.value.marks

omit [DecidableEq K] in
lemma activityInv_started (creator : Nat) (w : Write P (StoredThread K)) :
    ActivityInv (.started creator w) :=
  ⟨Shared.inv_started creator w, w, argmax_singleton, fun _ hm => hm⟩

variable {bytes} {s s' : Discussion P K} {a : ActivityEvent P K}

lemma ActivityInv.call (h : ActivityInv s) {client : Nat} {caller : Caller} {call : ThreadCall K}
    {stamp : P} (hall : s.thread.UpToDate client)
    (hs : activityStep bytes s (.call client caller call stamp) = some s') : ActivityInv s' := by
  simp only [activityStep, bind_eq_some_iff, ite_none_right_eq_some, some.injEq] at hs
  obtain ⟨t, ht, t', ht', hfollows, rfl⟩ := hs
  obtain ⟨w, hw, hkept⟩ := h.kept
  obtain ⟨w', hw', rfl⟩ := map_eq_some_iff.1 ht
  -- the client has read what everybody would end up with
  obtain rfl : w' = w := some.inj (hw'.symm.trans ((h.thread.latest_received hall).trans hw))
  refine ⟨h.thread.write hfollows, ⟨stamp, t'⟩, h.thread.latest_written hall hfollows,
    fun m hm => ?_⟩
  rcases mem_append.1 hm with hm | hm
  · obtain ⟨hm, hnot⟩ := mem_filter.1 hm
    exact marks_mutate ht' (hkept m hm) (of_decide_eq_true hnot)
  · exact (mem_filter.1 hm).1

lemma activityInv_step (h : ActivityInv s) (hok : CalledUpToDate s a)
    (hs : activityStep bytes s a = some s') : ActivityInv s' := by
  cases a with
  | call client caller call stamp => exact h.call hok hs
  | deliver client w =>
    obtain ⟨hw, rfl⟩ := ite_some_none_eq_some.1 hs
    exact ⟨h.thread.receive hw, h.kept⟩

/-- If every call is made up to date, a client that has received everything has in its thread all
that was added and not removed, by whatever client. -/
theorem activity_kept_of_calledUpToDate {creator : Nat} {w : Write P (StoredThread K)}
    (hrun : Run (activityStep bytes) CalledUpToDate (.started creator w) s) {client : Nat}
    (hall : s.thread.UpToDate client) :
    ∃ t, s.thread.value client = some t ∧ ∀ m ∈ s.kept, m ∈ t.marks := by
  have hinv := hrun.invariant (P := ActivityInv) (activityInv_started creator w)
    fun _ _ _ h hok hs => activityInv_step h hok hs
  obtain ⟨last, hlast, hkept⟩ := hinv.kept
  refine ⟨last.value, ?_, hkept⟩
  rw [Shared.value, hinv.thread.latest_received hall, hlast]
  rfl

end

def emptyThread : StoredThread Nat where
  anchor := ⟨0, 1, [0x61]⟩
  startRel := none
  endRel := none
  status := .opened
  suggestion := none
  comments := []
  reactions := []
  createdAt := 0

def repliedThread (caller : Caller) (id : Nat) : StoredThread Nat :=
  { emptyThread with
    comments := [{ id, author := caller.user, content := [], createdAt := caller.now }] }

/-- Client 2 replies after it has received the reply of client 1. -/
theorem activity_kept_inTurn :
    ∃ s, Run (activityStep List.length) CalledUpToDate (.started 1 ⟨0, emptyThread⟩) s ∧
      .comment 10 ∈ s.kept ∧ .comment 20 ∈ s.kept ∧
      ∃ t, s.thread.value 2 = some t ∧ ∀ m ∈ s.kept, m ∈ t.marks :=
  exists_run_imp
    [.call 1 ⟨1, 0, none⟩ (.addReply 10 []) 1, .deliver 2 ⟨0, emptyThread⟩,
      .deliver 2 ⟨1, repliedThread ⟨1, 0, none⟩ 10⟩, .call 2 ⟨2, 0, none⟩ (.addReply 20 []) 2]
    (P := fun s => .comment 10 ∈ s.kept ∧ .comment 20 ∈ s.kept ∧ s.thread.UpToDate 2)
    (by decide +kernel)
    fun _ hrun ⟨h₁, h₂, hall⟩ => ⟨h₁, h₂, activity_kept_of_calledUpToDate hrun hall⟩

/-- Two clients reply at the same time: once everything is delivered, no client has the first
reply any more. -/
theorem concurrent_reply_lost : ∃ s : Discussion Nat Nat,
      Run (activityStep List.length) anyStep (.started 1 ⟨0, emptyThread⟩) s ∧
      s.thread.UpToDate 1 ∧ s.thread.UpToDate 2 ∧ .comment 10 ∈ s.kept ∧
      s.thread.value 1 = some (repliedThread ⟨2, 0, none⟩ 20) ∧
      s.thread.value 2 = some (repliedThread ⟨2, 0, none⟩ 20) ∧
      .comment 10 ∉ (repliedThread ⟨2, 0, none⟩ 20).marks :=
  exists_run
    [.deliver 2 ⟨0, emptyThread⟩, .call 1 ⟨1, 0, none⟩ (.addReply 10 []) 1,
      .call 2 ⟨2, 0, none⟩ (.addReply 20 []) 2, .deliver 2 ⟨1, repliedThread ⟨1, 0, none⟩ 10⟩,
      .deliver 1 ⟨2, repliedThread ⟨2, 0, none⟩ 20⟩]
    (by decide +kernel)

end CollabEditor.Frontend
