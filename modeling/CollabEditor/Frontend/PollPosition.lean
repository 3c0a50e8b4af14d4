import CollabEditor.Frontend.PersistRuns
import CollabEditor.StorageDemo.ChangeLog
/-!
# The position of the polls

`pollOnce` and `_reconcileChange` in `comment-engine.ts`: polls overlap, and any request may fail.
What happens to the threads meanwhile and what time the server says it is are left open.
-/

namespace CollabEditor.Frontend.PollPosition

open Support Execution Function List Option
open CollabEditor.StorageDemo (CommentThread CommentChange LoggedStore)

variable {K : Type}

abbrev LoggedChange := CommentChange × Nat

/-- A position that is not set is before every change. -/
def Before (position : Nat) (e : LoggedChange) : Prop := position = 0 ∨ position < e.1.time
  deriving Decidable

def reportedSince (log : List CommentChange) (since : Nat) : List LoggedChange :=
  log.zipIdx.filter fun e => Before since e

lemma mem_reportedSince {log : List CommentChange} {since : Nat} {e : LoggedChange} :
    e ∈ reportedSince log since ↔ e ∈ log.zipIdx ∧ Before since e := by
  simp [reportedSince]

lemma mem_zipIdx_append {log : List CommentChange} {e : LoggedChange} (h : e ∈ log.zipIdx)
    (change : CommentChange) : e ∈ (log ++ [change]).zipIdx :=
  zipIdx_append .. ▸ mem_append_left _ h

/-- A poll: its request is on its way, then the answer, and then it comes to one change after the
other. `fetched` is the answer to the request for the thread, with how long the log was when the
thread was read. -/
inductive Poll (K : Type)
  | asked (since : Nat)
  | answered (changes : List LoggedChange) (serverTime : Option Nat)
  | applying (queue : List LoggedChange) (fetched : Option (Nat × CommentThread K))

/-- The engine with its polls, and the server's log. No step reads the last two: how much of the
log the client has had of a thread, and the reported changes that could not be brought. -/
structure PolledThreads (K : Type) where
  threads : Nat → Option (StoredThread K)
  client : CommentClient K
  lastPollAt : Option Nat
  polls : List (Poll K)
  log : List CommentChange
  seen : Nat → Nat
  missed : List LoggedChange

inductive PollEvent (K : Type)
  | elsewhere (threads : Nat → Option (StoredThread K)) (client : CommentClient K)
  | logged (change : CommentChange)
  | start (focused : Bool)
  | serve (i : Nat) (serverTime : Option Nat)
  | receive (i now : Nat)
  | failPoll (i : Nat)
  | reconcileDeleted (i : Nat)
  | readThread (i : Nat) (thread : CommentThread K)
  | reconcile (i : Nat)
  | refused (i : Nat)
  | rejected (i : Nat)
  | finish (i : Nat)

namespace PolledThreads

def new (threads : Nat → Option (StoredThread K)) (client : CommentClient K)
    (log : List CommentChange) : PolledThreads K :=
  ⟨threads, client, none, [], log, fun _ => 0, []⟩

def since (s : PolledThreads K) : Nat := s.lastPollAt.getD 0

def setPoll (s : PolledThreads K) (i : Nat) (poll : Poll K) : PolledThreads K :=
  { s with polls := s.polls.set i poll }

def endPoll (s : PolledThreads K) (i : Nat) : PolledThreads K :=
  { s with polls := s.polls.eraseIdx i }

def miss (s : PolledThreads K) (changes : List LoggedChange) : PolledThreads K :=
  { s with missed := s.missed ++ changes }

def see (s : PolledThreads K) (id n : Nat) : PolledThreads K :=
  { s with seen := update s.seen id (max (s.seen id) n) }

/-- The client has had the change. -/
def Has (s : PolledThreads K) (e : LoggedChange) : Prop := e.2 < s.seen e.1.threadId
  deriving Decidable

/-- The next poll is told of what could not be brought, unless the client has had it. -/
def Retried (s : PolledThreads K) : Prop :=
  ∀ e ∈ s.missed, s.Has e ∨ e ∈ reportedSince s.log s.since
  deriving Decidable

end PolledThreads

open PolledThreads

def step (s : PolledThreads K) : PollEvent K → Option (PolledThreads K)
  | .elsewhere threads client => some { s with threads, client }
  | .logged change => some { s with log := s.log ++ [change] }
  | .start focused =>
    some (if focused then { s with polls := s.polls ++ [.asked s.since] } else s)
  | .serve i serverTime =>
    match s.polls[i]? with
    | some (.asked since) =>
      some (s.setPoll i (.answered (reportedSince s.log since) serverTime))
    | _ => none
  | .receive i now =>
    match s.polls[i]? with
    | some (.answered changes serverTime) =>
      some { s.setPoll i (.applying changes none) with
        lastPollAt := some (serverTime.getD now)
        missed := s.missed.filter (· ∉ changes) }
    | _ => none
  | .failPoll i =>
    match s.polls[i]? with
    | some (.asked _) => some (s.endPoll i)
    | some (.answered ..) => some (s.endPoll i)
    | _ => none
  | .reconcileDeleted i =>
    match s.polls[i]? with
    | some (.applying (e :: queue) none) =>
      if e.1.action = .deleted then
        some { (s.setPoll i (.applying queue none)).see e.1.threadId (e.2 + 1) with
          threads := update s.threads e.1.threadId none }
      else none
    | _ => none
  | .readThread i thread =>
    match s.polls[i]? with
    | some (.applying (e :: queue) none) =>
      if e.1.action = .deleted then none
      else some (s.setPoll i (.applying (e :: queue) (some (s.log.length, thread))))
    | _ => none
  | .reconcile i =>
    match s.polls[i]? with
    | some (.applying (e :: queue) (some (n, thread))) =>
      let id := e.1.threadId
      let next := s.client.insertThreadFromWire (s.threads id) id thread
      some { (s.setPoll i (.applying queue none)).see id n with
        threads := update s.threads id (some next.2)
        client := next.1 }
    | _ => none
  | .refused i =>
    match s.polls[i]? with
    | some (.applying (e :: queue) _) =>
      if e.1.action = .deleted then none
      else some ((s.setPoll i (.applying queue none)).miss [e])
    | _ => none
  | .rejected i =>
    match s.polls[i]? with
    | some (.applying (e :: queue) _) =>
      if e.1.action = .deleted then none else some ((s.endPoll i).miss (e :: queue))
    | _ => none
  | .finish i =>
    match s.polls[i]? with
    | some (.applying [] _) => some (s.endPoll i)
    | _ => none

/-- The poll was asked from before the change. If it is answered already, it reports the change or
sets a position before it. -/
def Poll.Covers (e : LoggedChange) : Poll K → Prop
  | .asked since => Before since e
  | .answered changes serverTime => e ∈ changes ∨ ∃ time ∈ serverTime, Before time e
  | .applying .. => True

instance (e : LoggedChange) (poll : Poll K) : Decidable (poll.Covers e) := by
  rcases poll with ⟨⟩ <;> dsimp only [Poll.Covers] <;> infer_instance

def Poll.changes : Poll K → List LoggedChange
  | .asked _ => []
  | .answered changes _ => changes
  | .applying queue _ => queue

/-- The client has had the change, or the answer that came last and all polls that are under way are
from before it. -/
def Awaits (s : PolledThreads K) (e : LoggedChange) : Prop :=
  s.Has e ∨ Before s.since e ∧ ∀ poll ∈ s.polls, poll.Covers e
  deriving Decidable

/-- A request for a thread is answered with an error only if the change is awaited. If it is never
answered, all changes behind it are, too. -/
def InTime (s : PolledThreads K) : PollEvent K → Prop
  | .refused i => ∀ poll ∈ s.polls[i]?, ∀ e ∈ poll.changes.head?, Awaits s e
  | .rejected i => ∀ poll ∈ s.polls[i]?, ∀ e ∈ poll.changes, Awaits s e
  | _ => True

instance (s : PolledThreads K) (a : PollEvent K) : Decidable (InTime s a) := by
  rcases a with ⟨⟩ <;> dsimp only [InTime] <;> infer_instance

/-- No request for a thread fails. -/
def Fetched (_ : PolledThreads K) : PollEvent K → Prop
  | .refused _ | .rejected _ => False
  | _ => True

/-! ## What a step keeps -/

structure Kept (s : PolledThreads K) : Prop where
  logged : ∀ poll ∈ s.polls, ∀ e ∈ poll.changes, e ∈ s.log.zipIdx
  missed : ∀ e ∈ s.missed, e ∈ s.log.zipIdx ∧ Awaits s e

section

variable {s t : PolledThreads K} {a : PollEvent K} {e : LoggedChange} {i : Nat}
  {changes : List LoggedChange} {fetched : Option (Nat × CommentThread K)}

namespace Awaits

lemma setPoll (h : Awaits s e) {poll : Poll K} (hpoll : ¬s.Has e → poll.Covers e) :
    Awaits (s.setPoll i poll) e := by
  refine or_iff_not_imp_left.2 fun hnot => ?_
  obtain ⟨hbefore, hcovers⟩ := h.resolve_left hnot
  exact ⟨hbefore, fun p hp =>
    (mem_or_eq_of_mem_set hp).elim (hcovers p) fun heq => heq ▸ hpoll hnot⟩

lemma endPoll (h : Awaits s e) (i : Nat) : Awaits (s.endPoll i) e :=
  h.imp_right fun hbefore => ⟨hbefore.1, fun p hp => hbefore.2 p (mem_of_mem_eraseIdx hp)⟩

lemma see (h : Awaits s e) (id n : Nat) : Awaits (s.see id n) e := by
  refine h.imp_left fun hseen => ?_
  by_cases hid : e.1.threadId = id
  · subst hid
    exact lt_of_lt_of_le hseen (by simp [PolledThreads.see])
  · exact hseen.trans_eq (update_of_ne hid ..).symm

end Awaits

namespace Kept

lemma setPoll (h : Kept s) {poll : Poll K} (hlogged : ∀ e ∈ poll.changes, e ∈ s.log.zipIdx)
    (hcovers : ∀ e ∈ s.missed, ¬s.Has e → poll.Covers e) : Kept (s.setPoll i poll) where
  logged p hp := (mem_or_eq_of_mem_set hp).elim (h.logged p) fun heq => heq ▸ hlogged
  missed e he := ⟨(h.missed e he).1, (h.missed e he).2.setPoll (hcovers e he)⟩

lemma applying (h : Kept s) (hchanges : ∀ e ∈ changes, e ∈ s.log.zipIdx) :
    Kept (s.setPoll i (.applying changes fetched)) :=
  h.setPoll hchanges fun _ _ _ => trivial

lemma endPoll (h : Kept s) (i : Nat) : Kept (s.endPoll i) where
  logged p hp := h.logged p (mem_of_mem_eraseIdx hp)
  missed e he := ⟨(h.missed e he).1, (h.missed e he).2.endPoll i⟩

lemma miss (h : Kept s) (hchanges : ∀ e ∈ changes, e ∈ s.log.zipIdx ∧ Awaits s e) :
    Kept (s.miss changes) :=
  ⟨h.logged, fun e he => (mem_append.1 he).elim (h.missed e) (hchanges e)⟩

lemma receive (h : Kept s) {serverTime : Option Nat}
    (hi : s.polls[i]? = some (.answered changes serverTime)) (now : Nat) :
    Kept { s.setPoll i (.applying changes none) with
      lastPollAt := some (serverTime.getD now)
      missed := s.missed.filter (· ∉ changes) } where
  logged := (h.applying (h.logged _ (mem_of_getElem? hi))).logged
  missed e he := by
    obtain ⟨hmissed, hnew⟩ := mem_filter.1 he
    obtain ⟨hlogged, hawaits⟩ := h.missed e hmissed
    refine ⟨hlogged, hawaits.imp_right fun hbefore => ⟨?_, fun p hp => ?_⟩⟩
    · -- the answer does not report the change, so it sets a position before it
      obtain ⟨time, rfl, htime⟩ :=
        (hbefore.2 _ (mem_of_getElem? hi)).resolve_left (of_decide_eq_true hnew)
      exact htime
    · exact (mem_or_eq_of_mem_set hp).elim (hbefore.2 p) fun heq => heq ▸ trivial

lemma step (h : Kept s) (hok : InTime s a) (hstep : step s a = some t) : Kept t := by
  have hqueue {i : Nat} {queue : List LoggedChange} {fetched : Option (Nat × CommentThread K)}
      (hi : s.polls[i]? = some (.applying queue fetched)) : ∀ e ∈ queue, e ∈ s.log.zipIdx :=
    h.logged _ (mem_of_getElem? hi)
  cases a with
  | elsewhere threads client =>
    cases hstep
    exact { h with }
  | logged change =>
    cases hstep
    exact ⟨fun p hp e he => mem_zipIdx_append (h.logged p hp e he) change,
      fun e he => (h.missed e he).imp_left (mem_zipIdx_append · change)⟩
  | start focused =>
    cases hstep
    cases focused with
    | false => exact h
    | true =>
      refine ⟨forall_mem_append.2 ⟨h.logged, by simp [Poll.changes]⟩, fun e he => ?_⟩
      exact (h.missed e he).imp_right fun hawaits => hawaits.imp_right fun hbefore =>
        ⟨hbefore.1, forall_mem_append.2 ⟨hbefore.2, forall_mem_singleton.2 hbefore.1⟩⟩
  | serve i serverTime =>
    simp only [PollPosition.step] at hstep
    split at hstep <;> cases hstep
    rename_i since hi
    refine h.setPoll (fun e he => (mem_reportedSince.1 he).1) fun e he hnot => .inl ?_
    -- the poll was asked from before the change, which is in the log by now
    have hsince : Before since e := ((h.missed e he).2.resolve_left hnot).2 _ (mem_of_getElem? hi)
    exact mem_reportedSince.2 ⟨(h.missed e he).1, hsince⟩
  | receive i now =>
    simp only [PollPosition.step] at hstep
    split at hstep <;> cases hstep
    exact h.receive ‹_› now
  | failPoll i | finish i =>
    simp only [PollPosition.step] at hstep
    split at hstep <;> cases hstep <;> exact h.endPoll i
  | readThread i thread =>
    simp only [PollPosition.step] at hstep
    (repeat' split at hstep) <;> cases hstep
    exact h.applying (hqueue ‹s.polls[i]? = _›)
  | reconcileDeleted i | reconcile i =>
    simp only [PollPosition.step] at hstep
    (repeat' split at hstep) <;> cases hstep
    have hrest := (forall_mem_cons.1 (hqueue ‹s.polls[i]? = _›)).2
    have hnew : Kept (s.setPoll i (.applying _ none)) := h.applying hrest
    exact ⟨hnew.logged, fun e he => (hnew.missed e he).imp_right (·.see ..)⟩
  | refused i =>
    simp only [PollPosition.step] at hstep
    (repeat' split at hstep) <;> cases hstep
    rename_i e queue _ hi _
    obtain ⟨hfirst, hrest⟩ := forall_mem_cons.1 (hqueue hi)
    refine (h.applying hrest).miss (forall_mem_singleton.2 ⟨hfirst, ?_⟩)
    exact (hok _ hi e rfl).setPoll fun _ => trivial
  | rejected i =>
    simp only [PollPosition.step] at hstep
    (repeat' split at hstep) <;> cases hstep
    rename_i hi _
    exact (h.endPoll i).miss fun e he => ⟨hqueue hi e he, (hok _ hi e he).endPoll i⟩

lemma retried (h : Kept s) : s.Retried := fun e he =>
  (h.missed e he).2.imp_right fun hbefore => mem_reportedSince.2 ⟨(h.missed e he).1, hbefore.1⟩

end Kept

/-! ## What is not awaited is lost -/

lemma covers_of_answer (hretried : ∀ now u, step t (.receive i now) = some u → u.Retried)
    (he : e ∈ t.missed) (hnot : ¬t.Has e) {serverTime : Option Nat}
    (hi : t.polls[i]? = some (.answered changes serverTime)) :
    (Poll.answered changes serverTime : Poll K).Covers e := by
  refine or_iff_not_imp_left.2 fun hnew => ?_
  have hnext (now : Nat) : Before (serverTime.getD now) e := by
    have hstep : ∃ u, step t (.receive i now) = some u ∧ e ∈ u.missed ∧ ¬u.Has e ∧
        u.since = serverTime.getD now := by
      simp only [step, hi]
      exact ⟨_, rfl, mem_filter.2 ⟨he, decide_eq_true hnew⟩, hnot, rfl⟩
    obtain ⟨u, hu, hmissed, hseen, hsince⟩ := hstep
    exact hsince ▸ (mem_reportedSince.1 ((hretried now u hu e hmissed).resolve_left hseen)).2
  cases serverTime with
  | some time => exact ⟨time, rfl, hnext 0⟩
  | none => exact absurd (hnext (e.1.time + 1)) (by simp [Before])

lemma awaits_of_retried (hretried : ∀ u, Run step Fetched t u → u.Retried) :
    ∀ e ∈ t.missed, Awaits t e := by
  refine fun e he => or_iff_not_imp_left.2 fun hnot => ⟨?_, fun poll hpoll => ?_⟩
  · exact (mem_reportedSince.1 ((hretried t .refl e he).resolve_left hnot)).2
  · obtain ⟨i, hi⟩ := mem_iff_getElem?.1 hpoll
    cases poll with
    | applying => trivial
    | answered changes serverTime =>
      exact covers_of_answer (fun now u hu => hretried u (.tail (.receive i now) .refl trivial hu))
        he hnot hi
    | asked since =>
      -- the server answers that it is the time from which the poll was asked
      have hserved : Run step Fetched t
          (t.setPoll i (.answered (reportedSince t.log since) (some since))) :=
        .tail (.serve i (some since)) .refl trivial (by simp only [step, hi])
      have hlt : i < t.polls.length := (List.getElem?_eq_some_iff.1 hi).1
      have hcovers := covers_of_answer (t := t.setPoll i _)
        (fun now u hu => hretried u (.tail (.receive i now) hserved trivial hu)) he hnot
        (getElem?_set_self hlt)
      rcases hcovers with hreported | ⟨time, htime, hbefore⟩
      · exact (mem_reportedSince.1 hreported).2
      · cases htime
        exact hbefore

/-- The poll whose request fails leaves the others as they are, and has none to make that would
report the change. -/
lemma Awaits.of_failed (h : Awaits t e) (hi : s.polls[i]? = some (.applying changes fetched))
    (hlast : t.lastPollAt = s.lastPollAt) (hseen : t.seen = s.seen)
    (hpolls : ∀ j ≠ i, ∀ p, s.polls[j]? = some p → p ∈ t.polls) : Awaits s e := by
  refine h.imp (fun hhas => ?_) fun hbefore => ⟨?_, fun p hp => ?_⟩
  · rwa [Has, hseen] at hhas
  · rw [PolledThreads.since, ← hlast]
    exact hbefore.1
  · obtain ⟨j, hj⟩ := mem_iff_getElem?.1 hp
    by_cases hji : j = i
    · cases hi.symm.trans (hji ▸ hj)
      trivial
    · exact hbefore.2 p (hpolls j hji p hj)

lemma inTime_of_awaits (hstep : step s a = some t) (h : ∀ e ∈ t.missed, Awaits t e) :
    InTime s a := by
  cases a with
  | refused i =>
    simp only [step] at hstep
    (repeat' split at hstep) <;> cases hstep
    rename_i e queue _ hi _
    simp only [InTime, hi, mem_some_iff, forall_eq', Poll.changes, head?_cons]
    refine (h e (mem_append_right _ mem_cons_self)).of_failed hi rfl rfl fun j hji p hj => ?_
    exact mem_of_getElem? ((getElem?_set_ne (Ne.symm hji)).trans hj)
  | rejected i =>
    simp only [step] at hstep
    (repeat' split at hstep) <;> cases hstep
    rename_i e queue _ hi _
    simp only [InTime, hi, mem_some_iff, forall_eq', Poll.changes]
    intro f hf
    refine (h f (mem_append_right _ hf)).of_failed hi rfl rfl fun j hji p hj => ?_
    exact mem_eraseIdx_iff_getElem?.2 ⟨j, hji, hj⟩
  | _ => trivial

end

def created : CommentChange := ⟨1, .created, none, 5, none⟩

end CollabEditor.Frontend.PollPosition
