import CollabEditor.Support.BoundedRetry
import CollabEditor.Support.Execution
import CollabEditor.Frontend.PersistRuns
import Mathlib.Data.Prod.Lex
/-!
# The retries of the persist runs

`_schedulePersist` and `_persist` in `comment-engine.ts`, with runs that only the timer starts and
threads that nobody changes.  Requests are answered in any way, or not at all.
-/

namespace CollabEditor.Frontend.PersistRetries

open Support Execution BoundedRetry List Option CommentClient Nat

variable {K : Type}

/-- `starts` and `attempts` are kept for the proofs only: how many runs there have been, and how
the attempts at each key have ended. -/
structure Retrying (K : Type) where
  client : CommentClient K
  runs : List (PersistRun K)
  starts : Nat
  attempts : List (DirtyKey × Bool)

/-- Runs are named by where they are in their list. -/
inductive RetryEvent
  | timer
  | nextKey (i : Nat)
  | answer (i : Nat) (accepted : Bool)
  | lose (i : Nat)
  | finish (i : Nat)

namespace Retrying

def marked (lastPersisted : Nat → Option (StoredThread K)) (keys : List DirtyKey) : Retrying K where
  client := ⟨keys, true, lastPersisted, fun _ => 0⟩
  runs := []
  starts := 0
  attempts := []

def start (s : Retrying K) : Retrying K :=
  { s with
    client := s.client.startPersist.1
    runs := s.runs ++ [s.client.startPersist.2]
    starts := s.starts + 1 }

def goOn (s : Retrying K) (i : Nat) (key : DirtyKey) (outcome : Bool)
    (next : CommentClient K × PersistRun K) : Retrying K :=
  { s with
    client := next.1
    runs := s.runs.set i next.2
    attempts := s.attempts ++ if next.2.saving.isNone then [(key, outcome)] else [] }

def outcomes (s : Retrying K) (key : DirtyKey) : List Bool := BoundedRetry.outcomes s.attempts key

end Retrying

section

variable [DecidableEq K] (threads : Nat → Option (StoredThread K))

def retryStep (s : Retrying K) : RetryEvent → Option (Retrying K)
  | .timer =>
    if s.client.timer then some s.start else none
  | .nextKey i => s.runs[i]?.bind fun run => run.queue.head?.bind fun key =>
    (s.client.nextKey threads run).map (s.goOn i key true)
  | .answer i accepted => s.runs[i]?.bind fun run => run.saving.bind fun saving =>
    (s.client.answered { run with saving := some { saving with answer := some accepted } }).map
      (s.goOn i saving.key accepted)
  | .lose i => s.runs[i]?.bind fun run => run.saving.bind fun saving =>
    (s.client.lost run).map (s.goOn i saving.key false)
  | .finish i => s.runs[i]?.bind fun run => (s.client.finished run).map fun client =>
    { s with client, runs := s.runs.eraseIdx i }

end

/-! ## The book that the runs keep -/

def coming (run : PersistRun K) : List DirtyKey :=
  (run.saving.map Saving.key).toList ++ run.queue

def Retrying.book (s : Retrying K) : Book DirtyKey where
  waiting := s.client.dirty
  coming := s.runs.flatMap coming
  failed := s.runs.flatMap PersistRun.failed
  rounds := s.starts
  tally := ⟨s.client.retryCount, s.attempts⟩

/-- There is one run at most, and while there is one no other is going to start. -/
structure OneAtATime (s : Retrying K) : Prop where
  runs : s.runs = [] ∨ ∃ run, s.runs = [run] ∧ s.client.dirty = [] ∧ s.client.timer = false
  scheduled : s.client.dirty ≠ [] → s.client.timer = true
  needed : s.client.timer = true → s.starts = 0 ∨ s.client.dirty ≠ []

section

lemma foldl_markDirty_eq {dirty keys : List DirtyKey} (h : (dirty ++ keys).Nodup) :
    keys.foldl markDirty dirty = dirty ++ keys := by
  induction keys generalizing dirty with
  | nil => exact (append_nil dirty).symm
  | cons key keys ih =>
    have hnot : key ∉ dirty := fun hmem =>
      disjoint_of_nodup_append h hmem mem_cons_self
    have happend : dirty ++ [key] ++ keys = dirty ++ key :: keys := append_assoc ..
    rw [foldl_cons, markDirty, if_neg hnot, ih (happend ▸ h), happend]

variable {client : CommentClient K} {run : PersistRun K} {saving : Saving K}

lemma key_toSave [DecidableEq K] {threads : Nat → Option (StoredThread K)} {key : DirtyKey}
    (h : client.toSave threads key = some saving) : saving.key = key := by
  cases key with
  | deleted id =>
    cases h
    rfl
  | thread id =>
    obtain ⟨stored, -, -, rfl⟩ := toSave_thread h
    rfl

end

section

variable {s t : Retrying K} {run : PersistRun K} {i : Nat} {key : DirtyKey} {keys : List DirtyKey}

lemma OneAtATime.single (h : OneAtATime s) (hrun : s.runs[i]? = some run) :
    i = 0 ∧ s.runs = [run] ∧ s.client.dirty = [] ∧ s.client.timer = false := by
  obtain hnil | ⟨only, hruns, hdirty, htimer⟩ := h.runs
  · rw [hnil] at hrun
    cases hrun
  · rw [hruns] at hrun
    cases i with
    | zero =>
      cases hrun
      exact ⟨rfl, hruns, hdirty, htimer⟩
    | succ i => cases hrun

lemma OneAtATime.of_run (hruns : s.runs = [run]) (hdirty : s.client.dirty = [])
    (htimer : s.client.timer = false) : OneAtATime s where
  runs := .inr ⟨run, hruns, hdirty, htimer⟩
  scheduled hne := absurd hdirty hne
  needed htrue := absurd (htimer.symm.trans htrue) Bool.false_ne_true

def left (run : PersistRun K) : Nat × Nat :=
  (run.queue.length, run.saving.elim 0 fun saving => max 1 saving.requests.length)

/-- The runs come to their end: first by how many may still start, then by what is left of the one
under way. -/
def variant (s : Retrying K) : Nat × Nat × Nat × Nat :=
  (maxPersistRetries - s.starts, s.runs.length, s.runs.head?.elim (0, 0) left)

def Less : Nat × Nat → Nat × Nat → Prop := Prod.Lex (· < ·) (· < ·)

def Smaller : Nat × Nat × Nat × Nat → Nat × Nat × Nat × Nat → Prop :=
  Prod.Lex (· < ·) (Prod.Lex (· < ·) Less)

lemma smaller_wf : WellFounded Smaller :=
  wellFounded_lt.prod_lex (wellFounded_lt.prod_lex (wellFounded_lt.prod_lex wellFounded_lt))

lemma book_of_run (hruns : s.runs = [run]) :
    s.book = ⟨s.client.dirty, coming run, run.failed, s.starts,
      ⟨s.client.retryCount, s.attempts⟩⟩ := by
  simp [Retrying.book, hruns]

structure Progress (s t : Retrying K) : Prop where
  one : OneAtATime t
  book : t.book = s.book ∨ Book.Step maxPersistRetries s.book t.book
  starts : s.starts ≤ maxPersistRetries → t.starts ≤ maxPersistRetries
  variant : Smaller (variant t) (variant s)

lemma progress_timer (h : OneAtATime s) (hbook : s.book.Exact maxPersistRetries keys)
    (htimer : s.client.timer = true) : Progress s s.start := by
  have hruns : s.runs = [] := by
    obtain hruns | ⟨run, -, -, hfalse⟩ := h.runs
    · exact hruns
    · rw [htimer] at hfalse
      cases hfalse
  have hlt : s.starts < maxPersistRetries := by
    obtain hzero | hdirty := h.needed htimer
    · rw [hzero]
      decide
    · obtain ⟨key, hkey⟩ := exists_mem_of_ne_nil _ hdirty
      exact (hbook.waiting key hkey).lt
  have hstart : s.start.runs = [s.client.startPersist.2] := by rw [Retrying.start, hruns]; rfl
  have hcoming : s.book.coming = [] := by rw [Retrying.book, hruns]; rfl
  have hfailed : s.book.failed = [] := by rw [Retrying.book, hruns]; rfl
  refine ⟨.of_run hstart rfl rfl, .inr ?_, fun _ => hlt, .left _ _ (sub_succ_lt_self _ _ hlt)⟩
  rw [book_of_run hstart]
  have hstep : Book.Step maxPersistRetries s.book _ := .start hcoming hfailed
  rw [hfailed] at hstep
  exact hstep

lemma left_resume (client : CommentClient K) (run : PersistRun K) (saving : Saving K) :
    left (client.resume run saving).2 = (run.queue.length, saving.requests.length) := by
  cases hrequests : saving.requests <;> simp [CommentClient.resume, hrequests, left]

lemma left_notSaved (client : CommentClient K) (run : PersistRun K) (key : DirtyKey) :
    left (client.notSaved run key).2 = left run := by
  rw [CommentClient.notSaved]
  split <;> rfl

section

variable {run' : PersistRun K} {saving : Saving K} (hruns : s.runs = [run])

include hruns

lemma runs_goOn (outcome : Bool) (next : CommentClient K × PersistRun K) :
    (s.goOn 0 key outcome next).runs = [next.2] := by
  rw [Retrying.goOn, hruns]
  rfl

lemma book_goOn_resume (hcoming : coming run = saving.key :: run'.queue)
    (hfailed : run'.failed = run.failed) :
    (s.goOn 0 saving.key true (s.client.resume run' saving)).book = s.book ∨
      Book.Step maxPersistRetries s.book
        (s.goOn 0 saving.key true (s.client.resume run' saving)).book := by
  rw [book_of_run hruns, hcoming, ← hfailed, book_of_run (runs_goOn hruns ..), Retrying.goOn]
  cases hrequests : saving.requests with
  | nil =>
    right
    simp only [CommentClient.resume, hrequests]
    exact .succeed rfl
  | cons r rest =>
    left
    simp [CommentClient.resume, hrequests, coming]

lemma book_goOn_saved (hcoming : coming run = key :: coming run')
    (hsaving : run'.saving = none) (hfailed : run'.failed = run.failed) :
    Book.Step maxPersistRetries s.book (s.goOn 0 key true (s.client.saved key, run')).book := by
  rw [book_of_run hruns, hcoming, ← hfailed, book_of_run (runs_goOn hruns ..), Retrying.goOn,
    hsaving]
  exact .succeed rfl

lemma book_goOn_notSaved (hcoming : coming run = key :: coming run')
    (hsaving : run'.saving = none) (hfailed : run'.failed = run.failed) :
    Book.Step maxPersistRetries s.book (s.goOn 0 key false (s.client.notSaved run' key)).book := by
  rw [book_of_run hruns, hcoming, ← hfailed, book_of_run (runs_goOn hruns ..), Retrying.goOn]
  obtain ⟨queue, saving, failed⟩ := run'
  obtain rfl : saving = none := hsaving
  by_cases hmax : maxPersistRetries ≤ s.client.retryCount key + 1
  · rw [CommentClient.notSaved, if_pos hmax]
    exact .giveUp rfl hmax
  · rw [CommentClient.notSaved, if_neg hmax]
    exact .retry rfl (Nat.lt_of_not_le hmax)

variable (hdirty : s.client.dirty = []) (htimer : s.client.timer = false)

include hdirty htimer

lemma progress_goOn {outcome : Bool} {next : CommentClient K × PersistRun K}
    (hmarked : next.1.dirty = s.client.dirty ∧ next.1.timer = s.client.timer)
    (hbook : (s.goOn 0 key outcome next).book = s.book ∨
      Book.Step maxPersistRetries s.book (s.goOn 0 key outcome next).book)
    (hless : Less (left next.2) (left run)) : Progress s (s.goOn 0 key outcome next) := by
  have hnext : (s.goOn 0 key outcome next).runs = [next.2] := runs_goOn hruns outcome next
  refine ⟨.of_run hnext (hmarked.1.trans hdirty) (hmarked.2.trans htimer), hbook, id, ?_⟩
  rw [variant, variant, hnext, hruns]
  exact .right _ (.right _ hless)

lemma progress_notSaved {saving : Saving K} (hsaving : run.saving = some saving) :
    Progress s (s.goOn 0 saving.key false
      (s.client.notSaved { run with saving := none } saving.key)) := by
  refine progress_goOn hruns hdirty htimer (marked_notSaved saving.key)
    (.inr (book_goOn_notSaved hruns ?_ rfl rfl)) ?_
  · simp [coming, hsaving]
  · rw [left_notSaved, left, left, hsaving]
    exact .right _ (lt_of_lt_of_le zero_lt_one (le_max_left ..))

lemma progress_finish [DecidableEq K] (hbook : s.book.Exact maxPersistRetries keys)
    {client : CommentClient K} (h : s.client.finished run = some client) :
    Progress s { s with client, runs := [] } := by
  obtain ⟨⟨hsaving, hqueue⟩, h⟩ := ite_none_right_eq_some.1 h
  have hcoming : s.book.coming = [] := by simp [Retrying.book, hruns, coming, hsaving, hqueue]
  have hfailed : s.book.failed = run.failed := by simp [Retrying.book, hruns]
  have hnodup : run.failed.Nodup := by
    have hnodup := hbook.nodup
    rw [Book.pending, hcoming, hfailed] at hnodup
    exact (nodup_append.1 hnodup).1
  have hstep : Book.Step maxPersistRetries s.book _ := .finish hcoming hdirty
  rw [hfailed] at hstep
  -- The keys are put back in their order, as no other is dirty.
  have hclient : client = { s.client with dirty := run.failed, timer := !run.failed.isEmpty } := by
    split at h
    · rename_i hnil
      rw [← Option.some.inj h, hnil, isEmpty_nil, Bool.not_true, ← hdirty, ← htimer]
    · rename_i hne
      have hfold : run.failed.foldl markDirty [] = run.failed := foldl_markDirty_eq hnodup
      rw [← Option.some.inj h, hdirty, hfold, isEmpty_eq_false_iff.2 hne, Bool.not_false]
  subst hclient
  refine ⟨⟨.inl rfl, fun hne => ?_, fun htrue => .inr ?_⟩, .inr ?_, id, .right _ (.left _ _ ?_)⟩
  · simpa using hne
  · simpa using htrue
  · rw [hcoming] at hstep
    exact hstep
  · rw [hruns]
    exact zero_lt_one

end

lemma progress_step [DecidableEq K] {threads : Nat → Option (StoredThread K)} {a : RetryEvent}
    (h : OneAtATime s) (hbook : s.book.Exact maxPersistRetries keys)
    (hstep : retryStep threads s a = some t) : Progress s t := by
  cases a with
  | timer =>
    obtain ⟨htimer, ⟨⟩⟩ := ite_none_right_eq_some.1 hstep
    exact progress_timer h hbook htimer
  | nextKey i =>
    obtain ⟨run, hrun, hstep⟩ := bind_eq_some_iff.1 hstep
    obtain ⟨key, hhead, next, hnext, rfl⟩ := bind_map_eq_some.1 hstep
    obtain ⟨rfl, hruns, hdirty, htimer⟩ := h.single hrun
    obtain ⟨first, rest, hsaving, hqueue, hnext⟩ := nextKey_eq_some hnext
    obtain rfl : first = key := by simpa [hqueue] using hhead
    have hcoming : coming run = first :: rest := by simp [coming, hsaving, hqueue]
    have hless (n : Nat) : Less (rest.length, n) (left run) := by
      rw [left, hqueue]
      exact .left _ _ (lt_succ_self _)
    obtain ⟨-, rfl⟩ | ⟨saving, hsave, rfl⟩ := hnext
    · have hrest : coming { run with queue := rest } = rest := by simp [coming, hsaving]
      exact progress_goOn hruns hdirty htimer ⟨rfl, rfl⟩
        (.inr (book_goOn_saved hruns (by rw [hrest, hcoming]) hsaving rfl)) (hless _)
    · obtain rfl := key_toSave hsave
      refine progress_goOn hruns hdirty htimer marked_resume
        (book_goOn_resume hruns hcoming rfl) ?_
      rw [left_resume]
      exact hless _
  | answer i accepted =>
    obtain ⟨run, hrun, hstep⟩ := bind_eq_some_iff.1 hstep
    obtain ⟨saving, hsaving, next, hnext, rfl⟩ := bind_map_eq_some.1 hstep
    obtain ⟨rfl, hruns, hdirty, htimer⟩ := h.single hrun
    cases hnext
    cases accepted with
    | true =>
      refine progress_goOn hruns hdirty htimer marked_resume
        (book_goOn_resume hruns (by simp [coming, hsaving]) rfl) ?_
      change Less (left (s.client.resume _ _).2) _
      rw [left_resume, left, hsaving]
      refine .right _ ?_
      simp only [length_tail, elim_some]
      omega
    | false => exact progress_notSaved hruns hdirty htimer hsaving
  | lose i =>
    obtain ⟨run, hrun, hstep⟩ := bind_eq_some_iff.1 hstep
    obtain ⟨saving, hsaving, next, hnext, rfl⟩ := bind_map_eq_some.1 hstep
    obtain ⟨rfl, hruns, hdirty, htimer⟩ := h.single hrun
    rw [CommentClient.lost, hsaving] at hnext
    cases hnext
    exact progress_notSaved hruns hdirty htimer hsaving
  | finish i =>
    obtain ⟨run, hrun, client, hfinished, rfl⟩ := bind_map_eq_some.1 hstep
    obtain ⟨rfl, hruns, hdirty, htimer⟩ := h.single hrun
    have hprogress := progress_finish hruns hdirty htimer hbook hfinished
    rwa [hruns]

end

/-! ## All runs together -/

section

variable {threads : Nat → Option (StoredThread K)} {s : Retrying K} {keys : List DirtyKey}

structure Sound (keys : List DirtyKey) (s : Retrying K) : Prop where
  one : OneAtATime s
  book : s.book.Exact maxPersistRetries keys
  starts : s.starts ≤ maxPersistRetries

lemma sound_marked (lastPersisted : Nat → Option (StoredThread K)) (hkeys : keys.Nodup) :
    Sound keys (.marked lastPersisted keys) where
  one := ⟨.inl rfl, fun _ => rfl, fun _ => .inl rfl⟩
  book := Book.exact_of_waiting hkeys (fun _ => rfl) (by decide)
  starts := zero_le _

variable [DecidableEq K]

lemma Sound.step {t : Retrying K} {a : RetryEvent} (h : Sound keys s)
    (hstep : retryStep threads s a = some t) : Sound keys t ∧ Smaller (variant t) (variant s) := by
  obtain ⟨hone, hbook, hstarts, hvariant⟩ := progress_step h.one h.book hstep
  refine ⟨⟨hone, ?_, hstarts h.starts⟩, hvariant⟩
  obtain heq | hbook := hbook
  · exact heq ▸ h.book
  · exact h.book.step hbook

lemma Sound.done (h : Sound keys s) (hstuck : ∀ a, retryStep threads s a = none) :
    s.runs = [] ∧ s.client.dirty = [] ∧ s.client.timer = false := by
  have htimer : s.client.timer = false := by
    have htimer := hstuck .timer
    simpa [retryStep] using htimer
  obtain hruns | ⟨run, hruns, -, -⟩ := h.one.runs
  · refine ⟨hruns, ?_, htimer⟩
    by_contra hne
    exact Bool.false_ne_true (htimer.symm.trans (h.one.scheduled hne))
  · exfalso
    cases hsaving : run.saving with
    | some saving =>
      have hlose := hstuck (.lose 0)
      simp [retryStep, hruns, hsaving, CommentClient.lost] at hlose
    | none =>
      cases hqueue : run.queue with
      | nil =>
        have hfinish : s.client.finished run = none := by
          simpa [retryStep, hruns] using hstuck (.finish 0)
        rw [CommentClient.finished, if_pos ⟨hsaving, hqueue⟩] at hfinish
        split at hfinish <;> cases hfinish
      | cons key rest =>
        have hnext : s.client.nextKey threads run = none := by
          simpa [retryStep, hruns, hqueue] using hstuck (.nextKey 0)
        rw [CommentClient.nextKey, hsaving, hqueue] at hnext
        dsimp only at hnext
        split at hnext <;> cases hnext

/-- Each key is attempted until it is saved or has failed for the fifth time. There are five runs
at most, each of them ends, and then nothing is left to be done. -/
theorem persist_attempts_exact (threads lastPersisted : Nat → Option (StoredThread K))
    (keys : List DirtyKey) (hkeys : keys.Nodup) :
    Terminates (retryStep threads) (.marked lastPersisted keys) ∧
      ∀ s, Run (retryStep threads) anyStep (.marked lastPersisted keys) s →
        s.starts ≤ maxPersistRetries ∧ (∀ key ∉ keys, s.outcomes key = []) ∧
        (∀ key ∈ keys, StillOpen maxPersistRetries (s.outcomes key) ∨
          Settled maxPersistRetries (s.outcomes key) ∧ s.client.retryCount key = 0) ∧
        ((∀ a, retryStep threads s a = none) →
          s.client.dirty = [] ∧ s.client.timer = false ∧ s.runs = [] ∧
            ∀ key, s.client.retryCount key = 0 ∧
              (key ∈ keys → Settled maxPersistRetries (s.outcomes key))) := by
  have hmarked : Sound keys (.marked lastPersisted keys) := sound_marked lastPersisted hkeys
  refine ⟨.of_variant smaller_wf variant (fun t u a ht hstep => ht.step hstep) hmarked,
    fun s hrun => ?_⟩
  have hs : Sound keys s :=
    hrun.invariant (P := Sound keys) hmarked fun t u a ht _ hstep => (ht.step hstep).1
  refine ⟨hs.starts, fun key hkey => ?_, fun key hkey => ?_, fun hstuck => ?_⟩
  · exact (hs.book.closed key fun hmem => hkey (hs.book.mem key hmem)).unasked hkey
  · obtain hopen | ⟨hclosed, hsettled⟩ := hs.book.stillOpen_or_settled hkey
    · exact .inl hopen
    · exact .inr ⟨hsettled, hclosed.retries⟩
  · obtain ⟨hruns, hdirty, htimer⟩ := hs.done hstuck
    have hpending : s.book.pending = [] := by simp [Book.pending, Retrying.book, hruns, hdirty]
    refine ⟨hdirty, htimer, hruns, fun key => ?_⟩
    have hclosed := hs.book.closed key (hpending ▸ not_mem_nil)
    exact ⟨hclosed.retries, hclosed.settled⟩

/-- One key needs no request, and the requests for the other are all lost. -/
theorem persist_attempts_exact_given_up : ∃ s : Retrying Char,
      s.outcomes (.thread 1) = [true] ∧ s.outcomes (.deleted 2) = replicate 5 false ∧
      s.starts = 5 ∧ (StillOpen 5 (s.outcomes (.deleted 2)) ∨
        Settled 5 (s.outcomes (.deleted 2)) ∧ s.client.retryCount (.deleted 2) = 0) ∧
      Terminates (retryStep fun _ => none)
        (Retrying.marked (K := Char) (fun _ => none) [.thread 1, .deleted 2]) := by
  obtain ⟨hends, hruns⟩ := persist_attempts_exact (K := Char) (fun _ => none) (fun _ => none)
    [.thread 1, .deleted 2] (by decide)
  obtain ⟨s, hexec, hsaved, hfailed, hstarts⟩ :
      ∃ s ∈ exec (retryStep fun _ => none) anyStep
        (Retrying.marked (K := Char) (fun _ => none) [.thread 1, .deleted 2])
        ([.timer, .nextKey 0, .nextKey 0, .lose 0, .finish 0] ++
          (replicate 4 [.timer, .nextKey 0, .lose 0, .finish 0]).flatten),
        s.outcomes (.thread 1) = [true] ∧ s.outcomes (.deleted 2) = replicate 5 false ∧
          s.starts = 5 := by decide +kernel
  have hs := (hruns s (run_of_exec hexec)).2.2.1 (.deleted 2) (by decide)
  exact ⟨s, hsaved, hfailed, hstarts, hs, hends⟩

end

end CollabEditor.Frontend.PersistRetries
