import Mathlib.Order.Monotone.Basic
import CollabEditor.Support.Execution
import CollabEditor.StorageDemo.CommentStore
/-!
# The log of comment changes

`appendChangeLocked`, `readChangesSinceLocked` and `PollCommentChanges` in
`internal/storagedemo/comments_store.go`.  `clock k` is the `k`-th reading of the clock, and 0 is
Go's zero time, which a poll without `since` passes.
-/

namespace CollabEditor.StorageDemo

open CollabEditor.Frontend Support.Execution List Nat

variable {K : Type}

inductive ChangeAction
  | created
  | replyAdded
  | resolved
  | reopened
  | deleted
  | suggestionDecided
  deriving DecidableEq

structure CommentChange where
  threadId : Nat
  action : ChangeAction
  changedBy : Option Nat
  time : Nat
  commentId : Option Nat := none
  deriving DecidableEq

structure CommentPollResponse where
  changes : List CommentChange
  serverTime : Nat

/-- The calls of the store that change a thread. -/
inductive Mutation (K : Type)
  | createCommentThread (id : Nat) (anchor : CommentAnchor K) (new : Option (NewComment K))
      (suggestion : Option (Suggestion K))
  | addReply (id : Nat) (new : NewComment K)
  | updateThreadStatus (id : Nat) (status : ThreadStatus) (resolvedBy : Option Nat)
  | deleteCommentThread (id : Nat)
  | updateComment (id commentId : Nat) (content : List K)
  | deleteComment (id commentId : Nat)
  | addReaction (id : Nat) (req : ReactionRequest)
  | removeReaction (id : Nat) (req : ReactionRequest)
  | decideSuggestion (id : Nat) (decision : SuggestionStatus) (decidedBy : Option Nat)
  deriving DecidableEq

namespace Mutation

def threadId : Mutation K → Nat
  | createCommentThread id _ _ _ => id
  | addReply id _ => id
  | updateThreadStatus id _ _ => id
  | deleteCommentThread id => id
  | updateComment id _ _ => id
  | deleteComment id _ => id
  | addReaction id _ => id
  | removeReaction id _ => id
  | decideSuggestion id _ _ => id

/-- The operations on a thread as a whole, as opposed to those on a comment or a
reaction in it. -/
def OnThread : Mutation K → Prop
  | updateComment _ _ _ => False
  | deleteComment _ _ => False
  | addReaction _ _ => False
  | removeReaction _ _ => False
  | _ => True

instance (m : Mutation K) : Decidable m.OnThread := by
  rcases m with ⟨⟩ <;> dsimp only [OnThread] <;> infer_instance

end Mutation

structure LoggedStore (K : Type) where
  threads : CommentStore K
  changes : List CommentChange
  readings : Nat

namespace LoggedStore

def empty : LoggedStore K := ⟨fun _ => none, [], 0⟩

def after (s : LoggedStore K) (threads : CommentStore K) (n : Nat)
    (changes : List CommentChange) : LoggedStore K :=
  ⟨threads, s.changes ++ changes, s.readings + n⟩

def creatorOf (new : Option (NewComment K)) (suggestion : Option (Suggestion K)) : Option Nat :=
  (suggestion.map (·.author)).or (new.map (·.author))

def readChangesSince (s : LoggedStore K) (since : Nat) : List CommentChange :=
  s.changes.filter fun ch => since = 0 ∨ since < ch.time

variable (bytes : List K → Nat) (allowed : List Nat) (clock : Nat → Nat)

def pollCommentChanges (s : LoggedStore K) (since : Nat) : LoggedStore K × CommentPollResponse :=
  (s.after s.threads 1 [], ⟨s.readChangesSince since, clock s.readings⟩)

/-- A call with the lines it logs. Resolving a thread reads the clock twice, and the
second reading is logged. -/
def mutate (s : LoggedStore K) (m : Mutation K) : Except StoreError (LoggedStore K) :=
  let now := clock s.readings
  match m with
  | .createCommentThread id anchor new suggestion => do
      let threads ← s.threads.createCommentThread bytes now id anchor new suggestion
      return s.after threads 1 [⟨id, .created, creatorOf new suggestion, now, none⟩]
  | .addReply id new => do
      let threads ← s.threads.addReply bytes now id new
      return s.after threads 1 [⟨id, .replyAdded, some new.author, now, some new.id⟩]
  | .updateThreadStatus id .resolved resolvedBy => do
      let threads ← s.threads.updateThreadStatus now id .resolved resolvedBy
      return s.after threads 2 [⟨id, .resolved, resolvedBy, clock (s.readings + 1), none⟩]
  | .updateThreadStatus id .opened resolvedBy => do
      let threads ← s.threads.updateThreadStatus now id .opened resolvedBy
      return s.after threads 1 [⟨id, .reopened, resolvedBy, now, none⟩]
  | .deleteCommentThread id =>
    return s.after (s.threads.deleteCommentThread id) 1 [⟨id, .deleted, none, now, none⟩]
  | .updateComment id commentId content => do
      let threads ← s.threads.updateComment bytes now id commentId content
      return s.after threads 1 []
  | .deleteComment id commentId => do
      let threads ← s.threads.deleteComment now id commentId
      return s.after threads 1 []
  | .addReaction id req => do
      let threads ← s.threads.addReaction now allowed id req
      return s.after threads 1 []
  | .removeReaction id req => do
      let threads ← s.threads.removeReaction id req
      return s.after threads 0 []
  | .decideSuggestion id decision decidedBy => do
      let threads ← s.threads.decideSuggestion now id decision decidedBy
      return s.after threads 1 [⟨id, .suggestionDecided, decidedBy, now, none⟩]

/-! ### What a call logs -/

variable {bytes allowed clock} {s s' : LoggedStore K} {m : Mutation K}

/-- A call logs at most one line, for its thread and with a reading of the clock made
during the call. -/
structure Logs (clock : Nat → Nat) (s : LoggedStore K) (m : Mutation K) (s' : LoggedStore K)
    (new : List CommentChange) : Prop where
  changes : s'.changes = s.changes ++ new
  readings : s.readings ≤ s'.readings
  stamped : ∀ ch ∈ new, ch.threadId = m.threadId ∧
    ∃ k, s.readings ≤ k ∧ k < s'.readings ∧ ch.time = clock k

lemma exists_after_of_bind {f : Except StoreError (CommentStore K)} {n : Nat}
    {new : List CommentChange}
    (h : (do let threads ← f; return s.after threads n new) = Except.ok s') :
    ∃ threads, s' = s.after threads n new := by
  cases f with
  | error e => cases h
  | ok threads => exact ⟨threads, (Except.ok.inj h).symm⟩

lemma after_nil_changes (s : LoggedStore K) (threads : CommentStore K) (n : Nat) :
    (s.after threads n []).changes = s.changes :=
  append_nil _

lemma logs_nil (threads : CommentStore K) (n : Nat) :
    Logs clock s m (s.after threads n []) [] where
  changes := rfl
  readings := le_add_right _ _
  stamped := by simp

lemma logs_singleton (threads : CommentStore K) (n : Nat) {ch : CommentChange}
    (hid : ch.threadId = m.threadId) (htime : ch.time = clock (s.readings + n)) :
    Logs clock s m (s.after threads (n + 1) [ch]) [ch] where
  changes := rfl
  readings := le_add_right _ _
  stamped := by
    intro ch' hch'
    obtain rfl := mem_singleton.1 hch'
    exact ⟨hid, _, le_add_right _ _, lt_succ_self _, htime⟩

lemma exists_logs_of_mutate (h : s.mutate bytes allowed clock m = .ok s') :
    ∃ new, Logs clock s m s' new ∧ (new ≠ [] ↔ m.OnThread) := by
  cases m with
  | createCommentThread | addReply =>
    obtain ⟨threads, rfl⟩ := exists_after_of_bind h
    exact ⟨_, logs_singleton threads 0 rfl rfl, by simp [Mutation.OnThread]⟩
  | updateThreadStatus id status resolvedBy =>
    cases status with
    | opened =>
      obtain ⟨threads, rfl⟩ := exists_after_of_bind h
      exact ⟨_, logs_singleton threads 0 rfl rfl, by simp [Mutation.OnThread]⟩
    | resolved =>
      obtain ⟨threads, rfl⟩ := exists_after_of_bind h
      exact ⟨_, logs_singleton threads 1 rfl rfl, by simp [Mutation.OnThread]⟩
  | deleteCommentThread id =>
    obtain rfl := Except.ok.inj h
    exact ⟨_, logs_singleton _ 0 rfl rfl, by simp [Mutation.OnThread]⟩
  | decideSuggestion id decision decidedBy =>
    obtain ⟨threads, rfl⟩ := exists_after_of_bind h
    exact ⟨_, logs_singleton threads 0 rfl rfl, by simp [Mutation.OnThread]⟩
  | updateComment | deleteComment | addReaction | removeReaction =>
    obtain ⟨threads, rfl⟩ := exists_after_of_bind h
    exact ⟨[], logs_nil threads _, by simp [Mutation.OnThread]⟩

end LoggedStore

/-! ## Calls one after the other -/

/-- A mutation that has been made: the readings of the clock from `started` up to
`ended` are its own. `polls` counts the polls since, and `reports` those among them
that returned a line for it. -/
structure MutationRecord (K : Type) where
  mutation : Mutation K
  before : CommentStore K
  after : CommentStore K
  started : Nat
  ended : Nat
  polls : Nat
  reports : Nat

namespace MutationRecord

def Changed (r : MutationRecord K) : Prop :=
  r.before r.mutation.threadId ≠ r.after r.mutation.threadId

instance [DecidableEq K] (r : MutationRecord K) : Decidable r.Changed :=
  inferInstanceAs (Decidable (_ ≠ _))

variable (clock : Nat → Nat)

def Announces (r : MutationRecord K) (ch : CommentChange) : Prop :=
  ch.threadId = r.mutation.threadId ∧ ∃ k, r.started ≤ k ∧ k < r.ended ∧ ch.time = clock k

instance (r : MutationRecord K) (ch : CommentChange) : Decidable (r.Announces clock ch) :=
  decidable_of_iff (ch.threadId = r.mutation.threadId ∧
      ∃ k < r.ended, r.started ≤ k ∧ ch.time = clock k)
    ⟨fun ⟨hid, k, hk, h⟩ => ⟨hid, k, h.1, hk, h.2⟩, fun ⟨hid, k, h, hk, ht⟩ => ⟨hid, k, hk, h, ht⟩⟩

def polled (r : MutationRecord K) (response : CommentPollResponse) : MutationRecord K :=
  { r with
    polls := r.polls + 1
    reports := if ∃ ch ∈ response.changes, r.Announces clock ch then r.reports + 1 else r.reports }

end MutationRecord

structure PolledStore (K : Type) where
  store : LoggedStore K
  since : Nat
  records : List (MutationRecord K)

def PolledStore.initial : PolledStore K := ⟨.empty, 0, []⟩

inductive StoreEvent (K : Type)
  | mutate (m : Mutation K)
  | poll

/-- A successful mutation, or a poll that passes the server time of the one before. -/
def polledStep (bytes : List K → Nat) (allowed : List Nat) (clock : Nat → Nat)
    (s : PolledStore K) : StoreEvent K → Option (PolledStore K)
  | .mutate m =>
    match s.store.mutate bytes allowed clock m with
    | .error _ => none
    | .ok store =>
      some { s with
        store
        records := s.records ++
          [⟨m, s.store.threads, store.threads, s.store.readings, store.readings, 0, 0⟩] }
  | .poll =>
    let polled := s.store.pollCommentChanges clock s.since
    some {
      store := polled.1
      since := polled.2.serverTime
      records := s.records.map (·.polled clock polled.2) }

/-! ## What the polls report -/

section

variable {bytes : List K → Nat} {allowed : List Nat} {clock : Nat → Nat} {s t : PolledStore K}
  {r : MutationRecord K}

/-- What holds of a mutation at any later time: its line is in the log if it has one; until
the next poll the server time is one from before it, and from then on one from after. -/
structure RecordInv (clock : Nat → Nat) (s : PolledStore K) (r : MutationRecord K) : Prop where
  ended : r.ended ≤ s.store.readings
  logged : (∃ ch ∈ s.store.changes, r.Announces clock ch) ↔ r.mutation.OnThread
  unpolled : r.polls = 0 → r.reports = 0 ∧ (s.since = 0 ∨ ∃ k < r.started, s.since = clock k)
  polled : 0 < r.polls → (r.reports = if r.mutation.OnThread then 1 else 0) ∧
    ∃ k, r.ended ≤ k ∧ s.since = clock k

structure PolledInv (clock : Nat → Nat) (s : PolledStore K) : Prop where
  since : s.since = 0 ∨ ∃ k < s.store.readings, s.since = clock k
  times : ∀ ch ∈ s.store.changes, ∃ k < s.store.readings, ch.time = clock k
  records : ∀ r ∈ s.records, RecordInv clock s r

lemma MutationRecord.not_announces (hclock : StrictMono clock) {ch : CommentChange} {k : Nat}
    (htime : ch.time = clock k) (hk : k < r.started ∨ r.ended ≤ k) : ¬ r.Announces clock ch := by
  rintro ⟨-, j, hstart, hend, hj⟩
  obtain rfl := hclock.injective (htime.symm.trans hj)
  omega

variable {m : Mutation K} {records : List (MutationRecord K)} {store : LoggedStore K}

lemma RecordInv.mutate (hclock : StrictMono clock) (h : RecordInv clock s r)
    {new : List CommentChange} (hlogs : LoggedStore.Logs clock s.store m store new) :
    RecordInv clock ⟨store, s.since, records⟩ r where
  ended := h.ended.trans hlogs.readings
  logged := by
    rw [← h.logged]
    constructor
    · rintro ⟨ch, hch, hann⟩
      rw [hlogs.changes, mem_append] at hch
      rcases hch with hold | hnew
      · exact ⟨ch, hold, hann⟩
      · obtain ⟨-, k, hk, -, htime⟩ := hlogs.stamped ch hnew
        exact absurd hann (MutationRecord.not_announces hclock htime (.inr (h.ended.trans hk)))
    · rintro ⟨ch, hch, hann⟩
      exact ⟨ch, hlogs.changes ▸ mem_append_left _ hch, hann⟩
  unpolled := h.unpolled
  polled := h.polled

lemma PolledInv.new_record (h : PolledInv clock s) (hclock : StrictMono clock)
    {new : List CommentChange} (hlogs : LoggedStore.Logs clock s.store m store new)
    (hnew : new ≠ [] ↔ m.OnThread) : RecordInv clock ⟨store, s.since, records⟩
      ⟨m, s.store.threads, store.threads, s.store.readings, store.readings, 0, 0⟩ where
  ended := le_refl _
  logged := by
    rw [← hnew]
    constructor
    · rintro ⟨ch, hch, hann⟩ rfl
      rw [hlogs.changes, append_nil] at hch
      obtain ⟨k, hk, htime⟩ := h.times ch hch
      exact MutationRecord.not_announces hclock htime (.inl hk) hann
    · intro hne
      obtain ⟨ch, hch⟩ := exists_mem_of_ne_nil new hne
      exact ⟨ch, hlogs.changes ▸ mem_append_right _ hch, hlogs.stamped ch hch⟩
  unpolled := fun _ => ⟨rfl, h.since⟩
  polled := nofun

lemma PolledInv.mutate (h : PolledInv clock s) (hclock : StrictMono clock)
    (hs : s.store.mutate bytes allowed clock m = .ok store) :
    PolledInv clock { s with
      store
      records := s.records ++
        [⟨m, s.store.threads, store.threads, s.store.readings, store.readings, 0, 0⟩] } := by
  obtain ⟨new, hlogs, hnew⟩ := LoggedStore.exists_logs_of_mutate hs
  refine ⟨h.since.imp_right ?_, ?_, ?_⟩
  · rintro ⟨k, hk, hsince⟩
    exact ⟨k, hk.trans_le hlogs.readings, hsince⟩
  · intro ch hch
    rcases mem_append.1 (hlogs.changes ▸ hch) with hold | hnew
    · obtain ⟨k, hk, htime⟩ := h.times ch hold
      exact ⟨k, hk.trans_le hlogs.readings, htime⟩
    · obtain ⟨-, k, -, hk, htime⟩ := hlogs.stamped ch hnew
      exact ⟨k, hk, htime⟩
  · intro r hr
    rcases mem_snoc.1 hr with hold | rfl
    · exact (h.records r hold).mutate hclock hlogs
    · exact h.new_record hclock hlogs hnew

/-- The first poll after a mutation returns its line, and no later one does. -/
lemma RecordInv.reported_iff (hclock : StrictMono clock) (h : RecordInv clock s r) :
    (∃ ch ∈ s.store.readChangesSince s.since, r.Announces clock ch) ↔
      r.polls = 0 ∧ r.mutation.OnThread := by
  simp only [LoggedStore.readChangesSince, mem_filter, decide_eq_true_eq]
  constructor
  · rintro ⟨ch, ⟨hch, hsince⟩, hann⟩
    refine ⟨?_, h.logged.1 ⟨ch, hch, hann⟩⟩
    by_contra hpolls
    obtain ⟨-, k, hk, hlast⟩ := h.polled (Nat.pos_of_ne_zero hpolls)
    obtain ⟨-, j, -, hj, htime⟩ := hann
    have hlt : clock j < clock k := hclock (hj.trans_le hk)
    omega
  · rintro ⟨hpolls, hon⟩
    obtain ⟨ch, hch, hann⟩ := h.logged.2 hon
    refine ⟨ch, ⟨hch, (h.unpolled hpolls).2.imp_right ?_⟩, hann⟩
    rintro ⟨k, hk, hlast⟩
    obtain ⟨-, j, hj, -, htime⟩ := hann
    rw [hlast, htime]
    exact hclock (hk.trans_le hj)

lemma RecordInv.poll (hclock : StrictMono clock) (h : RecordInv clock s r) : RecordInv clock
      ⟨s.store.after s.store.threads 1 [], clock s.store.readings, records⟩
      (r.polled clock (s.store.pollCommentChanges clock s.since).2) where
  ended := h.ended.trans (le_succ _)
  logged := by
    rw [LoggedStore.after_nil_changes]
    exact h.logged
  unpolled := nofun
  polled := by
    refine fun _ => ⟨?_, _, h.ended, rfl⟩
    have hreported := h.reported_iff hclock
    simp only [MutationRecord.polled, LoggedStore.pollCommentChanges, hreported]
    rcases Nat.eq_zero_or_pos r.polls with hzero | hpos
    · rw [(h.unpolled hzero).1]
      simp [hzero]
    · rw [if_neg fun hboth => ne_of_gt hpos hboth.1, (h.polled hpos).1]

lemma polledInv_initial : PolledInv clock (.initial : PolledStore K) :=
  ⟨.inl rfl, by simp [PolledStore.initial, LoggedStore.empty], by simp [PolledStore.initial]⟩

lemma polledInv_step (hclock : StrictMono clock) {a : StoreEvent K} (h : PolledInv clock s)
    (hs : polledStep bytes allowed clock s a = some t) : PolledInv clock t := by
  cases a with
  | mutate m =>
    simp only [polledStep] at hs
    split at hs <;> cases hs
    rename_i store hmutate
    exact h.mutate hclock hmutate
  | poll =>
    cases hs
    refine ⟨.inr ⟨_, lt_succ_self _, rfl⟩, ?_, ?_⟩
    · intro ch hch
      have hold : ch ∈ s.store.changes := LoggedStore.after_nil_changes s.store _ 1 ▸ hch
      obtain ⟨k, hk, htime⟩ := h.times ch hold
      exact ⟨k, hk.trans (lt_succ_self _), htime⟩
    · intro r hr
      obtain ⟨r', hr', rfl⟩ := mem_map.1 hr
      exact (h.records r' hr').poll hclock

/-- Of all mutations since which there has been a poll, those on a whole thread are
reported by exactly one poll, and the others are not. -/
theorem reported_once_iff_onThread (hclock : StrictMono clock)
    (hrun : Run (polledStep bytes allowed clock) anyStep .initial s) (hr : r ∈ s.records)
    (hpolls : 0 < r.polls) : r.reports = 1 ↔ r.mutation.OnThread := by
  have hinv : PolledInv clock s :=
    hrun.invariant polledInv_initial fun _ _ _ h _ hs => polledInv_step hclock h hs
  rw [((hinv.records r hr).polled hpolls).1]
  split <;> simp_all

end

/-- A thread is created, answered, and has its first comment edited, with polls in
between. -/
def mutationsAndPolls : List (StoreEvent Char) :=
  [.mutate (.createCommentThread 3 ⟨0, 1, ['x']⟩ (some ⟨1, 10, ['h', 'i']⟩) none), .poll,
    .mutate (.addReply 3 ⟨2, 11, ['o', 'k']⟩), .mutate (.updateComment 3 1 ['h', 'o']), .poll,
    .poll]

lemma strictMono_seconds : StrictMono fun k : Nat => k + 1 := fun _ _ h => succ_lt_succ h

theorem reported_once_mutationsAndPolls :
    ∃ s, Run (polledStep List.length [] fun k => k + 1) anyStep .initial s ∧
      ∃ r ∈ s.records, r.mutation = .addReply 3 ⟨2, 11, ['o', 'k']⟩ ∧ r.polls = 2 ∧ r.reports = 1 :=
  exists_run_imp mutationsAndPolls
    (P := fun s => ∃ r ∈ s.records, r.mutation = .addReply 3 ⟨2, 11, ['o', 'k']⟩ ∧ r.polls = 2)
    (by decide +kernel) fun _ hrun ⟨r, hr, hmutation, hpolls⟩ =>
      have hreports := reported_once_iff_onThread strictMono_seconds hrun hr (hpolls ▸ Nat.two_pos)
      ⟨r, hr, hmutation, hpolls, hreports.2 (hmutation ▸ trivial)⟩

/-- No poll ever reports that a comment was edited. -/
theorem edited_comment_not_reported :
    ¬ ∀ (clock : Nat → Nat) (s : PolledStore Char), StrictMono clock →
      Run (polledStep List.length [] clock) anyStep .initial s →
      ∀ r ∈ s.records, r.Changed → 0 < r.polls → r.reports = 1 :=
  fun hevery => not_forall_run mutationsAndPolls (by decide +kernel) fun s =>
    hevery _ s strictMono_seconds

end CollabEditor.StorageDemo
