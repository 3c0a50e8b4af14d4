import CollabEditor.Support.Execution
import CollabEditor.Relay.StateStore
/-!
# Snapshot compaction

The tail of `flushBuffer` in `internal/relay/room.go`: the room encodes its doc and calls
`WriteSnapshot`, which reads the counter and then trims.  Goroutines append in between.
-/

namespace CollabEditor.Relay

open Support.Execution List

variable {α : Type}

/-- Where a flush stands: after `YDocState`, or after `WriteSnapshot` has read the
counter as well. -/
inductive SnapshotPhase (α : Type)
  | idle
  | encoded (state : List α)
  | counterRead (state : List α) (counter : Nat)

def SnapshotPhase.state : SnapshotPhase α → Option (List α)
  | .idle => none
  | .encoded state => some state
  | .counterRead state _ => some state

/-- A room with its doc (the updates applied so far), its keys in Redis and the
updates whose `AppendUpdate` has completed. -/
structure CompactionState (α : Type) where
  doc : List α
  keys : StateKeys α
  appended : List α
  phase : SnapshotPhase α

def CompactionState.initial : CompactionState α := ⟨[], .empty, [], .idle⟩

inductive CompactionAction (α : Type)
  | apply (u : α)
  | append (u : α)
  | encode
  | readCounter
  | commit
  | fail

/-- One atomic step. An update is applied before it is appended; a flush can fail
at any point and leave the rest of its steps out. -/
def compactionStep [DecidableEq α] (s : CompactionState α) :
    CompactionAction α → Option (CompactionState α)
  | .apply u => some { s with doc := s.doc ++ [u] }
  | .append u =>
    if u ∈ s.doc then
      some { s with keys := s.keys.appendUpdate u, appended := s.appended ++ [u] }
    else none
  | .encode =>
    match s.phase with
    | .idle => some { s with phase := .encoded s.doc }
    | _ => none
  | .readCounter =>
    match s.phase with
    | .encoded state => some { s with phase := .counterRead state s.keys.readCounter }
    | _ => none
  | .commit =>
    match s.phase with
    | .counterRead state counter =>
      some { s with keys := s.keys.writeSnapshot state counter, phase := .idle }
    | _ => none
  | .fail =>
    match s.phase with
    | .idle => none
    | _ => some { s with phase := .idle }

/-- Every appended update is in the stored snapshot or in the log tail that
`ReadLogTail` returns at the stored offset. -/
def UpdatesRetained (s : CompactionState α) : Prop :=
  ∀ u ∈ s.appended, u ∈ s.keys.readSnapshot.1.getD [] ∨
    u ∈ (s.keys.readLogTail s.keys.readSnapshot.2).1

instance [DecidableEq α] (s : CompactionState α) : Decidable (UpdatesRetained s) :=
  inferInstanceAs (Decidable (∀ _ ∈ _, _))

/-- The trimming transaction runs only while the log holds nothing that the
encoded state lacks. -/
def TrimsEncodedLog (s : CompactionState α) (a : CompactionAction α) : Prop :=
  match a, s.phase with
  | .commit, .counterRead state _ => ∀ u ∈ s.keys.log, u ∈ state
  | _, _ => True

instance [DecidableEq α] (s : CompactionState α) (a : CompactionAction α) :
    Decidable (TrimsEncodedLog s a) := by
  unfold TrimsEncodedLog
  split <;> infer_instance

/-- The invariant. An appended update is in the snapshot or in the log; no offset,
stored or about to be stored, is past the trimmed part of the log; and a state
that is encoded contains the snapshot it is going to replace, since the doc the
two were encoded from only grows. -/
structure CompactionInv (s : CompactionState α) : Prop where
  retained : ∀ u ∈ s.appended, u ∈ s.keys.snapshot.getD [] ∨ u ∈ s.keys.log
  offset : s.keys.OffsetBehindTrim
  counter : ∀ state c, s.phase = .counterRead state c → c ≤ s.keys.readCounter
  applied : ∀ u ∈ s.keys.snapshot.getD [], u ∈ s.doc
  encoded : ∀ state ∈ s.phase.state,
    (∀ u ∈ s.keys.snapshot.getD [], u ∈ state) ∧ ∀ u ∈ state, u ∈ s.doc

lemma compactionInv_initial : CompactionInv (CompactionState.initial : CompactionState α) where
  retained := by simp [CompactionState.initial]
  offset := StateKeys.offsetBehindTrim_empty
  counter := by simp [CompactionState.initial]
  applied := by simp [CompactionState.initial, StateKeys.empty]
  encoded := by simp [CompactionState.initial, SnapshotPhase.state]

variable {s : CompactionState α}

section

variable (h : CompactionInv s)
include h

lemma CompactionInv.apply (u : α) : CompactionInv { s with doc := s.doc ++ [u] } where
  retained := h.retained
  offset := h.offset
  counter := h.counter
  applied := fun v hv => mem_append_left _ (h.applied v hv)
  encoded := fun state hstate =>
    ⟨(h.encoded state hstate).1, fun v hv => mem_append_left _ ((h.encoded state hstate).2 v hv)⟩

lemma CompactionInv.append (u : α) :
    CompactionInv { s with keys := s.keys.appendUpdate u, appended := s.appended ++ [u] } where
  retained := by
    intro v hv
    rcases mem_append.1 hv with hold | hnew
    · exact (h.retained v hold).imp_right (mem_append_left _)
    · exact .inr (mem_append_right _ hnew)
  offset := h.offset.appendUpdate u
  counter := fun state c hphase => Nat.le_succ_of_le (h.counter state c hphase)
  applied := h.applied
  encoded := h.encoded

lemma CompactionInv.setPhase {phase : SnapshotPhase α}
    (hcounter : ∀ state c, phase = .counterRead state c → c ≤ s.keys.readCounter)
    (hstate : ∀ state ∈ phase.state, state = s.doc ∨ state ∈ s.phase.state) :
    CompactionInv { s with phase } where
  retained := h.retained
  offset := h.offset
  counter := hcounter
  applied := h.applied
  encoded := by
    intro state hmem
    rcases hstate state hmem with rfl | hold
    · exact ⟨h.applied, fun _ hu => hu⟩
    · exact h.encoded state hold

/-- The transaction: what it trims is in the state it stores, and so is the
snapshot it replaces. -/
lemma CompactionInv.commit {state : List α} {c : Nat} (hphase : s.phase = .counterRead state c)
    (hlog : ∀ u ∈ s.keys.log, u ∈ state) :
    CompactionInv { s with keys := s.keys.writeSnapshot state c, phase := .idle } where
  retained := by
    intro u hu
    have hmem : state ∈ s.phase.state := by rw [hphase]; rfl
    exact .inl ((h.retained u hu).elim ((h.encoded state hmem).1 u) (hlog u))
  offset := .writeSnapshot state (h.counter state c hphase)
  counter := by simp
  applied := (h.encoded state (by rw [hphase]; rfl)).2
  encoded := by simp [SnapshotPhase.state]

lemma compactionInv_step [DecidableEq α] {t : CompactionState α} {a : CompactionAction α}
    (hok : TrimsEncodedLog s a) (hs : compactionStep s a = some t) : CompactionInv t := by
  cases a with
  | apply u =>
    cases hs
    exact h.apply u
  | append u =>
    obtain ⟨-, rfl⟩ := Option.ite_some_none_eq_some.1 hs
    exact h.append u
  | encode =>
    simp only [compactionStep] at hs
    split at hs <;> cases hs
    exact h.setPhase (by simp) (by simp [SnapshotPhase.state])
  | readCounter =>
    simp only [compactionStep] at hs
    split at hs <;> cases hs
    rename_i state hphase
    exact h.setPhase (by simp) (by simp [SnapshotPhase.state, hphase])
  | commit =>
    simp only [compactionStep] at hs
    split at hs <;> cases hs
    rename_i state c hphase
    simp only [TrimsEncodedLog, hphase] at hok
    exact h.commit hphase hok
  | fail =>
    simp only [compactionStep] at hs
    split at hs <;> cases hs
    exact h.setPhase (by simp) (by simp [SnapshotPhase.state])

lemma CompactionInv.updatesRetained : UpdatesRetained s := by
  intro u hu
  rw [StateKeys.readSnapshot_tail_eq_log h.offset, StateKeys.readSnapshot_fst]
  exact h.retained u hu

end

/-- No appended update is dropped in any interleaving of appends with any number of
flushes, as long as every trimming transaction finds only updates in the log
that its state was encoded with. -/
theorem updates_retained_of_trimsEncodedLog [DecidableEq α] {s : CompactionState α}
    (hrun : Run compactionStep TrimsEncodedLog .initial s) : UpdatesRetained s :=
  (hrun.invariant compactionInv_initial
    (fun _ _ _ h hok hs => compactionInv_step h hok hs)).updatesRetained

def appendsAroundSnapshot : List (CompactionAction Nat) :=
  [.apply 1, .append 1, .apply 2, .encode, .append 2, .readCounter, .commit, .apply 3, .append 3]

theorem updates_retained_appendsAroundSnapshot :
    ∃ s, exec compactionStep TrimsEncodedLog .initial appendsAroundSnapshot = some s ∧
      s.appended = [1, 2, 3] ∧ UpdatesRetained s :=
  exec_and (by decide +kernel) fun _ hrun => updates_retained_of_trimsEncodedLog hrun

def appendBeforeTrim : List (CompactionAction Nat) :=
  [.encode, .readCounter, .apply 1, .append 1, .commit]

/-- `LTRIM 1 0` clears the whole log, also the entries that came in since the
encoding: the update is in neither place afterwards. -/
theorem trim_drops_concurrent_append :
    ¬ ∀ s : CompactionState Nat, Run compactionStep anyStep .initial s → UpdatesRetained s :=
  not_forall_run appendBeforeTrim (by decide +kernel)

end CollabEditor.Relay
