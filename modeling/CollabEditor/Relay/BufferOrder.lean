import CollabEditor.Relay.FlushLoop
import Mathlib.Data.List.Range
/-!
# The order of the buffered updates

`Append` numbers the updates of a room with a `uint64`, and a flush puts what was refused back in
front.  The batch of the round, followed by the buffer, is a sublist of all that was ever appended.
-/

namespace CollabEditor.Relay

open Support.Execution List

def FlushState.held (s : FlushState) : List BufferedUpdate := s.phase.batch ++ s.buffer.updates

namespace BufferOrder

def sequences (updates : List BufferedUpdate) : List UInt64 := updates.map (·.sequence)

def issued (n : Nat) : List UInt64 := (List.range' 1 n).map UInt64.ofNat

lemma issued_succ (n : Nat) : issued (n + 1) = issued n ++ [UInt64.ofNat n + 1] := by
  rw [issued, range'_1_concat, map_append, map_singleton, Nat.add_comm 1 n, UInt64.ofNat_add]
  rfl

lemma pairwise_issued {n : Nat} (h : n < 2 ^ 64) : (issued n).Pairwise (· < ·) := by
  rw [issued, pairwise_map]
  refine List.Pairwise.imp_of_mem (fun {i j} hi hj hij => ?_) pairwise_lt_range'
  rw [mem_range'_1] at hi hj
  rw [UInt64.lt_iff_toNat_lt, UInt64.toNat_ofNat', UInt64.toNat_ofNat',
    Nat.mod_eq_of_lt (by omega), Nat.mod_eq_of_lt (by omega)]
  exact hij

/-! ## What a step does to the updates that are held -/

def Appends (s t : FlushState) : Prop :=
  ∃ u, t.held = s.held ++ [u] ∧ t.appended = s.appended ++ [u] ∧
    u.sequence = s.buffer.seq + 1 ∧ t.buffer.seq = s.buffer.seq + 1

structure Keeps (s t : FlushState) : Prop where
  held : t.held.Sublist s.held
  appended : t.appended = s.appended
  seq : t.buffer.seq = s.buffer.seq

variable {s t : FlushState} {maxRetries : Nat}

lemma Keeps.moveOn {breaker : CircuitBreaker} {phase : Phase}
    {requests : List (List UpdatePayload × Option StoreResponse)}
    (h : phase.batch.Sublist s.phase.batch) : Keeps s { s with breaker, phase, requests } :=
  ⟨h.append_right _, rfl, rfl⟩

lemma batch_afterStore (maxRetries attempt : Nat) (updates : List BufferedUpdate)
    (payloads : List UpdatePayload) (resp : Option StoreResponse) :
    (afterStore maxRetries updates payloads attempt resp).batch = updates := by
  cases resp with
  | none =>
    rw [afterStore]
    split_ifs
    · rfl
    · exact batch_loopHead ..
  | some r =>
    rw [afterStore]
    split_ifs <;> rfl

lemma batch_flushResult_sublist (updates : List BufferedUpdate) (resp : Option StoreResponse) :
    (flushResult updates resp).batch.Sublist updates := by
  cases resp with
  | none => exact nil_sublist _
  | some r =>
    rw [flushResult]
    split_ifs
    · exact nil_sublist _
    · exact filter_sublist

lemma flushStep_held {a : FlushAction} (hs : flushStep maxRetries s a = some t) :
    Appends s t ∨ Keeps s t := by
  cases moves_of_flushStep hs with
  | append => exact .inl ⟨_, (append_assoc ..).symm, rfl, rfl, rfl⟩
  | flushBuffer hphase =>
    refine .inr (.moveOn ?_)
    rw [hphase]
    split_ifs <;> exact nil_sublist _
  | lock hphase hnext =>
    refine .inr (.moveOn ?_)
    rcases hnext with rfl | rfl <;> exact nil_sublist _
  | drain hphase =>
    right
    by_cases hempty : s.buffer.updates = [] <;> refine ⟨?_, rfl, ?_⟩ <;>
      simp [FlushState.held, hphase, hempty, UpdateBuffer.drain, Phase.batch]
  | allow hphase =>
    refine .inr (.moveOn ?_)
    rw [hphase]
    split_ifs
    · rw [batch_loopHead]
      exact .refl _
    · exact .refl _
  | store hphase =>
    refine .inr (.moveOn ?_)
    rw [hphase, batch_afterStore]
    exact .refl _
  | wake hphase =>
    refine .inr (.moveOn ?_)
    rw [hphase]
    split_ifs
    · exact .refl _
    · rw [batch_loopHead]
      exact .refl _
  | settle hphase =>
    refine .inr (.moveOn ?_)
    rw [hphase]
    exact batch_flushResult_sublist ..
  | @prepend requeue _ hphase =>
    right
    by_cases hempty : requeue = [] <;> refine ⟨?_, rfl, ?_⟩ <;>
      simp [FlushState.held, hphase, hempty, Phase.batch, UpdateBuffer.prepend]
  | health | otherSuccess | otherFailure => exact .inr (.moveOn (.refl _))

/-! ## The invariant -/

/-- What is held is in the order in which it was appended, and the updates were numbered one
after the other. -/
structure HeldInOrder (s : FlushState) : Prop where
  held : s.held.Sublist s.appended
  numbered : sequences s.appended = issued s.appended.length
  seq : s.buffer.seq = UInt64.ofNat s.appended.length

lemma HeldInOrder.step {a : FlushAction} (h : HeldInOrder s)
    (hs : flushStep maxRetries s a = some t) : HeldInOrder t := by
  rcases flushStep_held hs with ⟨u, hheld, happended, hnumber, hseq⟩ | ⟨hheld, happended, hseq⟩
  · rw [h.seq] at hnumber hseq
    refine ⟨?_, ?_, ?_⟩
    · rw [hheld, happended]
      exact h.held.append_right [u]
    · rw [happended, length_append, length_singleton, issued_succ, ← h.numbered, ← hnumber]
      exact map_append
    · rw [hseq, happended, length_append, length_singleton, UInt64.ofNat_add]
      rfl
  · refine ⟨?_, ?_, ?_⟩
    · rw [happended]
      exact hheld.trans h.held
    · rw [happended, h.numbered]
    · rw [hseq, happended, h.seq]

lemma heldInOrder_of_run {threshold : Int64}
    (hrun : Run (flushStep maxRetries) anyStep (.initial threshold) s) : HeldInOrder s :=
  hrun.invariant ⟨nil_sublist _, rfl, rfl⟩ fun _ _ _ h _ hs => h.step hs

/-- The buffer's numbers grow strictly, no number is held twice, and `size` is the number of
bytes in the buffer. -/
structure OrderedAndCounted (s : FlushState) : Prop where
  increasing : (sequences s.buffer.updates).Pairwise (· < ·)
  once : (sequences s.held).Nodup
  size : s.buffer.size = (s.buffer.updates.map fun u => u.data.length).sum

lemma HeldInOrder.pairwise (h : HeldInOrder s) (hcount : s.appended.length < 2 ^ 64) :
    (sequences s.held).Pairwise (· < ·) := by
  have hall := pairwise_issued hcount
  rw [← h.numbered] at hall
  exact hall.sublist (h.held.map _)

/-- In every run of appends and flush rounds, whatever lock, breaker and provider answer, the
buffer is ordered and counted as long as less than `2 ^ 64` updates have been appended. -/
theorem buffer_ordered_of_count_lt {maxRetries : Nat} {threshold : Int64} {s : FlushState}
    (hrun : Run (flushStep maxRetries) anyStep (.initial threshold) s)
    (hcount : s.appended.length < 2 ^ 64) : OrderedAndCounted s := by
  have hheld := (heldInOrder_of_run hrun).pairwise hcount
  refine ⟨?_, ?_, s.buffer.size_eq⟩
  · exact hheld.sublist ((sublist_append_right ..).map _)
  · exact hheld.imp fun hlt => UInt64.ne_of_lt hlt

theorem retriedRound_ordered : ∃ s, exec (flushStep 3) anyStep (.initial 3) retriedRound = some s ∧
      s.appended.length < 2 ^ 64 ∧ OrderedAndCounted s :=
  exec_imp (P := fun s => s.appended.length = 3) (by decide +kernel) fun s hrun hlength =>
    have hcount : s.appended.length < 2 ^ 64 := by omega
    ⟨hcount, buffer_ordered_of_count_lt hrun hcount⟩

/-! ## The wrapped number -/

def afterAppends (threshold : Int64) : Nat → FlushState
  | 0 => .initial threshold
  | n + 1 =>
    let s := afterAppends threshold n
    { s with
      buffer := s.buffer.append [] 0 0
      appended := s.appended ++ [s.buffer.next [] 0 0] }

lemma run_afterAppends (maxRetries : Nat) (threshold : Int64) (n : Nat) :
    Run (flushStep maxRetries) anyStep (.initial threshold) (afterAppends threshold n) := by
  induction n with
  | zero => exact .refl
  | succ n ih => exact .tail (.append [] 0 0) ih trivial rfl

lemma updates_afterAppends (threshold : Int64) (n : Nat) :
    (afterAppends threshold n).buffer.updates = (afterAppends threshold n).appended := by
  induction n with
  | zero => rfl
  | succ n ih =>
    rw [afterAppends]
    exact congrArg (· ++ [_]) ih

lemma length_afterAppends (threshold : Int64) (n : Nat) :
    (afterAppends threshold n).appended.length = n := by
  induction n with
  | zero => rfl
  | succ n ih => rw [afterAppends, length_append, ih, length_singleton]

lemma not_pairwise_issued {n : Nat} (h : n = 2 ^ 64) : ¬ (issued n).Pairwise (· < ·) := by
  intro hall
  rw [issued, pairwise_map] at hall
  have hfirst := pairwise_iff_getElem.1 hall 0 (n - 1) (by rw [length_range']; omega)
    (by rw [length_range']; omega) (by omega)
  rw [getElem_range', getElem_range', UInt64.lt_iff_toNat_lt, UInt64.toNat_ofNat',
    UInt64.toNat_ofNat'] at hfirst
  omega

/-- After `2 ^ 64` appends without a flush the last number is 0. -/
theorem buffer_unordered_after_wrap : ¬ ∀ (maxRetries : Nat) (threshold : Int64) (s : FlushState),
      Run (flushStep maxRetries) anyStep (.initial threshold) s → OrderedAndCounted s := by
  intro hevery
  -- the number of appends is kept as a variable, so that nothing evaluates it
  obtain ⟨n, hn⟩ : ∃ n : Nat, n = 2 ^ 64 := ⟨_, rfl⟩
  have hrun := run_afterAppends 3 3 n
  have hnumbered := (heldInOrder_of_run hrun).numbered
  have hincreasing := (hevery 3 3 _ hrun).increasing
  rw [updates_afterAppends, hnumbered, length_afterAppends] at hincreasing
  exact not_pairwise_issued hn hincreasing

end BufferOrder

end CollabEditor.Relay
