import Mathlib.Algebra.Order.Ring.Nat
import Mathlib.Tactic.SplitIfs
import CollabEditor.Relay.CircuitBreaker
import CollabEditor.Support.Execution
/-!
# The breaker's count and its state

`RecordSuccess`, `RecordFailure` and `checkHealth` of `internal/relay/circuit_breaker.go`, called by
any number of goroutines, in steps of one lock section each.
-/

namespace CollabEditor.Relay

open Support.Execution Function

variable {n : Nat}

/-- Where a goroutine is in `checkHealth`. `foundOpen` is what its first section has found. -/
inductive CheckPoint
  | idle
  | unhealthy
  | healthy
  | marked (foundOpen : Bool)
  | sawHalfOpen (foundOpen : Bool)
  deriving DecidableEq

/-- The check is past its first section, which has found the breaker open. -/
def CheckPoint.FoundOpen : CheckPoint → Prop
  | marked foundOpen => foundOpen = true
  | sawHalfOpen foundOpen => foundOpen = true
  | _ => False

inductive BreakerEvent
  | success
  | failure

/-- The breaker and the goroutines. `inARow` is the number of failures recorded since the last
success, and `since c` what has been recorded, the latest first, since the first section of the
check that `c` is in or was in last. -/
structure CheckedBreaker (n : Nat) where
  breaker : CircuitBreaker
  inARow : Nat
  checks : Fin n → CheckPoint
  since : Fin n → List BreakerEvent

namespace CheckedBreaker

def initial (threshold : Int64) : CheckedBreaker n :=
  ⟨.new threshold, 0, fun _ => .idle, fun _ => []⟩

def record (s : CheckedBreaker n) : BreakerEvent → CheckedBreaker n
  | .success => { s with
      breaker := s.breaker.recordSuccess
      inARow := 0
      since := fun c => .success :: s.since c }
  | .failure => { s with
      breaker := s.breaker.recordFailure
      inARow := s.inARow + 1
      since := fun c => .failure :: s.since c }

def goTo (s : CheckedBreaker n) (c : Fin n) (p : CheckPoint) : CheckedBreaker n :=
  { s with checks := update s.checks c p }

lemma goTo_self (s : CheckedBreaker n) (c : Fin n) (p : CheckPoint) : (s.goTo c p).checks c = p :=
  update_self ..

lemma goTo_of_ne (s : CheckedBreaker n) {c c' : Fin n} (h : c' ≠ c) (p : CheckPoint) :
    (s.goTo c p).checks c' = s.checks c' :=
  update_of_ne h ..

def mark (s : CheckedBreaker n) (c : Fin n) : CheckedBreaker n :=
  { s.goTo c (.marked (s.breaker.state = .open)) with
    breaker := s.breaker.markHalfOpen
    since := update s.since c [] }

def checkSection (s : CheckedBreaker n) (c : Fin n) : CheckPoint → Option (CheckedBreaker n)
  | .idle => none
  | .unhealthy => some ((s.record .failure).goTo c .idle)
  | .healthy => some (s.mark c)
  | .marked foundOpen =>
    some (s.goTo c (if s.breaker.state = .halfOpen then .sawHalfOpen foundOpen else .idle))
  | .sawHalfOpen _ => some ((s.record .success).goTo c .idle)

end CheckedBreaker

/-- `health` is the answer of the provider to the check of a goroutine. -/
inductive CheckedAction (n : Nat)
  | record (r : BreakerEvent)
  | health (c : Fin n) (ok : Bool)
  | checkSection (c : Fin n)

def checkedStep (s : CheckedBreaker n) : CheckedAction n → Option (CheckedBreaker n)
  | .record r => some (s.record r)
  | .health c ok =>
    if s.checks c = .idle then some (s.goTo c (if ok then .healthy else .unhealthy)) else none
  | .checkSection c => s.checkSection c (s.checks c)

/-! ## The count -/

/-- What the count says of `inARow` failures: closed below the threshold, and open not below it.
From `2 ^ 63` on the count has wrapped. -/
structure CircuitBreaker.Counts (cb : CircuitBreaker) (inARow : Nat) : Prop where
  count : cb.failureCount = .ofNat inARow
  closed : cb.state = .closed → inARow < cb.threshold.toInt
  opened : cb.state = .open → cb.threshold.toInt ≤ inARow

namespace CircuitBreaker

variable {cb : CircuitBreaker} {inARow : Nat}

lemma counts_zero (h : 1 ≤ cb.threshold) : cb.recordSuccess.Counts 0 :=
  ⟨rfl, fun _ => Int64.le_iff_toInt_le.1 h, nofun⟩

lemma Counts.toInt_count (h : cb.Counts inARow) (hlt : inARow < 2 ^ 63) :
    cb.failureCount.toInt = inARow := by
  rw [h.count, Int64.toInt_ofNat_of_lt hlt]

lemma Counts.recordFailure (h : cb.Counts inARow) : cb.recordFailure.Counts (inARow + 1) := by
  have hcount : cb.failureCount + 1 = .ofNat (inARow + 1) := by
    rw [h.count, Int64.ofNat_add]
    rfl
  by_cases hclosed : cb.state = .closed
  · -- the count is below the threshold and does not wrap
    have hlt := h.closed hclosed
    have hmax := cb.threshold.toInt_lt
    have hopens : cb.threshold ≤ cb.failureCount + 1 ↔ cb.threshold.toInt ≤ (inARow + 1 : Nat) := by
      rw [hcount, Int64.le_iff_toInt_le, Int64.toInt_ofNat_of_lt (by omega)]
    refine ⟨hcount, ?_, ?_⟩ <;> dsimp only [CircuitBreaker.recordFailure] <;>
      simp only [hclosed, and_true, hopens] <;> split_ifs
    · exact nofun
    · exact fun _ => by omega
    · exact fun _ => by omega
    · exact nofun
  · have hstate : cb.recordFailure.state = cb.state := if_neg fun hopens => hclosed hopens.2
    refine ⟨hcount, fun hnow => absurd (hstate ▸ hnow) hclosed, fun hopen => ?_⟩
    exact Int.le_trans (h.opened (hstate ▸ hopen)) (by omega)

lemma markHalfOpen_state_ne_open (cb : CircuitBreaker) : cb.markHalfOpen.state ≠ .open := by
  unfold markHalfOpen
  dsimp only
  split_ifs with hopen
  · exact nofun
  · exact hopen

lemma Counts.markHalfOpen (h : cb.Counts inARow) : cb.markHalfOpen.Counts inARow := by
  refine ⟨h.count, fun hclosed => h.closed ?_,
    fun hopen => absurd hopen cb.markHalfOpen_state_ne_open⟩
  unfold CircuitBreaker.markHalfOpen at hclosed
  dsimp only at hclosed
  split_ifs at hclosed
  exact hclosed

end CircuitBreaker

/-! ## A check that found the breaker open -/

/-- After its first section nothing but failures has been recorded and the breaker is still
half-open, or it has been closed, and the failures in a row are those after that. -/
def AccountsFor (cb : CircuitBreaker) (inARow : Nat) (since : List BreakerEvent) : Prop :=
  (cb.state = .halfOpen ∧ ∃ k, since = List.replicate k .failure) ∨
    ∃ before, since = List.replicate inARow .failure ++ .success :: before

section

variable {cb : CircuitBreaker} {inARow : Nat} {since : List BreakerEvent}
  (h : AccountsFor cb inARow since)
include h

lemma AccountsFor.failure : AccountsFor cb.recordFailure (inARow + 1) (.failure :: since) := by
  rcases h with ⟨hhalf, k, rfl⟩ | ⟨before, rfl⟩
  · refine .inl ⟨?_, k + 1, rfl⟩
    simp [CircuitBreaker.recordFailure, hhalf]
  · exact .inr ⟨before, rfl⟩

lemma AccountsFor.markHalfOpen : AccountsFor cb.markHalfOpen inARow since := by
  rcases h with ⟨hhalf, hfailures⟩ | hclosed
  · refine .inl ⟨?_, hfailures⟩
    simp [CircuitBreaker.markHalfOpen, hhalf]
  · exact .inr hclosed

end

structure CheckedInv (threshold : Int64) (s : CheckedBreaker n) : Prop where
  threshold : s.breaker.threshold = threshold
  counts : s.breaker.Counts s.inARow
  since : ∀ c, (s.checks c).FoundOpen → AccountsFor s.breaker s.inARow (s.since c)

namespace CheckedInv

variable {threshold : Int64} {s t : CheckedBreaker n} {a : CheckedAction n}

lemma initial (h : 1 ≤ threshold) : CheckedInv threshold (.initial threshold : CheckedBreaker n) :=
  ⟨rfl, @CircuitBreaker.counts_zero (.new threshold) h, fun _ hfound => absurd hfound id⟩

variable (h : CheckedInv threshold s)
include h

lemma record (hpos : 1 ≤ threshold) (r : BreakerEvent) : CheckedInv threshold (s.record r) := by
  cases r with
  | success =>
    exact ⟨h.threshold, CircuitBreaker.counts_zero (h.threshold ▸ hpos), fun c _ => .inr ⟨_, rfl⟩⟩
  | failure => exact ⟨h.threshold, h.counts.recordFailure, fun c hc => (h.since c hc).failure⟩

lemma goTo {c : Fin n} {p : CheckPoint} (hp : p.FoundOpen → (s.checks c).FoundOpen) :
    CheckedInv threshold (s.goTo c p) := by
  refine { h with since := fun c' hc' => ?_ }
  by_cases heq : c' = c
  · subst heq
    refine h.since c' (hp ?_)
    rwa [s.goTo_self] at hc'
  · refine h.since c' ?_
    rwa [s.goTo_of_ne heq] at hc'

lemma mark (c : Fin n) : CheckedInv threshold (s.mark c) := by
  refine ⟨h.threshold, h.counts.markHalfOpen, fun c' hc' => ?_⟩
  by_cases heq : c' = c
  · subst heq
    simp only [CheckedBreaker.mark, CheckedBreaker.goTo, update_self,
      CheckPoint.FoundOpen, decide_eq_true_eq] at hc' ⊢
    refine .inl ⟨?_, 0, rfl⟩
    rw [CircuitBreaker.markHalfOpen, if_pos hc']
  · simp only [CheckedBreaker.mark, CheckedBreaker.goTo, update_of_ne heq] at hc' ⊢
    exact (h.since c' hc').markHalfOpen

lemma checkSection (hpos : 1 ≤ threshold) {c : Fin n}
    (hs : s.checkSection c (s.checks c) = some t) : CheckedInv threshold t := by
  cases hpoint : s.checks c with
  | idle =>
    rw [hpoint] at hs
    cases hs
  | unhealthy =>
    rw [hpoint] at hs
    cases hs
    exact (h.record hpos .failure).goTo fun hfound => absurd hfound id
  | healthy =>
    rw [hpoint] at hs
    cases hs
    exact h.mark c
  | marked foundOpen =>
    rw [hpoint] at hs
    cases hs
    refine h.goTo fun hfound => ?_
    rw [hpoint]
    split_ifs at hfound
    · exact hfound
    · exact absurd hfound id
  | sawHalfOpen foundOpen =>
    rw [hpoint] at hs
    cases hs
    exact (h.record hpos .success).goTo fun hfound => absurd hfound id

lemma step (hpos : 1 ≤ threshold) (hs : checkedStep s a = some t) : CheckedInv threshold t := by
  cases a with
  | record r =>
    cases hs
    exact h.record hpos r
  | health c ok =>
    obtain ⟨-, rfl⟩ := Option.ite_some_none_eq_some.1 hs
    refine h.goTo fun hfound => ?_
    cases ok <;> exact absurd hfound id
  | checkSection c => exact h.checkSection hpos hs

end CheckedInv

/-- The breaker is closed, or it is open and at least `threshold` failures have been recorded
since it was closed last, which was after the first section of the check. -/
def LeftClosed (threshold : Int64) (s : CheckedBreaker n) (c : Fin n) : Prop :=
  s.breaker.state = .closed ∨ s.breaker.state = .open ∧ ∃ k : Nat, ∃ before,
    threshold.toInt ≤ k ∧ s.since c = List.replicate k .failure ++ .success :: before

lemma CheckedInv.leftClosed {threshold : Int64} {s t : CheckedBreaker n} {c : Fin n}
    (h : CheckedInv threshold s) (hfound : (s.checks c).FoundOpen)
    (hs : checkedStep s (.checkSection c) = some t) (hend : t.checks c = .idle) :
    LeftClosed threshold t c := by
  have hsince := h.since c hfound
  rw [checkedStep] at hs
  cases hpoint : s.checks c with
  | idle | unhealthy | healthy =>
    rw [hpoint] at hfound
    exact absurd hfound id
  | sawHalfOpen foundOpen =>
    rw [hpoint] at hs
    cases hs
    exact .inl rfl
  | marked foundOpen =>
    rw [hpoint] at hs
    cases hs
    -- The check ends here only if it has not read half-open.
    have hread : s.breaker.state ≠ .halfOpen := by
      intro hhalf
      rw [s.goTo_self, if_pos hhalf] at hend
      cases hend
    rcases hsince with ⟨hhalf, -⟩ | ⟨before, hbefore⟩
    · exact absurd hhalf hread
    · cases hstate : s.breaker.state with
      | closed => exact .inl hstate
      | «open» =>
        have hcount := h.counts.opened hstate
        rw [h.threshold] at hcount
        exact .inr ⟨hstate, _, before, hcount, hbefore⟩
      | halfOpen => exact absurd hstate hread

/-- Closed below the threshold, and open not below it unless the count has wrapped. -/
structure CountAgrees (s : CheckedBreaker n) : Prop where
  closed : s.breaker.state = .closed → s.breaker.failureCount < s.breaker.threshold
  opened : s.breaker.state = .open → s.inARow < 2 ^ 63 →
    s.breaker.threshold ≤ s.breaker.failureCount

lemma CheckedInv.countAgrees {threshold : Int64} {s : CheckedBreaker n}
    (h : CheckedInv threshold s) : CountAgrees s where
  closed hclosed := by
    have hlt := h.counts.closed hclosed
    have hmax := s.breaker.threshold.toInt_lt
    rwa [Int64.lt_iff_toInt_lt, h.counts.toInt_count (by omega)]
  opened hopen hlt := by
    rw [Int64.le_iff_toInt_le, h.counts.toInt_count hlt]
    exact h.counts.opened hopen

/-- In every interleaving the count agrees with the state, for an open breaker as long as fewer than
`2 ^ 63` failures have been recorded in a row. A health check that found the breaker open and got a
good answer leaves it closed, or open again by failures recorded after it was closed. -/
theorem breaker_count_agrees {threshold : Int64} (hpos : 1 ≤ threshold) {s : CheckedBreaker n}
    (hrun : Run checkedStep anyStep (.initial threshold) s) : CountAgrees s ∧
      ∀ c t, checkedStep s (.checkSection c) = some t → (s.checks c).FoundOpen →
        t.checks c = .idle → LeftClosed threshold t c := by
  have h := hrun.invariant (CheckedInv.initial hpos) fun _ _ _ h _ hs => h.step hpos hs
  exact ⟨h.countAgrees, fun c t hs hfound hend => h.leftClosed hfound hs hend⟩

def reopenedInGap (c : Fin 1) : List (CheckedAction 1) :=
  [.record .failure, .record .failure, .health c true, .checkSection c, .record .success,
    .record .failure, .record .failure]

theorem breaker_count_agrees_reopenedInGap :
    (1 : Int64) ≤ 2 ∧ ∃ s t, exec checkedStep anyStep (.initial 2) (reopenedInGap 0) = some s ∧
      checkedStep s (.checkSection 0) = some t ∧ t.breaker.state = .open ∧
      CountAgrees s ∧ LeftClosed 2 t 0 := by
  have hrun : ∃ s ∈ exec checkedStep anyStep (.initial 2) (reopenedInGap 0),
      s.checks 0 = .marked true ∧ ∃ t ∈ checkedStep s (.checkSection 0),
        t.checks 0 = .idle ∧ t.breaker.state = .open := by decide +kernel
  obtain ⟨s, hs, hfound, t, ht, hend, hopen⟩ := hrun
  obtain ⟨hcount, hchecks⟩ := breaker_count_agrees (by decide) (run_of_exec hs)
  refine ⟨by decide, s, t, hs, ht, hopen, hcount, hchecks 0 t ht ?_ hend⟩
  rw [hfound]
  rfl

lemma run_failures (k : Nat) : ∃ s : CheckedBreaker 0, Run checkedStep anyStep (.initial 1) s ∧
    s.breaker = ⟨.open, .ofNat (k + 1), 1⟩ := by
  induction k with
  | zero => exact ⟨_, .tail (.record .failure) .refl trivial rfl, rfl⟩
  | succ k ih =>
    obtain ⟨s, hrun, hbreaker⟩ := ih
    refine ⟨_, .tail (.record .failure) hrun trivial rfl, ?_⟩
    simp [CheckedBreaker.record, hbreaker, CircuitBreaker.recordFailure]

/-- The failure number `2 ^ 63` makes the count negative. -/
theorem breaker_open_below_threshold : ¬ ∀ s : CheckedBreaker 0,
    Run checkedStep anyStep (.initial 1) s → s.breaker.state = .open →
      s.breaker.threshold ≤ s.breaker.failureCount := by
  intro h
  obtain ⟨s, hrun, hbreaker⟩ := run_failures (2 ^ 63 - 1)
  have hle := h s hrun (by rw [hbreaker])
  rw [hbreaker] at hle
  exact absurd hle (by decide)

end CollabEditor.Relay
