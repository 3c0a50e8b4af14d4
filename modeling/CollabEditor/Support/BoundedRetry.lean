import Mathlib.Data.List.Nodup
import Mathlib.Logic.Function.Basic
/-!
# Rounds of attempts with a bound on the retries

A round attempts each of the things to be done once: what fails is put back for the next round, with
the failures counted, unless that was the last of `max` attempts.
-/

namespace CollabEditor.Support.BoundedRetry

open List Function

variable {K : Type} [DecidableEq K]

/-- The failures that are counted, and all the attempts with their outcomes. -/
structure Tally (K : Type) where
  retries : K → Nat
  attempts : List (K × Bool)

/-- `waiting` is what the next round takes on, `coming` what the round under way has still to
attempt, and `failed` what it is going to put back. -/
structure Book (K : Type) where
  waiting : List K
  coming : List K
  failed : List K
  rounds : Nat
  tally : Tally K

def outcomes (attempts : List (K × Bool)) (key : K) : List Bool :=
  (attempts.filter (·.1 = key)).map Prod.snd

/-- All attempts so far have failed, and there may be more. -/
def StillOpen (max : Nat) (outcomes : List Bool) : Prop :=
  ∃ n < max, outcomes = replicate n false

/-- The last attempt is the first that succeeds, or the last there may be. -/
def Settled (max : Nat) (outcomes : List Bool) : Prop :=
  (∃ n < max, outcomes = replicate n false ++ [true]) ∨ outcomes = replicate max false

namespace Tally

def record (t : Tally K) (key : K) (outcome : Bool) (retries : Nat) : Tally K where
  retries := Function.update t.retries key retries
  attempts := t.attempts ++ [(key, outcome)]

structure Due (max : Nat) (t : Tally K) (n : Nat) (key : K) : Prop where
  lt : n < max
  outcomes : outcomes t.attempts key = replicate n false
  retries : t.retries key = n

structure Closed (max : Nat) (keys : List K) (t : Tally K) (key : K) : Prop where
  retries : t.retries key = 0
  settled : key ∈ keys → Settled max (outcomes t.attempts key)
  unasked : key ∉ keys → outcomes t.attempts key = []

end Tally

namespace Book

inductive Step (max : Nat) : Book K → Book K → Prop
  | start {b : Book K} : b.coming = [] → b.failed = [] →
      Step max b { b with waiting := [], coming := b.waiting, rounds := b.rounds + 1 }
  | succeed {b : Book K} {key : K} {rest : List K} : b.coming = key :: rest →
      Step max b { b with coming := rest, tally := b.tally.record key true 0 }
  | retry {b : Book K} {key : K} {rest : List K} : b.coming = key :: rest →
      b.tally.retries key + 1 < max →
      Step max b { b with
        coming := rest
        failed := b.failed ++ [key]
        tally := b.tally.record key false (b.tally.retries key + 1) }
  | giveUp {b : Book K} {key : K} {rest : List K} : b.coming = key :: rest →
      max ≤ b.tally.retries key + 1 →
      Step max b { b with coming := rest, tally := b.tally.record key false 0 }
  | finish {b : Book K} : b.coming = [] → b.waiting = [] →
      Step max b { b with waiting := b.failed, failed := [] }

def pending (b : Book K) : List K := b.coming ++ b.failed ++ b.waiting

/-- Each thing is in one place at most, where it belongs by the outcomes that it has had. -/
structure Exact (max : Nat) (keys : List K) (b : Book K) : Prop where
  nodup : b.pending.Nodup
  mem : ∀ key ∈ b.pending, key ∈ keys
  coming : ∀ key ∈ b.coming, ∃ n, b.rounds = n + 1 ∧ b.tally.Due max n key
  failed : ∀ key ∈ b.failed, b.tally.Due max b.rounds key
  waiting : ∀ key ∈ b.waiting, b.tally.Due max b.rounds key
  closed : ∀ key ∉ b.pending, b.tally.Closed max keys key

end Book

/-! ## What a step writes into the book -/

section

variable {attempts : List (K × Bool)} {key key' : K}

lemma outcomes_append_self (outcome : Bool) :
    outcomes (attempts ++ [(key, outcome)]) key = outcomes attempts key ++ [outcome] := by
  simp [outcomes]

lemma outcomes_append_of_ne (h : key' ≠ key) (outcome : Bool) :
    outcomes (attempts ++ [(key, outcome)]) key' = outcomes attempts key' := by
  simp [outcomes, h.symm]

end

namespace Tally

variable {max n : Nat} {keys : List K} {t : Tally K} {key key' : K}

lemma Due.record (h : t.Due max n key') (hne : key' ≠ key) (outcome : Bool) (retries : Nat) :
    (t.record key outcome retries).Due max n key' where
  lt := h.lt
  outcomes := (outcomes_append_of_ne hne outcome).trans h.outcomes
  retries := (update_of_ne hne ..).trans h.retries

lemma Closed.record (h : t.Closed max keys key') (hne : key' ≠ key) (outcome : Bool)
    (retries : Nat) : (t.record key outcome retries).Closed max keys key' where
  retries := (update_of_ne hne ..).trans h.retries
  settled hmem := (outcomes_append_of_ne hne outcome).symm ▸ h.settled hmem
  unasked hmem := (outcomes_append_of_ne hne outcome).trans (h.unasked hmem)

variable (h : t.Due max n key)
include h

lemma Due.outcomes_record (outcome : Bool) (retries : Nat) :
    BoundedRetry.outcomes (t.record key outcome retries).attempts key =
      replicate n false ++ [outcome] :=
  (outcomes_append_self outcome).trans (congrArg (· ++ [outcome]) h.outcomes)

lemma Due.outcomes_record_false (retries : Nat) :
    BoundedRetry.outcomes (t.record key false retries).attempts key = replicate (n + 1) false := by
  rw [h.outcomes_record, replicate_succ']

lemma Due.succeed (hmem : key ∈ keys) : (t.record key true 0).Closed max keys key where
  retries := update_self ..
  settled _ := .inl ⟨n, h.lt, h.outcomes_record true 0⟩
  unasked hnot := absurd hmem hnot

lemma Due.giveUp (hmax : max ≤ n + 1) (hmem : key ∈ keys) :
    (t.record key false 0).Closed max keys key where
  retries := update_self ..
  settled _ := by
    obtain rfl : max = n + 1 := Nat.le_antisymm hmax h.lt
    exact .inr (h.outcomes_record_false 0)
  unasked hnot := absurd hmem hnot

lemma Due.retry (hmax : n + 1 < max) : (t.record key false (n + 1)).Due max (n + 1) key where
  lt := hmax
  outcomes := h.outcomes_record_false (n + 1)
  retries := update_self ..

end Tally

/-! ## What the steps keep -/

namespace Book

variable {max n : Nat} {keys rest : List K} {b c : Book K} {key : K}

section

variable (h : b.Exact max keys)
include h

lemma Exact.others (hcoming : b.coming = key :: rest) (outcome : Bool) (retries : Nat) :
    (∀ k ∈ rest, k ≠ key ∧ ∃ n, b.rounds = n + 1 ∧
        (b.tally.record key outcome retries).Due max n k) ∧
      (∀ k ∈ b.failed, k ≠ key ∧ (b.tally.record key outcome retries).Due max b.rounds k) ∧
      ∀ k ∈ b.waiting, k ≠ key ∧ (b.tally.record key outcome retries).Due max b.rounds k := by
  have hnot : key ∉ rest ++ b.failed ++ b.waiting := by
    have hnodup := h.nodup
    rw [pending, hcoming] at hnodup
    exact (nodup_cons.1 hnodup).1
  simp only [mem_append, not_or] at hnot
  refine ⟨fun k hk => ?_, fun k hk => ?_, fun k hk => ?_⟩
  · have hne : k ≠ key := fun heq => hnot.1.1 (heq ▸ hk)
    obtain ⟨n, hrounds, hdue⟩ := h.coming k (hcoming ▸ mem_cons_of_mem key hk)
    exact ⟨hne, n, hrounds, hdue.record hne outcome retries⟩
  · have hne : k ≠ key := fun heq => hnot.1.2 (heq ▸ hk)
    exact ⟨hne, (h.failed k hk).record hne outcome retries⟩
  · have hne : k ≠ key := fun heq => hnot.2 (heq ▸ hk)
    exact ⟨hne, (h.waiting k hk).record hne outcome retries⟩

lemma Exact.done (hcoming : b.coming = key :: rest) {outcome : Bool}
    (hclosed : (b.tally.record key outcome 0).Closed max keys key) :
    Exact max keys { b with coming := rest, tally := b.tally.record key outcome 0 } := by
  obtain ⟨hrest, hfailed, hwaiting⟩ := h.others hcoming outcome 0
  have hpending : b.pending = key :: (rest ++ b.failed ++ b.waiting) := by
    rw [pending, hcoming]
    rfl
  exact {
    nodup := (nodup_cons.1 (hpending ▸ h.nodup)).2
    mem k hk := h.mem k (hpending ▸ mem_cons_of_mem key hk)
    coming k hk := (hrest k hk).2
    failed k hk := (hfailed k hk).2
    waiting k hk := (hwaiting k hk).2
    closed k hk := by
      by_cases heq : k = key
      · exact heq ▸ hclosed
      · refine (h.closed k ?_).record heq outcome 0
        rw [hpending]
        exact fun hmem => (mem_cons.1 hmem).elim heq hk }

lemma Exact.retry (hcoming : b.coming = key :: rest) (hmax : b.tally.retries key + 1 < max) :
    Exact max keys { b with
      coming := rest
      failed := b.failed ++ [key]
      tally := b.tally.record key false (b.tally.retries key + 1) } := by
  obtain ⟨hrest, hfailed, hwaiting⟩ := h.others hcoming false (b.tally.retries key + 1)
  obtain ⟨n, hrounds, hdue⟩ := h.coming key (hcoming ▸ mem_cons_self)
  have hperm : List.Perm (rest ++ (b.failed ++ [key]) ++ b.waiting) b.pending := by
    rw [pending, hcoming, ← append_assoc, append_assoc (rest ++ b.failed)]
    exact perm_middle
  exact {
    nodup := hperm.nodup_iff.2 h.nodup
    mem k hk := h.mem k (hperm.mem_iff.1 hk)
    coming k hk := (hrest k hk).2
    failed k hk := by
      obtain hk | hk := mem_append.1 hk
      · exact (hfailed k hk).2
      · obtain rfl := mem_singleton.1 hk
        have hretry := hdue.retry (hdue.retries ▸ hmax)
        rw [← hdue.retries] at hretry hrounds
        exact hrounds ▸ hretry
    waiting k hk := (hwaiting k hk).2
    closed k hk := by
      have hnot : k ∉ b.pending := fun hmem => hk (hperm.mem_iff.2 hmem)
      refine (h.closed k hnot).record (fun heq => hnot ?_) false _
      rw [heq, pending, hcoming]
      exact mem_cons_self }

lemma Exact.step (hstep : Step max b c) : c.Exact max keys := by
  cases hstep with
  | start hcoming hfailed =>
    have hnext : { b with waiting := [], coming := b.waiting, rounds := b.rounds + 1 }.pending =
        b.pending := by
      simp [pending, hcoming, hfailed]
    exact {
      nodup := by rw [hnext]; exact h.nodup
      mem k hk := h.mem k (hnext ▸ hk)
      coming k hk := ⟨b.rounds, rfl, h.waiting k hk⟩
      failed k hk := absurd (hfailed ▸ hk) not_mem_nil
      waiting k hk := absurd hk not_mem_nil
      closed k hk := h.closed k (hnext ▸ hk) }
  | succeed hcoming =>
    obtain ⟨n, -, hdue⟩ := h.coming _ (hcoming ▸ mem_cons_self)
    exact h.done hcoming (hdue.succeed (h.mem _ (by simp [pending, hcoming])))
  | retry hcoming hmax => exact h.retry hcoming hmax
  | giveUp hcoming hmax =>
    obtain ⟨n, -, hdue⟩ := h.coming _ (hcoming ▸ mem_cons_self)
    exact h.done hcoming
      (hdue.giveUp (hdue.retries ▸ hmax) (h.mem _ (by simp [pending, hcoming])))
  | finish hcoming hwaiting =>
    have hnext : { b with waiting := b.failed, failed := [] }.pending = b.pending := by
      simp [pending, hcoming, hwaiting]
    exact {
      nodup := by rw [hnext]; exact h.nodup
      mem k hk := h.mem k (hnext ▸ hk)
      coming k hk := absurd (hcoming ▸ hk) not_mem_nil
      failed k hk := absurd hk not_mem_nil
      waiting k hk := h.failed k hk
      closed k hk := h.closed k (hnext ▸ hk) }

end

lemma exact_of_waiting {retries : K → Nat} (hkeys : keys.Nodup) (hretries : ∀ key, retries key = 0)
    (hmax : 0 < max) : Exact max keys ⟨keys, [], [], 0, ⟨retries, []⟩⟩ where
  nodup := hkeys
  mem _ hk := hk
  coming _ hk := absurd hk not_mem_nil
  failed _ hk := absurd hk not_mem_nil
  waiting k _ := ⟨hmax, rfl, hretries k⟩
  closed k hk := ⟨hretries k, fun hmem => absurd hmem hk, fun _ => rfl⟩

lemma Exact.stillOpen_or_settled (h : b.Exact max keys) (hkey : key ∈ keys) :
    StillOpen max (outcomes b.tally.attempts key) ∨
      b.tally.Closed max keys key ∧ Settled max (outcomes b.tally.attempts key) := by
  by_cases hmem : key ∈ b.pending
  · refine .inl ?_
    obtain (hmem | hmem) | hmem := (mem_append.1 hmem).imp_left mem_append.1
    · obtain ⟨n, -, hdue⟩ := h.coming key hmem
      exact ⟨n, hdue.lt, hdue.outcomes⟩
    · exact ⟨b.rounds, (h.failed key hmem).lt, (h.failed key hmem).outcomes⟩
    · exact ⟨b.rounds, (h.waiting key hmem).lt, (h.waiting key hmem).outcomes⟩
  · exact .inr ⟨h.closed key hmem, (h.closed key hmem).settled hkey⟩

end Book

end CollabEditor.Support.BoundedRetry
