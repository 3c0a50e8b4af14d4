import Mathlib.Logic.Function.Basic
/-!
# Calls that share one execution

A call that comes while an execution for its key is under way waits for its result, and a call that
comes later starts a new one.  `π` is where the function is, and `ρ` is what it returns.  An
execution is under way until its key is taken out of the group.
-/

namespace CollabEditor.Support.SingleFlight

variable {π ρ : Type}

structure Group (π ρ : Type) where
  running : Option (Nat × π)
  started : Nat
  results : Nat → Option ρ
  running_lt : ∀ e p, running = some (e, p) → e < started
  running_open : ∀ e p, running = some (e, p) → results e = none
  results_lt : ∀ e r, results e = some r → e < started

namespace Group

def new : Group π ρ where
  running := none
  started := 0
  results := fun _ => none
  running_lt := nofun
  running_open := nofun
  results_lt := nofun

def joined (g : Group π ρ) : Nat :=
  match g.running with
  | some (e, _) => e
  | none => g.started

def enter (g : Group π ρ) (p : π) : Group π ρ :=
  match h : g.running with
  | some _ => g
  | none =>
    { running := some (g.started, p)
      started := g.started + 1
      results := g.results
      running_lt := fun e p' heq => by
        obtain ⟨rfl, rfl⟩ := Prod.mk.inj (Option.some.inj heq)
        exact Nat.lt_succ_self _
      running_open := fun e p' heq => by
        obtain ⟨rfl, rfl⟩ := Prod.mk.inj (Option.some.inj heq)
        cases hr : g.results g.started with
        | none => rfl
        | some r => exact absurd (g.results_lt _ _ hr) (Nat.lt_irrefl _)
      results_lt := fun e r hr => Nat.lt_succ_of_lt (g.results_lt e r hr) }

def advance (g : Group π ρ) (p : π) : Group π ρ where
  running := g.running.map fun x => (x.1, p)
  started := g.started
  results := g.results
  running_lt := fun e p' heq => by
    obtain ⟨⟨e', q⟩, hrunning, hpair⟩ := Option.map_eq_some_iff.1 heq
    obtain ⟨rfl, -⟩ := Prod.mk.inj hpair
    exact g.running_lt e' q hrunning
  running_open := fun e p' heq => by
    obtain ⟨⟨e', q⟩, hrunning, hpair⟩ := Option.map_eq_some_iff.1 heq
    obtain ⟨rfl, -⟩ := Prod.mk.inj hpair
    exact g.running_open e' q hrunning
  results_lt := g.results_lt

def finish (g : Group π ρ) (r : ρ) : Group π ρ where
  running := none
  started := g.started
  results := fun e => if g.running.map Prod.fst = some e then some r else g.results e
  running_lt := nofun
  running_open := nofun
  results_lt := fun e r' hr => by
    by_cases he : g.running.map Prod.fst = some e
    · obtain ⟨⟨e', p⟩, hrunning, rfl⟩ := Option.map_eq_some_iff.1 he
      exact g.running_lt e' p hrunning
    · rw [if_neg he] at hr
      exact g.results_lt e r' hr

section

variable {g : Group π ρ} {e : Nat} {p q : π} {r : ρ}

lemma enter_of_running (h : g.running = some (e, q)) : g.enter p = g := by
  unfold enter
  split
  · rfl
  · rename_i hnone
    exact absurd (hnone.symm.trans h) nofun

lemma running_enter (h : g.running = none) : (g.enter p).running = some (g.started, p) := by
  unfold enter
  split
  · rename_i x hsome
    exact absurd (hsome.symm.trans h) nofun
  · rfl

lemma results_enter : (g.enter p).results = g.results := by
  unfold enter
  split <;> rfl

lemma started_le_enter : g.started ≤ (g.enter p).started := by
  unfold enter
  split
  · exact Nat.le_refl _
  · exact Nat.le_succ _

lemma running_advance (h : g.running = some (e, q)) : (g.advance p).running = some (e, p) :=
  congrArg (Option.map fun x : Nat × π => (x.1, p)) h

lemma results_finish (h : g.running = some (e, p)) (e' : Nat) :
    (g.finish r).results e' = if e' = e then some r else g.results e' := by
  simp only [finish, h, Option.map_some, Option.some.injEq, eq_comm]

end

end Group

end CollabEditor.Support.SingleFlight
