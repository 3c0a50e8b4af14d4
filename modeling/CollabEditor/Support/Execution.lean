import Mathlib.Logic.Basic
/-!
# Runs of labelled step functions

The concurrent parts of a program are modelled by `step : σ → α → Option σ`: the label names the
thread and its action, and `none` says that it is not enabled.  `ok` restricts the steps a run may
take.
-/

namespace CollabEditor.Support.Execution

universe u v

variable {σ : Type u} {α : Type v}

/-- `Run step ok s t`: some finite run leads from `s` to `t`, and each of its
steps meets `ok` in the state it is taken from. -/
inductive Run (step : σ → α → Option σ) (ok : σ → α → Prop) (s : σ) : σ → Prop
  | refl : Run step ok s s
  | tail {t u : σ} (a : α) : Run step ok s t → ok t a → step t a = some u → Run step ok s u

def anyStep (_ : σ) (_ : α) : Prop := True
  deriving Decidable

namespace Run

variable {step : σ → α → Option σ} {ok : σ → α → Prop}

/-- The invariant rule: what the start satisfies and every step keeps holds in
every state of every run. -/
lemma invariant {P : σ → Prop} {s t : σ} (hrun : Run step ok s t) (hs : P s)
    (hstep : ∀ ⦃t u : σ⦄ ⦃a : α⦄, P t → ok t a → step t a = some u → P u) : P t := by
  induction hrun with
  | refl => exact hs
  | tail a _ hok hnext ih => exact hstep ih hok hnext

lemma trans {s t u : σ} (hst : Run step ok s t) (htu : Run step ok t u) : Run step ok s u := by
  induction htu with
  | refl => exact hst
  | tail a _ hok hnext ih => exact .tail a ih hok hnext

end Run

/-- Every run from `s` comes to an end. -/
def Terminates (step : σ → α → Option σ) (s : σ) : Prop :=
  Acc (fun t s => ∃ a, step s a = some t) s

variable {s : σ} {step : σ → α → Option σ} {ok : σ → α → Prop}

/-- The variant rule: every step keeps `P` and makes the variant smaller. -/
lemma Terminates.of_variant {β : Type*} {r : β → β → Prop} (hwf : WellFounded r) (variant : σ → β)
    {P : σ → Prop}
    (hstep : ∀ ⦃t u : σ⦄ ⦃a : α⦄, P t → step t a = some u → P u ∧ r (variant u) (variant t))
    (hs : P s) : Terminates step s := by
  induction hv : variant s using hwf.induction generalizing s with
  | _ v ih =>
    refine .intro s fun t ⟨a, hnext⟩ => ?_
    obtain ⟨ht, hlt⟩ := hstep hs hnext
    exact ih (variant t) (hv ▸ hlt) ht rfl

/-- Execute a list of labels, refusing a label that `ok` does not admit. -/
def exec (step : σ → α → Option σ) (ok : σ → α → Prop)
    [∀ s a, Decidable (ok s a)] : σ → List α → Option σ
  | s, [] => some s
  | s, a :: rest =>
    if ok s a then (step s a).bind fun t => exec step ok t rest else none

lemma exec_mono {ok' : σ → α → Prop} [∀ s a, Decidable (ok s a)] [∀ s a, Decidable (ok' s a)]
    (h : ∀ s a, ok s a → ok' s a) {labels : List α} {t : σ}
    (hexec : exec step ok s labels = some t) : exec step ok' s labels = some t := by
  induction labels generalizing s with
  | nil => exact hexec
  | cons a rest ih =>
    simp only [exec] at hexec ⊢
    obtain ⟨hok, hexec⟩ := Option.ite_none_right_eq_some.1 hexec
    rw [if_pos (h s a hok)]
    obtain ⟨mid, hmid, hrest⟩ := Option.bind_eq_some_iff.1 hexec
    exact Option.bind_eq_some_iff.2 ⟨mid, hmid, ih hrest⟩

lemma exec_append [∀ s a, Decidable (ok s a)] (s : σ) (xs ys : List α) :
    exec step ok s (xs ++ ys) = (exec step ok s xs).bind fun t => exec step ok t ys := by
  induction xs generalizing s with
  | nil => rfl
  | cons a rest ih =>
    simp only [List.cons_append, exec, ih]
    split
    · rw [Option.bind_assoc]
    · rfl

lemma run_of_exec [∀ s a, Decidable (ok s a)] {labels : List α} {t : σ}
    (h : exec step ok s labels = some t) : Run step ok s t := by
  induction labels generalizing s with
  | nil =>
    simp only [exec, Option.some.injEq] at h
    exact h ▸ .refl
  | cons a rest ih =>
    obtain ⟨hok, h⟩ := Option.ite_none_right_eq_some.1 h
    obtain ⟨mid, hmid, hrest⟩ := Option.bind_eq_some_iff.1 h
    exact (Run.tail a .refl hok hmid).trans (ih hrest)

/-! ## Runs on fixed labels -/

variable [∀ s a, Decidable (ok s a)] {P Q : σ → Prop}

lemma exec_imp {labels : List α} (h : ∃ t ∈ exec step ok s labels, P t)
    (himp : ∀ t, Run step ok s t → P t → Q t) : ∃ t, exec step ok s labels = some t ∧ Q t := by
  obtain ⟨t, ht, hP⟩ := h
  exact ⟨t, ht, himp t (run_of_exec ht) hP⟩

lemma exists_run_imp (labels : List α) (h : ∃ t ∈ exec step ok s labels, P t)
    (himp : ∀ t, Run step ok s t → P t → Q t) : ∃ t, Run step ok s t ∧ Q t := by
  obtain ⟨t, ht, hQ⟩ := exec_imp h himp
  exact ⟨t, run_of_exec ht, hQ⟩

lemma exists_run (labels : List α) (h : ∃ t ∈ exec step ok s labels, P t) :
    ∃ t, Run step ok s t ∧ P t :=
  exists_run_imp labels h fun _ _ hP => hP

lemma exec_and {labels : List α} (h : ∃ t ∈ exec step ok s labels, P t)
    (hall : ∀ t, Run step ok s t → Q t) : ∃ t, exec step ok s labels = some t ∧ P t ∧ Q t :=
  exec_imp h fun t hrun hP => ⟨hP, hall t hrun⟩

lemma exists_run_and (labels : List α) (h : ∃ t ∈ exec step ok s labels, P t)
    (hall : ∀ t, Run step ok s t → Q t) : ∃ t, Run step ok s t ∧ P t ∧ Q t :=
  exists_run_imp labels h fun t hrun hP => ⟨hP, hall t hrun⟩

lemma not_forall_run (labels : List α) (h : ∃ t ∈ exec step ok s labels, ¬ P t) :
    ¬ ∀ t, Run step ok s t → P t := by
  obtain ⟨t, ht, hnot⟩ := h
  exact fun hall => hnot (hall t (run_of_exec ht))

/-! ## Reading a step back -/

lemma bind_map_eq_some {β γ δ : Type*} {o : Option β} {f : β → Option γ} {g : β → γ → δ} {d : δ} :
    (o.bind fun b => (f b).map (g b)) = some d ↔ ∃ b, o = some b ∧ ∃ c, f b = some c ∧
      g b c = d := by
  simp only [Option.bind_eq_some_iff, Option.map_eq_some_iff]

lemma mem_snoc {β : Type*} {l : List β} {b c : β} : b ∈ l ++ [c] ↔ b ∈ l ∨ b = c := by
  rw [List.mem_append, List.mem_singleton]

end CollabEditor.Support.Execution
