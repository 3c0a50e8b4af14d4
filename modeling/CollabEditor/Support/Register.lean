import Mathlib.Tactic.MkIffOfInductiveProp
import Mathlib.Data.List.MinMax
import Mathlib.Logic.Function.Basic
/-!
# A register with several writers

Every write has a stamp, from a linear order, above that of the write it replaces; a replica holds
the write with the highest stamp it has received.  How concurrent writes are stamped is left open.
-/

namespace CollabEditor.Support.Register

open List

variable {P α : Type} [LinearOrder P]

structure Write (P α : Type) where
  stamp : P
  value : α
  deriving DecidableEq

def latest (ws : List (Write P α)) : Option (Write P α) := ws.argmax Write.stamp

variable {w : Write P α} {ws : List (Write P α)}

lemma latest_mem (h : latest ws = some w) : w ∈ ws :=
  argmax_mem h

lemma stamp_le_latest {w' : Write P α} (h : latest ws = some w) (hw' : w' ∈ ws) :
    w'.stamp ≤ w.stamp :=
  le_of_mem_argmax hw' h

lemma isSome_latest (h : w ∈ ws) : (latest ws).isSome := by
  rw [Option.isSome_iff_ne_none]
  intro hnone
  rw [argmax_eq_none.1 hnone] at h
  cases h

lemma latest_concat_of_lt (h : ∀ w' ∈ ws, w'.stamp < w.stamp) : latest (ws ++ [w]) = some w := by
  rw [latest, argmax_concat]
  cases hold : ws.argmax Write.stamp with
  | none => rfl
  | some w' =>
    have hlt := h w' (argmax_mem hold)
    simp [hlt]

/-- No two of the writes have the same stamp. -/
def Stamped (ws : List (Write P α)) : Prop :=
  ∀ w ∈ ws, ∀ w' ∈ ws, w.stamp = w'.stamp → w = w'

lemma Stamped.latest_eq {ws' : List (Write P α)} (h : Stamped ws) (hiff : ∀ w, w ∈ ws' ↔ w ∈ ws) :
    latest ws' = latest ws := by
  cases hlatest : latest ws with
  | none =>
    have hnil := argmax_eq_none.1 hlatest
    have hnil' : ws' = [] := eq_nil_iff_forall_not_mem.2 fun w hw => by
      simpa [hnil] using (hiff w).1 hw
    rw [hnil']
    rfl
  | some w =>
    have hw := latest_mem hlatest
    obtain ⟨w', hlatest'⟩ := Option.isSome_iff_exists.1 (isSome_latest ((hiff w).2 hw))
    have hw' := (hiff w').1 (latest_mem hlatest')
    have hstamp : w'.stamp = w.stamp :=
      le_antisymm (stamp_le_latest hlatest hw') (stamp_le_latest hlatest' ((hiff w).2 hw))
    rw [hlatest', h w' hw' w hw hstamp]

/-! ## Replicas -/

/-- All writes, and those that each replica has received. -/
structure Shared (P α : Type) where
  written : List (Write P α)
  received : Nat → List (Write P α)

namespace Shared

def started (creator : Nat) (w : Write P α) : Shared P α :=
  ⟨[w], fun c => if c = creator then [w] else []⟩

def value (s : Shared P α) (c : Nat) : Option α := (latest (s.received c)).map (·.value)

def receive (s : Shared P α) (c : Nat) (w : Write P α) : Shared P α :=
  { s with received := Function.update s.received c (s.received c ++ [w]) }

def write (s : Shared P α) (c : Nat) (w : Write P α) : Shared P α :=
  { s with written := s.written ++ [w] }.receive c w

/-- The stamp is new and above that of the value `c` holds. -/
@[mk_iff]
structure Follows (s : Shared P α) (c : Nat) (stamp : P) : Prop where
  fresh : ∀ w ∈ s.written, w.stamp ≠ stamp
  above : ∀ w ∈ latest (s.received c), w.stamp < stamp

instance (s : Shared P α) (c : Nat) (stamp : P) : Decidable (s.Follows c stamp) :=
  decidable_of_iff' _ (follows_iff ..)

def UpToDate (s : Shared P α) (c : Nat) : Prop := ∀ w ∈ s.written, w ∈ s.received c

instance [DecidableEq α] (s : Shared P α) (c : Nat) : Decidable (s.UpToDate c) :=
  inferInstanceAs (Decidable (∀ w ∈ s.written, w ∈ s.received c))

structure Inv (s : Shared P α) : Prop where
  received : ∀ c, ∀ w ∈ s.received c, w ∈ s.written
  stamped : Stamped s.written

variable {s : Shared P α} {c : Nat} {w : Write P α}

omit [LinearOrder P] in
lemma inv_started (creator : Nat) (w : Write P α) : (started creator w).Inv := by
  refine ⟨fun c w' hw' => ?_, fun w₁ h₁ w₂ h₂ _ => ?_⟩
  · simp only [started] at hw'
    split at hw'
    · exact hw'
    · cases hw'
  · rw [mem_singleton.1 h₁, mem_singleton.1 h₂]

omit [LinearOrder P] in
lemma mem_received_receive {c' : Nat} {w' : Write P α} :
    w' ∈ (s.receive c w).received c' ↔ w' ∈ s.received c' ∨ c' = c ∧ w' = w := by
  rw [receive]
  by_cases hc : c' = c
  · subst hc
    simp
  · simp [hc]

omit [LinearOrder P] in
lemma Inv.receive (h : s.Inv) (hw : w ∈ s.written) : (s.receive c w).Inv := by
  refine ⟨fun c' w' hw' => ?_, h.stamped⟩
  rcases mem_received_receive.1 hw' with hw' | ⟨-, rfl⟩
  · exact h.received c' w' hw'
  · exact hw

lemma Inv.write (h : s.Inv) (hfollows : s.Follows c w.stamp) : (s.write c w).Inv := by
  refine Inv.receive ⟨fun c' w' hw' => mem_append_left _ (h.received c' w' hw'), ?_⟩
    (mem_concat_self)
  intro w₁ h₁ w₂ h₂ hstamp
  rcases mem_append.1 h₁ with h₁ | h₁ <;> rcases mem_append.1 h₂ with h₂ | h₂
  · exact h.stamped w₁ h₁ w₂ h₂ hstamp
  · rw [mem_singleton.1 h₂] at hstamp
    exact absurd hstamp (hfollows.fresh w₁ h₁)
  · rw [mem_singleton.1 h₁] at hstamp
    exact absurd hstamp.symm (hfollows.fresh w₂ h₂)
  · rw [mem_singleton.1 h₁, mem_singleton.1 h₂]

lemma Inv.latest_received (h : s.Inv) (hall : s.UpToDate c) :
    latest (s.received c) = latest s.written :=
  h.stamped.latest_eq fun w => ⟨h.received c w, hall w⟩

lemma Inv.latest_written (h : s.Inv) (hall : s.UpToDate c) (hfollows : s.Follows c w.stamp) :
    latest (s.write c w).written = some w := by
  apply latest_concat_of_lt
  intro w' hw'
  obtain ⟨last, hlast⟩ := Option.isSome_iff_exists.1 (isSome_latest hw')
  have habove := hfollows.above last (by rw [h.latest_received hall, hlast]; rfl)
  exact lt_of_le_of_lt (stamp_le_latest hlast hw') habove

end Shared

end CollabEditor.Support.Register
