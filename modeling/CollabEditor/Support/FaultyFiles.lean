import Mathlib.Logic.Function.Basic
/-!
# Files that a write may damage

If the writing of a file fails, it may not have begun; it may have come to a stop on the way, which
leaves something that cannot be read back; or it may have come to its end.
-/

namespace CollabEditor.Support.FaultyFiles

variable {K V : Type} [DecidableEq K]

inductive File (V : Type)
  | whole (value : V)
  | damaged
  deriving DecidableEq

abbrev Files (K V : Type) := K → Option (File V)

def File.value? : File V → Option V
  | .whole value => some value
  | .damaged => none

def stored (files : Files K V) (key : K) : Option V := (files key).bind File.value?

inductive WriteOutcome
  | done
  | refused
  | torn
  | unsynced
  deriving DecidableEq

def write (files : Files K V) (key : K) (value : V) : WriteOutcome → Files K V × Bool
  | .done => (Function.update files key (some (.whole value)), true)
  | .refused => (files, false)
  | .torn => (Function.update files key (some .damaged), false)
  | .unsynced => (Function.update files key (some (.whole value)), false)

variable {files : Files K V} {key other : K} {value : V} {outcome : WriteOutcome}

omit [DecidableEq K] in
lemma stored_eq_some : stored files key = some value ↔ files key = some (.whole value) := by
  rw [stored]
  match files key with
  | none => simp
  | some (.whole v) => simp [File.value?]
  | some .damaged => simp [File.value?]

lemma write_of_ne (h : other ≠ key) : (write files key value outcome).1 other = files other := by
  cases outcome with
  | refused => rfl
  | done | torn | unsynced => exact Function.update_of_ne h ..

lemma write_self_whole {v : V} (h : (write files key value outcome).1 key = some (.whole v)) :
    files key = some (.whole v) ∨ v = value ∧ (outcome = .done ∨ outcome = .unsynced) := by
  cases outcome with
  | refused => exact .inl h
  | done | unsynced =>
    simp only [write, Function.update_self] at h
    cases h
    exact .inr ⟨rfl, by simp⟩
  | torn =>
    simp only [write, Function.update_self] at h
    cases h

/-- A write that fails has not begun, or has left behind what was there. -/
def FailsUnchanged (files : Files K V) (key : K) (value : V) : WriteOutcome → Prop
  | .done => True
  | .refused => True
  | .torn => files key = some .damaged
  | .unsynced => files key = some (.whole value)

lemma failsUnchanged_iff : FailsUnchanged files key value outcome ↔
    ((write files key value outcome).2 = false → (write files key value outcome).1 = files) := by
  have hupdate (file : File V) :
      files key = some file ↔ Function.update files key (some file) = files := by
    rw [Function.update_eq_self_iff, eq_comm]
  cases outcome with
  | done | refused => simp [FailsUnchanged, write]
  | torn => simpa [FailsUnchanged, write] using hupdate .damaged
  | unsynced => simpa [FailsUnchanged, write] using hupdate (.whole value)

end CollabEditor.Support.FaultyFiles
