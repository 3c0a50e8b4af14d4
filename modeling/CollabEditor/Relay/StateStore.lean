import CollabEditor.Support.RedisList
/-!
# The Redis state store

`internal/relay/redis_state_store.go`, the keys of one document.  A snapshot is represented by the
updates its bytes contain.  Key expiry is left out, since every append renews it.
-/

namespace CollabEditor.Relay

open Support List

variable {α : Type}

/-- The four keys of a document: `:log`, `:log_len`, `:snapshot` and `:snap_off`. -/
structure StateKeys (α : Type) where
  log : List α
  counter : Option Nat
  snapshot : Option (List α)
  snapOff : Option Nat
  deriving DecidableEq

namespace StateKeys

def empty : StateKeys α := ⟨[], none, none, none⟩

def appendUpdate (k : StateKeys α) (update : α) : StateKeys α :=
  { k with log := k.log ++ [update], counter := some (k.counter.getD 0 + 1) }

def readCounter (k : StateKeys α) : Nat := k.counter.getD 0

def writeSnapshot (k : StateKeys α) (state : List α) (counter : Nat) : StateKeys α :=
  { k with
    snapshot := some state
    snapOff := some counter
    log := RedisList.range k.log 1 0 }

def readSnapshot (k : StateKeys α) : Option (List α) × Int :=
  match k.snapshot with
  | none => (none, 0)
  | some snap => (some snap, (k.snapOff.getD 0 : Nat))

/-- `relativeStart` of `ReadLogTail`, from the values the commands before
returned. -/
def relativeStart (fromOffset counter listLen : Int) : Int :=
  let trimmed := counter - listLen
  let start := fromOffset - trimmed
  if start < 0 then 0 else start

def readLogTail (k : StateKeys α) (fromOffset : Int) : List α × Int :=
  match k.counter with
  | none => ([], 0)
  | some counter =>
    if (counter : Int) ≤ fromOffset then ([], counter)
    else
      (RedisList.range k.log (relativeStart fromOffset counter k.log.length) (-1), counter)

@[simp] lemma appendUpdate_log (k : StateKeys α) (u : α) :
    (k.appendUpdate u).log = k.log ++ [u] := rfl

@[simp] lemma appendUpdate_readCounter (k : StateKeys α) (u : α) :
    (k.appendUpdate u).readCounter = k.readCounter + 1 := rfl

@[simp] lemma appendUpdate_snapOff (k : StateKeys α) (u : α) :
    (k.appendUpdate u).snapOff = k.snapOff := rfl

@[simp] lemma writeSnapshot_log (k : StateKeys α) (state : List α) (c : Nat) :
    (k.writeSnapshot state c).log = [] := RedisList.range_one_zero k.log

@[simp] lemma writeSnapshot_readCounter (k : StateKeys α) (state : List α) (c : Nat) :
    (k.writeSnapshot state c).readCounter = k.readCounter := rfl

@[simp] lemma writeSnapshot_snapOff (k : StateKeys α) (state : List α) (c : Nat) :
    (k.writeSnapshot state c).snapOff = some c := rfl

/-- The recorded offset is not past the point up to which the log has been
trimmed, which is `counter - length`. -/
def OffsetBehindTrim (k : StateKeys α) : Prop :=
  k.snapOff.getD 0 + k.log.length ≤ k.readCounter

lemma offsetBehindTrim_empty : OffsetBehindTrim (empty : StateKeys α) := by
  simp [OffsetBehindTrim, empty, readCounter]

variable {k : StateKeys α}

lemma OffsetBehindTrim.appendUpdate (h : k.OffsetBehindTrim) (u : α) :
    (k.appendUpdate u).OffsetBehindTrim := by
  unfold OffsetBehindTrim at h ⊢
  simp only [appendUpdate_snapOff, appendUpdate_log, length_append, length_singleton,
    appendUpdate_readCounter]
  omega

lemma OffsetBehindTrim.writeSnapshot (state : List α) {c : Nat} (hc : c ≤ k.readCounter) :
    (k.writeSnapshot state c).OffsetBehindTrim := by
  simpa [OffsetBehindTrim] using hc

lemma readLogTail_eq_log (h : k.OffsetBehindTrim) {off : Nat} (hoff : off ≤ k.snapOff.getD 0) :
    (k.readLogTail off).1 = k.log := by
  unfold OffsetBehindTrim readCounter at h
  unfold readLogTail
  cases hcounter : k.counter with
  | none =>
    rw [hcounter] at h
    have : k.log.length = 0 := by simp only [Option.getD_none] at h; omega
    rw [length_eq_zero_iff.1 this]
  | some counter =>
    rw [hcounter, Option.getD_some] at h
    simp only
    split_ifs with hle
    · have : k.log.length = 0 := by omega
      rw [length_eq_zero_iff.1 this]
    · have hstart : relativeStart off counter k.log.length = 0 := by
        unfold relativeStart
        simp only
        split_ifs <;> omega
      rw [hstart, RedisList.range_to_end _ (by omega)]
      rfl

lemma readSnapshot_fst (k : StateKeys α) : k.readSnapshot.1 = k.snapshot := by
  unfold readSnapshot
  split
  · exact Eq.symm ‹_›
  · exact Eq.symm ‹_›

lemma readSnapshot_offset {snap : List α} {off : Int} (h : k.readSnapshot = (some snap, off)) :
    ∃ n : Nat, off = n ∧ n ≤ k.snapOff.getD 0 := by
  unfold readSnapshot at h
  split at h
  · cases h
  · obtain ⟨-, rfl⟩ := Prod.mk.inj h
    exact ⟨_, rfl, Nat.le_refl _⟩

lemma readSnapshot_tail_eq_log (h : k.OffsetBehindTrim) :
    (k.readLogTail k.readSnapshot.2).1 = k.log := by
  unfold readSnapshot
  split
  · exact readLogTail_eq_log h (Nat.zero_le _)
  · exact readLogTail_eq_log h (Nat.le_refl _)

end StateKeys

end CollabEditor.Relay
