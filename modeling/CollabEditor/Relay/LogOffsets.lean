import CollabEditor.Relay.StateStore
import Mathlib.Data.List.Induction
/-!
# The offsets of the log

`AppendUpdate`, `WriteSnapshot` and `ReadLogTail` of `internal/relay/redis_state_store.go`, one
after the other for one document.
-/

namespace CollabEditor.Relay.LogOffsets

open Support List

/-- The bytes of an update, and of a state, which is an update as well. -/
abbrev Payload := List UInt8

/-- A call, and whether Redis has executed its transaction. A call that returns nil has been
executed. -/
inductive StoreCall
  | appendUpdate (update : Payload) (executed : Bool)
  | writeSnapshot (state : Payload) (executed : Bool)

def perform (k : StateKeys Payload) : StoreCall → StateKeys Payload
  | .appendUpdate update executed =>
    if update.length = 0 then k else if executed then k.appendUpdate update else k
  | .writeSnapshot state executed =>
    if state.length = 0 then k
    else if executed then k.writeSnapshot [state] k.readCounter else k

def performAll (calls : List StoreCall) : StateKeys Payload := calls.foldl perform .empty

/-! ## What a history says -/

def StoreCall.appended : StoreCall → Option Payload
  | appendUpdate update executed => if executed ∧ update ≠ [] then some update else none
  | writeSnapshot _ _ => none

def StoreCall.IsSnapshot : StoreCall → Prop
  | appendUpdate _ _ => False
  | writeSnapshot state executed => executed = true ∧ state ≠ []

instance (c : StoreCall) : Decidable c.IsSnapshot := by
  rcases c with ⟨⟩ <;> dsimp only [StoreCall.IsSnapshot] <;> infer_instance

def appends (calls : List StoreCall) : List Payload := calls.filterMap StoreCall.appended

def lastSnapshot : List StoreCall → Option Nat
  | [] => none
  | c :: calls =>
    match lastSnapshot calls with
    | some n => some (c.appended.toList.length + n)
    | none => if c.IsSnapshot then some 0 else none

def retainedAbove (calls : List StoreCall) (fromOffset : Nat) : List Payload :=
  (((appends calls).zipIdx 1).filter fun numbered =>
    (lastSnapshot calls).getD 0 < numbered.2 ∧ fromOffset < numbered.2).map Prod.fst

lemma appends_concat (calls : List StoreCall) (c : StoreCall) :
    appends (calls ++ [c]) = appends calls ++ c.appended.toList := by
  rw [appends, filterMap_append]
  cases h : c.appended <;> simp [h, appends]

lemma lastSnapshot_concat (calls : List StoreCall) (c : StoreCall) : lastSnapshot (calls ++ [c]) =
      if c.IsSnapshot then some (appends calls).length else lastSnapshot calls := by
  induction calls with
  | nil => rfl
  | cons c' calls ih =>
    rw [cons_append, lastSnapshot, ih]
    by_cases hsnap : c.IsSnapshot
    · have hcons : appends (c' :: calls) = c'.appended.toList ++ appends calls := by
        rw [appends, filterMap_cons]
        cases c'.appended <;> rfl
      rw [if_pos hsnap, if_pos hsnap, hcons, length_append]
    · rw [if_neg hsnap, if_neg hsnap, lastSnapshot]

lemma lastSnapshot_le (calls : List StoreCall) :
    (lastSnapshot calls).getD 0 ≤ (appends calls).length := by
  induction calls using List.reverseRecOn with
  | nil => exact Nat.le_refl _
  | append_singleton calls c ih =>
    rw [lastSnapshot_concat, appends_concat, length_append]
    split_ifs
    · exact Nat.le_add_right ..
    · exact Nat.le_add_right_of_le ih

/-! ## What the keys hold -/

/-- The keys after a history. The counter key appears with the first append. -/
structure Recorded (calls : List StoreCall) (k : StateKeys Payload) : Prop where
  counter : k.counter = if (appends calls).length = 0 then none else some (appends calls).length
  log : k.log = (appends calls).drop ((lastSnapshot calls).getD 0)
  snapOff : k.snapOff = lastSnapshot calls

variable {calls : List StoreCall} {k : StateKeys Payload}

lemma Recorded.readCounter (h : Recorded calls k) : k.readCounter = (appends calls).length := by
  rw [StateKeys.readCounter, h.counter]
  split_ifs with hzero
  · exact hzero.symm
  · rfl

section

variable (h : Recorded calls k)
include h

lemma Recorded.skip {c : StoreCall} (happended : c.appended = none) (hsnap : ¬ c.IsSnapshot) :
    Recorded (calls ++ [c]) k := by
  have happends : appends (calls ++ [c]) = appends calls := by
    rw [appends_concat, happended]
    exact append_nil _
  have hlast : lastSnapshot (calls ++ [c]) = lastSnapshot calls := by
    rw [lastSnapshot_concat, if_neg hsnap]
  exact ⟨happends ▸ h.counter, by rw [happends, hlast, h.log], hlast ▸ h.snapOff⟩

lemma Recorded.appendUpdate {update : Payload} (hne : update ≠ []) :
    Recorded (calls ++ [.appendUpdate update true]) (k.appendUpdate update) := by
  have happends : appends (calls ++ [.appendUpdate update true]) = appends calls ++ [update] := by
    rw [appends_concat]
    simp [StoreCall.appended, hne]
  have hlast : lastSnapshot (calls ++ [.appendUpdate update true]) = lastSnapshot calls :=
    (lastSnapshot_concat ..).trans (if_neg id)
  refine ⟨?_, ?_, ?_⟩
  · have hcounter := h.readCounter
    rw [StateKeys.readCounter] at hcounter
    rw [StateKeys.appendUpdate, happends, length_append, length_singleton, hcounter,
      if_neg (Nat.succ_ne_zero _)]
  · rw [StateKeys.appendUpdate_log, h.log, happends, hlast,
      drop_append_of_le_length (lastSnapshot_le calls)]
  · rw [StateKeys.appendUpdate_snapOff, h.snapOff, hlast]

lemma Recorded.writeSnapshot {state : Payload} (hne : state ≠ []) :
    Recorded (calls ++ [.writeSnapshot state true]) (k.writeSnapshot [state] k.readCounter) := by
  have happends : appends (calls ++ [.writeSnapshot state true]) = appends calls := by
    rw [appends_concat]
    exact append_nil _
  have hlast : lastSnapshot (calls ++ [.writeSnapshot state true]) =
      some (appends calls).length := by
    rw [lastSnapshot_concat, if_pos ⟨rfl, hne⟩]
  refine ⟨?_, ?_, ?_⟩
  · rw [happends]
    exact h.counter
  · rw [StateKeys.writeSnapshot_log, happends, hlast, Option.getD_some, drop_length]
  · rw [StateKeys.writeSnapshot_snapOff, hlast, h.readCounter]

lemma Recorded.perform (c : StoreCall) : Recorded (calls ++ [c]) (perform k c) := by
  cases c with
  | appendUpdate update executed =>
    rw [LogOffsets.perform]
    split_ifs with hempty hexecuted
    · have hnil : update = [] := length_eq_zero_iff.1 hempty
      exact h.skip (by simp [StoreCall.appended, hnil]) id
    · subst hexecuted
      exact h.appendUpdate (mt length_eq_zero_iff.2 hempty)
    · exact h.skip (by simp [StoreCall.appended, hexecuted]) id
  | writeSnapshot state executed =>
    rw [LogOffsets.perform]
    split_ifs with hempty hexecuted
    · exact h.skip rfl fun hsnap => hsnap.2 (length_eq_zero_iff.1 hempty)
    · subst hexecuted
      exact h.writeSnapshot (mt length_eq_zero_iff.2 hempty)
    · exact h.skip rfl fun hsnap => hexecuted hsnap.1

end

lemma recorded_performAll (calls : List StoreCall) : Recorded calls (performAll calls) := by
  induction calls using List.reverseRecOn with
  | nil => exact ⟨rfl, rfl, rfl⟩
  | append_singleton calls c ih =>
    rw [performAll, foldl_append]
    exact ih.perform c

/-! ## The tail -/

lemma filter_zipIdx_lt {β : Type} (l : List β) (n m : Nat) :
    ((l.zipIdx (n + 1)).filter fun numbered => m < numbered.2).map Prod.fst = l.drop (m - n) := by
  induction l generalizing n with
  | nil => simp
  | cons x l ih =>
    rw [zipIdx_cons, filter_cons]
    by_cases hlt : m < n + 1
    · have hzero : m - n = 0 := by omega
      have hrest : m - (n + 1) = 0 := by omega
      rw [if_pos (by simpa using hlt), map_cons, ih, hzero, hrest]
      rfl
    · obtain ⟨d, hd⟩ : ∃ d, m - n = d + 1 := ⟨m - n - 1, by omega⟩
      have hrest : m - (n + 1) = d := by omega
      rw [if_neg (by simpa using hlt), ih, hd, hrest]
      rfl

lemma retainedAbove_eq_drop (calls : List StoreCall) (fromOffset : Nat) :
    retainedAbove calls fromOffset = ((appends calls).drop ((lastSnapshot calls).getD 0)).drop
        (fromOffset - (lastSnapshot calls).getD 0) := by
  simp only [retainedAbove, ← Nat.max_lt]
  rw [filter_zipIdx_lt (appends calls) 0, drop_drop]
  congr 1
  omega

lemma Recorded.readLogTail (h : Recorded calls k) (fromOffset : Nat) :
    k.readLogTail fromOffset =
      (retainedAbove calls fromOffset, ((appends calls).length : Int)) := by
  have hle := lastSnapshot_le calls
  have hlength : k.log.length = (appends calls).length - (lastSnapshot calls).getD 0 := by
    rw [h.log, length_drop]
  rw [retainedAbove_eq_drop, ← h.log]
  rw [StateKeys.readLogTail, h.counter]
  split_ifs with hzero
  · have hnil : k.log = [] := length_eq_zero_iff.1 (by omega)
    simp [hnil, hzero]
  · dsimp only
    split_ifs with hpast
    · rw [drop_eq_nil_of_le (by omega)]
    · have hstart : StateKeys.relativeStart fromOffset (appends calls).length k.log.length =
          ((fromOffset - (lastSnapshot calls).getD 0 : Nat) : Int) := by
        unfold StateKeys.relativeStart
        dsimp only
        split_ifs <;> omega
      rw [hstart, RedisList.range_to_end _ (Int.natCast_nonneg _), Int.toNat_natCast]

/-- The counter is the number of appends, the list holds those after the last snapshot, the stored
offset is the number of those before it, and `ReadLogTail` returns what the list holds above the
offset. -/
theorem log_offsets_exact (calls : List StoreCall) :
    (performAll calls).readCounter = (appends calls).length ∧
      (performAll calls).log = (appends calls).drop ((lastSnapshot calls).getD 0) ∧
      (performAll calls).snapOff = lastSnapshot calls ∧
      ∀ fromOffset : Nat, (performAll calls).readLogTail fromOffset =
        (retainedAbove calls fromOffset, ((appends calls).length : Int)) := by
  have h := recorded_performAll calls
  exact ⟨h.readCounter, h.log, h.snapOff, h.readLogTail⟩

end CollabEditor.Relay.LogOffsets
