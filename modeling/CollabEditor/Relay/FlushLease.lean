import Mathlib.Logic.Function.Basic
import Mathlib.Data.Fintype.Basic
import CollabEditor.Support.Execution
/-!
# Who has the flush lock

`Acquire` and `Release` of `internal/relay/redis_flush_lock.go` as `Flush` calls them on any number
of pods for one document.  A command takes effect before its call returns, or never.
-/

namespace CollabEditor.Relay

open Support.Execution Option Function

variable {n : Nat}

/-- What becomes of a command: it is executed and answered, it is not executed, or it is executed
and the answer is lost. The call returns an error in the last two cases. -/
inductive CommandFate
  | answered
  | notExecuted
  | answerLost
  deriving DecidableEq

def setNX (key : Option String) (value : String) : Option String × Bool :=
  match key with
  | none => (some value, true)
  | some other => (some other, false)

def releaseLua (key : Option String) (ownerID : String) : Option String :=
  if key = some ownerID then none else key

/-- A pod's flush of the document: none, or one that has acquired the lock and not released it
yet, with the key not expired since or expired. -/
inductive PodFlush
  | outside
  | holding
  | expired
  deriving DecidableEq

/-- `setBy` is the pod whose SETNX has set the key that is there now. -/
structure FlushLease (n : Nat) where
  key : Option String
  setBy : Option (Fin n)
  pods : Fin n → PodFlush

/-- `release` is the deferred call of `Flush`, and `skipRelease` the end of a flush without it. -/
inductive LeaseAction (n : Nat)
  | acquire (p : Fin n) (fate : CommandFate)
  | release (p : Fin n) (fate : CommandFate)
  | skipRelease (p : Fin n)
  | expire

namespace FlushLease

def initial : FlushLease n := ⟨none, none, fun _ => .outside⟩

def goTo (s : FlushLease n) (p : Fin n) (flush : PodFlush) : FlushLease n :=
  { s with pods := update s.pods p flush }

lemma goTo_self (s : FlushLease n) (p : Fin n) (flush : PodFlush) :
    (s.goTo p flush).pods p = flush :=
  update_self ..

lemma goTo_of_ne (s : FlushLease n) {p q : Fin n} (h : q ≠ p) (flush : PodFlush) :
    (s.goTo p flush).pods q = s.pods q :=
  update_of_ne h ..

/-- `Acquire`, of which `Flush` goes on with the answer true only. -/
def acquire (owner : Fin n → String) (s : FlushLease n) (p : Fin n) (fate : CommandFate) :
    FlushLease n :=
  let result := setNX s.key (owner p)
  if fate = .notExecuted ∨ result.2 = false then s
  else
    { s.goTo p (if fate = .answered then .holding else .outside) with
      key := result.1
      setBy := some p }

/-- `Release`, whose error `Flush` does not look at. -/
def release (owner : Fin n → String) (s : FlushLease n) (p : Fin n) (fate : CommandFate) :
    FlushLease n :=
  if fate = .notExecuted then s.goTo p .outside
  else
    { s.goTo p .outside with
      key := releaseLua s.key (owner p)
      setBy := if releaseLua s.key (owner p) = none then none else s.setBy }

def expire (s : FlushLease n) : FlushLease n where
  key := none
  setBy := none
  pods := fun p =>
    if s.setBy = some p ∧ s.pods p = .holding then .expired else s.pods p

end FlushLease

def leaseStep (owner : Fin n → String) (s : FlushLease n) : LeaseAction n → Option (FlushLease n)
  | .acquire p fate => if s.pods p = .outside then some (s.acquire owner p fate) else none
  | .release p fate => if s.pods p ≠ .outside then some (s.release owner p fate) else none
  | .skipRelease p => if s.pods p ≠ .outside then some (s.goTo p .outside) else none
  | .expire => if s.key.isSome then some s.expire else none

/-- The key has the owner id of the pod that has set it, and a pod whose flush holds the lock has
set the key. -/
structure LeaseInv (owner : Fin n → String) (s : FlushLease n) : Prop where
  key : s.key = s.setBy.map owner
  holding : ∀ p, s.pods p = .holding → s.setBy = some p

namespace LeaseInv

variable {owner : Fin n → String} {s t : FlushLease n} {a : LeaseAction n}

lemma initial : LeaseInv owner (.initial : FlushLease n) := ⟨rfl, nofun⟩

variable (h : LeaseInv owner s)
include h

lemma leave (p : Fin n) : LeaseInv owner (s.goTo p .outside) := by
  refine ⟨h.key, fun q hq => ?_⟩
  by_cases heq : q = p
  · rw [heq, s.goTo_self] at hq
    cases hq
  · rw [s.goTo_of_ne heq] at hq
    exact h.holding q hq

lemma acquire (p : Fin n) (fate : CommandFate) : LeaseInv owner (s.acquire owner p fate) := by
  unfold FlushLease.acquire
  dsimp only
  by_cases hskip : fate = .notExecuted ∨ (setNX s.key (owner p)).2 = false
  · rw [if_pos hskip]
    exact h
  · rw [if_neg hskip]
    -- SETNX has set the key, so there was none, and nobody held the lock.
    have hkey : s.key = none := by
      cases hkey : s.key with
      | none => rfl
      | some other => exact absurd (.inr (by rw [hkey, setNX])) hskip
    have hfree : s.setBy = none := by
      have hmap := h.key
      rw [hkey] at hmap
      exact map_eq_none_iff.1 hmap.symm
    refine ⟨by rw [hkey]; rfl, fun q hq => ?_⟩
    by_cases heq : q = p
    · rw [heq]
    · have hold : s.pods q = .holding := (s.goTo_of_ne heq _).symm.trans hq
      rw [h.holding q hold] at hfree
      cases hfree

lemma setBy_eq_of_releaseLua (howner : Function.Injective owner) {p : Fin n}
    (hremoved : releaseLua s.key (owner p) ≠ s.key) : s.setBy = some p := by
  unfold releaseLua at hremoved
  by_cases hkey : s.key = some (owner p)
  · have hmap := h.key
    rw [hkey] at hmap
    obtain ⟨q, hq, hown⟩ := map_eq_some_iff.1 hmap.symm
    rw [hq, howner hown]
  · rw [if_neg hkey] at hremoved
    exact absurd rfl hremoved

lemma release (howner : Function.Injective owner) (p : Fin n) (fate : CommandFate) :
    LeaseInv owner (s.release owner p fate) := by
  unfold FlushLease.release
  by_cases hfate : fate = .notExecuted
  · rw [if_pos hfate]
    exact h.leave p
  · rw [if_neg hfate]
    by_cases hremoved : releaseLua s.key (owner p) = s.key
    · have hsame : (if releaseLua s.key (owner p) = none then none else s.setBy) = s.setBy := by
        rw [hremoved, h.key]
        cases s.setBy <;> rfl
      rw [hremoved] at hsame ⊢
      rw [hsame]
      exact h.leave p
    · -- The pod has removed its own key; nobody else held the lock.
      have hset := h.setBy_eq_of_releaseLua howner hremoved
      have hnone : releaseLua s.key (owner p) = none := by
        rw [h.key, hset]
        exact if_pos rfl
      rw [hnone, if_pos rfl]
      refine ⟨rfl, fun q hq => ?_⟩
      have hother := (h.leave p).holding q hq
      have hq' : q = p := mem_unique hother hset
      rw [hq'] at hq
      exact absurd ((s.goTo_self p .outside).symm.trans hq) nofun

lemma expire : LeaseInv owner s.expire := by
  refine ⟨rfl, fun p hp => ?_⟩
  unfold FlushLease.expire at hp
  dsimp only at hp
  by_cases hset : s.setBy = some p ∧ s.pods p = .holding
  · rw [if_pos hset] at hp
    cases hp
  · rw [if_neg hset] at hp
    exact absurd ⟨h.holding p hp, hp⟩ hset

lemma step (howner : Function.Injective owner) (hs : leaseStep owner s a = some t) :
    LeaseInv owner t := by
  cases a with
  | acquire p fate =>
    obtain ⟨-, rfl⟩ := ite_some_none_eq_some.1 hs
    exact h.acquire p fate
  | release p fate =>
    obtain ⟨-, rfl⟩ := ite_some_none_eq_some.1 hs
    exact h.release howner p fate
  | skipRelease p =>
    obtain ⟨-, rfl⟩ := ite_some_none_eq_some.1 hs
    exact h.leave p
  | expire =>
    obtain ⟨-, rfl⟩ := ite_some_none_eq_some.1 hs
    exact h.expire

end LeaseInv

lemma FlushLease.release_key_ne {owner : Fin n → String} {s : FlushLease n} {p : Fin n}
    {fate : CommandFate} (h : (s.release owner p fate).key ≠ s.key) :
    releaseLua s.key (owner p) ≠ s.key := by
  intro hsame
  unfold FlushLease.release at h
  by_cases hfate : fate = .notExecuted
  · rw [if_pos hfate] at h
    exact h rfl
  · rw [if_neg hfate] at h
    exact h hsame

/-- For pods with different owner ids at most one pod is in a flush that has acquired the lock, has
not released it and whose key has not expired; and a `Release` that changes the key removes one of
its own pod. -/
theorem flush_lock_excludes {owner : Fin n → String} (howner : Function.Injective owner)
    {s : FlushLease n} (hrun : Run (leaseStep owner) anyStep .initial s) :
    (∀ p q, s.pods p = .holding → s.pods q = .holding → p = q) ∧
      ∀ p fate t, leaseStep owner s (.release p fate) = some t → t.key ≠ s.key →
        s.setBy = some p := by
  have h := hrun.invariant (P := LeaseInv owner) .initial fun _ _ _ h _ hs => h.step howner hs
  constructor
  · intro p q hp hq
    exact Option.some.inj ((h.holding p hp).symm.trans (h.holding q hq))
  · intro p fate t hs hkey
    obtain ⟨-, rfl⟩ := ite_some_none_eq_some.1 hs
    exact h.setBy_eq_of_releaseLua howner (FlushLease.release_key_ne hkey)

def lateRelease (a b : Fin 2) : List (LeaseAction 2) :=
  [.acquire a .answered, .expire, .acquire b .answered, .release a .answered]

def podNames (p : Fin 2) : String := if p.val = 0 then "a1" else "b2"

theorem flush_lock_excludes_lateRelease : Function.Injective podNames ∧
      ∃ s, exec (leaseStep podNames) anyStep .initial (lateRelease 0 1) = some s ∧
        s.pods 1 = .holding ∧ ∀ p q, s.pods p = .holding → s.pods q = .holding → p = q := by
  have hnames : Function.Injective podNames := by
    have hall : ∀ p q, podNames p = podNames q → p = q := by decide
    exact fun p q => hall p q
  have hrun : ∃ s ∈ exec (leaseStep podNames) anyStep .initial (lateRelease 0 1),
      s.pods 1 = .holding := by decide +kernel
  obtain ⟨s, hs, hholding⟩ := hrun
  exact ⟨hnames, s, hs, hholding, (flush_lock_excludes hnames (run_of_exec hs)).1⟩

end CollabEditor.Relay
