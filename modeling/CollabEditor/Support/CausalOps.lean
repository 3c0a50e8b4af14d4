import Mathlib.Data.List.Perm.Subperm
/-!
# Operations that wait for what they depend on

An operation, named by its client and that client's clock, takes effect once the preceding one of
its client and every one it refers to have done so.  What is integrated depends only on the set of
the operations received.
-/

namespace CollabEditor.Support.CausalOps

open List

variable {χ : Type}

/-- An operation with the ids it refers to, such as the neighbours at the time an
item was inserted. -/
structure Op (χ : Type) where
  client : Nat
  clock : Nat
  refs : List (Nat × Nat)
  content : χ
  deriving DecidableEq

-- named, so that every definition that looks up an operation or an id uses the same proof
instance instLawfulBEqId : LawfulBEq (Nat × Nat) := inferInstance

instance [DecidableEq χ] : LawfulBEq (Op χ) := inferInstance

namespace Op

def id (o : Op χ) : Nat × Nat := (o.client, o.clock)

def deps (o : Op χ) : List (Nat × Nat) :=
  match o.clock with
  | 0 => o.refs
  | k + 1 => (o.client, k) :: o.refs

end Op

/-- `o` takes effect on a replica that has received `known`. -/
inductive Integrated (known : List (Op χ)) : Op χ → Prop
  | intro {o : Op χ} (dep : Nat × Nat → Op χ) (hmem : o ∈ known)
      (hid : ∀ d ∈ o.deps, (dep d).id = d)
      (hdep : ∀ d ∈ o.deps, Integrated known (dep d)) : Integrated known o

namespace Integrated

variable {known known' : List (Op χ)} {o : Op χ}

lemma mem (h : Integrated known o) : o ∈ known := by
  cases h with
  | intro dep hmem hid hdep => exact hmem

lemma dep (h : Integrated known o) {d : Nat × Nat} (hd : d ∈ o.deps) :
    ∃ p, p.id = d ∧ Integrated known p := by
  cases h with
  | intro dep hmem hid hdep => exact ⟨dep d, hid d hd, hdep d hd⟩

lemma of_deps (hmem : o ∈ known)
    (hdeps : ∀ d ∈ o.deps, ∃ p, p.id = d ∧ Integrated known p) : Integrated known o := by
  have : Nonempty (Op χ) := ⟨o⟩
  choose! dep hdep using hdeps
  exact .intro dep hmem (fun d hd => (hdep d hd).1) (fun d hd => (hdep d hd).2)

lemma mono (hsub : ∀ p ∈ known, p ∈ known') (h : Integrated known o) : Integrated known' o := by
  induction h with
  | intro dep hmem hid _ ih => exact .intro dep (hsub _ hmem) hid ih

/-- What stays pending helps nothing else. -/
lemma of_pending {new : List (Op χ)} (hpending : ∀ p ∈ new, ¬ Integrated (known ++ new) p)
    (h : Integrated (known ++ new) o) : Integrated known o := by
  induction h with
  | intro dep hmem hid hdep ih =>
    rcases mem_append.1 hmem with hknown | hnew
    · exact .intro dep hknown hid ih
    · exact absurd (.intro dep hmem hid hdep) (hpending _ hnew)

end Integrated

/-! ## Computing what is integrated -/

def ready (done : List (Op χ)) (o : Op χ) : Bool :=
  o.deps.all fun d => done.any fun p => decide (p.id = d)

variable {done known : List (Op χ)}

lemma ready_iff {o : Op χ} : ready done o = true ↔ ∀ d ∈ o.deps, ∃ p ∈ done, p.id = d := by
  simp only [ready, all_eq_true, any_eq_true, decide_eq_true_eq]

variable [DecidableEq χ]

/-- Take in one operation that is ready after the other, `n` at most. -/
def settle (known : List (Op χ)) : Nat → List (Op χ) → List (Op χ)
  | 0, done => done
  | n + 1, done =>
    match known.find? fun o => decide (o ∉ done) && ready done o with
    | none => done
    | some o => settle known n (o :: done)

def integrate (known : List (Op χ)) : List (Op χ) := settle known known.length []

lemma settle_sound (n : Nat) (hdone : ∀ p ∈ done, Integrated known p) :
    ∀ p ∈ settle known n done, Integrated known p := by
  induction n generalizing done with
  | zero => exact hdone
  | succ n ih =>
    rw [settle]
    split
    · exact hdone
    · rename_i o hfind
      apply ih
      intro p hp
      rcases mem_cons.1 hp with rfl | hp
      · have hready := find?_some hfind
        simp only [Bool.and_eq_true, ready_iff] at hready
        refine .of_deps (mem_of_find?_eq_some hfind) ?_
        intro d hd
        obtain ⟨q, hq, hid⟩ := hready.2 d hd
        exact ⟨q, hid, hdone q hq⟩
      · exact hdone p hp

lemma settle_closed (n : Nat) (hnodup : done.Nodup) (hsub : done ⊆ known)
    (hlen : known.length ≤ n + done.length) :
    ∀ o ∈ known, ready (settle known n done) o = true → o ∈ settle known n done := by
  induction n generalizing done with
  | zero =>
    -- all of `known` has been taken in
    have hperm := (subperm_of_subset hnodup hsub).perm_of_length_le (by omega)
    intro o ho _
    exact hperm.mem_iff.2 ho
  | succ n ih =>
    rw [settle]
    split
    · rename_i hfind
      intro o ho hready
      by_contra hnot
      have := find?_eq_none.1 hfind o ho
      simp only [hnot, not_false_eq_true, decide_true, hready, Bool.and_self,
        not_true_eq_false] at this
    · rename_i o hfind
      have hnew := find?_some hfind
      simp only [Bool.and_eq_true, decide_eq_true_eq] at hnew
      apply ih (nodup_cons.2 ⟨hnew.1, hnodup⟩)
      · exact cons_subset.2 ⟨mem_of_find?_eq_some hfind, hsub⟩
      · rw [length_cons]
        omega

lemma settle_nodup (n : Nat) (hnodup : done.Nodup) : (settle known n done).Nodup := by
  induction n generalizing done with
  | zero => exact hnodup
  | succ n ih =>
    rw [settle]
    split
    · exact hnodup
    · rename_i o hfind
      have hnew := find?_some hfind
      simp only [Bool.and_eq_true, decide_eq_true_eq] at hnew
      exact ih (nodup_cons.2 ⟨hnew.1, hnodup⟩)

lemma mem_integrate_iff {o : Op χ} : o ∈ integrate known ↔ Integrated known o := by
  constructor
  · exact settle_sound known.length (by simp) o
  · intro h
    have hclosed := settle_closed known.length nodup_nil (nil_subset known) (by simp)
    induction h with
    | intro dep hmem hid _ ih =>
      apply hclosed _ hmem
      rw [ready_iff]
      intro d hd
      exact ⟨dep d, ih d hd, hid d hd⟩

instance (known : List (Op χ)) (o : Op χ) : Decidable (Integrated known o) :=
  decidable_of_iff _ mem_integrate_iff

end CollabEditor.Support.CausalOps
