import CollabEditor.Support.Execution
import Mathlib.Data.List.Nodup
/-!
# The list of the version panel

`VersionCoordinator` of `collab/version-coordinator.ts` between `attach` and `detach`, with the
provider that stores the versions.  A request that fails gives the empty list.  An entry is its id.
-/

namespace CollabEditor.Frontend.VersionList

open Support.Execution List Option

variable {ι : Type} [DecidableEq ι]

inductive Source
  | save
  | autoSnapshot
  | versionCreated
  deriving DecidableEq

/-- The versions that exist, the newest first, and those that ever did; the responses under way; the
announcements that have arrived; the list; and what the coordinator has been told of. -/
structure Panel (ι : Type) where
  stored : List ι
  created : List ι
  responses : List (List ι)
  announced : List (Source × ι)
  versions : List ι
  known : List ι

def Panel.initial : Panel ι := ⟨[], [], [], [], [], []⟩

inductive PanelAction (ι : Type)
  | create (v : ι)
  | delete (v : ι)
  | listVersions (ok : Bool)
  | listed (i : Nat)
  | announce (source : Source) (v : ι)

def panelStep (s : Panel ι) : PanelAction ι → Option (Panel ι)
  | .create v =>
    if v ∉ s.created then some { s with stored := v :: s.stored, created := v :: s.created }
    else none
  | .delete v => some { s with stored := s.stored.filter (· ≠ v) }
  | .listVersions ok =>
    some { s with responses := s.responses ++ [if ok then s.stored else []] }
  | .listed i =>
    (s.responses[i]?).map fun v =>
      { s with responses := s.responses.eraseIdx i, versions := v, known := v ++ s.known }
  | .announce source v =>
    if v ∈ s.created ∧ (source, v) ∉ s.announced then
      some { s with
        announced := (source, v) :: s.announced
        versions := v :: s.versions
        known := v :: s.known }
    else none

/-- No id twice, and no version missing that exists and of which the coordinator has been told. -/
def Exact (s : Panel ι) : Prop :=
  s.versions.Nodup ∧ ∀ v ∈ s.known, v ∈ s.stored → v ∈ s.versions

/-- A version is announced while it is not in the list, and a response is delivered that has all
existing versions of which the coordinator has been told. -/
def InOrder (s : Panel ι) : PanelAction ι → Prop
  | .announce _ v => v ∉ s.versions
  | .listed i => ∀ l ∈ s.responses[i]?, ∀ v ∈ s.known, v ∈ s.stored → v ∈ l
  | _ => True

instance (s : Panel ι) (a : PanelAction ι) : Decidable (InOrder s a) := by
  rcases a with ⟨⟩ <;> dsimp only [InOrder] <;> infer_instance

/-- No version has been heard of that was never created, and the provider's lists have no id
twice. -/
structure PanelInv (s : Panel ι) : Prop where
  stored : s.stored.Nodup
  storedCreated : s.stored ⊆ s.created
  responses : ∀ l ∈ s.responses, l.Nodup ∧ l ⊆ s.created
  known : s.known ⊆ s.created

lemma PanelInv.step {s t : Panel ι} {a : PanelAction ι} (h : PanelInv s)
    (hs : panelStep s a = some t) : PanelInv t := by
  cases a with
  | create v =>
    obtain ⟨hnew, ⟨⟩⟩ := ite_none_right_eq_some.1 hs
    constructor
    · exact nodup_cons.2 ⟨fun hv => hnew (h.storedCreated hv), h.stored⟩
    · exact cons_subset_cons v h.storedCreated
    · exact fun l hl => ⟨(h.responses l hl).1, subset_cons_of_subset v (h.responses l hl).2⟩
    · exact subset_cons_of_subset v h.known
  | delete v =>
    cases hs
    exact { h with
      stored := h.stored.filter _
      storedCreated := fun w hw => h.storedCreated (mem_of_mem_filter hw) }
  | listVersions ok =>
    cases hs
    refine { h with responses := fun l hl => ?_ }
    rcases mem_snoc.1 hl with hold | rfl
    · exact h.responses l hold
    · split_ifs
      · exact ⟨h.stored, h.storedCreated⟩
      · exact ⟨nodup_nil, nil_subset _⟩
  | listed i =>
    obtain ⟨l, hl, rfl⟩ := map_eq_some_iff.1 hs
    have hcreated := (h.responses l (mem_of_getElem? hl)).2
    exact { h with
      responses := fun l' hl' => h.responses l' (mem_of_mem_eraseIdx hl')
      known := append_subset.2 ⟨hcreated, h.known⟩ }
  | announce source v =>
    obtain ⟨⟨hv, -⟩, ⟨⟩⟩ := ite_none_right_eq_some.1 hs
    exact { h with known := cons_subset.2 ⟨hv, h.known⟩ }

lemma exact_step_iff {s t : Panel ι} {a : PanelAction ι} (h : PanelInv s) (hexact : Exact s)
    (hs : panelStep s a = some t) : Exact t ↔ InOrder s a := by
  cases a with
  | create v =>
    obtain ⟨hnew, ⟨⟩⟩ := ite_none_right_eq_some.1 hs
    refine iff_of_true ⟨hexact.1, fun w hw hstored => ?_⟩ trivial
    rcases mem_cons.1 hstored with rfl | hold
    · exact absurd (h.known hw) hnew
    · exact hexact.2 w hw hold
  | delete v =>
    cases hs
    exact iff_of_true ⟨hexact.1, fun w hw hstored => hexact.2 w hw (mem_of_mem_filter hstored)⟩
      trivial
  | listVersions ok =>
    cases hs
    exact iff_of_true hexact trivial
  | listed i =>
    obtain ⟨l, hl, rfl⟩ := map_eq_some_iff.1 hs
    constructor
    · rintro ⟨-, hall⟩ l' hl' v hv hstored
      cases hl.symm.trans hl'
      exact hall v (mem_append_right _ hv) hstored
    · intro hall
      refine ⟨(h.responses l (mem_of_getElem? hl)).1, fun v hv hstored => ?_⟩
      exact (mem_append.1 hv).elim id fun hknown => hall l hl v hknown hstored
  | announce source v =>
    obtain ⟨-, ⟨⟩⟩ := ite_none_right_eq_some.1 hs
    refine ⟨fun hnew => (nodup_cons.1 hnew.1).1, fun hnew => ⟨nodup_cons.2 ⟨hnew, hexact.1⟩, ?_⟩⟩
    intro w hw hstored
    rcases mem_cons.1 hw with rfl | hknown
    · exact mem_cons_self
    · exact mem_cons_of_mem _ (hexact.2 w hknown hstored)

/-- As long as every announcement and every response comes in order the list is exact, and the first
that does not makes it inexact. -/
theorem version_list_exact_iff {s t : Panel ι} {a : PanelAction ι}
    (hrun : Run panelStep InOrder .initial s) (hs : panelStep s a = some t) :
    Exact s ∧ (Exact t ↔ InOrder s a) := by
  have hinv : PanelInv s ∧ Exact s := by
    refine hrun.invariant (P := fun s => PanelInv s ∧ Exact s)
      ⟨⟨nodup_nil, nil_subset _, nofun, nil_subset _⟩, nodup_nil, nofun⟩ ?_
    exact fun _ _ _ h hok hs => ⟨h.1.step hs, (exact_step_iff h.1 h.2 hs).2 hok⟩
  exact ⟨hinv.2, exact_step_iff hinv.1 hinv.2 hs⟩

/-- A version that is saved and announced, then another that is listed before anything else. -/
theorem version_list_exact_two :
    ∃ s : Panel Nat, Run panelStep InOrder .initial s ∧ s.versions = [2, 1] ∧ Exact s := by
  have hrun : ∃ s : Panel Nat, Run panelStep InOrder .initial s ∧ s.versions = [2, 1] :=
    exists_run [.create 1, .announce .save 1, .create 2, .listVersions true, .listed 0]
      (by decide +kernel)
  obtain ⟨s, hs, hversions⟩ := hrun
  exact ⟨s, hs, hversions, (version_list_exact_iff hs (a := .listVersions true) rfl).1⟩

/-- A version that is announced after it was listed is in the list twice, and one that is announced
before a response that was made without it is not in the list. -/
theorem listed_version_twice_or_lost :
    (∃ s : Panel Nat, Run panelStep anyStep .initial s ∧ s.versions = [1, 1]) ∧
    ∃ s : Panel Nat, Run panelStep anyStep .initial s ∧
      1 ∈ s.known ∧ 1 ∈ s.stored ∧ s.versions = [] :=
  ⟨exists_run [.create 1, .listVersions true, .listed 0, .announce .versionCreated 1]
      (by decide +kernel),
    exists_run [.listVersions true, .create 1, .announce .versionCreated 1, .listed 0]
      (by decide +kernel)⟩

end CollabEditor.Frontend.VersionList
