import Mathlib.Data.List.Chain
import CollabEditor.StorageDemo.FileStore
/-!
# Versions that are created automatically

While auto-versioning is on, `Store` of `internal/storagedemo/store.go` creates a version unless its
content is that of the latest version on disk, by the times in their files.  Calls are recorded with
the versions they create.  A content is read from its file as it was written.
-/

namespace CollabEditor.StorageDemo

open Support.Execution List Option Function Nat

variable {K : Type}

structure CreatedVersion (K : Type) where
  auto : Bool
  content : List K
  deriving DecidableEq

/-- The calls on a store with, for each document, the versions that were created, the newest
first. -/
structure VersionHistory (K : Type) where
  history : StoreHistory K
  created : DocID → List (CreatedVersion K)

namespace VersionHistory

def initial (seeds : DocID → Option (List K)) (autoVersion : Bool) : VersionHistory K :=
  ⟨.initial seeds autoVersion, fun _ => []⟩

variable [DecidableEq K]

/-- The version that a call creates, as its response tells. -/
def creates (fs : FileStore K) : FileStoreCall K → Option (DocID × CreatedVersion K)
  | .store docID now req =>
    match (fs.store docID now req).2 with
    | .ok ⟨_, some _⟩ => some (docID, ⟨true, req.content⟩)
    | _ => none
  | .createVersion docID now id content =>
    match (fs.createVersion docID now id content).2 with
    | .ok _ => some (docID, ⟨false, content⟩)
    | .error _ => none
  | .setAutoVersion _ => none

def record (created : DocID → List (CreatedVersion K)) :
    Option (DocID × CreatedVersion K) → DocID → List (CreatedVersion K)
  | none => created
  | some (docID, version) => update created docID (version :: created docID)

def step (s : VersionHistory K) (a : FileStoreCall K) : Option (VersionHistory K) :=
  (s.history.step a).map fun t => ⟨t, record s.created (creates s.history.fs a)⟩

end VersionHistory

/-! ## The latest version -/

/-- The versions of a document stand in the order in which they were created, the last one has the
content of the one created last, and none was created automatically with the content of the one
before. -/
structure VersionsInv (versions : List (VersionEntry K)) (clock : Nat)
    (created : List (CreatedVersion K)) : Prop where
  times : versions.Pairwise fun a b => a.createdAt < b.createdAt
  ids : (versions.map (·.id)).Nodup
  past : ∀ e ∈ versions, e.createdAt ≤ clock
  latest : versions.getLast?.map (·.content) = created.head?.map (·.content)
  differ : created.IsChain fun newer older => newer.auto → newer.content ≠ older.content

namespace VersionsInv

variable {f : DocumentFiles K} {clock now : Nat} {created : List (CreatedVersion K)}
  (h : VersionsInv f.versions clock created)
include h

lemma mono (hle : clock ≤ now) : VersionsInv f.versions now created :=
  { h with past := fun e he => le_trans (h.past e he) hle }

lemma createVersion {id : Nat} {version : CreatedVersion K} (hlt : clock < now)
    (hdiffer : version.auto → ∀ older ∈ created.head?, version.content ≠ older.content) :
    VersionsInv (f.createVersion ⟨id, now, version.content⟩).versions now (version :: created) where
  times := by
    refine pairwise_append.2 ⟨h.times.filter _, pairwise_singleton _ _, fun e he e' he' => ?_⟩
    obtain rfl := mem_singleton.1 he'
    exact lt_of_le_of_lt (h.past e (mem_of_mem_filter he)) hlt
  ids := by
    rw [DocumentFiles.createVersion, map_append, nodup_append]
    refine ⟨h.ids.sublist (filter_sublist.map _), nodup_singleton _, ?_⟩
    intro id hid id' hid'
    obtain ⟨e, he, rfl⟩ := List.mem_map.1 hid
    obtain rfl := mem_singleton.1 hid'
    simpa using (mem_filter.1 he).2
  past e he := by
    rcases mem_snoc.1 he with hold | rfl
    · exact le_trans (h.past e (mem_of_mem_filter hold)) (le_of_lt hlt)
    · exact le_refl _
  latest := by simp [DocumentFiles.createVersion]
  differ := h.differ.cons fun older hold hauto => hdiffer hauto older hold

lemma head_sort {front rest : List (VersionEntry K)} {first entry : VersionEntry K}
    (hversions : f.versions = front ++ [entry])
    (hsort : f.readDir.insertionSort (fun a b => b.createdAt ≤ a.createdAt) = first :: rest) :
    first = entry := by
  have htotal : Std.Total fun a b : VersionEntry K => b.createdAt ≤ a.createdAt :=
    ⟨fun a b => le_total b.createdAt a.createdAt⟩
  have htrans : IsTrans (VersionEntry K) fun a b => b.createdAt ≤ a.createdAt :=
    ⟨fun _ _ _ hab hbc => le_trans hbc hab⟩
  have hsorted := pairwise_insertionSort (fun a b => b.createdAt ≤ a.createdAt) f.readDir
  have hmem {e : VersionEntry K} : e ∈ first :: rest ↔ e ∈ front ++ [entry] := by
    rw [← hsort, ← hversions, mem_insertionSort, DocumentFiles.readDir, mem_insertionSort]
  have htimes := h.times
  rw [hsort] at hsorted
  rw [hversions] at htimes
  rcases mem_append.1 (hmem.1 mem_cons_self) with hfront | hlast
  · -- the last version would come before it
    have hlt := (pairwise_append.1 htimes).2.2 first hfront entry (by simp)
    rcases mem_cons.1 (hmem.2 (by simp : entry ∈ front ++ [entry])) with rfl | hrest
    · rfl
    · have hle := rel_of_pairwise_cons hsorted hrest
      omega
  · exact mem_singleton.1 hlast

lemma contentMatches_iff [DecidableEq K] {content : List K} :
    f.contentMatchesLatestVersion content ↔ ∃ v ∈ created.head?, v.content = content := by
  have hlatest : (∃ e ∈ f.versions.getLast?, e.content = content) ↔
      ∃ v ∈ created.head?, v.content = content := by
    rw [← Option.mem_map, ← Option.mem_map, h.latest]
  rw [← hlatest]
  rcases eq_nil_or_concat' f.versions with hnil | ⟨front, entry, hversions⟩
  · simp [DocumentFiles.contentMatchesLatestVersion, DocumentFiles.readDir, hnil]
  · rw [DocumentFiles.contentMatchesLatestVersion]
    split
    · rename_i hempty
      have hlen := congrArg length hempty
      simp [DocumentFiles.readDir, hversions] at hlen
    · rename_i first rest hsort
      obtain rfl := h.head_sort hversions hsort
      have hfind : f.versions.find? (fun e => e.id = first.id) = some first := by
        have hids := h.ids
        rw [hversions, map_append, nodup_append] at hids
        rw [hversions, find?_append, find?_eq_none.2, none_or, find?_cons_of_pos (by simp)]
        intro e he
        simpa using hids.2.2 e.id (mem_map_of_mem he) first.id (by simp)
      rw [hfind, hversions, getLast?_append]
      simp

end VersionsInv

/-! ## Runs -/

section

variable [DecidableEq K] {s t : StoreHistory K} {a : FileStoreCall K}

lemma versions_of_step (hs : s.step a = some t) : s.clock ≤ t.clock ∧
    ((VersionHistory.creates s.fs a = none ∧
        ∀ d, (t.fs.documents d).versions = (s.fs.documents d).versions) ∨
      ∃ docID version id, VersionHistory.creates s.fs a = some (docID, version) ∧
        s.clock < t.clock ∧ (version.auto →
          ¬ (s.fs.documents docID).contentMatchesLatestVersion version.content) ∧
        ∀ d, (t.fs.documents d).versions = if d = docID then
          ((s.fs.documents d).createVersion ⟨id, t.clock, version.content⟩).versions
          else (s.fs.documents d).versions) := by
  cases a with
  | store docID now req =>
    obtain ⟨hnow, ⟨⟩⟩ := ite_none_right_eq_some.1 hs
    refine ⟨le_of_lt hnow, ?_⟩
    simp only [VersionHistory.creates, FileStore.store, StoreHistory.wrote]
    split_ifs with hvalid hempty hauto
    · exact .inl ⟨rfl, fun _ => rfl⟩
    · refine .inr ⟨docID, ⟨true, req.content⟩, req.entryID, rfl, hnow, fun _ => ?_, fun d => ?_⟩
      · have hmatch := Bool.not_eq_true_eq_eq_false _ ▸ (Bool.and_eq_true_iff.1 hauto).2
        exact Bool.eq_false_iff.1 hmatch
      · by_cases hd : d = docID
        · subst hd
          simp [FileStore.setDocument, DocumentFiles.createVersion, DocumentFiles.appendPointer]
        · simp [FileStore.setDocument, hd]
    · refine .inl ⟨rfl, fun d => ?_⟩
      by_cases hd : d = docID
      · subst hd
        simp [FileStore.setDocument, DocumentFiles.appendPointer]
      · simp [FileStore.setDocument, hd]
    · exact .inl ⟨rfl, fun _ => rfl⟩
  | createVersion docID now id content =>
    obtain ⟨hnow, ⟨⟩⟩ := ite_none_right_eq_some.1 hs
    refine ⟨le_of_lt hnow, ?_⟩
    simp only [VersionHistory.creates, FileStore.createVersion, StoreHistory.wrote]
    split_ifs with hvalid
    · refine .inr ⟨docID, ⟨false, content⟩, id, rfl, hnow, by simp, fun d => ?_⟩
      by_cases hd : d = docID
      · subst hd
        simp [FileStore.setDocument]
      · simp [FileStore.setDocument, hd]
    · exact .inl ⟨rfl, fun _ => rfl⟩
  | setAutoVersion enabled =>
    cases hs
    exact ⟨le_refl _, .inl ⟨rfl, fun _ => rfl⟩⟩

end

def AllVersionsInv (s : VersionHistory K) : Prop :=
  ∀ d, VersionsInv (s.history.fs.documents d).versions s.history.clock (s.created d)

lemma AllVersionsInv.step [DecidableEq K] {s t : VersionHistory K} {a : FileStoreCall K}
    (h : AllVersionsInv s) (hs : s.step a = some t) : AllVersionsInv t := by
  obtain ⟨u, hu, rfl⟩ := map_eq_some_iff.1 hs
  intro d
  obtain ⟨hclock, ⟨hnone, hsame⟩ | ⟨docID, version, id, hsome, hlt, hauto, hversions⟩⟩ :=
    versions_of_step hu
  · simp only [hnone, hsame, VersionHistory.record]
    exact (h d).mono hclock
  · simp only [hsome, hversions, VersionHistory.record]
    by_cases hd : d = docID
    · subst hd
      rw [if_pos rfl, update_self]
      refine (h d).createVersion hlt fun hnew older hold hcontent => hauto hnew ?_
      exact (h d).contentMatches_iff.2 ⟨older, hold, hcontent.symm⟩
    · rw [if_neg hd, update_of_ne hd]
      exact (h d).mono hclock

/-- In every sequence of calls under a clock that goes on with each, `Store` with auto-versioning on
creates a version exactly if its content is not that of the version created last. -/
theorem auto_versions_differ [DecidableEq K] (seeds : DocID → Option (List K)) (autoVersion : Bool)
    {s : VersionHistory K} (hrun : Run VersionHistory.step anyStep (.initial seeds autoVersion) s) :
    (∀ docID, (s.created docID).IsChain fun newer older =>
      newer.auto → newer.content ≠ older.content) ∧
    ∀ docID now req, validateDocID docID → s.history.fs.autoVersion → req.content ≠ [] →
      (VersionHistory.creates s.history.fs (.store docID now req) =
          some (docID, ⟨true, req.content⟩) ↔
        ∀ v ∈ (s.created docID).head?, v.content ≠ req.content) ∧
      ((∃ v ∈ (s.created docID).head?, v.content = req.content) →
        VersionHistory.creates s.history.fs (.store docID now req) = none) := by
  have h : AllVersionsInv s :=
    hrun.invariant (fun _ => ⟨.nil, nodup_nil, (fun _ h => absurd h not_mem_nil), rfl, .nil⟩)
      fun _ _ _ h _ hs => h.step hs
  refine ⟨fun docID => (h docID).differ, fun docID now req hvalid hauto hcontent => ?_⟩
  have hmatches : ((s.history.fs.documents docID).appendPointer now req.versionID
      req.content).contentMatchesLatestVersion req.content ↔ _ := (h docID).contentMatches_iff
  simp only [VersionHistory.creates, FileStore.store, if_pos hvalid, if_neg hcontent, hauto,
    Bool.true_and, Bool.not_eq_true']
  by_cases hmatch : ∃ v ∈ (s.created docID).head?, v.content = req.content
  · rw [if_neg (by simpa using hmatches.2 hmatch)]
    obtain ⟨v, hv, hsame⟩ := hmatch
    exact ⟨⟨by simp, fun hdiffer => absurd hsame (hdiffer v hv)⟩, fun _ => rfl⟩
  · rw [if_pos (by simpa using mt hmatches.1 hmatch)]
    exact ⟨⟨fun _ v hv hsame => hmatch ⟨v, hv, hsame⟩, fun _ => rfl⟩,
      fun hsame => absurd hsame hmatch⟩

/-- A text is stored twice, a version of another one is created, and that one is stored: two
versions. -/
theorem auto_versions_differ_twice :
    ∃ s : VersionHistory Nat, Run VersionHistory.step anyStep (.initial (fun _ => none) true) s ∧
      s.created ['d'] = [⟨false, [2]⟩, ⟨true, [1]⟩] ∧
      (VersionHistory.creates s.history.fs (.store ['d'] 9 ⟨[1], 1, 13, 23⟩) =
        some (['d'], ⟨true, [1]⟩)) := by
  have hrun : ∃ s : VersionHistory Nat,
      Run VersionHistory.step anyStep (.initial (fun _ => none) true) s ∧
      s.created ['d'] = [⟨false, [2]⟩, ⟨true, [1]⟩] ∧ s.history.fs.autoVersion = true :=
    exists_run [.store ['d'] 1 ⟨[1], 1, 10, 20⟩, .store ['d'] 2 ⟨[1], 1, 11, 21⟩,
      .createVersion ['d'] 3 22 [2], .store ['d'] 4 ⟨[2], 1, 12, 23⟩] (by decide +kernel)
  obtain ⟨s, hs, hcreated, hauto⟩ := hrun
  have h := (auto_versions_differ _ _ hs).2 ['d'] 9 ⟨[1], 1, 13, 23⟩ (by decide) hauto (by decide)
  exact ⟨s, hs, hcreated, h.1.2 (by simp [hcreated])⟩

end CollabEditor.StorageDemo
