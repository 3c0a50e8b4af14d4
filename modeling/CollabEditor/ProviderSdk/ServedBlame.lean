import CollabEditor.ProviderSdk.VersionBlame
import Mathlib.Data.List.Sort
import Mathlib.Data.List.MinMax
/-!
# Blame served with a version

`processGetVersion` of `provider.ts` and `process_get_version` of `provider.py`: a version without
blame gets that of the last version of the chain of those not later than it.
-/

namespace CollabEditor.ProviderSdk.Blame

open Support Tiling List Option

structure StoredVersion (γ α : Type) where
  createdAt : γ
  version : VersionEntry α
  blame : List BlameSegment
  deriving DecidableEq

structure VersionListEntry (γ : Type) where
  id : String
  createdAt : γ

structure VersionProvider (γ α : Type) where
  getVersion : Option (String → Option (StoredVersion γ α))
  listVersions : Option (List (VersionListEntry γ))

/-- What the two programs differ in: the time of a version, as far as it is one, and what the blame
takes as a newline and as the name of a creator. -/
structure Sdk (γ τ α : Type) where
  time : γ → Option τ
  newline : α
  name : Option String → String

/-- Times in microseconds, of which a `Date` keeps the milliseconds. -/
def TypeScript.sdk : Sdk (Option Int) Int UInt16 := ⟨Option.map (· / 1000), 10, creatorName⟩

/-- Times are compared as they are. -/
def Python.sdk (γ : Type) : Sdk γ γ Nat := ⟨some, 10, creatorName⟩

def VersionEntry.text {α : Type} (v : VersionEntry α) : List α := v.content.getD []

section

variable {γ τ α : Type} [LinearOrder τ]

/-- A listed version with its time, if it is not later than `last`. -/
def notLater (sdk : Sdk γ τ α) (last : Option τ) (v : VersionListEntry γ) : Option (String × τ) :=
  (sdk.time v.createdAt).bind fun t => last.bind fun last =>
    if t ≤ last then some (v.id, t) else none

def sortedVersions (sdk : Sdk γ τ α) (last : Option τ) (list : List (VersionListEntry γ)) :
    List (String × τ) :=
  (list.filterMap (notLater sdk last)).insertionSort fun a b => a.2 ≤ b.2

def fullVersions (sdk : Sdk γ τ α) (getVersion : String → Option (StoredVersion γ α))
    (list : List (VersionListEntry γ)) (entry : StoredVersion γ α) : List (StoredVersion γ α) :=
  (sortedVersions sdk (sdk.time entry.createdAt) list).filterMap fun v => getVersion v.1

def processGetVersion [DecidableEq α] (sdk : Sdk γ τ α) (provider : VersionProvider γ α)
    (versionId : String) : Option (StoredVersion γ α) :=
  provider.getVersion.bind fun getVersion =>
    (getVersion versionId).map fun entry =>
      match entry.blame, provider.listVersions with
      | [], some list =>
        match fullVersions sdk getVersion list entry with
        | [] => entry
        | full => { entry with
            blame := blameVersions sdk.newline sdk.name (full.map StoredVersion.version) }
      | _, _ => entry

/-- A listed version that is not later than `last` and can be fetched, with its time. -/
def candidate (sdk : Sdk γ τ α) (getVersion : String → Option (StoredVersion γ α))
    (last : Option τ) (v : VersionListEntry γ) : Option (StoredVersion γ α × τ) :=
  (notLater sdk last v).bind fun y => (getVersion y.1).map (·, y.2)

/-- The candidate of the greatest time, and of several of that time the one listed last. -/
def latestListed (sdk : Sdk γ τ α) (getVersion : String → Option (StoredVersion γ α))
    (last : Option τ) (list : List (VersionListEntry γ)) : Option (StoredVersion γ α × τ) :=
  (list.filterMap (candidate sdk getVersion last)).reverse.argmax Prod.snd

/-- The requested version is listed with its time, and nothing of this time that is listed behind it
can be fetched. -/
def ListedLast (sdk : Sdk γ τ α) (getVersion : String → Option (StoredVersion γ α))
    (list : List (VersionListEntry γ)) (versionId : String) (entry : StoredVersion γ α) : Prop :=
  ∃ t front v back, list = front ++ v :: back ∧ v.id = versionId ∧
    sdk.time v.createdAt = some t ∧ sdk.time entry.createdAt = some t ∧
    ∀ w ∈ back, sdk.time w.createdAt = some t → getVersion w.id = none

/-! ## The end of the chain -/

section

variable {ι β : Type} {get : ι → Option β}

/-- What is inserted into a sorted chain is its last element that can be fetched only if it is later
than the last one so far. -/
lemma getLast?_fetched_orderedInsert (y : ι × τ) {l : List (ι × τ)}
    (hl : l.Pairwise fun a b => a.2 ≤ b.2) :
    ((l.orderedInsert (fun a b => a.2 ≤ b.2) y).filterMap fun e =>
        (get e.1).map (·, e.2)).getLast? =
      match get y.1, (l.filterMap fun e => (get e.1).map (·, e.2)).getLast? with
      | none, last => last
      | some b, none => some (b, y.2)
      | some b, some c => if c.2 < y.2 then some (b, y.2) else some c := by
  induction l with
  | nil => cases h : get y.1 <;> simp [h]
  | cons z l ih =>
    obtain ⟨hz, hl⟩ := pairwise_cons.1 hl
    rw [orderedInsert_cons]
    split
    · rename_i hle
      have hlater : ∀ c ∈ (z :: l).filterMap fun e => (get e.1).map (·, e.2), ¬c.2 < y.2 := by
        simp only [mem_filterMap, map_eq_some_iff]
        rintro c ⟨e, he, b, -, rfl⟩
        rcases mem_cons.1 he with rfl | he
        · exact not_lt.2 hle
        · exact not_lt.2 (hle.trans (hz e he))
      rw [filterMap_cons]
      cases get y.1 with
      | none => rfl
      | some b =>
        cases hlast : ((z :: l).filterMap fun e => (get e.1).map (·, e.2)).getLast? with
        | none => simp [getLast?_cons, hlast]
        | some c => simp [getLast?_cons, hlast, hlater c (mem_of_getLast? hlast)]
    · rename_i hlt
      rw [filterMap_cons, filterMap_cons]
      cases get z.1 with
      | none => exact ih hl
      | some a =>
        simp only [map_some, getLast?_cons, ih hl]
        grind

lemma argmax_append_cons {m : ι × τ} {front back : List (ι × τ)} (hfront : ∀ a ∈ front, a.2 < m.2)
    (hback : ∀ a ∈ back, a.2 ≤ m.2) : (front ++ m :: back).argmax Prod.snd = some m := by
  induction front with
  | nil =>
    rw [nil_append, argmax_cons]
    cases h : back.argmax Prod.snd with
    | none => rfl
    | some c => exact if_neg (not_lt.2 (hback c (argmax_mem h)))
  | cons a front ih =>
    obtain ⟨ha, hfront⟩ := forall_mem_cons.1 hfront
    rw [cons_append, argmax_cons, ih hfront]
    exact if_pos ha

end

variable {sdk : Sdk γ τ α} {getVersion : String → Option (StoredVersion γ α)}
  {list : List (VersionListEntry γ)} {versionId : String} {entry : StoredVersion γ α}

lemma getLast?_sortedVersions (last : Option τ) :
    ((sortedVersions sdk last list).filterMap fun v => (getVersion v.1).map (·, v.2)).getLast? =
      latestListed sdk getVersion last list := by
  have htotal : Std.Total fun a b : String × τ => a.2 ≤ b.2 := ⟨fun a b => le_total a.2 b.2⟩
  have htrans : IsTrans (String × τ) fun a b => a.2 ≤ b.2 := ⟨fun _ _ _ => le_trans⟩
  induction list with
  | nil => rfl
  | cons v list ih =>
    rw [sortedVersions, latestListed, filterMap_cons, filterMap_cons, candidate]
    cases hv : notLater sdk last v with
    | none => exact ih
    | some y =>
      have hsorted := pairwise_insertionSort (fun a b : String × τ => a.2 ≤ b.2)
        (list.filterMap (notLater sdk last))
      simp only [insertionSort_cons, getLast?_fetched_orderedInsert y hsorted]
      rw [← sortedVersions, ih, latestListed]
      cases hget : getVersion y.1 with
      | none => simp [hget]
      | some b =>
        simp only [bind_some, hget, map_some, reverse_cons, argmax_concat]
        cases ((list.filterMap (candidate sdk getVersion last)).reverse.argmax Prod.snd) <;> rfl

lemma ListedLast.latestListed_eq (h : ListedLast sdk getVersion list versionId entry)
    (hentry : getVersion versionId = some entry) :
    ∃ t, latestListed sdk getVersion (sdk.time entry.createdAt) list = some (entry, t) := by
  obtain ⟨t, front, v, back, rfl, rfl, hv, ht, hback⟩ := h
  have hself : candidate sdk getVersion (some t) v = some (entry, t) := by
    simp [candidate, notLater, hv, hentry]
  have hle {w : VersionListEntry γ} {c : StoredVersion γ α × τ}
      (hc : candidate sdk getVersion (some t) w = some c) :
      sdk.time w.createdAt = some c.2 ∧ c.2 ≤ t ∧ getVersion w.id = some c.1 := by
    obtain ⟨y, hy, hc⟩ := bind_eq_some_iff.1 hc
    obtain ⟨r, hr, hy⟩ := bind_eq_some_iff.1 hy
    obtain ⟨hle, rfl⟩ := ite_some_none_eq_some.1 hy
    obtain ⟨b, hb, rfl⟩ := map_eq_some_iff.1 hc
    exact ⟨hr, hle, hb⟩
  refine ⟨t, ?_⟩
  rw [ht, latestListed, filterMap_append, filterMap_cons_some hself, reverse_append, reverse_cons,
    append_assoc]
  refine argmax_append_cons (fun c hc => ?_) fun c hc => ?_
  · obtain ⟨w, hw, hc⟩ := mem_filterMap.1 (mem_reverse.1 hc)
    obtain ⟨htime, hle, hget⟩ := hle hc
    refine hle.lt_of_ne fun heq => ?_
    rw [hback w hw (heq ▸ htime)] at hget
    cases hget
  · obtain ⟨w, -, hc⟩ := mem_filterMap.1 (mem_reverse.1 hc)
    exact (hle hc).2.1

theorem served_blame_tiles [DecidableEq α] (sdk : Sdk γ τ α)
    (getVersion : String → Option (StoredVersion γ α)) (list : List (VersionListEntry γ))
    (versionId : String) (entry latest : StoredVersion γ α) (t : τ)
    (hentry : getVersion versionId = some entry) (hblame : entry.blame = [])
    (hlatest : latestListed sdk getVersion (sdk.time entry.createdAt) list = some (latest, t)) :
    ∃ served, processGetVersion sdk ⟨some getVersion, some list⟩ versionId = some served ∧
      served.version = entry.version ∧
      (Tiles (served.blame.map BlameSegment.span) served.version.text.length ↔
        latest.version.text.length = served.version.text.length) ∧
      (ListedLast sdk getVersion list versionId entry →
        Tiles (served.blame.map BlameSegment.span) served.version.text.length) := by
  have hchain : (fullVersions sdk getVersion list entry).getLast? = some latest := by
    rw [← getLast?_sortedVersions] at hlatest
    simpa [fullVersions, map_filterMap, Function.comp_def] using
      congrArg (Option.map Prod.fst) hlatest
  have hserved : processGetVersion sdk ⟨some getVersion, some list⟩ versionId = some { entry with
      blame := blameVersions sdk.newline sdk.name
        ((fullVersions sdk getVersion list entry).map StoredVersion.version) } := by
    simp only [processGetVersion, bind_some, hentry, map_some, hblame]
    split
    · rename_i hnil
      rw [hnil] at hchain
      cases hchain
    · rfl
  have htiles := tiles_blameVersions sdk.newline sdk.name
    ((fullVersions sdk getVersion list entry).map StoredVersion.version)
  rw [finalContent, getLast?_map, hchain] at htiles
  refine ⟨_, hserved, rfl, ⟨fun h => htiles.unique h, fun h => h ▸ htiles⟩, fun hlast => ?_⟩
  obtain ⟨t', hlast⟩ := hlast.latestListed_eq hentry
  cases hlatest.symm.trans hlast
  exact htiles

end

/-! ## Versions of one time -/

def twoVersions {γ α : Type} (first second : γ) (a : α) (id : String) :
    Option (StoredVersion γ α) :=
  if id = "v1" then some ⟨first, ⟨some [a], some "ann"⟩, []⟩
  else if id = "v2" then some ⟨second, ⟨some [a, a], some "bob"⟩, []⟩
  else none

theorem served_blame_tiles_second : ∃ served, processGetVersion TypeScript.sdk
    ⟨some (twoVersions (some 1000) (some 2000) 97),
          some [⟨"v2", some 2000⟩, ⟨"v1", some 1000⟩]⟩ "v2" = some served ∧
      Tiles (served.blame.map BlameSegment.span) 2 := by
  obtain ⟨served, hserved, hversion, -, htiles⟩ := served_blame_tiles TypeScript.sdk
    (twoVersions (some 1000) (some 2000) 97) [⟨"v2", some 2000⟩, ⟨"v1", some 1000⟩] "v2"
    ⟨some 2000, ⟨some [97, 97], some "bob"⟩, []⟩ ⟨some 2000, ⟨some [97, 97], some "bob"⟩, []⟩ 2
    rfl rfl (by decide +kernel)
  rw [hversion] at htiles
  exact ⟨served, hserved, htiles ⟨2, [], _, [⟨"v1", some 1000⟩], rfl, rfl, rfl, rfl, by decide⟩⟩

/-- The second version is 400 microseconds later, or has the same time. -/
theorem served_blame_of_other_version : (processGetVersion TypeScript.sdk
    ⟨some (twoVersions (some 1000) (some 1400) 97),
          some [⟨"v1", some 1000⟩, ⟨"v2", some 1400⟩]⟩ "v1").map
        (fun served => (served.version.text, served.blame)) = some ([97], [⟨0, 2, "bob"⟩]) ∧
    (processGetVersion (Python.sdk Nat)
        ⟨some (twoVersions 1000 1000 97), some [⟨"v1", 1000⟩, ⟨"v2", 1000⟩]⟩ "v1").map
        (fun served => (served.version.text, served.blame)) = some ([97], [⟨0, 2, "bob"⟩]) := by
  decide +kernel

end CollabEditor.ProviderSdk.Blame
