import CollabEditor.ProviderSdk.DocCache
import CollabEditor.Support.OrderedMap
import Mathlib.Logic.Function.Basic
/-!
# Least recently used

`DocCache` of `engine.ts` deletes an entry and sets it again, that of `cache.py` moves it to the
end.  Both do what the cache of `DocCache` does, whose entries stand in the order of their last use.
-/

namespace CollabEditor.ProviderSdk

open Support OrderedMap List Function

variable {α : Type}

inductive CacheCall (α : Type)
  | get (documentId : String)
  | set (documentId : String) (doc : α)
  | delete (documentId : String)

namespace TypeScript

def get (cache : List (String × α)) (documentId : String) : Option α × List (String × α) :=
  match OrderedMap.get cache documentId with
  | none => (none, cache)
  | some doc => (some doc, put (erase cache documentId) documentId doc)

def evict : List (String × α) → List (String × α)
  | [] => []
  | e :: rest => erase (e :: rest) e.1

def set (maxSize : Nat) (cache : List (String × α)) (documentId : String) (doc : α) :
    List (String × α) :=
  put (if documentId ∈ keys cache then erase cache documentId
    else if cache.length ≥ maxSize then evict cache
    else cache) documentId doc

def call (maxSize : Nat) (cache : List (String × α)) : CacheCall α → List (String × α)
  | .get documentId => (get cache documentId).2
  | .set documentId doc => set maxSize cache documentId doc
  | .delete documentId => erase cache documentId

end TypeScript

namespace Python

def get (cache : List (String × α)) (documentId : String) : Option α × List (String × α) :=
  if documentId ∈ keys cache then
    (OrderedMap.get (moveToEnd cache documentId) documentId, moveToEnd cache documentId)
  else (none, cache)

def set (maxSize : Nat) (cache : List (String × α)) (documentId : String) (doc : α) :
    List (String × α) :=
  if documentId ∈ keys cache then put (moveToEnd cache documentId) documentId doc
  else put (if cache.length ≥ maxSize then cache.tail else cache) documentId doc

def call (maxSize : Nat) (cache : List (String × α)) : CacheCall α → List (String × α)
  | .get documentId => (get cache documentId).2
  | .set documentId doc => set maxSize cache documentId doc
  | .delete documentId => erase cache documentId

end Python

/-! ## Both are the same cache -/

namespace DocCache

variable {c : DocCache α} {k : String}

def delete (c : DocCache α) (documentId : String) : DocCache α where
  entries := erase c.entries documentId
  maxSize := c.maxSize
  nodup := (List.filter_sublist.map Prod.fst).nodup c.nodup
  bounded := Nat.le_trans (List.length_filter_le _ _) c.bounded
  positive := c.positive

def call (c : DocCache α) : CacheCall α → DocCache α
  | .get documentId => (c.get documentId).2
  | .set documentId doc => c.set documentId doc
  | .delete documentId => c.delete documentId

lemma evict_eq_tail (c : DocCache α) : TypeScript.evict c.entries = c.entries.tail := by
  have hnodup := c.nodup
  cases hentries : c.entries with
  | nil => rfl
  | cons e rest =>
    rw [hentries, map_cons, nodup_cons] at hnodup
    rw [TypeScript.evict, erase, filter_cons_of_neg (by simp)]
    exact erase_of_not_mem hnodup.1

lemma typeScript_set (c : DocCache α) (k : String) (doc : α) :
    TypeScript.set c.maxSize c.entries k doc = (c.set k doc).entries := by
  rw [TypeScript.set, c.evict_eq_tail]
  exact put_of_not_mem (c.not_mem_kept k) doc

lemma python_set (c : DocCache α) (k : String) (doc : α) :
    Python.set c.maxSize c.entries k doc = (c.set k doc).entries := by
  have hnot := c.not_mem_kept k
  unfold Python.set
  split
  · rename_i hmem
    obtain ⟨old, hold⟩ := exists_get_of_mem hmem
    change _ = c.kept k ++ [(k, doc)]
    rw [moveToEnd, hold, kept, if_pos hmem]
    exact put_append_singleton (not_mem_keys_erase c.entries k) old doc
  · rename_i hmem
    change _ = c.kept k ++ [(k, doc)]
    rw [kept, if_neg hmem] at hnot ⊢
    exact put_of_not_mem hnot doc

lemma get_eq (c : DocCache α) (k : String) :
    TypeScript.get c.entries k = ((c.get k).1, (c.get k).2.entries) ∧
      Python.get c.entries k = ((c.get k).1, (c.get k).2.entries) := by
  unfold TypeScript.get Python.get DocCache.get
  cases hget : c.lookup k with
  | none =>
    have hnone : OrderedMap.get c.entries k = none := hget
    rw [hnone, if_neg (not_mem_keys_of_get hnone)]
    exact ⟨rfl, rfl⟩
  | some doc =>
    have hsome : OrderedMap.get c.entries k = some doc := hget
    have hmem := mem_keys_of_get hsome
    have hnot := not_mem_keys_erase c.entries k
    have hset : (c.set k doc).entries = erase c.entries k ++ [(k, doc)] := by
      change c.kept k ++ [(k, doc)] = _
      rw [kept, if_pos hmem]
      rfl
    rw [hsome, if_pos hmem, moveToEnd, hsome]
    dsimp only
    rw [put_of_not_mem hnot, get_append_singleton hnot, hset]
    exact ⟨rfl, rfl⟩

lemma call_eq (c : DocCache α) (a : CacheCall α) :
    TypeScript.call c.maxSize c.entries a = (c.call a).entries ∧
      Python.call c.maxSize c.entries a = (c.call a).entries := by
  cases a with
  | get k => exact ⟨congrArg Prod.snd (c.get_eq k).1, congrArg Prod.snd (c.get_eq k).2⟩
  | set k doc => exact ⟨c.typeScript_set k doc, c.python_set k doc⟩
  | delete k => exact ⟨rfl, rfl⟩

end DocCache

/-! ## Recency -/

/-- The last doc set for each id, the time of its last use, and the time. -/
structure Usage (α : Type) where
  lastSet : String → Option α
  lastUse : String → Nat
  clock : Nat

def Usage.call (u : Usage α) (present : List String) : CacheCall α → Usage α
  | .get k =>
    ⟨u.lastSet, if k ∈ present then update u.lastUse k u.clock else u.lastUse, u.clock + 1⟩
  | .set k doc =>
    ⟨update u.lastSet k (some doc), update u.lastUse k u.clock, u.clock + 1⟩
  | .delete _ => ⟨u.lastSet, u.lastUse, u.clock + 1⟩

structure Caches (α : Type) where
  typeScript : List (String × α)
  python : List (String × α)
  usage : Usage α

def Caches.call (maxSize : Nat) (s : Caches α) (a : CacheCall α) : Caches α :=
  ⟨TypeScript.call maxSize s.typeScript a, Python.call maxSize s.python a,
    s.usage.call (keys s.typeScript) a⟩

def Caches.run (maxSize : Nat) (calls : List (CacheCall α)) : Caches α :=
  calls.foldl (Caches.call maxSize) ⟨[], [], ⟨fun _ => none, fun _ => 0, 0⟩⟩

/-- The same entries with the docs last set, which `get` returns. A call adds the id that it sets
and takes away the one that it deletes; only when a new id is set in a full cache another one
leaves, and this is the one whose last use is oldest. -/
structure IsLru (maxSize : Nat) (s : Caches α) : Prop where
  same : s.typeScript = s.python
  distinct : (keys s.typeScript).Nodup
  bounded : s.typeScript.length ≤ maxSize
  lastSet : ∀ e ∈ s.typeScript, s.usage.lastSet e.1 = some e.2
  gets : ∀ k, (TypeScript.get s.typeScript k).1 = (Python.get s.python k).1 ∧
    (Python.get s.python k).1 = if k ∈ keys s.typeScript then s.usage.lastSet k else none
  stored : ∀ k doc, (TypeScript.get (TypeScript.set maxSize s.typeScript k doc) k).1 = some doc ∧
    (Python.get (Python.set maxSize s.python k doc) k).1 = some doc
  kept : ∀ a, (∀ k doc, a = .set k doc → k ∉ keys s.typeScript → s.typeScript.length < maxSize) →
    ∀ id, id ∈ keys (TypeScript.call maxSize s.typeScript a) ↔
      (id ∈ keys s.typeScript ∧ a ≠ .delete id) ∨ ∃ doc, a = .set id doc
  evicted : ∀ k doc, k ∉ keys s.typeScript → s.typeScript.length = maxSize →
    ∃ oldest ∈ keys s.typeScript, (∀ other ∈ keys s.typeScript, other ≠ oldest →
        s.usage.lastUse oldest < s.usage.lastUse other) ∧
      ∀ id, id ∈ keys (TypeScript.call maxSize s.typeScript (.set k doc)) ↔
        id = k ∨ (id ∈ keys s.typeScript ∧ id ≠ oldest)

structure Recent (c : DocCache α) (u : Usage α) : Prop where
  sorted : c.entries.Pairwise fun a b => u.lastUse a.1 < u.lastUse b.1
  past : ∀ e ∈ c.entries, u.lastUse e.1 < u.clock
  last : ∀ e ∈ c.entries, u.lastSet e.1 = some e.2

namespace Recent

variable {c d : DocCache α} {u : Usage α} {a : CacheCall α}

lemma of_sublist (h : Recent c u) (hsub : List.Sublist d.entries c.entries) :
    Recent d { u with clock := u.clock + 1 } :=
  ⟨h.sorted.sublist hsub, fun e he => Nat.lt_succ_of_lt (h.past e (hsub.subset he)),
    fun e he => h.last e (hsub.subset he)⟩

lemma touch (h : Recent c u) {k : String} {doc : α} {lastSet : String → Option α}
    (hk : lastSet k = some doc) (hother : ∀ id ≠ k, lastSet id = u.lastSet id) :
    Recent (c.set k doc) ⟨lastSet, update u.lastUse k u.clock, u.clock + 1⟩ := by
  have hsub := c.kept_sublist k
  have hne : ∀ e ∈ c.kept k, e.1 ≠ k := fun e => ne_of_not_mem_keys (c.not_mem_kept k)
  have huse : ∀ e ∈ c.kept k, update u.lastUse k u.clock e.1 = u.lastUse e.1 := fun e he =>
    update_of_ne (hne e he) _ _
  refine ⟨pairwise_append.2 ⟨?_, pairwise_singleton _ _, ?_⟩, ?_, ?_⟩ <;> dsimp only
  · refine (h.sorted.sublist hsub).imp_of_mem fun ha hb hlt => ?_
    rwa [huse _ ha, huse _ hb]
  · intro a ha b hb
    obtain rfl := mem_singleton.1 hb
    rw [huse a ha, update_self]
    exact h.past a (hsub.subset ha)
  · intro e he
    rcases mem_append.1 he with he | he
    · rw [huse e he]
      exact Nat.lt_succ_of_lt (h.past e (hsub.subset he))
    · obtain rfl := mem_singleton.1 he
      rw [update_self]
      exact Nat.lt_succ_self _
  · intro e he
    rcases mem_append.1 he with he | he
    · exact (hother e.1 (hne e he)).trans (h.last e (hsub.subset he))
    · obtain rfl := mem_singleton.1 he
      exact hk

lemma call (h : Recent c u) (a : CacheCall α) : Recent (c.call a) (u.call (keys c.entries) a) := by
  cases a with
  | get k =>
    rw [Usage.call, DocCache.call, DocCache.get]
    cases hget : c.lookup k with
    | none =>
      rw [if_neg (not_mem_keys_of_get hget)]
      exact h.of_sublist (List.Sublist.refl _)
    | some doc =>
      rw [if_pos (mem_keys_of_get hget)]
      exact h.touch (h.last (k, doc) (mem_of_get hget)) fun _ _ => rfl
  | set k doc =>
    exact h.touch (update_self ..) fun id hid => update_of_ne hid _ _
  | delete k => exact h.of_sublist filter_sublist

lemma evicted (h : Recent c u) {k : String} (doc : α) (hk : k ∉ keys c.entries)
    (hfull : c.entries.length = c.maxSize) :
    ∃ oldest ∈ keys c.entries,
      (∀ other ∈ keys c.entries, other ≠ oldest → u.lastUse oldest < u.lastUse other) ∧
      ∀ id, id ∈ keys (c.set k doc).entries ↔ id = k ∨ (id ∈ keys c.entries ∧ id ≠ oldest) := by
  obtain ⟨e, rest, hentries⟩ := exists_cons_of_length_pos (hfull ▸ c.positive)
  have hnodup := c.nodup
  have hsorted := h.sorted
  have hkept : c.kept k = rest := by
    rw [DocCache.kept, if_neg hk, if_pos (Nat.le_of_eq hfull.symm), hentries, tail_cons]
  change ∃ oldest ∈ _, _ ∧ ∀ id, id ∈ keys (c.kept k ++ [(k, doc)]) ↔ _
  rw [hkept]
  rw [hentries, map_cons, nodup_cons] at hnodup
  rw [hentries, pairwise_cons] at hsorted
  rw [hentries] at hk ⊢
  refine ⟨e.1, by simp, fun other hother hne => ?_, fun id => ?_⟩
  · obtain ⟨e', he', rfl⟩ := mem_map.1 hother
    rcases mem_cons.1 he' with rfl | he'
    · exact absurd rfl hne
    · exact hsorted.1 e' he'
  · have hne : id ∈ rest.map Prod.fst → id ≠ e.1 := fun h heq => hnodup.1 (heq ▸ h)
    simp only [OrderedMap.keys, map_append, mem_append, map_cons, map_nil, mem_cons, not_mem_nil,
      or_false]
    grind

end Recent

/-! ## Runs -/

section

variable {c : DocCache α} {maxSize : Nat} {s : Caches α} {id k : String}

lemma DocCache.fst_get (c : DocCache α) (k : String) : (c.get k).1 = c.lookup k := by
  rw [DocCache.get]
  cases c.lookup k <;> rfl

lemma DocCache.mem_keys_set (hk : k ∉ keys c.entries → c.entries.length < c.maxSize) (doc : α) :
    id ∈ keys (c.set k doc).entries ↔ id ∈ keys c.entries ∨ id = k := by
  change id ∈ (c.kept k ++ [(k, doc)]).map Prod.fst ↔ _
  rw [map_append, mem_append, map_singleton, mem_singleton]
  by_cases hsame : id = k
  · simp only [hsame, or_true]
  · simp only [hsame, or_false]
    refine ⟨fun hid => ((c.kept_sublist k).map Prod.fst).subset hid, fun hid => ?_⟩
    rw [kept]
    split
    · obtain ⟨e, he, rfl⟩ := mem_map.1 hid
      exact mem_map_of_mem (mem_filter.2 ⟨he, by simpa using hsame⟩)
    · rename_i hnew
      rw [if_neg (Nat.not_le_of_lt (hk hnew))]
      exact hid

lemma DocCache.mem_keys_call {a : CacheCall α}
    (h : ∀ k doc, a = .set k doc → k ∉ keys c.entries → c.entries.length < c.maxSize) :
    id ∈ keys (c.call a).entries ↔
      (id ∈ keys c.entries ∧ a ≠ .delete id) ∨ ∃ doc, a = .set id doc := by
  cases a with
  | get k =>
    simp only [ne_eq, reduceCtorEq, not_false_eq_true, and_true, exists_false, or_false]
    rw [call, DocCache.get]
    cases hget : c.lookup k with
    | none => rfl
    | some doc =>
      have hk := mem_keys_of_get hget
      rw [mem_keys_set fun hnot => absurd hk hnot]
      exact or_iff_left_of_imp fun heq => heq ▸ hk
  | set k doc =>
    rw [call, mem_keys_set (h k doc rfl)]
    simp [eq_comm]
  | delete k =>
    constructor
    · intro hid
      obtain ⟨e, he, rfl⟩ := mem_map.1 hid
      obtain ⟨he, hne⟩ := mem_filter.1 he
      exact .inl ⟨mem_map_of_mem he,
        fun heq => of_decide_eq_true hne (CacheCall.delete.inj heq).symm⟩
    · rintro (⟨hid, hne⟩ | ⟨doc, ⟨⟩⟩)
      obtain ⟨e, he, rfl⟩ := mem_map.1 hid
      exact mem_map_of_mem (mem_filter.2 ⟨he, decide_eq_true fun heq => hne (heq ▸ rfl)⟩)

/-- The two caches are the entries of one cache in the order of their last use. -/
def Tracks (maxSize : Nat) (s : Caches α) (c : DocCache α) : Prop :=
  c.maxSize = maxSize ∧ s.typeScript = c.entries ∧ s.python = c.entries ∧ Recent c s.usage

lemma DocCache.maxSize_call (c : DocCache α) (a : CacheCall α) :
    (c.call a).maxSize = c.maxSize := by
  cases a with
  | get k =>
    rw [call, DocCache.get]
    cases c.lookup k <;> rfl
  | set k doc => rfl
  | delete k => rfl

lemma Tracks.call (h : Tracks maxSize s c) (a : CacheCall α) :
    Tracks maxSize (s.call maxSize a) (c.call a) := by
  obtain ⟨rfl, hts, hpy, hrecent⟩ := h
  refine ⟨c.maxSize_call a, ?_, ?_, ?_⟩ <;> rw [Caches.call]
  · rw [hts, (c.call_eq a).1]
  · rw [hpy, (c.call_eq a).2]
  · rw [hts]
    exact hrecent.call a

lemma exists_tracks_run (n : Nat) (calls : List (CacheCall α)) :
    ∃ c, Tracks (n + 1) (Caches.run (n + 1) calls) c := by
  suffices hfold : ∀ (s : Caches α) (c : DocCache α), Tracks (n + 1) s c →
      ∃ c, Tracks (n + 1) (calls.foldl (Caches.call (n + 1)) s) c from
    hfold _ (.empty (n + 1) n.succ_pos) ⟨rfl, rfl, rfl, .nil, by simp [DocCache.empty],
      by simp [DocCache.empty]⟩
  induction calls with
  | nil => exact fun s c h => ⟨c, h⟩
  | cons a calls ih => exact fun s c h => ih _ _ (h.call a)

lemma Recent.fst_get (h : Recent c s.usage) (k : String) :
    (c.get k).1 = if k ∈ keys c.entries then s.usage.lastSet k else none := by
  rw [c.fst_get]
  cases hget : c.lookup k with
  | none => rw [if_neg (not_mem_keys_of_get hget)]
  | some doc => rw [if_pos (mem_keys_of_get hget), h.last (k, doc) (mem_of_get hget)]

theorem doc_caches_are_lru (n : Nat) (calls : List (CacheCall α)) :
    IsLru (n + 1) (Caches.run (n + 1) calls) := by
  obtain ⟨c, hmax, hts, hpy, hrecent⟩ := exists_tracks_run n calls
  generalize Caches.run (n + 1) calls = s at *
  refine ⟨hts.trans hpy.symm, ?_, ?_, ?_, ?_, ?_, ?_, ?_⟩ <;> rw [hts]
  · exact c.nodup
  · exact hmax ▸ c.bounded
  · exact hrecent.last
  · intro k
    rw [hpy, (c.get_eq k).1, (c.get_eq k).2]
    exact ⟨rfl, hrecent.fst_get k⟩
  · intro k doc
    rw [hpy, ← hmax, c.typeScript_set, c.python_set, ((c.set k doc).get_eq k).1,
      ((c.set k doc).get_eq k).2, DocCache.fst_get, c.lookup_set_self]
    exact ⟨rfl, rfl⟩
  · intro a ha id
    rw [← hmax, (c.call_eq a).1]
    exact c.mem_keys_call (hmax ▸ ha)
  · intro k doc hk hfull
    rw [← hmax, (c.call_eq _).1]
    exact hrecent.evicted doc hk (hfull.trans hmax.symm)

end

/-- In a full cache of two, `a` is used again and `b` has to go. -/
theorem doc_caches_are_lru_evicted :
    let s := Caches.run 2 [.set "a" 1, .set "b" 2, .get "a", .set "c" 3]
    s.typeScript = [("a", 1), ("c", 3)] ∧ s.python = [("a", 1), ("c", 3)] ∧ IsLru 2 s :=
  ⟨by decide, by decide, doc_caches_are_lru 1 _⟩

end CollabEditor.ProviderSdk
