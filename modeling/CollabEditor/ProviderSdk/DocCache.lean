import Mathlib.Data.List.Nodup
/-!
# The doc cache of the provider SDKs

`DocCache` of `engine.ts` and `cache.py`: at most `maxSize` docs by document id.  Both re-insert an
entry of an insertion-ordered map to mark it as used.
-/

namespace CollabEditor.ProviderSdk

open List

structure DocCache (α : Type) where
  entries : List (String × α)
  maxSize : Nat
  nodup : (entries.map Prod.fst).Nodup
  bounded : entries.length ≤ maxSize
  positive : 0 < maxSize

namespace DocCache

variable {α : Type}

def empty (maxSize : Nat) (h : 0 < maxSize) : DocCache α := ⟨[], maxSize, by simp, by simp, h⟩

def lookup (c : DocCache α) (documentId : String) : Option α :=
  (c.entries.find? fun e => e.1 = documentId).map Prod.snd

/-- What `set` keeps: all but the entry it replaces or, for a new id in a full cache,
all but the least recently used one. -/
def kept (c : DocCache α) (documentId : String) : List (String × α) :=
  if documentId ∈ c.entries.map Prod.fst then c.entries.filter fun e => e.1 ≠ documentId
  else if c.entries.length ≥ c.maxSize then c.entries.tail
  else c.entries

lemma kept_sublist (c : DocCache α) (documentId : String) :
    (c.kept documentId).Sublist c.entries := by
  rw [kept]
  split
  · exact filter_sublist
  · split
    · exact tail_sublist _
    · exact List.Sublist.refl _

lemma not_mem_kept (c : DocCache α) (documentId : String) :
    documentId ∉ (c.kept documentId).map Prod.fst := by
  by_cases h : documentId ∈ c.entries.map Prod.fst
  · rw [kept, if_pos h]
    simp [mem_filter]
  · intro hmem
    exact h (((c.kept_sublist documentId).map Prod.fst).subset hmem)

lemma length_kept_lt (c : DocCache α) (documentId : String) :
    (c.kept documentId).length < c.maxSize := by
  have hbounded := c.bounded
  have hpositive := c.positive
  rw [kept]
  split
  · rename_i hmem
    obtain ⟨e, he, rfl⟩ := mem_map.1 hmem
    have hlt : (c.entries.filter fun e' => e'.1 ≠ e.1).length < c.entries.length :=
      length_filter_lt_length_iff_exists.2 ⟨e, he, by simp⟩
    exact Nat.lt_of_lt_of_le hlt hbounded
  · split
    · rw [length_tail]
      omega
    · omega

def set (c : DocCache α) (documentId : String) (doc : α) : DocCache α where
  entries := c.kept documentId ++ [(documentId, doc)]
  maxSize := c.maxSize
  nodup := by
    rw [map_append, map_singleton, ← concat_eq_append]
    exact (((c.kept_sublist documentId).map Prod.fst).nodup c.nodup).concat
      (c.not_mem_kept documentId)
  bounded := by
    rw [length_append, length_singleton]
    exact c.length_kept_lt documentId
  positive := c.positive

def get (c : DocCache α) (documentId : String) : Option α × DocCache α :=
  match c.lookup documentId with
  | none => (none, c)
  | some doc => (some doc, c.set documentId doc)

@[simp] lemma lookup_set_self (c : DocCache α) (documentId : String) (doc : α) :
    (c.set documentId doc).lookup documentId = some doc := by
  have hnone : (c.kept documentId).find? (fun e => e.1 = documentId) = none := by
    rw [find?_eq_none]
    intro e he
    have := c.not_mem_kept documentId
    simp only [mem_map, not_exists, not_and] at this
    simpa using this e he
  simp [lookup, set, find?_append, hnone]

end DocCache

end CollabEditor.ProviderSdk
