import Mathlib.Data.List.Basic
/-!
# Maps in insertion order

A map that keeps its entries in the order in which their keys came in, as a list: a JavaScript `Map`
or a Python `OrderedDict`. An entry that is put again stays where it is.
-/

namespace CollabEditor.Support.OrderedMap

open List

universe u v

variable {K : Type u} {V : Type v} [DecidableEq K]

def get (m : List (K × V)) (k : K) : Option V := (m.find? fun e => e.1 = k).map Prod.snd

abbrev keys (m : List (K × V)) : List K := m.map Prod.fst

def erase (m : List (K × V)) (k : K) : List (K × V) := m.filter fun e => e.1 ≠ k

def put (m : List (K × V)) (k : K) (v : V) : List (K × V) :=
  if k ∈ keys m then m.map fun e => if e.1 = k then (k, v) else e else m ++ [(k, v)]

def moveToEnd (m : List (K × V)) (k : K) : List (K × V) :=
  match get m k with
  | none => m
  | some v => erase m k ++ [(k, v)]

variable {m : List (K × V)} {k : K} {v : V}

lemma not_mem_keys_erase (m : List (K × V)) (k : K) : k ∉ keys (erase m k) := by
  simp [keys, erase]

omit [DecidableEq K] in
lemma ne_of_not_mem_keys (h : k ∉ keys m) {e : K × V} (he : e ∈ m) : e.1 ≠ k :=
  fun heq => h (heq ▸ mem_map_of_mem he)

lemma put_of_not_mem (h : k ∉ keys m) (v : V) : put m k v = m ++ [(k, v)] := if_neg h

lemma erase_of_not_mem (h : k ∉ keys m) : erase m k = m :=
  filter_eq_self.2 fun _ he => by simpa using ne_of_not_mem_keys h he

lemma get_append_singleton (h : k ∉ keys m) (v : V) : get (m ++ [(k, v)]) k = some v := by
  have hnone : m.find? (fun e => e.1 = k) = none :=
    find?_eq_none.2 fun _ he => by simpa using ne_of_not_mem_keys h he
  simp [get, find?_append, hnone]

lemma put_append_singleton (h : k ∉ keys m) (old new : V) :
    put (m ++ [(k, old)]) k new = m ++ [(k, new)] := by
  have hmap : (m.map fun e => if e.1 = k then (k, new) else e) = m := by
    refine (map_congr_left fun e he => ?_).trans (map_id m)
    exact if_neg (ne_of_not_mem_keys h he)
  rw [put, if_pos (by simp [keys]), map_append, hmap]
  simp

lemma mem_of_get (h : get m k = some v) : (k, v) ∈ m := by
  obtain ⟨e, he, rfl⟩ := Option.map_eq_some_iff.1 h
  have hk : e.1 = k := by simpa using find?_some he
  exact hk ▸ mem_of_find?_eq_some he

lemma mem_keys_of_get (h : get m k = some v) : k ∈ keys m := mem_map_of_mem (mem_of_get h)

lemma exists_get_of_mem (h : k ∈ keys m) : ∃ v, get m k = some v := by
  obtain ⟨e, he, rfl⟩ := mem_map.1 h
  cases hget : get m e.1 with
  | some v => exact ⟨v, rfl⟩
  | none => exact absurd (find?_eq_none.1 (Option.map_eq_none_iff.1 hget) e he) (by simp)

lemma not_mem_keys_of_get (h : get m k = none) : k ∉ keys m := by
  intro hmem
  obtain ⟨v, hv⟩ := exists_get_of_mem hmem
  cases h.symm.trans hv

end CollabEditor.Support.OrderedMap
