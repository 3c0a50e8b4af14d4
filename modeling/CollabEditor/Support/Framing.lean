import Mathlib.Data.List.Basic
/-!
# Reading items off a stream that arrives in chunks

A reader appends each chunk to the bytes it has not yet used and takes off as many complete items as
there are.  A `Splitter` finds the first item of a buffer, whatever comes later.
-/

namespace CollabEditor.Support.Framing

open List

variable {β φ σ ε : Type}

structure Splitter (β φ : Type) where
  next : List β → Option (φ × List β)
  length_lt : ∀ {buffer item rest}, next buffer = some (item, rest) → rest.length < buffer.length
  append : ∀ {buffer item rest} (more : List β), next buffer = some (item, rest) →
    next (buffer ++ more) = some (item, rest ++ more)

/-- Handle the complete items at the front of the buffer; an error of the handler ends the
reader. -/
def drain (split : Splitter β φ) (handle : σ → φ → Except ε σ) (s : σ) (buffer : List β) :
    Except ε (σ × List β) :=
  match _h : split.next buffer with
  | none => .ok (s, buffer)
  | some (item, rest) =>
    match handle s item with
    | .error e => .error e
    | .ok t => drain split handle t rest
termination_by buffer.length
decreasing_by exact split.length_lt _h

def feed (split : Splitter β φ) (handle : σ → φ → Except ε σ) (reader : σ × List β)
    (chunk : List β) : Except ε (σ × List β) :=
  drain split handle reader.1 (reader.2 ++ chunk)

def feedAll (split : Splitter β φ) (handle : σ → φ → Except ε σ) :
    σ × List β → List (List β) → Except ε (σ × List β)
  | reader, [] => .ok reader
  | reader, chunk :: chunks =>
    match feed split handle reader chunk with
    | .error e => .error e
    | .ok reader => feedAll split handle reader chunks

def handleAll (handle : σ → φ → Except ε σ) : σ → List φ → Except ε σ
  | s, [] => .ok s
  | s, item :: items =>
    match handle s item with
    | .error e => .error e
    | .ok t => handleAll handle t items

variable {split : Splitter β φ} {handle : σ → φ → Except ε σ}

lemma drain_of_next_none {s : σ} {buffer : List β} (h : split.next buffer = none) :
    drain split handle s buffer = .ok (s, buffer) := by
  rw [drain]
  split
  · rfl
  · rename_i hnext
    rw [h] at hnext
    cases hnext

lemma drain_of_next_some {s : σ} {buffer rest : List β} {item : φ}
    (h : split.next buffer = some (item, rest)) : drain split handle s buffer =
      match handle s item with
      | .error e => .error e
      | .ok t => drain split handle t rest := by
  rw [drain]
  split
  · rename_i hnext
    rw [h] at hnext
    cases hnext
  · rename_i item' rest' hnext
    rw [h] at hnext
    cases hnext
    rfl

lemma next_of_drain {s t : σ} {buffer rest : List β}
    (h : drain split handle s buffer = .ok (t, rest)) : split.next rest = none := by
  induction hn : buffer.length using Nat.strongRecOn generalizing s buffer with
  | ind n ih =>
    cases hnext : split.next buffer with
    | none =>
      rw [drain_of_next_none hnext] at h
      cases h
      exact hnext
    | some found =>
      obtain ⟨item, left⟩ := found
      rw [drain_of_next_some hnext] at h
      split at h
      · cases h
      · exact ih left.length (hn ▸ split.length_lt hnext) h rfl

lemma drain_append (s : σ) (buffer more : List β) : drain split handle s (buffer ++ more) =
      match drain split handle s buffer with
      | .error e => .error e
      | .ok (t, rest) => drain split handle t (rest ++ more) := by
  induction hn : buffer.length using Nat.strongRecOn generalizing s buffer with
  | ind n ih =>
    cases hnext : split.next buffer with
    | none => rw [drain_of_next_none hnext]
    | some found =>
      obtain ⟨item, left⟩ := found
      rw [drain_of_next_some hnext, drain_of_next_some (split.append more hnext)]
      cases handle s item with
      | error e => rfl
      | ok t => exact ih left.length (hn ▸ split.length_lt hnext) t left rfl

/-- Where the stream is cut does not matter. -/
lemma feedAll_eq_drain {s : σ} {buffer : List β} (hbuffer : split.next buffer = none)
    (chunks : List (List β)) :
    feedAll split handle (s, buffer) chunks = drain split handle s (buffer ++ chunks.flatten) := by
  induction chunks generalizing s buffer with
  | nil => rw [feedAll, flatten_nil, append_nil, drain_of_next_none hbuffer]
  | cons chunk chunks ih =>
    rw [feedAll, feed, flatten_cons, ← append_assoc, drain_append s (buffer ++ chunk)]
    cases hdrain : drain split handle s (buffer ++ chunk) with
    | error e => rfl
    | ok reader => exact ih (next_of_drain hdrain)

lemma drain_flatten {encode : φ → List β} {items : List φ} (hnil : split.next [] = none)
    (hitems : ∀ item ∈ items, ∀ rest, split.next (encode item ++ rest) = some (item, rest))
    (s : σ) : drain split handle s (items.map encode).flatten = match handleAll handle s items with
      | .error e => .error e
      | .ok t => .ok (t, []) := by
  induction items generalizing s with
  | nil => exact drain_of_next_none hnil
  | cons item items ih =>
    rw [map_cons, flatten_cons, drain_of_next_some (hitems item mem_cons_self _), handleAll]
    cases handle s item with
    | error e => rfl
    | ok t => exact ih (fun i hi => hitems i (mem_cons_of_mem _ hi)) t

end CollabEditor.Support.Framing
