import Mathlib.Tactic.MkIffOfInductiveProp
import CollabEditor.Support.SharedText
/-!
# Replicas that tell items apart by id

A replica ignores an item with an id it already has.  Two replicas that hold the same item wherever
they hold the same id can be brought together; otherwise they stay apart for good.
-/

namespace CollabEditor.Support.SharedText

open CausalOps List

variable {K : Type}

lemma mem_seed {client : Nat} {text : List K} {o : Item K} :
    o ∈ seed client text ↔ ∃ (k : Nat) (c : K), text[k]? = some c ∧
      o = ⟨client, k, match k with | 0 => [] | j + 1 => [(client, j)], some c⟩ := by
  rw [seed, List.mem_mapIdx]
  constructor
  · rintro ⟨k, hk, rfl⟩
    exact ⟨k, text[k], List.getElem?_eq_getElem hk, rfl⟩
  · rintro ⟨k, c, hc, rfl⟩
    obtain ⟨hk, rfl⟩ := List.getElem?_eq_some_iff.1 hc
    exact ⟨k, hk, rfl⟩

/-- The two texts have the same character at every place they both have. -/
def SameStart (t t' : List K) : Prop := ∀ q ∈ t.zip t', q.1 = q.2

instance [DecidableEq K] (t t' : List K) : Decidable (SameStart t t') :=
  inferInstanceAs (Decidable (∀ q ∈ t.zip t', q.1 = q.2))

variable {t t' : List K}

lemma sameStart_iff :
    SameStart t t' ↔ ∀ (k : Nat) (c c' : K), t[k]? = some c → t'[k]? = some c' → c = c' := by
  constructor
  · intro h k c c' hc hc'
    exact h (c, c') (mem_of_getElem? (getElem?_zip_eq_some.2 ⟨hc, hc'⟩))
  · intro h q hq
    obtain ⟨k, hk⟩ := mem_iff_getElem?.1 hq
    obtain ⟨hc, hc'⟩ := getElem?_zip_eq_some.1 hk
    exact h k _ _ hc hc'

lemma SameStart.refl (t : List K) : SameStart t t := by
  rw [sameStart_iff]
  intro k c c' hc hc'
  exact Option.mem_unique hc hc'

lemma SameStart.symm (h : SameStart t t') : SameStart t' t := by
  rw [sameStart_iff] at h ⊢
  intro k c c' hc hc'
  exact (h k c' c hc' hc).symm

lemma seed_ext {client : Nat} (h : SameStart t t') {o p : Item K} (ho : o ∈ seed client t)
    (hp : p ∈ seed client t') (hid : o.id = p.id) : o = p := by
  obtain ⟨k, c, hc, rfl⟩ := mem_seed.1 ho
  obtain ⟨k', c', hc', rfl⟩ := mem_seed.1 hp
  obtain rfl : k = k' := congrArg Prod.snd hid
  obtain rfl : c = c' := sameStart_iff.1 h k c c' hc hc'
  rfl

namespace Doc

def unknown (d : Doc K) (u : Update K) : Update K :=
  ⟨u.items.filter fun o => decide (∀ p ∈ d.items, p.id ≠ o.id), u.deletes⟩

def receive (d : Doc K) (u : Update K) : Doc K := d.apply (d.unknown u)

def asUpdate (d : Doc K) : Update K := ⟨d.items, d.deletes⟩

/-- The clock of the next item that `client` inserts. -/
def nextClock (d : Doc K) (client : Nat) : Nat :=
  d.items.foldr (fun o n => if o.client = client then max n (o.clock + 1) else n) 0

lemma items_apply (d : Doc K) (u : Update K) : (d.apply u).items = d.items ++ u.items := by
  simp [items, apply]

variable {d e : Doc K} {o : Item K} {u : Update K}

@[simp] lemma mem_items_apply : o ∈ (d.apply u).items ↔ o ∈ d.items ∨ o ∈ u.items := by
  rw [items_apply, mem_append]

@[simp] lemma mem_deletes_apply {i : Nat × Nat} :
    i ∈ (d.apply u).deletes ↔ i ∈ d.deletes ∨ i ∈ u.deletes := by
  simp [deletes, apply]

lemma mem_items_apply_of_mem (ho : o ∈ d.items) : o ∈ (d.apply u).items :=
  mem_items_apply.2 (.inl ho)

lemma forall_mem_items_apply {P : Item K → Prop} :
    (∀ o ∈ (d.apply u).items, P o) ↔ (∀ o ∈ d.items, P o) ∧ ∀ o ∈ u.items, P o := by
  simp only [mem_items_apply, or_imp, forall_and]

lemma forall_mem_deletes_apply {P : Nat × Nat → Prop} :
    (∀ i ∈ (d.apply u).deletes, P i) ↔ (∀ i ∈ d.deletes, P i) ∧ ∀ i ∈ u.deletes, P i := by
  simp only [mem_deletes_apply, or_imp, forall_and]

@[simp] lemma mem_items_receive :
    o ∈ (d.receive u).items ↔ o ∈ d.items ∨ o ∈ u.items ∧ ∀ p ∈ d.items, p.id ≠ o.id := by
  rw [receive, mem_items_apply, unknown, mem_filter, decide_eq_true_eq]

@[simp] lemma mem_deletes_receive {i : Nat × Nat} :
    i ∈ (d.receive u).deletes ↔ i ∈ d.deletes ∨ i ∈ u.deletes := by
  rw [receive, mem_deletes_apply, unknown]

@[simp] lemma deletes_started_nil (client : Nat) : (Doc.started client [] : Doc K).deletes = [] :=
  rfl

lemma mem_items_of_mem_updates (hu : u ∈ d.updates) (ho : o ∈ u.items) : o ∈ d.items :=
  mem_append_right _ (mem_flatMap.2 ⟨u, hu, ho⟩)

@[mk_iff]
structure Contains (d : Doc K) (u : Update K) : Prop where
  items : u.items ⊆ d.items
  deletes : u.deletes ⊆ d.deletes

instance [DecidableEq K] (d : Doc K) (u : Update K) : Decidable (d.Contains u) :=
  decidable_of_iff' _ (contains_iff ..)

lemma contains_of_mem_updates (h : u ∈ d.updates) : d.Contains u where
  items _ ho := mem_items_of_mem_updates h ho
  deletes _ hi := mem_flatMap.2 ⟨u, h, hi⟩

lemma Contains.apply (h : d.Contains u) (v : Update K) : (d.apply v).Contains u where
  items _ ho := mem_items_apply_of_mem (h.items ho)
  deletes _ hi := mem_deletes_apply.2 (.inl (h.deletes hi))

lemma Contains.of_asUpdate (h : e.Contains u) (hstate : e.asUpdate ∈ d.updates) :
    d.Contains u where
  items _ ho := (contains_of_mem_updates hstate).items (h.items ho)
  deletes _ hi := (contains_of_mem_updates hstate).deletes (h.deletes hi)

lemma contains_iff_of_updates_eq_nil (hd : d.updates = []) (u : Update K) :
    d.Contains u ↔ u.items ⊆ seed d.client d.content ∧ u.deletes = [] := by
  have hitems : d.items = seed d.client d.content := by simp [items, hd]
  have hdeletes : d.deletes = [] := by simp [deletes, hd]
  constructor
  · intro h
    exact ⟨hitems ▸ h.items, subset_nil.1 (hdeletes ▸ h.deletes)⟩
  · rintro ⟨hi, hdel⟩
    exact ⟨hitems ▸ hi, hdel ▸ nil_subset _⟩

lemma clock_lt_nextClock (ho : o ∈ d.items) : o.clock < d.nextClock o.client := by
  rw [nextClock]
  generalize d.items = known at ho
  induction known with
  | nil => cases ho
  | cons p rest ih =>
    rw [foldr_cons]
    rcases mem_cons.1 ho with rfl | hrest
    · rw [if_pos rfl]
      omega
    · have := ih hrest
      split <;> omega

lemma text_eq_of_mem_iff {P : Type} [LinearOrder P] [DecidableEq K] (order : DocOrder K P)
    (hitems : ∀ o, o ∈ d.items ↔ o ∈ e.items) (hdeletes : ∀ i, i ∈ d.deletes ↔ i ∈ e.deletes) :
    d.text order = e.text order := by
  apply text_eq_of_shows_iff
  intro o
  constructor
  · rintro ⟨hint, hsome, hdel⟩
    exact ⟨hint.mono fun p hp => (hitems p).1 hp, hsome, fun h => hdel ((hdeletes _).2 h)⟩
  · rintro ⟨hint, hsome, hdel⟩
    exact ⟨hint.mono fun p hp => (hitems p).2 hp, hsome, fun h => hdel ((hdeletes _).1 h)⟩

def Agrees (d e : Doc K) : Prop :=
  ∀ o ∈ d.items, ∀ p ∈ e.items, o.id = p.id → o = p

/-- `e` has every id that `d` holds, and every deletion. -/
@[mk_iff]
structure CoveredBy (d e : Doc K) : Prop where
  ids : ∀ o ∈ d.items, ∃ p ∈ e.items, p.id = o.id
  deletes : d.deletes ⊆ e.deletes

instance (d e : Doc K) : Decidable (d.CoveredBy e) :=
  decidable_of_iff' _ (coveredBy_iff ..)

lemma text_receive_asUpdate {P : Type} [LinearOrder P] [DecidableEq K] (order : DocOrder K P)
    (hagree : d.Agrees e) (hcovered : d.CoveredBy e) :
    (d.receive e.asUpdate).text order = e.text order := by
  have hsub : ∀ o ∈ d.items, o ∈ e.items := by
    intro o ho
    obtain ⟨p, hp, hid⟩ := hcovered.ids o ho
    exact hagree o ho p hp hid.symm ▸ hp
  apply text_eq_of_mem_iff
  · intro o
    rw [mem_items_receive]
    constructor
    · rintro (ho | ⟨ho, -⟩)
      · exact hsub o ho
      · exact ho
    · intro ho
      by_cases hknown : ∃ p ∈ d.items, p.id = o.id
      · obtain ⟨p, hp, hid⟩ := hknown
        exact .inl (hagree p hp o ho hid ▸ hp)
      · exact .inr ⟨ho, fun p hp hid => hknown ⟨p, hp, hid⟩⟩
  · intro i
    rw [mem_deletes_receive]
    constructor
    · rintro (hi | hi)
      · exact hcovered.deletes hi
      · exact hi
    · exact .inr

end Doc

end CollabEditor.Support.SharedText
