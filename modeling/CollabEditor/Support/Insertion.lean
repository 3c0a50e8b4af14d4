import CollabEditor.Support.Changes
/-!
# Inserting a string

A replica inserts a string as one run of items, from the first free clock of its client on.  Into an
empty text that makes the text the string, provided the order of all items keeps the run in
sequence.
-/

namespace CollabEditor.Support.SharedText

open CausalOps List Nat

variable {K : Type}

/-- The items of a string that `client` inserts at the start of a text whose first item is
`right`: each character follows the one before it. -/
def insertion (client clock : Nat) (right : Option (Nat × Nat)) (text : List K) :
    List (Item K) :=
  text.mapIdx fun k c =>
    ⟨client, clock + k, (match k with | 0 => [] | j + 1 => [(client, clock + j)]) ++ right.toList,
      some c⟩

variable {client clock : Nat} {right : Option (Nat × Nat)} {text : List K}

lemma insertion_zero_none (client : Nat) (text : List K) :
    insertion client 0 none text = seed client text := by
  rw [insertion, seed]
  congr 1
  funext k c
  cases k <;> simp

lemma mem_insertion {o : Item K} :
    o ∈ insertion client clock right text ↔ ∃ (k : Nat) (c : K), text[k]? = some c ∧
      o = ⟨client, clock + k,
        (match k with | 0 => [] | j + 1 => [(client, clock + j)]) ++ right.toList, some c⟩ := by
  rw [insertion, mem_mapIdx]
  constructor
  · rintro ⟨k, hk, rfl⟩
    exact ⟨k, text[k], getElem?_eq_getElem hk, rfl⟩
  · rintro ⟨k, c, hc, rfl⟩
    obtain ⟨hk, rfl⟩ := List.getElem?_eq_some_iff.1 hc
    exact ⟨k, hk, rfl⟩

lemma filterMap_content_insertion (client clock : Nat) (right : Option (Nat × Nat))
    (text : List K) : (insertion client clock right text).filterMap (·.content) = text := by
  rw [insertion, mapIdx_eq_zipIdx_map, filterMap_map]
  calc text.zipIdx.filterMap _ = text.zipIdx.map Prod.fst := by
        rw [← filterMap_eq_map]
        rfl
    _ = text := zipIdx_map_fst 0 text

lemma of_mem_insertion {o : Item K} (ho : o ∈ insertion client clock right text) :
    o.client = client ∧ clock ≤ o.clock ∧ o.content.isSome := by
  obtain ⟨k, c, -, rfl⟩ := mem_insertion.1 ho
  exact ⟨rfl, le_add_right _ _, rfl⟩

lemma mem_deps_insertion {o : Item K} {i : Nat × Nat} (ho : o ∈ insertion client clock right text)
    (hi : i ∈ o.deps) : i ∈ right ∨ i.1 = client ∧ i.2 + 1 = o.clock ∧
      (i.2 < clock ∨ ∃ p ∈ insertion client clock right text, p.id = i) := by
  obtain ⟨k, c, hc, rfl⟩ := mem_insertion.1 ho
  cases k with
  | zero =>
    cases clock with
    | zero => exact .inl (by simpa [Op.deps] using hi)
    | succ clock =>
      simp only [Op.deps, nil_append, mem_cons, Option.mem_toList] at hi
      rcases hi with rfl | hi
      · exact .inr ⟨rfl, rfl, .inl (lt_succ_self clock)⟩
      · exact .inl hi
  | succ j =>
    have hdeps : i = (client, clock + j) ∨ i ∈ right := by
      simpa [Op.deps, ← Nat.add_assoc] using hi
    rcases hdeps with rfl | hi
    · obtain ⟨c', hc'⟩ : ∃ c', text[j]? = some c' := by
        obtain ⟨hlt, -⟩ := List.getElem?_eq_some_iff.1 hc
        exact ⟨_, getElem?_eq_getElem (lt_of_succ_lt hlt)⟩
      exact .inr ⟨rfl, rfl, .inr ⟨_, mem_insertion.2 ⟨j, c', hc', rfl⟩, rfl⟩⟩
    · exact .inl hi

/-! ## Clocks in effect -/

namespace Doc

variable {d : Doc K}

/-- What depends only on what is in effect, and on earlier items that come with it, takes effect. -/
lemma integrated_apply {u : Update K} (hdeps : ∀ o ∈ u.items, ∀ i ∈ o.deps,
      (∃ p, Integrated d.items p ∧ p.id = i) ∨ ∃ p ∈ u.items, p.id = i ∧ p.clock < o.clock)
    {o : Item K} (ho : o ∈ u.items) : Integrated (d.apply u).items o := by
  induction hk : o.clock using Nat.strong_induction_on generalizing o with
  | _ k ih =>
    refine .of_deps (mem_items_apply.2 (.inr ho)) fun i hi => ?_
    rcases hdeps o ho i hi with ⟨p, hp, hid⟩ | ⟨p, hp, hid, hlt⟩
    · exact ⟨p, hid, hp.mono fun _ => mem_items_apply_of_mem⟩
    · exact ⟨p, hid, ih p.clock (hk ▸ hlt) hp rfl⟩

/-- What no known item refers to does not set free one that waits. -/
lemma integrated_of_apply {u : Update K}
    (hdeps : ∀ o ∈ d.items, ∀ i ∈ o.deps, ∀ p ∈ u.items, p.id ≠ i) {o : Item K}
    (h : Integrated (d.apply u).items o) (ho : o ∈ d.items) : Integrated d.items o := by
  induction h with
  | intro dep _ hid hdep ih =>
    refine .intro dep ho hid fun i hi => ih i hi ?_
    exact (mem_items_apply.1 (hdep i hi).mem).resolve_right fun hnew =>
      hdeps _ ho i hi _ hnew (hid i hi)

variable [DecidableEq K]

/-- The clock after the last item of `client` that has taken effect. -/
def stateClock (d : Doc K) (client : Nat) : Nat :=
  (integrate d.items).foldr (fun o n => if o.client = client then max n (o.clock + 1) else n) 0

lemma clock_lt_stateClock {o : Item K} (ho : Integrated d.items o) :
    o.clock < d.stateClock o.client := by
  have hmem := mem_integrate_iff.2 ho
  rw [stateClock]
  generalize integrate d.items = done at hmem
  induction done with
  | nil => cases hmem
  | cons p rest ih =>
    rw [foldr_cons]
    rcases mem_cons.1 hmem with rfl | hrest
    · rw [if_pos rfl]
      omega
    · have := ih hrest
      split <;> omega

lemma exists_last_of_stateClock_pos (h : 0 < d.stateClock client) :
    ∃ o, Integrated d.items o ∧ o.client = client ∧ o.clock + 1 = d.stateClock client := by
  have hlast : ∃ o ∈ integrate d.items, o.client = client ∧ o.clock + 1 = d.stateClock client := by
    rw [stateClock] at h ⊢
    generalize integrate d.items = done at h
    induction done with
    | nil => cases h
    | cons p rest ih =>
      rw [foldr_cons] at h ⊢
      by_cases hp : p.client = client
      · rw [if_pos hp] at h ⊢
        rcases le_total (rest.foldr _ 0) (p.clock + 1) with hle | hle
        · exact ⟨p, mem_cons_self, hp, (max_eq_right hle).symm⟩
        · rw [max_eq_left hle] at h ⊢
          obtain ⟨o, ho, hclock⟩ := ih h
          exact ⟨o, mem_cons_of_mem _ ho, hclock⟩
      · rw [if_neg hp] at h ⊢
        obtain ⟨o, ho, hclock⟩ := ih h
        exact ⟨o, mem_cons_of_mem _ ho, hclock⟩
  obtain ⟨o, ho, hclock⟩ := hlast
  exact ⟨o, mem_integrate_iff.1 ho, hclock⟩

lemma exists_of_lt_stateClock {k : Nat} (h : k < d.stateClock client) :
    ∃ o, Integrated d.items o ∧ o.id = (client, k) := by
  obtain ⟨last, hlast, rfl, hclock⟩ := exists_last_of_stateClock_pos (zero_lt_of_lt h)
  obtain ⟨gap, hgap⟩ := le.dest (le_of_lt_succ (hclock ▸ h))
  -- down from the last item, each of which waits for the one before it
  induction gap generalizing k with
  | zero => exact ⟨last, hlast, by rw [Op.id, ← hgap, Nat.add_zero]⟩
  | succ gap ih =>
    obtain ⟨o, ho, hid⟩ := ih (k := k + 1) (by omega) (by omega)
    refine (ho.dep (d := (last.client, k)) ?_).imp fun p hp => hp.symm
    rw [Op.id, Prod.mk.injEq] at hid
    rw [Op.deps, hid.1, hid.2]
    exact mem_cons_self

/-! ## Receiving a run -/

/-- Past what has taken effect, no id of `client` is an item's, one that an item waits for or a
deleted one. Items of others may wait for others. -/
structure NothingPast (d : Doc K) (client : Nat) : Prop where
  items : ∀ o ∈ d.items, o.client = client → o.clock < d.stateClock client
  deps : ∀ o ∈ d.items, ∀ i ∈ o.deps, i.1 = client → i.2 < d.stateClock client
  deletes : ∀ i ∈ d.deletes, i.1 = client → i.2 < d.stateClock client

lemma NothingPast.unknown_iff (hd : d.NothingPast client) {o : Item K} (ho : o.client = client) :
    (∀ p ∈ d.items, p.id ≠ o.id) ↔ d.stateClock client ≤ o.clock := by
  subst ho
  constructor
  · intro hnew
    by_contra hlt
    obtain ⟨p, hp, hid⟩ := exists_of_lt_stateClock (Nat.lt_of_not_le hlt)
    exact hnew p hp.mem hid
  · intro hle p hp hid
    obtain ⟨hclient, hclock⟩ := Prod.mk.inj hid
    have hlt := hd.items p hp hclient
    omega

lemma NothingPast.shows_receive_insertion (hd : d.NothingPast client)
    (hclock : clock ≤ d.stateClock client)
    (hright : ∀ i ∈ right, ∃ p, Integrated d.items p ∧ p.id = i) {o : Item K} :
    (d.receive ⟨insertion client clock right text, []⟩).Shows o ↔
      d.Shows o ∨ o ∈ insertion client clock right text ∧ d.stateClock client ≤ o.clock := by
  let u := d.unknown ⟨insertion client clock right text, []⟩
  have hnew {o : Item K} :
      o ∈ u.items ↔ o ∈ insertion client clock right text ∧ d.stateClock client ≤ o.clock := by
    simp only [u, unknown, mem_filter, decide_eq_true_eq]
    exact and_congr_right fun ho => hd.unknown_iff (of_mem_insertion ho).1
  have hint {o : Item K} (ho : o ∈ u.items) : Integrated (d.apply u).items o := by
    refine integrated_apply (fun o ho i hi => ?_) ho
    obtain ⟨hrun, -⟩ := hnew.1 ho
    obtain ⟨c, k⟩ := i
    rcases mem_deps_insertion hrun hi with hi | ⟨rfl, hk, hbefore⟩
    · exact .inl (hright _ hi)
    simp only at hk hbefore hclock
    by_cases hlt : k < d.stateClock c
    · exact .inl (exists_of_lt_stateClock hlt)
    · obtain ⟨p, hp, hid⟩ := hbefore.resolve_left (by omega)
      obtain ⟨-, rfl⟩ := Prod.mk.inj hid
      exact .inr ⟨p, hnew.2 ⟨hp, Nat.le_of_not_lt hlt⟩, hid, by omega⟩
  have hdeletes {i : Nat × Nat} : i ∈ (d.apply u).deletes ↔ i ∈ d.deletes := by
    simp [u, unknown]
  constructor
  · intro ho
    rcases mem_items_apply.1 ho.integrated.mem with hold | hadded
    · refine .inl ⟨integrated_of_apply (fun q hq i hi p hp hid => ?_) ho.integrated hold,
        ho.hasContent, fun h => ho.notDeleted (hdeletes.2 h)⟩
      subst hid
      obtain ⟨hrun, hle⟩ := hnew.1 hp
      exact absurd (hd.deps q hq p.id hi (of_mem_insertion hrun).1) (Nat.not_lt.2 hle)
    · exact .inr (hnew.1 hadded)
  · rintro (ho | ho)
    · exact ⟨(within_apply d u).integrated o ho.integrated, ho.hasContent,
        fun h => ho.notDeleted (hdeletes.1 h)⟩
    · have hadded := hnew.2 ho
      obtain ⟨hclient, -, hcontent⟩ := of_mem_insertion ho.1
      refine ⟨hint hadded, hcontent, fun h => ?_⟩
      exact absurd (hd.deletes o.id (hdeletes.1 h) hclient) (Nat.not_lt.2 ho.2)

end Doc

/-! ## The text of a run -/

section

variable {P : Type} [LinearOrder P]

/-- The items stand in the order of the list. -/
def DocOrder.InSequence (order : DocOrder K P) (items : List (Item K)) : Prop :=
  items.Pairwise fun a b => order.pos a < order.pos b

/-- Strings that `client` inserts from `clock` on are read as they were inserted. -/
def DocOrder.KeepsRuns (order : DocOrder K P) (client clock : Nat) : Prop :=
  ∀ (clock' : Nat) (right : Option (Nat × Nat)) (text : List K), clock ≤ clock' →
    order.InSequence (insertion client clock' right text)

lemma DocOrder.keepsRuns_byId [Encodable K] (client clock : Nat) :
    (DocOrder.byId (K := K)).KeepsRuns client clock := by
  intro clock' right text _
  refine pairwise_iff_getElem.2 fun i j hi hj hij => ?_
  simp only [insertion, getElem_mapIdx, byId, Prod.Lex.toLex_lt_toLex]
  exact .inr ⟨trivial, .inl (by omega)⟩

lemma Doc.text_eq_of_shows_iff_mem [DecidableEq K] (order : DocOrder K P) {d : Doc K}
    {items : List (Item K)} (hseq : order.InSequence items) (h : ∀ o, d.Shows o ↔ o ∈ items) :
    d.text order = items.filterMap (·.content) := by
  have hnodup : items.Nodup := hseq.imp fun hlt heq => absurd (heq ▸ hlt) (lt_irrefl _)
  have hperm : d.visible.Perm items := by
    refine (perm_ext_iff_of_nodup d.visible_nodup hnodup).2 fun o => ?_
    rw [mem_visible, h]
  have hsorted : d.visible.insertionSort order.le = items := by
    apply List.Perm.eq_of_pairwise' (pairwise_insertionSort order.le _)
      (hseq.imp fun hlt => le_of_lt hlt)
    exact (perm_insertionSort order.le _).trans hperm
  rw [text, hsorted]

end

end CollabEditor.Support.SharedText
