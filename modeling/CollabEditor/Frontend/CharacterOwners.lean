import CollabEditor.Frontend.BlameEngine
import CollabEditor.Support.ItemText
/-!
# The owners of the characters

`_extractBlameFromText` of `blame-engine.ts` and `collectClientsInRange` of `pm-position-map.ts`,
against the list of the clients of the visible characters.
-/

namespace CollabEditor.Frontend.Chain

open Support ItemText Tiling List

variable {K : Type}

/-- An item of a chain; none is without content. -/
structure StringItem (K : Type) extends TextItem K where
  nonempty : content ≠ []

def visibleText (chain : List (StringItem K)) : List K := chain.flatMap fun i => i.shown

def owners (chain : List (StringItem K)) : List Nat :=
  chain.flatMap fun i => i.shown.map fun _ => i.client

def extractBlameFromText (clientToUser : Nat → Option String) (chain : List (StringItem K)) :
    List BlameSegment :=
  (chain.foldl (fun acc i =>
    if i.deleted then acc else blameRun clientToUser acc i.client i.content.length) ([], 0)).1

def addClient (clients : List Nat) (client : Nat) : List Nat :=
  if client ∈ clients then clients else clients ++ [client]

def collectItem (start stop : Nat) (acc : List Nat × Nat) (i : StringItem K) : List Nat × Nat :=
  if i.deleted then acc
  else
    (if acc.2 < stop ∧ start < acc.2 + i.content.length then addClient acc.1 i.client else acc.1,
      acc.2 + i.content.length)

def collectClientsInRange (chain : List (StringItem K)) (start stop : Nat) : List Nat :=
  (chain.foldl (collectItem start stop) ([], 0)).1

/-! ## The two walks -/

lemma StringItem.map_shown {N : Type} (i : StringItem K) (h : i.deleted = false) (a : N) :
    i.shown.map (fun _ => a) = replicate i.content.length a := by
  rw [TextItem.shown_of_not_deleted h, map_const']

lemma length_owners (chain : List (StringItem K)) :
    (owners chain).length = (visibleText chain).length := by
  simp [owners, visibleText, length_flatMap]

lemma labels_extractBlameFromText (clientToUser : Nat → Option String)
    (chain : List (StringItem K)) :
    Labels ((extractBlameFromText clientToUser chain).map BlameSegment.span)
      ((owners chain).map (blameName clientToUser)) := by
  suffices hfold : ∀ acc labels, Labelled acc labels → Labelled (chain.foldl (fun acc i =>
        if i.deleted then acc else blameRun clientToUser acc i.client i.content.length) acc)
        (labels ++ (owners chain).map (blameName clientToUser)) by
    exact (hfold ([], 0) [] ⟨.nil, rfl⟩).1
  induction chain with
  | nil => simp [owners]
  | cons i chain ih =>
    intro acc labels h
    rw [foldl_cons, owners, flatMap_cons, map_append, ← append_assoc]
    apply ih
    cases hdeleted : i.deleted with
    | true => simpa [TextItem.shown, hdeleted] using h
    | false =>
      have hround := h.blameRun (length_pos_of_ne_nil i.nonempty) clientToUser i.client
      simpa [i.map_shown hdeleted] using hround

lemma mem_addClient {clients : List Nat} {client c : Nat} :
    c ∈ addClient clients client ↔ c ∈ clients ∨ c = client := by
  unfold addClient
  split <;> aesop

lemma nodup_addClient {clients : List Nat} (h : clients.Nodup) (client : Nat) :
    (addClient clients client).Nodup := by
  unfold addClient
  split
  · exact h
  · rename_i hnew
    rw [← concat_eq_append]
    exact h.concat hnew

structure Collected (start stop : Nat) (done : List Nat) (acc : List Nat × Nat) : Prop where
  offset : acc.2 = done.length
  nodup : acc.1.Nodup
  mem : ∀ c, c ∈ acc.1 ↔ ∃ k, start ≤ k ∧ k < stop ∧ done[k]? = some c

lemma getElem?_append_replicate_eq_some {done : List Nat} {k len client c : Nat} :
    (done ++ replicate len client)[k]? = some c ↔
      done[k]? = some c ∨ (done.length ≤ k ∧ k < done.length + len ∧ c = client) := by
  rw [getElem?_append, getElem?_replicate]
  split
  · exact ⟨.inl, fun h => h.resolve_right (by omega)⟩
  · rename_i hk
    rw [getElem?_eq_none (by omega)]
    split <;> simp <;> omega

lemma Collected.item {start stop : Nat} {done : List Nat} {acc : List Nat × Nat}
    (h : Collected start stop done acc) (hlt : start < stop) (i : StringItem K) :
    Collected start stop (done ++ i.shown.map fun _ => i.client)
      (collectItem start stop acc i) := by
  unfold collectItem
  cases hdeleted : i.deleted with
  | true => simpa [TextItem.shown, hdeleted] using h
  | false =>
    have hlen := length_pos_of_ne_nil i.nonempty
    rw [i.map_shown hdeleted, h.offset]
    simp only [Bool.false_eq_true, if_false]
    refine ⟨by simp, ?_, fun c => ?_⟩
    · dsimp only
      split
      · exact nodup_addClient h.nodup i.client
      · exact h.nodup
    · simp only [getElem?_append_replicate_eq_some, and_or_left, exists_or, ← h.mem]
      split
      · rename_i hoverlap
        rw [mem_addClient]
        refine or_congr_right ⟨fun hc => ⟨max start done.length, ?_⟩, ?_⟩
        · omega
        · rintro ⟨k, hk⟩
          exact hk.2.2.2.2
      · rename_i hapart
        refine ⟨.inl, fun hc => hc.resolve_right ?_⟩
        rintro ⟨k, hk⟩
        omega

lemma collected_collectClientsInRange {start stop : Nat} (hlt : start < stop)
    (chain : List (StringItem K)) :
    Collected start stop (owners chain) (chain.foldl (collectItem start stop) ([], 0)) := by
  suffices hfold : ∀ acc done, Collected start stop done acc →
      Collected start stop (done ++ owners chain) (chain.foldl (collectItem start stop) acc) by
    exact hfold ([], 0) [] ⟨rfl, nodup_nil, by simp⟩
  induction chain with
  | nil => simp [owners]
  | cons i chain ih =>
    intro acc done h
    rw [foldl_cons, owners, flatMap_cons, ← append_assoc]
    exact ih _ _ (h.item hlt i)

theorem live_blame_eq_ownership (chain : List (StringItem K)) (clientToUser : Nat → Option String) :
    Tiles ((extractBlameFromText clientToUser chain).map BlameSegment.span)
      (visibleText chain).length ∧
    (∀ i client, (owners chain)[i]? = some client →
      ∃ segment ∈ extractBlameFromText clientToUser chain, segment.start ≤ i ∧ i < segment.stop ∧
        segment.userName = blameName clientToUser client) ∧
    ∀ start stop, start < stop → (collectClientsInRange chain start stop).Nodup ∧
      ∀ client, client ∈ collectClientsInRange chain start stop ↔
        ∃ i, start ≤ i ∧ i < stop ∧ (owners chain)[i]? = some client := by
  have hlabels := labels_extractBlameFromText clientToUser chain
  refine ⟨?_, ?_, ?_⟩
  · have htiles := hlabels.toTiles
    rwa [length_map, length_owners] at htiles
  · intro i client hclient
    have hi : i < ((owners chain).map (blameName clientToUser)).length := by
      rw [length_map]
      exact (List.getElem?_eq_some_iff.1 hclient).1
    obtain ⟨span, hspan, hstart, hstop, hname⟩ := hlabels.exists_named hi
    obtain ⟨segment, hsegment, rfl⟩ := mem_map.1 hspan
    rw [getElem?_map, hclient] at hname
    exact ⟨segment, hsegment, hstart, hstop, (Option.some.inj hname).symm⟩
  · intro start stop hlt
    have hcollected := collected_collectClientsInRange hlt chain
    exact ⟨hcollected.nodup, hcollected.mem⟩

end CollabEditor.Frontend.Chain
