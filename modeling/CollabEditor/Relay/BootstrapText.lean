import CollabEditor.Support.Insertion
import CollabEditor.Relay.RoomText
/-!
# Seeding a text in the two engines

`BootstrapText` of `internal/relay/yjsengine`: `ygo_engine.go` inserts the content if the live text
is empty; `sidecar_client.go` seeds a doc of its own and applies its state in the sidecar, whatever
the text there.  Items of other types have no character.
-/

namespace CollabEditor.Relay

open Support CausalOps SharedText List Nat

variable {K : Type} [DecidableEq K]

/-- `YgoEngine.BootstrapText`. `start` is the first item of the text, deleted or not. -/
def Ygo.bootstrapText (start : Option (Nat × Nat)) (content : List K) (d : Doc K) : Doc K :=
  if content = [] then d
  else if 0 < d.visible.length then d
  else d.apply ⟨insertion serverClientID (d.stateClock serverClientID) start content, []⟩

/-- `SidecarEngine.BootstrapText`: the seed is encoded by an engine with a new doc. -/
def Sidecar.bootstrapText (content : List K) (d : Doc K) : Doc K :=
  if content = [] then d
  else d.receive (Ygo.bootstrapText none content (.started serverClientID [])).asUpdate

/-- What the interface asks of `BootstrapText`: a text that is there stays as it is. -/
def seededText (text content : List K) : List K := if text = [] then content else text

/-- What of the seed the doc has fits its text: all of it if there is text, else nothing. -/
def SeedFits (d : Doc K) (content : List K) : Prop :=
  if d.visible = [] then d.stateClock serverClientID = 0
  else content.length ≤ d.stateClock serverClientID
  deriving Decidable

section

variable {P : Type} [LinearOrder P] {order : DocOrder K P} {d : Doc K} {content : List K}
  {start : Option (Nat × Nat)}

lemma Sidecar.bootstrapText_eq_receive (hcontent : content ≠ []) :
    Sidecar.bootstrapText content d = d.receive ⟨seed serverClientID content, []⟩ := by
  have hnew : ¬ 0 < (Doc.started serverClientID [] : Doc K).visible.length := lt_irrefl 0
  have hclock : (Doc.started serverClientID [] : Doc K).stateClock serverClientID = 0 := rfl
  rw [Sidecar.bootstrapText, if_neg hcontent, Ygo.bootstrapText, if_neg hcontent, if_neg hnew,
    hclock, insertion_zero_none]
  congr 1
  simp [Doc.asUpdate, Doc.items, Doc.deletes, Doc.apply, Doc.started, seed]

section

variable (hd : d.NothingPast serverClientID)
include hd

lemma Sidecar.shows_bootstrapText (hcontent : content ≠ []) {o : Item K} :
    (Sidecar.bootstrapText content d).Shows o ↔
      d.Shows o ∨ o ∈ seed serverClientID content ∧ d.stateClock serverClientID ≤ o.clock := by
  rw [bootstrapText_eq_receive hcontent, ← insertion_zero_none]
  exact hd.shows_receive_insertion (zero_le _) (by simp)

lemma Ygo.shows_bootstrapText (hstart : ∀ i ∈ start, ∃ o, Integrated d.items o ∧ o.id = i)
    (hcontent : content ≠ []) (hempty : d.visible = []) {o : Item K} :
    (Ygo.bootstrapText start content d).Shows o ↔
      o ∈ insertion serverClientID (d.stateClock serverClientID) start content := by
  let run := insertion serverClientID (d.stateClock serverClientID) start content
  have hreceive : d.apply ⟨run, []⟩ = d.receive ⟨run, []⟩ := by
    rw [Doc.receive, Doc.unknown, filter_eq_self.2 fun o ho => ?_]
    obtain ⟨hclient, hclock, -⟩ := of_mem_insertion ho
    exact decide_eq_true ((hd.unknown_iff hclient).2 hclock)
  have hnone : ¬ d.Shows o := by
    rw [← Doc.mem_visible, hempty]
    exact not_mem_nil
  rw [bootstrapText, if_neg hcontent, if_neg (by simp [hempty]), hreceive,
    hd.shows_receive_insertion (le_refl _) hstart]
  constructor
  · rintro (ho | ho)
    · exact absurd ho hnone
    · exact ho.1
  · exact fun ho => .inr ⟨ho, (of_mem_insertion ho).2.1⟩

section

variable (hkeeps : order.KeepsRuns serverClientID (d.stateClock serverClientID))
include hkeeps

lemma Ygo.text_bootstrapText (hstart : ∀ i ∈ start, ∃ o, Integrated d.items o ∧ o.id = i)
    (hcontent : content ≠ []) :
    (Ygo.bootstrapText start content d).text order = seededText (d.text order) content := by
  by_cases hempty : d.visible = []
  · rw [seededText, if_pos (Doc.text_eq_nil_iff.2 hempty),
      Doc.text_eq_of_shows_iff_mem order (hkeeps _ start content (le_refl _))
        fun o => shows_bootstrapText hd hstart hcontent hempty]
    exact filterMap_content_insertion _ _ _ _
  · rw [seededText, if_neg fun h => hempty (Doc.text_eq_nil_iff.1 h), bootstrapText,
      if_neg hcontent, if_pos (length_pos_iff.2 hempty)]

/-- Into a doc that shows no text, the sidecar brings the whole content only if the doc has never
had anything of the server. -/
lemma Sidecar.text_bootstrapText_of_empty (hcontent : content ≠ []) (hempty : d.visible = []) :
    (Sidecar.bootstrapText content d).text order = content ↔ d.stateClock serverClientID = 0 := by
  have hshows (o : Item K) : (Sidecar.bootstrapText content d).Shows o ↔
      o ∈ seed serverClientID content ∧ d.stateClock serverClientID ≤ o.clock := by
    have hnone : ¬ d.Shows o := by
      rw [← Doc.mem_visible, hempty]
      exact not_mem_nil
    rw [shows_bootstrapText hd hcontent]
    exact or_iff_right hnone
  constructor
  · intro htext
    by_contra hpos
    -- the first character is known and not shown
    have hsub : (Sidecar.bootstrapText content d).visible ⊆ (seed serverClientID content).tail := by
      intro o ho
      obtain ⟨hmem, hclock⟩ := (hshows o).1 (Doc.mem_visible.1 ho)
      cases content with
      | nil => cases hmem
      | cons c rest =>
        rw [seed, mapIdx_cons] at hmem ⊢
        rcases mem_cons.1 hmem with rfl | hmem
        · exact absurd (le_zero.1 hclock) hpos
        · exact hmem
    have hlen := (subperm_of_subset (Doc.visible_nodup _) hsub).length_le
    rw [← Doc.length_text order, htext, length_tail, seed, length_mapIdx] at hlen
    have := length_pos_iff.2 hcontent
    omega
  · intro hzero
    have hseq : order.InSequence (seed serverClientID content) :=
      insertion_zero_none serverClientID content ▸ hkeeps 0 none content (hzero ▸ le_refl _)
    have hall (o : Item K) :
        (Sidecar.bootstrapText content d).Shows o ↔ o ∈ seed serverClientID content := by
      rw [hshows, hzero]
      exact and_iff_left (zero_le _)
    rw [Doc.text_eq_of_shows_iff_mem order hseq hall, ← insertion_zero_none]
    exact filterMap_content_insertion _ _ _ _

end

lemma Sidecar.text_bootstrapText_of_nonempty (hcontent : content ≠ []) :
    (Sidecar.bootstrapText content d).text order = d.text order ↔
      content.length ≤ d.stateClock serverClientID := by
  have hshows (o : Item K) := shows_bootstrapText (o := o) hd hcontent
  rw [eq_comm, Doc.text_eq_iff_of_shows_imp order fun o ho => (hshows o).2 (.inl ho)]
  constructor
  · intro h
    by_contra hlt
    -- the last character of the seed is new and has no place in the text
    obtain ⟨c, hc⟩ : ∃ c, content[content.length - 1]? = some c :=
      ⟨_, List.getElem?_eq_getElem (sub_one_lt (by simpa using hcontent))⟩
    have hseed : (⟨serverClientID, content.length - 1, _, some c⟩ : Item K) ∈
        seed serverClientID content := mem_seed.2 ⟨_, c, hc, rfl⟩
    have hnew := h _ ((hshows _).2 (.inr ⟨hseed, by simp only; omega⟩))
    have := Doc.clock_lt_stateClock hnew.integrated
    simp only at this
    omega
  · intro hle o ho
    refine ((hshows o).1 ho).resolve_right ?_
    rintro ⟨hseed, hclock⟩
    obtain ⟨k, c, hc, rfl⟩ := mem_seed.1 hseed
    obtain ⟨hk, -⟩ := List.getElem?_eq_some_iff.1 hc
    simp only at hclock
    omega

end

/-- Both engines leave the text that the interface asks for. -/
def EnginesAgree (order : DocOrder K P) (start : Option (Nat × Nat)) (content : List K)
    (d : Doc K) : Prop :=
  (Sidecar.bootstrapText content d).text order = (Ygo.bootstrapText start content d).text order ∧
    (Ygo.bootstrapText start content d).text order = seededText (d.text order) content

/-- The engines agree if there is nothing to seed, or if the doc names no id of the server that it
lacks and the seed fits; on such a doc in no other case. -/
theorem bootstrapText_agree_iff_seedFits
    (hkeeps : order.KeepsRuns serverClientID (d.stateClock serverClientID))
    (hstart : ∀ i ∈ start, ∃ o, Integrated d.items o ∧ o.id = i) (content : List K) :
    (content = [] ∨ d.NothingPast serverClientID ∧ SeedFits d content →
        EnginesAgree order start content d) ∧
      (d.NothingPast serverClientID → EnginesAgree order start content d →
        content = [] ∨ SeedFits d content) := by
  by_cases hcontent : content = []
  · have hagree : EnginesAgree order start content d := by
      rw [EnginesAgree, Sidecar.bootstrapText, if_pos hcontent, Ygo.bootstrapText, if_pos hcontent,
        seededText, hcontent]
      exact ⟨rfl, (ite_eq_right_iff.2 Eq.symm).symm⟩
    exact ⟨fun _ => hagree, fun _ _ => .inl hcontent⟩
  have hiff (hd : d.NothingPast serverClientID) :
      EnginesAgree order start content d ↔ SeedFits d content := by
    have hygo := Ygo.text_bootstrapText hd hkeeps hstart hcontent
    rw [EnginesAgree, and_iff_left hygo, hygo, seededText, SeedFits]
    simp only [Doc.text_eq_nil_iff]
    split
    · rename_i hempty
      exact Sidecar.text_bootstrapText_of_empty hd hkeeps hcontent hempty
    · exact Sidecar.text_bootstrapText_of_nonempty hd hcontent
  refine ⟨?_, fun hd hagree => .inr ((hiff hd).1 hagree)⟩
  rintro (hnil | ⟨hd, hfits⟩)
  · exact absurd hnil hcontent
  · exact (hiff hd).2 hfits

end

/-- The seed with its first character deleted, a character of client 5, and one of client 6 that
waits for client 7. -/
def replayedDoc : Doc Nat :=
  (Doc.started serverClientID []).receive
    ⟨seed serverClientID [0x61, 0x62] ++ [⟨5, 0, [(1, 1)], some 0x63⟩, ⟨6, 0, [(7, 0)], some 0x64⟩],
      [(1, 0)]⟩

theorem bootstrapText_agree_replayedDoc : replayedDoc.text .byId = [0x62, 0x63] ∧
    EnginesAgree .byId (some (1, 0)) [0x61, 0x62] replayedDoc := by
  have hpast : replayedDoc.NothingPast serverClientID :=
    ⟨by decide +kernel, by decide +kernel, by decide +kernel⟩
  have hstart : ∀ i ∈ some (1, 0), ∃ o, Integrated replayedDoc.items o ∧ o.id = i := by
    rintro i ⟨⟩
    exact ⟨⟨1, 0, [], some 0x61⟩, by decide +kernel, rfl⟩
  refine ⟨by decide +kernel, ?_⟩
  exact (bootstrapText_agree_iff_seedFits (DocOrder.keepsRuns_byId _ _) hstart _).1
    (.inr ⟨hpast, by decide +kernel⟩)

/-- The sidecar puts the content beside a text that a client has typed, and brings nothing into a
text from which the server's first seed was deleted. -/
theorem sidecar_seeds_differently :
    (let d : Doc Nat := (Doc.started serverClientID []).receive ⟨[⟨5, 0, [], some 0x61⟩], []⟩
     (Sidecar.bootstrapText [0x62] d).text .byId = [0x62, 0x61] ∧
      (Ygo.bootstrapText (some (5, 0)) [0x62] d).text .byId = [0x61]) ∧
    (let d : Doc Nat := (Doc.started serverClientID []).receive
      ⟨seed serverClientID [0x61], [(serverClientID, 0)]⟩
     (Sidecar.bootstrapText [0x62] d).text .byId = [] ∧
      (Ygo.bootstrapText (some (1, 0)) [0x62] d).text .byId = [0x62]) := by
  decide +kernel

end CollabEditor.Relay
