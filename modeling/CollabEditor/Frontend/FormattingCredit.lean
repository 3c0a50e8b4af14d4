import CollabEditor.Frontend.CharacterOwners
import CollabEditor.Frontend.PositionMap
/-!
# Credit for formatting

`findFormattingOverrides` of `pm-position-map.ts`: a marked text node whose characters are all of
one client, between delimiters that are all of another, is credited to the user of the delimiters.
-/

namespace CollabEditor.Frontend.Highlights

open Support TextDiff Chain List

variable {K : Type} [DecidableEq K]

structure DelimiterPattern (K : Type) where
  mark : String
  opening : List K
  closing : List K

structure FormattingOverride where
  start : Nat
  stop : Nat
  delimiterUser : String
  textUser : String
  deriving DecidableEq

def findYTextStartForPMPos (posMap : PositionMap) (pmPos : Nat) : Option Nat :=
  (posMap.find? fun e => e.2 = pmPos).map Prod.fst

def DelimiterPattern.Around (p : DelimiterPattern K) (yText : List K) (start stop : Nat) : Prop :=
  p.opening.length ≤ start ∧ slice yText (start - p.opening.length) start = p.opening ∧
    slice yText stop (stop + p.closing.length) = p.closing

instance (p : DelimiterPattern K) (yText : List K) (start stop : Nat) :
    Decidable (p.Around yText start stop) := inferInstanceAs (Decidable (_ ∧ _ ∧ _))

def twoUsersOf (clientToUser : Nat → Option String) (delimClient textClient : Nat) :
    Option (String × String) :=
  if delimClient = textClient then none
  else
    match clientToUser delimClient, clientToUser textClient with
    | some delimUser, some textUser =>
      if delimUser = "" ∨ textUser = "" ∨ delimUser = textUser then none
      else some (delimUser, textUser)
    | _, _ => none

section

variable (chain : List (StringItem K)) (clientToUser : Nat → Option String)

def delimClients (p : DelimiterPattern K) (start stop : Nat) : List Nat :=
  (collectClientsInRange chain stop (stop + p.closing.length)).foldl addClient
    (collectClientsInRange chain (start - p.opening.length) start)

def overrideFor (posMap : PositionMap) (start stop : Nat) (p : DelimiterPattern K) :
    Option FormattingOverride :=
  if p.Around (visibleText chain) start stop then
    match delimClients chain p start stop, collectClientsInRange chain start stop with
    | [delimClient], [textClient] =>
      (twoUsersOf clientToUser delimClient textClient).bind fun (delimUser, textUser) =>
        (snapRange start stop posMap).map fun (a, b) => ⟨a, b, delimUser, textUser⟩
    | _, _ => none
  else none

/-- For each mark of a text node the first pattern that gives something. -/
def nodeOverrides (posMap : PositionMap) (patterns : List (DelimiterPattern K)) (n : TextNode K) :
    List FormattingOverride :=
  if n.text = [] ∨ n.marks = [] then []
  else
    match findYTextStartForPMPos posMap n.pos with
    | none => []
    | some start =>
      n.marks.filterMap fun mark => (patterns.filter fun p => p.mark = mark).findSome?
        (overrideFor chain clientToUser posMap start (start + n.text.length))

def findFormattingOverrides (doc : Document K) (patterns : List (DelimiterPattern K)) :
    List FormattingOverride :=
  doc.nodes.flatMap
    (nodeOverrides chain clientToUser (doc.positionMap (visibleText chain)) patterns)

structure Credited (doc : Document K) (o : FormattingOverride) (n : TextNode K)
    (p : DelimiterPattern K) (offset textClient delimClient : Nat) : Prop where
  mapped : ∀ k < n.text.length, (offset + k, n.pos + k) ∈ doc.positionMap (visibleText chain)
  covers : o.start = n.pos ∧ o.stop = n.pos + n.text.length
  around : p.Around (visibleText chain) offset (offset + n.text.length)
  typed : ∀ i, offset ≤ i → i < offset + n.text.length → (owners chain)[i]? = some textClient
  opened : ∀ i, offset - p.opening.length ≤ i → i < offset → (owners chain)[i]? = some delimClient
  closed : ∀ i, offset + n.text.length ≤ i → i < offset + n.text.length + p.closing.length →
    (owners chain)[i]? = some delimClient
  others : delimClient ≠ textClient
  named : clientToUser textClient = some o.textUser ∧
    clientToUser delimClient = some o.delimiterUser
  differ : o.textUser ≠ o.delimiterUser

variable {chain clientToUser} {doc : Document K} {n : TextNode K} {p : DelimiterPattern K}
  {start stop client : Nat}

/-! ## Owners of a range -/

omit [DecidableEq K] in
lemma owner_of_collected (h : ∀ c ∈ collectClientsInRange chain start stop, c = client)
    (hstop : stop ≤ (visibleText chain).length) {i : Nat} (hi : start ≤ i) (hlt : i < stop) :
    (owners chain)[i]? = some client := by
  have hlength : i < (owners chain).length := by
    rw [length_owners]
    omega
  have hmem := ((collected_collectClientsInRange (by omega : start < stop) chain).mem
    (owners chain)[i]).2 ⟨i, hi, hlt, getElem?_eq_getElem hlength⟩
  rw [getElem?_eq_getElem hlength, h _ hmem]

lemma mem_foldl_addClient {clients more : List Nat} {c : Nat} :
    c ∈ more.foldl addClient clients ↔ c ∈ clients ∨ c ∈ more := by
  induction more generalizing clients with
  | nil => simp
  | cons m more ih => rw [foldl_cons, ih, mem_addClient, mem_cons, or_assoc]

omit [DecidableEq K] in
lemma stop_le_of_slice_eq {t s : List K} (h : slice t start (start + s.length) = s)
    (hstart : start ≤ t.length) : start + s.length ≤ t.length := by
  have hlength := congrArg length h
  simp [slice] at hlength
  omega

/-! ## Overrides -/

lemma mem_found_of_start {yText : List K} (hn : n ∈ doc.nodes) (htext : n.text ≠ [])
    (h : findYTextStartForPMPos (doc.positionMap yText) n.pos = some start) :
    (start, n) ∈ found yText 0 doc.nodes := by
  obtain ⟨e, hfind, rfl⟩ := Option.map_eq_some_iff.1 h
  have hpos : e.2 = n.pos := by simpa using find?_some hfind
  obtain ⟨b, hb, hblock⟩ := mem_positionMap.1 (mem_of_find?_eq_some hfind)
  obtain ⟨k, hk, rfl⟩ := mem_block.1 hblock
  have hlen := length_pos_of_ne_nil htext
  have hsame : b.2 = n := by
    by_contra hne
    have := doc.apart (mem_found hb).2.2.2 hn hne
    dsimp only at hpos
    omega
  subst hsame
  obtain rfl : k = 0 := by
    dsimp only at hpos
    omega
  exact hb

lemma twoUsersOf_eq_some {delimClient textClient : Nat} {delimUser textUser : String}
    (h : twoUsersOf clientToUser delimClient textClient = some (delimUser, textUser)) :
    delimClient ≠ textClient ∧ clientToUser delimClient = some delimUser ∧
      clientToUser textClient = some textUser ∧ textUser ≠ delimUser := by
  rw [twoUsersOf, Option.ite_none_left_eq_some] at h
  obtain ⟨hne, h⟩ := h
  split at h
  · rename_i hdelim htext
    obtain ⟨hnames, ⟨⟩⟩ := Option.ite_none_left_eq_some.1 h
    exact ⟨hne, hdelim, htext, fun heq => hnames (.inr (.inr heq.symm))⟩
  · cases h

lemma snapRange_of_found {yText : List K} (h : (start, n) ∈ found yText 0 doc.nodes) :
    snapRange start (start + n.text.length) (doc.positionMap yText) =
      some (n.pos, n.pos + n.text.length) := by
  have hlen : 0 < n.text.length := length_pos_of_ne_nil (mem_found h).2.1
  have hmem : ∀ k < n.text.length, (start + k, n.pos + k) ∈ doc.positionMap yText := fun k hk =>
    mem_positionMap.2 ⟨_, h, mem_block.2 ⟨k, hk, rfl⟩⟩
  have hsnap := (increasing_positionMap doc yText).snapRange_of_mem (hmem 0 hlen)
    (hmem (n.text.length - 1) (by omega)) (by simp)
  have hlast : ∀ m, m + (n.text.length - 1) + 1 = m + n.text.length := by omega
  simpa only [Nat.add_zero, hlast] using hsnap

lemma credited_of_overrideFor {o : FormattingOverride}
    (hfound : (start, n) ∈ found (visibleText chain) 0 doc.nodes)
    (h : overrideFor chain clientToUser (doc.positionMap (visibleText chain)) start
      (start + n.text.length) p = some o) :
    ∃ textClient delimClient,
      Credited chain clientToUser doc o n p start textClient delimClient := by
  have hlen : 0 < n.text.length := length_pos_of_ne_nil (mem_found hfound).2.1
  have hstop : start + n.text.length ≤ (visibleText chain).length := by
    have hlast := char_of_found hfound (by omega : n.text.length - 1 < n.text.length)
    have := (List.getElem?_eq_some_iff.1 hlast).1
    dsimp only at this
    omega
  rw [overrideFor, Option.ite_none_right_eq_some] at h
  obtain ⟨haround, h⟩ := h
  split at h
  · rename_i delimClient textClient hdelim htext
    obtain ⟨⟨delimUser, textUser⟩, husers, h⟩ := Option.bind_eq_some_iff.1 h
    rw [snapRange_of_found hfound] at h
    cases h
    obtain ⟨hne, hdelimUser, htextUser, hdiffer⟩ := twoUsersOf_eq_some husers
    have hcollected : ∀ c, c ∈ collectClientsInRange chain (start - p.opening.length) start ∨
        c ∈ collectClientsInRange chain (start + n.text.length)
          (start + n.text.length + p.closing.length) → c = delimClient := by
      intro c hc
      rw [← mem_foldl_addClient] at hc
      exact mem_singleton.1 (hdelim ▸ hc)
    refine ⟨textClient, delimClient, ⟨?_, ⟨rfl, rfl⟩, haround, ?_, ?_, ?_, hne,
      ⟨htextUser, hdelimUser⟩, hdiffer⟩⟩
    · exact fun k hk => mem_positionMap.2 ⟨_, hfound, mem_block.2 ⟨k, hk, rfl⟩⟩
    · intro i hi hlt
      exact owner_of_collected (fun c hc => mem_singleton.1 (htext ▸ hc)) hstop hi hlt
    · intro i hi hlt
      exact owner_of_collected (fun c hc => hcollected c (.inl hc)) (by omega) hi hlt
    · intro i hi hlt
      exact owner_of_collected (fun c hc => hcollected c (.inr hc))
        (stop_le_of_slice_eq haround.2.2 hstop) hi hlt
  · cases h

theorem formatting_credit_sound (doc : Document K) (chain : List (StringItem K))
    (clientToUser : Nat → Option String) (patterns : List (DelimiterPattern K)) :
    ∀ o ∈ findFormattingOverrides chain clientToUser doc patterns,
      ∃ n ∈ doc.nodes, ∃ p ∈ patterns, p.mark ∈ n.marks ∧ ∃ offset textClient delimClient,
          Credited chain clientToUser doc o n p offset textClient delimClient := by
  intro o ho
  obtain ⟨n, hn, ho⟩ := mem_flatMap.1 ho
  unfold nodeOverrides at ho
  split at ho
  · cases ho
  · rename_i hmarked
    split at ho
    · cases ho
    · rename_i start hstart
      obtain ⟨mark, hmark, ho⟩ := mem_filterMap.1 ho
      obtain ⟨p, hpattern, ho⟩ := exists_of_findSome?_eq_some ho
      obtain ⟨hp, hpm⟩ := mem_filter.1 hpattern
      rw [← of_decide_eq_true hpm] at hmark
      have hfound := mem_found_of_start hn (fun hempty => hmarked (.inl hempty)) hstart
      exact ⟨n, hn, p, hp, hmark, start, credited_of_overrideFor hfound ho⟩

end

/-- `**b**`, with the stars typed by client 1 and the letter by client 2. -/
def starredByOther : List (StringItem Nat) :=
  [⟨⟨1, 0, [42, 42], false⟩, by decide⟩, ⟨⟨2, 0, [98], false⟩, by decide⟩,
    ⟨⟨1, 2, [42, 42], false⟩, by decide⟩]

def boldNode : Document Nat := ⟨[⟨1, [98], ["bold"]⟩], by simp⟩

theorem stars_credited :
    ∃ o ∈ findFormattingOverrides starredByOther (fun c => [none, "ann", "bob"][c]?.join) boldNode
        [⟨"bold", [42, 42], [42, 42]⟩], o.delimiterUser = "ann" ∧
      ∃ n ∈ boldNode.nodes, ∃ p ∈ [(⟨"bold", [42, 42], [42, 42]⟩ : DelimiterPattern Nat)],
        p.mark ∈ n.marks ∧ ∃ offset textClient delimClient, Credited starredByOther
          (fun c => [none, "ann", "bob"][c]?.join) boldNode o n p offset
          textClient delimClient := by
  refine ⟨⟨1, 2, "ann", "bob"⟩, by decide, rfl, ?_⟩
  exact formatting_credit_sound boldNode starredByOther _ _ _ (by decide)

end CollabEditor.Frontend.Highlights
