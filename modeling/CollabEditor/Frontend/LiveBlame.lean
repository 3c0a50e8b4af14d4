import CollabEditor.Frontend.BlameEngine
import CollabEditor.Frontend.Lockstep
/-!
# Whom live blame names

What a user types bears the client id of the editor doc it was typed into. The name of a user is
published under the client id of `syncDoc`. Live blame looks up the one under the other.
-/

namespace CollabEditor.Frontend

open Support Execution CausalOps SharedText List Function Option

variable {ι K : Type}

structure Participants (ι : Type) where
  ids : ι → ClientIds
  userName : ι → String
  disjoint : ∀ i j c, (ids i).isLocal c → (ids j).isLocal c → i = j

/-- `awareness i` is what the client of `i` knows of the states of the others and its own: the
name in the state published under a client id. `typed` records who has typed what, and is read
by no function. -/
structure TypingSession (ι K : Type) where
  clients : ι → CollaborationProvider K
  present : ι → Bool
  awareness : ι → Nat → Option String
  typed : List (ι × Item K)

inductive TypingEvent (ι K : Type)
  | join (i : ι)
  | leave (i : ι)
  | edit (i : ι) (u : Update K)
  | accept (i : ι) (u : Update K)
  | deliver (sender receiver : ι) (u : Update K)
  | deliverAwareness (sender receiver : ι)
  | setOutbound (i : ι) (isOpen : Bool)
  | resetEditorDoc (i : ι)

namespace TypingSession

def initial (room : Participants ι) : TypingSession ι K where
  clients i := .initial (room.ids i)
  present _ := false
  awareness _ _ := none
  typed := []

variable [DecidableEq ι]

def setClient (s : TypingSession ι K) (i : ι) (client : CollaborationProvider K) :
    TypingSession ι K :=
  { s with clients := update s.clients i client }

def setAwareness (s : TypingSession ι K) (i : ι) (client : Nat) (name : Option String) :
    TypingSession ι K :=
  { s with
    awareness := update s.awareness i (update (s.awareness i) client name) }

/-- A state without a name, or with an empty one, is left out. -/
def getClientToUserMap (s : TypingSession ι K) (i : ι) (client : Nat) : Option String :=
  (s.awareness i client).filter (· ≠ "")

/-- The engine has the editor doc that was there when it was created. -/
def blameDoc (s : TypingSession ι K) (i : ι) : Doc K := (s.clients i).editorDocs 0

def getLiveBlame {P : Type} [LinearOrder P] [DecidableEq K] (order : DocOrder K P)
    (s : TypingSession ι K) (i : ι) : List BlameSegment :=
  extractBlameFromText order (s.blameDoc i) (s.getClientToUserMap i)

end TypingSession

/-- What is in the update has come from the doc `d`. -/
@[mk_iff]
structure TakenFrom (d : Doc K) (u : Update K) : Prop where
  items : ∀ o ∈ u.items, o ∈ d.items
  deletes : ∀ i ∈ u.deletes, i ∈ d.deletes

instance [DecidableEq K] (d : Doc K) (u : Update K) : Decidable (TakenFrom d u) :=
  decidable_of_iff' _ (takenFrom_iff ..)

section

variable [DecidableEq ι] [DecidableEq K] (room : Participants ι)

def typingStep (s : TypingSession ι K) : TypingEvent ι K → Option (TypingSession ι K)
  | .join i =>
    some ({ s with present := update s.present i true }.setAwareness i
      (room.ids i).sync (some (room.userName i)))
  | .leave i =>
    some ({ s with present := update s.present i false }.setAwareness i
      (room.ids i).sync none)
  | .edit i u =>
    let client := s.clients i
    if client.editorDoc.LocalEdit u then
      some { s.setClient i (client.transact (.editor client.replicator.editor) u) with
        typed := s.typed ++ u.items.map fun o => (i, o) }
    else none
  | .accept i u =>
    let client := s.clients i
    if client.syncDoc.LocalEdit u then some (s.setClient i (client.transact .sync u)) else none
  | .deliver sender receiver u =>
    if TakenFrom (s.clients sender).syncDoc u then
      some (s.setClient receiver ((s.clients receiver).transact .sync u))
    else none
  | .deliverAwareness sender receiver =>
    let client := (room.ids sender).sync
    some (s.setAwareness receiver client (s.awareness sender client))
  | .setOutbound i isOpen => some (s.setClient i ((s.clients i).setOutbound isOpen))
  | .resetEditorDoc i => some (s.setClient i (s.clients i).resetEditorDoc)

/-- A segment bears the name of whoever has typed a character of it and is present. -/
def NamesTypists {P : Type} [LinearOrder P] (order : DocOrder K P) (s : TypingSession ι K) : Prop :=
  ∀ i, ∀ segment ∈ s.getLiveBlame order i, ∀ position, segment.Covers position →
    ∀ o, ((s.blameDoc i).inOrder order)[position]? = some o →
      ∀ j, (j, o) ∈ s.typed → s.present j = true → segment.userName = room.userName j

/-- Every character of someone present has been typed by a user whose name is that made up for
client ids without a user. -/
def NamedByClientId (s : TypingSession ι K) : Prop :=
  ∀ i o, (s.blameDoc i).Shows o → ∀ j, (j, o) ∈ s.typed → s.present j = true →
    room.userName j = "user-" ++ toString o.client

end

/-! ## Two spaces of client ids -/

/-- Names are published for `syncDoc`s, and characters bear the ids of editor docs. -/
structure TypingInv (room : Participants ι) (s : TypingSession ι K) : Prop where
  clients : ∀ i n, ((s.clients i).editorDocs n).client = (room.ids i).editor n
  published : ∀ i c, s.awareness i c ≠ none → ∃ j, c = (room.ids j).sync
  typed : ∀ q ∈ s.typed, ∃ n, q.2.client = (room.ids q.1).editor n

namespace Participants

lemma editor_ne_sync (room : Participants ι) (i j : ι) (n : Nat) :
    (room.ids i).editor n ≠ (room.ids j).sync := by
  intro h
  obtain rfl := room.disjoint i j _ ((room.ids i).editor_local n) (h ▸ (room.ids j).sync_local)
  exact (room.ids i).editor_ne_sync n h

end Participants

namespace TypingInv

variable {room : Participants ι} {s t : TypingSession ι K}

lemma initial (room : Participants ι) : TypingInv room (.initial room : TypingSession ι K) :=
  ⟨fun _ _ => rfl, fun _ _ h => absurd rfl h, by simp [TypingSession.initial]⟩

lemma blameName_typed (h : TypingInv room s) {i j : ι} {o : Item K} (ho : (j, o) ∈ s.typed) :
    blameName (s.getClientToUserMap i) o.client = "user-" ++ toString o.client := by
  obtain ⟨n, hn⟩ := h.typed _ ho
  have hnone : s.awareness i o.client = none := by
    by_contra hsome
    obtain ⟨k, hk⟩ := h.published i _ hsome
    exact room.editor_ne_sync j k n (hn.symm.trans hk)
  simp [blameName, TypingSession.getClientToUserMap, hnone]

lemma client_applyUpdate [DecidableEq K] (h : TypingInv room s) (i : ι)
    (listeners : List DocReplicator) (name : DocName) (u : Update K) (origin : Origin) (n : Nat) :
    ((CollaborationProvider.applyUpdate listeners CollaborationProvider.callDepth (s.clients i) name
      u origin).editorDocs n).client = (room.ids i).editor n := by
  refine CollaborationProvider.applyUpdate_invariant
    (Q := fun p => ∀ n, (p.editorDocs n).client = (room.ids i).editor n) ?_ (fun _ _ _ hp => hp)
    listeners _ (h.clients i) name u origin n
  intro p name u hp m
  cases name with
  | sync => exact hp m
  | editor k =>
    simp only [CollaborationProvider.setDoc, update_apply]
    split_ifs with hm
    · rw [hm]
      exact hp k
    · exact hp m

variable [DecidableEq ι]

lemma setClient (h : TypingInv room s) {i : ι} {client : CollaborationProvider K}
    (hclient : ∀ n, (client.editorDocs n).client = (room.ids i).editor n) :
    TypingInv room (s.setClient i client) := by
  refine { h with clients := fun j n => ?_ }
  simp only [TypingSession.setClient, update_apply]
  split_ifs with hj
  · rw [hj]
    exact hclient n
  · exact h.clients j n

lemma setAwareness (h : TypingInv room s) (i j : ι) (name : Option String) :
    TypingInv room (s.setAwareness i (room.ids j).sync name) := by
  refine { h with published := fun k c hc => ?_ }
  rw [TypingSession.setAwareness] at hc
  by_cases hk : k = i
  · subst hk
    by_cases hkey : c = (room.ids j).sync
    · exact ⟨j, hkey⟩
    · simp only [update_self, update_of_ne hkey] at hc
      exact h.published k c hc
  · simp only [update_of_ne hk] at hc
    exact h.published k c hc

variable [DecidableEq K]

lemma transact (h : TypingInv room s) (i : ι) (name : DocName) (u : Update K) :
    TypingInv room (s.setClient i ((s.clients i).transact name u)) :=
  h.setClient fun n => h.client_applyUpdate i _ name u .other n

lemma step {a : TypingEvent ι K} (h : TypingInv room s) (hs : typingStep room s a = some t) :
    TypingInv room t := by
  cases a with
  | join i =>
    cases hs
    have hpresent : TypingInv room { s with present := update s.present i true } :=
      { h with }
    exact hpresent.setAwareness i i _
  | leave i =>
    cases hs
    have habsent : TypingInv room { s with present := update s.present i false } :=
      { h with }
    exact habsent.setAwareness i i _
  | edit i u =>
    obtain ⟨hedit, ⟨⟩⟩ := ite_none_right_eq_some.1 hs
    have hnext := h.transact i (.editor (s.clients i).replicator.editor) u
    refine { hnext with typed := fun q hq => ?_ }
    rcases mem_append.1 hq with hold | hnew
    · exact h.typed q hold
    · obtain ⟨o, ho, rfl⟩ := mem_map.1 hnew
      exact ⟨_, (hedit.own o ho).trans (h.clients i _)⟩
  | accept i u =>
    obtain ⟨-, ⟨⟩⟩ := ite_none_right_eq_some.1 hs
    exact h.transact i .sync u
  | deliver sender receiver u =>
    obtain ⟨-, ⟨⟩⟩ := ite_none_right_eq_some.1 hs
    exact h.transact receiver .sync u
  | deliverAwareness sender receiver =>
    cases hs
    exact h.setAwareness receiver sender _
  | setOutbound i isOpen =>
    cases hs
    exact h.setClient (h.clients i)
  | resetEditorDoc i =>
    cases hs
    exact h.setClient fun n => h.client_applyUpdate i _ _ _ _ n

end TypingInv

section

variable [DecidableEq ι] [DecidableEq K] {room : Participants ι} {s : TypingSession ι K}
  {P : Type} [LinearOrder P] {order : DocOrder K P}

/-- Live blame names those who have typed the text exactly when they are called what it makes up
for client ids that it does not know. -/
theorem namesTypists_iff_namedByClientId (hrun : Run (typingStep room) anyStep (.initial room) s) :
    NamesTypists room order s ↔ NamedByClientId room s := by
  have h : TypingInv room s :=
    hrun.invariant (.initial room) fun _ _ _ h _ hs => h.step hs
  constructor
  · intro hnames i o hshows j htyped hpresent
    have hmem : o ∈ (s.blameDoc i).inOrder order :=
      (mem_insertionSort order.le).2 (Doc.mem_visible.2 hshows)
    obtain ⟨position, hposition⟩ := mem_iff_getElem?.1 hmem
    obtain ⟨hlt, -⟩ := List.getElem?_eq_some_iff.1 hposition
    obtain ⟨segment, hsegment, hcovers⟩ :=
      exists_covers order (s.blameDoc i) (s.getClientToUserMap i) hlt
    obtain ⟨p, hp, hname⟩ := userName_of_covers order _ _ hsegment hcovers
    obtain rfl : o = p := mem_unique hposition hp
    rw [← hnames i segment hsegment position hcovers o hposition j htyped hpresent, hname,
      h.blameName_typed htyped]
  · intro hnamed i segment hsegment position hcovers o hposition j htyped hpresent
    obtain ⟨p, hp, hname⟩ := userName_of_covers order _ _ hsegment hcovers
    obtain rfl : o = p := mem_unique hposition hp
    have hshows : (s.blameDoc i).Shows o := Doc.mem_visible.1
      ((mem_insertionSort order.le).1 (mem_of_getElem? hposition))
    rw [hname, h.blameName_typed htyped, hnamed i o hshows j htyped hpresent]

end

def oddIds : ClientIds where
  sync := 1
  editor n := 2 * n + 3
  isLocal c := c % 2 = 1
  sync_local := rfl
  editor_local n := by simp [Nat.add_mod]
  editor_ne_sync n := by simp
  editor_injective a b h := by
    have : 2 * a + 3 = 2 * b + 3 := h
    omega

def twoUsers (first : String) : Participants Bool where
  ids i := if i then oddIds else evenIds
  userName i := if i then "Bob" else first
  disjoint := by
    intro i j c hi hj
    cases i <;> cases j <;> simp_all [oddIds, evenIds]

def firstTypes : List (TypingEvent Bool Nat) :=
  [.join false, .join true, .deliverAwareness false true, .deliverAwareness true false,
    .edit false ⟨[⟨2, 0, [], some 0x61⟩], []⟩,
    .deliver false true ⟨[⟨2, 0, [], some 0x61⟩], []⟩]

theorem namesTypists_firstTypes : ∃ s : TypingSession Bool Nat,
      Run (typingStep (twoUsers "user-2")) anyStep (.initial (twoUsers "user-2")) s ∧
      s.getLiveBlame .byId true = [⟨0, 1, "user-2"⟩] ∧ NamesTypists (twoUsers "user-2") .byId s :=
  exists_run_imp firstTypes (P := fun s => s.getLiveBlame .byId true = [⟨0, 1, "user-2"⟩] ∧
      s.typed = [(false, ⟨2, 0, [], some 0x61⟩)])
    (by decide +kernel) fun _ hrun ⟨hblame, htyped⟩ => by
    refine ⟨hblame, (namesTypists_iff_namedByClientId hrun).2 fun i o _ j hmem _ => ?_⟩
    rw [htyped, mem_singleton, Prod.mk.injEq] at hmem
    obtain ⟨rfl, rfl⟩ := hmem
    rfl

/-- Bob's client has Alice's name, and shows the id of the editor doc that was typed into. -/
theorem typist_not_named : ∃ s : TypingSession Bool Nat,
      Run (typingStep (twoUsers "Alice")) anyStep (.initial (twoUsers "Alice")) s ∧
      s.getClientToUserMap true 0 = some "Alice" ∧ s.getLiveBlame .byId true = [⟨0, 1, "user-2"⟩] ∧
      ¬ NamesTypists (twoUsers "Alice") .byId s :=
  exists_run_imp firstTypes (P := fun s => s.getClientToUserMap true 0 = some "Alice" ∧
      s.getLiveBlame .byId true = [⟨0, 1, "user-2"⟩] ∧
      ((s.blameDoc true).inOrder .byId)[0]? = some ⟨2, 0, [], some 0x61⟩ ∧
      (false, ⟨2, 0, [], some 0x61⟩) ∈ s.typed ∧ s.present false = true) (by decide +kernel)
    fun _ _ ⟨hknown, hblame, hshown, htyped, hpresent⟩ => by
      refine ⟨hknown, hblame, fun hnames => ?_⟩
      have hname := hnames true ⟨0, 1, "user-2"⟩ (by simp [hblame]) 0
        ⟨le_refl _, by decide⟩ _ hshown false htyped hpresent
      simp [twoUsers] at hname

end CollabEditor.Frontend
