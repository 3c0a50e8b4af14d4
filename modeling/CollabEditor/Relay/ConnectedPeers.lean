import CollabEditor.Relay.RoomManager
/-!
# Connected peers and the registered room

A connection gets its room from the registry and adds its peer in a later step; an idle timer looks
at the peers and takes the room out in later steps.
-/

namespace CollabEditor.Relay

open Support.Execution Option List

variable {n : Nat} {α : Type}

def ConnectionPhase.connectedTo : ConnectionPhase → Option Nat
  | connected r => some r
  | _ => none

/-- Every peer whose read loop runs and that was not told to close is in the registered
room, whose flush loop runs. -/
def PeersRegistered (s : ManagerState n α) : Prop :=
  ∀ c, ∀ r ∈ (s.connections c).connectedTo, c ∉ s.told →
    s.registered = some r ∧ (s.rooms r).flushing = true
  deriving Decidable

def ConnectionsOnly (_ : ManagerState n α) : ManagerAction n α → Prop
  | .callRemove => False
  | .callClose _ => False
  | _ => True

instance (s : ManagerState n α) (a : ManagerAction n α) : Decidable (ConnectionsOnly s a) := by
  unfold ConnectionsOnly
  split <;> infer_instance

/-- The registered room has no peers, and no connection has got it or is about to get it
from the single flight. -/
def ManagerState.Unused (s : ManagerState n α) : Prop :=
  ∀ r ∈ s.registered, (s.rooms r).peers = [] ∧ s.flight ≠ some (.finished r) ∧
    ∀ c, s.connections c ≠ .gotRoom r
  deriving Decidable

/-- An idle timer takes out only a room that nobody uses at that moment. -/
def RemovesUnused (s : ManagerState n α) : ManagerAction n α → Prop
  | .timerRemove => s.Unused
  | a => ConnectionsOnly s a

instance (s : ManagerState n α) (a : ManagerAction n α) : Decidable (RemovesUnused s a) := by
  unfold RemovesUnused
  split <;> infer_instance

/-- Whoever has a room has the registered one; a room in `removed` is neither registered
nor about to be, and only such rooms are closed. -/
structure PeersInv (s : ManagerState n α) : Prop where
  peers : ∀ c r, s.connections c = .connected r → c ∈ (s.rooms r).peers
  holds : ∀ c r, s.connections c = .gotRoom r ∨ s.connections c = .connected r →
    s.registered = some r
  finished : ∀ r, s.flight = some (.finished r) → s.registered = some r
  creating : s.flight = some .creating → s.registered = none
  bootstrapping : ∀ r, s.flight = some (.bootstrapping r) →
    s.registered = none ∧ r < s.made ∧ r ∉ s.removed
  registered : ∀ r, s.registered = some r →
    r < s.made ∧ r ∉ s.removed ∧ (s.rooms r).flushing = true
  removed : ∀ r ∈ s.removed, r < s.made
  closing : ∀ r, (s.rooms r).closing ≠ .notBegun → r ∈ s.removed

namespace PeersInv

variable {s t : ManagerState n α} {a : ManagerAction n α}

lemma initial : PeersInv (.initial : ManagerState n α) where
  peers _ _ h := nomatch h
  holds _ _ h := by rcases h with h | h <;> cases h
  finished _ h := nomatch h
  creating h := nomatch h
  bootstrapping _ h := nomatch h
  registered _ h := nomatch h
  removed _ h := nomatch h
  closing _ h := absurd rfl h

/-- What a change of the rooms leaves of what is known: connected peers stay, only removed
rooms are closed, and only those stop flushing. -/
structure Keeps (s : ManagerState n α) (r : Nat) (room : RoomObject n α) : Prop where
  peers : ∀ c, s.connections c = .connected r → c ∈ (s.rooms r).peers → c ∈ room.peers
  closing : room.closing ≠ .notBegun → r ∈ s.removed
  flushing : (s.rooms r).flushing = true → r ∉ s.removed → room.flushing = true

variable (h : PeersInv s)
include h

lemma setRoom {r armed : Nat} {room : RoomObject n α} {doc : Option (List α)}
    {told : List (Fin n)} (hroom : Keeps s r room) :
    PeersInv { s.setRoom r room with doc, armed, told } := by
  have hrooms : ∀ r', Keeps s r' ((s.setRoom r room).rooms r') := by
    intro r'
    by_cases heq : r' = r
    · subst heq
      rwa [s.setRoom_self]
    · rw [s.setRoom_of_ne heq]
      exact ⟨fun _ _ => id, h.closing r', fun hf _ => hf⟩
  refine { h with
    peers := fun c r hc => (hrooms r).peers c hc (h.peers c r hc)
    registered := fun r hr => ?_
    closing := fun r => (hrooms r).closing }
  obtain ⟨hlt, hnot, hflushing⟩ := h.registered r hr
  exact ⟨hlt, hnot, (hrooms r).flushing hflushing hnot⟩

lemma goTo {c : Fin n} {p : ConnectionPhase}
    (hpeers : ∀ r, p = .connected r → c ∈ (s.rooms r).peers)
    (hholds : ∀ r, p = .gotRoom r ∨ p = .connected r → s.registered = some r) :
    PeersInv (s.goTo c p) := by
  refine { h with peers := fun c' r hc => ?_, holds := fun c' r hc => ?_ } <;>
    by_cases heq : c' = c
  · subst heq
    rw [s.goTo_self] at hc
    exact hpeers r hc
  · rw [s.goTo_of_ne heq] at hc
    exact h.peers c' r hc
  · subst heq
    rw [s.goTo_self] at hc
    exact hholds r hc
  · rw [s.goTo_of_ne heq] at hc
    exact h.holds c' r hc

lemma openDoc (hflight : s.flight = some .creating) :
    PeersInv { s.setRoom s.made .new with
      made := s.made + 1
      doc := some (s.doc.getD [])
      flight := some (.bootstrapping s.made) } := by
  have hnone := h.creating hflight
  have hfree : s.made ∉ s.removed := fun hmem => Nat.lt_irrefl _ (h.removed _ hmem)
  refine ⟨fun c r hc => ?_, h.holds, nofun, nofun, fun r hr => ?_, fun r hr => ?_,
    fun r hr => Nat.lt_succ_of_lt (h.removed r hr), fun r hr => ?_⟩
  · exact absurd (hnone.symm.trans (h.holds c r (.inr hc))) nofun
  · cases hr
    exact ⟨hnone, Nat.lt_succ_self _, hfree⟩
  · exact absurd (hnone.symm.trans hr) nofun
  · by_cases heq : r = s.made
    · rw [heq, s.setRoom_self] at hr
      exact absurd rfl hr
    · rw [s.setRoom_of_ne heq] at hr
      exact h.closing r hr

lemma store {r : Nat} (hflight : s.flight = some (.bootstrapping r))
    (hflushing : (s.rooms r).flushing = true) :
    PeersInv { s with registered := some r, flight := some (.finished r) } := by
  obtain ⟨hnone, hlt, hfree⟩ := h.bootstrapping r hflight
  refine ⟨h.peers, fun c r' hc => ?_, fun r' hr' => ?_, nofun, nofun, fun r' hr' => ?_, h.removed,
    h.closing⟩
  · exact absurd (hnone.symm.trans (h.holds c r' hc)) nofun
  · cases hr'
    rfl
  · cases hr'
    exact ⟨hlt, hfree, hflushing⟩

lemma finishFlight {r : Nat} (hflight : s.flight = some (.finished r)) :
    PeersInv { s with
      connections := fun c => if s.connections c = .inFlight then .gotRoom r else s.connections c
      flight := none } := by
  refine ⟨fun c r' hc => ?_, fun c r' hc => ?_, nofun, nofun, nofun, h.registered, h.removed,
    h.closing⟩
  · simp only at hc
    split at hc
    · cases hc
    · exact h.peers c r' hc
  · simp only at hc
    split at hc
    · rcases hc with hc | hc <;> cases hc
      exact h.finished r hflight
    · exact h.holds c r' hc

lemma takeOut (hunused : s.Unused) : PeersInv s.takeOut := by
  unfold ManagerState.takeOut
  split
  · rename_i r hreg
    obtain ⟨hpeers, hfinished, hgot⟩ := hunused r hreg
    obtain ⟨hlt, hfree, -⟩ := h.registered r hreg
    have hsame : ∀ {r'}, s.registered = some r' → r' = r := by
      intro r' hr'
      exact mem_unique hr' hreg
    refine ⟨h.peers, fun c r' hc => ?_, fun r' hr' => ?_, fun _ => rfl, fun r' hr' => ?_, nofun,
      fun r' hr' => ?_, fun r' hr' => mem_cons_of_mem _ (h.closing r' hr')⟩
    · obtain rfl := hsame (h.holds c r' hc)
      rcases hc with hc | hc
      · exact absurd hc (hgot c)
      · have hmem := h.peers c r' hc
        rw [hpeers] at hmem
        cases hmem
    · obtain rfl := hsame (h.finished r' hr')
      exact absurd hr' hfinished
    · exact absurd (hreg.symm.trans (h.bootstrapping r' hr').1) nofun
    · rcases mem_cons.1 hr' with rfl | hold
      · exact hlt
      · exact h.removed r' hold
  · exact h

lemma exitFlushLoop {r : Nat} (hsaw : (s.rooms r).sawClose = true) :
    PeersInv (s.setRoom r { s.rooms r with flushing := false }) := by
  have hbegun : (s.rooms r).closing ≠ .notBegun := by
    simp only [RoomObject.sawClose, Bool.and_eq_true, bne_iff_ne] at hsaw
    exact hsaw.2.1
  exact h.setRoom ⟨fun _ _ => id, h.closing r, fun _ hnot => absurd (h.closing r hbegun) hnot⟩

lemma addPeer {c : Fin n} {r : Nat} (hphase : s.connections c = .gotRoom r) :
    PeersInv ((s.setRoom r { s.rooms r with peers := (s.rooms r).peers ++ [c] }).goTo c
      (.connected r)) := by
  have hreg := h.holds c r (.inl hphase)
  have hroom : Keeps s r { s.rooms r with peers := (s.rooms r).peers ++ [c] } :=
    ⟨fun _ _ hmem => mem_append_left _ hmem, h.closing r, fun hf _ => hf⟩
  refine (h.setRoom hroom).goTo (fun r' hr' => ?_) (fun r' hr' => ?_)
  · cases hr'
    rw [s.setRoom_self]
    exact mem_concat_self
  · rcases hr' with hr' | hr' <;> cases hr'
    exact hreg

lemma removePeer (c : Fin n) (r : Nat) : PeersInv (s.removePeer c r) := by
  have hgone : PeersInv (s.goTo c .gone) := h.goTo (by simp) (by simp)
  have hroom : Keeps (s.goTo c .gone) r
      { s.rooms r with peers := (s.rooms r).peers.filter (· ≠ c) } := by
    refine ⟨fun c' hc' hmem => ?_, h.closing r, fun hf _ => hf⟩
    have hne : c' ≠ c := by
      rintro rfl
      rw [s.goTo_self] at hc'
      cases hc'
    exact mem_filter.2 ⟨hmem, by simpa using hne⟩
  exact hgone.setRoom hroom

lemma step (hok : RemovesUnused s a) (hs : managerStep s a = some t) : PeersInv t := by
  cases moves_of_managerStep hs with
  | load =>
    cases hreg : s.registered with
    | none => exact h.goTo (by simp) (by simp)
    | some r => exact h.goTo (by simp) (by simp [hreg])
  | @enter c =>
    have hnext : PeersInv (s.goTo c .inFlight) := h.goTo (by simp) (by simp)
    have hflight : ∀ f, some (s.flight.getD .lookup) = some f →
        f = .lookup ∨ s.flight = some f := by
      intro f hf
      cases hold : s.flight <;> simp_all
    exact { hnext with
      finished := fun r hr => h.finished r ((hflight _ hr).resolve_left (by simp))
      creating := fun hc => h.creating ((hflight _ hc).resolve_left (by simp))
      bootstrapping := fun r hr => h.bootstrapping r ((hflight _ hr).resolve_left (by simp)) }
  | addPeer hphase => exact h.addPeer hphase
  | disconnect => exact h.goTo (by simp) (by simp)
  | removePeer => exact h.removePeer _ _
  | flightLoad =>
    refine { h with
      finished := fun r hr => ?_
      creating := fun hc => ?_
      bootstrapping := fun r hr => ?_ } <;> cases hreg : s.registered <;> simp_all
  | openDoc hflight => exact h.openDoc hflight
  | startFlushLoop => exact h.setRoom ⟨fun _ _ => id, h.closing _, fun _ _ => rfl⟩
  | store hflight hflushing => exact h.store hflight hflushing
  | finishFlight hflight => exact h.finishFlight hflight
  | timerLoad | timerCheck => exact { h with }
  | timerRemove => exact { h.takeOut hok with }
  | callRemove => exact hok.elim
  | @close _ r _ _ hopen hr =>
    have hremoved : r ∈ s.removed := by
      by_cases hclosing : (s.rooms r).closing = .notBegun
      · exact (hr hclosing).resolve_right (by rintro rfl; exact hok.elim)
      · exact h.closing r hclosing
    exact h.setRoom ⟨fun _ _ => id, fun _ => hremoved, fun hf _ => hf⟩
  | @closeDoc r _ hclosing =>
    have hremoved := h.closing r (by simp [hclosing])
    exact h.setRoom ⟨fun _ _ => id, fun _ => hremoved, fun hf _ => hf⟩
  | exitFlushLoop hsaw => exact h.exitFlushLoop hsaw
  | apply => exact h.setRoom ⟨fun _ _ => id, h.closing _, fun hf _ => hf⟩

lemma peersRegistered : PeersRegistered s := by
  intro c r hr _
  have hconn : s.connections c = .connected r := by
    cases hphase : s.connections c <;> simp_all [ConnectionPhase.connectedTo]
  have hreg := h.holds c r (.inr hconn)
  exact ⟨hreg, (h.registered r hreg).2.2⟩

end PeersInv

/-- No connected peer sits in a removed room, in every interleaving in which the idle
timers take out only rooms that nobody uses at that moment. -/
theorem peersRegistered_of_removesUnused {s : ManagerState n α}
    (hrun : Run managerStep RemovesUnused .initial s) : PeersRegistered s :=
  (hrun.invariant PeersInv.initial fun _ _ _ h hok hs => h.step hok hs).peersRegistered

/-- The first connection leaves, its room is taken out and closed, and the second one gets a
room of its own. -/
theorem peersRegistered_after_idle : ∃ s, exec managerStep RemovesUnused .initial
        (connectFirst 0 ++ leaveIdle 0 0 ++ closeRoom 0 ++ connectFirst 1) = some s ∧
      s.connections 1 = .connected 1 ∧ PeersRegistered s :=
  exec_and (by decide +kernel) fun _ hrun => peersRegistered_of_removesUnused hrun

/-- The second connection gets the room before the timer takes it out, and adds its peer
after the room has been closed. -/
def joinsWhileRemoved (a b : Fin 2) : List (ManagerAction 2 Nat) :=
  connectFirst a ++ [.disconnect a, .removePeer a, .load b, .timerLoad, .timerCheck 0,
    .timerRemove] ++ closeRoom 0 ++ [.addPeer b]

theorem peer_left_in_removed_room :
    ¬ ∀ s : ManagerState 2 Nat, Run managerStep ConnectionsOnly .initial s → PeersRegistered s :=
  not_forall_run (joinsWhileRemoved 0 1) (by decide +kernel)

end CollabEditor.Relay
