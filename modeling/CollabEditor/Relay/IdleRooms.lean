import CollabEditor.Relay.RoomManager
import Mathlib.Data.Fintype.Basic
import Mathlib.Tactic.SplitIfs
/-!
# Idle rooms of a relay with a broker

The relay of `Relay.RoomManager` with a broker: if `HandleConnection` can subscribe to the
document's channel, it adds a peer for the broker to the room.  `PeerCount` counts it with the
clients, and nothing removes it.
-/

namespace CollabEditor.Relay

open Support.Execution List Option Nat

variable {n : Nat} {α : Type}

/-- `tried` are the rooms for which `newBrokerConn` has returned. -/
structure BrokerRelay (n : Nat) (α : Type) where
  manager : ManagerState n α
  tried : List Nat
  brokerPeers : List Nat

/-- `subscribe` is the call of `newBrokerConn`, with `AddPeer` if there is no error. -/
inductive BrokerRelayAction (n : Nat) (α : Type)
  | manager (a : ManagerAction n α)
  | subscribe (ok : Bool)
  deriving DecidableEq

namespace BrokerRelay

def initial : BrokerRelay n α := ⟨.initial, [], []⟩

def isEmpty (s : BrokerRelay n α) (r : Nat) (clients : List (Fin n)) : Bool :=
  clients.isEmpty && !s.brokerPeers.contains r

/-- `RemovePeer`, and `ScheduleRemoval` for the last peer. -/
def removePeer (s : BrokerRelay n α) (c : Fin n) (r : Nat) : BrokerRelay n α :=
  { s with
    manager := { s.manager.removePeer c r with
      armed := if s.isEmpty r ((s.manager.rooms r).peers.filter (· ≠ c)) then s.manager.armed + 1
        else s.manager.armed } }

def timerCheck (s : BrokerRelay n α) (r : Nat) : BrokerRelay n α :=
  { s with
    manager := { s.manager with
      loaded := s.manager.loaded.erase r
      checked := if s.isEmpty r (s.manager.rooms r).peers then s.manager.checked + 1
        else s.manager.checked } }

def subscribe (s : BrokerRelay n α) (ok : Bool) : Option (BrokerRelay n α) :=
  match s.manager.flight with
  | some (.bootstrapping r) =>
    if (s.manager.rooms r).flushing ∧ r ∉ s.tried then
      some { s with
        tried := r :: s.tried
        brokerPeers := if ok then r :: s.brokerPeers else s.brokerPeers }
    else none
  | _ => none

/-- `Store` comes after the callback has returned. -/
def mayStore (s : BrokerRelay n α) : Bool :=
  match s.manager.flight with
  | some (.bootstrapping r) => s.tried.contains r
  | _ => false

end BrokerRelay

def brokerRelayStep (s : BrokerRelay n α) : BrokerRelayAction n α → Option (BrokerRelay n α)
  | .subscribe ok => s.subscribe ok
  | .manager (.removePeer c) =>
    match s.manager.connections c with
    | .leaving r => some (s.removePeer c r)
    | _ => none
  | .manager (.timerCheck r) => if r ∈ s.manager.loaded then some (s.timerCheck r) else none
  | .manager .store =>
    if s.mayStore then (managerStep s.manager .store).map fun manager => { s with manager }
    else none
  | .manager a => (managerStep s.manager a).map fun manager => { s with manager }

/-! ## Where a room can be -/

def ManagerState.Placed (s : ManagerState n α) (r : Nat) : Prop :=
  s.registered = some r ∨ r ∈ s.removed

def ConnectionPhase.room : ConnectionPhase → Option Nat
  | gotRoom r => some r
  | connected r => some r
  | leaving r => some r
  | _ => none

/-- While a room is made none is registered, and the new one has not been taken out; whoever has a
room has one that was registered. -/
structure PlacedInv (s : ManagerState n α) : Prop where
  creating : s.flight = some .creating → s.registered = none
  bootstrapping : ∀ r, s.flight = some (.bootstrapping r) →
    s.registered = none ∧ r < s.made ∧ r ∉ s.removed
  known : ∀ r, s.Placed r → r < s.made
  finished : ∀ r, s.flight = some (.finished r) → s.Placed r
  held : ∀ c, ∀ r ∈ (s.connections c).room, s.Placed r

namespace PlacedInv

variable {s t : ManagerState n α} {a : ManagerAction n α}

lemma initial : PlacedInv (.initial : ManagerState n α) where
  creating := nofun
  bootstrapping _ h := nomatch h
  known r h := by rcases h with h | h <;> cases h
  finished _ h := nomatch h
  held _ _ h := nomatch h

variable (h : PlacedInv s)
include h

lemma removed_of_bootstrapping {r r' : Nat} (hflight : s.flight = some (.bootstrapping r'))
    (hr : s.Placed r) : r ∈ s.removed ∧ r ≠ r' := by
  obtain ⟨hnone, -, hfresh⟩ := h.bootstrapping r' hflight
  have hremoved := hr.resolve_left fun hreg => absurd (hnone.symm.trans hreg) nofun
  exact ⟨hremoved, fun heq => hfresh (heq ▸ hremoved)⟩

lemma goTo {c : Fin n} {p : ConnectionPhase} (hp : ∀ r ∈ p.room, s.Placed r) :
    PlacedInv (s.goTo c p) := by
  refine { h with held := fun c' r hr => ?_ }
  by_cases heq : c' = c
  · rw [heq, s.goTo_self] at hr
    exact hp r hr
  · rw [s.goTo_of_ne heq] at hr
    exact h.held c' r hr

lemma enter : PlacedInv { s with flight := some (s.flight.getD .lookup) } := by
  cases hflight : s.flight with
  | none => exact ⟨nofun, nofun, h.known, nofun, h.held⟩
  | some f =>
    rw [getD_some, ← hflight]
    exact h

lemma load {c : Fin n} :
    PlacedInv (s.goTo c (match s.registered with | some r => .gotRoom r | none => .missed)) := by
  refine h.goTo fun r hr => ?_
  cases hreg : s.registered with
  | none =>
    rw [hreg] at hr
    cases hr
  | some r' =>
    rw [hreg] at hr
    cases hr
    exact .inl hreg

lemma flightLoad : PlacedInv { s with
    flight := some (match s.registered with | some r => .finished r | none => .creating) } := by
  refine ⟨fun hcreating => ?_, fun r hr => ?_, h.known, fun r hr => ?_, h.held⟩
  · dsimp only at hcreating ⊢
    split at hcreating
    · cases hcreating
    · assumption
  · dsimp only at hr
    split at hr <;> cases hr
  · dsimp only at hr
    split at hr <;> cases hr
    rename_i hreg
    exact .inl hreg

lemma store {r : Nat} (hflight : s.flight = some (.bootstrapping r)) :
    PlacedInv { s with registered := some r, flight := some (.finished r) } := by
  refine ⟨nofun, nofun, fun r' hr' => ?_, fun r' hr' => ?_, fun c r' hr' => ?_⟩
  · rcases hr' with hr' | hr'
    · cases hr'
      exact (h.bootstrapping r hflight).2.1
    · exact h.known r' (.inr hr')
  · cases hr'
    exact .inl rfl
  · exact .inr (h.removed_of_bootstrapping hflight (h.held c r' hr')).1

lemma takeOut : PlacedInv s.takeOut := by
  unfold ManagerState.takeOut
  split
  · rename_i r hreg
    have hplaced : ∀ r', s.Placed r' → r' ∈ r :: s.removed := by
      rintro r' (hr' | hr')
      · rw [mem_unique hr' hreg]
        exact mem_cons_self
      · exact mem_cons_of_mem _ hr'
    refine ⟨fun _ => rfl, fun r' hr' => ?_, fun r' hr' => ?_,
      fun r' hr' => .inr (hplaced r' (h.finished r' hr')),
      fun c r' hr' => .inr (hplaced r' (h.held c r' hr'))⟩
    · exact absurd (hreg.symm.trans (h.bootstrapping r' hr').1) nofun
    · rcases hr' with hr' | hr'
      · cases hr'
      · rcases mem_cons.1 hr' with rfl | hold
        · exact h.known _ (.inl hreg)
        · exact h.known r' (.inr hold)
  · exact h

lemma step (hs : managerStep s a = some t) : PlacedInv t := by
  cases moves_of_managerStep hs with
  | load => exact h.load
  | @enter c =>
    have hnext : PlacedInv (s.goTo c .inFlight) := h.goTo nofun
    exact hnext.enter
  | @addPeer c r hphase =>
    have hheld := h.held c
    rw [hphase] at hheld
    have hnext : PlacedInv (s.goTo c (.connected r)) := h.goTo hheld
    exact { hnext with }
  | @disconnect c r hphase =>
    have hheld := h.held c
    rw [hphase] at hheld
    exact h.goTo hheld
  | @removePeer c =>
    have hnext : PlacedInv (s.goTo c .gone) := h.goTo nofun
    exact { hnext with }
  | flightLoad => exact h.flightLoad
  | openDoc hflight =>
    have hnone := h.creating hflight
    have hfresh : s.made ∉ s.removed := fun hmem => lt_irrefl _ (h.known _ (.inr hmem))
    refine ⟨nofun, fun r hr => ?_, fun r hr => lt_succ_of_lt (h.known r hr), nofun, h.held⟩
    cases hr
    exact ⟨hnone, lt_succ_self _, hfresh⟩
  | store hflight => exact h.store hflight
  | finishFlight hflight =>
    refine ⟨nofun, nofun, h.known, nofun, fun c r' hr' => ?_⟩
    dsimp only at hr'
    split at hr'
    · cases hr'
      exact h.finished _ hflight
    · exact h.held c r' hr'
  | timerRemove => exact { h.takeOut with }
  | callRemove => exact h.takeOut
  | startFlushLoop | timerLoad | timerCheck | close | closeDoc | exitFlushLoop | apply =>
    exact { h with }

end PlacedInv

/-- What the steps of the relay are: the attempt to subscribe for the room that is being made, the
two that look at the peer set, and those of the room manager. -/
inductive BrokerRelay.Moves (s : BrokerRelay n α) :
    BrokerRelayAction n α → BrokerRelay n α → Prop
  | subscribe {ok : Bool} {r : Nat} {tried brokerPeers : List Nat}
      (hflight : s.manager.flight = some (.bootstrapping r))
      (hpeers : brokerPeers ⊆ r :: s.brokerPeers) :
      Moves s (.subscribe ok) ⟨s.manager, tried, brokerPeers⟩
  | removePeer {c : Fin n} {r : Nat} (hleaving : s.manager.connections c = .leaving r) :
      Moves s (.manager (.removePeer c)) (s.removePeer c r)
  | timerCheck {r : Nat} : Moves s (.manager (.timerCheck r)) (s.timerCheck r)
  | manager {a : ManagerAction n α} {m : ManagerState n α} (hleave : ∀ c, a ≠ .removePeer c)
      (hcheck : ∀ r, a ≠ .timerCheck r) (hs : managerStep s.manager a = some m) :
      Moves s (.manager a) { s with manager := m }

lemma moves_of_brokerRelayStep {s t : BrokerRelay n α} {a : BrokerRelayAction n α}
    (hs : brokerRelayStep s a = some t) : s.Moves a t := by
  unfold brokerRelayStep at hs
  split at hs
  case h_1 ok =>
    unfold BrokerRelay.subscribe at hs
    split at hs
    · rename_i r hflight
      obtain ⟨-, rfl⟩ := ite_some_none_eq_some.1 hs
      refine .subscribe hflight ?_
      split_ifs
      · exact List.Subset.refl _
      · exact subset_cons_self _ _
    · cases hs
  case h_2 c =>
    split at hs <;> cases hs
    rename_i r hleaving
    exact .removePeer hleaving
  case h_3 r =>
    obtain ⟨-, rfl⟩ := ite_some_none_eq_some.1 hs
    exact .timerCheck
  case h_4 =>
    obtain ⟨-, hs⟩ := ite_none_right_eq_some.1 hs
    obtain ⟨m, hm, rfl⟩ := map_eq_some_iff.1 hs
    exact .manager nofun nofun hm
  case h_5 a hleave hcheck _ =>
    obtain ⟨m, hm, rfl⟩ := map_eq_some_iff.1 hs
    exact .manager hleave hcheck hm

lemma PlacedInv.brokerStep {s t : BrokerRelay n α} {a : BrokerRelayAction n α}
    (h : PlacedInv s.manager) (hs : brokerRelayStep s a = some t) : PlacedInv t.manager := by
  cases moves_of_brokerRelayStep hs with
  | subscribe hflight hpeers => exact h
  | @removePeer c r hleaving =>
    have hnext : PlacedInv (s.manager.goTo c .gone) := h.goTo nofun
    exact { hnext with }
  | timerCheck => exact { h with }
  | manager _ _ hm => exact h.step hm

/-! ## A room without peers and its timer -/

def NoJoin (_ : BrokerRelay n α) (a : BrokerRelayAction n α) : Prop :=
  ∀ c, a ≠ .manager (.addPeer c)

structure BrokerRelay.TimersDone (s : BrokerRelay n α) : Prop where
  armed : s.manager.armed = 0
  loaded : s.manager.loaded = []
  checked : s.manager.checked = 0
  closed : ∀ r ∈ s.manager.removed, (s.manager.rooms r).closing = .docClosed

/-- What is known of a room that its last client has left: as long as it is registered, a timer
is on its way. -/
structure IdleInv (r : Nat) (s : ManagerState n α) : Prop where
  placed : PlacedInv s
  peers : (s.rooms r).peers = []
  place : s.Placed r
  timer : s.registered = some r → 0 < s.armed ∨ r ∈ s.loaded ∨ 0 < s.checked

lemma registered_takeOut_ne (s : ManagerState n α) (r : Nat) : s.takeOut.registered ≠ some r := by
  unfold ManagerState.takeOut
  split
  · exact nofun
  · rename_i hnone
    rw [hnone]
    exact nofun

namespace IdleInv

variable {s t : ManagerState n α} {a : ManagerAction n α} {r : Nat}

section

variable (h : IdleInv r s)
include h

lemma setRoom_peers {r' : Nat} {room : RoomObject n α} (hpeers : room.peers = (s.rooms r').peers) :
    ((s.setRoom r' room).rooms r).peers = [] := by
  by_cases heq : r = r'
  · rw [heq, s.setRoom_self, hpeers, ← heq, h.peers]
  · rw [s.setRoom_of_ne heq, h.peers]

lemma takeOut : IdleInv r s.takeOut := by
  have hplaced := h.placed.takeOut
  revert hplaced
  unfold ManagerState.takeOut
  split
  · rename_i r' hreg
    intro hplaced
    refine ⟨hplaced, h.peers, .inr ?_, nofun⟩
    rcases h.place with hr | hr
    · rw [mem_unique hr hreg]
      exact mem_cons_self
    · exact mem_cons_of_mem _ hr
  · intro _
    exact h

lemma timerLoad :
    IdleInv r { s with armed := s.armed - 1, loaded := s.registered.toList ++ s.loaded } := by
  refine ⟨{ h.placed with }, h.peers, h.place, fun hreg => ?_⟩
  refine .inr (.inl (mem_append_left _ ?_))
  have hr : s.registered = some r := hreg
  rw [hr]
  exact mem_singleton_self r

lemma step (hjoin : ∀ c, a ≠ .addPeer c) (hleave : ∀ c, a ≠ .removePeer c)
    (hcheck : ∀ r, a ≠ .timerCheck r) (hs : managerStep s a = some t) : IdleInv r t := by
  have hplaced := h.placed.step hs
  cases moves_of_managerStep hs with
  | addPeer => exact absurd rfl (hjoin _)
  | removePeer => exact absurd rfl (hleave _)
  | timerCheck => exact absurd rfl (hcheck _)
  | load | enter | disconnect | flightLoad | finishFlight =>
    exact { h with placed := hplaced }
  | startFlushLoop | close | closeDoc | exitFlushLoop | apply =>
    exact { h with placed := hplaced, peers := h.setRoom_peers rfl }
  | openDoc =>
    have hroom := s.setRoom_of_ne (Nat.ne_of_lt (h.placed.known r h.place))
    exact { h with placed := hplaced, peers := (congrArg RoomObject.peers (hroom _)).trans h.peers }
  | store hflight =>
    -- The room that is registered now is another one.
    obtain ⟨hremoved, hne⟩ := h.placed.removed_of_bootstrapping hflight h.place
    exact ⟨hplaced, h.peers, .inr hremoved, fun hreg => absurd (some.inj hreg).symm hne⟩
  | timerLoad => exact h.timerLoad
  | timerRemove =>
    refine { h.takeOut with placed := hplaced, timer := fun hreg => ?_ }
    exact absurd hreg (registered_takeOut_ne s r)
  | callRemove => exact h.takeOut

end

lemma removePeer {s : BrokerRelay n α} (h : IdleInv r s.manager) {c : Fin n} {r' : Nat}
    (hplaced : PlacedInv (s.removePeer c r').manager) : IdleInv r (s.removePeer c r').manager := by
  refine ⟨hplaced, ?_, h.place, fun hreg => (h.timer hreg).imp_left fun harmed => ?_⟩
  · by_cases heq : r = r'
    · subst heq
      have hroom := s.manager.setRoom_self r
        { s.manager.rooms r with peers := (s.manager.rooms r).peers.filter (· ≠ c) }
      refine (congrArg RoomObject.peers hroom).trans ?_
      rw [h.peers]
      rfl
    · exact (congrArg RoomObject.peers (s.manager.setRoom_of_ne heq _)).trans h.peers
  · dsimp only [BrokerRelay.removePeer]
    split_ifs <;> omega

lemma timerCheck {s : BrokerRelay n α} (h : IdleInv r s.manager) (hbroker : r ∉ s.brokerPeers)
    (r' : Nat) : IdleInv r (s.timerCheck r').manager := by
  refine ⟨{ h.placed with }, h.peers, h.place, fun hreg => ?_⟩
  rcases h.timer hreg with harmed | hloaded | hchecked
  · exact .inl harmed
  · by_cases heq : r' = r
    · -- The room has no peer at all, so the timer goes on to remove it.
      have hempty : s.isEmpty r (s.manager.rooms r).peers = true := by
        rw [BrokerRelay.isEmpty, h.peers]
        simpa using hbroker
      refine .inr (.inr ?_)
      rw [heq]
      dsimp only [BrokerRelay.timerCheck]
      rw [if_pos hempty]
      exact succ_pos _
    · exact .inr (.inl ((mem_erase_of_ne (Ne.symm heq)).2 hloaded))
  · refine .inr (.inr ?_)
    dsimp only [BrokerRelay.timerCheck]
    split_ifs
    · exact succ_pos _
    · exact hchecked

lemma brokerStep {s t : BrokerRelay n α} {a : BrokerRelayAction n α}
    (h : IdleInv r s.manager ∧ r ∉ s.brokerPeers) (hjoin : NoJoin s a)
    (hs : brokerRelayStep s a = some t) : IdleInv r t.manager ∧ r ∉ t.brokerPeers := by
  obtain ⟨hidle, hbroker⟩ := h
  have hplaced := hidle.placed.brokerStep hs
  cases moves_of_brokerRelayStep hs with
  | @subscribe ok r' tried brokerPeers hflight hpeers =>
    refine ⟨hidle, fun hmem => hbroker ((mem_cons.1 (hpeers hmem)).resolve_left ?_)⟩
    exact (hidle.placed.removed_of_bootstrapping hflight hidle.place).2
  | removePeer hleaving => exact ⟨hidle.removePeer hplaced, hbroker⟩
  | timerCheck => exact ⟨hidle.timerCheck hbroker _, hbroker⟩
  | manager hleave hcheck hm =>
    exact ⟨hidle.step (fun c heq => hjoin c (heq ▸ rfl)) hleave hcheck hm, hbroker⟩

lemma removed_of_timersDone {s : BrokerRelay n α} (h : IdleInv r s.manager)
    (hdone : s.TimersDone) :
    s.manager.registered ≠ some r ∧ (s.manager.rooms r).closing = .docClosed := by
  have hout : s.manager.registered ≠ some r := by
    intro hreg
    rcases h.timer hreg with harmed | hloaded | hchecked
    · rw [hdone.armed] at harmed
      exact lt_irrefl _ harmed
    · rw [hdone.loaded] at hloaded
      cases hloaded
    · rw [hdone.checked] at hchecked
      exact lt_irrefl _ hchecked
  exact ⟨hout, hdone.closed r (h.place.resolve_left hout)⟩

end IdleInv

/-- The clean-up of the last client's connection schedules a timer, and if no client joins a room
until the timers are through, the room is out of the registry and has closed its doc. -/
def RemovedWhenIdle (s t : BrokerRelay n α) (r : Nat) : Prop :=
  t.manager.armed = s.manager.armed + 1 ∧ ∀ u, Run brokerRelayStep NoJoin t u → u.TimersDone →
      u.manager.registered ≠ some r ∧ (u.manager.rooms r).closing = .docClosed

/-- In every run of a relay with a broker the room that its last client has left is removed when
idle exactly if the broker has no peer in it, which is so exactly if the subscription failed. -/
theorem removedWhenIdle_iff_no_broker_peer {s t : BrokerRelay n α} {c : Fin n} {r : Nat}
    (hrun : Run brokerRelayStep anyStep .initial s)
    (hleaving : s.manager.connections c = .leaving r)
    (hs : brokerRelayStep s (.manager (.removePeer c)) = some t)
    (hlast : (t.manager.rooms r).peers = []) : RemovedWhenIdle s t r ↔ r ∉ s.brokerPeers := by
  have hplaced := hrun.invariant (P := fun s => PlacedInv s.manager) .initial
    fun _ _ _ h _ hs => h.brokerStep hs
  have hplaced' := hplaced.brokerStep hs
  have ht : t = s.removePeer c r := by
    simp only [brokerRelayStep, hleaving] at hs
    exact (Option.some.inj hs).symm
  subst ht
  have hclients : (s.manager.rooms r).peers.filter (· ≠ c) = [] :=
    (congrArg RoomObject.peers (s.manager.setRoom_self r _)).symm.trans hlast
  have harmed : (s.removePeer c r).manager.armed =
      if r ∈ s.brokerPeers then s.manager.armed else s.manager.armed + 1 := by
    dsimp only [BrokerRelay.removePeer]
    rw [hclients]
    by_cases hbroker : r ∈ s.brokerPeers <;> simp [BrokerRelay.isEmpty, hbroker]
  constructor
  · rintro ⟨hscheduled, -⟩ hbroker
    rw [harmed, if_pos hbroker] at hscheduled
    omega
  · intro hbroker
    rw [if_neg hbroker] at harmed
    refine ⟨harmed, fun u hrun hdone => ?_⟩
    have hroom : s.manager.Placed r := hplaced.held c r (by rw [hleaving]; rfl)
    have hidle : IdleInv r (s.removePeer c r).manager :=
      ⟨hplaced', hlast, hroom, fun _ => .inl (by omega)⟩
    have hu := hrun.invariant (P := fun u => IdleInv r u.manager ∧ r ∉ u.brokerPeers)
      ⟨hidle, hbroker⟩ fun _ _ _ h hok hs => IdleInv.brokerStep h hok hs
    exact hu.1.removed_of_timersDone hdone

instance [DecidableEq α] (s : BrokerRelay n α) (a : BrokerRelayAction n α) :
    Decidable (NoJoin s a) :=
  inferInstanceAs (Decidable (∀ c, a ≠ .manager (.addPeer c)))

def connectAndLeave (c : Fin 1) (subscribed : Bool) : List (BrokerRelayAction 1 Nat) :=
  [.manager (.load c), .manager (.enter c), .manager .flightLoad, .manager .openDoc,
    .manager .startFlushLoop, .subscribe subscribed, .manager .store, .manager .finishFlight,
    .manager (.addPeer c), .manager (.disconnect c)]

def fireTimer : List (BrokerRelayAction 1 Nat) :=
  [.manager .timerLoad, .manager (.timerCheck 0), .manager .timerRemove, .manager (.beginClose 0),
    .manager (.closeChannel 0), .manager (.closePeers 0), .manager (.closeDoc 0)]

theorem removedWhenIdle_after_failed_subscription :
    ∃ s t u, exec brokerRelayStep anyStep .initial (connectAndLeave 0 false) = some s ∧
      brokerRelayStep s (.manager (.removePeer 0)) = some t ∧ RemovedWhenIdle s t 0 ∧
      exec brokerRelayStep NoJoin t fireTimer = some u ∧ u.manager.registered ≠ some 0 ∧
      (u.manager.rooms 0).closing = .docClosed := by
  have hrun : ∃ s ∈ exec brokerRelayStep anyStep .initial (connectAndLeave 0 false),
      s.manager.connections 0 = .leaving 0 ∧ s.brokerPeers = [] ∧
        ∃ t ∈ brokerRelayStep s (.manager (.removePeer 0)), (t.manager.rooms 0).peers = [] ∧
          ∃ u ∈ exec brokerRelayStep NoJoin t fireTimer, u.manager.armed = 0 ∧
            u.manager.loaded = [] ∧ u.manager.checked = 0 ∧ ∀ r ∈ u.manager.removed,
              (u.manager.rooms r).closing = .docClosed := by decide +kernel
  obtain ⟨s, hs, hleaving, hbroker, t, ht, hlast, u, hu, harmed, hloaded, hchecked, hclosed⟩ := hrun
  have hidle : RemovedWhenIdle s t 0 :=
    (removedWhenIdle_iff_no_broker_peer (run_of_exec hs) hleaving ht hlast).2 (by simp [hbroker])
  exact ⟨s, t, u, hs, ht, hidle, hu,
    hidle.2 u (run_of_exec hu) ⟨harmed, hloaded, hchecked, hclosed⟩⟩

/-- The subscription succeeds, the only client leaves, and no timer is scheduled. -/
theorem room_with_broker_peer_not_removed : ¬ ∀ (s t : BrokerRelay 1 Nat) (c : Fin 1) (r : Nat),
      Run brokerRelayStep anyStep .initial s → s.manager.connections c = .leaving r →
      brokerRelayStep s (.manager (.removePeer c)) = some t → (t.manager.rooms r).peers = [] →
      RemovedWhenIdle s t r := by
  intro hevery
  have hrun : ∃ s ∈ exec brokerRelayStep anyStep .initial (connectAndLeave 0 true),
      s.manager.connections 0 = .leaving 0 ∧ s.manager.armed = 0 ∧
        ∃ t ∈ brokerRelayStep s (.manager (.removePeer 0)), (t.manager.rooms 0).peers = [] ∧
          t.manager.armed = 0 := by decide +kernel
  obtain ⟨s, hs, hleaving, hbefore, t, ht, hlast, hafter⟩ := hrun
  have hscheduled := (hevery s t 0 0 (run_of_exec hs) hleaving ht hlast).1
  omega

end CollabEditor.Relay
