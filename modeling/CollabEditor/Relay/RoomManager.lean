import Mathlib.Logic.Function.Basic
import CollabEditor.Support.Execution
/-!
# The life of a document's rooms

`RoomManager` of `internal/relay/room_manager.go`, `NewRoom`, `Close` and the peer set of `room.go`,
and `HandleConnection` of `server.go`, for one document.  The rooms share the engine's doc; no
engine call fails, and no broker is configured.  A room is known by the number of rooms made before
it.
-/

namespace CollabEditor.Relay

open Support.Execution Option Function List Nat

variable {n : Nat} {α : Type}

inductive ClosePhase
  | notBegun
  | begun
  | channelClosed
  | peersClosed
  | docClosed
  deriving DecidableEq

/-- `applied` is everything applied through the room since it was made, `flushing` says
that its flush loop runs. -/
structure RoomObject (n : Nat) (α : Type) where
  applied : List α
  peers : List (Fin n)
  flushing : Bool
  closing : ClosePhase

def RoomObject.new : RoomObject n α := ⟨[], [], false, .notBegun⟩

/-- Where a connection is in `HandleConnection`; `inFlight` is the call of the single
flight, by the leader and by those that share its result. -/
inductive ConnectionPhase
  | start
  | missed
  | inFlight
  | gotRoom (r : Nat)
  | connected (r : Nat)
  | leaving (r : Nat)
  | gone
  deriving DecidableEq

/-- Where the function of the single flight is; `finished` has the room that it returns. -/
inductive Flight
  | lookup
  | creating
  | bootstrapping (r : Nat)
  | finished (r : Nat)
  deriving DecidableEq

/-- The registry entry, all rooms ever made, the engine's doc, the connections, the idle timers
(`loaded` with the room that they have found), the rooms that `Remove` has taken out, and the
connections whose peer has been told to close. -/
structure ManagerState (n : Nat) (α : Type) where
  registered : Option Nat
  rooms : Nat → RoomObject n α
  made : Nat
  doc : Option (List α)
  flight : Option Flight
  connections : Fin n → ConnectionPhase
  armed : Nat
  loaded : List Nat
  checked : Nat
  removed : List Nat
  told : List (Fin n)

namespace ManagerState

def initial : ManagerState n α :=
  ⟨none, fun _ => .new, 0, none, none, fun _ => .start, 0, [], 0, [], []⟩

def setRoom (s : ManagerState n α) (r : Nat) (room : RoomObject n α) : ManagerState n α :=
  { s with rooms := update s.rooms r room }

def goTo (s : ManagerState n α) (c : Fin n) (p : ConnectionPhase) : ManagerState n α :=
  { s with connections := update s.connections c p }

lemma setRoom_self (s : ManagerState n α) (r : Nat) (room : RoomObject n α) :
    (s.setRoom r room).rooms r = room :=
  update_self ..

lemma setRoom_of_ne (s : ManagerState n α) {r r' : Nat} (h : r' ≠ r) (room : RoomObject n α) :
    (s.setRoom r room).rooms r' = s.rooms r' :=
  update_of_ne h ..

lemma goTo_self (s : ManagerState n α) (c : Fin n) (p : ConnectionPhase) :
    (s.goTo c p).connections c = p :=
  update_self ..

lemma goTo_of_ne (s : ManagerState n α) {c c' : Fin n} (h : c' ≠ c) (p : ConnectionPhase) :
    (s.goTo c p).connections c' = s.connections c' :=
  update_of_ne h ..

def takeOut (s : ManagerState n α) : ManagerState n α :=
  match s.registered with
  | some r => { s with registered := none, removed := r :: s.removed }
  | none => s

def removePeer (s : ManagerState n α) (c : Fin n) (r : Nat) : ManagerState n α :=
  let peers := (s.rooms r).peers.filter (· ≠ c)
  { (s.setRoom r { s.rooms r with peers }).goTo c .gone with
    armed := if peers = [] then s.armed + 1 else s.armed }

end ManagerState

/-- The first group is a connection, the second the leader of the single flight, the third
the idle timers and `Remove`, the fourth `Close`, the last a frame or a bootstrap call that
applies an update. `callRemove` and `callClose` are calls from elsewhere. -/
inductive ManagerAction (n : Nat) (α : Type)
  | load (c : Fin n)
  | enter (c : Fin n)
  | addPeer (c : Fin n)
  | disconnect (c : Fin n)
  | removePeer (c : Fin n)
  | flightLoad
  | openDoc
  | startFlushLoop
  | store
  | finishFlight
  | timerLoad
  | timerCheck (r : Nat)
  | timerRemove
  | callRemove
  | beginClose (r : Nat)
  | callClose (r : Nat)
  | closeChannel (r : Nat)
  | closePeers (r : Nat)
  | closeDoc (r : Nat)
  | exitFlushLoop (r : Nat)
  | apply (r : Nat) (u : α)
  deriving DecidableEq

def connectionStep (s : ManagerState n α) (c : Fin n) :
    ConnectionPhase → ManagerAction n α → Option (ManagerState n α)
  | .start, .load _ =>
    some (s.goTo c (match s.registered with | some r => .gotRoom r | none => .missed))
  | .missed, .enter _ =>
    some { s.goTo c .inFlight with flight := some (s.flight.getD .lookup) }
  | .gotRoom r, .addPeer _ =>
    some ((s.setRoom r { s.rooms r with peers := (s.rooms r).peers ++ [c] }).goTo c (.connected r))
  | .connected r, .disconnect _ => some (s.goTo c (.leaving r))
  | .leaving r, .removePeer _ => some (s.removePeer c r)
  | _, _ => none

/-- The steps of the leader. `NewRoom` opens the doc, which leaves an open one as it is. -/
def flightStep (s : ManagerState n α) : Flight → ManagerAction n α → Option (ManagerState n α)
  | .lookup, .flightLoad =>
    some { s with
      flight := some (match s.registered with | some r => .finished r | none => .creating) }
  | .creating, .openDoc =>
    some { s.setRoom s.made .new with
      made := s.made + 1
      doc := some (s.doc.getD [])
      flight := some (.bootstrapping s.made) }
  | .bootstrapping r, .startFlushLoop => some (s.setRoom r { s.rooms r with flushing := true })
  | .bootstrapping r, .store =>
    if (s.rooms r).flushing then some { s with registered := some r, flight := some (.finished r) }
    else none
  | .finished r, .finishFlight =>
    some { s with
      connections := fun c =>
        if s.connections c = .inFlight then .gotRoom r else s.connections c
      flight := none }
  | _, _ => none

def closeStep (s : ManagerState n α) (r : Nat) :
    ClosePhase → ManagerAction n α → Option (ManagerState n α)
  | .notBegun, .beginClose _ =>
    if r ∈ s.removed then some (s.setRoom r { s.rooms r with closing := .begun }) else none
  | .notBegun, .callClose _ => some (s.setRoom r { s.rooms r with closing := .begun })
  | .begun, .closeChannel _ => some (s.setRoom r { s.rooms r with closing := .channelClosed })
  | .channelClosed, .closePeers _ =>
    some { s.setRoom r { s.rooms r with closing := .peersClosed } with
      told := (s.rooms r).peers ++ s.told }
  | .peersClosed, .closeDoc _ =>
    some { s.setRoom r { s.rooms r with closing := .docClosed } with doc := none }
  | _, _ => none

def RoomObject.sawClose (room : RoomObject n α) : Bool :=
  room.flushing && (room.closing != .notBegun && room.closing != .begun)

def managerStep (s : ManagerState n α) (a : ManagerAction n α) : Option (ManagerState n α) :=
  match a with
  | .load c | .enter c | .addPeer c | .disconnect c | .removePeer c =>
    connectionStep s c (s.connections c) a
  | .flightLoad | .openDoc | .startFlushLoop | .store | .finishFlight =>
    s.flight.bind fun f => flightStep s f a
  | .timerLoad =>
    if s.armed = 0 then none
    else some { s with armed := s.armed - 1, loaded := s.registered.toList ++ s.loaded }
  | .timerCheck r =>
    if r ∈ s.loaded then
      some { s with
        loaded := s.loaded.erase r
        checked := if (s.rooms r).peers = [] then s.checked + 1 else s.checked }
    else none
  | .timerRemove =>
    if s.checked = 0 then none else some { s.takeOut with checked := s.checked - 1 }
  | .callRemove => some s.takeOut
  | .beginClose r | .callClose r | .closeChannel r | .closePeers r | .closeDoc r =>
    if r < s.made then closeStep s r (s.rooms r).closing a else none
  | .exitFlushLoop r =>
    if (s.rooms r).sawClose then some (s.setRoom r { s.rooms r with flushing := false }) else none
  | .apply r u =>
    match s.doc with
    | some d =>
      if r < s.made then
        some { s.setRoom r { s.rooms r with applied := (s.rooms r).applied ++ [u] } with
          doc := some (d ++ [u]) }
      else none
    | none => none

/-! ## What a step does -/

inductive ManagerState.Moves (s : ManagerState n α) : ManagerAction n α → ManagerState n α → Prop
  | load {c} :
      Moves s (.load c)
        (s.goTo c (match s.registered with | some r => .gotRoom r | none => .missed))
  | enter {c} :
      Moves s (.enter c) { s.goTo c .inFlight with flight := some (s.flight.getD .lookup) }
  | addPeer {c r} (h : s.connections c = .gotRoom r) :
      Moves s (.addPeer c)
        ((s.setRoom r { s.rooms r with peers := (s.rooms r).peers ++ [c] }).goTo c (.connected r))
  | disconnect {c r} (h : s.connections c = .connected r) :
      Moves s (.disconnect c) (s.goTo c (.leaving r))
  | removePeer {c r} : Moves s (.removePeer c) (s.removePeer c r)
  | flightLoad :
      Moves s .flightLoad { s with
        flight := some (match s.registered with | some r => .finished r | none => .creating) }
  | openDoc (h : s.flight = some .creating) :
      Moves s .openDoc { s.setRoom s.made .new with
        made := s.made + 1
        doc := some (s.doc.getD [])
        flight := some (.bootstrapping s.made) }
  | startFlushLoop {r} : Moves s .startFlushLoop (s.setRoom r { s.rooms r with flushing := true })
  | store {r} (h : s.flight = some (.bootstrapping r)) (hflushing : (s.rooms r).flushing = true) :
      Moves s .store { s with registered := some r, flight := some (.finished r) }
  | finishFlight {r} (h : s.flight = some (.finished r)) :
      Moves s .finishFlight { s with
        connections := fun c => if s.connections c = .inFlight then .gotRoom r else s.connections c
        flight := none }
  | timerLoad :
      Moves s .timerLoad
        { s with armed := s.armed - 1, loaded := s.registered.toList ++ s.loaded }
  | timerCheck {r} {loaded : List Nat} {checked : Nat} :
      Moves s (.timerCheck r) { s with loaded, checked }
  | timerRemove : Moves s .timerRemove { s.takeOut with checked := s.checked - 1 }
  | callRemove : Moves s .callRemove s.takeOut
  | close {a r closing told} (hopen : (s.rooms r).closing ≠ .docClosed)
      (hr : (s.rooms r).closing = .notBegun → r ∈ s.removed ∨ a = .callClose r) :
      Moves s a { s.setRoom r { s.rooms r with closing } with told }
  | closeDoc {r} (hr : r < s.made) (h : (s.rooms r).closing = .peersClosed) :
      Moves s (.closeDoc r)
        { s.setRoom r { s.rooms r with closing := .docClosed } with doc := none }
  | exitFlushLoop {r} (h : (s.rooms r).sawClose = true) :
      Moves s (.exitFlushLoop r) (s.setRoom r { s.rooms r with flushing := false })
  | apply {r u d} (h : s.doc = some d) :
      Moves s (.apply r u)
        { s.setRoom r { s.rooms r with applied := (s.rooms r).applied ++ [u] } with
          doc := some (d ++ [u]) }

lemma moves_of_managerStep {s t : ManagerState n α} {a : ManagerAction n α}
    (hs : managerStep s a = some t) : s.Moves a t := by
  cases a with
  | load c | enter c | addPeer c | disconnect c | removePeer c =>
    simp only [managerStep] at hs
    cases hphase : s.connections c <;> rw [hphase] at hs <;>
      simp only [connectionStep, reduceCtorEq] at hs
    cases hs
    constructor <;> exact hphase
  | flightLoad | openDoc | startFlushLoop | finishFlight =>
    obtain ⟨f, hflight, hs⟩ := bind_eq_some_iff.1 hs
    cases f <;> simp only [flightStep, reduceCtorEq] at hs
    cases hs
    constructor <;> exact hflight
  | store =>
    obtain ⟨f, hflight, hs⟩ := bind_eq_some_iff.1 hs
    cases f <;> simp only [flightStep, reduceCtorEq] at hs
    obtain ⟨hflushing, rfl⟩ := ite_some_none_eq_some.1 hs
    exact .store hflight hflushing
  | timerLoad | timerRemove =>
    obtain ⟨-, ⟨⟩⟩ := ite_none_left_eq_some.1 hs
    constructor
  | timerCheck r =>
    obtain ⟨-, rfl⟩ := ite_some_none_eq_some.1 hs
    exact .timerCheck
  | callRemove =>
    cases hs
    exact .callRemove
  | beginClose r =>
    obtain ⟨-, hs⟩ := ite_none_right_eq_some.1 hs
    cases hclosing : (s.rooms r).closing <;> rw [hclosing] at hs <;>
      simp only [closeStep, reduceCtorEq] at hs
    obtain ⟨hremoved, rfl⟩ := ite_some_none_eq_some.1 hs
    exact .close (by simp [hclosing]) fun _ => .inl hremoved
  | callClose r =>
    obtain ⟨-, hs⟩ := ite_none_right_eq_some.1 hs
    cases hclosing : (s.rooms r).closing <;> rw [hclosing] at hs <;>
      simp only [closeStep, reduceCtorEq] at hs
    cases hs
    exact .close (by simp [hclosing]) fun _ => .inr rfl
  | closeChannel r | closePeers r =>
    obtain ⟨-, hs⟩ := ite_none_right_eq_some.1 hs
    cases hclosing : (s.rooms r).closing <;> rw [hclosing] at hs <;>
      simp only [closeStep, reduceCtorEq] at hs
    cases hs
    exact .close (by simp [hclosing]) fun h => by simp [hclosing] at h
  | closeDoc r =>
    obtain ⟨hr, hs⟩ := ite_none_right_eq_some.1 hs
    cases hclosing : (s.rooms r).closing <;> rw [hclosing] at hs <;>
      simp only [closeStep, reduceCtorEq] at hs
    cases hs
    exact .closeDoc hr hclosing
  | exitFlushLoop r =>
    obtain ⟨hsaw, rfl⟩ := ite_some_none_eq_some.1 hs
    exact .exitFlushLoop hsaw
  | apply r u =>
    simp only [managerStep] at hs
    split at hs
    · rename_i d hdoc
      obtain ⟨-, rfl⟩ := ite_some_none_eq_some.1 hs
      exact .apply hdoc
    · cases hs

/-! ## The doc of the registered room -/

/-- A room that is registered and is not being closed has an open doc with everything
applied to it. -/
def LiveDoc (s : ManagerState n α) : Prop :=
  ∀ r ∈ s.registered, (s.rooms r).closing = .notBegun → ∃ d ∈ s.doc, (s.rooms r).applied ⊆ d

instance [DecidableEq α] (s : ManagerState n α) : Decidable (LiveDoc s) :=
  inferInstanceAs (Decidable (∀ r ∈ s.registered, _))

/-- `NewRoom` opens the doc only after every earlier room has closed it. -/
def OpensAfterClose (s : ManagerState n α) : ManagerAction n α → Prop
  | .openDoc => ∀ r < s.made, (s.rooms r).closing = .docClosed
  | _ => True

instance (s : ManagerState n α) (a : ManagerAction n α) : Decidable (OpensAfterClose s a) := by
  rcases a with ⟨⟩ <;> dsimp only [OpensAfterClose] <;> infer_instance

/-- At most one room has still to close the doc, and the doc has what was applied to it. -/
structure DocInv (s : ManagerState n α) : Prop where
  known : ∀ r, s.registered = some r ∨ s.flight = some (.bootstrapping r) ∨
    s.flight = some (.finished r) → r < s.made
  live : ∀ r < s.made, (s.rooms r).closing ≠ .docClosed → ∃ d ∈ s.doc, (s.rooms r).applied ⊆ d
  single : ∀ r < s.made, ∀ r' < s.made, (s.rooms r).closing ≠ .docClosed →
    (s.rooms r').closing ≠ .docClosed → r = r'

/-- Nothing is applied to a room, and no room closes the doc. -/
structure SameDocs (rooms rooms' : Nat → RoomObject n α) : Prop where
  applied : ∀ r, (rooms' r).applied = (rooms r).applied
  closing : ∀ r, (rooms' r).closing ≠ .docClosed → (rooms r).closing ≠ .docClosed

lemma SameDocs.update {rooms : Nat → RoomObject n α} {r : Nat} {room : RoomObject n α}
    (happlied : room.applied = (rooms r).applied)
    (hclosing : room.closing ≠ .docClosed → (rooms r).closing ≠ .docClosed) :
    SameDocs rooms (update rooms r room) where
  applied r' := by
    by_cases heq : r' = r
    · rw [heq, update_self, happlied]
    · rw [update_of_ne heq]
  closing r' := by
    by_cases heq : r' = r
    · rwa [heq, update_self]
    · rw [update_of_ne heq]
      exact id

namespace DocInv

variable {s t : ManagerState n α} {a : ManagerAction n α}

lemma initial : DocInv (.initial : ManagerState n α) where
  known r hr := by rcases hr with hr | hr | hr <;> cases hr
  live _ hr := absurd hr (not_lt_zero _)
  single _ hr := absurd hr (not_lt_zero _)

variable (h : DocInv s)
include h

lemma same_rooms (hrooms : SameDocs s.rooms t.rooms) (hmade : t.made = s.made)
    (hdoc : t.doc = s.doc) (hreg : t.registered = s.registered) (hflight : t.flight = s.flight) :
    DocInv t where
  known r hr := hmade ▸ h.known r (by rwa [hreg, hflight] at hr)
  live r hr hclosing := by
    rw [hdoc, hrooms.applied]
    exact h.live r (hmade ▸ hr) (hrooms.closing r hclosing)
  single r hr r' hr' hclosing hclosing' :=
    h.single r (hmade ▸ hr) r' (hmade ▸ hr') (hrooms.closing r hclosing)
      (hrooms.closing r' hclosing')

lemma openDoc (hok : ∀ r < s.made, (s.rooms r).closing = .docClosed) :
    DocInv { s.setRoom s.made .new with
      made := s.made + 1
      doc := some (s.doc.getD [])
      flight := some (.bootstrapping s.made) } := by
  have hnew : ∀ r < s.made + 1, ((s.setRoom s.made .new).rooms r).closing ≠ .docClosed →
      r = s.made := by
    intro r hr hclosing
    rcases Nat.lt_succ_iff_lt_or_eq.1 hr with hold | rfl
    · rw [s.setRoom_of_ne (Nat.ne_of_lt hold)] at hclosing
      exact absurd (hok r hold) hclosing
    · rfl
  refine ⟨fun r hr => ?_, fun r hr hclosing => ?_, fun r hr r' hr' hclosing hclosing' => ?_⟩
  · rcases hr with hr | hr | hr
    · exact lt_succ_of_lt (h.known r (.inl hr))
    · cases hr
      exact lt_succ_self _
    · cases hr
  · rw [hnew r hr hclosing, s.setRoom_self]
    exact ⟨_, rfl, nil_subset _⟩
  · rw [hnew r hr hclosing, hnew r' hr' hclosing']

lemma closeDoc {r : Nat} (hr : r < s.made) (hopen : (s.rooms r).closing ≠ .docClosed) :
    DocInv { s.setRoom r { s.rooms r with closing := .docClosed } with doc := none } := by
  have hall : ∀ r' < s.made,
      ((s.setRoom r { s.rooms r with closing := .docClosed }).rooms r').closing = .docClosed := by
    intro r' hr'
    by_cases heq : r' = r
    · rw [heq, s.setRoom_self]
    · rw [s.setRoom_of_ne heq]
      by_contra hclosing
      exact heq (h.single r' hr' r hr hclosing hopen)
  exact ⟨h.known, fun r' hr' hclosing => absurd (hall r' hr') hclosing,
    fun r' hr' _ _ hclosing => absurd (hall r' hr') hclosing⟩

lemma takeOut : DocInv s.takeOut := by
  unfold ManagerState.takeOut
  split
  · exact { h with known := fun r hr => h.known r (.inr (by simpa using hr)) }
  · exact h

lemma apply {r : Nat} {u : α} {d : List α} (hdoc : s.doc = some d) :
    DocInv { s.setRoom r { s.rooms r with applied := (s.rooms r).applied ++ [u] } with
      doc := some (d ++ [u]) } := by
  have hclosing : ∀ r', ((s.setRoom r { s.rooms r with
      applied := (s.rooms r).applied ++ [u] }).rooms r').closing = (s.rooms r').closing := by
    intro r'
    by_cases heq : r' = r
    · rw [heq, s.setRoom_self]
    · rw [s.setRoom_of_ne heq]
  refine ⟨h.known, fun r' hr' hnot => ⟨_, rfl, ?_⟩, fun r' hr' r'' hr'' hnot hnot' => ?_⟩
  · obtain ⟨d', hd', hsub⟩ := h.live r' hr' (hclosing r' ▸ hnot)
    obtain rfl := mem_unique hdoc hd'
    by_cases heq : r' = r
    · rw [heq, s.setRoom_self]
      exact append_subset.2 ⟨subset_append_of_subset_left _ (heq ▸ hsub),
        subset_append_right _ _⟩
    · rw [s.setRoom_of_ne heq]
      exact subset_append_of_subset_left _ hsub
  · exact h.single r' hr' r'' hr'' (hclosing r' ▸ hnot) (hclosing r'' ▸ hnot')

lemma step (hok : OpensAfterClose s a) (hs : managerStep s a = some t) : DocInv t := by
  cases moves_of_managerStep hs with
  | load | disconnect | timerLoad | timerCheck => exact { h with }
  | addPeer | removePeer | startFlushLoop | exitFlushLoop =>
    exact h.same_rooms (.update rfl id) rfl rfl rfl rfl
  | enter =>
    refine { h with known := fun r hr => h.known r ?_ }
    -- Entering starts a flight at its first point or leaves the one under way.
    cases hflight : s.flight <;> simpa [hflight, ManagerState.goTo] using hr
  | flightLoad =>
    refine { h with known := fun r hr => h.known r (.inl ?_) }
    cases hreg : s.registered with
    | none => simp [hreg] at hr
    | some r' => simpa [hreg] using hr
  | openDoc => exact h.openDoc hok
  | store hflight =>
    refine { h with known := ?_ }
    rintro r' (hr | hr | hr) <;> cases hr
    · exact h.known _ (.inr (.inl hflight))
    · exact h.known _ (.inr (.inl hflight))
  | finishFlight => exact { h with known := fun r hr => h.known r (.inl (by simpa using hr)) }
  | timerRemove => exact { h.takeOut with }
  | callRemove => exact h.takeOut
  | close hopen => exact h.same_rooms (.update rfl fun _ => hopen) rfl rfl rfl rfl
  | closeDoc hr hclosing => exact h.closeDoc hr (by simp [hclosing])
  | apply hdoc => exact h.apply hdoc

lemma liveDoc : LiveDoc s := by
  intro r hr hclosing
  exact h.live r (h.known r (.inl hr)) (by simp [hclosing])

end DocInv

/-- The registered room has a live doc in every interleaving in which a doc is opened only
after every earlier room has closed it. -/
theorem liveDoc_of_opensAfterClose {s : ManagerState n α}
    (hrun : Run managerStep OpensAfterClose .initial s) : LiveDoc s :=
  (hrun.invariant DocInv.initial fun _ _ _ h hok hs => h.step hok hs).liveDoc

def connectFirst (c : Fin 2) : List (ManagerAction 2 Nat) :=
  [.load c, .enter c, .flightLoad, .openDoc, .startFlushLoop, .store, .finishFlight, .addPeer c]

def leaveIdle (c : Fin 2) (r : Nat) : List (ManagerAction 2 Nat) :=
  [.disconnect c, .removePeer c, .timerLoad, .timerCheck r, .timerRemove]

def closeRoom (r : Nat) : List (ManagerAction 2 Nat) :=
  [.beginClose r, .closeChannel r, .closePeers r, .closeDoc r, .exitFlushLoop r]

theorem liveDoc_after_close : ∃ s, exec managerStep OpensAfterClose .initial
        (connectFirst 0 ++ [.apply 0 5] ++ leaveIdle 0 0 ++ closeRoom 0 ++ connectFirst 1 ++
          [.apply 1 6]) = some s ∧ s.registered = some 1 ∧ s.doc = some [6] ∧ LiveDoc s :=
  exec_imp (P := fun s => s.registered = some 1 ∧ s.doc = some [6]) (by decide +kernel)
    fun _ hrun ⟨hreg, hdoc⟩ => ⟨hreg, hdoc, liveDoc_of_opensAfterClose hrun⟩

/-- The old room is out of the registry and not yet closed when the new one finds the doc
open; then the old one closes it. -/
theorem old_room_closes_doc_of_new :
    ¬ ∀ s : ManagerState 2 Nat, Run managerStep anyStep .initial s → LiveDoc s :=
  not_forall_run
    (connectFirst 0 ++ leaveIdle 0 0 ++ connectFirst 1 ++ [.apply 1 6] ++ closeRoom 0)
    (by decide +kernel)

end CollabEditor.Relay
