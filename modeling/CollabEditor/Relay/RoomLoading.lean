import CollabEditor.Support.Execution
import CollabEditor.Relay.Bootstrap
/-!
# Connections that share the creation of a room

`GetOrCreate` in `internal/relay/room_manager.go` with the callback of `HandleConnection`.  The
first connection that finds no room runs the creation, and others wait for its result.  What its
calls return is chosen by the environment.
-/

namespace CollabEditor.Relay

open Support SharedText Execution List

variable {K : Type}

/-- Where a connection is in `HandleConnection`. -/
inductive CallerPhase
  | start
  | missed
  | leading
  | waiting
  | joined
  | failed
  deriving DecidableEq

/-- The leader and those that wait for it. -/
def CallerPhase.inFlight : CallerPhase → Bool
  | leading => true
  | waiting => true
  | _ => false

/-- A room with what the calls of its creation returned. `doc` is the engine's. -/
structure LoadedRoom (K : Type) where
  calls : CreationCalls K
  doc : Option (Doc K)

inductive RoomPeer
  | broker
  | client (id : Nat)

/-- `room` is the room that has been created, `replied` the peers that have got a sync
reply from it. -/
structure LoadingState (K : Type) where
  callers : Nat → CallerPhase
  flight : Bool
  room : Option (LoadedRoom K)
  registered : Bool
  brokerPeer : Bool
  replied : List RoomPeer

def LoadingState.initial : LoadingState K := ⟨fun _ => .start, false, none, false, false, []⟩

def LoadingState.finish (s : LoadingState K) (result : CallerPhase) : LoadingState K :=
  { s with
    callers := fun id => if (s.callers id).inFlight then result else s.callers id
    flight := false }

def LoadingState.connected (s : LoadingState K) : RoomPeer → Bool
  | .broker => s.brokerPeer
  | .client id => s.callers id = .joined

inductive LoadingAction (K : Type)
  | load (id : Nat)
  | enter (id : Nat)
  | recheck (id : Nat)
  | create (id : Nat) (calls : CreationCalls K)
  | addBrokerPeer (id : Nat)
  | store (id : Nat)
  | reply (p : RoomPeer)
  | update (p : RoomPeer) (u : Update K)

section

variable [DecidableEq K]

/-- The callback: the error that it could return is never one of the calls'. -/
def bootstrapCallback (c : CreationCalls K) : Except ReadError (Option (Doc K)) :=
  .ok (createdDoc c)

/-- One step. `load` and `recheck` are the two `Load`s of `GetOrCreate`, `enter` is the
entry into the single flight, `create` is `NewRoom` with the callback up to the end of
`bootstrapRoom`, and `store` ends the flight. -/
def loadingStep (s : LoadingState K) : LoadingAction K → Option (LoadingState K)
  | .load id =>
    if s.callers id = .start then
      let next := if s.registered then CallerPhase.joined else .missed
      some { s with callers := Function.update s.callers id next }
    else none
  | .enter id =>
    if s.callers id = .missed then
      let next := if s.flight then CallerPhase.waiting else .leading
      some { s with callers := Function.update s.callers id next, flight := true }
    else none
  | .recheck id =>
    if s.callers id = .leading ∧ s.registered then some (s.finish .joined) else none
  | .create id calls =>
    if s.callers id = .leading ∧ s.registered = false ∧ s.room.isNone then
      match bootstrapCallback calls with
      | .error _ => some (s.finish .failed)
      | .ok doc => some { s with room := some ⟨calls, doc⟩ }
    else none
  | .addBrokerPeer id =>
    if s.callers id = .leading ∧ s.registered = false ∧ s.room.isSome then
      some { s with brokerPeer := true }
    else none
  | .store id =>
    if s.callers id = .leading ∧ s.registered = false ∧ s.room.isSome then
      some { s.finish .joined with registered := true }
    else none
  | .reply p =>
    match s.connected p, s.room with
    | true, some ⟨_, some _⟩ => some { s with replied := s.replied ++ [p] }
    | _, _ => none
  | .update p u =>
    match s.connected p, s.room with
    | true, some ⟨calls, some d⟩ => some { s with room := some ⟨calls, some (d.apply u)⟩ }
    | _, _ => none

end

/-- The doc was filled from the snapshot that the store returned or, without one, from
the text that the provider returned. -/
def FilledFrom (c : CreationCalls K) (d : Doc K) : Prop :=
  match c.readSnapshot, c.load with
  | .ok (some snapshot, _), _ => ∀ u ∈ snapshot, d.Contains u
  | _, .ok resp => seed serverClientID (resp.getD []) ⊆ d.items
  | _, .error _ => False

instance [DecidableEq K] (c : CreationCalls K) (d : Doc K) : Decidable (FilledFrom c d) := by
  unfold FilledFrom
  split <;> infer_instance

def LoadedRoom.Filled (r : LoadedRoom K) : Prop := ∃ d ∈ r.doc, FilledFrom r.calls d

instance [DecidableEq K] (r : LoadedRoom K) : Decidable r.Filled :=
  inferInstanceAs (Decidable (∃ d ∈ r.doc, _))

/-- A room that was not filled is neither registered nor used: no peer has a reply from
it, and no caller of its creation has it. -/
def ServedOnlyLoaded (s : LoadingState K) : Prop :=
  ∀ r ∈ s.room, ¬ r.Filled → s.registered = false ∧ s.replied = [] ∧ ∀ id, s.callers id ≠ .joined

/-- The calls that the doc depends on succeed: `Open`, then the application of the
snapshot if there is one, and otherwise the load and the insertion of its text. -/
def LoadSucceeds (c : CreationCalls K) : Prop :=
  c.openFault = none ∧ match c.readSnapshot, c.load with
    | .ok (some _, _), _ => c.snapshotFault = none
    | _, .ok resp => resp.getD [] = [] ∨ c.textFault = none
    | _, .error _ => False

instance [DecidableEq K] (c : CreationCalls K) : Decidable (LoadSucceeds c) := by
  unfold LoadSucceeds
  have : Decidable (match c.readSnapshot, c.load with
    | .ok (some _, _), _ => c.snapshotFault = none
    | _, .ok resp => resp.getD [] = [] ∨ c.textFault = none
    | _, .error _ => False) := by split <;> infer_instance
  infer_instance

def CreationsLoad (_ : LoadingState K) : LoadingAction K → Prop
  | .create _ calls => LoadSucceeds calls
  | _ => True

instance [DecidableEq K] (s : LoadingState K) (a : LoadingAction K) :
    Decidable (CreationsLoad s a) := by
  unfold CreationsLoad
  split <;> infer_instance

/-! ## What the calls leave in the doc -/

lemma replayLogTail_some (fault : Nat → Option EngineError) (d : Doc K)
    (tail : List (Update K)) : ∃ us, replayLogTail fault (some d) tail = some (d.applyAll us) := by
  induction tail generalizing fault d with
  | nil => exact ⟨[], by rw [Doc.applyAll_nil, replayLogTail]⟩
  | cons entry rest ih =>
    cases hfault : fault 0 with
    | some e =>
      obtain ⟨us, hus⟩ := ih (fun i => fault (i + 1)) d
      exact ⟨us, by rw [replayLogTail, hfault]; exact hus⟩
    | none =>
      obtain ⟨us, hus⟩ := ih (fun i => fault (i + 1)) (d.apply entry)
      refine ⟨entry :: us, ?_⟩
      rw [d.applyAll_cons, replayLogTail, hfault]
      exact hus

lemma newRoom_of_no_fault {c : CreationCalls K} (h : c.openFault = none) :
    newRoom c = some (bootstrapContent []) := by
  rw [newRoom, h]
  rfl

section

variable [DecidableEq K] {c : CreationCalls K}

lemma createdDoc_of_snapshot {snapshot : List (Update K)} {off : Int}
    (hopen : c.openFault = none) (hread : c.readSnapshot = .ok (some snapshot, off))
    (hfault : c.snapshotFault = none) :
    ∃ us, createdDoc c = some ((bootstrapContent []).applyAll (snapshot ++ us)) := by
  have hsnap : bootstrapFromSnapshot c (some (bootstrapContent [])) snapshot =
      .ok (some ((bootstrapContent []).applyAll snapshot)) := by
    rw [bootstrapFromSnapshot, hfault]
    cases c.getTextFault <;> rfl
  rw [createdDoc, newRoom_of_no_fault hopen, bootstrapRoom, hread]
  simp only [hsnap, orLogged]
  cases c.readLogTail off with
  | error e => exact ⟨[], by rw [append_nil]⟩
  | ok tail =>
    obtain ⟨us, hus⟩ := replayLogTail_some c.entryFault
      ((bootstrapContent []).applyAll snapshot) tail
    exact ⟨us, by rw [Doc.applyAll_append]; exact hus⟩

lemma createdDoc_of_load {resp : Option (List K)} (hopen : c.openFault = none)
    (hread : ∀ snapshot off, c.readSnapshot ≠ .ok (some snapshot, off))
    (hload : c.load = .ok resp) (hfault : resp.getD [] = [] ∨ c.textFault = none) :
    createdDoc c = some (bootstrapContent (resp.getD [])) := by
  have hprovider : bootstrapRoom c (newRoom c) = bootstrapFromProvider c (newRoom c) resp := by
    rw [bootstrapRoom]
    split
    · exact absurd ‹_› (hread _ _)
    · rw [hload]
  rw [createdDoc, hprovider, newRoom_of_no_fault hopen, bootstrapFromProvider]
  cases htext : resp.getD [] with
  | nil => rfl
  | cons x rest =>
    rw [htext] at hfault
    rw [hfault.resolve_left (cons_ne_nil _ _)]
    rfl

lemma filledFrom_createdDoc (h : LoadSucceeds c) : ∃ d ∈ createdDoc c, FilledFrom c d := by
  obtain ⟨hopen, h⟩ := h
  unfold FilledFrom
  split at h
  · rename_i snapshot off hread
    obtain ⟨us, hdoc⟩ := createdDoc_of_snapshot hopen hread h
    refine ⟨_, hdoc, fun u hu => Doc.contains_of_mem_updates ?_⟩
    exact mem_append_right _ (mem_append_left _ hu)
  · rename_i resp hload hread
    refine ⟨_, createdDoc_of_load hopen hread hload h, ?_⟩
    exact fun o ho => mem_append_left _ ho
  · exact h.elim

omit [DecidableEq K] in
lemma FilledFrom.apply {d : Doc K} (h : FilledFrom c d) (u : Update K) :
    FilledFrom c (d.apply u) := by
  unfold FilledFrom at *
  split at h
  · exact fun v hv => (h v hv).apply u
  · intro o ho
    rw [Doc.items_apply]
    exact mem_append_left _ (h ho)
  · exact h

/-! ## Every run -/

variable {s t : LoadingState K} {a : LoadingAction K}

lemma loadingStep_room (hs : loadingStep s a = some t) :
    t.room = s.room ∨ (∃ id calls, a = .create id calls ∧ t.room = some ⟨calls, createdDoc calls⟩) ∨
      ∃ calls d u, s.room = some ⟨calls, some d⟩ ∧ t.room = some ⟨calls, some (d.apply u)⟩ := by
  cases a with
  | create id calls =>
    obtain ⟨-, rfl⟩ := Option.ite_some_none_eq_some.1 hs
    exact .inr (.inl ⟨id, calls, rfl, rfl⟩)
  | update p u =>
    simp only [loadingStep] at hs
    split at hs <;> cases hs
    rename_i calls d hconn hroom
    exact .inr (.inr ⟨calls, d, u, hroom, rfl⟩)
  | reply p =>
    simp only [loadingStep] at hs
    split at hs <;> cases hs
    exact .inl rfl
  | load id | enter id | recheck id | addBrokerPeer id | store id =>
    obtain ⟨-, rfl⟩ := Option.ite_some_none_eq_some.1 hs
    exact .inl rfl

lemma filled_step (h : ∀ r ∈ s.room, r.Filled) (hok : CreationsLoad s a)
    (hs : loadingStep s a = some t) : ∀ r ∈ t.room, r.Filled := by
  rcases loadingStep_room hs with hroom | ⟨id, calls, rfl, hroom⟩ | ⟨calls, d, u, hold, hroom⟩
  · rwa [hroom]
  · rw [hroom]
    rintro _ ⟨⟩
    exact filledFrom_createdDoc hok
  · obtain ⟨_, ⟨⟩, hfilled⟩ := h _ hold
    rw [hroom]
    rintro _ ⟨⟩
    exact ⟨_, rfl, hfilled.apply u⟩

/-- No room is served on a failed load, in every interleaving of connections in which
the calls that the doc depends on succeed. -/
theorem servedOnlyLoaded_of_creationsLoad (hrun : Run loadingStep CreationsLoad .initial s) :
    ServedOnlyLoaded s := by
  have hfilled : ∀ r ∈ s.room, r.Filled :=
    hrun.invariant (P := fun s => ∀ r ∈ s.room, r.Filled) (by rintro _ ⟨⟩)
      fun _ _ _ h hok hs => filled_step h hok hs
  exact fun r hr hnot => absurd (hfilled r hr) hnot

end

def loadCalls (load : Except ReadError (Option (List Char))) : CreationCalls Char where
  openFault := none
  readSnapshot := .error .failed
  getTextFault := none
  snapshotFault := none
  readLogTail := fun _ => .error .failed
  entryFault := fun _ => none
  load := load
  textFault := none

def threeConnections (calls : CreationCalls Char) : List (LoadingAction Char) :=
  [.load 0, .load 1, .enter 0, .enter 1, .create 0 calls, .addBrokerPeer 0, .store 0, .load 2,
    .reply (.client 0), .reply (.client 1), .reply (.client 2)]

theorem servedOnlyLoaded_threeConnections : ∃ s, exec loadingStep CreationsLoad .initial
        (threeConnections (loadCalls (.ok (some ['h', 'i'])))) = some s ∧
      s.registered = true ∧ s.replied.length = 3 ∧ ServedOnlyLoaded s :=
  exec_imp (P := fun s => s.registered = true ∧ s.replied.length = 3) (by decide +kernel)
    fun _ hrun ⟨hreg, hreplied⟩ => ⟨hreg, hreplied, servedOnlyLoaded_of_creationsLoad hrun⟩

/-- A provider that does not answer in time leaves an empty doc, which is registered and
served to all. -/
theorem room_served_after_failed_load :
    ¬ ∀ s : LoadingState Char, Run loadingStep anyStep .initial s → ServedOnlyLoaded s := by
  intro hevery
  have hrun : ∃ s ∈ exec loadingStep anyStep .initial
      (threeConnections (loadCalls (.error .timeout))),
      s.registered = true ∧ ∃ r ∈ s.room, ¬ r.Filled := by decide +kernel
  obtain ⟨s, hs, hreg, r, hr, hnot⟩ := hrun
  have hunregistered := (hevery s (run_of_exec hs) r hr hnot).1
  exact absurd (hreg.symm.trans hunregistered) (by decide)

end CollabEditor.Relay
