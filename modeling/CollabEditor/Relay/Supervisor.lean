import Mathlib.Data.Fintype.Basic
import CollabEditor.Support.Execution
/-!
# Rooms and a sidecar that crashes

`Supervisor` of `internal/relay/yjsengine/supervisor.go` with rooms whose docs live in the sidecar
process.  After an exit it asks its rate limiter, starts processes until one is ready, and runs the
hooks of `OnReconnect`.  A new process has no docs.  An engine call while none runs fails.
-/

namespace CollabEditor.Relay

open Support.Execution Function List Option

variable {n : Nat} {α : Type}

/-- What has been applied to a room through the engine, and whether `Store` has
registered it. -/
structure SidecarRoom (α : Type) where
  applied : List α
  registered : Bool
  deriving DecidableEq

abbrev Docs (n : Nat) (α : Type) := Fin n → Option (List α)

/-- Where the supervisor is: with a process and its docs, at the exit of the process,
between two attempts to start one, or after it has given up. -/
inductive Sidecar (n : Nat) (α : Type)
  | running (docs : Docs n α)
  | exited
  | restarting
  | gaveUp

/-- A hook of `OnReconnect`: what it makes of the docs of the new process, given the
rooms. -/
abbrev ReconnectHook (n : Nat) (α : Type) :=
  (Fin n → Option (SidecarRoom α)) → Docs n α → Docs n α

/-- `cmd/relay/main.go` registers no hook, and nothing else does. -/
def relayHooks : List (ReconnectHook n α) := []

structure SupervisedRelay (n : Nat) (α : Type) where
  rooms : Fin n → Option (SidecarRoom α)
  sidecar : Sidecar n α
  pendingHooks : List (ReconnectHook n α)
  restartTimes : List Nat

def SupervisedRelay.initial (hooks : List (ReconnectHook n α)) : SupervisedRelay n α :=
  ⟨fun _ => none, .running fun _ => none, hooks, []⟩

/-- `recordRestart`, with times in milliseconds: the restarts of the last minute with this
one, or `none` if there have been too many. -/
def recordRestart (maxPerMinute : Nat) (restartTimes : List Nat) (now : Nat) :
    Option (List Nat) :=
  if maxPerMinute = 0 then some restartTimes
  else
    let kept := restartTimes.filter fun t => now < t + 60000
    if maxPerMinute ≤ kept.length then none else some (kept ++ [now])

inductive SupervisorAction (n : Nat) (α : Type)
  | newRoom (d : Fin n)
  | register (d : Fin n)
  | apply (d : Fin n) (u : α)
  | remove (d : Fin n)
  | crash
  | recordRestart (now : Nat)
  | startFails
  | startOnce
  | runHook

namespace SupervisedRelay

def setRoom (s : SupervisedRelay n α) (d : Fin n) (room : Option (SidecarRoom α)) :
    SupervisedRelay n α :=
  { s with rooms := update s.rooms d room }

/-- An engine call on the docs; without a process it fails and has no effect. -/
def onDocs (s : SupervisedRelay n α) (f : Docs n α → Docs n α) : SupervisedRelay n α :=
  match s.sidecar with
  | .running docs => { s with sidecar := .running (f docs) }
  | _ => s

end SupervisedRelay

def supervisorStep (maxPerMinute : Nat) (hooks : List (ReconnectHook n α))
    (s : SupervisedRelay n α) : SupervisorAction n α → Option (SupervisedRelay n α)
  | .newRoom d =>
    if (s.rooms d).isNone then
      some ((s.onDocs fun docs => update docs d (some ((docs d).getD []))).setRoom d
        (some ⟨[], false⟩))
    else none
  | .register d => (s.rooms d).map fun room => s.setRoom d (some { room with registered := true })
  | .apply d u =>
    match s.rooms d, s.sidecar with
    | some room, .running docs =>
      (docs d).map fun doc =>
        { s.setRoom d (some { room with applied := room.applied ++ [u] }) with
          sidecar := .running (update docs d (some (doc ++ [u]))) }
    | _, _ => none
  | .remove d =>
    if (s.rooms d).any (·.registered) then
      some ((s.onDocs fun docs => update docs d none).setRoom d none)
    else none
  | .crash =>
    match s.sidecar with
    | .running _ => some { s with sidecar := .exited, pendingHooks := [] }
    | _ => none
  | .recordRestart now =>
    match s.sidecar with
    | .exited =>
      match recordRestart maxPerMinute s.restartTimes now with
      | some restartTimes => some { s with sidecar := .restarting, restartTimes }
      | none => some { s with sidecar := .gaveUp }
    | _ => none
  | .startFails =>
    match s.sidecar with
    | .restarting => some s
    | _ => none
  | .startOnce =>
    match s.sidecar with
    | .restarting => some { s with sidecar := .running fun _ => none, pendingHooks := hooks }
    | _ => none
  | .runHook =>
    match s.pendingHooks with
    | hook :: rest => some { s.onDocs (hook s.rooms) with pendingHooks := rest }
    | [] => none

/-- While a process runs and its hooks have finished, every registered room has its doc
open there, with all that has been applied to the room. -/
def RoomsSurvive (s : SupervisedRelay n α) : Prop :=
  match s.sidecar with
  | .running docs => s.pendingHooks = [] →
      ∀ d, ∀ room ∈ s.rooms d, room.registered = true → ∃ doc ∈ docs d, room.applied ⊆ doc
  | _ => True

instance [DecidableEq α] (s : SupervisedRelay n α) : Decidable (RoomsSurvive s) := by
  unfold RoomsSurvive
  split <;> infer_instance

def RestartsEmpty (s : SupervisedRelay n α) : SupervisorAction n α → Prop
  | .startOnce => ∀ d, s.rooms d = none
  | _ => True

instance [DecidableEq α] (s : SupervisedRelay n α) (a : SupervisorAction n α) :
    Decidable (RestartsEmpty s a) := by
  unfold RestartsEmpty
  split <;> infer_instance

/-! ## Rooms and the docs of the process -/

def HasDocs (rooms : Fin n → Option (SidecarRoom α)) (docs : Docs n α) : Prop :=
  ∀ d, ∀ room ∈ rooms d, ∃ doc ∈ docs d, room.applied ⊆ doc

lemma HasDocs.update {rooms : Fin n → Option (SidecarRoom α)} {docs : Docs n α}
    (h : HasDocs rooms docs) {d : Fin n} {room : Option (SidecarRoom α)} {doc : Option (List α)}
    (hd : ∀ r ∈ room, ∃ l ∈ doc, r.applied ⊆ l) :
    HasDocs (update rooms d room) (update docs d doc) := by
  intro d' r hr
  by_cases heq : d' = d
  · subst heq
    rw [update_self] at hr ⊢
    exact hd r hr
  · rw [update_of_ne heq] at hr ⊢
    exact h d' r hr

/-- A process that runs has the docs of all rooms, registered or not, and no hook is to be
run. -/
structure SurviveInv (s : SupervisedRelay n α) : Prop where
  docs : ∀ docs, s.sidecar = .running docs → HasDocs s.rooms docs
  hooks : s.pendingHooks = []

namespace SurviveInv

variable {maxPerMinute : Nat} {s t : SupervisedRelay n α} {a : SupervisorAction n α}

lemma initial : SurviveInv (.initial relayHooks : SupervisedRelay n α) where
  docs _ _ _ _ hroom := nomatch hroom
  hooks := rfl

variable (h : SurviveInv s)
include h

lemma onDocs {d : Fin n} {room : Option (SidecarRoom α)} {doc : Docs n α → Option (List α)}
    (hd : ∀ docs, ∀ r ∈ room, ∃ l ∈ doc docs, r.applied ⊆ l) :
    SurviveInv ((s.onDocs fun docs => update docs d (doc docs)).setRoom d room) := by
  unfold SupervisedRelay.onDocs
  split
  · rename_i docs hrunning
    refine ⟨fun docs' hdocs' => ?_, h.hooks⟩
    obtain rfl := Sidecar.running.inj hdocs'
    exact (h.docs docs hrunning).update (hd docs)
  · rename_i hdown
    exact ⟨fun docs hdocs => absurd hdocs (hdown docs), h.hooks⟩

lemma register {d : Fin n} {room : SidecarRoom α} (hroom : s.rooms d = some room) :
    SurviveInv (s.setRoom d (some { room with registered := true })) := by
  refine ⟨fun docs hdocs => ?_, h.hooks⟩
  have hall := h.docs docs hdocs
  rw [← update_eq_self d docs]
  refine hall.update fun r hr => ?_
  cases hr
  exact hall d room hroom

lemma apply {d : Fin n} {u : α} {room : SidecarRoom α} {docs : Docs n α} {doc : List α}
    (hroom : s.rooms d = some room) (hrunning : s.sidecar = .running docs)
    (hdoc : docs d = some doc) :
    SurviveInv { s.setRoom d (some { room with applied := room.applied ++ [u] }) with
      sidecar := .running (update docs d (some (doc ++ [u]))) } := by
  refine ⟨fun docs' hdocs' => ?_, h.hooks⟩
  obtain rfl := Sidecar.running.inj hdocs'
  refine (h.docs docs hrunning).update fun r hr => ⟨_, rfl, ?_⟩
  cases hr
  obtain ⟨l, hl, hsub⟩ := h.docs docs hrunning d room hroom
  obtain rfl := mem_unique hdoc hl
  exact append_subset.2 ⟨subset_append_of_subset_left _ hsub, subset_append_right _ _⟩

lemma step (hok : RestartsEmpty s a) (hs : supervisorStep maxPerMinute relayHooks s a = some t) :
    SurviveInv t := by
  cases a with
  | newRoom d =>
    obtain ⟨-, rfl⟩ := ite_some_none_eq_some.1 hs
    refine h.onDocs fun docs r hr => ?_
    cases hr
    exact ⟨_, rfl, nil_subset _⟩
  | register d =>
    obtain ⟨room, hroom, rfl⟩ := map_eq_some_iff.1 hs
    exact h.register hroom
  | apply d u =>
    simp only [supervisorStep] at hs
    split at hs
    · rename_i room docs hroom hrunning
      obtain ⟨doc, hdoc, rfl⟩ := map_eq_some_iff.1 hs
      exact h.apply hroom hrunning hdoc
    · cases hs
  | remove d =>
    obtain ⟨-, rfl⟩ := ite_some_none_eq_some.1 hs
    have hgone (docs : Docs n α) :
        ∀ r ∈ (none : Option (SidecarRoom α)), ∃ l ∈ (none : Option (List α)), r.applied ⊆ l :=
          nofun
    exact h.onDocs hgone
  | crash =>
    simp only [supervisorStep] at hs
    split at hs <;> cases hs
    exact ⟨nofun, rfl⟩
  | recordRestart now =>
    simp only [supervisorStep] at hs
    split at hs
    · split at hs <;> obtain rfl := some.inj hs <;> exact ⟨nofun, h.hooks⟩
    · cases hs
  | startFails =>
    simp only [supervisorStep] at hs
    split at hs <;> cases hs
    exact h
  | startOnce =>
    simp only [supervisorStep] at hs
    split at hs <;> cases hs
    refine ⟨fun docs _ d room hroom => ?_, rfl⟩
    exact absurd ((hok d).symm.trans hroom) nofun
  | runHook =>
    simp only [supervisorStep, h.hooks] at hs
    cases hs

lemma roomsSurvive : RoomsSurvive s := by
  unfold RoomsSurvive
  split
  · rename_i docs hrunning
    exact fun _ d room hroom _ => h.docs docs hrunning d room hroom
  · trivial

end SurviveInv

/-- The rooms have their docs in every run of the relay in which a new process becomes
ready only while there are no rooms. -/
theorem roomsSurvive_of_restartsEmpty {maxPerMinute : Nat} {s : SupervisedRelay n α}
    (hrun : Run (supervisorStep maxPerMinute relayHooks) RestartsEmpty (.initial relayHooks) s) :
    RoomsSurvive s :=
  (hrun.invariant SurviveInv.initial fun _ _ _ h hok hs => h.step hok hs).roomsSurvive

def crashAndRestart : List (SupervisorAction 2 Nat) :=
  [.crash, .recordRestart 0, .startFails, .startOnce]

/-- The crash comes after the only room has been removed. -/
theorem roomsSurvive_crash_between_rooms :
    ∃ s, exec (supervisorStep 10 relayHooks) RestartsEmpty (.initial relayHooks)
        ([.newRoom 0, .register 0, .apply 0 7, .remove 0] ++ crashAndRestart ++
          [.newRoom 1, .register 1, .apply 1 8]) = some s ∧
      s.rooms 1 = some ⟨[8], true⟩ ∧ RoomsSurvive s :=
  exec_and (by decide +kernel) fun _ hrun => roomsSurvive_of_restartsEmpty hrun

/-- One crash under a registered room: the new process has no doc for it, and there is no
hook to bring it back. -/
theorem room_lost_after_restart : ¬ ∀ (maxPerMinute : Nat) (s : SupervisedRelay 2 Nat),
      Run (supervisorStep maxPerMinute relayHooks) anyStep (.initial relayHooks) s →
      RoomsSurvive s :=
  fun hevery => not_forall_run ([.newRoom 0, .register 0, .apply 0 7] ++ crashAndRestart)
    (by decide +kernel) (hevery 10)

end CollabEditor.Relay
