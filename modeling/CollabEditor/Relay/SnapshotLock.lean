import CollabEditor.Relay.FlushLoop
/-!
# Who writes snapshots

`flushBuffer` of `internal/relay/room.go` on any number of pods that share the lock of
`redis_flush_lock.go`.  `Flush` releases the lock before `flushBuffer` goes on to `WriteSnapshot`.
-/

namespace CollabEditor.Relay

open Support.Execution Option Function

variable {n : Nat}

/-- How far `flushBuffer` is after `Flush` and `Prepend`. -/
inductive SnapshotPoint
  | outside
  | encoding
  | writing (state : List UInt8)
  deriving DecidableEq

/-- The room of a pod. `deferred` says that the release of the lock is still to come, and
`won` that the round under way has acquired the lock. -/
structure PodRoom where
  flush : FlushState
  deferred : Bool
  won : Bool
  snapshot : SnapshotPoint

structure SnapshotWrite (n : Nat) where
  pod : Fin n
  won : Bool
  deriving DecidableEq

/-- `lock` is the Redis key, with the pod that has set it. -/
structure LockState (n : Nat) where
  pods : Fin n → PodRoom
  lock : Option (Fin n)
  writes : List (SnapshotWrite n)

def LockState.initial (threshold : Int64) : LockState n :=
  ⟨fun _ => ⟨.initial threshold, false, false, .outside⟩, none, []⟩

/-- `round` is a step of the room or of its flush other than those listed here.
`redisFails` is an error of the command, and `expire` the end of the key's TTL. -/
inductive LockAction (n : Nat)
  | round (p : Fin n) (a : FlushAction)
  | flushBuffer (p : Fin n)
  | acquire (p : Fin n) (redisFails : Bool)
  | release (p : Fin n) (redisFails : Bool)
  | expire
  | prepend (p : Fin n)
  | encode (p : Fin n) (state : List UInt8)
  | writeSnapshot (p : Fin n)

def FlushAction.isRound : FlushAction → Bool
  | flushBuffer => false
  | lock _ => false
  | prepend => false
  | _ => true

def LockState.setNX (s : LockState n) (redisFails : Bool) : LockAnswer :=
  if redisFails then .failed else if s.lock.isSome then .refused else .acquired

/-- The flush has returned, up to its deferred call. -/
def Phase.returned : Phase → Bool
  | result _ _ => true
  | _ => false

namespace LockState

def setPod (s : LockState n) (p : Fin n) (room : PodRoom) : LockState n :=
  { s with pods := update s.pods p room }

end LockState

def lockStep (maxRetries : Nat) (s : LockState n) : LockAction n → Option (LockState n)
  | .round p a =>
    if a.isRound then
      (flushStep maxRetries (s.pods p).flush a).map fun flush =>
        s.setPod p { s.pods p with flush }
    else none
  | .flushBuffer p =>
    if (s.pods p).snapshot = .outside then
      (flushStep maxRetries (s.pods p).flush .flushBuffer).map fun flush =>
        s.setPod p { s.pods p with flush, won := false }
    else none
  | .acquire p redisFails =>
    let answer := s.setNX redisFails
    (flushStep maxRetries (s.pods p).flush (.lock answer)).map fun flush =>
      { s.setPod p { s.pods p with
          flush
          deferred := answer = .acquired
          won := answer = .acquired } with
        lock := if answer = .acquired then some p else s.lock }
  | .release p redisFails =>
    if (s.pods p).deferred ∧ (s.pods p).flush.phase.returned then
      some { s.setPod p { s.pods p with deferred := false } with
        lock := if redisFails = false ∧ s.lock = some p then none else s.lock }
    else none
  | .expire => some { s with lock := none }
  | .prepend p =>
    if (s.pods p).deferred then none
    else
      (flushStep maxRetries (s.pods p).flush .prepend).map fun flush =>
        s.setPod p { s.pods p with flush, snapshot := .encoding }
  | .encode p state =>
    if (s.pods p).snapshot = .encoding then
      some (s.setPod p { s.pods p with
        snapshot := if state = [] then .outside else .writing state })
    else none
  | .writeSnapshot p =>
    match (s.pods p).snapshot with
    | .writing _ =>
      some { s.setPod p { s.pods p with snapshot := .outside } with
        writes := s.writes ++ [⟨p, (s.pods p).won⟩] }
    | _ => none

/-- Every call of `WriteSnapshot` was made in a round that had acquired the lock. -/
def OnlyHolderWrites (s : LockState n) : Prop := ∀ w ∈ s.writes, w.won = true
  deriving Decidable

/-- `Acquire` is called only while the key is free, and Redis answers. -/
def AcquiresFree (s : LockState n) : LockAction n → Prop
  | .acquire _ redisFails => redisFails = false ∧ s.lock = none
  | _ => True

instance (s : LockState n) (a : LockAction n) : Decidable (AcquiresFree s a) := by
  unfold AcquiresFree
  split <;> infer_instance

/-! ## A round that is past the lock has won it -/

def Phase.pastLock : Phase → Bool
  | idle => false
  | acquire => false
  | _ => true

section

variable {maxRetries : Nat} {f g : FlushState}

lemma pastLock_of_flushStep {a : FlushAction} (ha : a.isRound = true)
    (hs : flushStep maxRetries f a = some g) (hpast : g.phase.pastLock = true) :
    f.phase.pastLock = true := by
  cases moves_of_flushStep hs with
  | flushBuffer | lock | prepend => cases ha
  | append | health | otherSuccess | otherFailure => exact hpast
  | drain hphase | allow hphase | store hphase | wake hphase | settle hphase =>
    rw [hphase]
    rfl

end

def PodRoom.InRound (room : PodRoom) : Prop :=
  room.flush.phase.pastLock = true ∨ room.snapshot ≠ .outside

structure LockInv (s : LockState n) : Prop where
  won : ∀ p, (s.pods p).InRound → (s.pods p).won = true
  writes : OnlyHolderWrites s

namespace LockInv

variable {maxRetries : Nat} {s t : LockState n} {a : LockAction n}

lemma initial (threshold : Int64) : LockInv (.initial threshold : LockState n) where
  won p h := by
    rcases h with h | h
    · cases h
    · exact absurd rfl h
  writes := by simp [OnlyHolderWrites, LockState.initial]

variable (h : LockInv s)
include h

lemma setPod {p : Fin n} {room : PodRoom} (hroom : room.InRound → room.won = true) :
    LockInv (s.setPod p room) where
  won p' := by
    simp only [LockState.setPod]
    by_cases heq : p' = p
    · rwa [heq, update_self]
    · rw [update_of_ne heq]
      exact h.won p'
  writes := h.writes

lemma of_inRound {p : Fin n} {room : PodRoom} (hround : room.InRound → (s.pods p).InRound)
    (hwon : room.won = (s.pods p).won) : LockInv (s.setPod p room) :=
  h.setPod fun hroom => hwon.trans (h.won p (hround hroom))

lemma acquire {p : Fin n} (hfree : s.lock = none)
    (hs : lockStep maxRetries s (.acquire p false) = some t) : LockInv t := by
  have hanswer : s.setNX false = .acquired := by simp [LockState.setNX, hfree]
  obtain ⟨flush, -, rfl⟩ := map_eq_some_iff.1 hs
  have hnext : LockInv (s.setPod p { s.pods p with
      flush
      deferred := s.setNX false = .acquired
      won := s.setNX false = .acquired }) :=
    h.setPod fun _ => decide_eq_true hanswer
  exact { hnext with }

lemma writeSnapshot {p : Fin n} (hs : lockStep maxRetries s (.writeSnapshot p) = some t) :
    LockInv t := by
  simp only [lockStep] at hs
  split at hs <;> cases hs
  rename_i state hpoint
  have hwon := h.won p (.inr (by simp [hpoint]))
  have hnext : LockInv (s.setPod p { s.pods p with snapshot := .outside }) :=
    h.setPod fun _ => hwon
  refine ⟨hnext.won, ?_⟩
  intro w hw
  rcases mem_snoc.1 hw with hold | rfl
  · exact h.writes w hold
  · exact hwon

lemma step (hok : AcquiresFree s a) (hs : lockStep maxRetries s a = some t) : LockInv t := by
  cases a with
  | round p a =>
    obtain ⟨ha, hs⟩ := ite_none_right_eq_some.1 hs
    obtain ⟨flush, hflush, rfl⟩ := map_eq_some_iff.1 hs
    exact h.of_inRound (fun hroom => hroom.imp_left (pastLock_of_flushStep ha hflush)) rfl
  | flushBuffer p =>
    obtain ⟨houtside, hs⟩ := ite_none_right_eq_some.1 hs
    obtain ⟨flush, hflush, rfl⟩ := map_eq_some_iff.1 hs
    cases moves_of_flushStep hflush
    refine h.setPod fun hroom => absurd houtside (hroom.resolve_left ?_)
    simp only
    split <;> decide
  | acquire p redisFails =>
    obtain ⟨rfl, hfree⟩ := hok
    exact h.acquire hfree hs
  | release p redisFails =>
    obtain ⟨-, rfl⟩ := ite_some_none_eq_some.1 hs
    have hnext : LockInv (s.setPod p { s.pods p with deferred := false }) := h.of_inRound id rfl
    exact { hnext with }
  | expire =>
    cases hs
    exact { h with }
  | prepend p =>
    obtain ⟨-, hs⟩ := ite_none_left_eq_some.1 hs
    obtain ⟨flush, hflush, rfl⟩ := map_eq_some_iff.1 hs
    cases moves_of_flushStep hflush with
    | prepend hphase => exact h.of_inRound (fun _ => .inl (hphase ▸ rfl)) rfl
  | encode p state =>
    obtain ⟨hpoint, rfl⟩ := ite_some_none_eq_some.1 hs
    exact h.of_inRound (fun _ => .inr (by simp [hpoint])) rfl
  | writeSnapshot p => exact h.writeSnapshot hs

end LockInv

/-- Only rounds with the lock write snapshots, in every run of the pods in which the lock
is asked for only while it is free. -/
theorem onlyHolderWrites_of_acquiresFree {maxRetries : Nat} {threshold : Int64} {s : LockState n}
    (hrun : Run (lockStep maxRetries) AcquiresFree (.initial threshold) s) : OnlyHolderWrites s :=
  (hrun.invariant (LockInv.initial threshold) fun _ _ _ h hok hs => h.step hok hs).writes

def podRound (p : Fin 2) : List (LockAction 2) :=
  [.round p (.append [0, 2] 0 0), .flushBuffer p, .acquire p false, .round p .drain,
    .round p .allow, .round p (.store (some ⟨1, 0, [], none⟩)), .round p .settle,
    .release p false, .prepend p, .encode p [1], .writeSnapshot p]

theorem onlyHolderWrites_podRounds :
    ∃ s, exec (lockStep 3) AcquiresFree (.initial 5) (podRound 0 ++ podRound 1) = some s ∧
      s.writes = [⟨0, true⟩, ⟨1, true⟩] ∧ OnlyHolderWrites s :=
  exec_and (by decide +kernel) fun _ hrun => onlyHolderWrites_of_acquiresFree hrun

def refusedPodWrites (a b : Fin 2) : List (LockAction 2) :=
  [.round a (.append [0, 2] 0 0), .flushBuffer a, .acquire a false, .round b (.append [0, 2] 0 0),
    .flushBuffer b, .acquire b false, .prepend b, .encode b [1], .writeSnapshot b]

theorem snapshot_written_without_lock : ¬ ∀ (maxRetries : Nat) (threshold : Int64)
    (s : LockState 2),
      Run (lockStep maxRetries) anyStep (.initial threshold) s → OnlyHolderWrites s :=
  fun hevery => not_forall_run (refusedPodWrites 0 1) (by decide +kernel) (hevery 3 5)

end CollabEditor.Relay
