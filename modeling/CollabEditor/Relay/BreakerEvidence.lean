import CollabEditor.Support.Execution
import CollabEditor.Relay.Flush
/-!
# What moves the breaker

One breaker is shared by the flushes of any number of rooms (`flush.go`) and the health checker
(`circuit_breaker.go`).  A provider call and the recording of its outcome are separate steps.
-/

namespace CollabEditor.Relay

open Support.Execution Function

variable {n : Nat}

/-- Where a flush is: in a phase of the round, or between a failed `Store` call and its
`RecordFailure`. -/
inductive FlushPoint
  | round (phase : Phase)
  | failing (updates : List BufferedUpdate) (payloads : List UpdatePayload) (attempt : Nat)

/-- Where `checkHealth` is. `sawHalfOpen` is the point before its `RecordSuccess`. -/
inductive HealthPoint
  | idle
  | unhealthy
  | healthy
  | marked
  | sawHalfOpen
  deriving DecidableEq

inductive BreakerUser (n : Nat)
  | flush (room : Fin n)
  | health
  deriving DecidableEq

/-- `fresh u` records that the last provider call of `u` returned an answer, in the
flush under way, and that no provider call has failed since. -/
structure BreakerUsers (n : Nat) where
  breaker : CircuitBreaker
  flushes : Fin n → FlushPoint
  health : HealthPoint
  fresh : BreakerUser n → Bool

def BreakerUsers.initial (threshold : Int64) : BreakerUsers n :=
  ⟨.new threshold, fun _ => .round .idle, .idle, fun _ => false⟩

inductive BreakerAction (n : Nat)
  | drained (room : Fin n) (updates : List BufferedUpdate)
  | allow (room : Fin n)
  | store (room : Fin n) (resp : Option StoreResponse)
  | recordFailure (room : Fin n)
  | wake (room : Fin n) (cancelled : Bool)
  | settle (room : Fin n)
  | healthCheck (ok : Bool)
  | healthSection

def BreakerAction.user : BreakerAction n → BreakerUser n
  | drained room _ => .flush room
  | allow room => .flush room
  | store room _ => .flush room
  | recordFailure room => .flush room
  | wake room _ => .flush room
  | settle room => .flush room
  | healthCheck _ => .health
  | healthSection => .health

namespace BreakerUsers

def goTo (s : BreakerUsers n) (room : Fin n) (p : FlushPoint) : BreakerUsers n :=
  { s with flushes := update s.flushes room p }

lemma goTo_self (s : BreakerUsers n) (room : Fin n) (p : FlushPoint) :
    (s.goTo room p).flushes room = p :=
  update_self ..

lemma goTo_of_ne (s : BreakerUsers n) {room room' : Fin n} (h : room' ≠ room) (p : FlushPoint) :
    (s.goTo room p).flushes room' = s.flushes room' :=
  update_of_ne h ..

def begun (s : BreakerUsers n) (u : BreakerUser n) : BreakerUsers n :=
  { s with fresh := update s.fresh u false }

lemma begun_of_ne (s : BreakerUsers n) {u u' : BreakerUser n} (h : u' ≠ u) :
    (s.begun u).fresh u' = s.fresh u' :=
  update_of_ne h ..

def answered (s : BreakerUsers n) (u : BreakerUser n) : BreakerUsers n :=
  { s with fresh := update s.fresh u true }

lemma answered_self (s : BreakerUsers n) (u : BreakerUser n) : (s.answered u).fresh u = true :=
  update_self ..

def failed (s : BreakerUsers n) : BreakerUsers n := { s with fresh := fun _ => false }

def healthSection (s : BreakerUsers n) : Option (BreakerUsers n) :=
  match s.health with
  | .idle => none
  | .unhealthy => some { s with breaker := s.breaker.recordFailure, health := .idle }
  | .healthy => some { s with breaker := s.breaker.markHalfOpen, health := .marked }
  | .marked =>
    some { s with health := if s.breaker.state = .halfOpen then .sawHalfOpen else .idle }
  | .sawHalfOpen => some { s with breaker := s.breaker.recordSuccess, health := .idle }

end BreakerUsers

def breakerStep (maxRetries : Nat) (s : BreakerUsers n) :
    BreakerAction n → Option (BreakerUsers n)
  | .drained room updates =>
    match s.flushes room, updates with
    | .round .idle, _ :: _ =>
      some ((s.begun (.flush room)).goTo room (.round (.checkBreaker updates)))
    | _, _ => none
  | .allow room =>
    match s.flushes room with
    | .round (.checkBreaker updates) =>
      some (s.goTo room (.round (if s.breaker.allow then
        loopHead maxRetries updates (toPayloads updates) 0 else .idle)))
    | _ => none
  | .store room resp =>
    match s.flushes room, resp with
    | .round (.store updates payloads attempt), none =>
      some (s.failed.goTo room (.failing updates payloads attempt))
    | .round (.store updates payloads attempt), some resp =>
      some ((s.answered (.flush room)).goTo room
        (.round (afterStore maxRetries updates payloads attempt (some resp))))
    | _, _ => none
  | .recordFailure room =>
    match s.flushes room with
    | .failing updates payloads attempt =>
      some { s.goTo room (.round (afterStore maxRetries updates payloads attempt none)) with
        breaker := s.breaker.recordFailure }
    | _ => none
  | .wake room cancelled =>
    match s.flushes room with
    | .round (.backoff updates payloads attempt resp) =>
      some (s.goTo room (.round (if cancelled then .stored updates resp
        else loopHead maxRetries updates payloads (attempt + 1))))
    | _ => none
  | .settle room =>
    match s.flushes room with
    | .round (.stored _ resp) =>
      some { s.goTo room (.round .idle) with breaker := recordResult s.breaker resp }
    | _ => none
  | .healthCheck ok =>
    match s.health, ok with
    | .idle, true => some { s.answered .health with health := .healthy }
    | .idle, false => some { s.failed with health := .unhealthy }
    | _, _ => none
  | .healthSection => s.healthSection

/-- The breaker leaves the open state, or its failure count goes back to zero, other than by
counting on from `-1`. -/
def CircuitBreaker.Resets (cb cb' : CircuitBreaker) : Prop :=
  (cb.state = .open ∧ cb'.state ≠ .open) ∨
    (cb.failureCount ≠ 0 ∧ cb.failureCount + 1 ≠ 0 ∧ cb'.failureCount = 0)
  deriving Decidable

/-- The user of the breaker that has taken the step has an answer later than every
failure, if the step resets the breaker. -/
def OnEvidence (s : BreakerUsers n) (a : BreakerAction n) (t : BreakerUsers n) : Prop :=
  s.breaker.Resets t.breaker → s.fresh a.user = true

def FlushPoint.HasAnswer : FlushPoint → Prop
  | round (.stored _ (some resp)) => resp.failed = []
  | _ => False

instance (p : FlushPoint) : Decidable p.HasAnswer := by
  unfold FlushPoint.HasAnswer
  split <;> infer_instance

def HealthPoint.HasAnswer : HealthPoint → Prop
  | idle => False
  | unhealthy => False
  | _ => True

instance (p : HealthPoint) : Decidable p.HasAnswer := by
  rcases p with ⟨⟩ <;> dsimp only [HealthPoint.HasAnswer] <;> infer_instance

def BreakerUsers.Quiet (s : BreakerUsers n) : Prop :=
  (∀ room, ¬ (s.flushes room).HasAnswer) ∧ ¬ s.health.HasAnswer
  deriving Decidable

def FlushPoint.AttemptLeft (maxRetries : Nat) : FlushPoint → Prop
  | round (.store _ _ attempt) => attempt + 1 < maxRetries
  | _ => True

instance (maxRetries : Nat) (p : FlushPoint) : Decidable (p.AttemptLeft maxRetries) := by
  unfold FlushPoint.AttemptLeft
  split <;> infer_instance

def FlushPoint.AfterResponse : FlushPoint → Prop
  | round (.backoff _ _ _ resp) => resp ≠ none
  | _ => True

instance (p : FlushPoint) : Decidable p.AfterResponse := by
  unfold FlushPoint.AfterResponse
  split <;> infer_instance

/-- A provider call fails only while nobody has an answer to record, and a `Store` call
only with another attempt left; a flush is cancelled only right after a response. -/
def FailsInTime (maxRetries : Nat) (s : BreakerUsers n) : BreakerAction n → Prop
  | .store room none => s.Quiet ∧ (s.flushes room).AttemptLeft maxRetries
  | .wake room true => (s.flushes room).AfterResponse
  | .healthCheck false => s.Quiet
  | _ => True

instance (maxRetries : Nat) (s : BreakerUsers n) (a : BreakerAction n) :
    Decidable (FailsInTime maxRetries s a) := by
  unfold FailsInTime
  split <;> infer_instance

/-! ## The breaker's own moves -/

lemma CircuitBreaker.not_resets_self (cb : CircuitBreaker) : ¬ cb.Resets cb := by
  rintro (⟨hopen, hnot⟩ | ⟨hne, -, hzero⟩)
  · exact hnot hopen
  · exact hne hzero

lemma CircuitBreaker.not_resets_recordFailure (cb : CircuitBreaker) :
    ¬ cb.Resets cb.recordFailure := by
  rintro (⟨hopen, hnot⟩ | ⟨-, hne, hzero⟩)
  · simp [recordFailure, hopen] at hnot
  · exact hne hzero

/-! ## What a flush has in hand -/

/-- Under the condition a flush never comes to its end without a response, and what it
is about to record as a success is later than every failure. -/
def FlushPoint.Sound (maxRetries : Nat) (fresh : Bool) : FlushPoint → Prop
  | failing _ _ attempt => attempt + 1 < maxRetries
  | round (.backoff _ _ attempt resp) => attempt + 1 < maxRetries ∧ ∀ r ∈ resp, r.failed ≠ []
  | round (.stored _ none) => False
  | round (.stored _ (some resp)) => resp.failed = [] → fresh = true
  | _ => True

section

variable {maxRetries attempt : Nat} {fresh : Bool} {updates : List BufferedUpdate}
  {payloads : List UpdatePayload} {p : FlushPoint}

lemma sound_loopHead (h : attempt < maxRetries) :
    (FlushPoint.round (loopHead maxRetries updates payloads attempt)).Sound maxRetries fresh := by
  rw [loopHead, if_pos h]
  trivial

lemma sound_afterStore_none (h : attempt + 1 < maxRetries) :
    (FlushPoint.round (afterStore maxRetries updates payloads attempt none)).Sound maxRetries
      fresh := by
  rw [afterStore, if_pos h]
  exact ⟨h, nofun⟩

lemma sound_afterStore_some (resp : StoreResponse) :
    (FlushPoint.round (afterStore maxRetries updates payloads attempt (some resp))).Sound
      maxRetries true := by
  rw [afterStore]
  split_ifs with hfailed hleft
  · exact fun _ => rfl
  · refine ⟨hleft, ?_⟩
    rintro _ ⟨⟩
    exact hfailed
  · exact fun _ => rfl

lemma FlushPoint.Sound.mono {fresh' : Bool} (h : p.Sound maxRetries fresh)
    (hfresh : p.HasAnswer → fresh = true → fresh' = true) : p.Sound maxRetries fresh' := by
  unfold Sound HasAnswer at *
  split at h <;> try exact h
  exact fun hfailed => hfresh hfailed (h hfailed)

end

structure BreakerInv (maxRetries : Nat) (s : BreakerUsers n) : Prop where
  flushes : ∀ room, (s.flushes room).Sound maxRetries (s.fresh (.flush room))
  health : s.health.HasAnswer → s.fresh .health = true

namespace BreakerInv

variable {maxRetries : Nat} {s t : BreakerUsers n} {a : BreakerAction n}

lemma initial (threshold : Int64) : BreakerInv maxRetries (.initial threshold : BreakerUsers n) :=
  ⟨fun _ => trivial, nofun⟩

section

variable (h : BreakerInv maxRetries s)
include h

lemma goTo {room : Fin n} {p : FlushPoint} (hp : p.Sound maxRetries (s.fresh (.flush room))) :
    BreakerInv maxRetries (s.goTo room p) where
  flushes room' := by
    by_cases heq : room' = room
    · subst heq
      rw [s.goTo_self]
      exact hp
    · rw [s.goTo_of_ne heq]
      exact h.flushes room'
  health := h.health

lemma answered (u : BreakerUser n) : BreakerInv maxRetries (s.answered u) := by
  have hkeep : ∀ u', s.fresh u' = true → (s.answered u).fresh u' = true := by
    intro u' hu'
    by_cases heq : u' = u
    · subst heq
      exact update_self ..
    · exact (update_of_ne heq ..).trans hu'
  exact ⟨fun room => (h.flushes room).mono fun _ => hkeep _, fun hans => hkeep _ (h.health hans)⟩

lemma failed (hquiet : s.Quiet) : BreakerInv maxRetries s.failed :=
  ⟨fun room => (h.flushes room).mono fun hans => absurd hans (hquiet.1 room),
    fun hans => absurd hans hquiet.2⟩

lemma begun {room : Fin n} (hidle : s.flushes room = .round .idle) :
    BreakerInv maxRetries (s.begun (.flush room)) where
  flushes room' := by
    by_cases heq : room' = room
    · subst heq
      rw [show (s.begun (.flush room')).flushes room' = .round .idle from hidle]
      trivial
    · rw [s.begun_of_ne (by simpa using heq)]
      exact h.flushes room'
  health hans := by
    rw [s.begun_of_ne (by simp)]
    exact h.health hans

lemma healthSection (hs : s.healthSection = some t) :
    BreakerInv maxRetries t ∧ OnEvidence s .healthSection t := by
  unfold BreakerUsers.healthSection at hs
  split at hs
  · cases hs
  · cases hs
    exact ⟨⟨h.flushes, nofun⟩, fun hr => absurd hr (CircuitBreaker.not_resets_recordFailure _)⟩
  all_goals
    rename_i hpoint
    have hfresh := h.health (hpoint ▸ trivial)
    cases hs
  · exact ⟨⟨h.flushes, fun _ => hfresh⟩, fun _ => hfresh⟩
  · exact ⟨⟨h.flushes, fun _ => hfresh⟩, fun _ => hfresh⟩
  · exact ⟨⟨h.flushes, nofun⟩, fun _ => hfresh⟩

/-- A flush that records the outcome of its calls has a response, and if that is a success
then one later than every failure. -/
lemma settle {room : Fin n} {updates : List BufferedUpdate} {resp : Option StoreResponse}
    (hpoint : s.flushes room = .round (.stored updates resp))
    (hresets : s.breaker.Resets (recordResult s.breaker resp)) : s.fresh (.flush room) = true := by
  have hsound := h.flushes room
  rw [hpoint] at hsound
  cases resp with
  | none => exact hsound.elim
  | some resp =>
    by_cases hfailed : resp.failed = []
    · exact hsound hfailed
    · rw [recordResult, if_neg hfailed] at hresets
      exact absurd hresets (CircuitBreaker.not_resets_self _)

end

lemma step (hretries : 0 < maxRetries) (h : BreakerInv maxRetries s)
    (hok : FailsInTime maxRetries s a) (hs : breakerStep maxRetries s a = some t) :
    BreakerInv maxRetries t ∧ OnEvidence s a t := by
  -- Only `recordFailure`, `settle` and `healthSection` touch the breaker.
  have hsame : ∀ {t' : BreakerUsers n}, t'.breaker = s.breaker → OnEvidence s a t' := by
    intro t' heq hr
    rw [heq] at hr
    exact absurd hr (CircuitBreaker.not_resets_self _)
  cases a with
  | drained room updates =>
    simp only [breakerStep] at hs
    split at hs <;> cases hs
    rename_i hidle
    exact ⟨(h.begun hidle).goTo trivial, hsame rfl⟩
  | allow room =>
    simp only [breakerStep] at hs
    split at hs <;> cases hs
    refine ⟨h.goTo ?_, hsame rfl⟩
    split
    · exact sound_loopHead hretries
    · trivial
  | store room resp =>
    simp only [breakerStep] at hs
    split at hs
    · rename_i updates payloads attempt hpoint
      cases hs
      obtain ⟨hquiet, hleft⟩ := hok
      rw [hpoint] at hleft
      exact ⟨(h.failed hquiet).goTo hleft, hsame rfl⟩
    · rename_i resp hpoint
      cases hs
      refine ⟨(h.answered _).goTo ?_, hsame rfl⟩
      rw [s.answered_self]
      exact sound_afterStore_some resp
    · cases hs
  | recordFailure room =>
    simp only [breakerStep] at hs
    split at hs <;> cases hs
    rename_i updates payloads attempt hpoint
    have hsound := h.flushes room
    rw [hpoint] at hsound
    exact ⟨⟨(h.goTo (sound_afterStore_none hsound)).flushes, h.health⟩,
      fun hr => absurd hr (CircuitBreaker.not_resets_recordFailure _)⟩
  | wake room cancelled =>
    simp only [breakerStep] at hs
    split at hs <;> cases hs
    rename_i updates payloads attempt resp hpoint
    have hsound := h.flushes room
    rw [hpoint] at hsound
    refine ⟨h.goTo ?_, hsame rfl⟩
    cases cancelled with
    | false => exact sound_loopHead hsound.1
    | true =>
      have hresp : resp ≠ none := by
        simpa only [FailsInTime, hpoint, FlushPoint.AfterResponse] using hok
      obtain ⟨r, rfl⟩ := Option.ne_none_iff_exists'.1 hresp
      exact fun hfailed => absurd hfailed (hsound.2 r rfl)
  | settle room =>
    simp only [breakerStep] at hs
    split at hs <;> cases hs
    rename_i updates resp hpoint
    have hnext : BreakerInv maxRetries (s.goTo room (.round .idle)) := h.goTo trivial
    exact ⟨{ hnext with }, h.settle hpoint⟩
  | healthCheck ok =>
    simp only [breakerStep] at hs
    split at hs
    · cases hs
      have hnext := h.answered .health
      exact ⟨⟨hnext.flushes, fun _ => s.answered_self .health⟩, hsame rfl⟩
    · cases hs
      exact ⟨⟨(h.failed hok).flushes, nofun⟩, hsame rfl⟩
    · cases hs
  | healthSection => exact h.healthSection hs

end BreakerInv

/-- In every interleaving in which provider calls fail only in time, every step that
resets the breaker is one of a user with an answer later than every failure. -/
theorem resets_on_evidence_of_failsInTime {maxRetries : Nat} (hretries : 0 < maxRetries)
    (threshold : Int64) {s t : BreakerUsers n} {a : BreakerAction n}
    (hrun : Run (breakerStep maxRetries) (FailsInTime maxRetries) (.initial threshold) s)
    (hok : FailsInTime maxRetries s a) (hs : breakerStep maxRetries s a = some t) :
    OnEvidence s a t := by
  have hinv : BreakerInv maxRetries s :=
    hrun.invariant (BreakerInv.initial threshold) fun _ _ _ h hok hs =>
      (h.step hretries hok hs).1
  exact (hinv.step hretries hok hs).2

def oneUpdate : List BufferedUpdate := [⟨1, [0, 2], 0, 0⟩]

def storedAll : StoreResponse := ⟨1, 0, [], none⟩

def retriedFlush (a b : Fin 2) : List (BreakerAction 2) :=
  [.drained a oneUpdate, .allow a, .store a none, .recordFailure a, .healthCheck true,
    .healthSection, .healthSection, .healthSection, .drained b oneUpdate, .allow b,
    .store b none, .recordFailure b, .wake a false, .store a (some storedAll)]

theorem resets_on_evidence_retriedFlush : ∃ s t : BreakerUsers 2,
      exec (breakerStep 2) (FailsInTime 2) (.initial 1) (retriedFlush 0 1) = some s ∧
      breakerStep 2 s (.settle 0) = some t ∧ s.breaker.Resets t.breaker ∧
      OnEvidence s (.settle 0) t := by
  have hrun : ∃ s ∈ exec (breakerStep 2) (FailsInTime 2) (.initial 1) (retriedFlush 0 1),
      ∃ t ∈ breakerStep 2 s (.settle 0), s.breaker.Resets t.breaker := by decide +kernel
  obtain ⟨s, hs, t, ht, hresets⟩ := hrun
  exact ⟨s, t, hs, ht, hresets,
    resets_on_evidence_of_failsInTime Nat.two_pos 1 (run_of_exec hs) trivial ht⟩

/-- The only attempt of a flush fails and opens the breaker; the flush then records a
success, and closes it again. -/
theorem failed_flush_closes_breaker :
    ¬ ∀ (maxRetries : Nat) (threshold : Int64) (s t : BreakerUsers 1) (a : BreakerAction 1),
      1 ≤ threshold → Run (breakerStep maxRetries) anyStep (.initial threshold) s →
      breakerStep maxRetries s a = some t → OnEvidence s a t := by
  intro hevery
  have hrun : ∃ s ∈ exec (breakerStep 1) anyStep (.initial 1 : BreakerUsers 1)
      [.drained 0 oneUpdate, .allow 0, .store 0 none, .recordFailure 0],
      ∃ t ∈ breakerStep 1 s (.settle 0), s.breaker.state = .open ∧ t.breaker.state = .closed ∧
        s.breaker.Resets t.breaker ∧ s.fresh (.flush 0) = false := by decide +kernel
  obtain ⟨s, hs, t, ht, -, -, hresets, hfresh⟩ := hrun
  have hevidence := hevery 1 1 s t _ (by decide) (run_of_exec hs) ht hresets
  exact absurd (hfresh.symm.trans hevidence) (by decide)

end CollabEditor.Relay
