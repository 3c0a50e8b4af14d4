import CollabEditor.Support.Execution
import CollabEditor.Support.SingleFlight
import Mathlib.Tactic.SplitIfs
import Mathlib.Tactic.GCongr.Core
/-!
# One room for many calls

`GetOrCreate` of `internal/relay/room_manager.go`, called any number of times while no room is
removed.  A call that finds no room shares an execution of the function that makes, bootstraps and
stores one.  A room is known by the number of rooms made before it.
-/

namespace CollabEditor.Relay

open Support Execution SingleFlight Function Option

inductive CreatePhase (ε : Type)
  | lookup
  | creating
  | bootstrapping (room : Nat)
  | bootstrapped (room : Nat)
  | returned (result : Except ε Nat)

inductive BootstrapStatus (ε : Type)
  | notStarted
  | running
  | failed (err : ε)
  | succeeded

/-- Where a call of `GetOrCreate` is: with the execution it shares, and with what it has
returned. -/
inductive CallPhase (ε : Type)
  | start
  | missed
  | inFlight (execution : Nat)
  | returned (execution : Option Nat) (result : Except ε Nat)
  deriving DecidableEq

/-- `bootstraps` has the bootstrap of each execution. -/
structure Registry (ι ε : Type) where
  registered : Option Nat
  made : Nat
  group : Group (CreatePhase ε) (Except ε Nat)
  calls : ι → CallPhase ε
  bootstraps : Nat → BootstrapStatus ε

inductive RegistryAction (ι ε : Type)
  | load (c : ι)
  | enter (c : ι)
  | lookup
  | create
  | bootstrapReturns (err : Option ε)
  | store
  | finish
  | wake (c : ι)

namespace Registry

variable {ι ε : Type}

def initial : Registry ι ε := ⟨none, 0, .new, fun _ => .start, fun _ => .notStarted⟩

section

variable [DecidableEq ι]

def goTo (s : Registry ι ε) (c : ι) (p : CallPhase ε) : Registry ι ε :=
  { s with calls := update s.calls c p }

lemma goTo_self (s : Registry ι ε) (c : ι) (p : CallPhase ε) : (s.goTo c p).calls c = p :=
  update_self ..

lemma goTo_of_ne (s : Registry ι ε) {c c' : ι} (h : c' ≠ c) (p : CallPhase ε) :
    (s.goTo c p).calls c' = s.calls c' :=
  update_of_ne h ..

def callStep (s : Registry ι ε) (c : ι) :
    CallPhase ε → RegistryAction ι ε → Option (Registry ι ε)
  | .start, .load _ =>
    some (s.goTo c (match s.registered with
      | some room => .returned none (.ok room)
      | none => .missed))
  | .missed, .enter _ =>
    some { s.goTo c (.inFlight s.group.joined) with group := s.group.enter .lookup }
  | .inFlight execution, .wake _ =>
    (s.group.results execution).map fun result => s.goTo c (.returned (some execution) result)
  | _, _ => none

end

def setBootstrap (s : Registry ι ε) (execution : Nat) (status : BootstrapStatus ε) :
    Registry ι ε :=
  { s with bootstraps := update s.bootstraps execution status }

def advance (s : Registry ι ε) (p : CreatePhase ε) : Registry ι ε :=
  { s with group := s.group.advance p }

def createStep (s : Registry ι ε) (execution : Nat) :
    CreatePhase ε → RegistryAction ι ε → Option (Registry ι ε)
  | .lookup, .lookup =>
    some (s.advance (match s.registered with
      | some room => .returned (.ok room)
      | none => .creating))
  | .creating, .create =>
    some { (s.setBootstrap execution .running).advance (.bootstrapping s.made) with
      made := s.made + 1 }
  | .bootstrapping room, .bootstrapReturns none =>
    some ((s.setBootstrap execution .succeeded).advance (.bootstrapped room))
  | .bootstrapping _, .bootstrapReturns (some err) =>
    some ((s.setBootstrap execution (.failed err)).advance (.returned (.error err)))
  | .bootstrapped room, .store =>
    some { s.advance (.returned (.ok room)) with registered := some room }
  | .returned result, .finish => some { s with group := s.group.finish result }
  | _, _ => none

end Registry

section

variable {ι ε : Type} [DecidableEq ι]

def registryStep (s : Registry ι ε) (a : RegistryAction ι ε) : Option (Registry ι ε) :=
  match a with
  | .load c | .enter c | .wake c => s.callStep c (s.calls c) a
  | .lookup | .create | .bootstrapReturns _ | .store | .finish =>
    s.group.running.bind fun x => s.createStep x.1 x.2 a

end

/-! ## What the phases know -/

namespace Registry

variable {ι ε : Type} {s t : Registry ι ε} {e : Nat} {p : CreatePhase ε}
  {result : Except ε Nat}

/-- A result is the registered room, or the error of the execution's own bootstrap. -/
def Sound (s : Registry ι ε) (execution : Nat) : Except ε Nat → Prop
  | .ok room => s.registered = some room
  | .error err => s.bootstraps execution = .failed err

def Knows (s : Registry ι ε) (execution : Nat) : CreatePhase ε → Prop
  | .lookup => s.bootstraps execution = .notStarted
  | .creating => s.bootstraps execution = .notStarted ∧ s.registered = none
  | .bootstrapping _ => s.bootstraps execution = .running ∧ s.registered = none
  | .bootstrapped _ => s.bootstraps execution = .succeeded ∧ s.registered = none
  | .returned result => s.bootstraps execution ≠ .running ∧ s.Sound execution result

/-- What does not change any more: a registered room, and a bootstrap that has failed. -/
structure Extends (s t : Registry ι ε) : Prop where
  registered : ∀ room, s.registered = some room → t.registered = some room
  failed : ∀ e err, s.bootstraps e = .failed err → t.bootstraps e = .failed err

lemma Extends.sound (h : Extends s t) (hs : s.Sound e result) : t.Sound e result := by
  cases result with
  | ok room => exact h.registered room hs
  | error err => exact h.failed e err hs

/-- The phase of the execution under way is known; no other bootstrap runs; a bootstrap has
succeeded only if a room is registered or about to be; and what was returned is sound. -/
structure CreateInv (s : Registry ι ε) : Prop where
  phase : ∀ e p, s.group.running = some (e, p) → s.Knows e p
  others : ∀ e, (∀ p, s.group.running ≠ some (e, p)) → s.bootstraps e ≠ .running ∧
    (s.bootstraps e = .succeeded → s.registered ≠ none)
  fresh : ∀ e, s.group.started ≤ e → s.bootstraps e = .notStarted
  results : ∀ e result, s.group.results e = some result → s.Sound e result
  calls : ∀ c execution result, s.calls c = .returned execution result →
    (∃ room, result = .ok room ∧ s.registered = some room) ∨
      ∃ e, execution = some e ∧ s.Sound e result

section

variable {a : RegistryAction ι ε}

lemma bootstraps_callStep [DecidableEq ι] {c : ι} {phase : CallPhase ε}
    (hs : s.callStep c phase a = some t) : t.bootstraps = s.bootstraps := by
  unfold callStep at hs
  split at hs
  case h_1 | h_2 =>
    cases hs
    rfl
  case h_3 =>
    obtain ⟨result, -, rfl⟩ := map_eq_some_iff.1 hs
    rfl
  case h_4 => cases hs

lemma creating_of_createStep {e' : Nat} (hs : s.createStep e' p a = some t)
    (hidle : s.bootstraps e ≠ .running) (hstarted : t.bootstraps e = .running) :
    e' = e ∧ p = .creating := by
  unfold createStep at hs
  split at hs
  case h_1 | h_5 | h_6 =>
    cases hs
    exact absurd hstarted hidle
  case h_2 =>
    cases hs
    refine ⟨Classical.byContradiction fun hne => hidle ?_, rfl⟩
    exact (update_of_ne (Ne.symm hne) ..).symm.trans hstarted
  case h_3 | h_4 =>
    cases hs
    by_cases heq : e = e'
    · subst heq
      exact absurd ((update_self ..).symm.trans hstarted) nofun
    · exact absurd ((update_of_ne heq ..).symm.trans hstarted) hidle
  case h_7 => cases hs

end

namespace CreateInv

lemma initial : CreateInv (.initial : Registry ι ε) where
  phase _ _ h := nomatch h
  others _ _ := ⟨nofun, nofun⟩
  fresh _ _ := rfl
  results _ _ h := nomatch h
  calls _ _ _ h := nomatch h

section

variable (h : CreateInv s)
include h

lemma calls_extends (hext : Extends s t) (hcalls : t.calls = s.calls) :
    ∀ c execution result, t.calls c = .returned execution result →
      (∃ room, result = .ok room ∧ t.registered = some room) ∨
        ∃ e, execution = some e ∧ t.Sound e result := by
  intro c execution result hc
  rw [hcalls] at hc
  rcases h.calls c execution result hc with ⟨room, rfl, hroom⟩ | ⟨e, rfl, hsound⟩
  · exact .inl ⟨room, rfl, hext.registered room hroom⟩
  · exact .inr ⟨e, rfl, hext.sound hsound⟩

lemma registered_of_succeeded (hsucceeded : s.bootstraps e = .succeeded) :
    s.registered ≠ none ∨ ∃ room, s.group.running = some (e, .bootstrapped room) := by
  by_cases hrunning : ∃ p, s.group.running = some (e, p)
  · obtain ⟨p, hp⟩ := hrunning
    have hknows := h.phase e p hp
    cases p with
    | lookup => exact absurd (hsucceeded.symm.trans hknows) nofun
    | creating | bootstrapping => exact absurd (hsucceeded.symm.trans hknows.1) nofun
    | bootstrapped room => exact .inr ⟨room, hp⟩
    | returned result =>
      cases result with
      | ok room =>
        have hroom : s.registered = some room := hknows.2
        exact .inl (by rw [hroom]; exact nofun)
      | error err => exact absurd (hsucceeded.symm.trans hknows.2) nofun
  · exact .inl ((h.others e fun p hp => hrunning ⟨p, hp⟩).2 hsucceeded)

lemma advance (hrunning : s.group.running = some (e, p)) {q : CreatePhase ε} (hext : Extends s t)
    (hgroup : t.group = s.group.advance q) (hcalls : t.calls = s.calls)
    (hothers : ∀ e', e' ≠ e → t.bootstraps e' = s.bootstraps e') (hknows : t.Knows e q) :
    CreateInv t := by
  have hrun : t.group.running = some (e, q) := by
    rw [hgroup]
    exact Group.running_advance hrunning
  have hresults : t.group.results = s.group.results := by
    rw [hgroup]
    rfl
  have hstarted : t.group.started = s.group.started := by
    rw [hgroup]
    rfl
  refine ⟨?_, ?_, ?_, ?_, h.calls_extends hext hcalls⟩
  · intro e' p' hp'
    obtain ⟨rfl, rfl⟩ := Prod.mk.inj (mem_unique hrun hp')
    exact hknows
  · intro e' hnot
    have hne : e' ≠ e := fun heq => hnot q (heq ▸ hrun)
    obtain ⟨hidle, hsucceeded⟩ := h.others e' fun p' hp' =>
      hne (Prod.mk.inj (mem_unique hp' hrunning)).1
    rw [hothers e' hne]
    refine ⟨hidle, fun hs => ?_⟩
    obtain ⟨room, hroom⟩ := ne_none_iff_exists'.1 (hsucceeded hs)
    rw [hext.registered room hroom]
    exact nofun
  · intro e' hle
    have hlt := s.group.running_lt e p hrunning
    rw [hothers e' (by omega)]
    exact h.fresh e' (hstarted ▸ hle)
  · intro e' result hresult
    exact hext.sound (h.results e' result (hresults ▸ hresult))

lemma finish (hrunning : s.group.running = some (e, .returned result)) :
    CreateInv { s with group := s.group.finish result } := by
  have hknows := h.phase e _ hrunning
  have hext : Extends s { s with group := s.group.finish result } :=
    ⟨fun _ => id, fun _ _ => id⟩
  refine ⟨nofun, ?_, h.fresh, ?_, h.calls_extends hext rfl⟩
  · intro e' _
    by_cases heq : e' = e
    · subst heq
      refine ⟨hknows.1, fun hsucceeded => ?_⟩
      rcases h.registered_of_succeeded hsucceeded with hroom | ⟨room, hstoring⟩
      · exact hroom
      · exact absurd (hstoring.symm.trans hrunning) nofun
    · refine h.others e' fun p hp => heq ?_
      exact (Prod.mk.inj (mem_unique hp hrunning)).1
  · intro e' result' hresult
    rw [Group.results_finish hrunning] at hresult
    split_ifs at hresult with heq
    · cases hresult
      rw [heq]
      exact hknows.2
    · exact h.results e' result' hresult

lemma createStep {a : RegistryAction ι ε} (hrunning : s.group.running = some (e, p))
    (hs : s.createStep e p a = some t) : CreateInv t := by
  have hknows := h.phase e p hrunning
  -- The bootstrap of the execution changes from a status that is not a failure.
  have hext (status : BootstrapStatus ε) (hnot : ∀ err, s.bootstraps e ≠ .failed err) :
      ∀ e' err, s.bootstraps e' = .failed err → update s.bootstraps e status e' = .failed err := by
    intro e' err hfailed
    have hne : e' ≠ e := fun heq => hnot err (heq ▸ hfailed)
    rwa [update_of_ne hne]
  have hothers (status : BootstrapStatus ε) : ∀ e', e' ≠ e →
      update s.bootstraps e status e' = s.bootstraps e' :=
    fun e' hne => update_of_ne hne ..
  have hself (status : BootstrapStatus ε) : update s.bootstraps e status e = status :=
    update_self ..
  unfold Registry.createStep at hs
  split at hs
  case h_1 =>
    cases hs
    refine h.advance hrunning ⟨fun _ => id, fun _ _ => id⟩ rfl rfl (fun _ _ => rfl) ?_
    cases hroom : s.registered with
    | none => exact ⟨hknows, hroom⟩
    | some room => exact ⟨fun hrun => absurd (hrun.symm.trans hknows) nofun, hroom⟩
  case h_2 | h_3 =>
    cases hs
    have hnot : ∀ err, s.bootstraps e ≠ .failed err := by
      rw [hknows.1]
      exact nofun
    exact h.advance hrunning ⟨fun _ => id, hext _ hnot⟩ rfl rfl (hothers _)
      ⟨hself _, hknows.2⟩
  case h_4 err =>
    cases hs
    have hnot : ∀ err, s.bootstraps e ≠ .failed err := by
      rw [hknows.1]
      exact nofun
    refine h.advance hrunning ⟨fun _ => id, hext _ hnot⟩ rfl rfl (hothers _) ⟨?_, hself _⟩
    exact fun hrun => absurd ((hself (.failed err)).symm.trans hrun) nofun
  case h_5 room =>
    cases hs
    have hnone : s.registered = none := hknows.2
    refine h.advance hrunning ⟨fun r hr => ?_, fun _ _ => id⟩ rfl rfl (fun _ _ => rfl) ?_
    · exact absurd (hnone.symm.trans hr) nofun
    · exact ⟨fun hrun => absurd (hrun.symm.trans hknows.1) nofun, rfl⟩
  case h_6 result =>
    cases hs
    exact h.finish hrunning
  case h_7 => cases hs

lemma enter : CreateInv { s with group := s.group.enter .lookup } := by
  cases hrunning : s.group.running with
  | some x =>
    rw [Group.enter_of_running (e := x.1) (q := x.2) hrunning]
    exact h
  | none =>
    have hrun := Group.running_enter (p := (.lookup : CreatePhase ε)) hrunning
    refine ⟨?_, ?_, ?_, ?_, h.calls⟩
    · intro e p hp
      obtain ⟨rfl, rfl⟩ := Prod.mk.inj (mem_unique hrun hp)
      exact h.fresh _ (Nat.le_refl _)
    · intro e _
      refine h.others e fun p hp => ?_
      exact absurd (hrunning.symm.trans hp) nofun
    · intro e hle
      exact h.fresh e (Nat.le_trans Group.started_le_enter hle)
    · intro e result hresult
      exact h.results e result (Group.results_enter (g := s.group) ▸ hresult)

end

section

variable [DecidableEq ι] (h : CreateInv s)
include h

lemma goTo {c : ι} {phase : CallPhase ε}
    (hphase : ∀ execution result, phase = .returned execution result →
      (∃ room, result = .ok room ∧ s.registered = some room) ∨
        ∃ e, execution = some e ∧ s.Sound e result) : CreateInv (s.goTo c phase) := by
  refine { h with calls := fun c' execution result hc' => ?_ }
  by_cases heq : c' = c
  · rw [heq, s.goTo_self] at hc'
    exact hphase execution result hc'
  · rw [s.goTo_of_ne heq] at hc'
    exact h.calls c' execution result hc'

lemma callStep {a : RegistryAction ι ε} {c : ι} {phase : CallPhase ε}
    (hs : s.callStep c phase a = some t) : CreateInv t := by
  unfold Registry.callStep at hs
  split at hs
  case h_1 =>
    cases hs
    refine h.goTo fun execution result heq => ?_
    cases hroom : s.registered with
    | none =>
      rw [hroom] at heq
      cases heq
    | some room =>
      rw [hroom] at heq
      cases heq
      exact .inl ⟨room, rfl, rfl⟩
  case h_2 =>
    cases hs
    exact h.enter.goTo (c := c) fun _ _ heq => nomatch heq
  case h_3 execution _ =>
    obtain ⟨result, hresult, rfl⟩ := map_eq_some_iff.1 hs
    refine h.goTo fun execution' result' heq => ?_
    cases heq
    exact .inr ⟨execution, rfl, h.results execution result hresult⟩
  case h_4 => cases hs

lemma step {a : RegistryAction ι ε} (hs : registryStep s a = some t) : CreateInv t := by
  cases a with
  | load c | enter c | wake c => exact h.callStep hs
  | lookup | create | bootstrapReturns err | store | finish =>
    obtain ⟨x, hrunning, hs⟩ := bind_eq_some_iff.1 hs
    exact h.createStep hrunning hs

end

lemma bootstrapping_of_running (h : CreateInv s) (hrun : s.bootstraps e = .running) :
    ∃ room, s.group.running = some (e, .bootstrapping room) := by
  by_cases hrunning : ∃ p, s.group.running = some (e, p)
  · obtain ⟨p, hp⟩ := hrunning
    have hknows := h.phase e p hp
    cases p with
    | lookup => exact absurd (hrun.symm.trans hknows) nofun
    | creating => exact absurd (hrun.symm.trans hknows.1) nofun
    | bootstrapping room => exact ⟨room, hp⟩
    | bootstrapped room => exact absurd (hrun.symm.trans hknows.1) nofun
    | returned result => exact absurd hrun hknows.1
  · exact absurd hrun (h.others e fun p hp => hrunning ⟨p, hp⟩).1

lemma creating_of_starts [DecidableEq ι] {a : RegistryAction ι ε} (h : CreateInv s)
    (hs : registryStep s a = some t) (hidle : s.bootstraps e ≠ .running)
    (hstarted : t.bootstraps e = .running) :
    s.group.running = some (e, .creating) ∧ s.registered = none := by
  have hmoved : t.bootstraps e ≠ s.bootstraps e := fun heq => hidle (heq ▸ hstarted)
  cases a with
  | load c | enter c | wake c =>
    exact absurd (bootstraps_callStep hs ▸ rfl) hmoved
  | lookup | create | bootstrapReturns err | store | finish =>
    obtain ⟨⟨e', p⟩, hrunning, hs⟩ := bind_eq_some_iff.1 hs
    obtain ⟨rfl, rfl⟩ := creating_of_createStep hs hidle hstarted
    exact ⟨hrunning, (h.phase _ _ hrunning).2⟩

end CreateInv

end Registry

section

open Registry

variable {ι ε : Type} [DecidableEq ι]

/-- At most one bootstrap runs, and none starts after one has succeeded; every call that returns
without an error returns the registered room; and one that returns an error has shared an execution
whose bootstrap has failed with it. -/
theorem room_created_once {s : Registry ι ε} (hrun : Run registryStep anyStep .initial s) :
    (∀ e e', s.bootstraps e = .running → s.bootstraps e' = .running → e = e') ∧
      (∀ a t e, registryStep s a = some t → s.bootstraps e ≠ .running →
        t.bootstraps e = .running → ∀ e', s.bootstraps e' ≠ .succeeded) ∧
      (∀ c execution room, s.calls c = .returned execution (.ok room) → s.registered = some room) ∧
      ∀ c execution err, s.calls c = .returned execution (.error err) →
        ∃ e, execution = some e ∧ s.bootstraps e = .failed err := by
  have h := hrun.invariant (P := CreateInv) .initial fun _ _ _ h _ hs => h.step hs
  refine ⟨?_, ?_, ?_, ?_⟩
  · intro e e' he he'
    obtain ⟨room, hroom⟩ := h.bootstrapping_of_running he
    obtain ⟨room', hroom'⟩ := h.bootstrapping_of_running he'
    exact (Prod.mk.inj (mem_unique hroom hroom')).1
  · intro a t e hs hidle hstarted e' hsucceeded
    obtain ⟨hrunning, hnone⟩ := h.creating_of_starts hs hidle hstarted
    rcases h.registered_of_succeeded hsucceeded with hroom | ⟨room, hstoring⟩
    · exact hroom hnone
    · exact absurd (hstoring.symm.trans hrunning) nofun
  · intro c execution room hc
    rcases h.calls c execution _ hc with ⟨room', heq, hroom⟩ | ⟨e, -, hsound⟩
    · cases heq
      exact hroom
    · exact hsound
  · intro c execution err hc
    rcases h.calls c execution _ hc with ⟨room', heq, -⟩ | ⟨e, hexecution, hsound⟩
    · cases heq
    · exact ⟨e, hexecution, hsound⟩

/-- The first call's bootstrap fails; the second call comes after that and creates the room, and
the third shares its execution. -/
def createdAfterFailure : List (RegistryAction (Fin 3) Nat) :=
  [.load 0, .load 1, .enter 0, .lookup, .create, .bootstrapReturns (some 7), .finish, .enter 1,
    .load 2, .enter 2, .lookup, .create, .bootstrapReturns none, .store, .finish, .wake 2, .wake 0,
    .wake 1]

theorem room_created_once_after_failure :
    ∃ s, exec registryStep anyStep .initial createdAfterFailure = some s ∧
      s.calls 1 = .returned (some 1) (.ok 1) ∧ s.calls 2 = .returned (some 1) (.ok 1) ∧
      s.registered = some 1 ∧ s.calls 0 = .returned (some 0) (.error 7) ∧
      s.bootstraps 0 = .failed 7 :=
  exec_imp (P := fun s => s.calls 1 = .returned (some 1) (.ok 1) ∧
      s.calls 2 = .returned (some 1) (.ok 1) ∧ s.calls 0 = .returned (some 0) (.error 7))
    (by decide +kernel) fun s hrun ⟨hsecond, hthird, hfirst⟩ => by
      obtain ⟨-, -, hok, herror⟩ := room_created_once hrun
      obtain ⟨e, heq, hfailed⟩ := herror 0 _ 7 hfirst
      cases heq
      exact ⟨hsecond, hthird, hok 1 _ 1 hsecond, hfirst, hfailed⟩

end

end CollabEditor.Relay
