import Mathlib.Logic.Function.Basic
import CollabEditor.Support.Execution
/-!
# Stopping the supervisor during a restart

`Shutdown` of `internal/relay/yjsengine/supervisor.go` beside `watchAndRestart`, in steps of one
lock section or one wait each.  Processes and their engines are numbered in the order of their
start; a process may exit at any time.
-/

namespace CollabEditor.Relay.Shutdown

open Support.Execution Function Option

/-- `killed` is a process whose context has been cancelled and that has not exited yet. -/
inductive Process
  | notStarted
  | running
  | killed
  | exited
  deriving DecidableEq

/-- Where `watchAndRestart` is: about to read `s.exited`, waiting for the exit of a process, after
the exit, at the rate limiter, after its refusal, at the head of the retry loop, in the sleep, and
in `startOnce`: at the check of `stopped`, before `cmd.Start`, waiting for the ready line, dialling,
in the `cmd.Wait` of a failed attempt, and before the section that replaces the state. -/
inductive Watcher
  | reading
  | waiting (p : Nat)
  | woken
  | rateCheck
  | givingUp
  | retrying
  | sleeping
  | starting
  | spawning
  | readyWait (p : Nat)
  | dialing (p : Nat)
  | failed (p : Nat)
  | swapping (p : Nat)
  | finished
  deriving DecidableEq

namespace Watcher

def attempt : Watcher → Option Nat
  | readyWait p | dialing p | failed p | swapping p => some p
  | _ => none

/-- The watcher may still wait for the process that is installed. -/
def beforeExit : Watcher → Bool
  | reading | waiting _ => true
  | _ => false

/-- The watcher has seen the exit of a process and goes on to another one, or may give up. -/
def restarting : Watcher → Bool
  | reading | waiting _ | woken | finished => false
  | _ => true

end Watcher

/-- Where `Shutdown` is, with the process that it has copied and whether there was an engine. -/
inductive ShutdownCall
  | notCalled
  | flagged
  | copied (p : Nat) (engine : Bool)
  | engineDown (p : Nat)
  | cancelled
  | returned
  deriving DecidableEq

namespace ShutdownCall

def hasCopied : ShutdownCall → Bool
  | notCalled | flagged => false
  | _ => true

def target : ShutdownCall → Option Nat
  | copied p _ | engineDown p => some p
  | _ => none

def engineIsDown : ShutdownCall → Bool
  | engineDown _ | cancelled | returned => true
  | _ => false

end ShutdownCall

/-- `process` stands for `cmd`, `cancel` and `exited`, which are replaced together with `engine`;
`engine` says that this is not nil, and `connected p` that `conn` of the engine of `p` is set.
`swappedLate` records that a restart has replaced the state after `Shutdown` had copied it. -/
structure State where
  stopped : Bool
  process : Nat
  engine : Bool
  spawned : Nat
  processes : Nat → Process
  connected : Nat → Bool
  watcher : Watcher
  shutdown : ShutdownCall
  swappedLate : Bool

namespace State

def initial : State where
  stopped := false
  process := 0
  engine := true
  spawned := 1
  processes := fun p => if p = 0 then .running else .notStarted
  connected := fun p => p == 0
  watcher := .reading
  shutdown := .notCalled
  swappedLate := false

def goTo (s : State) (w : Watcher) : State := { s with watcher := w }

def setProcess (s : State) (p : Nat) (status : Process) : State :=
  { s with processes := update s.processes p status }

def kill (s : State) (p : Nat) : State :=
  s.setProcess p (if s.processes p = .running then .killed else s.processes p)

def disconnect (s : State) (p : Nat) (engine : Bool) : State :=
  { s with connected := update s.connected p (s.connected p && !engine) }

def spawn (s : State) : State :=
  { s.setProcess s.spawned .running with
    spawned := s.spawned + 1
    watcher := .readyWait s.spawned }

def connect (s : State) (p : Nat) : State :=
  { s with connected := update s.connected p true, watcher := .swapping p }

/-- The end of `startOnce`, which does not look at `stopped`. -/
def swap (s : State) (p : Nat) : State :=
  { s with
    process := p
    engine := true
    watcher := .reading
    swappedLate := s.swappedLate || s.shutdown.hasCopied }

def giveUp (s : State) : State :=
  { s.disconnect s.process s.engine with engine := false, watcher := .finished }

/-- The next step of `watchAndRestart`. `answer` is what the rate limiter says, or whether the
process is started, gets ready or can be dialled. -/
def watch (s : State) (answer : Bool) : Option State :=
  match s.watcher with
  | .reading => some (s.goTo (.waiting s.process))
  | .waiting p => if s.processes p = .exited then some (s.goTo .woken) else none
  | .woken => some (s.goTo (if s.stopped then .finished else .rateCheck))
  | .rateCheck => some (s.goTo (if answer then .retrying else .givingUp))
  | .givingUp => some s.giveUp
  | .retrying => some (s.goTo (if s.stopped then .finished else .sleeping))
  | .sleeping => some (s.goTo .starting)
  | .starting => some (s.goTo (if s.stopped then .retrying else .spawning))
  | .spawning => some (if answer then s.spawn else s.goTo .retrying)
  | .readyWait p => some (if answer then s.goTo (.dialing p) else (s.kill p).goTo (.failed p))
  | .dialing p => some (if answer then s.connect p else (s.kill p).goTo (.failed p))
  | .failed p => if s.processes p = .exited then some (s.goTo .retrying) else none
  | .swapping p => some (s.swap p)
  | .finished => none

/-- The next step of `Shutdown`. The last one is taken when the process has exited or the five
seconds are over. -/
def shut (s : State) : Option State :=
  match s.shutdown with
  | .notCalled => some { s with stopped := true, shutdown := .flagged }
  | .flagged => some { s with shutdown := .copied s.process s.engine }
  | .copied p engine => some { s.disconnect p engine with shutdown := .engineDown p }
  | .engineDown p => some { s.kill p with shutdown := .cancelled }
  | .cancelled => some { s with shutdown := .returned }
  | .returned => none

end State

inductive Action
  | watch (answer : Bool)
  | shut
  | exit (p : Nat)
  deriving DecidableEq

/-- A process ends by itself, or because it has been killed. -/
def step (s : State) : Action → Option State
  | .watch answer => s.watch answer
  | .shut => s.shut
  | .exit p =>
    if s.processes p = .running ∨ s.processes p = .killed then some (s.setProcess p .exited)
    else none

/-- No process runs that has not been killed, and no engine with a connection is installed. -/
structure LeavesNothing (s : State) : Prop where
  processes : ∀ p, s.processes p ≠ .running
  engine : s.engine = true → s.connected s.process = false

/-! ## The invariant -/

/-- A process that runs is installed or that of the attempt under way. The installed engine is the
one that `Shutdown` has copied, until a restart replaces the state behind it; after that the watcher
can only wait and return. -/
structure Inv (s : State) : Prop where
  installed : s.process < s.spawned
  attempt : ∀ p, s.watcher.attempt = some p → s.process < p ∧ p < s.spawned
  waiting : ∀ p, s.watcher = .waiting p → p = s.process
  running : ∀ p, s.processes p = .running → p = s.process ∨ s.watcher.attempt = some p
  exited : s.watcher.beforeExit = false → s.processes s.process = .exited
  swapping : ∀ p, s.watcher = .swapping p → s.connected p = true
  stopped : s.shutdown ≠ .notCalled → s.stopped = true
  notLate : s.shutdown.hasCopied = false → s.swappedLate = false
  target : ∀ p, s.shutdown.target = some p → p ≤ s.process ∧ (s.swappedLate = true ↔ p < s.process)
  copied : ∀ p engine, s.shutdown = .copied p engine → s.swappedLate = false →
    s.engine = true → engine = true
  down : s.shutdown.engineIsDown = true → s.swappedLate = false → s.engine = true →
    s.connected s.process = false
  late : s.swappedLate = true →
    s.engine = true ∧ s.connected s.process = true ∧ s.watcher.restarting = false

namespace Inv

variable {s t : State} {a : Action} {p : Nat} {w : Watcher}

lemma initial : Inv .initial where
  installed := Nat.zero_lt_one
  attempt := nofun
  waiting := nofun
  running p hp := by
    by_cases h : p = 0
    · exact .inl h
    · simp [State.initial, h] at hp
  exited := nofun
  swapping := nofun
  stopped h := absurd rfl h
  notLate _ := rfl
  target := nofun
  copied := nofun
  down := nofun
  late := nofun

section

variable (h : Inv s)
include h

lemma setProcess {status : Process} (hstatus : status ≠ .running)
    (hexited : s.processes p = .exited → status = .exited) : Inv (s.setProcess p status) := by
  refine { h with running := fun q hq => ?_, exited := fun hw => ?_ }
  · by_cases heq : q = p
    · subst heq
      exact absurd ((update_self ..).symm.trans hq) hstatus
    · exact h.running q ((update_of_ne heq ..).symm.trans hq)
  · have hold := h.exited hw
    by_cases heq : s.process = p
    · rw [heq] at hold
      simpa [State.setProcess, heq] using hexited hold
    · exact (update_of_ne heq ..).trans hold

lemma kill (p : Nat) : Inv (s.kill p) := by
  refine h.setProcess ?_ fun hexited => ?_
  · split
    · nofun
    · assumption
  · rw [hexited, if_neg nofun]

lemma goTo (hattempt : w.attempt = s.watcher.attempt)
    (hwaiting : ∀ p, w = .waiting p → p = s.process)
    (hexited : w.beforeExit = false → s.processes s.process = .exited)
    (hswapping : ∀ p, w ≠ .swapping p) (hlate : s.swappedLate = true → w.restarting = false) :
    Inv (s.goTo w) :=
  { h with
    attempt := fun p hp => h.attempt p (hattempt ▸ hp)
    waiting := hwaiting
    running := fun p hp => hattempt ▸ h.running p hp
    exited := hexited
    swapping := fun p hp => absurd hp (hswapping p)
    late := fun hs => ⟨(h.late hs).1, (h.late hs).2.1, hlate hs⟩ }

lemma not_late_of_restarting (hw : s.watcher.restarting = true) : ¬ s.swappedLate = true := by
  intro hlate
  rw [(h.late hlate).2.2] at hw
  cases hw

lemma exited_of_restarting (hw : s.watcher.restarting = true) :
    s.processes s.process = .exited := by
  apply h.exited
  cases hwatcher : s.watcher <;> rw [hwatcher] at hw <;> first | rfl | cases hw

lemma moveOn (hrestarting : s.watcher.restarting = true)
    (hattempt : w.attempt = s.watcher.attempt) (hwaiting : ∀ p, w ≠ .waiting p)
    (hswapping : ∀ p, w ≠ .swapping p) : Inv (s.goTo w) :=
  h.goTo hattempt (fun p hp => absurd hp (hwaiting p)) (fun _ => h.exited_of_restarting hrestarting)
    hswapping fun hlate => absurd hlate (h.not_late_of_restarting hrestarting)

lemma fail (hrestarting : s.watcher.restarting = true) (hattempt : s.watcher.attempt = some p) :
    Inv ((s.kill p).goTo (.failed p)) :=
  (h.kill p).moveOn hrestarting hattempt.symm nofun nofun

lemma retry (hw : s.watcher = .failed p) (hexit : s.processes p = .exited) :
    Inv (s.goTo .retrying) := by
  have hrestarting : s.watcher.restarting = true := by rw [hw]; rfl
  have hnot := h.not_late_of_restarting hrestarting
  refine { h with
    attempt := nofun, waiting := nofun, swapping := nofun, late := (absurd · hnot)
    exited := fun _ => h.exited_of_restarting hrestarting
    running := fun q hq => (h.running q hq).imp_right fun hattempt => ?_ }
  rw [hw] at hattempt
  obtain rfl : p = q := some.inj hattempt
  exact absurd (hexit.symm.trans hq) nofun

lemma spawn (hw : s.watcher = .spawning) : Inv s.spawn := by
  have hrestarting : s.watcher.restarting = true := by rw [hw]; rfl
  have hnot := h.not_late_of_restarting hrestarting
  have hlt := h.installed
  refine { h with
    installed := Nat.lt_succ_of_lt hlt, attempt := fun p hp => ?_, waiting := nofun
    running := fun p hp => ?_, exited := fun _ => ?_, swapping := nofun, late := (absurd · hnot) }
  · obtain rfl : s.spawned = p := some.inj hp
    exact ⟨hlt, Nat.lt_succ_self _⟩
  · by_cases heq : p = s.spawned
    · exact .inr (congrArg some heq.symm)
    · refine (h.running p ((update_of_ne heq ..).symm.trans hp)).imp_right fun hattempt => ?_
      rw [hw] at hattempt
      cases hattempt
  · exact (update_of_ne (Nat.ne_of_lt hlt) ..).trans (h.exited_of_restarting hrestarting)

lemma connect (hw : s.watcher = .dialing p) : Inv (s.connect p) := by
  have hrestarting : s.watcher.restarting = true := by rw [hw]; rfl
  have hnot := h.not_late_of_restarting hrestarting
  have hattempt : s.watcher.attempt = some p := by rw [hw]; rfl
  refine { h with
    attempt := fun q hq => h.attempt q (hattempt.trans hq), waiting := nofun
    running := fun q hq => (h.running q hq).imp_right hattempt.symm.trans
    exited := fun _ => h.exited_of_restarting hrestarting, swapping := fun q hq => ?_
    down := fun hdown hearly hengine => ?_, late := (absurd · hnot) }
  · obtain rfl : p = q := Watcher.swapping.inj hq
    exact update_self ..
  · -- The engine that is installed belongs to an earlier process.
    have hne : s.process ≠ p := Nat.ne_of_lt (h.attempt p hattempt).1
    exact (update_of_ne hne ..).trans (h.down hdown hearly hengine)

lemma swap (hw : s.watcher = .swapping p) : Inv (s.swap p) := by
  have hattempt := h.attempt p (by rw [hw]; rfl)
  -- What has been copied is of an earlier process, and then the swap is late.
  have hlate : s.shutdown.hasCopied = true → (s.swap p).swappedLate = true := by
    intro hcopied
    rw [State.swap, hcopied, Bool.or_true]
  refine { h with
    installed := hattempt.2, attempt := nofun, waiting := nofun, running := fun q hq => .inl ?_
    exited := nofun, swapping := nofun, notLate := fun hcopied => ?_, target := fun q hq => ?_
    copied := fun q engine hq hearly => ?_, down := fun hdown hearly => ?_
    late := fun _ => ⟨rfl, h.swapping p hw, rfl⟩ }
  · have hexit : s.processes s.process = .exited := h.exited (by rw [hw]; rfl)
    rcases h.running q hq with rfl | hq'
    · exact absurd (hexit.symm.trans hq) nofun
    · rw [hw] at hq'
      exact (some.inj hq').symm
  · have hcopied' : s.shutdown.hasCopied = false := hcopied
    rw [State.swap, hcopied', h.notLate hcopied', Bool.or_false]
  · have hlt : q < p := Nat.lt_of_le_of_lt (h.target q hq).1 hattempt.1
    refine ⟨Nat.le_of_lt hlt, iff_of_true (hlate ?_) hlt⟩
    have hq' : s.shutdown.target = some q := hq
    cases hphase : s.shutdown <;> rw [hphase] at hq' <;> first | rfl | cases hq'
  · have hq' : s.shutdown = .copied q engine := hq
    exact absurd ((hlate (by rw [hq']; rfl)).symm.trans hearly) nofun
  · have hdown' : s.shutdown.engineIsDown = true := hdown
    refine absurd ((hlate ?_).symm.trans hearly) nofun
    cases hphase : s.shutdown <;> rw [hphase] at hdown' <;> first | rfl | cases hdown'

lemma giveUp (hw : s.watcher = .givingUp) : Inv s.giveUp := by
  have hrestarting : s.watcher.restarting = true := by rw [hw]; rfl
  have hmoved : Inv (s.goTo .finished) := h.moveOn hrestarting (by rw [hw]; rfl) nofun nofun
  exact { hmoved with
    swapping := nofun, copied := nofun, down := nofun
    late := (absurd · (h.not_late_of_restarting hrestarting)) }

lemma watch {answer : Bool} (hstep : s.watch answer = some t) : Inv t := by
  unfold State.watch at hstep
  cases hw : s.watcher <;> simp only [hw] at hstep
  case reading =>
    cases hstep
    exact h.goTo (by rw [hw]; rfl) (fun p hp => (Watcher.waiting.inj hp).symm) nofun nofun
      fun _ => rfl
  case waiting p =>
    obtain ⟨hexit, ⟨⟩⟩ := ite_none_right_eq_some.1 hstep
    exact h.goTo (by rw [hw]; rfl) nofun (fun _ => h.waiting p hw ▸ hexit) nofun fun _ => rfl
  case woken =>
    cases hstep
    have hexit := h.exited (by rw [hw]; rfl)
    split
    · exact h.goTo (by rw [hw]; rfl) nofun (fun _ => hexit) nofun fun _ => rfl
    · rename_i hstopped
      -- A late swap needs a call of `Shutdown`, which has set the flag before.
      refine h.goTo (by rw [hw]; rfl) nofun (fun _ => hexit) nofun fun hlate =>
        absurd (h.stopped fun hphase => ?_) hstopped
      rw [h.notLate (by rw [hphase]; rfl)] at hlate
      cases hlate
  case rateCheck | retrying | starting =>
    cases hstep
    split <;> exact h.moveOn (by rw [hw]; rfl) (by rw [hw]; rfl) nofun nofun
  case givingUp =>
    cases hstep
    exact h.giveUp hw
  case sleeping =>
    cases hstep
    exact h.moveOn (by rw [hw]; rfl) (by rw [hw]; rfl) nofun nofun
  case spawning =>
    cases hstep
    split
    · exact h.spawn hw
    · exact h.moveOn (by rw [hw]; rfl) (by rw [hw]; rfl) nofun nofun
  case readyWait p =>
    cases hstep
    split
    · exact h.moveOn (by rw [hw]; rfl) (by rw [hw]; rfl) nofun nofun
    · exact h.fail (by rw [hw]; rfl) (by rw [hw]; rfl)
  case dialing p =>
    cases hstep
    split
    · exact h.connect hw
    · exact h.fail (by rw [hw]; rfl) (by rw [hw]; rfl)
  case failed p =>
    obtain ⟨hexit, ⟨⟩⟩ := ite_none_right_eq_some.1 hstep
    exact h.retry hw hexit
  case swapping p =>
    cases hstep
    exact h.swap hw
  case finished => cases hstep

lemma copy (hphase : s.shutdown = .flagged) :
    Inv { s with shutdown := .copied s.process s.engine } := by
  have hearly := h.notLate (by rw [hphase]; rfl)
  refine { h with
    stopped := fun _ => h.stopped (by rw [hphase]; nofun), notLate := nofun
    target := fun p hp => ?_, copied := fun p engine hp _ hengine => ?_, down := nofun }
  · obtain rfl : s.process = p := some.inj hp
    exact ⟨Nat.le_refl _, iff_of_false (by rw [hearly]; nofun) (Nat.lt_irrefl _)⟩
  · exact (ShutdownCall.copied.inj hp).2.symm.trans hengine

lemma engineShutdown {engine : Bool} (hphase : s.shutdown = .copied p engine) :
    Inv { s.disconnect p engine with shutdown := .engineDown p } := by
  obtain ⟨hle, hlate⟩ := h.target p (by rw [hphase]; rfl)
  have hkeep : ∀ q, p < q → (s.disconnect p engine).connected q = s.connected q :=
    fun q hq => update_of_ne (Nat.ne_of_gt hq) ..
  refine { h with
    stopped := fun _ => h.stopped (by rw [hphase]; nofun), swapping := fun q hq => ?_
    notLate := nofun, target := fun q hq => ?_, copied := nofun
    down := fun _ hearly hengine => ?_, late := fun hs => ?_ }
  · have hq' : s.watcher = .swapping q := hq
    have hlt := (h.attempt q (by rw [hq']; rfl)).1
    exact (hkeep q (Nat.lt_of_le_of_lt hle hlt)).trans (h.swapping q hq)
  · obtain rfl : p = q := some.inj hq
    exact ⟨hle, hlate⟩
  · -- No restart has come in between, so the engine is the one that is installed.
    have hnot : ¬ p < s.process := fun hlt => absurd ((hlate.2 hlt).symm.trans hearly) nofun
    obtain rfl : p = s.process := Nat.le_antisymm hle (Nat.le_of_not_lt hnot)
    simp [State.disconnect, h.copied _ engine hphase hearly hengine]
  · obtain ⟨hengine, hconnected, hrest⟩ := h.late hs
    exact ⟨hengine, (hkeep _ (hlate.1 hs)).trans hconnected, hrest⟩

lemma shut (hstep : s.shut = some t) : Inv t := by
  unfold State.shut at hstep
  cases hphase : s.shutdown <;> simp only [hphase] at hstep <;> cases hstep
  case notCalled =>
    exact { h with
      stopped := fun _ => rfl, notLate := fun _ => h.notLate (by rw [hphase]; rfl)
      target := nofun, copied := nofun, down := nofun }
  case flagged => exact h.copy hphase
  case copied p engine => exact h.engineShutdown hphase
  case engineDown p =>
    exact { h.kill p with
      stopped := fun _ => h.stopped (by rw [hphase]; nofun), notLate := nofun, target := nofun
      copied := nofun, down := fun _ => h.down (by rw [hphase]; rfl) }
  case cancelled =>
    exact { h with
      stopped := fun _ => h.stopped (by rw [hphase]; nofun), notLate := nofun, target := nofun
      copied := nofun, down := fun _ => h.down (by rw [hphase]; rfl) }

lemma step (hstep : step s a = some t) : Inv t := by
  cases a with
  | watch answer => exact h.watch hstep
  | shut => exact h.shut hstep
  | exit p =>
    obtain ⟨-, ⟨⟩⟩ := ite_none_right_eq_some.1 hstep
    exact h.setProcess nofun fun _ => rfl

end

lemma of_run (hrun : Run Shutdown.step anyStep .initial s) : Inv s :=
  hrun.invariant (P := Inv) .initial fun _ _ _ h _ hs => h.step hs

lemma not_running (h : Inv s) (hw : s.watcher = .finished) (p : Nat) :
    s.processes p ≠ .running := by
  intro hp
  rcases h.running p hp with rfl | hattempt
  · exact absurd ((h.exited (by rw [hw]; rfl)).symm.trans hp) nofun
  · rw [hw] at hattempt
    cases hattempt

lemma late_step (h : Inv s) (hlate : s.swappedLate = true) (hstep : Shutdown.step s a = some t)
    (ha : a ≠ .exit s.process) : t.swappedLate = true ∧ t.process = s.process ∧
      t.processes s.process = s.processes s.process := by
  cases a with
  | watch answer =>
    have hrest := (h.late hlate).2.2
    simp only [Shutdown.step, State.watch] at hstep
    split at hstep <;> rename_i hw <;> rw [hw] at hrest <;>
      simp only [Watcher.restarting, reduceCtorEq] at hrest
    · cases hstep
      exact ⟨hlate, rfl, rfl⟩
    · obtain ⟨-, ⟨⟩⟩ := ite_none_right_eq_some.1 hstep
      exact ⟨hlate, rfl, rfl⟩
    · cases hstep
      exact ⟨hlate, rfl, rfl⟩
    · cases hstep
  | shut =>
    simp only [Shutdown.step, State.shut] at hstep
    split at hstep <;> cases hstep <;> refine ⟨hlate, rfl, ?_⟩ <;> try rfl
    -- The process that is cancelled was copied before the swap.
    rename_i p hphase
    have hlt := (h.target p (by rw [hphase]; rfl)).2.1 hlate
    exact update_of_ne (Nat.ne_of_gt hlt) ..
  | exit p =>
    obtain ⟨-, ⟨⟩⟩ := ite_none_right_eq_some.1 hstep
    exact ⟨hlate, rfl, update_of_ne (fun heq => ha (congrArg Action.exit heq.symm)) ..⟩

end Inv

/-- A process that a restart has installed behind `Shutdown` is killed by nobody: whatever the
watcher and `Shutdown` still do, it ends when it exits by itself and not before. -/
theorem late_process_never_killed {s t : State} (hrun : Run step anyStep .initial s)
    (hlate : s.swappedLate = true) (hlater : Run step (fun _ a => a ≠ .exit s.process) s t) :
    t.processes s.process = s.processes s.process := by
  refine (hlater.invariant (P := fun u => Inv u ∧ u.swappedLate = true ∧ u.process = s.process ∧
    u.processes s.process = s.processes s.process) ⟨.of_run hrun, hlate, rfl, rfl⟩ ?_).2.2.2
  rintro u v a ⟨h, hlate, hprocess, hstatus⟩ ha hstep
  obtain ⟨hlate', hprocess', hstatus'⟩ := h.late_step hlate hstep (by rwa [hprocess])
  rw [hprocess] at hprocess' hstatus'
  exact ⟨h.step hstep, hlate', hprocess', hstatus'.trans hstatus⟩

/-- Once `Shutdown` has returned and the watcher is done, nothing is left of the sidecar exactly if
no restart has replaced the state after `Shutdown` had copied it. -/
theorem leavesNothing_iff_not_swappedLate {s : State} (hrun : Run step anyStep .initial s)
    (hreturned : s.shutdown = .returned) (hfinished : s.watcher = .finished) :
    LeavesNothing s ↔ s.swappedLate = false := by
  have h := Inv.of_run hrun
  constructor
  · intro hnothing
    cases hlate : s.swappedLate with
    | false => rfl
    | true =>
      obtain ⟨hengine, hconnected, -⟩ := h.late hlate
      exact absurd (hconnected.symm.trans (hnothing.engine hengine)) nofun
  · intro hearly
    exact ⟨h.not_running hfinished, h.down (by rw [hreturned]; rfl) hearly⟩

def crashAndDial : List Action :=
  [.watch true, .exit 0, .watch true, .watch true, .watch true, .watch true, .watch true,
    .watch true, .watch true, .watch true, .watch true]

def exitAndFinish : List Action := [.watch true, .exit 1, .watch true, .watch true]

/-- `Shutdown` sets the flag, the state is replaced, and then `Shutdown` copies it. -/
theorem leavesNothing_of_swap_after_flag : ∃ s ∈ exec step anyStep .initial
        (crashAndDial ++ [.shut, .watch true, .shut, .shut, .shut, .shut] ++ exitAndFinish),
      s.stopped = true ∧ s.processes 1 = .exited ∧ LeavesNothing s :=
  exec_imp (P := fun s => s.shutdown = .returned ∧ s.watcher = .finished ∧ s.swappedLate = false ∧
      s.stopped = true ∧ s.processes 1 = .exited) (by decide +kernel)
    fun _ hrun ⟨hreturned, hfinished, hearly, hstopped, hexited⟩ => ⟨hstopped, hexited,
      (leavesNothing_iff_not_swappedLate hrun hreturned hfinished).2 hearly⟩

/-- `Shutdown` copies the state of the crashed process, and then the state is replaced. `Shutdown`
returns while the new process runs, and when that has exited its engine still has a connection. -/
theorem engine_left_by_late_swap :
    ¬ ∀ s : State, Run step anyStep .initial s → s.shutdown = .returned →
      s.watcher = .finished → LeavesNothing s := by
  intro hevery
  have hrun : ∃ s ∈ exec step anyStep .initial
        (crashAndDial ++ [.shut, .shut, .watch true, .shut, .shut, .shut] ++ exitAndFinish),
      s.shutdown = .returned ∧ s.watcher = .finished ∧ s.engine = true ∧
        s.connected s.process = true := by decide +kernel
  obtain ⟨s, hs, hreturned, hfinished, hengine, hconnected⟩ := hrun
  have hdown := (hevery s (run_of_exec hs) hreturned hfinished).engine hengine
  exact absurd (hconnected.symm.trans hdown) nofun

theorem late_process_outlives_shutdown : ∃ s t : State, s.swappedLate = true ∧
    s.processes 1 = .running ∧ t.shutdown = .returned ∧ t.processes 1 = s.processes 1 := by
  have hlate : ∃ s ∈ exec step anyStep .initial (crashAndDial ++ [.shut, .shut, .watch true]),
      (s.swappedLate = true ∧ s.processes 1 = .running ∧ s.process = 1) ∧
        ∃ t ∈ exec step (fun _ a => a ≠ .exit s.process) s [.shut, .shut, .shut],
          t.shutdown = .returned := by decide +kernel
  obtain ⟨s, hs, ⟨hlate, hrunning, hprocess⟩, t, ht, hreturned⟩ := hlate
  exact ⟨s, t, hlate, hrunning, hreturned,
    hprocess ▸ late_process_never_killed (run_of_exec hs) hlate (run_of_exec ht)⟩

end CollabEditor.Relay.Shutdown
