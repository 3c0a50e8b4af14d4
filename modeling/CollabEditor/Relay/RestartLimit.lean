import CollabEditor.Relay.Supervisor
/-!
# The limit on restarts of the sidecar

`recordRestart` of `internal/relay/yjsengine/supervisor.go`, with times in nanoseconds.  A call
reads the clock twice: for the cutoff, and for the new entry.  The list is trimmed in place.
-/

namespace CollabEditor.Relay.RestartLimit

open Support.Execution List

/-- `time.Minute`. -/
def minute : Int := 60000000000

/-- The loop over `restartTimes`: `todo` entries from `i` on are still to be read, and the first
`kept` ones are what `kept` holds. -/
def trimLoop (cutoff : Int) : (todo i kept : Nat) → (array : List Int) → List Int
  | 0, _, kept, array => array.take kept
  | todo + 1, i, kept, array =>
    let t := array.getD i 0
    if cutoff < t then trimLoop cutoff todo (i + 1) (kept + 1) (array.set kept t)
    else trimLoop cutoff todo (i + 1) kept array

def trim (cutoff : Int) (restartTimes : List Int) : List Int :=
  trimLoop cutoff restartTimes.length 0 0 restartTimes

/-- What the clock shows when the cutoff is taken and when the restart is recorded. -/
structure Readings where
  start : Int
  recorded : Int

/-- The list after the call, and whether the restart is granted. -/
def recordRestart (maxRestartsPerMinute : Int) (restartTimes : List Int) (now : Readings) :
    List Int × Bool :=
  if maxRestartsPerMinute ≤ 0 then (restartTimes, true)
  else
    let kept := trim (now.start - minute) restartTimes
    if maxRestartsPerMinute ≤ kept.length then (kept, false) else (kept ++ [now.recorded], true)

/-- The limiter with the last reading of the clock and the calls that were granted. -/
structure Limiter where
  restartTimes : List Int
  clock : Int
  granted : List Readings

def Limiter.initial (clock : Int) : Limiter := ⟨[], clock, []⟩

/-- A call under a clock that does not go back. A call that is refused reads it only once. -/
def limiterStep (limit : Int) (s : Limiter) (now : Readings) : Option Limiter :=
  if s.clock ≤ now.start ∧ now.start ≤ now.recorded then
    some (match recordRestart limit s.restartTimes now with
      | (kept, true) => ⟨kept, now.recorded, s.granted ++ [now]⟩
      | (kept, false) => ⟨kept, now.start, s.granted⟩)
  else none

/-! ## The trimmed list -/

lemma trimLoop_eq (cutoff : Int) {todo i kept : Nat} {array : List Int} (hkept : kept ≤ i)
    (htodo : i + todo = array.length) : trimLoop cutoff todo i kept array =
      array.take kept ++ (array.drop i).filter (cutoff < ·) := by
  induction todo generalizing i kept array with
  | zero => rw [trimLoop, drop_of_length_le (by omega), filter_nil, append_nil]
  | succ todo ih =>
    have hi : i < array.length := by omega
    have hget : array.getD i 0 = array[i] := by simp [hi]
    rw [trimLoop, hget, drop_eq_getElem_cons hi]
    by_cases ht : cutoff < array[i]
    · -- the entry goes to a place that has been read
      have htake : (array.set kept array[i]).take (kept + 1) = array.take kept ++ [array[i]] := by
        rw [take_add_one, take_set_of_le (Nat.le_refl _), getElem?_set_self (by omega)]
        rfl
      rw [if_pos ht, ih (by omega) (by rw [length_set]; omega), htake, drop_set_of_lt (by omega),
        filter_cons_of_pos (by simpa using ht), append_assoc, singleton_append]
    · rw [if_neg ht, ih (by omega) (by omega), filter_cons_of_neg (by simpa using ht)]

lemma trim_eq_filter (cutoff : Int) (restartTimes : List Int) :
    trim cutoff restartTimes = restartTimes.filter (cutoff < ·) := by
  simpa [trim] using trimLoop_eq cutoff (Nat.le_refl 0) (Nat.zero_add restartTimes.length)

/-- Milliseconds as nanoseconds. -/
def nanoseconds (t : Nat) : Int := t * 1000000

/-- The supervisor's model of the limiter is this one with a clock that shows the same time at
both readings. -/
theorem recordRestart_of_one_reading (maxPerMinute : Nat) (restartTimes : List Nat) (now : Nat) :
    (Relay.recordRestart maxPerMinute restartTimes now).map (map nanoseconds) =
      match recordRestart maxPerMinute (restartTimes.map nanoseconds)
          ⟨nanoseconds now, nanoseconds now⟩ with
      | (kept, true) => some kept
      | (_, false) => none := by
  have hkept : trim (nanoseconds now - minute) (restartTimes.map nanoseconds) =
      (restartTimes.filter fun t => now < t + 60000).map nanoseconds := by
    rw [trim_eq_filter, filter_map]
    congr 1
    refine filter_congr fun t _ => ?_
    rw [Function.comp_apply, decide_eq_decide, nanoseconds, nanoseconds, minute]
    omega
  simp only [Relay.recordRestart, recordRestart, hkept, length_map, Int.ofNat_le]
  by_cases hmax : maxPerMinute = 0
  · simp [hmax]
  · rw [if_neg hmax, if_neg (by omega : ¬ (maxPerMinute : Int) ≤ 0)]
    split_ifs
    · rfl
    · simp

/-! ## The window -/

/-- Until the cutoff passes them, all that were granted are in the list; and in no window that is
shorter than a minute there are more than the limit. -/
structure LimiterInv (limit : Int) (s : Limiter) : Prop where
  readings : ∀ g ∈ s.granted, g.start ≤ g.recorded ∧ g.recorded ≤ s.clock
  listed : ∀ now, s.clock ≤ now → s.restartTimes.filter (now - minute < ·) =
    (s.granted.map Readings.recorded).filter (now - minute < ·)
  window : ∀ (time : Readings → Int) (p : Int → Bool),
    (∀ g ∈ s.granted, g.start ≤ time g ∧ time g ≤ g.recorded) →
    (∀ x y, p x → p y → x < y + minute) → (s.granted.countP (p ∘ time) : Int) ≤ limit

namespace LimiterInv

variable {limit : Int} {s t : Limiter} {now : Readings}

lemma initial (hlimit : 1 ≤ limit) (clock : Int) : LimiterInv limit (.initial clock) where
  readings := nofun
  listed _ _ := rfl
  window _ _ _ _ := by
    simp only [Limiter.initial, countP_nil]
    omega

section

variable (h : LimiterInv limit s)
include h

lemma length_trim (hclock : s.clock ≤ now.start) :
    (trim (now.start - minute) s.restartTimes).length =
      s.granted.countP fun g => now.start - minute < g.recorded := by
  rw [trim_eq_filter, h.listed _ hclock, ← countP_eq_length_filter, countP_map]
  rfl

lemma filter_trim (hclock : s.clock ≤ now.start) {later : Int} (hlater : now.start ≤ later) :
    (trim (now.start - minute) s.restartTimes).filter (later - minute < ·) =
      (s.granted.map Readings.recorded).filter (later - minute < ·) := by
  rw [trim_eq_filter, filter_filter, ← h.listed later (by omega)]
  refine filter_congr fun x _ => ?_
  rw [Bool.and_eq_left_iff_imp]
  simp only [decide_eq_true_eq]
  omega

lemma refused (hclock : s.clock ≤ now.start) :
    LimiterInv limit ⟨trim (now.start - minute) s.restartTimes, now.start, s.granted⟩ where
  readings g hg := ⟨(h.readings g hg).1, Int.le_trans (h.readings g hg).2 hclock⟩
  listed _ hlater := h.filter_trim hclock hlater
  window := h.window

lemma granted (hclock : s.clock ≤ now.start) (hnow : now.start ≤ now.recorded)
    (hroom : (trim (now.start - minute) s.restartTimes).length < limit) :
    LimiterInv limit ⟨trim (now.start - minute) s.restartTimes ++ [now.recorded], now.recorded,
      s.granted ++ [now]⟩ where
  readings := by
    intro g hg
    rcases mem_snoc.1 hg with hold | rfl
    · have hclocks := h.readings g hold
      exact ⟨hclocks.1, Int.le_trans hclocks.2 (Int.le_trans hclock hnow)⟩
    · exact ⟨hnow, Int.le_refl _⟩
  listed later hlater := by
    have hstart : now.start ≤ later := Int.le_trans hnow hlater
    rw [filter_append, h.filter_trim hclock hstart, map_append, filter_append]
    rfl
  window time p htime hp := by
    have hold := h.window time p (fun g hg => htime g (mem_append_left _ hg)) hp
    rw [countP_append, countP_singleton]
    by_cases hin : (p ∘ time) now
    · -- all others of the window are after the cutoff of this call
      have hmono : s.granted.countP (p ∘ time) ≤
          s.granted.countP fun g => now.start - minute < g.recorded := by
        refine countP_mono_left fun g hg hg' => decide_eq_true ?_
        have hwin := hp _ _ hin hg'
        have hnew := htime now (by simp)
        have hother := htime g (mem_append_left _ hg)
        omega
      rw [← h.length_trim hclock] at hmono
      rw [if_pos hin]
      omega
    · rw [if_neg hin]
      exact_mod_cast hold

end

lemma step (hlimit : 1 ≤ limit) (h : LimiterInv limit s)
    (hs : limiterStep limit s now = some t) : LimiterInv limit t := by
  obtain ⟨⟨hclock, hnow⟩, ⟨⟩⟩ := Option.ite_none_right_eq_some.1 hs
  rw [recordRestart, if_neg (by omega)]
  dsimp only
  split_ifs with hfull
  · exact h.refused hclock
  · exact h.granted hclock hnow (by omega)

end LimiterInv

/-- Whatever time between its two readings a restart is given, a window of one minute has at most
the limit of them. At a call that is refused, the minute up to its first reading has exactly the
limit. -/
theorem restart_limiter_sliding_window (limit : Int) (hlimit : 1 ≤ limit) (clock : Int)
    {s : Limiter} (hrun : Run (limiterStep limit) anyStep (.initial clock) s) :
    (∀ time : Readings → Int, (∀ g ∈ s.granted, g.start ≤ time g ∧ time g ≤ g.recorded) → ∀ w,
      (s.granted.countP fun g => w ≤ time g ∧ time g < w + minute : Int) ≤ limit ∧
      (s.granted.countP fun g => w < time g ∧ time g ≤ w + minute : Int) ≤ limit) ∧
    ∀ now : Readings, s.clock ≤ now.start → (recordRestart limit s.restartTimes now).2 = false →
      (s.granted.countP fun g => now.start - minute < g.recorded ∧ g.recorded ≤ now.start : Int) =
        limit := by
  have h : LimiterInv limit s :=
    hrun.invariant (.initial hlimit clock) fun _ _ _ h _ hs => h.step hlimit hs
  have hwindow {time : Readings → Int}
      (htime : ∀ g ∈ s.granted, g.start ≤ time g ∧ time g ≤ g.recorded) (w : Int) :
      (s.granted.countP fun g => w ≤ time g ∧ time g < w + minute : Int) ≤ limit ∧
      (s.granted.countP fun g => w < time g ∧ time g ≤ w + minute : Int) ≤ limit := by
    constructor
    · refine h.window time (fun x => w ≤ x ∧ x < w + minute) htime fun x y hx hy => ?_
      simp only [decide_eq_true_eq] at hx hy
      omega
    · refine h.window time (fun x => w < x ∧ x ≤ w + minute) htime fun x y hx hy => ?_
      simp only [decide_eq_true_eq] at hx hy
      omega
  refine ⟨fun time htime => hwindow htime, fun now hclock hrefused => ?_⟩
  have hmost := (hwindow (fun g hg => ⟨(h.readings g hg).1, Int.le_refl _⟩)
    (now.start - minute)).2
  have hleast : limit ≤ (trim (now.start - minute) s.restartTimes).length := by
    rw [recordRestart, if_neg (by omega)] at hrefused
    by_contra hroom
    rw [if_neg hroom] at hrefused
    cases hrefused
  have hsame : (s.granted.countP fun g => now.start - minute < g.recorded) =
      s.granted.countP fun g => now.start - minute < g.recorded ∧ g.recorded ≤ now.start := by
    refine countP_congr fun g hg => ?_
    have := (h.readings g hg).2
    simp only [decide_eq_true_eq]
    omega
  rw [h.length_trim hclock, hsame] at hleast
  rw [Int.sub_add_cancel] at hmost
  exact Int.le_antisymm hmost hleast

/-- Two restarts in a minute with the limit two, a third that is refused, and one after the first
has left the window. -/
theorem restart_refused_in_full_minute :
    ∃ s, Run (limiterStep 2) anyStep (.initial 0) s ∧ s.granted.length = 3 ∧
      (recordRestart 2 s.restartTimes ⟨minute + 20, minute + 21⟩).2 = false ∧
      (s.granted.countP fun g =>
        minute + 20 - minute < g.recorded ∧ g.recorded ≤ minute + 20 : Int) = 2 := by
  have hrun : ∃ s, Run (limiterStep 2) anyStep (.initial 0) s ∧ s.granted.length = 3 ∧
      s.clock ≤ minute + 20 ∧
      (recordRestart 2 s.restartTimes ⟨minute + 20, minute + 21⟩).2 = false :=
    exists_run [⟨5, 6⟩, ⟨40, 41⟩, ⟨50, 51⟩, ⟨minute + 6, minute + 8⟩] (by decide +kernel)
  obtain ⟨s, hs, hlen, hclock, hrefused⟩ := hrun
  have h := (restart_limiter_sliding_window 2 (by decide) 0 hs).2 _ hclock hrefused
  exact ⟨s, hs, hlen, hrefused, h⟩

end CollabEditor.Relay.RestartLimit
