import CollabEditor.Relay.Flush
import CollabEditor.Support.Execution
/-!
# No update is lost while the flush loop runs

An appended update stays in the buffer or in the batch until a `Store` call has answered for it.
`storeWithRetry` returns nil when its last call failed, and `Flush` takes nil for success: these are
the rounds that `AnsweredRound` excludes.
-/

namespace CollabEditor.Relay

open Support.Execution List

/-- Some `Store` request held `u` and its response did not list `u` as failed. -/
def Acknowledged (s : FlushState) (u : BufferedUpdate) : Prop :=
  ∃ req ∈ s.requests, toPayload u ∈ req.1 ∧ ∃ resp ∈ req.2, u.sequence ∉ resp.failedSeqs
  deriving Decidable

/-- Every appended update is in the buffer, in the batch of the flush in
progress, or acknowledged. -/
def NoUpdateLost (s : FlushState) : Prop :=
  ∀ u ∈ s.appended, u ∈ s.buffer.updates ∨ u ∈ s.phase.batch ∨ Acknowledged s u
  deriving Decidable

/-- The condition on a step: a `Store` call that fails is not the last attempt,
and the context is not cancelled in the back-off after a failed call. -/
def AnsweredRound (maxRetries : Nat) (s : FlushState) (a : FlushAction) : Prop :=
  match s.phase, a with
  | .store _ _ attempt, .store none => attempt + 1 < maxRetries
  | .backoff _ _ _ none, .wake true => False
  | _, _ => True

instance (maxRetries : Nat) (s : FlushState) (a : FlushAction) :
    Decidable (AnsweredRound maxRetries s a) := by
  unfold AnsweredRound
  split <;> infer_instance

/-! ## What the actions do -/

inductive FlushMoves (maxRetries : Nat) (s : FlushState) : FlushAction → FlushState → Prop
  | append {data clientID now} :
      FlushMoves maxRetries s (.append data clientID now) { s with
        buffer := s.buffer.append data clientID now
        appended := s.appended ++ [s.buffer.next data clientID now] }
  | flushBuffer (h : s.phase = .idle) :
      FlushMoves maxRetries s .flushBuffer
        { s with phase := if s.buffer.len = 0 then .idle else .acquire }
  | lock {answer phase} (h : s.phase = .acquire)
      (hnext : phase = .drain ∨ phase = .result [] none) :
      FlushMoves maxRetries s (.lock answer) { s with phase }
  | drain (h : s.phase = .drain) :
      FlushMoves maxRetries s .drain { s with
        buffer := s.buffer.drain.2
        phase := if s.buffer.drain.1 = [] then .result [] none
          else .checkBreaker s.buffer.drain.1 }
  | allow {updates} (h : s.phase = .checkBreaker updates) :
      FlushMoves maxRetries s .allow { s with
        phase := if s.breaker.allow then loopHead maxRetries updates (toPayloads updates) 0
          else .result updates none }
  | store {updates payloads attempt resp} (h : s.phase = .store updates payloads attempt) :
      FlushMoves maxRetries s (.store resp) { s with
        breaker := if resp = none then s.breaker.recordFailure else s.breaker
        requests := s.requests ++ [(payloads, resp)]
        phase := afterStore maxRetries updates payloads attempt resp }
  | wake {updates payloads attempt resp cancelled}
      (h : s.phase = .backoff updates payloads attempt resp) :
      FlushMoves maxRetries s (.wake cancelled) { s with
        phase := if cancelled then .stored updates resp
          else loopHead maxRetries updates payloads (attempt + 1) }
  | settle {updates resp} (h : s.phase = .stored updates resp) :
      FlushMoves maxRetries s .settle { s with
        breaker := recordResult s.breaker resp, phase := flushResult updates resp }
  | prepend {requeue versionCreated} (h : s.phase = .result requeue versionCreated) :
      FlushMoves maxRetries s .prepend { s with
        buffer := if requeue = [] then s.buffer else s.buffer.prepend requeue
        phase := .idle }
  | health {healthy} :
      FlushMoves maxRetries s (.health healthy) { s with breaker := s.breaker.checkHealth healthy }
  | otherSuccess :
      FlushMoves maxRetries s .otherSuccess { s with breaker := s.breaker.recordSuccess }
  | otherFailure :
      FlushMoves maxRetries s .otherFailure { s with breaker := s.breaker.recordFailure }

lemma moves_of_flushStep {maxRetries : Nat} {s t : FlushState} {a : FlushAction}
    (h : flushStep maxRetries s a = some t) : FlushMoves maxRetries s a t := by
  cases a with
  | append | health | otherSuccess | otherFailure =>
    cases h
    constructor
  | lock answer =>
    simp only [flushStep] at h
    cases hphase : s.phase <;> rw [hphase] at h <;> simp only [roundStep, reduceCtorEq] at h
    cases answer <;> cases h <;> exact .lock hphase (by simp)
  | _ =>
    simp only [flushStep] at h
    cases hphase : s.phase <;> rw [hphase] at h <;> simp only [roundStep, reduceCtorEq] at h
    cases h
    constructor
    exact hphase

/-! ## The invariant of a round -/

/-- Each update of the batch is going to be sent again or has been answered for. -/
def Resent (ack : BufferedUpdate → Prop) (updates : List BufferedUpdate)
    (payloads : List UpdatePayload) : Prop :=
  ∀ u ∈ updates, toPayload u ∈ payloads ∨ ack u

/-- Each update of the batch is listed as failed or has been answered for. -/
def Listed (ack : BufferedUpdate → Prop) (updates : List BufferedUpdate)
    (resp : StoreResponse) : Prop :=
  ∀ u ∈ updates, u.sequence ∈ resp.failedSeqs ∨ ack u

def PhaseInv (maxRetries : Nat) (ack : BufferedUpdate → Prop) : Phase → Prop
  | .store updates payloads _ => Resent ack updates payloads
  | .backoff updates payloads attempt none =>
    attempt + 1 < maxRetries ∧ Resent ack updates payloads
  | .backoff updates payloads attempt (some resp) =>
    attempt + 1 < maxRetries ∧ Resent ack updates payloads ∧ Listed ack updates resp
  | .stored _ none => False
  | .stored updates (some resp) => Listed ack updates resp
  | _ => True

variable {ack ack' : BufferedUpdate → Prop} {payloads : List UpdatePayload}
  {updates : List BufferedUpdate} {maxRetries : Nat} {s t : FlushState}

lemma Resent.mono (hack : ∀ u, ack u → ack' u) (h : Resent ack updates payloads) :
    Resent ack' updates payloads :=
  fun u hu => (h u hu).imp id (hack u)

lemma Resent.retry (hack : ∀ u, ack u → ack' u) {resp : StoreResponse}
    (hresp : ∀ u, toPayload u ∈ payloads → u.sequence ∉ resp.failedSeqs → ack' u)
    (h : Resent ack updates payloads) :
    Resent ack' updates (retryPayloads resp payloads) ∧ Listed ack' updates resp := by
  have key : ∀ u ∈ updates,
      (toPayload u ∈ payloads ∧ u.sequence ∈ resp.failedSeqs) ∨ ack' u := by
    intro u hu
    rcases h u hu with hsent | hdone
    · by_cases hfailed : u.sequence ∈ resp.failedSeqs
      · exact .inl ⟨hsent, hfailed⟩
      · exact .inr (hresp u hsent hfailed)
    · exact .inr (hack u hdone)
  constructor
  · intro u hu
    refine (key u hu).imp (fun ⟨hsent, hfailed⟩ => ?_) id
    exact mem_filter.2 ⟨hsent, decide_eq_true hfailed⟩
  · intro u hu
    exact (key u hu).imp (fun hsent => hsent.2) id

lemma phaseInv_loopHead {attempt : Nat} (hlt : attempt < maxRetries)
    (h : Resent ack updates payloads) :
    PhaseInv maxRetries ack (loopHead maxRetries updates payloads attempt) := by
  rw [loopHead, if_pos hlt]
  exact h

lemma phaseInv_afterStore {attempt : Nat} {resp : Option StoreResponse}
    (hack : ∀ u, ack u → ack' u) (hresp : ∀ r, resp = some r → ∀ u, toPayload u ∈ payloads →
      u.sequence ∉ r.failedSeqs → ack' u) (hok : resp = none → attempt + 1 < maxRetries)
    (h : Resent ack updates payloads) :
    PhaseInv maxRetries ack' (afterStore maxRetries updates payloads attempt resp) := by
  cases resp with
  | none =>
    rw [afterStore, if_pos (hok rfl)]
    exact ⟨hok rfl, h.mono hack⟩
  | some r =>
    obtain ⟨hretry, hlisted⟩ := h.retry hack (hresp r rfl)
    rw [afterStore]
    split_ifs with hfailed hlast
    · exact hlisted
    · exact ⟨hlast, hretry, hlisted⟩
    · exact hlisted

structure FlushInv (maxRetries : Nat) (s : FlushState) : Prop where
  noLoss : NoUpdateLost s
  phase : PhaseInv maxRetries (Acknowledged s) s.phase

lemma flushInv_initial (maxRetries : Nat) (threshold : Int64) :
    FlushInv maxRetries (.initial threshold) where
  noLoss := by intro u hu; simp [FlushState.initial] at hu
  phase := trivial

/-- A step that leaves `appended`, `requests` and the updates outside the
provider's hands as they are keeps `NoUpdateLost`. -/
lemma NoUpdateLost.of_subset (h : NoUpdateLost s) (happended : t.appended = s.appended)
    (hrequests : t.requests = s.requests) (hheld : ∀ u, u ∈ s.buffer.updates ∨ u ∈ s.phase.batch →
      (u ∈ t.buffer.updates ∨ u ∈ t.phase.batch) ∨ Acknowledged s u) : NoUpdateLost t := by
  intro u hu
  have hack : Acknowledged s u → Acknowledged t u := by
    simp only [Acknowledged, hrequests]
    exact id
  rw [happended] at hu
  rcases h u hu with hbuf | hbatch | hdone
  · rcases hheld u (.inl hbuf) with (h | h) | h
    exacts [.inl h, .inr (.inl h), .inr (.inr (hack h))]
  · rcases hheld u (.inr hbatch) with (h | h) | h
    exacts [.inl h, .inr (.inl h), .inr (.inr (hack h))]
  · exact .inr (.inr (hack hdone))

lemma NoUpdateLost.moveOn (h : NoUpdateLost s) {breaker : CircuitBreaker} {phase : Phase}
    (hbatch : ∀ u ∈ s.phase.batch, u ∈ phase.batch ∨ Acknowledged s u) :
    NoUpdateLost { s with breaker, phase } := by
  refine h.of_subset rfl rfl ?_
  rintro u (hbuf | hu)
  · exact .inl (.inl hbuf)
  · exact (hbatch u hu).imp_left .inr

lemma batch_loopHead (maxRetries attempt : Nat) (updates : List BufferedUpdate)
    (payloads : List UpdatePayload) :
    (loopHead maxRetries updates payloads attempt).batch = updates := by
  rw [loopHead]
  split_ifs <;> rfl

lemma flushInv_append (h : FlushInv maxRetries s) (data : List UInt8) (clientID : UInt64)
    (now : Nat) :
    FlushInv maxRetries { s with
      buffer := s.buffer.append data clientID now
      appended := s.appended ++ [s.buffer.next data clientID now] } where
  noLoss := by
    intro u hu
    rcases mem_append.1 hu with hu | hu
    · rcases h.noLoss u hu with hbuf | hrest
      · exact .inl (mem_append_left _ hbuf)
      · exact .inr hrest
    · exact .inl (mem_append_right _ hu)
  phase := h.phase

lemma flushInv_drain (h : FlushInv maxRetries s) (hs : FlushMoves maxRetries s .drain t) :
    FlushInv maxRetries t := by
  cases hs
  rename_i hphase
  refine ⟨h.noLoss.of_subset rfl rfl ?_, ?_⟩
  · rintro u (hbuf | hbatch)
    · have hne : s.buffer.updates ≠ [] := ne_nil_of_mem hbuf
      refine .inl (.inr ?_)
      simp only [UpdateBuffer.drain_fst, if_neg hne]
      exact hbuf
    · rw [hphase] at hbatch
      cases hbatch
  · simp only
    split_ifs <;> exact trivial

lemma flushInv_allow (hretries : 1 ≤ maxRetries) (h : FlushInv maxRetries s)
    (hs : FlushMoves maxRetries s .allow t) : FlushInv maxRetries t := by
  cases hs
  rename_i updates hphase
  have hresent : Resent (Acknowledged s) updates (toPayloads updates) :=
    fun u hu => .inl (mem_map_of_mem hu)
  refine ⟨h.noLoss.moveOn fun u hu => .inl ?_, ?_⟩
  · rw [hphase] at hu
    split_ifs
    · rwa [batch_loopHead]
    · exact hu
  · simp only
    split_ifs
    · exact phaseInv_loopHead hretries hresent
    · exact trivial

section

variable (h : FlushInv maxRetries s)
include h

lemma flushInv_store {resp : Option StoreResponse}
    (hok : AnsweredRound maxRetries s (.store resp))
    (hs : FlushMoves maxRetries s (.store resp) t) : FlushInv maxRetries t := by
  cases hs
  rename_i updates payloads attempt hphase
  have hinv := h.phase
  rw [hphase] at hinv
  have hack : ∀ u, Acknowledged s u → Acknowledged { s with
      breaker := if resp = none then s.breaker.recordFailure else s.breaker
      requests := s.requests ++ [(payloads, resp)]
      phase := afterStore maxRetries updates payloads attempt resp } u := by
    rintro u ⟨req, hreq, hrest⟩
    exact ⟨req, mem_append_left _ hreq, hrest⟩
  have hlast : resp = none → attempt + 1 < maxRetries := by
    rintro rfl
    simpa [AnsweredRound, hphase] using hok
  refine ⟨?_, phaseInv_afterStore hack ?_ hlast hinv⟩
  · intro u hu
    rcases h.noLoss u hu with hbuf | hbatch | hdone
    · exact .inl hbuf
    · rw [hphase] at hbatch
      refine .inr (.inl ?_)
      -- whichever way the call ended, `updates` is still a local of the round
      cases resp with
      | none => simpa [afterStore, hlast rfl, Phase.batch] using hbatch
      | some r =>
        simp only [afterStore]
        split_ifs
        exacts [hbatch, hbatch, hbatch]
    · exact .inr (.inr (hack u hdone))
  · rintro r rfl u hsent hfailed
    exact ⟨(payloads, some r), mem_concat_self, hsent,
      r, rfl, hfailed⟩

lemma flushInv_wake {cancelled : Bool} (hok : AnsweredRound maxRetries s (.wake cancelled))
    (hs : FlushMoves maxRetries s (.wake cancelled) t) : FlushInv maxRetries t := by
  cases hs
  rename_i updates payloads attempt resp hphase
  have hinv := h.phase
  rw [hphase] at hinv
  refine ⟨h.noLoss.moveOn fun u hu => .inl ?_, ?_⟩
  · rw [hphase] at hu
    split_ifs
    · exact hu
    · rwa [batch_loopHead]
  · cases resp with
    | none =>
      cases cancelled with
      | true => simp [AnsweredRound, hphase] at hok
      | false => exact phaseInv_loopHead hinv.1 hinv.2
    | some r =>
      cases cancelled with
      | true => exact hinv.2.2
      | false => exact phaseInv_loopHead hinv.1 hinv.2.1

lemma flushInv_settle (hs : FlushMoves maxRetries s .settle t) : FlushInv maxRetries t := by
  cases hs
  rename_i updates resp hphase
  have hinv := h.phase
  rw [hphase] at hinv
  cases resp with
  | none => exact absurd hinv id
  | some r =>
    refine ⟨h.noLoss.moveOn fun u hu => ?_, ?_⟩
    · rw [hphase] at hu
      rcases hinv u hu with hfailed | hdone
      · have hne : r.failed ≠ [] := by
          intro hnil
          simp [StoreResponse.failedSeqs, hnil] at hfailed
        refine .inl ?_
        simp only [flushResult, if_neg hne, Phase.batch]
        exact mem_filter.2 ⟨hu, decide_eq_true hfailed⟩
      · exact .inr hdone
    · simp only [flushResult]
      split_ifs <;> exact trivial

lemma flushInv_prepend (hs : FlushMoves maxRetries s .prepend t) : FlushInv maxRetries t := by
  cases hs
  rename_i requeue versionCreated hphase
  refine ⟨h.noLoss.of_subset rfl rfl ?_, trivial⟩
  rintro u (hbuf | hbatch)
  · refine .inl (.inl ?_)
    simp only
    split_ifs
    · exact hbuf
    · exact mem_append_right _ hbuf
  · rw [hphase] at hbatch
    have hne : requeue ≠ [] := ne_nil_of_mem hbatch
    refine .inl (.inl ?_)
    simp only [if_neg hne]
    exact mem_append_left _ hbatch

end

lemma flushInv_step (hretries : 1 ≤ maxRetries) {a : FlushAction} (h : FlushInv maxRetries s)
    (hok : AnsweredRound maxRetries s a) (hs : flushStep maxRetries s a = some t) :
    FlushInv maxRetries t := by
  cases moves_of_flushStep hs with
  | append => exact flushInv_append h _ _ _
  | flushBuffer hphase =>
    refine ⟨h.noLoss.moveOn fun u hu => ?_, ?_⟩
    · rw [hphase] at hu
      cases hu
    · simp only
      split_ifs <;> exact trivial
  | lock hphase hnext =>
    have hnone : ∀ u ∈ s.phase.batch, False := by simp [hphase, Phase.batch]
    refine ⟨h.noLoss.moveOn fun u hu => (hnone u hu).elim, ?_⟩
    rcases hnext with rfl | rfl <;> exact trivial
  | drain hphase => exact flushInv_drain h (.drain hphase)
  | allow hphase => exact flushInv_allow hretries h (.allow hphase)
  | store hphase => exact flushInv_store h hok (.store hphase)
  | wake hphase => exact flushInv_wake h hok (.wake hphase)
  | settle hphase => exact flushInv_settle h (.settle hphase)
  | prepend hphase => exact flushInv_prepend h (.prepend hphase)
  | health | otherSuccess | otherFailure => exact { h with }

/-- No update is lost in any run, for any interleaving and any answers of the
lock, the breaker and the provider, as long as no round ends in a failed `Store`
call. -/
theorem no_update_lost_of_answered {maxRetries : Nat} {threshold : Int64}
    (hretries : 1 ≤ maxRetries) {s : FlushState}
    (hrun : Run (flushStep maxRetries) (AnsweredRound maxRetries) (.initial threshold) s) :
    NoUpdateLost s :=
  (hrun.invariant (flushInv_initial maxRetries threshold)
    (fun _ _ _ h hok hs => flushInv_step hretries h hok hs)).noLoss

def retriedRound : List FlushAction :=
  [.append [1] 0 0, .append [2] 0 0, .flushBuffer, .lock .acquired, .drain, .allow,
    .store none, .wake false, .store (some ⟨1, 0, [⟨1, "busy"⟩], none⟩), .append [3] 0 0,
    .wake false, .store (some ⟨1, 0, [], none⟩), .settle, .prepend]

theorem no_update_lost_retriedRound :
    1 ≤ 3 ∧ ∃ s, exec (flushStep 3) (AnsweredRound 3) (.initial 3) retriedRound = some s ∧
      NoUpdateLost s := by
  have hsome : (exec (flushStep 3) (AnsweredRound 3) (.initial 3) retriedRound).isSome := by
    decide +kernel
  obtain ⟨s, hs⟩ := Option.isSome_iff_exists.1 hsome
  exact ⟨by decide, s, hs, no_update_lost_of_answered (by decide) (run_of_exec hs)⟩

def unreachableRound : List FlushAction :=
  [.append [1] 0 0, .flushBuffer, .lock .acquired, .drain, .allow, .store none, .wake false,
    .store none, .wake false, .store none, .settle, .prepend]

/-- The round drops its batch: the update is neither buffered, nor in a batch,
nor stored. -/
theorem unreachable_provider_loses_update :
    ¬ ∀ (maxRetries : Nat) (threshold : Int64) (s : FlushState), 1 ≤ maxRetries →
      Run (flushStep maxRetries) anyStep (.initial threshold) s → NoUpdateLost s :=
  fun hevery => not_forall_run unreachableRound (by decide +kernel) fun s =>
    hevery 3 3 s (by decide)

end CollabEditor.Relay
