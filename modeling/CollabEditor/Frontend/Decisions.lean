import CollabEditor.Support.Register
import CollabEditor.Frontend.AcceptSuggestion
import CollabEditor.StorageDemo.CommentStore
/-!
# Deciding a suggestion

Reviewers decide a suggestion as long as their client's copy of the thread says pending.  Changes of
the text, changes of the thread and requests travel independently.
-/

namespace CollabEditor.Frontend

open Support Execution Register SharedText List Option
open CollabEditor.StorageDemo (CommentStore)

variable {P Q K : Type} [LinearOrder P] [LinearOrder Q] [DecidableEq K]

/-- `insertions` are those of the `updates` with which the after-text was put into the text. -/
structure Review (Q K : Type) where
  docs : Nat → Doc K
  thread : Shared Q (StoredThread K)
  updates : List (Update K)
  insertions : List (Update K)
  requests : List (SuggestionStatus × Option Nat)
  store : CommentStore K

inductive DecisionEvent (Q K : Type)
  | accept (client : Nat) (caller : Caller) (stamp : Q) (u : Update K)
  | decide (client : Nat) (caller : Caller) (stamp : Q) (decision : SuggestionStatus)
  | deliverUpdate (client : Nat) (u : Update K)
  | deliverThread (client : Nat) (w : Write Q (StoredThread K))
  | post (client : Nat)
  | serve (request : SuggestionStatus × Option Nat) (now : Nat)

def StoredThread.suggestionStatus (t : StoredThread K) : Option SuggestionStatus :=
  t.suggestion.map (·.status)

def storedStatus (store : CommentStore K) : Option SuggestionStatus :=
  (store 0).bind fun t => t.suggestion.map (·.status)

namespace Review

def clientStatus (s : Review Q K) (client : Nat) : Option SuggestionStatus :=
  (s.thread.value client).bind (·.suggestionStatus)

def storeStatus (s : Review Q K) : Option SuggestionStatus := storedStatus s.store

end Review

/-- `decide` is a click on reject or on dismiss, which record nothing else. -/
def decisionStep (order : DocOrder K P) (s : Review Q K) : DecisionEvent Q K → Option (Review Q K)
  | .accept client caller stamp u =>
    (s.thread.value client).bind fun t =>
    (handleSuggestionAccept order caller (s.docs client) t).bind fun o =>
      if t.suggestionStatus = some .pending ∧ s.thread.Follows client stamp then
        let decided := { s with thread := s.thread.write client ⟨stamp, o.thread⟩ }
        if o.replaced.isNone then some decided
        else if Writes order (s.docs client) o.text
            ((t.suggestion.map (·.view.afterText)).getD []) u then
          some { decided with
            docs := Function.update s.docs client ((s.docs client).apply u)
            updates := s.updates ++ [u]
            insertions := s.insertions ++ [u] }
        else none
      else none
  | .decide client caller stamp decision =>
    (s.thread.value client).bind fun t =>
      (t.suggestion.map (t.decided caller decision)).bind fun t' =>
      if t.suggestionStatus = some .pending ∧ s.thread.Follows client stamp ∧
          (decision = .rejected ∨ decision = .notApplicable) then
        some { s with thread := s.thread.write client ⟨stamp, t'⟩ }
      else none
  | .deliverUpdate client u =>
    if u ∈ s.updates then
      some { s with docs := Function.update s.docs client ((s.docs client).apply u) }
    else none
  | .deliverThread client w =>
    if w ∈ s.thread.written then some { s with thread := s.thread.receive client w } else none
  | .post client =>
    (s.thread.value client).bind fun t => t.suggestion.bind fun suggestion =>
      if suggestion.status = .pending then none
      else some { s with
        requests := s.requests ++ [(suggestion.status, suggestion.decidedBy)] }
  | .serve request now =>
    if request ∈ s.requests then
      some { s with
        requests := s.requests.erase request
        store := (s.store.decideSuggestion now 0 request.1 request.2).toOption.getD s.store }
    else none

/-- A reviewer decides on a client that has received every decision made so far. -/
def DecidedUpToDate (s : Review Q K) : DecisionEvent Q K → Prop
  | .accept client .. | .decide client .. => s.thread.UpToDate client
  | .deliverUpdate .. | .deliverThread .. | .post _ | .serve .. => True

instance (s : Review Q K) (a : DecisionEvent Q K) : Decidable (DecidedUpToDate s a) := by
  rcases a with ⟨⟩ <;> dsimp only [DecidedUpToDate] <;> infer_instance

/-! ## Before and after the decision -/

structure Undecided (w₀ : Write Q (StoredThread K)) (s : Review Q K) : Prop where
  thread : s.thread.Inv
  written : s.thread.written = [w₀]
  insertions : s.insertions = []
  requests : s.requests = []
  store : ∀ status, s.storeStatus = some status → status = .pending

structure Decided (w₀ w : Write Q (StoredThread K)) (decision : SuggestionStatus) (s : Review Q K) :
    Prop where
  thread : s.thread.Inv
  written : s.thread.written = [w₀, w]
  above : w₀.stamp < w.stamp
  status : w.value.suggestionStatus = some decision
  final : decision ≠ .pending
  insertions : s.insertions.length ≤ 1
  requests : ∀ r ∈ s.requests, r.1 = decision
  store : ∀ status, s.storeStatus = some status → status = .pending ∨ status = decision

section

variable {order : DocOrder K P} {w₀ w : Write Q (StoredThread K)} {decision : SuggestionStatus}
  {s t : Review Q K} {a : DecisionEvent Q K} {client : Nat}

omit [DecidableEq K] in
lemma storedStatus_decideSuggestion (store : CommentStore K) (now : Nat)
    (request : SuggestionStatus × Option Nat) :
    storedStatus ((store.decideSuggestion now 0 request.1 request.2).toOption.getD store) =
        storedStatus store ∨
      storedStatus ((store.decideSuggestion now 0 request.1 request.2).toOption.getD store) =
        some request.1 := by
  cases hserve : store.decideSuggestion now 0 request.1 request.2 with
  | error e => exact .inl rfl
  | ok store' =>
    obtain ⟨-, thread, -, suggestion, -, rfl⟩ := CommentStore.decideSuggestion_eq_ok_iff.1 hserve
    right
    simp [Except.toOption, storedStatus, CommentStore.writeThread,
      StorageDemo.CommentThread.decided]

/-! ### After the decision -/

omit [DecidableEq K] in
lemma Decided.value (h : Decided w₀ w decision s) (hw : w ∈ s.thread.received client) :
    s.thread.value client = some w.value := by
  obtain ⟨last, hlast⟩ := isSome_iff_exists.1 (isSome_latest hw)
  have hmem := h.thread.received client last (latest_mem hlast)
  rw [h.written] at hmem
  rcases mem_cons.1 hmem with rfl | hmem
  · exact absurd (stamp_le_latest hlast hw) (not_le.2 h.above)
  · rw [Shared.value, hlast, mem_singleton.1 hmem]
    rfl

omit [DecidableEq K] in
lemma Decided.mem_of_clientStatus (h : Decided w₀ w decision s)
    (hpending : w₀.value.suggestionStatus = some .pending) {status : SuggestionStatus}
    (hstatus : s.clientStatus client = some status) (hfinal : status ≠ .pending) :
    w ∈ s.thread.received client := by
  obtain ⟨t, ht, hts⟩ := bind_eq_some_iff.1 hstatus
  obtain ⟨last, hlast, rfl⟩ := map_eq_some_iff.1 ht
  have hmem := h.thread.received client last (latest_mem hlast)
  rw [h.written] at hmem
  rcases mem_cons.1 hmem with rfl | hmem
  · exact absurd (mem_unique hts hpending) hfinal
  · rw [← mem_singleton.1 hmem]
    exact latest_mem hlast

omit [DecidableEq K] in
lemma Decided.not_pending (h : Decided w₀ w decision s) (hall : s.thread.UpToDate client)
    {t : StoredThread K} (ht : s.thread.value client = some t) :
    t.suggestionStatus ≠ some .pending := by
  have hw : w ∈ s.thread.received client := hall w (by simp [h.written])
  obtain rfl := some.inj (ht.symm.trans (h.value hw))
  rw [h.status]
  exact fun hp => h.final (some.inj hp)

/-- Nothing that clients and the store do afterwards makes another decision, and what holds the
decision keeps it. -/
lemma Decided.step (h : Decided w₀ w decision s)
    (hpending : w₀.value.suggestionStatus = some .pending)
    (hok : DecidedUpToDate s a) (hs : decisionStep order s a = some t) : Decided w₀ w decision t ∧
      (∀ client, w ∈ s.thread.received client → w ∈ t.thread.received client) ∧
      (s.storeStatus = some decision → t.storeStatus = some decision) := by
  cases a with
  | accept client | decide client =>
    simp only [decisionStep, bind_eq_some_iff, ite_none_right_eq_some] at hs
    obtain ⟨thread, hthread, -, -, ⟨hp, -⟩, -⟩ := hs
    exact absurd hp (h.not_pending hok hthread)
  | deliverUpdate client u =>
    obtain ⟨-, rfl⟩ := ite_some_none_eq_some.1 hs
    exact ⟨{ h with }, fun _ hw => hw, id⟩
  | deliverThread client w' =>
    obtain ⟨hw', rfl⟩ := ite_some_none_eq_some.1 hs
    exact ⟨{ h with thread := h.thread.receive hw' },
      fun _ hw => Shared.mem_received_receive.2 (.inl hw), id⟩
  | post client =>
    simp only [decisionStep, bind_eq_some_iff, ite_none_left_eq_some, some.injEq] at hs
    obtain ⟨thread, hthread, suggestion, hsuggestion, hfinal, rfl⟩ := hs
    have hstatus : s.clientStatus client = some suggestion.status := by
      simp [Review.clientStatus, hthread, StoredThread.suggestionStatus, hsuggestion]
    have hw := h.mem_of_clientStatus hpending hstatus hfinal
    obtain rfl := some.inj (hthread.symm.trans (h.value hw))
    have hdecision : suggestion.status = decision := by
      have := h.status
      rw [StoredThread.suggestionStatus, hsuggestion] at this
      exact some.inj this
    refine ⟨{ h with requests := fun r hr => ?_ }, fun _ hw => hw, id⟩
    rcases mem_snoc.1 hr with hr | rfl
    · exact h.requests r hr
    · exact hdecision
  | serve request now =>
    obtain ⟨hrequest, rfl⟩ := ite_some_none_eq_some.1 hs
    have hsays := h.requests request hrequest
    refine ⟨{ h with
      requests := fun r hr => h.requests r (mem_of_mem_erase hr)
      store := fun status hstatus => ?_ }, fun _ hw => hw, fun hstore => ?_⟩
    · rcases storedStatus_decideSuggestion s.store now request with hkept | hserved
      · exact h.store status (hkept.symm.trans hstatus)
      · exact .inr ((mem_unique hstatus hserved).trans hsays)
    · rcases storedStatus_decideSuggestion s.store now request with hkept | hserved
      · exact hkept.trans hstore
      · exact hserved.trans (congrArg some hsays)

/-! ### Before the decision -/

omit [DecidableEq K] in
lemma Undecided.latest_eq (h : Undecided w₀ s) {thread : StoredThread K}
    (hthread : s.thread.value client = some thread) :
    latest (s.thread.received client) = some w₀ := by
  obtain ⟨last, hlast, rfl⟩ := map_eq_some_iff.1 hthread
  have hmem := h.thread.received client last (latest_mem hlast)
  rw [h.written] at hmem
  rw [hlast, mem_singleton.1 hmem]

omit [DecidableEq K] in
lemma Undecided.value_eq (h : Undecided w₀ s) {thread : StoredThread K}
    (hthread : s.thread.value client = some thread) : thread = w₀.value := by
  have hvalue := hthread
  rw [Shared.value, h.latest_eq hthread] at hvalue
  exact (some.inj hvalue).symm

omit [DecidableEq K] in
lemma Undecided.decided (h : Undecided w₀ s) {thread t' : StoredThread K} {stamp : Q}
    (hthread : s.thread.value client = some thread) (hfollows : s.thread.Follows client stamp)
    (hstatus : t'.suggestionStatus = some decision) (hfinal : decision ≠ .pending)
    (hwritten : t.thread = s.thread.write client ⟨stamp, t'⟩)
    (hinsertions : t.insertions.length ≤ 1)
    (hrequests : t.requests = s.requests) (hstore : t.store = s.store) :
    Decided w₀ ⟨stamp, t'⟩ decision t := by
  refine ⟨hwritten ▸ h.thread.write hfollows, ?_, hfollows.above w₀ (h.latest_eq hthread), hstatus,
    hfinal, hinsertions, ?_, fun status hs => .inl (h.store status ?_)⟩
  · rw [hwritten, Shared.write, Shared.receive, h.written]
    rfl
  · simp [hrequests, h.requests]
  · rw [Review.storeStatus, ← hstore]
    exact hs

lemma Undecided.step (h : Undecided w₀ s) (hpending : w₀.value.suggestionStatus = some .pending)
    (hs : decisionStep order s a = some t) :
    Undecided w₀ t ∨ ∃ w decision, Decided w₀ w decision t := by
  cases a with
  | accept client caller stamp u =>
    simp only [decisionStep, bind_eq_some_iff, ite_none_right_eq_some] at hs
    obtain ⟨thread, hthread, o, ho, ⟨-, hfollows⟩, hs⟩ := hs
    obtain ⟨suggestion, -, rfl⟩ := map_eq_some_iff.1 ho
    right
    split_ifs at hs <;> obtain rfl := some.inj hs <;>
      exact ⟨_, .accepted, h.decided hthread hfollows rfl (by decide) rfl (by simp [h.insertions])
        rfl rfl⟩
  | decide client caller stamp decision =>
    simp only [decisionStep, bind_eq_some_iff, ite_none_right_eq_some, some.injEq] at hs
    obtain ⟨thread, hthread, t', ht', ⟨-, hfollows, hdecision⟩, rfl⟩ := hs
    obtain ⟨suggestion, -, rfl⟩ := map_eq_some_iff.1 ht'
    refine .inr ⟨_, decision, h.decided hthread hfollows rfl ?_ rfl
      (by simp [h.insertions]) rfl rfl⟩
    rcases hdecision with rfl | rfl <;> decide
  | deliverUpdate client u =>
    obtain ⟨-, rfl⟩ := ite_some_none_eq_some.1 hs
    exact .inl { h with }
  | deliverThread client w' =>
    obtain ⟨hw', rfl⟩ := ite_some_none_eq_some.1 hs
    exact .inl { h with thread := h.thread.receive hw' }
  | post client =>
    simp only [decisionStep, bind_eq_some_iff, ite_none_left_eq_some, some.injEq] at hs
    obtain ⟨thread, hthread, suggestion, hsuggestion, hfinal, -⟩ := hs
    rw [h.value_eq hthread] at hsuggestion
    rw [StoredThread.suggestionStatus, hsuggestion] at hpending
    exact absurd (some.inj hpending) hfinal
  | serve request now =>
    obtain ⟨hrequest, -⟩ := ite_some_none_eq_some.1 hs
    simp [h.requests] at hrequest

/-! ## Whole runs -/

def Review.started (docs : Nat → Doc K) (creator : Nat) (w₀ : Write Q (StoredThread K))
    (store : CommentStore K) : Review Q K :=
  ⟨docs, .started creator w₀, [], [], [], store⟩

omit [LinearOrder Q] [DecidableEq K] in
lemma undecided_started (docs : Nat → Doc K) (creator : Nat) {store : CommentStore K}
    (hstore : ∀ status, storedStatus store = some status → status = .pending) :
    Undecided w₀ (.started docs creator w₀ store) :=
  ⟨Shared.inv_started creator w₀, rfl, rfl, rfl, hstore⟩

lemma undecided_or_decided (hpending : w₀.value.suggestionStatus = some .pending)
    (hrun : Run (decisionStep order) DecidedUpToDate s t) (h : Undecided w₀ s) :
    Undecided w₀ t ∨ ∃ w decision, Decided w₀ w decision t := by
  refine hrun.invariant (P := fun t => Undecided w₀ t ∨ ∃ w decision, Decided w₀ w decision t)
    (.inl h) fun t u a ht hok hs => ?_
  rcases ht with ht | ⟨w, decision, ht⟩
  · exact ht.step hpending hs
  · exact .inr ⟨w, decision, (ht.step hpending hok hs).1⟩

/-- The after-text was inserted once at most, and from `s` to `t` nobody's decision changed. -/
structure DecidedOnce (s t : Review Q K) : Prop where
  inserted : t.insertions.length ≤ 1
  clients : ∀ client status, s.clientStatus client = some status → status ≠ .pending →
    t.clientStatus client = some status
  store : ∀ status, s.storeStatus = some status → status ≠ .pending → t.storeStatus = some status

lemma Decided.decidedOnce (h : Decided w₀ w decision s)
    (hpending : w₀.value.suggestionStatus = some .pending)
    (hrun : Run (decisionStep order) DecidedUpToDate s t) : DecidedOnce s t := by
  obtain ⟨ht, hclients, hstore⟩ := hrun.invariant
    (P := fun t => Decided w₀ w decision t ∧
      (∀ client, w ∈ s.thread.received client → w ∈ t.thread.received client) ∧
      (s.storeStatus = some decision → t.storeStatus = some decision))
    ⟨h, fun _ hw => hw, id⟩ fun t u a ⟨ht, hclients, hstore⟩ hok hs => by
      obtain ⟨hu, hclients', hstore'⟩ := ht.step hpending hok hs
      exact ⟨hu, fun client hw => hclients' client (hclients client hw),
        fun hd => hstore' (hstore hd)⟩
  refine ⟨ht.insertions, fun client status hstatus hfinal => ?_, fun status hstatus hfinal => ?_⟩
  · have hw := h.mem_of_clientStatus hpending hstatus hfinal
    rw [← hstatus, Review.clientStatus, Review.clientStatus, h.value hw,
      ht.value (hclients client hw)]
  · obtain rfl := (h.store status hstatus).resolve_left hfinal
    exact hstore hstatus

/-- If reviewers decide only on clients that have received every decision made before, the
suggestion is decided once. -/
theorem decided_once_of_decidedUpToDate {docs : Nat → Doc K} {creator : Nat}
    {store : CommentStore K} (hpending : w₀.value.suggestionStatus = some .pending)
    (hstore : ∀ status, storedStatus store = some status → status = .pending)
    (hs : Run (decisionStep order) DecidedUpToDate (.started docs creator w₀ store) s)
    (ht : Run (decisionStep order) DecidedUpToDate s t) : DecidedOnce s t := by
  have hstart : Undecided w₀ (.started docs creator w₀ store) :=
    undecided_started docs creator hstore
  rcases undecided_or_decided hpending hs hstart with hnone | ⟨w, decision, hdecided⟩
  · refine ⟨?_, fun client status hstatus hfinal => ?_, fun status hstatus hfinal => ?_⟩
    · rcases undecided_or_decided hpending ht hnone with ht | ⟨w, decision, ht⟩
      · simp [ht.insertions]
      · exact ht.insertions
    · obtain ⟨thread, hthread, hts⟩ := bind_eq_some_iff.1 hstatus
      rw [hnone.value_eq hthread, hpending] at hts
      exact absurd (some.inj hts).symm hfinal
    · exact absurd (hnone.store status hstatus) hfinal
  · exact hdecided.decidedOnce hpending ht

end

def reviewDocs (client : Nat) : Doc Nat := .started (10 + client) [⟨seed 1 [0x61, 0x62], []⟩]

def proposal : Suggestion Nat where
  view := ⟨[0x62], [0x78], [⟨.replace, 1, 1, some [0x78]⟩]⟩
  author := 3
  authorNote := none
  status := .pending

def proposalThread : StoredThread Nat where
  anchor := ⟨1, 2, [0x62]⟩
  startRel := some (.before (1, 1))
  endRel := some .textEnd
  status := .opened
  suggestion := some proposal
  comments := []
  reactions := []
  createdAt := 0

def proposalStore : CommentStore Nat :=
  CommentStore.writeThread (fun _ => none) 0
    { anchor := ⟨1, 2, [0x62]⟩, status := .opened, comments := [], suggestion := some proposal,
      createdAt := 0 }

def decidedBy (user : Nat) (decision : SuggestionStatus) : StoredThread Nat :=
  proposalThread.decided ⟨user, 0, none⟩ decision proposal

/-- User 1 accepts; the decision gets to client 2 and to the store. -/
theorem decided_once_accepted : ∃ s t : Review Nat Nat, Run (decisionStep .byId) DecidedUpToDate
        (.started reviewDocs 1 ⟨0, proposalThread⟩ proposalStore) s ∧
      Run (decisionStep .byId) DecidedUpToDate s t ∧ s.clientStatus 1 = some .accepted ∧
      t.clientStatus 2 = some .accepted ∧ t.storeStatus = some .accepted ∧ DecidedOnce s t := by
  have hrun : ∃ s ∈ exec (decisionStep .byId) DecidedUpToDate
      (.started reviewDocs 1 ⟨0, proposalThread⟩ proposalStore)
        [.accept 1 ⟨1, 0, none⟩ 1 ⟨[⟨11, 0, [(1, 1)], some 0x78⟩], [(1, 1)]⟩],
      ∃ t ∈ exec (decisionStep .byId) DecidedUpToDate s
        [.deliverThread 2 ⟨0, proposalThread⟩, .deliverThread 2 ⟨1, decidedBy 1 .accepted⟩, .post 1,
          .serve (.accepted, some 1) 5],
      s.clientStatus 1 = some .accepted ∧ t.clientStatus 2 = some .accepted ∧
        t.storeStatus = some .accepted := by
    decide +kernel
  obtain ⟨s, hs, t, ht, h₁, h₂, h₃⟩ := hrun
  exact ⟨s, t, run_of_exec hs, run_of_exec ht, h₁, h₂, h₃,
    decided_once_of_decidedUpToDate rfl (by decide) (run_of_exec hs) (run_of_exec ht)⟩

/-- Users 1 and 2 accept at the same time, and the `x` is in the text twice. Or user 1 accepts and
user 2 rejects: what client 1 and the store hold as accepted becomes rejected. -/
theorem decided_twice : commitSuggestion List.length .byId ⟨3, 0, none⟩ (reviewDocs 1)
      (buildSuggestion none [0x61, 0x62] [0x61, 0x78]) = some proposalThread ∧
    (∃ s : Review Nat Nat, Run (decisionStep .byId) anyStep
        (.started reviewDocs 1 ⟨0, proposalThread⟩ proposalStore) s ∧
      s.insertions.length = 2 ∧ (s.docs 1).text .byId = [0x61, 0x78, 0x78] ∧
      (s.docs 2).text .byId = [0x61, 0x78, 0x78]) ∧ ∃ s t : Review Nat Nat,
      Run (decisionStep .byId) anyStep (.started reviewDocs 1 ⟨0, proposalThread⟩ proposalStore) s ∧
      Run (decisionStep .byId) anyStep s t ∧ s.clientStatus 1 = some .accepted ∧
      s.storeStatus = some .accepted ∧ t.clientStatus 1 = some .rejected ∧
      t.storeStatus = some .rejected := by
  refine ⟨by decide +kernel, exists_run
    [.deliverThread 2 ⟨0, proposalThread⟩,
      .accept 1 ⟨1, 0, none⟩ 1 ⟨[⟨11, 0, [(1, 1)], some 0x78⟩], [(1, 1)]⟩,
      .accept 2 ⟨2, 0, none⟩ 2 ⟨[⟨12, 0, [(1, 1)], some 0x78⟩], [(1, 1)]⟩,
      .deliverUpdate 1 ⟨[⟨12, 0, [(1, 1)], some 0x78⟩], [(1, 1)]⟩,
      .deliverUpdate 2 ⟨[⟨11, 0, [(1, 1)], some 0x78⟩], [(1, 1)]⟩] (by decide +kernel), ?_⟩
  have hchanged : ∃ s ∈ exec (decisionStep .byId) anyStep
      (.started reviewDocs 1 ⟨0, proposalThread⟩ proposalStore)
      [.deliverThread 2 ⟨0, proposalThread⟩,
        .accept 1 ⟨1, 0, none⟩ 1 ⟨[⟨11, 0, [(1, 1)], some 0x78⟩], [(1, 1)]⟩,
        .decide 2 ⟨2, 0, none⟩ 2 .rejected, .post 1, .serve (.accepted, some 1) 5],
      ∃ t ∈ exec (decisionStep .byId) anyStep s
        [.deliverThread 1 ⟨2, decidedBy 2 .rejected⟩, .post 2, .serve (.rejected, some 2) 6],
      s.clientStatus 1 = some .accepted ∧ s.storeStatus = some .accepted ∧
        t.clientStatus 1 = some .rejected ∧ t.storeStatus = some .rejected := by
    decide +kernel
  obtain ⟨s, hs, t, ht, hstatuses⟩ := hchanged
  exact ⟨s, t, run_of_exec hs, run_of_exec ht, hstatuses⟩

end CollabEditor.Frontend
