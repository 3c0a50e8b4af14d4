import CollabEditor.Frontend.PollReconciliation
/-!
# Anchors and polls

A new thread is resolved by two positions of the text.  The server gets its anchor only, so after a
poll it is resolved by its quote, or by the offsets.  It is followed next to its copy that no poll
touches.
-/

namespace CollabEditor.Frontend

open Support Execution CausalOps SharedText TextDiff List Option Function CommentClient
open CollabEditor.StorageDemo (CommentStore CommentThread)

variable {K : Type}

/-- One thread of a client, with the text. `unpolled` is the thread with all calls of the user
and without the polls, and `polled` says that a poll has put another in its place; no step reads
them for what it does. -/
structure AnchoredThread (K : Type) where
  polling : PollingClient K
  doc : Doc K
  unpolled : Option (StoredThread K)
  polled : Bool

inductive AnchorEvent (K : Type)
  | edit (u : Update K)
  | createThread (caller : Caller) (start stop : Nat) (comment : Option (Nat × List K))
  | commitSuggestion (caller : Caller) (payload : SuggestionPayload K)
  | polling (a : PollingEvent K)

section

variable {P : Type} [LinearOrder P] [DecidableEq K] (order : DocOrder K P)

def createAnchor (d : Doc K) (start stop : Nat) : CommentAnchor K × Position × Position :=
  (⟨start, stop, slice (d.text order) start stop⟩, d.positionAt order start,
    d.positionAt order stop)

variable (bytes : List K → Nat) (id : Nat)

def PollingClient.takesOver (s : PollingClient K) : PollingEvent K → Bool
  | .reconcile i => s.fetched[i]?.any fun f => f.1 = id
  | _ => false

namespace AnchoredThread

def initial (d : Doc K) : AnchoredThread K := ⟨.initial, d, none, false⟩

def create (s : AnchoredThread K) (caller : Caller) (anchor : CommentAnchor K)
    (startRel endRel : Position) (comment : Option (Nat × List K))
    (suggestion : Option (Suggestion K)) : Option (AnchoredThread K) :=
  if s.unpolled = none then
    (pollingStep bytes s.polling
      (.create id caller anchor startRel endRel comment suggestion)).map fun polling =>
        { s with polling := polling, unpolled := polling.threads id }
  else none

/-- Nobody else makes a thread under the id, and no request changes an anchor. -/
def Admits (s : AnchoredThread K) : PollingEvent K → Prop
  | .create id' .. => id' ≠ id
  | .elsewhere store => ∀ thread ∈ store id, ∃ t ∈ s.unpolled, t.anchor = thread.anchor
  | _ => True

instance (s : AnchoredThread K) (a : PollingEvent K) : Decidable (s.Admits id a) := by
  rcases a with ⟨⟩ <;> dsimp only [Admits] <;> infer_instance

def follow (s : AnchoredThread K) : PollingEvent K → Option (StoredThread K)
  | .call id' caller call =>
    if id' = id then s.unpolled.map fun t => (t.mutate bytes caller call).getD t else s.unpolled
  | _ => s.unpolled

end AnchoredThread

def anchorStep (s : AnchoredThread K) : AnchorEvent K → Option (AnchoredThread K)
  | .edit u => some { s with doc := s.doc.apply u }
  | .createThread caller start stop comment =>
    let anchor := createAnchor order s.doc start stop
    s.create bytes id caller anchor.1 anchor.2.1 anchor.2.2 comment none
  | .commitSuggestion caller payload =>
    s.create bytes id caller payload.anchor (s.doc.positionAt order payload.anchor.start)
      (s.doc.positionAt order payload.anchor.stop) none
      (some { view := payload.view, author := caller.user, authorNote := payload.authorNote,
              status := .pending })
  | .polling a =>
    if s.Admits id a then
      (pollingStep bytes s.polling a).map fun polling =>
        { s with
          polling := polling
          unpolled := s.follow bytes id a
          polled := s.polled || s.polling.takesOver id a }
    else none

/-- Where the positions still give a range, the quote gives the same: the range reads what was
quoted, which is not to be found before it; or nothing was quoted, and the offsets are those of
the anchor. -/
def QuoteFinds (d : Doc K) (t : StoredThread K) : Prop :=
  ∀ start ∈ t.startRel.bind (d.index order), ∀ stop ∈ t.endRel.bind (d.index order),
    start ≤ stop → stop ≤ (d.text order).length →
      if t.anchor.quotedText ≠ [] then
        stop = start + t.anchor.quotedText.length ∧
          FirstAt t.anchor.quotedText (d.text order) start
      else start = min t.anchor.start (d.text order).length ∧
        stop = max start (min t.anchor.stop (d.text order).length)

end

/-! ## Resolving with and without positions -/

section

variable {P : Type} [LinearOrder P] [DecidableEq K] {order : DocOrder K P} {d : Doc K}
  {t t' : StoredThread K}

lemma resolveQuote_eq_some_iff {text : List K} {anchor : CommentAnchor K} {start stop : Nat} :
    resolveQuote text anchor = some (start, stop) ↔ if anchor.quotedText ≠ [] then
        stop = start + anchor.quotedText.length ∧ FirstAt anchor.quotedText text start
      else start = min anchor.start text.length ∧
        stop = max start (min anchor.stop text.length) := by
  rw [resolveQuote]
  split_ifs with hquoted
  · rw [map_eq_some_iff]
    constructor
    · rintro ⟨i, hi, hrange⟩
      obtain ⟨rfl, rfl⟩ := Prod.mk.inj hrange
      exact ⟨rfl, indexOf_eq_some_iff.1 hi⟩
    · rintro ⟨rfl, hfirst⟩
      exact ⟨start, indexOf_eq_some_iff.2 hfirst, rfl⟩
  · rw [some.injEq, Prod.mk.injEq]
    constructor <;>
    · rintro ⟨rfl, rfl⟩
      exact ⟨rfl, rfl⟩

lemma resolveAnchor_eq_resolveQuote (hstart : t.startRel = none) :
    resolveAnchor order d t = resolveQuote (d.text order) t.anchor := by
  simp only [resolveAnchor, hstart, bind_none]

lemma resolveAnchor_congr (hanchor : t.anchor = t'.anchor) (hstart : t.startRel = t'.startRel)
    (hend : t.endRel = t'.endRel) : resolveAnchor order d t = resolveAnchor order d t' := by
  simp only [resolveAnchor, hanchor, hstart, hend]

lemma resolveQuote_eq_resolveAnchor_iff :
    resolveQuote (d.text order) t.anchor = resolveAnchor order d t ↔ QuoteFinds order d t := by
  rw [resolveAnchor, QuoteFinds]
  cases t.startRel.bind (d.index order) with
  | none => simp
  | some start =>
    cases t.endRel.bind (d.index order) with
    | none => simp
    | some stop =>
      simp only [mem_some_iff, forall_eq']
      by_cases hrange : start ≤ stop ∧ stop ≤ (d.text order).length
      · rw [if_pos hrange, resolveQuote_eq_some_iff]
        exact ⟨fun h _ _ => h, fun h => h hrange.1 hrange.2⟩
      · rw [if_neg hrange]
        exact iff_of_true rfl fun hle hlen => absurd ⟨hle, hlen⟩ hrange

instance : Decidable (QuoteFinds order d t) := decidable_of_iff _ resolveQuote_eq_resolveAnchor_iff

end

/-! ## The anchor on its way to the server and back -/

def CommentRequest.anchorFor (id : Nat) : CommentRequest K → Option (CommentAnchor K)
  | .create id' anchor _ _ => if id' = id then some anchor else none
  | _ => none

def PollingEvent.anchorFor (id : Nat) : PollingEvent K → Option (CommentAnchor K)
  | .create id' _ anchor .. => if id' = id then some anchor else none
  | .elsewhere store => (store id).map (·.anchor)
  | _ => none

def PersistRun.Sends (run : PersistRun K) (r : CommentRequest K) : Prop :=
  ∃ saving ∈ run.saving, r ∈ saving.requests

lemma PersistRun.sends_of_onItsWay {run : PersistRun K} {r : CommentRequest K}
    (h : r ∈ run.onItsWay) : run.Sends r := by
  rw [onItsWay] at h
  cases hsaving : run.saving with
  | none => simp [hsaving] at h
  | some saving =>
    rw [hsaving, elim_some, Saving.onItsWay] at h
    split at h
    · exact ⟨saving, hsaving, mem_of_mem_head? (mem_toList.1 h)⟩
    · cases h

lemma PollingClient.fetched_of_takesOver {s : PollingClient K} {id : Nat} {a : PollingEvent K}
    (h : s.takesOver id a = true) : ∃ f ∈ s.fetched, f.1 = id := by
  cases a with
  | reconcile i =>
    cases hf : s.fetched[i]? with
    | none => simp [takesOver, hf] at h
    | some f =>
      rw [takesOver, hf, any_some] at h
      exact ⟨f, mem_of_getElem? hf, of_decide_eq_true h⟩
  | _ => cases h

/-- The request is one of a run, or is on its way with nobody waiting for the answer. -/
def PollingClient.Sends (s : PollingClient K) (r : CommentRequest K) : Prop :=
  (∃ run ∈ s.runs, run.Sends r) ∨ r ∈ s.stray

structure AnchorsIn (id : Nat) (A : CommentAnchor K → Prop) (s : PollingClient K) : Prop where
  threads : ∀ t ∈ s.threads id, A t.anchor
  store : ∀ thread ∈ s.store id, A thread.anchor
  fetched : ∀ f ∈ s.fetched, f.1 = id → A f.2.anchor
  requests : ∀ r, s.Sends r → ∀ anchor ∈ r.anchorFor id, A anchor

lemma anchor_serve {bytes : List K → Nat} {now id : Nat} {cs cs' : CommentStore K}
    {r : CommentRequest K} {thread : CommentThread K} (h : serve bytes now cs r = .ok cs')
    (hthread : cs' id = some thread) :
    (∃ old ∈ cs id, old.anchor = thread.anchor) ∨ r.anchorFor id = some thread.anchor := by
  have hwrite {id' : Nat} {new : CommentThread K} (hcs : cs' = cs.writeThread id' new)
      (hnew : id' = id → (∃ old ∈ cs id, old.anchor = new.anchor) ∨
        r.anchorFor id = some new.anchor) :
      (∃ old ∈ cs id, old.anchor = thread.anchor) ∨ r.anchorFor id = some thread.anchor := by
    subst hcs
    by_cases hid : id' = id
    · subst hid
      rw [CommentStore.writeThread_self] at hthread
      cases hthread
      exact hnew rfl
    · rw [CommentStore.writeThread_of_ne (Ne.symm hid)] at hthread
      exact .inl ⟨thread, hthread, rfl⟩
  cases r with
  | create id' anchor comment suggestion =>
    obtain ⟨-, hcs⟩ := CommentStore.createCommentThread_ok h
    exact hwrite hcs fun hid => .inr (by simp [CommentRequest.anchorFor, hid])
  | reply id' c =>
    obtain ⟨old, hold, hcs⟩ := CommentStore.addReply_ok h
    exact hwrite hcs fun hid => .inl ⟨old, hid ▸ hold, rfl⟩
  | status id' status resolvedBy =>
    obtain ⟨old, by', at', hold, hcs⟩ := CommentStore.updateThreadStatus_ok h
    exact hwrite hcs fun hid => .inl ⟨old, hid ▸ hold, rfl⟩
  | decision id' made decidedBy =>
    obtain ⟨-, old, hold, suggestion, -, hcs⟩ := CommentStore.decideSuggestion_eq_ok_iff.1 h
    exact hwrite hcs fun hid => .inl ⟨old, hid ▸ hold, rfl⟩
  | delete id' =>
    obtain rfl := Except.ok.inj h
    simp only [CommentStore.deleteCommentThread, update_apply] at hthread
    split_ifs at hthread
    exact .inl ⟨thread, hthread, rfl⟩

namespace CommentClient

variable {client : CommentClient K} {run : PersistRun K} {saving : Saving K}

lemma sends_resume {r : CommentRequest K} (h : (client.resume run saving).2.Sends r) :
    r ∈ saving.requests := by
  obtain ⟨saving', hsaving, hr⟩ := h
  rw [resume] at hsaving
  split at hsaving
  · cases hsaving
  · exact some.inj hsaving ▸ hr

lemma not_sends_notSaved (key : DirtyKey) (r : CommentRequest K) :
    ¬(client.notSaved { run with saving := none } key).2.Sends r := by
  rintro ⟨saving, hsaving, -⟩
  rw [notSaved] at hsaving
  split at hsaving <;> cases hsaving

lemma anchor_toSave [DecidableEq K] {read : Nat → Option (StoredThread K)} {key : DirtyKey}
    (h : client.toSave read key = some saving) {id : Nat} {r : CommentRequest K}
    (hr : r ∈ saving.requests) {anchor : CommentAnchor K} (hanchor : anchor ∈ r.anchorFor id) :
    ∃ t ∈ read id, t.anchor = anchor := by
  cases key with
  | deleted id' =>
    cases h
    obtain rfl := mem_singleton.1 hr
    cases hanchor
  | thread id' =>
    obtain ⟨stored, hread, -, rfl⟩ := toSave_thread h
    simp only [requests] at hr
    split at hr
    · obtain rfl := mem_singleton.1 hr
      obtain ⟨hid, hstored⟩ := ite_none_right_eq_some.1 hanchor
      exact ⟨stored, hid ▸ hread, some.inj hstored⟩
    · rename_i prev hprev
      -- replies, the status and the decision say nothing of the anchor
      have hnone : r.anchorFor id = none := by
        simp only [updateRequests, statusRequests, decisionRequests, mem_append,
          List.mem_map] at hr
        rcases hr with ⟨c, -, rfl⟩ | hr | hr
        · rfl
        · split at hr
          · obtain rfl := mem_singleton.1 hr
            rfl
          · cases hr
        · split at hr
          · split at hr
            · obtain rfl := mem_singleton.1 hr
              rfl
            · cases hr
          · cases hr
      rw [hnone] at hanchor
      cases hanchor

end CommentClient

section

variable {bytes : List K → Nat} {id : Nat} {s s' : PollingClient K} {a : PollingEvent K}
  {A : CommentAnchor K → Prop}

namespace AnchorsIn

lemma mono (h : AnchorsIn id A s) {B : CommentAnchor K → Prop}
    (hAB : ∀ anchor, A anchor → B anchor) : AnchorsIn id B s where
  threads t ht := hAB _ (h.threads t ht)
  store thread hthread := hAB _ (h.store thread hthread)
  fetched f hf hid := hAB _ (h.fetched f hf hid)
  requests r hr anchor hanchor := hAB _ (h.requests r hr anchor hanchor)

variable {r : CommentRequest K} {run : PersistRun K} {i now : Nat}
  {next : CommentClient K × PersistRun K} (h : AnchorsIn id A s)
include h

lemma sends (hrun : run ∈ s.runs) (hr : run.Sends r) {anchor : CommentAnchor K}
    (hanchor : anchor ∈ r.anchorFor id) : A anchor :=
  h.requests r (.inl ⟨run, hrun, hr⟩) anchor hanchor

lemma sends_set {next : PersistRun K}
    (hnext : ∀ r, next.Sends r → ∀ anchor ∈ r.anchorFor id, A anchor) (r : CommentRequest K)
    (hr : (∃ run ∈ s.runs.set i next, run.Sends r) ∨ r ∈ s.stray) :
    ∀ anchor ∈ r.anchorFor id, A anchor := by
  rcases hr with ⟨run, hmem, hr⟩ | hstray
  · rcases mem_or_eq_of_mem_set hmem with hmem | rfl
    · exact fun anchor => h.sends hmem hr
    · exact hnext r hr
  · exact h.requests r (.inr hstray)

lemma served (hr : s.Sends r) {cs : CommentStore K}
    (hserve : serve bytes now s.store r = .ok cs) : ∀ thread ∈ cs id, A thread.anchor := by
  intro thread hthread
  rcases anchor_serve hserve hthread with ⟨old, hold, hanchor⟩ | hanchor
  · exact hanchor ▸ h.store old hold
  · exact h.requests r hr _ hanchor

lemma setRun (hnext : ∀ r, next.2.Sends r → ∀ anchor ∈ r.anchorFor id, A anchor) :
    AnchorsIn id A (s.setRun i next) :=
  { h with requests := h.sends_set hnext }

lemma answer (hrun : run ∈ s.runs) (hnext : s.client.answered run = some next) :
    AnchorsIn id A (s.setRun i next) := by
  refine h.setRun fun r hr anchor hanchor => ?_
  obtain ⟨saving, hsaving, accepted, -, rfl⟩ := bind_map_eq_some.1 hnext
  split at hr
  · exact h.sends hrun ⟨saving, hsaving, mem_of_mem_tail (sends_resume hr)⟩ hanchor
  · exact absurd hr (not_sends_notSaved _ r)

lemma lose (hrun : run ∈ s.runs) (hnext : s.client.lost run = some next) :
    AnchorsIn id A { s.setRun i next with stray := run.onItsWay ++ s.stray } := by
  obtain ⟨saving, hsaving, rfl⟩ := map_eq_some_iff.1 hnext
  have hset : AnchorsIn id A
      (s.setRun i (s.client.notSaved { run with saving := none } saving.key)) :=
    h.setRun fun r hr => absurd hr (not_sends_notSaved _ r)
  refine { hset with requests := fun r hr anchor hanchor => ?_ }
  rcases hr with hruns | hstray
  · exact hset.requests r (.inl hruns) anchor hanchor
  · rcases mem_append.1 hstray with hway | hstray
    · exact h.sends hrun (PersistRun.sends_of_onItsWay hway) hanchor
    · exact h.requests r (.inr hstray) anchor hanchor

lemma serve (hrun : run ∈ s.runs) {saving : Saving K} (hsaving : run.saving = some saving)
    {next : CommentStore K × Saving K} (hnext : saving.served bytes now s.store = some next)
    (unsaved : List (Nat × Change K)) :
    AnchorsIn id A { s with
      store := next.1, runs := s.runs.set i { run with saving := some next.2 }, unsaved } := by
  obtain ⟨r, rest, -, hrequests, hserved⟩ := Saving.served_eq_some hnext
  have hr : s.Sends r := .inl ⟨run, hrun, saving, hsaving, hrequests ▸ mem_cons_self⟩
  -- the server's answer is kept with the same requests
  have hsends {answer : Option Bool} : ∀ r,
      PersistRun.Sends { run with saving := some { saving with answer } } r →
        ∀ anchor ∈ r.anchorFor id, A anchor := by
    rintro r ⟨saving', hsaving', hr⟩ anchor
    cases hsaving'
    exact h.sends hrun ⟨saving, hsaving, hr⟩
  rcases hserved with ⟨cs, hserve, rfl⟩ | ⟨e, -, rfl⟩
  · exact ⟨h.threads, h.served hr hserve, h.fetched, h.sends_set hsends⟩
  · exact { h with requests := h.sends_set hsends }

lemma serveStray (hr : s.stray[i]? = some r) (unsaved : List (Nat × Change K)) :
    AnchorsIn id A { s with
      stray := s.stray.eraseIdx i
      store := (Frontend.serve bytes now s.store r).toOption.getD s.store
      unsaved } where
  threads := h.threads
  store := by
    cases hserve : Frontend.serve bytes now s.store r with
    | ok cs => exact h.served (.inr (mem_of_getElem? hr)) hserve
    | error e => exact h.store
  fetched := h.fetched
  requests r' hr' := h.requests r' (hr'.imp_right mem_of_mem_eraseIdx)

end AnchorsIn

variable [DecidableEq K]

/-- What a step makes of the thread: it stays as it is, or it is created, changed by a call, or
taken over from the server. -/
lemma thread_pollingStep {t : StoredThread K} (hs : pollingStep bytes s a = some s')
    (ht : s'.threads id = some t) : (s.threads id = some t ∧ s.takesOver id a = false) ∨
      (∃ caller anchor startRel endRel comment suggestion,
        a = .create id caller anchor startRel endRel comment suggestion ∧ t.anchor = anchor) ∨
      (∃ caller call old, a = .call id caller call ∧ s.threads id = some old ∧
        old.mutate bytes caller call = some t) ∨
      (∃ f ∈ s.fetched, f.1 = id ∧ s.takesOver id a = true ∧ t.anchor = f.2.anchor ∧
        t.startRel = none ∧ t.endRel = none) := by
  cases a with
  | create id' caller anchor startRel endRel comment suggestion =>
    obtain ⟨-, hs⟩ := ite_none_right_eq_some.1 hs
    obtain ⟨new, hnew, rfl⟩ := map_eq_some_iff.1 hs
    simp only [PollingClient.write, update_apply] at ht
    split_ifs at ht with hid
    · cases ht
      subst hid
      obtain ⟨-, rfl⟩ := ite_some_none_eq_some.1 hnew
      exact .inr (.inl ⟨caller, anchor, startRel, endRel, comment, suggestion, rfl, rfl⟩)
    · exact .inl ⟨ht, rfl⟩
  | call id' caller call =>
    obtain ⟨old, hold, new, hnew, rfl⟩ := bind_map_eq_some.1 hs
    simp only [PollingClient.write, update_apply] at ht
    split_ifs at ht with hid
    · cases ht
      subst hid
      exact .inr (.inr (.inl ⟨caller, call, old, rfl, hold, hnew⟩))
    · exact .inl ⟨ht, rfl⟩
  | delete id' | reconcileDeleted id' =>
    cases hs
    simp only [update_apply] at ht
    split_ifs at ht
    exact .inl ⟨ht, rfl⟩
  | reconcile i =>
    obtain ⟨f, hf, rfl⟩ := map_eq_some_iff.1 hs
    simp only [update_apply] at ht
    simp only [PollingClient.takesOver, hf, any_some]
    split_ifs at ht with hid
    · cases ht
      exact .inr (.inr (.inr ⟨f, mem_of_getElem? hf, hid.symm, decide_eq_true hid.symm,
        (insertThreadFromWire_keeps ..).2⟩))
    · exact .inl ⟨ht, decide_eq_false (Ne.symm hid)⟩
  | startPersist | elsewhere store =>
    cases hs
    exact .inl ⟨ht, rfl⟩
  | nextKey i | answer i | lose i | finish i =>
    obtain ⟨run, -, next, -, rfl⟩ := bind_map_eq_some.1 hs
    exact .inl ⟨ht, rfl⟩
  | serve i now =>
    obtain ⟨run, -, hs⟩ := bind_eq_some_iff.1 hs
    obtain ⟨saving, -, hs⟩ := bind_eq_some_iff.1 hs
    obtain ⟨r, -, next, -, rfl⟩ := bind_map_eq_some.1 hs
    exact .inl ⟨ht, rfl⟩
  | serveStray i now | fetch id' =>
    obtain ⟨r, -, rfl⟩ := map_eq_some_iff.1 hs
    exact .inl ⟨ht, rfl⟩

namespace AnchorsIn

variable (h : AnchorsIn id A s)
include h

lemma thread (hok : ∀ anchor ∈ a.anchorFor id, A anchor) (hs : pollingStep bytes s a = some s') :
    ∀ t ∈ s'.threads id, A t.anchor := by
  intro t ht
  rcases thread_pollingStep hs ht with ⟨hold, -⟩ | ⟨_, anchor, _, _, _, _, rfl, hanchor⟩ |
    ⟨caller, call, old, rfl, hold, hmutate⟩ | ⟨f, hf, hid, -, hanchor, -⟩
  · exact h.threads t hold
  · exact hanchor ▸ hok anchor (if_pos rfl)
  · exact (StoredThread.mutate_keeps hmutate).1.1 ▸ h.threads old hold
  · exact hanchor ▸ h.fetched f hf hid

lemma nextKey {i : Nat} {run : PersistRun K} {next : CommentClient K × PersistRun K}
    (hnext : s.client.nextKey s.threads run = some next) : AnchorsIn id A (s.setRun i next) := by
  refine h.setRun fun r hr anchor hanchor => ?_
  obtain ⟨key, rest, hsaving, -, ⟨-, rfl⟩ | ⟨saving, htoSave, rfl⟩⟩ := nextKey_eq_some hnext
  · obtain ⟨saving, hsome, -⟩ := hr
    cases hsaving.symm.trans hsome
  · obtain ⟨t, ht, rfl⟩ := anchor_toSave htoSave (sends_resume hr) hanchor
    exact h.threads t ht

lemma step (hok : ∀ anchor ∈ a.anchorFor id, A anchor) (hs : pollingStep bytes s a = some s') :
    AnchorsIn id A s' := by
  have hthreads := h.thread hok hs
  cases a with
  | create id' caller anchor startRel endRel comment suggestion =>
    obtain ⟨-, hs⟩ := ite_none_right_eq_some.1 hs
    obtain ⟨t, -, rfl⟩ := map_eq_some_iff.1 hs
    exact { h with threads := hthreads }
  | call id' caller call =>
    obtain ⟨_, -, _, -, rfl⟩ := bind_map_eq_some.1 hs
    exact { h with threads := hthreads }
  | delete id' | reconcileDeleted id' =>
    cases hs
    exact { h with threads := hthreads }
  | startPersist =>
    cases hs
    refine ⟨hthreads, h.store, h.fetched, fun r hr => ?_⟩
    rcases hr with ⟨run, hrun, hr⟩ | hstray
    · rcases mem_append.1 hrun with hrun | hrun
      · exact fun anchor => h.sends hrun hr
      · -- a run starts with no request
        obtain rfl := mem_singleton.1 hrun
        obtain ⟨saving, hsaving, -⟩ := hr
        cases hsaving
    · exact h.requests r (.inr hstray)
  | nextKey i =>
    obtain ⟨_, -, next, hnext, rfl⟩ := bind_map_eq_some.1 hs
    exact h.nextKey hnext
  | serve i now =>
    obtain ⟨run, hrun, hs⟩ := bind_eq_some_iff.1 hs
    obtain ⟨saving, hsaving, hs⟩ := bind_eq_some_iff.1 hs
    obtain ⟨r, -, next, hnext, rfl⟩ := bind_map_eq_some.1 hs
    exact h.serve (mem_of_getElem? hrun) hsaving hnext _
  | answer i =>
    obtain ⟨run, hrun, next, hnext, rfl⟩ := bind_map_eq_some.1 hs
    exact h.answer (mem_of_getElem? hrun) hnext
  | lose i =>
    obtain ⟨run, hrun, next, hnext, rfl⟩ := bind_map_eq_some.1 hs
    exact h.lose (mem_of_getElem? hrun) hnext
  | serveStray i now =>
    obtain ⟨r, hr, rfl⟩ := map_eq_some_iff.1 hs
    exact h.serveStray hr _
  | finish i =>
    obtain ⟨run, -, client, -, rfl⟩ := bind_map_eq_some.1 hs
    refine ⟨hthreads, h.store, h.fetched, fun r hr => h.requests r (hr.imp_left ?_)⟩
    exact fun ⟨run, hrun, hr⟩ => ⟨run, mem_of_mem_eraseIdx hrun, hr⟩
  | elsewhere store =>
    cases hs
    refine ⟨hthreads, fun thread hthread => hok _ ?_, h.fetched, h.requests⟩
    exact map_eq_some_iff.2 ⟨thread, hthread, rfl⟩
  | fetch id' =>
    obtain ⟨thread, hthread, rfl⟩ := map_eq_some_iff.1 hs
    refine ⟨hthreads, h.store, fun f hf hid => ?_, h.requests⟩
    rcases mem_snoc.1 hf with hf | rfl
    · exact h.fetched f hf hid
    · exact h.store thread (hid ▸ hthread)
  | reconcile i =>
    obtain ⟨f, hf, rfl⟩ := map_eq_some_iff.1 hs
    exact ⟨hthreads, h.store, fun f hf => h.fetched f (mem_of_mem_eraseIdx hf), h.requests⟩

end AnchorsIn

end

/-! ## The thread next to its copy -/

section

variable {bytes : List K → Nat} {id : Nat} {s s' : AnchoredThread K}

/-- The thread has the anchor of its copy, and the positions until a poll takes it over. -/
structure AnchorInv (id : Nat) (s : AnchoredThread K) : Prop where
  anchors : AnchorsIn id (fun anchor => ∃ t ∈ s.unpolled, t.anchor = anchor) s.polling
  positions : ∀ t ∈ s.polling.threads id, ∀ t' ∈ s.unpolled,
    (t.startRel, t.endRel) = if s.polled then (none, none) else (t'.startRel, t'.endRel)
  polled : s.polled = true → s.unpolled ≠ none

lemma AnchoredThread.follow_eq (s : AnchoredThread K) (bytes : List K → Nat) (id : Nat)
    (a : PollingEvent K) :
    ∃ f : StoredThread K → StoredThread K, s.follow bytes id a = s.unpolled.map f ∧
      ∀ t, (f t).anchor = t.anchor ∧ (f t).startRel = t.startRel ∧ (f t).endRel = t.endRel := by
  cases a with
  | call id' caller call =>
    rw [follow]
    split_ifs
    · refine ⟨_, rfl, fun t => ?_⟩
      cases hmutate : t.mutate bytes caller call with
      | none => exact ⟨rfl, rfl, rfl⟩
      | some t' =>
        exact (StoredThread.mutate_keeps hmutate).1
    · exact ⟨fun t => t, map_id'.symm, fun t => ⟨rfl, rfl, rfl⟩⟩
  | _ => exact ⟨fun t => t, map_id'.symm, fun t => ⟨rfl, rfl, rfl⟩⟩

variable [DecidableEq K]

namespace AnchorInv

lemma create (h : AnchorInv id s) {caller : Caller} {anchor : CommentAnchor K}
    {startRel endRel : Position} {comment : Option (Nat × List K)}
    {suggestion : Option (Suggestion K)}
    (hs : s.create bytes id caller anchor startRel endRel comment suggestion = some s') :
    AnchorInv id s' := by
  obtain ⟨hnone, hs⟩ := ite_none_right_eq_some.1 hs
  obtain ⟨polling, hpolling, rfl⟩ := map_eq_some_iff.1 hs
  have hpolled : s.polled = false := Bool.eq_false_iff.2 fun hpolled => h.polled hpolled hnone
  have hnowhere : AnchorsIn id (· = anchor) s.polling := h.anchors.mono fun _ ⟨t, ht, _⟩ => by
    rw [hnone] at ht
    cases ht
  have hanchors : AnchorsIn id (· = anchor) polling :=
    hnowhere.step (by simp [PollingEvent.anchorFor]) hpolling
  obtain ⟨-, hpolling⟩ := ite_none_right_eq_some.1 hpolling
  obtain ⟨t, -, rfl⟩ := map_eq_some_iff.1 hpolling
  have ht : Function.update s.polling.threads id (some t) id = some t := update_self ..
  refine ⟨hanchors.mono fun anchor' hanchor' => ⟨t, ht, ?_⟩, fun t₁ ht₁ t₂ ht₂ => ?_,
    fun hpolled' => ?_⟩
  · exact (hanchors.threads t ht).trans hanchor'.symm
  · obtain rfl := mem_unique ht₁ ht₂
    simp [hpolled]
  · simp [hpolled] at hpolled'

lemma polling (h : AnchorInv id s) {a : PollingEvent K} {polling : PollingClient K}
    (hadmits : s.Admits id a) (hpolling : pollingStep bytes s.polling a = some polling) :
    AnchorInv id { s with
      polling := polling
      unpolled := s.follow bytes id a
      polled := s.polled || s.polling.takesOver id a } := by
  obtain ⟨f, hfollow, hf⟩ := s.follow_eq bytes id a
  have hbrings : ∀ anchor ∈ a.anchorFor id, ∃ t ∈ s.unpolled, t.anchor = anchor := by
    intro anchor hanchor
    cases a with
    | create id' => exact absurd (ite_none_right_eq_some.1 hanchor).1 hadmits
    | elsewhere store =>
      obtain ⟨thread, hthread, rfl⟩ := map_eq_some_iff.1 hanchor
      exact hadmits thread hthread
    | _ => cases hanchor
  rw [hfollow]
  refine ⟨(h.anchors.step hbrings hpolling).mono ?_, fun t ht t' ht' => ?_, fun hpolled => ?_⟩
  · rintro anchor ⟨t, ht, rfl⟩
    exact ⟨f t, mem_map_of_mem f ht, (hf t).1⟩
  · obtain ⟨old', hold', rfl⟩ := mem_map.1 ht'
    obtain ⟨-, hstart, hend⟩ := hf old'
    rcases thread_pollingStep hpolling ht with ⟨hold, htakes⟩ | ⟨_, _, _, _, _, _, rfl, -⟩ |
      ⟨caller, call, old, rfl, hold, hmutate⟩ | ⟨f', -, -, htakes, -, hnone⟩
    · rw [htakes, Bool.or_false, hstart, hend]
      exact h.positions t hold old' hold'
    · exact absurd rfl hadmits
    · obtain ⟨⟨-, hstart', hend'⟩, -⟩ := StoredThread.mutate_keeps hmutate
      rw [hstart', hend', hstart, hend]
      simpa [PollingClient.takesOver] using h.positions old hold old' hold'
    · simp [htakes, hnone]
  · obtain ⟨t, ht⟩ : ∃ t, s.unpolled = some t := by
      rcases (Bool.or_eq_true ..).mp hpolled with hpolled | htakes
      · exact ne_none_iff_exists'.1 (h.polled hpolled)
      · obtain ⟨f', hf', hid⟩ := PollingClient.fetched_of_takesOver htakes
        obtain ⟨t, ht, -⟩ := h.anchors.fetched f' hf' hid
        exact ⟨t, ht⟩
    simp [ht]

variable {P : Type} [LinearOrder P] {order : DocOrder K P}

lemma step {a : AnchorEvent K} (h : AnchorInv id s)
    (hs : anchorStep order bytes id s a = some s') : AnchorInv id s' := by
  cases a with
  | edit u =>
    cases hs
    exact { h with }
  | createThread | commitSuggestion => exact h.create hs
  | polling a =>
    obtain ⟨hadmits, hs⟩ := ite_none_right_eq_some.1 hs
    obtain ⟨polling, hpolling, rfl⟩ := map_eq_some_iff.1 hs
    exact h.polling hadmits hpolling

lemma of_run {d : Doc K} (hrun : Run (anchorStep order bytes id) anyStep (.initial d) s) :
    AnchorInv id s := by
  refine hrun.invariant (P := AnchorInv id) ⟨⟨?_, ?_, ?_, ?_⟩, ?_, ?_⟩ fun _ _ _ h _ hs => h.step hs
  all_goals simp [AnchoredThread.initial, PollingClient.initial, PollingClient.Sends]

end AnchorInv

/-- A thread that no poll has taken over is resolved as its copy. One that has been taken over is
so as long as the quote finds what the positions of the copy point at, and no longer. -/
theorem resolveAnchor_kept_iff_quoteFinds {P : Type} [LinearOrder P] {order : DocOrder K P}
    {d : Doc K} (hrun : Run (anchorStep order bytes id) anyStep (.initial d) s) :
    ∀ t ∈ s.polling.threads id, ∀ t' ∈ s.unpolled,
      resolveAnchor order s.doc t = resolveAnchor order s.doc t' ↔
        (s.polled = true → QuoteFinds order s.doc t') := by
  intro t ht t' ht'
  have hinv := AnchorInv.of_run hrun
  obtain ⟨t'', ht'', hanchor⟩ := hinv.anchors.threads t ht
  obtain rfl := mem_unique ht' ht''
  have hpositions := hinv.positions t ht t' ht'
  cases hpolled : s.polled with
  | false =>
    rw [hpolled, if_neg Bool.false_ne_true, Prod.mk.injEq] at hpositions
    refine iff_of_true ?_ fun h => absurd h Bool.false_ne_true
    exact resolveAnchor_congr hanchor.symm hpositions.1 hpositions.2
  | true =>
    rw [hpolled, if_pos rfl, Prod.mk.injEq] at hpositions
    rw [resolveAnchor_eq_resolveQuote hpositions.1, ← hanchor, resolveQuote_eq_resolveAnchor_iff]
    exact ⟨fun h _ => h, fun h => h rfl⟩

end

def quotedDoc : Doc Nat := .started 9 [⟨seed 1 [0x61], []⟩, ⟨seed 3 [0x62, 0x61], []⟩]

def savedAndPolled (start stop : Nat) : List (AnchorEvent Nat) :=
  [.createThread pollingUser start stop (some (10, [0x63])), .polling .startPersist,
    .polling (.nextKey 0), .polling (.serve 0 1), .polling (.answer 0), .polling (.finish 0),
    .polling (.fetch 1), .polling (.reconcile 0)]

/-- The thread is on the only `b`, and a character is put in front of all. -/
theorem resolveAnchor_kept_onlyB :
    ∃ s : AnchoredThread Nat, Run (anchorStep .byId length 1) anyStep (.initial quotedDoc) s ∧
      s.polled = true ∧ s.doc.text .byId = [0x7a, 0x61, 0x62, 0x61] ∧
      ∃ t ∈ s.polling.threads 1, ∃ t' ∈ s.unpolled, resolveAnchor .byId s.doc t' = some (2, 3) ∧
        resolveAnchor .byId s.doc t = resolveAnchor .byId s.doc t' :=
  exists_run_imp (savedAndPolled 1 2 ++ [.edit ⟨[⟨0, 0, [], some 0x7a⟩], []⟩])
    (P := fun s => s.polled = true ∧ s.doc.text .byId = [0x7a, 0x61, 0x62, 0x61] ∧
      ∃ t ∈ s.polling.threads 1, ∃ t' ∈ s.unpolled, resolveAnchor .byId s.doc t' = some (2, 3) ∧
        QuoteFinds .byId s.doc t') (by decide +kernel)
    fun _ hrun ⟨hpolled, htext, t, ht, t', ht', hrange, hfinds⟩ => ⟨hpolled, htext, t, ht, t', ht',
      hrange, (resolveAnchor_kept_iff_quoteFinds hrun t ht t' ht').2 fun _ => hfinds⟩

/-- The thread on the second `a` is on the first after the poll. The thread on `ab` is nowhere
after the poll when an `x` has been put between the two. -/
theorem anchor_moved_by_poll :
    (∃ s : AnchoredThread Nat, Run (anchorStep .byId length 1) anyStep (.initial quotedDoc) s ∧
      s.doc = quotedDoc ∧
      ∃ t ∈ s.polling.threads 1, ∃ t' ∈ s.unpolled, resolveAnchor .byId s.doc t' = some (2, 3) ∧
        resolveAnchor .byId s.doc t = some (0, 1)) ∧
    ∃ s : AnchoredThread Nat, Run (anchorStep .byId length 1) anyStep (.initial quotedDoc) s ∧
      s.doc.text .byId = [0x61, 0x78, 0x62, 0x61] ∧
      ∃ t ∈ s.polling.threads 1, ∃ t' ∈ s.unpolled, resolveAnchor .byId s.doc t' = some (0, 3) ∧
        resolveAnchor .byId s.doc t = none :=
  ⟨exists_run (savedAndPolled 2 3) (by decide +kernel),
    exists_run (savedAndPolled 0 2 ++ [.edit ⟨[⟨2, 0, [(1, 0)], some 0x78⟩], []⟩])
      (by decide +kernel)⟩

end CollabEditor.Frontend
