import CollabEditor.Frontend.LocalChanges
/-!
# Polling next to saving

One client, with its calls, its persist runs and its polls; others change what is on the server as
they like.  `unsaved` keeps what the server has not accepted; no step reads it.
-/

namespace CollabEditor.Frontend

open Support Execution List Option CommentClient Function
open CollabEditor.StorageDemo (CommentStore CommentThread StoreError)

variable {K : Type}

structure PollingClient (K : Type) where
  threads : Nat → Option (StoredThread K)
  client : CommentClient K
  runs : List (PersistRun K)
  stray : List (CommentRequest K)
  fetched : List (Nat × CommentThread K)
  store : CommentStore K
  unsaved : List (Nat × Change K)

/-- Runs, stray requests and fetched threads are named by where they are in their list. -/
inductive PollingEvent (K : Type)
  | create (id : Nat) (caller : Caller) (anchor : CommentAnchor K)
      (startRel endRel : SharedText.Position) (comment : Option (Nat × List K))
      (suggestion : Option (Suggestion K))
  | call (id : Nat) (caller : Caller) (call : ThreadCall K)
  | delete (id : Nat)
  | startPersist
  | nextKey (i : Nat)
  | serve (i now : Nat)
  | answer (i : Nat)
  | lose (i : Nat)
  | serveStray (i now : Nat)
  | finish (i : Nat)
  | elsewhere (store : CommentStore K)
  | fetch (id : Nat)
  | reconcile (i : Nat)
  | reconcileDeleted (id : Nat)

namespace PollingClient

def initial : PollingClient K where
  threads _ := none
  client := .initial
  runs := []
  stray := []
  fetched := []
  store _ := none
  unsaved := []

def setRun (s : PollingClient K) (i : Nat) (next : CommentClient K × PersistRun K) :
    PollingClient K :=
  { s with client := next.1, runs := s.runs.set i next.2 }

def write (s : PollingClient K) (id : Nat) (t : StoredThread K) : PollingClient K :=
  { s with
    threads := update s.threads id (some t)
    client := s.client.mark (.thread id) }

end PollingClient

section

variable [DecidableEq K] (bytes : List K → Nat)

/-- What is unsaved after a call: earlier changes that it has not replaced, and those it makes. -/
def unsavedAfter (unsaved : List (Nat × Change K)) (id : Nat) (t t' : StoredThread K)
    (caller : Caller) (call : ThreadCall K) : List (Nat × Change K) :=
  unsaved.filter (fun e => e.1 ≠ id ∨ e.2.part ∉ call.parts caller ∨ e.2.In t') ++
    ((call.changes caller).filter fun change => change.In t' ∧ ¬change.In t).map (id, ·)

def pollingStep (s : PollingClient K) : PollingEvent K → Option (PollingClient K)
  | .create id caller anchor startRel endRel comment suggestion =>
    if s.threads id = none then
      (createThread bytes caller anchor startRel endRel comment suggestion).map fun t =>
        { s.write id t with
          unsaved := s.unsaved ++ t.comments.map fun c => (id, .content c.id c.content) }
    else none
  | .call id caller call =>
    (s.threads id).bind fun t => (t.mutate bytes caller call).map fun t' =>
      { s.write id t' with unsaved := unsavedAfter s.unsaved id t t' caller call }
  | .delete id =>
    let client := if (s.threads id).isSome then s.client.mark (.thread id) else s.client
    some { s with
      threads := update s.threads id none
      client := client.mark (.deleted id)
      unsaved := s.unsaved.filter (·.1 ≠ id) }
  | .startPersist =>
    let next := s.client.startPersist
    some { s with client := next.1, runs := s.runs ++ [next.2] }
  | .nextKey i => s.runs[i]?.bind fun run => (s.client.nextKey s.threads run).map (s.setRun i)
  | .serve i now => s.runs[i]?.bind fun run => run.saving.bind fun saving =>
    saving.requests.head?.bind fun r => (saving.served bytes now s.store).map fun next =>
      { s with
        store := next.1
        runs := s.runs.set i { run with saving := some next.2 }
        unsaved := s.unsaved.filter (· ∉ accepted bytes now s.store r) }
  | .answer i => s.runs[i]?.bind fun run => (s.client.answered run).map (s.setRun i)
  | .lose i => s.runs[i]?.bind fun run => (s.client.lost run).map fun next =>
    { s.setRun i next with stray := run.onItsWay ++ s.stray }
  | .serveStray i now => s.stray[i]?.map fun r =>
    { s with
      stray := s.stray.eraseIdx i
      store := (serve bytes now s.store r).toOption.getD s.store
      unsaved := s.unsaved.filter (· ∉ accepted bytes now s.store r) }
  | .finish i => s.runs[i]?.bind fun run => (s.client.finished run).map fun client =>
    { s with client, runs := s.runs.eraseIdx i }
  | .elsewhere store => some { s with store }
  | .fetch id => (s.store id).map fun thread => { s with fetched := s.fetched ++ [(id, thread)] }
  | .reconcile i => s.fetched[i]?.map fun f =>
    let next := s.client.insertThreadFromWire (s.threads f.1) f.1 f.2
    { s with
      threads := update s.threads f.1 (some next.2)
      client := next.1
      fetched := s.fetched.eraseIdx i }
  | .reconcileDeleted id => some { s with threads := update s.threads id none }

end

/-! ## What is going to be saved -/

/-- The run has still to come to the thread, or to put it back; or it is at the thread, with a
request for the change that the server has still to get, or a refusal. -/
def PersistRun.Holds (run : PersistRun K) (e : Nat × Change K) : Prop :=
  .thread e.1 ∈ run.queue ∨ .thread e.1 ∈ run.failed ∨
    ∃ saving ∈ run.saving, saving.key = .thread e.1 ∧
      (saving.answer = some false ∨ ∃ r ∈ saving.unserved, e ∈ r.brings)

/-- The thread of the change is dirty and a run is going to start, or a run is to save it. -/
def Scheduled (client : CommentClient K) (runs : List (PersistRun K)) (e : Nat × Change K) : Prop :=
  .thread e.1 ∈ client.dirty ∧ client.timer = true ∨ ∃ run ∈ runs, run.Holds e

/-- Every unsaved change is in the client's thread and scheduled to be saved. -/
def PollingClient.KeepsUnsaved (s : PollingClient K) : Prop :=
  ∀ e ∈ s.unsaved, (∃ t ∈ s.threads e.1, e.2.In t) ∧ Scheduled s.client s.runs e

instance [DecidableEq K] (run : PersistRun K) (e : Nat × Change K) : Decidable (run.Holds e) :=
  inferInstanceAs (Decidable (_ ∨ _ ∨ _))

instance [DecidableEq K] (client : CommentClient K) (runs : List (PersistRun K))
    (e : Nat × Change K) : Decidable (Scheduled client runs e) :=
  inferInstanceAs (Decidable (_ ∨ _))

/-! ## Steps that lose nothing -/

def PersistRun.keys (run : PersistRun K) : List DirtyKey :=
  run.queue ++ run.failed ++ run.saving.toList.map (·.key)

namespace PollingClient

def Busy (s : PollingClient K) (id : Nat) : Prop :=
  .thread id ∈ s.client.dirty ∨ ∃ run ∈ s.runs, .thread id ∈ run.keys
  deriving Decidable

def CarriesAll (s : PollingClient K) : DirtyKey → Prop
  | .thread id => ∀ t ∈ s.threads id, ∀ e ∈ s.unsaved, e.1 = id →
      Carriable t (s.client.lastPersisted id) e.2
  | .deleted _ => True

/-- The server has no thread that is to be created, or the request brings nothing new. -/
def CreatesNew (s : PollingClient K) (r : CommentRequest K) : Prop :=
  match r with
  | .create id .. => s.store id = none ∨ ∀ e ∈ s.unsaved, e ∉ r.brings
  | _ => True

def RetriesLeft (s : PollingClient K) (key : DirtyKey) : Prop :=
  s.client.retryCount key + 1 < maxPersistRetries
  deriving Decidable

end PollingClient

/-- A poll takes over a thread only when no run has to do with it and it is not dirty. A run comes
to a thread only when all that is unsaved of it will be sent, a thread is created that the server
has not, and no request fails as often as the client tries. -/
def SavedBeforePolled (s : PollingClient K) : PollingEvent K → Prop
  | .nextKey i => ∀ run ∈ s.runs[i]?, ∀ key ∈ run.queue.head?, s.CarriesAll key
  | .serve i _ => ∀ run ∈ s.runs[i]?, ∀ saving ∈ run.saving, ∀ r ∈ saving.requests.head?,
      s.CreatesNew r
  | .answer i => ∀ run ∈ s.runs[i]?, ∀ saving ∈ run.saving, saving.answer = some false →
      s.RetriesLeft saving.key
  | .lose i => ∀ run ∈ s.runs[i]?, ∀ saving ∈ run.saving, s.RetriesLeft saving.key
  | .reconcile i => ∀ f ∈ s.fetched[i]?, ¬s.Busy f.1
  | .reconcileDeleted id => ¬s.Busy id
  | _ => True

section

variable [DecidableEq K]

instance (s : PollingClient K) (key : DirtyKey) : Decidable (s.CarriesAll key) := by
  rcases key with ⟨⟩ <;> dsimp only [PollingClient.CarriesAll] <;> infer_instance

instance (s : PollingClient K) (r : CommentRequest K) : Decidable (s.CreatesNew r) := by
  rcases r with ⟨⟩ <;> dsimp only [PollingClient.CreatesNew] <;> infer_instance

instance (s : PollingClient K) (a : PollingEvent K) : Decidable (SavedBeforePolled s a) := by
  rcases a with ⟨⟩ <;> dsimp only [SavedBeforePolled] <;> infer_instance

end

section

variable {s : PollingClient K} {e : Nat × Change K} {client client' : CommentClient K}
  {runs : List (PersistRun K)} {run next : PersistRun K} {i : Nat}

lemma Scheduled.setRun (h : Scheduled client runs e) (hrun : runs[i]? = some run)
    (hmarked : client'.dirty = client.dirty ∧ client'.timer = client.timer)
    (hnext : run.Holds e → next.Holds e) : Scheduled client' (runs.set i next) e := by
  rcases h with hdirty | ⟨held, hmem, hholds⟩
  · rw [← hmarked.1, ← hmarked.2] at hdirty
    exact .inl hdirty
  · obtain ⟨j, hj⟩ := mem_iff_getElem?.1 hmem
    by_cases hij : i = j
    · subst hij
      obtain rfl := mem_unique hrun hj
      obtain ⟨hlt, -⟩ := List.getElem?_eq_some_iff.1 hrun
      exact .inr ⟨next, mem_set hlt next, hnext hholds⟩
    · rw [← getElem?_set_ne hij] at hj
      exact .inr ⟨held, mem_of_getElem? hj, hholds⟩

lemma Scheduled.mono (h : Scheduled client runs e)
    (hdirty : ∀ key ∈ client.dirty, key ∈ client'.dirty)
    (htimer : client.timer = true → client'.timer = true) : Scheduled client' runs e :=
  h.imp_left fun ⟨hmem, hset⟩ => ⟨hdirty _ hmem, htimer hset⟩

lemma Scheduled.busy (h : Scheduled s.client s.runs e) : s.Busy e.1 := by
  rcases h with ⟨hdirty, -⟩ | ⟨run, hrun, hqueue | hfailed | ⟨saving, hsaving, hkey, -⟩⟩
  · exact .inl hdirty
  · exact .inr ⟨run, hrun, mem_append_left _ (mem_append_left _ hqueue)⟩
  · exact .inr ⟨run, hrun, mem_append_left _ (mem_append_right _ hfailed)⟩
  · refine .inr ⟨run, hrun, mem_append_right _ (mem_map.2 ⟨saving, ?_, hkey⟩)⟩
    exact mem_toList.2 hsaving

variable {saving : Saving K}

lemma holds_resume_of_mem (h : .thread e.1 ∈ run.queue ∨ .thread e.1 ∈ run.failed) :
    (client.resume run saving).2.Holds e := by
  rw [CommentClient.resume]
  split <;> exact h.imp_right .inl

lemma holds_resume_of_brings (hkey : saving.key = .thread e.1) (hanswer : saving.answer = none)
    {r : CommentRequest K} (hr : r ∈ saving.requests) (hbrings : e ∈ r.brings) :
    (client.resume run saving).2.Holds e := by
  rw [CommentClient.resume]
  split
  · rename_i hnil
    rw [hnil] at hr
    cases hr
  · refine .inr (.inr ⟨saving, rfl, hkey, .inr ⟨r, ?_, hbrings⟩⟩)
    rwa [Saving.unserved, hanswer]

lemma PersistRun.Holds.of_saving (h : run.Holds e) (hsaving : run.saving = some saving) :
    .thread e.1 ∈ run.queue ∨ .thread e.1 ∈ run.failed ∨ saving.key = .thread e.1 := by
  rcases h with hqueue | hfailed | ⟨saving', hsaving', hkey, -⟩
  · exact .inl hqueue
  · exact .inr (.inl hfailed)
  · obtain rfl := mem_unique hsaving hsaving'
    exact .inr (.inr hkey)

lemma holds_notSaved {key : DirtyKey} (hretries : client.retryCount key + 1 < maxPersistRetries)
    (h : .thread e.1 ∈ run.queue ∨ .thread e.1 ∈ run.failed ∨ key = .thread e.1) :
    (client.notSaved run key).2.Holds e := by
  rw [CommentClient.notSaved, if_neg (Nat.not_le.2 hretries)]
  rcases h with hqueue | hfailed | rfl
  · exact .inl hqueue
  · exact .inr (.inl (mem_append_left _ hfailed))
  · exact .inr (.inl (mem_concat_self))

lemma PollingClient.CreatesNew.refused {bytes : List K → Nat} {now : Nat} {r : CommentRequest K}
    {error : StoreError} (h : s.CreatesNew r) (he : e ∈ s.unsaved) (hbrings : e ∈ r.brings)
    (hserve : serve bytes now s.store r = .error error) : toleratesError r error = false := by
  by_contra htolerated
  obtain ⟨id, anchor, comment, suggestion, rfl, hthread⟩ :=
    exists_thread_of_tolerated hserve (Bool.not_eq_false _ ▸ htolerated)
  rcases h with hnone | hnothing
  · rw [hnone] at hthread
    cases hthread
  · exact hnothing e he hbrings

namespace PollingClient.KeepsUnsaved

variable {next : CommentClient K × PersistRun K} {id : Nat}

section

variable (h : s.KeepsUnsaved)
include h

section

variable (hrun : s.runs[i]? = some run)
include hrun

lemma setRun (hmarked : next.1.dirty = s.client.dirty ∧ next.1.timer = s.client.timer)
    (hnext : ∀ e ∈ s.unsaved, run.Holds e → next.2.Holds e) : (s.setRun i next).KeepsUnsaved :=
  fun e he => ⟨(h e he).1, (h e he).2.setRun hrun hmarked (hnext e he)⟩

lemma nextKey [DecidableEq K] (hcarries : ∀ key ∈ run.queue.head?, s.CarriesAll key)
    (hnext : s.client.nextKey s.threads run = some next) : (s.setRun i next).KeepsUnsaved := by
  obtain ⟨key, rest, hsaving, hqueue, hnext⟩ := nextKey_eq_some hnext
  have hcarries : s.CarriesAll key := hcarries key (by rw [hqueue]; rfl)
  rcases hnext with ⟨hnone, rfl⟩ | ⟨saving, htoSave, rfl⟩
  · refine h.setRun hrun ⟨rfl, rfl⟩ fun e he hholds => ?_
    obtain ⟨⟨t, ht, hin⟩, -⟩ := h e he
    have hne : .thread e.1 ≠ key := by
      rintro rfl
      have hcarriable := hcarries t ht e he rfl
      rw [toSave_thread_eq_none hnone ht] at hcarriable
      exact not_carriable_self hin hcarriable
    rw [PersistRun.Holds, hqueue, mem_cons, or_iff_right hne] at hholds
    exact hholds
  · refine h.setRun hrun marked_resume fun e he hholds => ?_
    rw [PersistRun.Holds, hqueue, mem_cons, hsaving] at hholds
    rcases hholds with (rfl | hrest) | hfailed | ⟨saving', hsaving', -⟩
    · obtain ⟨t, ht, -, rfl⟩ := toSave_thread htoSave
      obtain ⟨⟨t', ht', hin⟩, -⟩ := h e he
      obtain rfl := mem_unique ht ht'
      obtain ⟨r, hr, hbrings⟩ := exists_brings_of_carriable hin (hcarries t ht e he rfl)
      exact holds_resume_of_brings rfl rfl hr hbrings
    · exact holds_resume_of_mem (.inl hrest)
    · exact holds_resume_of_mem (.inr hfailed)
    · cases hsaving'

lemma serve [DecidableEq K] {bytes : List K → Nat} {now : Nat} {saving : Saving K}
    (hsaving : run.saving = some saving) {r : CommentRequest K}
    (hr : saving.requests.head? = some r) (hnew : s.CreatesNew r) {next : CommentStore K × Saving K}
    (hnext : saving.served bytes now s.store = some next) :
    PollingClient.KeepsUnsaved { s with
      store := next.1
      runs := s.runs.set i { run with saving := some next.2 }
      unsaved := s.unsaved.filter (· ∉ accepted bytes now s.store r) } := by
  intro e hmem
  obtain ⟨he, hnot⟩ := mem_filter.1 hmem
  have hnot : e ∉ accepted bytes now s.store r := of_decide_eq_true hnot
  refine ⟨(h e he).1, (h e he).2.setRun hrun ⟨rfl, rfl⟩ fun hholds => ?_⟩
  obtain ⟨r', rest, hanswer, hrequests, hnext⟩ := Saving.served_eq_some hnext
  rw [hrequests] at hr
  cases hr
  rcases hholds with hqueue | hfailed | ⟨saving', hsaving', hkey, hheld⟩
  · exact .inl hqueue
  · exact .inr (.inl hfailed)
  · obtain rfl := mem_unique hsaving hsaving'
    rw [hanswer, Saving.unserved, hanswer, hrequests] at hheld
    obtain ⟨r', hr', hbrings⟩ := hheld.resolve_left (by simp)
    rcases hnext with ⟨cs', hserve, rfl⟩ | ⟨error, hserve, rfl⟩
    · refine .inr (.inr ⟨_, rfl, hkey, .inr ⟨r', ?_, hbrings⟩⟩)
      rcases mem_cons.1 hr' with rfl | hr'
      · exact absurd (by rwa [accepted, hserve]) hnot
      · rwa [Saving.unserved, hrequests]
    · refine .inr (.inr ⟨_, rfl, hkey, ?_⟩)
      rcases mem_cons.1 hr' with rfl | hr'
      · exact .inl (by rw [hnew.refused he hbrings hserve])
      · exact .inr ⟨r', by rwa [Saving.unserved, hrequests], hbrings⟩

lemma answer
    (hretries : ∀ saving ∈ run.saving, saving.answer = some false → s.RetriesLeft saving.key)
    (hnext : s.client.answered run = some next) : (s.setRun i next).KeepsUnsaved := by
  obtain ⟨saving, hsaving, accepted, hanswer, rfl⟩ := bind_map_eq_some.1 hnext
  cases accepted with
  | true =>
    refine h.setRun hrun marked_resume fun e he hholds => ?_
    rcases hholds with hqueue | hfailed | ⟨saving', hsaving', hkey, hheld⟩
    · exact holds_resume_of_mem (.inl hqueue)
    · exact holds_resume_of_mem (.inr hfailed)
    · obtain rfl := mem_unique hsaving hsaving'
      rw [hanswer] at hheld
      obtain ⟨r, hr, hbrings⟩ := hheld.resolve_left (by simp)
      rw [Saving.unserved, hanswer] at hr
      exact holds_resume_of_brings hkey rfl hr hbrings
  | false =>
    refine h.setRun hrun (marked_notSaved _) fun e he hholds => ?_
    exact holds_notSaved (hretries saving hsaving hanswer) (hholds.of_saving hsaving)

lemma lose (hretries : ∀ saving ∈ run.saving, s.RetriesLeft saving.key)
    (hnext : s.client.lost run = some next) : (s.setRun i next).KeepsUnsaved := by
  obtain ⟨saving, hsaving, rfl⟩ := map_eq_some_iff.1 hnext
  refine h.setRun hrun (marked_notSaved _) fun e he hholds => ?_
  exact holds_notSaved (hretries saving hsaving) (hholds.of_saving hsaving)

lemma finish [DecidableEq K] (hnext : s.client.finished run = some client) :
    PollingClient.KeepsUnsaved { s with client, runs := s.runs.eraseIdx i } := by
  obtain ⟨hsaving, hqueue, hdirty, htimer⟩ := finished_eq_some hnext
  refine fun e he => ⟨(h e he).1, ?_⟩
  rcases (h e he).2 with ⟨hmem, hset⟩ | ⟨held, hmem, hholds⟩
  · exact .inl ⟨hdirty _ (.inl hmem), htimer (.inl hset)⟩
  · obtain ⟨j, hj⟩ := mem_iff_getElem?.1 hmem
    by_cases hij : j = i
    · subst hij
      obtain rfl := mem_unique hrun hj
      rw [PersistRun.Holds, hqueue, hsaving] at hholds
      have hfailed : .thread e.1 ∈ run.failed := by simpa using hholds
      exact .inl ⟨hdirty _ (.inr hfailed), htimer (.inr (ne_nil_of_mem hfailed))⟩
    · exact .inr ⟨held, mem_eraseIdx_iff_getElem?.2 ⟨j, hij, hj⟩, hholds⟩

end

lemma write {t' : StoredThread K} {unsaved : List (Nat × Change K)}
    (hunsaved : ∀ e ∈ unsaved, e.1 = id ∧ e.2.In t' ∨ e.1 ≠ id ∧ e ∈ s.unsaved) :
    PollingClient.KeepsUnsaved { s.write id t' with unsaved } := by
  intro e he
  rcases hunsaved e he with ⟨rfl, hin⟩ | ⟨hid, he⟩
  · refine ⟨⟨t', update_self .., hin⟩, .inl ⟨mem_markDirty.2 (.inr rfl), rfl⟩⟩
  · obtain ⟨⟨t, ht, hin⟩, hscheduled⟩ := h e he
    exact ⟨⟨t, (update_of_ne hid ..).trans ht, hin⟩,
      hscheduled.mono (fun key hmem => mem_markDirty.2 (.inl hmem)) fun _ => rfl⟩

lemma call [DecidableEq K] {bytes : List K → Nat} {caller : Caller} {call : ThreadCall K}
    {t t' : StoredThread K} (ht : s.threads id = some t)
    (ht' : t.mutate bytes caller call = some t') :
    PollingClient.KeepsUnsaved { s.write id t' with
      unsaved := unsavedAfter s.unsaved id t t' caller call } := by
  refine h.write fun e he => ?_
  rcases mem_append.1 he with he | he
  · obtain ⟨he, hkept⟩ := mem_filter.1 he
    by_cases hid : e.1 = id
    · refine .inl ⟨hid, ?_⟩
      obtain ⟨⟨t₀, ht₀, hin⟩, -⟩ := h e he
      rw [hid] at ht₀
      obtain rfl := mem_unique ht ht₀
      rcases (of_decide_eq_true hkept).resolve_left (not_not.2 hid) with hpart | hin'
      · exact hin.mutate ht' hpart
      · exact hin'
    · exact .inr ⟨hid, he⟩
  · obtain ⟨change, hchange, rfl⟩ := mem_map.1 he
    exact .inl ⟨rfl, (of_decide_eq_true (mem_filter.1 hchange).2).1⟩

lemma takeOver (hidle : ¬s.Busy id) (thread : Option (StoredThread K)) {client : CommentClient K}
    (hdirty : ∀ key ∈ s.client.dirty, key ≠ .thread id → key ∈ client.dirty)
    (htimer : s.client.timer = true → client.timer = true)
    (fetched : List (Nat × CommentThread K)) :
    PollingClient.KeepsUnsaved { s with
      threads := update s.threads id thread, client, fetched } := by
  intro e he
  obtain ⟨⟨t, ht, hin⟩, hscheduled⟩ := h e he
  have hid : e.1 ≠ id := by
    rintro rfl
    exact hidle hscheduled.busy
  refine ⟨⟨t, (update_of_ne hid ..).trans ht, hin⟩, ?_⟩
  rcases hscheduled with ⟨hmem, hset⟩ | hrun
  · exact .inl ⟨hdirty _ hmem fun heq => hid (DirtyKey.thread.inj heq), htimer hset⟩
  · exact .inr hrun

end

variable [DecidableEq K] {bytes : List K → Nat} {a : PollingEvent K} {s' : PollingClient K}

lemma step (h : s.KeepsUnsaved) (hok : SavedBeforePolled s a)
    (hs : pollingStep bytes s a = some s') : s'.KeepsUnsaved := by
  cases a with
  | create id caller anchor startRel endRel comment suggestion =>
    obtain ⟨hnone, hs⟩ := ite_none_right_eq_some.1 hs
    obtain ⟨t, -, rfl⟩ := map_eq_some_iff.1 hs
    refine h.write fun e he => ?_
    rcases mem_append.1 he with hold | he
    · obtain ⟨⟨t', ht', -⟩, -⟩ := h e hold
      refine .inr ⟨fun hid => ?_, hold⟩
      rw [hid, hnone] at ht'
      cases ht'
    · obtain ⟨c, hc, rfl⟩ := mem_map.1 he
      exact .inl ⟨rfl, c, hc, rfl, rfl⟩
  | call id caller call =>
    obtain ⟨t, ht, t', ht', rfl⟩ := bind_map_eq_some.1 hs
    exact h.call ht ht'
  | delete id =>
    cases hs
    intro e he
    obtain ⟨he, hid⟩ := mem_filter.1 he
    have hid : e.1 ≠ id := of_decide_eq_true hid
    obtain ⟨⟨t, ht, hin⟩, hscheduled⟩ := h e he
    refine ⟨⟨t, (update_of_ne hid ..).trans ht, hin⟩, hscheduled.mono (fun key hmem => ?_)
      fun _ => rfl⟩
    refine mem_markDirty.2 (.inl ?_)
    split
    · exact mem_markDirty.2 (.inl hmem)
    · exact hmem
  | startPersist =>
    cases hs
    refine fun e he => ⟨(h e he).1, .inr ?_⟩
    rcases (h e he).2 with ⟨hdirty, -⟩ | ⟨run, hrun, hholds⟩
    · exact ⟨_, mem_concat_self, .inl hdirty⟩
    · exact ⟨run, mem_append_left _ hrun, hholds⟩
  | nextKey i =>
    obtain ⟨run, hrun, next, hnext, rfl⟩ := bind_map_eq_some.1 hs
    exact h.nextKey hrun (hok run hrun) hnext
  | serve i now =>
    obtain ⟨run, hrun, hs⟩ := bind_eq_some_iff.1 hs
    obtain ⟨saving, hsaving, hs⟩ := bind_eq_some_iff.1 hs
    obtain ⟨r, hr, next, hnext, rfl⟩ := bind_map_eq_some.1 hs
    exact h.serve hrun hsaving hr (hok run hrun saving hsaving r hr) hnext
  | answer i =>
    obtain ⟨run, hrun, next, hnext, rfl⟩ := bind_map_eq_some.1 hs
    exact h.answer hrun (hok run hrun) hnext
  | lose i =>
    obtain ⟨run, hrun, next, hnext, rfl⟩ := bind_map_eq_some.1 hs
    exact h.lose hrun (hok run hrun) hnext
  | serveStray i now =>
    obtain ⟨r, -, rfl⟩ := map_eq_some_iff.1 hs
    exact fun e he => h e (mem_of_mem_filter he)
  | finish i =>
    obtain ⟨run, hrun, client, hnext, rfl⟩ := bind_map_eq_some.1 hs
    exact h.finish hrun hnext
  | elsewhere store =>
    cases hs
    exact h
  | fetch id =>
    obtain ⟨_, -, rfl⟩ := map_eq_some_iff.1 hs
    exact h
  | reconcile i =>
    obtain ⟨f, hf, rfl⟩ := map_eq_some_iff.1 hs
    obtain ⟨hdirty, htimer⟩ := marked_insertThreadFromWire s.client (s.threads f.1) f.1 f.2
    exact h.takeOver (hok f hf) _ hdirty htimer _
  | reconcileDeleted id =>
    cases hs
    exact h.takeOver hok none (fun _ hmem _ => hmem) (fun hset => hset) s.fetched

end PollingClient.KeepsUnsaved

/-- In every run in which polls take over only what is not waiting to be saved, and saves bring all
that is unsaved, every unsaved change stays in its thread and scheduled. -/
theorem keepsUnsaved_of_savedBeforePolled [DecidableEq K] {bytes : List K → Nat}
    (hrun : Run (pollingStep bytes) SavedBeforePolled .initial s) : s.KeepsUnsaved :=
  hrun.invariant (P := PollingClient.KeepsUnsaved) (fun _ he => absurd he not_mem_nil)
    fun _ _ _ h hok hs => h.step hok hs

end

def pollingUser : Caller := ⟨1, 0, some ⟨true, true, [7], 100⟩⟩

def createSaved : List (PollingEvent Nat) :=
  [.create 1 pollingUser ⟨0, 1, [0x61]⟩ .textEnd .textEnd (some (10, [0x63])) none, .startPersist,
    .nextKey 0, .serve 0 1, .answer 0, .finish 0]

def otherThread : CommentThread Nat where
  anchor := ⟨0, 1, [0x61]⟩
  status := .opened
  comments := [10, 30].map fun id => { id, author := 2, content := [0x63], createdAt := 2 }
  suggestion := none
  createdAt := 1

/-- The reply of another comes in by a poll before the user replies, and a poll of another thread
while the user's reply is being saved, after a first try that failed. -/
theorem keepsUnsaved_savedReply :
    ∃ s : PollingClient Nat, Run (pollingStep length) SavedBeforePolled .initial s ∧
      (1, .content 11 [0x64]) ∈ s.unsaved ∧ (s.threads 2).isSome ∧ s.KeepsUnsaved :=
  exists_run_imp
    (createSaved ++ [.elsewhere fun _ => some otherThread, .fetch 1, .reconcile 0,
      .call 1 pollingUser (.addReply 11 [0x64]), .startPersist, .nextKey 0, .lose 0, .finish 0,
      .startPersist, .nextKey 0, .fetch 2, .reconcile 0])
    (P := fun s => (1, .content 11 [0x64]) ∈ s.unsaved ∧ (s.threads 2).isSome) (by decide +kernel)
    fun _ hrun ⟨hunsaved, hthread⟩ => ⟨hunsaved, hthread, keepsUnsaved_of_savedBeforePolled hrun⟩

/-- The user replies, edits, reacts and resolves while the answer to a poll is on its way: nothing
of that is left in the thread, nor to be saved. -/
theorem unsaved_lost_by_poll :
    ∃ s : PollingClient Nat, Run (pollingStep length) anyStep .initial s ∧
      ∀ change ∈ [.content 11 [0x64], .content 10 [0x65], .reaction none 1 7 true,
          .status .resolved],
        (1, change) ∈ s.unsaved ∧ (∃ t ∈ s.threads 1, ¬change.In t) ∧
        ¬Scheduled s.client s.runs (1, change) :=
  exists_run
    (createSaved ++ [.fetch 1, .call 1 pollingUser (.addReply 11 [0x64]),
      .call 1 pollingUser (.editComment 10 [0x65]), .call 1 pollingUser (.addReaction none 7),
      .call 1 pollingUser .resolveThread, .reconcile 0])
    (by decide +kernel)

end CollabEditor.Frontend
