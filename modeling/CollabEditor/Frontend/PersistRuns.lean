import CollabEditor.Frontend.CommentPersistence
/-!
# Persist runs, request by request

`CommentEngine._persist` waits for the answer to each request, and meanwhile calls, polls and
further runs go on.  What a poll has fetched takes the place of the client's thread.
-/

namespace CollabEditor.Frontend

open CollabEditor.StorageDemo (CommentStore CommentThread)

variable {K : Type}

def DirtyKey.threadId : DirtyKey → Nat
  | .thread id => id
  | .deleted id => id

/-- The key that a run is at. The first of the requests is on its way; `answer` is the server's
answer to it, once there is one, and says whether the client goes on. -/
structure Saving (K : Type) where
  key : DirtyKey
  snapshot : Option (StoredThread K)
  requests : List (CommentRequest K)
  answer : Option Bool := none

structure PersistRun (K : Type) where
  queue : List DirtyKey
  saving : Option (Saving K) := none
  failed : List DirtyKey := []

/-- What the client keeps between runs. With `timer` set, a run is going to start. -/
structure CommentClient (K : Type) where
  dirty : List DirtyKey
  timer : Bool
  lastPersisted : Nat → Option (StoredThread K)
  retryCount : DirtyKey → Nat

/-! ## The server's side -/

namespace Saving

def served (bytes : List K → Nat) (now : Nat) (cs : CommentStore K) (saving : Saving K) :
    Option (CommentStore K × Saving K) :=
  match saving.answer, saving.requests with
  | none, r :: _ =>
    match serve bytes now cs r with
    | .ok cs' => some (cs', { saving with answer := some true })
    | .error e => some (cs, { saving with answer := some (toleratesError r e) })
  | _, _ => none

def unserved (saving : Saving K) : List (CommentRequest K) :=
  match saving.answer with
  | none => saving.requests
  | some _ => saving.requests.tail

def onItsWay (saving : Saving K) : List (CommentRequest K) :=
  match saving.answer with
  | none => saving.requests.head?.toList
  | some _ => []

lemma served_eq_some {bytes : List K → Nat} {now : Nat} {cs : CommentStore K}
    {saving : Saving K} {next : CommentStore K × Saving K}
    (h : saving.served bytes now cs = some next) :
    ∃ r rest, saving.answer = none ∧ saving.requests = r :: rest ∧
      ((∃ cs', serve bytes now cs r = .ok cs' ∧ next = (cs', { saving with answer := some true })) ∨
        ∃ e, serve bytes now cs r = .error e ∧
          next = (cs, { saving with answer := some (toleratesError r e) })) := by
  rw [served] at h
  split at h
  · rename_i r rest hanswer hrequests
    refine ⟨r, rest, hanswer, hrequests, ?_⟩
    split at h
    · rename_i cs' hserve
      exact .inl ⟨cs', hserve, (Option.some.inj h).symm⟩
    · rename_i e hserve
      exact .inr ⟨e, hserve, (Option.some.inj h).symm⟩
  · cases h

end Saving

def PersistRun.unserved (run : PersistRun K) : List (CommentRequest K) :=
  run.saving.elim [] Saving.unserved

def PersistRun.onItsWay (run : PersistRun K) : List (CommentRequest K) :=
  run.saving.elim [] Saving.onItsWay

open scoped List in
lemma PersistRun.onItsWay_sublist (run : PersistRun K) : run.onItsWay <+ run.unserved := by
  rw [onItsWay, unserved]
  cases run.saving with
  | none => exact .slnil
  | some saving =>
    simp only [Option.elim_some, Saving.onItsWay, Saving.unserved]
    cases saving.answer with
    | none => cases saving.requests <;> simp
    | some accepted => exact List.nil_sublist _

/-! ## The client's side -/

namespace CommentClient

def initial : CommentClient K where
  dirty := []
  timer := false
  lastPersisted _ := none
  retryCount _ := 0

def mark (client : CommentClient K) (key : DirtyKey) : CommentClient K :=
  { client with dirty := markDirty client.dirty key, timer := true }

def drained (client : CommentClient K) : CommentClient K :=
  { client with dirty := [], timer := false }

def startPersist (client : CommentClient K) : CommentClient K × PersistRun K :=
  (client.drained, { queue := client.dirty })

def saved (client : CommentClient K) (key : DirtyKey) : CommentClient K :=
  { client with retryCount := Function.update client.retryCount key 0 }

def notSaved (client : CommentClient K) (run : PersistRun K) (key : DirtyKey) :
    CommentClient K × PersistRun K :=
  let attempts := client.retryCount key + 1
  if attempts ≥ maxPersistRetries then (client.saved key, run)
  else
    ({ client with retryCount := Function.update client.retryCount key attempts },
      { run with failed := run.failed ++ [key] })

def requests (client : CommentClient K) (id : Nat) (stored : StoredThread K) :
    List (CommentRequest K) :=
  match client.lastPersisted id with
  | none => createRequests id stored
  | some prev => updateRequests id prev stored

/-- What there is to save under the key, if anything; `read` are the threads of the client. -/
def toSave [DecidableEq K] (client : CommentClient K) (read : Nat → Option (StoredThread K)) :
    DirtyKey → Option (Saving K)
  | .deleted id => some { key := .deleted id, snapshot := none, requests := [.delete id] }
  | .thread id => (read id).bind fun stored =>
    if client.lastPersisted id = some stored then none
    else some {
      key := .thread id, snapshot := some stored, requests := client.requests id stored }

def resume (client : CommentClient K) (run : PersistRun K) (saving : Saving K) :
    CommentClient K × PersistRun K :=
  match saving.requests with
  | [] =>
    ({ client with lastPersisted :=
        Function.update client.lastPersisted saving.key.threadId saving.snapshot }.saved saving.key,
      { run with saving := none })
  | _ :: _ => (client, { run with saving := some saving })

def nextKey [DecidableEq K] (client : CommentClient K) (read : Nat → Option (StoredThread K))
    (run : PersistRun K) : Option (CommentClient K × PersistRun K) :=
  match run.saving, run.queue with
  | none, key :: rest =>
    match client.toSave read key with
    | none => some (client.saved key, { run with queue := rest })
    | some saving => some (client.resume { run with queue := rest } saving)
  | _, _ => none

def answered (client : CommentClient K) (run : PersistRun K) :
    Option (CommentClient K × PersistRun K) :=
  run.saving.bind fun saving => saving.answer.map fun accepted =>
    if accepted then
      client.resume run { saving with requests := saving.requests.tail, answer := none }
    else client.notSaved { run with saving := none } saving.key

def lost (client : CommentClient K) (run : PersistRun K) :
    Option (CommentClient K × PersistRun K) :=
  run.saving.map fun saving => client.notSaved { run with saving := none } saving.key

def finished [DecidableEq K] (client : CommentClient K) (run : PersistRun K) :
    Option (CommentClient K) :=
  if run.saving = none ∧ run.queue = [] then
    if run.failed = [] then some client
    else some { client with dirty := run.failed.foldl markDirty client.dirty, timer := true }
  else none

/-! ### What a step of a run comes to -/

variable {client : CommentClient K} {run : PersistRun K} {saving : Saving K}

lemma unserved_resume (h : saving.answer = none) :
    (client.resume run saving).2.unserved = saving.requests := by
  rw [resume]
  split
  · rename_i hnil
    exact hnil.symm
  · simp [PersistRun.unserved, Saving.unserved, h]

lemma unserved_notSaved (key : DirtyKey) :
    (client.notSaved run key).2.unserved = run.unserved := by
  rw [notSaved]
  split <;> rfl

lemma marked_resume : (client.resume run saving).1.dirty = client.dirty ∧
    (client.resume run saving).1.timer = client.timer := by
  rw [resume]
  split <;> exact ⟨rfl, rfl⟩

lemma marked_notSaved (key : DirtyKey) : (client.notSaved run key).1.dirty = client.dirty ∧
    (client.notSaved run key).1.timer = client.timer := by
  rw [notSaved]
  split <;> exact ⟨rfl, rfl⟩

variable {read : Nat → Option (StoredThread K)}

lemma nextKey_eq_some [DecidableEq K] {next : CommentClient K × PersistRun K}
    (h : client.nextKey read run = some next) :
    ∃ key rest, run.saving = none ∧ run.queue = key :: rest ∧
      (client.toSave read key = none ∧ next = (client.saved key, { run with queue := rest }) ∨
        ∃ saving, client.toSave read key = some saving ∧
          next = client.resume { run with queue := rest } saving) := by
  rw [nextKey] at h
  split at h
  · rename_i key rest hsaving hqueue
    refine ⟨key, rest, hsaving, hqueue, ?_⟩
    split at h
    · rename_i hnone
      exact .inl ⟨hnone, (Option.some.inj h).symm⟩
    · rename_i saving hsome
      exact .inr ⟨saving, hsome, (Option.some.inj h).symm⟩
  · cases h

lemma toSave_thread [DecidableEq K] {id : Nat} (h : client.toSave read (.thread id) = some saving) :
    ∃ stored, read id = some stored ∧ client.lastPersisted id ≠ some stored ∧ saving = {
        key := .thread id, snapshot := some stored, requests := client.requests id stored } := by
  obtain ⟨stored, hread, h⟩ := Option.bind_eq_some_iff.1 h
  obtain ⟨hne, h⟩ := Option.ite_none_left_eq_some.1 h
  exact ⟨stored, hread, hne, (Option.some.inj h).symm⟩

lemma toSave_thread_eq_none [DecidableEq K] {id : Nat} {stored : StoredThread K}
    (h : client.toSave read (.thread id) = none) (hread : read id = some stored) :
    client.lastPersisted id = some stored := by
  by_contra hne
  simp [toSave, hread, hne] at h

lemma finished_eq_some [DecidableEq K] {next : CommentClient K}
    (h : client.finished run = some next) : run.saving = none ∧ run.queue = [] ∧
      (∀ key, key ∈ client.dirty ∨ key ∈ run.failed → key ∈ next.dirty) ∧
      (client.timer = true ∨ run.failed ≠ [] → next.timer = true) := by
  obtain ⟨⟨hsaving, hqueue⟩, h⟩ := Option.ite_none_right_eq_some.1 h
  refine ⟨hsaving, hqueue, ?_⟩
  split at h
  · rename_i hfailed
    cases h
    simp [hfailed]
  · cases h
    exact ⟨fun _ => mem_foldl_markDirty.2, fun _ => rfl⟩

end CommentClient

/-! ## Polling -/

/-- The thread of the server with the suggestion given, as the client keeps it. -/
def wireThread (thread : CommentThread K) (suggestion : Option (Suggestion K)) :
    StoredThread K where
  anchor := thread.anchor
  startRel := none
  endRel := none
  status := thread.status
  resolvedBy := thread.resolvedBy
  resolvedAt := thread.resolvedAt
  suggestion := suggestion
  comments := thread.comments
  reactions := thread.reactions
  createdAt := thread.createdAt

/-- The suggestion of the client that has been decided when for the server it is still pending, or
not there. -/
def keptDecision (existing : Option (StoredThread K)) (thread : CommentThread K) :
    Option (Suggestion K) :=
  (existing.bind (·.suggestion)).filter fun s =>
    s.status ≠ .pending ∧ ∀ wire ∈ thread.suggestion, wire.status = .pending

/-- `_insertThreadFromWire`: of the client's thread only a decision is kept. -/
def CommentClient.insertThreadFromWire (client : CommentClient K)
    (existing : Option (StoredThread K)) (id : Nat) (thread : CommentThread K) :
    CommentClient K × StoredThread K :=
  let client := { client with
    lastPersisted := Function.update client.lastPersisted id
      (some (wireThread thread thread.suggestion))
    dirty := client.dirty.filter (· ≠ .thread id) }
  match keptDecision existing thread with
  | some s => (client.mark (.thread id), wireThread thread (some s))
  | none => (client, wireThread thread thread.suggestion)

lemma insertThreadFromWire_keeps (client : CommentClient K) (existing : Option (StoredThread K))
    (id : Nat) (thread : CommentThread K) :
    let t := (client.insertThreadFromWire existing id thread).2
    t.comments = thread.comments ∧ t.anchor = thread.anchor ∧ t.startRel = none ∧
      t.endRel = none := by
  rw [CommentClient.insertThreadFromWire]
  split <;> exact ⟨rfl, rfl, rfl, rfl⟩

lemma marked_insertThreadFromWire (client : CommentClient K) (existing : Option (StoredThread K))
    (id : Nat) (thread : CommentThread K) : (∀ key ∈ client.dirty, key ≠ .thread id →
        key ∈ (client.insertThreadFromWire existing id thread).1.dirty) ∧
      (client.timer = true → (client.insertThreadFromWire existing id thread).1.timer = true) := by
  have hfilter {key : DirtyKey} (hmem : key ∈ client.dirty) (hne : key ≠ .thread id) :
      key ∈ client.dirty.filter (· ≠ .thread id) :=
    List.mem_filter.2 ⟨hmem, decide_eq_true hne⟩
  rw [CommentClient.insertThreadFromWire]
  split
  · exact ⟨fun key hmem hne => mem_markDirty.2 (.inl (hfilter hmem hne)), fun _ => rfl⟩
  · exact ⟨fun key hmem hne => hfilter hmem hne, fun hset => hset⟩

end CollabEditor.Frontend
