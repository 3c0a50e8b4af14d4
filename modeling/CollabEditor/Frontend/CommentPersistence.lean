import CollabEditor.Support.Execution
import CollabEditor.StorageDemo.CommentStore
/-!
# Saving comment threads

`CommentEngine._persist`, against the comment store: a thread never saved is created with its first
comment, and of any other the new comments, the status and the decision are sent.  A thread whose
request fails is tried five times in all.  Runs do not overlap.
-/

namespace CollabEditor.Frontend

open Support Execution SharedText Function
open CollabEditor.StorageDemo (CommentStore CommentThread NewComment StoreError maxCommentBytes)

variable {K : Type}

/-! ## Requests -/

inductive CommentRequest (K : Type)
  | create (id : Nat) (anchor : CommentAnchor K) (comment : Option (NewComment K))
      (suggestion : Option (Suggestion K))
  | reply (id : Nat) (comment : NewComment K)
  | status (id : Nat) (status : ThreadStatus) (resolvedBy : Option Nat)
  | decision (id : Nat) (decision : SuggestionStatus) (decidedBy : Option Nat)
  | delete (id : Nat)

def newComment (c : Comment K) : NewComment K := ⟨c.id, c.author, c.content⟩

def createRequests (id : Nat) (stored : StoredThread K) : List (CommentRequest K) :=
  [.create id stored.anchor (stored.comments.head?.map newComment) stored.suggestion]

def newComments (prev stored : StoredThread K) : List (Comment K) :=
  stored.comments.filter fun c => !prev.comments.any (·.id == c.id) && c.deletedAt.isNone

def statusRequests (id : Nat) (prev stored : StoredThread K) : List (CommentRequest K) :=
  if prev.status ≠ stored.status then [.status id stored.status stored.resolvedBy] else []

def decisionRequests (id : Nat) (prev stored : StoredThread K) : List (CommentRequest K) :=
  match stored.suggestion with
  | some s =>
    if s.status ≠ .pending ∧ prev.suggestion.map (·.status) ≠ some s.status then
      [.decision id s.status s.decidedBy]
    else []
  | none => []

def updateRequests (id : Nat) (prev stored : StoredThread K) : List (CommentRequest K) :=
  (newComments prev stored).map (fun c => .reply id (newComment c)) ++
    (statusRequests id prev stored ++ decisionRequests id prev stored)

section

variable (bytes : List K → Nat) (now : Nat)

def serve (cs : CommentStore K) : CommentRequest K → Except StoreError (CommentStore K)
  | .create id anchor comment suggestion =>
    cs.createCommentThread bytes now id anchor comment suggestion
  | .reply id comment => cs.addReply bytes now id comment
  | .status id status resolvedBy => cs.updateThreadStatus now id status resolvedBy
  | .decision id decision decidedBy => cs.decideSuggestion now id decision decidedBy
  | .delete id => .ok (cs.deleteCommentThread id)

/-- That a thread exists already counts as success. -/
def toleratesError : CommentRequest K → StoreError → Bool
  | .create .., .threadExists => true
  | _, _ => false

/-- What becomes of a request on its way: it may not arrive, or its answer may not. -/
inductive Fate
  | served
  | lost
  | unanswered
  deriving DecidableEq

/-- Send requests one after the other up to the first that fails. Requests beyond the list of
fates are served. -/
def send (cs : CommentStore K) : List (CommentRequest K) → List Fate → CommentStore K × Bool
  | [], _ => (cs, true)
  | r :: rest, fates =>
    match fates.head?.getD .served, serve bytes now cs r with
    | .lost, _ => (cs, false)
    | .unanswered, .ok cs' => (cs', false)
    | .unanswered, .error _ => (cs, false)
    | .served, .ok cs' => send cs' rest fates.tail
    | .served, .error e => if toleratesError r e then send cs rest fates.tail else (cs, false)

end

/-! ## The client -/

inductive DirtyKey
  | thread (id : Nat)
  | deleted (id : Nat)
  deriving DecidableEq

/-- `queue` is what the run under way has still to go through, and `failed` what it has to put
back. `used` are the ids of all threads so far. -/
structure CommentSession (K : Type) where
  threads : Nat → Option (StoredThread K)
  dirty : List DirtyKey
  lastPersisted : Nat → Option (StoredThread K)
  retryCount : DirtyKey → Nat
  queue : List DirtyKey
  failed : List DirtyKey
  store : CommentStore K
  used : List Nat

inductive CommentEvent (K : Type)
  | create (id : Nat) (caller : Caller) (anchor : CommentAnchor K) (startRel endRel : Position)
      (comment : Option (Nat × List K)) (suggestion : Option (Suggestion K))
  | call (id : Nat) (caller : Caller) (call : ThreadCall K)
  | delete (id : Nat)
  | startPersist
  | persistNext (now : Nat) (fates : List Fate)
  | finishPersist

def markDirty (dirty : List DirtyKey) (key : DirtyKey) : List DirtyKey :=
  if key ∈ dirty then dirty else dirty ++ [key]

lemma mem_markDirty {dirty : List DirtyKey} {key k : DirtyKey} :
    k ∈ markDirty dirty key ↔ k ∈ dirty ∨ k = key := by
  rw [markDirty]
  split
  · rename_i hmem
    exact ⟨.inl, fun h => h.elim id fun heq => heq ▸ hmem⟩
  · simp

lemma mem_foldl_markDirty {keys dirty : List DirtyKey} {k : DirtyKey} :
    k ∈ keys.foldl markDirty dirty ↔ k ∈ dirty ∨ k ∈ keys := by
  induction keys generalizing dirty with
  | nil => simp
  | cons key keys ih => rw [List.foldl_cons, ih, mem_markDirty, List.mem_cons, or_assoc]

def maxPersistRetries : Nat := 5

namespace CommentSession

def initial : CommentSession K where
  threads _ := none
  dirty := []
  lastPersisted _ := none
  retryCount _ := 0
  queue := []
  failed := []
  store _ := none
  used := []

def saved (s : CommentSession K) (key : DirtyKey) : CommentSession K :=
  { s with retryCount := update s.retryCount key 0 }

def notSaved (s : CommentSession K) (key : DirtyKey) : CommentSession K :=
  let attempts := s.retryCount key + 1
  if attempts ≥ maxPersistRetries then s.saved key
  else { s with
    retryCount := update s.retryCount key attempts
    failed := s.failed ++ [key] }

variable [DecidableEq K] (bytes : List K → Nat)

def requests (s : CommentSession K) (id : Nat) (stored : StoredThread K) :
    List (CommentRequest K) :=
  match s.lastPersisted id with
  | none => createRequests id stored
  | some prev => updateRequests id prev stored

def persistKey (s : CommentSession K) (key : DirtyKey) (now : Nat) (fates : List Fate) :
    CommentSession K :=
  match key with
  | .deleted id =>
    let sent := send bytes now s.store [.delete id] fates
    let s := { s with store := sent.1 }
    if sent.2 then
      { s with lastPersisted := update s.lastPersisted id none }.saved key
    else s.notSaved key
  | .thread id =>
    match s.threads id with
    | none => s.saved key
    | some stored =>
      if s.lastPersisted id = some stored then s.saved key
      else
        let sent := send bytes now s.store (s.requests id stored) fates
        let s := { s with store := sent.1 }
        if sent.2 then
          { s with lastPersisted := update s.lastPersisted id (some stored) }.saved key
        else s.notSaved key

variable {bytes} {s : CommentSession K} {id now : Nat} {fates : List Fate}

lemma persistKey_unchanged (h : ∀ t, s.threads id = some t → s.lastPersisted id = some t) :
    s.persistKey bytes (.thread id) now fates = s.saved (.thread id) := by
  rw [persistKey]
  cases ht : s.threads id with
  | none => rfl
  | some t => exact if_pos (h t ht)

lemma persistKey_changed {t : StoredThread K} (ht : s.threads id = some t)
    (hne : s.lastPersisted id ≠ some t) : s.persistKey bytes (.thread id) now fates =
      if (send bytes now s.store (s.requests id t) fates).2 then { s with
          store := (send bytes now s.store (s.requests id t) fates).1
          lastPersisted := update s.lastPersisted id (some t) }.saved (.thread id) else
        { s with store := (send bytes now s.store (s.requests id t) fates).1 }.notSaved
          (.thread id) := by
  simp only [persistKey, ht, hne, if_false]

end CommentSession

section

variable [DecidableEq K] (bytes : List K → Nat)

def commentStep (s : CommentSession K) : CommentEvent K → Option (CommentSession K)
  | .create id caller anchor startRel endRel comment suggestion =>
    if id ∈ s.used then none
    else (createThread bytes caller anchor startRel endRel comment suggestion).map fun t =>
      { s with
        threads := update s.threads id (some t)
        dirty := markDirty s.dirty (.thread id)
        used := id :: s.used }
  | .call id caller call =>
    (s.threads id).bind fun t => (t.mutate bytes caller call).map fun t' =>
      { s with
        threads := update s.threads id (some t')
        dirty := markDirty s.dirty (.thread id) }
  | .delete id =>
    let dirty := if (s.threads id).isSome then markDirty s.dirty (.thread id) else s.dirty
    some { s with
      threads := update s.threads id none
      dirty := markDirty dirty (.deleted id)
      used := id :: s.used }
  | .startPersist =>
    if s.queue = [] ∧ s.failed = [] then some { s with queue := s.dirty, dirty := [] } else none
  | .persistNext now fates =>
    match s.queue with
    | [] => none
    | key :: rest => some ({ s with queue := rest }.persistKey bytes key now fates)
  | .finishPersist =>
    if s.queue = [] then
      some { s with dirty := s.failed.foldl markDirty s.dirty, failed := [] }
    else none

lemma commentStep_persistNext {bytes : List K → Nat} {s s' : CommentSession K} {now : Nat}
    {fates : List Fate} (hs : commentStep bytes s (.persistNext now fates) = some s') :
    ∃ key rest, s.queue = key :: rest ∧
      s' = { s with queue := rest }.persistKey bytes key now fates := by
  cases hqueue : s.queue with
  | nil => simp [commentStep, hqueue] at hs
  | cons key rest =>
    simp only [commentStep, hqueue, Option.some.injEq] at hs
    exact ⟨key, rest, rfl, hs.symm⟩

end

end CollabEditor.Frontend
