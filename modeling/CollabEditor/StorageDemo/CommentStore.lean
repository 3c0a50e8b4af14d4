import CollabEditor.Frontend.CommentEngine
/-!
# The comment store of the storage demo

`internal/storagedemo/comments_store.go`: one file for each thread of a document.  A thread and its
comments have the ids that the client gives them, which are valid ones.
-/

namespace CollabEditor.StorageDemo

open CollabEditor.Frontend Function

variable {K : Type}

structure CommentThread (K : Type) where
  anchor : CommentAnchor K
  status : ThreadStatus
  resolvedBy : Option Nat := none
  resolvedAt : Option Nat := none
  comments : List (Comment K)
  reactions : List Reaction := []
  suggestion : Option (Suggestion K)
  createdAt : Nat
  deriving DecidableEq

structure NewComment (K : Type) where
  id : Nat
  author : Nat
  content : List K
  deriving DecidableEq

inductive StoreError
  | tooLarge
  | threadExists
  | threadNotFound
  | noSuggestion
  | invalidDecision
  | commentNotFound
  | emojiNotAllowed

def CommentThread.decided (thread : CommentThread K) (now : Nat) (suggestion : Suggestion K)
    (decision : SuggestionStatus) (decidedBy : Option Nat) : CommentThread K :=
  { thread with
    suggestion := some { suggestion with status := decision, decidedBy, decidedAt := some now }
    status := .resolved
    resolvedAt := some now
    resolvedBy := decidedBy }

/-- The loop that changes the first comment with the id and returns; `none` if there is no
such comment. -/
def mapFirst (id : Nat) (f : Comment K → Comment K) :
    List (Comment K) → Option (List (Comment K))
  | [] => none
  | c :: rest => if c.id = id then some (f c :: rest) else (mapFirst id f rest).map (c :: ·)

/-- The body of a reaction request: without a comment it is about the thread. -/
structure ReactionRequest where
  commentId : Option Nat
  user : Nat
  emoji : Nat
  deriving DecidableEq

namespace ReactionRequest

def add (req : ReactionRequest) (now : Nat) (list : List Reaction) : List Reaction :=
  if list.any fun r => r.user == req.user && r.emoji == req.emoji then list
  else list ++ [⟨req.user, req.emoji, now⟩]

def remove (req : ReactionRequest) (list : List Reaction) : List Reaction :=
  list.filter fun r => !(r.user == req.user && r.emoji == req.emoji)

/-- The loop over the comments that both requests share. -/
def update (req : ReactionRequest) (f : List Reaction → List Reaction)
    (thread : CommentThread K) : CommentThread K :=
  match req.commentId with
  | none => { thread with reactions := f thread.reactions }
  | some id =>
    { thread with comments := thread.comments.map fun c =>
        if c.id = id then { c with reactions := f c.reactions } else c }

end ReactionRequest

abbrev CommentStore (K : Type) := Nat → Option (CommentThread K)

def maxCommentBytes : Nat := 10 * 1024

namespace CommentStore

variable (bytes : List K → Nat) (now : Nat)

def validateCommentContent (content : List K) : Except StoreError Unit :=
  if bytes content > maxCommentBytes then .error .tooLarge else .ok ()

/-- A text that a request may leave out is checked if it is there. -/
def validateIfPresent (content : Option (List K)) : Except StoreError Unit :=
  match content with
  | some content => validateCommentContent bytes content
  | none => .ok ()

def comment (c : NewComment K) : Comment K :=
  { id := c.id, author := c.author, content := c.content, createdAt := now }

def readThread (cs : CommentStore K) (id : Nat) : Except StoreError (CommentThread K) :=
  match cs id with
  | some thread => .ok thread
  | none => .error .threadNotFound

def writeThread (cs : CommentStore K) (id : Nat) (thread : CommentThread K) : CommentStore K :=
  update cs id (some thread)

def createCommentThread (cs : CommentStore K) (id : Nat) (anchor : CommentAnchor K)
    (new : Option (NewComment K)) (suggestion : Option (Suggestion K)) :
    Except StoreError (CommentStore K) := do
  validateIfPresent bytes (new.map (·.content))
  validateIfPresent bytes (suggestion.bind (·.authorNote))
  if (cs id).isSome then throw .threadExists
  return cs.writeThread id {
    anchor
    status := .opened
    comments := new.toList.map (comment now)
    suggestion
    createdAt := now }

def addReply (cs : CommentStore K) (id : Nat) (c : NewComment K) :
    Except StoreError (CommentStore K) := do
  validateCommentContent bytes c.content
  let thread ← cs.readThread id
  return cs.writeThread id { thread with comments := thread.comments ++ [comment now c] }

def updateThreadStatus (cs : CommentStore K) (id : Nat) (status : ThreadStatus)
    (resolvedBy : Option Nat) : Except StoreError (CommentStore K) := do
  let thread ← cs.readThread id
  match status with
  | .resolved =>
    return cs.writeThread id { thread with status := .resolved, resolvedAt := some now, resolvedBy }
  | .opened =>
    return cs.writeThread id
      { thread with status := .opened, resolvedAt := none, resolvedBy := none }

/-- A thread that is not there is deleted all the same. -/
def deleteCommentThread (cs : CommentStore K) (id : Nat) : CommentStore K :=
  update cs id none

/-- Nothing asks whether the suggestion is still pending. -/
def decideSuggestion (cs : CommentStore K) (id : Nat) (decision : SuggestionStatus)
    (decidedBy : Option Nat) : Except StoreError (CommentStore K) := do
  if decision = .pending then throw .invalidDecision
  let thread ← cs.readThread id
  match thread.suggestion with
  | none => throw .noSuggestion
  | some suggestion => return cs.writeThread id (thread.decided now suggestion decision decidedBy)

def changeComment (cs : CommentStore K) (id commentId : Nat) (f : Comment K → Comment K) :
    Except StoreError (CommentStore K) := do
  let thread ← cs.readThread id
  match mapFirst commentId f thread.comments with
  | none => throw .commentNotFound
  | some comments => return cs.writeThread id { thread with comments }

def updateComment (cs : CommentStore K) (id commentId : Nat) (content : List K) :
    Except StoreError (CommentStore K) := do
  validateCommentContent bytes content
  cs.changeComment id commentId fun c => { c with content, updatedAt := some now }

def deleteComment (cs : CommentStore K) (id commentId : Nat) :
    Except StoreError (CommentStore K) :=
  cs.changeComment id commentId fun c => { c with content := [], deletedAt := some now }

/-- `allowed` is the list of emoji the store is configured with. -/
def addReaction (allowed : List Nat) (cs : CommentStore K) (id : Nat) (req : ReactionRequest) :
    Except StoreError (CommentStore K) := do
  if !allowed.contains req.emoji then throw .emojiNotAllowed
  let thread ← cs.readThread id
  return cs.writeThread id (req.update (req.add now) thread)

def removeReaction (cs : CommentStore K) (id : Nat) (req : ReactionRequest) :
    Except StoreError (CommentStore K) := do
  let thread ← cs.readThread id
  return cs.writeThread id (req.update req.remove thread)

/-! ## What an operation comes to -/

variable {bytes now} {cs : CommentStore K} {id : Nat} {thread : CommentThread K}

@[simp] lemma writeThread_self (cs : CommentStore K) (id : Nat) (thread : CommentThread K) :
    cs.writeThread id thread id = some thread :=
  update_self ..

lemma writeThread_of_ne {id' : Nat} (h : id' ≠ id) (thread : CommentThread K) :
    cs.writeThread id thread id' = cs id' :=
  update_of_ne h ..

@[simp] lemma writeThread_writeThread (cs : CommentStore K) (id : Nat)
    (thread thread' : CommentThread K) :
    (cs.writeThread id thread).writeThread id thread' = cs.writeThread id thread' :=
  update_idem ..

lemma writeThread_eq_self (h : cs id = some thread) : cs.writeThread id thread = cs := by
  rw [writeThread, ← h, update_eq_self]

lemma validateCommentContent_eq_ok {content : List K} (h : bytes content ≤ maxCommentBytes) :
    validateCommentContent bytes content = .ok () :=
  if_neg (Nat.not_lt.2 h)

lemma validateIfPresent_eq_ok {content : Option (List K)}
    (h : ∀ c ∈ content, bytes c ≤ maxCommentBytes) : validateIfPresent bytes content = .ok () := by
  cases content with
  | none => rfl
  | some c => exact validateCommentContent_eq_ok (h c rfl)

variable {anchor : CommentAnchor K} {new : Option (NewComment K)}
  {suggestion : Option (Suggestion K)} {cs' : CommentStore K}

lemma createCommentThread_eq_ok (hnew : ∀ c ∈ new.map (·.content), bytes c ≤ maxCommentBytes)
    (hnote : ∀ note ∈ suggestion.bind (·.authorNote), bytes note ≤ maxCommentBytes)
    (hnone : cs id = none) :
    cs.createCommentThread bytes now id anchor new suggestion = .ok (cs.writeThread id {
      anchor, status := .opened, comments := new.toList.map (comment now), suggestion,
      createdAt := now }) := by
  simp [createCommentThread, validateIfPresent_eq_ok hnew, validateIfPresent_eq_ok hnote,
    hnone, bind, Except.bind, pure, Except.pure]

lemma addReply_eq_ok {c : NewComment K} (hc : bytes c.content ≤ maxCommentBytes)
    (hthread : cs id = some thread) : cs.addReply bytes now id c = .ok (cs.writeThread id
      { thread with comments := thread.comments ++ [comment now c] }) := by
  simp [addReply, readThread, hthread, validateCommentContent_eq_ok hc, bind, Except.bind, pure,
    Except.pure]

lemma updateThreadStatus_eq_ok (status : ThreadStatus) (resolvedBy : Option Nat)
    (hthread : cs id = some thread) :
    ∃ resolvedBy' resolvedAt, cs.updateThreadStatus now id status resolvedBy =
      .ok (cs.writeThread id { thread with status, resolvedBy := resolvedBy', resolvedAt }) := by
  cases status <;>
    simp only [updateThreadStatus, readThread, hthread, bind, Except.bind, pure, Except.pure] <;>
    exact ⟨_, _, rfl⟩

lemma createCommentThread_ok
    (h : cs.createCommentThread bytes now id anchor new suggestion = .ok cs') :
    cs id = none ∧ cs' = cs.writeThread id {
      anchor, status := .opened, comments := new.toList.map (comment now), suggestion,
      createdAt := now } := by
  simp only [createCommentThread, bind, Except.bind, pure, Except.pure, throw, throwThe,
    MonadExceptOf.throw] at h
  split at h
  · cases h
  · split at h
    · cases h
    · split at h
      · cases h
      · rename_i hnone
        exact ⟨Option.not_isSome_iff_eq_none.1 hnone, (Except.ok.inj h).symm⟩

lemma validateIfPresent_ne_threadExists (content : Option (List K)) :
    validateIfPresent bytes content ≠ .error .threadExists := by
  cases content with
  | none => simp [validateIfPresent]
  | some content =>
    rw [validateIfPresent, validateCommentContent]
    split <;> simp

lemma createCommentThread_threadExists
    (h : cs.createCommentThread bytes now id anchor new suggestion = .error .threadExists) :
    (cs id).isSome := by
  simp only [createCommentThread, bind, Except.bind, pure, Except.pure, throw, throwThe,
    MonadExceptOf.throw] at h
  split at h
  · rename_i e he
    obtain rfl := Except.error.inj h
    exact absurd he (validateIfPresent_ne_threadExists _)
  · split at h
    · rename_i e he
      obtain rfl := Except.error.inj h
      exact absurd he (validateIfPresent_ne_threadExists _)
    · split at h
      · assumption
      · cases h

lemma addReply_ok {c : NewComment K} (h : cs.addReply bytes now id c = .ok cs') :
    ∃ thread, cs id = some thread ∧
      cs' = cs.writeThread id { thread with comments := thread.comments ++ [comment now c] } := by
  simp only [addReply, readThread, bind, Except.bind, pure, Except.pure] at h
  split at h
  · cases h
  · cases hthread : cs id with
    | none =>
      rw [hthread] at h
      cases h
    | some thread =>
      rw [hthread] at h
      exact ⟨thread, rfl, (Except.ok.inj h).symm⟩

lemma updateThreadStatus_ok {status : ThreadStatus} {resolvedBy : Option Nat}
    (h : cs.updateThreadStatus now id status resolvedBy = .ok cs') :
    ∃ thread resolvedBy' resolvedAt, cs id = some thread ∧
      cs' = cs.writeThread id { thread with status, resolvedBy := resolvedBy', resolvedAt } := by
  cases hthread : cs id with
  | none => simp [updateThreadStatus, readThread, hthread, bind, Except.bind] at h
  | some thread =>
    obtain ⟨by', at', hok⟩ := updateThreadStatus_eq_ok status resolvedBy hthread
    exact ⟨thread, by', at', rfl, Except.ok.inj (h.symm.trans hok)⟩

lemma decideSuggestion_eq_ok_iff {decision : SuggestionStatus} {decidedBy : Option Nat} :
    cs.decideSuggestion now id decision decidedBy = .ok cs' ↔
      decision ≠ .pending ∧ ∃ thread, cs id = some thread ∧
        ∃ suggestion, thread.suggestion = some suggestion ∧
          cs' = cs.writeThread id (thread.decided now suggestion decision decidedBy) := by
  simp only [decideSuggestion, readThread, bind, Except.bind, pure, Except.pure, throw, throwThe,
    MonadExceptOf.throw]
  by_cases hdecision : decision = .pending
  · simp [hdecision]
  · cases cs id with
    | none => simp [hdecision]
    | some thread =>
      cases hsuggestion : thread.suggestion with
      | none => simp [hdecision, hsuggestion]
      | some suggestion => simp [hdecision, hsuggestion, eq_comm]

end CommentStore

end CollabEditor.StorageDemo
