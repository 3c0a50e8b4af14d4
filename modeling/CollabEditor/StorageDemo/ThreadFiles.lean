import CollabEditor.Support.Execution
import CollabEditor.Support.FaultyFiles
import CollabEditor.Support.Utf8
import CollabEditor.StorageDemo.CommentStore
import CollabEditor.StorageDemo.Disk
/-!
# The files of the comment threads

The operations of `CommentStore` in `internal/storagedemo/comments_store.go`, on one file for each
thread.  Reading and writing may fail, and a write that fails may have damaged the file.  Strings
are bytes; JSON is what a text reads once it has been written and read back.
-/

namespace CollabEditor.StorageDemo.ThreadFiles

open Support FaultyFiles Execution Utf8
open CollabEditor.Frontend (ThreadStatus)

abbrev Text := List UInt8

def bytesOf (literal : String) : Text := literal.toList.map fun c => UInt8.ofNat c.toNat

/-- Each byte as the character of that number, for patterns that only know ASCII. -/
def asChars (text : Text) : List Char := text.map fun b => Char.ofNat b.toNat

def validDocID (docID : Text) : Bool := validateDocID (asChars docID)

def validUUID (id : Text) : Bool := Disk.validUUID (asChars id)

/-! ## Data -/

structure Mention where
  userID : Text
  displayName : Text
  deriving DecidableEq

structure Reaction where
  userID : Text
  userName : Text
  emoji : Text
  createdAt : Nat
  deriving DecidableEq

structure Comment where
  id : Text
  threadID : Text
  authorID : Text
  authorName : Text
  content : Text
  mentions : List Mention
  reactions : List Reaction := []
  createdAt : Nat
  updatedAt : Option Nat := none
  deletedAt : Option Nat := none
  deriving DecidableEq

structure CommentAnchor where
  start : Int
  stop : Int
  quotedText : Text
  deriving DecidableEq

structure OperationSummary where
  kind : Text
  offset : Int
  length : Int
  insertedText : Text
  formatChange : Text
  deriving DecidableEq

structure SuggestionView where
  summary : Text
  beforeText : Text
  afterText : Text
  operations : List OperationSummary
  deriving DecidableEq

/-- The status is what a request says, or `pending`. -/
structure Suggestion where
  yjsPayload : Text
  humanReadable : SuggestionView
  authorID : Text
  authorName : Text
  authorNote : Text
  status : Text
  decidedBy : Text
  decidedAt : Option Nat
  appliedVersionID : Text
  deriving DecidableEq

structure CommentThread where
  id : Text
  documentID : Text
  anchor : CommentAnchor
  status : ThreadStatus
  createdAt : Nat
  resolvedAt : Option Nat := none
  resolvedBy : Text := []
  comments : List Comment
  reactions : List Reaction := []
  suggestion : Option Suggestion
  deriving DecidableEq

/-! ### JSON -/

/-- Bytes that are no UTF-8 are replaced, once and for all; ASCII is kept, nothing is left out. -/
structure Json where
  clean : Text → Text
  idempotent : ∀ text, clean (clean text) = clean text
  ascii : ∀ text, (∀ b ∈ text, b < 0x80) → clean text = text
  eq_nil : ∀ text, clean text = [] → text = []

/-- What `encoding/json` does. -/
def Json.encoding : Json where
  clean := replaceInvalid
  idempotent _ := replaceInvalid_of_valid (valid_replaceInvalid _)
  ascii := fun _ h => replaceInvalid_of_valid (valid_of_ascii h)
  eq_nil := fun _ => eq_nil_of_replaceInvalid

section

variable (json : Json)

def Mention.clean (m : Mention) : Mention := ⟨json.clean m.userID, json.clean m.displayName⟩

def Reaction.clean (r : Reaction) : Reaction :=
  { r with
    userID := json.clean r.userID
    userName := json.clean r.userName
    emoji := json.clean r.emoji }

def Comment.clean (c : Comment) : Comment :=
  { c with
    id := json.clean c.id
    threadID := json.clean c.threadID
    authorID := json.clean c.authorID
    authorName := json.clean c.authorName
    content := json.clean c.content
    mentions := c.mentions.map (·.clean json)
    reactions := c.reactions.map (·.clean json) }

def OperationSummary.clean (o : OperationSummary) : OperationSummary :=
  { o with
    kind := json.clean o.kind
    insertedText := json.clean o.insertedText
    formatChange := json.clean o.formatChange }

def SuggestionView.clean (v : SuggestionView) : SuggestionView where
  summary := json.clean v.summary
  beforeText := json.clean v.beforeText
  afterText := json.clean v.afterText
  operations := v.operations.map (·.clean json)

def Suggestion.clean (s : Suggestion) : Suggestion where
  yjsPayload := json.clean s.yjsPayload
  humanReadable := s.humanReadable.clean json
  authorID := json.clean s.authorID
  authorName := json.clean s.authorName
  authorNote := json.clean s.authorNote
  status := json.clean s.status
  decidedBy := json.clean s.decidedBy
  decidedAt := s.decidedAt
  appliedVersionID := json.clean s.appliedVersionID

def CommentThread.clean (t : CommentThread) : CommentThread :=
  { t with
    id := json.clean t.id
    documentID := json.clean t.documentID
    anchor := { t.anchor with quotedText := json.clean t.anchor.quotedText }
    resolvedBy := json.clean t.resolvedBy
    comments := t.comments.map (·.clean json)
    reactions := t.reactions.map (·.clean json)
    suggestion := t.suggestion.map (·.clean json) }

end

/-! ### Requests -/

structure NewComment where
  id : Text
  authorID : Text
  authorName : Text
  content : Text
  mentions : List Mention

structure CreateCommentThreadRequest where
  id : Text
  anchor : CommentAnchor
  comment : Option NewComment
  suggestion : Option Suggestion

structure UpdateThreadStatusRequest where
  status : Text
  resolvedBy : Text

/-- Who edits is not read. -/
structure UpdateCommentRequest where
  content : Text
  mentions : List Mention

structure ReactionRequest where
  commentID : Text
  userID : Text
  userName : Text
  emoji : Text

structure SuggestionDecisionRequest where
  decision : Text
  decidedBy : Text
  appliedVersionID : Text

inductive StoreError
  | invalidDocumentID
  | missingRequestBody
  | exceedsMaxSize
  | creatingThreadsDir
  | commentIDRequired
  | invalidThreadID
  | invalidCommentID
  | invalidID
  | commentThreadExists
  | threadNotFound
  | commentNotFound
  | emojiNotAllowed (emoji : Text)
  | invalidDecision (decision : Text)
  | noSuggestion
  | readThread
  | unmarshalThread
  | writeThread
  | deleteThread
  deriving DecidableEq

inductive Response
  | thread (thread : CommentThread)
  | comment (comment : Comment)
  | none
  deriving DecidableEq

/-! ## Operations -/

/-- The document and the thread in the path of a file. -/
abbrev Key := Text × Text

/-- What the file system makes of a call. -/
structure Io where
  mkdir : Bool := true
  read : Bool := true
  write : WriteOutcome := .done
  remove : Bool := true

/-- What a call that has passed its checks does to the files. -/
inductive Target
  | write (thread : CommentThread)
  | remove (threadID : Text)

abbrev Planned := Except StoreError (Target × Response)

def require (holds : Bool) (e : StoreError) : Except StoreError Unit :=
  if holds then .ok () else .error e

def body {α : Type} (req : Option α) : Except StoreError α :=
  match req with
  | none => .error .missingRequestBody
  | some req => .ok req

def validateCommentContent (content : Text) : Except StoreError Unit :=
  require (content.length ≤ maxCommentBytes) .exceedsMaxSize

def reactions : List Text :=
  ["thumbsup", "heart", "laugh", "confused", "celebrate"].map bytesOf

section

variable (files : Files Key CommentThread) (io : Io) (now : Nat)

def readThread (key : Key) : Except StoreError (Option CommentThread) :=
  if io.read then
    match files key with
    | none => .ok none
    | some (.whole thread) => .ok (some thread)
    | some .damaged => .error .unmarshalThread
  else .error .readThread

def newComment (threadID : Text) (c : NewComment) : Comment where
  id := c.id
  threadID := threadID
  authorID := c.authorID
  authorName := c.authorName
  content := c.content
  mentions := c.mentions
  createdAt := now

def checkCommentID (id : Text) : Except StoreError Unit := do
  require (id ≠ []) .commentIDRequired
  require (validUUID id) .invalidCommentID

def initialComments (threadID : Text) : Option NewComment → Except StoreError (List Comment)
  | none => .ok []
  | some c => do
      checkCommentID c.id
      return [newComment now threadID c]

def Suggestion.orPending (s : Suggestion) : Suggestion :=
  if s.status = [] then { s with status := bytesOf "pending" } else s

def createCommentThread (docID : Text) (req : Option CreateCommentThreadRequest) : Planned := do
  require (validDocID docID) .invalidDocumentID
  let req ← body req
  validateCommentContent ((req.comment.map (·.content)).getD [])
  validateCommentContent ((req.suggestion.map (·.authorNote)).getD [])
  require io.mkdir .creatingThreadsDir
  require (req.id ≠ []) .commentIDRequired
  require (validUUID req.id) .invalidThreadID
  let existing ← readThread files io (docID, req.id)
  require existing.isNone .commentThreadExists
  let comments ← initialComments now req.id req.comment
  let thread : CommentThread := {
    id := req.id
    documentID := docID
    anchor := req.anchor
    status := .opened
    createdAt := now
    comments := comments
    suggestion := req.suggestion.map Suggestion.orPending }
  return (.write thread, .thread thread)

/-- The operations on a thread that is there: `change` is what they do to it. -/
def changeThread (key : Key)
    (change : CommentThread → Except StoreError (CommentThread × Response)) : Planned := do
  match ← readThread files io key with
  | none => .error .threadNotFound
  | some thread =>
    let (thread, response) ← change thread
    return (.write thread, response)

def replyTo (req : NewComment) (threadID : Text) (thread : CommentThread) :
    Except StoreError (CommentThread × Response) := do
  checkCommentID req.id
  let comment := newComment now threadID req
  return ({ thread with comments := thread.comments ++ [comment] }, .comment comment)

def addReply (docID threadID : Text) (req : Option NewComment) : Planned := do
  require (validDocID docID) .invalidDocumentID
  require (validUUID threadID) .invalidThreadID
  let req ← body req
  validateCommentContent req.content
  changeThread files io (docID, threadID) (replyTo now req threadID)

def setStatus (req : UpdateThreadStatusRequest) (thread : CommentThread) : CommentThread :=
  if req.status = bytesOf "resolved" then
    { thread with status := .resolved, resolvedAt := some now, resolvedBy := req.resolvedBy }
  else { thread with status := .opened, resolvedAt := none, resolvedBy := [] }

def updateThreadStatus (docID threadID : Text) (req : Option UpdateThreadStatusRequest) :
    Planned := do
  require (validDocID docID) .invalidDocumentID
  require (validUUID threadID) .invalidThreadID
  let req ← body req
  changeThread files io (docID, threadID) fun thread =>
    .ok (setStatus now req thread, .thread (setStatus now req thread))

def deleteCommentThread (docID threadID : Text) : Planned := do
  require (validDocID docID) .invalidDocumentID
  require (validUUID threadID) .invalidThreadID
  return (.remove threadID, .none)

def changeFirst (commentID : Text) (f : Comment → Comment) :
    List Comment → Option (List Comment × Comment)
  | [] => none
  | c :: rest =>
    if c.id = commentID then some (f c :: rest, f c)
    else (changeFirst commentID f rest).map fun next => (c :: next.1, next.2)

def changeComment (commentID : Text) (f : Comment → Comment) (thread : CommentThread) :
    Except StoreError (CommentThread × Comment) :=
  match changeFirst commentID f thread.comments with
  | none => .error .commentNotFound
  | some (comments, comment) => .ok ({ thread with comments := comments }, comment)

/-- Nothing asks whether the comment has been deleted. -/
def editComment (req : UpdateCommentRequest) (c : Comment) : Comment :=
  { c with content := req.content, mentions := req.mentions, updatedAt := some now }

def updateComment (docID threadID commentID : Text) (req : Option UpdateCommentRequest) :
    Planned := do
  require (validDocID docID) .invalidDocumentID
  require (validUUID threadID && validUUID commentID) .invalidID
  let req ← body req
  validateCommentContent req.content
  changeThread files io (docID, threadID) fun thread => do
    let (thread, comment) ← changeComment commentID (editComment now req) thread
    return (thread, .comment comment)

def tombstone (c : Comment) : Comment :=
  { c with deletedAt := some now, content := [], mentions := [] }

def deleteComment (docID threadID commentID : Text) : Planned := do
  require (validDocID docID) .invalidDocumentID
  require (validUUID threadID && validUUID commentID) .invalidID
  changeThread files io (docID, threadID) fun thread => do
    let (thread, _) ← changeComment commentID (tombstone now) thread
    return (thread, .none)

namespace ReactionRequest

def matchesReaction (req : ReactionRequest) (r : Reaction) : Bool :=
  r.userID = req.userID && r.emoji = req.emoji

def addReaction (req : ReactionRequest) (list : List Reaction) : List Reaction :=
  if list.any req.matchesReaction then list
  else list ++ [⟨req.userID, req.userName, req.emoji, now⟩]

def removeReaction (req : ReactionRequest) (list : List Reaction) : List Reaction :=
  list.filter fun r => !req.matchesReaction r

/-- Without a comment the request is about the thread; with one it is about all comments with that
id. -/
def update (req : ReactionRequest) (f : List Reaction → List Reaction) (thread : CommentThread) :
    CommentThread :=
  if req.commentID = [] then { thread with reactions := f thread.reactions }
  else
    { thread with comments := thread.comments.map fun c =>
        if c.id = req.commentID then { c with reactions := f c.reactions } else c }

end ReactionRequest

def addReaction (docID threadID : Text) (req : Option ReactionRequest) : Planned := do
  require (validDocID docID) .invalidDocumentID
  require (validUUID threadID) .invalidThreadID
  let req ← body req
  require (reactions.contains req.emoji) (.emojiNotAllowed req.emoji)
  changeThread files io (docID, threadID) fun thread =>
    .ok (req.update (req.addReaction now) thread, .none)

def removeReaction (docID threadID : Text) (req : Option ReactionRequest) : Planned := do
  require (validDocID docID) .invalidDocumentID
  require (validUUID threadID) .invalidThreadID
  let req ← body req
  changeThread files io (docID, threadID) fun thread =>
    .ok (req.update req.removeReaction thread, .none)

def decisions : List Text := ["accepted", "rejected", "not_applicable"].map bytesOf

def recordDecision (req : SuggestionDecisionRequest) (thread : CommentThread) :
    Except StoreError (CommentThread × Response) :=
  match thread.suggestion with
  | none => .error .noSuggestion
  | some suggestion =>
    let thread := { thread with
      suggestion := some { suggestion with
        status := req.decision
        decidedBy := req.decidedBy
        decidedAt := some now
        appliedVersionID := req.appliedVersionID }
      status := .resolved
      resolvedAt := some now
      resolvedBy := req.decidedBy }
    .ok (thread, .thread thread)

def decideSuggestion (docID threadID : Text) (req : Option SuggestionDecisionRequest) :
    Planned := do
  require (validDocID docID) .invalidDocumentID
  require (validUUID threadID) .invalidThreadID
  let req ← body req
  require (decisions.contains req.decision) (.invalidDecision req.decision)
  changeThread files io (docID, threadID) (recordDecision now req)

/-- An id that is no UUID names no thread. -/
def getCommentThread (docID threadID : Text) : Except StoreError (Option CommentThread) := do
  require (validDocID docID) .invalidDocumentID
  if validUUID threadID then readThread files io (docID, threadID) else return none

end

inductive Op
  | createCommentThread (docID : Text) (req : Option CreateCommentThreadRequest)
  | addReply (docID threadID : Text) (req : Option NewComment)
  | updateThreadStatus (docID threadID : Text) (req : Option UpdateThreadStatusRequest)
  | deleteCommentThread (docID threadID : Text)
  | updateComment (docID threadID commentID : Text) (req : Option UpdateCommentRequest)
  | deleteComment (docID threadID commentID : Text)
  | addReaction (docID threadID : Text) (req : Option ReactionRequest)
  | removeReaction (docID threadID : Text) (req : Option ReactionRequest)
  | decideSuggestion (docID threadID : Text) (req : Option SuggestionDecisionRequest)

def Op.key : Op → Key
  | createCommentThread docID req => (docID, (req.map (·.id)).getD [])
  | addReply docID threadID _ | updateThreadStatus docID threadID _
  | deleteCommentThread docID threadID | updateComment docID threadID _ _
  | deleteComment docID threadID _ | addReaction docID threadID _
  | removeReaction docID threadID _ | decideSuggestion docID threadID _ => (docID, threadID)

def plan (files : Files Key CommentThread) (io : Io) (now : Nat) : Op → Planned
  | .createCommentThread docID req => createCommentThread files io now docID req
  | .addReply docID threadID req => addReply files io now docID threadID req
  | .updateThreadStatus docID threadID req => updateThreadStatus files io now docID threadID req
  | .deleteCommentThread docID threadID => deleteCommentThread docID threadID
  | .updateComment docID threadID commentID req =>
    updateComment files io now docID threadID commentID req
  | .deleteComment docID threadID commentID => deleteComment files io now docID threadID commentID
  | .addReaction docID threadID req => addReaction files io now docID threadID req
  | .removeReaction docID threadID req => removeReaction files io docID threadID req
  | .decideSuggestion docID threadID req => decideSuggestion files io now docID threadID req

/-- The file of a thread that is written is named by the id in the thread. -/
def carryOut (json : Json) (files : Files Key CommentThread) (io : Io) (docID : Text) :
    Target × Response → Files Key CommentThread × Except StoreError Response
  | (.write thread, response) =>
    match write files (docID, thread.id) (thread.clean json) io.write with
    | (files, true) => (files, .ok response)
    | (files, false) => (files, .error .writeThread)
  | (.remove threadID, response) =>
    if io.remove then (Function.update files (docID, threadID) none, .ok response)
    else (files, .error .deleteThread)

structure Call where
  op : Op
  io : Io := {}
  now : Nat

def perform (json : Json) (files : Files Key CommentThread) (call : Call) :
    Files Key CommentThread × Except StoreError Response :=
  match plan files call.io call.now call.op with
  | .error e => (files, .error e)
  | .ok planned => carryOut json files call.io call.op.key.1 planned

/-! ## What a call is going to write -/

section

variable {files : Files Key CommentThread} {io : Io} {now : Nat} {target : Target}
  {response : Response} {e : StoreError} {α : Type} {key : Key}

lemma require_eq_ok {holds : Bool} : require holds e = .ok () ↔ holds = true := by
  cases holds <;> simp [require]

lemma require_bind_eq_ok {holds : Bool} {rest : Unit → Except StoreError α} {a : α} :
    (require holds e >>= rest) = .ok a ↔ holds = true ∧ rest () = .ok a := by
  cases holds with
  | false => exact iff_of_false nofun fun h => Bool.false_ne_true h.1
  | true => exact ⟨fun h => ⟨rfl, h⟩, And.right⟩

lemma body_bind_eq_ok {β : Type} {req : Option α} {rest : α → Except StoreError β} {b : β} :
    (body req >>= rest) = .ok b ↔ ∃ a, req = some a ∧ rest a = .ok b := by
  cases req with
  | none => exact iff_of_false nofun nofun
  | some a => exact ⟨fun h => ⟨a, rfl, h⟩, fun ⟨_, hreq, h⟩ => Option.some.inj hreq ▸ h⟩

lemma readThread_eq_ok {found : Option CommentThread} (h : readThread files io key = .ok found) :
    files key = found.map .whole := by
  rw [readThread] at h
  split at h
  · split at h <;> cases h <;> assumption
  · cases h

lemma changeThread_eq_ok {change : CommentThread → Except StoreError (CommentThread × Response)}
    (h : changeThread files io key change = .ok (target, response)) :
    ∃ old new, files key = some (.whole old) ∧ change old = .ok (new, response) ∧
      target = .write new := by
  obtain ⟨found, hread, h⟩ := FileTree.bind_eq_ok.1 h
  cases found with
  | none => cases h
  | some old =>
    obtain ⟨⟨new, response'⟩, hchange, ⟨⟩⟩ := FileTree.bind_eq_ok.1 h
    exact ⟨old, new, readThread_eq_ok hread, hchange, rfl⟩

lemma checkedChange_eq_ok {ids other : Bool} {holds : α → Bool} {e' : StoreError}
    {e'' : α → StoreError} {req : Option α}
    {change : α → CommentThread → Except StoreError (CommentThread × Response)} (h : (do
        require ids e
        require other e'
        let req ← body req
        require (holds req) (e'' req)
        changeThread files io key (change req)) = .ok (target, response)) :
    ∃ given old new, req = some given ∧ holds given = true ∧ files key = some (.whole old) ∧
      change given old = .ok (new, response) ∧ target = .write new := by
  obtain ⟨-, h⟩ := require_bind_eq_ok.1 h
  obtain ⟨-, h⟩ := require_bind_eq_ok.1 h
  obtain ⟨given, rfl, h⟩ := body_bind_eq_ok.1 h
  obtain ⟨hholds, h⟩ := require_bind_eq_ok.1 h
  obtain ⟨old, new, hold, hchange, htarget⟩ := changeThread_eq_ok h
  exact ⟨given, old, new, rfl, hholds, hold, hchange, htarget⟩

lemma deleteComment_eq_ok {docID threadID commentID : Text}
    (h : deleteComment files io now docID threadID commentID = .ok (target, response)) :
    validDocID docID = true ∧ validUUID threadID = true ∧ ∃ old new comment,
      files (docID, threadID) = some (.whole old) ∧ target = .write new ∧
        changeComment commentID (tombstone now) old = .ok (new, comment) := by
  obtain ⟨hdoc, h⟩ := require_bind_eq_ok.1 h
  obtain ⟨hids, h⟩ := require_bind_eq_ok.1 h
  obtain ⟨old, new, hold, hchange, htarget⟩ := changeThread_eq_ok h
  obtain ⟨⟨_, comment⟩, hcomment, ⟨⟩⟩ := FileTree.bind_eq_ok.1 hchange
  exact ⟨hdoc, (Bool.and_eq_true_iff.1 hids).1, old, new, comment, hold, htarget, hcomment⟩

/-- What the operations make of the thread that they find. -/
inductive Op.Changes (now : Nat) (old : CommentThread) : Op → CommentThread → Prop
  | addReply (docID threadID : Text) (req : NewComment) (hid : validUUID req.id = true) :
      Changes now old (.addReply docID threadID (some req))
        { old with comments := old.comments ++ [newComment now threadID req] }
  | updateThreadStatus (docID threadID : Text) (req : UpdateThreadStatusRequest) :
      Changes now old (.updateThreadStatus docID threadID (some req)) (setStatus now req old)
  | updateComment (docID threadID commentID : Text) (req : UpdateCommentRequest)
      {new : CommentThread} {comment : Comment}
      (hchange : changeComment commentID (editComment now req) old = .ok (new, comment)) :
      Changes now old (.updateComment docID threadID commentID (some req)) new
  | deleteComment (docID threadID commentID : Text) {new : CommentThread} {comment : Comment}
      (hchange : changeComment commentID (tombstone now) old = .ok (new, comment)) :
      Changes now old (.deleteComment docID threadID commentID) new
  | addReaction (docID threadID : Text) (req : ReactionRequest) (hemoji : req.emoji ∈ reactions) :
      Changes now old (.addReaction docID threadID (some req))
        (req.update (req.addReaction now) old)
  | removeReaction (docID threadID : Text) (req : ReactionRequest) :
      Changes now old (.removeReaction docID threadID (some req))
        (req.update req.removeReaction old)
  | decideSuggestion (docID threadID : Text) (req : SuggestionDecisionRequest)
      {new : CommentThread} {response : Response}
      (hchange : recordDecision now req old = .ok (new, response)) :
      Changes now old (.decideSuggestion docID threadID (some req)) new

structure CommentThread.IsNew (t : CommentThread) : Prop where
  status : t.status = .opened
  resolvedAt : t.resolvedAt = none
  reactions : t.reactions = []
  comments : ∀ c ∈ t.comments, c.reactions = []

lemma checkCommentID_bind_eq_ok {id : Text} {rest : Unit → Except StoreError α} {a : α}
    (h : (checkCommentID id >>= rest) = .ok a) : validUUID id = true ∧ rest () = .ok a := by
  obtain ⟨_, hcheck, h⟩ := FileTree.bind_eq_ok.1 h
  exact ⟨require_eq_ok.1 (require_bind_eq_ok.1 hcheck).2, h⟩

lemma initialComments_eq_ok {threadID : Text} {comment : Option NewComment}
    {comments : List Comment}
    (h : initialComments now threadID comment = .ok comments) :
    ∀ c ∈ comments, c.reactions = [] := by
  cases comment with
  | none =>
    cases h
    exact fun c hc => absurd hc List.not_mem_nil
  | some new =>
    obtain ⟨-, ⟨⟩⟩ := checkCommentID_bind_eq_ok h
    intro c hc
    rw [List.mem_singleton.1 hc]
    rfl

lemma createCommentThread_eq_ok {docID : Text} {req : Option CreateCommentThreadRequest}
    (h : createCommentThread files io now docID req = .ok (target, response)) :
    ∃ thread, target = .write thread ∧ thread.id = (Op.createCommentThread docID req).key.2 ∧
      validUUID thread.id = true ∧ files (docID, thread.id) = none ∧ thread.IsNew := by
  obtain ⟨-, h⟩ := require_bind_eq_ok.1 h
  obtain ⟨req, rfl, h⟩ := body_bind_eq_ok.1 h
  obtain ⟨-, h⟩ := require_bind_eq_ok.1 h
  obtain ⟨-, h⟩ := require_bind_eq_ok.1 h
  obtain ⟨-, h⟩ := require_bind_eq_ok.1 h
  obtain ⟨-, h⟩ := require_bind_eq_ok.1 h
  obtain ⟨hid, h⟩ := require_bind_eq_ok.1 h
  obtain ⟨existing, hread, h⟩ := FileTree.bind_eq_ok.1 h
  obtain ⟨hnone, h⟩ := require_bind_eq_ok.1 h
  obtain ⟨comments, hcomments, ⟨⟩⟩ := FileTree.bind_eq_ok.1 h
  rw [Option.isNone_iff_eq_none.1 hnone] at hread
  exact ⟨_, rfl, rfl, hid, readThread_eq_ok hread, rfl, rfl, rfl, initialComments_eq_ok hcomments⟩

lemma plan_eq_ok {op : Op} (h : plan files io now op = .ok (target, response)) :
    target = .remove op.key.2 ∨
      (∃ new, target = .write new ∧ new.id = op.key.2 ∧ validUUID new.id = true ∧
        files op.key = none ∧ new.IsNew) ∨
      ∃ old new, target = .write new ∧ files op.key = some (.whole old) ∧
        op.Changes now old new := by
  cases op with
  | createCommentThread docID req =>
    obtain ⟨new, htarget, hid, hvalid, hnone, hnew⟩ := createCommentThread_eq_ok h
    rw [hid] at hnone
    exact .inr (.inl ⟨new, htarget, hid, hvalid, hnone, hnew⟩)
  | deleteCommentThread docID threadID =>
    obtain ⟨-, h⟩ := require_bind_eq_ok.1 h
    obtain ⟨-, ⟨⟩⟩ := require_bind_eq_ok.1 h
    exact .inl rfl
  | addReply docID threadID req =>
    obtain ⟨req, old, new, rfl, -, hold, hchange, htarget⟩ := checkedChange_eq_ok h
    obtain ⟨hid, ⟨⟩⟩ := checkCommentID_bind_eq_ok hchange
    exact .inr (.inr ⟨old, _, htarget, hold, .addReply _ _ _ hid⟩)
  | updateThreadStatus docID threadID req =>
    obtain ⟨-, h⟩ := require_bind_eq_ok.1 h
    obtain ⟨-, h⟩ := require_bind_eq_ok.1 h
    obtain ⟨req, rfl, h⟩ := body_bind_eq_ok.1 h
    obtain ⟨old, new, hold, hchange, htarget⟩ := changeThread_eq_ok h
    cases hchange
    exact .inr (.inr ⟨old, _, htarget, hold, .updateThreadStatus ..⟩)
  | updateComment docID threadID commentID req =>
    obtain ⟨req, old, new, rfl, -, hold, hchange, htarget⟩ := checkedChange_eq_ok h
    obtain ⟨⟨_, comment⟩, hcomment, ⟨⟩⟩ := FileTree.bind_eq_ok.1 hchange
    exact .inr (.inr ⟨old, new, htarget, hold, .updateComment _ _ _ _ hcomment⟩)
  | deleteComment docID threadID commentID =>
    obtain ⟨-, -, old, new, comment, hold, htarget, hcomment⟩ := deleteComment_eq_ok h
    exact .inr (.inr ⟨old, new, htarget, hold, .deleteComment _ _ _ hcomment⟩)
  | addReaction docID threadID req =>
    obtain ⟨req, old, new, rfl, hemoji, hold, hchange, htarget⟩ := checkedChange_eq_ok h
    cases hchange
    have hmem := List.contains_iff_mem.1 hemoji
    exact .inr (.inr ⟨old, _, htarget, hold, .addReaction _ _ _ hmem⟩)
  | removeReaction docID threadID req =>
    obtain ⟨-, h⟩ := require_bind_eq_ok.1 h
    obtain ⟨-, h⟩ := require_bind_eq_ok.1 h
    obtain ⟨req, rfl, h⟩ := body_bind_eq_ok.1 h
    obtain ⟨old, new, hold, hchange, htarget⟩ := changeThread_eq_ok h
    cases hchange
    exact .inr (.inr ⟨old, _, htarget, hold, .removeReaction ..⟩)
  | decideSuggestion docID threadID req =>
    obtain ⟨req, old, new, rfl, -, hold, hchange, htarget⟩ := checkedChange_eq_ok h
    exact .inr (.inr ⟨old, new, htarget, hold, .decideSuggestion _ _ _ hchange⟩)

end

end CollabEditor.StorageDemo.ThreadFiles
