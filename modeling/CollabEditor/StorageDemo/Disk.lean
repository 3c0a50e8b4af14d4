import CollabEditor.StorageDemo.FileStore
import CollabEditor.Support.FileProgram
/-!
# The stores on disk

`FileStore` and `CommentStore` of `internal/storagedemo` as programs over a tree of files.  JSON is
a pair of functions per type: what has been encoded with an id is decoded with that id.  What a
request does to a thread and what a list says of one are parameters, and so is the order of a map.
-/

namespace CollabEditor.StorageDemo.Disk

open Support FilePath FileTree FileProgram Prog

abbrev Text := List Char

inductive Failure
  | message (text : String)
  | os (what : String) (errno : Errno)
  | json (what cause : String)
  deriving DecidableEq

abbrev Store := Prog Failure

def isHexDigit (c : Char) : Bool := '0' ≤ c && c ≤ '9' || 'a' ≤ c && c ≤ 'f'

/-- The pattern of a UUID: hexadecimal digits, with hyphens at four places. -/
def validUUID (id : Text) : Bool :=
  id.length = 36 && id.zipIdx.all fun (c, i) =>
    if i ∈ [8, 13, 18, 23] then c = '-' else isHexDigit c

/-! ## Data -/

structure VersionEntry where
  id : Text
  createdAt : Nat
  type : Text
  label : Text
  creator : Text
  content : Text
  mimeType : Text
  blame : List (Nat × Nat × Text)
  deriving DecidableEq

structure VersionListEntry where
  id : Text
  createdAt : Nat
  type : Text
  label : Text
  creator : Text
  mimeType : Text
  deriving DecidableEq

def VersionEntry.listEntry (e : VersionEntry) : VersionListEntry :=
  ⟨e.id, e.createdAt, e.type, e.label, e.creator, e.mimeType⟩

structure CreateVersionRequest where
  content : Text
  mimeType : Text
  label : Text
  creator : Text
  type : Text
  blame : List (Nat × Nat × Text)

structure ClientUserMapping where
  clientID : Nat
  userName : Text
  deriving DecidableEq

/-- `updates` are the client ids of the updates. -/
structure StoreRequest where
  updates : List Nat
  content : Text
  mimeType : Text

structure StoreResponse where
  stored : Nat
  versionCreated : Option VersionListEntry

structure LoadResponse where
  content : Text
  mimeType : Text
  deriving DecidableEq

structure Thread (β : Type) where
  id : Text
  createdAt : Nat
  details : β

structure CommentChange where
  threadID : Text
  action : String
  user : Text
  changedAt : Nat
  commentID : Text
  deriving DecidableEq

structure PollResponse where
  changes : List CommentChange
  serverTime : Nat
  deriving DecidableEq

/-- JSON and the parser of times, with the entry that a list has for a thread. -/
structure Codec (β σ : Type) where
  encodeVersion : VersionEntry → Except String Content
  decodeVersion : Content → Except String VersionEntry
  encodeThread : Thread β → Except String Content
  decodeThread : Content → Except String (Thread β)
  encodeMappings : List ClientUserMapping → Except String Content
  decodeMappings : Content → Except String (List ClientUserMapping)
  encodeChange : CommentChange → Except String Content
  decodeChange : Content → Except String CommentChange
  parseTime : Text → Except String Nat
  threadListEntry : Thread β → σ
  version_id : ∀ {entry content decoded}, encodeVersion entry = .ok content →
    decodeVersion content = .ok decoded → decoded.id = entry.id
  thread_id : ∀ {thread content decoded}, encodeThread thread = .ok content →
    decodeThread content = .ok decoded → decoded.id = thread.id

/-! ## Paths -/

section

variable (base : Path) (docID : DocID)

def filePath : Path := base.join [docID]

def yjsPath : Path := base.join [".yjs".toList, docID ++ ".yjs".toList]

def versionsDir : Path := base.join [".versions".toList, docID]

def clientMappingsPath : Path := base.join [".clients".toList, docID ++ ".json".toList]

def commentsDir : Path := base.join [".comments".toList, docID]

def threadsDir : Path := (commentsDir base docID).join ["threads".toList]

def threadPath (threadID : Text) : Path :=
  (threadsDir base docID).join [threadID ++ ".json".toList]

def changeLogPath : Path := (commentsDir base docID).join ["changes.log".toList]

end

def dirOf (p : Path) : Path := { p with names := p.names.dropLast }

/-- The file of a name that the directory itself has given. -/
def child (dir : Path) (name : Name) : Path := { dir with names := dir.names ++ [name] }

def ext (name : Name) : Text :=
  if '.' ∈ name then '.' :: (name.reverse.takeWhile (· ≠ '.')).reverse else []

def hasJSONSuffix (name : Name) : Bool := ".json".toList.isSuffixOf name

def mimeTypes : List (String × String) :=
  [(".md", "text/markdown"), (".html", "text/html"), (".htm", "text/html"),
   (".py", "text/x-python"), (".js", "text/javascript"), (".jsx", "text/jsx"),
   (".ts", "text/typescript"), (".tsx", "text/tsx"), (".css", "text/css"),
   (".json", "application/json"), (".xml", "application/xml"), (".yaml", "text/yaml"),
   (".yml", "text/yaml"), (".go", "text/x-go"), (".rs", "text/x-rust"), (".java", "text/x-java"),
   (".txt", "text/plain")]

def detectMimeType (name : Name) : Text :=
  match mimeTypes.find? fun e => e.1.toList = ext name with
  | some e => e.2.toList
  | none => "text/plain".toList

def validate (docID : DocID) : Store Unit :=
  if validateDocID docID then pure () else fail (.message "invalid document ID")

def decoded {γ : Type} (what : String) (result : Except String γ) : Store γ :=
  match result with
  | .error cause => fail (.json what cause)
  | .ok value => pure value

/-- The loops over a directory: a file that is skipped, cannot be read or does not decode is passed
over. -/
def readAll {γ : Type} (decode : Content → Except String γ) (keep : Name → Bool) (dir : Path) :
    List (Name × Bool) → Store (List γ)
  | [] => pure []
  | (name, isDir) :: rest =>
    if isDir || !keep name then readAll decode keep dir rest
    else do
      match ← readFile (child dir name).names with
      | .error _ => readAll decode keep dir rest
      | .ok data =>
        match decode data with
        | .error _ => readAll decode keep dir rest
        | .ok value =>
          let values ← readAll decode keep dir rest
          pure (value :: values)

/-! ## `FileStore` -/

section

variable {β σ : Type} (codec : Codec β σ) (base : Path) (docID : DocID)

/-- The lines that a `bufio.Scanner` with a buffer of a mebibyte finds. -/
def scanLines (text : Text) : List Text :=
  let lines := text.splitOn '\n'
  let lines := if lines.getLast? = some [] then lines.dropLast else lines
  (lines.takeWhile fun line => line.length < 1024 * 1024).map fun line =>
    if line.getLast? = some '\r' then line.dropLast else line

def lastVersionPath (journal : Content) : Text :=
  (scanLines journal).foldl
    (fun last line => if "VERSION:".toList <+: line then line.drop 8 else last) []

/-- The text that the journal points to, with the journal's time. -/
def journalVersion : Store (Option (Nat × Text)) := do
  match ← readFile (yjsPath base docID).names with
  | .error _ => pure none
  | .ok journal =>
    if lastVersionPath journal = [] then pure none
    else
      match ← readFile (base.join [lastVersionPath journal]).names with
      | .error _ => pure none
      | .ok body =>
        match ← modTime (yjsPath base docID).names with
        | .error _ => pure (some (0, body))
        | .ok time => pure (some (time, body))

def newer (newest : Option VersionEntry) (entry : VersionEntry) : Option VersionEntry :=
  match newest with
  | none => some entry
  | some n => if n.createdAt < entry.createdAt then some entry else some n

def latestFormalVersion : Store (Option VersionEntry) := do
  let dir := versionsDir base docID
  match ← readDir dir.names with
  | .error _ => pure none
  | .ok entries =>
    let versions ← readAll codec.decodeVersion hasJSONSuffix dir entries
    pure (versions.foldl newer none)

/-- The newer of the two sources wins over the seed. -/
def currentContent (seed : Text) (fromJournal : Option (Nat × Text))
    (fromVersionDir : Option VersionEntry) : Text :=
  match fromJournal, fromVersionDir with
  | some (time, body), some entry => if time < entry.createdAt then entry.content else body
  | some (_, body), none => body
  | none, some entry => entry.content
  | none, none => seed

def loadDocument : Store (Option Text) := do
  validate docID
  match ← readFile (filePath base docID).names with
  | .error .notExist => pure none
  | .error e => fail (.os "reading document" e)
  | .ok data =>
    let fromJournal ← journalVersion base docID
    let fromVersionDir ← latestFormalVersion codec base docID
    pure (some (currentContent data fromJournal fromVersionDir))

def load : Store LoadResponse := do
  match ← loadDocument codec base docID with
  | none => pure ⟨[], []⟩
  | some content => pure ⟨content, detectMimeType docID⟩

def newestFirst {γ : Type} (createdAt : γ → Nat) (list : List γ) : List γ :=
  list.insertionSort fun a b => createdAt b ≤ createdAt a

def contentMatchesLatestVersion (content : Text) : Store Bool := do
  let dir := versionsDir base docID
  match ← readDir dir.names with
  | .error _ => pure false
  | .ok entries =>
    let versions ← readAll codec.decodeVersion (fun name => ext name = ".json".toList) dir entries
    match newestFirst VersionEntry.createdAt versions with
    | [] => pure false
    | first :: _ =>
      match ← readFile (dir.join [first.id ++ ".json".toList]).names with
      | .error _ => pure false
      | .ok data =>
        match codec.decodeVersion data with
        | .error _ => pure false
        | .ok latest => pure (latest.content = content)

/-- The client with the most updates, of those that come first in the order of the map. -/
def topClient (updates order : List Nat) : Nat :=
  (order.foldl
    (fun top client => if top.2 < updates.count client then (client, updates.count client) else top)
    ((0, 0) : Nat × Nat)).1

def resolveTopContributor (updates : List Nat) : Store Text := do
  let order ← range updates.dedup
  let top := topClient updates order
  let fallback := if top ≠ 0 then ("client-" ++ toString top).toList else "system".toList
  match ← readFile (clientMappingsPath base docID).names with
  | .error _ => pure fallback
  | .ok data =>
    match codec.decodeMappings data with
    | .error _ => pure fallback
    | .ok mappings =>
      match mappings.find? fun m => m.clientID = top with
      | none => pure fallback
      | some m => pure m.userName

def newVersion (id : Text) (now : Nat) (req : CreateVersionRequest) : VersionEntry :=
  let type := if req.type = [] then "manual".toList else req.type
  ⟨id, now, type, req.label, req.creator, req.content, req.mimeType, req.blame⟩

def createVersionLocked (req : CreateVersionRequest) : Store VersionListEntry := do
  let dir := versionsDir base docID
  orFail (.os "creating versions dir") (← mkdirAll dir.names)
  let id ← newID
  let now ← now
  match codec.encodeVersion (newVersion id now req) with
  | .error cause => fail (.json "marshaling version" cause)
  | .ok data =>
    orFail (.os "writing version file")
      (← writeFile (dir.join [id ++ ".json".toList]).names data)
    pure (newVersion id now req).listEntry

def createVersion (req : CreateVersionRequest) : Store VersionListEntry := do
  validate docID
  createVersionLocked codec base docID req

/-- The version of `Store` while auto-versioning is on; that it fails is of no consequence. -/
def storeVersion (req : StoreRequest) (mimeType : Text) : Store (Option VersionListEntry) := do
  if ← contentMatchesLatestVersion codec base docID req.content then pure none
  else do
    let creator ← resolveTopContributor codec base docID req.updates
    match ← (createVersionLocked codec base docID
        ⟨req.content, mimeType, [], creator, "auto".toList, []⟩).attempt with
    | .error _ => pure none
    | .ok entry => pure (some entry)

def journalLine (docID : DocID) (versionID : Text) : Content :=
  "VERSION:".toList ++
    (Path.join ⟨false, []⟩ [".versions".toList, docID, versionID, docID]).toText ++ ['\n']

def StoreRequest.typeFor (req : StoreRequest) (docID : DocID) : Text :=
  if req.mimeType = [] then detectMimeType docID else req.mimeType

def store (autoVersion : Bool) (docID : DocID) (req : StoreRequest) : Store StoreResponse := do
  validate docID
  if req.content = [] then pure ⟨req.updates.length, none⟩
  else do
    let versionID ← newID
    let versionDir := base.join [".versions".toList, docID, versionID]
    orFail (.os "creating version directory") (← mkdirAll versionDir.names)
    orFail (.os "writing versioned content")
      (← writeFile (versionDir.join [docID]).names req.content)
    let journalFile := yjsPath base docID
    orFail (.os "creating journal directory") (← mkdirAll (dirOf journalFile).names)
    orFail (.os "opening journal")
      (← append journalFile.names (journalLine docID versionID))
    if autoVersion then do
      let versionCreated ← storeVersion codec base docID req (req.typeFor docID)
      pure ⟨req.updates.length, versionCreated⟩
    else pure ⟨req.updates.length, none⟩

def listVersions : Store (List VersionListEntry) := do
  validate docID
  let dir := versionsDir base docID
  match ← readDir dir.names with
  | .error .notExist => pure []
  | .error e => fail (.os "reading versions dir" e)
  | .ok entries =>
    let versions ← readAll codec.decodeVersion (fun name => ext name = ".json".toList) dir entries
    pure (newestFirst VersionListEntry.createdAt (versions.map VersionEntry.listEntry))

def getVersion (versionID : Text) : Store (Option VersionEntry) := do
  validate docID
  if !validUUID versionID then fail (.message "invalid version ID")
  else
    match ← readFile ((versionsDir base docID).join [versionID ++ ".json".toList]).names with
    | .error .notExist => pure none
    | .error e => fail (.os "reading version file" e)
    | .ok data =>
      let entry ← decoded "unmarshaling version" (codec.decodeVersion data)
      pure (some entry)

def getClientMappings : Store (List ClientUserMapping) := do
  validate docID
  match ← readFile (clientMappingsPath base docID).names with
  | .error .notExist => pure []
  | .error e => fail (.os "reading client mappings" e)
  | .ok data => decoded "unmarshaling client mappings" (codec.decodeMappings data)

def mergeMapping (existing : List ClientUserMapping) (m : ClientUserMapping) :
    List ClientUserMapping :=
  existing.filter (fun old => old.clientID ≠ m.clientID) ++ [m]

def existingMappings : Store (List ClientUserMapping) := do
  match ← readFile (clientMappingsPath base docID).names with
  | .error _ => pure []
  | .ok data => decoded "corrupt client mappings file" (codec.decodeMappings data)

def storeClientMappings (mappings : List ClientUserMapping) : Store Unit := do
  validate docID
  orFail (.os "creating clients dir") (← mkdirAll (base.join [".clients".toList]).names)
  let old ← existingMappings codec base docID
  let existing := (old ++ mappings).foldl mergeMapping []
  let order ← range (existing.map ClientUserMapping.clientID)
  let merged := order.filterMap fun client => existing.find? fun m => m.clientID = client
  let data ← decoded "marshaling client mappings" (codec.encodeMappings merged)
  orFail (.os "writing client mappings")
    (← writeFile (clientMappingsPath base docID).names data)

end

/-! ## `CommentStore` -/

section

variable {β σ : Type} (codec : Codec β σ) (base : Path) (docID : DocID)

def readThreadAt (path : Path) : Store (Option (Thread β)) := do
  match ← readFile path.names with
  | .error .notExist => pure none
  | .error e => fail (.os "read thread" e)
  | .ok data =>
    let thread ← decoded "unmarshal thread" (codec.decodeThread data)
    pure (some thread)

def readThread (threadID : Text) : Store (Option (Thread β)) :=
  readThreadAt codec (threadPath base docID threadID)

/-- The file is named by the id in the thread. -/
def writeThread (thread : Thread β) : Store Unit := do
  orFail (.os "mkdir threads") (← mkdirAll (threadsDir base docID).names)
  match codec.encodeThread thread with
  | .error cause => fail (.json "marshal thread" cause)
  | .ok data =>
    orFail (.os "write thread")
      (← writeFile (threadPath base docID thread.id).names data)

/-- The log is written as far as it can be. -/
def appendChange (change : CommentChange) : Store Unit := do
  let path := changeLogPath base docID
  match ← mkdirAll (dirOf path).names with
  | .error _ => pure ()
  | .ok () =>
    match codec.encodeChange change with
    | .error _ => pure ()
    | .ok data => do
        let _ ← append path.names (data ++ ['\n'])
        pure ()

def trimSpace (line : Text) : Text :=
  ((line.dropWhile Char.isWhitespace).reverse.dropWhile Char.isWhitespace).reverse

/-- The changes in a log that are later than `since`, where 0 is no time. -/
def changesSince (log : Content) (since : Nat) : List CommentChange :=
  (log.splitOn '\n').filterMap fun line =>
    match trimSpace line with
    | [] => none
    | line =>
      match codec.decodeChange line with
      | .error _ => none
      | .ok change => if since ≠ 0 ∧ change.changedAt ≤ since then none else some change

def readChangesSince (since : Nat) : Store (List CommentChange) := do
  match ← readFile (changeLogPath base docID).names with
  | .error .notExist => pure []
  | .error e => fail (.os "" e)
  | .ok log => pure (changesSince codec log since)

def readAllThreads : Store (List (Thread β)) := do
  let dir := threadsDir base docID
  match ← readDir dir.names with
  | .error .notExist => pure []
  | .error e => fail (.os "read threads dir" e)
  | .ok entries => readAll codec.decodeThread hasJSONSuffix dir entries

def listCommentThreads : Store (List σ) := do
  validate docID
  let threads ← readAllThreads codec base docID
  pure ((newestFirst Thread.createdAt threads).map codec.threadListEntry)

def getCommentThread (threadID : Text) : Store (Option (Thread β)) := do
  validate docID
  if !validUUID threadID then pure none else readThread codec base docID threadID

/-- `check` is what is checked of the request first, and `build` the thread's details, which may
fail on the comment's id. -/
structure CreateThreadRequest (β : Type) where
  id : Text
  check : Except String Unit
  build : Nat → Except String β
  creator : Text

def createCommentThread (req : CreateThreadRequest β) : Store (Thread β) := do
  validate docID
  match req.check with
  | .error text => fail (.message text)
  | .ok () =>
    orFail (.os "creating threads dir") (← mkdirAll (threadsDir base docID).names)
    let now ← now
    if req.id = [] then fail (.message "id is required")
    else if !validUUID req.id then fail (.message "invalid thread id")
    else
      match ← readThread codec base docID req.id with
      | some _ => fail (.message "comment thread id already exists")
      | none =>
        match req.build now with
        | .error text => fail (.message text)
        | .ok details =>
          let thread : Thread β := ⟨req.id, now, details⟩
          writeThread codec base docID thread
          appendChange codec base docID ⟨req.id, "created", req.creator, now, []⟩
          pure thread

/-- A request that changes a thread: what is checked first, and what becomes of the details at a
time, which may fail. -/
structure ThreadRequest (β : Type) where
  check : Except String Unit
  change : Nat → β → Except String β

/-- The operations on a thread that is there. The change that is logged, if any, is given the time
of the change and that of the log. -/
def mutateThread (threadID : Text) (req : ThreadRequest β)
    (log : Option (Nat → Nat → CommentChange)) : Store (Thread β) := do
  match req.check with
  | .error text => fail (.message text)
  | .ok () =>
    match ← readThread codec base docID threadID with
    | none => fail (.message "thread not found")
    | some thread =>
      let now ← now
      match req.change now thread.details with
      | .error text => fail (.message text)
      | .ok details =>
        let thread : Thread β := { thread with details := details }
        writeThread codec base docID thread
        match log with
        | none => pure thread
        | some change =>
          let later ← Prog.now
          appendChange codec base docID (change now later)
          pure thread

def changeThread (threadID : Text) (req : ThreadRequest β)
    (log : Option (Nat → Nat → CommentChange)) : Store (Thread β) := do
  validate docID
  if !validUUID threadID then fail (.message "invalid thread id")
  else mutateThread codec base docID threadID req log

def changeComment (threadID commentID : Text) (req : ThreadRequest β) : Store (Thread β) := do
  validate docID
  if !(validUUID threadID && validUUID commentID) then fail (.message "invalid id")
  else mutateThread codec base docID threadID req none

def addReply (threadID commentID authorID : Text) (req : ThreadRequest β) : Store (Thread β) :=
  changeThread codec base docID threadID req
    (some fun now _ => ⟨threadID, "reply_added", authorID, now, commentID⟩)

def updateThreadStatus (threadID : Text) (resolved : Bool) (resolvedBy : Text)
    (req : ThreadRequest β) : Store (Thread β) :=
  changeThread codec base docID threadID req
    (some fun _ later => ⟨threadID, if resolved then "resolved" else "reopened", resolvedBy,
      later, []⟩)

def updateComment (threadID commentID : Text) (req : ThreadRequest β) : Store (Thread β) :=
  changeComment codec base docID threadID commentID req

def deleteComment (threadID commentID : Text) (req : ThreadRequest β) : Store (Thread β) :=
  changeComment codec base docID threadID commentID req

def addReaction (threadID : Text) (req : ThreadRequest β) : Store (Thread β) :=
  changeThread codec base docID threadID req none

def removeReaction (threadID : Text) (req : ThreadRequest β) : Store (Thread β) :=
  changeThread codec base docID threadID req none

def decideSuggestion (threadID decidedBy : Text) (req : ThreadRequest β) : Store (Thread β) :=
  changeThread codec base docID threadID req
    (some fun now _ => ⟨threadID, "suggestion_decided", decidedBy, now, []⟩)

def deleteCommentThread (threadID : Text) : Store Unit := do
  validate docID
  if !validUUID threadID then fail (.message "invalid thread id")
  else
    match ← remove (threadPath base docID threadID).names with
    | .ok () | .error .notExist => do
        let now ← now
        appendChange codec base docID ⟨threadID, "deleted", [], now, []⟩
    | .error e => fail (.os "delete thread" e)

def parseSince (since : Text) : Store Nat :=
  if since = [] then pure 0 else decoded "invalid since timestamp" (codec.parseTime since)

def pollCommentChanges (since : Text) : Store PollResponse := do
  validate docID
  let sinceTime ← parseSince codec since
  let changes ← readChangesSince codec base docID sinceTime
  let now ← now
  pure ⟨changes, now⟩

end

/-! ## Operations -/

/-- The calls that only read, as they are asked of the second document. -/
inductive Query
  | load
  | listVersions
  | getVersion (versionID : Text)
  | getClientMappings
  | listCommentThreads
  | pollCommentChanges (since : Text)

inductive Answer (σ : Type)
  | load (response : LoadResponse)
  | versions (list : List VersionListEntry)
  | version (entry : Option VersionEntry)
  | mappings (list : List ClientUserMapping)
  | threads (list : List σ)
  | changes (response : PollResponse)
  deriving DecidableEq

/-- The calls that a store may be given; `store` is told whether auto-versioning is on. -/
inductive Operation (β : Type)
  | query (q : Query)
  | store (autoVersion : Bool) (req : StoreRequest)
  | createVersion (req : CreateVersionRequest)
  | storeClientMappings (mappings : List ClientUserMapping)
  | getCommentThread (threadID : Text)
  | createCommentThread (req : CreateThreadRequest β)
  | addReply (threadID commentID authorID : Text) (req : ThreadRequest β)
  | updateThreadStatus (threadID : Text) (resolved : Bool) (resolvedBy : Text)
      (req : ThreadRequest β)
  | deleteCommentThread (threadID : Text)
  | updateComment (threadID commentID : Text) (req : ThreadRequest β)
  | deleteComment (threadID commentID : Text) (req : ThreadRequest β)
  | addReaction (threadID : Text) (req : ThreadRequest β)
  | removeReaction (threadID : Text) (req : ThreadRequest β)
  | decideSuggestion (threadID decidedBy : Text) (req : ThreadRequest β)

section

variable {β σ : Type} (codec : Codec β σ) (base : Path)

def Query.program (docID : DocID) : Query → Store (Answer σ)
  | .load => do pure (.load (← Disk.load codec base docID))
  | .listVersions => do pure (.versions (← Disk.listVersions codec base docID))
  | .getVersion versionID => do pure (.version (← Disk.getVersion codec base docID versionID))
  | .getClientMappings => do pure (.mappings (← Disk.getClientMappings codec base docID))
  | .listCommentThreads => do pure (.threads (← Disk.listCommentThreads codec base docID))
  | .pollCommentChanges since => do
      pure (.changes (← Disk.pollCommentChanges codec base docID since))

def Operation.program (docID : DocID) : Operation β → Store Unit
  | .query q => discard (q.program codec base docID)
  | .store autoVersion req => discard (Disk.store codec base autoVersion docID req)
  | .createVersion req => discard (Disk.createVersion codec base docID req)
  | .storeClientMappings mappings => Disk.storeClientMappings codec base docID mappings
  | .getCommentThread threadID => discard (Disk.getCommentThread codec base docID threadID)
  | .createCommentThread req => discard (Disk.createCommentThread codec base docID req)
  | .addReply threadID commentID authorID req =>
    discard (Disk.addReply codec base docID threadID commentID authorID req)
  | .updateThreadStatus threadID resolved resolvedBy req =>
    discard (Disk.updateThreadStatus codec base docID threadID resolved resolvedBy req)
  | .deleteCommentThread threadID => Disk.deleteCommentThread codec base docID threadID
  | .updateComment threadID commentID req =>
    discard (Disk.updateComment codec base docID threadID commentID req)
  | .deleteComment threadID commentID req =>
    discard (Disk.deleteComment codec base docID threadID commentID req)
  | .addReaction threadID req => discard (Disk.addReaction codec base docID threadID req)
  | .removeReaction threadID req => discard (Disk.removeReaction codec base docID threadID req)
  | .decideSuggestion threadID decidedBy req =>
    discard (Disk.decideSuggestion codec base docID threadID decidedBy req)
where
  discard {γ : Type} (program : Store γ) : Store Unit := program >>= fun _ => pure ()

/-- What a call draws; the ids that are drawn are UUIDs. -/
structure Draws where
  env : Env
  uuids : ∀ n, validUUID (env.ids n)

structure Action (β : Type) where
  docID : DocID
  operation : Operation β
  draws : Draws

/-- The files, and the paths that the stores have touched. -/
structure State where
  tree : Option Node
  touched : List (List Name)

def step (s : State) (a : Action β) : Option State :=
  let w := ((a.operation.program codec base a.docID).run ⟨s.tree, a.draws.env, s.touched⟩).2
  some ⟨w.tree, w.touched⟩

def Query.ask (q : Query) (docID : DocID) (draws : Draws) (tree : Option Node) :
    Except Failure (Answer σ) :=
  ((q.program codec base docID).run ⟨tree, draws.env, []⟩).1

end

end CollabEditor.StorageDemo.Disk
