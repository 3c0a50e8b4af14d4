import Mathlib.Data.List.Sort
import CollabEditor.Support.Execution
/-!
# The document store of the demo provider

`FileStore` of `internal/storagedemo/store.go`: a document has a seed file, a journal of pointers to
the texts that `Store` has written, and the versions.  Times are clock readings, and a UUID is a
number.  File operations succeed.  What `Load` does not read of a version is left out, and so is the
MIME type of a response.
-/

namespace CollabEditor.StorageDemo

open Support.Execution List Option Nat

variable {K : Type}

abbrev DocID := List Char

def isAlphanumeric (c : Char) : Bool :=
  'a' ≤ c && c ≤ 'z' || 'A' ≤ c && c ≤ 'Z' || '0' ≤ c && c ≤ '9'

/-- `validateDocID`. An id that matches the pattern has one byte per character. -/
def validateDocID : DocID → Bool
  | [] => false
  | c :: rest =>
    (c :: rest).length ≤ 255 && isAlphanumeric c &&
      rest.all fun c => isAlphanumeric c || c = '.' || c = '_' || c = '-'

structure VersionEntry (K : Type) where
  id : Nat
  createdAt : Nat
  content : List K

/-- The file `.yjs/{docID}.yjs`: the ids in the paths of its `VERSION:` lines. -/
structure Journal where
  pointers : List Nat
  modTime : Nat

/-- The files of one document: the seed, the journal, `.versions/{docID}/{id}/{docID}` by id, and
`.versions/{docID}/{id}.json`. -/
structure DocumentFiles (K : Type) where
  seed : Option (List K)
  journal : Option Journal
  stored : List (Nat × List K)
  versions : List (VersionEntry K)

inductive FileStoreError
  | invalidDocumentID
  deriving DecidableEq

structure StoreResponse where
  stored : Nat
  versionCreated : Option Nat

namespace DocumentFiles

/-- `os.ReadDir` on the directory of the versions, which sorts by file name. -/
def readDir (f : DocumentFiles K) : List (VersionEntry K) :=
  f.versions.insertionSort fun a b => a.id ≤ b.id

def newer (newest : Option (VersionEntry K)) (entry : VersionEntry K) : Option (VersionEntry K) :=
  match newest with
  | none => some entry
  | some n => if n.createdAt < entry.createdAt then some entry else some n

def latestFormalVersion (f : DocumentFiles K) : Option (VersionEntry K) :=
  f.readDir.foldl newer none

/-- The text that the last line of the journal points to, with the journal's time. -/
def fromJournal (f : DocumentFiles K) : Option (List K × Nat) := do
  let journal ← f.journal
  let pointer ← journal.pointers.getLast?
  let body ← f.stored.lookup pointer
  return (body, journal.modTime)

/-- `LoadDocument` for a valid id: without a seed file there is no document. -/
def loadDocument (f : DocumentFiles K) : Option (List K) :=
  f.seed.map fun data =>
    match f.fromJournal, f.latestFormalVersion with
    | some (body, time), some entry => if time < entry.createdAt then entry.content else body
    | some (body, _), none => body
    | none, some entry => entry.content
    | none, none => data

/-- `contentMatchesLatestVersionLocked`: the file of the entry that comes first when the entries
are sorted, newest first. -/
def contentMatchesLatestVersion [DecidableEq K] (f : DocumentFiles K) (content : List K) : Bool :=
  match f.readDir.insertionSort fun a b => b.createdAt ≤ a.createdAt with
  | [] => false
  | first :: _ =>
    match f.versions.find? fun e => e.id = first.id with
    | none => false
    | some latest => latest.content = content

/-- `createVersionLocked`: the version's file is written. -/
def createVersion (f : DocumentFiles K) (entry : VersionEntry K) : DocumentFiles K :=
  { f with versions := f.versions.filter (fun e => e.id ≠ entry.id) ++ [entry] }

def appendPointer (f : DocumentFiles K) (now versionID : Nat) (content : List K) :
    DocumentFiles K :=
  let pointers := (f.journal.map (·.pointers)).getD []
  { f with
    stored := (versionID, content) :: f.stored
    journal := some ⟨pointers ++ [versionID], now⟩ }

end DocumentFiles

structure FileStore (K : Type) where
  documents : DocID → DocumentFiles K
  autoVersion : Bool

/-- What a `Store` call is given, with the ids that it draws. -/
structure StoreRequest (K : Type) where
  content : List K
  updates : Nat
  versionID : Nat
  entryID : Nat

namespace FileStore

def load (fs : FileStore K) (docID : DocID) : Except FileStoreError (List K) :=
  if validateDocID docID then .ok ((fs.documents docID).loadDocument.getD [])
  else .error .invalidDocumentID

def setDocument (fs : FileStore K) (docID : DocID) (f : DocumentFiles K) : FileStore K :=
  { fs with documents := Function.update fs.documents docID f }

def createVersion (fs : FileStore K) (docID : DocID) (now id : Nat) (content : List K) :
    FileStore K × Except FileStoreError Nat :=
  if validateDocID docID then
    (fs.setDocument docID ((fs.documents docID).createVersion ⟨id, now, content⟩), .ok id)
  else (fs, .error .invalidDocumentID)

variable [DecidableEq K]

def store (fs : FileStore K) (docID : DocID) (now : Nat) (req : StoreRequest K) :
    FileStore K × Except FileStoreError StoreResponse :=
  if validateDocID docID then
    if req.content = [] then (fs, .ok ⟨req.updates, none⟩)
    else
      let f := (fs.documents docID).appendPointer now req.versionID req.content
      if fs.autoVersion && !f.contentMatchesLatestVersion req.content then
        (fs.setDocument docID (f.createVersion ⟨req.entryID, now, req.content⟩),
          .ok ⟨req.updates, some req.entryID⟩)
      else (fs.setDocument docID f, .ok ⟨req.updates, none⟩)
  else (fs, .error .invalidDocumentID)

end FileStore

/-! ## Runs -/

/-- The store with the last clock reading and, for each document, the content given to the last
call that succeeded. -/
structure StoreHistory (K : Type) where
  fs : FileStore K
  clock : Nat
  lastWrite : DocID → Option (List K)

inductive FileStoreCall (K : Type)
  | store (docID : DocID) (now : Nat) (req : StoreRequest K)
  | createVersion (docID : DocID) (now id : Nat) (content : List K)
  | setAutoVersion (enabled : Bool)

namespace StoreHistory

def initial (seeds : DocID → Option (List K)) (autoVersion : Bool) : StoreHistory K :=
  ⟨⟨fun docID => ⟨seeds docID, none, [], []⟩, autoVersion⟩, 0, fun _ => none⟩

def wrote (s : StoreHistory K) {ε α : Type} (docID : DocID) (now : Nat) (content : List K)
    (result : FileStore K × Except ε α) : StoreHistory K :=
  ⟨result.1, now, match result.2 with
    | .ok _ => Function.update s.lastWrite docID (some content)
    | .error _ => s.lastWrite⟩

def step [DecidableEq K] (s : StoreHistory K) : FileStoreCall K → Option (StoreHistory K)
  | .store docID now req =>
    if s.clock < now then some (s.wrote docID now req.content (s.fs.store docID now req))
    else none
  | .createVersion docID now id content =>
    if s.clock < now then
      some (s.wrote docID now content (s.fs.createVersion docID now id content))
    else none
  | .setAutoVersion enabled => some { s with fs := { s.fs with autoVersion := enabled } }

end StoreHistory

def LoadsLastWrite (s : StoreHistory K) : Prop :=
  ∀ docID, ∀ content ∈ s.lastWrite docID, s.fs.load docID = .ok content

/-- The calls are for documents with a seed file, and no empty text is stored. -/
def SeededText (s : StoreHistory K) : FileStoreCall K → Prop
  | .store docID _ req => (s.fs.documents docID).seed.isSome ∧ req.content ≠ []
  | .createVersion docID _ _ _ => (s.fs.documents docID).seed.isSome
  | .setAutoVersion _ => True

instance [DecidableEq K] (s : StoreHistory K) (a : FileStoreCall K) :
    Decidable (SeededText s a) := by
  rcases a with ⟨⟩ <;> dsimp only [SeededText] <;> infer_instance

/-! ### The files after a call -/

namespace DocumentFiles

variable {f : DocumentFiles K} {entry : VersionEntry K} {clock now : Nat}

/-- No file is younger than the clock. -/
structure Until (f : DocumentFiles K) (clock : Nat) : Prop where
  journal : ∀ j ∈ f.journal, j.modTime ≤ clock
  versions : ∀ e ∈ f.versions, e.createdAt ≤ clock

lemma Until.mono (h : f.Until clock) (hle : clock ≤ now) : f.Until now where
  journal j hj := le_trans (h.journal j hj) hle
  versions e he := le_trans (h.versions e he) hle

lemma Until.createVersion (h : f.Until clock) (hentry : entry.createdAt ≤ clock) :
    (f.createVersion entry).Until clock where
  journal := h.journal
  versions e he := by
    rcases mem_snoc.1 he with hold | rfl
    · exact h.versions e (mem_of_mem_filter hold)
    · exact hentry

lemma Until.appendPointer (h : f.Until clock) (hle : clock ≤ now) (versionID : Nat)
    (content : List K) : (f.appendPointer now versionID content).Until now where
  journal j hj := by
    cases hj
    exact le_refl _
  versions e he := le_trans (h.versions e he) hle

lemma mem_of_latestFormalVersion (h : f.latestFormalVersion = some entry) :
    entry ∈ f.versions := by
  have hfold (entries : List (VersionEntry K)) (newest : Option (VersionEntry K))
      (h : entries.foldl newer newest = some entry) : newest = some entry ∨ entry ∈ entries := by
    induction entries generalizing newest with
    | nil => exact .inl h
    | cons e rest ih =>
      rcases ih _ h with hnewest | hrest
      · unfold newer at hnewest
        split at hnewest
        · exact .inr (some.inj hnewest ▸ mem_cons_self)
        · split at hnewest
          · exact .inr (some.inj hnewest ▸ mem_cons_self)
          · exact .inl hnewest
      · exact .inr (mem_cons_of_mem _ hrest)
  rcases hfold f.readDir none h with hnone | hmem
  · cases hnone
  · exact (mem_insertionSort _).1 hmem

lemma foldl_newer_eq {entries : List (VersionEntry K)} {newest : Option (VersionEntry K)}
    (hmem : newest = some entry ∨ entry ∈ entries)
    (hnewest : ∀ e ∈ newest, e = entry ∨ e.createdAt < entry.createdAt)
    (hentries : ∀ e ∈ entries, e = entry ∨ e.createdAt < entry.createdAt) :
    entries.foldl newer newest = some entry := by
  induction entries generalizing newest with
  | nil => exact hmem.resolve_right not_mem_nil
  | cons e rest ih =>
    have he := hentries e mem_cons_self
    have hrest : ∀ e ∈ rest, e = entry ∨ e.createdAt < entry.createdAt :=
      fun e he => hentries e (mem_cons_of_mem _ he)
    refine ih ?_ ?_ hrest
    · rcases hmem with rfl | hmem
      · -- nothing is newer than the entry
        have hnot : ¬ entry.createdAt < e.createdAt := by
          rcases he with rfl | hlt
          · exact lt_irrefl _
          · exact Nat.not_lt_of_lt hlt
        exact .inl (if_neg hnot)
      rcases mem_cons.1 hmem with rfl | hmem
      · unfold newer
        split
        · exact .inl rfl
        · rename_i n
          rcases hnewest n rfl with rfl | hlt
          · exact .inl (if_neg (lt_irrefl _))
          · exact .inl (if_pos hlt)
      · exact .inr hmem
    · intro n hn
      unfold newer at hn
      split at hn
      · exact some.inj hn ▸ he
      · split at hn
        · exact some.inj hn ▸ he
        · exact hnewest n hn

lemma latestFormalVersion_createVersion (h : ∀ e ∈ f.versions, e.createdAt < entry.createdAt) :
    (f.createVersion entry).latestFormalVersion = some entry := by
  have hmem {e : VersionEntry K} : e ∈ (f.createVersion entry).readDir ↔
      e ∈ f.versions.filter (fun e => e.id ≠ entry.id) ++ [entry] := mem_insertionSort _
  refine foldl_newer_eq (.inr (hmem.2 (by simp))) (by simp) fun e he => ?_
  rcases mem_append.1 (hmem.1 he) with hold | hnew
  · exact .inr (h e (mem_of_mem_filter hold))
  · exact .inl (mem_singleton.1 hnew)

lemma fromJournal_appendPointer (f : DocumentFiles K) (now versionID : Nat) (content : List K) :
    (f.appendPointer now versionID content).fromJournal = some (content, now) := by
  simp [fromJournal, appendPointer]

lemma Until.time_le (h : f.Until clock) {body : List K} {time : Nat}
    (hjournal : f.fromJournal = some (body, time)) : time ≤ clock := by
  simp only [fromJournal, Option.bind_eq_bind, Option.bind_eq_some_iff, Option.pure_def,
    Option.some.injEq, Prod.mk.injEq] at hjournal
  obtain ⟨journal, hj, -, -, -, -, -, rfl⟩ := hjournal
  exact h.journal journal hj

lemma loadDocument_of_journal (hseed : f.seed.isSome) (h : f.Until now) {content : List K}
    (hjournal : f.fromJournal = some (content, now)) : f.loadDocument = some content := by
  obtain ⟨data, hdata⟩ := isSome_iff_exists.1 hseed
  rw [loadDocument, hdata, hjournal, map_some]
  cases hlatest : f.latestFormalVersion with
  | none => rfl
  | some e =>
    have hle := h.versions e (mem_of_latestFormalVersion hlatest)
    exact congrArg some (if_neg (Nat.not_lt_of_le hle))

lemma loadDocument_createVersion (hseed : f.seed.isSome) (h : f.Until clock)
    (hentry : clock < entry.createdAt) :
    (f.createVersion entry).loadDocument = some entry.content := by
  obtain ⟨data, hdata⟩ := isSome_iff_exists.1 hseed
  have hseed' : (f.createVersion entry).seed = some data := hdata
  have hlatest : (f.createVersion entry).latestFormalVersion = some entry :=
    latestFormalVersion_createVersion fun e he => lt_of_le_of_lt (h.versions e he) hentry
  rw [loadDocument, hseed', hlatest, map_some]
  cases hjournal : (f.createVersion entry).fromJournal with
  | none => rfl
  | some candidate =>
    have hlt : candidate.2 < entry.createdAt :=
      lt_of_le_of_lt (h.time_le (f := f) hjournal) hentry
    exact congrArg some (if_pos hlt)

end DocumentFiles

section

variable {s t : StoreHistory K} {docID : DocID} {now : Nat}

/-- No file is younger than the last call, and every document that has been written is loaded as
it was written last. -/
structure HistoryInv (s : StoreHistory K) : Prop where
  files : ∀ docID, (s.fs.documents docID).Until s.clock
  loads : LoadsLastWrite s

lemma HistoryInv.wrote (h : HistoryInv s) {α : Type} {f : DocumentFiles K} {content : List K}
    {result : FileStore K × Except FileStoreError α} (hnow : s.clock < now)
    (hvalid : validateDocID docID = true) (hfiles : f.Until now)
    (hload : f.loadDocument = some content)
    (hresult : result.1 = s.fs.setDocument docID f ∧ ∃ a, result.2 = .ok a) :
    HistoryInv (s.wrote docID now content result) := by
  obtain ⟨fs, answer⟩ := result
  obtain ⟨rfl, a, rfl⟩ := hresult
  refine ⟨fun other => ?_, fun other written hwritten => ?_⟩
  · by_cases hother : other = docID
    · subst hother
      simpa [StoreHistory.wrote, FileStore.setDocument] using hfiles
    · simpa [StoreHistory.wrote, FileStore.setDocument, hother] using
        (h.files other).mono (le_of_lt hnow)
  · by_cases hother : other = docID
    · subst hother
      obtain rfl : content = written := by simpa [StoreHistory.wrote] using hwritten
      simp [StoreHistory.wrote, FileStore.load, FileStore.setDocument, hvalid, hload]
    · have hold : s.fs.load other = .ok written :=
        h.loads other written (by simpa [StoreHistory.wrote, hother] using hwritten)
      simpa [StoreHistory.wrote, FileStore.load, FileStore.setDocument, hother] using hold

lemma HistoryInv.refused (h : HistoryInv s) {α : Type} (hnow : s.clock < now)
    (e : FileStoreError) (content : List K) :
    HistoryInv (s.wrote docID now content (s.fs, (.error e : Except FileStoreError α))) where
  files other := (h.files other).mono (le_of_lt hnow)
  loads := h.loads

variable [DecidableEq K]

lemma HistoryInv.step {a : FileStoreCall K} (h : HistoryInv s) (hok : SeededText s a)
    (hs : s.step a = some t) : HistoryInv t := by
  cases a with
  | store docID now req =>
    obtain ⟨hnow, ⟨⟩⟩ := ite_none_right_eq_some.1 hs
    obtain ⟨hseed, hcontent⟩ := hok
    by_cases hvalid : validateDocID docID = true
    · have hle := le_of_lt hnow
      let f := (s.fs.documents docID).appendPointer now req.versionID req.content
      have hfiles : f.Until now := (h.files docID).appendPointer hle _ _
      have hload {f' : DocumentFiles K} (hfiles' : f'.Until now) (hseed' : f'.seed = f.seed)
          (hjournal : f'.fromJournal = f.fromJournal) : f'.loadDocument = some req.content := by
        refine DocumentFiles.loadDocument_of_journal (hseed' ▸ hseed) hfiles' (hjournal ▸ ?_)
        exact DocumentFiles.fromJournal_appendPointer _ _ _ _
      simp only [FileStore.store, if_pos hvalid, if_neg hcontent]
      split
      · -- the version created has the time of the journal, which wins the tie
        have hfiles' : (f.createVersion ⟨req.entryID, now, req.content⟩).Until now :=
          hfiles.createVersion (le_refl now)
        exact h.wrote hnow hvalid hfiles' (hload hfiles' rfl rfl) ⟨rfl, _, rfl⟩
      · exact h.wrote hnow hvalid hfiles (hload hfiles rfl rfl) ⟨rfl, _, rfl⟩
    · rw [FileStore.store, if_neg hvalid]
      exact h.refused hnow _ _
  | createVersion docID now id content =>
    obtain ⟨hnow, ⟨⟩⟩ := ite_none_right_eq_some.1 hs
    by_cases hvalid : validateDocID docID = true
    · rw [FileStore.createVersion, if_pos hvalid]
      exact h.wrote hnow hvalid
        (((h.files docID).mono (le_of_lt hnow)).createVersion (le_refl now))
        (DocumentFiles.loadDocument_createVersion hok (h.files docID) hnow) ⟨rfl, _, rfl⟩
    · rw [FileStore.createVersion, if_neg hvalid]
      exact h.refused hnow _ _
  | setAutoVersion enabled =>
    cases hs
    exact { h with }

/-- In every sequence of calls for documents with a seed file in which no empty text is stored,
`Load` returns the content given to the last call. -/
theorem loads_last_write_of_seededText (seeds : DocID → Option (List K)) (autoVersion : Bool)
    {s : StoreHistory K} (hrun : Run StoreHistory.step SeededText (.initial seeds autoVersion) s) :
    LoadsLastWrite s := by
  have hinv : HistoryInv s := by
    refine hrun.invariant (P := HistoryInv) ⟨fun docID => ⟨?_, ?_⟩, ?_⟩
      fun _ _ _ h hok hs => h.step hok hs
    · simp [StoreHistory.initial]
    · simp [StoreHistory.initial]
    · simp [LoadsLastWrite, StoreHistory.initial]
  exact hinv.loads

end

/-- Auto-versioning on: a text is stored, a version created, a text stored again, and the same text
once more, for which no version is created. -/
theorem loads_last_write_autoVersioned : ∃ s : StoreHistory Nat, Run StoreHistory.step SeededText
        (.initial (fun _ => some [0]) true) s ∧
      s.lastWrite ['d'] = some [3] ∧ s.fs.load ['d'] = .ok [3] ∧ LoadsLastWrite s :=
  exists_run_imp
    [.store ['d'] 1 ⟨[1], 1, 10, 20⟩, .createVersion ['d'] 2 21 [2],
      .store ['d'] 3 ⟨[3], 1, 11, 22⟩, .store ['d'] 4 ⟨[3], 1, 12, 23⟩]
    (P := fun s => s.lastWrite ['d'] = some [3] ∧ (s.fs.documents ['d']).versions.length = 3)
    (by decide +kernel) fun _ hrun ⟨hlast, _⟩ =>
      have hloads := loads_last_write_of_seededText _ _ hrun
      ⟨hlast, hloads _ _ hlast, hloads⟩

/-- A text that is stored for a document without a seed file is not loaded, and the empty text
does not replace one that was stored before. -/
theorem stored_text_not_loaded :
    (∃ s : StoreHistory Nat, Run StoreHistory.step anyStep (.initial (fun _ => none) false) s ∧
      s.lastWrite ['d'] = some [1] ∧ s.fs.load ['d'] = .ok []) ∧
    ∃ s : StoreHistory Nat, Run StoreHistory.step anyStep (.initial (fun _ => some [0]) false) s ∧
      s.lastWrite ['d'] = some [] ∧ s.fs.load ['d'] = .ok [1] :=
  ⟨exists_run [.store ['d'] 1 ⟨[1], 1, 10, 20⟩] (by decide +kernel),
    exists_run [.store ['d'] 1 ⟨[1], 1, 10, 20⟩, .store ['d'] 2 ⟨[], 1, 11, 21⟩]
      (by decide +kernel)⟩

end CollabEditor.StorageDemo
