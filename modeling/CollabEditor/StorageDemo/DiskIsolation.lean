import CollabEditor.StorageDemo.DiskZone
import CollabEditor.Support.Execution
/-!
# Documents on disk are apart

Every operation keeps to the zone of its document, and the queries read nothing else.  The zones of
two documents are apart.
-/

namespace CollabEditor.StorageDemo.Disk

open Support FilePath FileTree FileProgram Execution List

section

variable {β σ γ : Type} {codec : Codec β σ} {base : Path} {d : DocID} {readOnly : Bool}

open Discipline

abbrev KeepsTo {ε : Type} (codec : Codec β σ) (base : Path) (d : DocID) (readOnly : Bool)
    (prog : Prog ε γ) : Prop :=
  (discipline codec base d readOnly).Follows (fun _ => True) prog

lemma keepsTo_pure {ε : Type} (value : γ) :
    KeepsTo codec base d readOnly (pure value : Prog ε γ) :=
  follows_pure.2 trivial

/-! ## What reads -/

lemma follows_validate :
    (discipline codec base d readOnly).Follows (fun _ => validateDocID d) (validate d) := by
  unfold validate
  split
  · rename_i hd
    exact follows_pure.2 hd
  · exact follows_fail _

lemma follows_decoded (what : String) (result : Except String γ) :
    (discipline codec base d readOnly).Follows (fun value => result = .ok value)
      (decoded what result) := by
  unfold decoded
  split
  · exact follows_fail _
  · exact follows_pure.2 rfl

lemma follows_readAll {decode : Content → Except String γ} {keep : Name → Bool} {dir : Path}
    {post : γ → Prop}
    (hat : ∀ name, Plain name → (discipline codec base d readOnly).At (child dir name).names)
    (hpost : ∀ name data value, Good codec base (child dir name).names data →
      decode data = .ok value → post value)
    {entries : List (Name × Bool)} (hentries : ∀ e ∈ entries, Plain e.1) :
    (discipline codec base d readOnly).Follows (fun values => ∀ value ∈ values, post value)
      (readAll decode keep dir entries) := by
  induction entries with
  | nil => exact follows_pure.2 fun value hvalue => absurd hvalue not_mem_nil
  | cons entry rest ih =>
    obtain ⟨name, isDir⟩ := entry
    obtain ⟨hname, hrest⟩ := forall_mem_cons.1 hentries
    rw [readAll]
    split
    · exact ih hrest
    · refine (follows_readFile (hat name hname)).bind fun reply hreply => ?_
      split
      · exact ih hrest
      · rename_i data
        split
        · exact ih hrest
        · rename_i value hdecode
          refine (ih hrest).bind fun values hvalues => follows_pure.2 ?_
          exact forall_mem_cons.2 ⟨hpost name data value (hreply data rfl) hdecode, hvalues⟩

section

variable (hd : validateDocID d)
include hd

lemma follows_readVersions (keep : Name → Bool) {entries : List (Name × Bool)}
    (hentries : ∀ e ∈ entries, Plain e.1) :
    (discipline codec base d readOnly).Follows (fun versions => ∀ v ∈ versions, validUUID v.id)
      (readAll codec.decodeVersion keep (versionsDir base d) entries) := by
  refine follows_readAll (fun _ => at_versionFile hd) (fun name data entry hgood hdecode => ?_)
    hentries
  exact hgood.version d name (by rw [child, versionsDir_names base hd]) entry hdecode

lemma follows_journalVersion : KeepsTo codec base d readOnly (journalVersion base d) := by
  refine (follows_readFile (at_yjsPath hd)).bind fun reply hreply => ?_
  split
  · exact keepsTo_pure _
  · rename_i journal
    split
    · exact keepsTo_pure _
    · rename_i hpointer
      obtain ⟨ids, hids, rfl⟩ := (hreply journal rfl).journal d (yjsPath_names base hd)
      obtain ⟨id, hid, hlast⟩ := (lastVersionPath_journal hd hids).resolve_left hpointer
      have htext : (discipline codec base d readOnly).At
          (base.join [lastVersionPath (ids.flatMap (journalLine d))]).names := by
        rw [hlast, pointer_names base hd (hids id hid)]
        exact at_text hd (hids id hid)
      refine (follows_readFile htext).bind fun reply _ => ?_
      split
      · exact keepsTo_pure _
      · refine (follows_modTime (at_yjsPath hd)).bind fun reply _ => ?_
        split <;> exact keepsTo_pure _

lemma follows_latestFormalVersion :
    KeepsTo codec base d readOnly (latestFormalVersion codec base d) := by
  refine (follows_readDir (at_versionsDir hd)).bind fun reply hreply => ?_
  split
  · exact keepsTo_pure _
  · exact (follows_readVersions hd _ (hreply _ rfl)).returns _

lemma follows_readThread {id : Text} (hid : validUUID id) :
    (discipline codec base d readOnly).Follows (fun thread => ∀ t, thread = some t → validUUID t.id)
      (readThread codec base d id) := by
  refine (follows_readFile (at_threadPath hd hid)).bind fun reply hreply => ?_
  split
  · exact follows_pure.2 fun t ht => by cases ht
  · exact follows_fail _
  · rename_i data
    refine (follows_decoded _ _).bind fun thread hdecode => follows_pure.2 ?_
    intro t ht
    cases ht
    exact (hreply data rfl).thread d _ (threadPath_names base hd hid) _ hdecode

lemma follows_readAllThreads : KeepsTo codec base d readOnly (readAllThreads codec base d) := by
  refine (follows_readDir (at_threadsDir hd)).bind fun reply hreply => ?_
  split
  · exact keepsTo_pure _
  · exact follows_fail _
  · refine (follows_readAll (fun _ => at_threadFile hd) (fun _ _ _ _ _ => trivial)
      (hreply _ rfl)).mono fun _ _ => trivial

lemma follows_readChangesSince (since : Nat) :
    KeepsTo codec base d readOnly (readChangesSince codec base d since) := by
  refine (follows_readFile (at_changeLogPath hd)).bind fun reply _ => ?_
  split
  · exact keepsTo_pure _
  · exact follows_fail _
  · exact keepsTo_pure _

end

lemma follows_load : KeepsTo codec base d readOnly (load codec base d) := by
  have hdocument : KeepsTo codec base d readOnly (loadDocument codec base d) := by
    refine follows_validate.bind fun _ hd => ?_
    refine (follows_readFile (at_filePath hd)).bind fun reply _ => ?_
    split
    · exact keepsTo_pure _
    · exact follows_fail _
    · refine (follows_journalVersion hd).bind fun _ _ => ?_
      exact (follows_latestFormalVersion hd).returns _
  refine hdocument.bind fun content _ => ?_
  split <;> exact keepsTo_pure _

lemma follows_listVersions : KeepsTo codec base d readOnly (listVersions codec base d) := by
  refine follows_validate.bind fun _ hd => ?_
  refine (follows_readDir (at_versionsDir hd)).bind fun reply hreply => ?_
  split
  · exact keepsTo_pure _
  · exact follows_fail _
  · exact (follows_readVersions hd _ (hreply _ rfl)).returns _

lemma follows_getVersion (versionID : Text) :
    KeepsTo codec base d readOnly (getVersion codec base d versionID) := by
  refine follows_validate.bind fun _ hd => ?_
  split
  · exact follows_fail _
  · rename_i hid
    refine (follows_readFile (at_versionPath hd (by simpa using hid))).bind fun reply _ => ?_
    split
    · exact keepsTo_pure _
    · exact follows_fail _
    · exact (follows_decoded _ _).returns _

lemma follows_getClientMappings :
    KeepsTo codec base d readOnly (getClientMappings codec base d) := by
  refine follows_validate.bind fun _ hd => ?_
  refine (follows_readFile (at_clientMappingsPath hd)).bind fun reply _ => ?_
  split
  · exact keepsTo_pure _
  · exact follows_fail _
  · exact (follows_decoded _ _).mono fun _ _ => trivial

lemma follows_listCommentThreads :
    KeepsTo codec base d readOnly (listCommentThreads codec base d) := by
  refine follows_validate.bind fun _ hd => ?_
  exact (follows_readAllThreads hd).returns _

lemma follows_getCommentThread (threadID : Text) :
    KeepsTo codec base d readOnly (getCommentThread codec base d threadID) := by
  refine follows_validate.bind fun _ hd => ?_
  split
  · exact keepsTo_pure _
  · rename_i hid
    exact (follows_readThread hd (by simpa using hid)).mono fun _ _ => trivial

lemma follows_pollCommentChanges (since : Text) :
    KeepsTo codec base d readOnly (pollCommentChanges codec base d since) := by
  refine follows_validate.bind fun _ hd => ?_
  have htime : KeepsTo codec base d readOnly (parseSince codec since) := by
    unfold parseSince
    split
    · exact keepsTo_pure _
    · exact (follows_decoded _ _).mono fun _ _ => trivial
  refine htime.bind fun sinceTime _ => (follows_readChangesSince hd sinceTime).bind fun _ _ => ?_
  exact follows_now.returns _

lemma follows_query (q : Query) :
    KeepsTo codec base d readOnly (q.program codec base d : Store (Answer σ)) := by
  cases q with
  | load => exact follows_load.returns _
  | listVersions => exact follows_listVersions.returns _
  | getVersion id =>
    exact (follows_getVersion id).returns _
  | getClientMappings => exact follows_getClientMappings.returns _
  | listCommentThreads =>
    exact follows_listCommentThreads.returns _
  | pollCommentChanges since => exact (follows_pollCommentChanges since).returns _

/-! ## What writes -/

section

variable (hd : validateDocID d)
include hd

lemma follows_contentMatchesLatestVersion (content : Text) :
    KeepsTo codec base d false (contentMatchesLatestVersion codec base d content) := by
  refine (follows_readDir (at_versionsDir hd)).bind fun reply hreply => ?_
  split
  · exact keepsTo_pure _
  · refine (follows_readVersions hd _ (hreply _ rfl)).bind fun versions hversions => ?_
    split
    · exact keepsTo_pure _
    · rename_i first rest hsorted
      have hmem : first ∈ newestFirst VersionEntry.createdAt versions :=
        hsorted ▸ mem_cons_self
      have hid : validUUID first.id := hversions first ((mem_insertionSort _).1 hmem)
      refine (follows_readFile (at_versionPath hd hid)).bind fun reply _ => ?_
      split
      · exact keepsTo_pure _
      · split <;> exact keepsTo_pure _

lemma follows_resolveTopContributor (updates : List Nat) :
    KeepsTo codec base d false (resolveTopContributor codec base d updates) := by
  refine (follows_range _).bind fun order _ => ?_
  refine (follows_readFile (at_clientMappingsPath hd)).bind fun reply _ => ?_
  split
  · exact keepsTo_pure _
  · split
    · exact keepsTo_pure _
    · split <;> exact keepsTo_pure _

lemma follows_createVersionLocked (req : CreateVersionRequest) :
    KeepsTo codec base d false (createVersionLocked codec base d req) := by
  refine (follows_mkdirAll rfl (near_of_at (at_versionsDir hd))).orFail fun _ => ?_
  refine follows_newID.bind fun id hid => follows_now.bind fun now _ => ?_
  split
  · exact follows_fail _
  · rename_i data hencode
    refine (follows_writeFile rfl (at_versionPath hd hid) ?_).orFail fun _ => keepsTo_pure _
    rw [versionPath_names base hd hid]
    exact good_version (show validUUID (newVersion id now req).id from hid) hencode _

lemma follows_storeVersion (req : StoreRequest) (mimeType : Text) :
    KeepsTo codec base d false (storeVersion codec base d req mimeType) := by
  refine (follows_contentMatchesLatestVersion hd req.content).bind fun same _ => ?_
  split
  · exact keepsTo_pure _
  · refine (follows_resolveTopContributor hd req.updates).bind fun creator _ => ?_
    refine (follows_createVersionLocked hd _).attempt.bind fun result _ => ?_
    split <;> exact keepsTo_pure _

lemma follows_appendJournal {id : Text} (hid : validUUID id) : KeepsTo codec base d false
      (Prog.append (yjsPath base d).names (journalLine d id) : Store _) := by
  have hnames := yjsPath_names base hd
  refine follows_append rfl (at_yjsPath hd) ?_ fun old hold => ?_
  · rw [hnames]
    exact good_journal (forall_mem_singleton.2 hid) (flatMap_singleton _ _).symm
  · obtain ⟨ids, hids, rfl⟩ := hold.journal d hnames
    have happend : ∀ x ∈ ids ++ [id], validUUID x :=
      forall_mem_append.2 ⟨hids, forall_mem_singleton.2 hid⟩
    rw [hnames]
    exact good_journal happend (by rw [flatMap_append, flatMap_singleton])

lemma follows_writeThread {thread : Thread β} (hid : validUUID thread.id) :
    KeepsTo codec base d false (writeThread codec base d thread) := by
  refine (follows_mkdirAll rfl (near_of_at (at_threadsDir hd))).orFail fun _ => ?_
  split
  · exact follows_fail _
  · rename_i data hencode
    refine (follows_writeFile rfl (at_threadPath hd hid) ?_).bind
      fun _ _ => follows_orFail fun _ _ => trivial
    rw [threadPath_names base hd hid]
    exact good_thread hid hencode _

lemma follows_appendChange (change : CommentChange) :
    KeepsTo codec base d false (appendChange codec base d change) := by
  have hnames := changeLogPath_names base hd
  have hdir : (discipline codec base d false).Near (dirOf (changeLogPath base d)).names := by
    rw [dirOf, hnames, dropLast_concat]
    exact near_of_at (at_of_mem hd commentsDir_mem)
  refine (follows_mkdirAll rfl hdir).bind fun reply _ => ?_
  split
  · exact keepsTo_pure _
  · split
    · exact keepsTo_pure _
    · have hgood : ∀ content, Good codec base (changeLogPath base d).names content := fun _ => by
        rw [hnames]
        exact good_changeLog
      exact (follows_append rfl (at_changeLogPath hd) (hgood _) fun _ _ => hgood _).returns _

lemma follows_mutateThread {threadID : Text} (hid : validUUID threadID) (req : ThreadRequest β)
    (log : Option (Nat → Nat → CommentChange)) :
    KeepsTo codec base d false (mutateThread codec base d threadID req log) := by
  unfold mutateThread
  split
  · exact follows_fail _
  · refine (follows_readThread hd hid).bind fun found hfound => ?_
    split
    · exact follows_fail _
    · rename_i thread
      refine follows_now.bind fun now _ => ?_
      split
      · exact follows_fail _
      · rename_i details _
        have hid : validUUID ({ thread with details := details } : Thread β).id := hfound thread rfl
        refine (follows_writeThread hd hid).bind fun _ _ => ?_
        split
        · exact keepsTo_pure _
        · refine follows_now.bind fun later _ => ?_
          exact (follows_appendChange hd _).returns _

end

lemma follows_createVersion (req : CreateVersionRequest) :
    KeepsTo codec base d false (createVersion codec base d req) :=
  follows_validate.bind fun _ hd => follows_createVersionLocked hd req

lemma follows_store (autoVersion : Bool) (req : StoreRequest) :
    KeepsTo codec base d false (store codec base autoVersion d req) := by
  refine follows_validate.bind fun _ hd => ?_
  split
  · exact keepsTo_pure _
  · refine follows_newID.bind fun id hid => ?_
    refine (follows_mkdirAll rfl (near_of_at (at_versionDir hd hid))).orFail fun _ => ?_
    refine (follows_writeFile rfl ?_ ?_).orFail fun _ => ?_
    · rw [textPath_names base hd hid]
      exact at_text hd hid
    · rw [textPath_names base hd hid, append_assoc]
      exact good_append (by simp) (by simp) (by simp)
    refine (follows_mkdirAll rfl ?_).orFail fun _ => ?_
    · rw [dirOf, yjsPath_names base hd, dropLast_append_cons]
      exact near_of_mem yjsPath_mem (by decide)
    refine (follows_appendJournal hd hid).orFail fun _ => ?_
    split
    · exact (follows_storeVersion hd req _).returns _
    · exact keepsTo_pure _

lemma follows_storeClientMappings (mappings : List ClientUserMapping) :
    KeepsTo codec base d false (storeClientMappings codec base d mappings) := by
  refine follows_validate.bind fun _ hd => ?_
  refine (follows_mkdirAll rfl ?_).orFail fun _ => ?_
  · rw [Path.names_join _ (forall_mem_singleton.2 (by decide))]
    exact near_of_mem clientMappingsPath_mem (by decide)
  have hold : KeepsTo codec base d false (existingMappings codec base d) := by
    refine (follows_readFile (at_clientMappingsPath hd)).bind fun reply _ => ?_
    split
    · exact keepsTo_pure _
    · exact (follows_decoded _ _).mono fun _ _ => trivial
  refine hold.bind fun old _ => (follows_range _).bind fun order _ => ?_
  refine (follows_decoded _ _).bind fun data _ => ?_
  refine (follows_writeFile rfl (at_clientMappingsPath hd) ?_).bind
    fun _ _ => follows_orFail fun _ _ => trivial
  rw [clientMappingsPath_names base hd]
  exact good_append (by simp) (by simp) (by simp)

lemma follows_createCommentThread (req : CreateThreadRequest β) :
    KeepsTo codec base d false (createCommentThread codec base d req) := by
  refine follows_validate.bind fun _ hd => ?_
  split
  · exact follows_fail _
  · refine (follows_mkdirAll rfl (near_of_at (at_threadsDir hd))).orFail fun _ => ?_
    refine follows_now.bind fun now _ => ?_
    split
    · exact follows_fail _
    · split
      · exact follows_fail _
      · rename_i hid
        have hid : validUUID req.id := by simpa using hid
        refine (follows_readThread hd hid).bind fun found _ => ?_
        split
        · exact follows_fail _
        · split
          · exact follows_fail _
          · rename_i details _
            have hid : validUUID (⟨req.id, now, details⟩ : Thread β).id := hid
            refine (follows_writeThread hd hid).bind fun _ _ => ?_
            exact (follows_appendChange hd _).returns _

lemma follows_changeThread (threadID : Text) (req : ThreadRequest β)
    (log : Option (Nat → Nat → CommentChange)) :
    KeepsTo codec base d false (changeThread codec base d threadID req log) := by
  refine follows_validate.bind fun _ hd => ?_
  split
  · exact follows_fail _
  · rename_i hid
    exact follows_mutateThread hd (by simpa using hid) req log

lemma follows_changeComment (threadID commentID : Text) (req : ThreadRequest β) :
    KeepsTo codec base d false (changeComment codec base d threadID commentID req) := by
  refine follows_validate.bind fun _ hd => ?_
  split
  · exact follows_fail _
  · rename_i hids
    have hids : validUUID threadID ∧ validUUID commentID := by simpa using hids
    exact follows_mutateThread hd hids.1 req none

lemma follows_deleteCommentThread (threadID : Text) :
    KeepsTo codec base d false (deleteCommentThread codec base d threadID) := by
  refine follows_validate.bind fun _ hd => ?_
  split
  · exact follows_fail _
  · rename_i hid
    refine (follows_remove rfl (at_threadPath hd (by simpa using hid))).bind fun _ _ => ?_
    split
    · exact follows_now.bind fun now _ => follows_appendChange hd _
    · exact follows_now.bind fun now _ => follows_appendChange hd _
    · exact follows_fail _

lemma follows_operation (op : Operation β) :
    KeepsTo codec base d false (op.program codec base d) := by
  cases op with
  | query q => exact (follows_query q).returns _
  | store autoVersion req => exact (follows_store autoVersion req).returns _
  | createVersion req =>
    exact (follows_createVersion req).returns _
  | storeClientMappings mappings => exact follows_storeClientMappings mappings
  | getCommentThread id => exact (follows_getCommentThread id).returns _
  | createCommentThread req =>
    exact (follows_createCommentThread req).returns _
  | deleteCommentThread id => exact follows_deleteCommentThread id
  | addReply | updateThreadStatus | addReaction | removeReaction | decideSuggestion =>
    exact (follows_changeThread _ _ _).returns _
  | updateComment | deleteComment =>
    exact (follows_changeComment _ _ _).returns _

end

/-! ## Runs -/

/-- The base directory before the stores have been given anything to write: it is there, and no
file lies where journals, versions and threads are kept. -/
structure Opened (base : Path) (tree : Option Node) : Prop where
  isDir : ∃ entries, walk base.names tree = .ok (.dir entries)
  unused : ∀ path content modTime, walk path tree = .ok (.file content modTime) →
    ∀ dir ∈ ownDirs.map Prod.fst, ¬base.names ++ [dir] <+: path

structure Kept {β σ : Type} (codec : Codec β σ) (base : Path) (s : State) : Prop where
  files : ∀ path content modTime, walk path s.tree = .ok (.file content modTime) →
    Good codec base path content
  touched : ∀ path ∈ s.touched, Inside base.names path

section

variable {β σ : Type} {codec : Codec β σ} {base : Path} {s t : State} {a : Action β} {d : DocID}

lemma Opened.kept {tree : Option Node} (h : Opened base tree) : Kept codec base ⟨tree, []⟩ := by
  refine ⟨fun path content modTime hwalk => ?_, fun path hpath => absurd hpath not_mem_nil⟩
  have hunused := h.unused path content modTime hwalk
  refine ⟨fun d hpath => ?_, fun d name hpath => ?_, fun d name hpath => ?_⟩
  · exact absurd ⟨_, by rw [hpath, append_assoc]; rfl⟩ (hunused ".yjs".toList (by decide))
  · exact absurd ⟨_, by rw [hpath, append_assoc, append_assoc]; rfl⟩
      (hunused ".versions".toList (by decide))
  · exact absurd ⟨_, by rw [hpath, append_assoc, append_assoc]; rfl⟩
      (hunused ".comments".toList (by decide))

section

variable (h : Kept codec base s)
include h

lemma Kept.sound (d : DocID) (readOnly : Bool) (draws : Draws) :
    (discipline codec base d readOnly).Sound { s with env := draws.env } :=
  { h with ids := draws.uuids }

lemma Kept.of_step (hstep : step codec base s a = some t) : Kept codec base t := by
  cases hstep
  have hsound := (follows_operation a.operation).sound
    (h.sound a.docID false a.draws)
  exact { hsound with }

lemma Kept.walk_eq (hstep : step codec base s a = some t) {q : List Name}
    (hapart : ∀ r ∈ zone base a.docID, Apart r q) (hfits : ∀ name ∈ q, name.length ≤ nameMax) :
    walk q t.tree = walk q s.tree := by
  cases hstep
  exact (follows_operation a.operation).walk_eq (h.sound a.docID false a.draws)
    hapart hfits

lemma Kept.ask_eq (q : Query) (draws : Draws)
    (hzone : ∀ r ∈ zone base d, walk r t.tree = walk r s.tree) :
    q.ask codec base d draws t.tree = q.ask codec base d draws s.tree := by
  have hsound : Kept codec base ⟨s.tree, []⟩ :=
    ⟨h.files, fun path hpath => absurd hpath not_mem_nil⟩
  refine ((follows_query q).result_eq rfl (hsound.sound d true draws) ?_).symm
  exact ⟨fun r hr => (hzone r hr).symm, rfl⟩

lemma Kept.of_run {d₁ d₂ : DocID} (hd₁ : validateDocID d₁) (hd₂ : validateDocID d₂)
    (hne : d₁ ≠ d₂) (hbase : ∀ name ∈ base.names, name.length ≤ nameMax) (hlength : d₂.length ≤ 250)
    (hrun : Run (step codec base) (fun _ a => a.docID = d₁) s t) :
    Kept codec base t ∧ ∀ r ∈ zone base d₂, walk r t.tree = walk r s.tree := by
  refine hrun.invariant (P := fun t => Kept codec base t ∧
    ∀ r ∈ zone base d₂, walk r t.tree = walk r s.tree) ⟨h, fun _ _ => rfl⟩ ?_
  intro t u a ⟨hkept, hzone⟩ ha hstep
  refine ⟨hkept.of_step hstep, fun r hr => (hkept.walk_eq hstep ?_ ?_).trans (hzone r hr)⟩
  · exact fun r₁ hr₁ => apart_of_mem_zone hd₁ hd₂ hne (ha ▸ hr₁) hr
  · exact length_le_of_mem_zone hbase hlength hr

end

theorem documents_isolated_on_disk {tree : Option Node} (hopened : Opened base tree)
    {d₁ d₂ : DocID} (hd₁ : validateDocID d₁) (hd₂ : validateDocID d₂) (hne : d₁ ≠ d₂)
    (hbefore : Run (step codec base) anyStep ⟨tree, []⟩ s)
    (hrun : Run (step codec base) (fun _ a => a.docID = d₁) s t) :
    (∀ path ∈ t.touched, Inside base.names path) ∧ (d₂.length ≤ 250 → ∀ (q : Query) (draws : Draws),
        q.ask codec base d₂ draws t.tree = q.ask codec base d₂ draws s.tree) := by
  have hs : Kept codec base s :=
    hbefore.invariant hopened.kept fun _ _ _ h _ hstep => h.of_step hstep
  refine ⟨(hrun.invariant hs fun _ _ _ h _ hstep => h.of_step hstep).touched, ?_⟩
  intro hlength q draws
  obtain ⟨entries, hbase⟩ := hopened.isDir
  exact hs.ask_eq q draws (hs.of_run hd₁ hd₂ hne (length_le_of_walk hbase) hlength hrun).2

end

def idCodec : Codec Unit Unit where
  encodeVersion entry := .ok entry.id
  decodeVersion content := .ok ⟨content, 0, [], [], [], [], [], []⟩
  encodeThread thread := .ok thread.id
  decodeThread content := .ok ⟨content, 0, ()⟩
  encodeMappings _ := .ok []
  decodeMappings _ := .ok []
  encodeChange _ := .ok []
  decodeChange _ := .ok ⟨[], "", [], 0, []⟩
  parseTime _ := .ok 0
  threadListEntry _ := ()
  version_id hencode hdecode := by
    cases hencode
    cases hdecode
    rfl
  thread_id hencode hdecode := by
    cases hencode
    cases hdecode
    rfl

def dataDir : Path := clean "data".toList

def dataTree : Option Node :=
  some (.dir [("data".toList, .dir [(".yjs".toList, .dir []), (".comments".toList, .dir [])])])

def zeroDraws : Draws where
  env := ⟨fun _ => 0, fun _ => "00000000-0000-4000-8000-000000000000".toList, id⟩
  uuids _ := rfl

def storeMappings : Action Unit := ⟨"a".toList, .storeClientMappings [], zeroDraws⟩

lemma opened_dataTree : Opened dataDir dataTree := by
  refine ⟨⟨_, rfl⟩, fun path content modTime h => ?_⟩
  obtain ⟨name, rest, node, rfl, hmem, h⟩ := exists_of_walk_eq_file h
  cases mem_singleton.1 hmem
  obtain ⟨name, rest, node, rfl, hmem, h⟩ := exists_of_walk_eq_file h
  obtain rfl : node = .dir [] := by
    rcases mem_cons.1 hmem with heq | hmem
    · exact congrArg Prod.snd heq
    · exact congrArg Prod.snd (mem_singleton.1 hmem)
  obtain ⟨_, _, _, -, hmem, -⟩ := exists_of_walk_eq_file h
  exact absurd hmem not_mem_nil

def storeText (docID : DocID) (content : Text) : Action Unit :=
  ⟨docID, .store true ⟨[1], content, "text/plain".toList⟩, zeroDraws⟩

def startThread : Action Unit :=
  ⟨"a".toList, .createCommentThread ⟨zeroDraws.env.ids 0, .ok (), fun _ => .ok (), []⟩, zeroDraws⟩

/-- Both documents are stored, and the first one gets client mappings and a thread. -/
theorem mappings_of_letters_apart :
    ∃ s ∈ exec (step idCodec dataDir) anyStep ⟨dataTree, []⟩ [storeText "b".toList "x".toList],
    ∃ t ∈ exec (step idCodec dataDir) (fun _ a => a.docID = "a".toList) s
        [storeText "a".toList "hi".toList, storeMappings, startThread],
      (∀ path ∈ t.touched, Inside dataDir.names path) ∧
      (∀ (q : Query) (draws : Draws), q.ask idCodec dataDir "b".toList draws t.tree =
        q.ask idCodec dataDir "b".toList draws s.tree) ∧
      Query.listVersions.ask idCodec dataDir "b".toList zeroDraws t.tree =
        .ok (.versions [⟨zeroDraws.env.ids 0, 0, [], [], [], []⟩]) ∧
      Query.listCommentThreads.ask idCodec dataDir "a".toList zeroDraws t.tree =
        .ok (.threads [()]) := by
  obtain ⟨s, hbefore, t, hrun, hanswers⟩ : ∃ s ∈ exec (step idCodec dataDir) anyStep
        ⟨dataTree, []⟩ [storeText "b".toList "x".toList],
      ∃ t ∈ exec (step idCodec dataDir) (fun _ a => a.docID = "a".toList) s
          [storeText "a".toList "hi".toList, storeMappings, startThread],
        Query.listVersions.ask idCodec dataDir "b".toList zeroDraws t.tree =
            .ok (.versions [⟨zeroDraws.env.ids 0, 0, [], [], [], []⟩]) ∧
          Query.listCommentThreads.ask idCodec dataDir "a".toList zeroDraws t.tree =
            .ok (.threads [()]) := by
    decide +kernel
  have hne : "a".toList ≠ "b".toList := by decide
  have h := documents_isolated_on_disk opened_dataTree (by decide) (by decide) hne
    (run_of_exec hbefore) (run_of_exec hrun)
  exact ⟨s, hbefore, t, hrun, h.1, h.2 (by decide), hanswers⟩

section

variable {β σ : Type} {codec : Codec β σ} {base : Path} {d : DocID} {tree : Option Node}

lemma ask_getClientMappings_eq_error (hd : validateDocID d) (draws : Draws) {e : Errno}
    (h : walk (base.names ++ [".clients".toList, d ++ ".json".toList]) tree = .error e) :
    Query.getClientMappings.ask codec base d draws tree =
      if e = .notExist then .ok (.mappings []) else .error (.os "reading client mappings" e) := by
  have hvalidate : validate d = pure () := if_pos hd
  unfold Query.ask Query.program getClientMappings
  rw [hvalidate]
  simp only [bind, pure, Prog.bind, Prog.readFile, Prog.ask, Prog.run, perform,
    clientMappingsPath_names base hd, h, contentOf]
  cases e <;> rfl

lemma walk_clientMappings_too_long {entries : List (Name × Node)} (hlength : 250 < d.length)
    (h : walk (base.names ++ [".clients".toList]) tree = .ok (.dir entries)) :
    walk (base.names ++ [".clients".toList, d ++ ".json".toList]) tree = .error .nameTooLong := by
  have hlong : nameMax < (d ++ ".json".toList).length := by
    rw [length_append]
    exact Nat.add_lt_add_right hlength 5
  rw [show base.names ++ [".clients".toList, d ++ ".json".toList] =
    (base.names ++ [".clients".toList]) ++ [d ++ ".json".toList] by simp, walk_append, h]
  simp only [Except.bind, walk, find, if_pos hlong]

end

/-- An id for which the name of the client mappings is one too long. -/
def longID : DocID := List.replicate 251 'a'

theorem long_document_disturbed :
    Opened dataDir dataTree ∧ validateDocID storeMappings.docID ∧ validateDocID longID ∧
    storeMappings.docID ≠ longID ∧
    Query.getClientMappings.ask idCodec dataDir longID zeroDraws dataTree = .ok (.mappings []) ∧
    ∃ t, step idCodec dataDir ⟨dataTree, []⟩ storeMappings = some t ∧
      Query.getClientMappings.ask idCodec dataDir longID zeroDraws t.tree =
        .error (.os "reading client mappings" .nameTooLong) := by
  have hlong : validateDocID longID := by decide +kernel
  have hlength : 250 < longID.length := by
    rw [longID, length_replicate]
    decide
  have habsent : walk (dataDir.names ++ [".clients".toList, longID ++ ".json".toList]) dataTree =
    .error .notExist := rfl
  refine ⟨opened_dataTree, by decide, hlong, by decide, ?_, _, rfl, ?_⟩
  · exact ask_getClientMappings_eq_error hlong zeroDraws habsent
  · exact ask_getClientMappings_eq_error hlong zeroDraws
      (walk_clientMappings_too_long hlength rfl)

end CollabEditor.StorageDemo.Disk
