import CollabEditor.StorageDemo.ThreadInvariants
/-!
# Deleted comments

A deleted comment stays in its place, marked and without its content.  Nothing looks at the mark
when the comment is updated.  Its place is the first one with its id.
-/

namespace CollabEditor.StorageDemo.ThreadFiles.DeletedComments

open Support FaultyFiles Execution List Option

/-! ## The place of a comment -/

section

variable {commentID : Text} {comments : List Comment} {i : Nat}

def place (commentID : Text) (comments : List Comment) : Option Nat :=
  comments.findIdx? fun c => c.id = commentID

lemma place_eq_headers (t : CommentThread) :
    place commentID t.comments = t.headers.findIdx? fun h => h.id = commentID := by
  rw [CommentThread.headers, findIdx?_map]
  rfl

lemma place_of_prefix {old new : CommentThread} (hinitial : old.headers <+: new.headers)
    (h : place commentID old.comments = some i) : place commentID new.comments = some i := by
  rw [place_eq_headers] at h ⊢
  obtain ⟨rest, hrest⟩ := hinitial
  rw [← hrest, findIdx?_append, h]
  rfl

lemma changeFirst_eq_some {f : Comment → Comment} {changed : List Comment} {comment : Comment}
    (h : changeFirst commentID f comments = some (changed, comment)) :
    ∃ j, place commentID comments = some j ∧ changed = comments.modify j f := by
  induction comments generalizing changed with
  | nil => cases h
  | cons c rest ih =>
    rw [changeFirst] at h
    split at h
    case isTrue hid =>
      cases h
      exact ⟨0, by simp [place, findIdx?_cons, hid], rfl⟩
    case isFalse hid =>
      obtain ⟨next, hnext, ⟨⟩⟩ := map_eq_some_iff.1 h
      obtain ⟨j, hj, hmodify⟩ := ih hnext
      refine ⟨j + 1, ?_, congrArg (c :: ·) hmodify⟩
      rw [place] at hj ⊢
      simp [findIdx?_cons, hid, hj]

lemma exists_of_place (h : place commentID comments = some i) :
    ∃ c, comments[i]? = some c ∧ c.id = commentID := by
  obtain ⟨hlt, hid, -⟩ := findIdx?_eq_some_iff_getElem.1 h
  exact ⟨comments[i], getElem?_eq_getElem hlt, of_decide_eq_true hid⟩

lemma changeComment_place {old new : CommentThread} {other : Text} {f : Comment → Comment}
    {comment : Comment} (h : changeComment other f old = .ok (new, comment))
    (hplace : place commentID old.comments = some i) :
    new.comments[i]? = old.comments[i]?.map fun c => if other = commentID then f c else c := by
  obtain ⟨_, hfirst, rfl⟩ := changeComment_eq_ok h
  obtain ⟨j, hj, rfl⟩ := changeFirst_eq_some hfirst
  have hplaces : j = i ↔ other = commentID := by
    constructor
    · rintro rfl
      obtain ⟨c, hc, rfl⟩ := exists_of_place hplace
      obtain ⟨c', hc', rfl⟩ := exists_of_place hj
      rw [mem_unique hc hc']
    · rintro rfl
      exact mem_unique hj hplace
  dsimp only
  rw [getElem?_modify]
  simp only [hplaces]
  rfl

end

/-! ## A deleted comment -/

structure IsDeleted (c : Comment) : Prop where
  marked : c.deletedAt.isSome
  content : c.content = []
  mentions : c.mentions = []

def DeletedAt (i : Nat) (t : CommentThread) : Prop := ∃ c, t.comments[i]? = some c ∧ IsDeleted c

/-- An update of the comment says that it is empty. -/
def KeepsEmpty (commentID : Text) : Op → Prop
  | .updateComment _ _ id (some req) => id = commentID → req.content = [] ∧ req.mentions = []
  | _ => True

section

variable {json : Json} {commentID : Text} {i now : Nat} {old new t : CommentThread} {op : Op}

lemma isDeleted_clean_iff {c : Comment} : IsDeleted (c.clean json) ↔ IsDeleted c := by
  have hcontent : json.clean c.content = [] ↔ c.content = [] := by
    refine ⟨json.eq_nil c.content, fun h => ?_⟩
    rw [h]
    exact json.ascii [] nofun
  constructor
  · exact fun h => ⟨h.marked, hcontent.1 h.content, map_eq_nil_iff.1 h.mentions⟩
  · exact fun h => ⟨h.marked, hcontent.2 h.content, map_eq_nil_iff.2 h.mentions⟩

lemma deletedAt_clean_iff : DeletedAt i (t.clean json) ↔ DeletedAt i t := by
  simp only [DeletedAt, CommentThread.clean, getElem?_map, map_eq_some_iff]
  constructor
  · rintro ⟨_, ⟨c, hc, rfl⟩, h⟩
    exact ⟨c, hc, isDeleted_clean_iff.1 h⟩
  · rintro ⟨c, hc, h⟩
    exact ⟨_, ⟨c, hc, rfl⟩, isDeleted_clean_iff.2 h⟩

lemma deletedAt_of_map {g : Comment → Comment}
    (hmap : new.comments[i]? = old.comments[i]?.map g) (hg : ∀ c, IsDeleted c → IsDeleted (g c))
    (h : DeletedAt i old) : DeletedAt i new := by
  obtain ⟨c, hc, hdeleted⟩ := h
  rw [hc] at hmap
  exact ⟨g c, hmap, hg c hdeleted⟩

lemma deletedAt_update {req : ReactionRequest} {f : List Reaction → List Reaction}
    (h : DeletedAt i old) : DeletedAt i (req.update f old) := by
  rw [ReactionRequest.update]
  split
  · exact h
  · refine deletedAt_of_map (getElem?_map ..) (fun c hc => ?_) h
    split
    · exact ⟨hc.marked, hc.content, hc.mentions⟩
    · exact hc

lemma isDeleted_editComment_iff {req : UpdateCommentRequest} {c : Comment} (h : IsDeleted c) :
    IsDeleted (editComment now req c) ↔ req.content = [] ∧ req.mentions = [] :=
  ⟨fun hedited => ⟨hedited.content, hedited.mentions⟩,
    fun ⟨hcontent, hmentions⟩ => ⟨h.marked, hcontent, hmentions⟩⟩

lemma deletedAt_changes_iff (h : op.Changes now old new)
    (hplace : place commentID old.comments = some i) (hold : DeletedAt i old) :
    DeletedAt i new ↔ KeepsEmpty commentID op := by
  cases h with
  | addReply _ threadID req =>
    refine iff_of_true ?_ trivial
    obtain ⟨c, hc, hdeleted⟩ := hold
    obtain ⟨hlt, -⟩ := List.getElem?_eq_some_iff.1 hc
    exact ⟨c, (List.getElem?_append_left hlt).trans hc, hdeleted⟩
  | updateThreadStatus _ _ req =>
    refine iff_of_true ?_ trivial
    rw [setStatus]
    split <;> exact hold
  | updateComment _ _ other req hchange =>
    have hmap := changeComment_place hchange hplace
    obtain ⟨c, hc, hdeleted⟩ := hold
    rw [hc, map_some] at hmap
    simp only [DeletedAt, hmap, some.injEq, exists_eq_left']
    by_cases hid : other = commentID
    · rw [if_pos hid, isDeleted_editComment_iff hdeleted]
      exact ⟨fun h _ => h, fun h => h hid⟩
    · rw [if_neg hid]
      exact iff_of_true hdeleted fun h => absurd h hid
  | deleteComment _ _ other hchange =>
    refine iff_of_true (deletedAt_of_map (changeComment_place hchange hplace) (fun c hc => ?_) hold)
      trivial
    split
    · exact ⟨rfl, rfl, rfl⟩
    · exact hc
  | addReaction | removeReaction => exact iff_of_true (deletedAt_update hold) trivial
  | decideSuggestion _ _ _ hchange =>
    obtain ⟨suggestion, rfl⟩ := recordDecision_eq_ok hchange
    exact iff_of_true hold trivial

end

/-! ## After a deletion -/

def fileStep (json : Json) (files : Files Key CommentThread) (call : Call) :
    Option (Files Key CommentThread) :=
  some (perform json files call).1

/-- The files, and whether the thread has been there all the time. -/
structure Watched where
  files : Files Key CommentThread
  present : Bool := true

def watch (json : Json) (key : Key) (s : Watched) (call : Call) : Option Watched :=
  let files := (perform json s.files call).1
  some ⟨files, s.present && (files key).isSome⟩

def ShowsDeleted (key : Key) (commentID : Text) (i : Nat) (s : Watched) : Prop :=
  s.present = true → ∀ io t, getCommentThread s.files io key.1 key.2 = .ok (some t) →
    ∃ c, t.comments[i]? = some c ∧ c.id = commentID ∧ IsDeleted c

def Kept (key : Key) (commentID : Text) (s : Watched) (call : Call) : Prop :=
  s.present = true → call.op.key = key → (toWrite s.files call).isSome →
    (call.io.write = .done ∨ call.io.write = .unsynced) → KeepsEmpty commentID call.op

section

variable {json : Json} {key : Key} {commentID : Text} {i : Nat} {s t : Watched} {call : Call}

structure Watched.Placed (json : Json) (key : Key) (commentID : Text) (i : Nat) (s : Watched) :
    Prop where
  consistent : Consistent json s.files
  there : s.present = true → (s.files key).isSome
  place : s.present = true → ∀ t, s.files key = some (.whole t) →
    place commentID t.comments = some i

def Watched.Deleted (key : Key) (i : Nat) (s : Watched) : Prop :=
  s.present = true → ∀ t, s.files key = some (.whole t) → DeletedAt i t

lemma Watched.Placed.changes (h : s.Placed json call.op.key commentID i)
    (hpresent : s.present = true) {new : CommentThread} {response : Response}
    (hplan : plan s.files call.io call.now call.op = .ok (.write new, response)) :
    ∃ old, s.files call.op.key = some (.whole old) ∧ call.op.Changes call.now old new := by
  obtain hremove | ⟨_, hwrite, -, -, hnone, -⟩ | ⟨old, _, hwrite, hold, hchange⟩ := plan_eq_ok hplan
  · cases hremove
  · have hthere := h.there hpresent
    rw [hnone] at hthere
    cases hthere
  · cases hwrite
    exact ⟨old, hold, hchange⟩

lemma watch_eq (hstep : watch json key s call = some t) :
    t.files = (perform json s.files call).1 ∧
      (t.present = true ↔ s.present = true ∧ (t.files key).isSome = true) := by
  cases hstep
  exact ⟨rfl, Bool.and_eq_true_iff⟩

lemma Watched.Placed.watch (h : s.Placed json key commentID i)
    (hstep : watch json key s call = some t) : t.Placed json key commentID i := by
  obtain ⟨hfiles, hpresent⟩ := watch_eq hstep
  refine ⟨hfiles ▸ h.consistent.perform, fun ht => (hpresent.1 ht).2, fun ht thread hthread => ?_⟩
  obtain ⟨hs, -⟩ := hpresent.1 ht
  rw [hfiles] at hthread
  obtain hold | ⟨rfl, new, response, hplan, rfl, -⟩ := perform_whole h.consistent hthread
  · exact h.place hs thread hold
  · obtain ⟨old, hold, hchange⟩ := h.changes hs hplan
    have hclean := h.consistent.clean _ old hold
    exact place_of_prefix (headers_prefix_clean hclean hchange.continues.headers)
      (h.place hs old hold)

lemma toWrite_eq_some {files : Files Key CommentThread} {new : CommentThread}
    (h : toWrite files call = some new) :
    ∃ response, plan files call.io call.now call.op = .ok (.write new, response) := by
  rw [toWrite] at h
  split at h <;> cases h
  exact ⟨_, by assumption⟩

lemma deleted_watch_iff (h : s.Placed json key commentID i) (hs : s.Deleted key i)
    (hstep : watch json key s call = some t) : t.Deleted key i ↔ Kept key commentID s call := by
  obtain ⟨hfiles, hpresent⟩ := watch_eq hstep
  constructor
  · intro ht hs' hkey hwrite hdone
    subst hkey
    obtain ⟨new, hnew⟩ := isSome_iff_exists.1 hwrite
    obtain ⟨response, hplan⟩ := toWrite_eq_some hnew
    obtain ⟨old, hold, hchange⟩ := h.changes hs' hplan
    have hwritten : t.files call.op.key = some (.whole (new.clean json)) := by
      rw [hfiles, perform_of_write h.consistent hplan]
      obtain hdone | hdone := hdone <;> rw [hdone] <;> exact Function.update_self ..
    have ht' : t.present = true := hpresent.2 ⟨hs', by rw [hwritten]; rfl⟩
    have hdeleted := deletedAt_clean_iff.1 (ht ht' _ hwritten)
    exact (deletedAt_changes_iff hchange (h.place hs' old hold) (hs hs' old hold)).1 hdeleted
  · intro hkept ht thread hthread
    obtain ⟨hs', -⟩ := hpresent.1 ht
    rw [hfiles] at hthread
    obtain hold | ⟨rfl, new, response, hplan, rfl, hdone⟩ := perform_whole h.consistent hthread
    · exact hs hs' thread hold
    · obtain ⟨old, hold, hchange⟩ := h.changes hs' hplan
      have hwrite : (toWrite s.files call).isSome := by rw [toWrite, hplan]; rfl
      have hempty := hkept hs' rfl hwrite hdone
      rw [deletedAt_clean_iff, deletedAt_changes_iff hchange (h.place hs' old hold)
        (hs hs' old hold)]
      exact hempty

lemma getCommentThread_eq_ok {files : Files Key CommentThread} {io : Io} {thread : CommentThread}
    (h : getCommentThread files io key.1 key.2 = .ok (some thread)) :
    files key = some (.whole thread) := by
  obtain ⟨-, h⟩ := require_bind_eq_ok.1 h
  split at h
  · exact readThread_eq_ok h
  · cases h

lemma showsDeleted_iff (hdoc : validDocID key.1 = true) (hid : validUUID key.2 = true)
    (h : s.Placed json key commentID i) : ShowsDeleted key commentID i s ↔ s.Deleted key i := by
  constructor
  · intro hshows hs thread hthread
    have hread : getCommentThread s.files {} key.1 key.2 = .ok (some thread) := by
      refine require_bind_eq_ok.2 ⟨hdoc, ?_⟩
      rw [if_pos hid, readThread, hthread]
      rfl
    obtain ⟨c, hc, -, hdeleted⟩ := hshows hs {} thread hread
    exact ⟨c, hc, hdeleted⟩
  · intro hdeleted hs io thread hread
    have hthread := getCommentThread_eq_ok hread
    obtain ⟨c, hc, hc'⟩ := hdeleted hs thread hthread
    obtain ⟨c', hplace, hcomment⟩ := exists_of_place (h.place hs thread hthread)
    cases hc.symm.trans hplace
    exact ⟨c, hc, hcomment, hc'⟩

end

lemma perform_written {json : Json} {files : Files Key CommentThread} {call : Call}
    {new : CommentThread} {planned response : Response} (hfiles : Consistent json files)
    (hplan : plan files call.io call.now call.op = .ok (.write new, planned))
    (h : (perform json files call).2 = .ok response) :
    (perform json files call).1 call.op.key = some (.whole (new.clean json)) := by
  rw [perform_of_write hfiles hplan] at h ⊢
  cases hio : call.io.write with
  | done => exact Function.update_self ..
  | refused | torn | unsynced =>
    rw [hio] at h
    cases h

def deletion (key : Key) (commentID : Text) (io : Io) (now : Nat) : Call where
  op := .deleteComment key.1 key.2 commentID
  io := io
  now := now

section

variable {json : Json} {before : Files Key CommentThread} {key : Key} {commentID : Text} {io : Io}
  {now : Nat} {response : Response}

lemma deletedAt_tombstone {old new : CommentThread} {comment : Comment} {i : Nat}
    (h : changeComment commentID (tombstone now) old = .ok (new, comment))
    (hplace : place commentID old.comments = some i) : DeletedAt i new := by
  obtain ⟨c, hc, -⟩ := exists_of_place hplace
  have hmap := changeComment_place h hplace
  rw [hc, map_some, if_pos rfl] at hmap
  exact ⟨tombstone now c, hmap, rfl, rfl, rfl⟩

lemma placed_deleted_of_deletion (hbefore : Consistent json before)
    (h : (perform json before (deletion key commentID io now)).2 = .ok response) :
    validDocID key.1 = true ∧ validUUID key.2 = true ∧ ∃ old i,
      before key = some (.whole old) ∧ place commentID old.comments = some i ∧
      (Watched.mk (perform json before (deletion key commentID io now)).1 true).Placed json key
        commentID i ∧
      (Watched.mk (perform json before (deletion key commentID io now)).1 true).Deleted key i := by
  match hplan : plan before io now (deletion key commentID io now).op with
  | .error e =>
    have hperform : perform json before (deletion key commentID io now) = _ :=
      perform_of_error hplan
    rw [hperform] at h
    cases h
  | .ok (target, planned) =>
    obtain ⟨hdoc, hid, old, new, comment, hold, rfl, hchange⟩ := deleteComment_eq_ok hplan
    have hafter : (perform json before (deletion key commentID io now)).1 key =
        some (.whole (new.clean json)) := perform_written hbefore hplan h
    obtain ⟨_, hfirst, -⟩ := changeComment_eq_ok hchange
    obtain ⟨i, hplace, -⟩ := changeFirst_eq_some hfirst
    have hclean := hbefore.clean key old hold
    have hcontinues := continues_changeComment hchange fun _ => rfl
    have hplace' := place_of_prefix (headers_prefix_clean hclean hcontinues.headers) hplace
    refine ⟨hdoc, hid, old, i, hold, hplace, ⟨hbefore.perform, fun _ => ?_, fun _ t ht => ?_⟩,
      fun _ t ht => ?_⟩
    · change isSome ((perform json before (deletion key commentID io now)).1 key)
      rw [hafter]
      rfl
    · cases hafter.symm.trans ht
      exact hplace'
    · cases hafter.symm.trans ht
      exact deletedAt_clean_iff.2 (deletedAt_tombstone hchange hplace)

lemma consistent_of_run (h : Run (fileStep json) anyStep (fun _ => none) before) :
    Consistent json before := by
  refine h.invariant (P := Consistent json) ⟨nofun, nofun⟩ fun files next call hfiles _ hstep => ?_
  cases hstep
  exact hfiles.perform

end

/-- After any calls, and a deletion that succeeds: the comment stays deleted, with its content
empty, through every call that does not update it to something else. The first that does brings
content back. -/
theorem deleted_comment_stays_iff (json : Json) (before : Files Key CommentThread)
    (hbefore : Run (fileStep json) anyStep (fun _ => none) before) (key : Key) (commentID : Text)
    (io : Io) (now : Nat) (response : Response)
    (hdelete : (perform json before (deletion key commentID io now)).2 = .ok response) :
    ∃ old i, before key = some (.whole old) ∧ place commentID old.comments = some i ∧
      ∀ s, Run (watch json key) (Kept key commentID)
          ⟨(perform json before (deletion key commentID io now)).1, true⟩ s →
        ShowsDeleted key commentID i s ∧ ∀ call t, watch json key s call = some t →
          (ShowsDeleted key commentID i t ↔ Kept key commentID s call) := by
  obtain ⟨hdoc, hid, old, i, hold, hplace, hplaced, hdeleted⟩ :=
    placed_deleted_of_deletion (consistent_of_run hbefore) hdelete
  refine ⟨old, i, hold, hplace, fun s hrun => ?_⟩
  have hs : s.Placed json key commentID i ∧ s.Deleted key i := by
    refine hrun.invariant (P := fun s => s.Placed json key commentID i ∧ s.Deleted key i)
      ⟨hplaced, hdeleted⟩ fun t u call ht hkept hstep => ?_
    exact ⟨ht.1.watch hstep, (deleted_watch_iff ht.1 ht.2 hstep).2 hkept⟩
  refine ⟨(showsDeleted_iff hdoc hid hs.1).2 hs.2, fun call t hstep => ?_⟩
  rw [showsDeleted_iff hdoc hid (hs.1.watch hstep)]
  exact deleted_watch_iff hs.1 hs.2 hstep

def deleteSample : Call := deletion sampleKey sampleComment.id {} 2

/-- A reply under the id of the deleted comment changes nothing of it. -/
theorem deleted_comment_stays_replied : ∃ (s : Watched) (i : Nat),
      (stored s.files sampleKey).map (·.comments.map (·.content)) = some [[], bytesOf "hello"] ∧
      ShowsDeleted sampleKey sampleComment.id i s ∧
      ∀ call t, watch .encoding sampleKey s call = some t →
        (ShowsDeleted sampleKey sampleComment.id i t ↔ Kept sampleKey sampleComment.id s call) := by
  obtain ⟨before, hexec, hdelete, hreplied⟩ :
      ∃ files ∈ exec (fileStep .encoding) anyStep (fun _ => none) [createSample],
        (perform .encoding files deleteSample).2 = .ok .none ∧
        (stored (perform .encoding (perform .encoding files deleteSample).1 (replySample .done)).1
          sampleKey).map (·.comments.map (·.content)) = some [[], bytesOf "hello"] := by
    decide +kernel
  obtain ⟨_, i, -, -, hstays⟩ := deleted_comment_stays_iff .encoding before (run_of_exec hexec)
    sampleKey sampleComment.id {} 2 .none hdelete
  exact ⟨_, i, hreplied, hstays _ (.tail (replySample .done) .refl (fun _ _ _ _ => trivial) rfl)⟩

def updateSample : Call where
  op := .updateComment sampleKey.1 sampleKey.2 sampleComment.id (some ⟨bytesOf "again", []⟩)
  now := 3

/-- The only comment of a thread is deleted and then updated: it is read with its mark and with the
new content. -/
theorem update_restores_deleted_comment :
    ∃ before : Files Key CommentThread, Run (fileStep .encoding) anyStep (fun _ => none) before ∧
      (perform .encoding before deleteSample).2 = .ok .none ∧
      ∃ s, Run (watch .encoding sampleKey) anyStep
          ⟨(perform .encoding before deleteSample).1, true⟩ s ∧
        s.present = true ∧
        ∃ t c, getCommentThread s.files {} sampleKey.1 sampleKey.2 = .ok (some t) ∧
          t.comments = [c] ∧ c.id = sampleComment.id ∧ c.deletedAt = some 2 ∧
          c.content = bytesOf "again" ∧ ¬ShowsDeleted sampleKey sampleComment.id 0 s := by
  obtain ⟨before, hexec, hdelete, hpresent, t, -, hread, c, -, hc, hid, hmark, hcontent, hsome⟩ :
      ∃ files ∈ exec (fileStep .encoding) anyStep (fun _ => none) [createSample],
        (perform .encoding files deleteSample).2 = .ok .none ∧
        let after := (perform .encoding (perform .encoding files deleteSample).1 updateSample).1
        (after sampleKey).isSome = true ∧ ∃ t ∈ stored after sampleKey,
          getCommentThread after {} sampleKey.1 sampleKey.2 = .ok (some t) ∧
          ∃ c ∈ t.comments.head?, t.comments = [c] ∧ c.id = sampleComment.id ∧
            c.deletedAt = some 2 ∧ c.content = bytesOf "again" ∧ c.content ≠ [] := by
    decide +kernel
  refine ⟨before, run_of_exec hexec, hdelete, _, .tail updateSample .refl trivial rfl,
    hpresent, t, c, hread, hc, hid, hmark, hcontent, fun hshows => ?_⟩
  obtain ⟨c', hc', -, hdeleted⟩ := hshows hpresent {} t hread
  rw [hc] at hc'
  cases hc'
  exact hsome hdeleted.content

end CollabEditor.StorageDemo.ThreadFiles.DeletedComments
