import CollabEditor.StorageDemo.ThreadFiles
/-!
# What calls make of a thread

Every change of a thread keeps its id, the headers of its comments, and that it has a time of
resolution exactly if it is resolved.  Reactions are found by the id in the request and stored under
that id as JSON has it.
-/

namespace CollabEditor.StorageDemo.ThreadFiles

open Support FaultyFiles List Function
open CollabEditor.Frontend (ThreadStatus)

/-! ## What is kept of a comment -/

/-- What nothing changes in a comment. -/
structure CommentHeader where
  id : Text
  threadID : Text
  authorID : Text
  authorName : Text
  createdAt : Nat

def Comment.header (c : Comment) : CommentHeader :=
  ⟨c.id, c.threadID, c.authorID, c.authorName, c.createdAt⟩

def CommentThread.headers (t : CommentThread) : List CommentHeader := t.comments.map Comment.header

def Distinct (list : List Reaction) : Prop :=
  list.Pairwise fun a b => ¬(a.userID = b.userID ∧ a.emoji = b.emoji)

def CommentThread.allReactions (t : CommentThread) : List (List Reaction) :=
  t.reactions :: t.comments.map Comment.reactions

structure CommentThread.WellFormed (t : CommentThread) : Prop where
  resolved : t.status = .resolved ↔ t.resolvedAt.isSome
  distinct : ∀ list ∈ t.allReactions, Distinct list

/-! ### JSON -/

section

variable {json : Json}

def CommentHeader.clean (json : Json) (h : CommentHeader) : CommentHeader :=
  ⟨json.clean h.id, json.clean h.threadID, json.clean h.authorID, json.clean h.authorName,
    h.createdAt⟩

lemma Mention.clean_clean (m : Mention) : (m.clean json).clean json = m.clean json := by
  simp only [Mention.clean, json.idempotent]

lemma Reaction.clean_clean (r : Reaction) : (r.clean json).clean json = r.clean json := by
  simp only [Reaction.clean, json.idempotent]

lemma Comment.clean_clean (c : Comment) : (c.clean json).clean json = c.clean json := by
  simp [Comment.clean, json.idempotent, Mention.clean_clean, Reaction.clean_clean]

lemma OperationSummary.clean_clean (o : OperationSummary) :
    (o.clean json).clean json = o.clean json := by
  simp only [OperationSummary.clean, json.idempotent]

lemma Suggestion.clean_clean (s : Suggestion) : (s.clean json).clean json = s.clean json := by
  simp [Suggestion.clean, SuggestionView.clean, json.idempotent, OperationSummary.clean_clean]

lemma CommentThread.clean_clean (t : CommentThread) :
    (t.clean json).clean json = t.clean json := by
  simp [CommentThread.clean, json.idempotent, Comment.clean_clean, Reaction.clean_clean,
    comp_def, Suggestion.clean_clean]

lemma CommentThread.headers_clean (t : CommentThread) :
    (t.clean json).headers = t.headers.map (·.clean json) := by
  simp only [headers, clean, map_map]
  rfl

lemma headers_prefix_clean {old new : CommentThread} (hclean : old.clean json = old)
    (h : old.headers <+: new.headers) : old.headers <+: (new.clean json).headers := by
  have hmap := h.map (·.clean json)
  rwa [← old.headers_clean, hclean, ← new.headers_clean] at hmap

lemma CommentThread.allReactions_clean (t : CommentThread) :
    (t.clean json).allReactions = t.allReactions.map (·.map (·.clean json)) := by
  simp only [allReactions, clean, map_cons, map_map]
  rfl

lemma clean_of_mem_allReactions {t : CommentThread} (h : t.clean json = t) {list : List Reaction}
    (hlist : list ∈ t.allReactions) : ∀ r ∈ list, r.clean json = r := by
  have hall : t.allReactions.map (·.map (·.clean json)) = t.allReactions.map id := by
    rw [← t.allReactions_clean, h, map_id]
  have hmap : list.map (·.clean json) = list.map id := by
    rw [map_id]
    exact map_inj_left.1 hall list hlist
  exact map_inj_left.1 hmap

lemma map_clean_eq {list : List Reaction} (h : ∀ r ∈ list, r.clean json = r) :
    list.map (·.clean json) = list := (map_congr_left h).trans list.map_id

lemma clean_of_mem_reactions {emoji : Text} (h : emoji ∈ reactions) : json.clean emoji = emoji := by
  have hascii : (reactions.all fun e => e.all (· < 0x80)) = true := by decide +kernel
  refine json.ascii emoji fun b hb => ?_
  exact of_decide_eq_true (all_eq_true.1 (all_eq_true.1 hascii emoji h) b hb)

lemma lt_of_isHexDigit {c : Char} (h : Disk.isHexDigit c = true) : c.toNat < 0x80 := by
  simp only [Disk.isHexDigit, Bool.or_eq_true, Bool.and_eq_true, decide_eq_true_eq, Char.le_def,
    UInt32.le_iff_toNat_le] at h
  have hnine : '9'.val.toNat = 57 := rfl
  have hf : 'f'.val.toNat = 102 := rfl
  change c.val.toNat < _
  omega

lemma clean_of_validUUID {id : Text} (h : validUUID id = true) : json.clean id = id := by
  refine json.ascii id fun b hb => ?_
  have hlt := b.toNat_lt
  have hchar : (Char.ofNat b.toNat).toNat = b.toNat := Utf8.toNat_charOfNat (by omega)
  have hmem : Char.ofNat b.toNat ∈ (asChars id).zipIdx.map Prod.fst := by
    rw [zipIdx_map_fst]
    exact mem_map_of_mem hb
  obtain ⟨⟨c, i⟩, hci, hc⟩ := mem_map.1 hmem
  rw [validUUID, Disk.validUUID, Bool.and_eq_true] at h
  have hpattern := all_eq_true.1 h.2 (c, i) hci
  obtain rfl : c = Char.ofNat b.toNat := hc
  rw [UInt8.lt_iff_toNat_lt, ← hchar]
  dsimp only at hpattern
  split at hpattern
  · rw [of_decide_eq_true hpattern]
    decide
  · exact lt_of_isHexDigit hpattern

end

/-! ## Reactions -/

section

variable {json : Json} {req : ReactionRequest} {list : List Reaction} {t : CommentThread}
  {now : Nat}

lemma Distinct.sublist {smaller : List Reaction} (h : Distinct list)
    (hsub : smaller.Sublist list) : Distinct smaller :=
  List.Pairwise.sublist hsub h

lemma distinct_concat_iff {new : Reaction} (h : Distinct list) :
    Distinct (list ++ [new]) ↔ ∀ r ∈ list, ¬(r.userID = new.userID ∧ r.emoji = new.emoji) := by
  rw [Distinct, pairwise_append]
  constructor
  · exact fun ⟨_, _, hnew⟩ r hr => hnew r hr new mem_cons_self
  · intro hnew
    refine ⟨h, pairwise_singleton .., fun r hr _ hmem => ?_⟩
    rw [mem_singleton.1 hmem]
    exact hnew r hr

namespace ReactionRequest

lemma matchesReaction_iff {r : Reaction} :
    req.matchesReaction r = true ↔ r.userID = req.userID ∧ r.emoji = req.emoji := by
  simp [matchesReaction]

/-- The reactions that the request is stored the same as are those that it finds. -/
def Recognises (json : Json) (req : ReactionRequest) (list : List Reaction) : Prop :=
  ∀ r ∈ list, r.userID = json.clean req.userID → r.emoji = req.emoji → r.userID = req.userID
  deriving Decidable

lemma distinct_addReaction_iff (hemoji : json.clean req.emoji = req.emoji)
    (hclean : ∀ r ∈ list, r.clean json = r) (hdistinct : Distinct list) :
    Distinct ((req.addReaction now list).map (·.clean json)) ↔ req.Recognises json list := by
  rw [addReaction]
  split
  case isTrue hfound =>
    obtain ⟨found, hmem, hmatch⟩ := any_eq_true.1 hfound
    obtain ⟨huser, -⟩ := matchesReaction_iff.1 hmatch
    have hkept : json.clean req.userID = req.userID := by
      rw [← huser]
      exact congrArg Reaction.userID (hclean found hmem)
    rw [map_clean_eq hclean]
    exact iff_of_true hdistinct fun r _ hr _ => hr.trans hkept
  case isFalse hfound =>
    have hnone : ∀ r ∈ list, ¬(r.userID = req.userID ∧ r.emoji = req.emoji) := fun r hr hmatch =>
      hfound (any_eq_true.2 ⟨r, hr, matchesReaction_iff.2 hmatch⟩)
    rw [map_append, map_clean_eq hclean, map_singleton, distinct_concat_iff hdistinct]
    simp only [Reaction.clean, hemoji]
    constructor
    · exact fun hnew r hr huser hsame => absurd ⟨huser, hsame⟩ (hnew r hr)
    · exact fun hknown r hr ⟨huser, hsame⟩ => hnone r hr ⟨hknown r hr huser hsame, hsame⟩

lemma removeReaction_sublist : (req.removeReaction list).Sublist list := filter_sublist

/-- The lists of reactions that the request is about. -/
def targets (req : ReactionRequest) (t : CommentThread) : List (List Reaction) :=
  if req.commentID = [] then [t.reactions]
  else (t.comments.filter (·.id = req.commentID)).map Comment.reactions

lemma mem_allReactions_of_mem_targets (h : list ∈ req.targets t) : list ∈ t.allReactions := by
  rw [targets] at h
  split at h
  · exact mem_cons.2 (.inl (mem_singleton.1 h))
  · obtain ⟨c, hc, rfl⟩ := mem_map.1 h
    exact mem_cons_of_mem _ (mem_map_of_mem (mem_of_mem_filter hc))

variable {f : List Reaction → List Reaction}

lemma forall_allReactions_update_iff {P : List Reaction → Prop}
    (hold : ∀ list ∈ t.allReactions, P list) :
    (∀ list ∈ (req.update f t).allReactions, P list) ↔ ∀ list ∈ req.targets t, P (f list) := by
  have hthread : P t.reactions := hold _ mem_cons_self
  have hcomments : ∀ c ∈ t.comments, P c.reactions := fun c hc =>
    hold _ (mem_cons_of_mem _ (mem_map_of_mem hc))
  rw [update, targets]
  split
  · simpa [CommentThread.allReactions] using fun _ => hcomments
  · simp only [CommentThread.allReactions, map_map, forall_mem_cons, hthread, true_and,
      forall_mem_map, mem_filter, decide_eq_true_eq, and_imp, comp_apply]
    refine forall₂_congr fun c hc => ?_
    by_cases hid : c.id = req.commentID
    · simp [hid]
    · simpa [hid] using hcomments c hc

lemma headers_update : (req.update f t).headers = t.headers := by
  rw [update]
  split
  · rfl
  · simp only [CommentThread.headers, map_map]
    refine map_congr_left fun c _ => ?_
    by_cases hid : c.id = req.commentID <;> simp [hid, Comment.header]

lemma update_id : (req.update f t).id = t.id := by
  rw [update]
  split <;> rfl

end ReactionRequest

end

/-! ## What a change keeps -/

section

variable {json : Json} {old new : CommentThread} {now : Nat} {op : Op}
  {commentID : Text} {f : Comment → Comment} {comment : Comment}

lemma map_changeFirst {α : Type} {g : Comment → α} (hf : ∀ c, g (f c) = g c)
    {comments : List Comment} {found : List Comment × Comment}
    (h : changeFirst commentID f comments = some found) : found.1.map g = comments.map g := by
  induction comments generalizing found with
  | nil => cases h
  | cons c rest ih =>
    rw [changeFirst] at h
    split at h
    · cases h
      exact congrArg (· :: _) (hf c)
    · obtain ⟨next, hnext, rfl⟩ := Option.map_eq_some_iff.1 h
      exact congrArg (g c :: ·) (ih hnext)

lemma changeComment_eq_ok (h : changeComment commentID f old = .ok (new, comment)) :
    ∃ comments, changeFirst commentID f old.comments = some (comments, comment) ∧
      new = { old with comments := comments } := by
  rw [changeComment] at h
  split at h <;> cases h
  exact ⟨_, by assumption, rfl⟩

/-- What a change of a thread keeps, whatever the operation. -/
structure CommentThread.Continues (old new : CommentThread) : Prop where
  id : new.id = old.id
  headers : old.headers <+: new.headers
  resolved : (old.status = .resolved ↔ old.resolvedAt.isSome) →
    (new.status = .resolved ↔ new.resolvedAt.isSome)

lemma continues_changeComment (h : changeComment commentID f old = .ok (new, comment))
    (hf : ∀ c, (f c).header = c.header) : old.Continues new := by
  obtain ⟨comments, hfirst, rfl⟩ := changeComment_eq_ok h
  refine ⟨rfl, ?_, id⟩
  rw [CommentThread.headers, CommentThread.headers, map_changeFirst hf hfirst]

lemma continues_update {req : ReactionRequest} {f : List Reaction → List Reaction} :
    old.Continues (req.update f old) := by
  refine ⟨req.update_id, ?_, ?_⟩
  · rw [req.headers_update]
  · rw [ReactionRequest.update]
    split <;> exact id

lemma recordDecision_eq_ok {req : SuggestionDecisionRequest} {response : Response}
    (h : recordDecision now req old = .ok (new, response)) :
    ∃ suggestion, new = { old with
      suggestion := some suggestion
      status := .resolved
      resolvedAt := some now
      resolvedBy := req.decidedBy } := by
  rw [recordDecision] at h
  split at h <;> cases h
  exact ⟨_, rfl⟩

lemma Op.Changes.continues (h : op.Changes now old new) : old.Continues new := by
  cases h with
  | addReply _ threadID req =>
    refine ⟨rfl, ?_, id⟩
    rw [CommentThread.headers, CommentThread.headers, map_append]
    exact prefix_append ..
  | updateThreadStatus _ _ req =>
    rw [setStatus]
    split <;> exact ⟨rfl, prefix_rfl, fun _ => by simp⟩
  | updateComment _ _ _ _ hchange | deleteComment _ _ _ hchange =>
    exact continues_changeComment hchange fun _ => rfl
  | addReaction | removeReaction => exact continues_update
  | decideSuggestion _ _ _ hchange =>
    obtain ⟨suggestion, rfl⟩ := recordDecision_eq_ok hchange
    exact ⟨rfl, prefix_rfl, fun _ => by simp⟩

/-- Who adds a reaction is known by the id that is stored. -/
def Op.Recognises (json : Json) (old : CommentThread) : Op → Prop
  | .addReaction _ _ (some req) => ∀ list ∈ req.targets old, req.Recognises json list
  | _ => True

instance : Decidable (op.Recognises json old) :=
  match op with
  | .addReaction _ _ (some req) =>
    inferInstanceAs (Decidable (∀ list ∈ req.targets old, _))
  | .addReaction _ _ none | .createCommentThread .. | .addReply .. | .updateThreadStatus ..
  | .deleteCommentThread .. | .updateComment .. | .deleteComment .. | .removeReaction ..
  | .decideSuggestion .. => .isTrue trivial

lemma allReactions_changeComment (h : changeComment commentID f old = .ok (new, comment))
    (hf : ∀ c, (f c).reactions = c.reactions) : new.allReactions = old.allReactions := by
  obtain ⟨comments, hfirst, rfl⟩ := changeComment_eq_ok h
  exact congrArg (_ :: ·) (map_changeFirst hf hfirst)

lemma allReactions_setStatus {req : UpdateThreadStatusRequest} :
    (setStatus now req old).allReactions = old.allReactions := by
  rw [setStatus]
  split <;> rfl

lemma Op.Changes.distinct_iff (h : op.Changes now old new) (hclean : old.clean json = old)
    (hold : ∀ list ∈ old.allReactions, Distinct list) :
    (∀ list ∈ (new.clean json).allReactions, Distinct list) ↔ op.Recognises json old := by
  have hkept : ∀ list ∈ old.allReactions, Distinct (list.map (·.clean json)) := fun list hlist => by
    rw [map_clean_eq (clean_of_mem_allReactions hclean hlist)]
    exact hold list hlist
  rw [new.allReactions_clean, forall_mem_map]
  cases h with
  | addReply _ threadID req =>
    refine iff_of_true (fun list hlist => ?_) trivial
    rw [CommentThread.allReactions, map_append, map_singleton,
      ← cons_append] at hlist
    obtain hlist | hlist := mem_append.1 hlist
    · exact hkept list hlist
    · rw [mem_singleton.1 hlist]
      exact List.Pairwise.nil
  | updateThreadStatus =>
    rw [allReactions_setStatus]
    exact iff_of_true hkept trivial
  | updateComment _ _ _ _ hchange | deleteComment _ _ _ hchange =>
    rw [allReactions_changeComment hchange fun _ => rfl]
    exact iff_of_true hkept trivial
  | addReaction _ _ req hemoji =>
    rw [ReactionRequest.forall_allReactions_update_iff hkept]
    refine forall₂_congr fun list hlist => ?_
    have hmem := ReactionRequest.mem_allReactions_of_mem_targets hlist
    exact ReactionRequest.distinct_addReaction_iff (clean_of_mem_reactions hemoji)
      (clean_of_mem_allReactions hclean hmem) (hold list hmem)
  | removeReaction _ _ req =>
    rw [ReactionRequest.forall_allReactions_update_iff hkept]
    refine iff_of_true (fun list hlist => ?_) trivial
    have hmem := ReactionRequest.mem_allReactions_of_mem_targets hlist
    exact (hkept list hmem).sublist (req.removeReaction_sublist.map _)
  | decideSuggestion _ _ _ hchange =>
    obtain ⟨suggestion, rfl⟩ := recordDecision_eq_ok hchange
    exact iff_of_true hkept trivial

end

/-! ## What a call does to the files -/

section

variable {json : Json} {files : Files Key CommentThread} {call : Call} {new : CommentThread}
  {response : Response}

/-- A thread is in the file of its name, and is written again as it has been read. -/
structure Consistent (json : Json) (files : Files Key CommentThread) : Prop where
  id : ∀ key t, files key = some (.whole t) → t.id = key.2
  clean : ∀ key t, files key = some (.whole t) → t.clean json = t

lemma Consistent.planned_id (h : Consistent json files)
    (hplan : plan files call.io call.now call.op = .ok (.write new, response)) :
    new.id = call.op.key.2 ∧ json.clean new.id = new.id := by
  obtain hremove | ⟨_, hwrite, hid, hvalid, -⟩ | ⟨old, _, hwrite, hold, hchange⟩ := plan_eq_ok hplan
  · cases hremove
  · cases hwrite
    exact ⟨hid, clean_of_validUUID hvalid⟩
  · cases hwrite
    rw [hchange.continues.id]
    exact ⟨h.id _ old hold, congrArg CommentThread.id (h.clean _ old hold)⟩

lemma perform_of_error {e : StoreError} (hplan : plan files call.io call.now call.op = .error e) :
    perform json files call = (files, .error e) := by
  rw [perform, hplan]

lemma perform_of_remove
    (hplan : plan files call.io call.now call.op = .ok (.remove call.op.key.2, response)) :
    perform json files call = if call.io.remove
      then (update files call.op.key none, .ok response) else (files, .error .deleteThread) := by
  rw [perform, hplan]
  rfl

variable (h : Consistent json files)
include h

lemma perform_of_write (hplan : plan files call.io call.now call.op = .ok (.write new, response)) :
    perform json files call = ((write files call.op.key (new.clean json) call.io.write).1,
        if (write files call.op.key (new.clean json) call.io.write).2 then .ok response
        else .error .writeThread) := by
  have hkey : (call.op.key.1, new.id) = call.op.key := by
    rw [(h.planned_id hplan).1]
  rw [perform, hplan]
  dsimp only [carryOut]
  rw [hkey]
  cases call.io.write <;> rfl

lemma perform_files (call : Call) : (perform json files call).1 = files ∨
    (perform json files call).1 = update files call.op.key none ∨
    ∃ new response, plan files call.io call.now call.op = .ok (.write new, response) ∧
      (perform json files call).1 = (write files call.op.key (new.clean json) call.io.write).1 := by
  match hplan : plan files call.io call.now call.op with
  | .error e =>
    left
    rw [perform_of_error hplan]
  | .ok (.remove threadID, response) =>
    obtain hremove | ⟨_, hwrite, -⟩ | ⟨_, _, hwrite, -⟩ := plan_eq_ok hplan
    · cases hremove
      rw [perform_of_remove hplan]
      split
      · exact .inr (.inl rfl)
      · exact .inl rfl
    · cases hwrite
    · cases hwrite
  | .ok (.write new, response) =>
    right; right
    exact ⟨new, response, rfl, congrArg Prod.fst (perform_of_write h hplan)⟩

lemma perform_of_ne {key : Key} (hkey : key ≠ call.op.key) :
    (perform json files call).1 key = files key := by
  obtain hfiles | hfiles | ⟨new, response, -, hfiles⟩ := perform_files h call
  · rw [hfiles]
  · rw [hfiles, update_of_ne hkey]
  · rw [hfiles, write_of_ne hkey]

lemma perform_whole {key : Key} {t : CommentThread}
    (ht : (perform json files call).1 key = some (.whole t)) :
    files key = some (.whole t) ∨ key = call.op.key ∧ ∃ new response,
      plan files call.io call.now call.op = .ok (.write new, response) ∧ t = new.clean json ∧
        (call.io.write = .done ∨ call.io.write = .unsynced) := by
  by_cases hkey : key = call.op.key
  · subst hkey
    obtain hfiles | hfiles | ⟨new, response, hplan, hfiles⟩ := perform_files h call
    · exact .inl (hfiles ▸ ht)
    · rw [hfiles, update_self] at ht
      cases ht
    · rw [hfiles] at ht
      obtain hold | ⟨hnew, hwrite⟩ := write_self_whole ht
      · exact .inl hold
      · exact .inr ⟨rfl, new, response, hplan, hnew, hwrite⟩
  · rw [perform_of_ne h hkey] at ht
    exact .inl ht

lemma Consistent.perform : Consistent json (perform json files call).1 := by
  constructor
  · intro key t ht
    obtain hold | ⟨rfl, new, response, hplan, rfl, -⟩ := perform_whole h ht
    · exact h.id key t hold
    · obtain ⟨hid, hclean⟩ := h.planned_id hplan
      exact hclean.trans hid
  · intro key t ht
    obtain hold | ⟨rfl, new, response, hplan, rfl, -⟩ := perform_whole h ht
    · exact h.clean key t hold
    · exact new.clean_clean

end

end CollabEditor.StorageDemo.ThreadFiles
