import CollabEditor.Frontend.PersistRuns
/-!
# The comments in the store and those on their way

The store appends each reply that it is sent, whether it has the comment or not.  `StoredOnce` says
which requests may be under way so that each comment is stored once.
-/

namespace CollabEditor.Frontend

open List

open scoped List
open CollabEditor.StorageDemo (CommentStore CommentThread)

variable {K : Type}

def commentIds (comments : List (Comment K)) : List Nat := comments.map (·.id)

/-! ## The store and the requests it has still to get -/

namespace CommentRequest

def replyId (id : Nat) : CommentRequest K → Option Nat
  | .reply id' c => if id' = id then some c.id else none
  | _ => none

def firstId (id : Nat) : CommentRequest K → Option Nat
  | .create id' _ comment _ => if id' = id then comment.map (·.id) else none
  | _ => none

end CommentRequest

def replyIds (id : Nat) (rs : List (CommentRequest K)) : List Nat := rs.filterMap (·.replyId id)

def firstIds (id : Nat) (rs : List (CommentRequest K)) : List Nat := rs.filterMap (·.firstId id)

def storedIds (cs : CommentStore K) (id : Nat) : List Nat :=
  (cs id).elim [] fun thread => commentIds thread.comments

/-- No comment comes twice, be it stored or in a reply, nor does a reply come for the comment that
the thread is created with. -/
structure StoredOnce (cs : CommentStore K) (rs : List (CommentRequest K)) (id : Nat) : Prop where
  distinct : (storedIds cs id ++ replyIds id rs).Nodup
  first : ∀ x ∈ firstIds id rs, x ∉ replyIds id rs

lemma storedIds_writeThread_self (cs : CommentStore K) (id : Nat) (thread : CommentThread K) :
    storedIds (cs.writeThread id thread) id = commentIds thread.comments := by
  simp [storedIds]

lemma storedIds_writeThread_of_ne {cs : CommentStore K} {id id' : Nat} (h : id' ≠ id)
    (thread : CommentThread K) : storedIds (cs.writeThread id thread) id' = storedIds cs id' := by
  simp [storedIds, CommentStore.writeThread_of_ne h]

lemma storedIds_of_some {cs : CommentStore K} {id : Nat} {thread : CommentThread K}
    (h : cs id = some thread) : storedIds cs id = commentIds thread.comments := by
  simp [storedIds, h]

section

variable {bytes : List K → Nat} {now id : Nat} {cs cs' : CommentStore K}
  {rs rs' : List (CommentRequest K)} {r : CommentRequest K}

lemma storedIds_serve (h : serve bytes now cs r = .ok cs') :
    storedIds cs' id = storedIds cs id ++ (r.replyId id).toList ∨
      storedIds cs' id = (r.firstId id).toList := by
  cases r with
  | create id' anchor comment suggestion =>
    obtain ⟨-, rfl⟩ := CommentStore.createCommentThread_ok h
    by_cases hid : id = id'
    · subst hid
      right
      cases comment <;> simp [storedIds_writeThread_self, commentIds, CommentRequest.firstId,
        CommentStore.comment]
    · simp [storedIds_writeThread_of_ne hid, CommentRequest.replyId]
  | reply id' c =>
    obtain ⟨thread, hthread, rfl⟩ := CommentStore.addReply_ok h
    left
    by_cases hid : id = id'
    · subst hid
      simp [storedIds_writeThread_self, storedIds_of_some hthread, commentIds,
        CommentRequest.replyId, CommentStore.comment]
    · simp [storedIds_writeThread_of_ne hid, CommentRequest.replyId, Ne.symm hid]
  | status id' status resolvedBy =>
    obtain ⟨thread, by', at', hthread, rfl⟩ := CommentStore.updateThreadStatus_ok h
    left
    by_cases hid : id = id'
    · subst hid
      simp [storedIds_writeThread_self, storedIds_of_some hthread, CommentRequest.replyId]
    · simp [storedIds_writeThread_of_ne hid, CommentRequest.replyId]
  | decision id' decision decidedBy =>
    obtain ⟨-, thread, hthread, suggestion, -, rfl⟩ := CommentStore.decideSuggestion_eq_ok_iff.1 h
    left
    by_cases hid : id = id'
    · subst hid
      simp [storedIds_writeThread_self, storedIds_of_some hthread, CommentRequest.replyId,
        CommentThread.decided]
    · simp [storedIds_writeThread_of_ne hid, CommentRequest.replyId]
  | delete id' =>
    obtain rfl := Except.ok.inj h
    by_cases hid : id = id'
    · subst hid
      simp [storedIds, CommentStore.deleteCommentThread, CommentRequest.firstId]
    · simp [storedIds, CommentStore.deleteCommentThread, hid, CommentRequest.replyId]

namespace StoredOnce

lemma of_subperm (h : StoredOnce cs rs id) (hsub : rs' <+~ rs) : StoredOnce cs rs' id := by
  obtain ⟨l, hperm, hsub⟩ := hsub
  have hreplies : replyIds id l <+ replyIds id rs := hsub.filterMap _
  have hreplies' : replyIds id l ~ replyIds id rs' := hperm.filterMap _
  have hfirsts : firstIds id l <+ firstIds id rs := hsub.filterMap _
  have hfirsts' : firstIds id l ~ firstIds id rs' := hperm.filterMap _
  constructor
  · have hnodup := h.distinct.sublist (hreplies.append_left (storedIds cs id))
    exact (hreplies'.append_left _).nodup_iff.1 hnodup
  · intro x hx hreply
    exact h.first x (hfirsts.subset (hfirsts'.mem_iff.2 hx))
      (hreplies.subset (hreplies'.mem_iff.2 hreply))

lemma serve (h : StoredOnce cs (r :: rs) id) (hserve : Frontend.serve bytes now cs r = .ok cs') :
    StoredOnce cs' rs id := by
  have hreplies : replyIds id (r :: rs) = (r.replyId id).toList ++ replyIds id rs := by
    rw [replyIds, filterMap_cons]
    cases r.replyId id <;> rfl
  have hfirsts : firstIds id (r :: rs) = (r.firstId id).toList ++ firstIds id rs := by
    rw [firstIds, filterMap_cons]
    cases r.firstId id <;> rfl
  have hfirst {x : Nat} (hx : x ∈ (r.firstId id).toList ++ firstIds id rs) :
      x ∉ replyIds id rs := fun hreply =>
    h.first x (hfirsts ▸ hx) (hreplies ▸ mem_append_right _ hreply)
  refine ⟨?_, fun x hx => hfirst (mem_append_right _ hx)⟩
  have hdistinct := h.distinct
  rw [hreplies, ← append_assoc] at hdistinct
  have hstored : storedIds cs' id = storedIds cs id ++ (r.replyId id).toList ∨
      storedIds cs' id = (r.firstId id).toList := storedIds_serve hserve
  rcases hstored with hstored | hstored
  · rw [hstored]
    exact hdistinct
  · rw [hstored, nodup_append']
    refine ⟨by cases r.firstId id <;> simp, (nodup_append'.1 hdistinct).2.1, fun x hx => ?_⟩
    exact hfirst (mem_append_left _ hx)

end StoredOnce

end

/-! ## The requests for a thread -/

/-- The client knows of every comment of its thread `t` that the store has, or is going to get, that
it has been saved. Of a thread that it has never saved, no reply is under way that has the first
comment. -/
def Known (cs : CommentStore K) (rs : List (CommentRequest K)) (id : Nat) (t : StoredThread K) :
    Option (StoredThread K) → Prop
  | some prev => ∀ c ∈ t.comments, c.deletedAt = none →
      c.id ∈ storedIds cs id ++ (replyIds id rs ++ firstIds id rs) → c.id ∈ commentIds prev.comments
  | none => ∀ c ∈ t.comments.head?, c.id ∉ replyIds id rs

instance (cs : CommentStore K) (rs : List (CommentRequest K)) (id : Nat) (t : StoredThread K)
    (prev : Option (StoredThread K)) : Decidable (Known cs rs id t prev) := by
  rcases prev with ⟨⟩ <;> dsimp only [Known] <;> infer_instance

section

variable {id id' : Nat} {prev t : StoredThread K} {rs rs' : List (CommentRequest K)}

lemma replyIds_append : replyIds id (rs ++ rs') = replyIds id rs ++ replyIds id rs' :=
  filterMap_append

lemma firstIds_append : firstIds id (rs ++ rs') = firstIds id rs ++ firstIds id rs' :=
  filterMap_append

lemma replyIds_createRequests : replyIds id (createRequests id' t) = [] := rfl

lemma firstIds_createRequests :
    firstIds id (createRequests id' t) =
      if id' = id then commentIds t.comments.head?.toList else [] := by
  cases hhead : t.comments.head? <;>
    by_cases hid : id' = id <;>
      simp [firstIds, createRequests, CommentRequest.firstId, commentIds, newComment, hhead, hid]

lemma replyIds_updateRequests : replyIds id (updateRequests id' prev t) =
      if id' = id then commentIds (newComments prev t) else [] := by
  have hstatus : replyIds id (statusRequests id' prev t) = [] := by
    rw [statusRequests]
    split <;> rfl
  have hdecision : replyIds id (decisionRequests id' prev t) = [] := by
    rw [decisionRequests]
    split
    · split <;> rfl
    · rfl
  have hreplies (new : List (Comment K)) :
      replyIds id (new.map fun c => CommentRequest.reply id' (newComment c)) =
        if id' = id then commentIds new else [] := by
    rw [replyIds, filterMap_map]
    by_cases hid : id' = id
    · simp [hid, CommentRequest.replyId, newComment, commentIds]
    · simp [hid, Function.comp_def, CommentRequest.replyId]
  rw [updateRequests, replyIds_append, replyIds_append, hstatus, hdecision, hreplies,
    append_nil, append_nil]

lemma firstIds_updateRequests : firstIds id (updateRequests id' prev t) = [] := by
  have hmem : ∀ r ∈ updateRequests id' prev t, r.firstId id = none := by
    intro r hr
    simp only [updateRequests, statusRequests, decisionRequests, mem_append, mem_map] at hr
    grind [CommentRequest.firstId]
  exact filterMap_eq_nil_iff.2 hmem

variable {cs : CommentStore K} {client : CommentClient K}

lemma StoredOnce.createRequests (h : StoredOnce cs rs id)
    (hfirst : id' = id → ∀ c ∈ t.comments.head?, c.id ∉ replyIds id rs) :
    StoredOnce cs (createRequests id' t ++ rs) id := by
  refine ⟨by rw [replyIds_append, replyIds_createRequests]; exact h.distinct, fun x hx => ?_⟩
  rw [replyIds_append, replyIds_createRequests, nil_append]
  rw [firstIds_append, firstIds_createRequests] at hx
  rcases mem_append.1 hx with hx | hx
  · split at hx
    · rename_i hid
      obtain ⟨c, hc, rfl⟩ := mem_map.1 hx
      exact hfirst hid c (Option.mem_toList.1 hc)
    · cases hx
  · exact h.first x hx

lemma mem_newComments {c : Comment K} (h : c ∈ newComments prev t) :
    c ∈ t.comments ∧ c.deletedAt = none ∧ c.id ∉ commentIds prev.comments := by
  obtain ⟨hc, hnew⟩ := mem_filter.1 h
  simp only [Bool.and_eq_true, Bool.not_eq_true', any_eq_false, beq_iff_eq,
    Option.isNone_iff_eq_none] at hnew
  refine ⟨hc, hnew.2, fun hmem => ?_⟩
  obtain ⟨p, hp, heq⟩ := mem_map.1 hmem
  exact hnew.1 p hp heq

lemma StoredOnce.updateRequests (h : StoredOnce cs rs id) (ht : (commentIds t.comments).Nodup)
    (hknown : id' = id → Known cs rs id t (some prev)) :
    StoredOnce cs (updateRequests id' prev t ++ rs) id := by
  have hfirsts : firstIds id (Frontend.updateRequests id' prev t ++ rs) = firstIds id rs := by
    rw [firstIds_append, firstIds_updateRequests, nil_append]
  have hreplies : replyIds id (Frontend.updateRequests id' prev t ++ rs) =
      (if id' = id then commentIds (newComments prev t) else []) ++ replyIds id rs := by
    rw [replyIds_append, replyIds_updateRequests]
  by_cases hid : id' = id
  · rw [if_pos hid] at hreplies
    have hnew {x : Nat} (hx : x ∈ commentIds (newComments prev t)) :
        x ∉ storedIds cs id ++ (replyIds id rs ++ firstIds id rs) := by
      obtain ⟨c, hc, rfl⟩ := mem_map.1 hx
      obtain ⟨hc, hdeleted, hprev⟩ := mem_newComments hc
      exact fun hmem => hprev (hknown hid c hc hdeleted hmem)
    constructor
    · rw [hreplies]
      have hperm : commentIds (newComments prev t) ++ (storedIds cs id ++ replyIds id rs) ~
          storedIds cs id ++ (commentIds (newComments prev t) ++ replyIds id rs) := by
        rw [← append_assoc, ← append_assoc]
        exact perm_append_comm.append_right _
      refine hperm.nodup_iff.1 (nodup_append'.2 ⟨?_, h.distinct, fun x hx hmem => ?_⟩)
      · exact ht.sublist (filter_sublist.map _)
      · exact hnew hx (by grind)
    · intro x hx hmem
      rw [hfirsts] at hx
      rw [hreplies] at hmem
      rcases mem_append.1 hmem with hmem | hmem
      · exact hnew hmem (mem_append_right _ (mem_append_right _ hx))
      · exact h.first x hx hmem
  · rw [if_neg hid, nil_append] at hreplies
    exact ⟨hreplies ▸ h.distinct, hfirsts ▸ hreplies ▸ h.first⟩

/-- What a client sends of a thread leaves its comments there once, if the client knows what of it
has been saved. -/
lemma StoredOnce.requests (h : StoredOnce cs rs id) (ht : (commentIds t.comments).Nodup)
    (hknown : Known cs rs id' t (client.lastPersisted id')) :
    StoredOnce cs (client.requests id' t ++ rs) id := by
  rw [CommentClient.requests]
  split
  · rename_i hnone
    rw [hnone] at hknown
    exact h.createRequests fun hid => hid ▸ hknown
  · rename_i prev hprev
    rw [hprev] at hknown
    exact h.updateRequests ht fun hid => hid ▸ hknown

end

end CollabEditor.Frontend
