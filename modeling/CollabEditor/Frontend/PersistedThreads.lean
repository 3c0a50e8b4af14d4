import CollabEditor.Frontend.CommentPersistence
/-!
# What the server has of a thread

A save brings the server up to date with what the requests can carry: new comments, the
status, and a decision together with the status that a decision gives the thread.
-/

namespace CollabEditor.Frontend

open Support Execution SharedText List Option Function
open CollabEditor.StorageDemo (CommentStore CommentThread NewComment StoreError maxCommentBytes)

variable {K : Type}

/-! ## Comparing the two sides -/

def reactionDigest (list : List Reaction) : List (Nat × Nat) := list.map fun r => (r.user, r.emoji)

def Comment.digest (c : Comment K) : Nat × List K × Bool × List (Nat × Nat) :=
  (c.id, c.content, c.deletedAt.isSome, reactionDigest c.reactions)

structure ThreadDigest (K : Type) where
  comments : List (Nat × List K × Bool × List (Nat × Nat))
  reactions : List (Nat × Nat)
  status : ThreadStatus
  decision : Option SuggestionStatus
  deriving DecidableEq

def StoredThread.digest (t : StoredThread K) : ThreadDigest K :=
  ⟨t.comments.map (·.digest), reactionDigest t.reactions, t.status, t.suggestion.map (·.status)⟩

def storedDigest (t : CommentThread K) : ThreadDigest K :=
  ⟨t.comments.map (·.digest), reactionDigest t.reactions, t.status, t.suggestion.map (·.status)⟩

/-- The server has the thread as the client has it, or neither has one. -/
def CommentSession.Synced (s : CommentSession K) (id : Nat) : Prop :=
  (s.threads id).map (·.digest) = (s.store id).map storedDigest

instance [DecidableEq K] (s : CommentSession K) (id : Nat) : Decidable (s.Synced id) :=
  inferInstanceAs (Decidable (_ = _))

/-! ## What requests can carry -/

/-- A comment that nothing has been done to and that is not too long for the server. -/
@[mk_iff]
structure Fresh (bytes : List K → Nat) (c : Comment K) : Prop where
  deletedAt : c.deletedAt = none
  reactions : c.reactions = []
  size : bytes c.content ≤ maxCommentBytes

instance (bytes : List K → Nat) (c : Comment K) : Decidable (Fresh bytes c) :=
  decidable_of_iff' _ (fresh_iff ..)

/-- The thread can be created as it is: it is open and has no reactions, and one comment at the
most. -/
@[mk_iff]
structure Creatable (bytes : List K → Nat) (t : StoredThread K) : Prop where
  status : t.status = .opened
  reactions : t.reactions = []
  comments : t.comments.length ≤ 1
  fresh : ∀ c ∈ t.comments, Fresh bytes c
  note : ∀ note ∈ t.suggestion.bind (·.authorNote), bytes note ≤ maxCommentBytes

/-- From `prev` to `t` there are only new comments, another status, or a decision on a thread that
is still resolved. -/
@[mk_iff]
structure Updatable (bytes : List K → Nat) (prev t : StoredThread K) : Prop where
  comments : (t.comments.take prev.comments.length).map (·.digest) = prev.comments.map (·.digest)
  fresh : ∀ c ∈ t.comments.drop prev.comments.length,
    Fresh bytes c ∧ ∀ p ∈ prev.comments, p.id ≠ c.id
  reactions : reactionDigest t.reactions = reactionDigest prev.reactions
  decision : t.suggestion.map (·.status) = prev.suggestion.map (·.status) ∨
    t.status = .resolved ∧ prev.suggestion.isSome ∧ ∃ s ∈ t.suggestion, s.status ≠ .pending

section

variable [DecidableEq K]

instance (bytes : List K → Nat) (t : StoredThread K) : Decidable (Creatable bytes t) :=
  decidable_of_iff' _ (creatable_iff ..)

instance (bytes : List K → Nat) (prev t : StoredThread K) : Decidable (Updatable bytes prev t) :=
  decidable_of_iff' _ (updatable_iff ..)

end

/-! ## What the requests do -/

section

variable {bytes : List K → Nat} {now id : Nat} {cs : CommentStore K} {th : CommentThread K}

lemma digest_comment {c : Comment K} (h : Fresh bytes c) :
    (CommentStore.comment now (newComment c)).digest = c.digest := by
  simp [Comment.digest, CommentStore.comment, newComment, h.deletedAt, h.reactions]

def withReplies (now : Nat) (th : CommentThread K) (new : List (Comment K)) : CommentThread K :=
  { th with comments := th.comments ++ new.map fun c => CommentStore.comment now (newComment c) }

variable {rs : List (CommentRequest K)} {prev t : StoredThread K}

lemma send_served {fates : List Fate} (h : ∀ f ∈ fates, f = .served) :
    send bytes now cs rs fates = send bytes now cs rs [] := by
  induction rs generalizing cs fates with
  | nil => rfl
  | cons r rs ih =>
    have hhead : fates.head?.getD .served = .served := by
      cases fates with
      | nil => rfl
      | cons f fates => exact h f mem_cons_self
    have htail : ∀ f ∈ fates.tail, f = .served := fun f hf => h f (mem_of_mem_tail hf)
    simp only [send, hhead, head?_nil, getD_none, ih htail, tail_nil]

lemma send_cons_ok {r : CommentRequest K} {cs' : CommentStore K}
    (h : serve bytes now cs r = .ok cs') :
    send bytes now cs (r :: rs) [] = send bytes now cs' rs [] := by
  simp [send, h]

lemma send_replies {new : List (Comment K)} {rest : List (CommentRequest K)}
    (hnew : ∀ c ∈ new, Fresh bytes c) (hth : cs id = some th) :
    send bytes now cs (new.map (fun c => .reply id (newComment c)) ++ rest) [] =
      send bytes now (cs.writeThread id (withReplies now th new)) rest [] := by
  induction new generalizing cs th with
  | nil => simp [withReplies, CommentStore.writeThread_eq_self hth]
  | cons c new ih =>
    have hserve : serve bytes now cs (.reply id (newComment c)) = .ok (cs.writeThread id
        { th with comments := th.comments ++ [CommentStore.comment now (newComment c)] }) :=
      CommentStore.addReply_eq_ok (hnew c mem_cons_self).size hth
    rw [map_cons, cons_append, send_cons_ok hserve,
      ih (fun c hc => hnew c (mem_cons_of_mem _ hc)) (CommentStore.writeThread_self ..)]
    simp [withReplies]

lemma send_status (bytes : List K → Nat) (now : Nat) (rest : List (CommentRequest K))
    (hth : cs id = some th) (hstatus : th.status = prev.status) :
    ∃ by' at', send bytes now cs (statusRequests id prev t ++ rest) [] =
      send bytes now (cs.writeThread id
        { th with status := t.status, resolvedBy := by', resolvedAt := at' }) rest [] := by
  rw [statusRequests]
  split
  · obtain ⟨by', at', hok⟩ := CommentStore.updateThreadStatus_eq_ok t.status t.resolvedBy hth
    have hserve : serve bytes now cs (.status id t.status t.resolvedBy) = .ok (cs.writeThread id
        { th with status := t.status, resolvedBy := by', resolvedAt := at' }) := hok
    exact ⟨by', at', send_cons_ok hserve⟩
  · rename_i hsame
    refine ⟨th.resolvedBy, th.resolvedAt, ?_⟩
    have hkept : { th with status := t.status } = th := by
      rw [← not_not.1 hsame, ← hstatus]
    rw [CommentStore.writeThread_eq_self (by rw [hth]; exact congrArg some hkept.symm)]
    rfl

lemma send_decision (now : Nat) (h : Updatable bytes prev t) (hth : cs id = some th)
    (hstatus : th.status = t.status)
    (hdecision : th.suggestion.map (·.status) = prev.suggestion.map (·.status)) :
    ∃ th', send bytes now cs (decisionRequests id prev t) [] = (cs.writeThread id th', true) ∧
      th'.comments = th.comments ∧ th'.reactions = th.reactions ∧ th'.status = t.status ∧
      th'.suggestion.map (·.status) = t.suggestion.map (·.status) := by
  by_cases hsame : t.suggestion.map (·.status) = prev.suggestion.map (·.status)
  · have hnone : decisionRequests id prev t = [] := by
      rw [decisionRequests]
      cases hs : t.suggestion with
      | none => rfl
      | some s =>
        rw [hs] at hsame
        exact if_neg fun hne => hne.2 hsame.symm
    refine ⟨th, ?_, rfl, rfl, hstatus, hdecision.trans hsame.symm⟩
    rw [hnone, CommentStore.writeThread_eq_self hth]
    rfl
  · obtain ⟨hresolved, hprev, s, hs, hfinal⟩ := h.decision.resolve_left hsame
    have hs : t.suggestion = some s := hs
    obtain ⟨prevSuggestion, hprev⟩ := isSome_iff_exists.1 hprev
    obtain ⟨suggestion, hsuggestion, -⟩ := map_eq_some_iff.1
      (hdecision.trans (congrArg (Option.map _) hprev))
    have hsent : decisionRequests id prev t = [.decision id s.status s.decidedBy] := by
      rw [hs] at hsame
      simp only [decisionRequests, hs]
      exact if_pos ⟨hfinal, fun heq => hsame heq.symm⟩
    have hserve : serve bytes now cs (.decision id s.status s.decidedBy) =
        .ok (cs.writeThread id (th.decided now suggestion s.status s.decidedBy)) :=
      CommentStore.decideSuggestion_eq_ok_iff.2 ⟨hfinal, th, hth, suggestion, hsuggestion, rfl⟩
    refine ⟨th.decided now suggestion s.status s.decidedBy, ?_, rfl, rfl, hresolved.symm, ?_⟩
    · rw [hsent, send_cons_ok hserve]
      rfl
    · rw [hs]
      rfl

lemma newComments_eq (h : Updatable bytes prev t) :
    newComments prev t = t.comments.drop prev.comments.length := by
  have hold : (t.comments.take prev.comments.length).map (·.id) = prev.comments.map (·.id) := by
    have := congrArg (map Prod.fst) h.comments
    simpa [List.map_map, comp_def, Comment.digest] using this
  rw [newComments]
  conv_lhs => rw [← take_append_drop prev.comments.length t.comments]
  rw [filter_append, filter_eq_nil_iff.2, nil_append, filter_eq_self.2]
  · intro c hc
    obtain ⟨hfresh, hids⟩ := h.fresh c hc
    simpa [hfresh.deletedAt] using hids
  · intro c hc
    have hmem : c.id ∈ prev.comments.map (·.id) := hold ▸ mem_map_of_mem hc
    obtain ⟨p, hp, hid⟩ := mem_map.1 hmem
    simp only [Bool.and_eq_true, Bool.not_eq_true', List.any_eq_false, beq_iff_eq, not_and]
    intro hnone
    exact absurd hid (hnone p hp)

/-- The thread is on the server as it was last saved, and differs by what requests can carry: then
the server has it as it is now. -/
lemma send_updateRequests (h : Updatable bytes prev t) (hth : cs id = some th)
    (hdigest : storedDigest th = prev.digest) :
    ∃ th', send bytes now cs (updateRequests id prev t) [] = (cs.writeThread id th', true) ∧
      storedDigest th' = t.digest := by
  simp only [storedDigest, StoredThread.digest, ThreadDigest.mk.injEq] at hdigest
  obtain ⟨hcomments, hreactions, hstatus, hdecision⟩ := hdigest
  have hnew : ∀ c ∈ newComments prev t, Fresh bytes c := by
    rw [newComments_eq h]
    exact fun c hc => (h.fresh c hc).1
  obtain ⟨th₁, hth₁⟩ : ∃ th₁, th₁ = withReplies now th (newComments prev t) := ⟨_, rfl⟩
  have hcomments₁ : th₁.comments.map (·.digest) = t.comments.map (·.digest) := by
    rw [hth₁, withReplies, List.map_append, List.map_map, hcomments, ← h.comments]
    conv_rhs => rw [← take_append_drop prev.comments.length t.comments, map_append]
    congr 1
    rw [← newComments_eq h]
    exact map_congr_left fun c hc => digest_comment (hnew c hc)
  have hstatus₁ : th₁.status = prev.status := by rw [hth₁, withReplies, hstatus]
  obtain ⟨by', at', hsend⟩ := send_status bytes now (decisionRequests id prev t)
    (CommentStore.writeThread_self cs id th₁) hstatus₁
  rw [CommentStore.writeThread_writeThread] at hsend
  obtain ⟨th', hdone, hc, hr, hst, hd⟩ := send_decision now h
    (CommentStore.writeThread_self cs id { th₁ with
      status := t.status, resolvedBy := by', resolvedAt := at' })
    rfl (by rw [hth₁]; exact hdecision)
  rw [CommentStore.writeThread_writeThread] at hdone
  refine ⟨th', ?_, ?_⟩
  · rw [updateRequests, send_replies hnew hth, ← hth₁, hsend, hdone]
  · simp only [storedDigest, StoredThread.digest, hc, hr, hst, hd, hcomments₁,
      ThreadDigest.mk.injEq, true_and, and_true]
    rw [hth₁, withReplies, hreactions, h.reactions]

lemma send_createRequests (h : Creatable bytes t) (hnone : cs id = none) :
    ∃ th', send bytes now cs (createRequests id t) [] = (cs.writeThread id th', true) ∧
      storedDigest th' = t.digest := by
  have hhead : ∀ c ∈ t.comments.head?, Fresh bytes c := fun c hc =>
    h.fresh c (mem_of_mem_head? hc)
  have hserve : serve bytes now cs
      (.create id t.anchor (t.comments.head?.map newComment) t.suggestion) = .ok _ :=
    CommentStore.createCommentThread_eq_ok (fun content hcontent => by
      obtain ⟨new, hnew, rfl⟩ := map_eq_some_iff.1 hcontent
      obtain ⟨c, hc, rfl⟩ := map_eq_some_iff.1 hnew
      exact (hhead c hc).size) h.note hnone
  refine ⟨_, send_cons_ok hserve, ?_⟩
  simp only [storedDigest, StoredThread.digest, h.status, h.reactions, ThreadDigest.mk.injEq,
    and_true]
  have hlen := h.comments
  match hc : t.comments with
  | [] => rfl
  | [c] =>
    have hdigest : (CommentStore.comment now (newComment c)).digest = c.digest :=
      digest_comment (hhead c (by rw [hc]; rfl))
    simpa [hc] using hdigest
  | _ :: _ :: _ => simp [hc] at hlen

lemma send_lost {r : CommentRequest K} {fates : List Fate} (h : fates.head? = some .lost) :
    send bytes now cs (r :: rs) fates = (cs, false) := by
  simp [send, h]

end

/-! ## Whole sessions -/

def CommentSession.pendingKeys (s : CommentSession K) : List DirtyKey :=
  s.dirty ++ (s.queue ++ s.failed)

/-- What has changed since the last save is something that requests carry. -/
def Carried (bytes : List K → Nat) (s : CommentSession K) : DirtyKey → Prop
  | .deleted _ => True
  | .thread id =>
    match s.threads id, s.lastPersisted id with
    | none, _ => True
    | some t, none => Creatable bytes t
    | some t, some prev => prev = t ∨ Updatable bytes prev t

/-- All requests are served, or else the first of them gets lost and there is another try. -/
def ServedOrRetried (s : CommentSession K) (key : DirtyKey) (fates : List Fate) : Prop :=
  (∀ f ∈ fates, f = .served) ∨
    fates.head? = some .lost ∧ s.retryCount key + 1 < maxPersistRetries
  deriving Decidable

def SavesCarried (bytes : List K → Nat) (s : CommentSession K) : CommentEvent K → Prop
  | .persistNext _ fates => ∀ key ∈ s.queue.head?, Carried bytes s key ∧ ServedOrRetried s key fates
  | .create .. | .call .. | .delete _ | .startPersist | .finishPersist => True

/-- The steps of a persist run that nothing comes between and whose requests all succeed. -/
def ServedStep (_ : CommentSession K) : CommentEvent K → Prop
  | .persistNext _ fates => ∀ f ∈ fates, f = .served
  | .create .. | .call .. | .delete _ | .startPersist | .finishPersist => False

section

variable [DecidableEq K]

instance (bytes : List K → Nat) (s : CommentSession K) (key : DirtyKey) :
    Decidable (Carried bytes s key) := by
  unfold Carried
  split
  · infer_instance
  · split <;> infer_instance

instance (bytes : List K → Nat) (s : CommentSession K) (a : CommentEvent K) :
    Decidable (SavesCarried bytes s a) := by
  rcases a with ⟨⟩ <;> dsimp only [SavesCarried] <;> infer_instance

instance (s : CommentSession K) (a : CommentEvent K) : Decidable (ServedStep s a) := by
  rcases a with ⟨⟩ <;> dsimp only [ServedStep] <;> infer_instance

end

/-- The server has what the client's threads and snapshots say, except for what is pending. -/
structure PersistInv (s : CommentSession K) : Prop where
  saved : ∀ id p, s.lastPersisted id = some p →
    ∃ th, s.store id = some th ∧ storedDigest th = p.digest
  unsaved : ∀ id, s.lastPersisted id = none → s.store id = none
  current : ∀ id t, s.threads id = some t →
    .thread id ∈ s.pendingKeys ∨ s.lastPersisted id = some t
  gone : ∀ id, s.threads id = none → .deleted id ∈ s.pendingKeys ∨ s.lastPersisted id = none
  deleted : ∀ id, .deleted id ∈ s.pendingKeys → s.threads id = none ∧ id ∈ s.used
  used : ∀ id t, s.threads id = some t → id ∈ s.used

section

variable {bytes : List K → Nat} {s s' : CommentSession K} {key : DirtyKey} {rest : List DirtyKey}

lemma persistInv_initial : PersistInv (.initial : CommentSession K) := by
  constructor <;> simp [CommentSession.pendingKeys, CommentSession.initial]

lemma mem_pendingKeys_cons (hqueue : s.queue = key :: rest) {k : DirtyKey} :
    k ∈ s.pendingKeys ↔ k = key ∨ k ∈ { s with queue := rest }.pendingKeys := by
  simp only [CommentSession.pendingKeys, hqueue, mem_append, mem_cons]
  tauto

namespace PersistInv

variable (h : PersistInv s)
include h

lemma moved {dirty queue failed : List DirtyKey} {retryCount : DirtyKey → Nat}
    (hkeys : ∀ k, k ∈ dirty ++ (queue ++ failed) ↔ k ∈ s.pendingKeys) :
    PersistInv { s with dirty, retryCount, queue, failed } where
  saved := h.saved
  unsaved := h.unsaved
  current id t ht := (h.current id t ht).imp_left (hkeys _).2
  gone id ht := (h.gone id ht).imp_left (hkeys _).2
  deleted id hk := h.deleted id ((hkeys _).1 hk)
  used := h.used

lemma processed (hqueue : s.queue = key :: rest)
    {lastPersisted : Nat → Option (StoredThread K)} {store : CommentStore K}
    (hsaved : ∀ id p, lastPersisted id = some p →
      ∃ th, store id = some th ∧ storedDigest th = p.digest)
    (hunsaved : ∀ id, lastPersisted id = none → store id = none)
    (hcurrent : ∀ id t, s.threads id = some t →
      .thread id = key ∨ s.lastPersisted id = some t → lastPersisted id = some t)
    (hgone : ∀ id, s.threads id = none →
      .deleted id = key ∨ s.lastPersisted id = none → lastPersisted id = none) :
    PersistInv ({ s with queue := rest, lastPersisted, store }.saved key) := by
  refine ⟨hsaved, hunsaved, fun id t ht => ?_, fun id ht => ?_, fun id hk => ?_, h.used⟩
  · rcases h.current id t ht with hk | hlast
    · rcases (mem_pendingKeys_cons hqueue).1 hk with heq | hk
      · exact .inr (hcurrent id t ht (.inl heq))
      · exact .inl hk
    · exact .inr (hcurrent id t ht (.inr hlast))
  · rcases h.gone id ht with hk | hlast
    · rcases (mem_pendingKeys_cons hqueue).1 hk with heq | hk
      · exact .inr (hgone id ht (.inl heq))
      · exact .inl hk
    · exact .inr (hgone id ht (.inr hlast))
  · exact h.deleted id ((mem_pendingKeys_cons hqueue).2 (.inr hk))

lemma retried (hqueue : s.queue = key :: rest)
    (hretry : s.retryCount key + 1 < maxPersistRetries) :
    PersistInv ({ s with queue := rest }.notSaved key) := by
  rw [CommentSession.notSaved]
  simp only [ge_iff_le, Nat.not_le.2 hretry, if_false]
  refine h.moved fun k => ?_
  simp only [CommentSession.pendingKeys, hqueue, mem_append, mem_cons]
  tauto

variable {now id : Nat} {fates : List Fate} {t : StoredThread K}

lemma put (hqueue : s.queue = key :: rest)
    (hkey : key = .thread id ∨ key = .deleted id) {last : Option (StoredThread K)}
    {stored : Option (CommentThread K)} (hthread : s.threads id = last)
    (hsaved : ∀ p, last = some p → ∃ th, stored = some th ∧ storedDigest th = p.digest)
    (hunsaved : last = none → stored = none) :
    PersistInv ({ s with
      queue := rest
      lastPersisted := update s.lastPersisted id last
      store := update s.store id stored }.saved key) := by
  refine h.processed hqueue (fun i p hp => ?_) (fun i hp => ?_) (fun i t ht hor => ?_)
    fun i hnone hor => ?_
  all_goals by_cases hi : i = id
  · subst hi
    rw [update_self] at hp ⊢
    exact hsaved p hp
  · rw [update_of_ne hi] at hp ⊢
    exact h.saved i p hp
  · subst hi
    rw [update_self] at hp ⊢
    exact hunsaved hp
  · rw [update_of_ne hi] at hp ⊢
    exact h.unsaved i hp
  · rw [hi, update_self, ← hthread, ← hi, ht]
  · rw [update_of_ne hi]
    exact hor.resolve_left fun heq => by simp [← heq, hi] at hkey
  · rw [hi, update_self, ← hthread, ← hi, hnone]
  · rw [update_of_ne hi]
    exact hor.resolve_left fun heq => by simp [← heq, hi] at hkey

lemma sent (hqueue : s.queue = .thread id :: rest)
    {th : CommentThread K} (ht : s.threads id = some t) (hdigest : storedDigest th = t.digest) :
    PersistInv ({ s with
      queue := rest
      lastPersisted := update s.lastPersisted id (some t)
      store := s.store.writeThread id th }.saved (.thread id)) := by
  refine h.put hqueue (.inl rfl) ht (fun p hp => ⟨th, rfl, ?_⟩) nofun
  rw [hdigest, Option.some.inj hp]

lemma removed (hqueue : s.queue = .deleted id :: rest) :
    PersistInv ({ s with
      queue := rest
      lastPersisted := update s.lastPersisted id none
      store := update s.store id none }.saved (.deleted id)) := by
  have hgone := (h.deleted id ((mem_pendingKeys_cons hqueue).2 (.inl rfl))).1
  exact h.put hqueue (.inr rfl) hgone (by simp) fun _ => rfl

lemma skipped (hqueue : s.queue = .thread id :: rest)
    (hsame : ∀ t, s.threads id = some t → s.lastPersisted id = some t) :
    PersistInv ({ s with queue := rest }.saved (.thread id)) := by
  refine h.processed hqueue h.saved h.unsaved (fun i t ht hor => ?_) fun i _ hor =>
    hor.resolve_left nofun
  rcases hor with heq | hlast
  · cases heq
    exact hsame t ht
  · exact hlast

lemma send_requests (now : Nat) (ht : s.threads id = some t)
    (hne : s.lastPersisted id ≠ some t) (hcarried : Carried bytes s (.thread id)) :
    ∃ th, send bytes now s.store (s.requests id t) [] = (s.store.writeThread id th, true) ∧
      storedDigest th = t.digest := by
  rw [CommentSession.requests]
  simp only [Carried, ht] at hcarried
  cases hlast : s.lastPersisted id with
  | none =>
    simp only [hlast] at hcarried
    exact send_createRequests hcarried (h.unsaved id hlast)
  | some prev =>
    simp only [hlast] at hcarried
    obtain ⟨th, hth, hdigest⟩ := h.saved id prev hlast
    exact send_updateRequests (hcarried.resolve_left fun heq => hne (heq ▸ hlast)) hth hdigest

lemma changed {new : Option (StoredThread K)} {dirty : List DirtyKey} {used : List Nat}
    (hkeys : s.dirty ⊆ dirty) (hnew : new.elim (.deleted id) (fun _ => .thread id) ∈ dirty)
    (hdeleted : ∀ i, .deleted i ∈ dirty → .deleted i ∈ s.dirty ∨ i = id ∧ new = none)
    (hfresh : .deleted id ∈ s.pendingKeys → new = none) (hid : id ∈ used) (hused : s.used ⊆ used) :
    PersistInv { s with threads := update s.threads id new, dirty, used } := by
  have hpending : s.pendingKeys ⊆ dirty ++ (s.queue ++ s.failed) := fun _ hk =>
    (mem_append.1 hk).elim (fun hk => mem_append_left _ (hkeys hk)) (mem_append_right _)
  have hself : update s.threads id new id = new := update_self ..
  have hthreads {i : Nat} (hi : i ≠ id) : update s.threads id new i = s.threads i :=
    update_of_ne hi ..
  refine ⟨h.saved, h.unsaved, fun i t ht => ?_, fun i hnone => ?_, fun i hk => ?_, fun i t ht => ?_⟩
  all_goals by_cases hi : i = id
  · subst hi
    rw [show new = some t from hself.symm.trans ht] at hnew
    exact .inl (mem_append_left _ hnew)
  · exact (h.current i t ((hthreads hi).symm.trans ht)).imp_left (hpending ·)
  · subst hi
    rw [show new = none from hself.symm.trans hnone] at hnew
    exact .inl (mem_append_left _ hnew)
  · exact (h.gone i ((hthreads hi).symm.trans hnone)).imp_left (hpending ·)
  · subst hi
    refine ⟨hself.trans ?_, hid⟩
    rcases mem_append.1 hk with hk | hk
    · exact (hdeleted i hk).elim (fun hk => hfresh (mem_append_left _ hk)) And.right
    · exact hfresh (mem_append_right _ hk)
  · have hk : .deleted i ∈ s.pendingKeys := (mem_append.1 hk).elim
      (fun hk => mem_append_left _ ((hdeleted i hk).resolve_right fun h => hi h.1))
      (mem_append_right _)
    exact (h.deleted i hk).imp (hthreads hi).trans (hused ·)
  · exact hi ▸ hid
  · exact hused (h.used i t ((hthreads hi).symm.trans ht))

lemma written {used : List Nat} (hfresh : .deleted id ∉ s.pendingKeys) (hid : id ∈ used)
    (hused : s.used ⊆ used) :
    PersistInv { s with
      threads := update s.threads id (some t)
      dirty := markDirty s.dirty (.thread id)
      used } :=
  h.changed (fun _ hk => mem_markDirty.2 (.inl hk)) (mem_markDirty.2 (.inr rfl))
    (fun _ hk => .inl ((mem_markDirty.1 hk).resolve_right nofun)) (absurd · hfresh) hid hused

lemma synced (hnone : s.pendingKeys = []) (id : Nat) : s.Synced id := by
  rw [CommentSession.Synced]
  cases ht : s.threads id with
  | none =>
    have hlast := (h.gone id ht).resolve_left (by simp [hnone])
    rw [h.unsaved id hlast]
    rfl
  | some t =>
    have hlast := (h.current id t ht).resolve_left (by simp [hnone])
    obtain ⟨th, hth, hdigest⟩ := h.saved id t hlast
    rw [hth, map_some, map_some, hdigest]

variable [DecidableEq K]

lemma persistKey_served (hqueue : s.queue = key :: rest)
    (hcarried : Carried bytes s key) (hserved : ∀ f ∈ fates, f = .served) :
    ∃ lastPersisted store,
      { s with queue := rest }.persistKey bytes key now fates =
        { s with queue := rest, lastPersisted, store }.saved key ∧
      PersistInv ({ s with queue := rest, lastPersisted, store }.saved key) := by
  cases key with
  | deleted id =>
    refine ⟨_, _, ?_, h.removed hqueue⟩
    simp only [CommentSession.persistKey, send_served hserved]
    rfl
  | thread id =>
    by_cases hsame : ∀ t, s.threads id = some t → s.lastPersisted id = some t
    · exact ⟨_, _, CommentSession.persistKey_unchanged hsame, h.skipped hqueue hsame⟩
    · push Not at hsame
      obtain ⟨t, ht, hne⟩ := hsame
      obtain ⟨th, hsend, hdigest⟩ := h.send_requests now ht hne hcarried
      refine ⟨_, _, ?_, h.sent hqueue ht hdigest⟩
      have hsend : send bytes now s.store ({ s with queue := rest }.requests id t) fates =
          (s.store.writeThread id th, true) := (send_served hserved).trans hsend
      rw [CommentSession.persistKey_changed (s := { s with queue := rest }) ht hne, hsend]
      rfl

lemma persistKey_lost (hqueue : s.queue = key :: rest)
    (hcarried : Carried bytes s key) (hlost : fates.head? = some .lost)
    (hretry : s.retryCount key + 1 < maxPersistRetries) :
    PersistInv ({ s with queue := rest }.persistKey bytes key now fates) := by
  cases key with
  | deleted id =>
    simp only [CommentSession.persistKey, send_lost hlost]
    exact h.retried hqueue hretry
  | thread id =>
    by_cases hsame : ∀ t, s.threads id = some t → s.lastPersisted id = some t
    · rw [CommentSession.persistKey_unchanged (s := { s with queue := rest }) hsame]
      exact h.skipped hqueue hsame
    · push Not at hsame
      obtain ⟨t, ht, hne⟩ := hsame
      rw [CommentSession.persistKey_changed (s := { s with queue := rest }) ht hne]
      cases hrs : { s with queue := rest }.requests id t with
      | nil =>
        obtain ⟨th, hsend, hdigest⟩ := h.send_requests now ht hne hcarried
        have hstore : s.store = s.store.writeThread id th := by
          have hnil : s.requests id t = [] := hrs
          rw [hnil] at hsend
          exact congrArg Prod.fst hsend
        have hinv := h.sent hqueue ht hdigest
        rw [← hstore] at hinv
        exact hinv
      | cons r rs =>
        simp only [send_lost hlost]
        exact h.retried hqueue hretry

lemma step {a : CommentEvent K} (hok : SavesCarried bytes s a)
    (hstep : commentStep bytes s a = some s') : PersistInv s' := by
  cases a with
  | create i caller anchor startRel endRel comment suggestion =>
    obtain ⟨hunused, hstep⟩ := ite_none_left_eq_some.1 hstep
    obtain ⟨t, -, rfl⟩ := map_eq_some_iff.1 hstep
    exact h.written (fun hk => hunused (h.deleted i hk).2) mem_cons_self
      (subset_cons_self ..)
  | call i caller call =>
    obtain ⟨t, ht, t', -, rfl⟩ := bind_map_eq_some.1 hstep
    refine h.written (fun hk => ?_) (h.used i t ht) (List.Subset.refl _)
    rw [(h.deleted i hk).1] at ht
    cases ht
  | delete i =>
    cases hstep
    refine h.changed (fun k hk => mem_markDirty.2 (.inl ?_)) (mem_markDirty.2 (.inr rfl))
      (fun j hj => ?_) (fun _ => rfl) mem_cons_self (subset_cons_self ..)
    · split
      · exact mem_markDirty.2 (.inl hk)
      · exact hk
    · rcases mem_markDirty.1 hj with hj | hj
      · left
        split at hj
        · exact (mem_markDirty.1 hj).resolve_right nofun
        · exact hj
      · exact .inr ⟨DirtyKey.deleted.inj hj, rfl⟩
  | startPersist =>
    obtain ⟨⟨hqueue, hfailed⟩, ⟨⟩⟩ := ite_none_right_eq_some.1 hstep
    exact h.moved fun k => by simp [CommentSession.pendingKeys, hqueue, hfailed]
  | persistNext now fates =>
    obtain ⟨key, rest, hqueue, rfl⟩ := commentStep_persistNext hstep
    obtain ⟨hcarried, hserved | ⟨hlost, hretry⟩⟩ := hok key (by rw [hqueue]; rfl)
    · obtain ⟨_, _, hkey, hinv⟩ := h.persistKey_served hqueue hcarried hserved
      exact hkey ▸ hinv
    · exact h.persistKey_lost hqueue hcarried hlost hretry
  | finishPersist =>
    obtain ⟨hqueue, ⟨⟩⟩ := ite_none_right_eq_some.1 hstep
    refine h.moved fun k => ?_
    simp [CommentSession.pendingKeys, hqueue, mem_foldl_markDirty]

/-- Each step of a run whose requests all succeed takes a key off the queue and puts none back. -/
lemma servedStep {a : CommentEvent K} (hok : SavesCarried bytes s a)
    (hserved : ServedStep s a) (hstep : commentStep bytes s a = some s') :
    s'.dirty = s.dirty ∧ s'.failed = s.failed := by
  cases a with
  | persistNext now fates =>
    obtain ⟨key, rest, hqueue, rfl⟩ := commentStep_persistNext hstep
    obtain ⟨hcarried, -⟩ := hok key (by rw [hqueue]; rfl)
    obtain ⟨_, _, hkey, -⟩ := h.persistKey_served hqueue hcarried hserved
    rw [hkey]
    exact ⟨rfl, rfl⟩
  | _ => exact hserved.elim

end PersistInv

variable [DecidableEq K]

/-- In a session whose saves only ever have to carry what requests can, a last persist run whose
requests all succeed leaves the server with the threads of the client. -/
theorem persisted_of_savesCarried {s₁ s₂ t : CommentSession K}
    (hrun : Run (commentStep bytes) (SavesCarried bytes) .initial s)
    (hstart : commentStep bytes s .startPersist = some s₁)
    (hlast : Run (commentStep bytes) (fun s a => SavesCarried bytes s a ∧ ServedStep s a) s₁ s₂)
    (hfinish : commentStep bytes s₂ .finishPersist = some t) : ∀ id, t.Synced id := by
  have hs : PersistInv s := hrun.invariant (P := PersistInv) persistInv_initial
    fun _ _ _ h hok hstep => h.step hok hstep
  have hs₁ : PersistInv s₁ ∧ s₁.dirty = [] ∧ s₁.failed = [] := by
    have hok : SavesCarried bytes s .startPersist := trivial
    refine ⟨hs.step hok hstart, ?_⟩
    obtain ⟨⟨-, hfailed⟩, hstart⟩ := ite_none_right_eq_some.1 hstart
    cases hstart
    exact ⟨rfl, hfailed⟩
  obtain ⟨hs₂, hdirty, hfailed⟩ := hlast.invariant
    (P := fun u => PersistInv u ∧ u.dirty = [] ∧ u.failed = []) hs₁ fun u v a h hok hstep => by
      obtain ⟨hdirty, hfailed⟩ := h.1.servedStep hok.1 hok.2 hstep
      exact ⟨h.1.step hok.1 hstep, hdirty.trans h.2.1, hfailed.trans h.2.2⟩
  obtain ⟨hqueue, hfinish⟩ := ite_none_right_eq_some.1 hfinish
  cases hfinish
  exact hs₂.synced (by simp [CommentSession.pendingKeys, hdirty, hqueue, hfailed])

end

def fullCaller : Caller := ⟨1, 0, some ⟨true, true, [7], 100⟩⟩

def newThread (id : Nat) : CommentEvent Nat :=
  .create id fullCaller ⟨0, 1, [0x61]⟩ .textEnd .textEnd (some (10 * id, [0x63])) none

def newProposal (id : Nat) : CommentEvent Nat :=
  .create id fullCaller ⟨0, 1, [0x61]⟩ .textEnd .textEnd none
    (some { view := ⟨[0x61], [0x62], []⟩, author := 1, authorNote := none, status := .pending })

/-- Of two threads that are saved, one gets a reply and is resolved, and the other is accepted. A
first try to save that is lost. -/
theorem persisted_replyAndDecision : ∃ s s₁ s₂ t : CommentSession Nat,
      Run (commentStep length) (SavesCarried length) .initial s ∧
      commentStep length s .startPersist = some s₁ ∧
      Run (commentStep length) (fun s a => SavesCarried length s a ∧ ServedStep s a) s₁ s₂ ∧
      commentStep length s₂ .finishPersist = some t ∧ (t.threads 1).isSome ∧
      (t.threads 2).isSome ∧ ∀ id, t.Synced id := by
  have hrun : ∃ s ∈ exec (commentStep length) (SavesCarried length) .initial
      [newThread 1, newProposal 2, .startPersist, .persistNext 1 [.lost], .persistNext 1 [],
        .finishPersist, .startPersist, .persistNext 2 [], .finishPersist,
        .call 1 fullCaller (.addReply 11 [0x64]), .call 1 fullCaller .resolveThread,
        .call 2 fullCaller (.decideSuggestion .accepted)],
      ∃ s₁ ∈ commentStep length s .startPersist,
      ∃ s₂ ∈ exec (commentStep length)
        (fun s a => SavesCarried length s a ∧ ServedStep s a) s₁
        [.persistNext 3 [], .persistNext 4 []],
      ∃ t ∈ commentStep length s₂ .finishPersist,
        (t.threads 1).isSome ∧ (t.threads 2).isSome := by
    decide +kernel
  obtain ⟨s, hs, s₁, hs₁, s₂, hs₂, t, ht, h₁, h₂⟩ := hrun
  exact ⟨s, s₁, s₂, t, run_of_exec hs, hs₁, run_of_exec hs₂, ht, h₁, h₂,
    persisted_of_savesCarried (run_of_exec hs) hs₁ (run_of_exec hs₂) ht⟩

/-- The client edits, deletes or reacts to a comment of a saved thread; replies or resolves before
the first save; or reopens an accepted thread. The server has none of the six as the client has. -/
theorem persisted_without_changes : ∃ s s₁ s₂ t : CommentSession Nat,
      Run (commentStep length) anyStep .initial s ∧ commentStep length s .startPersist = some s₁ ∧
      Run (commentStep length) ServedStep s₁ s₂ ∧
      commentStep length s₂ .finishPersist = some t ∧ t.dirty = [] ∧
      ∀ id ∈ [1, 2, 3, 4, 5, 6], (t.threads id).isSome ∧ ¬ t.Synced id := by
  have hrun : ∃ s ∈ exec (commentStep length) anyStep .initial
      [newThread 1, newThread 2, newThread 3, newThread 4, newThread 5, newProposal 6,
        .call 4 fullCaller (.addReply 41 [0x64]), .call 5 fullCaller .resolveThread,
        .startPersist, .persistNext 1 [], .persistNext 1 [], .persistNext 1 [], .persistNext 1 [],
        .persistNext 1 [], .persistNext 1 [], .finishPersist,
        .call 1 fullCaller (.editComment 10 [0x65]), .call 2 fullCaller (.deleteComment 20),
        .call 3 fullCaller (.addReaction none 7),
        .call 6 fullCaller (.decideSuggestion .accepted), .call 6 fullCaller .reopenThread],
      ∃ s₁ ∈ commentStep length s .startPersist,
      ∃ s₂ ∈ exec (commentStep length) ServedStep s₁
        [.persistNext 2 [], .persistNext 2 [], .persistNext 2 [], .persistNext 2 []],
      ∃ t ∈ commentStep length s₂ .finishPersist, t.dirty = [] ∧
      ∀ id ∈ [1, 2, 3, 4, 5, 6], (t.threads id).isSome ∧ ¬ t.Synced id := by
    decide +kernel
  obtain ⟨s, hs, s₁, hs₁, s₂, hs₂, t, ht, hdiffer⟩ := hrun
  exact ⟨s, s₁, s₂, t, run_of_exec hs, hs₁, run_of_exec hs₂, ht, hdiffer⟩

end CollabEditor.Frontend
