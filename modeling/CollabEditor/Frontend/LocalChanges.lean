import CollabEditor.Frontend.PersistRuns
/-!
# What a user has changed in a thread

A call changes a part of a thread and leaves the others as they are.  A request brings some of the
changes to the server; edits, deletions and reactions no request brings there.
-/

namespace CollabEditor.Frontend

open List Option

open CollabEditor.StorageDemo (CommentStore CommentThread StoreError)

variable {K : Type}

/-! ## Changes -/

inductive Change (K : Type)
  | content (commentId : Nat) (content : List K)
  | deletion (commentId : Nat)
  | reaction (target : Option Nat) (user emoji : Nat) (there : Bool)
  | status (status : ThreadStatus)
  | decision (decision : SuggestionStatus)
  deriving DecidableEq

inductive Part
  | content (commentId : Nat)
  | deletion (commentId : Nat)
  | reaction (target : Option Nat) (user emoji : Nat)
  | status
  | decision
  deriving DecidableEq

def Change.part : Change K → Part
  | .content commentId _ => .content commentId
  | .deletion commentId => .deletion commentId
  | .reaction target user emoji _ => .reaction target user emoji
  | .status _ => .status
  | .decision _ => .decision

def reactedBy (user emoji : Nat) (list : List Reaction) : Bool :=
  list.any fun r => r.user == user && r.emoji == emoji

def StoredThread.hasReaction (t : StoredThread K) (target : Option Nat) (user emoji : Nat) : Bool :=
  match target with
  | none => reactedBy user emoji t.reactions
  | some id => t.comments.any fun c => c.id == id && reactedBy user emoji c.reactions

def Change.In (t : StoredThread K) : Change K → Prop
  | .content id text => ∃ c ∈ t.comments, c.id = id ∧ c.content = text
  | .deletion id => ∃ c ∈ t.comments, c.id = id ∧ c.deletedAt.isSome
  | .reaction target user emoji there => t.hasReaction target user emoji = there
  | .status now => t.status = now
  | .decision made => ∃ s ∈ t.suggestion, s.status = made

instance [DecidableEq K] (t : StoredThread K) (change : Change K) : Decidable (change.In t) := by
  rcases change with ⟨⟩ <;> dsimp only [Change.In] <;> infer_instance

def ThreadCall.changes (caller : Caller) : ThreadCall K → List (Change K)
  | .addReply id content => [.content id content]
  | .resolveThread => [.status .resolved]
  | .reopenThread => [.status .opened]
  | .editComment id content => [.content id content]
  | .deleteComment id => [.content id [], .deletion id]
  | .addReaction target emoji => [.reaction target caller.user emoji true]
  | .removeReaction target emoji => [.reaction target caller.user emoji false]
  | .decideSuggestion decision => [.decision decision, .status .resolved]

def ThreadCall.parts (caller : Caller) (call : ThreadCall K) : List Part :=
  (call.changes caller).map (·.part)

section

variable {t t' : StoredThread K} {caller : Caller} {change : Change K}
  {emoji user : Nat} {list : List Reaction}

lemma reactedBy_react {emoji' : Nat} (h : ¬(user = caller.user ∧ emoji = emoji')) :
    reactedBy user emoji (caller.react emoji' list) = reactedBy user emoji list := by
  rw [Caller.react]
  split
  · rfl
  · have hnew : ¬(caller.user = user ∧ emoji' = emoji) :=
      fun hsame => h ⟨hsame.1.symm, hsame.2.symm⟩
    simp [reactedBy, hnew]

lemma reactedBy_unreact {emoji' : Nat} (h : ¬(user = caller.user ∧ emoji = emoji')) :
    reactedBy user emoji (caller.unreact emoji' list) = reactedBy user emoji list := by
  rw [Bool.eq_iff_iff]
  simp only [reactedBy, Caller.unreact, List.any_filter, List.any_eq_true, Bool.and_eq_true,
    Bool.not_eq_true', beq_iff_eq, Bool.and_eq_false_iff, beq_eq_false_iff_ne]
  constructor
  · rintro ⟨r, hr, -, hby⟩
    exact ⟨r, hr, hby⟩
  · rintro ⟨r, hr, huser, hemoji⟩
    refine ⟨r, hr, ?_, huser, hemoji⟩
    rw [huser, hemoji]
    exact not_and_or.1 h

lemma hasReaction_mapComment {id : Nat} {target : Option Nat} {f : Comment K → Comment K}
    (hid : ∀ c, (f c).id = c.id)
    (hf : target = some id →
      ∀ c, reactedBy user emoji (f c).reactions = reactedBy user emoji c.reactions) :
    (t.mapComment id f).hasReaction target user emoji = t.hasReaction target user emoji := by
  cases target with
  | none => rfl
  | some target =>
    simp only [StoredThread.hasReaction, StoredThread.mapComment, List.any_map]
    congr 1
    funext c
    simp only [Function.comp]
    split
    · rename_i hc
      rw [hid]
      by_cases htarget : target = id
      · rw [hf (by rw [htarget])]
      · rw [hc, beq_false_of_ne (Ne.symm htarget), Bool.false_and, Bool.false_and]
    · rfl

variable (h : change.In t)
include h

lemma Change.In.mapComment {id : Nat} {f : Comment K → Comment K} (hid : ∀ c, (f c).id = c.id)
    (hcontent : change.part = .content id → ∀ c, (f c).content = c.content)
    (hdeletion : change.part = .deletion id → ∀ c, (f c).deletedAt = c.deletedAt)
    (hreaction : ∀ user emoji, change.part = .reaction (some id) user emoji →
      ∀ c, reactedBy user emoji (f c).reactions = reactedBy user emoji c.reactions) :
    change.In (t.mapComment id f) := by
  cases change with
  | content commentId text =>
    obtain ⟨c, hc, rfl, rfl⟩ := h
    refine ⟨_, mem_map_of_mem hc, ?_⟩
    split
    · rename_i heq
      exact ⟨hid c, hcontent (by rw [Change.part, heq]) c⟩
    · exact ⟨rfl, rfl⟩
  | deletion commentId =>
    obtain ⟨c, hc, rfl, hdeleted⟩ := h
    refine ⟨_, mem_map_of_mem hc, ?_⟩
    split
    · rename_i heq
      exact ⟨hid c, by rwa [hdeletion (by rw [Change.part, heq]) c]⟩
    · exact ⟨rfl, hdeleted⟩
  | reaction target user emoji there =>
    rw [Change.In, hasReaction_mapComment hid fun htarget => hreaction user emoji (by
      rw [Change.part, htarget])]
    exact h
  | status now => exact h
  | decision made => exact h

lemma Change.In.reactions (hlist : ∀ user emoji, change.part = .reaction none user emoji →
      reactedBy user emoji list = reactedBy user emoji t.reactions) :
    change.In { t with reactions := list } := by
  cases change with
  | reaction target user emoji there =>
    cases target with
    | none => exact (hlist user emoji rfl).trans h
    | some id => exact h
  | _ => exact h

lemma Change.In.mutate {bytes : List K → Nat} {call : ThreadCall K}
    (ht' : t.mutate bytes caller call = some t') (hpart : change.part ∉ call.parts caller) :
    change.In t' := by
  cases call with
  | addReply id text =>
    obtain ⟨-, rfl⟩ := ite_some_none_eq_some.1 ht'
    cases change with
    | content | deletion =>
      obtain ⟨c, hc, hsame⟩ := h
      exact ⟨c, mem_append_left _ hc, hsame⟩
    | reaction target user emoji there =>
      cases target with
      | none => exact h
      | some target =>
        simpa [Change.In, StoredThread.hasReaction, reactedBy] using h
    | status | decision => exact h
  | resolveThread | reopenThread =>
    cases ht'
    cases change with
    | status now => exact absurd mem_cons_self hpart
    | _ => exact h
  | editComment id text =>
    obtain ⟨-, rfl⟩ := ite_some_none_eq_some.1 ht'
    refine h.mapComment (fun _ => rfl) (fun heq => ?_) (fun _ _ => rfl) fun _ _ _ _ => rfl
    exact absurd (heq ▸ mem_cons_self) hpart
  | deleteComment id =>
    obtain ⟨-, rfl⟩ := ite_some_none_eq_some.1 ht'
    refine h.mapComment (fun _ => rfl) (fun heq => ?_) (fun heq => ?_) fun _ _ _ _ => rfl
    · exact absurd (heq ▸ mem_cons_self) hpart
    · exact absurd (heq ▸ mem_cons_of_mem _ mem_cons_self) hpart
  | addReaction target emoji =>
    obtain ⟨-, ht'⟩ := ite_none_right_eq_some.1 ht'
    have hother (user emoji') (heq : change.part = .reaction target user emoji') :
        ¬(user = caller.user ∧ emoji' = emoji) := by
      rintro ⟨rfl, rfl⟩
      exact hpart (heq ▸ mem_cons_self)
    cases target with
    | none =>
      obtain ⟨-, ht'⟩ := ite_none_left_eq_some.1 ht'
      cases ht'
      exact h.reactions fun user emoji' heq => reactedBy_react (hother user emoji' heq)
    | some id =>
      cases ht'
      exact h.mapComment (fun _ => rfl) (fun _ _ => rfl) (fun _ _ => rfl)
        fun user emoji' heq _ => reactedBy_react (hother user emoji' heq)
  | removeReaction target emoji =>
    have hother (user emoji') (heq : change.part = .reaction target user emoji') :
        ¬(user = caller.user ∧ emoji' = emoji) := by
      rintro ⟨rfl, rfl⟩
      exact hpart (heq ▸ mem_cons_self)
    cases target with
    | none =>
      cases ht'
      exact h.reactions fun user emoji' heq => reactedBy_unreact (hother user emoji' heq)
    | some id =>
      cases ht'
      exact h.mapComment (fun _ => rfl) (fun _ _ => rfl) (fun _ _ => rfl)
        fun user emoji' heq _ => reactedBy_unreact (hother user emoji' heq)
  | decideSuggestion made =>
    obtain ⟨s, -, rfl⟩ := map_eq_some_iff.1 ht'
    cases change with
    | status now => exact absurd (mem_cons_of_mem _ mem_cons_self) hpart
    | decision made => exact absurd mem_cons_self hpart
    | _ => exact h

end

/-! ## What requests bring to the server -/

/-- The changes of a thread that the server has once it has accepted the request. -/
def CommentRequest.brings : CommentRequest K → List (Nat × Change K)
  | .create id _ comment suggestion =>
    (id, .status .opened) :: (comment.toList.map (fun c => (id, .content c.id c.content)) ++
      suggestion.toList.map fun s => (id, .decision s.status))
  | .reply id c => [(id, .content c.id c.content)]
  | .status id now _ => [(id, .status now)]
  | .decision id made _ => [(id, .decision made), (id, .status .resolved)]
  | .delete _ => []

def accepted (bytes : List K → Nat) (now : Nat) (cs : CommentStore K) (r : CommentRequest K) :
    List (Nat × Change K) :=
  match serve bytes now cs r with
  | .ok _ => r.brings
  | .error _ => []

section

variable {bytes : List K → Nat} {now id : Nat} {cs cs' : CommentStore K} {r : CommentRequest K}
  {change : Change K}

lemma exists_thread_of_tolerated {e : StoreError} (h : serve bytes now cs r = .error e)
    (htolerated : toleratesError r e = true) :
    ∃ id anchor comment suggestion, r = .create id anchor comment suggestion ∧ (cs id).isSome := by
  rw [toleratesError.eq_def] at htolerated
  split at htolerated
  · exact ⟨_, _, _, _, rfl, CommentStore.createCommentThread_threadExists h⟩
  · cases htolerated

end

/-- The change is sent if the thread is saved now. The first time, only the first comment and the
suggestion are; later, comments that the snapshot has not, and another status or decision. -/
def Carriable (t : StoredThread K) : Option (StoredThread K) → Change K → Prop
  | none, .content id text => ∃ c ∈ t.comments.head?, c.id = id ∧ c.content = text
  | none, .status now => now = .opened
  | none, .decision _ => True
  | some prev, .content id text => ∃ c ∈ t.comments, c.id = id ∧ c.content = text ∧
      c.deletedAt = none ∧ ∀ p ∈ prev.comments, p.id ≠ id
  | some prev, .status now => prev.status ≠ now
  | some prev, .decision made => made ≠ .pending ∧ prev.suggestion.map (·.status) ≠ some made
  | _, .deletion _ => False
  | _, .reaction .. => False

instance [DecidableEq K] (t : StoredThread K) (prev : Option (StoredThread K)) (change : Change K) :
    Decidable (Carriable t prev change) := by
  rcases prev with ⟨⟩ <;> rcases change with ⟨⟩ <;> dsimp only [Carriable] <;> infer_instance

section

variable {t prev : StoredThread K} {change : Change K} {id : Nat} (hin : change.In t)
include hin

lemma exists_createRequests_of_carriable (h : Carriable t none change) :
    ∃ r ∈ createRequests id t, (id, change) ∈ r.brings := by
  refine ⟨_, mem_singleton_self _, ?_⟩
  cases change with
  | content commentId text =>
    obtain ⟨c, hc, rfl, rfl⟩ := h
    have hfirst : newComment c ∈ (t.comments.head?.map newComment).toList :=
      mem_toList.2 (mem_map_of_mem _ hc)
    exact mem_cons_of_mem _ (mem_append_left _ (mem_map.2 ⟨_, hfirst, rfl⟩))
  | deletion | reaction => exact h.elim
  | status now =>
    obtain rfl : now = .opened := h
    exact mem_cons_self
  | decision made =>
    obtain ⟨s, hs, rfl⟩ := hin
    exact mem_cons_of_mem _ (mem_append_right _
      (mem_map.2 ⟨s, mem_toList.2 hs, rfl⟩))

lemma exists_updateRequests_of_carriable (h : Carriable t (some prev) change) :
    ∃ r ∈ updateRequests id prev t, (id, change) ∈ r.brings := by
  cases change with
  | content commentId text =>
    obtain ⟨c, hc, rfl, rfl, hdeleted, hnew⟩ := h
    refine ⟨.reply id (newComment c), mem_append_left _ (mem_map_of_mem ?_), mem_singleton_self _⟩
    refine mem_filter.2 ⟨hc, ?_⟩
    simpa [hdeleted] using hnew
  | deletion | reaction => exact h.elim
  | status now =>
    obtain rfl := hin
    refine ⟨.status id t.status t.resolvedBy, mem_append_right _ (mem_append_left _ ?_),
      mem_singleton_self _⟩
    have hne : prev.status ≠ t.status := h
    rw [statusRequests, if_pos hne]
    exact mem_singleton_self _
  | decision made =>
    obtain ⟨s, hs, rfl⟩ := hin
    refine ⟨.decision id s.status s.decidedBy,
      mem_append_right _ (mem_append_right _ ?_), mem_cons_self⟩
    have hne : s.status ≠ .pending ∧ prev.suggestion.map (·.status) ≠ some s.status := h
    simp only [decisionRequests, mem_def.1 hs, if_pos hne]
    exact mem_singleton_self _

lemma exists_brings_of_carriable {client : CommentClient K}
    (h : Carriable t (client.lastPersisted id) change) :
    ∃ r ∈ client.requests id t, (id, change) ∈ r.brings := by
  rw [CommentClient.requests]
  split
  · rename_i hnone
    exact exists_createRequests_of_carriable hin (hnone ▸ h)
  · rename_i prev hprev
    exact exists_updateRequests_of_carriable hin (hprev ▸ h)

lemma not_carriable_self : ¬Carriable t (some t) change := by
  cases change with
  | content commentId text =>
    rintro ⟨c, hc, rfl, -, -, hnew⟩
    exact hnew c hc rfl
  | deletion | reaction => exact fun h => h
  | status now => exact fun h => h hin
  | decision made =>
    rintro ⟨-, hne⟩
    obtain ⟨s, hs, rfl⟩ := hin
    exact hne (by rw [mem_def.1 hs]; rfl)

end

end CollabEditor.Frontend
