import CollabEditor.Support.TextPosition
import CollabEditor.Frontend.SuggestEngine
/-!
# Comment threads on the client

`CommentEngine` keeps each thread as one value of the shared map `comments`.  Ids, users, emoji and
times are numbers; what nobody reads here (display names, mentions) is left out.
-/

namespace CollabEditor.Frontend

open Support SharedText TextDiff Option

variable {K : Type}

inductive ThreadStatus
  | opened
  | resolved
  deriving DecidableEq

inductive SuggestionStatus
  | pending
  | accepted
  | rejected
  | notApplicable
  deriving DecidableEq

structure Reaction where
  user : Nat
  emoji : Nat
  createdAt : Nat
  deriving DecidableEq

structure Comment (K : Type) where
  id : Nat
  author : Nat
  content : List K
  createdAt : Nat
  updatedAt : Option Nat := none
  deletedAt : Option Nat := none
  reactions : List Reaction := []
  deriving DecidableEq

structure Suggestion (K : Type) where
  view : SuggestionView K
  author : Nat
  authorNote : Option (List K)
  status : SuggestionStatus
  decidedBy : Option Nat := none
  decidedAt : Option Nat := none
  deriving DecidableEq

structure StoredThread (K : Type) where
  anchor : CommentAnchor K
  startRel : Option Position
  endRel : Option Position
  status : ThreadStatus
  resolvedBy : Option Nat := none
  resolvedAt : Option Nat := none
  suggestion : Option (Suggestion K)
  comments : List (Comment K)
  reactions : List Reaction
  createdAt : Nat
  deriving DecidableEq

structure Capabilities where
  commentEdit : Bool
  commentDelete : Bool
  reactions : List Nat
  maxCommentSize : Nat

structure Caller where
  user : Nat
  now : Nat
  capabilities : Option Capabilities

/-- A reaction of `target` is one to a comment, or to the thread. -/
inductive ThreadCall (K : Type)
  | addReply (id : Nat) (content : List K)
  | resolveThread
  | reopenThread
  | editComment (commentId : Nat) (content : List K)
  | deleteComment (commentId : Nat)
  | addReaction (target : Option Nat) (emoji : Nat)
  | removeReaction (target : Option Nat) (emoji : Nat)
  | decideSuggestion (decision : SuggestionStatus)

namespace Caller

def editsComments (caller : Caller) : Bool := caller.capabilities.any (·.commentEdit)

def deletesComments (caller : Caller) : Bool := caller.capabilities.any (·.commentDelete)

def reactsWith (caller : Caller) (emoji : Nat) : Bool :=
  caller.capabilities.any (·.reactions.contains emoji)

def withinSize (caller : Caller) (bytes : Nat) : Bool :=
  decide (bytes ≤ (caller.capabilities.map (·.maxCommentSize)).getD (10 * 1024))

def reacted (caller : Caller) (emoji : Nat) (list : List Reaction) : Bool :=
  list.any fun r => r.user == caller.user && r.emoji == emoji

def react (caller : Caller) (emoji : Nat) (list : List Reaction) : List Reaction :=
  if caller.reacted emoji list then list else list ++ [⟨caller.user, emoji, caller.now⟩]

def unreact (caller : Caller) (emoji : Nat) (list : List Reaction) : List Reaction :=
  list.filter fun r => !(r.user == caller.user && r.emoji == emoji)

end Caller

namespace StoredThread

def mapComment (t : StoredThread K) (id : Nat) (f : Comment K → Comment K) : StoredThread K :=
  { t with comments := t.comments.map fun c => if c.id = id then f c else c }

def decided (t : StoredThread K) (caller : Caller) (decision : SuggestionStatus)
    (s : Suggestion K) : StoredThread K :=
  { t with
    status := .resolved
    resolvedBy := some caller.user
    resolvedAt := some caller.now
    suggestion := some { s with
      status := decision
      decidedBy := some caller.user
      decidedAt := some caller.now } }

/-- What a call writes for a thread, if it writes at all: a call the provider does not
support, one with too long a text, a reaction to the thread that is there already and a
decision on no suggestion write nothing. -/
def mutate (bytes : List K → Nat) (caller : Caller) (t : StoredThread K) :
    ThreadCall K → Option (StoredThread K)
  | .addReply id content =>
    if caller.withinSize (bytes content) then
      some { t with comments := t.comments ++
        [{ id, author := caller.user, content, createdAt := caller.now }] }
    else none
  | .resolveThread =>
    some { t with
      status := .resolved, resolvedBy := some caller.user, resolvedAt := some caller.now }
  | .reopenThread => some { t with status := .opened, resolvedBy := none, resolvedAt := none }
  | .editComment id content =>
    if caller.editsComments ∧ caller.withinSize (bytes content) then
      some (t.mapComment id fun c => { c with content, updatedAt := some caller.now })
    else none
  | .deleteComment id =>
    if caller.deletesComments then
      some (t.mapComment id fun c => { c with content := [], deletedAt := some caller.now })
    else none
  | .addReaction target emoji =>
    if caller.reactsWith emoji then
      match target with
      | none =>
        if caller.reacted emoji t.reactions then none
        else some { t with reactions := caller.react emoji t.reactions }
      | some id =>
        some (t.mapComment id fun c => { c with reactions := caller.react emoji c.reactions })
    else none
  | .removeReaction target emoji =>
    match target with
    | none => some { t with reactions := caller.unreact emoji t.reactions }
    | some id =>
      some (t.mapComment id fun c => { c with reactions := caller.unreact emoji c.reactions })
  | .decideSuggestion decision => t.suggestion.map (t.decided caller decision)

lemma mutate_keeps {bytes : List K → Nat} {caller : Caller} {t t' : StoredThread K}
    {call : ThreadCall K} (h : t.mutate bytes caller call = some t') :
    (t'.anchor = t.anchor ∧ t'.startRel = t.startRel ∧ t'.endRel = t.endRel) ∧
      t'.suggestion.map (·.view) = t.suggestion.map (·.view) := by
  cases call with
  | decideSuggestion decision =>
    obtain ⟨s, hs, rfl⟩ := map_eq_some_iff.1 h
    simp [decided, hs]
  | addReaction target emoji | removeReaction target emoji =>
    cases target <;> simp only [mutate] at h <;> grind [mapComment]
  | _ =>
    simp only [mutate] at h
    grind [mapComment]

end StoredThread

/-! ## New threads -/

section

variable (bytes : List K → Nat)

def createThread (caller : Caller) (anchor : CommentAnchor K) (startRel endRel : Position)
    (comment : Option (Nat × List K)) (suggestion : Option (Suggestion K)) :
    Option (StoredThread K) :=
  let content := (comment.map (·.2)).getD []
  let note := (suggestion.bind (·.authorNote)).getD []
  if caller.withinSize (bytes content) ∧ (note = [] ∨ caller.withinSize (bytes note)) then
    some {
      anchor
      startRel := some startRel
      endRel := some endRel
      status := .opened
      suggestion
      comments := (comment.filter fun c => !c.2.isEmpty).toList.map fun c =>
        { id := c.1, author := caller.user, content := c.2, createdAt := caller.now }
      reactions := []
      createdAt := caller.now }
  else none

variable {P : Type} [LinearOrder P] [DecidableEq K] (order : DocOrder K P)

/-- The anchor of the payload is kept as positions of the text that `d` shows now. -/
def commitSuggestion (caller : Caller) (d : Doc K) (payload : SuggestionPayload K) :
    Option (StoredThread K) :=
  createThread bytes caller payload.anchor (d.positionAt order payload.anchor.start)
    (d.positionAt order payload.anchor.stop) none
    (some { view := payload.view, author := caller.user, authorNote := payload.authorNote,
            status := .pending })

/-- `_insertThreadFromWire`: the server has no positions. -/
def StoredThread.fromWire (t : StoredThread K) : StoredThread K :=
  { t with startRel := none, endRel := none }

/-- Without positions: where the quoted text first is, or at the offsets of the anchor if nothing
is quoted. -/
def resolveQuote (text : List K) (anchor : CommentAnchor K) : Option (Nat × Nat) :=
  if anchor.quotedText ≠ [] then
    (indexOf anchor.quotedText text).map fun i => (i, i + anchor.quotedText.length)
  else
    let start := min anchor.start text.length
    some (start, max start (min anchor.stop text.length))

/-- The range of the text in which the thread is anchored. -/
def resolveAnchor (d : Doc K) (t : StoredThread K) : Option (Nat × Nat) :=
  let text := d.text order
  match t.startRel.bind (d.index order), t.endRel.bind (d.index order) with
  | some start, some stop =>
    if start ≤ stop ∧ stop ≤ text.length then some (start, stop)
    else resolveQuote text t.anchor
  | _, _ => resolveQuote text t.anchor

def anchoredText (d : Doc K) (t : StoredThread K) : Option (List K) :=
  match t.startRel, t.endRel with
  | some p, some q => d.between order p q
  | _, _ => none

variable {order}

lemma resolveAnchor_of_anchoredText {d : Doc K} {t : StoredThread K} {text : List K}
    (h : anchoredText order d t = some text) :
    ∃ start stop, resolveAnchor order d t = some (start, stop) ∧ start ≤ stop ∧
      stop ≤ (d.text order).length ∧ slice (d.text order) start stop = text := by
  rw [anchoredText] at h
  split at h
  · rename_i p q hp hq
    rw [Doc.between] at h
    split at h
    · rename_i b b' hb hb'
      obtain ⟨hsub, rfl⟩ := ite_some_none_eq_some.1 h
      have hle := (Doc.countP_le_iff hb hb').2 hsub
      have hlen : d.visible.countP b' ≤ (d.text order).length := by
        rw [Doc.length_text]
        exact List.countP_le_length
      refine ⟨_, _, ?_, hle, hlen, (Doc.between_eq hb hb' hsub).symm⟩
      simp only [resolveAnchor, hp, hq, bind_some, Doc.index, hb, hb', map_some]
      exact if_pos ⟨hle, hlen⟩
    · cases h
  · cases h

lemma resolveAnchor_of_anchoredText_none {d : Doc K} {t : StoredThread K}
    (h : anchoredText order d t = none) :
    resolveAnchor order d t = resolveQuote (d.text order) t.anchor := by
  rw [resolveAnchor]
  split
  · rename_i start stop hstart hstop
    obtain ⟨p, hp, hindex⟩ := bind_eq_some_iff.1 hstart
    obtain ⟨q, hq, hindex'⟩ := bind_eq_some_iff.1 hstop
    obtain ⟨b, hb, rfl⟩ := map_eq_some_iff.1 hindex
    obtain ⟨b', hb', rfl⟩ := map_eq_some_iff.1 hindex'
    rw [if_neg]
    rintro ⟨hle, -⟩
    simp only [anchoredText, hp, hq, Doc.between, hb, hb',
      if_pos ((Doc.countP_le_iff hb hb').1 hle)] at h
    cases h
  · rfl

end

end CollabEditor.Frontend
