import Mathlib.Data.List.Basic
/-!
# The comments proxy of the relay

`cmd/relay/comments_proxy.go` over `internal/provider/comments_client.go`, which looks at the
provider's status for three routes only.  `createDone` is what `comment-engine.ts` takes for a
created thread.
-/

namespace CollabEditor.Relay.CommentsProxy

/-! ## The client -/

inductive Method
  | get
  | post
  | patch
  | delete

structure ProviderRequest where
  method : Method
  path : String
  body : Option (List UInt8)

/-- What the HTTP client brings back: an error of the transport, or a status and a body. -/
inductive ProviderAnswer
  | failed (message : String)
  | response (status : Nat) (body : List UInt8)

/-- The routes of the proxy with their parameters other than `path`. -/
inductive Route
  | capabilities
  | searchMentions (query : String) (limit : Int)
  | pollChanges (since : String)
  | listThreads
  | createThread
  | getThread (threadID : String)
  | addReply (threadID : String)
  | updateThreadStatus (threadID : String)
  | deleteThread (threadID : String)
  | updateComment (threadID commentID : String)
  | deleteComment (threadID commentID : String)
  | addReaction (threadID : String)
  | removeReaction (threadID : String)
  | decideSuggestion (threadID : String)
  deriving DecidableEq

/-- The escaping of URLs, and JSON: a request's body is decoded and encoded again on its way to
the provider (`none` if it does not decode), and so is a response's body on its way back. -/
structure Codec where
  queryEscape : String → String
  pathEscape : String → String
  request : Route → List UInt8 → Option (List UInt8)
  response : Route → List UInt8 → Except String (List UInt8)

/-- Which statuses of the provider a client function goes on with. -/
abbrev StatusCheck := Nat → Except String Unit

def anyStatus : StatusCheck := fun _ => .ok ()

def created (op : String) : StatusCheck := fun status =>
  if status = 201 then .ok ()
  else .error ("unexpected status " ++ toString status ++ " from comments provider on " ++ op)

def noContent : StatusCheck := fun status =>
  if status = 204 then .ok () else .error ("unexpected delete status: " ++ toString status)

def fetch (check : StatusCheck) (what : String) (decode : List UInt8 → Except String (List UInt8)) :
    ProviderAnswer → Except String (List UInt8)
  | .failed message => .error message
  | .response status body =>
    match check status with
    | .error e => .error e
    | .ok () => (decode body).mapError fun e => "decode " ++ what ++ ": " ++ e

def send (check : StatusCheck) : ProviderAnswer → Except String Unit
  | .failed message => .error message
  | .response status _ => check status

section

variable (codec : Codec) (answer : ProviderAnswer)

def capabilities := fetch anyStatus "capabilities" (codec.response .capabilities) answer

def listCommentThreads := fetch anyStatus "threads list" (codec.response .listThreads) answer

/-- `GetCommentThread`: a thread that the provider does not have is no error. -/
def getCommentThread (threadID : String) : Except String (Option (List UInt8)) :=
  match answer with
  | .response 404 _ => .ok none
  | _ => (fetch anyStatus "thread" (codec.response (.getThread threadID)) answer).map some

def createCommentThread :=
  fetch (created "create thread") "created thread" (codec.response .createThread) answer

def addReply (threadID : String) :=
  fetch (created "add reply") "reply" (codec.response (.addReply threadID)) answer

def updateThreadStatus (threadID : String) :=
  fetch anyStatus "thread status" (codec.response (.updateThreadStatus threadID)) answer

def deleteCommentThread := send noContent answer

def updateComment (threadID commentID : String) :=
  fetch anyStatus "updated comment" (codec.response (.updateComment threadID commentID)) answer

def deleteComment := send anyStatus answer

def addReaction := send anyStatus answer

def removeReaction := send anyStatus answer

def decideSuggestion (threadID : String) :=
  fetch anyStatus "decide response" (codec.response (.decideSuggestion threadID)) answer

def searchMentions (query : String) (limit : Int) :=
  fetch anyStatus "mentions search" (codec.response (.searchMentions query limit)) answer

def pollCommentChanges (since : String) :=
  fetch anyStatus "poll" (codec.response (.pollChanges since)) answer

end

def providerRequest (codec : Codec) (documentID : String) (body : Option (List UInt8)) :
    Route → ProviderRequest
  | .capabilities => ⟨.get, "/capabilities", none⟩
  | .searchMentions query limit =>
    let limit := if limit ≤ 0 then 10 else limit
    ⟨.get, "/documents/comments/mentions/search?path=" ++ codec.queryEscape documentID ++ "&q=" ++
      codec.queryEscape query ++ "&limit=" ++ toString limit, none⟩
  | .pollChanges since =>
    ⟨.get, "/documents/comments/poll?path=" ++ codec.queryEscape documentID ++ "&since=" ++
      codec.queryEscape since, none⟩
  | .listThreads => ⟨.get, "/documents/comments" ++ ofDocument, none⟩
  | .createThread => ⟨.post, "/documents/comments" ++ ofDocument, body⟩
  | .getThread t => ⟨.get, thread t ++ ofDocument, none⟩
  | .addReply t => ⟨.post, thread t ++ "/replies" ++ ofDocument, body⟩
  | .updateThreadStatus t => ⟨.patch, thread t ++ ofDocument, body⟩
  | .deleteThread t => ⟨.delete, thread t ++ ofDocument, none⟩
  | .updateComment t c => ⟨.patch, comment t c ++ ofDocument, body⟩
  | .deleteComment t c => ⟨.delete, comment t c ++ ofDocument, none⟩
  | .addReaction t => ⟨.post, thread t ++ "/reactions" ++ ofDocument, body⟩
  | .removeReaction t => ⟨.delete, thread t ++ "/reactions" ++ ofDocument, body⟩
  | .decideSuggestion t => ⟨.post, thread t ++ "/suggestion/decision" ++ ofDocument, body⟩
where
  ofDocument := "?path=" ++ codec.queryEscape documentID
  thread (threadID : String) := "/documents/comments/" ++ codec.pathEscape threadID
  comment (threadID commentID : String) :=
    thread threadID ++ "/comments/" ++ codec.pathEscape commentID

/-! ## The proxy -/

inductive ProxyBody
  | error (message : String)
  | json (bytes : List UInt8)
  | empty

structure ProxyResponse where
  status : Nat
  body : ProxyBody

def writeProxyError (status : Nat) (message : String) : ProxyResponse := ⟨status, .error message⟩

def proxyValue (success : Nat) : Except String (List UInt8) → ProxyResponse
  | .error e => writeProxyError 502 e
  | .ok value => ⟨success, .json value⟩

def proxyDone : Except String Unit → ProxyResponse
  | .error e => writeProxyError 502 e
  | .ok () => ⟨204, .empty⟩

/-- A request to the relay: the route, the `path` parameter and the body. -/
structure ProxyRequest where
  route : Route
  path : String
  body : List UInt8

def Route.readsBody : Route → Bool
  | createThread | addReply _ | updateThreadStatus _ | updateComment _ _ | addReaction _
  | removeReaction _ | decideSuggestion _ => true
  | capabilities | searchMentions _ _ | pollChanges _ | listThreads | getThread _ | deleteThread _
  | deleteComment _ _ => false

/-- What a handler does before it calls the client: the request for the provider, or the reason
for a 400. -/
def forward (codec : Codec) (req : ProxyRequest) : Except String ProviderRequest :=
  if req.route ≠ .capabilities ∧ req.path = "" then .error "missing 'path' query parameter"
  else if req.route.readsBody then
    match codec.request req.route req.body with
    | none => .error "invalid request body"
    | some body => .ok (providerRequest codec req.path (some body) req.route)
  else .ok (providerRequest codec req.path none req.route)

def handle (codec : Codec) (answer : ProviderAnswer) : Route → ProxyResponse
  | .capabilities => proxyValue 200 (capabilities codec answer)
  | .searchMentions query limit => proxyValue 200 (searchMentions codec answer query limit)
  | .pollChanges since => proxyValue 200 (pollCommentChanges codec answer since)
  | .listThreads => proxyValue 200 (listCommentThreads codec answer)
  | .createThread => proxyValue 201 (createCommentThread codec answer)
  | .getThread t =>
    match getCommentThread codec answer t with
    | .error e => writeProxyError 502 e
    | .ok none => writeProxyError 404 "thread not found"
    | .ok (some thread) => ⟨200, .json thread⟩
  | .addReply t => proxyValue 201 (addReply codec answer t)
  | .updateThreadStatus t => proxyValue 200 (updateThreadStatus codec answer t)
  | .deleteThread _ => proxyDone (deleteCommentThread answer)
  | .updateComment t c => proxyValue 200 (updateComment codec answer t c)
  | .deleteComment _ _ => proxyDone (deleteComment answer)
  | .addReaction _ => proxyDone (addReaction answer)
  | .removeReaction _ => proxyDone (removeReaction answer)
  | .decideSuggestion t => proxyValue 200 (decideSuggestion codec answer t)

/-- The routes of `registerCommentsProxy`; without a client there is no provider. -/
def serve (codec : Codec) (provider : Option (ProviderRequest → ProviderAnswer))
    (req : ProxyRequest) : ProxyResponse :=
  match provider with
  | none => writeProxyError 503 "comments not configured"
  | some provider =>
    match forward codec req with
    | .error message => writeProxyError 400 message
    | .ok request => handle codec (provider request) req.route

def Ok (status : Nat) : Prop := 200 ≤ status ∧ status ≤ 299
  deriving Decidable

/-- When the persist loop takes a thread for created. -/
def createDone (response : ProxyResponse) : Prop := Ok response.status ∨ response.status = 409

/-! ## When the relay reports success -/

def Accepts (codec : Codec) (status : Nat) (body : List UInt8) : Route → Prop
  | .createThread => status = 201 ∧ (codec.response .createThread body).isOk
  | .addReply t => status = 201 ∧ (codec.response (.addReply t) body).isOk
  | .deleteThread _ => status = 204
  | .getThread t => status ≠ 404 ∧ (codec.response (.getThread t) body).isOk
  | .deleteComment _ _ | .addReaction _ | .removeReaction _ => True
  | route => (codec.response route body).isOk

lemma proxyValue_ok_iff {success : Nat} (hok : Ok success) (result : Except String (List UInt8)) :
    Ok (proxyValue success result).status ↔ result.isOk := by
  cases result with
  | error e => simp [proxyValue, writeProxyError, Ok, Except.isOk, Except.toBool]
  | ok value => simpa [proxyValue, Except.isOk, Except.toBool] using hok

lemma proxyDone_ok_iff (result : Except String Unit) :
    Ok (proxyDone result).status ↔ result.isOk := by
  cases result <;> simp [proxyDone, writeProxyError, Ok, Except.isOk, Except.toBool]

lemma created_isOk_iff (op : String) (status : Nat) : (created op status).isOk ↔ status = 201 := by
  unfold created
  split <;> simp_all [Except.isOk, Except.toBool]

lemma noContent_isOk_iff (status : Nat) : (noContent status).isOk ↔ status = 204 := by
  unfold noContent
  split <;> simp_all [Except.isOk, Except.toBool]

section

variable (what : String) (decode : List UInt8 → Except String (List UInt8)) (status : Nat)
  (body : List UInt8)

lemma fetch_response_isOk (check : StatusCheck) :
    (fetch check what decode (.response status body)).isOk ↔
      (check status).isOk ∧ (decode body).isOk := by
  cases hc : check status with
  | error e => simp [fetch, hc, Except.isOk, Except.toBool]
  | ok u =>
    cases hd : decode body <;> simp [fetch, hc, hd, Except.mapError, Except.isOk, Except.toBool]

lemma fetch_anyStatus_ok_iff :
    Ok (proxyValue 200 (fetch anyStatus what decode (.response status body))).status ↔
      (decode body).isOk := by
  rw [proxyValue_ok_iff (by decide), fetch_response_isOk]
  exact and_iff_right rfl

lemma fetch_created_ok_iff (op : String) :
    Ok (proxyValue 201 (fetch (created op) what decode (.response status body))).status ↔
      status = 201 ∧ (decode body).isOk := by
  rw [proxyValue_ok_iff (by decide), fetch_response_isOk, created_isOk_iff]

end

lemma getThread_ok_iff (codec : Codec) (status : Nat) (body : List UInt8) (t : String) :
    Ok (handle codec (.response status body) (.getThread t)).status ↔
      status ≠ 404 ∧ (codec.response (.getThread t) body).isOk := by
  by_cases hs : status = 404
  · subst hs
    simp [handle, getCommentThread, writeProxyError, Ok]
  · have hget : getCommentThread codec (.response status body) t =
        (fetch anyStatus "thread" (codec.response (.getThread t))
          (.response status body)).map some := by
      unfold getCommentThread
      split
      · simp_all
      · rfl
    have hok := fetch_anyStatus_ok_iff "thread" (codec.response (.getThread t)) status body
    simp only [handle, hget, ne_eq, hs, not_false_eq_true, true_and, ← hok]
    cases fetch anyStatus "thread" (codec.response (.getThread t)) (.response status body) <;> rfl

lemma handle_response_ok_iff (codec : Codec) (status : Nat) (body : List UInt8) (route : Route) :
    Ok (handle codec (.response status body) route).status ↔ Accepts codec status body route := by
  cases route with
  | capabilities | searchMentions | pollChanges | listThreads | updateThreadStatus | updateComment
  | decideSuggestion => exact fetch_anyStatus_ok_iff _ _ status body
  | createThread | addReply => exact fetch_created_ok_iff _ _ status body _
  | getThread t => exact getThread_ok_iff codec status body t
  | deleteThread t => exact (proxyDone_ok_iff _).trans (noContent_isOk_iff status)
  | deleteComment | addReaction | removeReaction =>
    exact iff_of_true (show Ok 204 by decide) trivial

lemma handle_failed (codec : Codec) (message : String) (route : Route) :
    handle codec (.failed message) route = writeProxyError 502 message := by
  cases route <;> rfl

def Answered (codec : Codec) (provider : Option (ProviderRequest → ProviderAnswer))
    (req : ProxyRequest) (status : Nat) (body : List UInt8) : Prop :=
  ∃ client request, provider = some client ∧ forward codec req = .ok request ∧
    client request = .response status body

section

variable {codec : Codec} {provider : Option (ProviderRequest → ProviderAnswer)} {req : ProxyRequest}

lemma Answered.serve {status : Nat} {body : List UInt8}
    (h : Answered codec provider req status body) :
    serve codec provider req = handle codec (.response status body) req.route := by
  obtain ⟨client, request, rfl, hf, ha⟩ := h
  simp only [CommentsProxy.serve, hf, ha]

lemma Answered.unique {status status' : Nat} {body body' : List UInt8}
    (h : Answered codec provider req status body) (h' : Answered codec provider req status' body') :
    status = status' ∧ body = body' := by
  obtain ⟨client, request, rfl, hf, ha⟩ := h
  obtain ⟨client', request', hc, hf', ha'⟩ := h'
  cases hc
  cases hf.symm.trans hf'
  cases ha.symm.trans ha'
  exact ⟨rfl, rfl⟩

variable (codec provider req)

lemma answered_or_error : (∃ status body, Answered codec provider req status body) ∨
    (serve codec provider req).status ∈ [400, 502, 503] := by
  unfold serve
  cases provider with
  | none => exact .inr (by simp [writeProxyError])
  | some client =>
    cases hf : forward codec req with
    | error message => exact .inr (by simp [writeProxyError])
    | ok request =>
      cases ha : client request with
      | failed message => exact .inr (by simp [ha, handle_failed, writeProxyError])
      | response status body => exact .inl ⟨status, body, client, request, rfl, hf, ha⟩

lemma serve_ok_iff : Ok (serve codec provider req).status ↔
    ∃ status body, Answered codec provider req status body ∧
      Accepts codec status body req.route := by
  constructor
  · intro hok
    rcases answered_or_error codec provider req with ⟨status, body, h⟩ | herror
    · rw [h.serve, handle_response_ok_iff] at hok
      exact ⟨status, body, h, hok⟩
    · generalize (serve codec provider req).status = status at hok herror
      simp only [List.mem_cons, List.not_mem_nil, or_false] at herror
      rcases herror with rfl | rfl | rfl <;> exact absurd hok (by decide)
  · rintro ⟨status, body, h, haccepts⟩
    rwa [h.serve, handle_response_ok_iff]

lemma serve_createThread_ne_conflict (hroute : req.route = .createThread) :
    (serve codec provider req).status ≠ 409 := by
  intro hconflict
  rcases answered_or_error codec provider req with ⟨status, body, h⟩ | herror
  · rw [h.serve, hroute, handle] at hconflict
    generalize createCommentThread codec (.response status body) = result at hconflict
    cases result <;> exact absurd hconflict (by simp [proxyValue, writeProxyError])
  · rw [hconflict] at herror
    exact absurd herror (by decide)

/-! ## The truth of the answers -/

def SuccessTrue : Prop :=
  Ok (serve codec provider req).status →
    ∃ status body, Answered codec provider req status body ∧ Ok status

/-- The persist loop takes a creation for done only if the provider created the thread or
reported that it has it already. -/
def CreationTrue : Prop :=
  req.route = .createThread → createDone (serve codec provider req) →
    ∃ status body, Answered codec provider req status body ∧ (status = 201 ∨ status = 409)

def ConflictTold : Prop :=
  req.route = .createThread → ∀ body, Answered codec provider req 409 body →
    (serve codec provider req).status = 409

structure TellsTruth : Prop where
  success : SuccessTrue codec provider req
  creation : CreationTrue codec provider req
  conflict : ConflictTold codec provider req

/-- The responses that the relay misreports: a refusal that the client accepts, and the conflict
on a creation, which becomes a 502. -/
def Misreported (status : Nat) (body : List UInt8) : Prop :=
  ¬Ok status ∧ Accepts codec status body req.route ∨ req.route = .createThread ∧ status = 409

lemma creationTrue : CreationTrue codec provider req := by
  rintro hroute (hok | hconflict)
  · obtain ⟨status, body, h, haccepts⟩ := (serve_ok_iff codec provider req).1 hok
    rw [hroute] at haccepts
    exact ⟨status, body, h, .inl haccepts.1⟩
  · exact absurd hconflict (serve_createThread_ne_conflict codec provider req hroute)

variable {codec provider req}

lemma successTrue_iff : SuccessTrue codec provider req ↔ ∀ status body,
    Answered codec provider req status body → Accepts codec status body req.route → Ok status := by
  constructor
  · intro htrue status body h haccepts
    obtain ⟨status', body', h', hok⟩ := htrue ((serve_ok_iff _ _ _).2 ⟨status, body, h, haccepts⟩)
    rwa [(h.unique h').1]
  · intro hall hok
    obtain ⟨status, body, h, haccepts⟩ := (serve_ok_iff _ _ _).1 hok
    exact ⟨status, body, h, hall status body h haccepts⟩

lemma conflictTold_iff : ConflictTold codec provider req ↔
    (req.route = .createThread → ∀ body, ¬Answered codec provider req 409 body) := by
  refine forall_congr' fun hroute => forall_congr' fun body => ?_
  exact imp_congr_right fun _ => iff_false_intro (serve_createThread_ne_conflict _ _ _ hroute)

end

/-- The relay tells the truth about a request exactly when the provider's response is not one of
those it misreports; of a creation the persist loop never believes more than is true. -/
theorem relay_truthful_iff_not_misreported (codec : Codec)
    (provider : Option (ProviderRequest → ProviderAnswer)) (req : ProxyRequest) :
    CreationTrue codec provider req ∧ (TellsTruth codec provider req ↔ ∀ status body,
        Answered codec provider req status body → ¬Misreported codec req status body) := by
  refine ⟨creationTrue codec provider req, ?_, ?_⟩
  · rintro ⟨hsuccess, -, hconflict⟩ status body h (⟨hrefused, haccepts⟩ | ⟨hroute, rfl⟩)
    · exact hrefused (successTrue_iff.1 hsuccess status body h haccepts)
    · exact conflictTold_iff.1 hconflict hroute body h
  · intro hall
    refine ⟨successTrue_iff.2 ?_, creationTrue codec provider req, conflictTold_iff.2 ?_⟩
    · intro status body h haccepts
      by_contra hrefused
      exact hall status body h (.inl ⟨hrefused, haccepts⟩)
    · intro hroute body h
      exact hall 409 body h (.inr ⟨hroute, rfl⟩)

def plainCodec : Codec where
  queryEscape := id
  pathEscape := id
  request := fun _ body => some body
  response := fun _ body => .ok body

/-- The provider refuses to change a thread that it does not have, and the relay answers 200 with
the refusal for a thread; it refuses to create a thread twice, and the relay answers 502. -/
theorem refusals_misreported : (∃ req provider, ¬SuccessTrue plainCodec provider req) ∧
      ∃ req provider, ¬ConflictTold plainCodec provider req := by
  -- all bodies are the empty object
  let body : List UInt8 := [0x7b, 0x7d]
  refine ⟨⟨⟨.updateThreadStatus "t", "d", body⟩, some fun _ => .response 404 body, ?_⟩,
    ⟨.createThread, "d", body⟩, some fun _ => .response 409 body, ?_⟩
  · rw [successTrue_iff]
    intro hall
    exact absurd (hall 404 body ⟨_, _, rfl, rfl, rfl⟩ rfl) (by decide)
  · rw [conflictTold_iff]
    intro hall
    exact hall rfl body ⟨_, _, rfl, rfl, rfl⟩

end CollabEditor.Relay.CommentsProxy
