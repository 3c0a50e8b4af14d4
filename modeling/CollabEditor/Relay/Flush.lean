import CollabEditor.Relay.Buffer
import CollabEditor.Relay.CircuitBreaker
/-!
# The flusher

`internal/relay/flush.go` and `Room.flushBuffer` of `room.go`, in atomic actions.  `Phase` is the
point the round has reached together with the locals that are live there.
-/

namespace CollabEditor.Relay

structure FailedUpdate where
  sequence : UInt64
  error : String

/-- `spi.StoreResponse`. `versionCreated` is the entry of a version the provider
created, as the JSON it is announced with. -/
structure StoreResponse where
  stored : Nat
  duplicatesIgnored : Nat
  failed : List FailedUpdate
  versionCreated : Option (List UInt8)

def StoreResponse.failedSeqs (resp : StoreResponse) : List UInt64 :=
  resp.failed.map (·.sequence)

def retryPayloads (resp : StoreResponse) (payloads : List UpdatePayload) :
    List UpdatePayload :=
  payloads.filter fun p => p.sequence ∈ resp.failedSeqs

def requeue (resp : StoreResponse) (updates : List BufferedUpdate) : List BufferedUpdate :=
  updates.filter fun u => u.sequence ∈ resp.failedSeqs

/-- What `f.lock.Acquire` answers; `unset` is a flusher without a lock. -/
inductive LockAnswer
  | unset
  | failed
  | refused
  | acquired
  deriving DecidableEq

/-- Where a flush round is. `resp = none` is the nil response. -/
inductive Phase
  | idle
  | acquire
  | drain
  | checkBreaker (updates : List BufferedUpdate)
  | store (updates : List BufferedUpdate) (payloads : List UpdatePayload) (attempt : Nat)
  | backoff (updates : List BufferedUpdate) (payloads : List UpdatePayload) (attempt : Nat)
      (resp : Option StoreResponse)
  | stored (updates : List BufferedUpdate) (resp : Option StoreResponse)
  | result (requeue : List BufferedUpdate) (versionCreated : Option (List UInt8))

def Phase.batch : Phase → List BufferedUpdate
  | idle | acquire | drain => []
  | checkBreaker updates => updates
  | store updates _ _ => updates
  | backoff updates _ _ _ => updates
  | stored updates _ => updates
  | result requeue _ => requeue

def loopHead (maxRetries : Nat) (updates : List BufferedUpdate)
    (payloads : List UpdatePayload) (attempt : Nat) : Phase :=
  if attempt < maxRetries then .store updates payloads attempt else .stored updates none

/-- The phase after one `Store` call; `none` is a returned error. -/
def afterStore (maxRetries : Nat) (updates : List BufferedUpdate)
    (payloads : List UpdatePayload) (attempt : Nat) : Option StoreResponse → Phase
  | none =>
    if attempt + 1 < maxRetries then .backoff updates payloads attempt none
    else loopHead maxRetries updates payloads (attempt + 1)
  | some resp =>
    if resp.failed = [] then .stored updates (some resp)
    else if attempt + 1 < maxRetries then
      .backoff updates (retryPayloads resp payloads) attempt (some resp)
    else .stored updates (some resp)

def flushResult (updates : List BufferedUpdate) : Option StoreResponse → Phase
  | none => .result [] none
  | some resp =>
    if resp.failed = [] then .result [] resp.versionCreated
    else .result (requeue resp updates) resp.versionCreated

def recordResult (cb : CircuitBreaker) : Option StoreResponse → CircuitBreaker
  | none => cb.recordSuccess
  | some resp => if resp.failed = [] then cb.recordSuccess else cb

/-- A room's buffer, the shared breaker, and the round in progress. `appended`
and `requests` record every update ever appended and every `Store` call with its
response. -/
structure FlushState where
  buffer : UpdateBuffer
  breaker : CircuitBreaker
  phase : Phase
  appended : List BufferedUpdate
  requests : List (List UpdatePayload × Option StoreResponse)

def FlushState.initial (threshold : Int64) : FlushState :=
  ⟨.new, .new threshold, .idle, [], []⟩

/-- The atomic actions. Those of the round carry what the environment answers;
`health`, `otherSuccess` and `otherFailure` are the health checker and the flush
loops of other rooms. -/
inductive FlushAction
  | append (data : List UInt8) (clientID : UInt64) (now : Nat)
  | flushBuffer
  | lock (answer : LockAnswer)
  | drain
  | allow
  | store (resp : Option StoreResponse)
  | wake (cancelled : Bool)
  | settle
  | prepend
  | health (healthy : Bool)
  | otherSuccess
  | otherFailure

def roundStep (maxRetries : Nat) (s : FlushState) : Phase → FlushAction → Option FlushState
  | .idle, .flushBuffer =>
    some { s with phase := if s.buffer.len = 0 then .idle else .acquire }
  | .acquire, .lock answer =>
    match answer with
    | .unset | .acquired => some { s with phase := .drain }
    | .failed | .refused => some { s with phase := .result [] none }
  | .drain, .drain =>
    some { s with
      buffer := s.buffer.drain.2
      phase := if s.buffer.drain.1 = [] then .result [] none
        else .checkBreaker s.buffer.drain.1 }
  | .checkBreaker updates, .allow =>
    some { s with
      phase := if s.breaker.allow then loopHead maxRetries updates (toPayloads updates) 0
        else .result updates none }
  | .store updates payloads attempt, .store resp =>
    some { s with
      breaker := if resp = none then s.breaker.recordFailure else s.breaker
      requests := s.requests ++ [(payloads, resp)]
      phase := afterStore maxRetries updates payloads attempt resp }
  | .backoff updates payloads attempt resp, .wake cancelled =>
    some { s with
      phase := if cancelled then .stored updates resp
        else loopHead maxRetries updates payloads (attempt + 1) }
  | .stored updates resp, .settle =>
    some { s with breaker := recordResult s.breaker resp, phase := flushResult updates resp }
  | .result requeue _, .prepend =>
    some { s with
      buffer := if requeue = [] then s.buffer else s.buffer.prepend requeue
      phase := .idle }
  | _, _ => none

/-- One step of the room: an append and the breaker's other users move at any
time, the flush round as its phase allows. -/
def flushStep (maxRetries : Nat) (s : FlushState) : FlushAction → Option FlushState
  | .append data clientID now =>
    some { s with
      buffer := s.buffer.append data clientID now
      appended := s.appended ++ [s.buffer.next data clientID now] }
  | .health healthy => some { s with breaker := s.breaker.checkHealth healthy }
  | .otherSuccess => some { s with breaker := s.breaker.recordSuccess }
  | .otherFailure => some { s with breaker := s.breaker.recordFailure }
  | action => roundStep maxRetries s s.phase action

end CollabEditor.Relay
