import Mathlib.Logic.Basic
/-!
# The provider circuit breaker

`internal/relay/circuit_breaker.go`. One breaker is shared by the flush loops
of all rooms and by the health checker.
-/

namespace CollabEditor.Relay

inductive BreakerState
  | closed
  | open
  | halfOpen
  deriving DecidableEq

structure CircuitBreaker where
  state : BreakerState
  failureCount : Int64
  threshold : Int64

namespace CircuitBreaker

def new (threshold : Int64) : CircuitBreaker := ⟨.closed, 0, threshold⟩

def allow (cb : CircuitBreaker) : Bool :=
  match cb.state with
  | .closed => true
  | .halfOpen => true
  | .open => false

def recordSuccess (cb : CircuitBreaker) : CircuitBreaker :=
  { cb with state := .closed, failureCount := 0 }

def recordFailure (cb : CircuitBreaker) : CircuitBreaker :=
  { cb with
    failureCount := cb.failureCount + 1
    state :=
      if cb.threshold ≤ cb.failureCount + 1 ∧ cb.state = .closed then .open else cb.state }

def markHalfOpen (cb : CircuitBreaker) : CircuitBreaker :=
  { cb with state := if cb.state = .open then .halfOpen else cb.state }

def checkHealth (cb : CircuitBreaker) (healthy : Bool) : CircuitBreaker :=
  if healthy then
    if cb.markHalfOpen.state = .halfOpen then cb.markHalfOpen.recordSuccess else cb.markHalfOpen
  else cb.recordFailure

end CircuitBreaker

end CollabEditor.Relay
