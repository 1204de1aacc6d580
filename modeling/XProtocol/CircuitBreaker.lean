import XProtocol.Error

/-! The circuit breaker.

Times are readings of a clock. Asking for the state is not innocent: an open breaker
whose last failure is more than the timeout ago becomes half open by being asked. -/
namespace XProtocol

inductive CircuitState where
  | closed
  | opened
  | halfOpen
  deriving DecidableEq, Repr

structure CircuitBreaker where
  failures : Nat
  successes : Nat
  state : CircuitState
  threshold : Nat
  timeout : Nat
  lastFailure : Option Nat

namespace CircuitBreaker

def new (threshold : Nat) : CircuitBreaker :=
  { failures := 0, successes := 0, state := .closed, threshold, timeout := 30000, lastFailure := none }

def withTimeout (b : CircuitBreaker) (timeout : Nat) : CircuitBreaker := { b with timeout }

def recordSuccess (b : CircuitBreaker) : CircuitBreaker :=
  { b with
    successes := b.successes + 1
    failures := 0
    state := if b.state = .halfOpen then .closed else b.state }

def recordFailure (b : CircuitBreaker) (now : Nat) : CircuitBreaker :=
  { b with
    failures := b.failures + 1
    lastFailure := some now
    state := if b.failures + 1 ≥ b.threshold then .opened else b.state }

/-- `state()`, and the breaker after it. -/
def observe (b : CircuitBreaker) (now : Nat) : CircuitState × CircuitBreaker :=
  match b.state, b.lastFailure with
  | .opened, some last =>
    if now - last > b.timeout then (.halfOpen, { b with state := .halfOpen }) else (.opened, b)
  | state, _ => (state, b)

def isAvailable (b : CircuitBreaker) (now : Nat) : Bool × CircuitBreaker :=
  let (state, b) := b.observe now
  (state ≠ .opened, b)

def canExecute (b : CircuitBreaker) (now : Nat) : Result Unit × CircuitBreaker :=
  match b.observe now with
  | (.opened, b) => (.error (.connectionFailed "circuit breaker open"), b)
  | (_, b) => (.ok (), b)

end CircuitBreaker

end XProtocol
