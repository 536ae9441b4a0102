import Mathlib.Data.Int.Notation

/-!
# The circuit breaker

The breaker is closed until a number of attempts in a row have failed.  Then it is open and refuses
attempts until some time has passed; the attempt that it grants next makes it half open, and the
outcome of an attempt closes or opens it again.
-/

namespace Agamemnon

namespace Nats

/-- `CircuitBreaker::State`. -/
inductive BreakerState where
  | closed
  | opened
  | halfOpen
  deriving DecidableEq

/-- `CircuitBreaker::Config`; the interval is in milliseconds. -/
structure BreakerConfig where
  failureThreshold : ℤ := 5
  probeInterval : ℤ := 30000

structure CircuitBreaker where
  state : BreakerState := .closed
  failureCount : ℤ := 0
  openSinceMs : ℤ := 0
  deriving DecidableEq

namespace CircuitBreaker

def transitionToOpen (b : CircuitBreaker) (now : ℤ) : CircuitBreaker :=
  { b with openSinceMs := now, state := .opened }

/-- Whether an attempt is granted at the time `now`, and the breaker afterwards. -/
def allowAttempt (cfg : BreakerConfig) (b : CircuitBreaker) (now : ℤ) : Bool × CircuitBreaker :=
  match b.state with
  | .closed => (true, b)
  | .opened =>
      if cfg.probeInterval ≤ now - b.openSinceMs then (true, { b with state := .halfOpen })
      else (false, b)
  | .halfOpen => (true, b)

def recordSuccess (b : CircuitBreaker) : CircuitBreaker :=
  { b with failureCount := 0, state := .closed }

/-- Whether a failure opens a breaker in the given state. -/
def opens (cfg : BreakerConfig) (state : BreakerState) (count : ℤ) : Bool :=
  state = .halfOpen || (state = .closed && cfg.failureThreshold ≤ count)

def recordFailure (cfg : BreakerConfig) (b : CircuitBreaker) (now : ℤ) : CircuitBreaker :=
  let b := { b with failureCount := b.failureCount + 1 }
  if opens cfg b.state b.failureCount then b.transitionToOpen now else b

end CircuitBreaker

end Nats

end Agamemnon
