import Underwriting.Infrastructure.Runtime

/-!
# Retry and circuit breaker

`withRetry` is the tenacity decorator: at most a given number of attempts, the last
error re-raised; the waits between attempts are only visible as time passing on the
clock. The breaker is split the way its lock splits it: what the admission of a call
does, and what its completion does. `CircuitBreaker.call` puts the two around the call
and reads the clock where the source reads it.
-/

namespace Underwriting

open Python

/-- A breaker as it is constructed. -/
def CircuitBreaker.new (name : String) (failureThreshold : ℕ) (recoveryTimeoutSeconds : ℚ) :
    CircuitBreaker :=
  ⟨name, failureThreshold, recoveryTimeoutSeconds, .closed, 0, 0⟩

/-- Whether the cooldown of an opened breaker has elapsed at time `now`. -/
def CircuitBreaker.cooledDown (b : CircuitBreaker) (now : ℚ) : Prop :=
  b.recoveryTimeoutSeconds ≤ now - b.openedAt

instance (b : CircuitBreaker) (now : ℚ) : Decidable (b.cooledDown now) :=
  inferInstanceAs (Decidable (_ ≤ _))

/-- A completion that failed: one more failure, without the opening it may cause. -/
def CircuitBreaker.countFailure (b : CircuitBreaker) : CircuitBreaker :=
  { b with consecutiveFailures := b.consecutiveFailures + 1 }

def CircuitBreaker.open (b : CircuitBreaker) (now : ℚ) : CircuitBreaker :=
  { b with state := .opened, openedAt := now }

def CircuitBreaker.close (b : CircuitBreaker) : CircuitBreaker :=
  { b with state := .closed, consecutiveFailures := 0 }

def resilienceLog (level message : String) (extra : List (String × Json)) : PyM Unit :=
  emit ⟨"underwriting.infrastructure.resilience", level, message, extra⟩

def maybeTransitionToHalfOpen (env : Env) (d : Dependency) : PyM Unit := do
  let b ← getBreaker d
  if b.state = .opened then do
    let now ← monotonic env
    if b.cooledDown now then do
      resilienceLog "INFO" "circuit_breaker_half_open" [("breaker", .str b.name)]
      setBreaker d { b with state := .halfOpen }
    else pure ()
  else pure ()

/-- The locked section after `fn` raised. -/
def recordFailure (env : Env) (d : Dependency) : PyM Unit := do
  let b ← getBreaker d
  if b.failureThreshold ≤ b.countFailure.consecutiveFailures then do
    let now ← monotonic env
    setBreaker d (b.countFailure.open now)
    resilienceLog "WARNING" "circuit_breaker_opened"
      [("breaker", .str b.name), ("consecutive_failures", .int b.countFailure.consecutiveFailures)]
  else setBreaker d b.countFailure

/-- The locked section after `fn` returned. -/
def recordSuccess (d : Dependency) : PyM Unit := do
  let b ← getBreaker d
  if b.state ≠ .closed then
    resilienceLog "INFO" "circuit_breaker_closed" [("breaker", .str b.name)]
  else pure ()
  setBreaker d b.close

def CircuitBreaker.call {α : Type} (env : Env) (d : Dependency) (fn : PyM α) : PyM α := do
  maybeTransitionToHalfOpen env d
  let b ← getBreaker d
  if b.state = .opened then
    Py.raise (.circuitBreakerOpenError s!"Circuit breaker '{b.name}' is open; failing fast.")
  else
    Py.tryElse fn
      (fun e => do recordFailure env d; Py.raise e)
      (fun a => do recordSuccess d; pure a)

/-- The attempts after the first one: `n` more are allowed. -/
def retryAgain {α : Type} (fn : PyM α) : ℕ → PyM α
  | 0 => fn
  | n + 1 => Py.tryElse fn (fun _ => retryAgain fn n) pure

def withRetry {α : Type} (maxAttempts : ℕ) (fn : PyM α) : PyM α :=
  retryAgain fn (maxAttempts - 1)

end Underwriting
