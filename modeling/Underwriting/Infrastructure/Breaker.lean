import Underwriting.Infrastructure.Resilience

/-!
# The locked sections of a breaker

A call of the breaker consists of two sections under the lock, its admission and its
completion, with the function running in between. Each section is a function of the breaker
and of the time at which it reads the clock; the reading of the state is the first half of an
admission. A call of the process is the admission alone when it is refused,
`CircuitBreaker.call_refused`, and else these two sections around one run of the function,
`CircuitBreaker.call_admitted`.
-/

namespace Underwriting

open Python Python.Py

namespace CircuitBreaker

/-- `_maybe_transition_to_half_open` at time `now`. -/
def refresh (b : CircuitBreaker) (now : ℚ) : CircuitBreaker :=
  if b.state = .opened ∧ b.cooledDown now then { b with state := .halfOpen } else b

/-- The locked section after `fn` raised, at time `now`. -/
def fail (b : CircuitBreaker) (now : ℚ) : CircuitBreaker :=
  if b.failureThreshold ≤ b.countFailure.consecutiveFailures then b.countFailure.open now
  else b.countFailure

/-- The locked section after `fn` has ended. -/
def complete {ε α : Type} (b : CircuitBreaker) (outcome : Except ε α) (now : ℚ) :
    CircuitBreaker :=
  match outcome with
  | .ok _ => b.close
  | .error _ => b.fail now

/-- What a caller of an open breaker gets. -/
def refusal (b : CircuitBreaker) : Exn :=
  .circuitBreakerOpenError s!"Circuit breaker '{b.name}' is open; failing fast."

/-- The `state` property. -/
def readState (env : Env) (d : Dependency) : PyM CircuitState := do
  maybeTransitionToHalfOpen env d
  let b ← getBreaker d
  pure b.state

section Sections

variable (b : CircuitBreaker) (now : ℚ)

@[simp] theorem refresh_name : (b.refresh now).name = b.name := by
  rw [refresh]
  split_ifs <;> rfl

@[simp] theorem refresh_failureThreshold :
    (b.refresh now).failureThreshold = b.failureThreshold := by
  rw [refresh]
  split_ifs <;> rfl

@[simp] theorem refresh_recoveryTimeoutSeconds :
    (b.refresh now).recoveryTimeoutSeconds = b.recoveryTimeoutSeconds := by
  rw [refresh]
  split_ifs <;> rfl

@[simp] theorem refresh_consecutiveFailures :
    (b.refresh now).consecutiveFailures = b.consecutiveFailures := by
  rw [refresh]
  split_ifs <;> rfl

@[simp] theorem refresh_openedAt : (b.refresh now).openedAt = b.openedAt := by
  rw [refresh]
  split_ifs <;> rfl

theorem refresh_state_eq_closed_iff : (b.refresh now).state = .closed ↔ b.state = .closed := by
  rw [refresh]
  split_ifs with h
  · simp [h.1]
  · rfl

theorem refresh_state_eq_opened_iff :
    (b.refresh now).state = .opened ↔ b.state = .opened ∧ ¬ b.cooledDown now := by
  rw [refresh]
  split_ifs with h
  · simp [h.2]
  · exact ⟨fun hopened => ⟨hopened, fun hcooled => h ⟨hopened, hcooled⟩⟩, fun hopened => hopened.1⟩

theorem refresh_state_eq_halfOpen_iff :
    (b.refresh now).state = .halfOpen ↔
      b.state = .halfOpen ∨ b.state = .opened ∧ b.cooledDown now := by
  rw [refresh]
  split_ifs with h
  · simp [h]
  · exact (or_iff_left h).symm

theorem refusal_refresh : (b.refresh now).refusal = b.refusal := by
  rw [refusal, refresh_name, refusal]

theorem refusal_complete {ε α : Type} (outcome : Except ε α) :
    (b.complete outcome now).refusal = b.refusal := by
  cases outcome with
  | ok a => rfl
  | error e =>
      rw [complete, fail]
      split_ifs <;> rfl

end Sections

/-! ## The sections in the process -/

/-- The process after the admission of a call or a reading of the state. -/
def admission (env : Env) (d : Dependency) (r : Runtime) : Runtime :=
  (maybeTransitionToHalfOpen env d r).2

section Process

variable (env : Env) (d : Dependency) (r : Runtime)

theorem maybeTransitionToHalfOpen_eq :
    maybeTransitionToHalfOpen env d r = (.ok (), admission env d r) ∧
      r.ticks ≤ (admission env d r).ticks ∧
      (admission env d r).breakers =
        Function.update r.breakers d ((r.breakers d).refresh (env.clock r.ticks)) := by
  by_cases hopened : (r.breakers d).state = .opened
  · by_cases hcooled : (r.breakers d).cooledDown (env.clock r.ticks)
    · simp [admission, maybeTransitionToHalfOpen, getBreaker, monotonic, setBreaker, resilienceLog,
        emit, bind_apply, refresh, hopened, hcooled]
    · simp [admission, maybeTransitionToHalfOpen, getBreaker, monotonic, bind_apply, refresh,
        hopened, hcooled]
  · simp [admission, maybeTransitionToHalfOpen, getBreaker, bind_apply, refresh, hopened]

theorem admission_ticks : r.ticks ≤ (admission env d r).ticks :=
  (maybeTransitionToHalfOpen_eq env d r).2.1

theorem admission_breakers : (admission env d r).breakers =
    Function.update r.breakers d ((r.breakers d).refresh (env.clock r.ticks)) :=
  (maybeTransitionToHalfOpen_eq env d r).2.2

@[simp] theorem admission_breaker :
    (admission env d r).breakers d = (r.breakers d).refresh (env.clock r.ticks) := by
  rw [admission_breakers, Function.update_self]

theorem recordFailure_fail :
    ∃ r', recordFailure env d r = (.ok (), r') ∧ r.ticks ≤ r'.ticks ∧
      r'.breakers = Function.update r.breakers d ((r.breakers d).fail (env.clock r.ticks)) := by
  by_cases hreached :
      (r.breakers d).failureThreshold ≤ (r.breakers d).countFailure.consecutiveFailures
  · simp [recordFailure, getBreaker, monotonic, setBreaker, resilienceLog, emit, bind_apply, fail,
      hreached]
  · simp [recordFailure, getBreaker, setBreaker, bind_apply, fail, hreached]

theorem recordSuccess_close :
    ∃ r', recordSuccess d r = (.ok (), r') ∧ r.ticks ≤ r'.ticks ∧
      r'.breakers = Function.update r.breakers d (r.breakers d).close := by
  by_cases hclosed : (r.breakers d).state = .closed
  · simp [recordSuccess, getBreaker, setBreaker, bind_apply, hclosed]
  · simp [recordSuccess, getBreaker, setBreaker, resilienceLog, emit, bind_apply, hclosed]

/-- A call of an open breaker raises and leaves everything else alone. -/
theorem call_refused {α : Type} (fn : PyM α)
    (hopened : ((admission env d r).breakers d).state = .opened) :
    CircuitBreaker.call env d fn r = (.error (r.breakers d).refusal, admission env d r) := by
  have hget : getBreaker d (admission env d r) =
    (.ok ((admission env d r).breakers d), admission env d r) := rfl
  rw [CircuitBreaker.call, bind_of_ok (maybeTransitionToHalfOpen_eq env d r).1, bind_of_ok hget,
    if_pos hopened, raise_apply, admission_breaker]
  exact congrArg (fun e => (Except.error e, admission env d r)) (refusal_refresh _ _)

/-- Any other call runs its function once, between the two sections. -/
theorem call_admitted {α : Type} (fn : PyM α)
    (hadmitted : ((admission env d r).breakers d).state ≠ .opened) :
    ∃ r', CircuitBreaker.call env d fn r = ((fn (admission env d r)).1, r') ∧
      (fn (admission env d r)).2.ticks ≤ r'.ticks ∧
      r'.breakers = Function.update (fn (admission env d r)).2.breakers d
        (((fn (admission env d r)).2.breakers d).complete (fn (admission env d r)).1
          (env.clock (fn (admission env d r)).2.ticks)) := by
  have hget : getBreaker d (admission env d r) =
    (.ok ((admission env d r).breakers d), admission env d r) := rfl
  rw [CircuitBreaker.call, bind_of_ok (maybeTransitionToHalfOpen_eq env d r).1, bind_of_ok hget,
    if_neg hadmitted]
  rcases hfn : fn (admission env d r) with ⟨e | a, r₁⟩
  · obtain ⟨r₂, hfailure, hticks, hfail⟩ := recordFailure_fail env d r₁
    refine ⟨r₂, ?_, hticks, hfail⟩
    simp only [tryElse, hfn]
    rw [bind_of_ok hfailure, raise_apply]
  · obtain ⟨r₂, hsuccess, hticks, hclose⟩ := recordSuccess_close d r₁
    refine ⟨r₂, ?_, hticks, hclose⟩
    simp only [tryElse, hfn]
    rw [bind_of_ok hsuccess, pure_apply]

/-- Reading the state is an admission that admits nothing. -/
theorem readState_eq :
    readState env d r =
      (.ok ((admission env d r).breakers d).state, admission env d r) := by
  have hget : getBreaker d (admission env d r) =
    (.ok ((admission env d r).breakers d), admission env d r) := rfl
  rw [readState, bind_of_ok (maybeTransitionToHalfOpen_eq env d r).1, bind_of_ok hget, pure_apply]

end Process

end CircuitBreaker

end Underwriting
