import Underwriting.Infrastructure.Frame

/-!
# What a breaker admits

A call is refused when its breaker is open and has not cooled down. Under the retry that
happens once for each attempt, and each refusal reads the clock once. So whether a body
that always returns is reached depends on the breaker and on the next few readings of the
clock: `Runtime.AdmitsWithin`. A body that always raises opens a fresh breaker.
-/

namespace Underwriting

open Python Python.Py

/-- One of the next `n` attempts to call the dependency is let through. -/
def Runtime.AdmitsWithin (env : Env) (d : Dependency) (n : ℕ) (r : Runtime) : Prop :=
  (r.breakers d).state = .opened →
    ∃ k < n, (r.breakers d).cooledDown (env.clock (r.ticks + k))

theorem Runtime.admitsWithin_of_closed {env : Env} {d : Dependency} {n : ℕ} {r : Runtime}
    (h : (r.breakers d).state = .closed) : r.AdmitsWithin env d n := by
  intro hopened
  rw [h] at hopened
  cases hopened

section Call

variable {α : Type} {env : Env} {d : Dependency} {fn : PyM α} {P : α → Prop}

/-- After the admission the breaker of a call that is let through is not open. -/
theorem maybeTransitionToHalfOpen_of_admits {r : Runtime} (h : r.AdmitsWithin env d 1) :
    ∃ r', maybeTransitionToHalfOpen env d r = (.ok (), r') ∧ (r'.breakers d).state ≠ .opened := by
  by_cases hopened : (r.breakers d).state = .opened
  · obtain ⟨k, hk, hcooled⟩ := h hopened
    obtain rfl : k = 0 := by omega
    rw [Nat.add_zero] at hcooled
    simp [maybeTransitionToHalfOpen, getBreaker, monotonic, setBreaker, resilienceLog, emit,
      bind_apply, hopened, hcooled]
  · simp [maybeTransitionToHalfOpen, getBreaker, bind_apply, hopened]

theorem recordSuccess_apply (d : Dependency) (r : Runtime) :
    ∃ r', recordSuccess d r = (.ok (), r') ∧ (r'.breakers d).state = .closed := by
  by_cases hclosed : (r.breakers d).state = .closed
  · simp [recordSuccess, getBreaker, setBreaker, bind_apply, hclosed, CircuitBreaker.close]
  · simp [recordSuccess, getBreaker, setBreaker, resilienceLog, emit, bind_apply, hclosed,
      CircuitBreaker.close]

/-- A body that always returns is run by a call that is let through. -/
theorem call_of_admits (hfn : ∀ r, ∃ a r', fn r = (.ok a, r') ∧ P a) {r : Runtime}
    (h : r.AdmitsWithin env d 1) :
    ∃ a r', CircuitBreaker.call env d fn r = (.ok a, r') ∧ P a ∧
      (r'.breakers d).state = .closed := by
  obtain ⟨r₁, hadmit, hstate⟩ := maybeTransitionToHalfOpen_of_admits h
  obtain ⟨a, r₂, hfn₂, ha⟩ := hfn r₁
  obtain ⟨r₃, hsuccess, hclosed⟩ := recordSuccess_apply d r₂
  refine ⟨a, r₃, ?_, ha, hclosed⟩
  rw [CircuitBreaker.call, bind_of_ok hadmit]
  have hget : getBreaker d r₁ = (.ok (r₁.breakers d), r₁) := rfl
  rw [bind_of_ok hget, if_neg hstate]
  simp only [tryElse, hfn₂]
  rw [bind_of_ok hsuccess, pure_apply]

/-- A call that is not let through reads the clock and raises. -/
theorem call_of_not_admits (fn : PyM α) {r : Runtime} (h : ¬ r.AdmitsWithin env d 1) :
    ∃ e, CircuitBreaker.call env d fn r = (.error e, { r with ticks := r.ticks + 1 }) := by
  simp only [Runtime.AdmitsWithin, Nat.lt_one_iff, exists_eq_left, Nat.add_zero,
    Classical.not_imp] at h
  obtain ⟨hopened, hcold⟩ := h
  simp [CircuitBreaker.call, maybeTransitionToHalfOpen, getBreaker, monotonic, bind_apply, hopened,
    hcold]

/-- What the attempts after a refused one still have. -/
theorem Runtime.admitsWithin_succ_iff {n : ℕ} {r : Runtime} (h : ¬ r.AdmitsWithin env d 1) :
    r.AdmitsWithin env d (n + 1) ↔
      Runtime.AdmitsWithin env d n { r with ticks := r.ticks + 1 } := by
  simp only [Runtime.AdmitsWithin, Nat.lt_one_iff, exists_eq_left, Nat.add_zero,
    Classical.not_imp] at h
  refine imp_congr_right fun _ => ⟨?_, ?_⟩
  · rintro ⟨k, hk, hcooled⟩
    cases k with
    | zero => exact absurd hcooled h.2
    | succ k => exact ⟨k, by omega, by rwa [Nat.add_right_comm, Nat.add_assoc]⟩
  · rintro ⟨k, hk, hcooled⟩
    exact ⟨k + 1, by omega, by rwa [← Nat.add_assoc, Nat.add_right_comm]⟩

theorem retryAgain_of_admits (hfn : ∀ r, ∃ a r', fn r = (.ok a, r') ∧ P a) (n : ℕ) {r : Runtime}
    (h : r.AdmitsWithin env d (n + 1)) :
    ∃ a r', retryAgain (CircuitBreaker.call env d fn) n r = (.ok a, r') ∧ P a ∧
      (r'.breakers d).state = .closed := by
  induction n generalizing r with
  | zero => exact call_of_admits hfn h
  | succ n ih =>
      by_cases hfirst : r.AdmitsWithin env d 1
      · obtain ⟨a, r', hcall, ha, hclosed⟩ := call_of_admits hfn hfirst
        exact ⟨a, r', by simp only [retryAgain, tryElse, hcall, pure_apply], ha, hclosed⟩
      · obtain ⟨e, hcall⟩ := call_of_not_admits fn hfirst
        obtain ⟨a, r', hretry, ha, hclosed⟩ := ih ((Runtime.admitsWithin_succ_iff hfirst).1 h)
        exact ⟨a, r', by simp only [retryAgain, tryElse, hcall, hretry], ha, hclosed⟩

theorem retryAgain_of_not_admits (n : ℕ) {r : Runtime} (h : ¬ r.AdmitsWithin env d (n + 1)) :
    ∃ e r', retryAgain (CircuitBreaker.call env d fn) n r = (.error e, r') := by
  induction n generalizing r with
  | zero =>
      obtain ⟨e, hcall⟩ := call_of_not_admits fn h
      exact ⟨e, _, hcall⟩
  | succ n ih =>
      have hfirst : ¬ r.AdmitsWithin env d 1 := fun hfirst =>
        h fun hopened => by
          obtain ⟨k, hk, hcooled⟩ := hfirst hopened
          exact ⟨k, by omega, hcooled⟩
      obtain ⟨e, hcall⟩ := call_of_not_admits fn hfirst
      rw [Runtime.admitsWithin_succ_iff hfirst] at h
      obtain ⟨e', r', hretry⟩ := ih h
      exact ⟨e', r', by simp only [retryAgain, tryElse, hcall, hretry]⟩

/-! ## Failures -/

/-- A failure below the threshold is counted. -/
theorem call_counts (env : Env) {e : Exn} {r r' : Runtime} {b : CircuitBreaker}
    (hb : r.breakers d = b)
    (hfn : fn r = (.error e, r')) (hb' : r'.breakers d = b) (hclosed : b.state = .closed)
    (hbelow : b.consecutiveFailures + 1 < b.failureThreshold) :
    ∃ r'', CircuitBreaker.call env d fn r = (.error e, r'') ∧
      r''.breakers d = b.countFailure ∧ r''.ticks = r'.ticks ∧ r''.chatCalls = r'.chatCalls := by
  have hnot : ¬ b.failureThreshold ≤ b.countFailure.consecutiveFailures := not_le.2 hbelow
  simp [CircuitBreaker.call, maybeTransitionToHalfOpen, recordFailure, getBreaker, setBreaker,
    tryElse, bind_apply, hb, hclosed, hfn, hb', hnot]

/-- The failure that reaches the threshold opens the breaker. -/
theorem call_opens (env : Env) {e : Exn} {r r' : Runtime} {b : CircuitBreaker}
    (hb : r.breakers d = b)
    (hfn : fn r = (.error e, r')) (hb' : r'.breakers d = b) (hclosed : b.state = .closed)
    (hreached : b.failureThreshold ≤ b.consecutiveFailures + 1) :
    ∃ r'', CircuitBreaker.call env d fn r = (.error e, r'') ∧
      r''.breakers d = b.countFailure.open (env.clock r'.ticks) ∧ r''.ticks = r'.ticks + 1 ∧
      r''.chatCalls = r'.chatCalls := by
  have hle : b.failureThreshold ≤ b.countFailure.consecutiveFailures := hreached
  simp [CircuitBreaker.call, maybeTransitionToHalfOpen, recordFailure, getBreaker, setBreaker,
    monotonic, resilienceLog, emit, tryElse, bind_apply, hb, hclosed, hfn, hb', hle]

end Call

/-! ## The chat model -/

section Invoke

variable {env : Env} {messages : List Message} {r : Runtime}

/-- A prompt with a usable reply gets one when one of the three attempts is let through. -/
theorem invokeChat_of_admits {P : Content → Prop}
    (hchat : ∀ n, ∃ reply, env.chat n messages = .ok reply ∧ P reply)
    (h : r.AdmitsWithin env .llm 3) :
    ∃ reply r', invokeChat env messages r = (.ok reply, r') ∧ P reply ∧
      (r'.breakers .llm).state = .closed := by
  refine retryAgain_of_admits (fun r₁ => ?_) 2 h
  obtain ⟨reply, hreply, hP⟩ := hchat r₁.chatCalls
  refine ⟨reply, { r₁ with chatCalls := r₁.chatCalls + 1 }, ?_, hP⟩
  simp only [innerInvoke, bind_apply, state_apply, modify_apply, lift_apply, hreply]

theorem invokeChat_of_not_admits (h : ¬ r.AdmitsWithin env .llm 3) :
    ∃ e r', invokeChat env messages r = (.error e, r') :=
  retryAgain_of_not_admits 2 h

/-- Three failed attempts open the breaker of a model that has not failed before. -/
theorem invokeChat_opens (hchat : ∀ n, ∃ e, env.chat n messages = .error e)
    (hnew : r.breakers .llm = .new "llm" 3 15) :
    ∃ e r', invokeChat env messages r = (.error e, r') ∧
      r'.breakers .llm = ⟨"llm", 3, 15, .opened, 3, env.clock r.ticks⟩ ∧
      r'.ticks = r.ticks + 1 := by
  have hinner (r₀ : Runtime) : ∃ e, innerInvoke env messages r₀ =
      (.error e, { r₀ with chatCalls := r₀.chatCalls + 1 }) := by
    obtain ⟨e, he⟩ := hchat r₀.chatCalls
    exact ⟨e, by simp only [innerInvoke, bind_apply, state_apply, modify_apply, lift_apply, he]⟩
  obtain ⟨e₁, he₁⟩ := hinner r
  obtain ⟨r₁, hcall₁, hb₁, ht₁, -⟩ := call_counts env hnew he₁ hnew rfl (by decide)
  obtain ⟨e₂, he₂⟩ := hinner r₁
  obtain ⟨r₂, hcall₂, hb₂, ht₂, -⟩ := call_counts env hb₁ he₂ hb₁ rfl (by decide)
  obtain ⟨e₃, he₃⟩ := hinner r₂
  obtain ⟨r₃, hcall₃, hb₃, ht₃, -⟩ := call_opens env hb₂ he₃ hb₂ rfl (by decide)
  have hticks : r₂.ticks = r.ticks := ht₂.trans ht₁
  refine ⟨e₃, r₃, ?_, ?_, ?_⟩
  · simp only [invokeChat, withRetry, retryAgain, tryElse, hcall₁, hcall₂, hcall₃]
  · rw [hb₃, ← hticks]
    rfl
  · rw [ht₃, ← hticks]

end Invoke

end Underwriting
