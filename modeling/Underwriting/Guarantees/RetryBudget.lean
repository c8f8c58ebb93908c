import Underwriting.Infrastructure.Admission
import Underwriting.Infrastructure.Breaker
import Underwriting.Run.Replies

/-!
# The retry budget of a healthy model

An invocation makes at most three attempts, each under the breaker, and the breaker opens at
the third failure in a row. A success takes the count back to zero. So a breaker that is
closed between two invocations has counted nothing, and an invocation that finds it closed can
fail twice without being refused its third attempt.
-/

namespace Underwriting

open Python Python.Py

/-- Between invocations: a closed breaker has counted nothing, and one that is not closed has
counted up to the threshold. -/
structure CircuitBreaker.Rested (b : CircuitBreaker) : Prop where
  threshold_eq : b.failureThreshold = 3
  closed : b.state = .closed → b.consecutiveFailures = 0
  tripped : b.state ≠ .closed → 3 ≤ b.consecutiveFailures

/-- The process after a history of invocations. -/
def invoked (env : Env) (history : List (List Message)) (r : Runtime) : Runtime :=
  history.foldl (fun r messages => (invokeChat env messages r).2) r

/-- The outcome of the attempt number `k` of an invocation. -/
def attempt (env : Env) (messages : List Message) (r : Runtime) (k : ℕ) : Except Exn Content :=
  env.chat (r.chatCalls + k) messages

/-- The inner model is run until its first success, at most `n + 1` times. The success is
returned. Otherwise the last error is raised and the breaker is open. -/
def SpendsBudget (env : Env) (messages : List Message) (n : ℕ) (r : Runtime)
    (result : Except Exn Content × Runtime) : Prop :=
  (∃ k ≤ n, ∃ reply, (∀ j < k, ∃ e, attempt env messages r j = .error e) ∧
    attempt env messages r k = .ok reply ∧ result.1 = .ok reply ∧
    result.2.chatCalls = r.chatCalls + (k + 1) ∧ (result.2.breakers .llm).state = .closed) ∨
  ((∀ j ≤ n, ∃ e, attempt env messages r j = .error e) ∧ result.1 = attempt env messages r n ∧
    result.2.chatCalls = r.chatCalls + (n + 1) ∧ (result.2.breakers .llm).state = .opened)

section Attempts

variable {env : Env} {messages : List Message} {r : Runtime}

theorem innerInvoke_apply (env : Env) (messages : List Message) (r : Runtime) :
    innerInvoke env messages r =
      (attempt env messages r 0, { r with chatCalls := r.chatCalls + 1 }) := by
  simp only [innerInvoke, bind_apply, state_apply, modify_apply, lift_apply, attempt, Nat.add_zero]

theorem rested_close {b : CircuitBreaker} (h : b.failureThreshold = 3) : b.close.Rested :=
  ⟨h, fun _ => rfl, fun hstate => absurd rfl hstate⟩

theorem rested_open {b : CircuitBreaker} (h : b.failureThreshold = 3)
    (hcount : 2 ≤ b.consecutiveFailures) (now : ℚ) : (b.countFailure.open now).Rested where
  threshold_eq := h
  closed hstate := by cases hstate
  tripped _ := Nat.succ_le_succ hcount

/-- A failure beyond the threshold opens the breaker. -/
theorem rested_fail {b : CircuitBreaker} (h : b.failureThreshold = 3)
    (hcount : 3 ≤ b.consecutiveFailures) (now : ℚ) :
    (b.fail now).Rested ∧ (b.fail now).state ≠ .closed := by
  have hreached : b.failureThreshold ≤ b.countFailure.consecutiveFailures :=
    h.le.trans (hcount.trans (Nat.le_succ _))
  rw [CircuitBreaker.fail, if_pos hreached]
  exact ⟨rested_open h (by omega) now, fun hclosed => by cases hclosed⟩

/-! ## Starting with a closed breaker -/

/-- The first attempt succeeds. -/
theorem call_of_success {reply : Content} (hclosed : (r.breakers .llm).state = .closed)
    (hreply : attempt env messages r 0 = .ok reply) :
    ∃ r', CircuitBreaker.call env .llm (innerInvoke env messages) r = (.ok reply, r') ∧
      r'.breakers .llm = (r.breakers .llm).close ∧ r'.chatCalls = r.chatCalls + 1 := by
  have hinner := innerInvoke_apply env messages r
  rw [hreply] at hinner
  exact ⟨_, call_of_closed env hclosed hinner hclosed, by simp, rfl⟩

theorem spendsBudget_of_success {n : ℕ} {reply : Content} {r' : Runtime}
    (hreply : attempt env messages r 0 = .ok reply) (hcalls : r'.chatCalls = r.chatCalls + 1)
    (hclosed : (r'.breakers .llm).state = .closed) :
    SpendsBudget env messages n r (.ok reply, r') :=
  .inl ⟨0, Nat.zero_le n, reply, fun j hj => absurd hj (Nat.not_lt_zero j), hreply, rfl, hcalls,
    hclosed⟩

/-- An attempt that fails leaves the following ones to the rest of the budget. -/
theorem spendsBudget_succ {n : ℕ} {e : Exn} {r' : Runtime} {result : Except Exn Content × Runtime}
    (he : attempt env messages r 0 = .error e) (hcalls : r'.chatCalls = r.chatCalls + 1)
    (h : SpendsBudget env messages n r' result) : SpendsBudget env messages (n + 1) r result := by
  have hshift (k : ℕ) : attempt env messages r' k = attempt env messages r (k + 1) := by
    rw [attempt, attempt, hcalls, Nat.add_assoc, Nat.add_comm 1]
  have hfailed {j : ℕ} (h : ∀ i, j = i + 1 → ∃ e, attempt env messages r' i = .error e) :
      ∃ e, attempt env messages r j = .error e := by
    cases j with
    | zero => exact ⟨e, he⟩
    | succ i => exact hshift i ▸ h i rfl
  rcases h with ⟨k, hk, reply, herrors, hreply, hreturned, hcount, hclosed⟩ |
    ⟨herrors, hraised, hcount, hopened⟩
  · refine .inl ⟨k + 1, by omega, reply, fun j hj => hfailed fun i hi => herrors i (by omega),
      hshift k ▸ hreply, hreturned, by omega, hclosed⟩
  · exact .inr ⟨fun j hj => hfailed fun i hi => herrors i (by omega), hshift n ▸ hraised,
      by omega, hopened⟩

/-- The failures that a closed breaker has counted and the attempts that are left add up to
the threshold. -/
theorem retryAgain_of_closed (n m : ℕ) (hbudget : m + n = 2) (r : Runtime)
    (hclosed : (r.breakers .llm).state = .closed)
    (hcount : (r.breakers .llm).consecutiveFailures = m)
    (hthreshold : (r.breakers .llm).failureThreshold = 3) :
    SpendsBudget env messages n r
        (retryAgain (CircuitBreaker.call env .llm (innerInvoke env messages)) n r) ∧
      ((retryAgain (CircuitBreaker.call env .llm (innerInvoke env messages)) n r).2.breakers
        .llm).Rested := by
  induction n generalizing m r with
  | zero =>
      have hinner := innerInvoke_apply env messages r
      rw [retryAgain]
      cases hfirst : attempt env messages r 0 with
      | ok reply =>
          obtain ⟨r', hcall, hbreaker, hcalls⟩ := call_of_success hclosed hfirst
          rw [hcall]
          exact ⟨spendsBudget_of_success hfirst hcalls (by rw [hbreaker]; rfl),
            hbreaker ▸ rested_close hthreshold⟩
      | error e =>
          rw [hfirst] at hinner
          obtain ⟨r', hcall, hbreaker, -, hcalls⟩ :=
            call_opens env rfl hinner rfl hclosed (by omega)
          rw [hcall]
          refine ⟨.inr ⟨fun j hj => ?_, hfirst.symm, hcalls, by rw [hbreaker]; rfl⟩, ?_⟩
          · obtain rfl : j = 0 := by omega
            exact ⟨e, hfirst⟩
          · rw [hbreaker]
            exact rested_open hthreshold (by omega) _
  | succ n ih =>
      have hinner := innerInvoke_apply env messages r
      cases hfirst : attempt env messages r 0 with
      | ok reply =>
          obtain ⟨r', hcall, hbreaker, hcalls⟩ := call_of_success hclosed hfirst
          simp only [retryAgain, tryElse, hcall, pure_apply]
          exact ⟨spendsBudget_of_success hfirst hcalls (by rw [hbreaker]; rfl),
            hbreaker ▸ rested_close hthreshold⟩
      | error e =>
          rw [hfirst] at hinner
          obtain ⟨r', hcall, hbreaker, -, hcalls⟩ :=
            call_counts env rfl hinner rfl hclosed (by omega)
          have hrest := ih (m + 1) (by omega) r' (by rw [hbreaker]; exact hclosed)
            (by rw [hbreaker]; exact congrArg (· + 1) hcount) (by rw [hbreaker]; exact hthreshold)
          simp only [retryAgain, tryElse, hcall]
          exact ⟨spendsBudget_succ hfirst hcalls hrest.1, hrest.2⟩

/-! ## Starting with a breaker that is not closed -/

/-- An attempt is refused, or it is a probe. Only a successful probe closes the breaker. -/
theorem call_of_tripped (env : Env) (messages : List Message) (hrested : (r.breakers .llm).Rested)
    (hstate : (r.breakers .llm).state ≠ .closed) :
    ∃ outcome r', CircuitBreaker.call env .llm (innerInvoke env messages) r = (outcome, r') ∧
      (r'.breakers .llm).Rested ∧
      (outcome.toOption = none → (r'.breakers .llm).state ≠ .closed) := by
  have hcount := hrested.tripped hstate
  by_cases hopened : ((CircuitBreaker.admission env .llm r).breakers .llm).state = .opened
  · refine ⟨_, _, CircuitBreaker.call_refused env .llm r _ hopened, ?_, ?_⟩
    · rw [CircuitBreaker.admission_breaker] at hopened ⊢
      refine ⟨by simpa using hrested.threshold_eq, fun hclosed => ?_,
        fun _ => by simpa using hcount⟩
      rw [hopened] at hclosed
      cases hclosed
    · rw [hopened]
      simp
  · obtain ⟨r', hcall, -, hbreakers⟩ := CircuitBreaker.call_admitted env .llm r
      (innerInvoke env messages) hopened
    rw [innerInvoke_apply] at hcall hbreakers
    refine ⟨_, r', hcall, ?_⟩
    have hbreaker := congrFun hbreakers .llm
    rw [Function.update_self, CircuitBreaker.admission_breaker] at hbreaker
    cases houtcome : attempt env messages (CircuitBreaker.admission env .llm r) 0 with
    | ok reply =>
        rw [houtcome] at hbreaker
        rw [hbreaker]
        refine ⟨rested_close (by simpa using hrested.threshold_eq), fun hnone => ?_⟩
        cases hnone
    | error e =>
        rw [houtcome] at hbreaker
        obtain ⟨hfailed, hnot⟩ := rested_fail (b := (r.breakers .llm).refresh (env.clock r.ticks))
          (by simpa using hrested.threshold_eq) (by simpa using hcount)
          (env.clock ((CircuitBreaker.admission env .llm r).ticks))
        rw [hbreaker]
        exact ⟨hfailed, fun _ => hnot⟩

theorem retryAgain_of_tripped (n : ℕ) (r : Runtime) (hrested : (r.breakers .llm).Rested)
    (hstate : (r.breakers .llm).state ≠ .closed) :
    ((retryAgain (CircuitBreaker.call env .llm (innerInvoke env messages)) n r).2.breakers
      .llm).Rested := by
  induction n generalizing r with
  | zero =>
      obtain ⟨outcome, r', hcall, hrested', -⟩ := call_of_tripped env messages hrested hstate
      rw [retryAgain, hcall]
      exact hrested'
  | succ n ih =>
      obtain ⟨outcome, r', hcall, hrested', hstate'⟩ := call_of_tripped env messages hrested hstate
      cases outcome with
      | ok reply =>
          simp only [retryAgain, tryElse, hcall, pure_apply]
          exact hrested'
      | error e =>
          simp only [retryAgain, tryElse, hcall]
          exact ih r' hrested' (hstate' rfl)

/-! ## Histories -/

/-- What an invocation that finds the breaker closed does. -/
theorem invokeChat_of_closed (hrested : (r.breakers .llm).Rested)
    (hclosed : (r.breakers .llm).state = .closed) :
    SpendsBudget env messages 2 r (invokeChat env messages r) ∧
      ((invokeChat env messages r).2.breakers .llm).Rested :=
  retryAgain_of_closed 2 0 rfl r hclosed (hrested.closed hclosed) hrested.threshold_eq

theorem rested_invokeChat (hrested : (r.breakers .llm).Rested) :
    ((invokeChat env messages r).2.breakers .llm).Rested := by
  by_cases hclosed : (r.breakers .llm).state = .closed
  · exact (invokeChat_of_closed hrested hclosed).2
  · exact retryAgain_of_tripped 2 r hrested hclosed

theorem rested_invoked (history : List (List Message)) (hrested : (r.breakers .llm).Rested) :
    ((invoked env history r).breakers .llm).Rested := by
  induction history generalizing r with
  | nil => exact hrested
  | cons messages history ih => exact ih (rested_invokeChat hrested)

end Attempts

theorem retry_budget_kept (env : Env) (name : String) (r : Runtime)
    (hnew : r.breakers .llm = .new name 3 15) (history : List (List Message))
    (messages : List Message)
    (hclosed : ((invoked env history r).breakers .llm).state = .closed) :
    ((invoked env history r).breakers .llm).consecutiveFailures = 0 ∧
      SpendsBudget env messages 2 (invoked env history r)
        (invokeChat env messages (invoked env history r)) := by
  have hfresh : (r.breakers .llm).Rested := by
    rw [hnew]
    exact ⟨rfl, fun _ => rfl, fun hstate => absurd rfl hstate⟩
  have hrested : ((invoked env history r).breakers .llm).Rested := rested_invoked history hfresh
  exact ⟨hrested.closed hclosed, (invokeChat_of_closed hrested hclosed).1⟩

/-- A model that fails now and then: at its first, its third and its fourth invocation. -/
def flakyEnv : Env where
  unicode := sampleEnv.unicode
  arithmetic := sampleEnv.arithmetic
  settings := sampleEnv.settings
  chat n _ := if n ∈ [0, 2, 3] then .error (.providerError "timeout") else .ok ⟨"Approved.", none⟩
  chat_raises n messages e h := by
    split at h <;> cases h
    rfl
  clock := sampleEnv.clock
  uuid := sampleEnv.uuid
  nameDigest := sampleEnv.nameDigest

/-- An invocation has failed once and succeeded; the next one needs its third attempt. -/
theorem retry_budget_kept_flaky :
    ((invoked flakyEnv [[.human ⟨"", none⟩]] .init).breakers .llm).consecutiveFailures = 0 ∧
      SpendsBudget flakyEnv [.human ⟨"", none⟩] 2 (invoked flakyEnv [[.human ⟨"", none⟩]] .init)
        (invokeChat flakyEnv [.human ⟨"", none⟩]
          (invoked flakyEnv [[.human ⟨"", none⟩]] .init)) :=
  retry_budget_kept flakyEnv "llm" .init rfl [[.human ⟨"", none⟩]] [.human ⟨"", none⟩] (by rfl)

end Underwriting
