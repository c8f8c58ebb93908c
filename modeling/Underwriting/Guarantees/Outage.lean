import Underwriting.Guarantees.RetryBudget
import Underwriting.Run.Resumption

/-!
# Outages of the model

The breaker is there for the time in which the model fails. What it promises concerns single
calls of the model, but it is shared by all nodes of all requests that the process serves. So its
promises carry over to the whole service: during the cooldown the model is left alone whatever is
requested, `cooldown_spares_model`, and in an outage it is asked three times and then once for
each cooldown that has passed, however many requests come in, `outage_budget`.
-/

namespace Underwriting

open Python Python.Py ApplicationService

/-! ## One call of the model -/

/-- How a call of the model ends. -/
inductive Attempted (env : Env) (messages : List Message) (r : Runtime) :
    Except Exn Content × Runtime → Prop
  | refused {e : Exn} (hopened : (r.breakers .llm).state = .opened)
      (hcold : ¬ (r.breakers .llm).cooledDown (env.clock r.ticks)) :
      Attempted env messages r (.error e, { r with ticks := r.ticks + 1 })
  | asked {r' : Runtime} {k : ℕ}
      (hadmitted : (r.breakers .llm).state = .opened →
        (r.breakers .llm).cooledDown (env.clock r.ticks) ∧ r.ticks < r'.ticks)
      (hcalls : r'.chatCalls = r.chatCalls + 1) (hk : r.ticks ≤ k) (hk' : k ≤ r'.ticks)
      (hbreaker : r'.breakers .llm = ((r.breakers .llm).refresh (env.clock r.ticks)).complete
        (env.chat r.chatCalls messages) (env.clock k)) :
      Attempted env messages r (env.chat r.chatCalls messages, r')

theorem around_chatCalls (d : Dependency) (n : ℕ) : Around d fun r => r.chatCalls = n where
  emit _ _ hr := hr
  breaker _ hr := hr
  clock hr := hr

theorem attempted_call (env : Env) (messages : List Message) (r : Runtime) :
    Attempted env messages r (CircuitBreaker.call env .llm (innerInvoke env messages) r) := by
  by_cases hadmits : r.AdmitsWithin env .llm 1
  · let r₁ := CircuitBreaker.admission env .llm r
    have hcooled (hopened : (r.breakers .llm).state = .opened) :
        (r.breakers .llm).cooledDown (env.clock r.ticks) := by
      obtain ⟨k, hk, hcooled⟩ := hadmits hopened
      rwa [Nat.lt_one_iff.1 hk] at hcooled
    have hstate : (r₁.breakers .llm).state ≠ .opened := by
      rw [CircuitBreaker.admission_breaker, Ne, CircuitBreaker.refresh_state_eq_opened_iff]
      exact fun h => h.2 (hcooled h.1)
    have hread (hopened : (r.breakers .llm).state = .opened) : r.ticks < r₁.ticks := by
      simp [r₁, CircuitBreaker.admission, maybeTransitionToHalfOpen, getBreaker, monotonic,
        setBreaker, resilienceLog, emit, bind_apply, hopened, hcooled hopened]
    have hbefore : r₁.chatCalls = r.chatCalls :=
      (around_chatCalls .llm r.chatCalls).keeps_maybeTransitionToHalfOpen env r rfl
    have hget : getBreaker .llm r₁ = (.ok (r₁.breakers .llm), r₁) := rfl
    -- What follows the inner call makes no further one.
    have hafter {α β : Type} {m : PyM α}
        (hm : Py.Keeps (fun r' : Runtime => r'.chatCalls = r.chatCalls + 1) m) (m' : PyM β)
        (hm' : Py.Keeps (fun r' : Runtime => r'.chatCalls = r.chatCalls + 1) m') :
        ((m >>= fun _ => m') { r₁ with chatCalls := r₁.chatCalls + 1 }).2.chatCalls =
          r.chatCalls + 1 := keeps_bind hm (fun _ => hm') _ (congrArg Nat.succ hbefore)
    have haround := around_chatCalls .llm (r.chatCalls + 1)
    obtain ⟨r', hcall, hticks, hbreakers⟩ :=
      CircuitBreaker.call_admitted env .llm r (innerInvoke env messages) hstate
    have hinner : innerInvoke env messages r₁ =
        (env.chat r.chatCalls messages, { r₁ with chatCalls := r₁.chatCalls + 1 }) := by
      rw [innerInvoke_apply, attempt, Nat.add_zero, hbefore]
    have hcalls : (CircuitBreaker.call env .llm (innerInvoke env messages) r).2.chatCalls =
        r.chatCalls + 1 := by
      rw [CircuitBreaker.call,
        bind_of_ok (CircuitBreaker.maybeTransitionToHalfOpen_eq env .llm r).1, bind_of_ok hget,
        if_neg hstate]
      cases hchat : env.chat r.chatCalls messages with
      | ok reply =>
          rw [hchat] at hinner
          simp only [tryElse, hinner]
          exact hafter haround.keeps_recordSuccess _ (keeps_pure _)
      | error e =>
          rw [hchat] at hinner
          simp only [tryElse, hinner]
          exact hafter (haround.keeps_recordFailure env) _ (keeps_raise _)
    rw [hcall] at hcalls ⊢
    rw [hinner] at hticks hbreakers ⊢
    refine .asked (fun hopened => ⟨hcooled hopened, (hread hopened).trans_le hticks⟩) hcalls
      (CircuitBreaker.admission_ticks env .llm r) hticks ?_
    rw [hbreakers, Function.update_self]
    exact congrArg (fun b : CircuitBreaker => b.complete _ _)
      (CircuitBreaker.admission_breaker env .llm r)
  · obtain ⟨e, hcall⟩ := call_of_not_admits (innerInvoke env messages) hadmits
    rw [hcall]
    simp only [Runtime.AdmitsWithin, Nat.lt_one_iff, exists_eq_left, Nat.add_zero,
      Classical.not_imp] at hadmits
    exact .refused hadmits.1 hadmits.2

/-- What every call of the model keeps is kept by an invocation. -/
theorem keeps_invoke {env : Env} {I : Runtime → Prop} (messages : List Message)
    (h : ∀ {r o}, I r → Attempted env messages r o → I o.2) :
    Py.Keeps I (invokeChat env messages) :=
  keeps_attempts (fun r hr => h hr (attempted_call env messages r)) 2

/-! ## During the cooldown -/

section Cooldown

variable {env : Env} {b : CircuitBreaker} {start stop n : ℕ}

theorem lasting_spared (hopened : b.state = .opened)
    (hcold : ∀ k, start ≤ k → k < stop → ¬ b.cooledDown (env.clock k)) :
    Lasting env fun r => start ≤ r.ticks ∧
      (r.ticks ≤ stop → r.chatCalls = n ∧ r.breakers .llm = b) := by
  have haround : Around .creditBureau fun r => start ≤ r.ticks ∧
      (r.ticks ≤ stop → r.chatCalls = n ∧ r.breakers .llm = b) := by
    refine ⟨fun _ _ hr => hr, fun {r} b' hr => ?_, fun hr => ?_⟩
    · have hllm : Function.update r.breakers .creditBureau b' .llm = r.breakers .llm :=
        Function.update_of_ne (by decide) _ _
      exact ⟨hr.1, fun hstop => ⟨(hr.2 hstop).1, hllm.trans (hr.2 hstop).2⟩⟩
    · exact ⟨hr.1.trans (Nat.le_succ _), fun hstop => hr.2 ((Nat.le_succ _).trans hstop)⟩
  refine ⟨fun _ _ hr => hr, fun messages => keeps_invoke messages ?_,
    haround.keeps_getCreditReport env, fun _ hr => hr, fun hr => hr⟩
  intro r o hr hattempted
  cases hattempted with
  | refused => exact haround.clock hr
  | asked hadmitted hcalls hk hk' hbreaker =>
      refine ⟨(hr.1.trans hk).trans hk', fun hstop => ?_⟩
      obtain ⟨-, rfl⟩ := hr.2 ((hk.trans hk').trans hstop)
      obtain ⟨hcooled, hlt⟩ := hadmitted hopened
      exact absurd hcooled (hcold _ hr.1 (hlt.trans_le hstop))

end Cooldown

/-- While its breaker is open and no reading of the clock finds the cooldown over, the model is
not asked, whatever is requested. -/
theorem cooldown_spares_model {env : Env} {w : World} (calls : List Call)
    (hopened : (w.runtime.breakers .llm).state = .opened)
    (hcold : ∀ k, w.runtime.ticks ≤ k →
      k < (calls.foldl (leave env recursionLimit) w).runtime.ticks →
        ¬ (w.runtime.breakers .llm).cooledDown (env.clock k)) :
    (calls.foldl (leave env recursionLimit) w).runtime.chatCalls = w.runtime.chatCalls ∧
      (calls.foldl (leave env recursionLimit) w).runtime.breakers .llm =
        w.runtime.breakers .llm :=
  ((lasting_spared hopened hcold).leave_calls ⟨le_rfl, fun _ => ⟨rfl, rfl⟩⟩ recursionLimit
    calls).2 le_rfl

/-- A clock that stands still. -/
def frozenEnv : Env := { sampleEnv with clock := fun _ => 0 }

/-- A process whose model has failed three times. -/
def coolingWorld : World :=
  ⟨fun _ => none, { Runtime.init with
    breakers := Function.update Runtime.init.breakers .llm ⟨"llm", 3, 15, .opened, 3, 0⟩
    chatCalls := 3 }⟩

theorem cooldown_spares_model_frozen :
    ([.start sampleApplication, .start escalatedApplication].foldl
        (leave frozenEnv recursionLimit) coolingWorld).runtime.chatCalls = 3 ∧
      ([.start sampleApplication, .start escalatedApplication].foldl
        (leave frozenEnv recursionLimit) coolingWorld).runtime.breakers .llm =
          ⟨"llm", 3, 15, .opened, 3, 0⟩ :=
  @cooldown_spares_model frozenEnv coolingWorld
    [.start sampleApplication, .start escalatedApplication] rfl
    fun _ _ _ hcooled => absurd (show (15 : ℚ) ≤ 0 - 0 from hcooled) (by norm_num)

/-! ## In an outage -/

/-- The breaker of the model as a process sets it up. -/
structure Standard (b : CircuitBreaker) : Prop where
  rested : b.Rested
  timeout_eq : b.recoveryTimeoutSeconds = 15

theorem keeps_timeout {r : Runtime} {env : Env} {messages : List Message}
    {o : Except Exn Content × Runtime} (h : Attempted env messages r o) :
    (o.2.breakers .llm).recoveryTimeoutSeconds =
      (r.breakers .llm).recoveryTimeoutSeconds := by
  cases h with
  | refused => rfl
  | asked hadmitted hcalls hk hk' hbreaker =>
      rw [hbreaker]
      cases env.chat r.chatCalls messages with
      | ok reply => exact CircuitBreaker.refresh_recoveryTimeoutSeconds _ _
      | error e =>
          rw [CircuitBreaker.complete, CircuitBreaker.fail]
          split_ifs <;> exact CircuitBreaker.refresh_recoveryTimeoutSeconds _ _

theorem lasting_standard (env : Env) : Lasting env fun r => Standard (r.breakers .llm) where
  emit _ _ hr := hr
  chat messages r hr := by
    have htimeout : Py.Keeps (fun r => (r.breakers .llm).recoveryTimeoutSeconds = 15)
        (invokeChat env messages) :=
      keeps_invoke messages fun hr hattempted => (keeps_timeout hattempted).trans hr
    exact ⟨rested_invokeChat hr.rested, htimeout r hr.timeout_eq⟩
  report name r hr := by
    have huntouched := getCreditReport_untouched env name r
    have hllm := huntouched.breakers .llm (by decide)
    exact ⟨hllm ▸ hr.rested, hllm ▸ hr.timeout_eq⟩
  spans _ hr := hr
  uuids hr := hr

theorem standard_init : Standard (Runtime.init.breakers .llm) :=
  ⟨⟨rfl, fun _ => rfl, fun h => absurd rfl h⟩, rfl⟩

/-- What is counted in an outage that has begun at the reading `start` of the clock, after `n`
calls of the model. A closed breaker has counted all calls since, and a breaker that is open has
opened a cooldown later for each call after the third. -/
structure Rationed (env : Env) (start n : ℕ) (r : Runtime) : Prop where
  threshold_eq : (r.breakers .llm).failureThreshold = 3
  timeout_eq : (r.breakers .llm).recoveryTimeoutSeconds = 15
  closed : (r.breakers .llm).state = .closed → (r.breakers .llm).consecutiveFailures < 3 ∧
    r.chatCalls = n + (r.breakers .llm).consecutiveFailures
  tripped : (r.breakers .llm).state ≠ .closed → 3 ≤ (r.breakers .llm).consecutiveFailures
  opened : (r.breakers .llm).state ≠ .closed → r.chatCalls = n ∨
    (r.breakers .llm).state = .opened ∧
      env.clock start + 15 * ((r.chatCalls : ℚ) - n - 3) ≤ (r.breakers .llm).openedAt ∧
      (r.breakers .llm).openedAt ≤ env.clock r.ticks

namespace Rationed

variable {env : Env} {start n : ℕ} {r : Runtime}

theorem of_standard (h : Standard (r.breakers .llm)) :
    Rationed env start r.chatCalls r where
  threshold_eq := h.rested.threshold_eq
  timeout_eq := h.timeout_eq
  closed hclosed := by simp [h.rested.closed hclosed]
  tripped := h.rested.tripped
  opened _ := .inl rfl

theorem later (hclock : Monotone env.clock) (h : Rationed env start n r) {r' : Runtime}
    (hticks : r.ticks ≤ r'.ticks) (hcalls : r'.chatCalls = r.chatCalls)
    (hbreaker : r'.breakers .llm = r.breakers .llm) : Rationed env start n r' := by
  refine ⟨?_, ?_, ?_, ?_, ?_⟩
  all_goals rw [hbreaker]
  · exact h.threshold_eq
  · exact h.timeout_eq
  · rw [hcalls]
    exact h.closed
  · exact h.tripped
  · rw [hcalls]
    intro hstate
    rcases h.opened hstate with heq | ⟨hopened, hspaced, hle⟩
    · exact .inl heq
    · exact .inr ⟨hopened, hspaced, hle.trans (hclock hticks)⟩

/-- The breaker opens for another cooldown. -/
theorem of_open {r' : Runtime} {b : CircuitBreaker} {now : ℚ}
    (hbreaker : r'.breakers .llm = b.countFailure.open now) (hthreshold : b.failureThreshold = 3)
    (htimeout : b.recoveryTimeoutSeconds = 15) (hcount : 2 ≤ b.consecutiveFailures)
    (hspaced : env.clock start + 15 * ((r'.chatCalls : ℚ) - n - 3) ≤ now)
    (hle : now ≤ env.clock r'.ticks) : Rationed env start n r' := by
  refine ⟨?_, ?_, fun hclosed => ?_, fun _ => ?_, fun _ => .inr ?_⟩
  all_goals rw [hbreaker] at *
  · exact hthreshold
  · exact htimeout
  · cases hclosed
  · exact Nat.succ_le_succ hcount
  · exact ⟨rfl, hspaced, hle⟩

/-- A failed call is counted, or it opens the breaker again. -/
theorem asked (hclock : Monotone env.clock) (h : Rationed env start n r) (hstart : start ≤ r.ticks)
    {r' : Runtime} {k : ℕ}
    (hadmitted : (r.breakers .llm).state = .opened →
      (r.breakers .llm).cooledDown (env.clock r.ticks))
    (hcalls : r'.chatCalls = r.chatCalls + 1) (hk : r.ticks ≤ k) (hk' : k ≤ r'.ticks)
    (hbreaker : r'.breakers .llm =
      ((r.breakers .llm).refresh (env.clock r.ticks)).fail (env.clock k)) :
    Rationed env start n r' := by
  have hcast : (r'.chatCalls : ℚ) = r.chatCalls + 1 := by rw [hcalls, Nat.cast_succ]
  have hnow : env.clock start ≤ env.clock k := hclock (hstart.trans hk)
  have hb₁ := (CircuitBreaker.refresh_failureThreshold (r.breakers .llm) (env.clock r.ticks)).trans
    h.threshold_eq
  have hb₂ := (CircuitBreaker.refresh_recoveryTimeoutSeconds (r.breakers .llm)
    (env.clock r.ticks)).trans h.timeout_eq
  have hcount := CircuitBreaker.refresh_consecutiveFailures (r.breakers .llm) (env.clock r.ticks)
  rw [CircuitBreaker.fail, hb₁] at hbreaker
  by_cases hclosed : (r.breakers .llm).state = .closed
  · obtain ⟨hlt, heq⟩ := h.closed hclosed
    by_cases hreached : 3 ≤ ((r.breakers .llm).refresh
        (env.clock r.ticks)).countFailure.consecutiveFailures
    · rw [if_pos hreached] at hbreaker
      have htwo : (r.breakers .llm).consecutiveFailures = 2 := by
        simp only [CircuitBreaker.countFailure, hcount] at hreached
        omega
      refine of_open hbreaker hb₁ hb₂ (hcount.trans htwo).ge ?_ (hclock hk')
      have hthree : (r'.chatCalls : ℚ) = n + 3 := by rw [hcast, heq, htwo]; push_cast; ring
      rw [hthree]
      linarith
    · rw [if_neg hreached] at hbreaker
      have hstate : (r'.breakers .llm).state = .closed := by
        rw [hbreaker]
        exact (CircuitBreaker.refresh_state_eq_closed_iff _ _).2 hclosed
      refine ⟨?_, ?_, fun _ => ?_, absurd hstate, absurd hstate⟩
      · rw [hbreaker]
        exact hb₁
      · rw [hbreaker]
        exact hb₂
      · rw [hbreaker]
        simp only [CircuitBreaker.countFailure, hcount] at hreached ⊢
        omega
  · have htripped := h.tripped hclosed
    have hreached : 3 ≤ ((r.breakers .llm).refresh
        (env.clock r.ticks)).countFailure.consecutiveFailures := by
      simp only [CircuitBreaker.countFailure, hcount]
      omega
    rw [if_pos hreached] at hbreaker
    refine of_open hbreaker hb₁ hb₂ (by omega) ?_ (hclock hk')
    rcases h.opened hclosed with heq | ⟨hopened, hspaced, -⟩
    · rw [hcast, heq]
      linarith
    · have hcooled := hadmitted hopened
      rw [CircuitBreaker.cooledDown, h.timeout_eq] at hcooled
      have hread : env.clock r.ticks ≤ env.clock k := hclock hk
      rw [hcast]
      linarith

theorem calls_le (hclock : Monotone env.clock) (h : Rationed env start n r)
    (hstart : start ≤ r.ticks) :
    (r.chatCalls : ℚ) ≤ n + 3 + (env.clock r.ticks - env.clock start) / 15 := by
  have hnow : env.clock start ≤ env.clock r.ticks := hclock hstart
  by_cases hclosed : (r.breakers .llm).state = .closed
  · obtain ⟨hlt, heq⟩ := h.closed hclosed
    have hlt' : ((r.breakers .llm).consecutiveFailures : ℚ) < 3 := by exact_mod_cast hlt
    rw [heq, Nat.cast_add]
    linarith
  · rcases h.opened hclosed with heq | ⟨-, hspaced, hle⟩
    · rw [heq]
      linarith
    · linarith

/-- As long as every reply is an error, the calls stay rationed. -/
theorem lasting (hclock : Monotone env.clock) {stop : ℕ}
    (hfail : ∀ k, n ≤ k → k < stop → ∀ messages, ∃ e, env.chat k messages = .error e) :
    Lasting env fun r => start ≤ r.ticks ∧ n ≤ r.chatCalls ∧
      (r.chatCalls ≤ stop → Rationed env start n r) := by
  have haround : Around .creditBureau fun r => start ≤ r.ticks ∧ n ≤ r.chatCalls ∧
      (r.chatCalls ≤ stop → Rationed env start n r) := by
    refine ⟨fun _ _ hr => ⟨hr.1, hr.2.1, fun hstop => ?_⟩, fun {r} b hr =>
      ⟨hr.1, hr.2.1, fun hstop => ?_⟩, fun hr => ⟨hr.1.trans (Nat.le_succ _), hr.2.1,
        fun hstop => ?_⟩⟩
    · exact (hr.2.2 hstop).later hclock le_rfl rfl rfl
    · have hllm : Function.update r.breakers .creditBureau b .llm = r.breakers .llm :=
        Function.update_of_ne (by decide) _ _
      exact (hr.2.2 hstop).later hclock le_rfl rfl hllm
    · exact (hr.2.2 hstop).later hclock (Nat.le_succ _) rfl rfl
  refine ⟨fun record hplain hr => haround.emit record hplain hr,
    fun messages => keeps_invoke messages ?_, haround.keeps_getCreditReport env,
    fun _ hr => ⟨hr.1, hr.2.1, fun hstop => ?_⟩, fun hr => ⟨hr.1, hr.2.1, fun hstop => ?_⟩⟩
  · intro r o hr hattempted
    cases hattempted with
    | refused => exact haround.clock hr
    | asked hadmitted hcalls hk hk' hbreaker =>
        refine ⟨(hr.1.trans hk).trans hk', hr.2.1.trans (hcalls ▸ Nat.le_succ _), fun hstop => ?_⟩
        rw [hcalls] at hstop
        obtain ⟨e, he⟩ := hfail r.chatCalls hr.2.1 hstop messages
        rw [he] at hbreaker
        exact (hr.2.2 (Nat.le_of_succ_le hstop)).asked hclock hr.1
          (fun hopened => (hadmitted hopened).1) hcalls hk hk' hbreaker
  · exact (hr.2.2 hstop).later hclock le_rfl rfl rfl
  · exact (hr.2.2 hstop).later hclock le_rfl rfl rfl

end Rationed

/-- Whatever a process has been through, as long as the model fails it is asked at most three times
and once more for each cooldown that has passed, whatever is requested. -/
theorem outage_budget {env : Env} (hclock : Monotone env.clock) (store : Store)
    (past calls : List Call)
    (hfail : ∀ k, (process env store past).runtime.chatCalls ≤ k →
      k < (process env store (past ++ calls)).runtime.chatCalls →
        ∀ messages, ∃ e, env.chat k messages = .error e) :
    ((process env store (past ++ calls)).runtime.chatCalls : ℚ) ≤
      (process env store past).runtime.chatCalls + 3 +
        (env.clock (process env store (past ++ calls)).runtime.ticks -
          env.clock (process env store past).runtime.ticks) / 15 := by
  have happend : process env store (past ++ calls) =
      calls.foldl (leave env recursionLimit) (process env store past) := List.foldl_append
  rw [happend] at hfail ⊢
  have hstandard : Standard ((process env store past).runtime.breakers .llm) :=
    (lasting_standard env).leave_calls standard_init recursionLimit past
  obtain ⟨hstart, -, hrationed⟩ := (Rationed.lasting hclock hfail).leave_calls
    ⟨le_rfl, le_rfl, fun _ => .of_standard hstandard⟩ recursionLimit calls
  exact (hrationed le_rfl).calls_le hclock hstart

/-- The model is down for good. -/
def darkEnv : Env := .scripted .default sampleDigest none none

theorem outage_budget_dark :
    ((process darkEnv (fun _ => none) ([.start sampleApplication] ++
        [.start sampleApplication, .start escalatedApplication])).runtime.chatCalls : ℚ) ≤
      (process darkEnv (fun _ => none) [.start sampleApplication]).runtime.chatCalls + 3 +
        (darkEnv.clock (process darkEnv (fun _ => none) ([.start sampleApplication] ++
            [.start sampleApplication, .start escalatedApplication])).runtime.ticks -
          darkEnv.clock (process darkEnv (fun _ => none)
            [.start sampleApplication]).runtime.ticks) / 15 := by
  refine outage_budget Nat.mono_cast _ _ _ fun k _ _ messages => ?_
  cases hjson : (humanContent messages).json with
  | none => exact ⟨_, by simp [darkEnv, Env.scripted, hjson]; rfl⟩
  | some j => exact ⟨_, by simp [darkEnv, Env.scripted, hjson]; rfl⟩

end Underwriting
