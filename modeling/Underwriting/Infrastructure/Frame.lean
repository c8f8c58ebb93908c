import Underwriting.Infrastructure.AuditLog
import Underwriting.Infrastructure.CreditBureau
import Underwriting.Infrastructure.Llm

/-!
# What an external call leaves alone

A call to a dependency moves that dependency's breaker, the clock and the log. It never
touches the other breaker, the audit events, the spans or the generated ids, however
often it is retried and whether it returns or raises: `Untouched d r₀ r`. Calls whose
breaker is closed and whose body returns are run through completely, and an external
call raises nothing by which the graph runtime or the service steers a call.
-/

namespace Underwriting

open Python Python.Py

/-- `r` differs from `r₀` only by what a call to the dependency `d` may change. -/
structure Untouched (d : Dependency) (r₀ r : Runtime) : Prop where
  breakers : ∀ d', d' ≠ d → r.breakers d' = r₀.breakers d'
  audited : audited r.log = audited r₀.log
  spans : r.spans = r₀.spans
  uuids : r.uuids = r₀.uuids

theorem Untouched.refl (d : Dependency) (r : Runtime) : Untouched d r r :=
  ⟨fun _ _ => rfl, rfl, rfl, rfl⟩

section Keeps

variable {d : Dependency} {r₀ : Runtime} {α : Type}

theorem keeps_emit {record : LogRecord} (h : record.logger ≠ auditLogger) :
    Keeps (Untouched d r₀) (emit record : PyM Unit) := by
  refine keeps_modify fun r hr => ⟨hr.breakers, ?_, hr.spans, hr.uuids⟩
  rw [audited_append, audited_of_logger_ne h, List.append_nil, hr.audited]

theorem keeps_monotonic (env : Env) : Keeps (Untouched d r₀) (monotonic env) :=
  keeps_bind keeps_state fun _ =>
    keeps_bind (keeps_modify fun _ hr => ⟨hr.breakers, hr.audited, hr.spans, hr.uuids⟩)
      fun _ => keeps_pure _

theorem keeps_getBreaker : Keeps (Untouched d r₀) (getBreaker d) :=
  keeps_bind keeps_state fun _ => keeps_pure _

theorem keeps_setBreaker (b : CircuitBreaker) : Keeps (Untouched d r₀) (setBreaker d b) := by
  refine keeps_modify fun r hr => ⟨fun d' hd => ?_, hr.audited, hr.spans, hr.uuids⟩
  exact (Function.update_of_ne hd _ _).trans (hr.breakers d' hd)

theorem keeps_maybeTransitionToHalfOpen (env : Env) :
    Keeps (Untouched d r₀) (maybeTransitionToHalfOpen env d) := by
  refine keeps_bind keeps_getBreaker fun b => ?_
  split
  · refine keeps_bind (keeps_monotonic env) fun now => ?_
    split
    · exact keeps_bind (keeps_emit (by simp [auditLogger])) fun _ => keeps_setBreaker _
    · exact keeps_pure _
  · exact keeps_pure _

theorem keeps_recordFailure (env : Env) : Keeps (Untouched d r₀) (recordFailure env d) := by
  refine keeps_bind keeps_getBreaker fun b => ?_
  split
  · exact keeps_bind (keeps_monotonic env) fun _ =>
      keeps_bind (keeps_setBreaker _) fun _ => keeps_emit (by simp [auditLogger])
  · exact keeps_setBreaker _

theorem keeps_recordSuccess : Keeps (Untouched d r₀) (recordSuccess d) := by
  refine keeps_bind keeps_getBreaker fun b => ?_
  dsimp only
  split
  · exact keeps_bind (keeps_emit (by simp [auditLogger])) fun _ => keeps_setBreaker _
  · exact keeps_setBreaker _

theorem keeps_call (env : Env) {fn : PyM α} (hfn : Keeps (Untouched d r₀) fn) :
    Keeps (Untouched d r₀) (CircuitBreaker.call env d fn) := by
  refine keeps_bind (keeps_maybeTransitionToHalfOpen env) fun _ =>
    keeps_bind keeps_getBreaker fun b => ?_
  split
  · exact keeps_raise _
  · exact keeps_tryElse hfn
      (fun _ => keeps_bind (keeps_recordFailure env) fun _ => keeps_raise _)
      (fun _ => keeps_bind keeps_recordSuccess fun _ => keeps_pure _)

theorem keeps_retryAgain {fn : PyM α} (hfn : Keeps (Untouched d r₀) fn) (n : ℕ) :
    Keeps (Untouched d r₀) (retryAgain fn n) := by
  induction n with
  | zero => exact hfn
  | succ n ih => exact keeps_tryElse hfn (fun _ => ih) fun _ => keeps_pure _

/-- An invocation of the chat model only moves its own breaker, the clock and the log. -/
theorem keeps_invokeChat (env : Env) (messages : List Message) :
    Keeps (Untouched .llm r₀) (invokeChat env messages) := by
  have hinner : Keeps (Untouched .llm r₀) (innerInvoke env messages) :=
    keeps_bind keeps_state fun _ =>
      keeps_bind (keeps_modify fun _ hr => ⟨hr.breakers, hr.audited, hr.spans, hr.uuids⟩)
        fun _ => keeps_lift _
  exact keeps_retryAgain (keeps_call env hinner) 2

theorem keeps_sanitizeUntrustedText (env : Env) (text source : String) :
    Keeps (Untouched d r₀) (sanitizeUntrustedText env text source) := by
  unfold sanitizeUntrustedText
  split
  · exact keeps_bind (keeps_emit (by simp [auditLogger])) fun _ => keeps_pure _
  · exact keeps_pure _

end Keeps

/-! ## What is raised

The bookkeeping of a breaker raises nothing of its own. -/

section Bookkeeping

variable {P : Exn → Prop} (env : Env) (d : Dependency)

theorem raises_getBreaker : Raises P (getBreaker d) :=
  raises_bind raises_state fun _ => raises_pure _

theorem raises_monotonic : Raises P (monotonic env) :=
  raises_bind raises_state fun _ => raises_bind (raises_modify _) fun _ => raises_pure _

theorem raises_maybeTransitionToHalfOpen : Raises P (maybeTransitionToHalfOpen env d) := by
  refine raises_bind (raises_getBreaker d) fun b => ?_
  split
  · refine raises_bind (raises_monotonic env) fun now => ?_
    split
    · exact raises_bind (raises_modify _) fun _ => raises_modify _
    · exact raises_pure _
  · exact raises_pure _

theorem raises_recordFailure : Raises P (recordFailure env d) := by
  refine raises_bind (raises_getBreaker d) fun b => ?_
  split
  · exact raises_bind (raises_monotonic env) fun _ =>
      raises_bind (raises_modify _) fun _ => raises_modify _
  · exact raises_modify _

theorem raises_recordSuccess : Raises P (recordSuccess d) := by
  refine raises_bind (raises_getBreaker d) fun b => ?_
  dsimp only
  split
  · exact raises_bind (raises_modify _) fun _ => raises_modify _
  · exact raises_modify _

end Bookkeeping

theorem raises_call {α : Type} (env : Env) (d : Dependency) {fn : PyM α}
    (hfn : Raises (·.isControl = false) fn) :
    Raises (·.isControl = false) (CircuitBreaker.call env d fn) := by
  refine raises_bind (raises_maybeTransitionToHalfOpen env d) fun _ =>
    raises_bind (raises_getBreaker d) fun b => ?_
  split
  · exact raises_raise rfl
  · exact raises_tryElse
      (fun e r r' h =>
        raises_bind (raises_recordFailure env d) fun _ => raises_raise (hfn r e r' h))
      (fun _ => raises_bind (raises_recordSuccess d) fun _ => raises_pure _)

theorem raises_retryAgain {α : Type} {P : Exn → Prop} {fn : PyM α} (hfn : Raises P fn) (n : ℕ) :
    Raises P (retryAgain fn n) := by
  induction n with
  | zero => exact hfn
  | succ n ih => exact raises_tryElse (fun _ _ _ _ => ih) fun _ => raises_pure _

theorem raises_invokeChat (env : Env) (messages : List Message) :
    Raises (·.isControl = false) (invokeChat env messages) := by
  refine raises_retryAgain (raises_call env .llm ?_) 2
  exact raises_bind raises_state fun r => raises_bind (raises_modify _) fun _ =>
    raises_lift fun e he => env.chat_raises _ _ e he

/-! ## What is returned

The retry and the breaker hand on what the body returns. -/

theorem returns_call {α : Type} {P : α → Prop} (env : Env) (d : Dependency) {fn : PyM α}
    (hfn : Returns P fn) : Returns P (CircuitBreaker.call env d fn) := by
  refine returns_bind_right _ fun _ => returns_bind_right _ fun b => ?_
  split
  · exact returns_raise _
  · exact returns_tryElse hfn (fun e => returns_bind_right _ fun _ => returns_raise e)
      (fun a ha => returns_bind_right _ fun _ => returns_pure ha)

theorem returns_retryAgain {α : Type} {P : α → Prop} {fn : PyM α} (hfn : Returns P fn) (n : ℕ) :
    Returns P (retryAgain fn n) := by
  induction n with
  | zero => exact hfn
  | succ n ih => exact returns_tryElse hfn (fun _ => ih) fun _ ha => returns_pure ha

/-- What the resilient model returns is a reply of the inner one. -/
theorem returns_invokeChat (env : Env) (messages : List Message) :
    Returns (fun reply => ∃ n, env.chat n messages = .ok reply) (invokeChat env messages) := by
  refine returns_retryAgain (returns_call env .llm fun r reply r' h => ?_) 2
  exact ⟨r.chatCalls, congrArg Prod.fst h⟩

theorem returns_getCreditReport (env : Env) (name : String) :
    Returns (· = fetchReport env name) (getCreditReport env name) := by
  refine returns_retryAgain (returns_bind_right _ fun _ => ?_) 2
  refine returns_bind (P := (· = fetchReport env name))
    (returns_call env .creditBureau (returns_pure rfl)) fun report h => ?_
  exact returns_bind_right _ fun _ => returns_pure h

/-! ## A closed breaker -/

/-- With a closed breaker a body that returns is run once and its value handed on. -/
theorem call_of_closed {α : Type} (env : Env) {d : Dependency} {fn : PyM α} {a : α}
    {r r' : Runtime} (hclosed : (r.breakers d).state = .closed) (hfn : fn r = (.ok a, r'))
    (hclosed' : (r'.breakers d).state = .closed) :
    CircuitBreaker.call env d fn r =
      (.ok a, { r' with breakers := Function.update r'.breakers d (r'.breakers d).close }) := by
  simp [CircuitBreaker.call, maybeTransitionToHalfOpen, recordSuccess, getBreaker, setBreaker,
    tryElse, bind_apply, hclosed, hfn, hclosed']

theorem withRetry_of_ok {α : Type} {fn : PyM α} {a : α} {r r' : Runtime} (n : ℕ)
    (h : fn r = (.ok a, r')) : withRetry n fn r = (.ok a, r') := by
  rw [withRetry]
  cases n - 1 with
  | zero => exact h
  | succ k => simp only [retryAgain, tryElse, h, pure_apply]

theorem requestReport_of_closed (env : Env) (name : String) (r : Runtime)
    (h : (r.breakers .creditBureau).state = .closed) :
    ∃ r', requestReport env name r = (.ok (fetchReport env name), r') ∧
      (r'.breakers .creditBureau).state = .closed := by
  have hcall (r₁ : Runtime) (h₁ : (r₁.breakers .creditBureau).state = .closed) :=
    call_of_closed env h₁ (pure_apply (fetchReport env name) r₁) h₁
  simp only [requestReport, bureauLog, emit, bind_apply, modify_apply, pure_apply]
  rw [hcall]
  · exact ⟨_, rfl, by simp [CircuitBreaker.close]⟩
  · exact h

theorem getCreditReport_untouched (env : Env) (name : String) (r : Runtime) :
    Untouched .creditBureau r (getCreditReport env name r).2 := by
  have hkeeps : Keeps (Untouched .creditBureau r) (getCreditReport env name) :=
    keeps_retryAgain (keeps_bind (keeps_emit (by simp [auditLogger])) fun _ =>
      keeps_bind (keeps_call env (keeps_pure _)) fun _ =>
        keeps_bind (keeps_emit (by simp [auditLogger])) fun _ => keeps_pure _) 2
  exact hkeeps r (.refl _ r)

/-- With the bureau's breaker closed the report is read at the first attempt. -/
theorem getCreditReport_of_closed (env : Env) (name : String) (r : Runtime)
    (h : (r.breakers .creditBureau).state = .closed) :
    ∃ r', getCreditReport env name r = (.ok (fetchReport env name), r') ∧
      (r'.breakers .creditBureau).state = .closed := by
  obtain ⟨r', hrequest, hclosed⟩ := requestReport_of_closed env name r h
  exact ⟨r', withRetry_of_ok 3 hrequest, hclosed⟩

end Underwriting
