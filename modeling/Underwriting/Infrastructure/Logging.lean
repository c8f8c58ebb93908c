import Underwriting.Infrastructure.Frame

/-!
# The log is only written

No external call reads the log, the spans or the number of generated ids. So a call ends the
same way whatever these are, `Blind.outcome_eq`, and what it logs is appended to what has been
logged before, `Blind.log_grows`.
-/

namespace Underwriting

open Python Python.Py

/-- The process after records `l` have been put before its log, with other spans and another
number of generated ids. -/
def Runtime.prepended (l : List LogRecord) (spans : List Span) (uuids : ℕ) (r : Runtime) :
    Runtime :=
  { r with log := l ++ r.log, spans := spans, uuids := uuids }

/-- The process with an empty log, no spans and no generated ids. -/
def Runtime.bare (r : Runtime) : Runtime := { r with log := [], spans := [], uuids := 0 }

theorem Runtime.prepended_bare (r : Runtime) : r.bare.prepended r.log r.spans r.uuids = r := by
  rw [prepended, bare, List.append_nil]

/-- The computation does not see the log, the spans and the number of generated ids. -/
def Blind {α : Type} (m : PyM α) : Prop :=
  ∀ l spans uuids, Commutes (Runtime.prepended l spans uuids) m

namespace Blind

variable {α β : Type} {m : PyM α}

theorem apply_eq (hm : Blind m) (r : Runtime) :
    m r = ((m r.bare).1, (m r.bare).2.prepended r.log r.spans r.uuids) := by
  have h := hm r.log r.spans r.uuids r.bare
  rw [Runtime.prepended_bare] at h
  exact h

theorem outcome_eq (hm : Blind m) {r r' : Runtime} (h : r.bare = r'.bare) :
    (m r).1 = (m r').1 := by
  rw [hm.apply_eq r, hm.apply_eq r', h]

theorem log_grows (hm : Blind m) (r : Runtime) : r.log <+: (m r).2.log := by
  rw [hm.apply_eq r]
  exact List.prefix_append _ _

end Blind

/-! ## External calls -/

section Calls

variable {α β : Type} (env : Env) (d : Dependency)

theorem blind_pure (a : α) : Blind (pure a : PyM α) := fun _ _ _ => commutes_pure a

theorem blind_raise (e : Exn) : Blind (Py.raise e : PyM α) := fun _ _ _ => commutes_raise e

theorem blind_lift (x : Except Exn α) : Blind (Py.lift x : PyM α) := fun _ _ _ => commutes_lift x

theorem blind_bind {m : PyM α} {k : α → PyM β} (hm : Blind m) (hk : ∀ a, Blind (k a)) :
    Blind (m >>= k) :=
  fun l s n => commutes_bind (hm l s n) fun a => hk a l s n

theorem blind_tryElse {m : PyM α} {onError : Exn → PyM β} {onReturn : α → PyM β} (hm : Blind m)
    (he : ∀ e, Blind (onError e)) (ha : ∀ a, Blind (onReturn a)) :
    Blind (tryElse m onError onReturn) :=
  fun l s n => commutes_tryElse (hm l s n) (fun e => he e l s n) fun a => ha a l s n

theorem blind_emit (record : LogRecord) : Blind (emit record) := by
  intro l spans uuids
  apply commutes_modify
  intro r
  simp only [Runtime.prepended, List.append_assoc]

theorem blind_getBreaker : Blind (getBreaker d) :=
  fun l s n => commutes_read (f := Runtime.prepended l s n) (g := fun r => r.breakers d)
    (fun _ => rfl) commutes_pure

theorem blind_setBreaker (b : CircuitBreaker) : Blind (setBreaker d b) :=
  fun _ _ _ => commutes_modify fun _ => rfl

theorem blind_monotonic : Blind (monotonic env) := by
  intro l s n
  have htick : Commutes (Runtime.prepended l s n)
      (Py.modify fun r => { r with ticks := r.ticks + 1 } : PyM Unit) :=
    commutes_modify fun _ => rfl
  have hread (r : Runtime) : (r.prepended l s n).ticks = r.ticks := rfl
  exact commutes_read hread fun ticks =>
    commutes_bind htick fun _ => commutes_pure (env.clock ticks)

theorem blind_maybeTransitionToHalfOpen : Blind (maybeTransitionToHalfOpen env d) := by
  apply blind_bind (blind_getBreaker d)
  intro b
  split
  · apply blind_bind (blind_monotonic env)
    intro now
    split
    · exact blind_bind (blind_emit _) fun _ => blind_setBreaker d _
    · exact blind_pure ()
  · exact blind_pure ()

theorem blind_recordFailure : Blind (recordFailure env d) := by
  apply blind_bind (blind_getBreaker d)
  intro b
  split
  · apply blind_bind (blind_monotonic env)
    intro now
    exact blind_bind (blind_setBreaker d _) fun _ => blind_emit _
  · exact blind_setBreaker d _

theorem blind_recordSuccess : Blind (recordSuccess d) := by
  apply blind_bind (blind_getBreaker d)
  intro b
  dsimp only
  split
  · exact blind_bind (blind_emit _) fun _ => blind_setBreaker d _
  · exact blind_setBreaker d _

theorem blind_call {fn : PyM α} (hfn : Blind fn) : Blind (CircuitBreaker.call env d fn) := by
  apply blind_bind (blind_maybeTransitionToHalfOpen env d)
  intro _
  apply blind_bind (blind_getBreaker d)
  intro b
  split
  · exact blind_raise _
  · apply blind_tryElse hfn
    · intro e
      exact blind_bind (blind_recordFailure env d) fun _ => blind_raise e
    · intro a
      exact blind_bind (blind_recordSuccess d) fun _ => blind_pure a

theorem blind_retryAgain {fn : PyM α} (hfn : Blind fn) (n : ℕ) : Blind (retryAgain fn n) := by
  induction n with
  | zero => exact hfn
  | succ n ih => exact blind_tryElse hfn (fun _ => ih) blind_pure

theorem blind_innerInvoke (messages : List Message) : Blind (innerInvoke env messages) := by
  intro l s n
  have hcount : Commutes (Runtime.prepended l s n)
      (Py.modify fun r => { r with chatCalls := r.chatCalls + 1 } : PyM Unit) :=
    commutes_modify fun _ => rfl
  have hread (r : Runtime) : (r.prepended l s n).chatCalls = r.chatCalls := rfl
  exact commutes_read hread fun calls =>
    commutes_bind hcount fun _ => commutes_lift (env.chat calls messages)

theorem blind_invokeChat (messages : List Message) : Blind (invokeChat env messages) :=
  blind_retryAgain (blind_call env .llm (blind_innerInvoke env messages)) 2

theorem blind_sanitizeUntrustedText (text source : String) :
    Blind (sanitizeUntrustedText env text source) := by
  unfold sanitizeUntrustedText
  split
  · exact blind_bind (blind_emit _) fun _ => blind_pure _
  · exact blind_pure _

theorem blind_requestReport (applicantFullName : String) :
    Blind (requestReport env applicantFullName) :=
  blind_bind (blind_emit _) fun _ => blind_bind (blind_call env .creditBureau (blind_pure _))
    fun _ => blind_bind (blind_emit _) fun _ => blind_pure _

theorem blind_getCreditReport (applicantFullName : String) :
    Blind (getCreditReport env applicantFullName) :=
  blind_retryAgain (blind_requestReport env applicantFullName) 2

end Calls

end Underwriting
