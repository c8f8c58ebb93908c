import Underwriting.Infrastructure.LoggingConfig
import Underwriting.DurableGraph.Recovery
import Underwriting.Service.ApplicationService

/-!
# What every node does to the process

Whatever a node of the graph is given, it changes the process only by writing plain records,
asking the model, requesting credit reports and closing spans. So a property of the process that
these keep, `Lasting`, is kept by every node from every state and by every call of the graph:
`Lasting.node`, `Lasting.maintains`. The model and the bureau are in turn reached by moving
breakers, reading the clock and counting the calls, and a property that these primitives keep,
`Closed`, is lasting.
-/

namespace Underwriting

open Python Python.Py DurableGraph

/-- What a call of the dependency does around its function keeps `I`. -/
structure Around (d : Dependency) (I : Runtime → Prop) : Prop where
  emit : ∀ {r} record, Plain record → I r → I { r with log := r.log ++ [record] }
  breaker : ∀ {r} b, I r → I { r with breakers := Function.update r.breakers d b }
  clock : ∀ {r}, I r → I { r with ticks := r.ticks + 1 }

/-- The primitives by which a call changes the process keep `I`. -/
structure Closed (I : Runtime → Prop) : Prop where
  emit : ∀ {r} record, Plain record → I r → I { r with log := r.log ++ [record] }
  breakers : ∀ {r} breakers, I r → I { r with breakers := breakers }
  clock : ∀ {r}, I r → I { r with ticks := r.ticks + 1 }
  chat : ∀ {r}, I r → I { r with chatCalls := r.chatCalls + 1 }
  spans : ∀ {r} spans, I r → I { r with spans := spans }
  uuids : ∀ {r}, I r → I { r with uuids := r.uuids + 1 }

theorem Closed.around {I : Runtime → Prop} (h : Closed I) (d : Dependency) : Around d I where
  emit record hplain hr := h.emit record hplain hr
  breaker _ hr := h.breakers _ hr
  clock hr := h.clock hr

/-- A record whose entries have the given names is plain. -/
theorem plain_of_keys {record : LogRecord} (keys : List String)
    (hkeys : record.extra.map Prod.fst = keys)
    (h : keys.Nodup ∧ ∀ key ∈ keys, skipsEntry key = false ∧ key ∉ formatterKeys) :
    Plain record := by
  subst hkeys
  exact ⟨h.1, h.2⟩

/-! ## External calls -/

namespace Around

variable {d : Dependency} {I : Runtime → Prop} (h : Around d I) {α : Type} (env : Env)

include h

theorem keeps_emit {record : LogRecord} (hplain : Plain record) :
    Keeps I (Underwriting.emit record) :=
  keeps_modify fun _ hr => h.emit record hplain hr

theorem keeps_monotonic : Keeps I (monotonic env) :=
  keeps_bind keeps_state fun _ => keeps_bind (keeps_modify fun _ hr => h.clock hr)
    fun _ => keeps_pure _

omit h in
theorem keeps_getBreaker : Keeps I (getBreaker d) :=
  keeps_bind keeps_state fun _ => keeps_pure _

theorem keeps_setBreaker (b : CircuitBreaker) : Keeps I (setBreaker d b) :=
  keeps_modify fun _ hr => h.breaker b hr

theorem keeps_breakerLog (level message name : String) :
    Keeps I (resilienceLog level message [("breaker", .str name)]) :=
  h.keeps_emit (plain_of_keys ["breaker"] rfl (by decide))

theorem keeps_maybeTransitionToHalfOpen : Keeps I (maybeTransitionToHalfOpen env d) := by
  refine keeps_bind keeps_getBreaker fun b => ?_
  split
  · refine keeps_bind (h.keeps_monotonic env) fun now => ?_
    split
    · exact keeps_bind (h.keeps_breakerLog _ _ _) fun _ => h.keeps_setBreaker _
    · exact keeps_pure _
  · exact keeps_pure _

theorem keeps_recordFailure : Keeps I (recordFailure env d) := by
  refine keeps_bind keeps_getBreaker fun b => ?_
  split
  · refine keeps_bind (h.keeps_monotonic env) fun now => ?_
    refine keeps_bind (h.keeps_setBreaker _) fun _ => ?_
    exact h.keeps_emit (plain_of_keys ["breaker", "consecutive_failures"] rfl (by decide))
  · exact h.keeps_setBreaker _

theorem keeps_recordSuccess : Keeps I (recordSuccess d) := by
  refine keeps_bind keeps_getBreaker fun b => ?_
  dsimp only
  split
  · exact keeps_bind (h.keeps_breakerLog _ _ _) fun _ => h.keeps_setBreaker _
  · exact h.keeps_setBreaker _

theorem keeps_call {fn : PyM α} (hfn : Keeps I fn) : Keeps I (CircuitBreaker.call env d fn) := by
  refine keeps_bind (h.keeps_maybeTransitionToHalfOpen env) fun _ => ?_
  refine keeps_bind keeps_getBreaker fun b => ?_
  split
  · exact keeps_raise _
  · exact keeps_tryElse hfn
      (fun _ => keeps_bind (h.keeps_recordFailure env) fun _ => keeps_raise _)
      fun _ => keeps_bind h.keeps_recordSuccess fun _ => keeps_pure _

end Around

theorem keeps_attempts {I : Runtime → Prop} {α : Type} {fn : PyM α} (hfn : Keeps I fn)
    (n : ℕ) : Keeps I (retryAgain fn n) := by
  induction n with
  | zero => exact hfn
  | succ n ih => exact keeps_tryElse hfn (fun _ => ih) fun _ => keeps_pure _

theorem Around.keeps_getCreditReport {I : Runtime → Prop} (h : Around .creditBureau I) (env : Env)
    (name : String) : Keeps I (getCreditReport env name) := by
  have hrequest : Keeps I (requestReport env name) := by
    refine keeps_bind (h.keeps_emit (plain_of_keys ["applicant"] rfl (by decide))) fun _ => ?_
    refine keeps_bind (h.keeps_call env (keeps_pure _)) fun report => ?_
    exact keeps_bind (h.keeps_emit (plain_of_keys ["applicant", "credit_band"] rfl (by decide)))
      fun _ => keeps_pure _
  exact keeps_attempts hrequest 2

theorem Closed.keeps_invokeChat {I : Runtime → Prop} (h : Closed I) (env : Env)
    (messages : List Message) : Keeps I (invokeChat env messages) := by
  have hinner : Keeps I (innerInvoke env messages) :=
    keeps_bind keeps_state fun _ => keeps_bind (keeps_modify fun _ hr => h.chat hr)
      fun _ => keeps_lift _
  exact keeps_attempts ((h.around .llm).keeps_call env hinner) 2

/-- What a call reaches the outside with keeps `I`. -/
structure Lasting (env : Env) (I : Runtime → Prop) : Prop where
  emit : ∀ {r} record, Plain record → I r → I { r with log := r.log ++ [record] }
  chat : ∀ messages, Keeps I (invokeChat env messages)
  report : ∀ name, Keeps I (getCreditReport env name)
  spans : ∀ {r} spans, I r → I { r with spans := spans }
  uuids : ∀ {r}, I r → I { r with uuids := r.uuids + 1 }

theorem Closed.lasting {I : Runtime → Prop} (h : Closed I) (env : Env) : Lasting env I where
  emit record hplain hr := h.emit record hplain hr
  chat messages := h.keeps_invokeChat env messages
  report name := (h.around .creditBureau).keeps_getCreditReport env name
  spans spans hr := h.spans spans hr
  uuids hr := h.uuids hr

namespace Lasting

variable {env : Env} {I : Runtime → Prop} (h : Lasting env I) {α : Type}

include h

theorem keeps_emit {record : LogRecord} (hplain : Plain record) :
    Keeps I (Underwriting.emit record) :=
  keeps_modify fun _ hr => h.emit record hplain hr

theorem keeps_sanitizeUntrustedText (text source : String) :
    Keeps I (sanitizeUntrustedText env text source) := by
  unfold sanitizeUntrustedText
  split
  · exact keeps_bind (h.keeps_emit (plain_of_keys ["source"] rfl (by decide)))
      fun _ => keeps_pure _
  · exact keeps_pure _

theorem keeps_recordAuditEvent (applicationId correlationId actor action : String)
    (details : List (String × Json)) :
    Keeps I (recordAuditEvent env applicationId correlationId actor action details) :=
  keeps_bind (h.keeps_emit (plain_of_keys ["audit"] rfl (by decide))) fun _ => keeps_pure _

theorem keeps_startSpan (name applicationId : String) {body : PyM (α × List (String × Json))}
    (hbody : Keeps I body) : Keeps I (startSpan name applicationId body) := by
  have hclose (span : Span) : Keeps I (Py.modify fun r : Runtime =>
      { r with spans := r.spans ++ [span] } : PyM Unit) := keeps_modify fun _ hr => h.spans _ hr
  exact keeps_tryElse hbody (fun _ => keeps_bind (hclose _) fun _ => keeps_raise _)
    fun _ => keeps_bind (hclose _) fun _ => keeps_pure _

/-! ## Nodes -/

omit h in
theorem keeps_stateKey (key : String) (value : Option Json) : Keeps I (stateKey key value) :=
  keeps_lift _

theorem node (n : Node) (v : Option Json) (s : UnderwritingState) :
    Keeps I (runNode env n v s) := by
  cases n with
  | intake =>
      refine keeps_bind (h.keeps_startSpan _ _ ?_) fun _ => keeps_pure _
      exact keeps_bind (keeps_lift _) fun _ =>
          keeps_bind (h.keeps_recordAuditEvent _ _ _ _ _) fun _ => keeps_pure _
  | documentExtractionAgent =>
      refine keeps_bind (h.keeps_startSpan _ _ ?_) fun _ => keeps_pure _
      exact keeps_bind (keeps_lift _) fun _ =>
          keeps_bind (h.keeps_sanitizeUntrustedText _ _) fun _ =>
            keeps_bind (h.chat _) fun _ => keeps_bind (keeps_lift _) fun _ =>
              keeps_bind (h.keeps_recordAuditEvent _ _ _ _ _) fun _ => keeps_pure _
  | riskScoringAgent =>
      refine keeps_bind (h.keeps_startSpan _ _ ?_) fun _ => keeps_pure _
      exact keeps_bind (keeps_lift _) fun _ => keeps_bind (keeps_stateKey _ _) fun _ =>
          keeps_bind (keeps_lift _) fun _ => keeps_bind (h.report _) fun _ =>
            keeps_bind (keeps_lift _) fun _ =>
              keeps_bind (h.keeps_recordAuditEvent _ _ _ _ _) fun _ => keeps_pure _
  | policyComplianceAgent =>
      refine keeps_bind (h.keeps_startSpan _ _ ?_) fun _ => keeps_pure _
      exact keeps_bind (keeps_lift _) fun _ => keeps_bind (keeps_stateKey _ _) fun _ =>
          keeps_bind (keeps_lift _) fun _ => keeps_bind (keeps_stateKey _ _) fun _ =>
            keeps_bind (keeps_lift _) fun _ =>
              keeps_bind (h.keeps_recordAuditEvent _ _ _ _ _) fun _ => keeps_pure _
  | humanEscalation =>
      refine keeps_bind (keeps_stateKey _ _) fun _ => keeps_bind (keeps_stateKey _ _) fun _ =>
        keeps_bind ?_ fun _ => keeps_bind ?_ fun _ => keeps_bind ?_ fun _ => keeps_pure _
      · refine h.keeps_startSpan _ _ ?_
        exact keeps_bind (keeps_lift _) fun _ =>
          keeps_bind (h.keeps_recordAuditEvent _ _ _ _ _) fun _ => keeps_pure _
      · cases v with
        | none => exact keeps_raise _
        | some x => exact keeps_pure _
      · refine h.keeps_startSpan _ _ ?_
        exact keeps_bind (keeps_lift _) fun _ =>
          keeps_bind (h.keeps_recordAuditEvent _ _ _ _ _) fun _ => keeps_pure _
  | explainabilityAgent =>
      refine keeps_bind (h.keeps_startSpan _ _ ?_) fun _ => keeps_pure _
      exact keeps_bind (keeps_lift _) fun _ => keeps_bind (keeps_stateKey _ _) fun _ =>
          keeps_bind (keeps_lift _) fun _ => keeps_bind (keeps_stateKey _ _) fun _ =>
            keeps_bind (keeps_lift _) fun _ => keeps_bind (keeps_lift _) fun _ =>
              keeps_bind (h.chat _) fun _ => keeps_bind (keeps_lift _) fun _ =>
                keeps_bind (h.keeps_recordAuditEvent _ _ _ _ _) fun _ => keeps_pure _
  | decisionOutput =>
      refine keeps_bind (keeps_stateKey _ _) fun _ => keeps_bind ?_ fun _ => keeps_pure _
      refine h.keeps_startSpan _ _ ?_
      exact keeps_bind (keeps_lift _) fun _ =>
        keeps_bind (h.keeps_recordAuditEvent _ _ _ _ _) fun _ => keeps_pure _

/-- A node leaves a process with `I`, whatever it returns or raises. -/
theorem of_node {n : Node} {v : Option Json} {s : UnderwritingState} {r r' : Runtime}
    {out : Except Exn StateUpdate} (hr : I r) (hnode : (graph env).node n v s r = (out, r')) :
    I r' := by
  have hkept := h.node n v s r hr
  rwa [show runNode env n v s r = _ from hnode] at hkept

/-- So every call of the graph keeps it, however many nodes are executed. -/
theorem maintains : (graph env).Maintains (fun _ => True) fun _ r => I r where
  returned hr _ hnode := h.of_node hr hnode
  interrupted hr _ hnode _ := h.of_node hr hnode
  raised hr _ hnode := h.of_node hr hnode
  stopped hr := hr

end Lasting

/-! ## The log -/

/-- The log of `r` goes on where that of `r₀` ends, and only with plain records. -/
def Logs (r₀ r : Runtime) : Prop :=
  ∃ records, r.log = r₀.log ++ records ∧ ∀ record ∈ records, Plain record

namespace Logs

theorem refl (r : Runtime) : Logs r r := ⟨[], (List.append_nil _).symm, by simp⟩

theorem trans {r₀ r r' : Runtime} (h : Logs r₀ r) (h' : Logs r r') : Logs r₀ r' := by
  obtain ⟨records, hlog, hplain⟩ := h
  obtain ⟨records', hlog', hplain'⟩ := h'
  refine ⟨records ++ records', by rw [hlog', hlog, List.append_assoc], ?_⟩
  intro record hrecord
  rcases List.mem_append.1 hrecord with hrecord | hrecord
  · exact hplain record hrecord
  · exact hplain' record hrecord

theorem emit {record : LogRecord} (hplain : Plain record) (r : Runtime) :
    Logs r { r with log := r.log ++ [record] } :=
  ⟨[record], rfl, by simpa using hplain⟩

theorem closed (r₀ : Runtime) : Closed (Logs r₀) where
  emit _ hplain hr := hr.trans (emit hplain _)
  breakers _ hr := hr
  clock hr := hr
  chat hr := hr
  spans _ hr := hr
  uuids hr := hr

end Logs

/-! ## Events in the log -/

/-- The log of `r` goes on where that of `r₀` ends, and it has taken the events in, in order. -/
def Wrote (r₀ : Runtime) (events : List AuditEvent) (r : Runtime) : Prop :=
  ∃ records, r.log = r₀.log ++ records ∧
    (events.map AuditEvent.toRecord).Sublist records

namespace Wrote

variable {r₀ : Runtime} {events : List AuditEvent} (env : Env)

theorem refl (r : Runtime) : Wrote r [] r := ⟨[], (List.append_nil _).symm, .slnil⟩

theorem emit {r : Runtime} (record : LogRecord) (h : Wrote r₀ events r) :
    Wrote r₀ events { r with log := r.log ++ [record] } := by
  obtain ⟨records, hlog, hevents⟩ := h
  exact ⟨records ++ [record], by simp only [hlog, List.append_assoc],
    hevents.trans (List.sublist_append_left _ _)⟩

variable (r₀ events) in
theorem closed : Closed (Wrote r₀ events) where
  emit record _ hr := hr.emit record
  breakers _ hr := hr
  clock hr := hr
  chat hr := hr
  spans _ hr := hr
  uuids hr := hr

theorem triple_recordAuditEvent (applicationId correlationId actor action : String)
    (details : List (String × Json)) :
    Triple (Wrote r₀ events)
      (recordAuditEvent env applicationId correlationId actor action details)
      fun e => Wrote r₀ (events ++ [e]) := by
  intro r e r' ⟨records, hlog, hevents⟩ hrun
  cases hrun
  let event := auditEvent env applicationId correlationId actor action details
  refine ⟨records ++ [event.toRecord], ?_, ?_⟩
  · simp only [hlog, List.append_assoc, event]
  · rw [List.map_append, List.map_singleton]
    exact hevents.append (List.Sublist.refl _)

/-- Closing a span writes nothing. -/
theorem triple_startSpan {α : Type} (r₀ : Runtime) (e : α → List AuditEvent) {I : Runtime → Prop}
    (name applicationId : String) {body : PyM (α × List (String × Json))}
    (hbody : Triple I body fun out => Wrote r₀ (e out.1)) :
    Triple I (startSpan name applicationId body) fun out => Wrote r₀ (e out.1) := by
  refine triple_tryElse hbody (fun _ => fails_bind_right _ fun _ => fails_raise _) fun out => ?_
  have hclose (span : Span) : Keeps (Wrote r₀ (e out.1)) (Py.modify fun r : Runtime =>
      { r with spans := r.spans ++ [span] } : PyM Unit) :=
    keeps_modify fun _ hr => (closed r₀ (e out.1)).spans _ hr
  exact triple_bind_right (hclose _) fun _ => triple_pure fun _ hr => hr

/-- The end of the body of a span: an event is logged and returned. -/
theorem triple_recorded {α : Type} (id corr actor action : String) (details : List (String × Json))
    (attributes : AuditEvent → List (String × Json)) (x : α) :
    Triple (Wrote r₀ events) (do
      let audit ← recordAuditEvent env id corr actor action details
      pure ((x, audit), attributes audit)) fun out => Wrote r₀ (events ++ [out.1.2]) :=
  triple_bind (triple_recordAuditEvent env _ _ _ _ _) fun _ => triple_pure fun _ hr => hr

/-! ### The events of a node -/

section Nodes

variable (s : UnderwritingState)

theorem triple_intakeNode :
    Triple (Wrote r₀ []) (intakeNode env s) fun u => Wrote r₀ u.auditTrail := by
  refine triple_bind (triple_startSpan r₀ (fun out => [out.2]) _ _ ?_)
    fun _ => triple_pure fun _ hr => hr
  exact triple_bind_right (keeps_lift _) fun _ => triple_recorded env _ _ _ _ _ _ _

theorem triple_documentExtractionNode :
    Triple (Wrote r₀ []) (documentExtractionNode env s) fun u => Wrote r₀ u.auditTrail := by
  have hkept := (closed r₀ []).lasting env
  refine triple_bind (triple_startSpan r₀ (fun out => [out.2]) _ _ ?_)
    fun _ => triple_pure fun _ hr => hr
  exact triple_bind_right (keeps_lift _) fun _ =>
    triple_bind_right (hkept.keeps_sanitizeUntrustedText _ _) fun _ =>
      triple_bind_right (hkept.chat _) fun _ =>
        triple_bind_right (keeps_lift _) fun _ => triple_recorded env _ _ _ _ _ _ _

theorem triple_riskScoringNode :
    Triple (Wrote r₀ []) (riskScoringNode env s) fun u => Wrote r₀ u.auditTrail := by
  have hkept := (closed r₀ []).lasting env
  refine triple_bind (triple_startSpan r₀ (fun out => [out.2]) _ _ ?_)
    fun _ => triple_pure fun _ hr => hr
  exact triple_bind_right (keeps_lift _) fun _ =>
    triple_bind_right (Lasting.keeps_stateKey _ _) fun _ =>
      triple_bind_right (keeps_lift _) fun _ =>
        triple_bind_right (hkept.report _) fun _ =>
          triple_bind_right (keeps_lift _) fun _ => triple_recorded env _ _ _ _ _ _ _

theorem triple_policyComplianceNode :
    Triple (Wrote r₀ []) (policyComplianceNode env s) fun u => Wrote r₀ u.auditTrail := by
  refine triple_bind (triple_startSpan r₀ (fun out => [out.2]) _ _ ?_)
    fun _ => triple_pure fun _ hr => hr
  exact triple_bind_right (keeps_lift _) fun _ =>
    triple_bind_right (Lasting.keeps_stateKey _ _) fun _ =>
      triple_bind_right (keeps_lift _) fun _ =>
        triple_bind_right (Lasting.keeps_stateKey _ _) fun _ =>
          triple_bind_right (keeps_lift _) fun _ => triple_recorded env _ _ _ _ _ _ _

/-- A resumed node has logged two events. -/
theorem triple_humanEscalationNode (v : Option Json) :
    Triple (Wrote r₀ []) (humanEscalationNode env v s) fun u => Wrote r₀ u.auditTrail := by
  refine triple_bind_right (Lasting.keeps_stateKey _ _) fun _ =>
    triple_bind_right (Lasting.keeps_stateKey _ _) fun _ =>
      triple_bind (triple_startSpan r₀ (fun out => [out.2]) _ _ ?_) fun request =>
        triple_bind_right ?_ fun _ =>
          triple_bind (triple_startSpan r₀ (fun out => [request.1.2, out.2]) _ _ ?_)
            fun _ => triple_pure fun _ hr => hr
  · exact triple_bind_right (keeps_lift _) fun _ => triple_recorded env _ _ _ _ _ _ _
  · cases v with
    | none => exact keeps_raise _
    | some x => exact keeps_pure _
  · exact triple_bind_right (keeps_lift _) fun _ => triple_recorded env _ _ _ _ _ _ _

theorem triple_explainabilityNode :
    Triple (Wrote r₀ []) (explainabilityNode env s) fun u => Wrote r₀ u.auditTrail := by
  have hkept := (closed r₀ []).lasting env
  refine triple_bind (triple_startSpan r₀ (fun out => [out.2]) _ _ ?_)
    fun _ => triple_pure fun _ hr => hr
  exact triple_bind_right (keeps_lift _) fun _ =>
    triple_bind_right (Lasting.keeps_stateKey _ _) fun _ =>
      triple_bind_right (keeps_lift _) fun _ =>
        triple_bind_right (Lasting.keeps_stateKey _ _) fun _ =>
          triple_bind_right (keeps_lift _) fun _ =>
            triple_bind_right (keeps_lift _) fun _ =>
              triple_bind_right (hkept.chat _) fun _ =>
                triple_bind_right (keeps_lift _) fun _ => triple_recorded env _ _ _ _ _ _ _

theorem triple_decisionOutputNode :
    Triple (Wrote r₀ []) (decisionOutputNode env s) fun u => Wrote r₀ u.auditTrail := by
  refine triple_bind_right (Lasting.keeps_stateKey _ _) fun _ =>
    triple_bind (triple_startSpan r₀ (fun audit => [audit]) _ _ ?_)
      fun _ => triple_pure fun _ hr => hr
  exact triple_bind_right (keeps_lift _) fun _ =>
    triple_bind (triple_recordAuditEvent env _ _ _ _ _) fun _ => triple_pure fun _ hr => hr

/-- A node has logged the events that it adds to the trail. -/
theorem triple_node (n : Node) (v : Option Json) :
    Triple (Wrote r₀ []) (runNode env n v s) fun u => Wrote r₀ u.auditTrail := by
  cases n with
  | intake => exact triple_intakeNode env s
  | documentExtractionAgent => exact triple_documentExtractionNode env s
  | riskScoringAgent => exact triple_riskScoringNode env s
  | policyComplianceAgent => exact triple_policyComplianceNode env s
  | humanEscalation => exact triple_humanEscalationNode env s v
  | explainabilityAgent => exact triple_explainabilityNode env s
  | decisionOutput => exact triple_decisionOutputNode env s

end Nodes

end Wrote

end Underwriting
