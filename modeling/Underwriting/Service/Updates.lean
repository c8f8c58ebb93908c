import Underwriting.Infrastructure.Frame
import Underwriting.Service.Graph

/-!
# What a run writes

A run is identified by its submission, the application together with the generated
correlation id. What each node of the run writes is a function of the submission and of
the values the node has validated; here these functions are collected, one update for
each node, next to the two things a run asks of the chat model.

Two updates one after another are one update, so everything a run has written is again
an update, and merging it into the values the run started from gives the values of the
thread: `UnderwritingState.merge_append`.
-/

namespace Underwriting

open Python

/-! ## Updates in a row -/

namespace StateUpdate

/-- `u` followed by `v`. -/
def append (u v : StateUpdate) : StateUpdate where
  applicationId := v.applicationId.or u.applicationId
  correlationId := v.correlationId.or u.correlationId
  application := v.application.or u.application
  extractedFinancials := v.extractedFinancials.or u.extractedFinancials
  riskAssessment := v.riskAssessment.or u.riskAssessment
  policyResult := v.policyResult.or u.policyResult
  decision := v.decision.or u.decision
  escalationRequest := v.escalationRequest.or u.escalationRequest
  escalationResolution := v.escalationResolution.or u.escalationResolution
  auditTrail := u.auditTrail ++ v.auditTrail
  traceSpans := u.traceSpans ++ v.traceSpans
  status := v.status.or u.status

instance : Append StateUpdate := ⟨append⟩

theorem append_def (u v : StateUpdate) : u ++ v = u.append v := rfl

@[simp] theorem append_auditTrail (u v : StateUpdate) :
    (u ++ v).auditTrail = u.auditTrail ++ v.auditTrail := rfl

@[simp] theorem append_traceSpans (u v : StateUpdate) :
    (u ++ v).traceSpans = u.traceSpans ++ v.traceSpans := rfl

end StateUpdate

theorem UnderwritingState.merge_append (s : UnderwritingState) (u v : StateUpdate) :
    s.merge (u ++ v) = (s.merge u).merge v := by
  simp only [merge, StateUpdate.append_def, StateUpdate.append, Option.getD_or, Option.or_assoc,
    List.append_assoc]

/-! ## The trace in the process -/

/-- The process once the events and spans of an update have been logged. -/
def Runtime.noted (r : Runtime) (u : StateUpdate) : Runtime :=
  { r with log := r.log ++ u.auditTrail.map AuditEvent.toRecord, spans := r.spans ++ u.traceSpans }

theorem Runtime.noted_append (r : Runtime) (u v : StateUpdate) :
    r.noted (u ++ v) = (r.noted u).noted v := by
  simp only [noted, StateUpdate.append_auditTrail, StateUpdate.append_traceSpans,
    List.map_append, List.append_assoc]

@[simp] theorem Runtime.noted_breakers (r : Runtime) (u : StateUpdate) :
    (r.noted u).breakers = r.breakers := rfl

theorem audited_map_toRecord (events : List AuditEvent) :
    audited (events.map AuditEvent.toRecord) = events.map AuditEvent.toJson := by
  induction events with
  | nil => rfl
  | cons e events ih =>
      rw [List.map_cons, ← List.singleton_append, audited_append, audited_toRecord, ih]
      rfl

theorem Runtime.audited_noted (r : Runtime) (u : StateUpdate) :
    audited (r.noted u).log = audited r.log ++ u.auditTrail.map AuditEvent.toJson := by
  rw [noted, audited_append, audited_map_toRecord]

/-! ## Submissions -/

structure Submission where
  application : LoanApplication
  correlationId : String

namespace Submission

variable (k : Submission)

/-- The state belongs to the run of `k`. -/
structure Holds (s : UnderwritingState) : Prop where
  applicationId : s.applicationId = k.application.applicationId
  correlationId : s.correlationId = k.correlationId
  application : s.application = k.application.modelDump

def event (env : Env) (actor action : String) (details : List (String × Json)) : AuditEvent :=
  auditEvent env k.application.applicationId k.correlationId actor action details

def span (name : String) (attributes : List (String × Json)) : Span :=
  ⟨name, [("application_id", .str k.application.applicationId)] ++ attributes, "ok"⟩

/-- The process once a node of the run has raised inside its span. -/
def failed (name : String) (r : Runtime) : Runtime :=
  { r with
    spans := r.spans ++
      [⟨name, [("application_id", .str k.application.applicationId)], "error"⟩] }

end Submission

/-! ## What follows from an extraction -/

def riskFor (env : Env) (a : LoanApplication) (x : ExtractedFinancials) : RiskAssessment :=
  assess env.settings a x (fetchReport env a.applicantFullName)

def policyFor (env : Env) (a : LoanApplication) (x : ExtractedFinancials) : PolicyResult :=
  evaluatePolicy a x (riskFor env a x)

theorem policyFor_passed_eq_false_iff (env : Env) (a : LoanApplication)
    (x : ExtractedFinancials) :
    (policyFor env a x).passed = false ↔
      5 * a.statedAnnualIncome < a.requestedAmount ∨ x.extractionConfidence < 0.50 := by
  rw [← Bool.not_eq_true, policyFor, evaluatePolicy_passed_iff, overLeveraged_iff, not_and_or,
    not_not, not_le, minExtractionConfidence]

/-- The application goes to a reviewer. -/
def NeedsHuman (env : Env) (a : LoanApplication) (x : ExtractedFinancials) : Prop :=
  (riskFor env a x).requiresHumanEscalation = true ∨ (policyFor env a x).passed = false

instance (env : Env) (a : LoanApplication) (x : ExtractedFinancials) :
    Decidable (NeedsHuman env a x) :=
  inferInstanceAs (Decidable (_ ∨ _))

/-- A text that a decision accepts as its rationale. -/
abbrev Rationale := {text : String // 1 ≤ text.toList.length}

def decisionFor (env : Env) (a : LoanApplication) (x : ExtractedFinancials)
    (resolution : Option EscalationResolution) (rationale : Rationale) : Decision :=
  let (outcome, approvedAmount, reasons) :=
    determineOutcome a (riskFor env a x) (policyFor env a x) resolution
  ⟨outcome, approvedAmount, rationale, reasons, decidedBy resolution, rationale.property⟩

/-- What the reviewer is shown. -/
def escalationEntries (applicationId : String) (risk : RiskAssessment) (policy : PolicyResult) :
    List (String × Json) :=
  let codes := ", ".intercalate ((policy.flags.filter (·.severity = .block)).map PolicyFlag.code)
  let reasons := (if risk.requiresHumanEscalation then
      [s!"risk tier classified as '{risk.riskTier.value}' (borderline band)"] else []) ++
    (if policy.passed then [] else [s!"policy block flag(s): {codes}"])
  let reason := "; ".intercalate reasons
  let reason := if reason = "" then "escalation routing triggered" else reason
  let band := risk.creditReport.creditBand.value
  let riskSummary :=
    s!"debt_to_income_ratio={formatPercent risk.debtToIncomeRatio 1}, credit_band={band}, " ++
      s!"risk_tier={risk.riskTier.value}"
  [("reason", .str reason), ("risk_summary", .str riskSummary),
    ("application_id", .str applicationId)]

/-! ## The updates of the nodes -/

section Updates

variable (env : Env) (k : Submission)

def intakeUpdate : StateUpdate where
  application := some k.application.modelDump
  status := some "in_progress"
  auditTrail := [k.event env "intake" "application_received"
    [("loan_purpose", .str k.application.loanPurpose.value),
      ("requested_amount", .float k.application.requestedAmount),
      ("employment_status", .str k.application.employmentStatus.value)]]
  traceSpans := [k.span "intake" [("loan_purpose", .str k.application.loanPurpose.value)]]

def extractionUpdate (x : ExtractedFinancials) : StateUpdate where
  extractedFinancials := some x.modelDump
  auditTrail := [k.event env "document_extraction_agent" "financials_extracted"
    [("extraction_confidence", .float x.extractionConfidence),
      ("monthly_gross_income", .float x.monthlyGrossIncome),
      ("existing_monthly_debt_payments", .float x.existingMonthlyDebtPayments)]]
  traceSpans := [k.span "document_extraction_agent"
    [("extraction_confidence", .float x.extractionConfidence)]]

def riskUpdate (risk : RiskAssessment) : StateUpdate where
  riskAssessment := some risk.modelDump
  auditTrail := [k.event env "risk_scoring_agent" "risk_scored"
    [("debt_to_income_ratio", .float risk.debtToIncomeRatio),
      ("risk_tier", .str risk.riskTier.value),
      ("credit_band", .str risk.creditReport.creditBand.value),
      ("credit_score", .int risk.creditReport.creditScore)]]
  traceSpans := [k.span "risk_scoring_agent"
    [("risk_tier", .str risk.riskTier.value), ("dti", .float risk.debtToIncomeRatio)]]

def policyUpdate (policy : PolicyResult) : StateUpdate where
  policyResult := some policy.modelDump
  auditTrail := [k.event env "policy_compliance_agent" "policy_evaluated"
    [("passed", .bool policy.passed),
      ("flag_codes", .ofStrings (policy.flags.map PolicyFlag.code))]]
  traceSpans := [k.span "policy_compliance_agent"
    [("passed", .bool policy.passed), ("flag_count", .int policy.flags.length)]]

/-- The part of the escalation before `interrupt()`: an event and a span, but nothing
that is merged when the node pauses. -/
def escalationRequest (payload : List (String × Json)) : StateUpdate where
  auditTrail := [k.event env "human_escalation" "escalation_requested" payload]
  traceSpans := [k.span "human_escalation_request" []]

/-- The part after `interrupt()`. -/
def escalationResume (payload : List (String × Json)) (resolution : EscalationResolution) :
    StateUpdate where
  escalationRequest := some (.obj payload)
  escalationResolution := some resolution.modelDump
  status := some "escalation_resolved"
  auditTrail := [k.event env s!"human_reviewer:{resolution.reviewerId}" "escalation_resolved"
    [("approve", .bool resolution.approve), ("notes", .str resolution.notes)]]
  traceSpans := [k.span "human_escalation_resume" [("approve", .bool resolution.approve)]]

def escalationUpdate (payload : List (String × Json)) (resolution : EscalationResolution) :
    StateUpdate :=
  escalationRequest env k payload ++ escalationResume env k payload resolution

def explainabilityUpdate (decision : Decision) : StateUpdate where
  decision := some decision.modelDump
  auditTrail := [k.event env "explainability_agent" "rationale_generated"
    [("outcome", .str decision.outcome.value), ("decided_by", .str decision.decidedBy)]]
  traceSpans := [k.span "explainability_agent" [("outcome", .str decision.outcome.value)]]

def outputUpdate (outcome : DecisionOutcome) : StateUpdate where
  status := some "completed"
  auditTrail := [k.event env "decision_output" "decision_finalized"
    [("outcome", .str outcome.value)]]
  traceSpans := [k.span "decision_output" [("outcome", .str outcome.value)]]

end Updates

/-! ## What a run asks of the chat model -/

/-- The document is sanitized, sent to the model and the reply validated. -/
def readDocument (env : Env) (a : LoanApplication) : PyM ExtractedFinancials := do
  let safeDocumentText ← sanitizeUntrustedText env a.rawFinancialDocumentText
    "raw_financial_document_text"
  let reply ← invokeChat env (extractionMessages safeDocumentText)
  Py.lift (validateExtraction reply)

/-- A reply that `Decision` accepts as a rationale. -/
def acceptRationale (reply : Content) : Except Exn Rationale :=
  if h : 1 ≤ reply.text.toList.length then .ok ⟨reply.text, h⟩
  else .error (.validationError "Decision" "rationale")

def writeRationale (env : Env) (a : LoanApplication) (x : ExtractedFinancials)
    (resolution : Option EscalationResolution) : PyM Rationale := do
  let reply ← invokeChat env
    (rationaleMessages (rationalePayload a (riskFor env a x) (policyFor env a x) resolution))
  Py.lift (acceptRationale reply)

theorem isControl_of_validateExtraction (reply : Content) (e : Exn)
    (h : validateExtraction reply = .error e) : e.isControl = false := by
  rw [validateExtraction] at h
  cases hjson : reply.json with
  | none =>
      rw [hjson] at h
      cases h
      rfl
  | some j =>
      rw [hjson] at h
      exact ExtractedFinancials.isControl_of_modelValidate j e h

theorem raises_readDocument (env : Env) (a : LoanApplication) :
    Py.Raises (·.isControl = false) (readDocument env a) := by
  refine Py.raises_bind ?_ fun text => Py.raises_bind (raises_invokeChat env _) fun reply =>
    Py.raises_lift (isControl_of_validateExtraction reply)
  unfold sanitizeUntrustedText
  split
  · exact Py.raises_bind (Py.raises_modify _) fun _ => Py.raises_pure _
  · exact Py.raises_pure _

theorem raises_writeRationale (env : Env) (a : LoanApplication) (x : ExtractedFinancials)
    (resolution : Option EscalationResolution) :
    Py.Raises (·.isControl = false) (writeRationale env a x resolution) := by
  refine Py.raises_bind (raises_invokeChat env _) fun reply => Py.raises_lift fun e he => ?_
  rw [acceptRationale] at he
  split at he
  · cases he
  · cases he
    rfl

/-! ## What these leave alone -/

theorem readDocument_untouched (env : Env) (a : LoanApplication) (r : Runtime) :
    Untouched .llm r (readDocument env a r).2 := by
  have hkeeps : Py.Keeps (Untouched .llm r) (readDocument env a) :=
    Py.keeps_bind (keeps_sanitizeUntrustedText env _ _) fun _ =>
      Py.keeps_bind (keeps_invokeChat env _) fun _ => Py.keeps_lift _
  exact hkeeps r (.refl _ r)

theorem writeRationale_untouched (env : Env) (a : LoanApplication) (x : ExtractedFinancials)
    (resolution : Option EscalationResolution) (r : Runtime) :
    Untouched .llm r (writeRationale env a x resolution r).2 := by
  have hkeeps : Py.Keeps (Untouched .llm r) (writeRationale env a x resolution) :=
    Py.keeps_bind (keeps_invokeChat env _) fun _ => Py.keeps_lift _
  exact hkeeps r (.refl _ r)

end Underwriting
