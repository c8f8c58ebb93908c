import Underwriting.Infrastructure.CreditBureau
import Underwriting.Service.State

/-!
# The nodes

Each node validates the slices of the state it needs, does its work inside a span,
records an audit event and returns an update. `humanEscalationNode` is the one that can
pause: up to `interrupt` it runs each time the node is executed, so also when a
reviewer resumes it.
-/

namespace Underwriting

open Python

/-- `state[key]`. -/
def stateKey (key : String) (value : Option Json) : PyM Json :=
  Py.lift (value.elim (.error (.keyError key)) .ok)

def intakeNode (env : Env) (state : UnderwritingState) : PyM StateUpdate := do
  let ((application, audit), span) ← startSpan "intake" state.applicationId do
    let application ← Py.lift (LoanApplication.modelValidate state.application)
    let audit ← recordAuditEvent env state.applicationId state.correlationId
      "intake" "application_received"
      [("loan_purpose", .str application.loanPurpose.value),
        ("requested_amount", .float application.requestedAmount),
        ("employment_status", .str application.employmentStatus.value)]
    pure ((application, audit), [("loan_purpose", .str application.loanPurpose.value)])
  pure {
    application := some application.modelDump
    status := some "in_progress"
    auditTrail := [audit]
    traceSpans := [span] }

/-! ## Document extraction -/

def extractionSystemPrompt : String :=
  extractionTaskMarker ++ "\n" ++
    "You are a financial document extraction assistant for a synthetic " ++
    "bank demo (Northbridge Financial Group, fictional). Extract " ++
    "monthly_gross_income, monthly_net_income, " ++
    "existing_monthly_debt_payments, employer_name, and pay_frequency " ++
    "from the applicant's submitted document text below. Respond ONLY " ++
    "with a single JSON object matching those field names."

def extractionMessages (safeDocumentText : String) : List Message :=
  [.system extractionSystemPrompt, .human ⟨safeDocumentText, none⟩]

/-- `ExtractedFinancials.model_validate_json`. -/
def validateExtraction (reply : Content) : Except Exn ExtractedFinancials :=
  reply.json.elim (.error (.validationError "ExtractedFinancials" ""))
    ExtractedFinancials.modelValidate

def documentExtractionNode (env : Env) (state : UnderwritingState) : PyM StateUpdate := do
  let ((extracted, audit), span) ← startSpan "document_extraction_agent" state.applicationId do
    let application ← Py.lift (LoanApplication.modelValidate state.application)
    let safeDocumentText ← sanitizeUntrustedText env application.rawFinancialDocumentText
      "raw_financial_document_text"
    let reply ← invokeChat env (extractionMessages safeDocumentText)
    let extracted ← Py.lift (validateExtraction reply)
    let audit ← recordAuditEvent env state.applicationId state.correlationId
      "document_extraction_agent" "financials_extracted"
      [("extraction_confidence", .float extracted.extractionConfidence),
        ("monthly_gross_income", .float extracted.monthlyGrossIncome),
        ("existing_monthly_debt_payments", .float extracted.existingMonthlyDebtPayments)]
    pure ((extracted, audit),
      [("extraction_confidence", .float extracted.extractionConfidence)])
  pure {
    extractedFinancials := some extracted.modelDump
    auditTrail := [audit]
    traceSpans := [span] }

/-! ## Risk scoring -/

/-- The extracted income, or a twelfth of the stated one when the former is zero. -/
def monthlyIncome (application : LoanApplication) (extracted : ExtractedFinancials) : ℚ :=
  if extracted.monthlyGrossIncome = 0 then application.statedAnnualIncome / 12
  else extracted.monthlyGrossIncome

/-- The assessment the node builds from a credit report. -/
def assess (settings : Settings) (application : LoanApplication)
    (extracted : ExtractedFinancials) (report : CreditBureauReport) : RiskAssessment :=
  let dti := computeDebtToIncomeRatio (monthlyIncome application extracted)
    extracted.existingMonthlyDebtPayments
  let tier := classifyRiskTier dti report.creditBand settings
  { debtToIncomeRatio := dti
    creditReport := report
    riskTier := tier
    requiresHumanEscalation := tier = .borderline
    rationaleFactors := buildRationaleFactors dti report.creditBand report.creditScore
    ratio_nonneg := computeDebtToIncomeRatio_nonneg extracted.debt_nonneg }

/-- The quotient of two infinities is no number. One infinity alone leaves an assessment that
`RiskAssessment` accepts, of which `assess` has the exact ratio. -/
def Unscorable (arithmetic : Arithmetic) (application : LoanApplication)
    (extracted : ExtractedFinancials) : Prop :=
  arithmetic.isInf (monthlyIncome application extracted) = true ∧
    arithmetic.isInf extracted.existingMonthlyDebtPayments = true

instance (arithmetic : Arithmetic) (application : LoanApplication)
    (extracted : ExtractedFinancials) : Decidable (Unscorable arithmetic application extracted) :=
  inferInstanceAs (Decidable (_ ∧ _))

/-- None of the figures is an infinity. -/
structure ExtractedFinancials.Finite (arithmetic : Arithmetic) (x : ExtractedFinancials) :
    Prop where
  gross : arithmetic.isInf x.monthlyGrossIncome = false
  net : arithmetic.isInf x.monthlyNetIncome = false
  debt : arithmetic.isInf x.existingMonthlyDebtPayments = false

theorem ExtractedFinancials.Finite.scorable {arithmetic : Arithmetic} {x : ExtractedFinancials}
    (h : x.Finite arithmetic) (application : LoanApplication) :
    ¬ Unscorable arithmetic application x := by
  intro hunscorable
  have hdebt := hunscorable.2
  rw [h.debt] at hdebt
  cases hdebt

/-- What pydantic makes of it. -/
def unscored : Exn := .validationError "RiskAssessment" "debt_to_income_ratio"

/-- `RiskAssessment(...)`, whose ratio must be at least zero, which nan is not. -/
def scoreRisk (env : Env) (application : LoanApplication) (extracted : ExtractedFinancials)
    (report : CreditBureauReport) : Except Exn RiskAssessment :=
  if Unscorable env.arithmetic application extracted then
    .error unscored
  else .ok (assess env.settings application extracted report)

def riskScoringNode (env : Env) (state : UnderwritingState) : PyM StateUpdate := do
  let ((risk, audit), span) ← startSpan "risk_scoring_agent" state.applicationId do
    let application ← Py.lift (LoanApplication.modelValidate state.application)
    let extractedDict ← stateKey "extracted_financials" state.extractedFinancials
    let extracted ← Py.lift (ExtractedFinancials.modelValidate extractedDict)
    let report ← getCreditReport env application.applicantFullName
    let risk ← Py.lift (scoreRisk env application extracted report)
    let audit ← recordAuditEvent env state.applicationId state.correlationId
      "risk_scoring_agent" "risk_scored"
      [("debt_to_income_ratio", .float risk.debtToIncomeRatio),
        ("risk_tier", .str risk.riskTier.value),
        ("credit_band", .str report.creditBand.value),
        ("credit_score", .int report.creditScore)]
    pure ((risk, audit),
      [("risk_tier", .str risk.riskTier.value), ("dti", .float risk.debtToIncomeRatio)])
  pure {
    riskAssessment := some risk.modelDump
    auditTrail := [audit]
    traceSpans := [span] }

/-! ## Policy and routing -/

def policyComplianceNode (env : Env) (state : UnderwritingState) : PyM StateUpdate := do
  let ((policy, audit), span) ← startSpan "policy_compliance_agent" state.applicationId do
    let application ← Py.lift (LoanApplication.modelValidate state.application)
    let extractedDict ← stateKey "extracted_financials" state.extractedFinancials
    let extracted ← Py.lift (ExtractedFinancials.modelValidate extractedDict)
    let riskDict ← stateKey "risk_assessment" state.riskAssessment
    let risk ← Py.lift (RiskAssessment.modelValidate riskDict)
    let policy := evaluatePolicy application extracted risk
    let audit ← recordAuditEvent env state.applicationId state.correlationId
      "policy_compliance_agent" "policy_evaluated"
      [("passed", .bool policy.passed),
        ("flag_codes", .ofStrings (policy.flags.map PolicyFlag.code))]
    pure ((policy, audit),
      [("passed", .bool policy.passed), ("flag_count", .int policy.flags.length)])
  pure {
    policyResult := some policy.modelDump
    auditTrail := [audit]
    traceSpans := [span] }

/-- The names of the nodes. -/
inductive Node where
  | intake | documentExtractionAgent | riskScoringAgent | policyComplianceAgent
  | humanEscalation | explainabilityAgent | decisionOutput
  deriving DecidableEq

/-- The conditional edge; both slices are there once the policy node has run. -/
def routeAfterPolicy (state : UnderwritingState) : Node :=
  let requiresEscalation :=
    (state.riskAssessment.bind (·.get? "requires_human_escalation")).any Json.truthy
  let passed := (state.policyResult.bind (·.get? "passed")).any Json.truthy
  if requiresEscalation ∨ ¬ passed then .humanEscalation else .explainabilityAgent

/-! ## Human escalation -/

/-- The codes of the blocking flags of a policy dict. -/
def blockingCodes (policy : Json) : List String :=
  (((policy.get? "flags").bind (Json.asList some)).getD []).filterMap fun f =>
    if ((f.get? "severity").bind Json.asStr) = some "block" then
      (f.get? "code").bind Json.asStr
    else none

/-- `escalation_payload`, read off the two dicts of the state. -/
def escalationPayload (applicationId : String) (risk policy : Json) :
    Except Exn (List (String × Json)) := do
  let requires ← item risk "requires_human_escalation" Json.asBool
  let tier ← item risk "risk_tier" Json.asStr
  let passed ← item policy "passed" Json.asBool
  let dti ← item risk "debt_to_income_ratio" Json.asFloat
  let report ← item risk "credit_report" some
  let band ← item report "credit_band" Json.asStr
  let codes := ", ".intercalate (blockingCodes policy)
  let reasons := (if requires then
      [s!"risk tier classified as '{tier}' (borderline band)"] else []) ++
    (if passed then [] else [s!"policy block flag(s): {codes}"])
  let reason := "; ".intercalate reasons
  let reason := if reason = "" then "escalation routing triggered" else reason
  let riskSummary := s!"debt_to_income_ratio={formatPercent dti 1}, credit_band={band}, " ++
    s!"risk_tier={tier}"
  pure [("reason", .str reason), ("risk_summary", .str riskSummary),
    ("application_id", .str applicationId)]

/-- `interrupt(payload)`: the resume value once there is one. -/
def interrupt (resume : Option Json) (payload : Json) : PyM Json :=
  resume.elim (Py.raise (.graphInterrupt payload)) pure

def humanEscalationNode (env : Env) (resume : Option Json) (state : UnderwritingState) :
    PyM StateUpdate := do
  let risk ← stateKey "risk_assessment" state.riskAssessment
  let policy ← stateKey "policy_result" state.policyResult
  let ((payload, requestAudit), requestSpan) ←
    startSpan "human_escalation_request" state.applicationId do
      let payload ← Py.lift (escalationPayload state.applicationId risk policy)
      let audit ← recordAuditEvent env state.applicationId state.correlationId
        "human_escalation" "escalation_requested" payload
      pure ((payload, audit), [])
  let resolutionInput ← interrupt resume (.obj payload)
  let ((resolution, resumeAudit), resumeSpan) ←
    startSpan "human_escalation_resume" state.applicationId do
      let resolution ← Py.lift (EscalationResolution.modelValidate resolutionInput)
      let audit ← recordAuditEvent env state.applicationId state.correlationId
        s!"human_reviewer:{resolution.reviewerId}" "escalation_resolved"
        [("approve", .bool resolution.approve), ("notes", .str resolution.notes)]
      pure ((resolution, audit), [("approve", .bool resolution.approve)])
  pure {
    escalationRequest := some (.obj payload)
    escalationResolution := some resolution.modelDump
    status := some "escalation_resolved"
    auditTrail := [requestAudit, resumeAudit]
    traceSpans := [requestSpan, resumeSpan] }

/-! ## Explanation and decision -/

def rationaleSystemPrompt : String :=
  rationaleTaskMarker ++ "\n" ++
    "Write a plain-English rationale for this credit decision. Cite ONLY " ++
    "the factors listed in permitted_factors_used. Do not invent factors " ++
    "not present in the payload. Respond in prose."

def rationalePayload (application : LoanApplication) (risk : RiskAssessment)
    (policy : PolicyResult) (resolution : Option EscalationResolution) : Json :=
  let (outcome, approvedAmount, _) := determineOutcome application risk policy resolution
  .obj [
    ("decision_outcome", .str outcome.value),
    ("debt_to_income_ratio", .float risk.debtToIncomeRatio),
    ("risk_tier", .str risk.riskTier.value),
    ("credit_band", .str risk.creditReport.creditBand.value),
    ("requested_amount", .float application.requestedAmount),
    ("approved_amount", .ofOption .float approvedAmount),
    ("permitted_factors_used", .ofStrings policy.permittedFactorsUsed),
    ("policy_flags", .arr (policy.flags.map PolicyFlag.modelDump)),
    ("escalation", .ofOption EscalationResolution.modelDump resolution)]

def rationaleMessages (payload : Json) : List Message :=
  [.system rationaleSystemPrompt, .human (.ofJson payload)]

/-- The stored resolution, when the key holds a nonempty dict. -/
def storedResolution (value : Option Json) : Except Exn (Option EscalationResolution) :=
  match value.filter Json.truthy with
  | none => .ok none
  | some j => (EscalationResolution.modelValidate j).map some

def explainabilityNode (env : Env) (state : UnderwritingState) : PyM StateUpdate := do
  let ((decision, audit), span) ← startSpan "explainability_agent" state.applicationId do
    let application ← Py.lift (LoanApplication.modelValidate state.application)
    let riskDict ← stateKey "risk_assessment" state.riskAssessment
    let risk ← Py.lift (RiskAssessment.modelValidate riskDict)
    let policyDict ← stateKey "policy_result" state.policyResult
    let policy ← Py.lift (PolicyResult.modelValidate policyDict)
    let resolution ← Py.lift (storedResolution state.escalationResolution)
    let (outcome, approvedAmount, reasons) := determineOutcome application risk policy resolution
    let reply ← invokeChat env
      (rationaleMessages (rationalePayload application risk policy resolution))
    let decision ← Py.lift
      (Decision.build outcome approvedAmount reply.text reasons (decidedBy resolution))
    let audit ← recordAuditEvent env state.applicationId state.correlationId
      "explainability_agent" "rationale_generated"
      [("outcome", .str outcome.value), ("decided_by", .str (decidedBy resolution))]
    pure ((decision, audit), [("outcome", .str outcome.value)])
  pure {
    decision := some decision.modelDump
    auditTrail := [audit]
    traceSpans := [span] }

def decisionOutputNode (env : Env) (state : UnderwritingState) : PyM StateUpdate := do
  let decision ← stateKey "decision" state.decision
  let (audit, span) ← startSpan "decision_output" state.applicationId do
    let outcome ← Py.lift (item decision "outcome" some)
    let audit ← recordAuditEvent env state.applicationId state.correlationId
      "decision_output" "decision_finalized" [("outcome", outcome)]
    pure (audit, [("outcome", outcome)])
  pure {
    status := some "completed"
    auditTrail := [audit]
    traceSpans := [span] }

end Underwriting
