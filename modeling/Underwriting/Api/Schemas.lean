import Underwriting.Service.ApplicationService

/-!
# Response models

The envelopes of the HTTP answers. An endpoint validates the dictionary that the service
returns against its envelope, slice by slice, and a slice that does not fit raises. The audit
trail and the spans are lists of dictionaries by construction.
-/

namespace Underwriting

open Python

namespace Api

/-- A field of type `dict[str, Any] | None`. -/
def dictOrNone (model name : String) : Option Json → Except Exn (Option (List (String × Json)))
  | none | some .null => .ok none
  | some (.obj entries) => .ok (some entries)
  | some _ => .error (.validationError model name)

/-- A field of a type that `dec` reads. -/
def typed {α : Type} (model name : String) (dec : Json → Option α) (value : Json) :
    Except Exn α :=
  (dec value).elim (.error (.validationError model name)) .ok

structure ApplicationStateResponse where
  applicationId : String
  status : String
  application : Option (List (String × Json))
  extractedFinancials : Option (List (String × Json))
  riskAssessment : Option (List (String × Json))
  policyResult : Option (List (String × Json))
  decision : Option (List (String × Json))
  pendingEscalation : Option (List (String × Json))
  escalationRequest : Option (List (String × Json))
  escalationResolution : Option (List (String × Json))
  auditTrail : List AuditEvent
  traceSpans : List Span

/-- `ApplicationStateResponse.model_validate`. -/
def ApplicationStateResponse.modelValidate (s : ApplicationSummary) :
    Except Exn ApplicationStateResponse := do
  let slice := dictOrNone "ApplicationStateResponse"
  let application ← slice "application" (some s.application)
  let extractedFinancials ← slice "extracted_financials" s.extractedFinancials
  let riskAssessment ← slice "risk_assessment" s.riskAssessment
  let policyResult ← slice "policy_result" s.policyResult
  let decision ← slice "decision" s.decision
  let pendingEscalation ← slice "pending_escalation" s.pendingEscalation
  let escalationRequest ← slice "escalation_request" s.escalationRequest
  let escalationResolution ← slice "escalation_resolution" s.escalationResolution
  pure ⟨s.applicationId, s.status, application, extractedFinancials, riskAssessment, policyResult,
    decision, pendingEscalation, escalationRequest, escalationResolution, s.auditTrail,
    s.traceSpans⟩

structure RationaleResponse where
  applicationId : String
  outcome : String
  rationale : String
  adverseActionReasons : List String
  decidedBy : String

/-- `RationaleResponse.model_validate`. -/
def RationaleResponse.modelValidate (s : RationaleSummary) : Except Exn RationaleResponse := do
  let outcome ← typed "RationaleResponse" "outcome" Json.asStr s.outcome
  let rationale ← typed "RationaleResponse" "rationale" Json.asStr s.rationale
  let reasons ← typed "RationaleResponse" "adverse_action_reasons" (Json.asList Json.asStr)
    s.adverseActionReasons
  let decidedBy ← typed "RationaleResponse" "decided_by" Json.asStr s.decidedBy
  pure ⟨s.applicationId, outcome, rationale, reasons, decidedBy⟩

structure HealthResponse where
  status : String
  detail : Option String

structure ErrorResponse where
  error : String
  detail : String

/-! ## What validates -/

/-- The values of the slices are dictionaries where they are there. -/
def IsDict (value : Option Json) : Prop := ∀ j ∈ value, ∃ entries, j = .obj entries

/-- The entries of a slice. -/
def entriesOf : Option Json → Option (List (String × Json))
  | some (.obj entries) => some entries
  | _ => none

theorem dictOrNone_of_isDict {model name : String} {value : Option Json} (h : IsDict value) :
    dictOrNone model name value = .ok (entriesOf value) := by
  cases value with
  | none => rfl
  | some j =>
      obtain ⟨entries, rfl⟩ := h j rfl
      rfl

/-- The slices of a summary are dictionaries. -/
structure Sliced (s : ApplicationSummary) : Prop where
  application : IsDict (some s.application)
  extractedFinancials : IsDict s.extractedFinancials
  riskAssessment : IsDict s.riskAssessment
  policyResult : IsDict s.policyResult
  decision : IsDict s.decision
  pendingEscalation : IsDict s.pendingEscalation
  escalationRequest : IsDict s.escalationRequest
  escalationResolution : IsDict s.escalationResolution

/-- The envelope of a summary. -/
def ApplicationStateResponse.of (s : ApplicationSummary) : ApplicationStateResponse :=
  ⟨s.applicationId, s.status, entriesOf (some s.application), entriesOf s.extractedFinancials,
    entriesOf s.riskAssessment, entriesOf s.policyResult, entriesOf s.decision,
    entriesOf s.pendingEscalation, entriesOf s.escalationRequest,
    entriesOf s.escalationResolution, s.auditTrail, s.traceSpans⟩

theorem ApplicationStateResponse.modelValidate_of_sliced {s : ApplicationSummary} (h : Sliced s) :
    modelValidate s = .ok (.of s) := by
  simp only [modelValidate, dictOrNone_of_isDict h.application,
    dictOrNone_of_isDict h.extractedFinancials, dictOrNone_of_isDict h.riskAssessment,
    dictOrNone_of_isDict h.policyResult, dictOrNone_of_isDict h.decision,
    dictOrNone_of_isDict h.pendingEscalation, dictOrNone_of_isDict h.escalationRequest,
    dictOrNone_of_isDict h.escalationResolution, ok_bind]
  rfl

/-- Strings are taken as they are. -/
theorem RationaleResponse.modelValidate_of_strings (id outcome rationale : String)
    (reasons : List String) (decidedBy : String) :
    modelValidate ⟨id, .str outcome, .str rationale, .ofStrings reasons, .str decidedBy⟩ =
      .ok ⟨id, outcome, rationale, reasons, decidedBy⟩ := by
  simp [modelValidate, typed, Json.asStr]

end Api

end Underwriting
