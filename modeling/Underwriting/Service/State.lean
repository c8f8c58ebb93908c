import Underwriting.Infrastructure.AuditLog
import Underwriting.Infrastructure.Llm
import Underwriting.Infrastructure.Tracing

/-!
# The graph state

The state is a record of JSON values, where an optional key that no node has written
yet is `none`. The keys that the input of every run sets are not optional. A node
returns an update; merging it overwrites the keys it sets and appends to the two
trails.
-/

namespace Underwriting

open Python

structure UnderwritingState where
  applicationId : String
  correlationId : String
  application : Json
  extractedFinancials : Option Json
  riskAssessment : Option Json
  policyResult : Option Json
  decision : Option Json
  escalationRequest : Option Json
  escalationResolution : Option Json
  auditTrail : List AuditEvent
  traceSpans : List Span
  status : String

structure StateUpdate where
  applicationId : Option String := none
  correlationId : Option String := none
  application : Option Json := none
  extractedFinancials : Option Json := none
  riskAssessment : Option Json := none
  policyResult : Option Json := none
  decision : Option Json := none
  escalationRequest : Option Json := none
  escalationResolution : Option Json := none
  auditTrail : List AuditEvent := []
  traceSpans : List Span := []
  status : Option String := none

namespace UnderwritingState

/-- What the input of the first run of a thread is merged into. -/
def blank : UnderwritingState :=
  ⟨"", "", .null, none, none, none, none, none, none, [], [], ""⟩

/-- The reducers of the state: `operator.add` for the trails, overwriting elsewhere. -/
def merge (s : UnderwritingState) (u : StateUpdate) : UnderwritingState where
  applicationId := u.applicationId.getD s.applicationId
  correlationId := u.correlationId.getD s.correlationId
  application := u.application.getD s.application
  extractedFinancials := u.extractedFinancials.or s.extractedFinancials
  riskAssessment := u.riskAssessment.or s.riskAssessment
  policyResult := u.policyResult.or s.policyResult
  decision := u.decision.or s.decision
  escalationRequest := u.escalationRequest.or s.escalationRequest
  escalationResolution := u.escalationResolution.or s.escalationResolution
  auditTrail := s.auditTrail ++ u.auditTrail
  traceSpans := s.traceSpans ++ u.traceSpans
  status := u.status.getD s.status

end UnderwritingState

end Underwriting
