import Underwriting.Service.Updates

/-!
# What each node does

One equation for each node, over any state that belongs to the run and holds the dumps
the node reads: the value it returns, and the process it leaves. A node that returns has
logged exactly the events and closed exactly the spans of its update, the pausing
execution of the escalation has logged the request and returned nothing.
-/

namespace Underwriting

open Python

variable {env : Env} {k : Submission} {s : UnderwritingState} {r r' : Runtime}
  {x : ExtractedFinancials} {resolution : Option EscalationResolution}

theorem startSpan_apply {α : Type} (name id : String) (body : PyM (α × List (String × Json)))
    (r : Runtime) :
    startSpan name id body r = match body r with
      | (.ok (a, attributes), r') =>
          (.ok (a, ⟨name, [("application_id", .str id)] ++ attributes, "ok"⟩),
            { r' with spans := r'.spans ++
              [⟨name, [("application_id", .str id)] ++ attributes, "ok"⟩] })
      | (.error e, r') =>
          (.error e, { r' with spans := r'.spans ++
            [⟨name, [("application_id", .str id)], "error"⟩] }) := by
  unfold startSpan Py.tryElse
  cases body r with
  | mk out r' => cases out <;> rfl

theorem recordAuditEvent_apply (env : Env) (id correlationId actor action : String)
    (details : List (String × Json)) (r : Runtime) :
    recordAuditEvent env id correlationId actor action details r =
      (.ok (auditEvent env id correlationId actor action details),
        { r with log := r.log ++
          [(auditEvent env id correlationId actor action details).toRecord] }) := rfl

@[simp] theorem stateKey_some (key : String) (j : Json) (r : Runtime) :
    stateKey key (some j) r = (.ok j, r) := rfl

theorem intakeNode_apply (hs : k.Holds s) (r : Runtime) :
    intakeNode env s r = (.ok (intakeUpdate env k), r.noted (intakeUpdate env k)) := by
  obtain ⟨hid, hcorr, happ⟩ := hs
  simp only [intakeNode, Py.bind_apply, startSpan_apply, hid, hcorr, happ, Py.lift_apply,
    LoanApplication.modelValidate_modelDump, recordAuditEvent_apply, Py.pure_apply]
  rfl

theorem documentExtractionNode_apply (hs : k.Holds s) (r : Runtime) :
    documentExtractionNode env s r = match readDocument env k.application r with
      | (.ok x, r') => (.ok (extractionUpdate env k x), r'.noted (extractionUpdate env k x))
      | (.error e, r') => (.error e, k.failed "document_extraction_agent" r') := by
  obtain ⟨hid, hcorr, happ⟩ := hs
  simp only [documentExtractionNode, readDocument, Py.bind_apply, startSpan_apply, hid, hcorr, happ,
    Py.lift_apply, LoanApplication.modelValidate_modelDump, recordAuditEvent_apply, Py.pure_apply]
  rcases sanitizeUntrustedText env k.application.rawFinancialDocumentText _ r with ⟨e | text, r₁⟩
  · rfl
  · dsimp only
    rcases invokeChat env (extractionMessages text) r₁ with ⟨e | reply, r₂⟩
    · rfl
    · dsimp only
      cases validateExtraction reply <;> rfl

theorem riskScoringNode_apply (hs : k.Holds s)
    (hx : s.extractedFinancials = some x.modelDump)
    (hreport : getCreditReport env k.application.applicantFullName r =
      (.ok (fetchReport env k.application.applicantFullName), r')) :
    riskScoringNode env s r =
      if Unscorable env.arithmetic k.application x then
        (.error unscored, k.failed "risk_scoring_agent" r')
      else
        (.ok (riskUpdate env k (riskFor env k.application x)),
          r'.noted (riskUpdate env k (riskFor env k.application x))) := by
  obtain ⟨hid, hcorr, happ⟩ := hs
  simp only [riskScoringNode, Py.bind_apply, startSpan_apply, hid, hcorr, happ, hx, Py.lift_apply,
    stateKey_some, LoanApplication.modelValidate_modelDump,
    ExtractedFinancials.modelValidate_modelDump, hreport, scoreRisk, recordAuditEvent_apply,
    Py.pure_apply]
  split_ifs <;> rfl

theorem policyComplianceNode_apply {risk : RiskAssessment} (hs : k.Holds s)
    (hx : s.extractedFinancials = some x.modelDump)
    (hrisk : s.riskAssessment = some risk.modelDump) (r : Runtime) :
    policyComplianceNode env s r =
      (.ok (policyUpdate env k (evaluatePolicy k.application x risk)),
        r.noted (policyUpdate env k (evaluatePolicy k.application x risk))) := by
  obtain ⟨hid, hcorr, happ⟩ := hs
  simp only [policyComplianceNode, Py.bind_apply, startSpan_apply, hid, hcorr, happ, hx, hrisk,
    Py.lift_apply, stateKey_some, LoanApplication.modelValidate_modelDump,
    ExtractedFinancials.modelValidate_modelDump, RiskAssessment.modelValidate_modelDump,
    recordAuditEvent_apply, Py.pure_apply]
  rfl

/-! ## Routing and escalation -/

theorem routeAfterPolicy_eq {risk : RiskAssessment} {policy : PolicyResult}
    (hrisk : s.riskAssessment = some risk.modelDump)
    (hpolicy : s.policyResult = some policy.modelDump) :
    routeAfterPolicy s =
      if risk.requiresHumanEscalation = true ∨ policy.passed = false then .humanEscalation
      else .explainabilityAgent := by
  simp [routeAfterPolicy, hrisk, hpolicy, RiskAssessment.modelDump, PolicyResult.modelDump,
    Json.get?, Json.lookup, Json.truthy]

theorem blockingCodes_modelDump (policy : PolicyResult) :
    blockingCodes policy.modelDump =
      (policy.flags.filter (·.severity = .block)).map PolicyFlag.code := by
  have hread (items : List Json) : Json.asList some (.arr items) = some items := by
    have h := @Json.mapM_map_of_decode Json Json id some (fun _ => rfl) items
    rwa [List.map_id] at h
  have hflags : policy.modelDump.get? "flags" =
      some (.arr (policy.flags.map PolicyFlag.modelDump)) := rfl
  rw [blockingCodes, hflags, Option.bind_some, hread, Option.getD_some]
  induction policy.flags with
  | nil => rfl
  | cons f flags ih =>
      have hseverity : (f.modelDump.get? "severity").bind Json.asStr = some f.severity.value := rfl
      have hcode : (f.modelDump.get? "code").bind Json.asStr = some f.code := rfl
      have hblock : f.severity.value = "block" ↔ f.severity = .block := by
        cases f.severity <;> simp [PolicySeverity.value]
      by_cases hb : f.severity = .block
      · rw [List.map_cons, List.filterMap_cons, hseverity, hcode,
          if_pos (congrArg some (hblock.2 hb)), ih, List.filter_cons_of_pos (by simpa using hb)]
        rfl
      · simp [hseverity, hblock, hb, ih]

theorem escalationPayload_modelDump (id : String) (risk : RiskAssessment)
    (policy : PolicyResult) :
    escalationPayload id risk.modelDump policy.modelDump =
      .ok (escalationEntries id risk policy) := by
  have hreport : item risk.modelDump "credit_report" some =
      .ok risk.creditReport.modelDump := rfl
  have hband : item risk.creditReport.modelDump "credit_band" Json.asStr =
      .ok risk.creditReport.creditBand.value := rfl
  have hrequires : item risk.modelDump "requires_human_escalation" Json.asBool =
      .ok risk.requiresHumanEscalation := rfl
  have htier : item risk.modelDump "risk_tier" Json.asStr = .ok risk.riskTier.value := rfl
  have hpassed : item policy.modelDump "passed" Json.asBool = .ok policy.passed := rfl
  have hdti : item risk.modelDump "debt_to_income_ratio" Json.asFloat =
      .ok risk.debtToIncomeRatio := rfl
  simp only [escalationPayload, hrequires, htier, hpassed, hdti, hreport, hband, ok_bind,
    blockingCodes_modelDump, escalationEntries]
  rfl

section Escalation

variable {risk : RiskAssessment} {policy : PolicyResult}

/-- Without a resume value the node logs the request and interrupts. -/
theorem humanEscalationNode_none (hs : k.Holds s)
    (hrisk : s.riskAssessment = some risk.modelDump)
    (hpolicy : s.policyResult = some policy.modelDump) (r : Runtime) :
    humanEscalationNode env none s r =
      (.error (.graphInterrupt (.obj (escalationEntries k.application.applicationId risk policy))),
        r.noted (escalationRequest env k
          (escalationEntries k.application.applicationId risk policy))) := by
  obtain ⟨hid, hcorr, -⟩ := hs
  simp only [humanEscalationNode, Py.bind_apply, startSpan_apply, hid, hcorr, hrisk, hpolicy,
    stateKey_some, Py.lift_apply, escalationPayload_modelDump, recordAuditEvent_apply,
    Py.pure_apply]
  rfl

/-- Resumed with a resolution the node runs through, request included. -/
theorem humanEscalationNode_some (hs : k.Holds s)
    (hrisk : s.riskAssessment = some risk.modelDump)
    (hpolicy : s.policyResult = some policy.modelDump) (res : EscalationResolution)
    (r : Runtime) :
    humanEscalationNode env (some res.modelDump) s r =
      (.ok (escalationUpdate env k
          (escalationEntries k.application.applicationId risk policy) res),
        r.noted (escalationUpdate env k
          (escalationEntries k.application.applicationId risk policy) res)) := by
  obtain ⟨hid, hcorr, -⟩ := hs
  simp only [humanEscalationNode, Py.bind_apply, startSpan_apply, hid, hcorr, hrisk, hpolicy,
    stateKey_some, Py.lift_apply, escalationPayload_modelDump, recordAuditEvent_apply,
    Py.pure_apply, interrupt, Option.elim_some, EscalationResolution.modelValidate_modelDump]
  rw [escalationUpdate, Runtime.noted_append]
  rfl

end Escalation

/-! ## Explanation and output -/

theorem storedResolution_modelDump (resolution : Option EscalationResolution) :
    storedResolution (resolution.map EscalationResolution.modelDump) = .ok resolution := by
  cases resolution with
  | none => rfl
  | some res =>
      have htruthy : res.modelDump.truthy = true := rfl
      simp only [storedResolution, Option.map_some, Option.filter_some, htruthy, if_true,
        EscalationResolution.modelValidate_modelDump]
      rfl

theorem explainabilityNode_apply (hs : k.Holds s)
    (hrisk : s.riskAssessment = some (riskFor env k.application x).modelDump)
    (hpolicy : s.policyResult = some (policyFor env k.application x).modelDump)
    (hres : s.escalationResolution = resolution.map EscalationResolution.modelDump)
    (r : Runtime) :
    explainabilityNode env s r =
      match writeRationale env k.application x resolution r with
      | (.ok rationale, r') =>
          (.ok (explainabilityUpdate env k (decisionFor env k.application x resolution rationale)),
            r'.noted
              (explainabilityUpdate env k (decisionFor env k.application x resolution rationale)))
      | (.error e, r') => (.error e, k.failed "explainability_agent" r') := by
  obtain ⟨hid, hcorr, happ⟩ := hs
  simp only [explainabilityNode, writeRationale, Py.bind_apply, startSpan_apply, hid, hcorr, happ,
    hrisk, hpolicy, hres, stateKey_some, Py.lift_apply, LoanApplication.modelValidate_modelDump,
    RiskAssessment.modelValidate_modelDump, PolicyResult.modelValidate_modelDump,
    storedResolution_modelDump, recordAuditEvent_apply, Py.pure_apply]
  rcases invokeChat env (rationaleMessages (rationalePayload k.application
    (riskFor env k.application x) (policyFor env k.application x) resolution)) r with
    ⟨e | reply, r₁⟩
  · rfl
  · dsimp only
    by_cases h : 1 ≤ reply.text.toList.length
    · simp only [acceptRationale, Decision.build, dif_pos h]
      rfl
    · simp only [acceptRationale, Decision.build, dif_neg h]
      rfl

theorem decisionOutputNode_apply {decision : Decision} (hs : k.Holds s)
    (hdecision : s.decision = some decision.modelDump) (r : Runtime) :
    decisionOutputNode env s r =
      (.ok (outputUpdate env k decision.outcome),
        r.noted (outputUpdate env k decision.outcome)) := by
  obtain ⟨hid, hcorr, -⟩ := hs
  have houtcome : item decision.modelDump "outcome" some =
      .ok (.str decision.outcome.value) := rfl
  simp only [decisionOutputNode, Py.bind_apply, startSpan_apply, hid, hcorr, hdecision,
    stateKey_some, Py.lift_apply, houtcome, recordAuditEvent_apply, Py.pure_apply]
  rfl

end Underwriting
