import Underwriting.Domain.Policy

/-!
# Outcome determination

With an escalation resolution the reviewer's flag decides. Without one the
application is approved unless the tier is high or the policy check failed. The
reasons of a denial are read off the tier, the credit band and the flags.
-/

namespace Underwriting

open Python

def adverseReasons (risk : RiskAssessment) (policy : PolicyResult) : List String :=
  (if risk.riskTier = .high then
    [s!"Debt-to-income ratio of {formatPercent risk.debtToIncomeRatio 1} exceeds the " ++
      "acceptable underwriting threshold."] ++
    (if risk.creditReport.creditBand = .poor then
      ["Credit bureau band classified as 'poor' (score " ++
        s!"{risk.creditReport.creditScore})."] else [])
  else []) ++
  (policy.flags.filter fun f => f.severity = .block ∨ f.severity = .warn).map
    PolicyFlag.description

def humanDenialReason : String :=
  "Human reviewer determined the application did not meet lending guidelines " ++
    "after escalation review."

/-- The outcome, the approved amount and the adverse-action reasons. -/
def determineOutcome (application : LoanApplication) (risk : RiskAssessment)
    (policy : PolicyResult) (resolution : Option EscalationResolution) :
    DecisionOutcome × Option ℚ × List String :=
  match resolution with
  | some r =>
      if r.approve then (.approved, some application.requestedAmount, [])
      else
        (.denied, none,
          if adverseReasons risk policy = [] then [humanDenialReason]
          else adverseReasons risk policy)
  | none =>
      if risk.riskTier = .high ∨ policy.passed = false then
        (.denied, none, adverseReasons risk policy)
      else (.approved, some application.requestedAmount, [])

/-- `decided_by`. -/
def decidedBy (resolution : Option EscalationResolution) : String :=
  resolution.elim "explainability_agent" fun r => s!"human_reviewer:{r.reviewerId}"

theorem determineOutcome_some_approved_iff (application : LoanApplication)
    (risk : RiskAssessment) (policy : PolicyResult) (r : EscalationResolution) :
    (determineOutcome application risk policy (some r)).1 = .approved ↔ r.approve = true := by
  cases h : r.approve <;> simp [determineOutcome, h]

theorem determineOutcome_none_denied_iff (application : LoanApplication)
    (risk : RiskAssessment) (policy : PolicyResult) :
    (determineOutcome application risk policy none).1 = .denied ↔
      risk.riskTier = .high ∨ policy.passed = false := by
  by_cases h : risk.riskTier = .high ∨ policy.passed = false <;> simp [determineOutcome, h]

end Underwriting
