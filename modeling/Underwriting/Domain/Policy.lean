import Underwriting.Domain.Risk

/-!
# Lending policy

`evaluatePolicy` runs five checks in order. The first two raise blocking flags, the
next two raise warnings and the last one is informational. `passed` is derived from
the severities, and the only blocking conditions are `overLeveraged` and a low
extraction confidence: `evaluatePolicy_passed_iff`.
-/

namespace Underwriting

open Python

def permittedFactors : List String :=
  ["monthly_income", "debt_to_income_ratio", "credit_band",
    "requested_amount_to_income_ratio", "employment_status", "delinquency_history"]

def excludedFactors : List String :=
  ["age", "race", "gender", "zip_code", "marital_status", "national_origin"]

def maxRequestToIncomeMultiple : ℚ := 5

def minExtractionConfidence : ℚ := 0.50

def maxStatedVsExtractedDebtDelta : ℚ := 0.25

/-- `requested_amount / stated_annual_income`, with `none` for `float("inf")`. -/
def requestToIncome (application : LoanApplication) : Option ℚ :=
  if 0 < application.statedAnnualIncome then
    some (application.requestedAmount / application.statedAnnualIncome)
  else none

def overLeveraged (application : LoanApplication) : Prop :=
  ∀ q ∈ requestToIncome application, maxRequestToIncomeMultiple < q

instance (application : LoanApplication) : Decidable (overLeveraged application) :=
  inferInstanceAs (Decidable (∀ q ∈ requestToIncome application, _))

/-- The relative difference of stated and extracted monthly debt. -/
def debtDeltaFraction (application : LoanApplication) (extracted : ExtractedFinancials) : ℚ :=
  |application.statedMonthlyDebt - extracted.existingMonthlyDebtPayments| /
    max application.statedMonthlyDebt 1

/-! ## The five checks -/

def overLeveragedFlag (application : LoanApplication) : PolicyFlag where
  code := "OVER_LEVERAGED_REQUEST"
  description :=
    let ratio := (requestToIncome application).elim "inf" fun q => formatFixed q 1 false
    s!"Requested amount is {ratio}x stated annual income (policy limit " ++
      s!"{formatFixed maxRequestToIncomeMultiple 1 false}x)."
  severity := .block

def lowConfidenceFlag (extracted : ExtractedFinancials) : PolicyFlag where
  code := "LOW_EXTRACTION_CONFIDENCE"
  description :=
    s!"Document extraction confidence {formatFixed extracted.extractionConfidence 2 false} is " ++
      s!"below the minimum {formatFixed minExtractionConfidence 2 false} required for a " ++
      "straight-through decision."
  severity := .block

def debtInconsistencyFlag (application : LoanApplication) (extracted : ExtractedFinancials) :
    PolicyFlag where
  code := "DEBT_STATEMENT_INCONSISTENCY"
  description :=
    let stated := formatFixed application.statedMonthlyDebt 2 true
    let found := formatFixed extracted.existingMonthlyDebtPayments 2 true
    s!"Applicant-stated monthly debt (${stated}) differs from " ++
      s!"document-extracted monthly debt (${found}) by " ++
      s!"{formatPercent (debtDeltaFraction application extracted) 0}, exceeding the " ++
      s!"{formatPercent maxStatedVsExtractedDebtDelta 0} consistency threshold."
  severity := .warn

def unemployedFlag : PolicyFlag where
  code := "UNEMPLOYED_APPLICANT"
  description :=
    "Applicant reports unemployed status; income sufficiency is driven " ++
      "entirely by non-wage income captured during document extraction."
  severity := .warn

def selfEmployedFlag : PolicyFlag where
  code := "SELF_EMPLOYED_INCOME_VARIABILITY"
  description :=
    "Self-employed applicant: income may be more variable period-to-period. " ++
      "Noted for context; not a basis for denial on its own."
  severity := .info

def policyFlags (application : LoanApplication) (extracted : ExtractedFinancials) :
    List PolicyFlag :=
  (if overLeveraged application then [overLeveragedFlag application] else []) ++
  (if extracted.extractionConfidence < minExtractionConfidence then
    [lowConfidenceFlag extracted] else []) ++
  (if maxStatedVsExtractedDebtDelta < debtDeltaFraction application extracted then
    [debtInconsistencyFlag application extracted] else []) ++
  (if application.employmentStatus = .unemployed ∧ 0 < application.requestedAmount then
    [unemployedFlag] else []) ++
  (if application.employmentStatus = .selfEmployed then [selfEmployedFlag] else [])

/-- The risk assessment is an argument of the source function, which does not read it. -/
def evaluatePolicy (application : LoanApplication) (extracted : ExtractedFinancials)
    (_risk : RiskAssessment) : PolicyResult where
  passed := !(policyFlags application extracted).any fun f => f.severity = .block
  flags := policyFlags application extracted
  permittedFactorsUsed := permittedFactors
  excludedFactorsChecked := excludedFactors

/-! ## What blocks -/

/-- A request is over-leveraged exactly when it exceeds five times the stated income,
a stated income of zero included. -/
theorem overLeveraged_iff (application : LoanApplication) :
    overLeveraged application ↔
      5 * application.statedAnnualIncome < application.requestedAmount := by
  rcases application.income_range.1.lt_or_eq with hpos | hzero
  · simp [overLeveraged, requestToIncome, hpos, maxRequestToIncomeMultiple, lt_div_iff₀]
  · have hamount := application.amount_range.1
    simp [overLeveraged, requestToIncome, ← hzero, hamount]

theorem evaluatePolicy_passed_iff (application : LoanApplication)
    (extracted : ExtractedFinancials) (risk : RiskAssessment) :
    (evaluatePolicy application extracted risk).passed = true ↔
      ¬ overLeveraged application ∧
        minExtractionConfidence ≤ extracted.extractionConfidence := by
  have hblock : ∀ (c : Prop) [Decidable c] (f : PolicyFlag),
      (if c then [f] else []).any (fun g => g.severity = .block) = true ↔
        c ∧ f.severity = .block := by
    intro c _ f
    split_ifs with hc <;> simp [hc]
  rw [← not_iff_not, Bool.not_eq_true]
  simp only [evaluatePolicy, policyFlags, List.any_append, Bool.not_eq_false', Bool.or_eq_true,
    hblock]
  simp only [overLeveragedFlag, lowConfidenceFlag, debtInconsistencyFlag, unemployedFlag,
    selfEmployedFlag, reduceCtorEq, and_false, and_true, or_false, not_and_or, not_not, not_le]

end Underwriting
