import Underwriting.Infrastructure.Resilience

/-!
# Credit bureau

The score is read off a digest of the applicant's name and everything else off the
score. The call goes through the retry and the breaker like any external call.
-/

namespace Underwriting

open Python

/-- `name.strip().lower()`. -/
def normalizedName (env : Env) (applicantFullName : String) : String :=
  env.unicode.lower (String.ofList (strip applicantFullName.toList))

def scoreFromName (env : Env) (applicantFullName : String) : ℤ :=
  300 + (env.nameDigest (normalizedName env applicantFullName) % 551 : ℕ)

def bandFromScore (score : ℤ) : CreditBand :=
  if 740 ≤ score then .excellent
  else if 670 ≤ score then .good
  else if 580 ≤ score then .fair
  else .poor

theorem scoreFromName_range (env : Env) (name : String) :
    300 ≤ scoreFromName env name ∧ scoreFromName env name ≤ 850 := by
  have hlt : env.nameDigest (normalizedName env name) % 551 < 551 := Nat.mod_lt _ (by norm_num)
  rw [scoreFromName]
  omega

/-- `_fetch_report_uncached`. -/
def fetchReport (env : Env) (applicantFullName : String) : CreditBureauReport where
  creditScore := scoreFromName env applicantFullName
  creditBand := bandFromScore (scoreFromName env applicantFullName)
  openTradelines := 3 + scoreFromName env applicantFullName % 7
  delinquenciesLast24mo := max 0 ((850 - scoreFromName env applicantFullName) / 150)
  score_range := scoreFromName_range env applicantFullName
  tradelines_nonneg := by omega
  delinquencies_nonneg := le_max_left _ _

def bureauLog (message : String) (extra : List (String × Json)) : PyM Unit :=
  emit ⟨"underwriting.infrastructure.credit_bureau", "INFO", message, extra⟩

def requestReport (env : Env) (applicantFullName : String) : PyM CreditBureauReport := do
  bureauLog "credit_bureau_request" [("applicant", .str applicantFullName)]
  let report ← CircuitBreaker.call env .creditBureau (pure (fetchReport env applicantFullName))
  bureauLog "credit_bureau_response"
    [("applicant", .str applicantFullName), ("credit_band", .str report.creditBand.value)]
  pure report

def getCreditReport (env : Env) (applicantFullName : String) : PyM CreditBureauReport :=
  withRetry 3 (requestReport env applicantFullName)

end Underwriting
