import Underwriting.Domain.Models
import Underwriting.Python.Rounding

/-!
# Risk scoring

The debt-to-income ratio and the rule table that reads a risk tier off the ratio and
the credit band. The three thresholds come from `Settings`; no order between them is
checked by the code. The ratio is monotone in the debt, which is what every
comparison of two applications rests on.
-/

namespace Underwriting

open Python

/-- The risk thresholds of `config.Settings`. -/
structure Settings where
  dtiBorderlineLow : ℚ
  dtiBorderlineHigh : ℚ
  dtiHardDecline : ℚ

def Settings.default : Settings := ⟨0.36, 0.45, 0.55⟩

def computeDebtToIncomeRatio (monthlyIncome monthlyDebtPayments : ℚ) : ℚ :=
  if monthlyIncome ≤ 0 then 1 else roundTo (monthlyDebtPayments / monthlyIncome) 4

/-- The rules are tried in order: high, borderline, low, and medium for the rest. -/
def classifyRiskTier (dti : ℚ) (creditBand : CreditBand) (settings : Settings) : RiskTier :=
  if settings.dtiHardDecline ≤ dti ∨ creditBand = .poor then .high
  else if (settings.dtiBorderlineLow ≤ dti ∧ dti < settings.dtiBorderlineHigh) ∨
      creditBand = .fair then .borderline
  else if dti < settings.dtiBorderlineLow ∧
      (creditBand = .excellent ∨ creditBand = .good) then .low
  else .medium

def buildRationaleFactors (dti : ℚ) (creditBand : CreditBand) (creditScore : ℤ) : List String :=
  [s!"debt_to_income_ratio={formatPercent dti 1}",
    s!"credit_band={creditBand.value}",
    s!"credit_score={creditScore}"]

theorem computeDebtToIncomeRatio_nonneg {income debt : ℚ} (h : 0 ≤ debt) :
    0 ≤ computeDebtToIncomeRatio income debt := by
  rw [computeDebtToIncomeRatio]
  split_ifs with hi
  · norm_num
  · exact roundTo_nonneg 4 (div_nonneg h (not_le.1 hi).le)

theorem computeDebtToIncomeRatio_mono {d₁ d₂ : ℚ} (income : ℚ) (h : d₁ ≤ d₂) :
    computeDebtToIncomeRatio income d₁ ≤ computeDebtToIncomeRatio income d₂ := by
  rw [computeDebtToIncomeRatio, computeDebtToIncomeRatio]
  split_ifs with hi
  · exact le_rfl
  · exact roundTo_mono 4 (div_le_div_of_nonneg_right h (not_le.1 hi).le)

theorem classifyRiskTier_eq_high_iff (dti : ℚ) (band : CreditBand) (settings : Settings) :
    classifyRiskTier dti band settings = .high ↔
      settings.dtiHardDecline ≤ dti ∨ band = .poor := by
  rw [classifyRiskTier]
  split_ifs with h <;> simp [h]

theorem classifyRiskTier_eq_borderline_iff (dti : ℚ) (band : CreditBand) (settings : Settings) :
    classifyRiskTier dti band settings = .borderline ↔
      ¬ (settings.dtiHardDecline ≤ dti ∨ band = .poor) ∧
        ((settings.dtiBorderlineLow ≤ dti ∧ dti < settings.dtiBorderlineHigh) ∨
          band = .fair) := by
  by_cases hhigh : settings.dtiHardDecline ≤ dti ∨ band = .poor
  · simp [classifyRiskTier, hhigh]
  · rw [classifyRiskTier, if_neg hhigh]
    split_ifs with hband <;> simp [hhigh, hband]

end Underwriting
