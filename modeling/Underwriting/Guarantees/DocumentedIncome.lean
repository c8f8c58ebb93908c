import Underwriting.Run.Replies
import Underwriting.Service.Offline

/-!
# Documented income

The risk scoring takes the extracted income unless it is zero, and it takes a twelfth of the
stated income then. An income is extracted as zero when no gross figure is found, and also
when the monthly amount of the figure is rounded to zero cents. So a documented figure wins over
the stated income exactly when something is left of it after the rounding.
-/

namespace Underwriting

open Python

/-- The application with another stated income. -/
def LoanApplication.withIncome (a : LoanApplication) (income : ℚ)
    (h : 0 ≤ income ∧ income ≤ 10000000) : LoanApplication :=
  { a with
    statedAnnualIncome := income
    income_range := h }

/-- The income behind the debt-to-income ratio is the documented one, and whatever income the
applicant states, the ratio is the same. -/
structure UsesDocumented (env : Env) (a : LoanApplication) (x : ExtractedFinancials)
    (documented : ℚ) : Prop where
  income : monthlyIncome a x = documented
  independent : ∀ income h, (riskFor env (a.withIncome income h) x).debtToIncomeRatio =
    (riskFor env a x).debtToIncomeRatio

section Income

variable {env : Env} {a : LoanApplication} {x : ExtractedFinancials}

theorem ratio_riskFor : (riskFor env a x).debtToIncomeRatio =
    computeDebtToIncomeRatio (monthlyIncome a x) x.existingMonthlyDebtPayments := rfl

theorem monthlyIncome_of_ne_zero (h : x.monthlyGrossIncome ≠ 0) :
    monthlyIncome a x = x.monthlyGrossIncome := if_neg h

theorem monthlyIncome_of_eq_zero (h : x.monthlyGrossIncome = 0) :
    monthlyIncome a x = a.statedAnnualIncome / 12 := if_pos h

theorem usesDocumented_of_ne_zero (h : x.monthlyGrossIncome ≠ 0) :
    UsesDocumented env a x x.monthlyGrossIncome := by
  constructor
  · exact monthlyIncome_of_ne_zero h
  · intro income hincome
    rw [ratio_riskFor, ratio_riskFor, monthlyIncome_of_ne_zero h, monthlyIncome_of_ne_zero h]

/-- One debt cannot be all of an income and all of twice that income. -/
theorem not_ratio_one_twice {debt : ℚ} (h : roundTo debt 4 = 1) : roundTo (debt / 2) 4 ≠ 1 := by
  have hlow : roundTo 0.95 4 = 0.95 := by decide +kernel
  have hhigh : roundTo 1.9 4 = 1.9 := by decide +kernel
  rcases le_total debt 1.9 with hdebt | hdebt
  · have hhalf := roundTo_mono 4 (show debt / 2 ≤ 0.95 by linarith)
    rw [hlow] at hhalf
    exact ne_of_lt (hhalf.trans_lt (by norm_num))
  · have hfull := roundTo_mono 4 hdebt
    rw [hhigh, h] at hfull
    norm_num at hfull

/-- The ratio of an income of zero is one, and that of other incomes is not. -/
theorem not_usesDocumented_of_eq_zero (h : x.monthlyGrossIncome = 0) (documented : ℚ) :
    ¬ UsesDocumented env a x documented := by
  intro hdocumented
  have hratio (income : ℚ) (hincome : 0 ≤ income ∧ income ≤ 10000000) :
      computeDebtToIncomeRatio (income / 12) x.existingMonthlyDebtPayments =
        (riskFor env a x).debtToIncomeRatio := by
    rw [← hdocumented.independent income hincome, ratio_riskFor, monthlyIncome_of_eq_zero h]
    rfl
  have hnone : (riskFor env a x).debtToIncomeRatio = 1 := by
    rw [← hratio 0 (by norm_num), computeDebtToIncomeRatio, if_pos (by norm_num)]
  have hone := hratio 12 (by norm_num)
  have htwo := hratio 24 (by norm_num)
  rw [hnone, computeDebtToIncomeRatio, if_neg (by norm_num)] at hone htwo
  norm_num at hone htwo
  exact not_ratio_one_twice hone htwo

end Income

/-- However the interpreter multiplies and rounds, the documented income is used exactly when its
monthly amount is not zero. -/
theorem documented_income_iff (env : Env) (monthly : ℚ → ℚ → ℚ) (a : LoanApplication)
    (text : String) (reply : Content) (x : ExtractedFinancials) (g m : ℚ)
    (hreply : mockDocumentExtractionWith monthly env.unicode text = .ok reply)
    (hx : validateExtraction reply = .ok x)
    (hgross : parseMoneyField env.unicode text "GROSS_PAY_PER_PERIOD" = .ok (some g))
    (hfrequency : payFrequencyMonthlyMultiplier.lookup (payFrequencyOf env.unicode text) = some m) :
    UsesDocumented env a x (monthly g m) ↔ monthly g m ≠ 0 := by
  obtain ⟨gross, net, debt, hgross', -, -, rfl⟩ := exists_fields hreply
  obtain rfl : some g = gross := Except.ok.inj (hgross.symm.trans hgross')
  have hincome : some (monthly g m) = some x.monthlyGrossIncome := by
    rw [← ExtractedFinancials.gross_of_modelValidate hx, extractionPayload, hfrequency]
    rfl
  rw [Option.some.inj hincome]
  constructor
  · intro hdocumented hnothing
    exact not_usesDocumented_of_eq_zero hnothing _ hdocumented
  · exact usesDocumented_of_ne_zero

/-! ## A figure of zero -/

/-- A pay stub of one month's gross pay. -/
def monthlyPayStub (figure : String) : String :=
  "GROSS_PAY_PER_PERIOD: " ++ figure ++ "\nPAY_FREQUENCY: monthly"

/-- The extraction of a stub that has no further figure. -/
theorem exists_extraction_stub (figure : String) (g : ℚ)
    (hgross : (parseMoneyField .ascii (monthlyPayStub figure) "GROSS_PAY_PER_PERIOD").toOption =
      some (some g))
    (hnet : (parseMoneyField .ascii (monthlyPayStub figure) "NET_PAY_PER_PERIOD").toOption =
      some none)
    (hdebt : (parseMoneyField .ascii (monthlyPayStub figure) "EXISTING_MONTHLY_DEBT").toOption =
      some none) :
    ∃ reply x, mockDocumentExtraction .ascii (monthlyPayStub figure) = .ok reply ∧
      validateExtraction reply = .ok x ∧
      ExtractedFrom .ascii (monthlyPayStub figure) (some g) none none x :=
  exists_extraction (eq_ok_of_toOption hgross) (eq_ok_of_toOption hnet) (eq_ok_of_toOption hdebt)

/-- The gross pay of the document is zero, and the ratio is computed from the stated income. -/
theorem stated_income_used :
    ∃ (reply : Content) (x : ExtractedFinancials),
      mockDocumentExtraction .ascii (monthlyPayStub "$0.00") = .ok reply ∧
      validateExtraction reply = .ok x ∧
      parseMoneyField .ascii (monthlyPayStub "$0.00") "GROSS_PAY_PER_PERIOD" = .ok (some 0) ∧
      payFrequencyMonthlyMultiplier.lookup (payFrequencyOf .ascii (monthlyPayStub "$0.00")) =
        some 1 ∧
      monthlyIncome sampleApplication x = sampleApplication.statedAnnualIncome / 12 ∧
      ¬ UsesDocumented sampleEnv sampleApplication x (monthlyAmount 0 1) := by
  obtain ⟨reply, x, hreply, hx, hfrom⟩ := exists_extraction_stub "$0.00" 0
    (by decide +kernel) (by decide +kernel) (by decide +kernel)
  have hzero : x.monthlyGrossIncome = 0 := by
    rw [hfrom.gross]
    simp
  exact ⟨reply, x, hreply, hx, eq_ok_of_toOption (by decide +kernel), by decide +kernel,
    monthlyIncome_of_eq_zero hzero, not_usesDocumented_of_eq_zero hzero _⟩

theorem documented_income_monthly :
    ∃ (reply : Content) (x : ExtractedFinancials),
      mockDocumentExtraction .ascii (monthlyPayStub "$5,200.00") = .ok reply ∧
      validateExtraction reply = .ok x ∧
      (UsesDocumented sampleEnv sampleApplication x (monthlyAmount 5200 1) ↔
        monthlyAmount 5200 1 ≠ 0) := by
  obtain ⟨reply, x, hreply, hx, -⟩ := exists_extraction_stub "$5,200.00" 5200
    (by decide +kernel) (by decide +kernel) (by decide +kernel)
  exact ⟨reply, x, hreply, hx, documented_income_iff sampleEnv monthlyAmount sampleApplication
    (monthlyPayStub "$5,200.00") reply x 5200 1 hreply hx (eq_ok_of_toOption (by decide +kernel))
    (by decide)⟩

end Underwriting
