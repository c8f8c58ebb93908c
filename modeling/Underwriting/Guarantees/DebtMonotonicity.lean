import Underwriting.Guarantees.DecisionTable

/-!
# More debt

The disposition of a fresh run is what the routing edge and, where no reviewer is asked, the
outcome say about it. With everything else equal, more debt never leads to a milder
disposition, with one exception: between the upper end of the borderline band and the hard
decline an applicant with good credit is rated medium and approved, while with less debt
inside the band the same applicant goes to a reviewer.
-/

namespace Underwriting

open Python

/-- The automatic dispositions, the mildest first. -/
inductive Disposition where
  | approval | escalation | denial
  deriving DecidableEq

def Disposition.severity : Disposition → ℕ
  | approval => 0
  | escalation => 1
  | denial => 2

instance : Preorder Disposition := Preorder.lift Disposition.severity

instance (d e : Disposition) : Decidable (d ≤ e) :=
  inferInstanceAs (Decidable (d.severity ≤ e.severity))

/-- The disposition of an application with an extraction and a credit report: the routing
edge on the two dumps, and the outcome without a resolution. -/
def disposition (settings : Settings) (a : LoanApplication) (x : ExtractedFinancials)
    (report : CreditBureauReport) : Disposition :=
  let risk := assess settings a x report
  let policy := evaluatePolicy a x risk
  let state : UnderwritingState :=
    { UnderwritingState.blank with
      riskAssessment := some risk.modelDump
      policyResult := some policy.modelDump }
  if routeAfterPolicy state = .humanEscalation then .escalation
  else
    match (determineOutcome a risk policy none).1 with
    | .approved => .approval
    | .denied => .denial

/-- A run of the graph takes the disposition of its extraction and its credit report. -/
theorem disposition_fetchReport (env : Env) (a : LoanApplication) (x : ExtractedFinancials)
    (rationale : Rationale) :
    disposition env.settings a x (fetchReport env a.applicantFullName) =
      if NeedsHuman env a x then .escalation
      else
        match (decisionFor env a x none rationale).outcome with
        | .approved => .approval
        | .denied => .denial := by
  have hroute : ∀ s : UnderwritingState, s.riskAssessment = some (riskFor env a x).modelDump →
      s.policyResult = some (policyFor env a x).modelDump →
      (routeAfterPolicy s = .humanEscalation ↔ NeedsHuman env a x) := by
    intro s hrisk hpolicy
    rw [routeAfterPolicy_eq hrisk hpolicy]
    by_cases h : NeedsHuman env a x
    · exact iff_of_true (if_pos h) h
    · refine iff_of_false (fun hhuman => ?_) h
      have hnext : Node.explainabilityAgent = .humanEscalation := (if_neg h).symm.trans hhuman
      cases hnext
  simp only [disposition]
  rw [if_congr (hroute _ rfl rfl) rfl rfl]
  rfl

/-- The same extraction with another debt. -/
def ExtractedFinancials.withDebt (x : ExtractedFinancials) (debt : ℚ) (h : 0 ≤ debt) :
    ExtractedFinancials :=
  { x with existingMonthlyDebtPayments := debt, debt_nonneg := h }

/-- The thresholds are in order. -/
structure Settings.Ordered (settings : Settings) : Prop where
  low_nonneg : 0 ≤ settings.dtiBorderlineLow
  low_le_high : settings.dtiBorderlineLow ≤ settings.dtiBorderlineHigh
  high_le_hard : settings.dtiBorderlineHigh ≤ settings.dtiHardDecline

def Disposition.ofTier : RiskTier → Disposition
  | .low => approval
  | .medium => approval
  | .borderline => escalation
  | .high => denial

/-- The ratio leaves the borderline band at its upper end, and the tier falls from
borderline to medium. -/
def LeavesBand (settings : Settings) (band : CreditBand) (dti₁ dti₂ : ℚ) : Prop :=
  (band = .excellent ∨ band = .good) ∧
    (settings.dtiBorderlineLow ≤ dti₁ ∧ dti₁ < settings.dtiBorderlineHigh) ∧
    settings.dtiBorderlineHigh ≤ dti₂ ∧ dti₂ < settings.dtiHardDecline

theorem ofTier_classifyRiskTier_of_sound_credit {settings : Settings} {band : CreditBand}
    (hband : band = .excellent ∨ band = .good) (dti : ℚ) :
    Disposition.ofTier (classifyRiskTier dti band settings) =
      if settings.dtiHardDecline ≤ dti then .denial
      else if settings.dtiBorderlineLow ≤ dti ∧ dti < settings.dtiBorderlineHigh then .escalation
      else .approval := by
  have hpoor : band ≠ .poor := by rcases hband with rfl | rfl <;> simp
  have hfair : band ≠ .fair := by rcases hband with rfl | rfl <;> simp
  simp only [classifyRiskTier, hpoor, hfair, hband, or_false, and_true]
  split_ifs <;> rfl

theorem ofTier_classifyRiskTier_of_fair (settings : Settings) (dti : ℚ) :
    Disposition.ofTier (classifyRiskTier dti .fair settings) =
      if settings.dtiHardDecline ≤ dti then .denial else .escalation := by
  simp only [classifyRiskTier, reduceCtorEq, or_false, or_true, if_true]
  split_ifs <;> rfl

theorem approval_le (d : Disposition) : .approval ≤ d := Nat.zero_le d.severity

/-- With sound credit the disposition falls only when the ratio leaves the borderline band
without reaching the hard decline. -/
theorem ofTier_mono_iff_of_sound_credit {settings : Settings} {band : CreditBand}
    (hband : band = .excellent ∨ band = .good) {dti₁ dti₂ : ℚ} (h : dti₁ ≤ dti₂) :
    Disposition.ofTier (classifyRiskTier dti₁ band settings) ≤
        .ofTier (classifyRiskTier dti₂ band settings) ↔
      ¬ LeavesBand settings band dti₁ dti₂ := by
  rw [ofTier_classifyRiskTier_of_sound_credit hband, ofTier_classifyRiskTier_of_sound_credit hband,
    LeavesBand, and_iff_right hband]
  by_cases hleaves : (settings.dtiBorderlineLow ≤ dti₁ ∧ dti₁ < settings.dtiBorderlineHigh) ∧
      settings.dtiBorderlineHigh ≤ dti₂ ∧ dti₂ < settings.dtiHardDecline
  · obtain ⟨hin, hout, hbelow⟩ := hleaves
    have hbelow₁ : ¬ settings.dtiHardDecline ≤ dti₁ :=
      fun hhard => absurd (hhard.trans h) (not_le.2 hbelow)
    have hout₂ : ¬ (settings.dtiBorderlineLow ≤ dti₂ ∧ dti₂ < settings.dtiBorderlineHigh) :=
      fun hin₂ => absurd hin₂.2 (not_lt.2 hout)
    rw [if_neg hbelow₁, if_pos hin, if_neg (not_le.2 hbelow), if_neg hout₂]
    exact iff_of_false (by decide) (not_not.2 ⟨hin, hout, hbelow⟩)
  · refine iff_of_true ?_ hleaves
    by_cases hhard : settings.dtiHardDecline ≤ dti₂
    · rw [if_pos hhard]
      split_ifs <;> decide
    · have hhard₁ : ¬ settings.dtiHardDecline ≤ dti₁ := fun h₁ => hhard (h₁.trans h)
      rw [if_neg hhard, if_neg hhard₁]
      by_cases hin : settings.dtiBorderlineLow ≤ dti₁ ∧ dti₁ < settings.dtiBorderlineHigh
      · have hin₂ : settings.dtiBorderlineLow ≤ dti₂ ∧ dti₂ < settings.dtiBorderlineHigh :=
          ⟨hin.1.trans h, not_le.1 fun hout => hleaves ⟨hin, hout, not_le.1 hhard⟩⟩
        rw [if_pos hin, if_pos hin₂]
      · rw [if_neg hin]
        exact approval_le _

theorem ofTier_mono_iff (settings : Settings) (band : CreditBand) {dti₁ dti₂ : ℚ}
    (h : dti₁ ≤ dti₂) :
    Disposition.ofTier (classifyRiskTier dti₁ band settings) ≤
        .ofTier (classifyRiskTier dti₂ band settings) ↔
      ¬ LeavesBand settings band dti₁ dti₂ := by
  cases band with
  | excellent => exact ofTier_mono_iff_of_sound_credit (.inl rfl) h
  | good => exact ofTier_mono_iff_of_sound_credit (.inr rfl) h
  | fair =>
      rw [ofTier_classifyRiskTier_of_fair, ofTier_classifyRiskTier_of_fair]
      refine iff_of_true ?_ (by simp [LeavesBand])
      split_ifs with h₁ h₂
      · exact le_rfl
      · exact absurd (h₁.trans h) h₂
      · decide
      · decide
  | poor => exact iff_of_true (by simp [classifyRiskTier]) (by simp [LeavesBand])

/-! ## Two debts -/

/-- The sample extraction with another monthly debt. -/
def sampleWithDebt (debt : ℕ) : ExtractedFinancials :=
  sampleExtraction.withDebt debt (Nat.cast_nonneg debt)

end Underwriting
