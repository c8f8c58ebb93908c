import Underwriting.Guarantees.DebtMonotonicity

/-!
# Less income

An applicant without income is meant to be the riskiest one, and the ratio is then set to one.
For a positive income the ratio is the debt over the income, which is not bounded by one: an
applicant with a little income and more debt than that has the larger ratio. Between two
positive incomes, and as long as the debt of the applicant with an income rounds to at most
the whole of it, less income and more debt never lower the ratio.

The tier asks for more than the ratio. Where the borderline band ends at or below the whole
income and the hard decline lies above it, an applicant without income is rated medium, while
one with the same debt and a ratio inside the band is rated borderline.
-/

namespace Underwriting

open Python

/-- The more risky, the higher. -/
def RiskTier.rank : RiskTier → ℕ
  | low => 0
  | medium => 1
  | borderline => 2
  | high => 3

/-- With the first income and debt the ratio is at least the second one; whenever the second
applicant is rated high the first one is too; and without income the first one is not rated
less risky than the second one is with some income and the same debt. -/
structure AtLeastAsRisky (settings : Settings) (band : CreditBand)
    (income₁ debt₁ income₂ debt₂ : ℚ) : Prop where
  ratio : computeDebtToIncomeRatio income₂ debt₂ ≤ computeDebtToIncomeRatio income₁ debt₁
  high : classifyRiskTier (computeDebtToIncomeRatio income₂ debt₂) band settings = .high →
    classifyRiskTier (computeDebtToIncomeRatio income₁ debt₁) band settings = .high
  rating : income₁ = 0 → 0 < income₂ → debt₁ = debt₂ →
    (classifyRiskTier (computeDebtToIncomeRatio income₂ debt₂) band settings).rank ≤
      (classifyRiskTier (computeDebtToIncomeRatio income₁ debt₁) band settings).rank

/-- There is some income against none, and the debt exceeds it even when rounded. -/
def RoundsAboveIncome (income₁ income₂ debt₂ : ℚ) : Prop :=
  income₁ = 0 ∧ 0 < income₂ ∧ 1.00005 * income₂ < debt₂

instance (income₁ income₂ debt₂ : ℚ) : Decidable (RoundsAboveIncome income₁ income₂ debt₂) :=
  inferInstanceAs (Decidable (_ ∧ _))

/-- There is some income against none, and the part of it that the debt takes lies in the
borderline band, which the whole income has left without reaching the hard decline. -/
def BandBelowIncome (settings : Settings) (band : CreditBand)
    (income₁ debt₁ income₂ debt₂ : ℚ) : Prop :=
  income₁ = 0 ∧ 0 < income₂ ∧ debt₁ = debt₂ ∧
    LeavesBand settings band (roundTo (debt₂ / income₂) 4) 1

/-! ## The tier -/

theorem classifyRiskTier_high_of_le {dti₁ dti₂ : ℚ} (h : dti₂ ≤ dti₁) {band : CreditBand}
    {settings : Settings} (hhigh : classifyRiskTier dti₂ band settings = .high) :
    classifyRiskTier dti₁ band settings = .high := by
  rw [classifyRiskTier_eq_high_iff] at hhigh ⊢
  exact hhigh.imp_left fun hhard => hhard.trans h

theorem rank_classifyRiskTier_of_sound_credit {settings : Settings} {band : CreditBand}
    (hband : band = .excellent ∨ band = .good) (dti : ℚ) :
    (classifyRiskTier dti band settings).rank =
      if settings.dtiHardDecline ≤ dti then 3
      else if settings.dtiBorderlineLow ≤ dti ∧ dti < settings.dtiBorderlineHigh then 2
      else if dti < settings.dtiBorderlineLow then 0
      else 1 := by
  have hpoor : band ≠ .poor := by rcases hband with rfl | rfl <;> simp
  have hfair : band ≠ .fair := by rcases hband with rfl | rfl <;> simp
  simp only [classifyRiskTier, hpoor, hfair, hband, or_false, and_true]
  split_ifs <;> rfl

/-- With sound credit the tier falls only when the ratio leaves the borderline band without
reaching the hard decline. -/
theorem rank_mono_iff_of_sound_credit {settings : Settings} {band : CreditBand}
    (hband : band = .excellent ∨ band = .good) {dti₁ dti₂ : ℚ} (h : dti₁ ≤ dti₂) :
    (classifyRiskTier dti₁ band settings).rank ≤ (classifyRiskTier dti₂ band settings).rank ↔
      ¬ LeavesBand settings band dti₁ dti₂ := by
  rw [rank_classifyRiskTier_of_sound_credit hband, rank_classifyRiskTier_of_sound_credit hband,
    LeavesBand, and_iff_right hband]
  grind

theorem rank_mono_iff (settings : Settings) (band : CreditBand) {dti₁ dti₂ : ℚ}
    (h : dti₁ ≤ dti₂) :
    (classifyRiskTier dti₁ band settings).rank ≤ (classifyRiskTier dti₂ band settings).rank ↔
      ¬ LeavesBand settings band dti₁ dti₂ := by
  cases band with
  | excellent => exact rank_mono_iff_of_sound_credit (.inl rfl) h
  | good => exact rank_mono_iff_of_sound_credit (.inr rfl) h
  | fair =>
      refine iff_of_true ?_ (by simp [LeavesBand])
      simp only [classifyRiskTier, reduceCtorEq, or_false, or_true, if_true]
      split_ifs with h₁ h₂
      · exact le_rfl
      · exact absurd (h₁.trans h) h₂
      · decide
      · exact le_rfl
  | poor => exact iff_of_true (by simp [classifyRiskTier]) (by simp [LeavesBand])

/-! ## The ratio -/

theorem computeDebtToIncomeRatio_of_no_income (debt : ℚ) : computeDebtToIncomeRatio 0 debt = 1 :=
  if_pos le_rfl

theorem computeDebtToIncomeRatio_of_pos {income : ℚ} (h : 0 < income) (debt : ℚ) :
    computeDebtToIncomeRatio income debt = roundTo (debt / income) 4 :=
  if_neg (not_le.2 h)

/-- Between positive incomes the ratio is antitone in the income and monotone in the debt. -/
theorem computeDebtToIncomeRatio_anti {income₁ debt₁ income₂ debt₂ : ℚ} (hpos : 0 < income₁)
    (hincome : income₁ ≤ income₂) (hnonneg : 0 ≤ debt₂) (hdebt : debt₂ ≤ debt₁) :
    computeDebtToIncomeRatio income₂ debt₂ ≤ computeDebtToIncomeRatio income₁ debt₁ := by
  rw [computeDebtToIncomeRatio_of_pos hpos,
    computeDebtToIncomeRatio_of_pos (hpos.trans_le hincome)]
  apply roundTo_mono
  exact div_le_div₀ (hnonneg.trans hdebt) hdebt hpos hincome

/-- The last ratio that is rounded to the whole income is half a unit above it. -/
theorem computeDebtToIncomeRatio_le_one_iff {income : ℚ} (hpos : 0 < income) (debt : ℚ) :
    computeDebtToIncomeRatio income debt ≤ 1 ↔ debt ≤ 1.00005 * income := by
  have hone : (1 : ℚ) = ((10000 : ℤ) : ℚ) / 10 ^ 4 := by norm_num
  have hscale : debt / income * 10 ^ 4 = debt * 10 ^ 4 / income := by ring
  rw [computeDebtToIncomeRatio_of_pos hpos, hone, roundTo_le_iff (by decide), hscale,
    div_le_iff₀ hpos]
  push_cast
  constructor
  · intro h
    linarith
  · intro h
    linarith

/-- The ratio falls exactly if the debt of the applicant with an income rounds above it. -/
theorem ratio_le_iff_not_roundsAboveIncome {income₁ income₂ debt₁ debt₂ : ℚ}
    (hincome₁ : 0 ≤ income₁) (hincome : income₁ ≤ income₂) (hdebt₂ : 0 ≤ debt₂)
    (hdebt : debt₂ ≤ debt₁) :
    computeDebtToIncomeRatio income₂ debt₂ ≤ computeDebtToIncomeRatio income₁ debt₁ ↔
      ¬ RoundsAboveIncome income₁ income₂ debt₂ := by
  rcases hincome₁.eq_or_lt with rfl | hpos
  · rw [computeDebtToIncomeRatio_of_no_income]
    rcases hincome.eq_or_lt with rfl | hpos₂
    · rw [computeDebtToIncomeRatio_of_no_income]
      exact iff_of_true le_rfl fun h => lt_irrefl _ h.2.1
    · rw [computeDebtToIncomeRatio_le_one_iff hpos₂, RoundsAboveIncome, and_iff_right rfl,
        and_iff_right hpos₂, not_lt]
  · apply iff_of_true (computeDebtToIncomeRatio_anti hpos hincome hdebt₂ hdebt)
    intro h
    exact hpos.ne' h.1

theorem atLeastAsRisky_iff (settings : Settings) (band : CreditBand)
    (income₁ income₂ debt₁ debt₂ : ℚ) (hincome₁ : 0 ≤ income₁) (hincome : income₁ ≤ income₂)
    (hdebt₂ : 0 ≤ debt₂) (hdebt : debt₂ ≤ debt₁) :
    AtLeastAsRisky settings band income₁ debt₁ income₂ debt₂ ↔
      ¬ RoundsAboveIncome income₁ income₂ debt₂ ∧
        ¬ BandBelowIncome settings band income₁ debt₁ income₂ debt₂ := by
  rw [← ratio_le_iff_not_roundsAboveIncome hincome₁ hincome hdebt₂ hdebt]
  constructor
  · rintro ⟨hratio, -, hrating⟩
    refine ⟨hratio, ?_⟩
    rintro ⟨rfl, hpos, rfl, hleaves⟩
    have hrank := hrating rfl hpos rfl
    rw [rank_mono_iff settings band hratio] at hrank
    rw [computeDebtToIncomeRatio_of_pos hpos, computeDebtToIncomeRatio_of_no_income] at hrank
    exact hrank hleaves
  · rintro ⟨hratio, hband⟩
    refine ⟨hratio, fun hhigh => classifyRiskTier_high_of_le hratio hhigh, ?_⟩
    rintro rfl hpos rfl
    rw [rank_mono_iff settings band hratio, computeDebtToIncomeRatio_of_pos hpos,
      computeDebtToIncomeRatio_of_no_income]
    intro hleaves
    exact hband ⟨rfl, hpos, rfl, hleaves⟩

theorem atLeastAsRisky_iff_sample :
    AtLeastAsRisky .default .good 0 400 5200 400 ↔
      ¬ RoundsAboveIncome 0 5200 400 ∧ ¬ BandBelowIncome .default .good 0 400 5200 400 :=
  atLeastAsRisky_iff .default .good 0 5200 400 400 le_rfl (by decide) (by decide) le_rfl

/-- With a hard decline at one and a half times the income and a debt of 200, an income of 100
is rated high and no income at all is rated medium. With a debt of 40, an income of 100 is rated
borderline and no income is rated medium, although its ratio is the larger one. -/
theorem no_income_rated_less_risky :
    Settings.Ordered ⟨0.36, 0.45, 1.5⟩ ∧
      classifyRiskTier (computeDebtToIncomeRatio 100 200) .good ⟨0.36, 0.45, 1.5⟩ = .high ∧
      classifyRiskTier (computeDebtToIncomeRatio 0 200) .good ⟨0.36, 0.45, 1.5⟩ = .medium ∧
      ¬ computeDebtToIncomeRatio 100 200 ≤ computeDebtToIncomeRatio 0 200 ∧
      ¬ AtLeastAsRisky ⟨0.36, 0.45, 1.5⟩ .good 0 200 100 200 ∧
      computeDebtToIncomeRatio 100 40 ≤ computeDebtToIncomeRatio 0 40 ∧
      classifyRiskTier (computeDebtToIncomeRatio 100 40) .good ⟨0.36, 0.45, 1.5⟩ = .borderline ∧
      classifyRiskTier (computeDebtToIncomeRatio 0 40) .good ⟨0.36, 0.45, 1.5⟩ = .medium ∧
      ¬ AtLeastAsRisky ⟨0.36, 0.45, 1.5⟩ .good 0 40 100 40 := by
  have hratio : ¬ computeDebtToIncomeRatio 100 200 ≤ computeDebtToIncomeRatio 0 200 := by
    decide +kernel
  have hborderline : classifyRiskTier (computeDebtToIncomeRatio 100 40) .good ⟨0.36, 0.45, 1.5⟩ =
      .borderline := by decide +kernel
  have hmedium : classifyRiskTier (computeDebtToIncomeRatio 0 40) .good ⟨0.36, 0.45, 1.5⟩ =
      .medium := by decide +kernel
  refine ⟨⟨by decide +kernel, by decide +kernel, by decide +kernel⟩, by decide +kernel,
    by decide +kernel, hratio, fun h => hratio h.ratio, by decide +kernel, hborderline, hmedium, ?_⟩
  intro h
  have hrating := h.rating rfl (by decide) rfl
  rw [hborderline, hmedium] at hrating
  exact absurd hrating (by decide)

end Underwriting
