import Underwriting.Run.Replies

/-!
# The decision table

The classification, the policy check, the routing edge and the outcome each look at a part
of the inputs. Together they are one table: a case is gated when its ratio or its credit
band is borderline, when the request is over-leveraged or when the extraction is not
confident enough, and a case that is not gated is denied exactly when its tier is high.
The human gate follows `Gated` in every reachable state of every run whose id is submitted
once.
-/

namespace Underwriting

open Python

/-- The condition under which a reviewer has to decide, from the debt-to-income ratio, the
credit band and the inputs. -/
def Gated (settings : Settings) (a : LoanApplication) (x : ExtractedFinancials) (dti : ℚ)
    (band : CreditBand) : Prop :=
  (dti < settings.dtiHardDecline ∧ band ≠ .poor ∧
      ((settings.dtiBorderlineLow ≤ dti ∧ dti < settings.dtiBorderlineHigh) ∨ band = .fair)) ∨
    5 * a.statedAnnualIncome < a.requestedAmount ∨ x.extractionConfidence < 0.50

/-- The routing edge implements the gate. -/
theorem needsHuman_iff (env : Env) (a : LoanApplication) (x : ExtractedFinancials) :
    NeedsHuman env a x ↔ Gated env.settings a x (riskFor env a x).debtToIncomeRatio
      (riskFor env a x).creditReport.creditBand := by
  have htier : (riskFor env a x).requiresHumanEscalation = true ↔
      classifyRiskTier (riskFor env a x).debtToIncomeRatio
        (riskFor env a x).creditReport.creditBand env.settings = .borderline := by
    simp [riskFor, assess]
  rw [NeedsHuman, Gated, policyFor_passed_eq_false_iff, htier, classifyRiskTier_eq_borderline_iff,
    not_or, not_le, and_assoc]

/-- A case that has no resolution is denied exactly when its tier is high or its policy
check has failed. -/
theorem decisionFor_none_denied_iff (env : Env) (a : LoanApplication) (x : ExtractedFinancials)
    (rationale : Rationale) :
    (decisionFor env a x none rationale).outcome = .denied ↔
      (env.settings.dtiHardDecline ≤ (riskFor env a x).debtToIncomeRatio ∨
        (riskFor env a x).creditReport.creditBand = .poor) ∨
      (policyFor env a x).passed = false := by
  rw [← classifyRiskTier_eq_high_iff]
  exact determineOutcome_none_denied_iff a (riskFor env a x) (policyFor env a x)

theorem decisionFor_some_approved_iff (env : Env) (a : LoanApplication) (x : ExtractedFinancials)
    (res : EscalationResolution) (rationale : Rationale) :
    (decisionFor env a x (some res) rationale).outcome = .approved ↔ res.approve = true :=
  determineOutcome_some_approved_iff a (riskFor env a x) (policyFor env a x) res

/-! ## The gate in every reachable state -/

/-- A decision that is stored follows the stored resolution. -/
def FollowsReviewer (v : UnderwritingState) : Prop :=
  ∀ j, v.decision = some j → ∃ (res : EscalationResolution) (d : Decision),
    v.escalationResolution = some res.modelDump ∧ j = d.modelDump ∧
      (d.outcome = .approved ↔ res.approve = true) ∧
      d.decidedBy = s!"human_reviewer:{res.reviewerId}"

/-- No resolution is stored, and a decision that is stored is the automatic one. -/
def FollowsTable (settings : Settings) (risk : RiskAssessment) (v : UnderwritingState) : Prop :=
  v.escalationResolution = none ∧ ∀ j, v.decision = some j → ∃ d : Decision,
    j = d.modelDump ∧ d.decidedBy = "explainability_agent" ∧
      (d.outcome = .denied ↔
        settings.dtiHardDecline ≤ risk.debtToIncomeRatio ∨ risk.creditReport.creditBand = .poor)

/-- The values of a settled case of a run that was started over blank values. -/
theorem Run.effective_of_blank {env : Env} {R : Run} (hblank : R.base = .blank)
    (c : Settled env R.application) : R.effective env c = c.resolution := by
  have hstale : R.stale = none := by
    have h := R.base_resolution
    rw [hblank] at h
    cases hR : R.stale with
    | none => rfl
    | some res =>
        rw [hR] at h
        cases h
  rw [Run.effective, hstale, Option.or_none]

/-- What the table says about the values of a thread, by the ratio and the band stored
there. -/
def HumanGate (settings : Settings) (v : UnderwritingState) : Prop :=
  ∃ (a : LoanApplication) (x : ExtractedFinancials) (risk : RiskAssessment),
    v.application = a.modelDump ∧ v.extractedFinancials = some x.modelDump ∧
    v.riskAssessment = some risk.modelDump ∧
    (Gated settings a x risk.debtToIncomeRatio risk.creditReport.creditBand →
      FollowsReviewer v) ∧
    (¬ Gated settings a x risk.debtToIncomeRatio risk.creditReport.creditBand →
      FollowsTable settings risk v)

section Cases

variable {env : Env} {R : Run} {v : UnderwritingState} {x : ExtractedFinancials}

theorem followsReviewer_of_undecided (h : v.decision = none) : FollowsReviewer v := by
  intro j hj
  rw [h] at hj
  cases hj

/-- Only the first half of the table is about a case that needs a reviewer. -/
theorem humanGate_of_needsHuman (happlication : v.application = R.application.modelDump)
    (hx : v.extractedFinancials = some x.modelDump)
    (hrisk : v.riskAssessment = some (riskFor env R.application x).modelDump)
    (h : NeedsHuman env R.application x) (hv : FollowsReviewer v) : HumanGate env.settings v := by
  refine ⟨R.application, x, riskFor env R.application x, happlication, hx, hrisk, fun _ => hv, ?_⟩
  intro hgated
  exact absurd ((needsHuman_iff env R.application x).1 h) hgated

/-- Only the second half of the table is about a case that needs none. -/
theorem humanGate_of_not_needsHuman (happlication : v.application = R.application.modelDump)
    (hx : v.extractedFinancials = some x.modelDump)
    (hrisk : v.riskAssessment = some (riskFor env R.application x).modelDump)
    (h : ¬ NeedsHuman env R.application x)
    (hv : FollowsTable env.settings (riskFor env R.application x) v) :
    HumanGate env.settings v := by
  refine ⟨R.application, x, riskFor env R.application x, happlication, hx, hrisk, ?_, fun _ => hv⟩
  intro hgated
  exact absurd ((needsHuman_iff env R.application x).2 hgated) h

/-- A reviewer's case is completed as the reviewer says. -/
theorem followsReviewer_completed (hblank : R.base = .blank) (res : EscalationResolution)
    (hgate : (some res).isSome = true ↔ NeedsHuman env R.application x) (rationale : Rationale) :
    FollowsReviewer (R.thread env (.completed ⟨x, some res, hgate⟩ rationale)).values := by
  intro j hj
  refine ⟨res, R.decision env ⟨x, some res, hgate⟩ rationale, rfl, (Option.some.inj hj).symm, ?_⟩
  rw [Run.decision, Run.effective_of_blank hblank]
  exact ⟨decisionFor_some_approved_iff env R.application x res rationale, rfl⟩

/-- Any other case is completed by the table; its policy check has passed. -/
theorem followsTable_completed (hblank : R.base = .blank)
    (hgate : (none : Option EscalationResolution).isSome = true ↔ NeedsHuman env R.application x)
    (h : ¬ NeedsHuman env R.application x) (rationale : Rationale) :
    FollowsTable env.settings (riskFor env R.application x)
      (R.thread env (.completed ⟨x, none, hgate⟩ rationale)).values := by
  have hpassed : ¬ (policyFor env R.application x).passed = false := fun hfalse => h (.inr hfalse)
  have hresolution : R.base.escalationResolution = none := by rw [hblank]; rfl
  refine ⟨hresolution, fun j hj => ?_⟩
  refine ⟨R.decision env ⟨x, none, hgate⟩ rationale, (Option.some.inj hj).symm, ?_⟩
  rw [Run.decision, Run.effective_of_blank hblank]
  refine ⟨rfl, ?_⟩
  rw [decisionFor_none_denied_iff, or_iff_left hpassed]

end Cases

theorem human_gate (env : Env) (calls : List Call) (hnodup : (submittedIds calls).Nodup)
    (id : String) (t : Thread) (ht : (run env calls .init).store id = some t)
    (hpolicy : t.values.policyResult ≠ none) : HumanGate env.settings t.values := by
  obtain ⟨R, p, hblank, -, rfl⟩ := (sound_of_nodup env calls hnodup).1.threads id t ht
  have hdecision : R.base.decision = none := by rw [hblank]; rfl
  have hresolution : R.base.escalationResolution = none := by rw [hblank]; rfl
  cases p with
  | extracting =>
      have hnone : R.base.policyResult = none := by rw [hblank]; rfl
      exact absurd hnone hpolicy
  | scoring x h =>
      have hnone : R.base.policyResult = none := by rw [hblank]; rfl
      exact absurd hnone hpolicy
  | awaiting x h =>
      exact humanGate_of_needsHuman rfl rfl rfl h (followsReviewer_of_undecided hdecision)
  | explaining c =>
      obtain ⟨x, res, hgate⟩ := c
      cases res with
      | none =>
          have h : ¬ NeedsHuman env R.application x := fun h => Bool.false_ne_true (hgate.2 h)
          refine humanGate_of_not_needsHuman rfl rfl rfl h ⟨hresolution, fun j hj => ?_⟩
          exact absurd (hj.symm.trans hdecision) (Option.some_ne_none j)
      | some res =>
          exact humanGate_of_needsHuman rfl rfl rfl (hgate.1 rfl)
            (followsReviewer_of_undecided hdecision)
  | completed c rationale =>
      obtain ⟨x, res, hgate⟩ := c
      cases res with
      | none =>
          have h : ¬ NeedsHuman env R.application x := fun h => Bool.false_ne_true (hgate.2 h)
          exact humanGate_of_not_needsHuman rfl rfl rfl h
            (followsTable_completed hblank hgate h rationale)
      | some res =>
          exact humanGate_of_needsHuman rfl rfl rfl (hgate.1 rfl)
            (followsReviewer_completed hblank res hgate rationale)

/-! ## A poor credit band -/

/-- A model that reads the same pay stub off every document, for an applicant with poor
credit. -/
def poorCreditEnv : Env :=
  .scripted .default sampleDigest (some ⟨"", some sampleExtraction.modelDump⟩)
    (some ⟨"Denied.", none⟩)

def poorCreditApplication : LoanApplication :=
  { sampleApplication with
    applicantFullName := "Dana R. Applicant"
    name_length := by decide
    name_stripped := by decide }

theorem replies_poorCredit : Replies poorCreditEnv poorCreditApplication sampleExtraction :=
  replies_scripted (validateExtraction_modelDump _ _) finite_sample (by decide) _

theorem not_needsHuman_poorCredit :
    ¬ NeedsHuman poorCreditEnv poorCreditApplication sampleExtraction := by decide +kernel

/-- The band alone denies the application. -/
theorem denied_poorCredit (rationale : Rationale) :
    (decisionFor poorCreditEnv poorCreditApplication sampleExtraction none rationale).outcome =
      .denied :=
  (decisionFor_none_denied_iff _ _ _ _).2 (.inl (.inr (by decide)))

theorem human_gate_poorCredit :
    ∃ t, (run poorCreditEnv [.start poorCreditApplication] .init).store "app_1" = some t ∧
      t.values.policyResult ≠ none ∧ HumanGate poorCreditEnv.settings t.values := by
  obtain ⟨rationale, hstore, -⟩ :=
    run_start_completes replies_poorCredit not_needsHuman_poorCredit
  have hpolicy : ((Run.first poorCreditEnv poorCreditApplication).thread poorCreditEnv
      (.completed (.automatic sampleExtraction not_needsHuman_poorCredit)
        rationale)).values.policyResult ≠ none := Option.some_ne_none _
  exact ⟨_, hstore, hpolicy,
    human_gate poorCreditEnv [.start poorCreditApplication] (by decide) "app_1" _ hstore hpolicy⟩

/-- The application is not gated and its ratio is below the hard decline, yet it is denied:
its credit band alone makes the tier high. -/
theorem denied_below_hard_decline :
    (submittedIds [.start poorCreditApplication]).Nodup ∧
    ∃ (t : Thread) (risk : RiskAssessment) (d : Decision),
      (run poorCreditEnv [.start poorCreditApplication] .init).store "app_1" = some t ∧
      t.values.application = poorCreditApplication.modelDump ∧
      t.values.extractedFinancials = some sampleExtraction.modelDump ∧
      t.values.riskAssessment = some risk.modelDump ∧ t.values.policyResult ≠ none ∧
      ¬ Gated poorCreditEnv.settings poorCreditApplication sampleExtraction
        risk.debtToIncomeRatio risk.creditReport.creditBand ∧
      t.values.decision = some d.modelDump ∧ d.outcome = .denied ∧
      risk.debtToIncomeRatio < poorCreditEnv.settings.dtiHardDecline := by
  obtain ⟨rationale, hstore, -⟩ :=
    run_start_completes replies_poorCredit not_needsHuman_poorCredit
  refine ⟨by decide, _, riskFor poorCreditEnv poorCreditApplication sampleExtraction,
    decisionFor poorCreditEnv poorCreditApplication sampleExtraction none rationale, hstore,
    rfl, rfl, rfl, Option.some_ne_none _, ?_, rfl, ?_, by decide +kernel⟩
  · rw [← needsHuman_iff]
    exact not_needsHuman_poorCredit
  · exact denied_poorCredit rationale

end Underwriting
