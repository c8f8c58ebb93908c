import Underwriting.Guarantees.Resubmission
import Underwriting.Run.Fresh

/-!
# Decisions depend on the underwriting factors

Two fresh runs may differ in the applicant, the document, the purpose and the stated debt,
and in everything that happened in their processes before. As long as the factors that the
risk score, the policy check and the outcome read are the same, they take the same route and
the same decision. What the other fields feed into are warnings, which do not block, and
texts, which nothing reads.
-/

namespace Underwriting

open Python ApplicationService

/-- The factors of two cases agree. -/
structure SameFactors (a₁ a₂ : LoanApplication) (x₁ x₂ : ExtractedFinancials)
    (report₁ report₂ : CreditBureauReport) : Prop where
  amount : a₁.requestedAmount = a₂.requestedAmount
  statedIncome : a₁.statedAnnualIncome = a₂.statedAnnualIncome
  income : x₁.monthlyGrossIncome = x₂.monthlyGrossIncome
  debt : x₁.existingMonthlyDebtPayments = x₂.existingMonthlyDebtPayments
  confidence : x₁.extractionConfidence = x₂.extractionConfidence
  score : report₁.creditScore = report₂.creditScore
  band : report₁.creditBand = report₂.creditBand

/-! ## Risk, policy, routing and outcome -/

namespace SameFactors

variable {a₁ a₂ : LoanApplication} {x₁ x₂ : ExtractedFinancials}
  {report₁ report₂ : CreditBureauReport}

theorem monthlyIncome_eq (h : SameFactors a₁ a₂ x₁ x₂ report₁ report₂) :
    monthlyIncome a₁ x₁ = monthlyIncome a₂ x₂ := by
  rw [monthlyIncome, monthlyIncome, h.income, h.statedIncome]

theorem riskTier_eq (h : SameFactors a₁ a₂ x₁ x₂ report₁ report₂) (settings : Settings) :
    (assess settings a₁ x₁ report₁).riskTier = (assess settings a₂ x₂ report₂).riskTier := by
  simp only [assess, h.monthlyIncome_eq, h.debt, h.band]

theorem passed_eq (h : SameFactors a₁ a₂ x₁ x₂ report₁ report₂) (risk₁ risk₂ : RiskAssessment) :
    (evaluatePolicy a₁ x₁ risk₁).passed = (evaluatePolicy a₂ x₂ risk₂).passed := by
  rw [Bool.eq_iff_iff, evaluatePolicy_passed_iff, evaluatePolicy_passed_iff, overLeveraged_iff,
    overLeveraged_iff, h.amount, h.statedIncome, h.confidence]

end SameFactors

/-- The outcome reads the tier, the policy result, the reviewer's flag and the amount. -/
theorem determineOutcome_congr {a₁ a₂ : LoanApplication} {risk₁ risk₂ : RiskAssessment}
    {policy₁ policy₂ : PolicyResult} {res₁ res₂ : Option EscalationResolution}
    (hamount : a₁.requestedAmount = a₂.requestedAmount) (htier : risk₁.riskTier = risk₂.riskTier)
    (hpassed : policy₁.passed = policy₂.passed)
    (happrove : res₁.map EscalationResolution.approve = res₂.map EscalationResolution.approve) :
    (determineOutcome a₁ risk₁ policy₁ res₁).1 = (determineOutcome a₂ risk₂ policy₂ res₂).1 ∧
      (determineOutcome a₁ risk₁ policy₁ res₁).2.1 =
        (determineOutcome a₂ risk₂ policy₂ res₂).2.1 := by
  cases res₁ with
  | none =>
      obtain rfl := Option.map_eq_none_iff.1 happrove.symm
      rw [determineOutcome, determineOutcome, htier, hpassed, hamount]
      split_ifs <;> exact ⟨rfl, rfl⟩
  | some r₁ =>
      obtain ⟨r₂, rfl, heq⟩ := Option.map_eq_some_iff.1 happrove.symm
      rw [determineOutcome, determineOutcome, heq, hamount]
      split_ifs <;> exact ⟨rfl, rfl⟩

/-! ## Two runs -/

/-- What two threads share whose runs agree on the factors. -/
structure SameTreatment (t₁ t₂ : Thread) : Prop where
  riskTier : ∀ risk₁ risk₂ : RiskAssessment, t₁.values.riskAssessment = some risk₁.modelDump →
    t₂.values.riskAssessment = some risk₂.modelDump → risk₁.riskTier = risk₂.riskTier
  passed : ∀ policy₁ policy₂ : PolicyResult, t₁.values.policyResult = some policy₁.modelDump →
    t₂.values.policyResult = some policy₂.modelDump → policy₁.passed = policy₂.passed
  route : t₁.route = t₂.route
  /-- A reviewer has decided both cases or none, and when no two resolutions differ in the
  flag the decisions do not differ. -/
  decision : ∀ d₁ d₂ : Decision, t₁.values.decision = some d₁.modelDump →
    t₂.values.decision = some d₂.modelDump →
    (t₁.values.escalationResolution.isSome = t₂.values.escalationResolution.isSome) ∧
    ((∀ r₁ r₂ : EscalationResolution, t₁.values.escalationResolution = some r₁.modelDump →
        t₂.values.escalationResolution = some r₂.modelDump → r₁.approve = r₂.approve) →
      d₁.outcome = d₂.outcome ∧ d₁.approvedAmount = d₂.approvedAmount)

section Cases

variable {env₁ env₂ : Env} {a₁ a₂ : LoanApplication} {x₁ x₂ : ExtractedFinancials}

theorem riskTier_congr
    (h : SameFactors a₁ a₂ x₁ x₂ (fetchReport env₁ a₁.applicantFullName)
      (fetchReport env₂ a₂.applicantFullName)) (hsettings : env₁.settings = env₂.settings) :
    (riskFor env₁ a₁ x₁).riskTier = (riskFor env₂ a₂ x₂).riskTier := by
  rw [riskFor, riskFor, hsettings]
  exact h.riskTier_eq env₂.settings

theorem needsHuman_congr
    (h : SameFactors a₁ a₂ x₁ x₂ (fetchReport env₁ a₁.applicantFullName)
      (fetchReport env₂ a₂.applicantFullName)) (hsettings : env₁.settings = env₂.settings) :
    NeedsHuman env₁ a₁ x₁ ↔ NeedsHuman env₂ a₂ x₂ := by
  have hrequires : (riskFor env₁ a₁ x₁).requiresHumanEscalation =
      (riskFor env₂ a₂ x₂).requiresHumanEscalation :=
    congrArg (fun tier => decide (tier = RiskTier.borderline)) (riskTier_congr h hsettings)
  have hpassed : (policyFor env₁ a₁ x₁).passed = (policyFor env₂ a₂ x₂).passed := h.passed_eq _ _
  rw [NeedsHuman, NeedsHuman, hrequires, hpassed]

theorem route_fresh {env : Env} {a : LoanApplication} {c : String} {x : ExtractedFinancials}
    {p : Progress env a} (hx : p.appraised = some x) :
    ((Run.fresh a c).thread env p).route =
      some (if NeedsHuman env a x then .humanEscalation else .explainabilityAgent) := by
  have hslices := slices_fresh (c := c) p
  have hrisk := hslices.riskAssessment
  have hpolicy := hslices.policyResult
  rw [hx] at hrisk hpolicy
  rw [Thread.route, if_pos (by rw [hrisk, hpolicy]; exact ⟨rfl, rfl⟩),
    routeAfterPolicy_eq hrisk hpolicy]
  rfl

/-- Decisions of two cases with one gate come both from a reviewer or both from none. -/
theorem isSome_resolution_congr {p₁ : Progress env₁ a₁} {p₂ : Progress env₂ a₂} {d₁ d₂ : Decision}
    (hx₁ : p₁.extraction = some x₁) (hx₂ : p₂.extraction = some x₂)
    (hgate : NeedsHuman env₁ a₁ x₁ ↔ NeedsHuman env₂ a₂ x₂)
    (hd₁ : p₁.decision = some d₁) (hd₂ : p₂.decision = some d₂) :
    p₁.resolution.isSome = p₂.resolution.isSome := by
  obtain ⟨s₁, ρ₁, rfl, -⟩ := Progress.exists_completed hd₁
  obtain ⟨s₂, ρ₂, rfl, -⟩ := Progress.exists_completed hd₂
  obtain rfl : s₁.extracted = x₁ := Option.some.inj hx₁
  obtain rfl : s₂.extracted = x₂ := Option.some.inj hx₂
  rw [Bool.eq_iff_iff]
  exact s₁.gated.trans (hgate.trans s₂.gated.symm)

/-- For the same flag of the reviewer the same decision. -/
theorem decision_congr {p₁ : Progress env₁ a₁} {p₂ : Progress env₂ a₂} {d₁ d₂ : Decision}
    (hx₁ : p₁.extraction = some x₁) (hx₂ : p₂.extraction = some x₂)
    (hamount : a₁.requestedAmount = a₂.requestedAmount)
    (htier : (riskFor env₁ a₁ x₁).riskTier = (riskFor env₂ a₂ x₂).riskTier)
    (hpassed : (policyFor env₁ a₁ x₁).passed = (policyFor env₂ a₂ x₂).passed)
    (happrove : p₁.resolution.map EscalationResolution.approve =
      p₂.resolution.map EscalationResolution.approve)
    (hd₁ : p₁.decision = some d₁) (hd₂ : p₂.decision = some d₂) :
    d₁.outcome = d₂.outcome ∧ d₁.approvedAmount = d₂.approvedAmount := by
  obtain ⟨s₁, ρ₁, rfl, rfl⟩ := Progress.exists_completed hd₁
  obtain ⟨s₂, ρ₂, rfl, rfl⟩ := Progress.exists_completed hd₂
  obtain rfl : s₁.extracted = x₁ := Option.some.inj hx₁
  obtain rfl : s₂.extracted = x₂ := Option.some.inj hx₂
  exact determineOutcome_congr hamount htier hpassed happrove

theorem map_approve_congr {res₁ res₂ : Option EscalationResolution}
    (hsome : res₁.isSome = res₂.isSome)
    (h : ∀ r₁ r₂, res₁ = some r₁ → res₂ = some r₂ → r₁.approve = r₂.approve) :
    res₁.map EscalationResolution.approve = res₂.map EscalationResolution.approve := by
  cases res₁ with
  | none =>
      obtain rfl : res₂ = none :=
        Option.isNone_iff_eq_none.1 (Option.isSome_eq_false_iff.1 hsome.symm)
      rfl
  | some r₁ =>
      obtain ⟨r₂, rfl⟩ := Option.isSome_iff_exists.1 hsome.symm
      exact congrArg some (h r₁ r₂ rfl rfl)

/-- Cases with one gate, one tier and one result of the policy check are treated alike. -/
theorem sameTreatment_fresh {c₁ c₂ : String} {p₁ : Progress env₁ a₁} {p₂ : Progress env₂ a₂}
    (hx₁ : p₁.appraised = some x₁) (hx₂ : p₂.appraised = some x₂)
    (h : SameFactors a₁ a₂ x₁ x₂ (fetchReport env₁ a₁.applicantFullName)
      (fetchReport env₂ a₂.applicantFullName)) (hsettings : env₁.settings = env₂.settings) :
    SameTreatment ((Run.fresh a₁ c₁).thread env₁ p₁) ((Run.fresh a₂ c₂).thread env₂ p₂) := by
  have hslices₁ := slices_fresh (c := c₁) p₁
  have hslices₂ := slices_fresh (c := c₂) p₂
  have hextracted₁ := Progress.extraction_of_appraised hx₁
  have hextracted₂ := Progress.extraction_of_appraised hx₂
  have hgate := needsHuman_congr h hsettings
  have htier := riskTier_congr h hsettings
  have hpassed : (policyFor env₁ a₁ x₁).passed = (policyFor env₂ a₂ x₂).passed := h.passed_eq _ _
  constructor
  case riskTier =>
    intro risk₁ risk₂ hrisk₁ hrisk₂
    obtain rfl := hslices₁.risk_eq hextracted₁ hrisk₁
    obtain rfl := hslices₂.risk_eq hextracted₂ hrisk₂
    exact htier
  case passed =>
    intro policy₁ policy₂ hpolicy₁ hpolicy₂
    obtain rfl := hslices₁.policy_eq hx₁ hpolicy₁
    obtain rfl := hslices₂.policy_eq hx₂ hpolicy₂
    exact hpassed
  case route =>
    rw [route_fresh hx₁, route_fresh hx₂]
    simp only [hgate]
  case decision =>
    intro d₁ d₂ hd₁ hd₂
    have hdecision₁ := hslices₁.decision_eq hd₁
    have hdecision₂ := hslices₂.decision_eq hd₂
    have hreviewed := isSome_resolution_congr hextracted₁ hextracted₂ hgate hdecision₁ hdecision₂
    rw [hslices₁.escalationResolution, hslices₂.escalationResolution, Option.isSome_map,
      Option.isSome_map]
    refine ⟨hreviewed, fun happrove => ?_⟩
    refine decision_congr hextracted₁ hextracted₂ h.amount htier hpassed ?_ hdecision₁ hdecision₂
    apply map_approve_congr hreviewed
    intro r₁ r₂ hr₁ hr₂
    apply happrove r₁ r₂
    · rw [hr₁, Option.map_some]
    · rw [hr₂, Option.map_some]

end Cases

theorem same_factors_same_treatment (env₁ env₂ : Env) (hsettings : env₁.settings = env₂.settings)
    (before₁ before₂ later₁ later₂ : List Call) (a₁ a₂ : LoanApplication)
    (hfresh₁ : (run env₁ before₁ .init).store a₁.applicationId = none)
    (hfresh₂ : (run env₂ before₂ .init).store a₂.applicationId = none)
    (hno₁ : a₁.applicationId ∉ submittedIds later₁) (hno₂ : a₂.applicationId ∉ submittedIds later₂)
    (t₁ t₂ : Thread)
    (ht₁ : (run env₁ (.start a₁ :: later₁) (run env₁ before₁ .init)).store a₁.applicationId =
      some t₁)
    (ht₂ : (run env₂ (.start a₂ :: later₂) (run env₂ before₂ .init)).store a₂.applicationId =
      some t₂)
    (x₁ x₂ : ExtractedFinancials) (risk₁ risk₂ : RiskAssessment)
    (hx₁ : t₁.values.extractedFinancials = some x₁.modelDump)
    (hx₂ : t₂.values.extractedFinancials = some x₂.modelDump)
    (hrisk₁ : t₁.values.riskAssessment = some risk₁.modelDump)
    (hrisk₂ : t₂.values.riskAssessment = some risk₂.modelDump)
    (hfactors : SameFactors a₁ a₂ x₁ x₂ risk₁.creditReport risk₂.creditReport) :
    SameTreatment t₁ t₂ := by
  obtain ⟨c₁, p₁, rfl, hslices₁⟩ := exists_slices hfresh₁ hno₁ ht₁
  obtain ⟨c₂, p₂, rfl, hslices₂⟩ := exists_slices hfresh₂ hno₂ ht₂
  have hp₁ := hslices₁.extraction_eq hx₁
  have hp₂ := hslices₂.extraction_eq hx₂
  have happraised₁ := hslices₁.appraised_eq hp₁ (by simp [hrisk₁])
  have happraised₂ := hslices₂.appraised_eq hp₂ (by simp [hrisk₂])
  obtain rfl := hslices₁.risk_eq hp₁ hrisk₁
  obtain rfl := hslices₂.risk_eq hp₂ hrisk₂
  exact sameTreatment_fresh happraised₁ happraised₂ hfactors hsettings

theorem debt_range_renamed : (0 : ℚ) ≤ 9000 ∧ (9000 : ℚ) ≤ 1000000 := by norm_num

/-- Two applicants with the same score, the same figures and the same extraction. -/
def renamedApplication : LoanApplication :=
  { sampleApplication with
    applicationId := "app_2"
    applicantFullName := "Jordan J. Renamed"
    employmentStatus := .unemployed
    statedMonthlyDebt := 9000
    name_length := by decide
    name_stripped := by decide
    debt_range := debt_range_renamed }

theorem not_needsHuman_renamed :
    ¬ NeedsHuman sampleEnv renamedApplication sampleExtraction := by decide +kernel

theorem sameFactors_renamed :
    SameFactors sampleApplication renamedApplication sampleExtraction sampleExtraction
      (fetchReport sampleEnv sampleApplication.applicantFullName)
      (fetchReport sampleEnv renamedApplication.applicantFullName) :=
  ⟨rfl, rfl, rfl, rfl, rfl, rfl, rfl⟩

theorem same_treatment_renamed :
    ∃ t₁ t₂, (run sampleEnv [.start sampleApplication] .init).store "app_1" = some t₁ ∧
      (run sampleEnv [.start renamedApplication] .init).store "app_2" = some t₂ ∧
      SameTreatment t₁ t₂ := by
  obtain ⟨ρ₁, hstore₁, -⟩ := run_start_completes (replies_sample _) not_needsHuman_sample
  obtain ⟨ρ₂, hstore₂, -⟩ := run_start_completes (replies_sample _) not_needsHuman_renamed
  exact ⟨_, _, hstore₁, hstore₂, same_factors_same_treatment sampleEnv sampleEnv rfl [] [] [] []
    sampleApplication renamedApplication rfl rfl List.not_mem_nil List.not_mem_nil _ _ hstore₁
    hstore₂ sampleExtraction sampleExtraction _ _ rfl rfl rfl rfl sameFactors_renamed⟩

end Underwriting
