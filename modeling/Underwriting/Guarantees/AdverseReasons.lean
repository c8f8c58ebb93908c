import Underwriting.Guarantees.DecisionTable
import Underwriting.Guarantees.Resubmission

/-!
# Adverse-action reasons

The reasons of a denial are put together from the risk tier, the credit band and the flags,
not from the condition that has made the tier high. So for a poor credit band the ratio is
named as well, whatever it is. Every other reason is named exactly when it is one.

Reasons are told apart by their first characters: each kind of text opens differently.
-/

namespace Underwriting

open Python ApplicationService

/-! ## Texts -/

def ratioReason (ratio : ℚ) : String :=
  s!"Debt-to-income ratio of {formatPercent ratio 1} exceeds the " ++
    "acceptable underwriting threshold."

def bandReason (score : ℤ) : String :=
  "Credit bureau band classified as 'poor' (score " ++ s!"{score})."

/-- A flag that the policy check can raise on some application and extraction. -/
def Raisable (f : PolicyFlag) : Prop :=
  ∃ (a : LoanApplication) (x : ExtractedFinancials), f ∈ [overLeveragedFlag a,
    lowConfidenceFlag x, debtInconsistencyFlag a x, unemployedFlag, selfEmployedFlag]

/-- The flag counts against the applicant. -/
def Adverse (f : PolicyFlag) : Prop := f.severity = .block ∨ f.severity = .warn

theorem raisable_of_mem_policyFlags {a : LoanApplication} {x : ExtractedFinancials}
    {f : PolicyFlag} (h : f ∈ policyFlags a x) : Raisable f := by
  refine ⟨a, x, ?_⟩
  simp only [policyFlags, List.mem_append, List.mem_ite_nil_right, List.mem_singleton] at h
  simp only [List.mem_cons, List.not_mem_nil]
  tauto

/-- The first characters of a text. -/
def opening (text : String) : List Char := text.toList.take 11

theorem opening_ratioReason (ratio : ℚ) : opening (ratioReason ratio) = "Debt-to-inc".toList := by
  delta ratioReason
  simp [opening, toString]

theorem opening_bandReason (score : ℤ) : opening (bandReason score) = "Credit bure".toList := by
  delta bandReason
  simp [opening, toString]

theorem opening_humanDenialReason : opening humanDenialReason = "Human revie".toList := by
  delta humanDenialReason
  simp [opening]

/-- Opening, code and severity of the five flags. -/
def flagTable : List (List Char × String × PolicySeverity) :=
  [("Requested a".toList, "OVER_LEVERAGED_REQUEST", .block),
    ("Document ex".toList, "LOW_EXTRACTION_CONFIDENCE", .block),
    ("Applicant-s".toList, "DEBT_STATEMENT_INCONSISTENCY", .warn),
    ("Applicant r".toList, "UNEMPLOYED_APPLICANT", .warn),
    ("Self-employ".toList, "SELF_EMPLOYED_INCOME_VARIABILITY", .info)]

theorem mem_flagTable {f : PolicyFlag} (h : Raisable f) :
    (opening f.description, f.code, f.severity) ∈ flagTable := by
  obtain ⟨a, x, hf⟩ := h
  simp only [List.mem_cons, List.not_mem_nil, or_false] at hf
  rcases hf with rfl | rfl | rfl | rfl | rfl
  · simp [flagTable, opening, overLeveragedFlag, toString]
  · simp [flagTable, opening, lowConfidenceFlag, toString]
  · simp [flagTable, opening, debtInconsistencyFlag, toString]
  · simp [flagTable, opening, unemployedFlag]
  · simp [flagTable, opening, selfEmployedFlag]

/-- A flag opens as none of the other reasons does. -/
theorem opening_ne_of_raisable {f : PolicyFlag} (h : Raisable f) :
    opening f.description ≠ "Debt-to-inc".toList ∧
      opening f.description ≠ "Credit bure".toList ∧
      opening f.description ≠ "Human revie".toList := by
  have htable : ∀ row ∈ flagTable, row.1 ≠ "Debt-to-inc".toList ∧ row.1 ≠ "Credit bure".toList ∧
      row.1 ≠ "Human revie".toList := by decide
  exact htable _ (mem_flagTable h)

/-- Flags are the same when their descriptions are. -/
theorem eq_of_description_eq {f g : PolicyFlag} (hf : Raisable f) (hg : Raisable g)
    (h : f.description = g.description) : f = g := by
  have htable : ∀ row ∈ flagTable, ∀ row' ∈ flagTable, row.1 = row'.1 → row = row' := by decide
  have hrow := htable _ (mem_flagTable hf) _ (mem_flagTable hg) (congrArg opening h)
  cases f
  cases g
  simp only [Prod.mk.injEq] at hrow
  obtain ⟨-, rfl, rfl⟩ := hrow
  rw [PolicyFlag.mk.injEq]
  exact ⟨rfl, h, rfl⟩

/-! ## The reasons of a denial -/

theorem mem_adverseReasons_iff (risk : RiskAssessment) (policy : PolicyResult) (text : String) :
    text ∈ adverseReasons risk policy ↔
      risk.riskTier = .high ∧ text = ratioReason risk.debtToIncomeRatio ∨
      (risk.riskTier = .high ∧ risk.creditReport.creditBand = .poor) ∧
        text = bandReason risk.creditReport.creditScore ∨
      ∃ f ∈ policy.flags, Adverse f ∧ f.description = text := by
  rw [adverseReasons, List.mem_append, List.mem_map, ← or_assoc]
  simp only [List.mem_filter, decide_eq_true_eq, and_assoc]
  refine or_congr ?_ Iff.rfl
  split_ifs with hhigh hpoor
  · simp only [List.mem_append, List.mem_singleton, hhigh, hpoor, true_and]
    exact Iff.rfl
  · simp only [List.mem_append, List.mem_singleton, List.not_mem_nil, hhigh, hpoor, and_false,
      false_and, true_and]
    exact Iff.rfl
  · simp [hhigh]

section Reasons

variable {risk : RiskAssessment} {policy : PolicyResult}

theorem exists_ratioReason_iff (hflags : ∀ f ∈ policy.flags, Raisable f) :
    (∃ ratio, ratioReason ratio ∈ adverseReasons risk policy) ↔ risk.riskTier = .high := by
  simp only [mem_adverseReasons_iff]
  constructor
  · rintro ⟨ratio, ⟨hhigh, -⟩ | ⟨⟨hhigh, -⟩, -⟩ | ⟨f, hf, -, htext⟩⟩
    · exact hhigh
    · exact hhigh
    · have hopening := (opening_ne_of_raisable (hflags f hf)).1
      rw [htext, opening_ratioReason] at hopening
      exact absurd rfl hopening
  · intro hhigh
    exact ⟨_, .inl ⟨hhigh, rfl⟩⟩

theorem exists_bandReason_iff (hflags : ∀ f ∈ policy.flags, Raisable f) :
    (∃ score, bandReason score ∈ adverseReasons risk policy) ↔
      risk.riskTier = .high ∧ risk.creditReport.creditBand = .poor := by
  simp only [mem_adverseReasons_iff]
  constructor
  · rintro ⟨score, ⟨-, htext⟩ | ⟨hpoor, -⟩ | ⟨f, hf, -, htext⟩⟩
    · have hopening := congrArg opening htext
      rw [opening_bandReason, opening_ratioReason] at hopening
      exact absurd hopening (by decide)
    · exact hpoor
    · have hopening := (opening_ne_of_raisable (hflags f hf)).2.1
      rw [htext, opening_bandReason] at hopening
      exact absurd rfl hopening
  · intro hpoor
    exact ⟨_, .inr (.inl ⟨hpoor, rfl⟩)⟩

theorem description_mem_iff (hflags : ∀ f ∈ policy.flags, Raisable f) {f : PolicyFlag}
    (hf : Raisable f) :
    f.description ∈ adverseReasons risk policy ↔ f ∈ policy.flags ∧ Adverse f := by
  rw [mem_adverseReasons_iff]
  constructor
  · rintro (⟨-, htext⟩ | ⟨-, htext⟩ | ⟨g, hg, hadverse, htext⟩)
    · have hopening := (opening_ne_of_raisable hf).1
      rw [htext, opening_ratioReason] at hopening
      exact absurd rfl hopening
    · have hopening := (opening_ne_of_raisable hf).2.1
      rw [htext, opening_bandReason] at hopening
      exact absurd rfl hopening
    · obtain rfl := eq_of_description_eq (hflags g hg) hf htext
      exact ⟨hg, hadverse⟩
  · rintro ⟨hmem, hadverse⟩
    exact .inr (.inr ⟨f, hmem, hadverse, rfl⟩)

/-- A denial gives the adverse reasons, and a reviewer's denial without any gives its own. -/
theorem mem_reasons_iff {a : LoanApplication} {res : Option EscalationResolution} {text : String}
    (hdenied : (determineOutcome a risk policy res).1 = .denied)
    (htext : opening text ≠ "Human revie".toList) :
    text ∈ (determineOutcome a risk policy res).2.2 ↔ text ∈ adverseReasons risk policy := by
  cases res with
  | none =>
      rw [determineOutcome_none_denied_iff] at hdenied
      rw [determineOutcome, if_pos hdenied]
  | some r =>
      have hrejected : ¬ r.approve = true := by
        rw [← determineOutcome_some_approved_iff a risk policy r, hdenied]
        exact fun h => by cases h
      rw [determineOutcome, if_neg hrejected]
      by_cases hempty : adverseReasons risk policy = []
      · have hhuman : text ≠ humanDenialReason := fun h =>
          htext ((congrArg opening h).trans opening_humanDenialReason)
        simp [hempty, hhuman]
      · rw [if_neg hempty]

end Reasons

/-! ## Every denial -/

/-- The reasons name the ratio, the band and the flags exactly when they count against the
applicant. -/
structure ReasonsExact (settings : Settings) (risk : RiskAssessment) (policy : PolicyResult)
    (reasons : List String) : Prop where
  ratio : (∃ ratio, ratioReason ratio ∈ reasons) ↔
    settings.dtiHardDecline ≤ risk.debtToIncomeRatio
  band : (∃ score, bandReason score ∈ reasons) ↔ risk.creditReport.creditBand = .poor
  flag : ∀ f, Raisable f → (f.description ∈ reasons ↔ f ∈ policy.flags ∧ Adverse f)

theorem mem_decisionFor_iff {env : Env} {a : LoanApplication} {x : ExtractedFinancials}
    {res : Option EscalationResolution} {rationale : Rationale} {text : String}
    (hdenied : (decisionFor env a x res rationale).outcome = .denied)
    (htext : opening text ≠ "Human revie".toList) :
    text ∈ (decisionFor env a x res rationale).adverseActionReasons ↔
      text ∈ adverseReasons (riskFor env a x) (policyFor env a x) :=
  mem_reasons_iff hdenied htext

/-- What is wrong with the reasons of a denial is wrong with the ratio. -/
theorem reasonsExact_decisionFor_iff {env : Env} {a : LoanApplication} {x : ExtractedFinancials}
    {res : Option EscalationResolution} {rationale : Rationale}
    (hdenied : (decisionFor env a x res rationale).outcome = .denied) :
    ReasonsExact env.settings (riskFor env a x) (policyFor env a x)
        (decisionFor env a x res rationale).adverseActionReasons ↔
      ((riskFor env a x).creditReport.creditBand = .poor →
        env.settings.dtiHardDecline ≤ (riskFor env a x).debtToIncomeRatio) := by
  have hflags : ∀ f ∈ (policyFor env a x).flags, Raisable f := fun f hf =>
    raisable_of_mem_policyFlags hf
  have hhigh : (riskFor env a x).riskTier = .high ↔
      env.settings.dtiHardDecline ≤ (riskFor env a x).debtToIncomeRatio ∨
        (riskFor env a x).creditReport.creditBand = .poor := classifyRiskTier_eq_high_iff _ _ _
  have hratio : (∃ ratio, ratioReason ratio ∈
      (decisionFor env a x res rationale).adverseActionReasons) ↔
        (riskFor env a x).riskTier = .high := by
    rw [← exists_ratioReason_iff hflags]
    refine exists_congr fun ratio => mem_decisionFor_iff hdenied ?_
    rw [opening_ratioReason]
    decide
  have hband : (∃ score, bandReason score ∈
      (decisionFor env a x res rationale).adverseActionReasons) ↔
        (riskFor env a x).creditReport.creditBand = .poor := by
    have hpoor : (riskFor env a x).riskTier = .high ∧
        (riskFor env a x).creditReport.creditBand = .poor ↔
          (riskFor env a x).creditReport.creditBand = .poor :=
      and_iff_right_of_imp fun h => hhigh.2 (.inr h)
    rw [← hpoor, ← exists_bandReason_iff hflags]
    refine exists_congr fun score => mem_decisionFor_iff hdenied ?_
    rw [opening_bandReason]
    decide
  constructor
  · intro hexact hpoor
    exact hexact.ratio.1 (hratio.2 (hhigh.2 (.inr hpoor)))
  · intro hpoor
    refine ⟨?_, hband, fun f hf => ?_⟩
    · rw [hratio, hhigh]
      exact or_iff_left_of_imp hpoor
    · exact (mem_decisionFor_iff hdenied (opening_ne_of_raisable hf).2.2).trans
        (description_mem_iff hflags hf)

theorem reasons_exact_iff (env : Env) (calls : List Call) (id : String) (t : Thread)
    (ht : (run env calls .init).store id = some t)
    (hcompleted : (summarize id t).status = "completed")
    (risk : RiskAssessment) (policy : PolicyResult) (d : Decision)
    (hrisk : t.values.riskAssessment = some risk.modelDump)
    (hpolicy : t.values.policyResult = some policy.modelDump)
    (hd : t.values.decision = some d.modelDump) (hdenied : d.outcome = .denied) :
    ReasonsExact env.settings risk policy d.adverseActionReasons ↔
      (risk.creditReport.creditBand = .poor →
        env.settings.dtiHardDecline ≤ risk.debtToIncomeRatio) := by
  obtain ⟨R, p, -, rfl, rfl⟩ := (sound_run env calls).threads id t ht
  obtain ⟨c, rationale, rfl⟩ := Run.exists_completed hcompleted
  obtain ⟨x, resolution, hgated⟩ := c
  have hvalues : (R.thread env (.completed ⟨x, resolution, hgated⟩ rationale)).values.riskAssessment
        = some (riskFor env R.application x).modelDump ∧
      (R.thread env (.completed ⟨x, resolution, hgated⟩ rationale)).values.policyResult
        = some (policyFor env R.application x).modelDump ∧
      (R.thread env (.completed ⟨x, resolution, hgated⟩ rationale)).values.decision
        = some (R.decision env ⟨x, resolution, hgated⟩ rationale).modelDump := by
    cases resolution <;> exact ⟨rfl, rfl, rfl⟩
  obtain ⟨hrisk', hpolicy', hd'⟩ := hvalues
  obtain rfl := RiskAssessment.modelDump_injective (Option.some.inj (hrisk'.symm.trans hrisk))
  obtain rfl := PolicyResult.modelDump_injective (Option.some.inj (hpolicy'.symm.trans hpolicy))
  obtain rfl := Decision.modelDump_injective (Option.some.inj (hd'.symm.trans hd))
  exact reasonsExact_decisionFor_iff hdenied

theorem reasons_exact_poorCredit :
    ∃ (t : Thread) (risk : RiskAssessment) (policy : PolicyResult) (d : Decision),
      (run poorCreditEnv [.start poorCreditApplication] .init).store "app_1" = some t ∧
      d.outcome = .denied ∧
      (ReasonsExact poorCreditEnv.settings risk policy d.adverseActionReasons ↔
        (risk.creditReport.creditBand = .poor →
          poorCreditEnv.settings.dtiHardDecline ≤ risk.debtToIncomeRatio)) := by
  obtain ⟨rationale, hstore, -⟩ :=
    run_start_completes replies_poorCredit not_needsHuman_poorCredit
  have hdenied := denied_poorCredit rationale
  exact ⟨_, riskFor poorCreditEnv poorCreditApplication sampleExtraction,
    policyFor poorCreditEnv poorCreditApplication sampleExtraction, _, hstore, hdenied,
    reasons_exact_iff poorCreditEnv [.start poorCreditApplication] "app_1" _ hstore rfl _ _ _ rfl
      rfl rfl hdenied⟩

/-- The ratio of the application is far below the hard decline, and yet it is denied because
its ratio exceeded the acceptable threshold. -/
theorem low_ratio_named_as_reason :
    ∃ (t : Thread) (risk : RiskAssessment) (d : Decision),
      (run poorCreditEnv [.start poorCreditApplication] .init).store "app_1" = some t ∧
      (summarize "app_1" t).status = "completed" ∧
      t.values.riskAssessment = some risk.modelDump ∧
      t.values.decision = some d.modelDump ∧ d.outcome = .denied ∧
      ratioReason risk.debtToIncomeRatio ∈ d.adverseActionReasons ∧
      risk.debtToIncomeRatio < poorCreditEnv.settings.dtiHardDecline := by
  obtain ⟨rationale, hstore, -⟩ :=
    run_start_completes replies_poorCredit not_needsHuman_poorCredit
  have hpoor :
      (riskFor poorCreditEnv poorCreditApplication sampleExtraction).creditReport.creditBand =
        .poor := by decide
  have hhigh : (riskFor poorCreditEnv poorCreditApplication sampleExtraction).riskTier = .high :=
    (classifyRiskTier_eq_high_iff _ _ _).2 (.inr hpoor)
  have hdenied := denied_poorCredit rationale
  refine ⟨_, riskFor poorCreditEnv poorCreditApplication sampleExtraction, _, hstore, rfl, rfl, rfl,
    hdenied, ?_, by decide +kernel⟩
  refine (mem_decisionFor_iff hdenied ?_).2 ((mem_adverseReasons_iff _ _ _).2 (.inl ⟨hhigh, rfl⟩))
  rw [opening_ratioReason]
  decide

end Underwriting
