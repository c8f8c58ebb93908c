import Underwriting.Guarantees.CrashSafety
import Underwriting.Guarantees.DebtMonotonicity

/-!
# Better credit

How a completed case has been treated is read off what is stored of it: a reviewer has decided it,
or it was approved or denied without one. Of two cases that the policy check treats alike, the one
with the better credit and the smaller ratio is not treated more harshly, whatever has happened to
the server in between. The exception is the one that more debt has, an applicant of sound credit
whose ratio leaves the borderline band at its upper end.
-/

namespace Underwriting

open Python

/-! ## Tiers -/

/-- The worse the credit, the higher. -/
def CreditBand.rank : CreditBand → ℕ
  | excellent => 0
  | good => 1
  | fair => 2
  | poor => 3

theorem CreditBand.sound_of_rank_le {b b' : CreditBand} (h : b.rank ≤ b'.rank)
    (hsound : b' = .excellent ∨ b' = .good) : b = .excellent ∨ b = .good := by
  have hrank : b.rank ≤ 1 := by
    apply h.trans
    rcases hsound with rfl | rfl <;> decide
  cases b with
  | excellent => exact .inl rfl
  | good => exact .inr rfl
  | fair => exact absurd hrank (by decide)
  | poor => exact absurd hrank (by decide)

theorem le_denial (d : Disposition) : d ≤ .denial := by cases d <;> decide

/-- At one ratio, worse credit is not rated better. -/
theorem ofTier_mono_band (settings : Settings) {b b' : CreditBand} (h : b.rank ≤ b'.rank)
    (dti : ℚ) :
    Disposition.ofTier (classifyRiskTier dti b settings) ≤
      .ofTier (classifyRiskTier dti b' settings) := by
  cases b' with
  | excellent | good =>
      rw [ofTier_classifyRiskTier_of_sound_credit (CreditBand.sound_of_rank_le h (by simp)),
        ofTier_classifyRiskTier_of_sound_credit (by simp)]
  | fair =>
      rw [ofTier_classifyRiskTier_of_fair]
      by_cases hfair : b = .fair
      · rw [hfair, ofTier_classifyRiskTier_of_fair]
      · have hsound : b = .excellent ∨ b = .good := by
          cases b with
          | excellent => exact .inl rfl
          | good => exact .inr rfl
          | fair => exact absurd rfl hfair
          | poor => exact absurd h (by decide)
        rw [ofTier_classifyRiskTier_of_sound_credit hsound]
        split_ifs <;> decide
  | poor =>
      have hhigh : classifyRiskTier dti .poor settings = .high := by simp [classifyRiskTier]
      rw [hhigh]
      exact le_denial _

/-- Both at once. -/
theorem ofTier_mono_band_iff (settings : Settings) {b b' : CreditBand}
    (hband : b.rank ≤ b'.rank) {dti dti' : ℚ} (hratio : dti ≤ dti') :
    Disposition.ofTier (classifyRiskTier dti b settings) ≤
        .ofTier (classifyRiskTier dti' b' settings) ↔
      ¬ LeavesBand settings b' dti dti' := by
  constructor
  · intro hle hleaves
    have hsame : Disposition.ofTier (classifyRiskTier dti b settings) =
        .ofTier (classifyRiskTier dti b' settings) := by
      rw [ofTier_classifyRiskTier_of_sound_credit hleaves.1,
        ofTier_classifyRiskTier_of_sound_credit (CreditBand.sound_of_rank_le hband hleaves.1)]
    rw [hsame] at hle
    exact (ofTier_mono_iff settings b' hratio).1 hle hleaves
  · intro hstays
    exact (ofTier_mono_band settings hband dti).trans
      ((ofTier_mono_iff settings b' hratio).2 hstays)

/-! ## Completed cases -/

def Disposition.ofOutcome : DecisionOutcome → Disposition
  | .approved => approval
  | .denied => denial

/-- How a case was treated, by the values that are stored of it. -/
def treatment (v : UnderwritingState) : Option Disposition :=
  if v.escalationResolution.isSome then some .escalation
  else ((v.decision.bind (·.get? "outcome")).bind DecisionOutcome.ofJson).map .ofOutcome

theorem treatment_of_decision {v : UnderwritingState} {d : Decision}
    (hresolution : v.escalationResolution = none) (hdecision : v.decision = some d.modelDump) :
    treatment v = some (.ofOutcome d.outcome) := by
  have houtcome : d.modelDump.get? "outcome" = some (.str d.outcome.value) := rfl
  rw [treatment, hresolution, hdecision, Option.bind_some, houtcome, Option.bind_some,
    DecisionOutcome.ofJson_value]
  rfl

/-- What an application gets whose tier asks for no reviewer and whose policy check passes. -/
theorem ofOutcome_determineOutcome_none (a : LoanApplication) {risk : RiskAssessment}
    {policy : PolicyResult} (htier : risk.riskTier ≠ .borderline) (hpassed : policy.passed = true) :
    Disposition.ofOutcome (determineOutcome a risk policy none).1 = .ofTier risk.riskTier := by
  rw [determineOutcome, hpassed]
  cases hrisk : risk.riskTier with
  | low | medium | high => rfl
  | borderline => exact absurd hrisk htier

/-- The lives of a server whose thresholds stay as they are leave a completed case under the id,
with this assessment and this policy result on file. -/
structure Treated (settings : Settings) (lives : List Life) (id : String)
    (v : UnderwritingState) (risk : RiskAssessment) (policy : PolicyResult) : Prop where
  unicode : ∃ u, ∀ l ∈ lives, l.env.unicode = u
  settings : ∀ l ∈ lives, l.env.settings = settings
  once : (lives.flatMap Life.submittedIds).count id ≤ 1
  stored : ∃ t, survivors lives id = some t ∧ t.next = none ∧ t.values = v
  risk : v.riskAssessment = some risk.modelDump
  policy : v.policyResult = some policy.modelDump

section Cases

variable {settings : Settings} {lives : List Life} {id : String} {v : UnderwritingState}
  {risk : RiskAssessment} {policy : PolicyResult}

/-- The tier of a completed case is the rule table's, and only a borderline tier asks for a
reviewer. -/
theorem WasAssessed.tier {a : LoanApplication} {x : ExtractedFinancials}
    (hsettings : ∀ l ∈ lives, l.env.settings = settings)
    (h : WasAssessed (environments lives) a x risk) :
    risk.riskTier =
        classifyRiskTier risk.debtToIncomeRatio risk.creditReport.creditBand settings ∧
      risk.requiresHumanEscalation = decide (risk.riskTier = .borderline) := by
  obtain ⟨env, ⟨l, hl, rfl⟩, rfl⟩ := h
  rw [← hsettings l hl]
  exact ⟨rfl, rfl⟩

/-- A closed file is treated as its tier says, or by a reviewer if the policy check fails. -/
theorem File.treatment_eq {a : LoanApplication} (f : File a) (hclosed : ¬ f.Open)
    {rationale : Rationale}
    (hrequires : f.risk.requiresHumanEscalation = decide (f.risk.riskTier = .borderline))
    (hresolution : v.escalationResolution = f.resolution.map EscalationResolution.modelDump)
    (hdecision : v.decision =
      some (decisionOf a f.risk f.policy f.resolution rationale).modelDump) :
    treatment v = some (if f.policy.passed then .ofTier f.risk.riskTier else .escalation) := by
  have hgate := f.isSome_resolution_iff hclosed
  rw [Flagged, hrequires, decide_eq_true_eq] at hgate
  cases hres : f.resolution with
  | some res =>
      rw [hres, Option.map_some] at hresolution
      rw [treatment, hresolution, Option.isSome_some, if_pos rfl]
      by_cases hpassed : f.policy.passed = true
      · have htier : f.risk.riskTier = .borderline := by
          apply (hgate.1 (by rw [hres]; rfl)).resolve_right
          rw [Bool.not_eq_false]
          exact hpassed
        rw [if_pos hpassed, htier]
        rfl
      · rw [if_neg hpassed]
  | none =>
      rw [hres, Option.isSome_none, iff_false_left Bool.false_ne_true, not_or,
        Bool.not_eq_false] at hgate
      rw [hres, Option.map_none] at hresolution
      rw [hres] at hdecision
      have hpassed : f.policy.passed = true := hgate.2
      rw [treatment_of_decision hresolution hdecision, if_pos hpassed]
      exact congrArg some (ofOutcome_determineOutcome_none a hgate.1 hpassed)

theorem Treated.treatment_eq (h : Treated settings lives id v risk policy) :
    treatment v = some (if policy.passed then
      .ofTier (classifyRiskTier risk.debtToIncomeRatio risk.creditReport.creditBand settings)
      else .escalation) := by
  obtain ⟨u, hunicode⟩ := h.unicode
  obtain ⟨t, ht, hend, rfl⟩ := h.stored
  obtain ⟨env, -, a, c, f, hclosed, rationale, rfl, -, ⟨-, hassessed, -⟩, hat⟩ :=
    exists_completed hunicode h.once ht hend
  have hresolution : t.values.escalationResolution =
      f.resolution.map EscalationResolution.modelDump := by
    have hfiled := @Run.filed_escalationResolution env (.fresh a c) f
    rw [Run.reads_fresh] at hfiled
    rw [hat.values]
    exact hfiled
  have hdecision : t.values.decision =
      some (decisionOf a f.risk f.policy f.resolution rationale).modelDump := by
    have hdecided := @Run.decidedAs_decision env (.fresh a c) f rationale
    rw [Run.decided, Run.reads_fresh] at hdecided
    rw [hat.values]
    exact hdecided
  have hrisk : f.risk = risk := by
    have hstored := h.risk
    rw [hat.values] at hstored
    exact RiskAssessment.modelDump_injective
      (Option.some.inj ((@Run.filed_riskAssessment env (.fresh a c) f).symm.trans hstored))
  have hpolicy : f.policy = policy := by
    have hstored := h.policy
    rw [hat.values] at hstored
    exact PolicyResult.modelDump_injective
      (Option.some.inj ((@Run.filed_policyResult env (.fresh a c) f).symm.trans hstored))
  obtain ⟨htier, hrequires⟩ := hassessed.tier h.settings
  rw [f.treatment_eq hclosed hrequires hresolution hdecision, htier, hrisk, hpolicy]

/-- Of two completed cases with the same result of the policy check, the one with the better
credit and the smaller ratio was treated at least as mildly, unless the ratio leaves the
borderline band. -/
theorem treatment_mono_iff {lives' : List Life} {id' : String} {v' : UnderwritingState}
    {risk' : RiskAssessment} {policy' : PolicyResult}
    (h : Treated settings lives id v risk policy)
    (h' : Treated settings lives' id' v' risk' policy')
    (hpassed : policy.passed = policy'.passed)
    (hband : risk.creditReport.creditBand.rank ≤ risk'.creditReport.creditBand.rank)
    (hratio : risk.debtToIncomeRatio ≤ risk'.debtToIncomeRatio) :
    ∃ d d', treatment v = some d ∧ treatment v' = some d' ∧
      (d ≤ d' ↔ ¬ (policy'.passed = true ∧ LeavesBand settings risk'.creditReport.creditBand
        risk.debtToIncomeRatio risk'.debtToIncomeRatio)) := by
  refine ⟨_, _, h.treatment_eq, h'.treatment_eq, ?_⟩
  rw [hpassed]
  cases policy'.passed with
  | true =>
      simp only [if_true, true_and]
      exact ofTier_mono_band_iff settings hband hratio
  | false => simp

end Cases

/-- A process that serves a submission whose replies it can use and that no reviewer is needed
for. -/
theorem treated_start {env : Env} {a : LoanApplication} {x : ExtractedFinancials}
    (hreplies : Replies env a x) (h : ¬ NeedsHuman env a x) :
    ∃ v, Treated env.settings [⟨env, [.start a], none⟩] a.applicationId v (riskFor env a x)
      (policyFor env a x) := by
  obtain ⟨rationale, hstore, -⟩ := run_start_completes hreplies h
  rw [← survivors_singleton] at hstore
  have hslices : Slices env a (.completed (.automatic x h) rationale)
      ((Run.first env a).thread env (.completed (.automatic x h) rationale)).values :=
    slices_fresh _
  refine ⟨_, ⟨env.unicode, by simp⟩, by simp, ?_, ⟨_, hstore, rfl, rfl⟩, hslices.riskAssessment,
    hslices.policyResult⟩
  simp [Life.submittedIds, Life.asked, submittedIds]

/-- A server whose model reads this debt off every document. -/
def debtEnv (debt : ℕ) : Env :=
  .scripted .default sampleDigest (some ⟨"", some (sampleWithDebt debt).modelDump⟩)
    (some ⟨"Approved.", none⟩)

def debtRisk (debt : ℕ) : RiskAssessment :=
  riskFor (debtEnv debt) sampleApplication (sampleWithDebt debt)

def debtPolicy (debt : ℕ) : PolicyResult :=
  policyFor (debtEnv debt) sampleApplication (sampleWithDebt debt)

theorem finite_sampleWithDebt {debt : ℕ} (h : debt < 2 ^ 64) :
    (sampleWithDebt debt).Finite .double := by
  refine ⟨finite_sample.gross, finite_sample.net, ?_⟩
  apply Arithmetic.isInf_eq_false_of_lt
  rw [abs_of_nonneg (sampleWithDebt debt).debt_nonneg]
  change (debt : ℚ) < 2 ^ 64
  exact_mod_cast h

theorem treated_sample {debt : ℕ} (hdebt : debt < 2 ^ 64)
    (h : ¬ NeedsHuman (debtEnv debt) sampleApplication (sampleWithDebt debt)) :
    ∃ v, Treated .default [⟨debtEnv debt, [.start sampleApplication], none⟩] "app_1" v
      (debtRisk debt) (debtPolicy debt) :=
  treated_start (replies_scripted (validateExtraction_modelDump _ _) (finite_sampleWithDebt hdebt)
    (by decide) _) h

/-- Debts of 400 and of 2600 out of a monthly income of 5200. -/
theorem treatment_mono_iff_sample :
    ∃ v v' d d', treatment v = some d ∧ treatment v' = some d' ∧
      (d ≤ d' ↔ ¬ ((debtPolicy 2600).passed = true ∧
        LeavesBand .default (debtRisk 2600).creditReport.creditBand
          (debtRisk 400).debtToIncomeRatio (debtRisk 2600).debtToIncomeRatio)) := by
  obtain ⟨v, h⟩ := @treated_sample 400 (by decide) (by decide +kernel)
  obtain ⟨v', h'⟩ := @treated_sample 2600 (by decide) (by decide +kernel)
  exact ⟨v, v', treatment_mono_iff h h' (by decide +kernel) le_rfl
    (computeDebtToIncomeRatio_mono _ (Nat.cast_le.2 (by decide)))⟩

end Underwriting
