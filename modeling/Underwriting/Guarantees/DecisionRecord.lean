import Underwriting.Guarantees.AdverseReasons
import Underwriting.Run.Fresh

/-!
# The decision record

An approval carries the requested amount and no reasons, a denial carries reasons and no
amount. The first half holds of `determineOutcome` as it is. The second half does not: it
takes a policy result that has failed to have a blocking flag, which `evaluatePolicy` sees
to and every stored policy result keeps.
-/

namespace Underwriting

open Python

/-- The check fails exactly on a blocking flag. -/
def PolicyResult.Coherent (policy : PolicyResult) : Prop :=
  policy.passed = false ↔ ∃ f ∈ policy.flags, f.severity = .block

theorem evaluatePolicy_coherent (a : LoanApplication) (x : ExtractedFinancials)
    (risk : RiskAssessment) : (evaluatePolicy a x risk).Coherent := by
  simp [PolicyResult.Coherent, evaluatePolicy]

/-- The amount and the reasons are those of the outcome. -/
structure DecisionConsistent (a : LoanApplication) (outcome : DecisionOutcome)
    (approvedAmount : Option ℚ) (reasons : List String) : Prop where
  approved : outcome = .approved → approvedAmount = some a.requestedAmount ∧ reasons = []
  denied : outcome = .denied → approvedAmount = none ∧ reasons ≠ []

section Outcome

variable {a : LoanApplication} {risk : RiskAssessment} {policy : PolicyResult}

/-- What denies an application without a reviewer is also a reason. -/
theorem adverseReasons_ne_nil (hpolicy : policy.Coherent)
    (h : risk.riskTier = .high ∨ policy.passed = false) : adverseReasons risk policy ≠ [] := by
  rcases h with hhigh | hfailed
  · apply List.ne_nil_of_mem
    exact (mem_adverseReasons_iff risk policy _).2 (.inl ⟨hhigh, rfl⟩)
  · obtain ⟨f, hf, hblock⟩ := hpolicy.1 hfailed
    apply List.ne_nil_of_mem
    exact (mem_adverseReasons_iff risk policy _).2 (.inr (.inr ⟨f, hf, .inl hblock, rfl⟩))

theorem consistent_approved : DecisionConsistent a .approved (some a.requestedAmount) [] := by
  constructor
  · intro _
    exact ⟨rfl, rfl⟩
  · intro h
    cases h

theorem consistent_denied {reasons : List String} (h : reasons ≠ []) :
    DecisionConsistent a .denied none reasons := by
  constructor
  · intro houtcome
    cases houtcome
  · intro _
    exact ⟨rfl, h⟩

theorem determineOutcome_consistent (hpolicy : policy.Coherent)
    (res : Option EscalationResolution) :
    DecisionConsistent a (determineOutcome a risk policy res).1
      (determineOutcome a risk policy res).2.1 (determineOutcome a risk policy res).2.2 := by
  cases res with
  | none =>
      by_cases hdenied : risk.riskTier = .high ∨ policy.passed = false
      · simp only [determineOutcome, if_pos hdenied]
        exact consistent_denied (adverseReasons_ne_nil hpolicy hdenied)
      · simp only [determineOutcome, if_neg hdenied]
        exact consistent_approved
  | some r =>
      cases happrove : r.approve with
      | true =>
          simp only [determineOutcome, happrove, if_true]
          exact consistent_approved
      | false =>
          simp only [determineOutcome, happrove, Bool.false_eq_true, if_false]
          apply consistent_denied
          -- A reviewer's denial without any adverse reason gives the reviewer's own.
          split_ifs with hempty
          · exact List.cons_ne_nil _ _
          · exact hempty

end Outcome

/-! ## Every stored record -/

/-- The decision stored for an application agrees with it, and the stored policy result comes
from the policy check. -/
structure RecordConsistent (a : LoanApplication) (v : UnderwritingState) : Prop where
  decision : ∀ j, v.decision = some j → ∃ d : Decision, j = d.modelDump ∧
    DecisionConsistent a d.outcome d.approvedAmount d.adverseActionReasons
  policy : ∀ j, v.policyResult = some j → ∃ x risk,
    j = (evaluatePolicy a x risk).modelDump ∧ (evaluatePolicy a x risk).Coherent

theorem Slices.recordConsistent {env : Env} {a : LoanApplication} {p : Progress env a}
    {v : UnderwritingState} (h : Slices env a p v) : RecordConsistent a v := by
  constructor
  · intro j hj
    have hdecision := h.decision
    rw [hj] at hdecision
    obtain ⟨d, hd, hdump⟩ := Option.map_eq_some_iff.1 hdecision.symm
    obtain ⟨s, rationale, -, rfl⟩ := Progress.exists_completed hd
    exact ⟨_, hdump.symm,
      determineOutcome_consistent (evaluatePolicy_coherent a s.extracted _) s.resolution⟩
  · intro j hj
    have hpolicy := h.policyResult
    rw [hj] at hpolicy
    obtain ⟨x, -, hdump⟩ := Option.map_eq_some_iff.1 hpolicy.symm
    exact ⟨x, riskFor env a x, hdump.symm, evaluatePolicy_coherent a x _⟩

theorem decision_record_consistent (env : Env) (calls : List Call)
    (hnodup : (submittedIds calls).Nodup) (id : String) (t : Thread)
    (ht : (run env calls .init).store id = some t) :
    ∃ a : LoanApplication, .start a ∈ calls ∧ a.applicationId = id ∧
      t.values.application = a.modelDump ∧ RecordConsistent a t.values := by
  obtain ⟨before, a, later, rfl, rfl, hfresh, hno⟩ := exists_submission_of_nodup hnodup ht
  rw [run_append] at ht
  obtain ⟨c, p, -, hslices⟩ := exists_slices hfresh hno ht
  exact ⟨a, by simp, rfl, hslices.application, hslices.recordConsistent⟩

theorem decision_record_poorCredit :
    ∃ t, (run poorCreditEnv [.start poorCreditApplication] .init).store "app_1" = some t ∧
      (∃ d : Decision, t.values.decision = some d.modelDump ∧ d.outcome = .denied) ∧
      ∃ a : LoanApplication, .start a ∈ [Call.start poorCreditApplication] ∧
        a.applicationId = "app_1" ∧ t.values.application = a.modelDump ∧
        RecordConsistent a t.values := by
  obtain ⟨rationale, hstore, -⟩ :=
    run_start_completes replies_poorCredit not_needsHuman_poorCredit
  exact ⟨_, hstore, ⟨_, rfl, denied_poorCredit rationale⟩, decision_record_consistent poorCreditEnv
    [.start poorCreditApplication] (by decide) "app_1" _ hstore⟩

end Underwriting
