import Underwriting.Guarantees.UnlabelledDocuments
import Underwriting.Run.Fresh

/-!
# Faithful rationales

The rationale that the mock model writes of a completed case says what is stored of the case,
with one exception. A case goes to a reviewer for its tier or for a failed policy check, and
the sentence on the review gives the tier as the cause either way. So a rationale is faithful
exactly when the policy check has passed or the tier is borderline.
-/

namespace Underwriting

open Python ApplicationService

/-! ## What a text says -/

/-- How a rationale begins. -/
def verdictOpening : DecisionOutcome → String
  | .approved => "This application was APPROVED"
  | .denied => "This application was DENIED"

namespace Explanation

variable (e : Explanation)

theorem opening_prefix : (verdictOpening e.outcome).toList <+: e.text.toList := by
  refine List.IsPrefix.trans ?_ e.verdict_prefix
  rw [verdict]
  split
  · next h =>
      rw [h, String.append_assoc, String.toList_append]
      exact List.prefix_append _ _
  · next h =>
      rw [h]
      decide

/-- The beginning of the text tells the outcome. -/
theorem opening_prefix_iff (outcome : DecisionOutcome) :
    (verdictOpening outcome).toList <+: e.text.toList ↔ e.outcome = outcome := by
  constructor
  · intro h
    have hcomparable := List.prefix_or_prefix_of_prefix h e.opening_prefix
    revert hcomparable
    cases outcome <;> cases e.outcome <;> decide
  · rintro rfl
    exact e.opening_prefix

theorem text_of_review {r : Review} (h : e.review = some r) :
    e.text = " ".intercalate e.assessment ++ " " ++ r.sentence := by
  have hlast : (e.review.map Review.sentence).toList = [r.sentence] := by
    rw [h]
    rfl
  have hne : e.assessment ≠ [] := List.cons_ne_nil _ _
  rw [text, hlast, String.intercalate_append_of_ne_nil hne (List.cons_ne_nil _ _),
    String.intercalate_singleton]

end Explanation

/-- The rationale opens with the stored outcome and says what is stored, and if the case was
reviewed it puts that down to the borderline band only for a borderline tier. -/
structure Faithful (a : LoanApplication) (risk : RiskAssessment) (policy : PolicyResult)
    (resolution : Option EscalationResolution) (d : Decision) : Prop where
  approved : (verdictOpening .approved).toList <+: d.rationale.toList ↔ d.outcome = .approved
  denied : (verdictOpening .denied).toList <+: d.rationale.toList ↔ d.outcome = .denied
  recorded : ∃ cause, d.rationale =
      (explanationOf a risk policy resolution d.outcome d.approvedAmount cause).text ∧
    (resolution.isSome = true → contains "borderline band".toList cause.toList = true →
      risk.riskTier = .borderline)

/-- The text of a reviewed case determines the cause it gives. -/
theorem cause_eq_of_text_eq {a : LoanApplication} {risk : RiskAssessment} {policy : PolicyResult}
    {r : EscalationResolution} {outcome : DecisionOutcome} {amount : Option ℚ}
    {cause cause' : String}
    (h : (explanationOf a risk policy (some r) outcome amount cause).text =
      (explanationOf a risk policy (some r) outcome amount cause').text) : cause = cause' := by
  have hassessment : (explanationOf a risk policy (some r) outcome amount cause).assessment =
      (explanationOf a risk policy (some r) outcome amount cause').assessment := rfl
  rw [Explanation.text_of_review _ rfl, Explanation.text_of_review _ rfl, hassessment,
    String.append_right_inj] at h
  delta Review.sentence at h
  rwa [String.append_left_inj, String.append_right_inj] at h

/-! ## The text of a completed case -/

section Offline

variable {env : Env} {a : LoanApplication}

/-- What the mock model says of a case. -/
def spoken (env : Env) (a : LoanApplication) (x : ExtractedFinancials)
    (resolution : Option EscalationResolution) : Explanation :=
  explanationOf a (riskFor env a x) (policyFor env a x) resolution
    (determineOutcome a (riskFor env a x) (policyFor env a x) resolution).1
    (determineOutcome a (riskFor env a x) (policyFor env a x) resolution).2.1 borderlineCause

theorem writeRationale_offline {x : ExtractedFinancials} {resolution : Option EscalationResolution}
    {r r' : Runtime} {rationale : Rationale}
    (h : writeRationale env.offline a x resolution r = (.ok rationale, r')) :
    rationale.val = (spoken env.offline a x resolution).text := by
  have hreply (n : ℕ) := (chat_rationale_offline n x resolution).trans
    (mockExplainabilityRationale_eq a (riskFor env.offline a x) (policyFor env.offline a x)
      resolution)
  by_cases hadmits : r.AdmitsWithin env.offline .llm 3
  · obtain ⟨reply, r'', hinvoke, rfl, -⟩ := invokeChat_of_admits
      (P := (· = ⟨(spoken env.offline a x resolution).text, none⟩)) (fun n => ⟨_, hreply n, rfl⟩)
      hadmits
    have hwrite : writeRationale env.offline a x resolution r = _ := Py.bind_of_ok hinvoke
    rw [h, Py.lift_apply, acceptRationale] at hwrite
    split at hwrite
    · exact congrArg Subtype.val (Except.ok.inj (congrArg Prod.fst hwrite))
    · cases congrArg Prod.fst hwrite
  · obtain ⟨e, r'', hinvoke⟩ := @invokeChat_of_not_admits env.offline
      (rationalePrompt env.offline a x resolution) _ hadmits
    have hwrite : writeRationale env.offline a x resolution r = _ := Py.bind_of_error hinvoke
    cases congrArg Prod.fst (h.symm.trans hwrite)

/-- The rationale of a completed case is the text of the mock model. -/
def Explained (p : Progress env.offline a) : Prop :=
  ∀ s rationale, p = .completed s rationale →
    rationale.val = (spoken env.offline a s.extracted s.resolution).text

variable {c : String}

theorem explained_explain (s : Settled env.offline a) (r : Runtime) :
    Explained ((Run.fresh a c).explain env.offline s r).2.1 := by
  have heffective : (Run.fresh a c).effective env.offline s = s.resolution :=
    Option.or_none
  rcases hw : writeRationale env.offline a s.extracted
    ((Run.fresh a c).effective env.offline s) r with ⟨e | rationale, r'⟩
  · rw [Run.explain_of_error (R := .fresh a c) hw]
    intro s' rationale h
    cases h
  · rw [Run.explain_of_ok (R := .fresh a c) hw]
    intro s' rationale' h
    obtain ⟨rfl, rfl⟩ := Progress.completed.inj h
    rw [heffective] at hw
    exact writeRationale_offline hw

theorem explained_extract (r : Runtime) :
    Explained ((Run.fresh a c).extract env.offline r).2.1 := by
  rcases hread : readDocument env.offline a r with ⟨e | x, r'⟩
  · rw [Run.extract_of_error (R := .fresh a c) hread]
    intro s rationale h
    cases h
  · rw [Run.extract_of_ok (R := .fresh a c) hread]
    by_cases hx : Unscorable env.offline.arithmetic a x
    · rw [Run.appraise_of_unscorable (R := .fresh a c) hx]
      intro s rationale h
      cases h
    by_cases hneeds : NeedsHuman env.offline a x
    · rw [Run.appraise_of_needsHuman (R := .fresh a c) hx hneeds]
      intro s rationale h
      cases h
    · rw [Run.appraise_of_not_needsHuman (R := .fresh a c) hx hneeds]
      exact explained_explain _ _

theorem explained_resume (res : EscalationResolution) (r : Runtime) {p : Progress env.offline a}
    (h : Explained p) : Explained ((Run.fresh a c).resume env.offline res r p).2.1 := by
  cases p with
  | extracting => exact explained_extract r
  | scoring x hx =>
      intro s rationale hcompleted
      cases hcompleted
  | awaiting x hx => exact explained_explain (.reviewed x hx res) _
  | explaining s => exact explained_explain s r
  | completed s rationale => exact h

end Offline

/-! ## Every completed run -/

theorem requiresHumanEscalation_riskFor (env : Env) (a : LoanApplication)
    (x : ExtractedFinancials) :
    (riskFor env a x).requiresHumanEscalation = true ↔
      (riskFor env a x).riskTier = .borderline := by
  simp [riskFor, assess]

theorem faithful_decisionFor_iff {env : Env} {a : LoanApplication} (s : Settled env a)
    {rationale : Rationale} (h : rationale.val = (spoken env a s.extracted s.resolution).text) :
    Faithful a (riskFor env a s.extracted) (policyFor env a s.extracted) s.resolution
        (decisionFor env a s.extracted s.resolution rationale) ↔
      (policyFor env a s.extracted).passed = true ∨
        (riskFor env a s.extracted).riskTier = .borderline := by
  obtain ⟨x, resolution, hgated⟩ := s
  rw [NeedsHuman, requiresHumanEscalation_riskFor] at hgated
  constructor
  · rintro ⟨-, -, cause, htext, hcause⟩
    by_contra hblocked
    rw [not_or, Bool.not_eq_true] at hblocked
    have hreviewed := hgated.2 (.inr hblocked.1)
    obtain ⟨res, rfl⟩ := Option.isSome_iff_exists.1 hreviewed
    obtain rfl : borderlineCause = cause := cause_eq_of_text_eq (h.symm.trans htext)
    exact hblocked.2 (hcause rfl (by decide))
  · intro hnamed
    have hopening (outcome : DecisionOutcome) :
        (verdictOpening outcome).toList <+: rationale.val.toList ↔
          (decisionFor env a x resolution rationale).outcome = outcome := by
      rw [h]
      exact (spoken env a x resolution).opening_prefix_iff outcome
    refine ⟨hopening .approved, hopening .denied, borderlineCause, h, fun hreviewed _ => ?_⟩
    rcases hgated.1 hreviewed with htier | hfailed
    · exact htier
    · exact hnamed.resolve_left (by simp [hfailed])

/-- A completed run that was submitted once has the rationale of the mock model. -/
theorem exists_explained {env : Env} {before later : List Call} {a : LoanApplication}
    (honce : a.applicationId ∉ submittedIds (before ++ later)) {t : Thread}
    (ht : storedAfter env.offline before a later = some t)
    (hcompleted : (summarize a.applicationId t).status = "completed") :
    ∃ (c : String) (s : Settled env.offline a) (rationale : Rationale),
      t = (Run.fresh a c).thread env.offline (.completed s rationale) ∧
      rationale.val = (spoken env.offline a s.extracted s.resolution).text := by
  obtain ⟨hbefore, hlater⟩ := (not_mem_submittedIds_append before later).1 honce
  obtain ⟨c, p, hstore, hp⟩ := store_run_fresh (P := Explained)
    (fun c r => explained_extract (c := c) _) (fun c res r p hp => explained_resume res r hp)
    (store_of_not_submitted env.offline hbefore) hlater
  obtain rfl := Option.some.inj (ht.symm.trans hstore)
  obtain ⟨s, rationale, rfl⟩ := Run.exists_completed (R := Run.fresh a c) hcompleted
  exact ⟨c, s, rationale, rfl, hp s rationale rfl⟩

theorem rationale_faithful_iff (env : Env) (before later : List Call) (a : LoanApplication)
    (honce : a.applicationId ∉ submittedIds (before ++ later)) (t : Thread)
    (ht : storedAfter env.offline before a later = some t)
    (hcompleted : (summarize a.applicationId t).status = "completed") :
    ∃ (risk : RiskAssessment) (policy : PolicyResult) (resolution : Option EscalationResolution)
      (d : Decision),
      t.values.riskAssessment = some risk.modelDump ∧
      t.values.policyResult = some policy.modelDump ∧
      t.values.escalationResolution = resolution.map EscalationResolution.modelDump ∧
      t.values.decision = some d.modelDump ∧
      (Faithful a risk policy resolution d ↔
        policy.passed = true ∨ risk.riskTier = .borderline) := by
  obtain ⟨c, s, rationale, rfl, htext⟩ := exists_explained honce ht hcompleted
  have hslices := @slices_fresh env.offline a c (.completed s rationale)
  exact ⟨_, _, s.resolution, _, hslices.riskAssessment, hslices.policyResult,
    hslices.escalationResolution, hslices.decision, faithful_decisionFor_iff s htext⟩

/-! ## A review for another cause -/

theorem replies_unlabelled {env : Env} {a : LoanApplication}
    (h : Unlabelled a.rawFinancialDocumentText) :
    Replies env.offline a (blindExtraction env a) where
  scorable := not_unscorable_unlabelled _ _ _
  extraction n := ⟨_, chat_unlabelled h n, validateExtraction_ofJson _⟩
  rationale n resolution := by
    obtain ⟨reply, hreply, hnonempty⟩ := mockExplainabilityRationale_of_payload a
      (riskFor env.offline a (blindExtraction env a))
      (policyFor env.offline a (blindExtraction env a)) resolution
    exact ⟨reply, (chat_rationale_offline n _ resolution).trans hreply, hnonempty⟩

theorem needsHuman_escalated_offline :
    NeedsHuman sampleEnv.offline escalatedApplication
      (blindExtraction sampleEnv escalatedApplication) := by
  refine .inr ?_
  rw [policyFor_passed_eq_false_iff]
  exact .inl (by norm_num [escalatedApplication, sampleApplication])

theorem store_escalated_offline :
    ∃ rationale, storedAfter sampleEnv.offline [] escalatedApplication
        [.resolve escalatedApplication.applicationId sampleResolution] =
      some ((Run.first sampleEnv.offline escalatedApplication).thread sampleEnv.offline
        (.completed (.reviewed _ needsHuman_escalated_offline sampleResolution) rationale)) := by
  have hreplies : Replies sampleEnv.offline escalatedApplication
      (blindExtraction sampleEnv escalatedApplication) := replies_unlabelled unlabelled_sample
  obtain ⟨rationale, hstore, -⟩ :=
    run_resolve_completes hreplies needsHuman_escalated_offline sampleResolution
  rw [storedAfter, run_nil]
  exact ⟨rationale, hstore⟩

/-- The request exceeds five stated incomes, and that is all the reviewer is asked about. The
tier of the application is low. -/
theorem low_tier_called_borderline :
    ∃ (t : Thread) (risk : RiskAssessment) (policy : PolicyResult) (d : Decision),
      storedAfter sampleEnv.offline [] escalatedApplication
        [.resolve escalatedApplication.applicationId sampleResolution] = some t ∧
      (summarize escalatedApplication.applicationId t).status = "completed" ∧
      t.values.riskAssessment = some risk.modelDump ∧ risk.riskTier = .low ∧
      t.values.policyResult = some policy.modelDump ∧
      t.values.escalationResolution = some sampleResolution.modelDump ∧
      t.values.decision = some d.modelDump ∧
      ¬ Faithful escalatedApplication risk policy (some sampleResolution) d := by
  obtain ⟨rationale, hstore⟩ := store_escalated_offline
  obtain ⟨c, s, rationale', hthread, htext⟩ := exists_explained (by simp [submittedIds]) hstore rfl
  rw [hthread] at hstore
  have hslices := @slices_fresh sampleEnv.offline escalatedApplication c (.completed s rationale')
  have hx : s.extracted = blindExtraction sampleEnv escalatedApplication := by
    apply Option.some.inj
    apply hslices.extraction_eq
    rw [← hthread]
    rfl
  have hresolution : s.resolution = some sampleResolution := by
    apply hslices.resolution_eq
    rw [← hthread]
    rfl
  have htier : (riskFor sampleEnv.offline escalatedApplication s.extracted).riskTier = .low := by
    rw [hx]
    decide +kernel
  refine ⟨_, _, _, _, hstore, rfl, hslices.riskAssessment, htier, hslices.policyResult,
    ?_, hslices.decision, ?_⟩
  · rw [hslices.escalationResolution]
    exact congrArg (Option.map _) hresolution
  · rw [← hresolution]
    intro hfaithful
    rcases (faithful_decisionFor_iff s htext).1 hfaithful with hpassed | hborderline
    · have hfailed : (policyFor sampleEnv.offline escalatedApplication s.extracted).passed =
          false := by
        rw [policyFor_passed_eq_false_iff]
        exact .inl (by norm_num [escalatedApplication, sampleApplication])
      rw [hfailed] at hpassed
      cases hpassed
    · rw [htier] at hborderline
      cases hborderline

theorem rationale_faithful_escalated :
    ∃ t, storedAfter sampleEnv.offline [] escalatedApplication
        [.resolve escalatedApplication.applicationId sampleResolution] = some t ∧
      ∃ (risk : RiskAssessment) (policy : PolicyResult) (resolution : Option EscalationResolution)
        (d : Decision),
        t.values.riskAssessment = some risk.modelDump ∧
        t.values.policyResult = some policy.modelDump ∧
        t.values.escalationResolution = resolution.map EscalationResolution.modelDump ∧
        t.values.decision = some d.modelDump ∧
        (Faithful escalatedApplication risk policy resolution d ↔
          policy.passed = true ∨ risk.riskTier = .borderline) := by
  obtain ⟨rationale, hstore⟩ := store_escalated_offline
  exact ⟨_, hstore, rationale_faithful_iff sampleEnv []
    [.resolve escalatedApplication.applicationId sampleResolution] escalatedApplication
    (by simp [submittedIds]) _ hstore rfl⟩

end Underwriting
