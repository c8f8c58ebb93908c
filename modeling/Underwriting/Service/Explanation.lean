import Underwriting.Service.Updates

/-!
# What a rationale says

The mock model renders a payload of JSON values. Here the same text is a function of what it
says: an outcome, the figures that have driven it, the flags that count against the applicant
and, for a reviewed case, the reviewer, the verdict and the cause of the review.
-/

namespace Underwriting

open Python

/-- What is said of a human review. -/
structure Review where
  reviewer : String
  approve : Bool
  cause : String
  notes : String

def Review.sentence (r : Review) : String :=
  let verdict := if r.approve then "approved" else "denied"
  s!"This case was escalated for human review; {r.reviewer} {verdict} it after " ++ r.cause ++
    s!". Reviewer notes: {r.notes}."

structure Explanation where
  outcome : DecisionOutcome
  approvedAmount : Option ℚ
  debtToIncomeRatio : ℚ
  creditBand : CreditBand
  riskTier : RiskTier
  requestedAmount : ℚ
  permitted : List String
  flags : List PolicyFlag
  review : Option Review

namespace Explanation

variable (e : Explanation)

def verdict : String :=
  match e.outcome with
  | .approved =>
      let amountClause := e.approvedAmount.elim "" fun q => s!" for ${formatFixed q 0 true}"
      s!"This application was APPROVED{amountClause}."
  | .denied => "This application was DENIED."

def drivers : String :=
  let band := e.creditBand.value
  let tier := e.riskTier.value
  let factorSummary :=
    s!"a debt-to-income ratio of {formatPercent e.debtToIncomeRatio 1}, a '{band}' credit band, " ++
      s!"a '{tier}' overall risk tier, and a requested amount of " ++
      s!"${formatFixed e.requestedAmount 0 true}"
  let permittedList := ", ".intercalate e.permitted
  s!"The decision was driven by {factorSummary}, all of which fall within the " ++
    s!"permitted factor set ({permittedList})."

/-- The flags in the order in which they were raised. -/
def policyReview : String :=
  let flagList := "; ".intercalate (e.flags.map fun f => s!"{f.code}: {f.description}")
  s!"Policy review noted the following: {flagList}."

/-- The sentences on the outcome, its drivers and the flags. -/
def assessment : List String :=
  [e.verdict, e.drivers] ++ if e.flags = [] then [] else [e.policyReview]

def text : String :=
  " ".intercalate (e.assessment ++ (e.review.map Review.sentence).toList)

end Explanation

/-- What the mock model gives as the cause of every review. -/
def borderlineCause : String := "automated risk scoring placed it in the borderline band"

/-- What there is to say of a decision, with a cause of its review if it was reviewed. -/
def explanationOf (a : LoanApplication) (risk : RiskAssessment) (policy : PolicyResult)
    (resolution : Option EscalationResolution) (outcome : DecisionOutcome)
    (approvedAmount : Option ℚ) (cause : String) : Explanation where
  outcome := outcome
  approvedAmount := approvedAmount
  debtToIncomeRatio := risk.debtToIncomeRatio
  creditBand := risk.creditReport.creditBand
  riskTier := risk.riskTier
  requestedAmount := a.requestedAmount
  permitted := policy.permittedFactorsUsed
  flags := policy.flags.filter fun f => f.severity = .warn ∨ f.severity = .block
  review := resolution.map fun r => ⟨r.reviewerId, r.approve, cause,
    if r.notes = "" then "no additional notes provided" else r.notes⟩

/-! ## The text of the mock model -/

theorem item_of_lookup {α : Type} {entries : List (String × Json)} {key : String} {value : Json}
    {dec : Json → Option α} {v : α} (h : Json.lookup entries key = some value)
    (hdec : dec value = some v) : item (.obj entries) key dec = .ok v := by
  rw [item, Json.get?, h, Option.bind_some, hdec]
  rfl

theorem escalationSentence_modelDump (r : EscalationResolution) :
    escalationSentence r.modelDump = Review.sentence ⟨r.reviewerId, r.approve, borderlineCause,
      if r.notes = "" then "no additional notes provided" else r.notes⟩ := by
  have hreviewer : (r.modelDump.get? "reviewer_id").bind Json.asStr = some r.reviewerId := rfl
  have happrove : (r.modelDump.get? "approve").any Json.truthy = r.approve := rfl
  have hnotes : (r.modelDump.get? "notes").bind Json.asStr = some r.notes := rfl
  have hdefault : ((some r.notes).filter (· != "")).getD "no additional notes provided" =
      if r.notes = "" then "no additional notes provided" else r.notes := by
    by_cases h : r.notes = "" <;> simp [Option.filter_some, h]
  delta escalationSentence Review.sentence
  simp only [hreviewer, happrove, hnotes, hdefault, Option.getD_some]
  apply String.toList_injective
  simp [borderlineCause, toString]

theorem flagText_modelDump (f : PolicyFlag) :
    flagText f.modelDump = s!"{f.code}: {f.description}" := by
  have hcode : (f.modelDump.get? "code").bind Json.asStr = some f.code := rfl
  have hdescription : (f.modelDump.get? "description").bind Json.asStr = some f.description := rfl
  simp only [flagText, hcode, hdescription, Option.getD_some, toString]

theorem filter_modelDump (flags : List PolicyFlag) :
    ((flags.map PolicyFlag.modelDump).filter fun f =>
        ((f.get? "severity").bind Json.asStr).any fun s => s == "warn" || s == "block") =
      (flags.filter fun f => f.severity = .warn ∨ f.severity = .block).map
        PolicyFlag.modelDump := by
  rw [List.filter_map]
  congr 1
  apply List.filter_congr
  intro f _
  have hseverity : (f.modelDump.get? "severity").bind Json.asStr = some f.severity.value := rfl
  rw [Function.comp_apply, hseverity]
  cases f.severity <;> rfl

theorem bind_get?_of_lookup {α : Type} {entries : List (String × Json)} {key : String}
    {value : Json} {dec : Json → Option α} {v : Option α}
    (h : Json.lookup entries key = some value) (hdec : dec value = v) :
    ((Json.obj entries).get? key).bind dec = v := by
  rw [Json.get?, h, Option.bind_some, hdec]

/-- What the mock model reads off a payload. -/
structure PayloadReads (data : Json) (a : LoanApplication) (risk : RiskAssessment)
    (policy : PolicyResult) (resolution : Option EscalationResolution) (outcome : DecisionOutcome)
    (amount : Option ℚ) : Prop where
  outcome : item data "decision_outcome" Json.asStr = .ok outcome.value
  ratio : item data "debt_to_income_ratio" Json.asFloat = .ok risk.debtToIncomeRatio
  tier : item data "risk_tier" Json.asStr = .ok risk.riskTier.value
  band : item data "credit_band" Json.asStr = .ok risk.creditReport.creditBand.value
  requested : item data "requested_amount" Json.asFloat = .ok a.requestedAmount
  approved : (data.get? "approved_amount").bind Json.asFloat = amount
  permitted : (data.get? "permitted_factors_used").bind (Json.asList Json.asStr) =
    some policy.permittedFactorsUsed
  flags : (data.get? "policy_flags").bind (Json.asList some) =
    some (policy.flags.map PolicyFlag.modelDump)
  escalation : data.get? "escalation" = some (.ofOption EscalationResolution.modelDump resolution)

theorem payloadReads_rationalePayload {a : LoanApplication} {risk : RiskAssessment}
    {policy : PolicyResult} {resolution : Option EscalationResolution} {outcome : DecisionOutcome}
    {amount : Option ℚ} {reasons : List String}
    (h : determineOutcome a risk policy resolution = (outcome, amount, reasons)) :
    PayloadReads (rationalePayload a risk policy resolution) a risk policy resolution outcome
      amount := by
  simp only [rationalePayload, h]
  constructor
  case outcome | ratio | tier | band | requested =>
    exact item_of_lookup (by simp [Json.lookup]; rfl) rfl
  case approved =>
    apply bind_get?_of_lookup (by simp [Json.lookup]; rfl)
    cases amount <;> rfl
  case permitted => exact bind_get?_of_lookup (by simp [Json.lookup]) (Json.asList_ofStrings _)
  case flags =>
    have hread := @Json.mapM_map_of_decode Json Json id some (fun _ => rfl)
      (policy.flags.map PolicyFlag.modelDump)
    rw [List.map_id] at hread
    have hlist : (Json.arr (policy.flags.map PolicyFlag.modelDump)).asList some =
        some (policy.flags.map PolicyFlag.modelDump) := hread
    exact bind_get?_of_lookup (by simp [Json.lookup]) hlist
  case escalation => simp [Json.get?, Json.lookup]

/-- The sentence on the review, if there was one. -/
theorem reviewSentences_modelDump (resolution : Option EscalationResolution) :
    (if (Json.ofOption EscalationResolution.modelDump resolution).truthy = true then
      [escalationSentence (Json.ofOption EscalationResolution.modelDump resolution)] else []) =
      ((resolution.map fun r => (⟨r.reviewerId, r.approve, borderlineCause,
        if r.notes = "" then "no additional notes provided" else r.notes⟩ : Review)).map
          Review.sentence).toList := by
  cases resolution with
  | none => rfl
  | some r => exact congrArg (fun s => [s]) (escalationSentence_modelDump r)

theorem mockExplainabilityRationale_eq (a : LoanApplication) (risk : RiskAssessment)
    (policy : PolicyResult) (resolution : Option EscalationResolution) :
    mockExplainabilityRationale (some (rationalePayload a risk policy resolution)) =
      .ok ⟨(explanationOf a risk policy resolution
        (determineOutcome a risk policy resolution).1
        (determineOutcome a risk policy resolution).2.1 borderlineCause).text, none⟩ := by
  rcases houtcome : determineOutcome a risk policy resolution with ⟨outcome, amount, reasons⟩
  have hreads := payloadReads_rationalePayload houtcome
  generalize rationalePayload a risk policy resolution = data at hreads
  have hflagTexts : (policy.flags.filter fun f => f.severity = .warn ∨ f.severity = .block).map
      (flagText ∘ PolicyFlag.modelDump) = (policy.flags.filter fun f => f.severity = .warn ∨
        f.severity = .block).map fun f => s!"{f.code}: {f.description}" :=
    List.map_congr_left fun f _ => flagText_modelDump f
  simp only [mockExplainabilityRationale, mockExplainabilityRationaleWith, Option.elim_some,
    ok_bind, hreads.outcome, hreads.ratio, hreads.tier, hreads.band, hreads.requested,
    hreads.approved, hreads.permitted, hreads.flags, hreads.escalation, Option.getD_some,
    filter_modelDump, reviewSentences_modelDump, List.map_map, hflagTexts, List.map_eq_nil_iff]
  delta Explanation.text Explanation.assessment Explanation.verdict Explanation.drivers
    Explanation.policyReview explanationOf
  cases outcome with
  | approved =>
      rw [if_pos (by rfl)]
      rfl
  | denied =>
      rw [if_neg (by decide)]
      rfl

/-- The text opens with the verdict. -/
theorem Explanation.verdict_prefix (e : Explanation) : e.verdict.toList <+: e.text.toList := by
  have hcons : e.assessment ++ (e.review.map Review.sentence).toList = e.verdict ::
      ([e.drivers] ++ (if e.flags = [] then [] else [e.policyReview]) ++
        (e.review.map Review.sentence).toList) := rfl
  rw [Explanation.text, hcons]
  exact prefix_intercalate _ _ _

theorem mockExplainabilityRationale_of_payload (a : LoanApplication) (risk : RiskAssessment)
    (policy : PolicyResult) (resolution : Option EscalationResolution) :
    ∃ reply, mockExplainabilityRationale (some (rationalePayload a risk policy resolution)) =
      .ok reply ∧ 1 ≤ reply.text.toList.length := by
  refine ⟨_, mockExplainabilityRationale_eq a risk policy resolution, ?_⟩
  refine le_trans ?_ (Explanation.verdict_prefix _).length_le
  rw [Explanation.verdict]
  split
  · have hnonempty : 1 ≤ (toString "This application was APPROVED").toList.length := by decide
    simp only [String.toList_append, List.length_append]
    omega
  · decide

end Underwriting
