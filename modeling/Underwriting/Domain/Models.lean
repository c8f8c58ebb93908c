import Underwriting.Domain.Errors
import Underwriting.Python.Text

/-!
# Domain models

Every Pydantic model is a structure whose last fields are the constraints of its
`Field(...)` declarations, so that a value that validation rejects cannot be built.
`modelDump` is `model_dump(mode="json")` and `modelValidate` is `model_validate`: it
reads the fields in order and fails at the first one that is missing, of another
type or out of range. `modelValidate_modelDump` says that a stored dump always
validates again, to the value it was made from.

Generated ids and times (`submitted_at`, `report_id`, `retrieved_at`, `decided_at`)
are left out: nothing reads them back.
-/

namespace Underwriting

open Python

inductive EmploymentStatus where
  | employedFullTime | employedPartTime | selfEmployed | unemployed | retired
  deriving DecidableEq

inductive LoanPurpose where
  | auto | homeImprovement | debtConsolidation | personal | smallBusiness
  deriving DecidableEq

inductive CreditBand where
  | excellent | good | fair | poor
  deriving DecidableEq

inductive RiskTier where
  | low | medium | borderline | high
  deriving DecidableEq

inductive PolicySeverity where
  | info | warn | block
  deriving DecidableEq

inductive DecisionOutcome where
  | approved | denied
  deriving DecidableEq

/-! ## Enumeration values -/

def EmploymentStatus.value : EmploymentStatus → String
  | employedFullTime => "employed_full_time"
  | employedPartTime => "employed_part_time"
  | selfEmployed => "self_employed"
  | unemployed => "unemployed"
  | retired => "retired"

def LoanPurpose.value : LoanPurpose → String
  | auto => "auto"
  | homeImprovement => "home_improvement"
  | debtConsolidation => "debt_consolidation"
  | personal => "personal"
  | smallBusiness => "small_business"

def CreditBand.value : CreditBand → String
  | excellent => "excellent"
  | good => "good"
  | fair => "fair"
  | poor => "poor"

def RiskTier.value : RiskTier → String
  | low => "low"
  | medium => "medium"
  | borderline => "borderline"
  | high => "high"

def PolicySeverity.value : PolicySeverity → String
  | info => "info"
  | warn => "warn"
  | block => "block"

def DecisionOutcome.value : DecisionOutcome → String
  | approved => "approved"
  | denied => "denied"

/-- The member of an enumeration with a given value. -/
def ofValue {α : Type} (members : List α) (value : α → String) (j : Json) : Option α :=
  j.asStr.bind fun s => members.find? fun a => value a == s

def EmploymentStatus.ofJson : Json → Option EmploymentStatus :=
  ofValue [employedFullTime, employedPartTime, selfEmployed, unemployed, retired] value

def LoanPurpose.ofJson : Json → Option LoanPurpose :=
  ofValue [auto, homeImprovement, debtConsolidation, personal, smallBusiness] value

def CreditBand.ofJson : Json → Option CreditBand :=
  ofValue [excellent, good, fair, poor] value

def RiskTier.ofJson : Json → Option RiskTier :=
  ofValue [low, medium, borderline, high] value

def PolicySeverity.ofJson : Json → Option PolicySeverity :=
  ofValue [info, warn, block] value

def DecisionOutcome.ofJson : Json → Option DecisionOutcome :=
  ofValue [approved, denied] value

@[simp] theorem EmploymentStatus.ofJson_value (e : EmploymentStatus) :
    ofJson (.str e.value) = some e := by
  cases e <;> decide

@[simp] theorem LoanPurpose.ofJson_value (p : LoanPurpose) : ofJson (.str p.value) = some p := by
  cases p <;> decide

@[simp] theorem CreditBand.ofJson_value (b : CreditBand) : ofJson (.str b.value) = some b := by
  cases b <;> decide

@[simp] theorem RiskTier.ofJson_value (t : RiskTier) : ofJson (.str t.value) = some t := by
  cases t <;> decide

@[simp] theorem PolicySeverity.ofJson_value (s : PolicySeverity) :
    ofJson (.str s.value) = some s := by
  cases s <;> decide

@[simp] theorem DecisionOutcome.ofJson_value (o : DecisionOutcome) :
    ofJson (.str o.value) = some o := by
  cases o <;> decide

/-! ## The application -/

structure LoanApplication where
  applicationId : String
  applicantFullName : String
  requestedAmount : ℚ
  loanPurpose : LoanPurpose
  employmentStatus : EmploymentStatus
  statedAnnualIncome : ℚ
  statedMonthlyDebt : ℚ
  rawFinancialDocumentText : String
  name_length : 1 ≤ applicantFullName.toList.length ∧ applicantFullName.toList.length ≤ 200
  name_stripped : strip applicantFullName.toList = applicantFullName.toList
  amount_range : 0 < requestedAmount ∧ requestedAmount ≤ 1000000
  income_range : 0 ≤ statedAnnualIncome ∧ statedAnnualIncome ≤ 10000000
  debt_range : 0 ≤ statedMonthlyDebt ∧ statedMonthlyDebt ≤ 1000000
  text_length : 1 ≤ rawFinancialDocumentText.toList.length ∧
    rawFinancialDocumentText.toList.length ≤ 20000

namespace LoanApplication

def modelDump (a : LoanApplication) : Json :=
  .obj [
    ("application_id", .str a.applicationId),
    ("applicant_full_name", .str a.applicantFullName),
    ("requested_amount", .float a.requestedAmount),
    ("loan_purpose", .str a.loanPurpose.value),
    ("employment_status", .str a.employmentStatus.value),
    ("stated_annual_income", .float a.statedAnnualIncome),
    ("stated_monthly_debt", .float a.statedMonthlyDebt),
    ("raw_financial_document_text", .str a.rawFinancialDocumentText)]

/-- `_strip_name`, which runs after the length constraints and keeps them. -/
def stripName (v : {v : String // 1 ≤ v.toList.length ∧ v.toList.length ≤ 200}) :
    Except Exn {w : String // (1 ≤ w.toList.length ∧ w.toList.length ≤ 200) ∧
      strip w.toList = w.toList} :=
  if h : strip v.val.toList = [] then
    .error (.validationError "LoanApplication" "applicant_full_name")
  else
    .ok ⟨String.ofList (strip v.val.toList), by
      have hpos : 0 < (strip v.val.toList).length := List.length_pos_iff.2 h
      have hle := (length_strip_le v.val.toList).trans v.property.2
      simpa [strip_strip] using ⟨hpos, hle⟩⟩

theorem stripName_of_stripped {v : String} (hlen : 1 ≤ v.toList.length ∧ v.toList.length ≤ 200)
    (hstrip : strip v.toList = v.toList) : stripName ⟨v, hlen⟩ = .ok ⟨v, hlen, hstrip⟩ := by
  have hne : ¬ strip v.toList = [] := by
    rw [hstrip]
    exact List.length_pos_iff.1 hlen.1
  unfold stripName
  rw [dif_neg hne]
  simp [hstrip]

def modelValidate (j : Json) : Except Exn LoanApplication := do
  let applicationId ← checked "LoanApplication" (field j "application_id") Json.asStr fun _ => True
  let name ← checked "LoanApplication" (field j "applicant_full_name") Json.asStr
    fun v => 1 ≤ v.toList.length ∧ v.toList.length ≤ 200
  let stripped ← stripName name
  let amount ← checked "LoanApplication" (field j "requested_amount") Json.asFloat
    fun q => 0 < q ∧ q ≤ 1000000
  let purpose ← checked "LoanApplication" (field j "loan_purpose") LoanPurpose.ofJson fun _ => True
  let status ← checked "LoanApplication" (field j "employment_status") EmploymentStatus.ofJson
    fun _ => True
  let income ← checked "LoanApplication" (field j "stated_annual_income") Json.asFloat
    fun q => 0 ≤ q ∧ q ≤ 10000000
  let debt ← checked "LoanApplication" (field j "stated_monthly_debt") Json.asFloat
    fun q => 0 ≤ q ∧ q ≤ 1000000
  let text ← checked "LoanApplication" (field j "raw_financial_document_text") Json.asStr
    fun v => 1 ≤ v.toList.length ∧ v.toList.length ≤ 20000
  pure ⟨applicationId, stripped, amount, purpose, status, income, debt, text,
    stripped.property.1, stripped.property.2, amount.property,
    income.property, debt.property, text.property⟩

/-- A dump validates again; the name is already stripped, so `_strip_name` keeps it. -/
@[simp] theorem modelValidate_modelDump (a : LoanApplication) :
    modelValidate a.modelDump = .ok a := by
  have hname := stripName_of_stripped a.name_length a.name_stripped
  simp [modelValidate, modelDump, field, checked, Json.get?, Json.lookup, Json.asStr, Json.asFloat,
    hname, a.name_length, a.amount_range, a.income_range, a.debt_range, a.text_length]

theorem modelDump_injective : Function.Injective modelDump :=
  injective_of_validate modelValidate_modelDump

end LoanApplication

/-! ## Extracted financials -/

structure ExtractedFinancials where
  monthlyGrossIncome : ℚ
  monthlyNetIncome : ℚ
  existingMonthlyDebtPayments : ℚ
  employerName : Option String
  payFrequency : Option String
  extractionConfidence : ℚ
  sourceExcerpts : List String
  gross_nonneg : 0 ≤ monthlyGrossIncome
  net_nonneg : 0 ≤ monthlyNetIncome
  debt_nonneg : 0 ≤ existingMonthlyDebtPayments
  confidence_range : 0 ≤ extractionConfidence ∧ extractionConfidence ≤ 1

namespace ExtractedFinancials

def modelDump (x : ExtractedFinancials) : Json :=
  .obj [
    ("monthly_gross_income", .float x.monthlyGrossIncome),
    ("monthly_net_income", .float x.monthlyNetIncome),
    ("existing_monthly_debt_payments", .float x.existingMonthlyDebtPayments),
    ("employer_name", .ofOption .str x.employerName),
    ("pay_frequency", .ofOption .str x.payFrequency),
    ("extraction_confidence", .float x.extractionConfidence),
    ("source_excerpts", .ofStrings x.sourceExcerpts)]

/-- The decoded reply of a chat model is validated here too. A value that Pydantic
would coerce to a number or a string stands for what it is coerced to. -/
def modelValidate (j : Json) : Except Exn ExtractedFinancials := do
  let gross ← checked "ExtractedFinancials" (field j "monthly_gross_income") Json.asFloat (0 ≤ ·)
  let net ← checked "ExtractedFinancials" (field j "monthly_net_income") Json.asFloat (0 ≤ ·)
  let debt ← checked "ExtractedFinancials" (field j "existing_monthly_debt_payments") Json.asFloat
    (0 ≤ ·)
  let employer ← fieldOr "ExtractedFinancials" (field j "employer_name")
    (Json.asOption Json.asStr) none
  let frequency ← fieldOr "ExtractedFinancials" (field j "pay_frequency") (Json.asOption Json.asStr)
    none
  let confidence ← checked "ExtractedFinancials" (field j "extraction_confidence") Json.asFloat
    fun q => 0 ≤ q ∧ q ≤ 1
  let excerpts ← fieldOr "ExtractedFinancials" (field j "source_excerpts")
    (Json.asList Json.asStr) []
  pure ⟨gross, net, debt, employer, frequency, confidence, excerpts, gross.property,
    net.property, debt.property, confidence.property⟩

@[simp] theorem modelValidate_modelDump (x : ExtractedFinancials) :
    modelValidate x.modelDump = .ok x := by
  simp [modelValidate, modelDump, field, checked, fieldOr, Json.get?, Json.lookup, Json.asFloat,
    x.gross_nonneg, x.net_nonneg, x.debt_nonneg, x.confidence_range]

theorem gross_of_modelValidate {j : Json} {x : ExtractedFinancials}
    (h : modelValidate j = .ok x) :
    (j.get? "monthly_gross_income").bind Json.asFloat = some x.monthlyGrossIncome := by
  obtain ⟨gross, hgross, h⟩ := bind_eq_ok_iff.1 h
  obtain ⟨net, -, h⟩ := bind_eq_ok_iff.1 h
  obtain ⟨debt, -, h⟩ := bind_eq_ok_iff.1 h
  obtain ⟨employer, -, h⟩ := bind_eq_ok_iff.1 h
  obtain ⟨frequency, -, h⟩ := bind_eq_ok_iff.1 h
  obtain ⟨confidence, -, h⟩ := bind_eq_ok_iff.1 h
  obtain ⟨excerpts, -, h⟩ := bind_eq_ok_iff.1 h
  cases h
  exact bind_of_checked hgross

theorem isControl_of_modelValidate (j : Json) (e : Exn) (h : modelValidate j = .error e) :
    e.isControl = false := by
  refine isControl_of_bind isControl_of_checked (fun gross => ?_) e h
  refine isControl_of_bind isControl_of_checked fun net => ?_
  refine isControl_of_bind isControl_of_checked fun debt => ?_
  refine isControl_of_bind isControl_of_fieldOr fun employer => ?_
  refine isControl_of_bind isControl_of_fieldOr fun frequency => ?_
  refine isControl_of_bind isControl_of_checked fun confidence => ?_
  refine isControl_of_bind isControl_of_fieldOr fun excerpts e h => ?_
  cases h

theorem modelDump_injective : Function.Injective modelDump :=
  injective_of_validate modelValidate_modelDump

end ExtractedFinancials

/-! ## Risk assessment -/

structure CreditBureauReport where
  creditScore : ℤ
  creditBand : CreditBand
  openTradelines : ℤ
  delinquenciesLast24mo : ℤ
  score_range : 300 ≤ creditScore ∧ creditScore ≤ 850
  tradelines_nonneg : 0 ≤ openTradelines
  delinquencies_nonneg : 0 ≤ delinquenciesLast24mo

namespace CreditBureauReport

def modelDump (c : CreditBureauReport) : Json :=
  .obj [
    ("credit_score", .int c.creditScore),
    ("credit_band", .str c.creditBand.value),
    ("open_tradelines", .int c.openTradelines),
    ("delinquencies_last_24mo", .int c.delinquenciesLast24mo)]

def modelValidate (j : Json) : Except Exn CreditBureauReport := do
  let score ← checked "CreditBureauReport" (field j "credit_score") Json.asInt
    fun i => 300 ≤ i ∧ i ≤ 850
  let band ← checked "CreditBureauReport" (field j "credit_band") CreditBand.ofJson fun _ => True
  let tradelines ← checked "CreditBureauReport" (field j "open_tradelines") Json.asInt (0 ≤ ·)
  let delinquencies ← checked "CreditBureauReport" (field j "delinquencies_last_24mo") Json.asInt
    (0 ≤ ·)
  pure ⟨score, band, tradelines, delinquencies, score.property, tradelines.property,
    delinquencies.property⟩

@[simp] theorem modelValidate_modelDump (c : CreditBureauReport) :
    modelValidate c.modelDump = .ok c := by
  simp [modelValidate, modelDump, field, checked, Json.get?, Json.lookup, Json.asInt, c.score_range,
    c.tradelines_nonneg, c.delinquencies_nonneg]

end CreditBureauReport

structure RiskAssessment where
  debtToIncomeRatio : ℚ
  creditReport : CreditBureauReport
  riskTier : RiskTier
  requiresHumanEscalation : Bool
  rationaleFactors : List String
  ratio_nonneg : 0 ≤ debtToIncomeRatio

namespace RiskAssessment

def modelDump (x : RiskAssessment) : Json :=
  .obj [
    ("debt_to_income_ratio", .float x.debtToIncomeRatio),
    ("credit_report", x.creditReport.modelDump),
    ("risk_tier", .str x.riskTier.value),
    ("requires_human_escalation", .bool x.requiresHumanEscalation),
    ("rationale_factors", .ofStrings x.rationaleFactors)]

def modelValidate (j : Json) : Except Exn RiskAssessment := do
  let ratio ← checked "RiskAssessment" (field j "debt_to_income_ratio") Json.asFloat (0 ≤ ·)
  let report ← CreditBureauReport.modelValidate ((j.get? "credit_report").getD .null)
  let tier ← checked "RiskAssessment" (field j "risk_tier") RiskTier.ofJson fun _ => True
  let escalate ← checked "RiskAssessment" (field j "requires_human_escalation") Json.asBool
    fun _ => True
  let factors ← fieldOr "RiskAssessment" (field j "rationale_factors") (Json.asList Json.asStr) []
  pure ⟨ratio, report, tier, escalate, factors, ratio.property⟩

@[simp] theorem modelValidate_modelDump (x : RiskAssessment) :
    modelValidate x.modelDump = .ok x := by
  simp [modelValidate, modelDump, field, checked, fieldOr, Json.get?, Json.lookup, Json.asFloat,
    Json.asBool, x.ratio_nonneg]

theorem modelDump_injective : Function.Injective modelDump :=
  injective_of_validate modelValidate_modelDump

end RiskAssessment

/-! ## Policy result -/

structure PolicyFlag where
  code : String
  description : String
  severity : PolicySeverity

structure PolicyResult where
  passed : Bool
  flags : List PolicyFlag
  permittedFactorsUsed : List String
  excludedFactorsChecked : List String

namespace PolicyFlag

def modelDump (f : PolicyFlag) : Json :=
  .obj [
    ("code", .str f.code),
    ("description", .str f.description),
    ("severity", .str f.severity.value)]

def modelValidate (j : Json) : Except Exn PolicyFlag := do
  let code ← checked "PolicyFlag" (field j "code") Json.asStr fun _ => True
  let description ← checked "PolicyFlag" (field j "description") Json.asStr fun _ => True
  let severity ← checked "PolicyFlag" (field j "severity") PolicySeverity.ofJson fun _ => True
  pure ⟨code, description, severity⟩

@[simp] theorem modelValidate_modelDump (f : PolicyFlag) : modelValidate f.modelDump = .ok f := by
  simp [modelValidate, modelDump, field, checked, Json.get?, Json.lookup, Json.asStr]

end PolicyFlag

namespace PolicyResult

def modelDump (p : PolicyResult) : Json :=
  .obj [
    ("passed", .bool p.passed),
    ("flags", .arr (p.flags.map PolicyFlag.modelDump)),
    ("permitted_factors_used", .ofStrings p.permittedFactorsUsed),
    ("excluded_factors_checked", .ofStrings p.excludedFactorsChecked)]

def modelValidate (j : Json) : Except Exn PolicyResult := do
  let passed ← checked "PolicyResult" (field j "passed") Json.asBool fun _ => True
  let flags ← fieldOr "PolicyResult" (field j "flags")
    (Json.asList fun f => (PolicyFlag.modelValidate f).toOption) []
  let permitted ← fieldOr "PolicyResult" (field j "permitted_factors_used")
    (Json.asList Json.asStr) []
  let excluded ← fieldOr "PolicyResult" (field j "excluded_factors_checked")
    (Json.asList Json.asStr) []
  pure ⟨passed, flags, permitted, excluded⟩

@[simp] theorem modelValidate_modelDump (p : PolicyResult) :
    modelValidate p.modelDump = .ok p := by
  have hflags : Json.asList (fun f => (PolicyFlag.modelValidate f).toOption)
      (.arr (p.flags.map PolicyFlag.modelDump)) = some p.flags :=
    Json.asList_arr_map (fun f => by rw [PolicyFlag.modelValidate_modelDump]; rfl) p.flags
  simp [modelValidate, modelDump, field, checked, fieldOr, Json.get?, Json.lookup, Json.asBool,
    hflags]

theorem modelDump_injective : Function.Injective modelDump :=
  injective_of_validate modelValidate_modelDump

end PolicyResult

/-! ## Decision and escalation -/

structure Decision where
  outcome : DecisionOutcome
  approvedAmount : Option ℚ
  rationale : String
  adverseActionReasons : List String
  decidedBy : String
  rationale_nonempty : 1 ≤ rationale.toList.length

/-- `Decision(...)`, which rejects an empty rationale. -/
def Decision.build (outcome : DecisionOutcome) (approvedAmount : Option ℚ) (rationale : String)
    (adverseActionReasons : List String) (decidedBy : String) : Except Exn Decision :=
  if h : 1 ≤ rationale.toList.length then
    .ok ⟨outcome, approvedAmount, rationale, adverseActionReasons, decidedBy, h⟩
  else .error (.validationError "Decision" "rationale")

def Decision.modelDump (d : Decision) : Json :=
  .obj [
    ("outcome", .str d.outcome.value),
    ("approved_amount", .ofOption .float d.approvedAmount),
    ("rationale", .str d.rationale),
    ("adverse_action_reasons", .ofStrings d.adverseActionReasons),
    ("decided_by", .str d.decidedBy)]

theorem DecisionOutcome.value_injective : Function.Injective value := by
  intro a b h
  cases a <;> cases b <;> simp_all [value]

theorem Decision.modelDump_injective : Function.Injective Decision.modelDump := by
  intro d d' h
  simp only [Decision.modelDump, Json.obj.injEq, List.cons.injEq, Prod.mk.injEq, Json.str.injEq,
    true_and, and_true] at h
  obtain ⟨houtcome, hamount, hrationale, hreasons, hdecidedBy⟩ := h
  cases d
  cases d'
  obtain rfl := DecisionOutcome.value_injective houtcome
  obtain rfl := Json.ofOption_float_injective hamount
  obtain rfl := Json.ofStrings_injective hreasons
  subst hrationale hdecidedBy
  rfl

structure EscalationResolution where
  reviewerId : String
  approve : Bool
  notes : String
  reviewer_length : 1 ≤ reviewerId.toList.length ∧ reviewerId.toList.length ≤ 100
  notes_length : notes.toList.length ≤ 2000

namespace EscalationResolution

def modelDump (x : EscalationResolution) : Json :=
  .obj [
    ("reviewer_id", .str x.reviewerId),
    ("approve", .bool x.approve),
    ("notes", .str x.notes)]

def modelValidate (j : Json) : Except Exn EscalationResolution := do
  let reviewer ← checked "EscalationResolution" (field j "reviewer_id") Json.asStr
    fun v => 1 ≤ v.toList.length ∧ v.toList.length ≤ 100
  let approve ← checked "EscalationResolution" (field j "approve") Json.asBool fun _ => True
  let notes ← checked "EscalationResolution" (field j "notes") Json.asStr
    fun v => v.toList.length ≤ 2000
  pure ⟨reviewer, approve, notes, reviewer.property, notes.property⟩

@[simp] theorem modelValidate_modelDump (x : EscalationResolution) :
    modelValidate x.modelDump = .ok x := by
  simp [modelValidate, modelDump, field, checked, Json.get?, Json.lookup, Json.asStr, Json.asBool,
    x.reviewer_length, x.notes_length]

theorem modelDump_injective : Function.Injective modelDump :=
  injective_of_validate modelValidate_modelDump

end EscalationResolution

end Underwriting
