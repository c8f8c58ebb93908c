import Underwriting.Guarantees.DecisionTable
import Underwriting.Guarantees.Offline
import Underwriting.Infrastructure.InjectionPhrases
import Underwriting.Run.Fresh
import Underwriting.Run.Reading

/-!
# Documents without labels

A document in which none of the four labels occurs tells the offline model nothing. A pay
frequency that is not there reads as monthly, though, and counts as a field that was found: the
reported confidence is 0.55 + 0.4 / 4, above the minimum of the policy. So nothing is flagged,
the income falls back on what the applicant states, the debt is zero, and the case is decided
like any other. When its amount and its credit band are good enough, the application is approved
and no reviewer has seen it.
-/

namespace Underwriting

open Python Python.Regex ApplicationService

/-! ## What the offline model reads -/

/-- The labels of the fields that count towards the confidence. -/
def documentLabels : List String := moneyLabels ++ ["PAY_FREQUENCY"]

/-- None of the labels occurs in the text, in any letter case. -/
def Unlabelled (text : String) : Prop :=
  ∀ label ∈ documentLabels, search (word label) none text.toList = none

theorem foreign_label {label : String} (h : label ∈ documentLabels) :
    Foreign (word label) placeholder.toList where
  inner := by
    have hinner : ∀ label ∈ documentLabels, (label.toList.any fun p =>
        sameIgnoringCase p '[' || sameIgnoringCase p ']') = false := by decide
    exact unbracketed_word (hinner label h)
  meets := by
    have hmem : ∀ label ∈ documentLabels, '_' ∈ label.toList := by decide
    exact meets_word_of_foreign (hmem label h) (by decide)
  repl_ne_nil := placeholder_ne_nil

theorem Unlabelled.sanitized {text : String} (u : Unicode) (h : Unlabelled text) :
    Unlabelled (sanitized u text) := by
  intro label hlabel
  exact search_sanitized_eq_none u (foreign_label hlabel) (lookFree_word label) (h label hlabel)

/-- A field whose label does not occur is not found. -/
theorem search_field_eq_none {r : Regex} {label : String} {s : List Char}
    (h : search (word label) none s = none) : search (seq (word label) r) none s = none := by
  rw [search_eq_none_iff] at h ⊢
  intro hoccurs
  exact h (occurs_of_occurs_seq hoccurs)

theorem parseMoneyField_of_unlabelled (u : Unicode) {text label : String}
    (h : search (word label) none text.toList = none) :
    parseMoneyField u text label = .ok none := by
  have hfigure : moneyFigure u text label = none := by
    rw [moneyFigure, moneyFieldPattern, search_field_eq_none h]
    rfl
  rw [parseMoneyField, hfigure]

theorem payFrequencyOf_of_unlabelled (u : Unicode) {text : String} (h : Unlabelled text) :
    payFrequencyOf u text = "monthly" := by
  have hlabel := h "PAY_FREQUENCY" (by simp [documentLabels])
  have hfield : parseTextField text "PAY_FREQUENCY" = none := by
    rw [parseTextField, textFieldPattern, search_field_eq_none hlabel]
    rfl
  rw [payFrequencyOf, hfield]
  exact u.lower_ascii "monthly" (by simp)

/-- No income, no debt and the default pay frequency, which counts as found. -/
def unlabelledExtraction (text : String) : ExtractedFinancials where
  monthlyGrossIncome := 0
  monthlyNetIncome := 0
  existingMonthlyDebtPayments := 0
  employerName := parseTextField text "EMPLOYER"
  payFrequency := some "monthly"
  extractionConfidence := 0.65
  sourceExcerpts := sourceExcerpts text
  gross_nonneg := le_rfl
  net_nonneg := le_rfl
  debt_nonneg := le_rfl
  confidence_range := by norm_num

theorem roundTo_unlabelled : roundTo (0.55 + 0.4 * 4⁻¹) 2 = 0.65 := by decide +kernel

theorem mockDocumentExtraction_of_unlabelled (u : Unicode) {text : String} (h : Unlabelled text) :
    mockDocumentExtraction u text = .ok (.ofJson (unlabelledExtraction text).modelDump) := by
  have hmoney (label : String) (hlabel : label ∈ moneyLabels) :
      parseMoneyField u text label = .ok none :=
    parseMoneyField_of_unlabelled u (h label (List.mem_append_left _ hlabel))
  have hpayload : extractionPayload monthlyAmount u text none none none =
      (unlabelledExtraction text).modelDump := by
    have hknown : payFrequencyMonthlyMultiplier.lookup "monthly" = some 1 := by decide
    have hconfidence : min (roundTo (0.55 + 0.4 * 4⁻¹) 2) 0.99 = (0.65 : ℚ) := by
      rw [roundTo_unlabelled]
      norm_num
    simp [extractionPayload, monthlyAmount, payFrequencyOf_of_unlabelled u h, hknown, hconfidence,
      unlabelledExtraction, ExtractedFinancials.modelDump, Json.ofOption]
  rw [mockDocumentExtraction, mockDocumentExtractionWith, hmoney _ (by simp [moneyLabels]),
    hmoney _ (by simp [moneyLabels]), hmoney _ (by simp [moneyLabels])]
  exact congrArg (fun j => Except.ok (Content.ofJson j)) hpayload

section Offline

variable {env : Env} {a : LoanApplication}

/-- The extraction of an application whose document has no labels. -/
abbrev blindExtraction (env : Env) (a : LoanApplication) : ExtractedFinancials :=
  unlabelledExtraction (sanitized env.unicode a.rawFinancialDocumentText)

theorem chat_unlabelled (h : Unlabelled a.rawFinancialDocumentText) (n : ℕ) :
    env.offline.chat n (extractionPrompt env.offline a) =
      .ok (.ofJson (blindExtraction env a).modelDump) :=
  (chat_extraction_offline n).trans
    (mockDocumentExtraction_of_unlabelled env.unicode (h.sanitized env.unicode))

theorem validateExtraction_ofJson (x : ExtractedFinancials) :
    validateExtraction (.ofJson x.modelDump) = .ok x :=
  ExtractedFinancials.modelValidate_modelDump x

end Offline

/-! ## What is decided -/

section Decision

variable {env : Env} {a : LoanApplication} {text : String}

/-- Without debt there is always a ratio. -/
theorem not_unscorable_unlabelled (arithmetic : Arithmetic) (a : LoanApplication) (text : String) :
    ¬ Unscorable arithmetic a (unlabelledExtraction text) := by
  intro h
  have hinfinite : arithmetic.isInf 0 = true := h.2
  rw [Arithmetic.isInf_eq_false_of_lt (by norm_num)] at hinfinite
  cases hinfinite

end Decision

/-! ## Approvals -/

section Approval

variable {env : Env} {R : Run} {x : ExtractedFinancials}

end Approval

/-! ## Every moment of a run -/

theorem unlabelled_sample : Unlabelled sampleApplication.rawFinancialDocumentText := by
  unfold Unlabelled
  decide

end Underwriting
