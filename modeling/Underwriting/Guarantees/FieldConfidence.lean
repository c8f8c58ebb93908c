import Mathlib.Algebra.BigOperators.Ring.Finset
import Mathlib.Data.Fintype.Basic
import Underwriting.Service.Offline

/-!
# Confidence and missing fields

The confidence is a fixed value for each number of scored fields that were found, and it grows
with that number. A pay frequency is found when it is recognised, and an absent or blank one
is replaced by a recognised one first. So a document can lack a field that another one has and
lose nothing by it: that happens exactly when it is given a frequency by default, the other
one is not, and the other one has a single field more.
-/

namespace Underwriting

open Python

inductive ScoredField where
  | payFrequency | gross | net | debt
  deriving DecidableEq

instance : Fintype ScoredField :=
  ⟨{.payFrequency, .gross, .net, .debt}, fun f => by cases f <;> decide⟩

/-- The document has a value of the field, and a pay frequency is one of the table. -/
def Present (u : Unicode) (text : String) : ScoredField → Prop
  | .payFrequency => ∃ frequency ∈ parseTextField text "PAY_FREQUENCY",
      (payFrequencyMonthlyMultiplier.lookup (u.lower frequency)).isSome = true
  | .gross => (moneyFigure u text "GROSS_PAY_PER_PERIOD").isSome = true
  | .net => (moneyFigure u text "NET_PAY_PER_PERIOD").isSome = true
  | .debt => (moneyFigure u text "EXISTING_MONTHLY_DEBT").isSome = true

instance (u : Unicode) (text : String) : DecidablePred (Present u text) := fun f =>
  match f with
  | .payFrequency => inferInstanceAs (Decidable (∃ frequency ∈ parseTextField text _, _))
  | .gross | .net | .debt => inferInstanceAs (Decidable (_ = true))

def presentFields (u : Unicode) (text : String) : Finset ScoredField :=
  Finset.univ.filter (Present u text)

/-- The document has no pay frequency, or a blank one. -/
def Defaulted (text : String) : Prop :=
  (parseTextField text "PAY_FREQUENCY").filter (· != "") = none

instance (text : String) : Decidable (Defaulted text) :=
  inferInstanceAs (Decidable (_ = _))

/-! ## The fields that are counted -/

section Count

variable {u : Unicode} {text : String}

theorem lower_monthly (u : Unicode) : u.lower "monthly" = "monthly" := by
  rw [u.lower_ascii _ (by simp)]
  decide

/-- A frequency is counted when it is present and when it is given by default. -/
theorem isSome_lookup_payFrequencyOf_iff :
    (payFrequencyMonthlyMultiplier.lookup (payFrequencyOf u text)).isSome = true ↔
      Present u text .payFrequency ∨ Defaulted text := by
  have hmonthly : (payFrequencyMonthlyMultiplier.lookup (u.lower "monthly")).isSome = true := by
    rw [lower_monthly]
    decide
  have hblank : (payFrequencyMonthlyMultiplier.lookup (u.lower "")).isSome = false := by
    rw [u.lower_ascii _ (by simp)]
    decide
  rw [payFrequencyOf, Present, Defaulted]
  cases parseTextField text "PAY_FREQUENCY" with
  | none => simp [hmonthly]
  | some frequency =>
      by_cases h : frequency = ""
      · simp [Option.filter_some, h, hmonthly]
      · simp [Option.filter_some, h]

theorem not_present_of_defaulted (h : Defaulted text) : ¬ Present u text .payFrequency := by
  have hblank : (payFrequencyMonthlyMultiplier.lookup (u.lower "")).isSome = false := by
    rw [u.lower_ascii _ (by simp)]
    decide
  rintro ⟨frequency, hfrequency, hknown⟩
  rw [Option.mem_def] at hfrequency
  rw [Defaulted, hfrequency, Option.filter_some] at h
  split_ifs at h with hne
  have hempty : frequency = "" := by simpa using hne
  rw [hempty, hblank] at hknown
  cases hknown

theorem card_presentFields (u : Unicode) (text : String) : ((presentFields u text).card : ℚ) =
    (if Present u text .payFrequency then 1 else 0) +
      ((if (moneyFigure u text "GROSS_PAY_PER_PERIOD").isSome then 1 else 0) +
      ((if (moneyFigure u text "NET_PAY_PER_PERIOD").isSome then 1 else 0) +
      ((if (moneyFigure u text "EXISTING_MONTHLY_DEBT").isSome then 1 else 0) + 0))) := by
  rw [presentFields, Finset.natCast_card_filter]
  rfl

/-- At most four fields are counted. -/
theorem card_counted_lt : (presentFields u text).card + (if Defaulted text then 1 else 0) < 5 := by
  have hle : (presentFields u text).card ≤ 4 := Finset.card_le_univ _
  split_ifs with hdefaulted
  · have hproper : presentFields u text ⊂ Finset.univ := by
      rw [Finset.ssubset_univ_iff]
      intro hall
      have hmem : ScoredField.payFrequency ∈ presentFields u text := hall ▸ Finset.mem_univ _
      exact not_present_of_defaulted hdefaulted (Finset.mem_filter.1 hmem).2
    have hlt : (presentFields u text).card < 4 := Finset.card_lt_card hproper
    omega
  · omega

end Count

/-! ## The confidence that is reported -/

/-- The confidence in a mock reply. -/
def reportedConfidence (reply : Content) : Option ℚ :=
  (reply.json.bind (·.get? "extraction_confidence")).bind Json.asFloat

/-- The confidence for a number of fields. -/
def confidenceFor (fieldsFound : ℕ) : ℚ := min (roundTo (0.55 + 0.4 * (fieldsFound / 4)) 2) 0.99

theorem confidenceFor_lt_iff {n n' : ℕ} (h : n < 5) (h' : n' < 5) :
    confidenceFor n < confidenceFor n' ↔ n < n' := by
  have htable : ∀ n < 5, ∀ n' < 5, confidenceFor n < confidenceFor n' ↔ n < n' := by
    decide +kernel
  exact htable n h n' h'

section Reply

variable {u : Unicode} {text : String}

/-- The fields that are counted are those that are present and a frequency by default. -/
theorem reportedConfidence_eq {reply : Content} (h : mockDocumentExtraction u text = .ok reply) :
    reportedConfidence reply = some (confidenceFor
      ((presentFields u text).card + if Defaulted text then 1 else 0)) := by
  obtain ⟨gross, net, debt, hgross, hnet, hdebt, rfl⟩ := exists_fields h
  have hcount : (if (payFrequencyMonthlyMultiplier.lookup (payFrequencyOf u text)).isSome then
      (1 : ℚ) else 0) + (if gross.isSome then 1 else 0) + (if net.isSome then 1 else 0) +
        (if debt.isSome then 1 else 0) =
      ((presentFields u text).card + if Defaulted text then 1 else 0 : ℕ) := by
    rw [Nat.cast_add, card_presentFields, isSome_parseMoneyField hgross,
      isSome_parseMoneyField hnet, isSome_parseMoneyField hdebt]
    simp only [isSome_lookup_payFrequencyOf_iff]
    by_cases hdefaulted : Defaulted text
    · have habsent := @not_present_of_defaulted u text hdefaulted
      simp only [hdefaulted, habsent, or_true, if_true, if_false]
      push_cast
      ring
    · simp only [hdefaulted, or_false, if_false]
      push_cast
      ring
  rw [confidenceFor, ← hcount]
  rfl

end Reply

theorem confidence_lt_iff (u : Unicode) (d₁ d₂ : String) (reply₁ reply₂ : Content)
    (h₁ : mockDocumentExtraction u d₁ = .ok reply₁) (h₂ : mockDocumentExtraction u d₂ = .ok reply₂)
    (hfewer : presentFields u d₁ ⊂ presentFields u d₂) :
    ∃ c₁ c₂, reportedConfidence reply₁ = some c₁ ∧ reportedConfidence reply₂ = some c₂ ∧
      (c₁ < c₂ ↔ ¬ (Defaulted d₁ ∧ ¬ Defaulted d₂ ∧
        (presentFields u d₂).card = (presentFields u d₁).card + 1)) := by
  refine ⟨_, _, reportedConfidence_eq h₁, reportedConfidence_eq h₂, ?_⟩
  have hcard := Finset.card_lt_card hfewer
  have hbound₁ := @card_counted_lt u d₁
  have hbound₂ := @card_counted_lt u d₂
  rw [confidenceFor_lt_iff hbound₁ hbound₂]
  by_cases hdefault₁ : Defaulted d₁
  · by_cases hdefault₂ : Defaulted d₂
    · rw [if_pos hdefault₁, if_pos hdefault₂]
      exact iff_of_true (by omega) fun h => h.2.1 hdefault₂
    · rw [if_pos hdefault₁, if_neg hdefault₂]
      constructor
      · intro hlt hone
        omega
      · intro hmore
        have hne : (presentFields u d₂).card ≠ (presentFields u d₁).card + 1 := fun hone =>
          hmore ⟨hdefault₁, hdefault₂, hone⟩
        omega
  · rw [if_neg hdefault₁]
    exact iff_of_true (by omega) fun h => hdefault₁ h.1

/-! ## A frequency by default -/

theorem exists_reply {text : String}
    (hgross : (parseMoneyField .ascii text "GROSS_PAY_PER_PERIOD").toOption.isSome = true)
    (hnet : (parseMoneyField .ascii text "NET_PAY_PER_PERIOD").toOption.isSome = true)
    (hdebt : (parseMoneyField .ascii text "EXISTING_MONTHLY_DEBT").toOption.isSome = true) :
    ∃ reply, mockDocumentExtraction .ascii text = .ok reply := by
  obtain ⟨gross, hgross⟩ := Option.isSome_iff_exists.1 hgross
  obtain ⟨net, hnet⟩ := Option.isSome_iff_exists.1 hnet
  obtain ⟨debt, hdebt⟩ := Option.isSome_iff_exists.1 hdebt
  obtain ⟨reply, x, hreply, -, -⟩ := exists_extraction (eq_ok_of_toOption hgross)
    (eq_ok_of_toOption hnet) (eq_ok_of_toOption hdebt)
  exact ⟨reply, hreply⟩

/-- The first document has no field, the second one has a pay frequency, and the confidence in
both of them is the same. -/
theorem missing_frequency_scored :
    presentFields .ascii "EMPLOYER: Riverside Retail Co." ⊂
      presentFields .ascii "PAY_FREQUENCY: monthly" ∧
    ∃ reply₁ reply₂,
      mockDocumentExtraction .ascii "EMPLOYER: Riverside Retail Co." = .ok reply₁ ∧
      mockDocumentExtraction .ascii "PAY_FREQUENCY: monthly" = .ok reply₂ ∧
      reportedConfidence reply₁ = some 0.65 ∧ reportedConfidence reply₂ = some 0.65 := by
  obtain ⟨reply₁, h₁⟩ := @exists_reply "EMPLOYER: Riverside Retail Co." (by decide)
    (by decide) (by decide)
  obtain ⟨reply₂, h₂⟩ := @exists_reply "PAY_FREQUENCY: monthly" (by decide)
    (by decide) (by decide)
  refine ⟨by decide, reply₁, reply₂, h₁, h₂, ?_, ?_⟩
  · rw [reportedConfidence_eq h₁]
    decide +kernel
  · rw [reportedConfidence_eq h₂]
    decide +kernel

theorem confidence_lt_weekly :
    ∃ reply₁ reply₂,
      mockDocumentExtraction .ascii "PAY_FREQUENCY: weekly" = .ok reply₁ ∧
      mockDocumentExtraction .ascii "PAY_FREQUENCY: weekly\nNET_PAY_PER_PERIOD: 900" =
        .ok reply₂ ∧
      ∃ c₁ c₂, reportedConfidence reply₁ = some c₁ ∧ reportedConfidence reply₂ = some c₂ ∧
        (c₁ < c₂ ↔ ¬ (Defaulted "PAY_FREQUENCY: weekly" ∧
          ¬ Defaulted "PAY_FREQUENCY: weekly\nNET_PAY_PER_PERIOD: 900" ∧
          (presentFields .ascii "PAY_FREQUENCY: weekly\nNET_PAY_PER_PERIOD: 900").card =
            (presentFields .ascii "PAY_FREQUENCY: weekly").card + 1)) := by
  obtain ⟨reply₁, h₁⟩ := @exists_reply "PAY_FREQUENCY: weekly" (by decide)
    (by decide) (by decide)
  obtain ⟨reply₂, h₂⟩ := @exists_reply "PAY_FREQUENCY: weekly\nNET_PAY_PER_PERIOD: 900"
    (by decide) (by decide) (by decide)
  exact ⟨reply₁, reply₂, h₁, h₂,
    confidence_lt_iff .ascii _ _ reply₁ reply₂ h₁ h₂ (by decide)⟩

end Underwriting
