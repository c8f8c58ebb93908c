import Underwriting.Service.Explanation

/-!
# The factors that a rationale names

A rationale is meant to name the permitted factors only. The mock model prints the list of
the permitted factors, but does not consult it: the debt-to-income ratio, the credit band and
the risk tier are part of every text. So a factor that is not permitted shows in the text
whenever its value does, and two texts agree just when the values are printed alike. The risk
tier is never permitted by the policy, which has no factor of this name.
-/

namespace Underwriting

open Python

/-- The scoring factors that a payload holds. -/
inductive ScoringFactor where
  | debtToIncomeRatio | creditBand | riskTier

namespace ScoringFactor

def key : ScoringFactor → String
  | debtToIncomeRatio => "debt_to_income_ratio"
  | creditBand => "credit_band"
  | riskTier => "risk_tier"

end ScoringFactor

/-- The ratio of a payload. -/
def ratioOf (data : List (String × Json)) : Option ℚ :=
  (Json.lookup data "debt_to_income_ratio").bind Json.asFloat

/-- The factor has the same value in both payloads, a ratio as far as `percent` prints it. -/
def ScoringFactor.SameValue (percent : ℚ → String) (data₁ data₂ : List (String × Json)) :
    ScoringFactor → Prop
  | debtToIncomeRatio => ∃ q ∈ ratioOf data₁, ∃ r ∈ ratioOf data₂, percent q = percent r
  | creditBand => Json.lookup data₁ "credit_band" = Json.lookup data₂ "credit_band"
  | riskTier => Json.lookup data₁ "risk_tier" = Json.lookup data₂ "risk_tier"

/-- The payloads have the same value under every other key. -/
def DifferOnlyIn (key : String) (data₁ data₂ : List (String × Json)) : Prop :=
  ∀ k, k ≠ key → Json.lookup data₁ k = Json.lookup data₂ k

/-- `permitted_factors_used` of a payload. -/
def permittedIn (data : List (String × Json)) : List String :=
  ((Json.lookup data "permitted_factors_used").bind (Json.asList Json.asStr)).getD []

/-! ## The parts of the text -/

/-- The text up to the ratio. -/
def untilRatio (data : Json) : String :=
  let approvedAmount := (data.get? "approved_amount").bind Json.asFloat
  let amountClause := approvedAmount.elim "" fun q => s!" for ${formatFixed q 0 true}"
  let verdict := if (data.get? "decision_outcome").bind Json.asStr = some "approved" then
      s!"This application was APPROVED{amountClause}."
    else "This application was DENIED."
  verdict ++ " The decision was driven by a debt-to-income ratio of "

/-- The sentence on the drivers after the tier. -/
def afterTier (requested permittedList : String) : String :=
  s!"' overall risk tier, and a requested amount of ${requested}, all of which fall within the " ++
    s!"permitted factor set ({permittedList})."

/-- The text after the tier. -/
def fromTier (data : Json) : String :=
  let requested := ((data.get? "requested_amount").bind Json.asFloat).getD 0
  let permitted := ((data.get? "permitted_factors_used").bind (Json.asList Json.asStr)).getD []
  let flags := ((data.get? "policy_flags").bind (Json.asList some)).getD []
  let blocking := flags.filter fun f =>
    ((f.get? "severity").bind Json.asStr).any fun s => s == "warn" || s == "block"
  let flagList := "; ".intercalate (blocking.map flagText)
  let review := if blocking = [] then [] else
    [s!"Policy review noted the following: {flagList}."]
  let escalation := (data.get? "escalation").getD .null
  let reviewer := if escalation.truthy then [escalationSentence escalation] else []
  " ".intercalate
    (afterTier (formatFixed requested 0 true) (", ".intercalate permitted) :: (review ++ reviewer))

/-- A text with its three factors. -/
def assembled (data : Json) (ratio band tier : String) : String :=
  untilRatio data ++ (ratio ++ (", a '" ++ (band ++ ("' credit band, a '" ++
    (tier ++ fromTier data)))))

theorem item_eq_ok_iff {α : Type} {data : Json} {key : String} {dec : Json → Option α} {v : α} :
    item data key dec = .ok v ↔ (data.get? key).bind dec = some v := by
  rw [item]
  cases (data.get? key).bind dec <;> simp

/-- The sentence on the drivers. -/
def driversOf (percent band tier requested permittedList : String) : String :=
  let factorSummary :=
    s!"a debt-to-income ratio of {percent}, a '{band}' credit band, " ++
      s!"a '{tier}' overall risk tier, and a requested amount of " ++ s!"${requested}"
  s!"The decision was driven by {factorSummary}, all of which fall within the " ++
    s!"permitted factor set ({permittedList})."

theorem driversOf_eq (percent band tier requested permittedList : String) :
    driversOf percent band tier requested permittedList =
      "The decision was driven by a debt-to-income ratio of " ++ (percent ++ (", a '" ++ (band ++
        ("' credit band, a '" ++ (tier ++ afterTier requested permittedList))))) := by
  apply String.toList_injective
  delta driversOf afterTier
  simp [toString]

/-- The text is cut after the tier; more sentences may follow. -/
theorem intercalate_drivers (verdict percent band tier requested permittedList : String)
    (rest : List String) :
    " ".intercalate (verdict :: driversOf percent band tier requested permittedList :: rest) =
      verdict ++ " The decision was driven by a debt-to-income ratio of " ++ (percent ++ (", a '" ++
        (band ++ ("' credit band, a '" ++ (tier ++
          " ".intercalate (afterTier requested permittedList :: rest)))))) := by
  rw [String.intercalate_cons_cons, driversOf_eq]
  simp only [String.intercalate_cons_append]
  apply String.toList_injective
  simp

theorem text_eq_assembled {percent : ℚ → String} {data : Json} {c : Content}
    (h : mockExplainabilityRationaleWith percent (some data) = .ok c) :
    ∃ dti band tier, (data.get? "debt_to_income_ratio").bind Json.asFloat = some dti ∧
      (data.get? "credit_band").bind Json.asStr = some band ∧
      (data.get? "risk_tier").bind Json.asStr = some tier ∧
      c.text = assembled data (percent dti) band tier := by
  rw [mockExplainabilityRationaleWith, Option.elim_some, ok_bind, bind_eq_ok_iff] at h
  obtain ⟨outcome, houtcome, h⟩ := h
  obtain ⟨dti, hdti, h⟩ := bind_eq_ok_iff.1 h
  obtain ⟨tier, htier, h⟩ := bind_eq_ok_iff.1 h
  obtain ⟨band, hband, h⟩ := bind_eq_ok_iff.1 h
  obtain ⟨requested, hrequested, h⟩ := bind_eq_ok_iff.1 h
  rw [item_eq_ok_iff] at houtcome hdti htier hband hrequested
  refine ⟨dti, band, tier, hdti, hband, htier, ?_⟩
  rw [← Except.ok.inj h]
  delta assembled untilRatio fromTier
  simp only [houtcome, hrequested, Option.getD_some, Option.some.injEq]
  by_cases happroved : outcome = "approved"
  · simp only [if_pos happroved, List.cons_append, List.nil_append]
    exact intercalate_drivers _ _ _ _ _ _ _
  · simp only [if_neg happroved, List.cons_append, List.nil_append]
    exact intercalate_drivers _ _ _ _ _ _ _

/-! ## Two payloads -/

section Payloads

variable {percent : ℚ → String} {factor : ScoringFactor} {data₁ data₂ : List (String × Json)}

theorem DifferOnlyIn.get?_eq (h : DifferOnlyIn factor.key data₁ data₂) {k : String}
    (hk : k ∉ ["debt_to_income_ratio", "credit_band", "risk_tier"]) :
    (Json.obj data₁).get? k = (Json.obj data₂).get? k := by
  apply h
  rintro rfl
  apply hk
  cases factor <;> simp [ScoringFactor.key]

theorem DifferOnlyIn.untilRatio_eq (h : DifferOnlyIn factor.key data₁ data₂) :
    untilRatio (.obj data₁) = untilRatio (.obj data₂) := by
  rw [untilRatio, h.get?_eq (k := "approved_amount") (by decide),
    h.get?_eq (k := "decision_outcome") (by decide), untilRatio]

theorem DifferOnlyIn.fromTier_eq (h : DifferOnlyIn factor.key data₁ data₂) :
    fromTier (.obj data₁) = fromTier (.obj data₂) := by
  rw [fromTier, h.get?_eq (k := "requested_amount") (by decide),
    h.get?_eq (k := "permitted_factors_used") (by decide),
    h.get?_eq (k := "policy_flags") (by decide), h.get?_eq (k := "escalation") (by decide),
    fromTier]

theorem bind_asStr_eq_some_iff {value : Option Json} {s : String} :
    value.bind Json.asStr = some s ↔ value = some (.str s) := by
  cases value with
  | none => simp
  | some j => cases j <;> simp [Json.asStr]

/-- The texts agree just when the values are printed alike. -/
theorem text_eq_iff {c₁ c₂ : Content} (h : DifferOnlyIn factor.key data₁ data₂)
    (h₁ : mockExplainabilityRationaleWith percent (some (.obj data₁)) = .ok c₁)
    (h₂ : mockExplainabilityRationaleWith percent (some (.obj data₂)) = .ok c₂) :
    c₁.text = c₂.text ↔ factor.SameValue percent data₁ data₂ := by
  obtain ⟨q₁, band₁, tier₁, hq₁, hband₁, htier₁, htext₁⟩ := text_eq_assembled h₁
  obtain ⟨q₂, band₂, tier₂, hq₂, hband₂, htier₂, htext₂⟩ := text_eq_assembled h₂
  rw [Json.get?] at hq₁ hq₂ hband₁ hband₂ htier₁ htier₂
  rw [htext₁, htext₂, assembled, assembled, h.untilRatio_eq, h.fromTier_eq]
  cases factor with
  | debtToIncomeRatio =>
      have hband : some band₁ = some band₂ := by
        rw [← hband₁, ← hband₂, h "credit_band" (by decide)]
      have htier : some tier₁ = some tier₂ := by
        rw [← htier₁, ← htier₂, h "risk_tier" (by decide)]
      rw [Option.some.inj hband, Option.some.inj htier]
      simp [ScoringFactor.SameValue, ratioOf, hq₁, hq₂]
  | creditBand =>
      have hq : some q₁ = some q₂ := by
        rw [← hq₁, ← hq₂, h "debt_to_income_ratio" (by decide)]
      have htier : some tier₁ = some tier₂ := by
        rw [← htier₁, ← htier₂, h "risk_tier" (by decide)]
      rw [bind_asStr_eq_some_iff] at hband₁ hband₂
      rw [Option.some.inj hq, Option.some.inj htier, ScoringFactor.SameValue, hband₁, hband₂]
      simp
  | riskTier =>
      have hq : some q₁ = some q₂ := by
        rw [← hq₁, ← hq₂, h "debt_to_income_ratio" (by decide)]
      have hband : some band₁ = some band₂ := by
        rw [← hband₁, ← hband₂, h "credit_band" (by decide)]
      rw [bind_asStr_eq_some_iff] at htier₁ htier₂
      rw [Option.some.inj hq, Option.some.inj hband, ScoringFactor.SameValue, htier₁, htier₂]
      simp

end Payloads

/-- Whatever the interpreter prints for a ratio, a text depends on a factor that is not permitted
as far as its value is printed. -/
theorem names_permitted_only_iff (percent : ℚ → String) (factor : ScoringFactor)
    (data₁ data₂ : List (String × Json)) (c₁ c₂ : Content)
    (hdiffer : DifferOnlyIn factor.key data₁ data₂)
    (h₁ : mockExplainabilityRationaleWith percent (some (.obj data₁)) = .ok c₁)
    (h₂ : mockExplainabilityRationaleWith percent (some (.obj data₂)) = .ok c₂) :
    (factor.key ∉ permittedIn data₁ → c₁.text = c₂.text) ↔
      factor.key ∈ permittedIn data₁ ∨ factor.SameValue percent data₁ data₂ := by
  rw [text_eq_iff hdiffer h₁ h₂, ← or_iff_not_imp_left]

/-- Replacing the value of one entry leaves the other ones. -/
theorem differOnlyIn_replace (before after : List (String × Json)) (key : String)
    (value value' : Json) :
    DifferOnlyIn key (before ++ (key, value) :: after) (before ++ (key, value') :: after) := by
  intro k hk
  induction before with
  | nil => rw [List.nil_append, List.nil_append, Json.lookup, Json.lookup, if_neg hk.symm,
      if_neg hk.symm]
  | cons entry before ih =>
      rw [List.cons_append, List.cons_append, Json.lookup, Json.lookup, ih]

/-- What the explainability node asks for an approved loan of a tier. -/
def tierPayload (tier : RiskTier) : List (String × Json) :=
  [("decision_outcome", .str "approved"),
    ("debt_to_income_ratio", .float 0.4)] ++
  ("risk_tier", .str tier.value) ::
  [("credit_band", .str "good"),
    ("requested_amount", .float 25000),
    ("approved_amount", .float 25000),
    ("permitted_factors_used", .ofStrings permittedFactors),
    ("policy_flags", .arr []),
    ("escalation", .null)]

theorem tierPayload_differ (tier₁ tier₂ : RiskTier) :
    DifferOnlyIn ScoringFactor.riskTier.key (tierPayload tier₁) (tierPayload tier₂) :=
  differOnlyIn_replace _ _ _ _ _

theorem tierPayload_ok (tier : RiskTier) :
    ∃ c, mockExplainabilityRationale (some (.obj (tierPayload tier))) = .ok c := by
  have hok : (mockExplainabilityRationale (some (.obj (tierPayload tier)))).isOk = true := by
    cases tier <;> decide
  cases hreply : mockExplainabilityRationale (some (.obj (tierPayload tier))) with
  | ok c => exact ⟨c, rfl⟩
  | error e =>
      rw [hreply] at hok
      cases hok

theorem names_permitted_only_iff_tierPayload :
    ∃ c₁ c₂, mockExplainabilityRationale (some (.obj (tierPayload .low))) = .ok c₁ ∧
      mockExplainabilityRationale (some (.obj (tierPayload .medium))) = .ok c₂ ∧
      ((ScoringFactor.riskTier.key ∉ permittedIn (tierPayload .low) → c₁.text = c₂.text) ↔
        ScoringFactor.riskTier.key ∈ permittedIn (tierPayload .low) ∨
          ScoringFactor.riskTier.SameValue (formatPercent · 1) (tierPayload .low)
            (tierPayload .medium)) := by
  obtain ⟨c₁, h₁⟩ := tierPayload_ok .low
  obtain ⟨c₂, h₂⟩ := tierPayload_ok .medium
  exact ⟨c₁, c₂, h₁, h₂,
    names_permitted_only_iff (formatPercent · 1) .riskTier _ _ c₁ c₂ (tierPayload_differ _ _) h₁ h₂⟩

/-- The tier is not permitted, and the texts for two tiers differ. -/
theorem unpermitted_tier_named :
    DifferOnlyIn "risk_tier" (tierPayload .low) (tierPayload .medium) ∧
      permittedIn (tierPayload .low) = permittedFactors ∧ "risk_tier" ∉ permittedFactors ∧
      ∃ c₁ c₂, mockExplainabilityRationale (some (.obj (tierPayload .low))) = .ok c₁ ∧
        mockExplainabilityRationale (some (.obj (tierPayload .medium))) = .ok c₂ ∧
        c₁.text ≠ c₂.text := by
  obtain ⟨c₁, h₁⟩ := tierPayload_ok .low
  obtain ⟨c₂, h₂⟩ := tierPayload_ok .medium
  have htiers : ¬ ScoringFactor.riskTier.SameValue (formatPercent · 1) (tierPayload .low)
      (tierPayload .medium) := by
    simp [ScoringFactor.SameValue, tierPayload, Json.lookup, RiskTier.value]
  refine ⟨tierPayload_differ _ _, by decide, by decide, c₁, c₂, h₁, h₂, ?_⟩
  rw [Ne, text_eq_iff (tierPayload_differ _ _) h₁ h₂]
  exact htiers

end Underwriting
