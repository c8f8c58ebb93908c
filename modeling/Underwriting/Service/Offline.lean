import Underwriting.Service.Explanation

/-!
# The offline model

The mock model replies to a rationale prompt always, and to a document unless one of the
three money fields it looks for is there with a figure that consists of commas only:
`Readable`. The extraction it replies with is valid.
-/

namespace Underwriting

open Python Python.Regex

/-! ## Figures -/

/-- What the pattern captures: digits and commas, and digits after a point if there is one. -/
def IsFigure (u : Unicode) (figure : List Char) : Prop :=
  ∃ whole frac : List Char, figure = whole ++ frac ∧
    (∀ c ∈ whole, isDigit u c = true ∨ c = ',') ∧
    (frac = [] ∨ ∃ ds, frac = '.' :: ds ∧ ds ≠ [] ∧ ∀ c ∈ ds, isDigit u c = true)

theorem not_isDigit_comma (u : Unicode) : isDigit u ',' = false := by
  rw [isDigit, u.decimal_comma]
  rfl

theorem not_isDigit_point (u : Unicode) : isDigit u '.' = false := by
  rw [isDigit, u.decimal_point]
  rfl

theorem not_isDigit_newline (u : Unicode) : isDigit u '\n' = false := by
  rw [isDigit, u.decimal_ascii '\n' (by decide)]
  rfl

theorem isFigure_of_mem_run {u : Unicode} (prev : Option Char) (s : List Char) (m : Match)
    (h : m ∈ Regex.run (amountPattern u) prev s) : IsFigure u m.text := by
  obtain ⟨m₁, h₁, m₂, h₂, rfl⟩ := mem_run_seq.1 h
  refine ⟨m₁.text, m₂.text, rfl, fun c hc => ?_, ?_⟩
  · simpa using (mem_run_plus _ _ _ _ h₁).2 c hc
  · rcases mem_run_opt h₂ with h₂ | h₂
    · obtain ⟨m₃, h₃, m₄, h₄, rfl⟩ := mem_run_seq.1 h₂
      obtain ⟨hne, hds⟩ := mem_run_plus _ _ _ _ h₄
      refine .inr ⟨m₄.text, ?_, hne, hds⟩
      rw [Match.append, text_of_mem_run_char h₃, List.singleton_append]
    · exact .inl h₂

theorem isFigure_of_moneyFigure {u : Unicode} {text label : String} {figure : List Char}
    (h : moneyFigure u text label = some figure) : IsFigure u figure := by
  refine captures_of_search ?_ h
  exact captures_seq <| captures_seq <| captures_seq <| captures_seq <| captures_seq <|
    captures_seq <| captures_group isFigure_of_mem_run

theorem takeWhile_digits {u : Unicode} {ds : List Char} (rest : List Char)
    (hds : ∀ c ∈ ds, isDigit u c = true)
    (hrest : ∀ c ∈ rest.head?, isDigit u c = false) :
    (ds ++ rest).takeWhile (isDigit u) = ds ∧ (ds ++ rest).dropWhile (isDigit u) = rest := by
  rw [List.takeWhile_append_of_pos hds, List.dropWhile_append_of_pos hds]
  cases rest with
  | nil => simp
  | cons c rest => simp [hrest c rfl]

/-- Digits, and digits after a point if there is one, are the text of a number. -/
theorem parseFloat_digits {u : Unicode} {ds : List Char} (frac : List Char)
    (hds : ∀ c ∈ ds, isDigit u c = true)
    (hfrac : (frac = [] ∧ ds ≠ []) ∨
      ∃ es, frac = '.' :: es ∧ es ≠ [] ∧ ∀ c ∈ es, isDigit u c = true) :
    ∃ q, parseFloat u (ds ++ frac) = .ok q ∧ 0 ≤ q := by
  rcases hfrac with ⟨rfl, hne⟩ | ⟨es, rfl, hne, hes⟩
  · obtain ⟨htake, hdrop⟩ := takeWhile_digits [] hds (by simp)
    refine ⟨digitsValue u ds, ?_, by positivity⟩
    simp only [parseFloat, htake, hdrop, if_neg hne]
  · obtain ⟨htake, hdrop⟩ := takeWhile_digits ('.' :: es) hds (by simp [not_isDigit_point])
    refine ⟨digitsValue u ds + digitsValue u es / 10 ^ es.length, ?_, by positivity⟩
    have hall : es.all (isDigit u) = true ∧ (ds ≠ [] ∨ es ≠ []) :=
      ⟨List.all_eq_true.2 hes, .inr hne⟩
    simp only [parseFloat, htake, hdrop, if_pos hall]

/-- A figure that does not consist of commas only is converted. -/
theorem IsFigure.parseFloat {u : Unicode} {figure : List Char} (hfigure : IsFigure u figure)
    (h : ∃ c ∈ figure, c ≠ ',') :
    ∃ q, parseFloat u (figure.filter (· != ',')) = .ok q ∧ 0 ≤ q := by
  obtain ⟨whole, frac, rfl, hwhole, hfrac⟩ := hfigure
  have hds : ∀ c ∈ whole.filter (· != ','), isDigit u c = true := by
    intro c hc
    obtain ⟨hmem, hne⟩ := List.mem_filter.1 hc
    exact (hwhole c hmem).resolve_right (by simpa using hne)
  rcases hfrac with rfl | ⟨es, rfl, hne, hes⟩
  · rw [List.append_nil] at h ⊢
    obtain ⟨c, hc, hcomma⟩ := h
    have hmem : c ∈ whole.filter (· != ',') := List.mem_filter.2 ⟨hc, by simpa using hcomma⟩
    have hparse := parseFloat_digits [] hds (.inl ⟨rfl, List.ne_nil_of_mem hmem⟩)
    rwa [List.append_nil] at hparse
  · have hkeep : ('.' :: es).filter (· != ',') = '.' :: es := by
      rw [List.filter_eq_self]
      intro c hc
      rcases List.mem_cons.1 hc with rfl | hc
      · rfl
      · have hdigit := hes c hc
        have hne : c ≠ ',' := by
          rintro rfl
          rw [not_isDigit_comma] at hdigit
          cases hdigit
        simpa using hne
    rw [List.filter_append, hkeep]
    exact parseFloat_digits _ hds (.inr ⟨es, rfl, hne, hes⟩)

theorem toNat_of_isDigit {c : Char} (hc : c.isDigit = true) : 48 ≤ c.toNat ∧ c.toNat ≤ 57 := by
  simp only [Char.isDigit, Bool.and_eq_true, decide_eq_true_eq] at hc
  exact hc

theorem decimal_of_isDigit (u : Unicode) {c : Char} (hc : c.isDigit = true) :
    u.decimal c = some (c.toNat - 48) := by
  have hrange := toNat_of_isDigit hc
  rw [u.decimal_ascii c (by omega), if_pos hc]

theorem isDigit_of_isDigit (u : Unicode) {c : Char} (hc : c.isDigit = true) :
    isDigit u c = true := by
  rw [isDigit, decimal_of_isDigit u hc]
  rfl

theorem digitsValue_eq (u : Unicode) {ds : List Char} (hds : ∀ c ∈ ds, c.isDigit = true) :
    digitsValue u ds = Nat.ofDigitChars 10 ds 0 := by
  have hfold (n : ℕ) : ds.foldl (fun n c => 10 * n + (u.decimal c).getD 0) n =
      Nat.ofDigitChars 10 ds n := by
    induction ds generalizing n with
    | nil => rfl
    | cons c ds ih =>
        rw [List.forall_mem_cons] at hds
        rw [List.foldl_cons, Nat.ofDigitChars_cons, decimal_of_isDigit u hds.1, ih hds.2]
        rfl
  exact hfold 0

/-- A number with `n` decimals is read back from its text. -/
theorem parseFloat_formatFixed (u : Unicode) (k : ℕ) {n : ℕ} (hn : n ≠ 0) :
    parseFloat u (formatFixed (k / 10 ^ n) n false).toList = .ok (k / 10 ^ n) := by
  have hwhole : ∀ c ∈ Nat.toDigits 10 (k / 10 ^ n), c.isDigit = true := fun c hc =>
    Nat.isDigit_of_mem_toDigits (by omega) le_rfl hc
  have hfrac : ∀ c ∈ padDigits n (k % 10 ^ n), c.isDigit = true := fun c hc =>
    isDigit_of_mem_padDigits hc
  have hlength : (padDigits n (k % 10 ^ n)).length = n :=
    length_padDigits (Nat.pos_of_ne_zero hn) (Nat.mod_lt k (by positivity))
  obtain ⟨htake, hdrop⟩ := takeWhile_digits (u := u) ('.' :: padDigits n (k % 10 ^ n))
    (fun c hc => isDigit_of_isDigit u (hwhole c hc)) (by simp [not_isDigit_point])
  have hall : (padDigits n (k % 10 ^ n)).all (isDigit u) = true ∧
      (Nat.toDigits 10 (k / 10 ^ n) ≠ [] ∨ padDigits n (k % 10 ^ n) ≠ []) :=
    ⟨List.all_eq_true.2 fun c hc => isDigit_of_isDigit u (hfrac c hc), .inl Nat.toDigits_ne_nil⟩
  have hsplit : (k : ℚ) / 10 ^ n = (k / 10 ^ n : ℕ) + (k % 10 ^ n : ℕ) / 10 ^ n := by
    have hpow : (10 : ℚ) ^ n ≠ 0 := by positivity
    have hdivmod : (10 ^ n * (k / 10 ^ n) + k % 10 ^ n : ℕ) = k := Nat.div_add_mod k (10 ^ n)
    field_simp
    exact_mod_cast hdivmod.symm
  rw [toList_formatFixed k hn]
  simp only [parseFloat, htake, hdrop, if_pos hall]
  rw [digitsValue_eq u hwhole, digitsValue_eq u hfrac, Nat.ofDigitChars_ten_toDigits,
    ofDigitChars_padDigits, hlength, hsplit]

/-! ## Documents -/

/-- The labels of the figures that the mock model looks for. -/
def moneyLabels : List String :=
  ["GROSS_PAY_PER_PERIOD", "NET_PAY_PER_PERIOD", "EXISTING_MONTHLY_DEBT"]

/-- No money field of the text has a figure that consists of commas only. -/
def Readable (u : Unicode) (text : String) : Prop :=
  ∀ label ∈ moneyLabels, ∀ figure, moneyFigure u text label = some figure → ∃ c ∈ figure, c ≠ ','

theorem eq_ok_of_toOption {α : Type} {result : Except Exn α} {value : α}
    (h : result.toOption = some value) : result = .ok value := by
  cases result with
  | error e => cases h
  | ok a => exact congrArg _ (Option.some.inj h)

/-- A value is read exactly when there is a figure. -/
theorem isSome_parseMoneyField {u : Unicode} {text label : String} {value : Option ℚ}
    (h : parseMoneyField u text label = .ok value) :
    value.isSome = (moneyFigure u text label).isSome := by
  rw [parseMoneyField] at h
  cases hfigure : moneyFigure u text label with
  | none =>
      rw [hfigure] at h
      cases h
      rfl
  | some figure =>
      rw [hfigure] at h
      dsimp only at h
      cases hparse : parseFloat u (figure.filter (· != ',')) with
      | error e =>
          rw [hparse] at h
          cases h
      | ok q =>
          rw [hparse] at h
          cases h
          rfl

theorem parseMoneyField_of_readable {u : Unicode} {text label : String}
    (h : ∀ figure, moneyFigure u text label = some figure → ∃ c ∈ figure, c ≠ ',') :
    ∃ value, parseMoneyField u text label = .ok value ∧ 0 ≤ value.getD 0 := by
  rw [parseMoneyField]
  cases hfigure : moneyFigure u text label with
  | none => exact ⟨none, rfl, le_rfl⟩
  | some figure =>
      obtain ⟨q, hq, hnonneg⟩ := (isFigure_of_moneyFigure hfigure).parseFloat (h figure hfigure)
      refine ⟨some q, ?_, hnonneg⟩
      dsimp only
      rw [hq]
      rfl

theorem parseMoneyField_of_commas {u : Unicode} {text label : String} {figure : List Char}
    (hfigure : moneyFigure u text label = some figure) (h : ∀ c ∈ figure, c = ',') :
    ∃ e, parseMoneyField u text label = .error e := by
  have hempty : figure.filter (· != ',') = [] := by
    rw [List.filter_eq_nil_iff]
    intro c hc
    simp [h c hc]
  rw [parseMoneyField, hfigure]
  dsimp only
  rw [hempty]
  exact ⟨_, rfl⟩

/-- A figure that is found is not negative. -/
theorem parseMoneyField_nonneg {u : Unicode} {text label : String} {value : Option ℚ}
    (h : parseMoneyField u text label = .ok value) : 0 ≤ value.getD 0 := by
  by_cases hreadable : ∀ figure, moneyFigure u text label = some figure → ∃ c ∈ figure, c ≠ ','
  · obtain ⟨value', hvalue, hnonneg⟩ := parseMoneyField_of_readable hreadable
    obtain rfl := Except.ok.inj (hvalue.symm.trans h)
    exact hnonneg
  · simp only [not_forall, not_exists, not_and, not_not] at hreadable
    obtain ⟨figure, hfigure, hcommas⟩ := hreadable
    obtain ⟨e, he⟩ := parseMoneyField_of_commas hfigure hcommas
    cases he.symm.trans h

/-! ## Extractions -/

theorem lookup_multiplier_nonneg (frequency : String) :
    0 ≤ (payFrequencyMonthlyMultiplier.lookup frequency).getD 1 := by
  cases h : payFrequencyMonthlyMultiplier.lookup frequency with
  | none => norm_num
  | some q =>
      have hall : ∀ entry ∈ payFrequencyMonthlyMultiplier, 0 ≤ entry.2 := by
        simp only [payFrequencyMonthlyMultiplier, List.forall_mem_cons, List.not_mem_nil]
        norm_num
      obtain ⟨before, after, heq, -⟩ := List.lookup_eq_some_iff.1 h
      exact hall (frequency, q) (by simp [heq])

/-- Fields in their ranges are the dump of an extraction. -/
theorem exists_modelDump {gross net debt confidence : ℚ} (employer : Option String)
    (frequency : String) (excerpts : List String) (hgross : 0 ≤ gross) (hnet : 0 ≤ net)
    (hdebt : 0 ≤ debt) (hconfidence : 0 ≤ confidence ∧ confidence ≤ 1) :
    ∃ x : ExtractedFinancials, Json.obj [
      ("monthly_gross_income", .float gross),
      ("monthly_net_income", .float net),
      ("existing_monthly_debt_payments", .float debt),
      ("employer_name", .ofOption .str employer),
      ("pay_frequency", .str frequency),
      ("extraction_confidence", .float confidence),
      ("source_excerpts", .ofStrings excerpts)] = x.modelDump :=
  ⟨⟨gross, net, debt, employer, some frequency, confidence, excerpts, hgross, hnet, hdebt,
    hconfidence⟩, rfl⟩

theorem confidence_range {fieldsFound : ℚ} (h : 0 ≤ fieldsFound) :
    0 ≤ min (roundTo (0.55 + 0.4 * (fieldsFound / 4)) 2) 0.99 ∧
      min (roundTo (0.55 + 0.4 * (fieldsFound / 4)) 2) 0.99 ≤ 1 := by
  constructor
  · exact le_min (roundTo_nonneg 2 (by positivity)) (by norm_num)
  · exact (min_le_right _ _).trans (by norm_num)

/-- The fields of an extraction that the mock model has replied with. -/
structure ExtractedFrom (u : Unicode) (text : String) (gross net debt : Option ℚ)
    (x : ExtractedFinancials) : Prop where
  confidence : x.extractionConfidence = min (roundTo (0.55 + 0.4 *
    (((if (payFrequencyMonthlyMultiplier.lookup (payFrequencyOf u text)).isSome then 1 else 0) +
      (if gross.isSome then 1 else 0) + (if net.isSome then 1 else 0) +
        (if debt.isSome then 1 else 0)) / 4)) 2) 0.99
  gross : x.monthlyGrossIncome =
    roundTo (gross.getD 0 * (payFrequencyMonthlyMultiplier.lookup (payFrequencyOf u text)).getD 1) 2
  net : x.monthlyNetIncome =
    roundTo (net.getD 0 * (payFrequencyMonthlyMultiplier.lookup (payFrequencyOf u text)).getD 1) 2
  debt : x.existingMonthlyDebtPayments = debt.getD 0
  employer : x.employerName = parseTextField text "EMPLOYER"
  frequency : x.payFrequency = some (payFrequencyOf u text)

theorem extractedFrom_of_modelDump {u : Unicode} {text : String} {gross net debt : Option ℚ}
    {x : ExtractedFinancials}
    (h : extractionPayload monthlyAmount u text gross net debt = x.modelDump) :
    ExtractedFrom u text gross net debt x := by
  have hemployer {o o' : Option String} (h : Json.ofOption .str o = Json.ofOption .str o') :
      o = o' := by
    cases o <;> cases o' <;> simp_all [Json.ofOption]
  have hfrequency {s : String} {o : Option String} (h : Json.str s = Json.ofOption .str o) :
      o = some s := by
    cases o <;> simp_all [Json.ofOption]
  simp only [extractionPayload, monthlyAmount, ExtractedFinancials.modelDump, Json.obj.injEq,
    List.cons.injEq, Prod.mk.injEq, Json.float.injEq, true_and, and_true] at h
  obtain ⟨hgross, hnet, hdebt, hemp, hfreq, hconfidence, -⟩ := h
  exact ⟨hconfidence.symm, hgross.symm, hnet.symm, hdebt.symm, (hemployer hemp).symm,
    hfrequency hfreq⟩

/-- What the mock model replies once it has read the three figures. -/
theorem exists_extraction {u : Unicode} {text : String} {gross net debt : Option ℚ}
    (hgross : parseMoneyField u text "GROSS_PAY_PER_PERIOD" = .ok gross)
    (hnet : parseMoneyField u text "NET_PAY_PER_PERIOD" = .ok net)
    (hdebt : parseMoneyField u text "EXISTING_MONTHLY_DEBT" = .ok debt) :
    ∃ reply x, mockDocumentExtraction u text = .ok reply ∧ validateExtraction reply = .ok x ∧
      ExtractedFrom u text gross net debt x := by
  have hmultiplier := lookup_multiplier_nonneg (payFrequencyOf u text)
  have hdump :
      ∃ x : ExtractedFinancials,
        extractionPayload monthlyAmount u text gross net debt = x.modelDump := by
    simp only [extractionPayload]
    exact exists_modelDump _ _ _
      (roundTo_nonneg 2 (mul_nonneg (parseMoneyField_nonneg hgross) hmultiplier))
      (roundTo_nonneg 2 (mul_nonneg (parseMoneyField_nonneg hnet) hmultiplier))
      (parseMoneyField_nonneg hdebt) (confidence_range (by positivity))
  obtain ⟨x, hx⟩ := hdump
  refine ⟨.ofJson (extractionPayload monthlyAmount u text gross net debt), x, ?_, ?_,
    extractedFrom_of_modelDump hx⟩
  · rw [mockDocumentExtraction, mockDocumentExtractionWith, hgross, hnet, hdebt]
    rfl
  · rw [hx]
    exact ExtractedFinancials.modelValidate_modelDump x

theorem mockDocumentExtraction_of_readable {u : Unicode} {text : String} (h : Readable u text) :
    ∃ reply x, mockDocumentExtraction u text = .ok reply ∧ validateExtraction reply = .ok x := by
  have hfield (label : String) (hlabel : label ∈ moneyLabels) :=
    parseMoneyField_of_readable (h label hlabel)
  obtain ⟨gross, hgross, -⟩ := hfield "GROSS_PAY_PER_PERIOD" (by simp [moneyLabels])
  obtain ⟨net, hnet, -⟩ := hfield "NET_PAY_PER_PERIOD" (by simp [moneyLabels])
  obtain ⟨debt, hdebt, -⟩ := hfield "EXISTING_MONTHLY_DEBT" (by simp [moneyLabels])
  obtain ⟨reply, x, hreply, hx, -⟩ := exists_extraction hgross hnet hdebt
  exact ⟨reply, x, hreply, hx⟩

theorem mockDocumentExtraction_of_not_readable {u : Unicode} {text : String}
    (h : ¬ Readable u text) : ∃ e, mockDocumentExtraction u text = .error e := by
  simp only [Readable, not_forall, not_exists, not_and, not_not] at h
  obtain ⟨label, hlabel, figure, hfigure, hcommas⟩ := h
  obtain ⟨e, he⟩ := parseMoneyField_of_commas hfigure hcommas
  rw [mockDocumentExtraction, mockDocumentExtractionWith]
  rcases hgross : parseMoneyField u text "GROSS_PAY_PER_PERIOD" with e₁ | gross
  · exact ⟨e₁, rfl⟩
  rcases hnet : parseMoneyField u text "NET_PAY_PER_PERIOD" with e₂ | net
  · exact ⟨e₂, rfl⟩
  rcases hdebt : parseMoneyField u text "EXISTING_MONTHLY_DEBT" with e₃ | debt
  · exact ⟨e₃, rfl⟩
  -- One of the three figures cannot be converted.
  simp only [moneyLabels, List.mem_cons, List.not_mem_nil, or_false] at hlabel
  rcases hlabel with rfl | rfl | rfl
  · cases hgross.symm.trans he
  · cases hnet.symm.trans he
  · cases hdebt.symm.trans he

/-- What the mock model has read when it replies. -/
theorem exists_fields {monthly : ℚ → ℚ → ℚ} {u : Unicode} {text : String} {reply : Content}
    (h : mockDocumentExtractionWith monthly u text = .ok reply) :
    ∃ gross net debt, parseMoneyField u text "GROSS_PAY_PER_PERIOD" = .ok gross ∧
      parseMoneyField u text "NET_PAY_PER_PERIOD" = .ok net ∧
      parseMoneyField u text "EXISTING_MONTHLY_DEBT" = .ok debt ∧
      reply = .ofJson (extractionPayload monthly u text gross net debt) := by
  rcases hgross : parseMoneyField u text "GROSS_PAY_PER_PERIOD" with e | gross
  · rw [mockDocumentExtractionWith, hgross] at h
    cases h
  rcases hnet : parseMoneyField u text "NET_PAY_PER_PERIOD" with e | net
  · rw [mockDocumentExtractionWith, hgross, hnet] at h
    cases h
  rcases hdebt : parseMoneyField u text "EXISTING_MONTHLY_DEBT" with e | debt
  · rw [mockDocumentExtractionWith, hgross, hnet, hdebt] at h
    cases h
  rw [mockDocumentExtractionWith, hgross, hnet, hdebt] at h
  exact ⟨gross, net, debt, rfl, rfl, rfl, (Except.ok.inj h).symm⟩

theorem mockDocumentExtraction_cases {u : Unicode} {text : String} {reply : Content}
    {x : ExtractedFinancials} (hreply : mockDocumentExtraction u text = .ok reply)
    (hx : validateExtraction reply = .ok x) :
    ∃ gross net debt, parseMoneyField u text "GROSS_PAY_PER_PERIOD" = .ok gross ∧
      parseMoneyField u text "NET_PAY_PER_PERIOD" = .ok net ∧
      parseMoneyField u text "EXISTING_MONTHLY_DEBT" = .ok debt ∧
      ExtractedFrom u text gross net debt x := by
  obtain ⟨gross, net, debt, hgross, hnet, hdebt, -⟩ := exists_fields hreply
  obtain ⟨reply', x', hreply', hx', hfrom⟩ := exists_extraction hgross hnet hdebt
  obtain rfl := Except.ok.inj (hreply'.symm.trans hreply)
  obtain rfl := Except.ok.inj (hx'.symm.trans hx)
  exact ⟨gross, net, debt, hgross, hnet, hdebt, hfrom⟩

/-! ## Dispatch -/

theorem contains_extraction :
    contains extractionTaskMarker.toList extractionSystemPrompt.toList = true := by
  simp only [extractionSystemPrompt, String.toList_append, List.append_assoc]
  exact contains_append _ _

theorem contains_rationale :
    contains rationaleTaskMarker.toList rationaleSystemPrompt.toList = true := by
  simp only [rationaleSystemPrompt, String.toList_append, List.append_assoc]
  exact contains_append _ _

theorem not_contains_rationale :
    contains extractionTaskMarker.toList rationaleSystemPrompt.toList = false := by
  refine not_contains_of_not_mem (c := 'U') (by decide) ?_
  simp only [rationaleSystemPrompt, rationaleTaskMarker, String.toList_append, List.mem_append,
    not_or]
  refine ⟨⟨⟨⟨?_, ?_⟩, ?_⟩, ?_⟩, ?_⟩ <;> simp

theorem systemContent_of_ne_empty {text : String} (h : text ≠ "") (content : Content) :
    systemContent [.system text, .human content] = text := by
  simp [systemContent, h]

/-- A text that contains a marker is not empty. -/
theorem ne_empty_of_contains {marker text : String} (hmarker : contains marker.toList [] = false)
    (h : contains marker.toList text.toList = true) : text ≠ "" := by
  rintro rfl
  rw [String.toList_empty, hmarker] at h
  cases h

theorem mockChat_extraction (u : Unicode) (text : String) :
    mockChat u (extractionMessages text) = mockDocumentExtraction u text := by
  have hsystem : systemContent (extractionMessages text) = extractionSystemPrompt :=
    systemContent_of_ne_empty (ne_empty_of_contains (by decide) contains_extraction) _
  have hhuman : humanContent (extractionMessages text) = ⟨text, none⟩ := rfl
  rw [mockChat, hsystem, if_pos contains_extraction, hhuman]

theorem mockChat_rationale (u : Unicode) (payload : Json) :
    mockChat u (rationaleMessages payload) = mockExplainabilityRationale (some payload) := by
  have hsystem : systemContent (rationaleMessages payload) = rationaleSystemPrompt :=
    systemContent_of_ne_empty (ne_empty_of_contains (by decide) contains_rationale) _
  have hhuman : humanContent (rationaleMessages payload) = .ofJson payload := rfl
  rw [mockChat, hsystem, if_neg (by simp [not_contains_rationale]), if_pos contains_rationale,
    hhuman]
  rfl

/-! ## The environment -/

theorem isControl_of_parseFloat {u : Unicode} {s : List Char} {e : Exn}
    (h : parseFloat u s = .error e) : e.isControl = false := by
  rw [parseFloat] at h
  split at h
  · split at h <;> cases h
    rfl
  · split at h <;> cases h
    rfl
  · cases h
    rfl

theorem isControl_of_parseMoneyField {u : Unicode} {text label : String} (e : Exn)
    (h : parseMoneyField u text label = .error e) : e.isControl = false := by
  rw [parseMoneyField] at h
  split at h
  · cases h
  · next figure _ =>
      cases hparse : parseFloat u (figure.filter (· != ',')) with
      | error e' =>
          rw [hparse] at h
          cases h
          exact isControl_of_parseFloat hparse
      | ok q =>
          rw [hparse] at h
          cases h

theorem isControl_of_item {α : Type} {data : Json} {key : String} {dec : Json → Option α} (e : Exn)
    (h : item data key dec = .error e) : e.isControl = false := by
  rw [item] at h
  cases hvalue : (data.get? key).bind dec with
  | none =>
      rw [hvalue] at h
      cases h
      rfl
  | some v =>
      rw [hvalue] at h
      cases h

theorem isControl_of_mockChat {u : Unicode} {messages : List Message} (e : Exn)
    (h : mockChat u messages = .error e) : e.isControl = false := by
  rw [mockChat] at h
  split at h
  · refine isControl_of_bind isControl_of_parseMoneyField (fun gross => ?_) e h
    refine isControl_of_bind isControl_of_parseMoneyField fun net => ?_
    refine isControl_of_bind isControl_of_parseMoneyField fun debt e h => ?_
    cases h
  split at h
  · refine isControl_of_bind (fun e he => ?_) (fun data => ?_) e h
    · cases hjson : (humanContent messages).json with
      | none =>
          rw [hjson] at he
          cases he
          rfl
      | some data =>
          rw [hjson] at he
          cases he
    · refine isControl_of_bind isControl_of_item fun outcome => ?_
      refine isControl_of_bind isControl_of_item fun dti => ?_
      refine isControl_of_bind isControl_of_item fun tier => ?_
      refine isControl_of_bind isControl_of_item fun band => ?_
      refine isControl_of_bind isControl_of_item fun requested e h => ?_
      cases h
  · cases h

/-- The environment with the mock model in place of its chat model. -/
def Env.offline (env : Env) : Env :=
  { env with
    chat := fun _ => mockChat env.unicode
    chat_raises := fun _ _ => isControl_of_mockChat }

theorem Env.chat_offline (env : Env) (n : ℕ) : env.offline.chat n = mockChat env.unicode := rfl

@[simp] theorem Env.unicode_offline (env : Env) : env.offline.unicode = env.unicode := rfl

end Underwriting
