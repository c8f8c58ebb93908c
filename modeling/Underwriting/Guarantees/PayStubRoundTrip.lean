import Underwriting.Infrastructure.LabelledFields
import Underwriting.Python.Spelling
import Underwriting.Service.Offline

/-!
# Pay stubs

The demo writes a pay stub as a header and five labelled lines. The offline model looks for each
label in the whole text and takes the first one with a value. No label occurs in the header, in
another label, in a pay frequency or in an amount, and no label reaches beyond its line, so the
first one is the right one as long as none occurs in the name of the employer. Its value is then
the whole line, and an amount with two decimals is read back from its text.
-/

namespace Underwriting

open Python Python.Regex

/-- `build_pay_stub_text`. -/
def buildPayStubText (employer payFrequency : String)
    (grossPayPerPeriod netPayPerPeriod existingMonthlyDebt : ℚ) : String :=
  "NORTHBRIDGE FINANCIAL GROUP - SYNTHETIC PAY STATEMENT (DEMO DATA ONLY)\n" ++
    s!"EMPLOYER: {employer}\n" ++
    s!"PAY_FREQUENCY: {payFrequency}\n" ++
    s!"GROSS_PAY_PER_PERIOD: ${formatFixed grossPayPerPeriod 2 false}\n" ++
    s!"NET_PAY_PER_PERIOD: ${formatFixed netPayPerPeriod 2 false}\n" ++
    s!"EXISTING_MONTHLY_DEBT: ${formatFixed existingMonthlyDebt 2 false}\n"

/-! ## Labelled lines -/

def labelledLine (label : String) (value : List Char) : List Char :=
  label.toList ++ ':' :: ' ' :: (value ++ ['\n'])

/-- The labels of a pay stub. -/
def payStubLabels : List String :=
  ["EMPLOYER", "PAY_FREQUENCY", "GROSS_PAY_PER_PERIOD", "NET_PAY_PER_PERIOD",
    "EXISTING_MONTHLY_DEBT"]

/-- None of the labels occurs in the text, in any letter case. -/
def LabelFree (s : List Char) : Prop :=
  ∀ label ∈ payStubLabels, search (word label) none s = none

section Line

variable {label : String} {before value tail : List Char}

theorem afterColon_labelledLine (label : String) (value tail : List Char) :
    afterColon label (labelledLine label value ++ tail) =
      some (' ' :: (value ++ '\n' :: tail)) := by
  have hline : labelledLine label value ++ tail =
      label.toList ++ (':' :: ' ' :: (value ++ '\n' :: tail)) := by
    simp [labelledLine]
  rw [hline, afterColon, dropWord_append]
  rfl

/-- Colons, blanks and line breaks do not occur in a label. -/
theorem label_breaks {c : Char} (hlabel : label ∈ payStubLabels)
    (hc : c = ':' ∨ c = ' ' ∨ c = '\n') :
    (label.toList.any fun p => sameIgnoringCase p c) = false := by
  have hbreaks : ∀ label ∈ payStubLabels, (label.toList.any fun p =>
      sameIgnoringCase p ':' || sameIgnoringCase p ' ' || sameIgnoringCase p '\n') = false := by
    decide
  have hnone := hbreaks label hlabel
  rw [List.any_eq_false] at hnone ⊢
  intro p hp
  have hp := hnone p hp
  simp only [Bool.or_eq_true, not_or] at hp
  rcases hc with rfl | rfl | rfl
  · exact hp.1.1
  · exact hp.1.2
  · exact hp.2

/-- A line with another label is passed over. -/
theorem skips_labelledLine (hlabel : label ∈ payStubLabels) {label' : String}
    (hlabel' : label' ∈ payStubLabels) (hne : label ≠ label') (hvalue : LabelFree value) :
    Skips label (labelledLine label' value) := by
  have hother : ∀ label ∈ payStubLabels, ∀ label' ∈ payStubLabels, label ≠ label' →
      search (word label) none label'.toList = none := by
    decide
  have hempty : ∀ label ∈ payStubLabels, search (word label) none [] = none := by
    decide
  have hcolon := skips_of_search (hother label hlabel label' hlabel' hne)
    (label_breaks hlabel (.inl rfl))
  have hblank := skips_of_search (hempty label hlabel) (label_breaks hlabel (.inr (.inl rfl)))
  have hend := skips_of_search (hvalue label hlabel) (label_breaks hlabel (.inr (.inr rfl)))
  simpa [labelledLine] using hcolon.append (hblank.append hend)

theorem parseTextField_of_line {text : String}
    (htext : text.toList = before ++ (labelledLine label value ++ tail))
    (hbefore : Skips label before) (hnonblank : value ≠ []) (hline : '\n' ∉ value)
    (htrimmed : strip value = value) : parseTextField text label = some (String.ofList value) := by
  have hdrop := dropWhile_of_strip_eq htrimmed
  obtain ⟨c, s, rfl⟩ := List.exists_cons_of_ne_nil hnonblank
  have hc : isSpace c = false := by
    have hc := List.dropWhile_eq_self_iff.1 hdrop (by simp)
    simpa using hc
  have hmem : c ∈ ' ' :: (c :: s ++ '\n' :: tail) := by simp
  obtain ⟨m, hm, hcaptured⟩ := takes_textValue ⟨c, hmem, hc⟩
  have hvalue : ((' ' :: (c :: s ++ '\n' :: tail)).dropWhile isSpace).takeWhile (· != '\n') =
      c :: s := by
    rw [List.dropWhile_cons_of_pos (by decide), List.cons_append,
      List.dropWhile_cons_of_neg (by simp [hc]), ← List.cons_append,
      List.takeWhile_append_of_pos]
    · simp
    · intro d hd
      have hne : d ≠ '\n' := fun h => hline (h ▸ hd)
      simpa using hne
  have hsearch := captured_search_of_skips lookFree_textValue hbefore
    (afterColon_labelledLine label (c :: s) tail) hm
  rw [parseTextField, textFieldPattern_eq, htext, hsearch, hcaptured, hvalue, Option.map_some,
    htrimmed]

/-! ### Amounts -/

theorem amountText_of_digits (u : Unicode) {whole frac : List Char} (tail : List Char)
    (hwhole : ∀ c ∈ whole, c.isDigit = true) (hfrac : ∀ c ∈ frac, c.isDigit = true)
    (hne : frac ≠ []) :
    amountText u (whole ++ '.' :: (frac ++ '\n' :: tail)) = whole ++ '.' :: frac := by
  have hpoint : isFigureChar u '.' = false := by simp [isFigureChar, not_isDigit_point]
  have hfigure : ∀ c ∈ whole, isFigureChar u c = true := by
    intro c hc
    simp [isFigureChar, isDigit_of_isDigit u (hwhole c hc)]
  obtain ⟨htake, -⟩ := takeWhile_digits ('\n' :: tail)
    (fun c hc => isDigit_of_isDigit u (hfrac c hc)) (by simp [not_isDigit_newline])
  rw [amountText, List.takeWhile_append_of_pos hfigure, List.dropWhile_append_of_pos hfigure]
  simp [hpoint, fractionText, htake, hne]

/-- An amount is written without white space, commas and letters. -/
theorem mem_formatFixed {k : ℕ} {c : Char} (hc : c ∈ (formatFixed (k / 10 ^ 2) 2 false).toList) :
    c.toNat = 46 ∨ 48 ≤ c.toNat ∧ c.toNat ≤ 57 := by
  rw [toList_formatFixed k (by omega), List.mem_append, List.mem_cons] at hc
  rcases hc with hc | rfl | hc
  · exact .inr (toNat_of_isDigit (Nat.isDigit_of_mem_toDigits (by omega) le_rfl hc))
  · exact .inl rfl
  · exact .inr (toNat_of_isDigit (isDigit_of_mem_padDigits hc))

/-- The figure of an amount is the text of the amount. -/
theorem amount_of_line (u : Unicode) (k : ℕ) (tail : List Char) :
    hasFigure u (' ' :: ('$' :: (formatFixed (k / 10 ^ 2) 2 false).toList ++ '\n' :: tail)) = true ∧
      amountText u (skipGap
        (' ' :: ('$' :: (formatFixed (k / 10 ^ 2) 2 false).toList ++ '\n' :: tail))) =
          (formatFixed (k / 10 ^ 2) 2 false).toList := by
  have hwhole : ∀ c ∈ Nat.toDigits 10 (k / 10 ^ 2), c.isDigit = true := fun c hc =>
    Nat.isDigit_of_mem_toDigits (by omega) le_rfl hc
  have hfrac : ∀ c ∈ padDigits 2 (k % 10 ^ 2), c.isDigit = true := fun c hc =>
    isDigit_of_mem_padDigits hc
  have hlength : (padDigits 2 (k % 10 ^ 2)).length = 2 :=
    length_padDigits (by omega) (Nat.mod_lt k (by positivity))
  have hamount := amountText_of_digits u tail hwhole hfrac (List.ne_nil_of_length_pos (by omega))
  rw [toList_formatFixed k (by omega)]
  obtain ⟨c, w, hcw⟩ := List.exists_cons_of_ne_nil (Nat.toDigits_ne_nil (n := k / 10 ^ 2) (b := 10))
  rw [hcw] at hwhole hamount ⊢
  have hc : c.isDigit = true := hwhole c List.mem_cons_self
  have hgap :
      skipGap (' ' :: ('$' :: (c :: w ++ '.' :: padDigits 2 (k % 10 ^ 2)) ++ '\n' :: tail)) =
        c :: w ++ '.' :: (padDigits 2 (k % 10 ^ 2) ++ '\n' :: tail) := by
    have hskip := @skipGap_eq (w ++ '.' :: (padDigits 2 (k % 10 ^ 2) ++ '\n' :: tail))
      [' '] ['$'] [] c (by simp [isSpace]) (.inr rfl) (by simp) ?_ ?_
    · simpa using hskip
    · have hrange := toNat_of_isDigit hc
      simp only [isSpace, List.mem_cons, List.not_mem_nil, or_false, decide_eq_false_iff_not]
      omega
    · rintro rfl
      cases hc
  rw [hasFigure, hgap]
  refine ⟨?_, hamount⟩
  simp [isFigureChar, isDigit_of_isDigit u hc]

theorem parseMoneyField_of_line (u : Unicode) {text : String} (k : ℕ)
    (htext : text.toList = before ++
      (labelledLine label ('$' :: (formatFixed (k / 10 ^ 2) 2 false).toList) ++ tail))
    (hbefore : Skips label before) : parseMoneyField u text label = .ok (some (k / 10 ^ 2)) := by
  obtain ⟨hfigure, hamount⟩ := amount_of_line u k tail
  obtain ⟨m, hm, hcaptured⟩ := takes_moneyValue hfigure
  have hsearch := captured_search_of_skips lookFree_moneyValue hbefore
    (afterColon_labelledLine label _ tail) hm
  have hkeep : (formatFixed (k / 10 ^ 2) 2 false).toList.filter (· != ',') =
      (formatFixed (k / 10 ^ 2) 2 false).toList := by
    rw [List.filter_eq_self]
    intro c hc
    have hne : c ≠ ',' := by
      rintro rfl
      have hrange := mem_formatFixed hc
      simp at hrange
    simpa using hne
  rw [parseMoneyField, moneyFigure, moneyFieldPattern_eq, htext, hsearch, hcaptured, hamount]
  dsimp only
  rw [hkeep, parseFloat_formatFixed u k (by omega)]
  rfl

end Line

/-! ## The whole stub -/

/-- The name is not blank, it is one line without white space around it, and it does not contain
a label. -/
structure PlainName (employer : String) : Prop where
  nonblank : strip employer.toList ≠ []
  oneLine : '\n' ∉ employer.toList
  trimmed : strip employer.toList = employer.toList
  labelFree : LabelFree employer.toList

/-- A number that is not negative, with two decimals. -/
def IsCents (q : ℚ) : Prop := ∃ k : ℕ, q = k / 10 ^ 2

theorem labelFree_amount (k : ℕ) :
    LabelFree ('$' :: (formatFixed (k / 10 ^ 2) 2 false).toList) := by
  have hmem : ∀ label ∈ payStubLabels, 'E' ∈ label.toList := by decide
  have hletter (c : Char) (hc : sameIgnoringCase 'E' c = true) : 65 ≤ c.toNat := by
    by_contra hsmall
    rw [not_le] at hsmall
    have hfold : caseFold c = 'e' := caseFold_eq (p := 'e') (by decide) (by decide) hc
    rw [caseFold, if_neg (by omega), if_neg (by omega), if_neg (by omega),
      toLower_of_not_capital (.inl hsmall)] at hfold
    rw [hfold] at hsmall
    simp at hsmall
  intro label hlabel
  rw [search_eq_none_iff]
  apply not_occurs_of_forall (meets_word (hmem label hlabel) hletter)
  intro c hc
  rcases List.mem_cons.1 hc with rfl | hc
  · decide
  · have hrange := mem_formatFixed hc
    omega

/-- A pay frequency of the table is a plain name as well, without capitals. -/
theorem plainName_frequency {frequency : String} {multiplier : ℚ}
    (h : payFrequencyMonthlyMultiplier.lookup frequency = some multiplier) :
    PlainName frequency ∧ ∀ u : Unicode, u.lower frequency = frequency := by
  have htable : ∀ entry ∈ payFrequencyMonthlyMultiplier, (strip entry.1.toList ≠ [] ∧
      '\n' ∉ entry.1.toList ∧ strip entry.1.toList = entry.1.toList ∧
      ∀ label ∈ payStubLabels, search (word label) none entry.1.toList = none) ∧
      isLower entry.1.toList = true := by
    decide
  obtain ⟨before, after, hsplit, -⟩ := List.lookup_eq_some_iff.1 h
  obtain ⟨⟨hnonblank, hline, htrimmed, hfree⟩, hlower⟩ :=
    htable (frequency, multiplier) (by simp [hsplit])
  refine ⟨⟨hnonblank, hline, htrimmed, hfree⟩, fun u => ?_⟩
  simp only [isLower, List.all_eq_true, Bool.and_eq_true, decide_eq_true_eq, beq_iff_eq] at hlower
  have hmap : frequency.toList.map Char.toLower = frequency.toList := by
    rw [List.map_congr_left fun c hc => (hlower c hc).2, List.map_id']
  rw [u.lower_ascii _ fun c hc => (hlower c hc).1, hmap, String.ofList_toList]

/-- The lines of a stub, after its header. -/
def payStubLines (employer frequency : String) (gross net debt : ℕ) : List (String × List Char) :=
  [("EMPLOYER", employer.toList), ("PAY_FREQUENCY", frequency.toList),
    ("GROSS_PAY_PER_PERIOD", '$' :: (formatFixed (gross / 10 ^ 2) 2 false).toList),
    ("NET_PAY_PER_PERIOD", '$' :: (formatFixed (net / 10 ^ 2) 2 false).toList),
    ("EXISTING_MONTHLY_DEBT", '$' :: (formatFixed (debt / 10 ^ 2) 2 false).toList)]

def payStubHeader : List Char :=
  "NORTHBRIDGE FINANCIAL GROUP - SYNTHETIC PAY STATEMENT (DEMO DATA ONLY)".toList ++ ['\n']

theorem toList_buildPayStubText (employer frequency : String) (gross net debt : ℕ) :
    (buildPayStubText employer frequency (gross / 10 ^ 2) (net / 10 ^ 2) (debt / 10 ^ 2)).toList =
      payStubHeader ++ (payStubLines employer frequency gross net debt).flatMap
        fun line => labelledLine line.1 line.2 := by
  -- The equation lemmas of these definitions would compare the texts character by character.
  delta buildPayStubText payStubLines payStubHeader labelledLine
  simp only [toString, String.toList_append, List.flatMap_cons, List.flatMap_nil]
  simp

section Stub

variable {employer frequency label : String} {multiplier : ℚ} {value : List Char}

theorem labelFree_payStubLines (hemployer : PlainName employer)
    (hfrequency : payFrequencyMonthlyMultiplier.lookup frequency = some multiplier)
    (gross net debt : ℕ) :
    ∀ line ∈ payStubLines employer frequency gross net debt, LabelFree line.2 := by
  intro line hline
  simp only [payStubLines, List.mem_cons, List.not_mem_nil, or_false] at hline
  rcases hline with rfl | rfl | rfl | rfl | rfl
  · exact hemployer.labelFree
  · exact (plainName_frequency hfrequency).1.labelFree
  · exact labelFree_amount gross
  · exact labelFree_amount net
  · exact labelFree_amount debt

theorem skips_lines (hlabel : label ∈ payStubLabels) {lines : List (String × List Char)}
    (h : ∀ line ∈ lines, line.1 ∈ payStubLabels ∧ label ≠ line.1 ∧ LabelFree line.2) :
    Skips label (lines.flatMap fun line => labelledLine line.1 line.2) := by
  induction lines with
  | nil => exact skips_nil label
  | cons line lines ih =>
      rw [List.forall_mem_cons] at h
      obtain ⟨⟨hline, hne, hvalue⟩, hlines⟩ := h
      rw [List.flatMap_cons]
      exact (skips_labelledLine hlabel hline hne hvalue).append (ih hlines)

theorem skips_header (hlabel : label ∈ payStubLabels) : Skips label payStubHeader := by
  have hheader : ∀ label ∈ payStubLabels, search (word label) none
      "NORTHBRIDGE FINANCIAL GROUP - SYNTHETIC PAY STATEMENT (DEMO DATA ONLY)".toList = none := by
    decide
  exact skips_of_search (hheader label hlabel) (label_breaks hlabel (.inr (.inr rfl)))

/-- Every line is the first one with its label. -/
theorem exists_before {gross net debt : ℕ} (hemployer : PlainName employer)
    (hfrequency : payFrequencyMonthlyMultiplier.lookup frequency = some multiplier)
    (hline : (label, value) ∈ payStubLines employer frequency gross net debt) :
    ∃ before tail, (buildPayStubText employer frequency (gross / 10 ^ 2) (net / 10 ^ 2)
      (debt / 10 ^ 2)).toList = before ++ (labelledLine label value ++ tail) ∧
        Skips label before := by
  have hlabels : (payStubLines employer frequency gross net debt).map Prod.fst = payStubLabels :=
    rfl
  have hfree := labelFree_payStubLines hemployer hfrequency gross net debt
  have hnodup : payStubLabels.Nodup := by decide
  obtain ⟨lines, lines', hsplit⟩ := List.append_of_mem hline
  have hlabel : label ∈ payStubLabels := hlabels ▸ List.mem_map_of_mem hline
  rw [← hlabels, hsplit, List.map_append, List.map_cons, List.nodup_append] at hnodup
  refine ⟨payStubHeader ++ lines.flatMap fun line => labelledLine line.1 line.2,
    lines'.flatMap fun line => labelledLine line.1 line.2, ?_, ?_⟩
  · rw [toList_buildPayStubText, hsplit]
    simp
  · apply (skips_header hlabel).append
    apply skips_lines hlabel
    intro line hmem
    have hmem' : line ∈ payStubLines employer frequency gross net debt :=
      hsplit ▸ List.mem_append_left _ hmem
    refine ⟨hlabels ▸ List.mem_map_of_mem hmem', ?_, hfree line hmem'⟩
    rintro rfl
    exact hnodup.2.2 _ (List.mem_map_of_mem hmem) _ List.mem_cons_self rfl

/-- A plain name is read back from its line. -/
theorem parseTextField_payStub {gross net debt : ℕ} {name : String} (hemployer : PlainName employer)
    (hfrequency : payFrequencyMonthlyMultiplier.lookup frequency = some multiplier)
    (hname : PlainName name)
    (hline : (label, name.toList) ∈ payStubLines employer frequency gross net debt) :
    parseTextField (buildPayStubText employer frequency (gross / 10 ^ 2) (net / 10 ^ 2)
      (debt / 10 ^ 2)) label = some name := by
  obtain ⟨before, tail, htext, hbefore⟩ := exists_before hemployer hfrequency hline
  have hne : name.toList ≠ [] := fun h => hname.nonblank (by rw [h]; rfl)
  rw [parseTextField_of_line htext hbefore hne hname.oneLine hname.trimmed, String.ofList_toList]

theorem parseMoneyField_payStub (u : Unicode) {gross net debt k : ℕ}
    (hemployer : PlainName employer)
    (hfrequency : payFrequencyMonthlyMultiplier.lookup frequency = some multiplier)
    (hline : (label, '$' :: (formatFixed (k / 10 ^ 2) 2 false).toList) ∈
      payStubLines employer frequency gross net debt) :
    parseMoneyField u (buildPayStubText employer frequency (gross / 10 ^ 2) (net / 10 ^ 2)
      (debt / 10 ^ 2)) label = .ok (some (k / 10 ^ 2)) := by
  obtain ⟨before, tail, htext, hbefore⟩ := exists_before hemployer hfrequency hline
  exact parseMoneyField_of_line u k htext hbefore

theorem payFrequencyOf_payStub (u : Unicode) (gross net debt : ℕ) (hemployer : PlainName employer)
    (hfrequency : payFrequencyMonthlyMultiplier.lookup frequency = some multiplier) :
    payFrequencyOf u (buildPayStubText employer frequency (gross / 10 ^ 2) (net / 10 ^ 2)
      (debt / 10 ^ 2)) = frequency := by
  obtain ⟨hname, hlower⟩ := plainName_frequency hfrequency
  have hfield : parseTextField (buildPayStubText employer frequency (gross / 10 ^ 2) (net / 10 ^ 2)
      (debt / 10 ^ 2)) "PAY_FREQUENCY" = some frequency :=
    parseTextField_payStub hemployer hfrequency hname (.tail _ (.head _))
  have hne : (frequency != "") = true := by
    simp only [bne_iff_ne, ne_eq]
    rintro rfl
    exact hname.nonblank rfl
  rw [payFrequencyOf, hfield, Option.filter_some, if_pos hne, Option.getD_some, hlower]

end Stub

theorem pay_stub_round_trip (u : Unicode) (employer frequency : String)
    (multiplier gross net debt : ℚ) (hemployer : PlainName employer)
    (hfrequency : payFrequencyMonthlyMultiplier.lookup frequency = some multiplier)
    (hgross : IsCents gross) (hnet : IsCents net) (hdebt : IsCents debt) :
    ∃ reply x, mockDocumentExtraction u (buildPayStubText employer frequency gross net debt) =
        .ok reply ∧ validateExtraction reply = .ok x ∧
      x.monthlyGrossIncome = roundTo (gross * multiplier) 2 ∧
      x.monthlyNetIncome = roundTo (net * multiplier) 2 ∧
      x.existingMonthlyDebtPayments = debt ∧ x.employerName = some employer ∧
      x.payFrequency = some frequency ∧ x.extractionConfidence = 0.95 := by
  obtain ⟨g, rfl⟩ := hgross
  obtain ⟨n, rfl⟩ := hnet
  obtain ⟨d, rfl⟩ := hdebt
  have hname : parseTextField (buildPayStubText employer frequency (g / 10 ^ 2) (n / 10 ^ 2)
      (d / 10 ^ 2)) "EMPLOYER" = some employer :=
    parseTextField_payStub hemployer hfrequency hemployer (.head _)
  obtain ⟨reply, x, hreply, hx, hfrom⟩ := exists_extraction
    (parseMoneyField_payStub u hemployer hfrequency (.tail _ (.tail _ (.head _))))
    (parseMoneyField_payStub u hemployer hfrequency (.tail _ (.tail _ (.tail _ (.head _)))))
    (parseMoneyField_payStub u hemployer hfrequency
      (.tail _ (.tail _ (.tail _ (.tail _ (.head _))))))
  have hpay := payFrequencyOf_payStub u g n d hemployer hfrequency
  have hconfidence := hfrom.confidence
  have hmonthlyGross := hfrom.gross
  have hmonthlyNet := hfrom.net
  have hreported := hfrom.frequency
  rw [hpay, hfrequency] at hconfidence hmonthlyGross hmonthlyNet
  rw [hpay] at hreported
  refine ⟨reply, x, hreply, hx, hmonthlyGross, hmonthlyNet, hfrom.debt,
    hfrom.employer.trans hname, hreported, hconfidence.trans ?_⟩
  simp only [Option.isSome_some, if_true]
  decide +kernel

/-- The stub of the demo. -/
theorem pay_stub_round_trip_biweekly :
    ∃ reply x, mockDocumentExtraction .ascii
        (buildPayStubText "Riverstone Logistics LLC" "biweekly" 2400 1850 400) = .ok reply ∧
      validateExtraction reply = .ok x ∧
      x.monthlyGrossIncome = 5200 ∧ x.monthlyNetIncome = 4008.33 ∧
      x.existingMonthlyDebtPayments = 400 ∧ x.employerName = some "Riverstone Logistics LLC" ∧
      x.payFrequency = some "biweekly" ∧ x.extractionConfidence = 0.95 := by
  have hname : PlainName "Riverstone Logistics LLC" := by
    constructor
    case nonblank => decide
    case oneLine => decide
    case trimmed => decide
    case labelFree =>
      unfold LabelFree
      decide
  have hgross : roundTo (2400 * (26 / 12)) 2 = 5200 := by decide +kernel
  have hnet : roundTo (1850 * (26 / 12)) 2 = 4008.33 := by decide +kernel
  have hstub := pay_stub_round_trip .ascii "Riverstone Logistics LLC" "biweekly" (26 / 12) 2400 1850
    400 hname (by decide +kernel) ⟨240000, by norm_num⟩ ⟨185000, by norm_num⟩ ⟨40000, by norm_num⟩
  rwa [hgross, hnet] at hstub

end Underwriting
