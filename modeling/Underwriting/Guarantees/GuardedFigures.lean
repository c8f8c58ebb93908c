import Underwriting.Infrastructure.FieldOverlaps
import Underwriting.Service.Offline

/-!
# The prompt guard and the figures

The guard is meant to take instructions out of a document and to leave its figures alone. The two
pay figures it does leave alone, whatever stands next to them. A debt figure is lost when its
label follows `disregard … abov`: the guard then replaces the first letter of the label as the last
one of `above`. So the figures that are read stay the same exactly when the first debt figure is not
lost, or the first one that is not lost is the same number.
-/

namespace Underwriting

open Python Python.Regex

/-! ## Reading a figure -/

/-- The number that a captured figure is read as. -/
def figureValue (u : Unicode) (figure : List Char) : Except Exn ℚ :=
  parseFloat u (figure.filter (· != ','))

/-- The figure that is found, or none. -/
def readFigure (u : Unicode) (figure : Option (List Char)) : Except Exn (Option ℚ) :=
  figure.elim (.ok none) fun figure => (figureValue u figure).map some

/-- The figures with the label, in the order of the text. -/
def moneyFigures (u : Unicode) (label : String) (s : List Char) : List (List Char) :=
  readings (moneyFieldPattern u label) s

theorem parseMoneyField_eq (u : Unicode) (text label : String) :
    parseMoneyField u text label = readFigure u (moneyFigures u label text.toList).head? := by
  have hcaptures : Captures (moneyFieldPattern u label) fun _ => True :=
    captures_seq <| captures_seq <| captures_seq <| captures_seq <| captures_seq <| captures_seq <|
      captures_group fun _ _ _ _ => trivial
  rw [parseMoneyField, moneyFigure,
    captured_search (lookFree_moneyFieldPattern u label) hcaptures none text.toList, moneyFigures]
  cases (readings (moneyFieldPattern u label) text.toList).head? <;> rfl

/-! ## What the guard overlaps -/

section Overlaps

variable {u : Unicode} {label : String} {r : Regex}

/-- The labels of the pay figures. -/
def payLabels : List String := ["GROSS_PAY_PER_PERIOD", "NET_PAY_PER_PERIOD"]

def debtLabel : String := "EXISTING_MONTHLY_DEBT"

theorem moneyLabels_eq : moneyLabels = payLabels ++ [debtLabel] := rfl

theorem debtLabel_mem : debtLabel ∈ moneyLabels := by
  simp [moneyLabels_eq]

theorem plainLabel_of_mem : ∀ label ∈ moneyLabels, PlainLabel label := by
  decide

theorem spares_payField (hdigits : PlainDigits u) (hlabel : label ∈ payLabels) :
    Spares disregardEarlier placeholder.toList (moneyFieldPattern u label) := by
  -- A label ends in the first letter of `disregard`, and no `i` can follow it.
  have hfree : ∀ label ∈ payLabels, startFree ['i'] disregardWords (labelWord label) = true ∧
      reachFree [] disregardWords (labelWord label) = true := by
    decide
  have hmoney : label ∈ moneyLabels := moneyLabels_eq ▸ List.mem_append_left _ hlabel
  exact (plainLabel_of_mem label hmoney).spares_of_spells hdigits spells_disregardEarlier rfl
    (isLower_head_of_mem _ (by simp)) (hfree label hlabel).1 (hfree label hlabel).2

/-- `disregard … above` can take the first letter of the debt label. -/
theorem takesFirst_debtField (hdigits : PlainDigits u) :
    TakesFirst disregardEarlier placeholder.toList (moneyFieldPattern u debtLabel) := by
  have hfree : startFree [] disregardWords (labelWord debtLabel) = true ∧
      reachFree ["e".toList] disregardWords (labelWord debtLabel) = true ∧
      selfApart disregardWords = true := by
    decide
  have hplain := plainLabel_of_mem debtLabel debtLabel_mem
  constructor
  · intro prev v next hv
    exact noStart_moneyField hdigits spells_disregardEarlier.begins rfl
      (isLower_head_of_mem _ (by simp)) hplain.lower hfree.1 hv
  · intro prev v next w m y rest prev' next' hv hw hm hsplit haccepts
    have hmem := mem_of_accepts_into_moneyField spells_disregardEarlier hplain.lower hfree.2.1
      hv hw hm hsplit haccepts
    rw [← List.length_map (f := caseFold), List.mem_singleton.1 hmem]
    rfl
  · intro prev v next hv
    exact hplain.outside hv
  · intro prev v next hv
    exact solid_of_selfApart spells_disregardEarlier hfree.2.2 (spells_disregardEarlier _ _ _ hv)
  · intro prev v next hv
    have hmem : disregardEarlier ∈ injectionPatterns .ascii := by simp [injectionPatterns_eq]
    exact ne_nil_of_accepts (meets_injectionPatterns .ascii _ hmem) hv

end Overlaps

/-! ## The figures of a sanitized text -/

section Sanitized

variable {u : Unicode} {label : String}

theorem moneyFigures_sanitized (hdigits : PlainDigits u) (text : String)
    (hlabel : label ∈ payLabels) :
    moneyFigures u label (sanitized u text).toList = moneyFigures u label text.toList := by
  have hmoney : label ∈ moneyLabels := moneyLabels_eq ▸ List.mem_append_left _ hlabel
  rw [toList_sanitized]
  apply readings_foldl _ placeholder_ne_nil (lookFree_moneyFieldPattern u label)
  · exact fun r hr _ _ _ hw => ne_nil_of_accepts (meets_injectionPatterns u r hr) hw
  · have hrest := (plainLabel_of_mem label hmoney).spares hdigits
    have hdisregard := spares_payField hdigits hlabel
    rw [injectionPatterns_eq]
    simp only [List.forall_mem_cons] at hrest ⊢
    exact ⟨hrest.1, hdisregard, hrest.2⟩

/-- The places of the debt figures. Such a place is taken if the first letter of its label is the
last one of `disregard … above`. -/
def debtPlaces (u : Unicode) (text : String) : List Place :=
  places (moneyFieldPattern u debtLabel) disregardEarlier [] text.toList

theorem spares_disregardEarlier :
    Spares ignoreInstructions placeholder.toList disregardEarlier := by
  intro prev v next hv
  exact ⟨clear_of_disregardWords (spells_disregardEarlier _ _ _ hv),
    (foreign_injectionPatterns .ascii disregardEarlier (by simp [injectionPatterns_eq])).outside hv⟩

/-- The guard leaves the debt figures whose places are not taken. -/
theorem debtFigures_sanitized (hdigits : PlainDigits u) (text : String) :
    moneyFigures u debtLabel (sanitized u text).toList =
      ((debtPlaces u text).filter fun p => !p.taken).map Place.reading := by
  have hfree := lookFree_moneyFieldPattern u debtLabel
  have hne : ∀ r ∈ injectionPatterns u, ∀ prev w next, Accepts r prev w next → w ≠ [] :=
    fun r hr _ _ _ hw => ne_nil_of_accepts (meets_injectionPatterns u r hr) hw
  have hspares := (plainLabel_of_mem debtLabel debtLabel_mem).spares hdigits
  rw [injectionPatterns_eq] at hne
  simp only [List.forall_mem_cons] at hne hspares
  -- Before `disregard … above`, the places stay as they are, and after it the figures do.
  have hbefore := hspares.1.places_sub spares_disregardEarlier placeholder_ne_nil hfree rfl hne.1
    text.toList
  have htaken := (takesFirst_debtField hdigits).readings_sub placeholder_ne_nil hfree rfl
    (sub ignoreInstructions placeholder.toList text.toList)
  rw [hbefore] at htaken
  rw [toList_sanitized, injectionPatterns_eq, List.foldl_cons, List.foldl_cons, debtPlaces,
    ← htaken]
  apply readings_foldl _ placeholder_ne_nil hfree
  · simp only [List.forall_mem_cons]
    exact hne.2.2
  · simp only [List.forall_mem_cons]
    exact hspares.2

/-- The first debt figure is not taken, or the first one that is not taken is the same number. -/
def DebtFigureKept (u : Unicode) (text : String) : Prop :=
  ∀ first ∈ (debtPlaces u text).head?, first.taken = true →
    ∃ kept ∈ (debtPlaces u text).find? fun p => !p.taken,
      figureValue u kept.reading = figureValue u first.reading

theorem readFigure_some_eq_iff (u : Unicode) (figure figure' : List Char) :
    readFigure u (some figure) = readFigure u (some figure') ↔
      figureValue u figure = figureValue u figure' := by
  rw [readFigure, readFigure, Option.elim_some, Option.elim_some]
  cases figureValue u figure <;> cases figureValue u figure' <;> simp [Except.map]

theorem readFigure_some_ne_none (u : Unicode) (figure : List Char) :
    readFigure u (some figure) ≠ readFigure u none := by
  rw [readFigure, readFigure, Option.elim_some, Option.elim_none]
  cases figureValue u figure <;> simp [Except.map]

/-- What is left of the debt figures begins with the same number as all of them. -/
theorem readFigure_debtPlaces_iff (u : Unicode) (text : String) :
    readFigure u (((debtPlaces u text).filter fun p => !p.taken).map Place.reading).head? =
        readFigure u ((debtPlaces u text).map Place.reading).head? ↔ DebtFigureKept u text := by
  rw [List.head?_map, List.head?_map, List.head?_filter, DebtFigureKept]
  cases hplaces : debtPlaces u text with
  | nil => simp
  | cons first later =>
      cases htaken : first.taken with
      | false => simp [htaken]
      | true =>
          cases hkept : later.find? fun p => !p.taken with
          | none =>
              have hne := (readFigure_some_ne_none u first.reading).symm
              simp [htaken, hkept, hne]
          | some kept => simp [htaken, hkept, readFigure_some_eq_iff]

theorem moneyFigures_debtPlaces (u : Unicode) (text : String) :
    moneyFigures u debtLabel text.toList = (debtPlaces u text).map Place.reading := by
  have hempty : readAt (moneyFieldPattern u debtLabel) [] = none := readAt_nil fun _ _ _ hv =>
    ((plainLabel_of_mem debtLabel debtLabel_mem).outside hv).ne_nil
  rw [moneyFigures, debtPlaces, map_reading_places hempty]

/-- The guard leaves a figure as it is, with one exception: the debt figure is altered when the
first letter of its label is taken by `disregard … above` and no later one is the same number. -/
theorem parseMoneyField_sanitized_iff (hdigits : PlainDigits u) (text : String)
    (hlabel : label ∈ moneyLabels) :
    parseMoneyField u (sanitized u text) label = parseMoneyField u text label ↔
      (label = debtLabel → DebtFigureKept u text) := by
  rw [parseMoneyField_eq, parseMoneyField_eq]
  rw [moneyLabels_eq, List.mem_append, List.mem_singleton] at hlabel
  rcases hlabel with hpay | rfl
  · have hne : label ≠ debtLabel := by
      rintro rfl
      revert hpay
      decide
    rw [moneyFigures_sanitized hdigits text hpay]
    exact iff_of_true rfl fun hdebt => absurd hdebt hne
  · rw [debtFigures_sanitized hdigits, moneyFigures_debtPlaces, readFigure_debtPlaces_iff]
    simp

end Sanitized

/-! ## A debt that is lost -/

theorem plainDigits_ascii : PlainDigits .ascii := by
  intro c hc
  have hdigit : c.isDigit = true := by
    by_contra hnot
    simp [isDigit, Unicode.ascii, hnot] at hc
  have hrange : 48 ≤ c.toNat ∧ c.toNat ≤ 57 := by
    rw [Char.isDigit, Bool.and_eq_true, decide_eq_true_eq, decide_eq_true_eq] at hdigit
    exact hdigit
  constructor
  · simp only [isSpace, List.mem_cons, List.not_mem_nil, or_false, decide_eq_false_iff_not]
    omega
  · rw [caseFold, toLower_of_not_capital (.inl (by omega)), if_neg (by omega), if_neg (by omega),
      if_neg (by omega)]

theorem figureValue_fiveHundred : figureValue .ascii "500".toList = .ok 500 := by
  have hfilter : "500".toList.filter (· != ',') = "500".toList := by decide
  have hwhole : "500".toList.takeWhile (isDigit .ascii) = "500".toList := by decide
  have hrest : "500".toList.dropWhile (isDigit .ascii) = [] := by decide
  have hvalue : digitsValue .ascii "500".toList = 500 := by decide
  simp only [figureValue, hfilter, parseFloat, hwhole, hrest, hvalue]
  simp

/-- The last letter of the phrase is the first one of the label. -/
def lostDebtDocument : String := "Please disregard abovEXISTING_MONTHLY_DEBT: $500"

/-- The debt figure of the document is not in what the model reads. -/
theorem debt_figure_lost :
    PlainDigits .ascii ∧
    parseMoneyField .ascii lostDebtDocument debtLabel = .ok (some 500) ∧
    parseMoneyField .ascii (sanitized .ascii lostDebtDocument) debtLabel = .ok none ∧
    ¬ ∀ label ∈ moneyLabels, parseMoneyField .ascii (sanitized .ascii lostDebtDocument) label =
      parseMoneyField .ascii lostDebtDocument label := by
  have hread : moneyFigure .ascii lostDebtDocument debtLabel = some "500".toList := by
    decide
  have hlost : moneyFigure .ascii (sanitized .ascii lostDebtDocument) debtLabel = none := by
    decide +kernel
  have hparse : parseMoneyField .ascii lostDebtDocument debtLabel = .ok (some 500) := by
    rw [parseMoneyField, hread]
    exact congrArg (Except.map some) figureValue_fiveHundred
  have hnone : parseMoneyField .ascii (sanitized .ascii lostDebtDocument) debtLabel = .ok none := by
    rw [parseMoneyField, hlost]
  refine ⟨plainDigits_ascii, hparse, hnone, fun hkept => ?_⟩
  have hdebt := hkept debtLabel debtLabel_mem
  rw [hparse, hnone] at hdebt
  cases hdebt

/-- The debt is stated once more, on a line of its own. -/
def repeatedDebtDocument : String := lostDebtDocument ++ "\nEXISTING_MONTHLY_DEBT: $500"

theorem debtPlaces_repeated : debtPlaces .ascii repeatedDebtDocument =
    [⟨"500".toList, true⟩, ⟨"500".toList, false⟩] := by decide

/-- The first figure is lost there, and the second one is read in its place. -/
theorem parseMoneyField_sanitized_repeated :
    parseMoneyField .ascii (sanitized .ascii repeatedDebtDocument) debtLabel =
      parseMoneyField .ascii repeatedDebtDocument debtLabel := by
  have hkept : DebtFigureKept .ascii repeatedDebtDocument := by
    rw [DebtFigureKept, debtPlaces_repeated]
    simp
  exact (parseMoneyField_sanitized_iff plainDigits_ascii repeatedDebtDocument debtLabel_mem).2
    fun _ => hkept

end Underwriting
