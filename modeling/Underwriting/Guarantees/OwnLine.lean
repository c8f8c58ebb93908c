import Underwriting.Infrastructure.LabelledFields
import Underwriting.Service.Offline

/-!
# The line of a field

The white space after the colon of a label may run over the end of its line. So a field whose
line is blank is filled from the next line that is not, whatever stands there: this is the only
way in which a value comes from another line. For an amount the dollar sign does not count
either, and a figure of commas only is not a value.

A line ends at a line feed and at nothing else, as it does for the `.` of a pattern. The labels
are ASCII.
-/

namespace Underwriting

open Python Python.Regex

/-- What follows on its line the colon of the label that a match begins with. -/
def colonLine (label : String) (m : Match) : List Char :=
  ((afterColon label (m.text ++ m.rest)).getD []).takeWhile (· != '\n')

/-- The text is a part of the line, and nothing is read from a blank line. -/
def TextFromOwnLine (text label : String) : Prop :=
  ∀ m value, search (textFieldPattern label) none text.toList = some m →
    parseTextField text label = some value →
      value.toList <:+: colonLine label m ∧
      ((∀ c ∈ colonLine label m, isSpace c = true) → value = "")

/-- The amount is that of a figure in the line. -/
def MoneyFromOwnLine (u : Unicode) (text label : String) : Prop :=
  ∀ m q, search (moneyFieldPattern u label) none text.toList = some m →
    parseMoneyField u text label = .ok (some q) →
      ∃ figure, figure <:+: colonLine label m ∧ parseFloat u (figure.filter (· != ',')) = .ok q

/-- The first label with a value is followed by a blank line, and by something after it. -/
def TextSpills (text label : String) : Prop :=
  ∃ rest ∈ fieldRest (·.any (· != '\n')) label text.toList,
    (∀ c ∈ rest.takeWhile (· != '\n'), isSpace c = true) ∧ ∃ c ∈ rest, isSpace c = false

/-- The first label with a figure is followed by a line that is blank up to a dollar sign, and the
figure does not consist of commas only. -/
def MoneySpills (u : Unicode) (text label : String) : Prop :=
  ∃ rest ∈ fieldRest (hasFigure u) label text.toList,
    skipGap (rest.takeWhile (· != '\n')) = [] ∧ ∃ c ∈ amountText u (skipGap rest), c ≠ ','

/-! ## Lines -/

theorem takeWhile_dropWhile_eq_nil {α : Type*} (p : α → Bool) (s : List α) :
    (s.dropWhile p).takeWhile p = [] := by
  induction s with
  | nil => rfl
  | cons c s ih =>
      by_cases hc : p c
      · rw [List.dropWhile_cons_of_pos hc, ih]
      · rw [List.dropWhile_cons_of_neg hc, List.takeWhile_cons_of_neg hc]

/-- A text is its first line and what follows from a line break on. -/
theorem exists_line (rest : List Char) : ∃ line tail, rest = line ++ tail ∧
    rest.takeWhile (· != '\n') = line ∧ (∀ c ∈ line, (c != '\n') = true) ∧
    tail.takeWhile (· != '\n') = [] :=
  ⟨_, _, List.takeWhile_append_dropWhile.symm, rfl,
    fun _ hc => List.mem_takeWhile_imp (p := (· != '\n')) hc, takeWhile_dropWhile_eq_nil _ rest⟩

theorem takeWhile_line {line tail : List Char} (hline : ∀ c ∈ line, (c != '\n') = true)
    (htail : tail.takeWhile (· != '\n') = []) : (line ++ tail).takeWhile (· != '\n') = line := by
  rw [List.takeWhile_append_of_pos hline, htail, List.append_nil]

theorem dropWhile_append_of_ne_nil {p : Char → Bool} {s : List Char} (h : s.dropWhile p ≠ [])
    (tail : List Char) : (s ++ tail).dropWhile p = s.dropWhile p ++ tail := by
  rw [List.dropWhile_append, if_neg (by simpa using h)]

/-! ## Texts -/

section FreeText

variable {text label : String} {rest : List Char} {m : Match}

/-- The matched label is the first one with a value. -/
theorem exists_text (h : search (textFieldPattern label) none text.toList = some m) :
    ∃ rest m', fieldRest (·.any (· != '\n')) label text.toList = some rest ∧
      colonLine label m = rest.takeWhile (· != '\n') ∧ Takes textValue none rest m' ∧
      parseTextField text label = m'.captured.map fun s => String.ofList (strip s) := by
  rw [textFieldPattern_eq] at h
  obtain ⟨rest, m', hrest, hcolon, hm', hcaptured⟩ :=
    exists_fieldRest_of_search lookFree_textValue h
  rw [hasValue_textValue] at hrest
  refine ⟨rest, m', hrest, ?_, hm', ?_⟩
  · rw [colonLine, hcolon, Option.getD_some]
  · rw [parseTextField, textFieldPattern_eq, h, Option.bind_some, hcaptured]

/-- In a line that is not blank, the value is what is left of the line. -/
theorem line_of_not_blank (h : ∃ c ∈ rest.takeWhile (· != '\n'), isSpace c = false) :
    (rest.dropWhile isSpace).takeWhile (· != '\n') =
      (rest.takeWhile (· != '\n')).dropWhile isSpace := by
  obtain ⟨line, tail, rfl, hline, hbreak, htail⟩ := exists_line rest
  rw [hline] at h ⊢
  have hne : line.dropWhile isSpace ≠ [] := by
    intro hnil
    obtain ⟨c, hc, hnot⟩ := h
    rw [List.dropWhile_eq_nil_iff.1 hnil c hc] at hnot
    cases hnot
  rw [dropWhile_append_of_ne_nil hne]
  apply takeWhile_line _ htail
  intro c hc
  exact hbreak c ((List.dropWhile_suffix isSpace).subset hc)

theorem textFromOwnLine_iff (text label : String) :
    TextFromOwnLine text label ↔ ¬ TextSpills text label := by
  constructor
  · rintro hown ⟨rest, hrest, hblank, hmore⟩
    rw [Option.mem_def, ← hasValue_textValue] at hrest
    obtain ⟨m, hm⟩ := exists_search_of_fieldRest lookFree_textValue hrest
    rw [← textFieldPattern_eq] at hm
    obtain ⟨rest', m', hrest', hline, hm', hvalue⟩ := exists_text hm
    rw [← hasValue_textValue, hrest, Option.some.injEq] at hrest'
    subst hrest'
    obtain ⟨m₁, hm₁, hcaptured⟩ := takes_textValue hmore
    obtain rfl := Option.some.inj (hm₁.symm.trans hm')
    rw [hcaptured, Option.map_some] at hvalue
    have hempty := (hown m _ hm hvalue).2 (hline ▸ hblank)
    rw [String.ofList_eq_empty_iff, strip_eq_nil_iff] at hempty
    obtain ⟨c, hc, hnot⟩ := exists_mem_value hmore
    rw [hempty c hc] at hnot
    cases hnot
  · intro hno m value hm hvalue
    obtain ⟨rest, m', hrest, hline, hm', hparse⟩ := exists_text hm
    rw [hline]
    rw [hvalue] at hparse
    by_cases hmore : ∃ c ∈ rest, isSpace c = false
    · have hfilled : ∃ c ∈ rest.takeWhile (· != '\n'), isSpace c = false := by
        by_contra hblank
        refine hno ⟨rest, hrest, fun c hc => ?_, hmore⟩
        by_contra hnot
        exact hblank ⟨c, hc, by simpa using hnot⟩
      obtain ⟨m₁, hm₁, hcaptured⟩ := takes_textValue hmore
      obtain rfl := Option.some.inj (hm₁.symm.trans hm')
      rw [hcaptured, line_of_not_blank hfilled, Option.map_some, Option.some.injEq] at hparse
      constructor
      · rw [hparse, String.toList_ofList]
        exact (strip_isInfix _).trans (List.dropWhile_suffix isSpace).isInfix
      · intro hblank
        obtain ⟨c, hc, hnot⟩ := hfilled
        rw [hblank c hc] at hnot
        cases hnot
    · have hblank : ∀ c ∈ rest, isSpace c = true := by
        intro c hc
        by_contra hnot
        exact hmore ⟨c, hc, by simpa using hnot⟩
      obtain ⟨captured, hcaptured, hspace⟩ := isSpace_of_mem_run_textValue hblank hm'.mem
      rw [hcaptured, Option.map_some, strip_eq_nil_iff.2 hspace, Option.some.injEq] at hparse
      subst hparse
      exact ⟨List.nil_infix, fun _ => rfl⟩

end FreeText

/-! ## Amounts -/

section Amount

variable {u : Unicode} {text label : String} {rest s line tail : List Char} {m : Match}

theorem dropSign_append (h : s ≠ []) (tail : List Char) :
    dropSign (s ++ tail) = dropSign s ++ tail := by
  obtain ⟨c, s, rfl⟩ := List.exists_cons_of_ne_nil h
  by_cases hc : c = '$'
  · subst hc
    rfl
  · simp [dropSign, hc]

theorem mem_dropSign {c : Char} (hc : c ∈ s) (hne : c ≠ '$') : c ∈ dropSign s := by
  cases s with
  | nil => cases hc
  | cons d s =>
      by_cases hd : d = '$'
      · subst hd
        exact (List.mem_cons.1 hc).resolve_left hne
      · simpa [dropSign, hd] using hc

/-- A gap that ends in the line is the gap of the whole text. -/
theorem skipGap_append (h : skipGap line ≠ []) (tail : List Char) :
    skipGap (line ++ tail) = skipGap line ++ tail := by
  have hline : line.dropWhile isSpace ≠ [] := by
    intro hnil
    rw [skipGap, hnil] at h
    exact h rfl
  rw [skipGap, dropWhile_append_of_ne_nil hline, dropSign_append hline,
    dropWhile_append_of_ne_nil h]
  rfl

theorem skipGap_suffix (s : List Char) : skipGap s <:+ s := by
  have hsign (s : List Char) : dropSign s <:+ s := by
    cases s with
    | nil => exact List.suffix_rfl
    | cons c s =>
        by_cases hc : c = '$'
        · subst hc
          exact List.suffix_cons '$' s
        · simp [dropSign, hc]
  exact (List.dropWhile_suffix isSpace).trans ((hsign _).trans (List.dropWhile_suffix isSpace))

/-- A line is a gap as a whole only if it consists of white space and dollar signs. -/
theorem mem_of_skipGap_eq_nil (h : skipGap line = []) :
    ∀ c ∈ line, isSpace c = true ∨ c = '$' := by
  intro c hc
  by_cases hdollar : c = '$'
  · exact .inr hdollar
  · rw [← List.takeWhile_append_dropWhile (p := isSpace) (l := line), List.mem_append] at hc
    rcases hc with hc | hc
    · exact .inl (List.mem_takeWhile_imp hc)
    · exact .inl (List.dropWhile_eq_nil_iff.1 h c (mem_dropSign hc hdollar))

theorem parseFloat_of_not_isDigit (h : ∀ c ∈ s, isDigit u c = false ∧ c ≠ '.') :
    ∃ e, parseFloat u s = .error e := by
  cases s with
  | nil => exact ⟨_, rfl⟩
  | cons c s =>
      obtain ⟨hdigit, hpoint⟩ := h c List.mem_cons_self
      have hdrop : (c :: s).dropWhile (isDigit u) = c :: s :=
        List.dropWhile_cons_of_neg (by simp [hdigit])
      rw [parseFloat, hdrop]
      split
      · next hnil => cases hnil
      · next hcons => exact absurd (List.cons.inj hcons).1 hpoint
      · exact ⟨_, rfl⟩

/-- There is no figure in a line that is a gap as a whole. -/
theorem no_figure_of_gap (hspace : ∀ c, isSpace c = true → u.decimal c = none)
    (h : skipGap line = []) {figure : List Char} (hfigure : figure <:+: line) :
    ∃ e, parseFloat u (figure.filter (· != ',')) = .error e := by
  apply parseFloat_of_not_isDigit
  intro c hc
  have hmem : c ∈ line := hfigure.subset (List.mem_filter.1 hc).1
  rcases mem_of_skipGap_eq_nil h c hmem with hblank | rfl
  · constructor
    · rw [isDigit, hspace c hblank]
      rfl
    · rintro rfl
      cases hblank
  · constructor
    · rw [isDigit, u.decimal_ascii '$' (by decide)]
      rfl
    · decide

theorem ne_newline_of_isFigure {figure : List Char} (h : IsFigure u figure) :
    ∀ c ∈ figure, (c != '\n') = true := by
  obtain ⟨whole, frac, rfl, hwhole, hfrac⟩ := h
  intro c hc
  have hdigit : c ≠ '\n' ↔ (c != '\n') = true := by simp
  rw [← hdigit]
  rintro rfl
  rcases List.mem_append.1 hc with hc | hc
  · have hno := hwhole _ hc
    simp [not_isDigit_newline] at hno
  · rcases hfrac with rfl | ⟨ds, rfl, -, hds⟩
    · cases hc
    · have hno := hds '\n' (by simpa using hc)
      rw [not_isDigit_newline] at hno
      cases hno

/-- The matched label is the first one with a figure. -/
theorem exists_figure (hspace : ∀ c, isSpace c = true → u.decimal c = none)
    (h : search (moneyFieldPattern u label) none text.toList = some m) :
    ∃ rest, fieldRest (hasFigure u) label text.toList = some rest ∧
      colonLine label m = rest.takeWhile (· != '\n') ∧
      moneyFigure u text label = some (amountText u (skipGap rest)) ∧
      ∃ more, skipGap rest = amountText u (skipGap rest) ++ more := by
  rw [moneyFieldPattern_eq] at h
  obtain ⟨rest, m', hrest, hcolon, hm', hcaptured⟩ :=
    exists_fieldRest_of_search lookFree_moneyValue h
  have hfigure := hasFigure_of_mem_run hspace hm'.mem
  rw [hasValue_moneyValue hspace] at hrest
  obtain ⟨m₁, hm₁, hcaptured₁⟩ := takes_moneyValue hfigure
  obtain rfl := Option.some.inj (hm₁.symm.trans hm')
  obtain ⟨m₂, hm₂, htext⟩ := takes_amountPattern none (takeWhile_ne_nil_of_hasFigure hfigure)
  refine ⟨rest, hrest, ?_, ?_, m₂.rest, ?_⟩
  · rw [colonLine, hcolon, Option.getD_some]
  · rw [moneyFigure, moneyFieldPattern_eq, h, Option.bind_some, hcaptured, hcaptured₁]
  · rw [← htext, text_append_rest _ _ _ m₂ hm₂.mem]

/-- A figure on the line of the colon is the one that is read. -/
theorem figure_infix_line {figure more : List Char} (h : skipGap (rest.takeWhile (· != '\n')) ≠ [])
    (hmore : skipGap rest = figure ++ more) (hfigure : ∀ c ∈ figure, (c != '\n') = true) :
    figure <:+: rest.takeWhile (· != '\n') := by
  obtain ⟨line, tail, rfl, hline, hbreak, htail⟩ := exists_line rest
  rw [hline] at h ⊢
  have hgap : ∀ c ∈ skipGap line, (c != '\n') = true := fun c hc =>
    hbreak c ((skipGap_suffix line).subset hc)
  have hcut : skipGap line = figure ++ more.takeWhile (· != '\n') :=
    calc skipGap line = (skipGap line ++ tail).takeWhile (· != '\n') :=
          (takeWhile_line hgap htail).symm
      _ = (figure ++ more).takeWhile (· != '\n') := by rw [← hmore, skipGap_append h]
      _ = figure ++ more.takeWhile (· != '\n') := List.takeWhile_append_of_pos hfigure
  have hprefix : figure <+: skipGap line := hcut ▸ List.prefix_append _ _
  exact hprefix.isInfix.trans (skipGap_suffix line).isInfix

theorem moneyFromOwnLine_iff (hspace : ∀ c, isSpace c = true → u.decimal c = none)
    (text label : String) : MoneyFromOwnLine u text label ↔ ¬ MoneySpills u text label := by
  constructor
  · rintro hown ⟨rest, hrest, hgap, hdigits⟩
    rw [Option.mem_def, ← hasValue_moneyValue hspace] at hrest
    obtain ⟨m, hm⟩ := exists_search_of_fieldRest lookFree_moneyValue hrest
    rw [← moneyFieldPattern_eq] at hm
    obtain ⟨rest', hrest', hline, hfigure, -⟩ := exists_figure hspace hm
    rw [← hasValue_moneyValue hspace, hrest, Option.some.injEq] at hrest'
    subst hrest'
    obtain ⟨q, hq, -⟩ := (isFigure_of_moneyFigure hfigure).parseFloat hdigits
    have hparse : parseMoneyField u text label = .ok (some q) := by
      rw [parseMoneyField, hfigure]
      dsimp only
      rw [hq]
      rfl
    obtain ⟨figure, hinfix, hvalue⟩ := hown m q hm hparse
    obtain ⟨e, he⟩ := no_figure_of_gap hspace hgap (hline ▸ hinfix)
    cases he.symm.trans hvalue
  · intro hno m q hm hparse
    obtain ⟨rest, hrest, hline, hfigure, more, hmore⟩ := exists_figure hspace hm
    rw [hline]
    by_cases hgap : skipGap (rest.takeWhile (· != '\n')) = []
    · have hcommas : ∀ c ∈ amountText u (skipGap rest), c = ',' := by
        intro c hc
        by_contra hne
        exact hno ⟨rest, hrest, hgap, c, hc, hne⟩
      obtain ⟨e, he⟩ := parseMoneyField_of_commas hfigure hcommas
      cases he.symm.trans hparse
    · have hbreak := ne_newline_of_isFigure (isFigure_of_moneyFigure hfigure)
      refine ⟨_, figure_infix_line hgap hmore hbreak, ?_⟩
      rw [parseMoneyField, hfigure] at hparse
      dsimp only at hparse
      cases hvalue : parseFloat u ((amountText u (skipGap rest)).filter (· != ',')) with
      | error e =>
          rw [hvalue] at hparse
          cases hparse
      | ok q' =>
          rw [hvalue] at hparse
          cases hparse
          rfl

end Amount

/-- A field is filled from its own line exactly when it does not spill: for every text and every
label. -/
theorem value_from_own_line_iff (u : Unicode) (text label : String)
    (hspace : ∀ c, isSpace c = true → u.decimal c = none) :
    (TextFromOwnLine text label ↔ ¬ TextSpills text label) ∧
      (MoneyFromOwnLine u text label ↔ ¬ MoneySpills u text label) :=
  ⟨textFromOwnLine_iff text label, moneyFromOwnLine_iff hspace text label⟩

/-! ## Fields that spill -/

theorem decimal_ascii_of_isSpace (c : Char) (hc : isSpace c = true) :
    Unicode.ascii.decimal c = none := by
  have hdigit : c.isDigit = false := by
    rw [← Bool.not_eq_true]
    intro hdigit
    have hrange := toNat_of_isDigit hdigit
    simp only [isSpace, List.mem_cons, List.not_mem_nil, or_false, decide_eq_true_eq] at hc
    omega
  simp [Unicode.ascii, hdigit]

/-- The employer is blank, and the next label and its value are read as its name; the gross pay is
blank, and the year of the date below it is read as the amount. -/
theorem blank_field_filled :
    ¬ TextFromOwnLine "EMPLOYER:\nPAY_FREQUENCY: weekly" "EMPLOYER" ∧
    parseTextField "EMPLOYER:\nPAY_FREQUENCY: weekly" "EMPLOYER" =
      some "PAY_FREQUENCY: weekly" ∧
    ¬ MoneyFromOwnLine .ascii "GROSS_PAY_PER_PERIOD:\n2026-01-31" "GROSS_PAY_PER_PERIOD" ∧
    (parseMoneyField .ascii "GROSS_PAY_PER_PERIOD:\n2026-01-31" "GROSS_PAY_PER_PERIOD").toOption =
      some (some 2026) := by
  refine ⟨?_, by decide, ?_, by decide⟩
  · rw [textFromOwnLine_iff, not_not]
    exact ⟨"\nPAY_FREQUENCY: weekly".toList, by decide, by simp, 'P', by simp, by decide⟩
  · rw [moneyFromOwnLine_iff decimal_ascii_of_isSpace, not_not]
    exact ⟨"\n2026-01-31".toList, by decide, by simp [skipGap, dropSign], '2',
      by decide, by decide⟩

theorem value_from_own_line_gross :
    TextFromOwnLine "GROSS_PAY_PER_PERIOD: $2400.00\nEMPLOYER:\n" "GROSS_PAY_PER_PERIOD" ∧
      MoneyFromOwnLine .ascii "GROSS_PAY_PER_PERIOD: $2400.00\nEMPLOYER:\n"
        "GROSS_PAY_PER_PERIOD" := by
  obtain ⟨htext, hmoney⟩ := value_from_own_line_iff .ascii
    "GROSS_PAY_PER_PERIOD: $2400.00\nEMPLOYER:\n" "GROSS_PAY_PER_PERIOD" decimal_ascii_of_isSpace
  have hany : fieldRest (·.any (· != '\n')) "GROSS_PAY_PER_PERIOD"
      "GROSS_PAY_PER_PERIOD: $2400.00\nEMPLOYER:\n".toList =
        some " $2400.00\nEMPLOYER:\n".toList := by
    decide
  have hfigure : fieldRest (hasFigure .ascii) "GROSS_PAY_PER_PERIOD"
      "GROSS_PAY_PER_PERIOD: $2400.00\nEMPLOYER:\n".toList =
        some " $2400.00\nEMPLOYER:\n".toList := by
    decide
  constructor
  · rw [htext]
    rintro ⟨rest, hrest, hblank, -⟩
    obtain rfl := Option.some.inj (hany.symm.trans hrest)
    have hdollar := hblank '$' (by simp)
    cases hdollar
  · rw [hmoney]
    rintro ⟨rest, hrest, hgap, -⟩
    obtain rfl := Option.some.inj (hfigure.symm.trans hrest)
    simp [skipGap, dropSign, isSpace] at hgap

end Underwriting
