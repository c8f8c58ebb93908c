import Underwriting.Infrastructure.Llm
import Underwriting.Python.FirstMatch

/-!
# Labelled fields

Both field patterns are a label, white space, a colon and the expression for the value. So a
field is found at the first label that has a colon and a value after it, `fieldRest`, and it is
read from what follows that colon.
-/

namespace Underwriting

open Python Python.Regex

/-- `label\s*:` followed by the expression for the value. -/
def fieldPattern (label : String) (value : Regex) : Regex :=
  seq (word label) <| seq (star isSpace) <| seq (char ':') value

/-- What follows the colon, in a text that begins with the label. -/
def afterColon (label : String) (s : List Char) : Option (List Char) :=
  (dropWord label.toList s).bind fun rest =>
    match rest.dropWhile isSpace with
    | ':' :: rest => some rest
    | _ => none

/-- What follows the colon of the first label that has a text with `p` after its colon. -/
def fieldRest (p : List Char → Bool) (label : String) (s : List Char) : Option (List Char) :=
  s.tails.findSome? fun d => (afterColon label d).filter p

/-- The expression for an amount of money. -/
def moneyValue (u : Unicode) : Regex :=
  seq (star isSpace) <| seq (opt (char '$')) <| seq (star isSpace) (group (amountPattern u))

/-- The expression for a free text. -/
def textValue : Regex := seq (star isSpace) (group (plus (· != '\n')))

theorem moneyFieldPattern_eq (u : Unicode) (label : String) :
    moneyFieldPattern u label = fieldPattern label (moneyValue u) := rfl

theorem textFieldPattern_eq (label : String) :
    textFieldPattern label = fieldPattern label textValue := rfl

/-! ## Searching for a field -/

section Search

variable {label : String} {value : Regex} {s rest : List Char} {m : Match}

theorem lookFree_fieldPattern (label : String) (hvalue : lookFree value = true) :
    lookFree (fieldPattern label value) = true := by
  simp [fieldPattern, lookFree, lookFree_word, char, hvalue]

theorem run_colon_seq_cons (prev : Option Char) (s : List Char) :
    run (seq (char ':') value) prev (':' :: s) =
      (run value (some ':') s).map (Match.append ⟨[':'], s, none⟩) := by
  simp [char, run, Match.last]

theorem run_colon_seq_of_ne {c : Char} (hc : c ≠ ':') (prev : Option Char) (s : List Char) :
    run (seq (char ':') value) prev (c :: s) = [] := by
  simp [char, run, hc]

/-- The white space before the colon is skipped as a whole. -/
theorem run_space_colon (hvalue : lookFree value = true) (prev : Option Char) (s : List Char) :
    run (seq (star isSpace) (seq (char ':') value)) prev s =
      (run (seq (char ':') value) none (s.dropWhile isSpace)).map
        (Match.append ⟨s.takeWhile isSpace, s.dropWhile isSpace, none⟩) := by
  apply run_star_seq_of_refuses
  · simp [lookFree, char, hvalue]
  · intro c s hc
    apply run_colon_seq_of_ne
    rintro rfl
    cases hc

theorem run_fieldPattern_eq_nil (hvalue : lookFree value = true) (h : afterColon label s = none)
    (prev : Option Char) : run (fieldPattern label value) prev s = [] := by
  cases hword : dropWord label.toList s with
  | none => simp [fieldPattern, run, run_word_eq_nil hword]
  | some d =>
      obtain ⟨w, rfl, hrun⟩ := run_word_eq_singleton prev hword
      rw [afterColon, hword, Option.bind_some] at h
      have hspace := run_space_colon hvalue (Match.last ⟨w, d, none⟩ prev) d
      rw [fieldPattern, run, hrun, List.flatMap_singleton, hspace]
      split at h
      · cases h
      · next hcolon =>
          cases hd : d.dropWhile isSpace with
          | nil => simp [char, run]
          | cons c d =>
              have hne : c ≠ ':' := fun hc => hcolon d (hc ▸ hd)
              rw [run_colon_seq_of_ne hne]
              rfl

theorem run_fieldPattern_eq_map (hvalue : lookFree value = true)
    (h : afterColon label s = some rest) (prev : Option Char) :
    ∃ before, s = before ++ rest ∧ run (fieldPattern label value) prev s =
      (run value none rest).map (Match.append ⟨before, rest, none⟩) := by
  obtain ⟨d, hword, hcolon⟩ := Option.bind_eq_some_iff.1 h
  obtain ⟨w, rfl, hrun⟩ := run_word_eq_singleton prev hword
  split at hcolon
  · next rest' hd =>
      obtain rfl := Option.some.inj hcolon
      refine ⟨w ++ d.takeWhile isSpace ++ [':'], ?_, ?_⟩
      · simp [← hd]
      · have hspace := run_space_colon hvalue (Match.last ⟨w, d, none⟩ prev) d
        rw [fieldPattern, run, hrun, List.flatMap_singleton, hspace, hd, run_colon_seq_cons,
          run_of_lookFree hvalue (some ':') none]
        simp [Match.append, Function.comp_def]
  · cases hcolon

/-- There is a value at the head of a text. -/
def hasValue (value : Regex) (rest : List Char) : Bool := !(run value none rest).isEmpty

/-- At one place there is no field, or it is read from what follows the colon. -/
theorem takes_fieldPattern_cases (hvalue : lookFree value = true) (label : String) (s : List Char) :
    ((afterColon label s).filter (hasValue value) = none ∧
      run (fieldPattern label value) none s = []) ∨
    ∃ rest m m', afterColon label s = some rest ∧ hasValue value rest = true ∧
      Takes (fieldPattern label value) none s m ∧ Takes value none rest m' ∧
      m.captured = m'.captured := by
  cases hrest : afterColon label s with
  | none => exact .inl ⟨rfl, run_fieldPattern_eq_nil hvalue hrest none⟩
  | some rest =>
      obtain ⟨before, -, hrun⟩ := run_fieldPattern_eq_map hvalue hrest none
      cases hmatches : run value none rest with
      | nil => exact .inl ⟨by simp [hasValue, hmatches], by rw [hrun, hmatches, List.map_nil]⟩
      | cons m ms =>
          refine .inr ⟨rest, Match.append ⟨before, rest, none⟩ m, m, rfl, ?_, ?_, ?_, ?_⟩
          · simp [hasValue, hmatches]
          · rw [Takes, hrun, hmatches, List.map_cons, List.head?_cons]
          · rw [Takes, hmatches, List.head?_cons]
          · simp [Match.append]

/-- A field is found at the first label with a value. -/
theorem exists_fieldRest_of_search (hvalue : lookFree value = true)
    (h : search (fieldPattern label value) none s = some m) :
    ∃ rest m', fieldRest (hasValue value) label s = some rest ∧
      afterColon label (m.text ++ m.rest) = some rest ∧
      Takes value none rest m' ∧ m.captured = m'.captured := by
  rw [search_eq_findSome? (lookFree_fieldPattern label hvalue), List.findSome?_eq_some_iff] at h
  obtain ⟨before, d, after, htails, hd, hbefore⟩ := h
  have hskip : before.findSome? (fun d => (afterColon label d).filter (hasValue value)) = none := by
    rw [List.findSome?_eq_none_iff]
    intro e he
    rcases takes_fieldPattern_cases hvalue label e with ⟨hnone, -⟩ | ⟨rest, m₁, -, -, -, hm₁, -⟩
    · exact hnone
    · cases (hbefore e he).symm.trans hm₁
  rcases takes_fieldPattern_cases hvalue label d with ⟨-, hrun⟩ |
    ⟨rest, m₁, m', hrest, hhas, hm₁, hm', hcaptured⟩
  · rw [hrun] at hd
    cases hd
  · obtain rfl : m₁ = m := Option.some.inj (hm₁.symm.trans hd)
    refine ⟨rest, m', ?_, ?_, hm', hcaptured⟩
    · rw [fieldRest, htails, List.findSome?_append, hskip, Option.none_or, List.findSome?_cons,
        hrest, Option.filter_some, if_pos hhas]
    · rw [text_append_rest _ _ _ _ hm₁.mem, hrest]

theorem exists_search_of_fieldRest (hvalue : lookFree value = true)
    (h : fieldRest (hasValue value) label s = some rest) :
    ∃ m, search (fieldPattern label value) none s = some m := by
  by_contra hnone
  simp only [not_exists, ← Option.mem_def, ← Option.eq_none_iff_forall_not_mem] at hnone
  rw [search_eq_findSome? (lookFree_fieldPattern label hvalue), List.findSome?_eq_none_iff] at hnone
  obtain ⟨before, d, after, htails, hd, -⟩ := List.findSome?_eq_some_iff.1 h
  have hmem : d ∈ s.tails := htails ▸ List.mem_append_right before List.mem_cons_self
  have hempty := List.head?_eq_none_iff.1 (hnone d hmem)
  rcases takes_fieldPattern_cases hvalue label d with ⟨hno, -⟩ | ⟨-, m, -, -, -, hm, -⟩
  · cases hno.symm.trans hd
  · rw [Takes, hempty] at hm
    cases hm

/-! ### Texts before the label -/

/-- The label does not begin in `before`, whatever follows it. -/
def Skips (label : String) (before : List Char) : Prop :=
  ∀ d tail, d ≠ [] → d <:+ before → dropWord label.toList (d ++ tail) = none

theorem skips_nil (label : String) : Skips label [] := by
  intro d tail hd hsuffix
  exact absurd (List.suffix_nil.1 hsuffix) hd

theorem Skips.append {before before' : List Char} (h : Skips label before)
    (h' : Skips label before') : Skips label (before ++ before') := by
  intro d tail hd hsuffix
  obtain ⟨front, hfront⟩ := hsuffix
  rcases List.append_eq_append_iff.1 hfront with ⟨e, he, rfl⟩ | ⟨e, -, he⟩
  · by_cases hempty : e = []
    · subst hempty
      exact h' before' tail hd List.suffix_rfl
    · rw [List.append_assoc]
      exact h e (before' ++ tail) hempty ⟨front, he.symm⟩
  · exact h' d tail hd ⟨e, he.symm⟩

/-- A text without the label can be skipped up to a character that the label does not have. -/
theorem skips_of_search {before : List Char} {c : Char}
    (h : search (word label) none before = none)
    (hc : (label.toList.any fun p => sameIgnoringCase p c) = false) :
    Skips label (before ++ [c]) := by
  intro d tail hd hsuffix
  rcases List.suffix_concat_iff.1 hsuffix with rfl | ⟨e, rfl, he⟩
  · exact absurd rfl hd
  · rw [List.append_assoc]
    exact dropWord_append_eq_none (dropWord_eq_none_of_search h he) hc

/-- Behind such a text the field is read where its label is. -/
theorem captured_search_of_skips (hvalue : lookFree value = true) {before : List Char}
    {m' : Match} (hbefore : Skips label before) (hrest : afterColon label s = some rest)
    (hm' : Takes value none rest m') :
    (search (fieldPattern label value) none (before ++ s)).bind Match.captured = m'.captured := by
  have hfree := lookFree_fieldPattern label hvalue
  have hskip : search (fieldPattern label value) none (before ++ s) =
      search (fieldPattern label value) none s := by
    apply search_append hfree
    intro d hd hsuffix
    apply run_fieldPattern_eq_nil hvalue
    rw [afterColon, hbefore d s hd hsuffix, Option.bind_none]
  have hhas : hasValue value rest = true := by
    simp [hasValue, List.ne_nil_of_mem hm'.mem]
  rw [hskip]
  rcases takes_fieldPattern_cases hvalue label s with ⟨hnone, -⟩ |
    ⟨rest', m, m₁, hrest', -, hm, hm₁, hcaptured⟩
  · rw [hrest, Option.filter_some, if_pos hhas] at hnone
    cases hnone
  · obtain rfl := Option.some.inj (hrest.symm.trans hrest')
    obtain rfl := Option.some.inj (hm'.symm.trans hm₁)
    rw [hm.search hfree, Option.bind_some, hcaptured]

end Search

/-! ## Free texts -/

section FreeText

variable {rest : List Char} {m : Match}

theorem lookFree_textValue : lookFree textValue = true := rfl

/-- What is left after white space begins with the value. -/
theorem exists_mem_value (h : ∃ c ∈ rest, isSpace c = false) :
    ∃ c ∈ (rest.dropWhile isSpace).takeWhile (· != '\n'), isSpace c = false := by
  obtain ⟨c, hc, hnot⟩ := h
  cases hrest : rest.dropWhile isSpace with
  | nil =>
      have hspace := List.dropWhile_eq_nil_iff.1 hrest c hc
      rw [hnot] at hspace
      cases hspace
  | cons d s =>
      have hd : isSpace d = false := by
        simpa [hrest] using List.head?_dropWhile_not isSpace rest
      have hne : d ≠ '\n' := by
        rintro rfl
        cases hd
      exact ⟨d, by simp [hne], hd⟩

theorem takes_textValue (h : ∃ c ∈ rest, isSpace c = false) : ∃ m, Takes textValue none rest m ∧
    m.captured = some ((rest.dropWhile isSpace).takeWhile (· != '\n')) := by
  obtain ⟨c, hc, -⟩ := exists_mem_value h
  have hline := List.ne_nil_of_mem hc
  have hplus := (takes_plus (p := (· != '\n'))
    (Match.last ⟨rest.takeWhile isSpace, rest.dropWhile isSpace, none⟩ none) hline).group
  exact ⟨_, (takes_star isSpace none rest).seq hplus, rfl⟩

/-- Where there is white space only, the value is white space. -/
theorem isSpace_of_mem_run_textValue (h : ∀ c ∈ rest, isSpace c = true)
    (hm : m ∈ Regex.run textValue none rest) :
    ∃ text, m.captured = some text ∧ ∀ c ∈ text, isSpace c = true := by
  obtain ⟨m₁, hm₁, m₂, hm₂, rfl⟩ := mem_run_seq.1 hm
  rw [Regex.run, List.mem_map] at hm₂
  obtain ⟨m₃, hm₃, rfl⟩ := hm₂
  refine ⟨m₃.text, rfl, fun c hc => h c ?_⟩
  rw [← text_append_rest _ _ _ m₁ hm₁, ← text_append_rest _ _ _ m₃ hm₃]
  exact List.mem_append_right _ (List.mem_append_left _ hc)

/-- Any character that is not a line break can be the value. -/
theorem hasValue_textValue : hasValue textValue = fun rest => rest.any (· != '\n') := by
  funext rest
  rw [hasValue, Bool.eq_iff_iff, Bool.not_eq_true', List.isEmpty_eq_false_iff, List.any_eq_true]
  constructor
  · intro hrun
    obtain ⟨m, hm⟩ := List.exists_mem_of_ne_nil _ hrun
    obtain ⟨m₁, hm₁, m₂, hm₂, rfl⟩ := mem_run_seq.1 hm
    rw [Regex.run, List.mem_map] at hm₂
    obtain ⟨m₃, hm₃, rfl⟩ := hm₂
    obtain ⟨hne, hline⟩ := mem_run_plus _ _ _ _ hm₃
    obtain ⟨c, hc⟩ := List.exists_mem_of_ne_nil _ hne
    refine ⟨c, ?_, hline c hc⟩
    rw [← text_append_rest _ _ _ m₁ hm₁, ← text_append_rest _ _ _ m₃ hm₃]
    exact List.mem_append_right _ (List.mem_append_left _ hc)
  · rintro ⟨c, hc, hline⟩
    by_cases hblank : ∀ d ∈ rest, isSpace d = true
    · -- The repetition gives back what is needed for the value.
      obtain ⟨gap, s, rfl⟩ := List.append_of_mem hc
      have hgap : ∀ d ∈ gap, isSpace d = true := fun d hd =>
        hblank d (List.mem_append_left _ hd)
      have haccepts : Accepts textValue none (gap ++ [c]) s.head? :=
        ⟨gap, [c], rfl, hgap, [c], [], rfl, ⟨c, rfl, hline⟩, by simp [Accepts]⟩
      rw [← List.singleton_append, ← List.append_assoc]
      exact run_ne_nil_of_accepts haccepts
    · simp only [not_forall, Bool.not_eq_true] at hblank
      obtain ⟨d, hd, hnot⟩ := hblank
      obtain ⟨m, hm, -⟩ := takes_textValue ⟨d, hd, hnot⟩
      exact List.ne_nil_of_mem hm.mem

end FreeText

/-! ## Amounts -/

/-- What follows a dollar sign, if there is one. -/
def dropSign : List Char → List Char
  | '$' :: s => s
  | s => s

/-- What is left after white space, a dollar sign and white space. -/
def skipGap (s : List Char) : List Char :=
  (dropSign (s.dropWhile isSpace)).dropWhile isSpace

/-- A character of a figure before its point. -/
def isFigureChar (u : Unicode) (c : Char) : Bool := isDigit u c || c == ','

/-- A point and the digits after it, if there are some. -/
def fractionText (u : Unicode) : List Char → List Char
  | '.' :: s => if s.takeWhile (isDigit u) = [] then [] else '.' :: s.takeWhile (isDigit u)
  | _ => []

/-- The longest figure at the head of a text. -/
def amountText (u : Unicode) (s : List Char) : List Char :=
  s.takeWhile (isFigureChar u) ++ fractionText u (s.dropWhile (isFigureChar u))

/-- A figure stands behind the gap. -/
def hasFigure (u : Unicode) (rest : List Char) : Bool :=
  (skipGap rest).head?.any (isFigureChar u)

section Amount

variable {u : Unicode} {rest s : List Char} {m : Match}

theorem lookFree_moneyValue : lookFree (moneyValue u) = true := rfl

theorem takes_fraction (u : Unicode) (prev : Option Char) (s : List Char) :
    ∃ m, Takes (opt (seq (char '.') (plus (isDigit u)))) prev s m ∧ m.text = fractionText u s := by
  have habsent (h : Regex.run (seq (char '.') (plus (isDigit u))) prev s = [])
      (htext : fractionText u s = []) :
      ∃ m, Takes (opt (seq (char '.') (plus (isDigit u)))) prev s m ∧ m.text = fractionText u s :=
    ⟨_, takes_opt_of_run_eq_nil h, htext.symm⟩
  cases s with
  | nil => exact habsent rfl rfl
  | cons c s =>
      by_cases hc : c = '.'
      · subst hc
        by_cases hdigits : s.takeWhile (isDigit u) = []
        · apply habsent
          · simp [Regex.run, char, run_plus_eq_nil hdigits]
          · rw [fractionText, if_pos hdigits]
        · have hpoint : Takes (char '.') prev ('.' :: s) ⟨['.'], s, none⟩ := takes_set prev rfl
          refine ⟨_, (hpoint.seq (takes_plus _ hdigits)).opt, ?_⟩
          rw [fractionText, if_neg hdigits]
          rfl
      · apply habsent
        · simp [Regex.run, char, hc]
        · simp [fractionText, hc]

theorem takes_amountPattern (prev : Option Char) (h : s.takeWhile (isFigureChar u) ≠ []) :
    ∃ m, Takes (amountPattern u) prev s m ∧ m.text = amountText u s := by
  have hwhole := takes_plus (p := isFigureChar u) prev h
  obtain ⟨m, hm, htext⟩ := takes_fraction u
    (Match.last ⟨s.takeWhile (isFigureChar u), s.dropWhile (isFigureChar u), none⟩ prev)
    (s.dropWhile (isFigureChar u))
  refine ⟨_, hwhole.seq hm, ?_⟩
  rw [amountText, ← htext]
  rfl

theorem takeWhile_ne_nil_of_hasFigure (h : hasFigure u rest = true) :
    (skipGap rest).takeWhile (isFigureChar u) ≠ [] := by
  rw [hasFigure] at h
  cases hgap : skipGap rest with
  | nil => simp [hgap] at h
  | cons c s =>
      have hc : isFigureChar u c = true := by simpa [hgap] using h
      simp [hc]

theorem takes_sign (prev : Option Char) (s : List Char) :
    ∃ m, Takes (opt (char '$')) prev s m ∧ m.rest = dropSign s := by
  cases s with
  | nil => exact ⟨_, takes_opt_of_run_eq_nil rfl, rfl⟩
  | cons c s =>
      by_cases hc : c = '$'
      · subst hc
        have hsign : Takes (char '$') prev ('$' :: s) ⟨['$'], s, none⟩ := takes_set prev rfl
        exact ⟨_, hsign.opt, rfl⟩
      · have hrun : Regex.run (char '$') prev (c :: s) = [] := by simp [char, Regex.run, hc]
        refine ⟨_, takes_opt_of_run_eq_nil hrun, ?_⟩
        simp [dropSign, hc]

/-- Up to the figure, every part takes as much as it can. -/
theorem takes_moneyValue (h : hasFigure u rest = true) : ∃ m, Takes (moneyValue u) none rest m ∧
    m.captured = some (amountText u (skipGap rest)) := by
  have hspace := takes_star isSpace none rest
  obtain ⟨m, hm, hrest⟩ := takes_sign
    (Match.last ⟨rest.takeWhile isSpace, rest.dropWhile isSpace, none⟩ none)
    (rest.dropWhile isSpace)
  have hspace' := takes_star isSpace
    (m.last (Match.last ⟨rest.takeWhile isSpace, rest.dropWhile isSpace, none⟩ none)) m.rest
  have hfigure := takeWhile_ne_nil_of_hasFigure h
  rw [skipGap, ← hrest] at hfigure ⊢
  obtain ⟨m', hm', htext⟩ := takes_amountPattern _ hfigure
  refine ⟨_, hspace.seq (hm.seq (hspace'.seq hm'.group)), ?_⟩
  rw [← htext]
  rfl

theorem skipGap_eq {gap sign gap' : List Char} {c : Char} (hgap : ∀ d ∈ gap, isSpace d = true)
    (hsign : sign = [] ∨ sign = ['$']) (hgap' : ∀ d ∈ gap', isSpace d = true)
    (hc : isSpace c = false) (hne : c ≠ '$') :
    skipGap (gap ++ (sign ++ (gap' ++ c :: s))) = c :: s := by
  have hstop : (gap' ++ c :: s).dropWhile isSpace = c :: s := by
    rw [List.dropWhile_append_of_pos hgap', List.dropWhile_cons_of_neg (by simp [hc])]
  rw [skipGap, List.dropWhile_append_of_pos hgap]
  rcases hsign with rfl | rfl
  · rw [List.nil_append, hstop]
    simp [dropSign, hne, hc]
  · rw [List.singleton_append, List.dropWhile_cons_of_neg (by decide), dropSign, hstop]

theorem isFigureChar_sign (u : Unicode) : isFigureChar u '$' = false := by
  have hdigit : isDigit u '$' = false := by
    rw [isDigit, u.decimal_ascii '$' (by decide)]
    rfl
  rw [isFigureChar, hdigit]
  rfl

theorem isFigureChar_of_isSpace (hspace : ∀ c, isSpace c = true → u.decimal c = none) {c : Char}
    (hc : isSpace c = true) : isFigureChar u c = false := by
  have hne : c ≠ ',' := by
    rintro rfl
    cases hc
  simp [isFigureChar, isDigit, hspace c hc, hne]

/-- Without a figure behind the gap there is no other way to match either. -/
theorem hasFigure_of_mem_run (hspace : ∀ c, isSpace c = true → u.decimal c = none)
    (h : m ∈ Regex.run (moneyValue u) none rest) : hasFigure u rest = true := by
  obtain ⟨m₁, hm₁, m₂, hm₂, rfl⟩ := mem_run_seq.1 h
  obtain ⟨m₃, hm₃, m₄, hm₄, rfl⟩ := mem_run_seq.1 hm₂
  obtain ⟨m₅, hm₅, m₆, hm₆, rfl⟩ := mem_run_seq.1 hm₄
  rw [Regex.run, List.mem_map] at hm₆
  obtain ⟨m₇, hm₇, rfl⟩ := hm₆
  obtain ⟨m₈, hm₈, m₉, hm₉, rfl⟩ := mem_run_seq.1 hm₇
  obtain ⟨hne, hfigure⟩ := mem_run_plus _ _ _ _ hm₈
  have hsign : m₃.text = [] ∨ m₃.text = ['$'] :=
    (mem_run_opt hm₃).elim (fun h => .inr (text_of_mem_run_char h)) .inl
  obtain ⟨c, s, hcs⟩ := List.exists_cons_of_ne_nil hne
  have hc : isFigureChar u c = true := hfigure c (hcs ▸ List.mem_cons_self)
  have hnot : isSpace c = false := by
    rw [← Bool.not_eq_true]
    intro hcs
    rw [isFigureChar_of_isSpace hspace hcs] at hc
    cases hc
  have hdollar : c ≠ '$' := by
    rintro rfl
    rw [isFigureChar_sign] at hc
    cases hc
  have hrest : rest = m₁.text ++ (m₃.text ++ (m₅.text ++ c :: (s ++ m₈.rest))) := by
    rw [← List.cons_append, ← hcs, text_append_rest _ _ _ _ hm₈, text_append_rest _ _ _ _ hm₅,
      text_append_rest _ _ _ _ hm₃, text_append_rest _ _ _ _ hm₁]
  have hgap := skipGap_eq (s := s ++ m₈.rest) (starRuns_spec isSpace _ m₁ hm₁).2.1 hsign
    (starRuns_spec isSpace _ m₅ hm₅).2.1 hnot hdollar
  rw [hasFigure, hrest, hgap, List.head?_cons, Option.any_some, hc]

theorem hasValue_moneyValue (hspace : ∀ c, isSpace c = true → u.decimal c = none) :
    hasValue (moneyValue u) = hasFigure u := by
  funext rest
  rw [hasValue, Bool.eq_iff_iff, Bool.not_eq_true', List.isEmpty_eq_false_iff]
  constructor
  · intro hrun
    obtain ⟨m, hm⟩ := List.exists_mem_of_ne_nil _ hrun
    exact hasFigure_of_mem_run hspace hm
  · intro hfigure
    obtain ⟨m, hm, -⟩ := takes_moneyValue hfigure
    exact List.ne_nil_of_mem hm.mem

end Amount

end Underwriting
