import Underwriting.Infrastructure.PiiRedaction
import Underwriting.Python.Substitution

/-!
# Redaction is complete

No PII pattern matches in a redacted text, so redacting again changes nothing. The placeholder
begins and ends with a star, which no pattern consumes, and a match needs an `@` or a digit,
which the placeholder lacks: no match reaches into it. Next to the placeholder a word boundary
holds no more than next to the match it stands for, since the three patterns with boundaries
have one at either end and the fourth, which has none, is substituted first.
-/

namespace Underwriting

open Python Python.Regex

/-- No PII pattern matches anywhere in the text. -/
def Clean (u : Unicode) (s : String) : Prop :=
  ∀ pattern ∈ piiPatterns u, search pattern none s.toList = none

/-! ## The placeholder and the patterns -/

section Patterns

variable (u : Unicode)

theorem head?_redacted : redacted.toList.head? = some '*' := by decide

theorem getLast?_redacted : redacted.toList.getLast? = some '*' := by decide

theorem isDigit_eq_false {c : Char} (hascii : c.toNat < 128) (hc : c.isDigit = false) :
    isDigit u c = false := by
  rw [isDigit, u.decimal_ascii c hascii, hc]
  rfl

/-- A character that no text without PII needs to have. -/
def Telltale (c : Char) : Prop := c = '@' ∨ isDigit u c = true

theorem not_telltale {c : Char} (hascii : c.toNat < 128) (hc : c.isDigit = false) (hat : c ≠ '@') :
    ¬ Telltale u c := by
  rintro (h | h)
  · exact hat h
  · rw [isDigit_eq_false u hascii hc] at h
    cases h

/-- ASCII without a digit and without an `@`. -/
def plainText (s : String) : Bool :=
  s.toList.all fun c => c.toNat < 128 && !c.isDigit && c != '@'

theorem not_telltale_of_plainText {s : String} (h : plainText s = true) {c : Char}
    (hc : c ∈ s.toList) : ¬ Telltale u c := by
  have hplain := List.all_eq_true.1 h c hc
  simp only [Bool.and_eq_true, decide_eq_true_eq, Bool.not_eq_true', bne_iff_ne, ne_eq] at hplain
  exact not_telltale u hplain.1.1 hplain.1.2 hplain.2

theorem not_mem_redacted_of_telltale {c : Char} (hc : Telltale u c) : c ∉ redacted.toList := by
  intro hmem
  have hplain : plainText redacted = true := by decide
  exact not_telltale_of_plainText u hplain hmem hc

/-- Every match has such a character. -/
theorem meets_piiPatterns : ∀ r ∈ piiPatterns u, Meets (Telltale u) r := by
  have hdigit : Meets (Telltale u) (set (isDigit u)) := fun _ hc => .inr hc
  have hat : Meets (Telltale u) (char '@') := by
    intro c hc
    exact .inl (by simpa using hc)
  intro r hr
  simp only [piiPatterns, List.mem_cons, List.not_mem_nil, or_false] at hr
  rcases hr with rfl | rfl | rfl | rfl
  · exact .inr (.inl hat)
  · exact .inr (.inl (.inl hdigit))
  · exact .inr (.inr (.inr (.inl (.inl hdigit))))
  · exact .inr (.inl (.inl (.inl hdigit)))

/-- The characters that neither begin nor end the placeholder. -/
def Inner (c : Char) : Prop :=
  redacted.toList.head? ≠ some c ∧ redacted.toList.getLast? ≠ some c

theorem inner_set {p : Char → Bool} (hp : p '*' = false) : Over Inner (set p) := by
  intro c hc
  have hne : '*' ≠ c := by
    rintro rfl
    rw [hp] at hc
    cases hc
  rw [Inner, head?_redacted, getLast?_redacted, ne_eq, Option.some.injEq]
  exact ⟨hne, hne⟩

theorem inner_digit : Over Inner (set (isDigit u)) :=
  inner_set (isDigit_eq_false u (by decide) (by decide))

/-- A PII pattern that keeps clear of the ends of the placeholder is foreign to it. -/
theorem foreign_of_inner {r : Regex} (hr : r ∈ piiPatterns u) (hinner : Over Inner r) :
    Foreign r redacted.toList where
  inner := hinner
  meets := (meets_piiPatterns u r hr).mono fun _ hc => not_mem_redacted_of_telltale u hc
  repl_ne_nil := by decide

theorem inner_email : Over Inner emailPattern := by
  apply And.intro (over_plus (inner_set (by decide)))
  apply And.intro (inner_set (by decide))
  apply And.intro (over_plus (inner_set (by decide)))
  apply And.intro (inner_set (by decide))
  exact ⟨over_times (inner_set (by decide)) 2, inner_set (by decide)⟩

theorem inner_ssn : Over Inner (ssnPattern u) := by
  have hdigits := over_times (inner_digit u)
  apply And.intro trivial
  apply And.intro (hdigits 3)
  apply And.intro (inner_set (by decide))
  apply And.intro (hdigits 2)
  apply And.intro (inner_set (by decide))
  exact ⟨hdigits 4, trivial⟩

theorem inner_phone : Over Inner (phonePattern u) := by
  have hdigits := over_times (inner_digit u)
  apply And.intro trivial
  apply And.intro
  · apply over_opt
    apply And.intro (over_opt (inner_set (by decide)))
    exact ⟨inner_set (by decide), over_opt (inner_set (by decide))⟩
  apply And.intro (over_opt (inner_set (by decide)))
  apply And.intro (hdigits 3)
  apply And.intro (over_opt (inner_set (by decide)))
  apply And.intro (over_opt (inner_set (by decide)))
  apply And.intro (hdigits 3)
  apply And.intro (over_opt (inner_set (by decide)))
  exact ⟨hdigits 4, trivial⟩

theorem inner_cardNumber : Over Inner (cardNumberPattern u) := by
  have hdigit : Over Inner (seq (set (isDigit u)) (opt (set fun c => " -".toList.contains c))) :=
    ⟨inner_digit u, over_opt (inner_set (by decide))⟩
  apply And.intro trivial
  exact ⟨over_times hdigit 13, over_upTo hdigit 3, trivial⟩

theorem delimited_ssn : Delimited (wordEdge u) (ssnPattern u) :=
  .intro (.seq rfl (.seq rfl (.seq rfl (.seq rfl (.seq rfl .look)))))

theorem delimited_phone : Delimited (wordEdge u) (phonePattern u) :=
  .intro (.seq rfl (.seq rfl (.seq rfl (.seq rfl (.seq rfl (.seq rfl (.seq rfl (.seq rfl
    .look))))))))

theorem delimited_cardNumber : Delimited (wordEdge u) (cardNumberPattern u) :=
  .intro (.seq rfl (.seq rfl .look))

end Patterns

/-! ## The redacted text -/

section Redaction

variable (u : Unicode)

theorem foreign_email : Foreign emailPattern redacted.toList :=
  foreign_of_inner .ascii (by simp [piiPatterns]) inner_email

theorem foreign_ssn : Foreign (ssnPattern u) redacted.toList :=
  foreign_of_inner u (by simp [piiPatterns]) (inner_ssn u)

theorem foreign_phone : Foreign (phonePattern u) redacted.toList :=
  foreign_of_inner u (by simp [piiPatterns]) (inner_phone u)

theorem foreign_cardNumber : Foreign (cardNumberPattern u) redacted.toList :=
  foreign_of_inner u (by simp [piiPatterns]) (inner_cardNumber u)

/-- Each pattern is traceable through itself. -/
theorem traceable_self : ∀ r ∈ piiPatterns u, Traceable r r redacted.toList := by
  intro r hr
  simp only [piiPatterns, List.mem_cons, List.not_mem_nil, or_false] at hr
  rcases hr with rfl | rfl | rfl | rfl
  · exact foreign_email.traceable_of_lookFree rfl emailPattern
  · exact (foreign_ssn u).traceable_of_delimited (delimited_ssn u) (delimited_ssn u)
  · exact (foreign_phone u).traceable_of_delimited (delimited_phone u) (delimited_phone u)
  · exact (foreign_cardNumber u).traceable_of_delimited (delimited_cardNumber u)
      (delimited_cardNumber u)

/-- And through every later one. -/
theorem traceable_later :
    (piiPatterns u).Pairwise fun t r => Traceable r t redacted.toList := by
  have hemail := fun r => foreign_email.traceable_of_lookFree rfl r
  have hssn := foreign_ssn u
  simp only [piiPatterns, List.pairwise_cons, List.mem_cons, List.not_mem_nil, or_false,
    forall_eq_or_imp, forall_eq, false_imp_iff, implies_true, List.Pairwise.nil, and_true]
  constructor
  · exact ⟨hemail _, hemail _, hemail _⟩
  constructor
  · exact ⟨hssn.traceable_of_delimited (delimited_ssn u) (delimited_phone u),
      hssn.traceable_of_delimited (delimited_ssn u) (delimited_cardNumber u)⟩
  · exact (foreign_phone u).traceable_of_delimited (delimited_phone u) (delimited_cardNumber u)

theorem toList_redactText (text : String) :
    (redactText u text).toList =
      (piiPatterns u).foldl (fun s pattern => sub pattern redacted.toList s) text.toList := by
  by_cases h : text = ""
  · subst h
    rfl
  · rw [redactText, if_neg h, String.toList_ofList]

theorem clean_redactText (text : String) : Clean u (redactText u text) := by
  intro pattern hpattern
  rw [toList_redactText, search_eq_none_iff]
  exact not_occurs_foldl_self (traceable_self u) (traceable_later u) text.toList pattern hpattern

theorem redactText_of_clean {text : String} (h : Clean u text) : redactText u text = text := by
  have hfold : ∀ ps : List Regex, (∀ pattern ∈ ps, search pattern none text.toList = none) →
      ps.foldl (fun s pattern => sub pattern redacted.toList s) text.toList = text.toList := by
    intro ps hps
    induction ps with
    | nil => rfl
    | cons pattern ps ih =>
        rw [List.foldl_cons, sub_of_search_eq_none _ _ _ (hps pattern List.mem_cons_self)]
        exact ih fun q hq => hps q (List.mem_cons_of_mem pattern hq)
  apply String.toList_inj.1
  rw [toList_redactText]
  exact hfold (piiPatterns u) h

/-- The clean texts are the fixed points of the redaction. -/
theorem redactText_eq_self_iff (text : String) : redactText u text = text ↔ Clean u text := by
  constructor
  · intro h
    rw [← h]
    exact clean_redactText u text
  · exact redactText_of_clean u

theorem clean_of_plainText {s : String} (h : plainText s = true) : Clean u s := by
  intro pattern hpattern
  rw [search_eq_none_iff]
  apply not_occurs_of_forall (meets_piiPatterns u pattern hpattern)
  intro c hc
  exact not_telltale_of_plainText u h hc

/-- No pattern matches in a redacted text, and redacting twice is redacting once. -/
theorem redaction_complete_idempotent (text : String) :
    (∀ pattern ∈ piiPatterns u, search pattern none (redactText u text).toList = none) ∧
      redactText u (redactText u text) = redactText u text :=
  ⟨clean_redactText u text, redactText_of_clean u (clean_redactText u text)⟩

end Redaction

end Underwriting
