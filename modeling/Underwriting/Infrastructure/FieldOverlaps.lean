import Underwriting.Infrastructure.LabelledFields
import Underwriting.Infrastructure.PhraseOverlaps
import Underwriting.Python.Places

/-!
# Injection phrases next to an amount

What is read as a labelled amount is the label and a tail of white space, signs and digits. No
injection phrase begins in such a text, since none begins like a part of the label, and the tail
has no letters. None reaches into it either, with one exception: the last letter of
`disregard … above` can be the first one of `EXISTING_MONTHLY_DEBT`.
-/

namespace Underwriting

open Python Python.Regex

/-! ## The text of a labelled amount -/

/-- The label as it is spelled in a text. -/
def labelWord (label : String) : List Char := label.toList.map Char.toLower

/-- `\s*:` and the expression for an amount. -/
def moneyTail (u : Unicode) : Regex := seq (star isSpace) <| seq (char ':') (moneyValue u)

/-- A character behind the label. -/
def isTailChar (u : Unicode) (c : Char) : Bool :=
  isSpace c || isDigit u c || [':', '$', ',', '.'].contains c

section Tail

variable {u : Unicode} {label : String} {prev next : Option Char} {v w : List Char} {c q : Char}

theorem lookFree_moneyFieldPattern (u : Unicode) (label : String) :
    lookFree (moneyFieldPattern u label) = true := by
  rw [moneyFieldPattern_eq]
  exact lookFree_fieldPattern label lookFree_moneyValue

theorem isDigit_ascii (u : Unicode) (hc : c.toNat < 128) : isDigit u c = c.isDigit := by
  rw [isDigit, u.decimal_ascii c hc]
  cases c.isDigit <;> rfl

/-- The tail has no letters. -/
theorem ne_of_isTailChar (hq : q.isLower = true) (hc : isTailChar u c = true) : c ≠ q := by
  rintro rfl
  have hboth := Bool.and_eq_true_iff.1 hq
  have hrange : 97 ≤ c.toNat ∧ c.toNat ≤ 122 :=
    ⟨of_decide_eq_true hboth.1, of_decide_eq_true hboth.2⟩
  have hspace : isSpace c = false := by
    simp only [isSpace, List.mem_cons, List.not_mem_nil, or_false, decide_eq_false_iff_not]
    omega
  have hdigit : isDigit u c = false := by
    rw [isDigit_ascii u (by omega), Char.isDigit, Bool.and_eq_false_iff]
    right
    have hlarge : ¬ c.toNat ≤ 57 := by omega
    exact decide_eq_false hlarge
  rw [isTailChar, hspace, hdigit, Bool.false_or, Bool.false_or, List.contains_iff_mem] at hc
  simp only [List.mem_cons, List.not_mem_nil, or_false] at hc
  rcases hc with rfl | rfl | rfl | rfl <;> cases hq

/-- The decimal digits are neither white space nor letters, so none folds to another character.
This holds of the tables of every version. -/
def PlainDigits (u : Unicode) : Prop :=
  ∀ c, isDigit u c = true → isSpace c = false ∧ caseFold c = c

theorem caseFold_of_isTailChar (hdigits : PlainDigits u) (hc : isTailChar u c = true) :
    caseFold c = c := by
  rw [isTailChar, Bool.or_eq_true, Bool.or_eq_true, List.contains_iff_mem] at hc
  rcases hc with (hc | hc) | hc
  · exact caseFold_of_isSpace hc
  · exact (hdigits c hc).2
  · simp only [List.mem_cons, List.not_mem_nil, or_false] at hc
    rcases hc with rfl | rfl | rfl | rfl <;> decide

theorem over_moneyTail (u : Unicode) : Over (fun c => isTailChar u c = true) (moneyTail u) := by
  have hspace (c : Char) (hc : isSpace c = true) : isTailChar u c = true := by
    simp [isTailChar, hc]
  have hdigit (c : Char) (hc : isDigit u c = true) : isTailChar u c = true := by
    simp [isTailChar, hc]
  have hsign (d : Char) (hd : isTailChar u d = true) (c : Char) (hc : (c == d) = true) :
      isTailChar u c = true := by
    rwa [beq_iff_eq.1 hc]
  have hfigure (c : Char) (hc : (isDigit u c || c == ',') = true) : isTailChar u c = true := by
    rw [Bool.or_eq_true] at hc
    exact hc.elim (hdigit c) (hsign ',' (by simp [isTailChar]) c)
  exact ⟨hspace, hsign ':' (by simp [isTailChar]), hspace,
    over_opt (hsign '$' (by simp [isTailChar])), hspace, over_plus hfigure,
    over_opt ⟨hsign '.' (by simp [isTailChar]), over_plus hdigit⟩⟩

/-- A labelled amount keeps out of the placeholder, like its label. -/
theorem foreign_moneyFieldPattern (u : Unicode) (hlabel : Foreign (word label) placeholder.toList) :
    Foreign (moneyFieldPattern u label) placeholder.toList where
  inner := by
    refine ⟨hlabel.inner, (over_moneyTail u).mono (unbracketed_set ?_)⟩
    constructor
    · rw [isTailChar, isDigit_ascii u (by decide)]
      decide
    · rw [isTailChar, isDigit_ascii u (by decide)]
      decide
  meets := .inl hlabel.meets
  repl_ne_nil := placeholder_ne_nil

/-- An amount has no white space. -/
theorem over_amountPattern (hdigits : PlainDigits u) :
    Over (fun c => isSpace c = false) (amountPattern u) := by
  have hdigit (c : Char) (hc : isDigit u c = true) : isSpace c = false := (hdigits c hc).1
  have hsign (d : Char) (hd : isSpace d = false) (c : Char) (hc : (c == d) = true) :
      isSpace c = false := by
    rwa [beq_iff_eq.1 hc]
  have hfigure (c : Char) (hc : (isDigit u c || c == ',') = true) : isSpace c = false := by
    rw [Bool.or_eq_true] at hc
    exact hc.elim (hdigit c) (hsign ',' rfl c)
  exact ⟨over_plus hfigure, over_opt ⟨hsign '.' rfl, over_plus hdigit⟩⟩

/-- So the tail does not end in white space. -/
theorem getLast?_of_accepts_moneyTail (hdigits : PlainDigits u)
    (h : Accepts (moneyTail u) prev w next) :
    ∀ c, w.getLast? = some c → isSpace c = false := by
  obtain ⟨gap, _, rfl, -, colon, _, rfl, -, gap', _, rfl, -, sign, _, rfl, -, gap'', amount, rfl, -,
    hamount⟩ := h
  have hmeets : Meets (fun _ => True) (amountPattern u) := .inl (.inl fun _ _ => trivial)
  have hne : amount ≠ [] := ne_nil_of_accepts hmeets hamount
  intro c hc
  apply over_of_accepts (over_amountPattern hdigits) hamount
  simp only [List.getLast?_append, Option.or_assoc] at hc
  rw [getLast?_or_of_ne_nil hne] at hc
  exact List.mem_of_getLast? hc

/-- The text of a labelled amount is its label and a tail. -/
theorem exists_of_accepts_moneyFieldPattern (hlower : isLower (labelWord label) = true)
    (h : Accepts (moneyFieldPattern u label) prev v next) :
    ∃ body tail prev' next', v = body ++ tail ∧ body.map caseFold = labelWord label ∧
      Accepts (moneyTail u) prev' tail next' := by
  obtain ⟨body, tail, rfl, hbody, htail⟩ := h
  exact ⟨body, tail, _, _, rfl, map_caseFold_of_accepts_label hlower hbody, htail⟩

end Tail

/-! ## Phrases do not begin in it -/

section Start

variable {u : Unicode} {label : String} {prev next : Option Char} {v : List Char} {r : Regex}

/-- A phrase does not begin in the label, unless it would go on with one of the letters `bad` right
behind it, and not in the tail. -/
theorem noStart_moneyField {bad : List Char} {ps : List (List Char)} (hdigits : PlainDigits u)
    (hr : Begins r ps) (hbad : bad.all Char.isLower = true)
    (hps : (ps.all fun p => p.head?.any Char.isLower) = true)
    (hlower : isLower (labelWord label) = true)
    (hstart : startFree bad ps (labelWord label) = true)
    (hv : Accepts (moneyFieldPattern u label) prev v next) : NoStart r v := by
  obtain ⟨body, tail, _, _, rfl, hbody, htail⟩ := exists_of_accepts_moneyFieldPattern hlower hv
  have hletter (c : Char) (hc : c ∈ tail) (q : Char) (hq : q.isLower = true) : q ≠ caseFold c := by
    have htailChar := over_of_accepts (over_moneyTail u) htail c hc
    rw [caseFold_of_isTailChar hdigits htailChar]
    exact (ne_of_isTailChar hq htailChar).symm
  have hmeets : Meets (fun _ => True) (moneyTail u) := .inr (.inl fun _ _ => trivial)
  have hne : tail ≠ [] := ne_nil_of_accepts hmeets htail
  apply noStart_append hr (hbody ▸ hstart)
  · intro y c hc hmem
    rw [List.head?_append_of_ne_nil tail hne] at hc
    exact hletter c (List.mem_of_mem_head? hc) _ (List.all_eq_true.1 hbad _ hmem) rfl
  · intro c hc p hp
    obtain ⟨q, hq, hlow⟩ := (Option.any_eq_true _ _).1 (List.all_eq_true.1 hps p hp)
    exact ⟨q, hq, hletter c hc q hlow⟩

theorem noStart_systemLine_moneyField (hdigits : PlainDigits u)
    (hlower : isLower (labelWord label) = true) (hline : lacksLine [labelWord label] = true)
    (hv : Accepts (moneyFieldPattern u label) prev v next) : NoStart systemLine v := by
  obtain ⟨body, tail, _, _, rfl, hbody, htail⟩ := exists_of_accepts_moneyFieldPattern hlower hv
  apply noStart_systemLine_append
  · exact noStart_of_lacksLine hline (hbody ▸ List.mem_singleton_self _)
  · intro c hc
    have htailChar := over_of_accepts (over_moneyTail u) htail c hc
    rw [caseFold_of_isTailChar hdigits htailChar]
    exact ne_of_isTailChar rfl htailChar
  · exact getLast?_of_accepts_moneyTail hdigits htail

end Start

/-! ## Phrases do not reach into it -/

section Reach

variable {u : Unicode} {label : String} {prev next : Option Char} {v : List Char} {r : Regex}

theorem noReach_moneyField {ws : List (List Char)} (hr : Spells r ws)
    (hlower : isLower (labelWord label) = true)
    (hreach : reachFree [] ws (labelWord label) = true)
    (hv : Accepts (moneyFieldPattern u label) prev v next) : NoReach r v := by
  obtain ⟨body, tail, _, _, rfl, hbody, -⟩ := exists_of_accepts_moneyFieldPattern hlower hv
  exact (noReach_of_reachFree hr (hbody ▸ hreach)).append tail

/-- A match that ends in a colon and has no `_` does not reach into the label. -/
theorem noReach_moneyField_of_getLast (hr : Over (fun c => caseFold c ≠ '_') r)
    (hlast : ∀ prev w next, Accepts r prev w next → w.getLast? = some ':')
    (hlower : isLower (labelWord label) = true)
    (hlabel : ':' ∉ labelWord label ∧ '_' ∈ labelWord label)
    (hv : Accepts (moneyFieldPattern u label) prev v next) : NoReach r v := by
  obtain ⟨body, tail, _, _, rfl, hbody, -⟩ := exists_of_accepts_moneyFieldPattern hlower hv
  rw [← hbody] at hlabel
  obtain ⟨c, hc, hfold⟩ := List.mem_map.1 hlabel.2
  apply NoReach.append
  exact noReach_of_getLast hr hlast (fun hcolon => hlabel.1 (List.mem_map_of_mem hcolon))
    ⟨c, hc, not_not.2 hfold⟩

/-- A match that reaches into the label takes one of the exceptions from it. -/
theorem mem_of_accepts_into_moneyField {ws ex : List (List Char)} (hr : Spells r ws)
    (hlower : isLower (labelWord label) = true)
    (hreach : reachFree ex ws (labelWord label) = true)
    (hv : Accepts (moneyFieldPattern u label) prev v next) {w m y rest : List Char}
    {prev' next' : Option Char} (hw : w ≠ []) (hm : m ≠ []) (hsplit : v ++ y = m ++ rest)
    (haccepts : Accepts r prev' (w ++ m) next') : m.map caseFold ∈ ex := by
  obtain ⟨body, tail, _, _, rfl, hbody, -⟩ := exists_of_accepts_moneyFieldPattern hlower hv
  rw [List.append_assoc] at hsplit
  exact mem_of_reachFree hr (hbody ▸ hreach) hw hm hsplit haccepts

/-- `act as an` does not reach into a label, since the second letter of the label would follow. -/
theorem noReach_actAs_moneyField (hlower : isLower (labelWord label) = true)
    (hreach : reachFree ["n".toList, "e".toList] actWords (labelWord label) = true)
    (hsecond : (labelWord label)[1]?.any plainLetter = true)
    (hv : Accepts (moneyFieldPattern u label) prev v next) : NoReach (actAs u) v := by
  intro w m y rest prev' next' hw hm hsplit haccepts
  have hmem :=
    mem_of_accepts_into_moneyField (spells_actAs u) hlower hreach hv hw hm hsplit haccepts
  obtain ⟨body, tail, _, _, rfl, hbody, -⟩ := exists_of_accepts_moneyFieldPattern hlower hv
  have hlength : m.length = 1 := by
    rw [← List.length_map (f := caseFold)]
    simp only [List.mem_cons, List.not_mem_nil, or_false] at hmem
    rcases hmem with hmem | hmem <;> rw [hmem] <;> rfl
  obtain ⟨c, rfl⟩ := List.length_eq_one_iff.1 hlength
  obtain ⟨q, hq, hletter⟩ := (Option.any_eq_true _ _).1 hsecond
  rw [← hbody, List.getElem?_map, Option.map_eq_some_iff] at hq
  obtain ⟨e, he, rfl⟩ := hq
  have hnext : rest.head? = some e := by
    cases body with
    | nil => cases he
    | cons a body =>
        obtain ⟨-, rfl⟩ := List.cons.inj hsplit
        rw [List.getElem?_cons_succ, ← List.head?_eq_getElem?] at he
        simp [he]
  have hfree := (accepts_actAs_iff.1 haccepts).2.2
  rw [hnext, Option.some_or, Free, Option.any_some, isWord_of_caseFold u hletter] at hfree
  cases hfree

end Reach

/-! ## Labels -/

/-- What keeps the phrases apart from a label, `disregard … above` excepted. -/
@[mk_iff] structure PlainLabel (label : String) : Prop where
  lower : isLower (labelWord label) = true
  unbracketed : (label.toList.any fun p =>
    sameIgnoringCase p '[' || sameIgnoringCase p ']') = false
  underscore : '_' ∈ label.toList ∧ '_' ∈ labelWord label
  noColon : ':' ∉ labelWord label
  line : lacksLine [labelWord label] = true
  second : (labelWord label)[1]?.any plainLetter = true
  apart : ∀ ws ∈ [ignoreWords, youWords, revealWords], apart ws [labelWord label] = true
  newStart : startFree [] ["new instructions".toList] (labelWord label) = true
  actStart : startFree [] actWords (labelWord label) = true
  actReach : reachFree ["n".toList, "e".toList] actWords (labelWord label) = true

instance (label : String) : Decidable (PlainLabel label) :=
  decidable_of_iff' _ (plainLabel_iff label)

/-- Every phrase begins with a letter. -/
theorem isLower_head_of_mem : ∀ ws ∈ [ignoreWords, disregardWords, youWords, actWords, revealWords,
    ["new instructions".toList]], (ws.all fun p => p.head?.any Char.isLower) = true := by
  decide

section Labels

variable {u : Unicode} {label : String} {r : Regex}

theorem PlainLabel.outside (hlabel : PlainLabel label) {prev next : Option Char} {v : List Char}
    (hv : Accepts (moneyFieldPattern u label) prev v next) : Outside placeholder.toList v := by
  have hforeign : Foreign (word label) placeholder.toList :=
    ⟨unbracketed_word hlabel.unbracketed, meets_word_of_foreign hlabel.underscore.1 (by decide),
      placeholder_ne_nil⟩
  exact (foreign_moneyFieldPattern u hforeign).outside hv

/-- A phrase whose spellings do not overlap the label overlaps no figure with it. -/
theorem PlainLabel.spares_of_spells {bad : List Char} {ws : List (List Char)}
    (hlabel : PlainLabel label) (hdigits : PlainDigits u) (hr : Spells r ws)
    (hbad : bad.all Char.isLower = true)
    (hws : (ws.all fun p => p.head?.any Char.isLower) = true)
    (hstart : startFree bad ws (labelWord label) = true)
    (hreach : reachFree [] ws (labelWord label) = true) :
    Spares r placeholder.toList (moneyFieldPattern u label) := by
  intro prev v next hv
  exact ⟨⟨noStart_moneyField hdigits hr.begins hbad hws hlabel.lower hstart hv,
    noReach_moneyField hr hlabel.lower hreach hv⟩, hlabel.outside hv⟩

theorem PlainLabel.spares_of_apart {ws : List (List Char)} (hlabel : PlainLabel label)
    (hdigits : PlainDigits u) (hr : Spells r ws)
    (hws : (ws.all fun p => p.head?.any Char.isLower) = true)
    (hapart : Regex.apart ws [labelWord label] = true) :
    Spares r placeholder.toList (moneyFieldPattern u label) := by
  have hcheck := List.all_eq_true.1 hapart _ (List.mem_singleton_self _)
  rw [Bool.and_eq_true] at hcheck
  exact hlabel.spares_of_spells hdigits hr rfl hws hcheck.1 hcheck.2

/-- Nor does a phrase that ends in a colon and lacks the `_` of the label. -/
theorem PlainLabel.spares_of_colon (hlabel : PlainLabel label)
    (hover : Over (fun c => caseFold c ≠ '_') r)
    (hlast : ∀ prev w next, Accepts r prev w next → w.getLast? = some ':')
    (hstart : ∀ prev v next, Accepts (moneyFieldPattern u label) prev v next → NoStart r v) :
    Spares r placeholder.toList (moneyFieldPattern u label) := by
  intro prev v next hv
  have hreach := noReach_moneyField_of_getLast hover hlast hlabel.lower
    ⟨hlabel.noColon, hlabel.underscore.2⟩ hv
  exact ⟨⟨hstart _ _ _ hv, hreach⟩, hlabel.outside hv⟩

/-- All phrases but `disregard … above` leave the figures with such a label alone. -/
theorem PlainLabel.spares (hlabel : PlainLabel label) (hdigits : PlainDigits u) :
    ∀ r ∈ [ignoreInstructions, youAreNow u, systemLine, newInstructions, actAs u, revealPrompt],
      Spares r placeholder.toList (moneyFieldPattern u label) := by
  simp only [List.forall_mem_cons, List.not_mem_nil, false_implies, implies_true, and_true]
  refine ⟨?_, ?_, ?_, ?_, ?_, ?_⟩
  · exact hlabel.spares_of_apart hdigits spells_ignoreInstructions
      (isLower_head_of_mem _ (by simp)) (hlabel.apart _ (by simp))
  · exact hlabel.spares_of_apart hdigits (spells_youAreNow u)
      (isLower_head_of_mem _ (by simp)) (hlabel.apart _ (by simp))
  · apply hlabel.spares_of_colon (over_systemLine (by decide) (by decide) rfl)
      fun _ _ _ => getLast?_of_accepts_systemLine
    intro prev v next hv
    exact noStart_systemLine_moneyField hdigits hlabel.lower hlabel.line hv
  · apply hlabel.spares_of_colon (over_newInstructions (by decide) (by decide) rfl)
      fun _ _ _ => getLast?_of_accepts_newInstructions
    intro prev v next hv
    exact noStart_moneyField hdigits begins_newInstructions rfl
      (isLower_head_of_mem _ (by simp)) hlabel.lower hlabel.newStart hv
  · intro prev v next hv
    have hstart := noStart_moneyField hdigits (spells_actAs u).begins rfl
      (isLower_head_of_mem _ (by simp)) hlabel.lower hlabel.actStart hv
    have hreach := noReach_actAs_moneyField hlabel.lower hlabel.actReach hlabel.second hv
    exact ⟨⟨hstart, hreach⟩, hlabel.outside hv⟩
  · exact hlabel.spares_of_apart hdigits spells_revealPrompt
      (isLower_head_of_mem _ (by simp)) (hlabel.apart _ (by simp))

end Labels

end Underwriting
