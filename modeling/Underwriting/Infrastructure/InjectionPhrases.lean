import Underwriting.Infrastructure.PromptGuard
import Underwriting.Python.Substitution

/-!
# What the prompt guard replaces

The placeholder is bracketed, and none of the seven patterns consumes a bracket. Each of them
consumes a letter that the placeholder lacks. So no phrase reaches into a placeholder, and a
word that is not in the text is not in the sanitized text.
-/

namespace Underwriting

open Python Python.Regex

/-! ## The placeholder -/

theorem head?_placeholder : placeholder.toList.head? = some '[' := by decide

theorem getLast?_placeholder : placeholder.toList.getLast? = some ']' := by decide

theorem placeholder_ne_nil : placeholder.toList ≠ [] := by decide

/-- The characters that neither begin nor end the placeholder. -/
def Unbracketed (c : Char) : Prop :=
  placeholder.toList.head? ≠ some c ∧ placeholder.toList.getLast? ≠ some c

theorem unbracketed_iff (c : Char) : Unbracketed c ↔ '[' ≠ c ∧ ']' ≠ c := by
  rw [Unbracketed, head?_placeholder, getLast?_placeholder, ne_eq, ne_eq, Option.some.injEq,
    Option.some.injEq]

theorem unbracketed_set {p : Char → Bool} (h : p '[' = false ∧ p ']' = false) :
    ∀ c, p c = true → Unbracketed c := by
  intro c hc
  rw [unbracketed_iff]
  constructor
  · rintro rfl
    rw [h.1] at hc
    cases hc
  · rintro rfl
    rw [h.2] at hc
    cases hc

theorem unbracketed_word {text : String}
    (h : (text.toList.any fun p => sameIgnoringCase p '[' || sameIgnoringCase p ']') = false) :
    Over Unbracketed (word text) := by
  apply over_word
  intro p hp
  have hclear := List.any_eq_false.1 h p hp
  rw [Bool.not_eq_true, Bool.or_eq_false_iff] at hclear
  exact unbracketed_set hclear

theorem meets_word_of_foreign {text : String} {p : Char} (hp : p ∈ text.toList)
    (h : placeholder.toList.any (sameIgnoringCase p) = false) :
    Meets (· ∉ placeholder.toList) (word text) := by
  apply meets_word hp
  intro c hc hmem
  exact List.any_eq_false.1 h c hmem hc

/-! ## The patterns -/

/-- Every phrase has a letter that the placeholder lacks. -/
theorem meets_injectionPatterns (u : Unicode) :
    ∀ r ∈ injectionPatterns u, Meets (· ∉ placeholder.toList) r := by
  have hnew := @meets_word_of_foreign "new instructions" 'w' (by simp) (by decide)
  intro r hr
  simp only [injectionPatterns, List.mem_cons, List.not_mem_nil, or_false] at hr
  rcases hr with rfl | rfl | rfl | rfl | rfl | rfl | rfl
  · exact .inl (meets_word_of_foreign (p := 'g') (by simp) (by decide))
  · exact .inl (meets_word_of_foreign (p := 'g') (by simp) (by decide))
  · exact .inr (.inl (meets_word_of_foreign (p := 'y') (by simp) (by decide)))
  · exact .inr (.inr (.inl (meets_word_of_foreign (p := 'y') (by simp) (by decide))))
  · exact .inl hnew
  · exact .inr (.inl (meets_word_of_foreign (p := 's') (by simp) (by decide)))
  · exact .inl (meets_word_of_foreign (p := 'v') (by simp) (by decide))

/-- No phrase has a bracket. -/
theorem unbracketed_injectionPatterns (u : Unicode) :
    ∀ r ∈ injectionPatterns u, Over Unbracketed r := by
  have hspace : ∀ c, isSpace c = true → Unbracketed c := unbracketed_set (by decide)
  have hcolon : ∀ c, (c == ':') = true → Unbracketed c := unbracketed_set (by decide)
  have hnever : ∀ c : Char, false = true → Unbracketed c := fun c hc => absurd hc (by simp)
  have hword (text : String)
      (h : (text.toList.any fun p => sameIgnoringCase p '[' || sameIgnoringCase p ']') = false) :
      Over Unbracketed (word text) := unbracketed_word h
  have hearlier : Over Unbracketed
      (alt (word "previous") (alt (word "prior") (alt (word "above") (set fun _ => false)))) :=
    ⟨hword _ (by decide), hword _ (by decide), hword _ (by decide), hnever⟩
  have hquantified (first : String) (r : Regex)
      (h : (first.toList.any fun p => sameIgnoringCase p '[' || sameIgnoringCase p ']') = false)
      (hr : Over Unbracketed r) : Over Unbracketed
        (seq (word first) (seq (opt (word "all ")) (seq (opt (word "the ")) r))) :=
    ⟨hword _ h, over_opt (hword _ (by decide)), over_opt (hword _ (by decide)), hr⟩
  have hnew := hword "new instructions" (by decide)
  intro r hr
  simp only [injectionPatterns, List.mem_cons, List.not_mem_nil, or_false] at hr
  rcases hr with rfl | rfl | rfl | rfl | rfl | rfl | rfl
  · exact hquantified _ _ (by decide) ⟨hearlier, hword _ (by decide)⟩
  · exact hquantified _ _ (by decide) hearlier
  · exact ⟨trivial, hword _ (by decide), trivial⟩
  · exact ⟨trivial, hspace, hword _ (by decide), hspace, hcolon⟩
  · exact ⟨hnew, hspace, hcolon⟩
  · exact ⟨trivial, hword _ (by decide),
      ⟨⟨hword _ (by decide), over_opt (hword _ (by decide))⟩, hword _ (by decide)⟩, trivial⟩
  · exact ⟨hword _ (by decide), over_opt (hword _ (by decide)), hword _ (by decide)⟩

theorem foreign_injectionPatterns (u : Unicode) :
    ∀ r ∈ injectionPatterns u, Foreign r placeholder.toList := by
  intro r hr
  exact ⟨unbracketed_injectionPatterns u r hr, meets_injectionPatterns u r hr, placeholder_ne_nil⟩

/-- A pattern without assertions that is foreign to the placeholder, and does not occur in a
text, does not occur in the sanitized text. -/
theorem search_sanitized_eq_none (u : Unicode) {t : Regex} (hforeign : Foreign t placeholder.toList)
    (ht : lookFree t = true) {text : String} (h : search t none text.toList = none) :
    search t none (sanitized u text).toList = none := by
  rw [search_eq_none_iff] at h ⊢
  rw [toList_sanitized]
  apply not_occurs_foldl _ _ h
  · intro r hr prev w next hw
    exact ne_nil_of_accepts (meets_injectionPatterns u r hr) hw
  · intro r _
    exact hforeign.traceable_of_lookFree ht r

end Underwriting
