import Mathlib.Data.List.DropRight
import Mathlib.Data.List.Infix
import Mathlib.Logic.Function.Basic

/-!
# Strings of the interpreter

A Python `str` is a sequence of Unicode scalar values, read here as a `List Char`
wherever its characters matter. White space and line breaks are the same in every
supported interpreter and are written out. The remaining character tables change
with the Unicode version an interpreter ships, so they are a parameter,
`Unicode`, whose fields state what all versions share.
-/

namespace Python

/-- The character tables of one interpreter: `str.isalnum`, the value of a decimal
digit (`\d`, and the digits `float` reads) and `str.lower`. -/
structure Unicode where
  isAlnum : Char → Bool
  decimal : Char → Option ℕ
  lower : String → String
  isAlnum_ascii : ∀ c : Char, c.toNat < 128 → isAlnum c = c.isAlphanum
  decimal_ascii : ∀ c : Char, c.toNat < 128 →
    decimal c = if c.isDigit then some (c.toNat - 48) else none
  lower_ascii : ∀ s : String, (∀ c ∈ s.toList, c.toNat < 128) →
    lower s = String.ofList (s.toList.map Char.toLower)

/-- The tables cut down to ASCII, for texts that hold nothing else. -/
def Unicode.ascii : Unicode where
  isAlnum c := c.isAlphanum
  decimal c := if c.isDigit then some (c.toNat - 48) else none
  lower s := String.ofList (s.toList.map Char.toLower)
  isAlnum_ascii _ _ := rfl
  decimal_ascii _ _ := rfl
  lower_ascii _ _ := rfl

theorem Unicode.decimal_comma (u : Unicode) : u.decimal ',' = none :=
  u.decimal_ascii ',' (by decide)

theorem Unicode.decimal_point (u : Unicode) : u.decimal '.' = none :=
  u.decimal_ascii '.' (by decide)

/-- `str.isspace` for one character, which is also `\s`. -/
def isSpace (c : Char) : Bool :=
  c.toNat ∈ [0x9, 0xa, 0xb, 0xc, 0xd, 0x1c, 0x1d, 0x1e, 0x1f, 0x20, 0x85, 0xa0, 0x1680,
    0x2000, 0x2001, 0x2002, 0x2003, 0x2004, 0x2005, 0x2006, 0x2007, 0x2008, 0x2009,
    0x200a, 0x2028, 0x2029, 0x202f, 0x205f, 0x3000]

/-- The characters at which `str.splitlines` cuts. -/
def isLineBreak (c : Char) : Bool :=
  c.toNat ∈ [0xa, 0xb, 0xc, 0xd, 0x1c, 0x1d, 0x1e, 0x85, 0x2028, 0x2029]

/-- `str.strip`. -/
def strip (s : List Char) : List Char :=
  (s.dropWhile isSpace).rdropWhile isSpace

theorem dropWhile_rdropWhile_of_dropWhile_eq {α : Type*} (p : α → Bool) (s : List α)
    (h : s.dropWhile p = s) : (s.rdropWhile p).dropWhile p = s.rdropWhile p := by
  cases s with
  | nil => simp
  | cons a s =>
      have ha : ¬ p a := List.dropWhile_eq_self_iff.mp h (by simp)
      obtain ⟨t, ht⟩ := List.rdropWhile_prefix p (l := a :: s)
      cases hr : (a :: s).rdropWhile p with
      | nil => rfl
      | cons b r =>
          rw [hr, List.cons_append, List.cons.injEq] at ht
          rw [ht.1, List.dropWhile_cons_of_neg ha]

theorem strip_strip (s : List Char) : strip (strip s) = strip s := by
  have h : ((s.dropWhile isSpace).rdropWhile isSpace).dropWhile isSpace =
      (s.dropWhile isSpace).rdropWhile isSpace :=
    dropWhile_rdropWhile_of_dropWhile_eq isSpace _ (List.dropWhile_idempotent isSpace s)
  unfold strip
  rw [h, List.rdropWhile_idempotent]

theorem length_strip_le (s : List Char) : (strip s).length ≤ s.length := by
  have h₁ := (List.rdropWhile_prefix isSpace (l := s.dropWhile isSpace)).length_le
  have h₂ := (List.dropWhile_suffix isSpace (l := s)).length_le
  exact h₁.trans h₂

theorem strip_eq_nil_iff {s : List Char} : strip s = [] ↔ ∀ c ∈ s, isSpace c = true := by
  rw [strip, List.rdropWhile_eq_nil_iff]
  constructor
  · intro hall
    rw [← List.dropWhile_eq_nil_iff]
    by_contra hne
    have hhead := hall _ (List.head_mem hne)
    rw [List.head_dropWhile_not isSpace hne] at hhead
    cases hhead
  · intro hall
    rw [List.dropWhile_eq_nil_iff.2 hall]
    simp

theorem strip_isInfix (s : List Char) : strip s <:+: s := by
  have hprefix := List.rdropWhile_prefix isSpace (l := s.dropWhile isSpace)
  have hsuffix := List.dropWhile_suffix isSpace (l := s)
  exact hprefix.isInfix.trans hsuffix.isInfix

theorem dropWhile_of_strip_eq {s : List Char} (h : strip s = s) : s.dropWhile isSpace = s := by
  have hprefix : s <+: s.dropWhile isSpace := by
    have hstrip := List.rdropWhile_prefix isSpace (l := s.dropWhile isSpace)
    rwa [← strip, h] at hstrip
  have hsuffix := List.dropWhile_suffix isSpace (l := s)
  exact hsuffix.eq_of_length (le_antisymm hsuffix.length_le hprefix.length_le)

/-- The lines of a text, with the characters of the current line carried along in
reverse; `\r\n` is one break and a trailing break opens no further line. -/
def splitLinesFrom (line : List Char) : List Char → List (List Char)
  | [] => if line = [] then [] else [line.reverse]
  | '\r' :: '\n' :: s => line.reverse :: splitLinesFrom [] s
  | c :: s =>
      if isLineBreak c then line.reverse :: splitLinesFrom [] s
      else splitLinesFrom (c :: line) s

/-- `str.splitlines`. -/
def splitLines (s : List Char) : List (List Char) := splitLinesFrom [] s

example : splitLines "a\r\nb\n".toList = ["a".toList, "b".toList] := by decide

/-- `needle in haystack` for strings. -/
def contains (needle haystack : List Char) : Bool :=
  haystack.tails.any fun s => needle.isPrefixOf s

theorem contains_append (needle rest : List Char) : contains needle (needle ++ rest) = true := by
  rw [contains, List.any_eq_true]
  exact ⟨needle ++ rest, by simp, by simp⟩

theorem not_contains_of_not_mem {c : Char} {needle haystack : List Char} (hc : c ∈ needle)
    (hnot : c ∉ haystack) : contains needle haystack = false := by
  rw [contains, List.any_eq_false]
  intro s hs hprefix
  have hsub : needle ⊆ s := (List.isPrefixOf_iff_prefix.1 hprefix).subset
  exact hnot (((List.mem_tails _ _).1 hs).subset (hsub hc))

theorem prefix_intercalate (separator first : String) (rest : List String) :
    first.toList <+: (separator.intercalate (first :: rest)).toList := by
  cases rest with
  | nil => rw [String.intercalate_singleton]
  | cons s rest =>
      rw [String.intercalate_cons_cons, String.append_assoc, String.toList_append]
      exact List.prefix_append _ _

end Python
