import Underwriting.Python.Text

/-!
# Backtracking regular expressions

The matcher of `re` returns the first match in the order in which it tries the
alternatives: the left branch of `|` before the right one, and the longest
repetition of a greedy star first. `Regex.run r prev s` lists all matches of `r`
at the head of `s` in that order, where `prev` is the character before `s`. The
previous character is carried along explicitly, so `^` and `\b` need no index
arithmetic. `search` takes the first position with a match and `sub` replaces the
matches from left to right.

Only repetitions of a single character class are unbounded here; a bounded
repetition of a longer expression is written out with `seq` and `opt`. One group
is captured at most.
-/

namespace Python

inductive Regex where
  | eps
  /-- One character of a class. -/
  | set (p : Char → Bool)
  | seq (r s : Regex)
  | alt (r s : Regex)
  /-- Greedy repetition of a character class. -/
  | star (p : Char → Bool)
  /-- A zero-width assertion on the previous and the next character. -/
  | look (p : Option Char → Option Char → Bool)
  /-- The capturing group. -/
  | group (r : Regex)

/-- One match: the text it consumes, the text after it and the captured group. -/
structure Match where
  text : List Char
  rest : List Char
  captured : Option (List Char)
  deriving DecidableEq

/-- The character before what is left once `m` is consumed. -/
def Match.last (m : Match) (prev : Option Char) : Option Char :=
  m.text.getLast?.or prev

/-- `m` followed by `m'`, which starts where `m` ends. -/
def Match.append (m m' : Match) : Match :=
  ⟨m.text ++ m'.text, m'.rest, m'.captured.or m.captured⟩

namespace Regex

/-- The matches of a starred class, the longest first. -/
def starRuns (p : Char → Bool) : List Char → List Match
  | [] => [⟨[], [], none⟩]
  | c :: s =>
      (if p c then (starRuns p s).map fun m => { m with text := c :: m.text } else []) ++
        [⟨[], c :: s, none⟩]

/-- All matches of `r` at the head of a text, in the order the matcher tries them. -/
def run : Regex → Option Char → List Char → List Match
  | eps, _, s => [⟨[], s, none⟩]
  | set _, _, [] => []
  | set p, _, c :: s => if p c then [⟨[c], s, none⟩] else []
  | seq r t, prev, s =>
      (run r prev s).flatMap fun m => (run t (m.last prev) m.rest).map m.append
  | alt r t, prev, s => run r prev s ++ run t prev s
  | star p, _, s => starRuns p s
  | look p, prev, s => if p prev s.head? then [⟨[], s, none⟩] else []
  | group r, prev, s => (run r prev s).map fun m => { m with captured := some m.text }

/-! ## Derived expressions -/

/-- The greedy `?`. -/
def opt (r : Regex) : Regex := alt r eps

/-- The greedy `+` of a character class. -/
def plus (p : Char → Bool) : Regex := seq (set p) (star p)

/-- `r{n}`. -/
def times (r : Regex) : ℕ → Regex
  | 0 => eps
  | n + 1 => seq r (times r n)

/-- `r{0,n}`, greedy. -/
def upTo (r : Regex) : ℕ → Regex
  | 0 => eps
  | n + 1 => opt (seq r (upTo r n))

def char (c : Char) : Regex := set (· == c)

/-- The characters an ASCII character of a pattern matches under `re.IGNORECASE`:
the two cases of a letter, and the non-ASCII characters that fold to it. -/
def sameIgnoringCase (p c : Char) : Bool :=
  c.toLower == p.toLower ||
    (p.toLower == 'i' && (c.toNat == 0x130 || c.toNat == 0x131)) ||
    (p.toLower == 's' && c.toNat == 0x17f) ||
    (p.toLower == 'k' && c.toNat == 0x212a)

/-- A word of ASCII characters, matched under `re.IGNORECASE`. -/
def word (s : String) : Regex :=
  s.toList.foldr (fun p r => seq (set (sameIgnoringCase p)) r) eps

/-- `\w`. -/
def isWord (u : Unicode) (c : Char) : Bool := u.isAlnum c || c == '_'

/-- `\d`. -/
def isDigit (u : Unicode) (c : Char) : Bool := (u.decimal c).isSome

/-- `\b`. -/
def boundary (u : Unicode) : Regex :=
  look fun prev next => prev.any (isWord u) != next.any (isWord u)

/-- `^` under `re.MULTILINE`. -/
def lineStart : Regex := look fun prev _ => prev.all (· == '\n')

/-! ## Searching and substituting -/

/-- `re.search`: the first match at the leftmost position that has one. -/
def search (r : Regex) (prev : Option Char) : List Char → Option Match
  | [] => (run r prev []).head?
  | c :: s => (run r prev (c :: s)).head?.or (search r (some c) s)

/-- `Pattern.sub` for an expression that matches no empty text, on at most `n`
positions. The characters before a match are read in the original text. -/
def subFrom (r : Regex) (repl : List Char) : ℕ → Option Char → List Char → List Char
  | 0, _, s => s
  | _ + 1, _, [] => []
  | n + 1, prev, c :: s =>
      match (run r prev (c :: s)).head? with
      | some m => repl ++ subFrom r repl n (m.last prev) m.rest
      | none => c :: subFrom r repl n (some c) s

/-- `Pattern.sub` over a whole text. -/
def sub (r : Regex) (repl : List Char) (s : List Char) : List Char :=
  subFrom r repl s.length none s

/-! ## What a match is made of -/

theorem starRuns_spec (p : Char → Bool) (s : List Char) :
    ∀ m ∈ starRuns p s, m.text ++ m.rest = s ∧ (∀ c ∈ m.text, p c) ∧ m.captured = none := by
  induction s with
  | nil => simp [starRuns]
  | cons c s ih =>
      intro m hm
      rw [starRuns, List.mem_append] at hm
      rcases hm with hm | hm
      · by_cases hc : p c
        · rw [if_pos hc, List.mem_map] at hm
          obtain ⟨m', hm', rfl⟩ := hm
          obtain ⟨htext, hp, hcap⟩ := ih m' hm'
          refine ⟨?_, ?_, hcap⟩
          · simp [htext]
          · simpa [hc] using hp
        · simp [hc] at hm
      · rw [List.mem_singleton] at hm
        subst hm
        simp

/-- A match and the text after it make up the text it was found in. -/
theorem text_append_rest (r : Regex) (prev : Option Char) (s : List Char) :
    ∀ m ∈ run r prev s, m.text ++ m.rest = s := by
  induction r generalizing prev s with
  | eps => simp [run]
  | set p =>
      cases s with
      | nil => simp [run]
      | cons c s =>
          intro m hm
          by_cases hc : p c <;> simp only [run, hc, if_true, List.mem_singleton] at hm
          · simp [hm]
          · simp at hm
  | seq r t ihr iht =>
      intro m hm
      simp only [run, List.mem_flatMap, List.mem_map] at hm
      obtain ⟨m₁, h₁, m₂, h₂, rfl⟩ := hm
      have hr := ihr prev s m₁ h₁
      have ht := iht (m₁.last prev) m₁.rest m₂ h₂
      simp only [Match.append, List.append_assoc]
      rw [ht, hr]
  | alt r t ihr iht =>
      intro m hm
      rcases List.mem_append.1 hm with h | h
      · exact ihr prev s m h
      · exact iht prev s m h
  | star p => exact fun m hm => (starRuns_spec p s m hm).1
  | look p =>
      intro m hm
      by_cases hp : p prev s.head? <;> simp only [run, hp, if_true, List.mem_singleton] at hm
      · simp [hm]
      · simp at hm
  | group r ih =>
      intro m hm
      simp only [run, List.mem_map] at hm
      obtain ⟨m', hm', rfl⟩ := hm
      exact ih prev s m' hm'

/-- What `search` returns is a match at some position of the text. -/
theorem mem_run_of_search (r : Regex) (prev : Option Char) (s : List Char) (m : Match)
    (h : search r prev s = some m) : ∃ prev' s', s' <:+ s ∧ m ∈ run r prev' s' := by
  induction s generalizing prev with
  | nil => exact ⟨prev, [], List.suffix_rfl, List.mem_of_mem_head? h⟩
  | cons c s ih =>
      rw [search, Option.or_eq_some_iff] at h
      rcases h with h | ⟨-, h⟩
      · exact ⟨prev, c :: s, List.suffix_rfl, List.mem_of_mem_head? h⟩
      · obtain ⟨prev', s', hs, hm⟩ := ih (some c) h
        exact ⟨prev', s', hs.trans (List.suffix_cons c s), hm⟩

/-- Without a match at any position, substituting changes nothing. -/
theorem subFrom_of_search_eq_none (r : Regex) (repl : List Char) (n : ℕ)
    (prev : Option Char) (s : List Char) (h : search r prev s = none) :
    subFrom r repl n prev s = s := by
  induction n generalizing prev s with
  | zero => rfl
  | succ n ih =>
      cases s with
      | nil => rfl
      | cons c s =>
          rw [search, Option.or_eq_none_iff] at h
          rw [subFrom, h.1, ih (some c) s h.2]

theorem sub_of_search_eq_none (r : Regex) (repl : List Char) (s : List Char)
    (h : search r none s = none) : sub r repl s = s :=
  subFrom_of_search_eq_none r repl s.length none s h

theorem mem_run_seq {r t : Regex} {prev : Option Char} {s : List Char} {m : Match} :
    m ∈ run (seq r t) prev s ↔
      ∃ m₁ ∈ run r prev s, ∃ m₂ ∈ run t (m₁.last prev) m₁.rest, m₁.append m₂ = m := by
  simp only [run, List.mem_flatMap, List.mem_map]

theorem mem_run_opt {r : Regex} {prev : Option Char} {s : List Char} {m : Match}
    (h : m ∈ run (opt r) prev s) : m ∈ run r prev s ∨ m.text = [] := by
  rw [opt, run, List.mem_append] at h
  refine h.imp_right fun heps => ?_
  rw [run, List.mem_singleton] at heps
  rw [heps]

theorem text_of_mem_run_char {c : Char} {prev : Option Char} {s : List Char} {m : Match}
    (h : m ∈ run (char c) prev s) : m.text = [c] := by
  cases s with
  | nil => simp [char, run] at h
  | cons d s =>
      by_cases hd : d = c
      · simp only [char, run, hd, beq_self_eq_true, if_true, List.mem_singleton] at h
        rw [h]
      · simp [char, run, hd] at h

/-- Every match of `r` captures a text with `P`. -/
def Captures (r : Regex) (P : List Char → Prop) : Prop :=
  ∀ prev s, ∀ m ∈ run r prev s, ∃ text, m.captured = some text ∧ P text

theorem captures_group {r : Regex} {P : List Char → Prop}
    (h : ∀ prev s, ∀ m ∈ run r prev s, P m.text) : Captures (group r) P := by
  intro prev s m hm
  rw [run, List.mem_map] at hm
  obtain ⟨m', hm', rfl⟩ := hm
  exact ⟨m'.text, rfl, h prev s m' hm'⟩

/-- An expression that ends in the capturing group captures what its last part consumes. -/
theorem captures_seq {r t : Regex} {P : List Char → Prop} (h : Captures t P) :
    Captures (seq r t) P := by
  intro prev s m hm
  obtain ⟨m₁, -, m₂, hm₂, rfl⟩ := mem_run_seq.1 hm
  obtain ⟨text, hcaptured, htext⟩ := h _ _ m₂ hm₂
  refine ⟨text, ?_, htext⟩
  rw [Match.append, hcaptured]
  rfl

theorem captures_of_search {r : Regex} {P : List Char → Prop} (h : Captures r P)
    {prev : Option Char} {s text : List Char}
    (hsearch : (search r prev s).bind Match.captured = some text) : P text := by
  obtain ⟨m, hm, hcaptured⟩ := Option.bind_eq_some_iff.1 hsearch
  obtain ⟨prev', s', -, hrun⟩ := mem_run_of_search r prev s m hm
  obtain ⟨text', hcaptured', htext'⟩ := h prev' s' m hrun
  rw [hcaptured, Option.some.injEq] at hcaptured'
  exact hcaptured' ▸ htext'

/-- What a `+` consumes is a nonempty text over its class. -/
theorem mem_run_plus (p : Char → Bool) (prev : Option Char) (s : List Char) (m : Match)
    (h : m ∈ run (plus p) prev s) : m.text ≠ [] ∧ ∀ c ∈ m.text, p c := by
  simp only [plus, run, List.mem_flatMap, List.mem_map] at h
  obtain ⟨m₁, h₁, m₂, h₂, rfl⟩ := h
  cases s with
  | nil => simp [run] at h₁
  | cons c s =>
      by_cases hc : p c <;> simp only [run, hc, if_true, List.mem_singleton] at h₁
      · subst h₁
        have hp := (starRuns_spec p _ m₂ h₂).2.1
        simpa [Match.append, hc] using hp
      · simp at h₁

example : (search (seq (word "rate") (group (plus (· == '7')))) none "x RATE77".toList).bind
    Match.captured = some "77".toList := by decide

end Regex

end Python
