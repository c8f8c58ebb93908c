import Underwriting.Python.Language

/-!
# The first match

A search takes the first match at the leftmost place that has one. Without assertions the
matches at a place depend on the text from there on only, so a search runs through the ends of
the text, `search_eq_findSome?`.

At one place the first match is the one in which every greedy part takes as much as it can,
provided that the parts after it can go on from there. `Takes` is closed under that, part by
part.
-/

namespace Python

namespace Regex

/-- `m` is the match that is found first at this place. -/
def Takes (r : Regex) (prev : Option Char) (s : List Char) (m : Match) : Prop :=
  (run r prev s).head? = some m

section Rules

variable {r t : Regex} {p : Char → Bool} {prev : Option Char} {s : List Char} {m m' : Match}

theorem Takes.mem (h : Takes r prev s m) : m ∈ run r prev s :=
  List.mem_of_mem_head? h

/-- The first match of the first part is kept when the second part goes on after it. -/
theorem Takes.seq (h : Takes r prev s m) (h' : Takes t (m.last prev) m.rest m') :
    Takes (seq r t) prev s (m.append m') := by
  obtain ⟨ms, hms⟩ := List.head?_eq_some_iff.1 h
  obtain ⟨ms', hms'⟩ := List.head?_eq_some_iff.1 h'
  simp [Takes, run, hms, hms']

theorem Takes.group (h : Takes r prev s m) :
    Takes (group r) prev s { m with captured := some m.text } := by
  obtain ⟨ms, hms⟩ := List.head?_eq_some_iff.1 h
  simp [Takes, run, hms]

theorem Takes.opt (h : Takes r prev s m) : Takes (opt r) prev s m := by
  obtain ⟨ms, hms⟩ := List.head?_eq_some_iff.1 h
  simp [Takes, Regex.opt, run, hms]

theorem takes_opt_of_run_eq_nil (h : run r prev s = []) : Takes (opt r) prev s ⟨[], s, none⟩ := by
  simp [Takes, Regex.opt, run, h]

theorem takes_set (prev : Option Char) {c : Char} (hc : p c = true) :
    Takes (set p) prev (c :: s) ⟨[c], s, none⟩ := by
  simp [Takes, run, hc]

theorem takes_star (p : Char → Bool) (prev : Option Char) (s : List Char) :
    Takes (star p) prev s ⟨s.takeWhile p, s.dropWhile p, none⟩ := by
  induction s with
  | nil => rfl
  | cons c s ih =>
      simp only [Takes, run] at ih
      by_cases hc : p c
      · simp [Takes, run, starRuns, hc, ih]
      · simp [Takes, run, starRuns, hc]

theorem takes_plus (prev : Option Char) (h : s.takeWhile p ≠ []) :
    Takes (plus p) prev s ⟨s.takeWhile p, s.dropWhile p, none⟩ := by
  cases s with
  | nil => exact absurd rfl h
  | cons c s =>
      by_cases hc : p c
      · have htakes := (takes_set (s := s) prev hc).seq (takes_star p _ s)
        simpa [plus, Match.append, hc] using htakes
      · simp [hc] at h

theorem run_plus_eq_nil (h : s.takeWhile p = []) : run (plus p) prev s = [] := by
  cases s with
  | nil => rfl
  | cons c s =>
      by_cases hc : p c
      · simp [hc] at h
      · simp [plus, run, hc]

end Rules

/-! ## The place of a match -/

section Place

variable {r t : Regex} {p : Char → Bool}

theorem run_of_lookFree (hr : lookFree r = true) (prev prev' : Option Char) (s : List Char) :
    run r prev s = run r prev' s := by
  induction r generalizing prev prev' s with
  | eps => rfl
  | set p => cases s <;> rfl
  | seq r t ihr iht =>
      rw [lookFree, Bool.and_eq_true] at hr
      simp only [run]
      rw [ihr hr.1 prev prev' s]
      congr 1
      funext m
      rw [iht hr.2 (m.last prev) (m.last prev') m.rest]
  | alt r t ihr iht =>
      rw [lookFree, Bool.and_eq_true] at hr
      rw [run, run, ihr hr.1 prev prev' s, iht hr.2 prev prev' s]
  | star p => rfl
  | look p => cases hr
  | group r ih => rw [run, run, ih hr prev prev' s]

/-- A search runs through the ends of the text. -/
theorem search_eq_findSome? (hr : lookFree r = true) (prev : Option Char) (s : List Char) :
    search r prev s = s.tails.findSome? fun d => (run r none d).head? := by
  induction s generalizing prev with
  | nil =>
      rw [search, run_of_lookFree hr prev none, List.tails, List.findSome?_singleton]
  | cons c s ih =>
      rw [search, run_of_lookFree hr prev none, ih, List.tails_cons, List.findSome?_cons]
      cases (run r none (c :: s)).head? <;> rfl

theorem run_eq_nil_of_search_eq_none (hr : lookFree r = true) {prev : Option Char}
    {s d : List Char} (h : search r prev s = none) (hd : d <:+ s) (prev' : Option Char) :
    run r prev' d = [] := by
  rw [search_eq_findSome? hr, List.findSome?_eq_none_iff] at h
  rw [run_of_lookFree hr prev' none]
  exact List.head?_eq_none_iff.1 (h d ((List.mem_tails d s).2 hd))

theorem Takes.search {prev : Option Char} {s : List Char} {m : Match} (h : Takes r prev s m)
    (hr : lookFree r = true) : search r prev s = some m := by
  rw [Takes, run_of_lookFree hr prev none] at h
  rw [search_eq_findSome? hr]
  cases s with
  | nil => rw [List.tails, List.findSome?_singleton, h]
  | cons c s => rw [List.tails_cons, List.findSome?_cons, h]

/-- Places without a match are passed over. -/
theorem search_append (hr : lookFree r = true) {prev : Option Char} {before s : List Char}
    (h : ∀ d, d ≠ [] → d <:+ before → run r none (d ++ s) = []) :
    search r prev (before ++ s) = search r none s := by
  induction before generalizing prev with
  | nil => rw [List.nil_append, search_eq_findSome? hr, search_eq_findSome? hr]
  | cons c before ih =>
      have hfirst := h (c :: before) (List.cons_ne_nil c before) List.suffix_rfl
      rw [List.cons_append] at hfirst
      rw [List.cons_append, Regex.search, run_of_lookFree hr prev none, hfirst]
      exact ih fun d hd hsuffix => h d hd (hsuffix.trans (List.suffix_cons c before))

/-- Where the next part refuses the characters of a repetition, all of them are taken. -/
theorem run_star_seq_of_refuses (ht : lookFree t = true)
    (hrefuses : ∀ c s, p c = true → run t none (c :: s) = []) (prev : Option Char)
    (s : List Char) : run (seq (star p) t) prev s =
      (run t none (s.dropWhile p)).map (Match.append ⟨s.takeWhile p, s.dropWhile p, none⟩) := by
  have hruns (s : List Char) : (starRuns p s).flatMap (fun m => (run t none m.rest).map m.append) =
      (run t none (s.dropWhile p)).map (Match.append ⟨s.takeWhile p, s.dropWhile p, none⟩) := by
    induction s with
    | nil => simp [starRuns]
    | cons c s ih =>
        by_cases hc : p c = true
        · have hcons (m : Match) :
              (run t none m.rest).map (Match.append { m with text := c :: m.text }) =
              ((run t none m.rest).map m.append).map fun m => { m with text := c :: m.text } := by
            simp [Match.append, Function.comp_def]
          have hlast := hrefuses c s hc
          simp only [starRuns, if_pos hc, List.flatMap_append, List.flatMap_map,
            List.flatMap_singleton, hlast, List.map_nil, List.append_nil, hcons]
          rw [← List.map_flatMap, ih]
          simp [Match.append, hc, Function.comp_def]
        · simp [starRuns, hc]
  rw [← hruns, run]
  congr 1
  funext m
  rw [run_of_lookFree ht (m.last prev) none]

end Place

/-! ## Words -/

/-- What follows a word at the head of a text, in any case of its letters. -/
def dropWord : List Char → List Char → Option (List Char)
  | [], s => some s
  | _ :: _, [] => none
  | p :: ps, c :: s => if sameIgnoringCase p c then dropWord ps s else none

section Words

variable {text : String} {prev : Option Char} {s rest : List Char}

theorem run_word_eq_nil (h : dropWord text.toList s = none) : run (word text) prev s = [] := by
  have hlist (ps : List Char) (prev : Option Char) (s : List Char) (h : dropWord ps s = none) :
      run (ps.foldr (fun p r => seq (set (sameIgnoringCase p)) r) eps) prev s = [] := by
    induction ps generalizing prev s with
    | nil => cases h
    | cons p ps ih =>
        cases s with
        | nil => rfl
        | cons c s =>
            by_cases hc : sameIgnoringCase p c
            · rw [dropWord, if_pos hc] at h
              simp [run, hc, ih _ s h]
            · simp [run, hc]
  exact hlist text.toList prev s h

/-- A word matches in one way. -/
theorem run_word_eq_singleton (prev : Option Char) (h : dropWord text.toList s = some rest) :
    ∃ w, s = w ++ rest ∧ run (word text) prev s = [⟨w, rest, none⟩] := by
  have hlist (ps : List Char) (prev : Option Char) (s : List Char)
      (h : dropWord ps s = some rest) : ∃ w, s = w ++ rest ∧
        run (ps.foldr (fun p r => seq (set (sameIgnoringCase p)) r) eps) prev s =
          [⟨w, rest, none⟩] := by
    induction ps generalizing prev s with
    | nil =>
        obtain rfl : s = rest := Option.some.inj h
        exact ⟨[], rfl, rfl⟩
    | cons p ps ih =>
        cases s with
        | nil => cases h
        | cons c s =>
            rw [dropWord] at h
            split_ifs at h with hc
            obtain ⟨w, rfl, hrun⟩ := ih (some c) s h
            refine ⟨c :: w, rfl, ?_⟩
            simp [run, hc, Match.last, Match.append, hrun]
  exact hlist text.toList prev s h

theorem dropWord_eq_none_of_search {d : List Char} (h : search (word text) prev s = none)
    (hd : d <:+ s) : dropWord text.toList d = none := by
  cases hrest : dropWord text.toList d with
  | none => rfl
  | some rest =>
      obtain ⟨w, -, hrun⟩ := run_word_eq_singleton none hrest
      rw [run_eq_nil_of_search_eq_none (lookFree_word text) h hd] at hrun
      cases hrun

theorem dropWord_append (ps s : List Char) : dropWord ps (ps ++ s) = some s := by
  induction ps with
  | nil => rfl
  | cons p ps ih =>
      have hsame : sameIgnoringCase p p = true := by simp [sameIgnoringCase]
      rw [List.cons_append, dropWord, if_pos hsame, ih]

/-- A word does not reach beyond a character that it does not have. -/
theorem dropWord_append_eq_none {ps d tail : List Char} {c : Char} (h : dropWord ps d = none)
    (hc : (ps.any fun p => sameIgnoringCase p c) = false) :
    dropWord ps (d ++ c :: tail) = none := by
  induction ps generalizing d with
  | nil => cases h
  | cons p ps ih =>
      rw [List.any_cons, Bool.or_eq_false_iff] at hc
      cases d with
      | nil => simp [dropWord, hc.1]
      | cons e d =>
          rw [dropWord] at h
          rw [List.cons_append, dropWord]
          split_ifs at h with he
          · rw [if_pos he, ih h hc.2]
          · rw [if_neg he]

end Words

end Regex

end Python
