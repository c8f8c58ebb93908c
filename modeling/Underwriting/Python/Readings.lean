import Underwriting.Python.Adjacency
import Underwriting.Python.FirstMatch

/-!
# Readings

A reading is what the group of a pattern captures at one place of a text. A search returns the
first reading, `captured_search`. What is read depends on the accepted texts at the place, and on
nothing behind them. So a substitution leaves the reading at the head of a text as it is, if no
match begins in an accepted text, `Subst.readAt_eq`.
-/

namespace Python

namespace Regex

/-! ## Matches within a text -/

/-- The same match in a text that goes on with `y`. -/
def Match.before (y : List Char) (m : Match) : Match := { m with rest := m.rest ++ y }

section Within

variable {r : Regex} {prev : Option Char}

theorem length_rest_le {s : List Char} {m : Match} (hm : m ∈ run r prev s) :
    m.rest.length ≤ s.length := by
  rw [← text_append_rest r prev s m hm, List.length_append]
  exact Nat.le_add_left _ _

theorem starRuns_filter (p : Char → Bool) (v y : List Char) :
    (starRuns p (v ++ y)).filter (fun m => y.length ≤ m.rest.length) =
      (starRuns p v).map (Match.before y) := by
  induction v with
  | nil =>
      cases y with
      | nil => rfl
      | cons c y =>
          have hshort : ∀ m ∈ starRuns p y, ¬ y.length + 1 ≤ m.rest.length := by
            intro m hm
            have hle := @length_rest_le (star p) none y m hm
            omega
          by_cases hc : p c
          · simpa [starRuns, hc, Match.before, List.filter_map, Function.comp_def] using hshort
          · simp [starRuns, hc, Match.before]
  | cons c v ih =>
      have hle : y.length ≤ v.length + y.length + 1 := by omega
      by_cases hc : p c
      · simp [starRuns, hc, hle, Match.before, List.filter_map, Function.comp_def, ih]
      · simp [starRuns, hc, hle, Match.before]

theorem flatMap_eq_flatMap_filter {α β : Type} {p : α → Prop} [DecidablePred p] {f : α → List β}
    {as : List α} (h : ∀ a ∈ as, ¬ p a → f a = []) : as.flatMap f = (as.filter p).flatMap f := by
  induction as with
  | nil => rfl
  | cons a as ih =>
      rw [List.forall_mem_cons] at h
      by_cases ha : p a
      · simp [ha, ih h.2]
      · simp [ha, h.1 ha, ih h.2]

/-- The matches of a pattern without assertions that stay within `v` do not depend on what
follows. -/
theorem run_filter (hr : lookFree r = true) (v y : List Char) :
    (run r none (v ++ y)).filter (fun m => y.length ≤ m.rest.length) =
      (run r none v).map (Match.before y) := by
  induction r generalizing v y with
  | eps => simp [run, Match.before]
  | set p =>
      cases v with
      | nil =>
          cases y with
          | nil => rfl
          | cons c y => by_cases hc : p c <;> simp [run, hc]
      | cons c v => by_cases hc : p c <;> simp [run, hc, Match.before]
  | seq r t ihr iht =>
      rw [lookFree, Bool.and_eq_true] at hr
      have hlater (m : Match) : ((run t (m.last none) m.rest).map m.append).filter
          (fun m => y.length ≤ m.rest.length) =
            ((run t none m.rest).filter fun m => y.length ≤ m.rest.length).map m.append := by
        rw [List.filter_map, run_of_lookFree hr.2 (m.last none) none]
        rfl
      have hshort : ∀ m ∈ run r none (v ++ y), ¬ y.length ≤ m.rest.length →
          ((run t none m.rest).filter fun m => y.length ≤ m.rest.length).map m.append = [] := by
        intro m _ hm
        rw [List.map_eq_nil_iff, List.filter_eq_nil_iff]
        intro m' hm'
        have hle := length_rest_le hm'
        simp only [decide_eq_true_eq]
        omega
      simp only [run, List.filter_flatMap, hlater]
      rw [flatMap_eq_flatMap_filter hshort, ihr hr.1, List.flatMap_map, List.map_flatMap]
      congr 1
      funext m
      rw [Match.before, iht hr.2, run_of_lookFree hr.2 (m.last none) none]
      simp [Match.append, Match.before, Function.comp_def]
  | alt r t ihr iht =>
      rw [lookFree, Bool.and_eq_true] at hr
      rw [run, run, List.filter_append, List.map_append, ihr hr.1, iht hr.2]
  | star p => exact starRuns_filter p v y
  | look p => cases hr
  | group r ih =>
      have hmap : (run (group r) none (v ++ y)).filter (fun m => y.length ≤ m.rest.length) =
          ((run r none (v ++ y)).filter fun m => y.length ≤ m.rest.length).map
            fun m => { m with captured := some m.text } := by
        rw [run, List.filter_map]
        rfl
      rw [hmap, ih hr, run, List.map_map, List.map_map]
      rfl

end Within

/-! ## What is read at a place -/

/-- What the group of the first match at the head of a text captures. -/
def readAt (q : Regex) (s : List Char) : Option (List Char) :=
  (run q none s).head?.bind Match.captured

/-- The readings of a text, place by place. -/
def readings (q : Regex) (s : List Char) : List (List Char) := s.tails.filterMap (readAt q)

section Reading

variable {q r : Regex} {repl : List Char} {prev next : Option Char} {s out v y : List Char}

theorem exists_accepts_of_readAt (h : readAt q s ≠ none) :
    ∃ v y, s = v ++ y ∧ Accepts q none v y.head? := by
  obtain ⟨text, htext⟩ := Option.ne_none_iff_exists'.1 h
  obtain ⟨m, hm, -⟩ := Option.bind_eq_some_iff.1 htext
  have hmem := List.mem_of_mem_head? hm
  exact ⟨m.text, m.rest, (text_append_rest q none s m hmem).symm, accepts_of_mem_run hmem⟩

theorem readAt_nil (hne : ∀ prev v next, Accepts q prev v next → v ≠ []) : readAt q [] = none := by
  by_contra hread
  obtain ⟨v, y, hv, haccepts⟩ := exists_accepts_of_readAt hread
  exact hne _ _ _ haccepts (List.append_eq_nil_iff.1 hv.symm).1

/-- Where no accepted text goes beyond `v`, what follows `v` does not matter. -/
theorem readAt_append (hq : lookFree q = true)
    (h : ∀ d z, d ≠ [] → y = d ++ z → ¬ Accepts q none (v ++ d) z.head?) :
    readAt q (v ++ y) = readAt q v := by
  have hwithin : ∀ m ∈ run q none (v ++ y), y.length ≤ m.rest.length := by
    intro m hm
    have htext := text_append_rest q none _ m hm
    rcases List.append_eq_append_iff.1 htext with ⟨d, -, hrest⟩ | ⟨d, hbeyond, hy⟩
    · rw [hrest, List.length_append]
      exact Nat.le_add_left _ _
    · by_cases hd : d = []
      · rw [hy, hd, List.nil_append]
      · have haccepts := accepts_of_mem_run hm
        rw [hbeyond] at haccepts
        exact absurd haccepts (h d m.rest hd hy)
  have hrun := run_filter hq v y
  rw [List.filter_eq_self.2 fun m hm => decide_eq_true (hwithin m hm)] at hrun
  rw [readAt, readAt, hrun, List.head?_map, Option.bind_map]
  rfl

/-- A search returns the first reading. -/
theorem captured_search {P : List Char → Prop} (hq : lookFree q = true) (hcaptures : Captures q P)
    (prev : Option Char) (s : List Char) :
    (search q prev s).bind Match.captured = (readings q s).head? := by
  rw [search_eq_findSome? hq, readings, List.head?_filterMap]
  generalize s.tails = ds
  induction ds with
  | nil => rfl
  | cons d ds ih =>
      rw [List.findSome?_cons, List.findSome?_cons, readAt]
      cases hrun : (run q none d).head? with
      | none => exact ih
      | some m =>
          obtain ⟨text, htext, -⟩ := hcaptures none d m (List.mem_of_mem_head? hrun)
          rw [Option.bind_some, htext]

/-! ### At the head of a result -/

/-- The source and the result agree up to the first match that is replaced. -/
theorem Subst.exists_common (h : Subst r repl next prev s out) :
    ∃ v y b, s = v ++ y ∧ out = v ++ b ∧
    (y = [] ∧ b = [] ∨ ∃ m rest b', y = m ++ rest ∧ b = repl ++ b' ∧ m ≠ [] ∧
      Accepts r (v.getLast?.or prev) m (rest.head?.or next)) := by
  induction h with
  | nil prev => exact ⟨[], [], [], rfl, rfl, .inl ⟨rfl, rfl⟩⟩
  | @keep prev c s out hsilent h ih =>
      obtain ⟨v, y, b, rfl, rfl, hends⟩ := ih
      refine ⟨c :: v, y, b, rfl, rfl, ?_⟩
      rw [getLast?_cons_or]
      exact hends
  | @replace prev m rest s out hs hne hm h ih =>
      exact ⟨[], s, repl ++ out, rfl, rfl, .inr ⟨m, rest, out, hs, rfl, hne, hm⟩⟩

/-- The head of the result is read like the head of the source, when `r` begins in none of the
texts that are read. -/
theorem Subst.readAt_eq (h : Subst r repl next prev s out) (hrepl : repl ≠ [])
    (hq : lookFree q = true)
    (hstart : ∀ prev v next, Accepts q prev v next → NoStart r v ∧ ∀ c ∈ v, repl.head? ≠ some c) :
    readAt q out = readAt q s := by
  obtain ⟨v, y, b, rfl, rfl, hends⟩ := h.exists_common
  rcases hends with ⟨rfl, rfl⟩ | ⟨m, rest, b', rfl, rfl, hne, hm⟩
  · rfl
  · have hsource : readAt q (v ++ (m ++ rest)) = readAt q v := by
      apply readAt_append hq
      intro d z hd hz haccepts
      exact (hstart _ _ _ haccepts).1 v d z prev next rfl hd m rest hz.symm hm
    have hresult : readAt q (v ++ (repl ++ b')) = readAt q v := by
      apply readAt_append hq
      intro d z hd hz haccepts
      have hhead := congrArg List.head? hz
      rw [List.head?_append_of_ne_nil repl hrepl, List.head?_append_of_ne_nil d hd] at hhead
      have hfirst := List.mem_append_right v (List.head_mem hd)
      exact (hstart _ _ _ haccepts).2 _ hfirst (hhead.trans (List.head?_eq_some_head hd))
    rw [hsource, hresult]

/-- Nothing is read inside the replacement. -/
theorem readAt_of_suffix_repl (hout : ∀ prev v next, Accepts q prev v next → Outside repl v)
    (hv : v ≠ []) (hsuffix : v <:+ repl) (s : List Char) : readAt q (v ++ s) = none := by
  by_contra hread
  obtain ⟨w, y, hw, haccepts⟩ := exists_accepts_of_readAt hread
  have houtside := hout _ _ _ haccepts
  rcases List.prefix_or_prefix_of_prefix (List.prefix_append w y) (hw ▸ List.prefix_append v s) with
    hwv | hvw
  · exact houtside.not_infix (hwv.isInfix.trans hsuffix.isInfix)
  · obtain ⟨front, rfl⟩ := hsuffix
    apply houtside.getLast_not_mem _ (hvw.subset (List.getLast_mem hv))
    rw [List.getLast?_append, List.getLast?_eq_some_getLast hv, Option.some_or]

theorem readings_append {x : List Char} (h : ∀ d, d ≠ [] → d <:+ x → readAt q (d ++ s) = none) :
    readings q (x ++ s) = readings q s := by
  induction x with
  | nil => rfl
  | cons c x ih =>
      have hfirst := h (c :: x) (List.cons_ne_nil c x) List.suffix_rfl
      have hrest := ih fun d hd hsuffix => h d hd (hsuffix.trans (List.suffix_cons c x))
      rw [List.cons_append, readings, List.tails_cons, List.filterMap_cons, ← List.cons_append,
        hfirst]
      exact hrest

end Reading

end Regex

end Python
