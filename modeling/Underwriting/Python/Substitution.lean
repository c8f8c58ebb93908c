import Underwriting.Python.Language

/-!
# Substituted texts

A substitution leaves characters where they are and puts the replacement in place of matches.
`Subst r repl next prev s out` is this decomposition of its result, for a text `s` between the
characters `prev` and `next`. It can be cut in two: in the source wherever no match lies across
the cut, `Subst.split`, and in the result around a text that keeps out of the replacement,
`Subst.exists_split`. So such a text stands in the result between the results of what stood
around it in the source.

What stood next to it may have been replaced, and an assertion looks at what stands there now.
`Traceable` collects what excludes a new occurrence of a pattern: an occurrence keeps out of the
replacement, and next to the replacement the pattern holds no more than next to the match that
was there. Then a substitution by the pattern itself leaves no occurrence of it behind, and a
substitution by another pattern brings none back.
-/

namespace Python

theorem getLast?_cons_or {α : Type} (a : α) (as : List α) (prev : Option α) :
    (a :: as).getLast?.or prev = as.getLast?.or (some a) := by
  rw [← List.singleton_append, List.getLast?_append, Option.or_assoc]
  rfl

theorem getLast?_or_of_ne_nil {α : Type} {as : List α} (h : as ≠ []) (prev : Option α) :
    as.getLast?.or prev = as.getLast? :=
  Option.or_of_isSome (List.getLast?_isSome.2 h)

theorem head?_or_of_ne_nil {α : Type} {as : List α} (h : as ≠ []) (next : Option α) :
    as.head?.or next = as.head? :=
  Option.or_of_isSome (List.isSome_head?.2 h)

namespace Regex

/-- The pattern accepts no text at the head of `s`, which stands between `prev` and `next`. -/
def Silent (r : Regex) (prev : Option Char) (s : List Char) (next : Option Char) : Prop :=
  ∀ m rest, s = m ++ rest → ¬ Accepts r prev m (rest.head?.or next)

/-- The result of substituting `repl` for the matches of `r` in a text. -/
inductive Subst (r : Regex) (repl : List Char) (next : Option Char) :
    Option Char → List Char → List Char → Prop where
  | nil (prev : Option Char) : Subst r repl next prev [] []
  | keep {prev : Option Char} {c : Char} {s out : List Char} (hsilent : Silent r prev (c :: s) next)
      (h : Subst r repl next (some c) s out) : Subst r repl next prev (c :: s) (c :: out)
  | replace {prev : Option Char} {m rest s out : List Char} (hs : s = m ++ rest) (hne : m ≠ [])
      (hm : Accepts r prev m (rest.head?.or next))
      (h : Subst r repl next (m.getLast?.or prev) rest out) : Subst r repl next prev s (repl ++ out)

section Subst

variable {r t : Regex} {repl : List Char} {prev next : Option Char} {s out : List Char}

theorem silent_of_run_eq_nil (h : run r prev s = []) : Silent r prev s none := by
  rintro m rest rfl hm
  rw [Option.or_none] at hm
  exact run_ne_nil_of_accepts hm h

theorem subst_subFrom (hr : ∀ prev w next, Accepts r prev w next → w ≠ []) (n : ℕ)
    (prev : Option Char) (s : List Char) (hn : s.length ≤ n) :
    Subst r repl none prev s (subFrom r repl n prev s) := by
  induction n generalizing prev s with
  | zero =>
      obtain rfl := List.eq_nil_of_length_eq_zero (Nat.le_zero.1 hn)
      exact .nil prev
  | succ n ih =>
      cases s with
      | nil => exact .nil prev
      | cons c s =>
          rw [subFrom]
          cases hrun : (run r prev (c :: s)).head? with
          | none =>
              exact .keep (silent_of_run_eq_nil (List.head?_eq_none_iff.1 hrun))
                (ih _ s (Nat.le_of_succ_le_succ hn))
          | some m =>
              have hm := accepts_of_mem_run (List.mem_of_mem_head? hrun)
              have htext := text_append_rest r prev _ m (List.mem_of_mem_head? hrun)
              have hne := hr _ _ _ hm
              have hnonempty := List.length_pos_of_ne_nil hne
              have hlength := congrArg List.length htext
              rw [List.length_append] at hlength
              rw [← Option.or_none (o := m.rest.head?)] at hm
              exact .replace htext.symm hne hm (ih _ m.rest (by omega))

theorem subst_sub (hr : ∀ prev w next, Accepts r prev w next → w ≠ []) (s : List Char) :
    Subst r repl none none s (sub r repl s) :=
  subst_subFrom hr s.length none s le_rfl

/-! ## What stands at the ends of the result -/

theorem Subst.eq_nil_iff (h : Subst r repl next prev s out) (hrepl : repl ≠ []) :
    out = [] ↔ s = [] := by
  cases h with
  | nil => exact Iff.rfl
  | keep hsilent h => simp
  | replace hs hne hm h => simp [hs, hne, hrepl]

/-- The result begins as the source does, or with a replacement. -/
theorem Subst.head?_eq (h : Subst r repl next prev s out) (hrepl : repl ≠ []) :
    out.head? = s.head? ∨
      out.head? = repl.head? ∧ ∃ m rest, s = m ++ rest ∧ Accepts r prev m (rest.head?.or next) := by
  cases h with
  | nil => exact .inl rfl
  | keep hsilent h => exact .inl rfl
  | replace hs hne hm h => exact .inr ⟨List.head?_append_of_ne_nil repl hrepl, _, _, hs, hm⟩

/-- It ends as the source does, or with a replacement. -/
theorem Subst.getLast?_eq (h : Subst r repl next prev s out) (hrepl : repl ≠ []) :
    out.getLast?.or prev = s.getLast?.or prev ∨
      out.getLast? = repl.getLast? ∧ ∃ pre m, s = pre ++ m ∧
        Accepts r (pre.getLast?.or prev) m next := by
  induction h with
  | nil prev => exact .inl rfl
  | @keep prev c s out hsilent h ih =>
      rw [getLast?_cons_or, getLast?_cons_or]
      rcases ih with ih | ⟨hlast, pre, m, rfl, hm⟩
      · exact .inl ih
      · refine .inr ⟨?_, c :: pre, m, rfl, by rwa [getLast?_cons_or]⟩
        rw [List.getLast?_cons, hlast, List.getLast?_eq_some_getLast hrepl]
        rfl
  | @replace prev m rest s out hs hne hm h ih =>
      subst hs
      rw [List.getLast?_append, List.getLast?_append, Option.or_assoc, Option.or_assoc]
      by_cases hout : out = []
      · obtain rfl := (h.eq_nil_iff hrepl).1 hout
        subst hout
        exact .inr ⟨rfl, [], m, List.append_nil m, hm⟩
      · have hrest : rest ≠ [] := fun hrest => hout ((h.eq_nil_iff hrepl).2 hrest)
        rw [getLast?_or_of_ne_nil hout, getLast?_or_of_ne_nil hrest] at ih ⊢
        rw [getLast?_or_of_ne_nil hout]
        refine ih.imp_right ?_
        rintro ⟨hlast, pre, m', rfl, hm'⟩
        refine ⟨hlast, m ++ pre, m', (List.append_assoc m pre m').symm, ?_⟩
        rw [List.getLast?_append, Option.or_assoc]
        exact hm'

/-! ## Cutting the source -/

/-- A cut that no match lies across is a cut of the result. -/
theorem Subst.split {x y : List Char} (h : Subst r repl next prev s out) (hs : s = x ++ y)
    (hcut : ∀ x₁ x₂ y₁ y₂, x = x₁ ++ x₂ → y = y₁ ++ y₂ → x₂ ≠ [] → y₁ ≠ [] →
      ¬ Accepts r (x₁.getLast?.or prev) (x₂ ++ y₁) (y₂.head?.or next)) :
    ∃ a b, out = a ++ b ∧ Subst r repl (y.head?.or next) prev x a ∧
      Subst r repl next (x.getLast?.or prev) y b := by
  induction h generalizing x with
  | nil prev =>
      obtain ⟨rfl, rfl⟩ := List.append_eq_nil_iff.1 hs.symm
      exact ⟨[], [], rfl, .nil prev, .nil prev⟩
  | @keep prev c s out hsilent h ih =>
      cases x with
      | nil =>
          obtain rfl : c :: s = y := hs
          exact ⟨[], c :: out, rfl, .nil prev, .keep hsilent h⟩
      | cons d x =>
          obtain ⟨rfl, rfl⟩ := List.cons.inj hs
          obtain ⟨a, b, rfl, ha, hb⟩ := ih rfl fun x₁ x₂ y₁ y₂ hx hy hx₂ hy₁ => by
            have hnone := hcut (c :: x₁) x₂ y₁ y₂ (by rw [hx]; rfl) hy hx₂ hy₁
            rwa [getLast?_cons_or] at hnone
          refine ⟨c :: a, b, rfl, .keep ?_ ha, by rwa [getLast?_cons_or]⟩
          intro m rest hm
          have hnone := hsilent m (rest ++ y) (by rw [← List.append_assoc, ← hm]; rfl)
          rwa [List.head?_append, Option.or_assoc] at hnone
  | @replace prev m rest s out hs' hne hm h ih =>
      rcases List.append_eq_append_iff.1 (hs.symm.trans hs') with ⟨x', hx, hy⟩ | ⟨z, hx, hrest⟩
      · -- The match reaches the cut: it ends there, or it begins there.
        by_cases hx' : x' = []
        · subst hx'
          rw [List.append_nil] at hx
          rw [List.nil_append] at hy
          subst hx hy
          have ha : Subst r repl (y.head?.or next) prev m (repl ++ []) :=
            .replace (List.append_nil m).symm hne hm (.nil _)
          rw [List.append_nil] at ha
          exact ⟨repl, out, rfl, ha, h⟩
        · by_cases hx₀ : x = []
          · subst hx₀
            have hb : Subst r repl next prev y (repl ++ out) :=
              .replace (hs.symm.trans hs') hne hm h
            exact ⟨[], repl ++ out, rfl, .nil prev, hb⟩
          · rw [hx] at hm
            exact absurd hm (hcut [] x x' rest rfl hy hx₀ hx')
      · obtain ⟨a, b, rfl, ha, hb⟩ := ih hrest fun x₁ x₂ y₁ y₂ hz hy hx₂ hy₁ => by
          have hnone := hcut (m ++ x₁) x₂ y₁ y₂ (by rw [hx, hz, List.append_assoc]) hy hx₂ hy₁
          rwa [List.getLast?_append, Option.or_assoc] at hnone
        refine ⟨repl ++ a, b, (List.append_assoc _ _ _).symm, .replace hx hne ?_ ha, ?_⟩
        · rw [hrest, List.head?_append, Option.or_assoc] at hm
          exact hm
        · rw [hx, List.getLast?_append, Option.or_assoc]
          exact hb

/-- A text at whose positions no match begins is kept. -/
theorem Subst.keep_text {w y : List Char} (h : Subst r repl next prev s out) (hs : s = w ++ y)
    (hsilent : ∀ w₁ w₂, w = w₁ ++ w₂ → w₂ ≠ [] → Silent r (w₁.getLast?.or prev) (w₂ ++ y) next) :
    ∃ b, out = w ++ b ∧ Subst r repl next (w.getLast?.or prev) y b := by
  induction w generalizing prev s out with
  | nil =>
      obtain rfl : s = y := hs
      exact ⟨out, rfl, h⟩
  | cons c w ih =>
      cases h with
      | nil => cases hs
      | keep _ h =>
          obtain ⟨rfl, rfl⟩ := List.cons.inj hs
          obtain ⟨b, rfl, hb⟩ := ih h rfl fun w₁ w₂ hw hw₂ => by
            have hnone := hsilent (_ :: w₁) w₂ (by rw [hw]; rfl) hw₂
            rwa [getLast?_cons_or] at hnone
          exact ⟨b, rfl, by rwa [getLast?_cons_or]⟩
      | replace hs' hne hm h =>
          have hnone := hsilent [] (c :: w) rfl (List.cons_ne_nil c w)
          exact absurd hm (hnone _ _ (hs.symm.trans hs'))

/-! ## Cutting the result -/

/-- The text keeps out of the replacement, at whichever place of a result it stands. -/
structure Outside (repl w : List Char) : Prop where
  ne_nil : w ≠ []
  head_not_mem : ∀ c ∈ w, repl.head? ≠ some c
  getLast_not_mem : ∀ c ∈ w, repl.getLast? ≠ some c
  not_infix : ¬ w <:+: repl

/-- Where it stands in a result, it has been kept. -/
theorem Subst.exists_kept {w b : List Char} (h : Subst r repl next prev s out) (hrepl : repl ≠ [])
    (hhead : ∀ c ∈ w, repl.head? ≠ some c) (hout : out = w ++ b) :
    ∃ y, s = w ++ y ∧ Subst r repl next (w.getLast?.or prev) y b ∧
      ∀ w₁ w₂, w = w₁ ++ w₂ → w₂ ≠ [] → Silent r (w₁.getLast?.or prev) (w₂ ++ y) next := by
  induction w generalizing prev s out with
  | nil =>
      obtain rfl : out = b := hout
      refine ⟨s, rfl, h, fun w₁ w₂ hw hw₂ => ?_⟩
      exact absurd (List.append_eq_nil_iff.1 hw.symm).2 hw₂
  | cons c w ih =>
      cases h with
      | nil => cases hout
      | @keep _ c s out hsilent h =>
          obtain ⟨rfl, hout'⟩ := List.cons.inj hout
          obtain ⟨y, rfl, hy, hkept⟩ := ih h (fun d hd => hhead d (List.mem_cons_of_mem c hd)) hout'
          refine ⟨y, rfl, by rwa [getLast?_cons_or], fun w₁ w₂ hw hw₂ => ?_⟩
          cases w₁ with
          | nil =>
              obtain rfl : c :: w = w₂ := hw
              exact hsilent
          | cons d w₁ =>
              obtain ⟨rfl, rfl⟩ := List.cons.inj hw
              rw [getLast?_cons_or]
              exact hkept w₁ w₂ rfl hw₂
      | replace hs hne hm h =>
          have hfirst := congrArg List.head? hout
          rw [List.head?_append_of_ne_nil repl hrepl] at hfirst
          exact absurd hfirst (hhead c List.mem_cons_self)

/-- It does not reach into a replacement. -/
theorem Outside.exists_after {a w b : List Char} (hw : Outside repl w)
    (hout : repl ++ out = a ++ (w ++ b)) : ∃ a', a = repl ++ a' ∧ out = a' ++ (w ++ b) := by
  rcases List.append_eq_append_iff.1 hout with h | ⟨c, hrepl, hwb⟩
  · exact h
  · cases c with
    | nil => exact ⟨[], by simp [hrepl], hwb.symm⟩
    | cons c cs =>
        rcases List.append_eq_append_iff.1 hwb with ⟨x, hcs, -⟩ | ⟨y, rfl, -⟩
        · exact absurd ⟨a, x, by rw [hrepl, hcs, List.append_assoc]⟩ hw.not_infix
        · have hlast : repl.getLast? = some ((c :: cs).getLast (List.cons_ne_nil c cs)) := by
            rw [hrepl, List.getLast?_append, List.getLast?_eq_some_getLast (List.cons_ne_nil c cs)]
            rfl
          exact absurd hlast (hw.getLast_not_mem _
            (List.mem_append_left y (List.getLast_mem (List.cons_ne_nil c cs))))

/-- The result around a kept text is the result of what was around it. -/
theorem Subst.exists_split {a w b : List Char} (h : Subst r repl next prev s out)
    (hrepl : repl ≠ []) (hw : Outside repl w) (hout : out = a ++ (w ++ b)) :
    ∃ x y, s = x ++ (w ++ y) ∧ Subst r repl w.head? prev x a ∧
      Subst r repl next w.getLast? y b ∧ ∀ w₁ w₂, w = w₁ ++ w₂ → w₂ ≠ [] →
        Silent r (w₁.getLast?.or (x.getLast?.or prev)) (w₂ ++ y) next := by
  induction h generalizing a with
  | nil prev =>
      obtain ⟨-, hwb⟩ := List.append_eq_nil_iff.1 hout.symm
      exact absurd (List.append_eq_nil_iff.1 hwb).1 hw.ne_nil
  | @keep prev c s out hsilent h ih =>
      cases a with
      | nil =>
          obtain ⟨y, hs, hy, hkept⟩ :=
            (Subst.keep hsilent h).exists_kept hrepl hw.head_not_mem hout
          rw [getLast?_or_of_ne_nil hw.ne_nil] at hy
          exact ⟨[], y, hs, .nil prev, hy, hkept⟩
      | cons d a =>
          obtain ⟨rfl, hout'⟩ := List.cons.inj hout
          obtain ⟨x, y, rfl, hx, hy, hkept⟩ := ih hout'
          refine ⟨c :: x, y, rfl, .keep ?_ hx, hy, ?_⟩
          · intro m rest hm
            have htext : c :: (x ++ (w ++ y)) = m ++ (rest ++ (w ++ y)) := by
              rw [← List.cons_append, hm, List.append_assoc]
            have hnone := hsilent m (rest ++ (w ++ y)) htext
            rwa [List.head?_append, Option.or_assoc, List.head?_append_of_ne_nil w hw.ne_nil,
              head?_or_of_ne_nil hw.ne_nil] at hnone
          · rw [getLast?_cons_or]
            exact hkept
  | @replace prev m rest s out hs hne hm h ih =>
      obtain ⟨a', rfl, hout'⟩ := hw.exists_after hout
      obtain ⟨x, y, rfl, hx, hy, hkept⟩ := ih hout'
      refine ⟨m ++ x, y, by rw [hs, List.append_assoc], .replace rfl hne ?_ hx, hy, ?_⟩
      · rw [List.head?_append, Option.or_assoc, List.head?_append_of_ne_nil w hw.ne_nil,
          head?_or_of_ne_nil hw.ne_nil] at hm
        exact hm
      · rw [List.getLast?_append, Option.or_assoc]
        exact hkept

/-! ## Occurrences in the result -/

/-- Occurrences of `t` survive the replacement of matches of `r` only as what they were. -/
structure Traceable (r t : Regex) (repl : List Char) : Prop where
  outside : ∀ {prev w next}, Accepts t prev w next → Outside repl w
  /-- What is accepted after the replacement is accepted after the match. -/
  left : ∀ {prev m w next}, Accepts r prev m w.head? → Accepts t repl.getLast? w next →
    Accepts t (m.getLast?.or prev) w next
  /-- What is accepted before the replacement is accepted before the match. -/
  right : ∀ {prev m w next}, Accepts r w.getLast? m next → Accepts t prev w repl.head? →
    Accepts t prev w (m.head?.or next)
  repl_ne_nil : repl ≠ []

/-- A replacement that is delimited and foreign by its characters: neither its first nor its
last character is in an accepted text, and an accepted text has one it lacks. -/
structure Foreign (t : Regex) (repl : List Char) : Prop where
  inner : Over (fun c => repl.head? ≠ some c ∧ repl.getLast? ≠ some c) t
  meets : Meets (· ∉ repl) t
  repl_ne_nil : repl ≠ []

namespace Foreign

variable {w : List Char}

theorem outside (h : Foreign t repl) (hw : Accepts t prev w next) : Outside repl w where
  ne_nil := ne_nil_of_accepts h.meets hw
  head_not_mem c hc := (over_of_accepts h.inner hw c hc).1
  getLast_not_mem c hc := (over_of_accepts h.inner hw c hc).2
  not_infix hpart := by
    obtain ⟨c, hc, hnot⟩ := meets_of_accepts h.meets hw
    exact hnot (hpart.subset hc)

/-- A pattern without assertions is traceable through any other. -/
theorem traceable_of_lookFree (h : Foreign t repl) (ht : lookFree t = true) (r : Regex) :
    Traceable r t repl where
  outside hw := h.outside hw
  left _ hw := accepts_of_lookFree ht hw _ _
  right _ hw := accepts_of_lookFree ht hw _ _
  repl_ne_nil := h.repl_ne_nil

/-- Where a delimited match was, its assertion held on both sides. So a pattern with the same
assertion is traceable through it. -/
theorem traceable_of_delimited {f : Option Char → Option Char → Bool} (h : Foreign t repl)
    (ht : Delimited f t) (hr : Delimited f r) : Traceable r t repl where
  outside hw := h.outside hw
  left := by
    intro prev m w next hm hw
    have hne := (h.outside hw).ne_nil
    have hedge := hr.after hm
    have hafter := ht.after hw
    apply ht.accepts hw
    · rw [head?_or_of_ne_nil hne]
      exact hedge
    · rw [getLast?_or_of_ne_nil hne] at hafter ⊢
      exact hafter
  right := by
    intro prev m w next hm hw
    have hne := (h.outside hw).ne_nil
    have hedge := hr.before hm
    have hbefore := ht.before hw
    apply ht.accepts hw
    · rw [head?_or_of_ne_nil hne] at hbefore ⊢
      exact hbefore
    · rw [getLast?_or_of_ne_nil hne]
      exact hedge
  repl_ne_nil := h.repl_ne_nil

end Foreign

theorem Subst.exists_source (ht : Traceable r t repl) (h : Subst r repl none none s out)
    {a w b : List Char} (hout : out = a ++ (w ++ b)) (hw : Accepts t a.getLast? w b.head?) :
    ∃ x y, s = x ++ (w ++ y) ∧ Accepts t x.getLast? w y.head? ∧
      Silent r x.getLast? (w ++ y) none := by
  have houtside := ht.outside hw
  obtain ⟨x, y, rfl, hx, hy, hkept⟩ := h.exists_split ht.repl_ne_nil houtside hout
  have hright : Accepts t a.getLast? w y.head? := by
    rcases hy.head?_eq ht.repl_ne_nil with heq | ⟨hhead, m, rest, rfl, hm⟩
    · rwa [← heq]
    · rw [hhead] at hw
      rw [List.head?_append, ← Option.or_none (o := rest.head?)]
      exact ht.right hm hw
  have hleft : Accepts t x.getLast? w y.head? := by
    rcases hx.getLast?_eq ht.repl_ne_nil with heq | ⟨hlast, pre, m, rfl, hm⟩
    · rw [Option.or_none, Option.or_none] at heq
      rwa [← heq]
    · rw [hlast] at hright
      rw [Option.or_none] at hm
      rw [List.getLast?_append]
      exact ht.left hm hright
  have hsilent := hkept [] w rfl houtside.ne_nil
  rw [Option.or_none] at hsilent
  exact ⟨x, y, rfl, hleft, hsilent⟩

/-- A substitution by the pattern itself leaves no occurrence behind. -/
theorem not_occurs_sub_self (ht : Traceable r r repl) (s : List Char) :
    ¬ Occurs r none (sub r repl s) := by
  rintro ⟨a, w, b, hout, hw⟩
  rw [List.append_assoc] at hout
  rw [Option.or_none] at hw
  obtain ⟨x, y, -, haccepts, hsilent⟩ :=
    (subst_sub (fun _ _ _ h => (ht.outside h).ne_nil) s).exists_source ht hout hw
  rw [← Option.or_none (o := y.head?)] at haccepts
  exact hsilent w y rfl haccepts

/-- A substitution by another pattern brings no occurrence back. -/
theorem not_occurs_sub (hr : ∀ prev w next, Accepts r prev w next → w ≠ [])
    (ht : Traceable r t repl) {s : List Char} (h : ¬ Occurs t none s) :
    ¬ Occurs t none (sub r repl s) := by
  rintro ⟨a, w, b, hout, hw⟩
  rw [List.append_assoc] at hout
  rw [Option.or_none] at hw
  obtain ⟨x, y, rfl, haccepts, -⟩ := (subst_sub hr s).exists_source ht hout hw
  rw [← Option.or_none (o := x.getLast?)] at haccepts
  exact h ⟨x, w, y, (List.append_assoc _ _ _).symm, haccepts⟩

/-! ## One substitution after another -/

/-- Later substitutions bring back nothing that a text no longer has. -/
theorem not_occurs_foldl {ps : List Regex}
    (hne : ∀ r ∈ ps, ∀ prev w next, Accepts r prev w next → w ≠ [])
    (hps : ∀ r ∈ ps, Traceable r t repl) {s : List Char}
    (h : ¬ Occurs t none s) : ¬ Occurs t none (ps.foldl (fun s r => sub r repl s) s) := by
  induction ps generalizing s with
  | nil => exact h
  | cons r ps ih =>
      rw [List.forall_mem_cons] at hne hps
      exact ih hne.2 hps.2 (not_occurs_sub hne.1 hps.1 h)

/-- Nothing is left of a pattern in the list that is traceable through all of them. -/
theorem not_occurs_foldl_of_mem {ps : List Regex} (ht : t ∈ ps)
    (hne : ∀ r ∈ ps, ∀ prev w next, Accepts r prev w next → w ≠ [])
    (hps : ∀ r ∈ ps, Traceable r t repl) (s : List Char) :
    ¬ Occurs t none (ps.foldl (fun s r => sub r repl s) s) := by
  obtain ⟨before, after, rfl⟩ := List.append_of_mem ht
  have hafter : ∀ r ∈ after, r ∈ before ++ t :: after := fun r hr =>
    List.mem_append_right before (List.mem_cons_of_mem t hr)
  rw [List.foldl_append, List.foldl_cons]
  apply not_occurs_foldl (fun r hr => hne r (hafter r hr)) fun r hr => hps r (hafter r hr)
  exact not_occurs_sub_self (hps t ht) _

/-- When each pattern is traceable through itself and through every later one, nothing any of
them matches is left. -/
theorem not_occurs_foldl_self {ps : List Regex} (hself : ∀ r ∈ ps, Traceable r r repl)
    (hlater : ps.Pairwise fun t r => Traceable r t repl) (s : List Char) :
    ∀ t ∈ ps, ¬ Occurs t none (ps.foldl (fun s r => sub r repl s) s) := by
  induction ps generalizing s with
  | nil => simp
  | cons r ps ih =>
      have hrest : ∀ q ∈ ps, Traceable q q repl := fun q hq => hself q (List.mem_cons_of_mem r hq)
      rw [List.pairwise_cons] at hlater
      intro t ht
      rcases List.mem_cons.1 ht with rfl | ht
      · apply not_occurs_foldl _ hlater.1 (not_occurs_sub_self (hself t List.mem_cons_self) s)
        exact fun q hq _ _ _ haccepts => ((hrest q hq).outside haccepts).ne_nil
      · exact ih hrest hlater.2 (sub r repl s) t ht

end Subst

end Regex

end Python
