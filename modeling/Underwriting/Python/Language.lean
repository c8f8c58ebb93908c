import Underwriting.Python.Regex

/-!
# The texts a pattern accepts

`Regex.Accepts r prev w next` says that `r` can consume `w` between the characters `prev` and
`next`, with no regard to the order of the alternatives. A match of the matcher is an accepted
text, `exists_mem_run_iff`, and a search fails exactly when nothing accepted occurs in the
text, `search_eq_none_iff`.

What an accepted text is made of can be read off the pattern: `Over P r` says that all its
characters have `P`, `Meets P r` that one of them has, and a pattern without assertions does
not depend on the characters around.
-/

namespace Python

namespace Regex

def Accepts : Regex → Option Char → List Char → Option Char → Prop
  | eps, _, w, _ => w = []
  | set p, _, w, _ => ∃ c, w = [c] ∧ p c = true
  | seq r t, prev, w, next => ∃ u v, w = u ++ v ∧
      Accepts r prev u (v.head?.or next) ∧ Accepts t (u.getLast?.or prev) v next
  | alt r t, prev, w, next => Accepts r prev w next ∨ Accepts t prev w next
  | star p, _, w, _ => ∀ c ∈ w, p c = true
  | look p, prev, w, next => w = [] ∧ p prev next = true
  | group r, prev, w, next => Accepts r prev w next

/-- A starred class runs over every prefix of the class. -/
theorem exists_mem_starRuns_iff (p : Char → Bool) (s w rest : List Char) :
    (∃ m ∈ starRuns p s, m.text = w ∧ m.rest = rest) ↔
      s = w ++ rest ∧ ∀ c ∈ w, p c = true := by
  constructor
  · rintro ⟨m, hm, rfl, rfl⟩
    obtain ⟨hs, hp, -⟩ := starRuns_spec p s m hm
    exact ⟨hs.symm, hp⟩
  · rintro ⟨rfl, hp⟩
    induction w with
    | nil =>
        cases rest with
        | nil => exact ⟨⟨[], [], none⟩, by simp [starRuns], rfl, rfl⟩
        | cons c rest => exact ⟨⟨[], c :: rest, none⟩, by simp [starRuns], rfl, rfl⟩
    | cons c w ih =>
        obtain ⟨m, hm, rfl, rfl⟩ := ih fun d hd => hp d (List.mem_cons_of_mem c hd)
        refine ⟨{ m with text := c :: m.text }, ?_, rfl, rfl⟩
        rw [List.cons_append, starRuns, if_pos (hp c List.mem_cons_self)]
        exact List.mem_append_left _ (List.mem_map_of_mem hm)

theorem exists_mem_run_set_iff (p : Char → Bool) (prev : Option Char) (s w rest : List Char) :
    (∃ m ∈ run (set p) prev s, m.text = w ∧ m.rest = rest) ↔
      s = w ++ rest ∧ Accepts (set p) prev w rest.head? := by
  cases s with
  | nil =>
      constructor
      · rintro ⟨m, hm, -⟩
        cases hm
      · rintro ⟨hs, d, rfl, -⟩
        cases hs
  | cons c s =>
      simp only [run, Accepts]
      constructor
      · rintro ⟨m, hm, rfl, rfl⟩
        split_ifs at hm with hc
        · rw [List.mem_singleton] at hm
          subst hm
          exact ⟨rfl, c, rfl, hc⟩
        · cases hm
      · rintro ⟨hs, d, rfl, hd⟩
        obtain ⟨rfl, rfl⟩ := List.cons.inj hs
        exact ⟨_, by rw [if_pos hd]; exact List.mem_singleton_self _, rfl, rfl⟩

theorem exists_mem_run_look_iff (p : Option Char → Option Char → Bool) (prev : Option Char)
    (s w rest : List Char) :
    (∃ m ∈ run (look p) prev s, m.text = w ∧ m.rest = rest) ↔
      s = w ++ rest ∧ Accepts (look p) prev w rest.head? := by
  simp only [run, Accepts]
  constructor
  · rintro ⟨m, hm, rfl, rfl⟩
    split_ifs at hm with hp
    · rw [List.mem_singleton] at hm
      subst hm
      exact ⟨rfl, rfl, hp⟩
    · cases hm
  · rintro ⟨rfl, rfl, hp⟩
    exact ⟨_, by rw [List.nil_append, if_pos hp]; exact List.mem_singleton_self _, rfl, rfl⟩

/-- What is matched by one pattern after the other is an accepted text of each. -/
theorem exists_mem_run_seq_iff {r t : Regex}
    (hr : ∀ prev s w rest, (∃ m ∈ run r prev s, m.text = w ∧ m.rest = rest) ↔
      s = w ++ rest ∧ Accepts r prev w rest.head?)
    (ht : ∀ prev s w rest, (∃ m ∈ run t prev s, m.text = w ∧ m.rest = rest) ↔
      s = w ++ rest ∧ Accepts t prev w rest.head?)
    (prev : Option Char) (s w rest : List Char) :
    (∃ m ∈ run (seq r t) prev s, m.text = w ∧ m.rest = rest) ↔
      s = w ++ rest ∧ Accepts (seq r t) prev w rest.head? := by
  constructor
  · rintro ⟨m, hm, rfl, rfl⟩
    obtain ⟨m₁, h₁, m₂, h₂, rfl⟩ := mem_run_seq.1 hm
    obtain ⟨hs, hu⟩ := (hr prev s m₁.text m₁.rest).1 ⟨m₁, h₁, rfl, rfl⟩
    obtain ⟨hrest, hv⟩ := (ht (m₁.last prev) m₁.rest m₂.text m₂.rest).1 ⟨m₂, h₂, rfl, rfl⟩
    refine ⟨?_, m₁.text, m₂.text, rfl, ?_, hv⟩
    · rw [hs, hrest]
      exact (List.append_assoc _ _ _).symm
    · rw [hrest, List.head?_append] at hu
      exact hu
  · rintro ⟨rfl, u, v, rfl, hu, hv⟩
    rw [← List.head?_append] at hu
    obtain ⟨m₁, h₁, htext, hrest⟩ := (hr prev _ u (v ++ rest)).2 ⟨rfl, hu⟩
    obtain ⟨m₂, h₂, htext', hrest'⟩ := (ht _ _ v rest).2 ⟨rfl, hv⟩
    refine ⟨m₁.append m₂, mem_run_seq.2 ⟨m₁, ?_, m₂, ?_, rfl⟩, ?_, hrest'⟩
    · rw [List.append_assoc]
      exact h₁
    · rw [Match.last, htext, hrest]
      exact h₂
    · rw [← htext, ← htext']
      rfl

/-- The matches of the matcher are the accepted texts. -/
theorem exists_mem_run_iff (r : Regex) (prev : Option Char) (s w rest : List Char) :
    (∃ m ∈ run r prev s, m.text = w ∧ m.rest = rest) ↔
      s = w ++ rest ∧ Accepts r prev w rest.head? := by
  induction r generalizing prev s w rest with
  | eps =>
      simp only [run, Accepts, List.mem_singleton, exists_eq_left]
      constructor
      · rintro ⟨rfl, rfl⟩
        exact ⟨rfl, rfl⟩
      · rintro ⟨rfl, rfl⟩
        exact ⟨rfl, rfl⟩
  | set p => exact exists_mem_run_set_iff p prev s w rest
  | seq r t ihr iht => exact exists_mem_run_seq_iff ihr iht prev s w rest
  | alt r t ihr iht =>
      simp only [run, List.mem_append, or_and_right, exists_or, ihr, iht, Accepts, and_or_left]
  | star p => exact exists_mem_starRuns_iff p s w rest
  | look p => exact exists_mem_run_look_iff p prev s w rest
  | group r ih =>
      rw [Accepts, ← ih]
      simp only [run, List.mem_map, exists_exists_and_eq_and]

theorem accepts_of_mem_run {r : Regex} {prev : Option Char} {s : List Char} {m : Match}
    (h : m ∈ run r prev s) : Accepts r prev m.text m.rest.head? :=
  ((exists_mem_run_iff r prev s m.text m.rest).1 ⟨m, h, rfl, rfl⟩).2

theorem run_ne_nil_of_accepts {r : Regex} {prev : Option Char} {w rest : List Char}
    (h : Accepts r prev w rest.head?) : run r prev (w ++ rest) ≠ [] := by
  obtain ⟨m, hm, -⟩ := (exists_mem_run_iff r prev _ w rest).2 ⟨rfl, h⟩
  exact List.ne_nil_of_mem hm

/-! ## Occurrences -/

/-- An accepted text occurs somewhere in a text. -/
def Occurs (r : Regex) (prev : Option Char) (s : List Char) : Prop :=
  ∃ pre w rest, s = pre ++ w ++ rest ∧ Accepts r (pre.getLast?.or prev) w rest.head?

/-- It occurs at the head or further on. -/
theorem occurs_cons_iff (r : Regex) (prev : Option Char) (c : Char) (s : List Char) :
    Occurs r prev (c :: s) ↔ run r prev (c :: s) ≠ [] ∨ Occurs r (some c) s := by
  constructor
  · rintro ⟨pre, w, rest, hs, h⟩
    cases pre with
    | nil =>
        rw [hs]
        exact .inl (run_ne_nil_of_accepts h)
    | cons d pre =>
        obtain ⟨rfl, rfl⟩ := List.cons.inj hs
        refine .inr ⟨pre, w, rest, rfl, ?_⟩
        rw [← List.singleton_append, List.getLast?_append, Option.or_assoc] at h
        exact h
  · rintro (h | ⟨pre, w, rest, rfl, h⟩)
    · obtain ⟨m, hm⟩ := List.exists_mem_of_ne_nil _ h
      exact ⟨[], m.text, m.rest, (text_append_rest r prev _ m hm).symm, accepts_of_mem_run hm⟩
    · refine ⟨c :: pre, w, rest, rfl, ?_⟩
      rw [← List.singleton_append, List.getLast?_append, Option.or_assoc]
      exact h

theorem search_eq_none_iff (r : Regex) (prev : Option Char) (s : List Char) :
    search r prev s = none ↔ ¬ Occurs r prev s := by
  induction s generalizing prev with
  | nil =>
      rw [search, List.head?_eq_none_iff]
      constructor
      · rintro hrun ⟨pre, w, rest, hs, h⟩
        obtain ⟨hprew, rfl⟩ := List.append_eq_nil_iff.1 hs.symm
        obtain ⟨rfl, rfl⟩ := List.append_eq_nil_iff.1 hprew
        have hempty : Accepts r prev [] ([] : List Char).head? := h
        exact run_ne_nil_of_accepts hempty hrun
      · intro h
        by_contra hrun
        obtain ⟨m, hm⟩ := List.exists_mem_of_ne_nil _ hrun
        exact h ⟨[], m.text, m.rest, (text_append_rest r prev _ m hm).symm, accepts_of_mem_run hm⟩
  | cons c s ih =>
      rw [search, Option.or_eq_none_iff, List.head?_eq_none_iff, ih, occurs_cons_iff, not_or,
        not_not]

/-! ## What accepted texts are made of -/

/-- All characters of an accepted text have `P`. -/
def Over (P : Char → Prop) : Regex → Prop
  | eps | look _ => True
  | set p | star p => ∀ c, p c = true → P c
  | seq r t | alt r t => Over P r ∧ Over P t
  | group r => Over P r

/-- One of the characters has. -/
def Meets (P : Char → Prop) : Regex → Prop
  | eps | look _ | star _ => False
  | set p => ∀ c, p c = true → P c
  | seq r t => Meets P r ∨ Meets P t
  | alt r t => Meets P r ∧ Meets P t
  | group r => Meets P r

/-- There are no assertions. -/
def lookFree : Regex → Bool
  | eps | set _ | star _ => true
  | look _ => false
  | seq r t | alt r t => lookFree r && lookFree t
  | group r => lookFree r

section Syntax

variable {r : Regex} {prev next : Option Char} {w : List Char} {P : Char → Prop}

theorem over_of_accepts (hr : Over P r) (h : Accepts r prev w next) : ∀ c ∈ w, P c := by
  induction r generalizing prev w next with
  | eps =>
      subst h
      simp
  | set p =>
      obtain ⟨c, rfl, hc⟩ := h
      simpa using hr c hc
  | seq r t ihr iht =>
      obtain ⟨u, v, rfl, hu, hv⟩ := h
      intro c hc
      rcases List.mem_append.1 hc with hc | hc
      · exact ihr hr.1 hu c hc
      · exact iht hr.2 hv c hc
  | alt r t ihr iht =>
      rcases h with h | h
      · exact ihr hr.1 h
      · exact iht hr.2 h
  | star p => exact fun c hc => hr c (h c hc)
  | look p =>
      obtain ⟨rfl, -⟩ := h
      simp
  | group r ih => exact ih hr h

theorem meets_of_accepts (hr : Meets P r) (h : Accepts r prev w next) : ∃ c ∈ w, P c := by
  induction r generalizing prev w next with
  | eps => exact hr.elim
  | set p =>
      obtain ⟨c, rfl, hc⟩ := h
      exact ⟨c, List.mem_singleton_self c, hr c hc⟩
  | seq r t ihr iht =>
      obtain ⟨u, v, rfl, hu, hv⟩ := h
      rcases hr with hr | hr
      · obtain ⟨c, hc, hP⟩ := ihr hr hu
        exact ⟨c, List.mem_append_left v hc, hP⟩
      · obtain ⟨c, hc, hP⟩ := iht hr hv
        exact ⟨c, List.mem_append_right u hc, hP⟩
  | alt r t ihr iht =>
      rcases h with h | h
      · exact ihr hr.1 h
      · exact iht hr.2 h
  | star p => exact hr.elim
  | look p => exact hr.elim
  | group r ih => exact ih hr h

theorem Meets.mono {Q : Char → Prop} (h : Meets P r) (hPQ : ∀ c, P c → Q c) : Meets Q r := by
  induction r with
  | set p => exact fun c hc => hPQ c (h c hc)
  | seq r t ihr iht => exact h.imp ihr iht
  | alt r t ihr iht => exact h.imp ihr iht
  | group r ih => exact ih h
  | eps => exact h.elim
  | star p => exact h.elim
  | look p => exact h.elim

theorem Over.mono {Q : Char → Prop} (h : Over P r) (hPQ : ∀ c, P c → Q c) : Over Q r := by
  induction r with
  | eps => trivial
  | set p => exact fun c hc => hPQ c (h c hc)
  | seq r t ihr iht => exact ⟨ihr h.1, iht h.2⟩
  | alt r t ihr iht => exact ⟨ihr h.1, iht h.2⟩
  | star p => exact fun c hc => hPQ c (h c hc)
  | look p => trivial
  | group r ih => exact ih h

theorem ne_nil_of_accepts (hr : Meets P r) (h : Accepts r prev w next) : w ≠ [] := by
  rintro rfl
  obtain ⟨c, hc, -⟩ := meets_of_accepts hr h
  cases hc

/-- Without assertions the characters around do not matter. -/
theorem accepts_of_lookFree (hr : lookFree r = true) (h : Accepts r prev w next)
    (prev' next' : Option Char) : Accepts r prev' w next' := by
  induction r generalizing prev w next prev' next' with
  | eps => exact h
  | set p => exact h
  | seq r t ihr iht =>
      rw [lookFree, Bool.and_eq_true] at hr
      obtain ⟨u, v, rfl, hu, hv⟩ := h
      exact ⟨u, v, rfl, ihr hr.1 hu _ _, iht hr.2 hv _ _⟩
  | alt r t ihr iht =>
      rw [lookFree, Bool.and_eq_true] at hr
      exact h.imp (fun h => ihr hr.1 h _ _) fun h => iht hr.2 h _ _
  | star p => exact h
  | look p => cases hr
  | group r ih => exact ih hr h _ _

theorem accepts_seq_assoc {s t : Regex} :
    Accepts (seq r (seq s t)) prev w next ↔ Accepts (seq (seq r s) t) prev w next := by
  constructor
  · rintro ⟨u, v, rfl, hu, v₁, v₂, rfl, hv₁, hv₂⟩
    refine ⟨u ++ v₁, v₂, (List.append_assoc u v₁ v₂).symm, ⟨u, v₁, rfl, ?_, hv₁⟩, ?_⟩
    · rwa [List.head?_append, Option.or_assoc] at hu
    · rwa [List.getLast?_append, Option.or_assoc]
  · rintro ⟨u, v, rfl, ⟨u₁, u₂, rfl, hu₁, hu₂⟩, hv⟩
    refine ⟨u₁, u₂ ++ v, List.append_assoc u₁ u₂ v, ?_, u₂, v, rfl, hu₂, ?_⟩
    · rwa [List.head?_append, Option.or_assoc]
    · rwa [List.getLast?_append, Option.or_assoc] at hv

theorem over_times (h : Over P r) (n : ℕ) : Over P (times r n) := by
  induction n with
  | zero => trivial
  | succ n ih => exact ⟨h, ih⟩

theorem over_opt (h : Over P r) : Over P (opt r) :=
  ⟨h, trivial⟩

theorem over_upTo (h : Over P r) (n : ℕ) : Over P (upTo r n) := by
  induction n with
  | zero => trivial
  | succ n ih => exact over_opt ⟨h, ih⟩

theorem over_plus {p : Char → Bool} (h : ∀ c, p c = true → P c) : Over P (plus p) :=
  ⟨h, h⟩

/-- A word accepts over the classes of its characters. -/
theorem over_word {text : String} (h : ∀ p ∈ text.toList, ∀ c, sameIgnoringCase p c = true → P c) :
    Over P (word text) := by
  have hlist : ∀ ps : List Char, (∀ p ∈ ps, ∀ c, sameIgnoringCase p c = true → P c) →
      Over P (ps.foldr (fun p r => seq (set (sameIgnoringCase p)) r) eps) := by
    intro ps hps
    induction ps with
    | nil => trivial
    | cons p ps ih =>
        rw [List.forall_mem_cons] at hps
        exact ⟨hps.1, ih hps.2⟩
  exact hlist text.toList h

theorem meets_word {text : String} {p : Char} (hp : p ∈ text.toList)
    (h : ∀ c, sameIgnoringCase p c = true → P c) : Meets P (word text) := by
  have hlist : ∀ ps : List Char, p ∈ ps →
      Meets P (ps.foldr (fun p r => seq (set (sameIgnoringCase p)) r) eps) := by
    intro ps hps
    induction ps with
    | nil => cases hps
    | cons q ps ih =>
        rcases List.mem_cons.1 hps with rfl | hps
        · exact .inl h
        · exact .inr (ih hps)
  exact hlist text.toList hp

theorem lookFree_word (text : String) : lookFree (word text) = true := by
  have hlist : ∀ ps : List Char,
      lookFree (ps.foldr (fun p r => seq (set (sameIgnoringCase p)) r) eps) = true := by
    intro ps
    induction ps with
    | nil => rfl
    | cons p ps ih => rw [List.foldr_cons, lookFree, ih, lookFree, Bool.and_self]
  exact hlist text.toList

/-- What begins with an occurrence of a pattern has one. -/
theorem occurs_of_occurs_seq {t : Regex} {s : List Char} (h : Occurs (seq r t) prev s) :
    Occurs r prev s := by
  obtain ⟨pre, w, rest, rfl, u, v, rfl, hu, -⟩ := h
  refine ⟨pre, u, v ++ rest, by simp, ?_⟩
  rw [List.head?_append]
  exact hu

/-- Nothing occurs in a text that has no such character. -/
theorem not_occurs_of_forall (hr : Meets P r) {s : List Char} (h : ∀ c ∈ s, ¬ P c) :
    ¬ Occurs r prev s := by
  rintro ⟨pre, w, rest, rfl, haccepts⟩
  obtain ⟨c, hc, hP⟩ := meets_of_accepts hr haccepts
  exact h c (List.mem_append_left rest (List.mem_append_right pre hc)) hP

end Syntax

/-! ## Assertions at both ends -/

/-- The assertion of `\b`: exactly one of the two characters is a word character. -/
def wordEdge (u : Unicode) (prev next : Option Char) : Bool :=
  prev.any (isWord u) != next.any (isWord u)

/-- The only assertion of the pattern is `look g` at its end. -/
inductive EndsIn (g : Option Char → Option Char → Bool) : Regex → Prop where
  | look : EndsIn g (look g)
  | seq {r t : Regex} (hr : lookFree r = true) (ht : EndsIn g t) : EndsIn g (seq r t)

section Ends

variable {f g : Option Char → Option Char → Bool} {t : Regex} {prev next : Option Char}
  {w : List Char}

theorem EndsIn.holds (ht : EndsIn g t) (h : Accepts t prev w next) :
    g (w.getLast?.or prev) next = true := by
  induction ht generalizing prev w with
  | look =>
      obtain ⟨rfl, hg⟩ := h
      exact hg
  | seq hr ht ih =>
      obtain ⟨u, v, rfl, -, hv⟩ := h
      rw [List.getLast?_append, Option.or_assoc]
      exact ih hv

/-- Between other characters the assertion is all that has to be checked again. -/
theorem EndsIn.accepts (ht : EndsIn g t) (h : Accepts t prev w next) {prev' next' : Option Char}
    (hg : g (w.getLast?.or prev') next' = true) : Accepts t prev' w next' := by
  induction ht generalizing prev w prev' with
  | look =>
      obtain ⟨rfl, -⟩ := h
      exact ⟨rfl, hg⟩
  | seq hr ht ih =>
      obtain ⟨u, v, rfl, hu, hv⟩ := h
      rw [List.getLast?_append, Option.or_assoc] at hg
      exact ⟨u, v, rfl, accepts_of_lookFree hr hu _ _, ih hv hg⟩

theorem accepts_seq_look_iff :
    Accepts (seq (look f) t) prev w next ↔
      f prev (w.head?.or next) = true ∧ Accepts t prev w next := by
  constructor
  · rintro ⟨u, v, rfl, ⟨rfl, hf⟩, ht⟩
    exact ⟨hf, ht⟩
  · rintro ⟨hf, ht⟩
    exact ⟨[], w, rfl, ⟨rfl, hf⟩, ht⟩

/-- The only assertion of the pattern is `look f`, at its head and at its end. -/
inductive Delimited (f : Option Char → Option Char → Bool) : Regex → Prop where
  | intro {t : Regex} (ht : EndsIn f t) : Delimited f (seq (look f) t)

namespace Delimited

variable {r : Regex}

theorem before (hr : Delimited f r) (h : Accepts r prev w next) :
    f prev (w.head?.or next) = true := by
  obtain ⟨ht⟩ := hr
  exact (accepts_seq_look_iff.1 h).1

theorem after (hr : Delimited f r) (h : Accepts r prev w next) :
    f (w.getLast?.or prev) next = true := by
  obtain ⟨ht⟩ := hr
  exact ht.holds (accepts_seq_look_iff.1 h).2

theorem accepts (hr : Delimited f r) (h : Accepts r prev w next) {prev' next' : Option Char}
    (hbefore : f prev' (w.head?.or next') = true) (hafter : f (w.getLast?.or prev') next' = true) :
    Accepts r prev' w next' := by
  obtain ⟨ht⟩ := hr
  exact accepts_seq_look_iff.2 ⟨hbefore, ht.accepts (accepts_seq_look_iff.1 h).2 hafter⟩

end Delimited

end Ends

end Regex

end Python
