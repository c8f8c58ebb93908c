import Underwriting.Python.Readings

/-!
# Places

The places of a text are where a pattern reads something, each with a mark that says whether its
first character ends a text that a second pattern accepts. A substitution that overlaps neither
leaves the places as they are, `Spares.places_sub`. A substitution by the second pattern takes
away the marked places and leaves the readings of the others, `TakesFirst.readings_sub`.
-/

namespace Python

namespace Regex

/-- A place at which a text is read, and whether the character there ends an accepted text of a
second pattern. -/
structure Place where
  reading : List Char
  taken : Bool
  deriving DecidableEq

/-- `Ends`, as a check. -/
def endsAt (b : Regex) (s : List Char) : Bool :=
  s.tails.any fun d => (run b none d).any fun m => m.rest.isEmpty

/-- The places of `s`, which stands behind `pre`. -/
def places (q b : Regex) : List Char → List Char → List Place
  | _, [] => []
  | pre, c :: s =>
      ((readAt q (c :: s)).map fun text => ⟨text, endsAt b (pre ++ [c])⟩).toList ++
        places q b (pre ++ [c]) s

section Places

variable {q b r : Regex} {repl : List Char} {prev next : Option Char} {s out pre x : List Char}

theorem endsAt_iff (hb : lookFree b = true) : endsAt b s = true ↔ Ends b none s none := by
  rw [endsAt, List.any_eq_true]
  constructor
  · rintro ⟨d, hd, hrun⟩
    obtain ⟨pre, rfl⟩ := (List.mem_tails _ _).1 hd
    obtain ⟨m, hm, hrest⟩ := List.any_eq_true.1 hrun
    have htext := text_append_rest b none d m hm
    rw [List.isEmpty_iff.1 hrest, List.append_nil] at htext
    exact ⟨pre, d, rfl, accepts_of_lookFree hb (htext ▸ accepts_of_mem_run hm) _ _⟩
  · rintro ⟨pre, d, rfl, hd⟩
    have hnone : Accepts b none d ([] : List Char).head? := accepts_of_lookFree hb hd _ _
    obtain ⟨m, hm, -, hrest⟩ :=
      (exists_mem_run_iff b none d d []).2 ⟨(List.append_nil d).symm, hnone⟩
    exact ⟨d, (List.mem_tails _ _).2 (List.suffix_append pre d),
      List.any_eq_true.2 ⟨m, hm, List.isEmpty_iff.2 hrest⟩⟩

theorem map_reading_places (hempty : readAt q [] = none) (b : Regex) (pre s : List Char) :
    (places q b pre s).map Place.reading = readings q s := by
  induction s generalizing pre with
  | nil => simp [places, readings, hempty]
  | cons c s ih =>
      rw [places, List.map_append, ih, readings, readings, List.tails_cons, List.filterMap_cons]
      cases readAt q (c :: s) <;> rfl

/-- The places inside `x` come first. -/
theorem exists_places_append (q b : Regex) (pre x s : List Char) :
    ∃ ps, places q b pre (x ++ s) = ps ++ places q b (pre ++ x) s ∧
      ∀ p ∈ ps, ∃ x₁ d, x = x₁ ++ d ∧ d ≠ [] ∧ readAt q (d ++ s) = some p.reading ∧
        p.taken = endsAt b (pre ++ (x₁ ++ d.take 1)) := by
  induction x generalizing pre with
  | nil => exact ⟨[], by simp, by simp⟩
  | cons c x ih =>
      obtain ⟨ps, hps, hmem⟩ := ih (pre ++ [c])
      refine ⟨((readAt q (c :: x ++ s)).map fun text => ⟨text, endsAt b (pre ++ [c])⟩).toList ++ ps,
        ?_, ?_⟩
      · rw [List.cons_append, places, hps]
        simp
      · intro p hp
        rcases List.mem_append.1 hp with hp | hp
        · obtain ⟨text, htext, rfl⟩ := Option.map_eq_some_iff.1 (Option.mem_toList.1 hp)
          exact ⟨[], c :: x, rfl, List.cons_ne_nil c x, htext, rfl⟩
        · obtain ⟨x₁, d, rfl, hd, hread, htaken⟩ := hmem p hp
          exact ⟨c :: x₁, d, rfl, hd, hread, by simpa using htaken⟩

theorem places_append (h : ∀ d, d ≠ [] → d <:+ x → readAt q (d ++ s) = none) (b : Regex)
    (pre : List Char) : places q b pre (x ++ s) = places q b (pre ++ x) s := by
  obtain ⟨ps, hps, hmem⟩ := exists_places_append q b pre x s
  have hnone : ps = [] := by
    rw [List.eq_nil_iff_forall_not_mem]
    intro p hp
    obtain ⟨x₁, d, rfl, hd, hread, -⟩ := hmem p hp
    cases (h d hd (List.suffix_append x₁ d)).symm.trans hread
  rw [hps, hnone, List.nil_append]

/-- What no accepted text reaches out of does not matter at the end. -/
theorem ends_append_iff {w : List Char}
    (h : ∀ d, d ≠ [] → d <:+ x → ¬ Accepts b none (d ++ w) none) (hb : lookFree b = true) :
    Ends b none (x ++ w) none ↔ Ends b none w none := by
  constructor
  · rintro ⟨front, v, hv, haccepts⟩
    have hfree := accepts_of_lookFree hb haccepts none none
    rcases List.append_eq_append_iff.1 hv with ⟨z, -, rfl⟩ | ⟨d, rfl, rfl⟩
    · exact ⟨z, v, rfl, accepts_of_lookFree hb haccepts _ _⟩
    · by_cases hd : d = []
      · subst hd
        exact ⟨[], w, rfl, accepts_of_lookFree hb haccepts _ _⟩
      · exact absurd hfree (h d hd (List.suffix_append front d))
  · rintro ⟨front, v, rfl, haccepts⟩
    exact ⟨x ++ front, v, (List.append_assoc x front v).symm, accepts_of_lookFree hb haccepts _ _⟩

/-! ### A substitution that leaves the places as they are -/

/-- No match of `r` overlaps a text that `q` accepts, and no replacement does. -/
def Spares (r : Regex) (repl : List Char) (q : Regex) : Prop :=
  ∀ prev v next, Accepts q prev v next → Clear r v ∧ Outside repl v

/-- No text that `q` accepts begins in a match. -/
theorem Spares.not_accepts {m rest d v y : List Char} (h : Spares r repl q)
    (hm : Accepts r prev m (rest.head?.or next)) (hd : d ≠ []) (hsuffix : d <:+ m)
    (hv : v ++ y = d ++ rest) {prev' next' : Option Char} : ¬ Accepts q prev' v next' := by
  intro haccepts
  obtain ⟨hclear, houtside⟩ := h _ _ _ haccepts
  obtain ⟨m₁, rfl⟩ := hsuffix
  by_cases hm₁ : m₁ = []
  · subst hm₁
    exact hclear.start [] v y prev next rfl houtside.ne_nil d rest hv hm
  · exact hclear.reach m₁ d y rest prev next hm₁ hd hv hm

theorem Spares.readAt_match {m rest d : List Char} (h : Spares r repl q)
    (hm : Accepts r prev m (rest.head?.or next)) (hd : d ≠ []) (hsuffix : d <:+ m) :
    readAt q (d ++ rest) = none := by
  by_contra hread
  obtain ⟨v, y, hv, haccepts⟩ := exists_accepts_of_readAt hread
  exact h.not_accepts hm hd hsuffix hv.symm haccepts

/-- No text that `q` accepts ends behind a match and begins in it or before. -/
theorem Spares.not_accepts_across {m w y d : List Char} {front : Option Char}
    (h : Spares r repl q) (hm : Accepts r prev m ((w ++ y).head?.or next))
    (hprev : pre.getLast?.or front = prev) (hne : m ≠ []) (hd : d ≠ []) (hsuffix : d <:+ pre ++ m)
    {prev' next' : Option Char} : ¬ Accepts q prev' (d ++ w) next' := by
  obtain ⟨a, ha⟩ := hsuffix
  rcases List.append_eq_append_iff.1 ha with ⟨e, rfl, rfl⟩ | ⟨e, -, rfl⟩
  · by_cases he : e = []
    · subst he
      exact h.not_accepts hm hne List.suffix_rfl (List.append_assoc _ w y)
    · intro haccepts
      have hlast : e.getLast?.or prev = prev := by
        rw [← hprev, List.getLast?_append, List.getLast?_eq_some_getLast he]
        rfl
      have hsilent := (h _ _ _ haccepts).1.start e (m ++ w) y prev next (List.append_assoc e m w)
        (List.append_ne_nil_of_left_ne_nil hne w)
      rw [hlast] at hsilent
      exact hsilent m (w ++ y) (List.append_assoc m w y) hm
  · exact h.not_accepts hm hd (List.suffix_append e d) (List.append_assoc d w y)

theorem Subst.places_eq (h : Subst r repl next prev s out) (hrepl : repl ≠ [])
    (hq : lookFree q = true) (hb : lookFree b = true) (hread : Spares r repl q)
    (hend : Spares r repl b) {front : Option Char} {pre preOut : List Char}
    (hprev : pre.getLast?.or front = prev)
    (hsame : ∀ w, w <+: s → w <+: out →
      (Ends b none (preOut ++ w) none ↔ Ends b none (pre ++ w) none)) :
    places q b preOut out = places q b pre s := by
  induction h generalizing pre preOut with
  | nil prev => rfl
  | @keep prev c s out hsilent h ih =>
      have hhead := (Subst.keep hsilent h).readAt_eq hrepl hq fun _ _ _ hv =>
        ⟨(hread _ _ _ hv).1.start, (hread _ _ _ hv).2.head_not_mem⟩
      have hc : endsAt b (preOut ++ [c]) = endsAt b (pre ++ [c]) := by
        rw [Bool.eq_iff_iff, endsAt_iff hb, endsAt_iff hb]
        exact hsame [c] (by simp) (by simp)
      have hlater : places q b (preOut ++ [c]) out = places q b (pre ++ [c]) s := by
        apply ih (by simp)
        intro w hw hw'
        rw [List.append_assoc, List.append_assoc]
        exact hsame (c :: w) ((List.prefix_cons_inj c).2 hw) ((List.prefix_cons_inj c).2 hw')
      rw [places, places, hhead, hc, hlater]
  | @replace prev m rest s out hs hne hm h ih =>
      subst hs
      have hsource : places q b pre (m ++ rest) = places q b (pre ++ m) rest :=
        places_append (fun d hd hsuffix => hread.readAt_match hm hd hsuffix) b pre
      have hresult : places q b preOut (repl ++ out) = places q b (preOut ++ repl) out :=
        places_append (fun d hd hsuffix =>
          readAt_of_suffix_repl (fun _ _ _ hv => (hread _ _ _ hv).2) hd hsuffix out) b preOut
      rw [hsource, hresult]
      apply ih (by rw [List.getLast?_append, Option.or_assoc, hprev])
      intro w hw hw'
      obtain ⟨y, rfl⟩ := hw
      have hafter : Ends b none (preOut ++ repl ++ w) none ↔ Ends b none w none := by
        apply ends_append_iff _ hb
        intro d hd hsuffix haccepts
        have hlast := List.mem_append_left w (List.getLast_mem hd)
        apply (hend _ _ _ haccepts).2.getLast_not_mem _ hlast
        obtain ⟨d', hd'⟩ := hsuffix
        have heq := congrArg List.getLast? hd'
        rw [List.getLast?_append, List.getLast?_append, List.getLast?_eq_some_getLast hd,
          List.getLast?_eq_some_getLast hrepl] at heq
        rw [List.getLast?_eq_some_getLast hrepl]
        exact heq.symm
      rw [hafter, ends_append_iff _ hb]
      intro d hd hsuffix
      exact hend.not_accepts_across hm hprev hne hd hsuffix

/-- In a whole text the places stay. -/
theorem Spares.places_sub (hread : Spares r repl q) (hend : Spares r repl b)
    (hrepl : repl ≠ []) (hq : lookFree q = true) (hb : lookFree b = true)
    (hr : ∀ prev w next, Accepts r prev w next → w ≠ []) (s : List Char) :
    places q b [] (sub r repl s) = places q b [] s :=
  (subst_sub hr s).places_eq hrepl hq hb hread hend rfl fun _ _ _ => Iff.rfl

/-- So do the readings, whatever ends at the places. -/
theorem Spares.readings_sub (hread : Spares r repl q) (hrepl : repl ≠ [])
    (hq : lookFree q = true) (hr : ∀ prev w next, Accepts r prev w next → w ≠ []) (s : List Char) :
    readings q (sub r repl s) = readings q s := by
  have hempty := readAt_nil fun _ _ _ hv => (hread _ _ _ hv).2.ne_nil
  have hnever : Spares r repl (set fun _ => false) := by
    rintro prev v next ⟨c, -, hc⟩
    cases hc
  rw [← map_reading_places hempty (set fun _ => false) [], hread.places_sub hnever hrepl hq rfl hr,
    map_reading_places hempty]

/-! ### A substitution that takes places away -/

/-- Matches of `b` share at most their last character with a text that `q` accepts, and no two
of them overlap. -/
structure TakesFirst (b : Regex) (repl : List Char) (q : Regex) : Prop where
  start : ∀ {prev v next}, Accepts q prev v next → NoStart b v
  reach : ∀ {prev v next u m y rest prev' next'}, Accepts q prev v next → u ≠ [] → m ≠ [] →
    v ++ y = m ++ rest → Accepts b prev' (u ++ m) next' → m.length = 1
  outside : ∀ {prev v next}, Accepts q prev v next → Outside repl v
  solid : ∀ {prev v next}, Accepts b prev v next → Solid b v
  ne_nil : ∀ {prev v next}, Accepts b prev v next → v ≠ []

/-- No accepted text begins before `s` and goes on in it. -/
def CutAt (b : Regex) (pre s : List Char) : Prop :=
  ∀ p z, p ≠ [] → z ≠ [] → p <:+ pre → z <+: s → ¬ Accepts b none (p ++ z) none

section TakesFirst

variable {c : Char} {m rest d : List Char} {text : List Char}

/-- Behind such a cut the text can be cut again where no accepted text begins. -/
theorem CutAt.keep (h : CutAt b pre (c :: s)) (hb : lookFree b = true)
    (hsilent : Silent b prev (c :: s) next) : CutAt b (pre ++ [c]) s := by
  intro p z hp hz hpre hs haccepts
  obtain ⟨y, rfl⟩ := hs
  rcases List.suffix_concat_iff.1 hpre with rfl | ⟨p, rfl, hbefore⟩
  · exact hp rfl
  · rw [List.append_assoc] at haccepts
    by_cases hempty : p = []
    · subst hempty
      exact hsilent ([c] ++ z) y rfl (accepts_of_lookFree hb haccepts _ _)
    · exact h p ([c] ++ z) hempty (by simp) hbefore (by simp) haccepts

theorem CutAt.endsAt_eq_false (h : CutAt b pre (c :: s)) (hb : lookFree b = true)
    (hne : ∀ prev v next, Accepts b prev v next → v ≠ []) (hsilent : Silent b prev (c :: s) next) :
    endsAt b (pre ++ [c]) = false := by
  rw [Bool.eq_false_iff, ne_eq, endsAt_iff hb]
  rintro ⟨front, v, hv, haccepts⟩
  have hsuffix : v <:+ pre ++ [c] := ⟨front, hv.symm⟩
  rcases List.suffix_concat_iff.1 hsuffix with rfl | ⟨p, rfl, hpre⟩
  · exact hne _ _ _ haccepts rfl
  · by_cases hempty : p = []
    · subst hempty
      exact hsilent [c] s rfl (accepts_of_lookFree hb haccepts _ _)
    · exact h p [c] hempty (by simp) hpre (by simp) (accepts_of_lookFree hb haccepts _ _)

/-- It can also be cut behind an accepted text that no other one overlaps. -/
theorem CutAt.replace (h : CutAt b pre (m ++ rest)) (hb : lookFree b = true) (hsolid : Solid b m)
    (hne : m ≠ []) : CutAt b (pre ++ m) rest := by
  intro p z hp hz hpre hs haccepts
  obtain ⟨y, rfl⟩ := hs
  obtain ⟨a, ha⟩ := hpre
  rcases List.append_eq_append_iff.1 ha with ⟨e, hpre, rfl⟩ | ⟨e, -, rfl⟩
  · by_cases he : e = []
    · subst he
      rw [List.nil_append] at haccepts
      have hwhole := hsolid.unique (z ++ y) (m ++ z) y none none (List.append_assoc m z y).symm
        (accepts_of_lookFree hb haccepts _ _)
      exact hz (List.append_right_eq_self.1 hwhole)
    · rw [List.append_assoc] at haccepts
      have hbefore : e <:+ pre := ⟨a, hpre.symm⟩
      exact h e (m ++ z) he (List.append_ne_nil_of_left_ne_nil hne z) hbefore (by simp) haccepts
  · by_cases he : e = []
    · subst he
      have hwhole := hsolid.unique (z ++ y) (p ++ z) y none none (by simp)
        (accepts_of_lookFree hb haccepts _ _)
      exact hz (List.append_right_eq_self.1 hwhole)
    · exact hsolid.inner e p (z ++ y) none none rfl he hp (p ++ z) y (by simp)
        (accepts_of_lookFree hb haccepts _ _)

/-- A text that is read where a match goes on begins with the last character of the match. -/
theorem TakesFirst.endsAt_eq_true (htakes : TakesFirst b repl q) (hb : lookFree b = true)
    (hm : Accepts b prev (x ++ d) (rest.head?.or next)) (hd : d ≠ [])
    (hread : readAt q (d ++ rest) = some text) (front : List Char) :
    endsAt b (front ++ (x ++ d.take 1)) = true := by
  obtain ⟨v, y, hv, haccepts⟩ := exists_accepts_of_readAt (Option.ne_none_iff_exists'.2 ⟨_, hread⟩)
  have hx : x ≠ [] := by
    rintro rfl
    have hne := (htakes.outside haccepts).ne_nil
    exact htakes.start haccepts [] v y prev next rfl hne d rest hv.symm hm
  have hlength := htakes.reach haccepts hx hd hv.symm hm
  rw [endsAt_iff hb, List.take_of_length_le hlength.le]
  exact ⟨front, x ++ d, rfl, accepts_of_lookFree hb hm _ _⟩

end TakesFirst

theorem Subst.filter_places (h : Subst b repl next prev s out) (hrepl : repl ≠ [])
    (hq : lookFree q = true) (hb : lookFree b = true) (htakes : TakesFirst b repl q)
    (hcut : CutAt b pre s) :
    ((places q b pre s).filter fun p => !p.taken).map Place.reading = readings q out := by
  induction h generalizing pre with
  | nil prev =>
      have hempty := readAt_nil fun _ _ _ hv => (htakes.outside hv).ne_nil
      simp [places, readings, hempty]
  | @keep prev c s out hsilent h ih =>
      have hhead := (Subst.keep hsilent h).readAt_eq hrepl hq fun _ _ _ hv =>
        ⟨htakes.start hv, (htakes.outside hv).head_not_mem⟩
      have hfree := hcut.endsAt_eq_false hb (fun _ _ _ hv => htakes.ne_nil hv) hsilent
      have hlater := ih (hcut.keep hb hsilent)
      rw [places, hfree, List.filter_append, List.map_append, hlater, readings, readings,
        List.tails_cons, List.filterMap_cons, hhead]
      cases readAt q (c :: s) <;> rfl
  | @replace prev m rest s out hs hne hm h ih =>
      subst hs
      obtain ⟨ps, hps, hmem⟩ := exists_places_append q b pre m rest
      have htaken : ps.filter (fun p => !p.taken) = [] := by
        rw [List.filter_eq_nil_iff]
        intro p hp
        obtain ⟨x₁, d, rfl, hd, hread, hends⟩ := hmem p hp
        rw [hends, htakes.endsAt_eq_true hb hm hd hread pre]
        simp
      have hresult : readings q (repl ++ out) = readings q out :=
        readings_append fun d hd hsuffix =>
          readAt_of_suffix_repl (fun _ _ _ hv => htakes.outside hv) hd hsuffix out
      rw [hps, List.filter_append, htaken, List.nil_append, hresult]
      exact ih (hcut.replace hb (htakes.solid hm) hne)

/-- The readings of the result are those of the places that are not marked. -/
theorem TakesFirst.readings_sub (htakes : TakesFirst b repl q) (hrepl : repl ≠ [])
    (hq : lookFree q = true) (hb : lookFree b = true) (s : List Char) :
    readings q (sub b repl s) =
      ((places q b [] s).filter fun p => !p.taken).map Place.reading := by
  have hcut : CutAt b [] s := fun p z hp _ hpre => absurd (List.suffix_nil.1 hpre) hp
  have hsub : Subst b repl none none s (sub b repl s) :=
    subst_sub (fun _ _ _ hv => htakes.ne_nil hv) s
  exact (hsub.filter_places hrepl hq hb htakes hcut).symm

/-- Patterns that overlap no text that is read leave the readings as they are. -/
theorem readings_foldl {rs : List Regex} (hread : ∀ r ∈ rs, Spares r repl q) (hrepl : repl ≠ [])
    (hq : lookFree q = true) (hne : ∀ r ∈ rs, ∀ prev w next, Accepts r prev w next → w ≠ [])
    (s : List Char) : readings q (rs.foldl (fun s r => sub r repl s) s) = readings q s := by
  induction rs generalizing s with
  | nil => rfl
  | cons r rs ih =>
      rw [List.forall_mem_cons] at hread hne
      rw [List.foldl_cons, ih hread.2 hne.2, hread.1.readings_sub hrepl hq hne.1]

end Places

end Regex

end Python
