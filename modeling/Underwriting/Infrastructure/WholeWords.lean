import Underwriting.Infrastructure.PhraseSides

/-!
# Phrases that have to be words of their own

`you are now` and `act as a` are replaced only where they stand free, and a phrase next to them
that a later pattern replaces may leave them free too late. `LeftBehind` says that this
happens in a text, and `WholeWord.occurs_iff` that nothing else brings such a phrase into the
sanitized text.
-/

namespace Underwriting

open Python Python.Regex

/-- The patterns that are applied before any that asks for a word. -/
def firstPatterns : List Regex := [ignoreInstructions, disregardEarlier]

/-- The patterns that a word character right before the text does not keep out. -/
def openPatterns : List Regex :=
  [ignoreInstructions, disregardEarlier, newInstructions, revealPrompt]

theorem WordEnds.exists_ends {u : Unicode} {w : List Char} (h : WordEnds u w) :
    ∃ c d, w.head? = some c ∧ w.getLast? = some d ∧ isWord u c = true ∧ isWord u d = true := by
  obtain ⟨c, hc, hletter⟩ := (Option.any_eq_true _ _).1 h.head
  obtain ⟨d, hd, hletter'⟩ := (Option.any_eq_true _ _).1 h.last
  exact ⟨c, d, hc, hd, hletter, hletter'⟩

/-- The phrase is in the text, and what is around it ends free. But it did not stand free yet when
only the patterns in `first` had been applied to what is on the left, and those in `before` to
what is on the right. -/
def LeftBehind (u : Unicode) (phrase : Regex) (before : List Regex) (text : List Char) : Prop :=
  ∃ pre w rest, text = pre ++ (w ++ rest) ∧ Accepts phrase none w none ∧
    (FreeBefore u firstPatterns pre ∨ EndsReveal pre) ∧ FreeAfter u openPatterns rest ∧
    ¬ (FreeBefore u firstPatterns pre ∧ FreeAfter u before rest)

/-- One of the seven patterns, which accepts a phrase where it stands free. -/
structure WholeWord (u : Unicode) (t phrase : Regex) (before after : List Regex) : Prop where
  patterns : injectionPatterns u = before ++ t :: after
  accepts_iff : ∀ {prev w next}, Accepts t prev w next ↔
    Accepts phrase none w none ∧ Free u prev ∧ Free u next
  wordEnds : ∀ {w}, Accepts phrase none w none → WordEnds u w
  /-- When the pattern is applied, only the first ones have freed what is on the left. -/
  left : ∀ {c x a}, isWord u c = true → Substs placeholder.toList (some c) none before x a →
    (Free u a.getLast? ↔ FreeBefore u firstPatterns x)
  /-- A phrase that is not replaced stays. -/
  kept : ∀ {w x y out}, Accepts phrase none w none → FreeAfter u openPatterns y →
    ¬ (FreeBefore u firstPatterns x ∧ FreeAfter u (before.filter lookFree) y) →
    Substs placeholder.toList none none (injectionPatterns u) (x ++ (w ++ y)) out →
    ∃ a b, out = a ++ (w ++ b) ∧
      Substs placeholder.toList w.head? none (injectionPatterns u) x a ∧
      Substs placeholder.toList none w.getLast? (injectionPatterns u) y b

namespace WholeWord

variable {u : Unicode} {t phrase : Regex} {before after : List Regex} {s out w : List Char}

theorem outside (h : WholeWord u t phrase before after) (hw : Accepts phrase none w none) :
    Outside placeholder.toList w := by
  have ht : t ∈ injectionPatterns u := by
    rw [h.patterns]
    exact List.mem_append_right before List.mem_cons_self
  have haccepts : Accepts t none w none := h.accepts_iff.2 ⟨hw, rfl, rfl⟩
  exact (foreign_injectionPatterns u t ht).outside haccepts

theorem filter_patterns (u : Unicode) : (injectionPatterns u).filter lookFree = openPatterns := rfl

/-- Which sides of a word are free in the end. -/
theorem free_iff {c d : Char} {x y a b : List Char} (hc : isWord u c = true)
    (hd : isWord u d = true)
    (ha : Substs placeholder.toList (some c) none (injectionPatterns u) x a)
    (hb : Substs placeholder.toList none (some d) (injectionPatterns u) y b) :
    Free u a.getLast? ∧ Free u b.head? ↔
      (FreeBefore u firstPatterns x ∨ EndsReveal x) ∧ FreeAfter u openPatterns y := by
  rw [free_getLast?_all hc ha, free_head?_iff List.prefix_rfl hd hb, filter_patterns, firstPatterns]

/-- The sanitized text has the phrase exactly where it is left behind. -/
theorem occurs_iff (h : WholeWord u t phrase before after)
    (hs : Substs placeholder.toList none none (injectionPatterns u) s out) :
    Occurs t none out ↔ LeftBehind u phrase (before.filter lookFree) s := by
  constructor
  · rintro ⟨a, w, b, hout, haccepts⟩
    rw [List.append_assoc] at hout
    rw [Option.or_none, h.accepts_iff] at haccepts
    obtain ⟨hw, hfree⟩ := haccepts
    have houtside := h.outside hw
    obtain ⟨c, d, hhead, hlast, hc, hd⟩ := (h.wordEnds hw).exists_ends
    rw [h.patterns] at hs
    obtain ⟨mid, hbefore, mid', hstep, hafter⟩ := substs_append_iff.1 hs
    obtain ⟨a', b', hmid', ha, hb⟩ := hafter.exists_split placeholder_ne_nil houtside hout
    obtain ⟨x', y', hmid, hx, hy, hsilent⟩ := hstep.exists_split placeholder_ne_nil houtside hmid'
    obtain ⟨x, y, rfl, hx', hy'⟩ := hbefore.exists_split placeholder_ne_nil houtside hmid
    have hall : Substs placeholder.toList w.head? none (injectionPatterns u) x a := by
      rw [h.patterns]
      exact substs_append_iff.2 ⟨x', hx', a', hx, ha⟩
    have hall' : Substs placeholder.toList none w.getLast? (injectionPatterns u) y b := by
      rw [h.patterns]
      exact substs_append_iff.2 ⟨y', hy', b', hy, hb⟩
    rw [hhead] at hall
    rw [hlast] at hall'
    obtain ⟨hleft, hright⟩ := (free_iff hc hd hall hall').1 hfree
    refine ⟨x, w, y, rfl, hw, hleft, hright, ?_⟩
    -- When its pattern was applied, the phrase was not replaced.
    rintro ⟨hfirst, hlater⟩
    rw [hhead] at hx'
    rw [hlast] at hy'
    have hpart : before <+: injectionPatterns u := ⟨t :: after, h.patterns.symm⟩
    apply hsilent [] w rfl houtside.ne_nil w y' rfl
    rw [List.getLast?_nil, Option.none_or, Option.or_none, Option.or_none, h.accepts_iff]
    exact ⟨hw, (h.left hc hx').2 hfirst, (free_head?_iff hpart hd hy').2 hlater⟩
  · rintro ⟨x, w, y, rfl, hw, hleft, hright, hnot⟩
    obtain ⟨c, d, hhead, hlast, hc, hd⟩ := (h.wordEnds hw).exists_ends
    obtain ⟨a, b, rfl, ha, hb⟩ := h.kept hw hright hnot hs
    rw [hhead] at ha
    rw [hlast] at hb
    refine ⟨a, w, b, (List.append_assoc a w b).symm, ?_⟩
    rw [Option.or_none, h.accepts_iff]
    exact ⟨hw, (free_iff hc hd ha hb).2 ⟨hleft, hright⟩⟩

end WholeWord

/-- A phrase that did not stand free when its pattern was applied was not replaced. -/
theorem not_accepts_of_not_free {u : Unicode} {t phrase : Regex} {before : List Regex}
    {w x y a b : List Char} (hbefore : before <+: injectionPatterns u) (hends : WordEnds u w)
    (ht : ∀ {prev w next}, Accepts t prev w next →
      Accepts phrase none w none ∧ Free u prev ∧ Free u next)
    (hleft : ∀ {c x a}, isWord u c = true → Substs placeholder.toList (some c) none before x a →
      (Free u a.getLast? ↔ FreeBefore u firstPatterns x))
    (ha : Substs placeholder.toList w.head? none before x a)
    (hb : Substs placeholder.toList none w.getLast? before y b)
    (hnot : ¬ (FreeBefore u firstPatterns x ∧ FreeAfter u (before.filter lookFree) y)) :
    ¬ Accepts t (a.getLast?.or none) w (b.head?.or none) := by
  intro haccepts
  obtain ⟨c, d, hhead, hlast, hc, hd⟩ := hends.exists_ends
  rw [hhead] at ha
  rw [hlast] at hb
  rw [Option.or_none, Option.or_none] at haccepts
  obtain ⟨-, hfirst, hlater⟩ := ht haccepts
  exact hnot ⟨(hleft hc ha).1 hfirst, (free_head?_iff hbefore hd hb).1 hlater⟩

/-! ## You are now -/

theorem wholeWord_youAreNow (u : Unicode) : WholeWord u (youAreNow u) youPhrase firstPatterns
    [systemLine, newInstructions, actAs u, revealPrompt] where
  patterns := rfl
  accepts_iff := accepts_youAreNow_iff
  wordEnds hw := wordEnds_of_spelled (by decide) (spells_word (by decide) _ _ _ hw)
  left := free_getLast?_first
  kept := by
    intro w x y out hw _ hnot h
    have hspelled : w.map caseFold ∈ youWords := spells_word (by decide) _ _ _ hw
    have hends : WordEnds u w := wordEnds_of_spelled (by decide) hspelled
    have hpatterns : injectionPatterns u = firstPatterns ++
      youAreNow u :: [systemLine, newInstructions, actAs u, revealPrompt] := rfl
    have hclear := clear_of_youWords (u := u) hspelled
    simp only [List.forall_mem_cons] at hclear
    obtain ⟨hignore, hdisregard, hlater⟩ := hclear
    rw [hpatterns] at h ⊢
    obtain ⟨mid, hbefore, mid', hstep, hafter⟩ := substs_append_iff.1 h
    obtain ⟨a, b, rfl, ha, hb⟩ := hbefore.around rfl hends.ne_nil (by simp [firstPatterns, *])
    have hsolid := solid_of_selfApart (spells_youAreNow u) (by decide) hspelled
    obtain ⟨a', b', rfl, ha', hb'⟩ := hsolid.around hstep hends.ne_nil <|
      not_accepts_of_not_free ⟨_, rfl⟩ hends accepts_youAreNow_iff.1 free_getLast?_first ha hb hnot
    obtain ⟨a'', b'', hout, ha'', hb''⟩ := hafter.around rfl hends.ne_nil (by simp [*])
    exact ⟨a'', b'', hout, substs_append_iff.2 ⟨a, ha, a', ha', ha''⟩,
      substs_append_iff.2 ⟨b, hb, b', hb', hb''⟩⟩

/-! ## Act as -/

section ActAs

variable {u : Unicode} {prev next : Option Char} {x y v w m out : List Char}

/-- The spellings differ in their last letter, if one begins another. -/
theorem eq_or_concat_of_actWords (hv : v.map caseFold ∈ actWords) (hm : m.map caseFold ∈ actWords)
    (hpart : v <+: m) : m = v ∨ ∃ d, m = v ++ [d] ∧ caseFold d = 'n' := by
  have hcheck : (actWords.all fun p => actWords.all fun q =>
      !p.isPrefixOf q || q == p || q == p ++ ['n']) = true := by
    decide
  obtain ⟨z, rfl⟩ := hpart
  have hpair := List.all_eq_true.1 (List.all_eq_true.1 hcheck _ hv) _ hm
  rw [List.map_append, List.isPrefixOf_iff_prefix.2 (List.prefix_append _ _), Bool.not_true,
    Bool.false_or, Bool.or_eq_true, beq_iff_eq, beq_iff_eq, List.append_right_eq_self,
    List.append_cancel_left_eq, List.map_eq_nil_iff, List.map_eq_singleton_iff] at hpair
  rcases hpair with rfl | ⟨d, rfl, hd⟩
  · exact .inl (List.append_nil v)
  · exact .inr ⟨d, rfl, hd⟩

theorem exists_second_of_actWords (hw : w.map caseFold ∈ actWords) :
    ∃ e f rest, w = e :: f :: rest ∧ caseFold f = 'c' := by
  have hcheck : (actWords.all fun p => p.tail.head? == some 'c') = true := by
    decide
  have hsecond := List.all_eq_true.1 hcheck _ hw
  match w, hsecond with
  | e :: f :: rest, hsecond => exact ⟨e, f, rest, rfl, by simpa using hsecond⟩

theorem not_free_of_caseFold {c q : Char} (hc : caseFold c = q) (hq : plainLetter q = true) :
    ¬ Free u (some c) := by
  rw [Free, Option.any_some, isWord_of_caseFold u (hc ▸ hq)]
  simp

/-- `act as` stays where it does not stand free, if it does not go on with the next letter. -/
theorem around_actAs (hw : w.map caseFold ∈ actWords)
    (hy : ∀ c, y.head? = some c → caseFold c ∉ ['c', 'n'])
    (h : Subst (actAs u) placeholder.toList next prev (x ++ (w ++ y)) out)
    (hnot : ¬ Accepts (actAs u) (x.getLast?.or prev) w (y.head?.or next)) :
    ∃ a b, out = a ++ (w ++ b) ∧ Subst (actAs u) placeholder.toList w.head? prev x a ∧
      Subst (actAs u) placeholder.toList next w.getLast? y b := by
  obtain ⟨e, f, w, rfl, hf⟩ := exists_second_of_actWords hw
  have hreach : reachFree ["a".toList] actWords ((e :: f :: w).map caseFold) = true := by
    have hcheck : (actWords.all (reachFree ["a".toList] actWords)) = true := by decide
    exact List.all_eq_true.1 hcheck _ hw
  have hstart : startFree ['c', 'n'] actWords ((f :: w).map caseFold) = true := by
    have hcheck : (actWords.all fun p => startFree ['c', 'n'] actWords p.tail) = true := by
      decide
    exact List.all_eq_true.1 hcheck _ hw
  apply h.around (List.cons_ne_nil e _)
  · intro x₁ x₂ m rest _ hm hx₂ hne haccepts
    -- Only an `a` could be shared, but the phrase goes on with a letter.
    have hletter := mem_of_reachFree (spells_actAs u) hreach hx₂ hne hm haccepts
    obtain ⟨d, rfl, -⟩ := List.map_eq_singleton_iff.1 (List.mem_singleton.1 hletter)
    obtain ⟨-, rfl⟩ := List.cons.inj hm
    exact not_free_of_caseFold hf (by decide) (accepts_actAs_iff.1 haccepts).2.2
  · intro v₁ v₂ hsplit hv₂
    cases v₁ with
    | nil =>
        obtain rfl : e :: f :: w = v₂ := hsplit
        intro m rest hm haccepts
        have hspelled := spells_actAs u _ _ _ haccepts
        rcases List.prefix_or_prefix_of_prefix (List.prefix_append _ y)
          (hm ▸ List.prefix_append m rest) with hpart | hpart
        · rcases eq_or_concat_of_actWords hw hspelled hpart with rfl | ⟨d, rfl, hd⟩
          · obtain rfl := List.append_cancel_left hm
            exact hnot haccepts
          · rw [List.append_assoc] at hm
            obtain rfl := List.append_cancel_left hm
            exact hy d rfl (by simp [hd])
        · rcases eq_or_concat_of_actWords hspelled hw hpart with heq | ⟨d, heq, hd⟩
          · rw [heq] at hm hnot
            obtain rfl := List.append_cancel_left hm
            exact hnot haccepts
          · rw [heq, List.append_assoc] at hm
            obtain rfl := List.append_cancel_left hm
            exact not_free_of_caseFold hd (by decide) (accepts_actAs_iff.1 haccepts).2.2
    | cons d v₁ =>
        obtain ⟨rfl, htail⟩ := List.cons.inj hsplit
        rw [getLast?_cons_or]
        exact silent_of_startFree (spells_actAs u).begins hstart hy htail hv₂

/-- So does it when `new instructions:` is replaced, if it does not go on with an `e`. -/
theorem around_newInstructions (hw : w.map caseFold ∈ actWords)
    (hy : ∀ c, y.head? = some c → caseFold c ∉ ['e'])
    (h : Subst newInstructions placeholder.toList next prev (x ++ (w ++ y)) out) :
    ∃ a b, out = a ++ (w ++ b) ∧ Subst newInstructions placeholder.toList w.head? prev x a ∧
      Subst newInstructions placeholder.toList next w.getLast? y b := by
  obtain ⟨e, f, w, rfl, -⟩ := exists_second_of_actWords hw
  have hreach : NoReach newInstructions (e :: f :: w) :=
    noReach_of_lacksColon (over_newInstructions (by decide) (by decide) rfl)
      (fun _ _ _ => getLast?_of_accepts_newInstructions) (by decide) hw
  have hstart :
      startFree ['e'] ["new instructions".toList] ((e :: f :: w).map caseFold) = true := by
    have hcheck : (actWords.all (startFree ['e'] ["new instructions".toList])) = true := by
      decide
    exact List.all_eq_true.1 hcheck _ hw
  apply h.around (List.cons_ne_nil e _)
  · intro x₁ x₂ m rest _ hm hx₂ hne
    exact hreach x₂ m y rest _ _ hx₂ hne hm
  · intro v₁ v₂ hsplit hv₂
    exact silent_of_startFree begins_newInstructions hstart hy hsplit hv₂

/-! ### The next letter -/

/-- A text that begins with one of the words has its first letter. -/
theorem caseFold_not_mem_of_starts {r : Regex} {ps : List (List Char)} {bad : List Char}
    (hr : Begins r ps) (hps : (ps.all fun p => p.head?.any fun q => !bad.contains q) = true)
    (h : Starts r prev y next) : ∀ c, y.head? = some c → caseFold c ∉ bad := by
  obtain ⟨m, rest, rfl, hm⟩ := h
  obtain ⟨p, hp, hbegins⟩ := hr _ _ _ hm
  obtain ⟨q, hq, hletter⟩ := (Option.any_eq_true _ _).1 (List.all_eq_true.1 hps p hp)
  rw [Bool.not_eq_true', ← Bool.not_eq_true, List.contains_iff_mem] at hletter
  intro c hc
  cases p with
  | nil => cases hq
  | cons q' p =>
      obtain rfl : q' = q := by simpa using hq
      cases m with
      | nil => simp at hbegins
      | cons d m =>
          rw [List.map_cons, List.cons_prefix_cons] at hbegins
          obtain rfl : d = c := by simpa using hc
          exact hbegins.1 ▸ hletter

/-- Apart from `new instructions:`, the phrases begin with one of three letters. -/
theorem caseFold_not_mem_of_open {r : Regex} {bad : List Char} (hr : r ∈ openPatterns)
    (hbad : (['i', 'd', 'r'].any fun q => bad.contains q) = false) (h : Starts r prev y next) :
    r = newInstructions ∨ ∀ c, y.head? = some c → caseFold c ∉ bad := by
  have hletter {ps : List (List Char)} (hbegins : Begins r ps)
      (hps : (ps.all fun p => p.head?.any ['i', 'd', 'r'].contains) = true) :
      ∀ c, y.head? = some c → caseFold c ∉ bad := by
    apply caseFold_not_mem_of_starts hbegins _ h
    rw [List.all_eq_true] at hps ⊢
    intro p hp
    obtain ⟨q, hq, hmem⟩ := (Option.any_eq_true _ _).1 (hps p hp)
    have hnot := List.any_eq_false.1 hbad q (List.contains_iff_mem.1 hmem)
    rw [hq, Option.any_some, Bool.not_eq_true', ← Bool.not_eq_true]
    exact hnot
  simp only [openPatterns, List.mem_cons, List.not_mem_nil, or_false] at hr
  rcases hr with rfl | rfl | rfl | rfl
  · exact .inr (hletter spells_ignoreInstructions.begins (by decide))
  · exact .inr (hletter spells_disregardEarlier.begins (by decide))
  · exact .inl rfl
  · exact .inr (hletter spells_revealPrompt.begins (by decide))

/-- What is free does not begin with a letter. -/
theorem caseFold_not_mem_of_free {bad : List Char} (hbad : (bad.all plainLetter) = true)
    (h : Free u y.head?) : ∀ c, y.head? = some c → caseFold c ∉ bad := by
  intro c hc hmem
  rw [hc] at h
  exact not_free_of_caseFold rfl (List.all_eq_true.1 hbad _ hmem) h

/-- Nor does the text after a phrase that is left behind, once some of the patterns have been
applied to it. -/
theorem caseFold_not_mem_of_freeAfter {rs : List Regex} {bad b : List Char} {d : Char}
    (hrs : rs <+: injectionPatterns u) (hd : isWord u d = true)
    (hbad : (bad.all plainLetter) = true)
    (hstarts : ∀ r ∈ openPatterns, Starts r none y none →
      r ∈ rs ∨ ∀ c, y.head? = some c → caseFold c ∉ bad)
    (hfree : FreeAfter u openPatterns y) (h : Substs placeholder.toList none (some d) rs y b) :
    ∀ c, b.head? = some c → caseFold c ∉ bad := by
  have hplaceholder : ∀ c, placeholder.toList.head? = some c → caseFold c ∉ bad := by
    rw [head?_placeholder]
    rintro _ ⟨⟩ hmem
    have hletter := List.all_eq_true.1 hbad _ hmem
    revert hletter
    decide
  have hiff := h.head?_iff (P := fun o => ∀ c, o = some c → caseFold c ∉ bad) placeholder_ne_nil
    hplaceholder (fun r hr _ _ _ => ne_nil_of_mem (hrs.subset hr))
    ((pairwise_keepsStart hd).sublist hrs.sublist)
  apply hiff.2
  rcases hfree with hfree | ⟨r, hr, hbegins⟩
  · exact .inl (caseFold_not_mem_of_free hbad hfree)
  · rcases hstarts r hr hbegins with hmem | hletter
    · rw [← WholeWord.filter_patterns u, List.mem_filter] at hr
      exact .inr ⟨r, hmem, (starts_of_lookFree hr.2 _ _).1 hbegins⟩
    · exact .inl hletter

end ActAs

theorem wholeWord_actAs (u : Unicode) : WholeWord u (actAs u) actPhrase
    (firstPatterns ++ [youAreNow u, systemLine, newInstructions]) [revealPrompt] where
  patterns := rfl
  accepts_iff := accepts_actAs_iff
  wordEnds hw := wordEnds_of_spelled (by decide) (spells_actPhrase _ _ _ hw)
  left := free_getLast?_before_actAs
  kept := by
    intro w x y out hw hfree hnot h
    have hspelled : w.map caseFold ∈ actWords := spells_actPhrase _ _ _ hw
    have hends : WordEnds u w := wordEnds_of_spelled (by decide) hspelled
    obtain ⟨-, d, -, hlast, -, hd⟩ := hends.exists_ends
    have hpatterns : injectionPatterns u = (firstPatterns ++ [youAreNow u, systemLine]) ++
      newInstructions :: actAs u :: [revealPrompt] := rfl
    have hclear := clear_of_actWords (u := u) hspelled
    simp only [List.forall_mem_cons] at hclear
    obtain ⟨hignore, hdisregard, hyou, hsystem, hreveal, -⟩ := hclear
    rw [hpatterns] at h ⊢
    obtain ⟨mid, hbefore, mid', hnew, mid'', hact, hafter⟩ := substs_append_iff.1 h
    obtain ⟨a₁, b₁, rfl, ha₁, hb₁⟩ := hbefore.around rfl hends.ne_nil (by simp [firstPatterns, *])
    have hnext : ∀ c, b₁.head? = some c → caseFold c ∉ ['e'] := by
      apply caseFold_not_mem_of_freeAfter ⟨_, rfl⟩ hd (by decide) _ hfree (hlast ▸ hb₁)
      intro r hr hstarts
      have hopen : r = newInstructions ∨ ∀ c, y.head? = some c → caseFold c ∉ ['e'] :=
        caseFold_not_mem_of_open hr (by decide) hstarts
      rcases hopen with rfl | hletter
      · exact .inr (caseFold_not_mem_of_starts begins_newInstructions (by decide) hstarts)
      · exact .inr hletter
    obtain ⟨a₂, b₂, rfl, ha₂, hb₂⟩ := around_newInstructions hspelled hnext hnew
    have hleft : Substs placeholder.toList w.head? none
        ((firstPatterns ++ [youAreNow u, systemLine]) ++ [newInstructions]) x a₂ :=
      substs_append_iff.2 ⟨a₁, ha₁, a₂, ha₂, rfl⟩
    have hright : Substs placeholder.toList none w.getLast?
        ((firstPatterns ++ [youAreNow u, systemLine]) ++ [newInstructions]) y b₂ :=
      substs_append_iff.2 ⟨b₁, hb₁, b₂, hb₂, rfl⟩
    have hstay := not_accepts_of_not_free ⟨_, rfl⟩ hends accepts_actAs_iff.1
      free_getLast?_before_actAs hleft hright hnot
    have hnext' : ∀ c, b₂.head? = some c → caseFold c ∉ ['c', 'n'] := by
      apply caseFold_not_mem_of_freeAfter ⟨_, rfl⟩ hd (by decide) _ hfree (hlast ▸ hright)
      intro r hr hstarts
      refine (caseFold_not_mem_of_open hr (by decide) hstarts).imp_left ?_
      rintro rfl
      exact List.mem_append_right _ (List.mem_singleton_self _)
    obtain ⟨a₃, b₃, rfl, ha₃, hb₃⟩ := around_actAs hspelled hnext' hact hstay
    obtain ⟨a₄, b₄, hout, ha₄, hb₄⟩ := hafter.around rfl hends.ne_nil (by simp [*])
    exact ⟨a₄, b₄, hout, substs_append_iff.2 ⟨a₁, ha₁, a₂, ha₂, a₃, ha₃, ha₄⟩,
      substs_append_iff.2 ⟨b₁, hb₁, b₂, hb₂, b₃, hb₃, hb₄⟩⟩

end Underwriting
