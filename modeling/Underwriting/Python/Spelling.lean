import Underwriting.Python.Adjacency

/-!
# Spelling

Under `re.IGNORECASE` a word of a pattern accepts the texts that are spelled like it once their
case is folded. So what a pattern made of words accepts is a finite list of spellings, `Spells`,
and whether an accepted text can overlap a given one is decided by comparing spellings.
-/

namespace Python

namespace Regex

/-! ## Folding the case -/

/-- A character as a pattern sees it under `re.IGNORECASE`. -/
def caseFold (c : Char) : Char :=
  if c.toNat = 0x130 ∨ c.toNat = 0x131 then 'i'
  else if c.toNat = 0x17f then 's'
  else if c.toNat = 0x212a then 'k'
  else c.toLower

/-- ASCII without a capital. -/
def isLower (s : List Char) : Bool :=
  s.all fun p => p.toNat < 128 && p.toLower == p

theorem toLower_of_not_capital {c : Char} (h : c.toNat < 65 ∨ 90 < c.toNat) : c.toLower = c := by
  have hcapital : ¬ (c.val ≥ 'A'.val ∧ c.val ≤ 'Z'.val) := by
    rintro ⟨hge, hle⟩
    have hge' : 'A'.toNat ≤ c.toNat := hge
    have hle' : c.toNat ≤ 'Z'.toNat := hle
    have hA : 'A'.toNat = 65 := rfl
    have hZ : 'Z'.toNat = 90 := rfl
    omega
  exact dif_neg hcapital

theorem toLower_toLower (c : Char) : c.toLower.toLower = c.toLower := by
  by_cases hascii : c.toNat < 128
  · have hall : ∀ n < 128, (Char.ofNat n).toLower.toLower = (Char.ofNat n).toLower := by decide
    rw [← Char.ofNat_toNat c]
    exact hall c.toNat hascii
  · have hsame : c.toLower = c := toLower_of_not_capital (.inr (by omega))
    rw [hsame, hsame]

theorem caseFold_eq {p c : Char} (hascii : p.toNat < 128) (hlower : p.toLower = p)
    (h : sameIgnoringCase p c = true) : caseFold c = p := by
  simp only [sameIgnoringCase, hlower, Bool.or_eq_true, Bool.and_eq_true, beq_iff_eq] at h
  have hsame (hc : 128 ≤ c.toNat) : c.toLower ≠ p := by
    rw [toLower_of_not_capital (.inr (by omega))]
    rintro rfl
    omega
  rw [caseFold]
  split_ifs with hi hs hk
  · rcases h with ((h | h) | h) | h
    · exact absurd h (hsame (by omega))
    · exact h.1.symm
    · omega
    · omega
  · rcases h with ((h | h) | h) | h
    · exact absurd h (hsame (by omega))
    · omega
    · exact h.1.symm
    · omega
  · rcases h with ((h | h) | h) | h
    · exact absurd h (hsame (by omega))
    · omega
    · omega
    · exact h.1.symm
  · rcases h with ((h | h) | h) | h
    · exact h
    · omega
    · omega
    · omega

theorem caseFold_of_isSpace {c : Char} (h : isSpace c = true) : caseFold c = c := by
  simp only [isSpace, List.mem_cons, List.not_mem_nil, or_false, decide_eq_true_eq] at h
  have hplain : c.toNat < 65 ∨ 90 < c.toNat := by omega
  rw [caseFold, toLower_of_not_capital hplain, if_neg (by omega), if_neg (by omega),
    if_neg (by omega)]

/-! ## Spellings -/

/-- Every text that the pattern accepts is spelled as one of the words. -/
def Spells (r : Regex) (ws : List (List Char)) : Prop :=
  ∀ prev w next, Accepts r prev w next → w.map caseFold ∈ ws

/-- The spellings of two parts in a row. -/
def join (us vs : List (List Char)) : List (List Char) :=
  us.flatMap fun u => vs.map fun v => u ++ v

/-- Every text that the pattern accepts begins like one of the words. -/
def Begins (r : Regex) (ps : List (List Char)) : Prop :=
  ∀ prev w next, Accepts r prev w next → ∃ p ∈ ps, p <+: w.map caseFold

section Spelling

variable {r t : Regex} {us vs : List (List Char)} {prev next : Option Char} {w : List Char}

theorem map_caseFold_of_accepts_word {text : String} (hlower : isLower text.toList = true)
    (h : Accepts (word text) prev w next) : w.map caseFold = text.toList := by
  have hlist (ps : List Char) (hps : isLower ps = true) (prev : Option Char) (w : List Char)
      (h : Accepts (ps.foldr (fun p r => seq (set (sameIgnoringCase p)) r) eps) prev w next) :
      w.map caseFold = ps := by
    induction ps generalizing prev w with
    | nil =>
        obtain rfl : w = [] := h
        rfl
    | cons p ps ih =>
        obtain ⟨u, v, rfl, ⟨c, rfl, hc⟩, hv⟩ := h
        simp only [isLower, List.all_cons, Bool.and_eq_true, decide_eq_true_eq, beq_iff_eq] at hps
        rw [List.map_append, List.map_singleton, caseFold_eq hps.1.1 hps.1.2 hc, ih hps.2 _ v hv]
        rfl
  exact hlist text.toList hlower prev w h

/-- In a pattern the case of a word makes no difference. -/
theorem word_toLower (text : String) :
    word (String.ofList (text.toList.map Char.toLower)) = word text := by
  have hclass (p : Char) : sameIgnoringCase p.toLower = sameIgnoringCase p := by
    funext c
    simp only [sameIgnoringCase, toLower_toLower]
  rw [word, word, String.toList_ofList, List.foldr_map]
  simp only [hclass]

theorem map_caseFold_of_accepts_label {text : String}
    (hlower : isLower (text.toList.map Char.toLower) = true)
    (h : Accepts (word text) prev w next) : w.map caseFold = text.toList.map Char.toLower := by
  rw [← word_toLower] at h
  have hspelled := map_caseFold_of_accepts_word (by rwa [String.toList_ofList]) h
  rwa [String.toList_ofList] at hspelled

/-- A word accepts none of the characters that it lacks. -/
theorem over_word_ne {text : String} {q : Char} (hlower : isLower text.toList = true)
    (hq : q ∉ text.toList) : Over (fun c => caseFold c ≠ q) (word text) := by
  apply over_word
  rintro p hp c hc rfl
  have hascii := List.all_eq_true.1 hlower p hp
  rw [Bool.and_eq_true, decide_eq_true_eq, beq_iff_eq] at hascii
  exact hq (caseFold_eq hascii.1 hascii.2 hc ▸ hp)

theorem spells_word {text : String} (hlower : isLower text.toList = true) :
    Spells (word text) [text.toList] := by
  intro prev w next h
  rw [map_caseFold_of_accepts_word hlower h]
  exact List.mem_singleton_self _

theorem spells_seq (hr : Spells r us) (ht : Spells t vs) :
    Spells (seq r t) (join us vs) := by
  rintro prev w next ⟨u, v, rfl, hu, hv⟩
  rw [List.map_append, join, List.mem_flatMap]
  exact ⟨_, hr _ _ _ hu, List.mem_map_of_mem (ht _ _ _ hv)⟩

theorem spells_alt (hr : Spells r us) (ht : Spells t vs) : Spells (alt r t) (us ++ vs) := by
  rintro prev w next (h | h)
  · exact List.mem_append_left vs (hr _ _ _ h)
  · exact List.mem_append_right us (ht _ _ _ h)

theorem spells_opt (hr : Spells r us) : Spells (opt r) (us ++ [[]]) := by
  apply spells_alt hr
  rintro prev w next rfl
  exact List.mem_singleton_self _

theorem spells_set_false : Spells (set fun _ => false) [] := by
  rintro prev w next ⟨c, -, hc⟩
  cases hc

theorem Spells.begins (hr : Spells r us) : Begins r us := by
  intro prev w next h
  exact ⟨_, hr _ _ _ h, List.prefix_rfl⟩

/-- What accepts as its first part decides how an accepted text begins. -/
theorem begins_seq (hr : Begins r us) : Begins (seq r t) us := by
  rintro prev w next ⟨u, v, rfl, hu, -⟩
  obtain ⟨p, hp, hpart⟩ := hr _ _ _ hu
  rw [List.map_append]
  exact ⟨p, hp, hpart.trans (List.prefix_append _ _)⟩

end Spelling

/-! ## Comparing spellings -/

/-- No spelling begins inside `v`, except where the first character after `v` would have to be
one of `bad`. -/
def startFree (bad : List Char) (ps : List (List Char)) (v : List Char) : Bool :=
  v.tails.all fun d => d == [] || ps.all fun p =>
    !p.isPrefixOf d && (!d.isPrefixOf p || p[d.length]?.any bad.contains)

/-- No spelling that begins before `v` reaches into it, except with one of the parts `ex`. -/
def reachFree (ex ws : List (List Char)) (v : List Char) : Bool :=
  ws.all fun w => w.tails.all fun d =>
    d == [] || d == w || !(d.isPrefixOf v || v.isPrefixOf d) || ex.contains d

/-- No spelling ends inside `v`. -/
def endFree (ws : List (List Char)) (v : List Char) : Bool :=
  ws.all fun w => w.tails.all fun d => d == [] || d == v || !d.isPrefixOf v

/-- Spellings that do not overlap in any way. -/
def apart (ws vs : List (List Char)) : Bool :=
  vs.all fun v => startFree [] ws v && reachFree [] ws v

/-- Spellings that overlap only if they are the same. -/
def selfApart (ws : List (List Char)) : Bool :=
  ws.all fun v => startFree [] ws v.tail && reachFree [] ws v &&
    ws.all fun w => !v.isPrefixOf w || v == w

section Comparing

variable {r : Regex} {ws ps ex : List (List Char)} {bad : List Char} {prev next : Option Char}
  {u v m y rest tail : List Char}

theorem silent_of_startFree (hr : Begins r ps) (h : startFree bad ps (v.map caseFold) = true)
    (hy : ∀ c, y.head? = some c → caseFold c ∉ bad) {v₁ v₂ : List Char} (hv : v = v₁ ++ v₂)
    (hv₂ : v₂ ≠ []) : Silent r prev (v₂ ++ y) next := by
  intro m rest hm haccepts
  obtain ⟨p, hp, hbegins⟩ := hr _ _ _ haccepts
  have hsuffix : v₂.map caseFold <:+ v.map caseFold := by
    rw [hv, List.map_append]
    exact List.suffix_append _ _
  have hcheck := List.all_eq_true.1 h _ ((List.mem_tails _ _).2 hsuffix)
  rw [Bool.or_eq_true, beq_iff_eq, List.map_eq_nil_iff, or_iff_right hv₂] at hcheck
  have hfree := List.all_eq_true.1 hcheck p hp
  rw [Bool.and_eq_true, Bool.not_eq_true', ← Bool.not_eq_true, List.isPrefixOf_iff_prefix] at hfree
  have hwhole : p <+: v₂.map caseFold ++ y.map caseFold := by
    rw [← List.map_append, hm, List.map_append]
    exact hbegins.trans (List.prefix_append _ _)
  rcases List.prefix_or_prefix_of_prefix hwhole (List.prefix_append _ _) with hinside | ⟨z, rfl⟩
  · exact hfree.1 hinside
  · -- The text goes on after `v`, with the first character of `y`.
    cases z with
    | nil =>
        rw [List.append_nil] at hfree
        exact hfree.1 List.prefix_rfl
    | cons c z =>
        cases y with
        | nil =>
            rw [List.map_nil, List.append_nil] at hwhole
            exact hfree.1 hwhole
        | cons d y =>
            obtain ⟨rfl, -⟩ : c = caseFold d ∧ z <+: y.map caseFold := by simpa using hwhole
            have hbad : caseFold d ∈ bad := by
              simpa [List.isPrefixOf_iff_prefix.2 (List.prefix_append _ _)] using hfree.2
            exact hy d rfl hbad

theorem noStart_of_startFree (hr : Begins r ps) (h : startFree [] ps (v.map caseFold) = true) :
    NoStart r v := by
  intro v₁ v₂ y prev next hv hv₂
  exact silent_of_startFree hr h (fun c _ => List.not_mem_nil) hv hv₂

/-- The end of two texts in a row begins in the first one, or it is an end of the second. -/
theorem suffix_cases (h : v ++ tail = u ++ y) :
    y <:+ tail ∨ ∃ d, d ≠ [] ∧ v = u ++ d ∧ y = d ++ tail := by
  rcases List.append_eq_append_iff.1 h with ⟨z, -, htail⟩ | ⟨d, hv, hy⟩
  · exact .inl ⟨z, htail.symm⟩
  · by_cases hd : d = []
    · subst hd
      exact .inl (hy ▸ List.suffix_rfl)
    · exact .inr ⟨d, hd, hv, hy⟩

/-- It is enough to compare the part of a text before what has none of the first characters. -/
theorem noStart_append (hr : Begins r ps) (h : startFree bad ps (v.map caseFold) = true)
    (hbad : ∀ y c, (tail ++ y).head? = some c → caseFold c ∉ bad)
    (htail : ∀ c ∈ tail, ∀ p ∈ ps, ∃ q, p.head? = some q ∧ q ≠ caseFold c) :
    NoStart r (v ++ tail) := by
  intro v₁ v₂ y prev next hv hv₂
  rcases suffix_cases hv with hsuffix | ⟨d, hd, rfl, rfl⟩
  · intro m rest hm haccepts
    obtain ⟨p, hp, hbegins⟩ := hr _ _ _ haccepts
    obtain ⟨c, v₂, rfl⟩ := List.exists_cons_of_ne_nil hv₂
    obtain ⟨q, hq, hne⟩ := htail c (hsuffix.subset List.mem_cons_self) p hp
    obtain ⟨w, rfl⟩ : ∃ w, p = q :: w := ⟨p.tail, (List.cons_head?_tail hq).symm⟩
    cases m with
    | nil => simp at hbegins
    | cons d m =>
        obtain ⟨rfl, -⟩ := List.cons.inj hm
        rw [List.map_cons, List.cons_prefix_cons] at hbegins
        exact hne hbegins.1
  · rw [List.append_assoc]
    exact silent_of_startFree hr h (hbad y) rfl hd

/-- What reaches into a text is one of the exceptions. -/
theorem mem_of_reachFree (hr : Spells r ws) (h : reachFree ex ws (v.map caseFold) = true)
    (hu : u ≠ []) (hm : m ≠ []) (hv : v ++ y = m ++ rest)
    (haccepts : Accepts r prev (u ++ m) next) :
    m.map caseFold ∈ ex := by
  have hw := hr _ _ _ haccepts
  rw [List.map_append] at hw
  have hcheck := List.all_eq_true.1 (List.all_eq_true.1 h _ hw) (m.map caseFold)
    ((List.mem_tails _ _).2 (List.suffix_append _ _))
  have hproper : m.map caseFold ≠ u.map caseFold ++ m.map caseFold := by
    intro heq
    have hlength := congrArg List.length heq
    have hpos := List.length_pos_of_ne_nil hu
    simp only [List.length_append, List.length_map] at hlength
    omega
  rw [Bool.or_eq_true, List.contains_iff_mem] at hcheck
  refine hcheck.resolve_left fun hapart => ?_
  simp only [Bool.or_eq_true, beq_iff_eq, hproper, List.map_eq_nil_iff, hm, or_false, false_or,
    Bool.not_eq_true', ← Bool.not_eq_true, List.isPrefixOf_iff_prefix] at hapart
  rcases List.prefix_or_prefix_of_prefix (List.prefix_append m rest)
    (hv ▸ List.prefix_append v y) with h | h
  · exact hapart (.inl (h.map caseFold))
  · exact hapart (.inr (h.map caseFold))

theorem noReach_of_reachFree (hr : Spells r ws) (h : reachFree [] ws (v.map caseFold) = true) :
    NoReach r v := by
  intro u m y rest prev next hu hm hv haccepts
  exact List.not_mem_nil (mem_of_reachFree hr h hu hm hv haccepts)

theorem clear_of_apart {vs : List (List Char)} (hr : Spells r ws) (h : apart ws vs = true)
    (hv : v.map caseFold ∈ vs) : Clear r v := by
  have hcheck := List.all_eq_true.1 h _ hv
  rw [Bool.and_eq_true] at hcheck
  exact ⟨noStart_of_startFree hr.begins hcheck.1, noReach_of_reachFree hr hcheck.2⟩

/-- Spellings of two prefixes of one text, when none of them is a proper prefix of another. -/
theorem eq_of_selfApart (h : selfApart ws = true) (hv : v.map caseFold ∈ ws)
    (hm : m.map caseFold ∈ ws) (hpart : v <+: m) : v = m := by
  have hcheck := List.all_eq_true.1 h _ hv
  rw [Bool.and_eq_true] at hcheck
  have hpair := List.all_eq_true.1 hcheck.2 _ hm
  rw [List.isPrefixOf_iff_prefix.2 (hpart.map caseFold), Bool.not_true, Bool.false_or,
    beq_iff_eq] at hpair
  have hlength := congrArg List.length hpair
  rw [List.length_map, List.length_map] at hlength
  exact hpart.eq_of_length hlength

theorem solid_of_selfApart (hr : Spells r ws) (h : selfApart ws = true)
    (hv : v.map caseFold ∈ ws) : Solid r v where
  inner := by
    rintro v₁ v₂ y prev next rfl hv₁ hv₂
    obtain ⟨c, v₁, rfl⟩ := List.exists_cons_of_ne_nil hv₁
    have hcheck := List.all_eq_true.1 h _ hv
    rw [Bool.and_eq_true, Bool.and_eq_true] at hcheck
    have hstart : startFree [] ws ((v₁ ++ v₂).map caseFold) = true := hcheck.1.1
    rw [getLast?_cons_or]
    exact noStart_of_startFree hr.begins hstart v₁ v₂ y _ next rfl hv₂
  reach := by
    have hcheck := List.all_eq_true.1 h _ hv
    rw [Bool.and_eq_true, Bool.and_eq_true] at hcheck
    exact noReach_of_reachFree hr hcheck.1.2
  unique := by
    intro y m rest prev next htext hm
    rcases List.prefix_or_prefix_of_prefix (List.prefix_append v y)
      (htext ▸ List.prefix_append m rest) with hpart | hpart
    · exact (eq_of_selfApart h hv (hr _ _ _ hm) hpart).symm
    · exact eq_of_selfApart h (hr _ _ _ hm) hv hpart

theorem not_accepts_of_endFree (hr : Spells r ws) (h : endFree ws (v.map caseFold) = true)
    (hv : v = m ++ rest) (hm : m ≠ []) (hrest : rest ≠ []) :
    ¬ Accepts r prev (u ++ m) next := by
  intro haccepts
  have hw := hr _ _ _ haccepts
  rw [List.map_append] at hw
  have hcheck := List.all_eq_true.1 (List.all_eq_true.1 h _ hw) (m.map caseFold)
    ((List.mem_tails _ _).2 (List.suffix_append _ _))
  have hbegins := List.isPrefixOf_iff_prefix.2
    (List.prefix_append (m.map caseFold) (rest.map caseFold))
  simp [hm, hv, hrest, hbegins] at hcheck

end Comparing

end Regex

end Python
