import Underwriting.Infrastructure.PhraseOverlaps

/-!
# The sides of a phrase

A phrase that stands between two texts stands free in the end if they leave it free, or if the
characters next to it are replaced. On the right that is a phrase without assertions that
begins there. On the left it is one that ends there; but a prompt is revealed there only if
`disregard … prior` has not taken its first letter away.
-/

namespace Underwriting

open Python Python.Regex

/-- The text ends free, or in one of the phrases. -/
def FreeBefore (u : Unicode) (rs : List Regex) (s : List Char) : Prop :=
  Free u s.getLast? ∨ ∃ r ∈ rs, Ends r none s none

/-- The text begins free, or with one of the phrases. -/
def FreeAfter (u : Unicode) (rs : List Regex) (s : List Char) : Prop :=
  Free u s.head? ∨ ∃ r ∈ rs, Starts r none s none

/-- The prompt is revealed at the end of the text, and its first letter is not the last one of
`disregard … prior`. -/
def EndsReveal (s : List Char) : Prop :=
  ∃ pre v, s = pre ++ v ∧ Accepts revealPrompt none v none ∧
    ¬ Ends disregardEarlier none (pre ++ v.take 1) none

/-! ## The placeholder -/

section Placeholder

variable {u : Unicode} {r : Regex} {prev next : Option Char} {w : List Char}

theorem isWord_placeholder (u : Unicode) : isWord u '[' = false ∧ isWord u ']' = false := by
  constructor
  · rw [isWord, u.isAlnum_ascii '[' (by decide)]
    decide
  · rw [isWord, u.isAlnum_ascii ']' (by decide)]
    decide

theorem free_head?_placeholder (u : Unicode) : Free u placeholder.toList.head? := by
  rw [head?_placeholder, Free, Option.any_some]
  exact (isWord_placeholder u).1

theorem free_getLast?_placeholder (u : Unicode) : Free u placeholder.toList.getLast? := by
  rw [getLast?_placeholder, Free, Option.any_some]
  exact (isWord_placeholder u).2

theorem ne_nil_of_mem (hr : r ∈ injectionPatterns u) (h : Accepts r prev w next) : w ≠ [] :=
  ne_nil_of_accepts (meets_injectionPatterns u r hr) h

end Placeholder

/-! ## On the right -/

section Right

variable {u : Unicode} {d : Char} {next : Option Char} {s y b : List Char}

/-- Right behind a word character no phrase begins that has to be a word or a line. -/
theorem not_starts_bounded (hd : isWord u d = true) (s : List Char) :
    ¬ Starts (youAreNow u) (some d) s none ∧ ¬ Starts systemLine (some d) s none ∧
      ¬ Starts (actAs u) (some d) s none := by
  have hfree : ¬ Free u (some d) := by
    rw [Free, Option.any_some, hd]
    simp
  refine ⟨?_, ?_, ?_⟩
  · rintro ⟨m, rest, -, hm⟩
    exact hfree (accepts_youAreNow_iff.1 hm).2.1
  · rintro ⟨m, rest, -, hm⟩
    have hline := (begin_of_accepts_systemLine hm).1
    obtain rfl : d = '\n' := by simpa using hline
    rw [isWord, u.isAlnum_ascii '\n' (by decide)] at hd
    revert hd
    decide
  · rintro ⟨m, rest, -, hm⟩
    exact hfree (accepts_actAs_iff.1 hm).2.1

/-- A substitution by `r` makes no difference to whether the text begins with `t`. -/
def KeepsStart (d : Char) (r t : Regex) : Prop :=
  ∀ s s', Subst r placeholder.toList none (some d) s s' →
    (Starts t (some d) s' none ↔ Starts t (some d) s none)

theorem keepsStart_of_noStart {r t : Regex} (u : Unicode) (ht : t ∈ injectionPatterns u)
    (hfree : lookFree t = true)
    (hstart : ∀ prev v next, Accepts t prev v next → NoStart r v) : KeepsStart d r t := by
  intro s s' h
  apply h.starts_iff placeholder_ne_nil hfree
  intro prev v next hv
  exact ⟨hstart _ _ _ hv, ((foreign_injectionPatterns u t ht).outside hv).head_not_mem⟩

theorem startFree_revealWords : (revealWords.all (startFree [] disregardWords)) = true := by
  decide

theorem reachFree_revealWords :
    (revealWords.all (reachFree ["r".toList] disregardWords)) = true := by
  decide

theorem noStart_disregard {v : List Char} {prev next : Option Char}
    (hv : Accepts revealPrompt prev v next) : NoStart disregardEarlier v :=
  noStart_of_startFree spells_disregardEarlier.begins
    (List.all_eq_true.1 startFree_revealWords _ (spells_revealPrompt _ _ _ hv))

theorem pairwise_keepsStart (hd : isWord u d = true) :
    (injectionPatterns u).Pairwise (KeepsStart d) := by
  have hbounded (t : Regex) (ht : ∀ s, ¬ Starts t (some d) s none) (r : Regex) :
      KeepsStart d r t := fun s s' _ => iff_of_false (ht s') (ht s)
  have hyou := hbounded (youAreNow u) fun s => (not_starts_bounded hd s).1
  have hsystem := hbounded systemLine fun s => (not_starts_bounded hd s).2.1
  have hact := hbounded (actAs u) fun s => (not_starts_bounded hd s).2.2
  have hdisregard : KeepsStart d ignoreInstructions disregardEarlier :=
    keepsStart_of_noStart u (by simp [injectionPatterns_eq]) rfl fun _ _ _ hv =>
      (clear_of_disregardWords (spells_disregardEarlier _ _ _ hv)).start
  have hnew (r : Regex) (hr : ∀ prev v next, Accepts newInstructions prev v next → NoStart r v) :
      KeepsStart d r newInstructions :=
    keepsStart_of_noStart u (by simp [injectionPatterns_eq]) rfl hr
  have hnewSystem := hnew systemLine fun _ _ _ => noStart_systemLine_newInstructions
  have hnewIgnore := hnew ignoreInstructions fun _ _ _ => noStart_newInstructions
    spells_ignoreInstructions.begins (by decide) (by decide)
  have hnewDisregard := hnew disregardEarlier fun _ _ _ => noStart_newInstructions
    spells_disregardEarlier.begins (by decide) (by decide)
  have hnewYou := hnew (youAreNow u) fun _ _ _ => noStart_newInstructions
    (spells_youAreNow u).begins (by decide) (by decide)
  have hreveal (r : Regex) (hr : ∀ prev v next, Accepts revealPrompt prev v next → NoStart r v) :
      KeepsStart d r revealPrompt :=
    keepsStart_of_noStart u (by simp [injectionPatterns_eq]) rfl hr
  have hrevealClear : ∀ r ∈ [ignoreInstructions, youAreNow u, systemLine, newInstructions, actAs u],
      KeepsStart d r revealPrompt := fun r hr => hreveal r fun _ _ _ hv =>
    (clear_of_revealWords (spells_revealPrompt _ _ _ hv) r hr).start
  have hrevealDisregard := hreveal disregardEarlier fun _ _ _ => noStart_disregard
  rw [injectionPatterns_eq]
  simp only [List.pairwise_cons, List.forall_mem_cons, List.not_mem_nil, false_implies,
    implies_true, and_true, List.Pairwise.nil, hyou, hsystem, hact, hdisregard, hnewIgnore,
    hnewDisregard, hnewYou, hnewSystem, hrevealDisregard, true_and] at hrevealClear ⊢
  simp only [hrevealClear, and_self]

theorem lookFree_of_starts {r : Regex} (hd : isWord u d = true) (hr : r ∈ injectionPatterns u)
    (h : Starts r (some d) s none) : lookFree r = true := by
  obtain ⟨hyou, hsystem, hact⟩ := not_starts_bounded hd s
  simp only [injectionPatterns_eq, List.mem_cons, List.not_mem_nil, or_false] at hr
  rcases hr with rfl | rfl | rfl | rfl | rfl | rfl | rfl
  · rfl
  · rfl
  · exact absurd h hyou
  · exact absurd h hsystem
  · rfl
  · exact absurd h hact
  · rfl

/-- The first character is free after some of the substitutions if it was, or if one of their
phrases without assertions began the text. -/
theorem free_head?_iff {rs : List Regex} (hrs : rs <+: injectionPatterns u)
    (hd : isWord u d = true) (h : Substs placeholder.toList none (some d) rs y b) :
    Free u b.head? ↔ FreeAfter u (rs.filter lookFree) y := by
  rw [h.head?_iff placeholder_ne_nil (free_head?_placeholder u)
    (fun r hr _ _ _ => ne_nil_of_mem (hrs.subset hr))
    ((pairwise_keepsStart hd).sublist hrs.sublist), FreeAfter]
  refine or_congr_right (exists_congr fun r => ?_)
  rw [List.mem_filter, and_assoc]
  refine and_congr_right fun hr => ⟨fun hstarts => ?_, fun hstarts => ?_⟩
  · have hfree := lookFree_of_starts hd (hrs.subset hr) hstarts
    exact ⟨hfree, (starts_of_lookFree hfree none none).1 hstarts⟩
  · exact (starts_of_lookFree hstarts.1 none none).2 hstarts.2

end Right

/-! ## On the left -/

section Left

variable {u : Unicode} {c : Char} {next : Option Char} {s x a : List Char}

/-- Right before a word character no phrase ends that has to be a word. -/
theorem not_ends_bounded (hc : isWord u c = true) (s : List Char) :
    ¬ Ends (youAreNow u) none s (some c) ∧ ¬ Ends (actAs u) none s (some c) := by
  have hfree : ¬ Free u (some c) := by
    rw [Free, Option.any_some, hc]
    simp
  constructor
  · rintro ⟨pre, m, -, hm⟩
    exact hfree (accepts_youAreNow_iff.1 hm).2.2
  · rintro ⟨pre, m, -, hm⟩
    exact hfree (accepts_actAs_iff.1 hm).2.2

/-- A phrase that ends in a colon leaves the place after it free. -/
theorem free_of_ends_colon {r : Regex} {prev next : Option Char} (u : Unicode)
    (hlast : ∀ prev w next, Accepts r prev w next → w.getLast? = some ':')
    (h : Ends r prev s next) : Free u s.getLast? := by
  obtain ⟨pre, m, rfl, hm⟩ := h
  have hcolon := hlast _ _ _ hm
  rw [List.getLast?_append, hcolon, Option.some_or, Free, Option.any_some, isWord,
    u.isAlnum_ascii ':' (by decide)]
  decide

/-- A match at the end of the text leaves the place after it free. -/
def FreesEnd (u : Unicode) (c : Char) (r : Regex) : Prop :=
  ∀ s s', Subst r placeholder.toList (some c) none s s' → Ends r none s (some c) →
    Free u s'.getLast?

theorem exists_replaced {r : Regex} {ws : List (List Char)} {prev : Option Char}
    {s s' pre m : List Char} (hr : r ∈ injectionPatterns u) (hspells : Spells r ws)
    (hend : (ws.all (endFree ws)) = true) (h : Subst r placeholder.toList next prev s s')
    (hs : s = pre ++ m) (hm : Accepts r (pre.getLast?.or prev) m next) :
    ∃ a, s' = a ++ placeholder.toList := by
  have hcheck := List.all_eq_true.1 hend _ (hspells _ _ _ hm)
  exact h.exists_replaced hs hm (ne_nil_of_mem hr hm) fun _ _ _ _ _ hv hm hz =>
    not_accepts_of_endFree hspells hcheck hv hm hz

theorem freesEnd_of_endFree {r : Regex} {ws : List (List Char)} (hr : r ∈ injectionPatterns u)
    (hspells : Spells r ws) (hend : (ws.all (endFree ws)) = true) : FreesEnd u c r := by
  rintro s s' h ⟨pre, m, hs, hm⟩
  obtain ⟨a, rfl⟩ := exists_replaced hr hspells hend h hs hm
  rw [List.getLast?_append, getLast?_or_of_ne_nil placeholder_ne_nil]
  exact free_getLast?_placeholder u

/-- A text that ends in a colon stays free at its end. -/
theorem free_of_subst_of_colon {r t : Regex} {s s' : List Char}
    (hlast : ∀ prev w next, Accepts t prev w next → w.getLast? = some ':')
    (h : Subst r placeholder.toList (some c) none s s') (hends : Ends t none s (some c)) :
    Free u s'.getLast? := by
  rcases h.getLast?_eq placeholder_ne_nil with heq | ⟨heq, -⟩
  · rw [Option.or_none, Option.or_none] at heq
    rw [heq]
    exact free_of_ends_colon u hlast hends
  · rw [heq]
    exact free_getLast?_placeholder u

theorem freesEnd_of_colon {r : Regex} (u : Unicode)
    (hlast : ∀ prev w next, Accepts r prev w next → w.getLast? = some ':') : FreesEnd u c r :=
  fun _ _ h hends => free_of_subst_of_colon hlast h hends

theorem freesEnd (hc : isWord u c = true) : ∀ r ∈ injectionPatterns u, FreesEnd u c r := by
  rw [injectionPatterns_eq]
  simp only [List.forall_mem_cons, List.not_mem_nil, false_implies, implies_true, and_true]
  refine ⟨?_, ?_, ?_, ?_, ?_, ?_, ?_⟩
  · exact freesEnd_of_endFree (by simp [injectionPatterns_eq]) spells_ignoreInstructions
      (by decide)
  · exact freesEnd_of_endFree (by simp [injectionPatterns_eq]) spells_disregardEarlier
      (by decide)
  · exact fun s s' _ hends => absurd hends (not_ends_bounded hc s).1
  · exact freesEnd_of_colon u fun _ _ _ => getLast?_of_accepts_systemLine
  · exact freesEnd_of_colon u fun _ _ _ => getLast?_of_accepts_newInstructions
  · exact fun s s' _ hends => absurd hends (not_ends_bounded hc s).2
  · exact freesEnd_of_endFree (by simp [injectionPatterns_eq]) spells_revealPrompt
      (by decide)

/-- Unless it leaves the end free, a substitution by `r` makes no difference to whether the text
ends with `t`. -/
def KeepsEnd (u : Unicode) (c : Char) (r t : Regex) : Prop :=
  ∀ s s', Subst r placeholder.toList (some c) none s s' → ¬ Free u s'.getLast? →
    (Ends t none s' (some c) ↔ Ends t none s (some c))

theorem keepsEnd_of_colon (r : Regex) {t : Regex}
    (hlast : ∀ prev w next, Accepts t prev w next → w.getLast? = some ':') : KeepsEnd u c r t := by
  intro s s' h hfree
  apply iff_of_false
  · exact fun hends => hfree (free_of_ends_colon u hlast hends)
  · exact fun hends => hfree (free_of_subst_of_colon hlast h hends)

theorem keepsEnd_of_clear {r t : Regex} (ht : t ∈ injectionPatterns u) (hfree : lookFree t = true)
    (hclear : ∀ prev v next, Accepts t prev v next → Clear r v) : KeepsEnd u c r t := by
  intro s s' h _
  apply h.ends_iff placeholder_ne_nil hfree
  intro prev v next hv
  exact ⟨hclear _ _ _ hv, (foreign_injectionPatterns u t ht).outside hv⟩

theorem pairwise_keepsEnd (hc : isWord u c = true) :
    [youAreNow u, systemLine, newInstructions, actAs u, revealPrompt].Pairwise (KeepsEnd u c) := by
  have hact (r : Regex) : KeepsEnd u c r (actAs u) := fun s s' _ _ =>
    iff_of_false (not_ends_bounded hc s').2 (not_ends_bounded hc s).2
  have hsystem (r : Regex) : KeepsEnd u c r systemLine :=
    keepsEnd_of_colon r fun _ _ _ => getLast?_of_accepts_systemLine
  have hnew (r : Regex) : KeepsEnd u c r newInstructions :=
    keepsEnd_of_colon r fun _ _ _ => getLast?_of_accepts_newInstructions
  have hreveal : ∀ r ∈ [ignoreInstructions, youAreNow u, systemLine, newInstructions, actAs u],
      KeepsEnd u c r revealPrompt := fun r hr =>
    keepsEnd_of_clear (by simp [injectionPatterns_eq]) rfl fun _ _ _ hv =>
      clear_of_revealWords (spells_revealPrompt _ _ _ hv) r hr
  simp only [List.pairwise_cons, List.forall_mem_cons, List.not_mem_nil, false_implies,
    implies_true, and_true, List.Pairwise.nil, hact, hsystem, hnew, true_and] at hreveal ⊢
  simp only [hreveal, and_self]

/-- The last character is free after a list of substitutions if it was, or if one of the phrases
ended the text. -/
theorem free_getLast?_iff {rs : List Regex} (hc : isWord u c = true)
    (hmem : ∀ r ∈ rs, r ∈ injectionPatterns u) (hpairwise : rs.Pairwise (KeepsEnd u c))
    (h : Substs placeholder.toList (some c) none rs x a) :
    Free u a.getLast? ↔ Free u x.getLast? ∨ ∃ r ∈ rs, Ends r none x (some c) := by
  have hiff := h.getLast?_iff (P := Free u) placeholder_ne_nil (free_getLast?_placeholder u)
    (fun r hr s s' h hends => by
      rw [Option.or_none]
      exact freesEnd hc r (hmem r hr) s s' h hends)
    (hpairwise.imp fun hkeeps s s' h hfree => hkeeps s s' h (by rwa [Option.or_none] at hfree))
  rwa [Option.or_none, Option.or_none] at hiff

theorem free_getLast?_first (hc : isWord u c = true)
    (h : Substs placeholder.toList (some c) none [ignoreInstructions, disregardEarlier] x a) :
    Free u a.getLast? ↔ FreeBefore u [ignoreInstructions, disregardEarlier] x := by
  have hkeeps : KeepsEnd u c ignoreInstructions disregardEarlier :=
    keepsEnd_of_clear (u := u) (by simp [injectionPatterns_eq]) rfl fun _ _ _ hv =>
      clear_of_disregardWords (spells_disregardEarlier _ _ _ hv)
  have hfree : ∀ r ∈ [ignoreInstructions, disregardEarlier], lookFree r = true := by
    simp only [List.forall_mem_cons, List.not_mem_nil, false_implies, implies_true, and_true]
    exact ⟨rfl, rfl⟩
  rw [free_getLast?_iff hc _ (List.pairwise_pair.2 hkeeps) h, FreeBefore]
  · refine or_congr_right (exists_congr fun r => and_congr_right fun hr => ?_)
    exact ends_of_lookFree (hfree r hr) none none
  · intro r hr
    rw [injectionPatterns_eq]
    exact List.mem_append_left _ hr

/-- After some of the later substitutions, it is free if it was, or if the prompt was revealed at
the end and that has been replaced. -/
theorem free_getLast?_later {rs : List Regex}
    (hrs : rs <+: [youAreNow u, systemLine, newInstructions, actAs u, revealPrompt])
    (hc : isWord u c = true) (h : Substs placeholder.toList (some c) none rs x a) :
    Free u a.getLast? ↔
      Free u x.getLast? ∨ revealPrompt ∈ rs ∧ Ends revealPrompt none x none := by
  rw [free_getLast?_iff hc _ ((pairwise_keepsEnd hc).sublist hrs.sublist) h]
  · constructor
    · rintro (hfree | ⟨r, hr, hends⟩)
      · exact .inl hfree
      · have hcases := hrs.subset hr
        simp only [List.mem_cons, List.not_mem_nil, or_false] at hcases
        rcases hcases with rfl | rfl | rfl | rfl | rfl
        · exact absurd hends (not_ends_bounded hc x).1
        · exact .inl (free_of_ends_colon u (fun _ _ _ => getLast?_of_accepts_systemLine) hends)
        · exact .inl (free_of_ends_colon u (fun _ _ _ => getLast?_of_accepts_newInstructions) hends)
        · exact absurd hends (not_ends_bounded hc x).2
        · exact .inr ⟨hr, (ends_of_lookFree rfl none none).1 hends⟩
    · rintro (hfree | ⟨hr, hends⟩)
      · exact .inl hfree
      · exact .inr ⟨_, hr, (ends_of_lookFree rfl none _).1 hends⟩
  · intro r hr
    rw [injectionPatterns_eq]
    exact List.mem_cons_of_mem _ (List.mem_cons_of_mem _ (hrs.subset hr))

/-! ### A prompt that is revealed at the end -/

theorem outside_revealPrompt {v : List Char} {prev next : Option Char}
    (hv : Accepts revealPrompt prev v next) : Outside placeholder.toList v :=
  (foreign_injectionPatterns .ascii revealPrompt (by simp [injectionPatterns_eq])).outside hv

/-- What ends the result ended the source. -/
theorem exists_source_of_reveal {r : Regex} {v : List Char} {prev : Option Char}
    (h : Subst r placeholder.toList next prev s (a ++ v)) (hv : Accepts revealPrompt none v none) :
    ∃ x, s = x ++ v := by
  have hout : a ++ v = a ++ (v ++ []) := by rw [List.append_nil]
  obtain ⟨x, y, rfl, -, hy, -⟩ := h.exists_split placeholder_ne_nil (outside_revealPrompt hv) hout
  obtain rfl := (hy.eq_nil_iff placeholder_ne_nil).1 rfl
  exact ⟨x, by rw [List.append_nil]⟩

/-- The first substitution does not come near it. -/
theorem endsReveal_ignore (h : Subst ignoreInstructions placeholder.toList next none s a) :
    EndsReveal a ↔ EndsReveal s := by
  have hclear {v : List Char} (hv : Accepts revealPrompt none v none) :
      Clear ignoreInstructions v :=
    clear_of_revealWords (u := .ascii) (spells_revealPrompt _ _ _ hv) _ (by simp)
  -- The letter that `disregard … prior` could take is kept together with what is before it.
  have hsame (x e v) (hv : Accepts revealPrompt none (e :: v) none) (hs : s = x ++ e :: v) :
      ∃ pre, a = pre ++ e :: v ∧
        (Ends disregardEarlier none (pre ++ [e]) none ↔
          Ends disregardEarlier none (x ++ [e]) none) := by
    subst hs
    obtain ⟨pre, hpre, hcut⟩ := (hclear hv).cut_head h
    refine ⟨pre, hpre, ?_⟩
    have hiff := hcut.ends_iff (t := disregardEarlier) placeholder_ne_nil rfl fun _ _ _ hw =>
      ⟨clear_of_disregardWords (spells_disregardEarlier _ _ _ hw),
        (foreign_injectionPatterns .ascii _ (by simp [injectionPatterns_eq])).outside hw⟩
    exact (ends_of_lookFree rfl none _).trans (hiff.trans (ends_of_lookFree rfl none _))
  constructor
  · rintro ⟨pre, v, rfl, hv, hno⟩
    obtain ⟨x, hs⟩ := exists_source_of_reveal h hv
    obtain ⟨e, v, rfl⟩ := List.exists_cons_of_ne_nil (outside_revealPrompt hv).ne_nil
    obtain ⟨pre', hpre, hiff⟩ := hsame x e v hv hs
    obtain rfl := List.append_cancel_right hpre
    exact ⟨x, e :: v, hs, hv, fun hends => hno (hiff.2 hends)⟩
  · rintro ⟨x, v, hs, hv, hno⟩
    obtain ⟨e, v, rfl⟩ := List.exists_cons_of_ne_nil (outside_revealPrompt hv).ne_nil
    obtain ⟨pre, hpre, hiff⟩ := hsame x e v hv hs
    exact ⟨pre, e :: v, hpre, hv, fun hends => hno (hiff.1 hends)⟩

/-- Where `disregard … prior` takes the first letter away, the rest of the phrase stands behind a
placeholder. -/
theorem exists_placeholder_of_ends {e : Char} {x v : List Char}
    (hv : Accepts revealPrompt none (e :: v) none)
    (hends : Ends disregardEarlier none (x ++ [e]) none)
    (h : Subst disregardEarlier placeholder.toList next none (x ++ e :: v) a) :
    ∃ b, a = b ++ placeholder.toList ++ v := by
  obtain ⟨g, d, hsplit, hd⟩ := hends
  have hspelled := spells_disregardEarlier _ _ _ hd
  have htext : x ++ e :: v = g ++ d ++ v := by
    rw [← hsplit]
    simp
  have hlast : (g ++ d).getLast?.or none = some e := by
    rw [← hsplit]
    simp
  rw [htext] at h
  obtain ⟨b, c, rfl, hb, hc⟩ :=
    (solid_of_selfApart spells_disregardEarlier (by decide) hspelled).cut h
  rw [hlast] at hc
  obtain rfl := (noStart_disregard hv).eq_of_tail hc
  obtain ⟨b, rfl⟩ := exists_replaced (u := .ascii) (by simp [injectionPatterns_eq])
    spells_disregardEarlier (by decide) hb rfl (accepts_of_lookFree rfl hd _ _)
  exact ⟨b, rfl⟩

/-- The second one takes its first letter away, or leaves it alone. -/
theorem ends_reveal_disregard (h : Subst disregardEarlier placeholder.toList next none s a) :
    Ends revealPrompt none a none ↔ EndsReveal s := by
  constructor
  · rintro ⟨pre, v, rfl, hv⟩
    have hv := accepts_of_lookFree (r := revealPrompt) rfl hv none none
    obtain ⟨x, rfl⟩ := exists_source_of_reveal h hv
    obtain ⟨e, v, rfl⟩ := List.exists_cons_of_ne_nil (outside_revealPrompt hv).ne_nil
    refine ⟨x, e :: v, rfl, hv, fun hends => ?_⟩
    obtain ⟨b, hb⟩ := exists_placeholder_of_ends hv hends h
    have htext : (pre ++ [e]) ++ v = (b ++ placeholder.toList) ++ v := by
      rw [← hb]
      simp
    have hlast := congrArg List.getLast? (List.append_cancel_right htext)
    rw [List.getLast?_concat, List.getLast?_append, getLast?_or_of_ne_nil placeholder_ne_nil]
      at hlast
    exact (outside_revealPrompt hv).getLast_not_mem e List.mem_cons_self hlast.symm
  · rintro ⟨x, v, rfl, hv, hno⟩
    have hne := (outside_revealPrompt hv).ne_nil
    have hreach : reachFree ["r".toList] disregardWords (v.map caseFold) = true :=
      List.all_eq_true.1 reachFree_revealWords _ (spells_revealPrompt _ _ _ hv)
    rw [← List.append_nil v] at h
    obtain ⟨b, c, rfl, -, hc⟩ := h.around hne
      (fun x₁ x₂ m rest hx htext hx₂ hm haccepts => by
        have hletter := mem_of_reachFree spells_disregardEarlier hreach hx₂ hm htext haccepts
        obtain ⟨e, rfl, -⟩ := List.map_eq_singleton_iff.1 (List.mem_singleton.1 hletter)
        rw [List.append_nil] at htext
        apply hno
        refine ⟨x₁, x₂ ++ [e], ?_, accepts_of_lookFree rfl haccepts _ _⟩
        rw [hx, htext]
        simp)
      (fun v₁ v₂ hsplit hv₂ => noStart_disregard hv v₁ v₂ [] _ _ hsplit hv₂)
    obtain rfl := hc.eq_nil
    exact ⟨b, v, by rw [List.append_nil], accepts_of_lookFree rfl hv _ _⟩

/-! ### Through the whole list -/

theorem not_mem_revealPrompt (u : Unicode) :
    revealPrompt ∉ [youAreNow u, systemLine, newInstructions] := by
  simp [revealPrompt, youAreNow, systemLine, newInstructions, boundary, lineStart, opt, word]

/-- Before `act as` is replaced, a phrase on the left leaves its end free only if one of the
first two has been replaced there. -/
theorem free_getLast?_before_actAs (hc : isWord u c = true)
    (h : Substs placeholder.toList (some c) none ([ignoreInstructions, disregardEarlier] ++
      [youAreNow u, systemLine, newInstructions]) x a) :
    Free u a.getLast? ↔ FreeBefore u [ignoreInstructions, disregardEarlier] x := by
  obtain ⟨mid, hmid, hrest⟩ := substs_append_iff.1 h
  rw [free_getLast?_later ⟨[actAs u, revealPrompt], rfl⟩ hc hrest, free_getLast?_first hc hmid,
    or_iff_left]
  rintro ⟨hmem, -⟩
  exact not_mem_revealPrompt u hmem

theorem free_getLast?_all (hc : isWord u c = true)
    (h : Substs placeholder.toList (some c) none (injectionPatterns u) x a) :
    Free u a.getLast? ↔ FreeBefore u [ignoreInstructions, disregardEarlier] x ∨ EndsReveal x := by
  have hsplit : injectionPatterns u = [ignoreInstructions, disregardEarlier] ++
      [youAreNow u, systemLine, newInstructions, actAs u, revealPrompt] := rfl
  rw [hsplit] at h
  obtain ⟨mid, hmid, hrest⟩ := substs_append_iff.1 h
  rw [free_getLast?_later List.prefix_rfl hc hrest, free_getLast?_first hc hmid]
  obtain ⟨first, hfirst, second, hsecond, rfl⟩ := hmid
  rw [ends_reveal_disregard hsecond, endsReveal_ignore hfirst, and_iff_right (by simp)]

end Left

end Underwriting
