import Underwriting.Infrastructure.InjectionPhrases
import Underwriting.Python.Spelling

/-!
# Overlaps of injection phrases

The phrases are compared with each other by their spellings. Most of them cannot overlap, so
that a phrase is not touched when another one is replaced next to it. The exceptions are
`disregard … prior`, whose last letter can be the first one of `reveal your prompt`, and
`act as a` and `act as an`, which can reach into a further letter.
-/

namespace Underwriting

open Python Python.Regex

/-! ## The patterns by name -/

def earlierText : Regex :=
  alt (word "previous") <| alt (word "prior") <| alt (word "above") (set fun _ => false)

def ignoreInstructions : Regex :=
  seq (word "ignore ") <| seq (opt (word "all ")) <| seq (opt (word "the ")) <|
    seq earlierText (word " instructions")

def disregardEarlier : Regex :=
  seq (word "disregard ") <| seq (opt (word "all ")) <| seq (opt (word "the ")) earlierText

def youAreNow (u : Unicode) : Regex := seq (boundary u) <| seq (word "you are now") (boundary u)

def systemLine : Regex :=
  seq lineStart <| seq (star isSpace) <| seq (word "system") <| seq (star isSpace) (char ':')

def newInstructions : Regex := seq (word "new instructions") <| seq (star isSpace) (char ':')

/-- The article at the end of `act as`. -/
def article : Regex := alt (seq (word "a") (opt (word "n"))) (word "the")

def actAs (u : Unicode) : Regex :=
  seq (boundary u) <| seq (word "act as ") <| seq article (boundary u)

def revealPrompt : Regex :=
  seq (word "reveal your ") <| seq (opt (word "system ")) (word "prompt")

theorem injectionPatterns_eq (u : Unicode) : injectionPatterns u =
    [ignoreInstructions, disregardEarlier, youAreNow u, systemLine, newInstructions, actAs u,
      revealPrompt] := rfl

/-! ## Spellings -/

def earlierWords : List (List Char) :=
  ["previous".toList] ++ (["prior".toList] ++ (["above".toList] ++ []))

def ignoreWords : List (List Char) :=
  join ["ignore ".toList] <| join (["all ".toList] ++ [[]]) <| join (["the ".toList] ++ [[]]) <|
    join earlierWords [" instructions".toList]

def disregardWords : List (List Char) :=
  join ["disregard ".toList] <| join (["all ".toList] ++ [[]]) <|
    join (["the ".toList] ++ [[]]) earlierWords

def youWords : List (List Char) := ["you are now".toList]

def actWords : List (List Char) :=
  join ["act as ".toList] <| join ["a".toList] (["n".toList] ++ [[]]) ++ ["the".toList]

def revealWords : List (List Char) :=
  join ["reveal your ".toList] <| join (["system ".toList] ++ [[]]) ["prompt".toList]

theorem spells_earlierText : Spells earlierText earlierWords :=
  spells_alt (spells_word (by decide)) <| spells_alt (spells_word (by decide)) <|
    spells_alt (spells_word (by decide)) spells_set_false

theorem spells_ignoreInstructions : Spells ignoreInstructions ignoreWords :=
  spells_seq (spells_word (by decide)) <| spells_seq (spells_opt (spells_word (by decide))) <|
    spells_seq (spells_opt (spells_word (by decide))) <|
      spells_seq spells_earlierText (spells_word (by decide))

theorem spells_disregardEarlier : Spells disregardEarlier disregardWords :=
  spells_seq (spells_word (by decide)) <| spells_seq (spells_opt (spells_word (by decide))) <|
    spells_seq (spells_opt (spells_word (by decide))) spells_earlierText

theorem spells_revealPrompt : Spells revealPrompt revealWords :=
  spells_seq (spells_word (by decide)) <|
    spells_seq (spells_opt (spells_word (by decide))) (spells_word (by decide))

/-! ## Phrases between boundaries -/

/-- `act as` with its article, without the boundaries. -/
def actPhrase : Regex := seq (word "act as ") article

theorem spells_actPhrase : Spells actPhrase actWords :=
  spells_seq (spells_word (by decide)) <| spells_alt
    (spells_seq (spells_word (by decide)) (spells_opt (spells_word (by decide))))
    (spells_word (by decide))

/-- There is no word character on this side. -/
def Free (u : Unicode) (o : Option Char) : Prop := o.any (isWord u) = false

instance (u : Unicode) (o : Option Char) : Decidable (Free u o) :=
  inferInstanceAs (Decidable (_ = false))

/-- A text that begins and ends in a word character. -/
structure WordEnds (u : Unicode) (w : List Char) : Prop where
  head : w.head?.any (isWord u) = true
  last : w.getLast?.any (isWord u) = true

section Bounded

variable {u : Unicode} {r : Regex} {prev next : Option Char} {w : List Char} {c : Char}

theorem WordEnds.ne_nil (h : WordEnds u w) : w ≠ [] := by
  rintro rfl
  cases h.head

/-- A boundary next to a word character is the end of a word. -/
theorem wordEdge_left (h : w.head?.any (isWord u) = true) :
    wordEdge u prev (w.head?.or next) = true ↔ Free u prev := by
  have hne : w ≠ [] := by
    rintro rfl
    cases h
  rw [head?_or_of_ne_nil hne, wordEdge, h, Free]
  simp

theorem wordEdge_right (h : w.getLast?.any (isWord u) = true) :
    wordEdge u (w.getLast?.or prev) next = true ↔ Free u next := by
  have hne : w ≠ [] := by
    rintro rfl
    cases h
  rw [getLast?_or_of_ne_nil hne, wordEdge, h, Free]
  simp

/-- A small ASCII letter that no other character folds to than its capital. -/
def plainLetter (q : Char) : Bool :=
  q.isLower && q != 'i' && q != 's' && q != 'k'

theorem isWord_of_caseFold (u : Unicode) (h : plainLetter (caseFold c) = true) :
    isWord u c = true := by
  have hletter (hc : c.toNat < 128) (halpha : c.isAlpha = true) : isWord u c = true := by
    rw [isWord, u.isAlnum_ascii c hc, Char.isAlphanum, halpha]
    rfl
  rw [caseFold] at h
  split_ifs at h
  · cases h
  · cases h
  · cases h
  · by_cases hcapital : c.toNat < 65 ∨ 90 < c.toNat
    · rw [toLower_of_not_capital hcapital] at h
      simp only [plainLetter, Bool.and_eq_true] at h
      have hlower := h.1.1.1
      have hrange : c.toNat ≤ 122 := of_decide_eq_true (Bool.and_eq_true_iff.1 hlower).2
      exact hletter (by omega) (Bool.or_eq_true_iff.2 (.inr hlower))
    · have hA : 65 ≤ c.toNat := by omega
      have hZ : c.toNat ≤ 90 := by omega
      have hupper : c.isUpper = true := decide_eq_true ⟨hA, hZ⟩
      exact hletter (by omega) (Bool.or_eq_true_iff.2 (.inl hupper))

theorem wordEnds_of_spelled {ws : List (List Char)}
    (hws : (ws.all fun p => p.head?.any plainLetter && p.getLast?.any plainLetter) = true)
    (h : w.map caseFold ∈ ws) : WordEnds u w := by
  have hends := List.all_eq_true.1 hws _ h
  rw [Bool.and_eq_true, List.head?_map, List.getLast?_map, Option.any_map, Option.any_map] at hends
  constructor
  · obtain ⟨c, hc, hletter⟩ := (Option.any_eq_true _ _).1 hends.1
    rw [hc]
    exact isWord_of_caseFold u hletter
  · obtain ⟨c, hc, hletter⟩ := (Option.any_eq_true _ _).1 hends.2
    rw [hc]
    exact isWord_of_caseFold u hletter

/-- A phrase that is a word of its own. -/
def bounded (u : Unicode) (r : Regex) : Regex := seq (boundary u) (seq r (boundary u))

/-- It is accepted where it stands free on both sides. -/
theorem accepts_bounded_iff {ws : List (List Char)} (hr : lookFree r = true) (hspells : Spells r ws)
    (hws : (ws.all fun p => p.head?.any plainLetter && p.getLast?.any plainLetter) = true) :
    Accepts (bounded u r) prev w next ↔ Accepts r none w none ∧ Free u prev ∧ Free u next := by
  have hend : Accepts (seq r (boundary u)) prev w next ↔ Accepts r none w none ∧ Free u next := by
    constructor
    · rintro ⟨v, v', rfl, hv, rfl, hedge⟩
      have hends := wordEnds_of_spelled (u := u) hws (hspells _ _ _ hv)
      rw [List.append_nil]
      exact ⟨accepts_of_lookFree hr hv _ _, (wordEdge_right hends.last).1 hedge⟩
    · rintro ⟨haccepts, hfree⟩
      have hends := wordEnds_of_spelled (u := u) hws (hspells _ _ _ haccepts)
      exact ⟨w, [], (List.append_nil w).symm, accepts_of_lookFree hr haccepts _ _, rfl,
        (wordEdge_right hends.last).2 hfree⟩
  have hstart (haccepts : Accepts r none w none) :
      wordEdge u prev (w.head?.or next) = true ↔ Free u prev :=
    wordEdge_left (wordEnds_of_spelled hws (hspells _ _ _ haccepts)).head
  rw [bounded, boundary, accepts_seq_look_iff, ← boundary, hend, and_left_comm]
  exact and_congr_right fun haccepts => and_congr_left fun _ => hstart haccepts

/-- The phrase, without the boundaries. -/
def youPhrase : Regex := word "you are now"

theorem accepts_youAreNow_iff : Accepts (youAreNow u) prev w next ↔
    Accepts youPhrase none w none ∧ Free u prev ∧ Free u next :=
  accepts_bounded_iff (lookFree_word _) (spells_word (by decide)) (by decide)

theorem accepts_actAs_iff : Accepts (actAs u) prev w next ↔
    Accepts actPhrase none w none ∧ Free u prev ∧ Free u next := by
  rw [← accepts_bounded_iff (u := u) rfl spells_actPhrase (by decide), actAs, bounded, boundary,
    accepts_seq_look_iff, accepts_seq_look_iff, accepts_seq_assoc, actPhrase]

theorem spells_youAreNow (u : Unicode) : Spells (youAreNow u) youWords := by
  intro prev w next h
  exact spells_word (by decide) _ _ _ (accepts_youAreNow_iff.1 h).1

theorem spells_actAs (u : Unicode) : Spells (actAs u) actWords := by
  intro prev w next h
  exact spells_actPhrase _ _ _ (accepts_actAs_iff.1 h).1

end Bounded

/-! ## Phrases that end in a colon -/

section Colon

variable {r : Regex} {prev next : Option Char} {w v : List Char}

theorem getLast?_of_accepts_colon (h : Accepts (seq r (char ':')) prev w next) :
    w.getLast? = some ':' := by
  obtain ⟨u, v, rfl, -, c, rfl, hc⟩ := h
  obtain rfl : c = ':' := by simpa using hc
  simp

theorem getLast?_of_accepts_newInstructions (h : Accepts newInstructions prev w next) :
    w.getLast? = some ':' :=
  getLast?_of_accepts_colon (accepts_seq_assoc.1 h)

theorem getLast?_of_accepts_systemLine (h : Accepts systemLine prev w next) :
    w.getLast? = some ':' := by
  rw [systemLine, accepts_seq_assoc, accepts_seq_assoc, accepts_seq_assoc] at h
  exact getLast?_of_accepts_colon h

/-- Neither pattern has a character that is neither white space nor in its words. -/
theorem over_newInstructions {q : Char} (hword : q ∉ "new instructions".toList) (hcolon : q ≠ ':')
    (hspace : isSpace q = false) : Over (fun c => caseFold c ≠ q) newInstructions := by
  have hphrase := @over_word_ne "new instructions" q (by decide) hword
  refine ⟨hphrase, ?_, ?_⟩
  · intro c hc
    rw [caseFold_of_isSpace hc]
    rintro rfl
    rw [hspace] at hc
    cases hc
  · intro c hc
    obtain rfl : c = ':' := by simpa using hc
    exact hcolon.symm

theorem over_systemLine {q : Char} (hword : q ∉ "system".toList) (hcolon : q ≠ ':')
    (hspace : isSpace q = false) : Over (fun c => caseFold c ≠ q) systemLine := by
  have hgap (c : Char) (hc : isSpace c = true) : caseFold c ≠ q := by
    rw [caseFold_of_isSpace hc]
    rintro rfl
    rw [hspace] at hc
    cases hc
  refine ⟨trivial, hgap, over_word_ne (by decide) hword, hgap, ?_⟩
  intro c hc
  obtain rfl : c = ':' := by simpa using hc
  exact hcolon.symm

/-- A spelling with an `a` and without a colon. -/
def lacksColon (ws : List (List Char)) : Bool :=
  ws.all fun p => p.contains 'a' && !p.contains ':'

/-- A match that ends in a colon does not reach into such a phrase. -/
theorem noReach_of_lacksColon {vs : List (List Char)} (hr : Over (fun c => caseFold c ≠ 'a') r)
    (hlast : ∀ prev w next, Accepts r prev w next → w.getLast? = some ':')
    (hvs : lacksColon vs = true) (hv : v.map caseFold ∈ vs) : NoReach r v := by
  have hspelled := List.all_eq_true.1 hvs _ hv
  rw [Bool.and_eq_true, Bool.not_eq_true', ← Bool.not_eq_true, List.contains_iff_mem,
    List.contains_iff_mem] at hspelled
  obtain ⟨c, hc, ha⟩ := List.mem_map.1 hspelled.1
  apply noReach_of_getLast hr hlast
  · intro hcolon
    exact hspelled.2 (List.mem_map_of_mem hcolon)
  · exact ⟨c, hc, not_not.2 ha⟩

theorem begins_newInstructions : Begins newInstructions ["new instructions".toList] :=
  begins_seq (spells_word (by decide)).begins

/-- After white space, a system line goes on with an `s`. -/
theorem begin_of_accepts_systemLine (h : Accepts systemLine prev w next) :
    prev.all (· == '\n') = true ∧ ∃ gap c rest, w = gap ++ c :: rest ∧
      (∀ d ∈ gap, isSpace d = true) ∧ caseFold c = 's' := by
  obtain ⟨u, v, rfl, ⟨rfl, hline⟩, gap, v', rfl, hgap, w', rest, rfl, hw', -⟩ := h
  have hspelled := map_caseFold_of_accepts_word (by decide) hw'
  cases w' with
  | nil => cases hspelled
  | cons c w' =>
      refine ⟨hline, gap, c, w' ++ rest, by simp, hgap, ?_⟩
      have hhead := congrArg List.head? hspelled
      simpa using hhead

/-- Within a line that does not begin with one, no system line begins. -/
theorem noStart_systemLine (hline : '\n' ∉ v)
    (hhead : ∀ c, v.head? = some c → isSpace c = false ∧ caseFold c ≠ 's') :
    NoStart systemLine v := by
  intro v₁ v₂ y prev next hv hv₂ m rest hm haccepts
  obtain ⟨hprev, gap, c, rest', rfl, hgap, hc⟩ := begin_of_accepts_systemLine haccepts
  cases hlast : v₁.getLast? with
  | some d =>
      rw [hlast, Option.some_or, Option.all_some, beq_iff_eq] at hprev
      subst hprev
      exact hline (hv ▸ List.mem_append_left v₂ (List.mem_of_getLast? hlast))
  | none =>
      rw [List.getLast?_eq_none_iff] at hlast
      subst hlast
      obtain ⟨d, v₂, rfl⟩ := List.exists_cons_of_ne_nil hv₂
      obtain ⟨hspace, hne⟩ := hhead d (by rw [hv]; rfl)
      cases gap with
      | nil =>
          obtain ⟨rfl, -⟩ := List.cons.inj hm
          exact hne hc
      | cons e gap =>
          obtain ⟨rfl, -⟩ := List.cons.inj hm
          rw [hgap d List.mem_cons_self] at hspace
          cases hspace

/-- Nor does one begin in what follows such a line, if that has no `s` and does not end in white
space. -/
theorem noStart_systemLine_append {tail : List Char} (hv : NoStart systemLine v)
    (hs : ∀ c ∈ tail, caseFold c ≠ 's') (hlast : ∀ c, tail.getLast? = some c → isSpace c = false) :
    NoStart systemLine (v ++ tail) := by
  intro v₁ v₂ y prev next hsplit hv₂
  rcases suffix_cases hsplit with hsuffix | ⟨d, hd, rfl, rfl⟩
  · intro m rest hm haccepts
    obtain ⟨-, gap, c, rest', rfl, hgap, hc⟩ := begin_of_accepts_systemLine haccepts
    rw [List.append_assoc] at hm
    have hnot : ¬ ∀ d ∈ v₂, isSpace d = true := by
      intro hall
      obtain ⟨front, rfl⟩ := hsuffix
      have hspace := hlast (v₂.getLast hv₂) (by
        rw [List.getLast?_append, List.getLast?_eq_some_getLast hv₂, Option.some_or])
      rw [hall _ (List.getLast_mem hv₂)] at hspace
      cases hspace
    -- So the white space of the system line ends within the tail, and its `s` is there too.
    rcases List.append_eq_append_iff.1 hm with ⟨e, rfl, -⟩ | ⟨e, rfl, he⟩
    · exact hnot fun d hd => hgap d (List.mem_append_left e hd)
    · cases e with
      | nil => exact hnot (by simpa using hgap)
      | cons e es =>
          obtain ⟨rfl, -⟩ := List.cons.inj he
          exact hs c (hsuffix.subset (by simp)) hc
  · rw [List.append_assoc]
    exact hv v₁ d _ prev next rfl hd

/-- A spelling without a line break that begins neither with white space nor with an `s`. -/
def lacksLine (ws : List (List Char)) : Bool :=
  ws.all fun p => !p.contains '\n' && p.head?.all fun q => !isSpace q && q != 's'

theorem noStart_of_lacksLine {vs : List (List Char)} (hline : lacksLine vs = true)
    (hv : v.map caseFold ∈ vs) : NoStart systemLine v := by
  have hspelled := List.all_eq_true.1 hline _ hv
  rw [Bool.and_eq_true, Bool.not_eq_true', ← Bool.not_eq_true, List.contains_iff_mem,
    List.head?_map] at hspelled
  apply noStart_systemLine
  · intro hbreak
    exact hspelled.1 (List.mem_map_of_mem hbreak)
  · intro c hc
    have hfirst := hspelled.2
    rw [hc, Option.map_some, Option.all_some, Bool.and_eq_true, Bool.not_eq_true',
      bne_iff_ne] at hfirst
    refine ⟨?_, hfirst.2⟩
    by_contra hspace
    rw [Bool.not_eq_false] at hspace
    rw [caseFold_of_isSpace hspace, hspace] at hfirst
    cases hfirst.1

theorem clear_systemLine {vs : List (List Char)} (hcolon : lacksColon vs = true)
    (hline : lacksLine vs = true) (hv : v.map caseFold ∈ vs) : Clear systemLine v where
  reach := noReach_of_lacksColon (over_systemLine (by decide) (by decide) rfl)
    (fun _ _ _ => getLast?_of_accepts_systemLine) hcolon hv
  start := noStart_of_lacksLine hline hv

theorem clear_newInstructions {vs : List (List Char)} (hcolon : lacksColon vs = true)
    (hstart : (vs.all (startFree [] ["new instructions".toList])) = true)
    (hv : v.map caseFold ∈ vs) : Clear newInstructions v where
  reach := noReach_of_lacksColon (over_newInstructions (by decide) (by decide) rfl)
    (fun _ _ _ => getLast?_of_accepts_newInstructions) hcolon hv
  start := noStart_of_startFree begins_newInstructions (List.all_eq_true.1 hstart _ hv)

end Colon

/-! ## Which phrases keep apart -/

section Apart

variable {u : Unicode} {v : List Char}

theorem clear_of_youWords (hv : v.map caseFold ∈ youWords) :
    ∀ r ∈ [ignoreInstructions, disregardEarlier, systemLine, newInstructions, actAs u,
      revealPrompt], Clear r v := by
  simp only [List.forall_mem_cons, List.not_mem_nil, false_implies, implies_true, and_true]
  refine ⟨?_, ?_, ?_, ?_, ?_, ?_⟩
  · exact clear_of_apart spells_ignoreInstructions (by decide) hv
  · exact clear_of_apart spells_disregardEarlier (by decide) hv
  · exact clear_systemLine (by decide) (by decide) hv
  · exact clear_newInstructions (by decide) (by decide) hv
  · exact clear_of_apart (spells_actAs u) (by decide) hv
  · exact clear_of_apart spells_revealPrompt (by decide) hv

theorem clear_of_actWords (hv : v.map caseFold ∈ actWords) :
    ∀ r ∈ [ignoreInstructions, disregardEarlier, youAreNow u, systemLine, revealPrompt],
      Clear r v := by
  simp only [List.forall_mem_cons, List.not_mem_nil, false_implies, implies_true, and_true]
  refine ⟨?_, ?_, ?_, ?_, ?_⟩
  · exact clear_of_apart spells_ignoreInstructions (by decide) hv
  · exact clear_of_apart spells_disregardEarlier (by decide) hv
  · exact clear_of_apart (spells_youAreNow u) (by decide) hv
  · exact clear_systemLine (by decide) (by decide) hv
  · exact clear_of_apart spells_revealPrompt (by decide) hv

theorem clear_of_revealWords (hv : v.map caseFold ∈ revealWords) :
    ∀ r ∈ [ignoreInstructions, youAreNow u, systemLine, newInstructions, actAs u], Clear r v := by
  simp only [List.forall_mem_cons, List.not_mem_nil, false_implies, implies_true, and_true]
  refine ⟨?_, ?_, ?_, ?_, ?_⟩
  · exact clear_of_apart spells_ignoreInstructions (by decide) hv
  · exact clear_of_apart (spells_youAreNow u) (by decide) hv
  · exact clear_systemLine (by decide) (by decide) hv
  · exact clear_newInstructions (by decide) (by decide) hv
  · exact clear_of_apart (spells_actAs u) (by decide) hv

theorem clear_of_disregardWords (hv : v.map caseFold ∈ disregardWords) :
    Clear ignoreInstructions v :=
  clear_of_apart spells_ignoreInstructions (by decide) hv

end Apart

/-! ## Beginnings inside new instructions -/

section NewInstructions

variable {r : Regex} {prev next : Option Char} {v : List Char}

theorem exists_of_accepts_newInstructions (h : Accepts newInstructions prev v next) :
    ∃ body gap, v = body ++ (gap ++ [':']) ∧ body.map caseFold = "new instructions".toList ∧
      ∀ c ∈ gap, isSpace c = true := by
  obtain ⟨body, w, rfl, hbody, gap, colon, rfl, hgap, c, rfl, hc⟩ := h
  obtain rfl : c = ':' := by simpa using hc
  have hspelled := map_caseFold_of_accepts_word (by decide) hbody
  exact ⟨body, gap, rfl, hspelled, hgap⟩

theorem noStart_newInstructions {ps : List (List Char)} (hr : Begins r ps)
    (hstart : startFree [] ps "new instructions".toList = true)
    (hps : (ps.all fun p => p.head?.any fun q => !isSpace q && q != ':') = true)
    (hv : Accepts newInstructions prev v next) : NoStart r v := by
  obtain ⟨body, gap, rfl, hbody, hgap⟩ := exists_of_accepts_newInstructions hv
  apply noStart_append hr (hbody ▸ hstart) fun _ _ _ => List.not_mem_nil
  intro c hc p hp
  obtain ⟨q, hq, hletter⟩ := (Option.any_eq_true _ _).1 (List.all_eq_true.1 hps p hp)
  rw [Bool.and_eq_true, Bool.not_eq_true', bne_iff_ne] at hletter
  refine ⟨q, hq, ?_⟩
  rcases List.mem_append.1 hc with hc | hc
  · rw [caseFold_of_isSpace (hgap c hc)]
    rintro rfl
    rw [hgap q hc] at hletter
    cases hletter.1
  · obtain rfl := List.mem_singleton.1 hc
    exact hletter.2

theorem noStart_systemLine_newInstructions (hv : Accepts newInstructions prev v next) :
    NoStart systemLine v := by
  obtain ⟨body, gap, rfl, hbody, hgap⟩ := exists_of_accepts_newInstructions hv
  apply noStart_systemLine_append
  · apply noStart_systemLine
    · intro hline
      have hmem := List.mem_map_of_mem (f := caseFold) hline
      rw [hbody] at hmem
      revert hmem
      decide
    · intro c hc
      have hhead := congrArg List.head? hbody
      rw [List.head?_map, hc] at hhead
      have hn : caseFold c = 'n' := by simpa using hhead
      refine ⟨?_, by rw [hn]; decide⟩
      by_contra hspace
      rw [Bool.not_eq_false] at hspace
      rw [caseFold_of_isSpace hspace] at hn
      subst hn
      cases hspace
  · intro c hc
    rcases List.mem_append.1 hc with hc | hc
    · rw [caseFold_of_isSpace (hgap c hc)]
      rintro rfl
      cases hgap _ hc
    · obtain rfl := List.mem_singleton.1 hc
      decide
  · simp [isSpace]

end NewInstructions

end Underwriting
