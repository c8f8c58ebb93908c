import Underwriting.Python.Substitution

/-!
# Texts that stand side by side

A text that no match overlaps stays where it is in a substitution, `Subst.around`. What stands
on its two sides is substituted on its own, and so through a whole list of patterns, `Substs`.
What the neighbours of the text are in the end depends on what they have been, and on the
matches that stood right before and right after it: `Substs.head?_iff` and
`Substs.getLast?_iff`.
-/

namespace Python

namespace Regex

/-! ## Overlaps -/

/-- No accepted text begins inside `v`, whatever comes after `v`. -/
def NoStart (r : Regex) (v : List Char) : Prop :=
  ∀ v₁ v₂ y prev next, v = v₁ ++ v₂ → v₂ ≠ [] → Silent r (v₁.getLast?.or prev) (v₂ ++ y) next

/-- No accepted text that begins before `v` reaches into it. -/
def NoReach (r : Regex) (v : List Char) : Prop :=
  ∀ u m y rest prev next, u ≠ [] → m ≠ [] → v ++ y = m ++ rest →
    ¬ Accepts r prev (u ++ m) (rest.head?.or next)

/-- No accepted text overlaps `v`. -/
structure Clear (r : Regex) (v : List Char) : Prop where
  start : NoStart r v
  reach : NoReach r v

/-- An accepted text stands at the head of `s`, which stands between `prev` and `next`. -/
def Starts (r : Regex) (prev : Option Char) (s : List Char) (next : Option Char) : Prop :=
  ∃ m rest, s = m ++ rest ∧ Accepts r prev m (rest.head?.or next)

/-- An accepted text stands at the end of `s`. -/
def Ends (r : Regex) (prev : Option Char) (s : List Char) (next : Option Char) : Prop :=
  ∃ pre m, s = pre ++ m ∧ Accepts r (pre.getLast?.or prev) m next

section Around

variable {r t : Regex} {repl : List Char} {prev next : Option Char} {s out v x y : List Char}

/-- A text stays that no match overlaps. -/
theorem Subst.around (h : Subst r repl next prev (x ++ (v ++ y)) out) (hv : v ≠ [])
    (hreach : ∀ x₁ x₂ m rest, x = x₁ ++ x₂ → v ++ y = m ++ rest → x₂ ≠ [] → m ≠ [] →
      ¬ Accepts r (x₁.getLast?.or prev) (x₂ ++ m) (rest.head?.or next))
    (hstart : ∀ v₁ v₂, v = v₁ ++ v₂ → v₂ ≠ [] →
      Silent r (v₁.getLast?.or (x.getLast?.or prev)) (v₂ ++ y) next) :
    ∃ a b, out = a ++ (v ++ b) ∧ Subst r repl v.head? prev x a ∧
      Subst r repl next v.getLast? y b := by
  obtain ⟨a, rest, rfl, ha, hrest⟩ := h.split rfl hreach
  obtain ⟨b, rfl, hb⟩ := hrest.keep_text rfl hstart
  rw [List.head?_append_of_ne_nil v hv, head?_or_of_ne_nil hv] at ha
  rw [getLast?_or_of_ne_nil hv] at hb
  exact ⟨a, b, rfl, ha, hb⟩

/-- No match overlaps a text that has a character `r` cannot accept, when every match ends in a
character that the text lacks. -/
theorem noReach_of_getLast {P : Char → Prop} {q : Char} (hr : Over P r)
    (hlast : ∀ prev w next, Accepts r prev w next → w.getLast? = some q) (hq : q ∉ v)
    (hv : ∃ c ∈ v, ¬ P c) : NoReach r v := by
  intro u m y rest prev next hu hm hsplit haccepts
  have hmq : q ∈ m := by
    have hend := hlast _ _ _ haccepts
    rw [List.getLast?_append, getLast?_or_of_ne_nil hm] at hend
    exact List.mem_of_getLast? hend
  rcases List.prefix_or_prefix_of_prefix (List.prefix_append m rest)
    (hsplit ▸ List.prefix_append v y) with hmv | hvm
  · exact hq (hmv.subset hmq)
  · obtain ⟨c, hc, hnot⟩ := hv
    exact hnot (over_of_accepts hr haccepts c (List.mem_append_right u (hvm.subset hc)))

theorem NoReach.append (h : NoReach r v) (y : List Char) : NoReach r (v ++ y) := by
  intro u m z rest prev next hu hm hsplit
  rw [List.append_assoc] at hsplit
  exact h u m (y ++ z) rest prev next hu hm hsplit

theorem Clear.around (hclear : Clear r v) (h : Subst r repl next prev (x ++ (v ++ y)) out)
    (hv : v ≠ []) : ∃ a b, out = a ++ (v ++ b) ∧ Subst r repl v.head? prev x a ∧
      Subst r repl next v.getLast? y b := by
  apply h.around hv
  · intro x₁ x₂ m rest _ hm hx₂ hne
    exact hclear.reach x₂ m y rest _ _ hx₂ hne hm
  · intro v₁ v₂ hv hv₂
    exact hclear.start v₁ v₂ y _ _ hv hv₂

theorem Subst.eq_nil (h : Subst r repl next prev [] out) : out = [] := by
  cases h with
  | nil => rfl
  | replace hs hne hm h => exact absurd (List.append_eq_nil_iff.1 hs.symm).1 hne

/-- A text that no match overlaps stays at the end. -/
theorem Clear.at_end (hclear : Clear r v) (h : Subst r repl next prev (x ++ v) out) (hv : v ≠ []) :
    ∃ a, out = a ++ v := by
  rw [← List.append_nil v] at h
  obtain ⟨a, b, rfl, -, hb⟩ := hclear.around h hv
  obtain rfl := hb.eq_nil
  exact ⟨a, by rw [List.append_nil]⟩

/-- Behind its first character, such a text stays as it is. -/
theorem NoStart.eq_of_tail {e : Char} (hstart : NoStart r (e :: v))
    (h : Subst r repl next (some e) v out) : out = v := by
  rw [← List.append_nil v] at h
  obtain ⟨b, rfl, hb⟩ := h.keep_text rfl fun w₁ w₂ hw hw₂ => by
    have hsilent := hstart (e :: w₁) w₂ [] none next (by rw [hw]; rfl) hw₂
    rwa [getLast?_cons_or] at hsilent
  rw [hb.eq_nil, List.append_nil]

/-- The result can be cut behind the first character of such a text. -/
theorem Clear.cut_head {e : Char} (hclear : Clear r (e :: v))
    (h : Subst r repl next prev (x ++ e :: v) out) : ∃ a, out = a ++ e :: v ∧
      Subst r repl (v.head?.or next) prev (x ++ [e]) (a ++ [e]) := by
  obtain ⟨a, hout⟩ := hclear.at_end h (List.cons_ne_nil e v)
  have hsplit : x ++ e :: v = (x ++ [e]) ++ v := by simp
  obtain ⟨a', b, hout', hx, hv⟩ := h.split hsplit fun x₁ x₂ y₁ y₂ hx hv hx₂ hy₁ => by
    obtain ⟨x₂, e', rfl⟩ := (List.eq_nil_or_concat x₂).resolve_left hx₂
    rw [List.concat_eq_append, ← List.append_assoc] at hx
    obtain ⟨rfl, he⟩ := List.append_inj' hx rfl
    obtain rfl : e = e' := List.singleton_injective he
    have htext : (e :: v) ++ [] = ([e] ++ y₁) ++ y₂ := by simp [hv]
    rw [List.concat_eq_append, List.append_assoc]
    by_cases hempty : x₂ = []
    · subst hempty
      exact hclear.start [] (e :: v) [] _ next rfl (List.cons_ne_nil e v) _ _ htext
    · exact hclear.reach x₂ ([e] ++ y₁) [] y₂ _ next hempty (by simp) htext
  have hlast : (x ++ [e]).getLast?.or prev = some e := by simp
  rw [hlast] at hv
  have hb := hclear.start.eq_of_tail hv
  have htext : a ++ [e] ++ v = a' ++ v := by
    rw [List.append_assoc, List.singleton_append, ← hout, hout', hb]
  have hcut := List.append_cancel_right htext
  exact ⟨a, hout, hcut ▸ hx⟩

/-- No accepted text overlaps `v` but `v` itself. -/
structure Solid (r : Regex) (v : List Char) : Prop where
  inner : ∀ v₁ v₂ y prev next, v = v₁ ++ v₂ → v₁ ≠ [] → v₂ ≠ [] →
    Silent r (v₁.getLast?.or prev) (v₂ ++ y) next
  reach : NoReach r v
  unique : ∀ y m rest prev next, v ++ y = m ++ rest → Accepts r prev m (rest.head?.or next) → m = v

/-- The result can be cut behind such a text. -/
theorem Solid.cut (hsolid : Solid r v) (h : Subst r repl next prev (x ++ v ++ y) out) :
    ∃ a b, out = a ++ b ∧ Subst r repl (y.head?.or next) prev (x ++ v) a ∧
      Subst r repl next ((x ++ v).getLast?.or prev) y b := by
  apply h.split rfl
  rintro x₁ x₂ y₁ y₂ hx rfl hx₂ hy₁ haccepts
  have hwhole (hv : x₂ = v) : False := by
    subst hv
    have heq := hsolid.unique (y₁ ++ y₂) (x₂ ++ y₁) y₂ _ next (by simp) haccepts
    exact hy₁ (List.append_right_eq_self.1 heq)
  rcases List.append_eq_append_iff.1 hx.symm with ⟨z, hz, hx₂v⟩ | ⟨z, rfl, hv⟩
  · by_cases hempty : z = []
    · subst hempty
      exact hwhole hx₂v
    · rw [hx₂v, List.append_assoc] at haccepts
      exact hsolid.reach z (v ++ y₁) (y₁ ++ y₂) y₂ _ next hempty
        (List.append_ne_nil_of_right_ne_nil v hy₁) (by simp) haccepts
  · by_cases hempty : z = []
    · subst hempty
      exact hwhole hv.symm
    · rw [List.getLast?_append, Option.or_assoc] at haccepts
      exact hsolid.inner z x₂ (y₁ ++ y₂) _ next hv hempty hx₂ (x₂ ++ y₁) y₂ (by simp) haccepts

/-- Such a text stays, unless it is accepted where it stands. -/
theorem Solid.around (hsolid : Solid r v) (h : Subst r repl next prev (x ++ (v ++ y)) out)
    (hv : v ≠ []) (hnot : ¬ Accepts r (x.getLast?.or prev) v (y.head?.or next)) :
    ∃ a b, out = a ++ (v ++ b) ∧ Subst r repl v.head? prev x a ∧
      Subst r repl next v.getLast? y b := by
  apply h.around hv
  · intro x₁ x₂ m rest _ hm hx₂ hne
    exact hsolid.reach x₂ m y rest _ _ hx₂ hne hm
  · intro v₁ v₂ hsplit hv₂
    by_cases hv₁ : v₁ = []
    · subst hv₁
      obtain rfl : v = v₂ := hsplit
      intro m rest hm haccepts
      obtain rfl := hsolid.unique y m rest _ next hm haccepts
      obtain rfl := List.append_cancel_left hm
      exact hnot haccepts
    · exact hsolid.inner v₁ v₂ y _ next hsplit hv₁ hv₂

/-! ## At the head -/

theorem not_starts_iff : ¬ Starts r prev s next ↔ Silent r prev s next := by
  simp only [Starts, Silent, not_exists, not_and]

theorem starts_of_lookFree (hr : lookFree r = true) (prev' next' : Option Char) :
    Starts r prev s next ↔ Starts r prev' s next' := by
  constructor
  · rintro ⟨m, rest, hs, hm⟩
    exact ⟨m, rest, hs, accepts_of_lookFree hr hm _ _⟩
  · rintro ⟨m, rest, hs, hm⟩
    exact ⟨m, rest, hs, accepts_of_lookFree hr hm _ _⟩

/-- The head stays, or a match that begins the text has been replaced. -/
theorem Subst.head?_cases (h : Subst r repl next prev s out) (hrepl : repl ≠ [])
    (hr : ∀ prev w next, Accepts r prev w next → w ≠ []) :
    ¬ Starts r prev s next ∧ out.head? = s.head? ∨
      Starts r prev s next ∧ out.head? = repl.head? := by
  cases h with
  | nil =>
      refine .inl ⟨?_, rfl⟩
      rintro ⟨m, rest, hm, haccepts⟩
      exact hr _ _ _ haccepts (List.append_eq_nil_iff.1 hm.symm).1
  | keep hsilent h => exact .inl ⟨not_starts_iff.2 hsilent, rfl⟩
  | replace hs hne hm h => exact .inr ⟨⟨_, _, hs, hm⟩, List.head?_append_of_ne_nil repl hrepl⟩

/-- A pattern without assertions begins the result where it began the source, when `r` begins
in none of the texts it accepts. -/
theorem Subst.starts_iff (h : Subst r repl next prev s out) (hrepl : repl ≠ [])
    (ht : lookFree t = true)
    (hstart : ∀ prev v next, Accepts t prev v next → NoStart r v ∧ ∀ c ∈ v, repl.head? ≠ some c) :
    Starts t prev out next ↔ Starts t prev s next := by
  constructor
  · rintro ⟨v, b, rfl, hv⟩
    obtain ⟨y, rfl, -⟩ := h.exists_kept hrepl (hstart _ _ _ hv).2 rfl
    exact ⟨v, y, rfl, accepts_of_lookFree ht hv _ _⟩
  · rintro ⟨v, y, rfl, hv⟩
    obtain ⟨b, rfl, -⟩ := h.keep_text rfl fun v₁ v₂ hsplit hv₂ =>
      (hstart _ _ _ hv).1 v₁ v₂ y prev next hsplit hv₂
    exact ⟨v, b, rfl, accepts_of_lookFree ht hv _ _⟩

/-! ## At the end -/

theorem ends_of_lookFree (hr : lookFree r = true) (prev' next' : Option Char) :
    Ends r prev s next ↔ Ends r prev' s next' := by
  constructor
  · rintro ⟨pre, m, hs, hm⟩
    exact ⟨pre, m, hs, accepts_of_lookFree hr hm _ _⟩
  · rintro ⟨pre, m, hs, hm⟩
    exact ⟨pre, m, hs, accepts_of_lookFree hr hm _ _⟩

/-- A match at the end of the text is replaced, when no accepted text ends inside it. -/
theorem Subst.exists_replaced (h : Subst r repl next prev s out) {pre : List Char}
    (hs : s = pre ++ v) (hv : Accepts r (pre.getLast?.or prev) v next) (hne : v ≠ [])
    (hend : ∀ u m z prev next, v = m ++ z → m ≠ [] → z ≠ [] → ¬ Accepts r prev (u ++ m) next) :
    ∃ a, out = a ++ repl := by
  induction h generalizing pre with
  | nil prev => exact absurd (List.append_eq_nil_iff.1 hs.symm).2 hne
  | @keep prev c s out hsilent h ih =>
      cases pre with
      | nil =>
          refine absurd hv (hsilent v [] ?_)
          rw [List.append_nil]
          exact hs
      | cons d pre =>
          obtain ⟨rfl, rfl⟩ := List.cons.inj hs
          rw [getLast?_cons_or] at hv
          obtain ⟨a, rfl⟩ := ih rfl hv
          exact ⟨c :: a, rfl⟩
  | @replace prev m rest s out hs' hne' hm h ih =>
      rcases List.append_eq_append_iff.1 (hs'.symm.trans hs) with ⟨z, hpre, hrest⟩ | ⟨d, hmd, hvd⟩
      · -- The replaced text ends before `v`.
        rw [hpre, List.getLast?_append, Option.or_assoc] at hv
        obtain ⟨a, rfl⟩ := ih hrest hv
        exact ⟨repl ++ a, (List.append_assoc _ _ _).symm⟩
      · by_cases hrest : rest = []
        · subst hrest
          cases h with
          | nil => exact ⟨[], List.append_nil repl⟩
          | replace hs'' hne'' hm'' h => exact absurd (List.append_eq_nil_iff.1 hs''.symm).1 hne''
        · by_cases hd : d = []
          · subst hd
            rw [List.append_nil] at hmd
            subst hmd
            have hrest : rest = [] ++ v := hvd.symm
            obtain ⟨a, rfl⟩ := ih hrest hv
            exact ⟨repl ++ a, (List.append_assoc _ _ _).symm⟩
          · rw [hmd] at hm
            exact absurd hm (hend pre d rest _ _ hvd hd hrest)

/-- A pattern without assertions ends the result where it ended the source, when `r` overlaps
none of the texts it accepts. -/
theorem Subst.ends_iff (h : Subst r repl next prev s out) (hrepl : repl ≠ [])
    (ht : lookFree t = true)
    (hclear : ∀ prev v next, Accepts t prev v next → Clear r v ∧ Outside repl v) :
    Ends t prev out next ↔ Ends t prev s next := by
  constructor
  · rintro ⟨pre, v, rfl, hv⟩
    have hout : pre ++ v = pre ++ (v ++ []) := by rw [List.append_nil]
    obtain ⟨x, y, rfl, -, hy, -⟩ := h.exists_split hrepl (hclear _ _ _ hv).2 hout
    obtain rfl := (hy.eq_nil_iff hrepl).1 rfl
    rw [List.append_nil]
    exact ⟨x, v, rfl, accepts_of_lookFree ht hv _ _⟩
  · rintro ⟨pre, v, rfl, hv⟩
    have hs : pre ++ v = pre ++ (v ++ []) := by rw [List.append_nil]
    rw [hs] at h
    obtain ⟨a, b, rfl, -, hb⟩ :=
      (hclear _ _ _ hv).1.around h (hclear _ _ _ hv).2.ne_nil
    obtain rfl := (hb.eq_nil_iff hrepl).2 rfl
    rw [List.append_nil]
    exact ⟨a, v, rfl, accepts_of_lookFree ht hv _ _⟩

end Around

/-! ## A list of patterns -/

/-- The result of substituting for one pattern after another. -/
def Substs (repl : List Char) (next prev : Option Char) :
    List Regex → List Char → List Char → Prop
  | [], s, out => out = s
  | r :: rs, s, out => ∃ mid, Subst r repl next prev s mid ∧ Substs repl next prev rs mid out

section Substs

variable {r t : Regex} {rs ts : List Regex} {repl : List Char} {prev next : Option Char}
  {s out v x y a b : List Char}

theorem substs_foldl (hne : ∀ r ∈ rs, ∀ prev w next, Accepts r prev w next → w ≠ [])
    (s : List Char) : Substs repl none none rs s (rs.foldl (fun s r => sub r repl s) s) := by
  induction rs generalizing s with
  | nil => rfl
  | cons r rs ih =>
      rw [List.forall_mem_cons] at hne
      exact ⟨_, subst_sub hne.1 s, ih hne.2 _⟩

theorem substs_append_iff :
    Substs repl next prev (rs ++ ts) s out ↔
      ∃ mid, Substs repl next prev rs s mid ∧ Substs repl next prev ts mid out := by
  induction rs generalizing s with
  | nil => simp [Substs]
  | cons r rs ih =>
      simp only [List.cons_append, Substs, ih]
      constructor
      · rintro ⟨m₁, h₁, m₂, h₂, h⟩
        exact ⟨m₂, ⟨m₁, h₁, h₂⟩, h⟩
      · rintro ⟨m₂, ⟨m₁, h₁, h₂⟩, h⟩
        exact ⟨m₁, h₁, m₂, h₂, h⟩

/-- A text that keeps out of the replacement comes from the source. -/
theorem Substs.exists_split (h : Substs repl next prev rs s out) (hrepl : repl ≠ [])
    (hv : Outside repl v) (hout : out = a ++ (v ++ b)) :
    ∃ x y, s = x ++ (v ++ y) ∧ Substs repl v.head? prev rs x a ∧
      Substs repl next v.getLast? rs y b := by
  induction rs generalizing s with
  | nil =>
      obtain rfl : out = s := h
      exact ⟨a, b, hout, rfl, rfl⟩
  | cons r rs ih =>
      obtain ⟨mid, hmid, hrest⟩ := h
      obtain ⟨x', y', hmid', hx', hy'⟩ := ih hrest
      obtain ⟨x, y, hs, hx, hy, -⟩ := hmid.exists_split hrepl hv hmid'
      exact ⟨x, y, hs, ⟨x', hx, hx'⟩, ⟨y', hy, hy'⟩⟩

/-- A text that no match overlaps stays, between the results of what is around it. -/
theorem Substs.around (h : Substs repl next prev rs s out) (hs : s = x ++ (v ++ y)) (hv : v ≠ [])
    (hclear : ∀ r ∈ rs, Clear r v) :
    ∃ a b, out = a ++ (v ++ b) ∧ Substs repl v.head? prev rs x a ∧
      Substs repl next v.getLast? rs y b := by
  induction rs generalizing s x y with
  | nil =>
      obtain rfl : out = s := h
      exact ⟨x, y, hs, rfl, rfl⟩
  | cons r rs ih =>
      obtain ⟨mid, hmid, hrest⟩ := h
      rw [List.forall_mem_cons] at hclear
      rw [hs] at hmid
      obtain ⟨x', y', hmid', hx, hy⟩ := hclear.1.around hmid hv
      obtain ⟨a, b, hout, ha, hb⟩ := ih hrest hmid' hclear.2
      exact ⟨a, b, hout, ⟨x', hx, ha⟩, ⟨y', hy, hb⟩⟩

/-- The head has `P` in the end if it had it, or if one of the patterns began the text. -/
theorem Substs.head?_iff {P : Option Char → Prop} (h : Substs repl next prev rs s out)
    (hrepl : repl ≠ []) (hP : P repl.head?)
    (hne : ∀ r ∈ rs, ∀ prev w next, Accepts r prev w next → w ≠ [])
    (hlater : rs.Pairwise fun r t => ∀ s s', Subst r repl next prev s s' →
      (Starts t prev s' next ↔ Starts t prev s next)) :
    P out.head? ↔ P s.head? ∨ ∃ r ∈ rs, Starts r prev s next := by
  induction rs generalizing s with
  | nil =>
      obtain rfl : out = s := h
      simp
  | cons r rs ih =>
      obtain ⟨mid, hmid, hrest⟩ := h
      rw [List.forall_mem_cons] at hne
      rw [List.pairwise_cons] at hlater
      rw [ih hrest hne.2 hlater.2, List.exists_mem_cons_iff, ← or_assoc]
      refine or_congr ?_ (exists_congr fun t => and_congr_right fun ht =>
        hlater.1 t ht _ _ hmid)
      rcases hmid.head?_cases hrepl hne.1 with ⟨hnone, hhead⟩ | ⟨hstarts, hhead⟩
      · rw [hhead]
        simp [hnone]
      · rw [hhead]
        simp [hP, hstarts]

/-- The last character has `P` in the end if it had it, or if one of the patterns ended the
text. -/
theorem Substs.getLast?_iff {P : Option Char → Prop} (h : Substs repl next prev rs s out)
    (hrepl : repl ≠ []) (hP : P repl.getLast?)
    (hends : ∀ r ∈ rs, ∀ s s', Subst r repl next prev s s' → Ends r prev s next →
      P (s'.getLast?.or prev))
    (hlater : rs.Pairwise fun r t => ∀ s s', Subst r repl next prev s s' →
      ¬ P (s'.getLast?.or prev) → (Ends t prev s' next ↔ Ends t prev s next)) :
    P (out.getLast?.or prev) ↔ P (s.getLast?.or prev) ∨ ∃ r ∈ rs, Ends r prev s next := by
  induction rs generalizing s with
  | nil =>
      obtain rfl : out = s := h
      simp
  | cons r rs ih =>
      obtain ⟨mid, hmid, hrest⟩ := h
      rw [List.forall_mem_cons] at hends
      rw [List.pairwise_cons] at hlater
      have hstep : P (mid.getLast?.or prev) ↔ P (s.getLast?.or prev) ∨ Ends r prev s next := by
        constructor
        · intro hmidP
          rcases hmid.getLast?_eq hrepl with heq | ⟨-, pre, m, hs, hm⟩
          · exact .inl (heq ▸ hmidP)
          · exact .inr ⟨pre, m, hs, hm⟩
        · rintro (hsP | hsends)
          · rcases hmid.getLast?_eq hrepl with heq | ⟨hlast, -⟩
            · exact heq ▸ hsP
            · rwa [hlast, Option.or_of_isSome (List.getLast?_isSome.2 hrepl)]
          · exact hends.1 _ _ hmid hsends
      rw [ih hrest hends.2 hlater.2, List.exists_mem_cons_iff, ← or_assoc, ← hstep]
      by_cases hmidP : P (mid.getLast?.or prev)
      · simp [hmidP]
      · refine or_congr_right (exists_congr fun t => and_congr_right fun ht => ?_)
        exact hlater.1 t ht _ _ hmid hmidP

end Substs

end Regex

end Python
