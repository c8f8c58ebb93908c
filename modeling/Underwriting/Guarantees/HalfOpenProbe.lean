import Underwriting.Infrastructure.Callers

/-!
# The probe of a half-open breaker

After the cooldown an open breaker is meant to let a single call through. The section that
turns the breaker half-open does not count the calls it admits: from the first admission until
that call completes, every caller that asks is admitted, unless an older call has failed in the
meantime and left the breaker open again. So a run has single probes exactly if each request that
comes while a probe is in flight finds the breaker open and still cooling down. Where no older
call is in flight when the breaker turns half-open, the breaker stays half-open until the probe
completes, and a run has single probes exactly if nobody asks in between. Nothing less than a
single caller guarantees this for all runs.
-/

namespace Underwriting

namespace Shared

variable {ι : Type} [DecidableEq ι]

/-- What has become of the first call since the breaker turned half-open. -/
inductive Window (ι : Type) where
  | waiting
  | probing (i : ι)
  | passed

/-- The caller whose call a step completes. -/
def completed : Step ι → Option ι
  | .success i | .failure i _ => some i
  | .admission _ _ | .read _ => none

def Window.next (s : Shared ι) (a : Step ι) : Window ι → Window ι
  | .waiting => (s.admitted a).elim .waiting .probing
  | .probing i => if completed a = some i then .passed else .probing i
  | .passed => .passed

def Window.along : Shared ι → Window ι → List (Step ι) → Window ι
  | _, w, [] => w
  | s, w, a :: steps => (s.step a).elim w fun s' => Window.along s' (w.next s a) steps

/-- After the steps `before` the step `turn` turns the breaker half-open, and after the steps
`during` the first call admitted since then, the one of `i`, is in flight. -/
structure Probing (s : Shared ι) (before : List (Step ι)) (turn : Step ι) (during : List (Step ι))
    (s₀ s₁ s₂ : Shared ι) (i : ι) : Prop where
  after_before : s.after before = some s₀
  step_turn : s₀.step turn = some s₁
  not_halfOpen : s₀.breaker.state ≠ .halfOpen
  halfOpen : s₁.breaker.state = .halfOpen
  after_during : s₁.after during = some s₂
  window : Window.along s₁ (Window.next s₀ turn .waiting) during = .probing i

/-- From the moment the breaker has turned half-open until the first call admitted since then
completes, no second call is admitted. -/
def SingleProbe (s : Shared ι) (steps : List (Step ι)) : Prop :=
  ∀ before turn during last rest, steps = before ++ turn :: (during ++ last :: rest) →
    ∀ s₀ s₁ s₂ i, s.Probing before turn during s₀ s₁ s₂ i → s₂.admitted last = none

/-- Whoever asks for a call while the probe is in flight finds the breaker open and its cooldown
running. -/
def ProbeShielded (s : Shared ι) (steps : List (Step ι)) : Prop :=
  ∀ before turn during j now rest,
    steps = before ++ turn :: (during ++ .admission j now :: rest) →
    ∀ s₀ s₁ s₂ i, s.Probing before turn during s₀ s₁ s₂ i →
      s₂.breaker.state = .opened ∧ ¬ s₂.breaker.cooledDown now

/-- Nobody asks for a call while the probe is in flight. -/
def ProbeUndisturbed (s : Shared ι) (steps : List (Step ι)) : Prop :=
  ∀ before turn during j now rest,
    steps = before ++ turn :: (during ++ .admission j now :: rest) →
    ∀ s₀ s₁ s₂ i, ¬ s.Probing before turn during s₀ s₁ s₂ i

/-- No call is in flight when the breaker turns half-open. -/
def TurnsIdle (s : Shared ι) (steps : List (Step ι)) : Prop :=
  ∀ before turn rest, steps = before ++ turn :: rest →
    ∀ s₀ s₁, s.after before = some s₀ → s₀.step turn = some s₁ →
      s₀.breaker.state ≠ .halfOpen → s₁.breaker.state = .halfOpen → ∀ j, s₀.inFlight j = false

/-! ## Requests while the probe is in flight -/

theorem inFlight_next {s s' : Shared ι} {a : Step ι} (h : s.step a = some s') {w : Window ι}
    (hw : ∀ i, w = .probing i → s.inFlight i = true) (i : ι) (hi : w.next s a = .probing i) :
    s'.inFlight i = true := by
  cases w with
  | passed => cases hi
  | waiting =>
      rcases step_cases h with ⟨j, now, rfl, -, -, hnone, rfl⟩ | ⟨j, now, rfl, -, -, hsome, rfl⟩ |
        ⟨j, rfl, -, rfl⟩ | ⟨j, now, rfl, -, rfl⟩ | ⟨now, rfl, rfl⟩
      · rw [Window.next, hnone] at hi
        cases hi
      · rw [Window.next, hsome] at hi
        cases hi
        exact Function.update_self i true s.inFlight
      · cases hi
      · cases hi
      · cases hi
  | probing k =>
      have hk := hw k rfl
      rw [Window.next] at hi
      split_ifs at hi with hcompleted
      cases hi
      rcases step_cases h with ⟨j, now, rfl, -, -, -, rfl⟩ | ⟨j, now, rfl, -, -, -, rfl⟩ |
        ⟨j, rfl, -, rfl⟩ | ⟨j, now, rfl, -, rfl⟩ | ⟨now, rfl, rfl⟩
      · exact hk
      · by_cases hij : i = j
        · subst hij
          exact Function.update_self i true s.inFlight
        · exact (Function.update_of_ne hij true s.inFlight).trans hk
      · have hij : i ≠ j := fun hij => hcompleted (congrArg some hij.symm)
        exact (Function.update_of_ne hij false s.inFlight).trans hk
      · have hij : i ≠ j := fun hij => hcompleted (congrArg some hij.symm)
        exact (Function.update_of_ne hij false s.inFlight).trans hk
      · exact hk

/-- The probe is in flight. -/
theorem inFlight_along {s s' : Shared ι} {steps : List (Step ι)} (h : s.after steps = some s')
    {w : Window ι} (hw : ∀ i, w = .probing i → s.inFlight i = true) (i : ι)
    (hi : Window.along s w steps = .probing i) : s'.inFlight i = true := by
  induction steps generalizing s w with
  | nil =>
      cases h
      exact hw i hi
  | cons a steps ih =>
      obtain ⟨s₁, hstep, hafter⟩ := (after_cons_eq_some_iff s s' a steps).1 h
      rw [Window.along, hstep] at hi
      exact ih hafter (inFlight_next hstep hw) hi

omit [DecidableEq ι] in
theorem exists_of_admitted {s : Shared ι} {a : Step ι} {i : ι} (h : s.admitted a = some i) :
    ∃ now, a = .admission i now := by
  cases a with
  | admission j now =>
      rw [admitted] at h
      split_ifs at h
      exact ⟨now, by rw [Option.some.inj h]⟩
  | success j => cases h
  | failure j now => cases h
  | read now => cases h

/-- A request is refused exactly by an open breaker that is cooling down. -/
theorem singleProbe_iff {s : Shared ι} {steps : List (Step ι)} :
    SingleProbe s steps ↔ ProbeShielded s steps := by
  constructor
  · intro h before turn during j now rest hsteps s₀ s₁ s₂ i hprobing
    have hnone := h before turn during _ rest hsteps s₀ s₁ s₂ i hprobing
    rw [← CircuitBreaker.refresh_state_eq_opened_iff]
    by_contra hstate
    rw [admitted_admission hstate] at hnone
    cases hnone
  · intro h before turn during last rest hsteps s₀ s₁ s₂ i hprobing
    cases hadmitted : s₂.admitted last with
    | none => rfl
    | some j =>
        obtain ⟨now, rfl⟩ := exists_of_admitted hadmitted
        have hopened := h before turn during j now rest hsteps s₀ s₁ s₂ i hprobing
        rw [← CircuitBreaker.refresh_state_eq_opened_iff] at hopened
        rw [admitted, if_pos hopened] at hadmitted
        cases hadmitted

theorem probeShielded_of_undisturbed {s : Shared ι} {steps : List (Step ι)}
    (h : ProbeUndisturbed s steps) : ProbeShielded s steps := by
  intro before turn during j now rest hsteps s₀ s₁ s₂ i hprobing
  exact absurd hprobing (h before turn during j now rest hsteps s₀ s₁ s₂ i)

/-- A single caller cannot ask for a call while it is in flight. -/
theorem probeUndisturbed_of_subsingleton [Subsingleton ι] {s s' : Shared ι} {steps : List (Step ι)}
    (h : s.after steps = some s') : ProbeUndisturbed s steps := by
  rintro before turn during j now rest rfl s₀ s₁ s₂ i hprobing
  have hfirst := inFlight_next hprobing.step_turn (w := .waiting) (by intro k hw; cases hw)
  have hbusy := inFlight_along hprobing.after_during hfirst i hprobing.window
  rw [after_append, hprobing.after_before, Option.bind_some, after, hprobing.step_turn,
    Option.bind_some, after_append, hprobing.after_during] at h
  obtain ⟨s₃, hstep, -⟩ := (after_cons_eq_some_iff s₂ s' _ rest).1 h
  rw [Subsingleton.elim j i, step, if_pos hbusy] at hstep
  cases hstep

/-! ## The breaker while its probe is in flight -/

/-- The breaker is half-open, and nobody but the probe is in flight. -/
def Window.Guarded (s : Shared ι) : Window ι → Prop
  | .waiting => s.breaker.state = .halfOpen ∧ ∀ j, s.inFlight j = false
  | .probing i => s.breaker.state = .halfOpen ∧ ∀ j, j ≠ i → s.inFlight j = false
  | .passed => True

omit [DecidableEq ι] in
theorem refresh_of_halfOpen {b : CircuitBreaker} (h : b.state = .halfOpen) (now : ℚ) :
    b.refresh now = b := by
  apply if_neg
  rw [h]
  simp

omit [DecidableEq ι] in
theorem Window.Guarded.eq_of_inFlight {s : Shared ι} {i j : ι} (h : (Window.probing i).Guarded s)
    (hbusy : s.inFlight j = true) : j = i := by
  by_contra hne
  rw [h.2 j hne] at hbusy
  cases hbusy

/-- As long as nobody asks while the probe is in flight, only the probe can complete. -/
theorem Window.Guarded.next {s s' : Shared ι} {a : Step ι} (h : s.step a = some s') {w : Window ι}
    (hw : w.Guarded s) (hquiet : ∀ i, w = .probing i → ∀ j now, a ≠ .admission j now) :
    (w.next s a).Guarded s' := by
  cases w with
  | passed => trivial
  | waiting =>
      obtain ⟨hstate, hidle⟩ := hw
      rcases step_cases h with ⟨j, now, rfl, -, hopened, -, rfl⟩ |
        ⟨j, now, rfl, -, -, hsome, rfl⟩ | ⟨j, rfl, hbusy, rfl⟩ | ⟨j, now, rfl, hbusy, rfl⟩ |
        ⟨now, rfl, rfl⟩
      · rw [refresh_of_halfOpen hstate, hstate] at hopened
        cases hopened
      · rw [Window.next, hsome]
        refine ⟨?_, fun k hk => ?_⟩
        · rw [refresh_of_halfOpen hstate]
          exact hstate
        · exact (Function.update_of_ne hk true s.inFlight).trans (hidle k)
      · rw [hidle j] at hbusy
        cases hbusy
      · rw [hidle j] at hbusy
        cases hbusy
      · refine ⟨?_, hidle⟩
        rw [refresh_of_halfOpen hstate]
        exact hstate
  | probing i =>
      rcases step_cases h with ⟨j, now, rfl, -⟩ | ⟨j, now, rfl, -⟩ | ⟨j, rfl, hbusy, rfl⟩ |
        ⟨j, now, rfl, hbusy, rfl⟩ | ⟨now, rfl, rfl⟩
      · exact absurd rfl (hquiet i rfl j now)
      · exact absurd rfl (hquiet i rfl j now)
      · rw [Window.next, hw.eq_of_inFlight hbusy, completed, if_pos rfl]
        trivial
      · rw [Window.next, hw.eq_of_inFlight hbusy, completed, if_pos rfl]
        trivial
      · refine ⟨?_, hw.2⟩
        rw [refresh_of_halfOpen hw.1]
        exact hw.1

theorem Window.along_append (s : Shared ι) (w : Window ι) (steps steps' : List (Step ι))
    {s' : Shared ι} (h : s.after steps = some s') :
    Window.along s w (steps ++ steps') = Window.along s' (Window.along s w steps) steps' := by
  induction steps generalizing s w with
  | nil =>
      cases h
      rfl
  | cons a steps ih =>
      obtain ⟨s₁, hstep, hafter⟩ := (after_cons_eq_some_iff s s' a steps).1 h
      rw [List.cons_append, Window.along, Window.along, hstep]
      exact ih s₁ _ hafter

/-- The step that turns the breaker half-open starts the window. -/
theorem guarded_turn {s₀ s₁ : Shared ι} {turn : Step ι} (hturn : s₀.step turn = some s₁)
    (hhalf : s₁.breaker.state = .halfOpen) (hidle : ∀ j, s₀.inFlight j = false) :
    (Window.next s₀ turn .waiting).Guarded s₁ := by
  rcases step_cases hturn with ⟨j, now, rfl, -, -, hnone, rfl⟩ | ⟨j, now, rfl, -, -, hsome, rfl⟩ |
    ⟨j, rfl, hbusy, rfl⟩ | ⟨j, now, rfl, hbusy, rfl⟩ | ⟨now, rfl, rfl⟩
  · rw [Window.next, hnone]
    exact ⟨hhalf, hidle⟩
  · rw [Window.next, hsome]
    exact ⟨hhalf, fun k hk => (Function.update_of_ne hk true s₀.inFlight).trans (hidle k)⟩
  · rw [hidle j] at hbusy
    cases hbusy
  · rw [hidle j] at hbusy
    cases hbusy
  · exact ⟨hhalf, hidle⟩

omit [DecidableEq ι] in
theorem Window.Guarded.admitted {s : Shared ι} {i : ι} (h : (Window.probing i).Guarded s) (j : ι)
    (now : ℚ) : s.admitted (.admission j now) = some j := by
  apply admitted_admission
  rw [refresh_of_halfOpen h.1, h.1]
  simp

section Idle

variable {s : Shared ι} {steps before : List (Step ι)} {turn : Step ι} {s₀ s₁ : Shared ι}

/-- With single probes nobody asks, so the breaker stays half-open. -/
theorem guarded_along (h : SingleProbe s steps) (hbefore : s.after before = some s₀)
    (hturn : s₀.step turn = some s₁) (hnot : s₀.breaker.state ≠ .halfOpen)
    (hhalf : s₁.breaker.state = .halfOpen) (hidle : ∀ j, s₀.inFlight j = false)
    (during rest : List (Step ι)) (hsteps : steps = before ++ turn :: (during ++ rest))
    {s₂ : Shared ι} (hduring : s₁.after during = some s₂) :
    (Window.along s₁ (Window.next s₀ turn .waiting) during).Guarded s₂ := by
  induction during using List.reverseRecOn generalizing s₂ rest with
  | nil =>
      cases hduring
      exact guarded_turn hturn hhalf hidle
  | append_singleton during a ih =>
      obtain ⟨s', hearlier, hlast⟩ := (after_append_eq_some_iff _ _ _ _).1 hduring
      obtain ⟨s₃, hstep, hnil⟩ := (after_cons_eq_some_iff _ _ _ _).1 hlast
      cases hnil
      rw [List.append_assoc] at hsteps
      have hguarded := ih _ hsteps hearlier
      rw [Window.along_append _ _ _ _ hearlier, Window.along, hstep]
      refine hguarded.next hstep ?_
      rintro i hwindow j now rfl
      have hnone := h before turn during _ rest hsteps s₀ s₁ s' i
        ⟨hbefore, hturn, hnot, hhalf, hearlier, hwindow⟩
      rw [hwindow] at hguarded
      rw [hguarded.admitted] at hnone
      cases hnone

/-- Where no older call is in flight, only silence keeps the probe single. -/
theorem singleProbe_iff_of_turnsIdle (hidle : TurnsIdle s steps) :
    SingleProbe s steps ↔ ProbeUndisturbed s steps := by
  constructor
  · intro h before turn during j now rest hsteps s₀ s₁ s₂ i hprobing
    have hguarded := guarded_along h hprobing.after_before hprobing.step_turn hprobing.not_halfOpen
      hprobing.halfOpen (hidle before turn _ hsteps s₀ s₁ hprobing.after_before hprobing.step_turn
        hprobing.not_halfOpen hprobing.halfOpen) during _ hsteps hprobing.after_during
    have hnone := h before turn during _ rest hsteps s₀ s₁ s₂ i hprobing
    rw [hprobing.window] at hguarded
    rw [hguarded.admitted] at hnone
    cases hnone
  · intro h
    exact singleProbe_iff.2 (probeShielded_of_undisturbed h)

end Idle

/-! ## Two probes -/

/-- `n` failing calls of a caller. -/
def failingCalls (i : ι) (n : ℕ) : List (Step ι) :=
  (List.replicate n [Step.admission i 0, .failure i 0]).flatten

/-- A breaker that has counted some failures. -/
def counted (name : String) (threshold : ℕ) (timeout : ℚ) (failures : ℕ) : CircuitBreaker :=
  { CircuitBreaker.new name threshold timeout with consecutiveFailures := failures }

section Counting

variable {name : String} {threshold : ℕ} {timeout : ℚ}

theorem refresh_counted (m : ℕ) (now : ℚ) :
    (counted name threshold timeout m).refresh now = counted name threshold timeout m :=
  if_neg fun h => nomatch h.1

/-- A failing call leaves its caller idle. -/
theorem after_failingCall (i : ι) (m : ℕ) :
    after ⟨counted name threshold timeout m, fun _ => false⟩
        [Step.admission i 0, .failure i 0] =
      some ⟨(counted name threshold timeout m).fail 0, fun _ => false⟩ := by
  have hadmission : step ⟨counted name threshold timeout m, fun _ => false⟩ (Step.admission i 0) =
      some ⟨counted name threshold timeout m, Function.update (fun _ => false) i true⟩ := by
    rw [step_admission rfl (by rw [refresh_counted]; exact fun h => nomatch h), refresh_counted]
  have hbusy : Function.update (fun _ => false) i true i = true := by
    rw [Function.update_self]
  rw [after, hadmission, Option.bind_some, after, step_failure 0 hbusy,
    Function.update_idem, Function.update_eq_self]
  rfl

theorem fail_counted_of_lt {m : ℕ} (h : m + 1 < threshold) :
    (counted name threshold timeout m).fail 0 = counted name threshold timeout (m + 1) :=
  if_neg (not_le.2 h)

theorem after_failingCalls (i : ι) (n m : ℕ) (h : m + n < threshold) :
    after ⟨counted name threshold timeout m, fun _ => false⟩ (failingCalls i n) =
      some ⟨counted name threshold timeout (m + n), fun _ => false⟩ := by
  induction n generalizing m with
  | zero => rfl
  | succ n ih =>
      have hcalls : failingCalls i (n + 1) =
        [Step.admission i 0, .failure i 0] ++ failingCalls i n := rfl
      rw [hcalls, after_append, after_failingCall, Option.bind_some,
        fail_counted_of_lt (by omega), ih (m + 1) (by omega), Nat.add_right_comm, Nat.add_assoc]

/-- The breaker opens at time zero. -/
theorem after_opening (name : String) (timeout : ℚ) (i : ι) (n : ℕ) :
    (new ι name (n + 1) timeout).after
        (failingCalls i n ++ [Step.admission i 0, .failure i 0]) =
      some ⟨(counted name (n + 1) timeout (n + 1)).open 0, fun _ => false⟩ := by
  have hnew : new ι name (n + 1) timeout =
    ⟨counted name (n + 1) timeout 0, fun _ => false⟩ := rfl
  rw [after_append, hnew, after_failingCalls i n 0 (by omega), Option.bind_some,
    after_failingCall, Nat.zero_add]
  have hopen : (counted name (n + 1) timeout n).fail 0 =
      (counted name (n + 1) timeout (n + 1)).open 0 := if_pos le_rfl
  rw [hopen]

end Counting

/-- Two callers find the breaker cooled down. Both are admitted. -/
def twoProbes (i j : ι) (n : ℕ) (timeout : ℚ) : List (Step ι) :=
  (failingCalls i n ++ [Step.admission i 0, .failure i 0]) ++
    [.admission i timeout, .admission j timeout]

theorem not_singleProbe_twoProbes {i j : ι} (hij : i ≠ j) (name : String) (n : ℕ) (timeout : ℚ) :
    ((new ι name (n + 1) timeout).after (twoProbes i j n timeout)).isSome = true ∧
      ¬ SingleProbe (new ι name (n + 1) timeout) (twoProbes i j n timeout) := by
  have hopened := after_opening name timeout i n
  generalize hb : (counted name (n + 1) timeout (n + 1)).open 0 = b at hopened
  have hrefresh : b.refresh timeout = { b with state := .halfOpen } := by
    rw [← hb]
    exact if_pos ⟨rfl, (sub_zero timeout).ge⟩
  have hhalf : ({ b with state := .halfOpen } : CircuitBreaker).refresh timeout =
      { b with state := .halfOpen } := if_neg fun h => by cases h.1
  have hnot : ({ b with state := .halfOpen } : CircuitBreaker).state ≠ .opened :=
    fun h => by cases h
  have hturn : step ⟨b, fun _ => false⟩ (.admission i timeout) =
      some ⟨{ b with state := .halfOpen }, Function.update (fun _ => false) i true⟩ := by
    rw [step_admission rfl (by rw [hrefresh]; exact hnot), hrefresh]
  have hsecond : step ⟨{ b with state := .halfOpen }, Function.update (fun _ => false) i true⟩
      (.admission j timeout) = some ⟨{ b with state := .halfOpen },
        Function.update (Function.update (fun _ => false) i true) j true⟩ := by
    have hidle : Function.update (fun _ => false) i true j = false := by
      rw [Function.update_of_ne hij.symm]
    rw [step_admission hidle (by rw [hhalf]; exact hnot), hhalf]
  have hbefore : b.state ≠ .halfOpen := by
    rw [← hb]
    intro h
    cases h
  constructor
  · rw [twoProbes, after_append, hopened, Option.bind_some, after, hturn, Option.bind_some, after,
      hsecond]
    rfl
  · intro hsingle
    have hwindow : Window.next ⟨b, fun _ => false⟩ (.admission i timeout) .waiting =
        .probing i :=
      congrArg (Option.elim · Window.waiting Window.probing)
        (admitted_admission (by rw [hrefresh]; exact hnot) i)
    have hnone := hsingle (failingCalls i n ++ [Step.admission i 0, .failure i 0])
      (.admission i timeout) [] (.admission j timeout) [] rfl _ _ _ i
      ⟨hopened, hturn, hbefore, rfl, rfl, hwindow⟩
    rw [admitted_admission (by rw [hhalf]; exact hnot)] at hnone
    cases hnone

end Shared

theorem single_probe_iff (ι : Type) [DecidableEq ι] (name : String) (threshold : ℕ) (timeout : ℚ)
    (hthreshold : 1 ≤ threshold) :
    (∀ steps, (Shared.new ι name threshold timeout).SingleProbe steps ↔
      (Shared.new ι name threshold timeout).ProbeShielded steps) ∧
    (∀ steps, (Shared.new ι name threshold timeout).ProbeUndisturbed steps →
      (Shared.new ι name threshold timeout).SingleProbe steps) ∧
    (∀ steps, (Shared.new ι name threshold timeout).TurnsIdle steps →
      ((Shared.new ι name threshold timeout).SingleProbe steps ↔
        (Shared.new ι name threshold timeout).ProbeUndisturbed steps)) ∧
    ((∀ steps, ((Shared.new ι name threshold timeout).after steps).isSome = true →
      (Shared.new ι name threshold timeout).SingleProbe steps) ↔ Subsingleton ι) := by
  refine ⟨fun steps => Shared.singleProbe_iff,
    fun steps h => Shared.singleProbe_iff.2 (Shared.probeShielded_of_undisturbed h),
    fun steps hidle => Shared.singleProbe_iff_of_turnsIdle hidle, ?_⟩
  constructor
  · intro h
    rw [← not_nontrivial_iff_subsingleton]
    rintro ⟨i, j, hij⟩
    obtain ⟨n, rfl⟩ := Nat.exists_eq_add_of_le' hthreshold
    obtain ⟨hpossible, htwo⟩ := Shared.not_singleProbe_twoProbes hij name n timeout
    exact htwo (h _ hpossible)
  · intro hsub steps hpossible
    obtain ⟨s', hafter⟩ := Option.isSome_iff_exists.1 hpossible
    exact Shared.singleProbe_iff.2 (Shared.probeShielded_of_undisturbed
      (Shared.probeUndisturbed_of_subsingleton hafter))

theorem single_probe_pair :
    (∀ steps, (Shared.new Bool "llm" 3 15).SingleProbe steps ↔
      (Shared.new Bool "llm" 3 15).ProbeShielded steps) ∧
    (∀ steps, (Shared.new Bool "llm" 3 15).ProbeUndisturbed steps →
      (Shared.new Bool "llm" 3 15).SingleProbe steps) ∧
    (∀ steps, (Shared.new Bool "llm" 3 15).TurnsIdle steps →
      ((Shared.new Bool "llm" 3 15).SingleProbe steps ↔
        (Shared.new Bool "llm" 3 15).ProbeUndisturbed steps)) ∧
    ((∀ steps, ((Shared.new Bool "llm" 3 15).after steps).isSome = true →
      (Shared.new Bool "llm" 3 15).SingleProbe steps) ↔ Subsingleton Bool) :=
  single_probe_iff Bool "llm" 3 15 (by decide)

/-- Three failed calls, and after the cooldown two callers that are both let through. -/
theorem two_probes_in_flight :
    ((Shared.new Bool "llm" 3 15).after [.admission false 0, .failure false 0,
      .admission false 0, .failure false 0, .admission false 0, .failure false 0,
      .admission false 15, .admission true 15]).isSome = true ∧
    ¬ (Shared.new Bool "llm" 3 15).SingleProbe [.admission false 0, .failure false 0,
      .admission false 0, .failure false 0, .admission false 0, .failure false 0,
      .admission false 15, .admission true 15] :=
  Shared.not_singleProbe_twoProbes Bool.false_ne_true "llm" 2 15

end Underwriting
