import Underwriting.Infrastructure.Callers

/-!
# The cooldown of an open breaker

Callers that were admitted before the breaker opened complete after it has. A late failure
only restarts the cooldown. A late success closes the breaker at once, whatever the state, and
from then on calls are admitted until enough of them have failed again. So the cooldown is
respected in a run exactly when no late success is followed, within the cooldown and with
fewer failures than the threshold in between, by somebody who asks for a call.
-/

namespace Underwriting

namespace Shared

variable {ι : Type} [DecidableEq ι]

/-- What a step reads off the clock. -/
def time : Step ι → Option ℚ
  | .admission _ now | .failure _ now | .read now => some now
  | .success _ => none

def isSuccess : Step ι → Bool
  | .success _ => true
  | .admission _ _ | .failure _ _ | .read _ => false

def isFailure : Step ι → Bool
  | .failure _ _ => true
  | .admission _ _ | .success _ | .read _ => false

/-- The clock does not run backwards. -/
def Monotonic (steps : List (Step ι)) : Prop :=
  (steps.filterMap time).Pairwise (· ≤ ·)

instance (steps : List (Step ι)) : Decidable (Monotonic steps) :=
  inferInstanceAs (Decidable (List.Pairwise _ _))

/-- Once a failing completion has left the breaker open, nobody is admitted before the
recovery timeout is over. -/
def RespectsCooldown (s : Shared ι) (steps : List (Step ι)) : Prop :=
  ∀ before i t during j now rest,
    steps = before ++ .failure i t :: (during ++ .admission j now :: rest) →
    ∀ s₁ s₂, s.after (before ++ [.failure i t]) = some s₁ → s₁.breaker.state = .opened →
      s₁.after during = some s₂ → now < t + s.breaker.recoveryTimeoutSeconds →
      s₂.admitted (.admission j now) = none

/-- Within the cooldown a call has succeeded, too few have failed since, and somebody asks for
a call. -/
def CutShort (s : Shared ι) (steps : List (Step ι)) : Prop :=
  ∃ before i t early k late j now rest s₁,
    steps = before ++ .failure i t :: (early ++ .success k :: (late ++ .admission j now :: rest)) ∧
    s.after (before ++ [.failure i t]) = some s₁ ∧ s₁.breaker.state = .opened ∧
    late.any isSuccess = false ∧ late.countP isFailure < s.breaker.failureThreshold ∧
    now < t + s.breaker.recoveryTimeoutSeconds

/-! ## The counter of a breaker that is not closed -/

theorem refresh_of_closed {b : CircuitBreaker} {now : ℚ} (h : b.state = .closed) :
    b.refresh now = b := by
  apply if_neg
  rw [h]
  simp

theorem refresh_of_not_cooledDown {b : CircuitBreaker} {now : ℚ} (h : ¬ b.cooledDown now) :
    b.refresh now = b :=
  if_neg fun hcooled => h hcooled.2

/-- The threshold and the timeout are the ones of the start, and a breaker that is not closed
has counted as many failures as the threshold. -/
structure Configured (s₀ s : Shared ι) : Prop where
  threshold_eq : s.breaker.failureThreshold = s₀.breaker.failureThreshold
  timeout_eq : s.breaker.recoveryTimeoutSeconds = s₀.breaker.recoveryTimeoutSeconds
  counted : s.breaker.state ≠ .closed →
    s₀.breaker.failureThreshold ≤ s.breaker.consecutiveFailures

omit [DecidableEq ι] in
theorem Configured.refresh {s₀ : Shared ι} {b : CircuitBreaker} {f g : ι → Bool}
    (h : Configured s₀ ⟨b, f⟩) (now : ℚ) : Configured s₀ ⟨b.refresh now, g⟩ where
  threshold_eq := (b.refresh_failureThreshold now).trans h.threshold_eq
  timeout_eq := (b.refresh_recoveryTimeoutSeconds now).trans h.timeout_eq
  counted hstate := by
    rw [b.refresh_consecutiveFailures now]
    apply h.counted
    intro hclosed
    exact hstate ((b.refresh_state_eq_closed_iff now).2 hclosed)

omit [DecidableEq ι] in
theorem Configured.fail {s₀ : Shared ι} {b : CircuitBreaker} {f g : ι → Bool}
    (h : Configured s₀ ⟨b, f⟩) (now : ℚ) : Configured s₀ ⟨b.fail now, g⟩ := by
  have hthreshold : b.failureThreshold = s₀.breaker.failureThreshold := h.threshold_eq
  have hcounted : b.state ≠ .closed →
    s₀.breaker.failureThreshold ≤ b.consecutiveFailures := h.counted
  rw [CircuitBreaker.fail]
  split_ifs with hreached
  · exact ⟨hthreshold, h.timeout_eq, fun _ => hthreshold ▸ hreached⟩
  · exact ⟨hthreshold, h.timeout_eq, fun hstate => (hcounted hstate).trans (Nat.le_succ _)⟩

theorem Configured.step {s₀ s s' : Shared ι} {a : Step ι} (h : Configured s₀ s)
    (hstep : s.step a = some s') : Configured s₀ s' := by
  rcases step_cases hstep with ⟨i, now, rfl, -, -, -, rfl⟩ | ⟨i, now, rfl, -, -, -, rfl⟩ |
    ⟨i, rfl, -, rfl⟩ | ⟨i, now, rfl, -, rfl⟩ | ⟨now, rfl, rfl⟩
  · exact h.refresh now
  · exact h.refresh now
  · exact ⟨h.threshold_eq, h.timeout_eq, fun hstate => absurd rfl hstate⟩
  · exact h.fail now
  · exact h.refresh now

theorem configured_after {s₀ s s' : Shared ι} {steps : List (Step ι)} (h : Configured s₀ s)
    (hafter : s.after steps = some s') : Configured s₀ s' :=
  after_invariant (fun _ _ _ hs hstep => hs.step hstep) h hafter

/-! ## The failures that count -/

/-- After `m` failures in a row, the last of them not before `t`, the breaker is closed or
open as their number says. -/
structure Since (s₀ : Shared ι) (t : ℚ) (m : ℕ) (s : Shared ι) : Prop where
  configured : Configured s₀ s
  count : s.breaker.consecutiveFailures = m
  below : m < s₀.breaker.failureThreshold → s.breaker.state = .closed
  reached : s₀.breaker.failureThreshold ≤ m → s.breaker.state = .opened ∧ t ≤ s.breaker.openedAt

namespace Since

variable {s₀ : Shared ι} {t : ℚ} {m : ℕ} {b : CircuitBreaker} {f g : ι → Bool} {now : ℚ}

omit [DecidableEq ι] in
/-- Within the cooldown the clock changes nothing. -/
theorem refresh_eq (h : Since s₀ t m ⟨b, f⟩)
    (hnow : now < t + s₀.breaker.recoveryTimeoutSeconds) : b.refresh now = b := by
  rcases lt_or_ge m s₀.breaker.failureThreshold with hbelow | hreached
  · exact refresh_of_closed (h.below hbelow)
  · apply refresh_of_not_cooledDown
    have hopened : t ≤ b.openedAt := (h.reached hreached).2
    have htimeout : b.recoveryTimeoutSeconds = s₀.breaker.recoveryTimeoutSeconds :=
      h.configured.timeout_eq
    rw [CircuitBreaker.cooledDown, htimeout, not_le]
    linarith

omit [DecidableEq ι] in
theorem refresh (h : Since s₀ t m ⟨b, f⟩) (hnow : now < t + s₀.breaker.recoveryTimeoutSeconds) :
    Since s₀ t m ⟨b.refresh now, g⟩ := by
  rw [h.refresh_eq hnow]
  exact ⟨⟨h.configured.threshold_eq, h.configured.timeout_eq, h.configured.counted⟩, h.count,
    h.below, h.reached⟩

omit [DecidableEq ι] in
theorem fail (h : Since s₀ t m ⟨b, f⟩) (hnow : t ≤ now) :
    Since s₀ t (m + 1) ⟨b.fail now, g⟩ := by
  have hconfigured : Configured s₀ ⟨b.fail now, g⟩ := h.configured.fail now
  have hcount : b.consecutiveFailures = m := h.count
  have hthreshold : b.failureThreshold = s₀.breaker.failureThreshold := h.configured.threshold_eq
  have hsum : b.countFailure.consecutiveFailures = m + 1 := congrArg (· + 1) hcount
  by_cases hreached : s₀.breaker.failureThreshold ≤ m + 1
  · have hfail : b.fail now = b.countFailure.open now := by
      rw [CircuitBreaker.fail, if_pos (by rw [hsum, hthreshold]; exact hreached)]
    rw [hfail] at hconfigured ⊢
    exact ⟨hconfigured, hsum, fun hbelow => absurd hreached (not_le.2 hbelow),
      fun _ => ⟨rfl, hnow⟩⟩
  · have hfail : b.fail now = b.countFailure := by
      rw [CircuitBreaker.fail, if_neg (by rw [hsum, hthreshold]; exact hreached)]
    rw [hfail] at hconfigured ⊢
    exact ⟨hconfigured, hsum, fun _ => h.below (by omega), fun h => absurd h hreached⟩

theorem step {s s' : Shared ι} {a : Step ι} (h : Since s₀ t m s) (hstep : s.step a = some s')
    (hsuccess : isSuccess a = false)
    (htime : ∀ now ∈ time a, t ≤ now ∧ now < t + s₀.breaker.recoveryTimeoutSeconds) :
    Since s₀ t (if isFailure a then m + 1 else m) s' := by
  rcases step_cases hstep with ⟨i, now, rfl, -, -, -, rfl⟩ | ⟨i, now, rfl, -, -, -, rfl⟩ |
    ⟨i, rfl, -, rfl⟩ | ⟨i, now, rfl, -, rfl⟩ | ⟨now, rfl, rfl⟩
  · exact h.refresh (htime now rfl).2
  · exact h.refresh (htime now rfl).2
  · cases hsuccess
  · exact h.fail (htime now rfl).1
  · exact h.refresh (htime now rfl).2

/-- Without a success the failures of a run add up. -/
theorem after {s s' : Shared ι} {steps : List (Step ι)} (h : Since s₀ t m s)
    (hafter : s.after steps = some s') (hsuccess : steps.any isSuccess = false)
    (htime : ∀ now ∈ steps.filterMap time, t ≤ now ∧
      now < t + s₀.breaker.recoveryTimeoutSeconds) :
    Since s₀ t (m + steps.countP isFailure) s' := by
  induction steps generalizing s m with
  | nil =>
      obtain rfl := Option.some.inj hafter
      exact h
  | cons a steps ih =>
      obtain ⟨s₁, hstep, hrest⟩ := (after_cons_eq_some_iff s s' a steps).1 hafter
      rw [List.any_cons, Bool.or_eq_false_iff] at hsuccess
      have hhead : ∀ now ∈ time a, t ≤ now ∧ now < t + s₀.breaker.recoveryTimeoutSeconds := by
        intro now hnow
        exact htime now (List.mem_filterMap.2 ⟨a, List.mem_cons_self, hnow⟩)
      have htail := ih (h.step hstep hsuccess.1 hhead) hrest hsuccess.2 fun now hnow => by
        obtain ⟨b, hb, hbnow⟩ := List.mem_filterMap.1 hnow
        exact htime now (List.mem_filterMap.2 ⟨b, List.mem_cons_of_mem a hb, hbnow⟩)
      rw [List.countP_cons]
      cases hfailure : isFailure a with
      | true =>
          rw [hfailure, if_pos rfl] at htail
          rwa [if_pos rfl, Nat.add_comm (List.countP isFailure steps), ← Nat.add_assoc]
      | false =>
          rw [hfailure, if_neg Bool.false_ne_true] at htail
          rwa [if_neg Bool.false_ne_true]

omit [DecidableEq ι] in
/-- Whoever asks within the cooldown is admitted as long as the failures are too few. -/
theorem admitted_iff {s : Shared ι} (h : Since s₀ t m s) (j : ι)
    (hnow : now < t + s₀.breaker.recoveryTimeoutSeconds) :
    s.admitted (.admission j now) = none ↔ s₀.breaker.failureThreshold ≤ m := by
  have heq : s.breaker.refresh now = s.breaker := h.refresh_eq hnow
  rw [admitted, heq]
  rcases lt_or_ge m s₀.breaker.failureThreshold with hbelow | hreached
  · rw [h.below hbelow]
    simpa using hbelow
  · rw [(h.reached hreached).1]
    simpa using hreached

end Since

/-! ## Openings and successes -/

section Run

variable {s₀ s s₁ : Shared ι} {t : ℚ}

/-- A failing completion that leaves the breaker open has opened it. -/
theorem since_opening {i : ι} (h : Configured s₀ s) (hstep : s.step (.failure i t) = some s₁)
    (hopened : s₁.breaker.state = .opened) :
    Since s₀ t s₁.breaker.consecutiveFailures s₁ ∧
      s₀.breaker.failureThreshold ≤ s₁.breaker.consecutiveFailures := by
  have hconfigured := h.step hstep
  have hcount : s₀.breaker.failureThreshold ≤ s₁.breaker.consecutiveFailures := by
    apply hconfigured.counted
    rw [hopened]
    simp
  have hstamp : t ≤ s₁.breaker.openedAt := by
    rw [step] at hstep
    split_ifs at hstep
    obtain rfl := Option.some.inj hstep
    dsimp only at hopened hcount ⊢
    by_cases hreached : s.breaker.failureThreshold ≤ s.breaker.countFailure.consecutiveFailures
    · rw [CircuitBreaker.fail, if_pos hreached]
      exact le_rfl
    · rw [CircuitBreaker.fail, if_neg hreached] at hcount
      rw [h.threshold_eq] at hreached
      exact absurd hcount hreached
  exact ⟨⟨hconfigured, rfl, fun hbelow => absurd hcount (not_le.2 hbelow),
    fun _ => ⟨hopened, hstamp⟩⟩, hcount⟩

/-- A success starts the count again. -/
theorem since_success {k : ι} (h : Configured s₀ s) (hstep : s.step (.success k) = some s₁)
    (hthreshold : 1 ≤ s₀.breaker.failureThreshold) : Since s₀ t 0 s₁ := by
  have hconfigured := h.step hstep
  rw [step] at hstep
  split_ifs at hstep
  obtain rfl := Option.some.inj hstep
  exact ⟨hconfigured, rfl, fun _ => rfl,
    fun hreached => absurd (hthreshold.trans hreached) (by simp)⟩

omit [DecidableEq ι] in
theorem exists_last_success {steps : List (Step ι)} (h : steps.any isSuccess = true) :
    ∃ early k late, steps = early ++ .success k :: late ∧ late.any isSuccess = false := by
  induction steps with
  | nil => cases h
  | cons a steps ih =>
      cases hlater : steps.any isSuccess with
      | true =>
          obtain ⟨early, k, late, rfl, hlate⟩ := ih hlater
          exact ⟨a :: early, k, late, rfl, hlate⟩
      | false =>
          rw [List.any_cons, hlater, Bool.or_false] at h
          cases a with
          | success k => exact ⟨[], k, steps, rfl, hlater⟩
          | admission i now => cases h
          | failure i now => cases h
          | read now => cases h

omit [DecidableEq ι] in
/-- What is read between two readings lies between them. -/
theorem time_between {before during rest : List (Step ι)} {i j : ι} {now : ℚ}
    (h : Monotonic (before ++ .failure i t :: (during ++ .admission j now :: rest)))
    {time' : ℚ} (htime : time' ∈ during.filterMap time) : t ≤ time' ∧ time' ≤ now := by
  have htimes : (Step.failure i t :: (during ++ .admission j now :: rest)).filterMap time =
      t :: (during.filterMap time ++ now :: rest.filterMap time) := by
    simp only [List.filterMap_cons, List.filterMap_append, time]
  rw [Monotonic, List.filterMap_append, List.pairwise_append, htimes, List.pairwise_cons,
    List.pairwise_append] at h
  exact ⟨h.2.1.1 time' (List.mem_append_left _ htime),
    h.2.1.2.2.2 time' htime now List.mem_cons_self⟩

/-- After its last success only the failures since then count. -/
theorem since_last_success {early late : List (Step ι)} {k : ι} {s₂ : Shared ι}
    (h : Configured s₀ s₁) (hthreshold : 1 ≤ s₀.breaker.failureThreshold)
    (hduring : s₁.after (early ++ .success k :: late) = some s₂)
    (hlate : late.any isSuccess = false)
    (htime : ∀ now ∈ (early ++ .success k :: late).filterMap time,
      t ≤ now ∧ now < t + s₀.breaker.recoveryTimeoutSeconds) :
    Since s₀ t (late.countP isFailure) s₂ := by
  obtain ⟨s₃, hearly, hrest⟩ := (after_append_eq_some_iff _ _ _ _).1 hduring
  obtain ⟨s₄, hsuccess, hlater⟩ := (after_cons_eq_some_iff _ _ _ _).1 hrest
  have hstart := since_success (t := t) (configured_after h hearly) hsuccess hthreshold
  rw [← Nat.zero_add (late.countP isFailure)]
  apply hstart.after hlater hlate
  intro now hnow
  apply htime
  rw [List.filterMap_append]
  exact List.mem_append_right _ hnow

end Run

/-- In a possible run the cooldown is respected unless it is cut short. -/
theorem respectsCooldown_iff {s : Shared ι} {steps : List (Step ι)}
    (hconfigured : Configured s s) (hthreshold : 1 ≤ s.breaker.failureThreshold)
    (hpossible : (s.after steps).isSome = true) (hclock : Monotonic steps) :
    s.RespectsCooldown steps ↔ ¬ s.CutShort steps := by
  constructor
  · rintro hrespects ⟨before, i, t, early, k, late, j, now, rest, s₁, hsteps, hopening, hopened,
      hlate, hfew, hnow⟩
    have hduring : steps = before ++ .failure i t ::
        ((early ++ .success k :: late) ++ .admission j now :: rest) := by
      rw [hsteps, List.append_assoc early, List.cons_append]
    subst hduring
    obtain ⟨s', hafter⟩ := Option.isSome_iff_exists.1 hpossible
    rw [← List.singleton_append, ← List.append_assoc, after_append_eq_some_iff] at hafter
    obtain ⟨s₁', hopening', hafter⟩ := hafter
    obtain rfl := Option.some.inj (hopening'.symm.trans hopening)
    obtain ⟨s₂, hduring, -⟩ := (after_append_eq_some_iff _ _ _ _).1 hafter
    have hsince := since_last_success (t := t) (configured_after hconfigured hopening) hthreshold
      hduring hlate fun time' htime =>
        (time_between hclock htime).imp_right fun hle => hle.trans_lt hnow
    have hnone := hrespects before i t _ j now rest rfl _ s₂ hopening hopened hduring hnow
    exact absurd hfew (not_lt.2 ((hsince.admitted_iff j hnow).1 hnone))
  · intro hnot before i t during j now rest hsteps s₁ s₂ hopening hopened hduring hnow
    subst hsteps
    have hbetween : ∀ time' ∈ during.filterMap time,
        t ≤ time' ∧ time' < t + s.breaker.recoveryTimeoutSeconds := fun time' htime =>
      (time_between hclock htime).imp_right fun hle => hle.trans_lt hnow
    cases hsuccess : during.any isSuccess with
    | false =>
        obtain ⟨s₀, hbefore, hfailing⟩ := (after_append_eq_some_iff _ _ _ _).1 hopening
        obtain ⟨s₁', hstep, hnil⟩ := (after_cons_eq_some_iff _ _ _ _).1 hfailing
        obtain rfl := Option.some.inj hnil
        obtain ⟨hsince, hcount⟩ :=
          since_opening (configured_after hconfigured hbefore) hstep hopened
        have hfinal := hsince.after hduring hsuccess hbetween
        exact (hfinal.admitted_iff j hnow).2 (hcount.trans (Nat.le_add_right _ _))
    | true =>
        obtain ⟨early, k, late, rfl, hlate⟩ := exists_last_success hsuccess
        have hsince := since_last_success (configured_after hconfigured hopening) hthreshold
          hduring hlate hbetween
        rw [hsince.admitted_iff j hnow]
        by_contra hfew
        refine hnot ⟨before, i, t, early, k, late, j, now, rest, s₁, ?_, hopening, hopened, hlate,
          not_le.1 hfew, hnow⟩
        rw [List.append_assoc early, List.cons_append]

end Shared

theorem cooldown_respected_iff (ι : Type) [DecidableEq ι] (name : String) (threshold : ℕ)
    (timeout : ℚ) (hthreshold : 1 ≤ threshold) (steps : List (Step ι))
    (hpossible : ((Shared.new ι name threshold timeout).after steps).isSome = true)
    (hclock : Shared.Monotonic steps) :
    (Shared.new ι name threshold timeout).RespectsCooldown steps ↔
      ¬ (Shared.new ι name threshold timeout).CutShort steps :=
  Shared.respectsCooldown_iff ⟨rfl, rfl, fun hstate => absurd rfl hstate⟩ hthreshold hpossible
    hclock

/-- Three failed calls of one caller, with a call of another one in flight that succeeds
afterwards. The breaker lets the next call through at once. -/
def lateSuccess : List (Step Bool) :=
  [.admission true 0, .admission false 0, .failure false 0, .admission false 0, .failure false 0,
    .admission false 0, .failure false 0, .success true, .admission false 1]

theorem possible_lateSuccess : ((Shared.new Bool "llm" 3 15).after lateSuccess).isSome = true := by
  decide

theorem monotonic_lateSuccess : Shared.Monotonic lateSuccess := by
  decide

theorem cooldown_respected_lateSuccess :
    (Shared.new Bool "llm" 3 15).RespectsCooldown lateSuccess ↔
      ¬ (Shared.new Bool "llm" 3 15).CutShort lateSuccess :=
  cooldown_respected_iff Bool "llm" 3 15 (by decide) lateSuccess possible_lateSuccess
    monotonic_lateSuccess

theorem admitted_during_cooldown :
    ((Shared.new Bool "llm" 3 15).after lateSuccess).isSome = true ∧
      Shared.Monotonic lateSuccess ∧
      ¬ (Shared.new Bool "llm" 3 15).RespectsCooldown lateSuccess := by
  refine ⟨possible_lateSuccess, monotonic_lateSuccess, fun hrespects => ?_⟩
  have hadmitted : (((Shared.new Bool "llm" 3 15).after (lateSuccess.take 7)).any fun s₁ =>
      s₁.breaker.state == .opened && (s₁.after [.success true]).any fun s₂ =>
        (s₂.admitted (.admission false 1)).isSome) = true := by
    decide
  obtain ⟨s₁, hopening, hlater⟩ := (Option.any_eq_true _ _).1 hadmitted
  rw [Bool.and_eq_true, beq_iff_eq] at hlater
  obtain ⟨s₂, hduring, hsome⟩ := (Option.any_eq_true _ _).1 hlater.2
  have hnone := hrespects (lateSuccess.take 6) false 0 [.success true] false 1 [] rfl s₁ s₂ hopening
    hlater.1 hduring (by decide +kernel)
  rw [hnone] at hsome
  cases hsome

end Underwriting
