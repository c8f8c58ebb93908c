import Underwriting.Infrastructure.Breaker

/-!
# Callers that share a breaker

Any number of callers share one breaker. A call is two atomic steps, its admission and its
completion, and between them its caller is in flight while the others go on. A step carries
the time at which its section reads the clock. `Shared.step` is the transition of one step,
`Shared.after` a run; nothing is assumed about the times.
-/

namespace Underwriting

/-- The breaker and the callers that are between admission and completion. -/
structure Shared (ι : Type) where
  breaker : CircuitBreaker
  inFlight : ι → Bool

/-- The atomic steps. -/
inductive Step (ι : Type) where
  | admission (i : ι) (now : ℚ)
  | success (i : ι)
  | failure (i : ι) (now : ℚ)
  | read (now : ℚ)

namespace Shared

variable {ι : Type} [DecidableEq ι]

/-- A new breaker that nobody has called yet. -/
def new (ι : Type) (name : String) (threshold : ℕ) (timeout : ℚ) : Shared ι :=
  ⟨.new name threshold timeout, fun _ => false⟩

/-- The caller that a step admits. -/
def admitted (s : Shared ι) : Step ι → Option ι
  | .admission i now => if (s.breaker.refresh now).state = .opened then none else some i
  | .success _ | .failure _ _ | .read _ => none

/-- A caller asks for a call when it is not in flight, and completes one when it is. -/
def step (s : Shared ι) : Step ι → Option (Shared ι)
  | .admission i now =>
      if s.inFlight i then none
      else if (s.breaker.refresh now).state = .opened then
        some { s with breaker := s.breaker.refresh now }
      else some ⟨s.breaker.refresh now, Function.update s.inFlight i true⟩
  | .success i =>
      if s.inFlight i then some ⟨s.breaker.close, Function.update s.inFlight i false⟩ else none
  | .failure i now =>
      if s.inFlight i then some ⟨s.breaker.fail now, Function.update s.inFlight i false⟩ else none
  | .read now => some { s with breaker := s.breaker.refresh now }

/-- Where a run leads, if all its steps are possible. -/
def after (s : Shared ι) : List (Step ι) → Option (Shared ι)
  | [] => some s
  | a :: steps => (s.step a).bind fun s' => s'.after steps

@[simp] theorem after_nil (s : Shared ι) : s.after [] = some s := rfl

theorem after_cons_eq_some_iff (s s' : Shared ι) (a : Step ι) (steps : List (Step ι)) :
    s.after (a :: steps) = some s' ↔ ∃ s₁, s.step a = some s₁ ∧ s₁.after steps = some s' := by
  rw [after, Option.bind_eq_some_iff]

theorem after_append (s : Shared ι) (steps steps' : List (Step ι)) :
    s.after (steps ++ steps') = (s.after steps).bind fun s' => s'.after steps' := by
  induction steps generalizing s with
  | nil => rw [List.nil_append, after_nil, Option.bind_some]
  | cons a steps ih =>
      rw [List.cons_append, after, after, Option.bind_assoc]
      exact congrArg _ (funext ih)

theorem after_append_eq_some_iff (s s' : Shared ι) (steps steps' : List (Step ι)) :
    s.after (steps ++ steps') = some s' ↔
      ∃ s₁, s.after steps = some s₁ ∧ s₁.after steps' = some s' := by
  rw [after_append, Option.bind_eq_some_iff]

omit [DecidableEq ι] in
theorem admitted_admission {s : Shared ι} {now : ℚ}
    (hstate : (s.breaker.refresh now).state ≠ .opened) (i : ι) :
    s.admitted (.admission i now) = some i := if_neg hstate

theorem step_admission {s : Shared ι} {i : ι} {now : ℚ} (hidle : s.inFlight i = false)
    (hstate : (s.breaker.refresh now).state ≠ .opened) :
    s.step (.admission i now) =
      some ⟨s.breaker.refresh now, Function.update s.inFlight i true⟩ := by
  rw [step, if_neg (by rw [hidle]; exact Bool.false_ne_true), if_neg hstate]

theorem step_failure {s : Shared ι} {i : ι} (now : ℚ) (hbusy : s.inFlight i = true) :
    s.step (.failure i now) =
      some ⟨s.breaker.fail now, Function.update s.inFlight i false⟩ := by
  rw [step, if_pos hbusy]

/-- What a step can do. -/
theorem step_cases {s s' : Shared ι} {a : Step ι} (h : s.step a = some s') :
    (∃ i now, a = .admission i now ∧ s.inFlight i = false ∧
      (s.breaker.refresh now).state = .opened ∧ s.admitted a = none ∧
      s' = ⟨s.breaker.refresh now, s.inFlight⟩) ∨
    (∃ i now, a = .admission i now ∧ s.inFlight i = false ∧
      (s.breaker.refresh now).state ≠ .opened ∧ s.admitted a = some i ∧
      s' = ⟨s.breaker.refresh now, Function.update s.inFlight i true⟩) ∨
    (∃ i, a = .success i ∧ s.inFlight i = true ∧
      s' = ⟨s.breaker.close, Function.update s.inFlight i false⟩) ∨
    (∃ i now, a = .failure i now ∧ s.inFlight i = true ∧
      s' = ⟨s.breaker.fail now, Function.update s.inFlight i false⟩) ∨
    ∃ now, a = .read now ∧ s' = ⟨s.breaker.refresh now, s.inFlight⟩ := by
  cases a with
  | admission i now =>
      rw [step] at h
      split_ifs at h with hbusy hopened
      · exact .inl ⟨i, now, rfl, by simpa using hbusy, hopened, if_pos hopened,
          (Option.some.inj h).symm⟩
      · exact .inr (.inl ⟨i, now, rfl, by simpa using hbusy, hopened, if_neg hopened,
          (Option.some.inj h).symm⟩)
  | success i =>
      rw [step] at h
      split_ifs at h with hbusy
      exact .inr (.inr (.inl ⟨i, rfl, hbusy, (Option.some.inj h).symm⟩))
  | failure i now =>
      rw [step] at h
      split_ifs at h with hbusy
      exact .inr (.inr (.inr (.inl ⟨i, now, rfl, hbusy, (Option.some.inj h).symm⟩)))
  | read now => exact .inr (.inr (.inr (.inr ⟨now, rfl, (Option.some.inj h).symm⟩)))

/-- What every step keeps holds wherever a run leads. -/
theorem after_invariant {P : Shared ι → Prop}
    (hkeep : ∀ s s' a, P s → s.step a = some s' → P s') {s s' : Shared ι} {steps : List (Step ι)}
    (h : P s) (hafter : s.after steps = some s') : P s' := by
  induction steps generalizing s with
  | nil =>
      obtain rfl := Option.some.inj hafter
      exact h
  | cons a steps ih =>
      obtain ⟨s₁, hstep, hrest⟩ := (after_cons_eq_some_iff s s' a steps).1 hafter
      exact ih (hkeep s s₁ a h hstep) hrest

end Shared

end Underwriting
