import Underwriting.Infrastructure.Callers

/-!
# The counter and the state of a breaker

The state of a breaker, its counter and its timestamp are written by sections that callers
enter in any order: a call may be admitted in one state and completed in another. Whatever the
order, the state is closed exactly while the counter is below the threshold. A half-open
breaker has therefore counted enough failures already, and one more opens it again.
-/

namespace Underwriting

namespace CircuitBreaker

/-- A breaker with this threshold whose counter and state agree. -/
structure Consistent (threshold : ℕ) (b : CircuitBreaker) : Prop where
  threshold_eq : b.failureThreshold = threshold
  closed_iff : b.state = .closed ↔ b.consecutiveFailures < threshold

namespace Consistent

variable {threshold : ℕ} {b : CircuitBreaker}

theorem new (name : String) (timeout : ℚ) (hthreshold : 1 ≤ threshold) :
    Consistent threshold (.new name threshold timeout) where
  threshold_eq := rfl
  closed_iff := by simpa [CircuitBreaker.new] using Nat.lt_of_succ_le hthreshold

theorem reached (h : Consistent threshold b) (hstate : b.state ≠ .closed) :
    threshold ≤ b.consecutiveFailures := by
  rw [← not_lt, ← h.closed_iff]
  exact hstate

/-- An elapsed cooldown turns an open breaker half-open, which is not closed either. -/
theorem refresh (h : Consistent threshold b) (now : ℚ) : Consistent threshold (b.refresh now) where
  threshold_eq := by rw [refresh_failureThreshold, h.threshold_eq]
  closed_iff := by rw [refresh_state_eq_closed_iff, refresh_consecutiveFailures, h.closed_iff]

theorem close (h : Consistent threshold b) (hthreshold : 1 ≤ threshold) :
    Consistent threshold b.close where
  threshold_eq := h.threshold_eq
  closed_iff := by simpa [CircuitBreaker.close] using Nat.lt_of_succ_le hthreshold

theorem fail_of_reached (h : Consistent threshold b) (now : ℚ)
    (hreached : threshold ≤ b.consecutiveFailures + 1) :
    b.fail now = b.countFailure.open now := by
  apply if_pos
  rw [h.threshold_eq]
  exact hreached

theorem fail_of_below (h : Consistent threshold b) (now : ℚ)
    (hbelow : b.consecutiveFailures + 1 < threshold) : b.fail now = b.countFailure := by
  apply if_neg
  rw [h.threshold_eq, not_le]
  exact hbelow

/-- A failure that leaves the counter below the threshold was counted by a closed breaker. -/
theorem fail (h : Consistent threshold b) (now : ℚ) : Consistent threshold (b.fail now) := by
  rcases le_or_gt threshold (b.consecutiveFailures + 1) with hreached | hbelow
  · rw [h.fail_of_reached now hreached]
    have hopened : (b.countFailure.open now).state ≠ .closed := by
      simp [CircuitBreaker.open]
    exact ⟨h.threshold_eq, iff_of_false hopened (not_lt.2 hreached)⟩
  · rw [h.fail_of_below now hbelow]
    have hclosed : b.state = .closed := h.closed_iff.2 (by omega)
    exact ⟨h.threshold_eq, iff_of_true hclosed hbelow⟩

theorem fail_of_halfOpen (h : Consistent threshold b) (now : ℚ) (hstate : b.state = .halfOpen) :
    (b.fail now).state = .opened ∧ (b.fail now).openedAt = now := by
  have hreached : threshold ≤ b.consecutiveFailures := by
    apply h.reached
    simp [hstate]
  rw [h.fail_of_reached now (hreached.trans (Nat.le_succ _))]
  exact ⟨rfl, rfl⟩

end Consistent

end CircuitBreaker

namespace Shared

variable {ι : Type} [DecidableEq ι]

theorem consistent_step {threshold : ℕ} (hthreshold : 1 ≤ threshold) {s s' : Shared ι}
    {a : Step ι} (h : s.breaker.Consistent threshold) (hstep : s.step a = some s') :
    s'.breaker.Consistent threshold := by
  rcases step_cases hstep with ⟨i, now, rfl, -, -, -, rfl⟩ | ⟨i, now, rfl, -, -, -, rfl⟩ |
    ⟨i, rfl, -, rfl⟩ | ⟨i, now, rfl, -, rfl⟩ | ⟨now, rfl, rfl⟩
  · exact h.refresh now
  · exact h.refresh now
  · exact h.close hthreshold
  · exact h.fail now
  · exact h.refresh now

theorem consistent_after {threshold : ℕ} (hthreshold : 1 ≤ threshold) (name : String)
    (timeout : ℚ) {steps : List (Step ι)} {s : Shared ι}
    (hafter : (new ι name threshold timeout).after steps = some s) :
    s.breaker.Consistent threshold :=
  after_invariant (P := fun s => s.breaker.Consistent threshold)
    (fun _ _ _ h hstep => consistent_step hthreshold h hstep) (.new name timeout hthreshold) hafter

theorem step_success_breaker {s s' : Shared ι} {i : ι} (hstep : s.step (.success i) = some s') :
    s'.breaker = s.breaker.close := by
  rw [step] at hstep
  split_ifs at hstep
  rw [← Option.some.inj hstep]

theorem step_failure_breaker {s s' : Shared ι} {i : ι} {now : ℚ}
    (hstep : s.step (.failure i now) = some s') : s'.breaker = s.breaker.fail now := by
  rw [step] at hstep
  split_ifs at hstep
  rw [← Option.some.inj hstep]

end Shared

theorem breaker_closed_iff (ι : Type) [DecidableEq ι] (name : String) (threshold : ℕ)
    (timeout : ℚ) (hthreshold : 1 ≤ threshold) (steps : List (Step ι)) (s : Shared ι)
    (hafter : (Shared.new ι name threshold timeout).after steps = some s) :
    (s.breaker.state = .closed ↔ s.breaker.consecutiveFailures < threshold) ∧
      (∀ i now s', s.step (.failure i now) = some s' → s.breaker.state = .halfOpen →
        s'.breaker.state = .opened ∧ s'.breaker.openedAt = now) ∧
      ∀ i s', s.step (.success i) = some s' →
        s'.breaker.state = .closed ∧ s'.breaker.consecutiveFailures = 0 := by
  have hconsistent := Shared.consistent_after hthreshold name timeout hafter
  refine ⟨hconsistent.closed_iff, ?_, ?_⟩
  · intro i now s' hstep hstate
    rw [Shared.step_failure_breaker hstep]
    exact hconsistent.fail_of_halfOpen now hstate
  · intro i s' hstep
    rw [Shared.step_success_breaker hstep]
    exact ⟨rfl, rfl⟩

/-- Two probes of the same cooldown, both of them in flight. -/
def overlappingProbes : List (Step Bool) :=
  [.admission true 0, .failure true 0, .read 20, .admission true 20, .admission false 20]

theorem breaker_closed_iff_overlappingProbes :
    ∃ s s', (Shared.new Bool "llm" 1 15).after overlappingProbes = some s ∧
      s.breaker.state = .halfOpen ∧ s.step (.failure true 21) = some s' ∧
      (s.breaker.state = .closed ↔ s.breaker.consecutiveFailures < 1) ∧
      s'.breaker.state = .opened ∧ s'.breaker.openedAt = 21 := by
  have hprobes : (((Shared.new Bool "llm" 1 15).after overlappingProbes).any fun s =>
      s.breaker.state == .halfOpen && s.inFlight true) = true := by
    decide +kernel
  obtain ⟨s, hafter, hstate⟩ := (Option.any_eq_true _ _).1 hprobes
  rw [Bool.and_eq_true, beq_iff_eq] at hstate
  obtain ⟨hclosed, hfailure, -⟩ :=
    breaker_closed_iff Bool "llm" 1 15 (by decide) overlappingProbes s hafter
  have hstep := Shared.step_failure 21 hstate.2
  exact ⟨s, _, hafter, hstate.1, hstep, hclosed, hfailure true 21 _ hstep hstate.1⟩

end Underwriting
