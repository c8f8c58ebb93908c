import Underwriting.Run.Reachable

/-!
# Fresh runs

A run under an id that nothing is stored under starts over blank values. So every slice of
the values stored for it is its own, and it is a function of the extraction, the resolution
and the rationale that the case has been given.
-/

namespace Underwriting

open Python

/-! ## What a case has been given -/

namespace Progress

variable {env : Env} {a : LoanApplication}

def extraction : Progress env a → Option ExtractedFinancials
  | .extracting => none
  | .scoring x _ | .awaiting x _ => some x
  | .explaining c => some c.extracted
  | .completed c _ => some c.extracted

/-- The extraction once it has been scored and the policy evaluated. -/
def appraised : Progress env a → Option ExtractedFinancials
  | .extracting | .scoring _ _ => none
  | .awaiting x _ => some x
  | .explaining c => some c.extracted
  | .completed c _ => some c.extracted

def resolution : Progress env a → Option EscalationResolution
  | .extracting | .scoring _ _ | .awaiting _ _ => none
  | .explaining c => c.resolution
  | .completed c _ => c.resolution

def decision : Progress env a → Option Decision
  | .extracting | .scoring _ _ | .awaiting _ _ | .explaining _ => none
  | .completed c rationale => some (decisionFor env a c.extracted c.resolution rationale)

/-- The case has been decided by, or waits for, a reviewer. -/
def Escalated (p : Progress env a) : Prop := ∃ x ∈ p.appraised, NeedsHuman env a x

theorem extraction_of_appraised {p : Progress env a} {x : ExtractedFinancials}
    (h : p.appraised = some x) : p.extraction = some x := by
  cases p with
  | extracting => cases h
  | scoring y hy => cases h
  | awaiting y hy => exact h
  | explaining c => exact h
  | completed c rationale => exact h

end Progress

section Steps

variable {env : Env} {R : Run}

end Steps

/-! ## What is stored -/

section Values

variable {env : Env} {a : LoanApplication} {c : String}

/-- The values of a fresh case, slice by slice. -/
structure Slices (env : Env) (a : LoanApplication) (p : Progress env a) (v : UnderwritingState) :
    Prop where
  application : v.application = a.modelDump
  extractedFinancials : v.extractedFinancials = p.extraction.map ExtractedFinancials.modelDump
  riskAssessment : v.riskAssessment = p.appraised.map fun x => (riskFor env a x).modelDump
  policyResult : v.policyResult = p.appraised.map fun x => (policyFor env a x).modelDump
  escalationResolution :
    v.escalationResolution = p.resolution.map EscalationResolution.modelDump
  decision : v.decision = p.decision.map Decision.modelDump

theorem slices_fresh (p : Progress env a) :
    Slices env a p ((Run.fresh a c).thread env p).values := by
  cases p with
  | extracting => constructor <;> rfl
  | scoring x h => constructor <;> rfl
  | awaiting x h => constructor <;> rfl
  | explaining s =>
      obtain ⟨x, resolution, hgated⟩ := s
      cases resolution <;> constructor <;> rfl
  | completed s rationale =>
      obtain ⟨x, resolution, hgated⟩ := s
      cases resolution <;> constructor <;> rfl

namespace Slices

variable {p : Progress env a} {v : UnderwritingState} (h : Slices env a p v)

include h

theorem extraction_eq {x : ExtractedFinancials} (hx : v.extractedFinancials = some x.modelDump) :
    p.extraction = some x :=
  Option.map_injective ExtractedFinancials.modelDump_injective
    (h.extractedFinancials.symm.trans hx)

/-- A stored assessment is the one of the extraction. -/
theorem appraised_eq {x : ExtractedFinancials} (hx : p.extraction = some x)
    (hrisk : v.riskAssessment ≠ none) : p.appraised = some x := by
  have hslice := h.riskAssessment
  cases happraised : p.appraised with
  | none =>
      rw [happraised] at hslice
      exact absurd hslice hrisk
  | some y => exact (Progress.extraction_of_appraised happraised).symm.trans hx

theorem risk_eq {x : ExtractedFinancials} {risk : RiskAssessment} (hx : p.extraction = some x)
    (hrisk : v.riskAssessment = some risk.modelDump) : riskFor env a x = risk := by
  have hslice := h.riskAssessment
  rw [h.appraised_eq hx (by simp [hrisk]), hrisk] at hslice
  exact RiskAssessment.modelDump_injective (Option.some.inj hslice).symm

theorem policy_eq {x : ExtractedFinancials} {policy : PolicyResult} (hx : p.appraised = some x)
    (hpolicy : v.policyResult = some policy.modelDump) : policyFor env a x = policy := by
  have hslice := h.policyResult
  rw [hx, hpolicy] at hslice
  exact PolicyResult.modelDump_injective (Option.some.inj hslice).symm

theorem resolution_eq {res : EscalationResolution}
    (hres : v.escalationResolution = some res.modelDump) : p.resolution = some res :=
  Option.map_injective EscalationResolution.modelDump_injective
    (h.escalationResolution.symm.trans hres)

theorem decision_eq {d : Decision} (hd : v.decision = some d.modelDump) : p.decision = some d :=
  Option.map_injective Decision.modelDump_injective (h.decision.symm.trans hd)

end Slices

end Values

/-- A decision belongs to a completed case. -/
theorem Progress.exists_completed {env : Env} {a : LoanApplication} {p : Progress env a}
    {d : Decision} (h : p.decision = some d) : ∃ (s : Settled env a) (rationale : Rationale),
      p = .completed s rationale ∧ decisionFor env a s.extracted s.resolution rationale = d := by
  cases p with
  | completed s rationale => exact ⟨s, rationale, rfl, Option.some.inj h⟩
  | extracting => cases h
  | scoring x hx => cases h
  | awaiting x hx => cases h
  | explaining s => cases h

/-! ## Every moment of a fresh run -/

/-- What is stored under the id of the submission after it and some later calls. -/
def storedAfter (env : Env) (before : List Call) (a : LoanApplication) (later : List Call) :
    Option Thread :=
  (run env (.start a :: later) (run env before .init)).store a.applicationId

theorem sound_moment (env : Env) (before : List Call) (a : LoanApplication) (later : List Call) :
    Sound env (fun _ => True) (run env (.start a :: later) (run env before .init)) := by
  have hsound := sound_run env (before ++ .start a :: later)
  rwa [run_append] at hsound

/-- Whatever is called after the submission of a fresh id, other than submitting it again, a
case of the submission is stored. -/
theorem exists_slices {env : Env} {a : LoanApplication} {before later : List Call} {t : Thread}
    (hfresh : (run env before .init).store a.applicationId = none)
    (hno : a.applicationId ∉ submittedIds later)
    (ht : (run env (.start a :: later) (run env before .init)).store a.applicationId = some t) :
    ∃ c p, t = (Run.fresh a c).thread env p ∧ Slices env a p t.values := by
  obtain ⟨c, p, hstore, -⟩ := store_run_fresh (P := fun _ => True) (fun _ _ => trivial)
    (fun _ _ _ _ _ => trivial) hfresh hno
  obtain rfl := Option.some.inj (ht.symm.trans hstore)
  exact ⟨c, p, rfl, slices_fresh p⟩

/-- What is stored after calls that submit no id twice belongs to a fresh submission. -/
theorem exists_submission_of_nodup {env : Env} {calls : List Call} {id : String} {t : Thread}
    (hnodup : (submittedIds calls).Nodup) (ht : (run env calls .init).store id = some t) :
    ∃ before a later, calls = before ++ .start a :: later ∧ a.applicationId = id ∧
      (run env before .init).store a.applicationId = none ∧
      a.applicationId ∉ submittedIds later := by
  have hid : id ∈ submittedIds calls := by
    by_contra hno
    rw [store_of_not_submitted env hno] at ht
    cases ht
  obtain ⟨c, hc, hstart⟩ := List.mem_filterMap.1 hid
  cases c with
  | start a =>
      obtain rfl := Option.some.inj hstart
      obtain ⟨before, later, rfl⟩ := List.append_of_mem hc
      rw [submittedIds_append] at hnodup
      have hbefore : a.applicationId ∉ submittedIds before := fun hmem =>
        (List.nodup_append.1 hnodup).2.2 _ hmem _ List.mem_cons_self rfl
      exact ⟨before, a, later, rfl, rfl, store_of_not_submitted env hbefore,
        (List.nodup_cons.1 hnodup.of_append_right).1⟩
  | get id => cases hstart
  | resolve id res => cases hstart
  | rationale id => cases hstart

end Underwriting
