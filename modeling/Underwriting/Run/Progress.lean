import Underwriting.Service.ApplicationService
import Underwriting.Service.NodeSpecs

/-!
# A run as a case file

Seen from outside, a run of an application is a case that waits for an extraction, waits
for figures that can be scored, waits for a reviewer, waits for a rationale, or is completed.
`Progress` is that view. A case that has passed the reviewer's gate is `Settled`: it carries
a resolution exactly when its extraction made it go to a reviewer.

`Run` fixes what does not change while a case moves: the submission and the values the run
was started over. The values that a run finds under its id may hold a resolution of an
earlier run; `stale` is that resolution, and it is what the explanation falls back on when
the run itself has none.

`Run.begin` and `Run.resume` say what a submission and a resume value do to a case. They
only mention the two requests to the chat model, the credit report and the events that are
recorded. `Run/Refinement.lean` proves that the graph does the same.
-/

namespace Underwriting

open Python

/-- A case that has passed the gate. -/
structure Settled (env : Env) (a : LoanApplication) where
  extracted : ExtractedFinancials
  resolution : Option EscalationResolution
  gated : resolution.isSome = true ↔ NeedsHuman env a extracted

/-- The case of an extraction that needs no reviewer. -/
def Settled.automatic {env : Env} {a : LoanApplication} (x : ExtractedFinancials)
    (h : ¬ NeedsHuman env a x) : Settled env a :=
  ⟨x, none, by simp [h]⟩

/-- The case of an extraction that a reviewer has decided. -/
def Settled.reviewed {env : Env} {a : LoanApplication} (x : ExtractedFinancials)
    (h : NeedsHuman env a x) (res : EscalationResolution) : Settled env a :=
  ⟨x, some res, by simp [h]⟩

inductive Progress (env : Env) (a : LoanApplication) where
  /-- The extraction has failed and is due again. -/
  | extracting
  /-- The extracted figures cannot be scored, and the scoring is due again. -/
  | scoring (x : ExtractedFinancials) (h : Unscorable env.arithmetic a x)
  /-- Suspended until a reviewer decides. -/
  | awaiting (x : ExtractedFinancials) (h : NeedsHuman env a x)
  /-- The rationale has failed and is due again. -/
  | explaining (c : Settled env a)
  | completed (c : Settled env a) (rationale : Rationale)

structure Run where
  submission : Submission
  base : UnderwritingState
  stale : Option EscalationResolution
  base_resolution : base.escalationResolution = stale.map EscalationResolution.modelDump

namespace Run

variable (env : Env) (R : Run)

abbrev application : LoanApplication := R.submission.application

/-! ## What has been written -/

def payload (x : ExtractedFinancials) : List (String × Json) :=
  escalationEntries R.application.applicationId (riskFor env R.application x)
    (policyFor env R.application x)

/-- The resolution the explanation of a case reads. -/
def effective (c : Settled env R.application) : Option EscalationResolution :=
  c.resolution.or R.stale

def decision (c : Settled env R.application) (rationale : Rationale) : Decision :=
  decisionFor env R.application c.extracted (R.effective env c) rationale

def received : StateUpdate :=
  ApplicationService.initialState R.application R.submission.correlationId ++
    intakeUpdate env R.submission

def extracted (x : ExtractedFinancials) : StateUpdate :=
  R.received env ++ extractionUpdate env R.submission x

def scored (x : ExtractedFinancials) : StateUpdate :=
  R.extracted env x ++ riskUpdate env R.submission (riskFor env R.application x)

def evaluated (x : ExtractedFinancials) : StateUpdate :=
  R.scored env x ++ policyUpdate env R.submission (policyFor env R.application x)

def resolved (x : ExtractedFinancials) : Option EscalationResolution → StateUpdate
  | none => R.evaluated env x
  | some res => R.evaluated env x ++ escalationUpdate env R.submission (R.payload env x) res

def explained (c : Settled env R.application) (rationale : Rationale) : StateUpdate :=
  R.resolved env c.extracted c.resolution ++
    explainabilityUpdate env R.submission (R.decision env c rationale)

def concluded (c : Settled env R.application) (rationale : Rationale) : StateUpdate :=
  R.explained env c rationale ++
    outputUpdate env R.submission (R.decision env c rationale).outcome

/-- Everything the run has written so far. -/
def written : Progress env R.application → StateUpdate
  | .extracting => R.received env
  | .scoring x _ => R.extracted env x
  | .awaiting x _ => R.evaluated env x
  | .explaining c => R.resolved env c.extracted c.resolution
  | .completed c rationale => R.concluded env c rationale

/-- The node that is due. -/
def due : Progress env R.application → Option Node
  | .extracting => some .documentExtractionAgent
  | .scoring _ _ => some .riskScoringAgent
  | .awaiting _ _ => some .humanEscalation
  | .explaining _ => some .explainabilityAgent
  | .completed _ _ => none

def interrupts : Progress env R.application → List Json
  | .awaiting x _ => [.obj (R.payload env x)]
  | _ => []

/-- The thread of a case. -/
def thread (p : Progress env R.application) : Thread :=
  ⟨R.base.merge (R.written env p), R.due env p, R.interrupts env p⟩

/-! ## How a case moves -/

/-- What a call returns or raises, the case it leaves and the process it leaves. -/
abbrev Outcome : Type := Except Exn Unit × Progress env R.application × Runtime

/-- From the gate to the end. -/
def explain (c : Settled env R.application) (r : Runtime) : R.Outcome env :=
  match writeRationale env R.application c.extracted (R.effective env c) r with
  | (.ok rationale, r') =>
      (.ok (), .completed c rationale,
        r'.noted (explainabilityUpdate env R.submission (R.decision env c rationale) ++
          outputUpdate env R.submission (R.decision env c rationale).outcome))
  | (.error e, r') => (.error e, .explaining c, R.submission.failed "explainability_agent" r')

section Explain

variable {env} {R} {c : Settled env R.application} {r r' : Runtime}

theorem explain_of_ok {rationale : Rationale}
    (h : writeRationale env R.application c.extracted (R.effective env c) r =
      (.ok rationale, r')) :
    R.explain env c r = (.ok (), .completed c rationale,
      r'.noted (explainabilityUpdate env R.submission (R.decision env c rationale) ++
        outputUpdate env R.submission (R.decision env c rationale).outcome)) := by
  rw [explain, h]

theorem explain_of_error {e : Exn}
    (h : writeRationale env R.application c.extracted (R.effective env c) r = (.error e, r')) :
    R.explain env c r =
      (.error e, .explaining c, R.submission.failed "explainability_agent" r') := by
  rw [explain, h]

end Explain

/-- The process once an extraction has been noted, scored and evaluated. -/
def appraised (x : ExtractedFinancials) (r : Runtime) : Runtime :=
  (getCreditReport env R.application.applicantFullName
      (r.noted (extractionUpdate env R.submission x))).2.noted
    (riskUpdate env R.submission (riskFor env R.application x) ++
      policyUpdate env R.submission (policyFor env R.application x))

/-- The report is requested, and the figures cannot be scored. -/
def unscored (x : ExtractedFinancials) (h : Unscorable env.arithmetic R.application x)
    (r : Runtime) : R.Outcome env :=
  (.error Underwriting.unscored, .scoring x h,
    R.submission.failed "risk_scoring_agent"
      (getCreditReport env R.application.applicantFullName r).2)

/-- From an extraction to the gate, and through it when no reviewer is needed. -/
def appraise (x : ExtractedFinancials) (r : Runtime) : R.Outcome env :=
  if h : Unscorable env.arithmetic R.application x then
    R.unscored env x h (r.noted (extractionUpdate env R.submission x))
  else if h : NeedsHuman env R.application x then
    (.ok (), .awaiting x h,
      (R.appraised env x r).noted (escalationRequest env R.submission (R.payload env x)))
  else R.explain env (.automatic x h) (R.appraised env x r)

def extract (r : Runtime) : R.Outcome env :=
  match readDocument env R.application r with
  | (.ok x, r') => R.appraise env x r'
  | (.error e, r') => (.error e, .extracting, R.submission.failed "document_extraction_agent" r')

section Extract

variable {env} {R} {x : ExtractedFinancials} {r r' : Runtime}

theorem appraise_of_unscorable (h : Unscorable env.arithmetic R.application x) :
    R.appraise env x r =
      R.unscored env x h (r.noted (extractionUpdate env R.submission x)) := dif_pos h

theorem appraise_of_needsHuman (hscorable : ¬ Unscorable env.arithmetic R.application x)
    (h : NeedsHuman env R.application x) :
    R.appraise env x r = (.ok (), .awaiting x h,
      (R.appraised env x r).noted (escalationRequest env R.submission (R.payload env x))) := by
  rw [appraise, dif_neg hscorable, dif_pos h]

theorem appraise_of_not_needsHuman (hscorable : ¬ Unscorable env.arithmetic R.application x)
    (h : ¬ NeedsHuman env R.application x) :
    R.appraise env x r = R.explain env (.automatic x h) (R.appraised env x r) := by
  rw [appraise, dif_neg hscorable, dif_neg h]

theorem extract_of_ok (h : readDocument env R.application r = (.ok x, r')) :
    R.extract env r = R.appraise env x r' := by
  simp only [extract, h]

theorem extract_of_error {e : Exn} (h : readDocument env R.application r = (.error e, r')) :
    R.extract env r =
      (.error e, .extracting, R.submission.failed "document_extraction_agent" r') := by
  simp only [extract, h]

end Extract

/-- A submission. -/
def begin (r : Runtime) : R.Outcome env := R.extract env (r.noted (intakeUpdate env R.submission))

/-- A resume value. Only a suspended case takes it; a case whose last node has failed just
tries that node again. -/
def resume (res : EscalationResolution) (r : Runtime) :
    Progress env R.application → R.Outcome env
  | .extracting => R.extract env r
  | .scoring x h => R.unscored env x h r
  | .awaiting x h =>
      R.explain env (.reviewed x h res)
        (r.noted (escalationUpdate env R.submission (R.payload env x) res))
  | .explaining c => R.explain env c r
  | .completed c rationale => (.ok (), .completed c rationale, r)

theorem resume_awaiting (res : EscalationResolution) (r : Runtime) (x : ExtractedFinancials)
    (h : NeedsHuman env R.application x) :
    R.resume env res r (.awaiting x h) = R.explain env (.reviewed x h res)
      (r.noted (escalationUpdate env R.submission (R.payload env x) res)) := rfl

/-- What a submission leads to: the document cannot be read, or its figures cannot be scored, or
a reviewer is asked, or no reviewer is needed and the explanation fails or completes the case. -/
theorem begin_cases (r : Runtime) :
    (∃ e r₁ r₂, readDocument env R.application (r.noted (intakeUpdate env R.submission)) =
        (.error e, r₁) ∧ R.begin env r = (.error e, .extracting, r₂)) ∨
    (∃ x r₁, readDocument env R.application (r.noted (intakeUpdate env R.submission)) =
        (.ok x, r₁) ∧
      ((∃ h r₂, R.begin env r = (.error Underwriting.unscored, .scoring x h, r₂)) ∨
      ¬ Unscorable env.arithmetic R.application x ∧
      ((∃ h r₂, R.begin env r = (.ok (), .awaiting x h, r₂)) ∨
      (∃ h e r₂ r₃, writeRationale env R.application x R.stale (R.appraised env x r₁) =
          (.error e, r₂) ∧ R.begin env r = (.error e, .explaining (.automatic x h), r₃)) ∨
      (∃ h rationale r₂ r₃, writeRationale env R.application x R.stale (R.appraised env x r₁) =
          (.ok rationale, r₂) ∧
        R.begin env r = (.ok (), .completed (.automatic x h) rationale, r₃))))) := by
  rcases hread : readDocument env R.application (r.noted (intakeUpdate env R.submission)) with
    ⟨e | x, r₁⟩
  · exact .inl ⟨e, r₁, _, rfl, extract_of_error hread⟩
  · refine .inr ⟨x, r₁, rfl, ?_⟩
    by_cases hscorable : Unscorable env.arithmetic R.application x
    · exact .inl ⟨hscorable, _, (extract_of_ok hread).trans (appraise_of_unscorable hscorable)⟩
    refine .inr ⟨hscorable, ?_⟩
    by_cases h : NeedsHuman env R.application x
    · exact .inl ⟨h, _, (extract_of_ok hread).trans (appraise_of_needsHuman hscorable h)⟩
    · have hbegin : R.begin env r = R.explain env (.automatic x h) (R.appraised env x r₁) :=
        (extract_of_ok hread).trans (appraise_of_not_needsHuman hscorable h)
      rcases hwrite : writeRationale env R.application x R.stale (R.appraised env x r₁) with
        ⟨e | rationale, r₂⟩
      · exact .inr (.inl ⟨h, e, r₂, _, rfl,
          hbegin.trans (explain_of_error (c := .automatic x h) hwrite)⟩)
      · exact .inr (.inr ⟨h, rationale, r₂, _, rfl,
          hbegin.trans (explain_of_ok (c := .automatic x h) hwrite)⟩)

end Run

end Underwriting
