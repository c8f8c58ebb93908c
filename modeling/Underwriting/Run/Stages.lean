import Underwriting.DurableGraph.Recovery
import Underwriting.Run.Replies

/-!
# The stages of a case

`Progress` shows a case between two calls of one process. A process that is killed leaves a
case at any of its nodes, and the process that takes it up may run under other settings and
another model. `Stage` is the view that survives this: it holds what the nodes have established
so far, every assessment as it was made.

`Run.Step env` says what one node adds to a case, and `Run.At` what a thread holds at a stage.
A node that returns takes a step, `step_of_node`, and one that does not leaves the stage as it
is. So whatever process runs the graph, for however many nodes, the case moves along steps:
`maintains_cases`.
-/

namespace Underwriting

open Python DurableGraph.Graph

/-! ## Files -/

/-- The gate, as the stored assessments decide it. -/
def Flagged (a : LoanApplication) (x : ExtractedFinancials) (risk : RiskAssessment) : Prop :=
  risk.requiresHumanEscalation = true ∨ (evaluatePolicy a x risk).passed = false

instance (a : LoanApplication) (x : ExtractedFinancials) (risk : RiskAssessment) :
    Decidable (Flagged a x risk) :=
  inferInstanceAs (Decidable (_ ∨ _))

/-- What is on file of a case once the policy has been checked. Only a case that the gate
stops has a resolution. -/
structure File (a : LoanApplication) where
  extracted : ExtractedFinancials
  risk : RiskAssessment
  resolution : Option EscalationResolution
  gated : resolution.isSome = true → Flagged a extracted risk

namespace File

variable {a : LoanApplication} (f : File a)

def policy : PolicyResult := evaluatePolicy a f.extracted f.risk

/-- A reviewer has to decide. -/
def Open : Prop := Flagged a f.extracted f.risk ∧ f.resolution = none

instance : Decidable f.Open := inferInstanceAs (Decidable (_ ∧ _))

/-- The file before any review. -/
def new (x : ExtractedFinancials) (risk : RiskAssessment) : File a :=
  ⟨x, risk, none, fun h => by cases h⟩

def review (h : f.Open) (res : EscalationResolution) : File a :=
  ⟨f.extracted, f.risk, some res, fun _ => h.1⟩

theorem not_open_review (h : f.Open) (res : EscalationResolution) : ¬ (f.review h res).Open := by
  rintro ⟨-, hnone⟩
  cases hnone

/-- A file that is not open has a resolution exactly when the gate stops it. -/
theorem isSome_resolution_iff (h : ¬ f.Open) :
    f.resolution.isSome = true ↔ Flagged a f.extracted f.risk := by
  constructor
  · exact f.gated
  · intro hflagged
    rw [Option.isSome_iff_ne_none]
    intro hnone
    exact h ⟨hflagged, hnone⟩

end File

theorem Rationale.one_le_length (rationale : Rationale) :
    1 ≤ rationale.val.toList.length := rationale.property

/-- The decision that follows from stored assessments. -/
def decisionOf (a : LoanApplication) (risk : RiskAssessment) (policy : PolicyResult)
    (resolution : Option EscalationResolution) (rationale : Rationale) : Decision :=
  let outcome := determineOutcome a risk policy resolution
  ⟨outcome.1, outcome.2.1, rationale, outcome.2.2, decidedBy resolution, rationale.one_le_length⟩

/-! ## Stages -/

/-- How far a case has come, and with what. -/
inductive Stage (a : LoanApplication) where
  | submitted
  | received
  | extracted (x : ExtractedFinancials)
  | scored (x : ExtractedFinancials) (risk : RiskAssessment)
  /-- The policy has been checked, and a reviewer may have decided. -/
  | evaluated (f : File a)
  | explained (f : File a) (h : ¬ f.Open) (rationale : Rationale)
  | completed (f : File a) (h : ¬ f.Open) (rationale : Rationale)

namespace Stage

variable {a : LoanApplication}

/-- The node that is due. -/
def due : Stage a → Option Node
  | .submitted => some .intake
  | .received => some .documentExtractionAgent
  | .extracted _ => some .riskScoringAgent
  | .scored _ _ => some .policyComplianceAgent
  | .evaluated f => some (if f.Open then .humanEscalation else .explainabilityAgent)
  | .explained _ _ _ => some .decisionOutput
  | .completed _ _ _ => none

theorem due_of_open {f : File a} (h : f.Open) :
    (Stage.evaluated f).due = some .humanEscalation := congrArg some (if_pos h)

theorem due_of_not_open {f : File a} (h : ¬ f.Open) :
    (Stage.evaluated f).due = some .explainabilityAgent := congrArg some (if_neg h)

end Stage

namespace Run

variable (env : Env) (R : Run)

/-- The resolution that the explanation of a file reads. -/
def reads (f : File R.application) : Option EscalationResolution := f.resolution.or R.stale

/-- What the reviewer of a file is shown. -/
def request (f : File R.application) : List (String × Json) :=
  escalationEntries R.application.applicationId f.risk f.policy

def decided (f : File R.application) (rationale : Rationale) : Decision :=
  decisionOf R.application f.risk f.policy (R.reads f) rationale

/-! ## What has been written -/

def scoredAs (x : ExtractedFinancials) (risk : RiskAssessment) : StateUpdate :=
  R.extracted env x ++ riskUpdate env R.submission risk

/-- Everything up to the explanation. -/
def filed (f : File R.application) : StateUpdate :=
  let checked := R.scoredAs env f.extracted f.risk ++ policyUpdate env R.submission f.policy
  match f.resolution with
  | none => checked
  | some res => checked ++ escalationUpdate env R.submission (R.request f) res

def decidedAs (f : File R.application) (rationale : Rationale) : StateUpdate :=
  R.filed env f ++ explainabilityUpdate env R.submission (R.decided f rationale)

/-- Everything the nodes of a run have written. -/
def writtenAt : Stage R.application → StateUpdate
  | .submitted => ApplicationService.initialState R.application R.submission.correlationId
  | .received => R.received env
  | .extracted x => R.extracted env x
  | .scored x risk => R.scoredAs env x risk
  | .evaluated f => R.filed env f
  | .explained f _ rationale => R.decidedAs env f rationale
  | .completed f _ rationale =>
      R.decidedAs env f rationale ++ outputUpdate env R.submission (R.decided f rationale).outcome

/-- The thread of a case at a stage. Only the thread of an open file can be interrupted, and it
need not be. -/
structure At (st : Stage R.application) (t : Thread) : Prop where
  values : t.values = R.base.merge (R.writtenAt env st)
  next : t.next = st.due
  interrupts : t.interrupts = [] ∨
    ∃ f, st = .evaluated f ∧ f.Open ∧ t.interrupts = [.obj (R.request f)]

/-! ## Steps -/

/-- What one node adds to a case, under `env`. -/
inductive Step : Stage R.application → Stage R.application → Prop
  | receive : Step .submitted .received
  | extract {n reply x} (hchat : env.chat n (extractionPrompt env R.application) = .ok reply)
      (hvalid : validateExtraction reply = .ok x) : Step .received (.extracted x)
  | score {x} (h : ¬ Unscorable env.arithmetic R.application x) :
      Step (.extracted x) (.scored x (riskFor env R.application x))
  | evaluate {x risk} : Step (.scored x risk) (.evaluated (.new x risk))
  | review {f} (h : f.Open) (res : EscalationResolution) :
      Step (.evaluated f) (.evaluated (f.review h res))
  | explain {f n reply rationale} (h : ¬ f.Open)
      (hchat : env.chat n (rationaleMessages
        (rationalePayload R.application f.risk f.policy (R.reads f))) = .ok reply)
      (haccept : acceptRationale reply = .ok rationale) :
      Step (.evaluated f) (.explained f h rationale)
  | conclude {f h rationale} : Step (.explained f h rationale) (.completed f h rationale)

/-- The stages that a case can come to when its nodes run under the environments in `E`. -/
def Reaches (E : Set Env) : Stage R.application → Prop :=
  Relation.ReflTransGen (fun st st' => ∃ env ∈ E, R.Step env st st') .submitted

end Run

/-! ## What the nodes return -/

/-- The node has returned an update with `P`, or it has raised an exception of its own. -/
def Delivers (P : StateUpdate → Prop) : Except Exn StateUpdate → Prop
  | .ok u => P u
  | .error e => e.isControl = false

theorem Delivers.of_returns {P : StateUpdate → Prop} {out : Except Exn StateUpdate × Runtime}
    {u : StateUpdate} {r : Runtime} (h : out = (.ok u, r)) (hu : P u) : Delivers P out.1 := by
  rw [h]
  exact hu

theorem Delivers.imp {P Q : StateUpdate → Prop} {out : Except Exn StateUpdate}
    (h : Delivers P out) (hPQ : ∀ u, P u → Q u) : Delivers Q out := by
  cases out with
  | ok u => exact hPQ u h
  | error e => exact h

section Nodes

variable {env : Env} {k : Submission} {s : UnderwritingState} {x : ExtractedFinancials}
  {risk : RiskAssessment} {policy : PolicyResult} {resolution : Option EscalationResolution}

theorem documentExtractionNode_delivers (hs : k.Holds s) (r : Runtime) :
    Delivers (fun u => ∃ n reply x, env.chat n (extractionPrompt env k.application) = .ok reply ∧
      validateExtraction reply = .ok x ∧ u = extractionUpdate env k x)
      (documentExtractionNode env s r).1 := by
  rw [documentExtractionNode_apply hs]
  rcases hread : readDocument env k.application r with ⟨e | x, r₁⟩
  · exact raises_readDocument env _ _ _ _ hread
  · obtain ⟨log, hsafe⟩ := sanitizeUntrustedText_apply env k.application.rawFinancialDocumentText
      "raw_financial_document_text" r
    rw [readDocument, Py.bind_of_ok hsafe] at hread
    have hreturns : Py.Returns (fun x => ∃ n reply,
        env.chat n (extractionPrompt env k.application) = .ok reply ∧
          validateExtraction reply = .ok x)
        (invokeChat env (extractionPrompt env k.application) >>= fun reply =>
          Py.lift (validateExtraction reply)) :=
      Py.returns_bind (returns_invokeChat env _) fun reply hreply =>
        Py.returns_lift fun x hx => ⟨hreply.choose, reply, hreply.choose_spec, hx⟩
    obtain ⟨n, reply, hchat, hvalid⟩ := hreturns _ _ _ hread
    exact ⟨n, reply, x, hchat, hvalid, rfl⟩

theorem raises_getCreditReport (env : Env) (name : String) :
    Py.Raises (·.isControl = false) (getCreditReport env name) :=
  raises_retryAgain (Py.raises_bind (Py.raises_modify _) fun _ =>
    Py.raises_bind (raises_call env .creditBureau (Py.raises_pure _)) fun _ =>
      Py.raises_bind (Py.raises_modify _) fun _ => Py.raises_pure _) 2

theorem riskScoringNode_delivers (hs : k.Holds s) (hx : s.extractedFinancials = some x.modelDump)
    (r : Runtime) :
    Delivers (fun u => ¬ Unscorable env.arithmetic k.application x ∧
      u = riskUpdate env k (riskFor env k.application x)) (riskScoringNode env s r).1 := by
  obtain ⟨hid, hcorr, happ⟩ := hs
  simp only [riskScoringNode, Py.bind_apply, startSpan_apply, hid, hcorr, happ, hx, Py.lift_apply,
    stateKey_some, LoanApplication.modelValidate_modelDump,
    ExtractedFinancials.modelValidate_modelDump, recordAuditEvent_apply, Py.pure_apply]
  rcases hreport : getCreditReport env k.application.applicantFullName r with ⟨e | report, r₁⟩
  · exact raises_getCreditReport env _ _ _ _ hreport
  · have hfetched : report = fetchReport env k.application.applicantFullName :=
      returns_getCreditReport env _ _ _ _ hreport
    rw [hfetched]
    by_cases hscorable : Unscorable env.arithmetic k.application x
    · simp only [scoreRisk, if_pos hscorable]
      rfl
    · simp only [scoreRisk, if_neg hscorable]
      exact ⟨hscorable, rfl⟩

/-- What the node does over stored assessments, which need not be those of `env`. -/
theorem explainabilityNode_eq (hs : k.Holds s)
    (hrisk : s.riskAssessment = some risk.modelDump)
    (hpolicy : s.policyResult = some policy.modelDump)
    (hres : s.escalationResolution = resolution.map EscalationResolution.modelDump)
    (r : Runtime) :
    explainabilityNode env s r = match invokeChat env (rationaleMessages
        (rationalePayload k.application risk policy resolution)) r with
      | (.ok reply, r') =>
          if h : 1 ≤ reply.text.toList.length then
            let u := explainabilityUpdate env k
              (decisionOf k.application risk policy resolution ⟨reply.text, h⟩)
            (.ok u, r'.noted u)
          else (.error (.validationError "Decision" "rationale"),
            k.failed "explainability_agent" r')
      | (.error e, r') => (.error e, k.failed "explainability_agent" r') := by
  obtain ⟨hid, hcorr, happ⟩ := hs
  simp only [explainabilityNode, Py.bind_apply, startSpan_apply, hid, hcorr, happ, hrisk, hpolicy,
    hres, stateKey_some, Py.lift_apply, LoanApplication.modelValidate_modelDump,
    RiskAssessment.modelValidate_modelDump, PolicyResult.modelValidate_modelDump,
    storedResolution_modelDump, recordAuditEvent_apply, Py.pure_apply]
  rcases invokeChat env (rationaleMessages
    (rationalePayload k.application risk policy resolution)) r with ⟨e | reply, r₁⟩
  · rfl
  · by_cases hnonempty : 1 ≤ reply.text.toList.length
    · simp only [Decision.build, dif_pos hnonempty]
      rfl
    · simp only [Decision.build, dif_neg hnonempty]
      rfl

theorem explainabilityNode_delivers (hs : k.Holds s)
    (hrisk : s.riskAssessment = some risk.modelDump)
    (hpolicy : s.policyResult = some policy.modelDump)
    (hres : s.escalationResolution = resolution.map EscalationResolution.modelDump)
    (r : Runtime) :
    Delivers (fun u => ∃ n reply rationale, env.chat n (rationaleMessages
        (rationalePayload k.application risk policy resolution)) = .ok reply ∧
      acceptRationale reply = .ok rationale ∧
      u = explainabilityUpdate env k (decisionOf k.application risk policy resolution rationale))
      (explainabilityNode env s r).1 := by
  rw [explainabilityNode_eq hs hrisk hpolicy hres]
  rcases hchat : invokeChat env (rationaleMessages
    (rationalePayload k.application risk policy resolution)) r with ⟨e | reply, r₁⟩
  · exact raises_invokeChat env _ _ _ _ hchat
  · obtain ⟨n, hreply⟩ := returns_invokeChat env _ _ _ _ hchat
    by_cases hnonempty : 1 ≤ reply.text.toList.length
    · simp only [dif_pos hnonempty]
      exact ⟨n, reply, ⟨reply.text, hnonempty⟩, hreply, dif_pos hnonempty, rfl⟩
    · simp only [dif_neg hnonempty]
      rfl

end Nodes

namespace Run

variable {env host : Env} {R : Run}

/-! ## The values at a stage -/

section Values

variable (f : File R.application)

theorem filed_of_none (h : f.resolution = none) :
    R.filed env f = R.scoredAs env f.extracted f.risk ++
      policyUpdate env R.submission f.policy := by
  simp only [filed, h]

theorem filed_review (h : f.Open) (res : EscalationResolution) :
    R.filed env (f.review h res) =
      R.filed env f ++ escalationUpdate env R.submission (R.request f) res := by
  rw [filed_of_none f h.2]
  rfl

theorem holds_filed : R.submission.Holds (R.base.merge (R.filed env f)) := by
  obtain ⟨x, risk, resolution, h⟩ := f
  cases resolution <;> exact ⟨rfl, rfl, rfl⟩

theorem filed_riskAssessment :
    (R.base.merge (R.filed env f)).riskAssessment = some f.risk.modelDump := by
  obtain ⟨x, risk, resolution, h⟩ := f
  cases resolution <;> rfl

theorem filed_policyResult :
    (R.base.merge (R.filed env f)).policyResult = some f.policy.modelDump := by
  obtain ⟨x, risk, resolution, h⟩ := f
  cases resolution <;> rfl

theorem filed_escalationResolution :
    (R.base.merge (R.filed env f)).escalationResolution =
      (R.reads f).map EscalationResolution.modelDump := by
  obtain ⟨x, risk, resolution, h⟩ := f
  cases resolution with
  | none => exact R.base_resolution
  | some res => rfl

theorem holds_decidedAs (rationale : Rationale) :
    R.submission.Holds (R.base.merge (R.decidedAs env f rationale)) := by
  obtain ⟨x, risk, resolution, h⟩ := f
  cases resolution <;> exact ⟨rfl, rfl, rfl⟩

theorem decidedAs_decision (rationale : Rationale) :
    (R.base.merge (R.decidedAs env f rationale)).decision =
      some (R.decided f rationale).modelDump := by
  obtain ⟨x, risk, resolution, h⟩ := f
  cases resolution <;> rfl

theorem routeAfterPolicy_filed :
    routeAfterPolicy (R.base.merge (R.filed env f)) =
      if Flagged R.application f.extracted f.risk then .humanEscalation
      else .explainabilityAgent :=
  routeAfterPolicy_eq (filed_riskAssessment f) (filed_policyResult f)

/-- The policy check is followed by the node that is due for a file without a resolution. -/
theorem nextNode_filed (h : f.resolution = none) :
    nextNode .policyComplianceAgent (R.base.merge (R.filed env f)) = (Stage.evaluated f).due := by
  rw [nextNode, routeAfterPolicy_filed]
  by_cases hflagged : Flagged R.application f.extracted f.risk
  · rw [if_pos hflagged, Stage.due_of_open ⟨hflagged, h⟩]
  · rw [if_neg hflagged, Stage.due_of_not_open fun hopen => hflagged hopen.1]

end Values

/-- At every stage the values belong to the submission. -/
theorem holds_writtenAt (st : Stage R.application) :
    R.submission.Holds (R.base.merge (R.writtenAt env st)) := by
  cases st with
  | submitted | received | extracted | scored => exact ⟨rfl, rfl, rfl⟩
  | evaluated f => exact holds_filed f
  | explained f hclosed rationale => exact holds_decidedAs f rationale
  | completed f hclosed rationale =>
      obtain ⟨hid, hcorr, happ⟩ := @holds_decidedAs env R f rationale
      exact ⟨hid, hcorr, happ⟩

/-! ## One node, one step -/

/-- The update takes the case from a stage with `n` due one step further. -/
def Advances (env : Env) (R : Run) (st : Stage R.application) (n : Node) (u : StateUpdate) : Prop :=
  ∃ st', R.Step env st st' ∧
    (R.base.merge (R.writtenAt env st)).merge u = R.base.merge (R.writtenAt env st') ∧
    nextNode n (R.base.merge (R.writtenAt env st')) = st'.due

/-- What is written at one stage and then by the node is what is written at the next. -/
theorem Advances.of_step {st st' : Stage R.application} {n : Node} {u : StateUpdate}
    (hstep : R.Step env st st') (hwritten : R.writtenAt env st' = R.writtenAt env st ++ u)
    (hnext : nextNode n (R.base.merge (R.writtenAt env st')) = st'.due) :
    R.Advances env st n u :=
  ⟨st', hstep, by rw [hwritten, UnderwritingState.merge_append], hnext⟩

section Node

variable {v : Option Json} (r : Runtime)

theorem intake_advances :
    Delivers (R.Advances env .submitted .intake)
      (runNode env .intake v (R.base.merge (R.writtenAt env .submitted)) r).1 := by
  have hholds : R.submission.Holds (R.base.merge (R.writtenAt env .submitted)) := ⟨rfl, rfl, rfl⟩
  exact .of_returns (intakeNode_apply hholds r) (.of_step .receive rfl rfl)

theorem extraction_advances :
    Delivers (R.Advances env .received .documentExtractionAgent)
      (runNode env .documentExtractionAgent v (R.base.merge (R.writtenAt env .received)) r).1 := by
  refine (documentExtractionNode_delivers holds_received r).imp ?_
  rintro u ⟨n, reply, x, hchat, hvalid, rfl⟩
  exact .of_step (.extract hchat hvalid) rfl rfl

theorem scoring_advances (x : ExtractedFinancials) :
    Delivers (R.Advances env (.extracted x) .riskScoringAgent)
      (runNode env .riskScoringAgent v (R.base.merge (R.writtenAt env (.extracted x))) r).1 := by
  refine (riskScoringNode_delivers (holds_extracted x) rfl r).imp ?_
  rintro u ⟨hscorable, rfl⟩
  exact .of_step (.score hscorable) rfl rfl

theorem policy_advances (x : ExtractedFinancials) (risk : RiskAssessment) :
    Delivers (R.Advances env (.scored x risk) .policyComplianceAgent)
      (runNode env .policyComplianceAgent v
        (R.base.merge (R.writtenAt env (.scored x risk))) r).1 := by
  have hholds : R.submission.Holds (R.base.merge (R.writtenAt env (.scored x risk))) :=
    ⟨rfl, rfl, rfl⟩
  exact .of_returns (@policyComplianceNode_apply env R.submission _ x risk hholds rfl rfl r)
    (.of_step .evaluate rfl (nextNode_filed _ rfl))

theorem explainability_advances {f : File R.application} (h : ¬ f.Open) :
    Delivers (R.Advances env (.evaluated f) .explainabilityAgent)
      (runNode env .explainabilityAgent v (R.base.merge (R.writtenAt env (.evaluated f))) r).1 := by
  refine (explainabilityNode_delivers (holds_filed f) (filed_riskAssessment f)
    (filed_policyResult f) (filed_escalationResolution f) r).imp ?_
  rintro u ⟨n, reply, rationale, hchat, haccept, rfl⟩
  exact .of_step (.explain h hchat haccept) rfl rfl

theorem output_advances {f : File R.application} (h : ¬ f.Open) (rationale : Rationale) :
    Delivers (R.Advances env (.explained f h rationale) .decisionOutput)
      (runNode env .decisionOutput v
        (R.base.merge (R.writtenAt env (.explained f h rationale))) r).1 := by
  exact .of_returns (decisionOutputNode_apply (holds_decidedAs f rationale)
    (decidedAs_decision f rationale) r) (.of_step .conclude rfl rfl)

/-- A resolution closes an open file. -/
theorem review_advances {f : File R.application} (h : f.Open) (res : EscalationResolution) :
    Delivers (R.Advances env (.evaluated f) .humanEscalation)
      (runNode env .humanEscalation (some res.modelDump)
        (R.base.merge (R.writtenAt env (.evaluated f))) r).1 := by
  have hstep : R.Step env (.evaluated f) (.evaluated (f.review h res)) := .review h res
  have hnext := (Stage.due_of_not_open (f.not_open_review h res)).symm
  exact .of_returns (humanEscalationNode_some (holds_filed f) (filed_riskAssessment f)
    (filed_policyResult f) res r) (.of_step hstep (filed_review f h res) hnext)

end Node

/-- The node that is due at a stage advances the case, or it raises an exception of its own, or
it interrupts for the reviewer of an open file. -/
theorem node_cases {st : Stage R.application} {n : Node} {v : Option Json} (r : Runtime)
    (hdue : st.due = some n) (hv : ∀ x ∈ v, ∃ res : EscalationResolution, x = res.modelDump) :
    Delivers (R.Advances env st n) (runNode env n v (R.base.merge (R.writtenAt env st)) r).1 ∨
      ∃ f, st = .evaluated f ∧ f.Open ∧
        (runNode env n v (R.base.merge (R.writtenAt env st)) r).1 =
          .error (.graphInterrupt (.obj (R.request f))) := by
  cases st with
  | submitted =>
      cases hdue
      exact .inl (intake_advances r)
  | received =>
      cases hdue
      exact .inl (extraction_advances r)
  | extracted x =>
      cases hdue
      exact .inl (scoring_advances r x)
  | scored x risk =>
      cases hdue
      exact .inl (policy_advances r x risk)
  | evaluated f =>
      by_cases hopen : f.Open
      · rw [Stage.due_of_open hopen] at hdue
        cases hdue
        cases v with
        | none =>
            exact .inr ⟨f, rfl, hopen, congrArg Prod.fst (humanEscalationNode_none
              (holds_filed f) (filed_riskAssessment f) (filed_policyResult f) r)⟩
        | some x =>
            obtain ⟨res, rfl⟩ := hv x rfl
            exact .inl (review_advances r hopen res)
      · rw [Stage.due_of_not_open hopen] at hdue
        cases hdue
        exact .inl (explainability_advances r hopen)
  | explained f h rationale =>
      cases hdue
      exact .inl (output_advances r h rationale)
  | completed f h rationale => cases hdue

/-! ## What a thread holds -/

section Congr

variable (h : host.unicode = env.unicode)

include h

theorem event_congr (k : Submission) : k.event host = k.event env := by
  funext actor action details
  simp only [Submission.event, auditEvent, h]

/-- Events are redacted under the Unicode tables; nothing else of the environment is written. -/
theorem writtenAt_congr (st : Stage R.application) : R.writtenAt host st = R.writtenAt env st := by
  have hevent := event_congr h R.submission
  have hfiled (f : File R.application) : R.filed host f = R.filed env f := by
    simp only [filed, scoredAs, extracted, received, intakeUpdate, extractionUpdate, riskUpdate,
      policyUpdate, escalationUpdate, escalationRequest, escalationResume, hevent]
  have hdecided (f : File R.application) (rationale : Rationale) :
      R.decidedAs host f rationale = R.decidedAs env f rationale := by
    simp only [decidedAs, explainabilityUpdate, hfiled, hevent]
  cases st with
  | submitted => rfl
  | received => simp only [writtenAt, received, intakeUpdate, hevent]
  | extracted x =>
      simp only [writtenAt, extracted, received, intakeUpdate, extractionUpdate, hevent]
  | scored x risk =>
      simp only [writtenAt, scoredAs, extracted, received, intakeUpdate, extractionUpdate,
        riskUpdate, hevent]
  | evaluated f => exact hfiled f
  | explained f hopen rationale => exact hdecided f rationale
  | completed f hopen rationale => simp only [writtenAt, outputUpdate, hdecided, hevent]

theorem At.congr {st : Stage R.application} {t : Thread} (ht : R.At env st t) :
    R.At host st t :=
  ⟨by rw [ht.values, writtenAt_congr h], ht.next, ht.interrupts⟩

end Congr

theorem At.forget {st : Stage R.application} {t : Thread} (ht : R.At env st t) :
    R.At env st { t with interrupts := [] } :=
  ⟨ht.values, ht.next, .inl rfl⟩

/-! ## A case in a graph -/

/-- A case of `R` whose nodes have run under the environments in `E`. -/
def Kept (host : Env) (R : Run) (E : Set Env) (t : Thread) : Prop :=
  ∃ st, R.Reaches E st ∧ R.At host st t

/-- Every call of the graph, however many nodes of it are executed, takes a case along steps. -/
theorem maintains_kept {E : Set Env} (henv : env ∈ E) (hunicode : host.unicode = env.unicode) :
    (graph env).Maintains (fun x => ∃ res : EscalationResolution, x = res.modelDump)
      (fun t _ => R.Kept host E t) where
  returned := by
    rintro n s ps r v u r' ⟨st, hreaches, hat⟩ hv hnode
    obtain ⟨hvalues, hnext, -⟩ := At.congr hunicode.symm hat
    obtain rfl : s = R.base.merge (R.writtenAt env st) := hvalues
    rcases node_cases r hnext.symm hv with hdelivers | ⟨f, rfl, -, hinterrupt⟩
    · rw [show runNode env n v _ r = _ from hnode] at hdelivers
      obtain ⟨st', hstep, hmerge, hedge⟩ := hdelivers
      refine ⟨st', hreaches.tail ⟨env, henv, hstep⟩, At.congr hunicode ⟨hmerge, ?_, .inl rfl⟩⟩
      change nextNode n (UnderwritingState.merge _ u) = _
      rw [hmerge, hedge]
    · rw [show runNode env n v _ r = _ from hnode] at hinterrupt
      cases hinterrupt
  interrupted := by
    rintro n s ps r v e r' p ⟨st, hreaches, hat⟩ hv hnode hp
    obtain ⟨hvalues, hnext, -⟩ := At.congr hunicode.symm hat
    obtain rfl : s = R.base.merge (R.writtenAt env st) := hvalues
    rcases node_cases r hnext.symm hv with hdelivers | ⟨f, rfl, hopen, hinterrupt⟩
    · rw [show runNode env n v _ r = _ from hnode] at hdelivers
      have hnone : (graph env).payload? e = none := Exn.interruptPayload_eq_none hdelivers
      rw [hnone] at hp
      cases hp
    · rw [show runNode env n v _ r = _ from hnode] at hinterrupt
      cases hinterrupt
      cases hp
      exact ⟨_, hreaches, hat.values, hnext, .inr ⟨f, rfl, hopen, rfl⟩⟩
  raised := by
    rintro n s ps r v e r' ⟨st, hreaches, hat⟩ hv hnode
    exact ⟨st, hreaches, hat.forget⟩
  stopped := by
    rintro n s ps r ⟨st, hreaches, hat⟩
    exact ⟨st, hreaches, hat.forget⟩

end Run

end Underwriting
