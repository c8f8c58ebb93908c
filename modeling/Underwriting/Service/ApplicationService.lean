import Underwriting.Service.Graph

/-!
# The application service

One service owns the process and the checkpoint store, which maps an application id to
its thread. Submitting and resolving run the graph and store the thread it leaves also
when the run raises. Reading never writes. `run` executes a sequence of calls, whatever
each of them returns or raises, and a state is reachable when some sequence leads to it
from a fresh process with an empty store.
-/

namespace Underwriting

open Python

structure World where
  store : String → Option Thread
  runtime : Runtime

/-- The dictionary that `get_application` returns. -/
structure ApplicationSummary where
  applicationId : String
  status : String
  application : Json
  extractedFinancials : Option Json
  riskAssessment : Option Json
  policyResult : Option Json
  decision : Option Json
  pendingEscalation : Option Json
  escalationRequest : Option Json
  escalationResolution : Option Json
  auditTrail : List AuditEvent
  traceSpans : List Span

/-- The dictionary that `get_rationale` returns. -/
structure RationaleSummary where
  applicationId : String
  outcome : Json
  rationale : Json
  adverseActionReasons : Json
  decidedBy : Json

abbrev ServiceM := Py World Exn

namespace ApplicationService

/-- A computation of the process, seen from the service. -/
def onRuntime {α : Type} (m : PyM α) : ServiceM α := fun w =>
  ((m w.runtime).1, { w with runtime := (m w.runtime).2 })

/-- Run the graph on the thread of an application and store the thread it leaves. -/
def onThread (applicationId : String)
    (call : Runtime → Except Exn Unit × Thread × Runtime) : ServiceM Unit := fun w =>
  let (out, thread, runtime) := call w.runtime
  (out, ⟨Function.update w.store applicationId (some thread), runtime⟩)

private def serviceLog (message : String) (extra : List (String × Json)) : PyM Unit :=
  emit ⟨"underwriting.service.application_service", "INFO", message, extra⟩

/-- The summary of a stored thread. A thread counts as paused when a node is pending. -/
def summarize (applicationId : String) (t : Thread) : ApplicationSummary where
  applicationId := applicationId
  status := if t.next.isSome then "awaiting_escalation" else t.values.status
  application := t.values.application
  extractedFinancials := t.values.extractedFinancials
  riskAssessment := t.values.riskAssessment
  policyResult := t.values.policyResult
  decision := t.values.decision
  pendingEscalation := if t.next.isSome then t.interrupts.getLast? else none
  escalationRequest := t.values.escalationRequest
  escalationResolution := t.values.escalationResolution
  auditTrail := t.values.auditTrail
  traceSpans := t.values.traceSpans

def getApplication (applicationId : String) : ServiceM ApplicationSummary := do
  let w ← Py.state
  match w.store applicationId with
  | none => Py.raise (.applicationNotFoundError applicationId)
  | some t => pure (summarize applicationId t)

/-- The input that starts a run. -/
def initialState (application : LoanApplication) (correlationId : String) : StateUpdate where
  applicationId := some application.applicationId
  correlationId := some correlationId
  application := some application.modelDump
  status := some "in_progress"

/-- The values an input is merged into: those stored under the id, if any. -/
def storedValues (w : World) (applicationId : String) : UnderwritingState :=
  (w.store applicationId).elim .blank (·.values)

def startApplication (env : Env) (application : LoanApplication) :
    ServiceM ApplicationSummary := do
  let uuid ← onRuntime (newUuid env)
  let correlationId := s!"corr_{uuid}"
  onRuntime <| serviceLog "application_run_starting"
    [("application_id", .str application.applicationId), ("correlation_id", .str correlationId)]
  let w ← Py.state
  onThread application.applicationId <|
    (graph env).invoke recursionLimit (initialState application correlationId)
      (storedValues w application.applicationId)
  getApplication application.applicationId

def resolveEscalation (env : Env) (applicationId : String)
    (resolution : EscalationResolution) : ServiceM ApplicationSummary := do
  let w ← Py.state
  match w.store applicationId with
  | none => Py.raise (.applicationNotFoundError applicationId)
  | some t =>
      if t.next.isNone then
        Py.raise (.applicationNotAwaitingEscalationError applicationId)
      else do
        onRuntime <| serviceLog "escalation_resolving"
          [("application_id", .str applicationId), ("reviewer_id", .str resolution.reviewerId)]
        onThread applicationId <| (graph env).resume recursionLimit resolution.modelDump t
        getApplication applicationId

def getRationale (applicationId : String) : ServiceM RationaleSummary := do
  let summary ← getApplication applicationId
  match summary.decision with
  | none => Py.raise (.decisionNotAvailableError applicationId)
  | some decision => do
      let outcome ← Py.lift (item decision "outcome" some)
      let rationale ← Py.lift (item decision "rationale" some)
      let reasons ← Py.lift (item decision "adverse_action_reasons" some)
      let decidedBy ← Py.lift (item decision "decided_by" some)
      pure ⟨applicationId, outcome, rationale, reasons, decidedBy⟩

end ApplicationService

/-! ## Sequences of calls -/

inductive Call where
  | start (application : LoanApplication)
  | get (applicationId : String)
  | resolve (applicationId : String) (resolution : EscalationResolution)
  | rationale (applicationId : String)

/-- The application that the call is about. -/
def Call.applicationId : Call → String
  | .start application => application.applicationId
  | .get applicationId | .resolve applicationId _ | .rationale applicationId => applicationId

/-- The state after one call, whether it returns or raises. -/
def exec (env : Env) (w : World) : Call → World
  | .start application => (ApplicationService.startApplication env application w).2
  | .get applicationId => (ApplicationService.getApplication applicationId w).2
  | .resolve applicationId resolution =>
      (ApplicationService.resolveEscalation env applicationId resolution w).2
  | .rationale applicationId => (ApplicationService.getRationale applicationId w).2

def World.init : World := ⟨fun _ => none, .init⟩

def run (env : Env) (calls : List Call) (w : World) : World := calls.foldl (exec env) w

@[simp] theorem run_nil (env : Env) (w : World) : run env [] w = w := rfl

@[simp] theorem run_cons (env : Env) (c : Call) (calls : List Call) (w : World) :
    run env (c :: calls) w = run env calls (exec env w c) := rfl

theorem run_append (env : Env) (calls calls' : List Call) (w : World) :
    run env (calls ++ calls') w = run env calls' (run env calls w) :=
  List.foldl_append

/-- What every call preserves holds after every sequence of calls. -/
theorem run_induction (env : Env) {I : World → Prop} (hstep : ∀ w c, I w → I (exec env w c))
    (calls : List Call) {w : World} (hw : I w) : I (run env calls w) := by
  induction calls generalizing w with
  | nil => exact hw
  | cons c calls ih => exact ih (hstep w c hw)

end Underwriting
