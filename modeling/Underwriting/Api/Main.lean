import Underwriting.Api.Schemas
import Underwriting.Run.Serving

/-!
# The HTTP application

The routes over the service, the exception handlers that turn its refusals into answers, and
the middleware that gives every answer a correlation id. The state of the application is the
service with its world, once the lifespan has set it.

A body arrives as validation leaves it: an application with its id, generated when the body
has none, or nothing when the body is rejected, which is answered before the endpoint runs.
-/

namespace Underwriting

open Python ApplicationService

namespace Api

/-- What leaves an endpoint by an exception. -/
inductive Raised where
  | service (e : Exn)
  | httpException (statusCode : ℕ) (detail : String)
  | attributeError (name : String)

abbrev EndpointM := Py (Option World) Raised

/-- `_service(request)`, and one call of it. -/
def onService {α : Type} (m : ServiceM α) : EndpointM α
  | none => (.error (.attributeError "service"), none)
  | some w => ((m w).1.mapError .service, some (m w).2)

/-- A response model that rejects what it is given raises. -/
def validated {α : Type} (x : Except Exn α) : EndpointM α := Py.lift (x.mapError .service)

/-! ## Endpoints -/

def healthz : EndpointM HealthResponse := pure ⟨"ok", none⟩

def readyz : EndpointM HealthResponse := do
  match ← Py.state with
  | none => Py.raise (.httpException 503 "service not yet initialized")
  | some _ => pure ⟨"ok", some "checkpointer and chat model initialized"⟩

def submitApplication (env : Env) (application : LoanApplication) :
    EndpointM ApplicationStateResponse := do
  let result ← onService (startApplication env application)
  validated (ApplicationStateResponse.modelValidate result)

def getApplication (applicationId : String) : EndpointM ApplicationStateResponse := do
  let result ← onService (ApplicationService.getApplication applicationId)
  validated (ApplicationStateResponse.modelValidate result)

def resolveEscalation (env : Env) (applicationId : String) (resolution : EscalationResolution) :
    EndpointM ApplicationStateResponse := do
  let result ← onService (resolveStored env applicationId resolution)
  validated (ApplicationStateResponse.modelValidate result)

def getRationale (applicationId : String) : EndpointM RationaleResponse := do
  let result ← onService (ApplicationService.getRationale applicationId)
  validated (RationaleResponse.modelValidate result)

/-! ## Answers -/

inductive Body where
  | applicationState (r : ApplicationStateResponse)
  | rationale (r : RationaleResponse)
  | health (r : HealthResponse)
  | error (r : ErrorResponse)
  /-- The body of an `HTTPException`. -/
  | detail (text : String)
  /-- The body of a `RequestValidationError`. -/
  | validationErrors
  | internalServerError

structure Reply where
  status : ℕ
  body : Body

/-- An answer as it leaves the server. -/
structure Response where
  reply : Reply
  /-- The header `X-Correlation-Id`. -/
  correlationId : Option String

inductive Route where
  | healthz
  | readyz
  | submitApplication (body : Option LoanApplication)
  | getApplication (applicationId : String)
  | resolveEscalation (applicationId : String) (body : Option EscalationResolution)
  | getRationale (applicationId : String)

def rejected : Reply := ⟨422, .validationErrors⟩

def notFound (applicationId : String) : Reply :=
  ⟨404, .error ⟨"application_not_found", s!"No application found with id '{applicationId}'."⟩⟩

def notAwaitingEscalation (applicationId : String) : Reply :=
  ⟨409, .error ⟨"not_awaiting_escalation",
    s!"Application '{applicationId}' is not currently paused awaiting escalation review."⟩⟩

def decisionNotAvailable (applicationId : String) : Reply :=
  ⟨409, .error ⟨"decision_not_available",
    s!"Application '{applicationId}' has not reached a final decision yet."⟩⟩

/-- The exception handlers; what none of them takes leaves the application. -/
def exceptionHandler : Raised → Option Reply
  | .service (.applicationNotFoundError applicationId) => some (notFound applicationId)
  | .service (.applicationNotAwaitingEscalationError applicationId) =>
      some (notAwaitingEscalation applicationId)
  | .service (.decisionNotAvailableError applicationId) => some (decisionNotAvailable applicationId)
  | .httpException statusCode detail => some ⟨statusCode, .detail detail⟩
  | .service _ | .attributeError _ => none

/-- An endpoint with its success status. -/
def endpoint (env : Env) : Route → EndpointM Reply
  | .healthz => do
      let r ← healthz
      pure ⟨200, .health r⟩
  | .readyz => do
      let r ← readyz
      pure ⟨200, .health r⟩
  | .submitApplication none => pure rejected
  | .submitApplication (some application) => do
      let r ← submitApplication env application
      pure ⟨201, .applicationState r⟩
  | .getApplication applicationId => do
      let r ← getApplication applicationId
      pure ⟨200, .applicationState r⟩
  | .resolveEscalation _ none => pure rejected
  | .resolveEscalation applicationId (some resolution) => do
      let r ← resolveEscalation env applicationId resolution
      pure ⟨200, .applicationState r⟩
  | .getRationale applicationId => do
      let r ← getRationale applicationId
      pure ⟨200, .rationale r⟩

/-- The application inside the middleware: no reply when an exception leaves it. -/
def dispatch (env : Env) (route : Route) (service : Option World) : Option Reply × Option World :=
  match endpoint env route service with
  | (.ok reply, service') => (some reply, service')
  | (.error raised, service') => (exceptionHandler raised, service')

/-! ## The middleware -/

/-- `incoming or f"req_{uuid}"`. -/
def chooseCorrelationId (incoming : Option String) (uuid : String) : String :=
  match incoming.filter (· ≠ "") with
  | some correlationId => correlationId
  | none => s!"req_{uuid}"

/-- The middleware puts the id on a response. An exception passes it by, and the server answers
in its place. -/
def respond (correlationId : String) : Option Reply → Response
  | some reply => ⟨reply, some correlationId⟩
  | none => ⟨⟨500, .internalServerError⟩, none⟩

/-! ## What the endpoints come to -/

/-- What a request asks of the service. -/
def Route.call : Route → Option Call
  | .healthz | .readyz | .submitApplication none | .resolveEscalation _ none => none
  | .submitApplication (some application) => some (.start application)
  | .getApplication applicationId => some (.get applicationId)
  | .resolveEscalation applicationId (some resolution) => some (.resolve applicationId resolution)
  | .getRationale applicationId => some (.rationale applicationId)

section Dispatch

variable {env : Env} {w w' : World} {id : String}

theorem dispatch_of_ok {route : Route} {s s' : Option World} {reply : Reply}
    (h : endpoint env route s = (.ok reply, s')) : dispatch env route s = (some reply, s') := by
  rw [dispatch, h]

theorem dispatch_of_error {route : Route} {s s' : Option World} {raised : Raised}
    (h : endpoint env route s = (.error raised, s')) :
    dispatch env route s = (exceptionHandler raised, s') := by
  rw [dispatch, h]

theorem onService_of_ok {α : Type} {m : ServiceM α} {a : α} (h : m w = (.ok a, w')) :
    onService m (some w) = (.ok a, some w') := by
  rw [onService, h]
  rfl

theorem onService_of_error {α : Type} {m : ServiceM α} {e : Exn} (h : m w = (.error e, w')) :
    onService m (some w) = (.error (.service e), some w') := by
  rw [onService, h]
  rfl

/-- A call of the service whose result is turned into a reply. -/
def served {α β : Type} (m : ServiceM α) (validate : α → Except Exn β) (reply : β → Reply) :
    EndpointM Reply := do
  let b ← (do
    let a ← onService m
    validated (validate a))
  pure (reply b)

theorem endpoint_submitApplication (a : LoanApplication) :
    endpoint env (.submitApplication (some a)) = served (startApplication env a)
      ApplicationStateResponse.modelValidate fun r => ⟨201, .applicationState r⟩ := rfl

theorem endpoint_getApplication (id : String) :
    endpoint env (.getApplication id) = served (ApplicationService.getApplication id)
      ApplicationStateResponse.modelValidate fun r => ⟨200, .applicationState r⟩ := rfl

theorem endpoint_resolveEscalation (id : String) (res : EscalationResolution) :
    endpoint env (.resolveEscalation id (some res)) = served (resolveStored env id res)
      ApplicationStateResponse.modelValidate fun r => ⟨200, .applicationState r⟩ := rfl

theorem endpoint_getRationale (id : String) :
    endpoint env (.getRationale id) = served (ApplicationService.getRationale id)
      RationaleResponse.modelValidate fun r => ⟨200, .rationale r⟩ := rfl

theorem served_of_ok {α β : Type} {m : ServiceM α} {validate : α → Except Exn β}
    {reply : β → Reply} {a : α} {b : β} (h : m w = (.ok a, w')) (hvalid : validate a = .ok b) :
    served m validate reply (some w) = (.ok (reply b), some w') := by
  simp only [served, Py.bind_apply, onService_of_ok h, validated, Py.lift_apply, hvalid]
  rfl

theorem served_of_error {α β : Type} {m : ServiceM α} {validate : α → Except Exn β}
    {reply : β → Reply} {e : Exn} (h : m w = (.error e, w')) :
    served m validate reply (some w) = (.error (.service e), some w') := by
  simp only [served, Py.bind_apply, onService_of_error h]

theorem snd_served {α β : Type} (m : ServiceM α) (validate : α → Except Exn β) (reply : β → Reply) :
    (served m validate reply (some w)).2 = some (m w).2 := by
  rcases h : m w with ⟨e | a, w'⟩
  · rw [served_of_error h]
  · cases hvalid : validate a with
    | ok b => rw [served_of_ok h hvalid]
    | error e =>
        simp only [served, Py.bind_apply, onService_of_ok h, validated, Py.lift_apply, hvalid]
        rfl

theorem snd_dispatch (route : Route) (s : Option World) :
    (dispatch env route s).2 = (endpoint env route s).2 := by
  rcases h : endpoint env route s with ⟨raised | reply, s'⟩
  · rw [dispatch_of_error h]
  · rw [dispatch_of_ok h]

/-- A request leaves the world that its call leaves. -/
theorem dispatch_world (route : Route) : (dispatch env route (some w)).2 =
    some (route.call.elim w (Underwriting.leave env recursionLimit w)) := by
  rw [snd_dispatch]
  cases route with
  | healthz => rfl
  | readyz => rfl
  | submitApplication body =>
      cases body with
      | none => rfl
      | some a =>
          rw [endpoint_submitApplication, snd_served, snd_startApplication]
          rfl
  | getApplication id =>
      rw [endpoint_getApplication, snd_served]
      exact congrArg some (keeps_getApplication (· = w) id w rfl)
  | resolveEscalation id body =>
      cases body with
      | none => rfl
      | some res =>
          rw [endpoint_resolveEscalation, snd_served, snd_resolveStored]
          rfl
  | getRationale id =>
      rw [endpoint_getRationale, snd_served]
      exact congrArg some (keeps_getRationale (· = w) id w rfl)

/-- Without the service no request changes anything. -/
theorem dispatch_none (route : Route) : (dispatch env route none).2 = none := by
  rw [snd_dispatch]
  cases route with
  | healthz | readyz | getApplication | getRationale => rfl
  | submitApplication body | resolveEscalation id body => cases body <;> rfl

/-- A request continues the log with plain records. -/
theorem logs_dispatch (route : Route) :
    ∀ w' ∈ (dispatch env route (some w)).2, Logs w.runtime w'.runtime := by
  rw [dispatch_world]
  rintro w' ⟨⟩
  cases route.call with
  | none => exact .refl _
  | some c => exact logs_leave _ c

end Dispatch

end Api

end Underwriting
