import Underwriting.Api.Main

/-!
# The server

Requests are tasks of one event loop. A task gives way to the others while the middleware
waits for the endpoint and while the answer travels back; the endpoint itself does not wait
for anything, so it runs in one piece. `correlation_id_var` is a variable of the task's
context, and the endpoint runs in a copy of that context.

A schedule is a list of events in any order. An event whose task is not in the phase it needs
does nothing, so every list is a schedule. The lifespan of the application opens a process and
logs what it sets up, outside any request; how it ends is left out.
-/

namespace Underwriting

open Python ApplicationService

namespace Api

structure Request where
  /-- The header `X-Correlation-Id`. -/
  correlationHeader : Option String
  route : Route

/-- The request brings an id of its own. -/
def Request.bringsId (r : Request) : Bool := (r.correlationHeader.filter (· ≠ "")).isSome

/-- How far the middleware has come with a request. -/
inductive Phase where
  | arrived
  /-- The variable is set, with `token` to set it back, and the endpoint is due in a copy of
  the context. -/
  | forwarded (correlationId : String) (token copy : Option String)
  | handled (correlationId : String) (token : Option String) (reply : Option Reply)
  | answered (response : Response)

structure Task where
  request : Request
  /-- `correlation_id_var` in the context of the task. -/
  context : Option String
  phase : Phase

/-- The settings that only the lifespan reads. -/
structure LifespanSettings where
  serviceName : String
  logLevel : String
  checkpointDbPath : String
  openaiApiKey : Option String
  anthropicApiKey : Option String

namespace LifespanSettings

variable (settings : LifespanSettings)

/-- A key that is set and not empty. -/
def hasRealLlmProvider : Bool :=
  settings.openaiApiKey.any (· ≠ "") || settings.anthropicApiKey.any (· ≠ "")

/-- The provider that `get_chat_model` selects. -/
def llmProvider : String :=
  if ¬ settings.hasRealLlmProvider then "mock"
  else if settings.openaiApiKey.isSome then "openai" else "anthropic"

/-- What the lifespan logs until the service is set up, in this order. -/
def startupRecords : List LogRecord :=
  [⟨"underwriting.infrastructure.logging_config", "INFO", "logging_configured",
      [("service_name", .str settings.serviceName), ("log_level", .str settings.logLevel)]⟩,
    ⟨"underwriting.infrastructure.checkpointer", "INFO", "checkpointer_opened",
      [("db_path", .str settings.checkpointDbPath)]⟩,
    ⟨"underwriting.infrastructure.llm", "INFO", "llm_provider_selected",
      [("provider", .str settings.llmProvider)]⟩,
    ⟨"underwriting.api.main", "INFO", "application_startup_complete",
      [("service_name", .str settings.serviceName)]⟩]

theorem plain_startupRecords : ∀ record ∈ settings.startupRecords, Plain record := by
  intro record hrecord
  simp only [startupRecords, List.mem_cons, List.not_mem_nil, or_false] at hrecord
  rcases hrecord with rfl | rfl | rfl | rfl
  · exact plain_of_keys ["service_name", "log_level"] rfl (by decide)
  · exact plain_of_keys ["db_path"] rfl (by decide)
  · exact plain_of_keys ["provider"] rfl (by decide)
  · exact plain_of_keys ["service_name"] rfl (by decide)

end LifespanSettings

/-- What the server process is given: its environment, the settings of its lifespan, the checkpoint
file it opens and the ids it generates for requests, which are random and may repeat. -/
structure Host where
  env : Env
  settings : LifespanSettings
  disk : Store
  requestUuid : ℕ → String

structure Server where
  service : Option World
  tasks : ℕ → Option Task
  requestIds : ℕ
  /-- What the log handler has written, at a log level that lets `INFO` through. -/
  lines : List LogLine

inductive Event where
  /-- The lifespan sets up the service. -/
  | startup
  | arrive (i : ℕ) (request : Request)
  /-- The middleware up to `call_next`. -/
  | enter (i : ℕ)
  /-- The endpoint. -/
  | handle (i : ℕ)
  /-- The middleware after `call_next`. -/
  | leave (i : ℕ)

/-- The server before its lifespan has started. -/
def Server.init : Server := ⟨none, fun _ => none, 0, []⟩

/-- The records that the process has logged from `before` to `after`. -/
def loggedSince (before after : Option World) : List LogRecord :=
  (after.elim [] (·.runtime.log)).drop (before.elim [] (·.runtime.log)).length

namespace Server

variable (host : Host)

/-- The lines of the lifespan. No request is being handled, so the variable is not set. -/
def startupLines : List LogLine := host.settings.startupRecords.map (⟨none, ·⟩)

/-- The lifespan runs once for each process. -/
def startup (s : Server) : Server :=
  match s.service with
  | none => { s with service := some ⟨host.disk, .init⟩, lines := s.lines ++ startupLines host }
  | some _ => s

/-- The server with a task in a new phase. -/
def setTask (s : Server) (i : ℕ) (task : Task) : Server :=
  { s with tasks := Function.update s.tasks i (some task) }

def enter (s : Server) (i : ℕ) : Server :=
  match s.tasks i with
  | some ⟨request, context, .arrived⟩ =>
      let correlationId := chooseCorrelationId request.correlationHeader
        (host.requestUuid s.requestIds)
      let s' := s.setTask i ⟨request, some correlationId,
        .forwarded correlationId context (some correlationId)⟩
      { s' with requestIds := if request.bringsId then s.requestIds else s.requestIds + 1 }
  | _ => s

def handle (s : Server) (i : ℕ) : Server :=
  match s.tasks i with
  | some ⟨request, context, .forwarded correlationId token copy⟩ =>
      let (reply, service) := dispatch host.env request.route s.service
      let s' := s.setTask i ⟨request, context, .handled correlationId token reply⟩
      { s' with
        service := service
        lines := s.lines ++ (loggedSince s.service service).map (⟨copy, ·⟩) }
  | _ => s

def leave (s : Server) (i : ℕ) : Server :=
  match s.tasks i with
  | some ⟨request, _, .handled correlationId token reply⟩ =>
      s.setTask i ⟨request, token, .answered (respond correlationId reply)⟩
  | _ => s

def step (s : Server) : Event → Server
  | .startup => s.startup host
  | .arrive i request => if s.tasks i = none then s.setTask i ⟨request, none, .arrived⟩ else s
  | .enter i => s.enter host i
  | .handle i => s.handle host i
  | .leave i => s.leave i

/-- The server after a schedule. -/
def after (events : List Event) : Server := events.foldl (step host) .init

end Server

end Api

end Underwriting
