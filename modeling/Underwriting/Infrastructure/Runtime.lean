import Underwriting.Domain.Decisioning
import Underwriting.Python.Effect

/-!
# The process

`Runtime` is what one process shares between its calls: the two circuit breakers, the
log, the spans closed so far and how often each source outside the process has been
read. `Env` is the outside: the replies of the chat model, the readings of the
monotonic clock, the generated ids and the digest of a name are each given by the
number of earlier readings, so one environment stands for one course of events and a
statement about all environments covers every pattern of failures.
-/

namespace Underwriting

open Python

/-- The content of a chat message: its text, and the value `json.loads` reads from it. -/
structure Content where
  text : String
  json : Option Json

/-- `json.dumps(value)` as the content of a message. -/
def Content.ofJson (j : Json) : Content := ⟨j.dumps, some j⟩

inductive Message where
  | system (text : String)
  | human (content : Content)

structure LogRecord where
  logger : String
  level : String
  message : String
  extra : List (String × Json)

/-- A trace span, without its id and times. -/
structure Span where
  name : String
  attributes : List (String × Json)
  status : String

inductive CircuitState where
  | closed | opened | halfOpen
  deriving DecidableEq

structure CircuitBreaker where
  name : String
  failureThreshold : ℕ
  recoveryTimeoutSeconds : ℚ
  state : CircuitState
  consecutiveFailures : ℕ
  openedAt : ℚ

/-- The dependencies that have a breaker of their own. -/
inductive Dependency where
  | llm | creditBureau
  deriving DecidableEq

structure Env where
  unicode : Unicode
  arithmetic : Arithmetic
  settings : Settings
  /-- What the inner chat model does on its `n`-th invocation. -/
  chat : ℕ → List Message → Except Exn Content
  /-- A chat model raises none of the exceptions of the graph runtime and the service. -/
  chat_raises : ∀ n messages e, chat n messages = .error e → e.isControl = false
  /-- The `n`-th reading of `time.monotonic()`. -/
  clock : ℕ → ℚ
  /-- The `n`-th generated id. -/
  uuid : ℕ ↪ String
  /-- The first eight hexadecimal digits of the SHA-256 digest of a name, as a number. -/
  nameDigest : String → ℕ

structure Runtime where
  breakers : Dependency → CircuitBreaker
  chatCalls : ℕ
  ticks : ℕ
  uuids : ℕ
  log : List LogRecord
  spans : List Span

abbrev PyM := Py Runtime Exn

def emit (record : LogRecord) : PyM Unit :=
  Py.modify fun r => { r with log := r.log ++ [record] }

/-- `time.monotonic()`. -/
def monotonic (env : Env) : PyM ℚ := do
  let r ← Py.state
  Py.modify fun r => { r with ticks := r.ticks + 1 }
  pure (env.clock r.ticks)

/-- `uuid.uuid4().hex[:12]`. -/
def newUuid (env : Env) : PyM String := do
  let r ← Py.state
  Py.modify fun r => { r with uuids := r.uuids + 1 }
  pure (env.uuid r.uuids)

def getBreaker (d : Dependency) : PyM CircuitBreaker := do
  let r ← Py.state
  pure (r.breakers d)

def setBreaker (d : Dependency) (b : CircuitBreaker) : PyM Unit :=
  Py.modify fun r => { r with breakers := Function.update r.breakers d b }

end Underwriting
