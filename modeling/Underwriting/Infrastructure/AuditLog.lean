import Underwriting.Infrastructure.PiiRedaction
import Underwriting.Infrastructure.Runtime

/-!
# Audit log

`recordAuditEvent` builds an event with redacted details, writes it to the audit
logger and returns it, so that the node can append it to the trail. `audited` reads
back from the log what the audit logger has been given.
-/

namespace Underwriting

open Python

/-- An audit event, without its time. -/
structure AuditEvent where
  applicationId : String
  correlationId : String
  actor : String
  action : String
  details : List (String × Json)

def AuditEvent.toJson (e : AuditEvent) : Json :=
  .obj [
    ("application_id", .str e.applicationId),
    ("correlation_id", .str e.correlationId),
    ("actor", .str e.actor),
    ("action", .str e.action),
    ("details", .obj e.details)]

/-- The event under any correlation id. -/
def AuditEvent.anonymous (e : AuditEvent) : AuditEvent := { e with correlationId := "" }

@[simp] theorem AuditEvent.toJson_applicationId (e : AuditEvent) :
    (e.toJson.get? "application_id").bind Json.asStr = some e.applicationId := rfl

@[simp] theorem AuditEvent.toJson_correlationId (e : AuditEvent) :
    (e.toJson.get? "correlation_id").bind Json.asStr = some e.correlationId := rfl

@[simp] theorem AuditEvent.toJson_action (e : AuditEvent) :
    (e.toJson.get? "action").bind Json.asStr = some e.action := rfl

def auditEvent (env : Env) (applicationId correlationId actor action : String)
    (details : List (String × Json)) : AuditEvent :=
  ⟨applicationId, correlationId, actor, action, redactMapping env.unicode [] details⟩

def auditLogger : String := "underwriting.audit"

def AuditEvent.toRecord (e : AuditEvent) : LogRecord :=
  ⟨auditLogger, "INFO", "audit_event", [("audit", e.toJson)]⟩

def recordAuditEvent (env : Env) (applicationId correlationId actor action : String)
    (details : List (String × Json)) : PyM AuditEvent := do
  let event := auditEvent env applicationId correlationId actor action details
  emit event.toRecord
  pure event

/-- The events given to the audit logger, in order. -/
def audited (log : List LogRecord) : List Json :=
  log.filterMap fun record =>
    if record.logger = auditLogger then Json.lookup record.extra "audit" else none

theorem audited_append (log log' : List LogRecord) :
    audited (log ++ log') = audited log ++ audited log' :=
  List.filterMap_append

@[simp] theorem audited_toRecord (e : AuditEvent) : audited [e.toRecord] = [e.toJson] := by
  simp [audited, AuditEvent.toRecord, Json.lookup]

theorem audited_of_logger_ne {record : LogRecord} (h : record.logger ≠ auditLogger) :
    audited [record] = [] := by
  simp [audited, h]

end Underwriting
