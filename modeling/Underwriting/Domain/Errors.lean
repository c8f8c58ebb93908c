import Underwriting.Python.Json

/-!
# Exceptions

The exceptions that the nodes, the resilience layer and the service raise. A
validation error names the model and the field it rejects. `graphInterrupt` is how
`interrupt()` leaves a node; the graph runtime catches it.
-/

namespace Underwriting

open Python

inductive Exn where
  | validationError (model field : String)
  | valueError (message : String)
  | keyError (key : String)
  | jsonDecodeError
  /-- Whatever a chat provider raises. -/
  | providerError (message : String)
  | circuitBreakerOpenError (message : String)
  | graphInterrupt (payload : Json)
  | graphRecursionError
  | applicationNotFoundError (applicationId : String)
  | applicationNotAwaitingEscalationError (applicationId : String)
  | decisionNotAvailableError (applicationId : String)

/-- The payload of `GraphInterrupt`, which the graph runtime catches. -/
def Exn.interruptPayload : Exn → Option Json
  | graphInterrupt payload => some payload
  | _ => none

/-- The exceptions by which the graph runtime and the service steer a call. -/
def Exn.isControl : Exn → Bool
  | graphInterrupt _ | graphRecursionError | applicationNotFoundError _
  | applicationNotAwaitingEscalationError _ | decisionNotAvailableError _ => true
  | _ => false

theorem Exn.interruptPayload_eq_none {e : Exn} (h : e.isControl = false) :
    e.interruptPayload = none := by
  cases e <;> first | rfl | cases h

@[simp] theorem ok_bind {ε α β : Type} (a : α) (f : α → Except ε β) :
    (Except.ok a >>= f) = f a := rfl

theorem bind_eq_ok_iff {ε α β : Type} {x : Except ε α} {f : α → Except ε β} {b : β} :
    x >>= f = .ok b ↔ ∃ a, x = .ok a ∧ f a = .ok b := by
  cases x with
  | error e => simp [bind, Except.bind]
  | ok a => simp

/-- A key of a JSON object with the value it has there. -/
def field (j : Json) (key : String) : String × Option Json := (key, j.get? key)

/-- Read a field at its type and check its constraint. -/
def checked {α : Type} (model : String) (field : String × Option Json) (dec : Json → Option α)
    (p : α → Prop) [DecidablePred p] : Except Exn {a // p a} :=
  match field.2.bind dec with
  | some a => if h : p a then .ok ⟨a, h⟩ else .error (.validationError model field.1)
  | none => .error (.validationError model field.1)

/-- A failed check names the model and the field. -/
theorem checked_eq_error {α : Type} {model : String} {field : String × Option Json}
    {dec : Json → Option α} {p : α → Prop} [DecidablePred p] {e : Exn}
    (h : checked model field dec p = .error e) : e = .validationError model field.1 := by
  rw [checked] at h
  split at h
  · split at h <;> cases h
    rfl
  · cases h
    rfl

/-- A field that passes its check holds what has been read. -/
theorem bind_of_checked {α : Type} {model : String} {field : String × Option Json}
    {dec : Json → Option α} {p : α → Prop} [DecidablePred p] {a : {a // p a}}
    (h : checked model field dec p = .ok a) : field.2.bind dec = some a.val := by
  rw [checked] at h
  split at h
  · next v hv =>
      split at h <;> cases h
      exact hv
  · cases h

theorem isControl_of_checked {α : Type} {model : String} {field : String × Option Json}
    {dec : Json → Option α} {p : α → Prop} [DecidablePred p] (e : Exn)
    (h : checked model field dec p = .error e) : e.isControl = false := by
  rw [checked_eq_error h]
  rfl

/-- What can be validated back is dumped injectively. -/
theorem injective_of_validate {α : Type} {dump : α → Json} {validate : Json → Except Exn α}
    (h : ∀ a, validate (dump a) = .ok a) : Function.Injective dump := fun a b hab => by
  have hvalid : validate (dump a) = validate (dump b) := congrArg validate hab
  rw [h, h] at hvalid
  exact Except.ok.inj hvalid

/-- A field with a default, read at its type when the key is there. -/
def fieldOr {α : Type} (model : String) (field : String × Option Json) (dec : Json → Option α)
    (default : α) : Except Exn α :=
  match field.2 with
  | none => .ok default
  | some v => (dec v).elim (.error (.validationError model field.1)) .ok

theorem isControl_of_fieldOr {α : Type} {model : String} {field : String × Option Json}
    {dec : Json → Option α} {default : α} (e : Exn)
    (h : fieldOr model field dec default = .error e) : e.isControl = false := by
  rw [fieldOr] at h
  split at h
  · cases h
  · next v _ =>
      cases hv : dec v with
      | none =>
          rw [hv] at h
          cases h
          rfl
      | some a =>
          rw [hv] at h
          cases h

/-- A computation in steps raises what one of its steps raises. -/
theorem isControl_of_bind {α β : Type} {m : Except Exn α} {f : α → Except Exn β}
    (hm : ∀ e, m = .error e → e.isControl = false)
    (hf : ∀ a e, f a = .error e → e.isControl = false) (e : Exn)
    (h : (m >>= f) = .error e) : e.isControl = false := by
  cases m with
  | error e' =>
      cases h
      exact hm _ rfl
  | ok a => exact hf a e h

end Underwriting
