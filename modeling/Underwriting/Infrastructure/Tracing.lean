import Underwriting.Infrastructure.Runtime

/-!
# Tracing

`startSpan` wraps the body of a `with start_span(...)` block. A body that returns
gives the attributes it adds to its span. When the body raises, the span gets the
status `error` and the exception goes on: the span is closed, but the node that opened
it never returns it. `Runtime.spans` records every span that was closed either way.
-/

namespace Underwriting

open Python

private def closeSpan (span : Span) : PyM Unit :=
  Py.modify fun r => { r with spans := r.spans ++ [span] }

def startSpan {α : Type} (name applicationId : String)
    (body : PyM (α × List (String × Json))) : PyM (α × Span) :=
  let attributes := [("application_id", Json.str applicationId)]
  Py.tryElse body
    (fun e => do
      closeSpan ⟨name, attributes, "error"⟩
      Py.raise e)
    (fun out => do
      let span : Span := ⟨name, attributes ++ out.2, "ok"⟩
      closeSpan span
      pure (out.1, span))

end Underwriting
