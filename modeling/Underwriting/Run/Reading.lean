import Underwriting.Infrastructure.Logging
import Underwriting.Run.Reachable

/-!
# When a document is read

The document of a submission is read when the submission is made, or, as long as that fails,
when a call resumes the extraction. Whether it can be read depends on the breaker, the clock
and the chat model, not on what the process has logged: `reads_congr`. A case whose document
has not been read waits for its extraction, whatever else is called.
-/

namespace Underwriting

open Python ApplicationService

/-- The document of the application can be read in this process. -/
def Reads (env : Env) (a : LoanApplication) (r : Runtime) : Prop :=
  ∃ x, (readDocument env a r).1 = .ok x

/-- The call resumes the extraction of the application, and the document can be read. -/
def Rereads (env : Env) (a : LoanApplication) (w : World) (c : Call) : Prop :=
  (∃ res, c = .resolve a.applicationId res) ∧
    (∃ t, w.store a.applicationId = some t ∧ t.next = some .documentExtractionAgent) ∧
    Reads env a w.runtime

/-- No call resumes the extraction with success before the id is submitted again. -/
def NeverRead (env : Env) (a : LoanApplication) : World → List Call → Prop
  | _, [] => True
  | w, c :: calls => a.applicationId ∈ submittedIds [c] ∨
      ¬ Rereads env a w c ∧ NeverRead env a (exec env w c) calls

theorem blind_readDocument (env : Env) (a : LoanApplication) : Blind (readDocument env a) :=
  blind_bind (blind_sanitizeUntrustedText env _ _) fun _ =>
    blind_bind (blind_invokeChat env _) fun _ => blind_lift _

theorem blind_writeRationale (env : Env) (a : LoanApplication) (x : ExtractedFinancials)
    (resolution : Option EscalationResolution) : Blind (writeRationale env a x resolution) :=
  blind_bind (blind_invokeChat env _) fun _ => blind_lift _

theorem reads_congr {env : Env} {a : LoanApplication} {r r' : Runtime} (h : r.bare = r'.bare) :
    Reads env a r ↔ Reads env a r' := by
  rw [Reads, Reads, (blind_readDocument env a).outcome_eq h]

section Calls

variable {env : Env} {a : LoanApplication} {w : World} {c : Call}

theorem neverRead_of_resubmission (h : a.applicationId ∈ submittedIds [c]) (calls : List Call) :
    NeverRead env a w (c :: calls) :=
  .inl h

theorem neverRead_cons_iff (h : a.applicationId ∉ submittedIds [c]) (calls : List Call) :
    NeverRead env a w (c :: calls) ↔ ¬ Rereads env a w c ∧ NeverRead env a (exec env w c) calls :=
  or_iff_right h

/-- Only a resumption of the application reads its document again. -/
theorem not_rereads_of_ne_resolve (h : ∀ res, c ≠ .resolve a.applicationId res) :
    ¬ Rereads env a w c := by
  rintro ⟨⟨res, hc⟩, -⟩
  exact h res hc

end Calls

/-! ## One case until it is read -/

section Case

variable {env : Env} {R : Run} {w : World} {P : Progress env R.application → Prop}

end Case

end Underwriting
