import Underwriting.Run.Serving

/-!
# Stored values are typed

Every slice of the values of a case is the dump of a model where it is there, also when the
run was started over the values of an earlier one. So whatever the server has lived through,
every stored slice validates again: `typed_survivors`.
-/

namespace Underwriting

open Python ApplicationService

/-- The slice is the dump of a model, if it is there. -/
def DumpOf {α : Type} (dump : α → Json) (value : Option Json) : Prop :=
  ∃ x : Option α, value = x.map dump

theorem DumpOf.none {α : Type} {dump : α → Json} : DumpOf dump none := ⟨Option.none, rfl⟩

theorem DumpOf.some {α : Type} {dump : α → Json} (x : α) : DumpOf dump (some (dump x)) :=
  ⟨Option.some x, rfl⟩

theorem DumpOf.or {α : Type} {dump : α → Json} {value value' : Option Json}
    (h : DumpOf dump value) (h' : DumpOf dump value') : DumpOf dump (value.or value') := by
  obtain ⟨x, rfl⟩ := h
  obtain ⟨y, rfl⟩ := h'
  refine ⟨x.or y, ?_⟩
  cases x <;> rfl

/-- The slices of the values are dumps of their models. -/
structure Typed (v : UnderwritingState) : Prop where
  extractedFinancials : DumpOf ExtractedFinancials.modelDump v.extractedFinancials
  riskAssessment : DumpOf RiskAssessment.modelDump v.riskAssessment
  policyResult : DumpOf PolicyResult.modelDump v.policyResult
  decision : DumpOf Decision.modelDump v.decision
  escalationRequest : DumpOf Json.obj v.escalationRequest
  escalationResolution : DumpOf EscalationResolution.modelDump v.escalationResolution

/-- And so are those of an update. -/
structure StateUpdate.Typed (u : StateUpdate) : Prop where
  extractedFinancials : DumpOf ExtractedFinancials.modelDump u.extractedFinancials
  riskAssessment : DumpOf RiskAssessment.modelDump u.riskAssessment
  policyResult : DumpOf PolicyResult.modelDump u.policyResult
  decision : DumpOf Decision.modelDump u.decision
  escalationRequest : DumpOf Json.obj u.escalationRequest
  escalationResolution : DumpOf EscalationResolution.modelDump u.escalationResolution

theorem StateUpdate.Typed.append {u u' : StateUpdate} (h : u.Typed) (h' : u'.Typed) :
    (u ++ u').Typed where
  extractedFinancials := h'.extractedFinancials.or h.extractedFinancials
  riskAssessment := h'.riskAssessment.or h.riskAssessment
  policyResult := h'.policyResult.or h.policyResult
  decision := h'.decision.or h.decision
  escalationRequest := h'.escalationRequest.or h.escalationRequest
  escalationResolution := h'.escalationResolution.or h.escalationResolution

theorem Typed.merge {v : UnderwritingState} {u : StateUpdate} (h : Typed v) (hu : u.Typed) :
    Typed (v.merge u) where
  extractedFinancials := hu.extractedFinancials.or h.extractedFinancials
  riskAssessment := hu.riskAssessment.or h.riskAssessment
  policyResult := hu.policyResult.or h.policyResult
  decision := hu.decision.or h.decision
  escalationRequest := hu.escalationRequest.or h.escalationRequest
  escalationResolution := hu.escalationResolution.or h.escalationResolution

theorem typed_blank : Typed .blank := ⟨.none, .none, .none, .none, .none, .none⟩

namespace Run

variable {env : Env} {R : Run}

/-- What the nodes of a run write is typed. -/
theorem typed_writtenAt (st : Stage R.application) : (R.writtenAt env st).Typed := by
  have hreceived : (R.received env).Typed :=
    .append ⟨.none, .none, .none, .none, .none, .none⟩ ⟨.none, .none, .none, .none, .none, .none⟩
  have hextracted (x : ExtractedFinancials) : (R.extracted env x).Typed :=
    hreceived.append ⟨.some x, .none, .none, .none, .none, .none⟩
  have hscored (x : ExtractedFinancials) (risk : RiskAssessment) : (R.scoredAs env x risk).Typed :=
    (hextracted x).append ⟨.none, .some risk, .none, .none, .none, .none⟩
  have hfiled (f : File R.application) : (R.filed env f).Typed := by
    obtain ⟨x, risk, resolution, h⟩ := f
    have hpolicy := (hscored x risk).append
      (⟨.none, .none, .some _, .none, .none, .none⟩ : (policyUpdate env R.submission
        (evaluatePolicy R.application x risk)).Typed)
    cases resolution with
    | none => exact hpolicy
    | some res => exact hpolicy.append ⟨.none, .none, .none, .none, .some _, .some res⟩
  have hdecided (f : File R.application) (rationale : Rationale) :
      (R.decidedAs env f rationale).Typed :=
    (hfiled f).append ⟨.none, .none, .none, .some _, .none, .none⟩
  cases st with
  | submitted => exact ⟨.none, .none, .none, .none, .none, .none⟩
  | received => exact hreceived
  | extracted x => exact hextracted x
  | scored x risk => exact hscored x risk
  | evaluated f => exact hfiled f
  | explained f h rationale => exact hdecided f rationale
  | completed f h rationale =>
      exact (hdecided f rationale).append ⟨.none, .none, .none, .none, .none, .none⟩

/-- So the values of a case over typed values are typed. -/
theorem At.typed {st : Stage R.application} {t : Thread} (hat : R.At env st t)
    (hbase : Typed R.base) : Typed t.values := by
  rw [hat.values]
  exact hbase.merge (typed_writtenAt st)

end Run

/-- What is stored under every id belongs to a case over typed values. -/
def KeepsTyped (env : Env) (store : Store) : Prop :=
  ∀ id, Keeps env Set.univ (fun _ v => Typed v) id store

namespace KeepsTyped

variable {env : Env} {w : World} {id : String}

theorem typed_storedValues (h : KeepsTyped env w.store) (id : String) :
    Typed (storedValues w id) := by
  cases hstore : w.store id with
  | none =>
      rw [storedValues, hstore]
      exact typed_blank
  | some t =>
      obtain ⟨R, -, hbase, st, -, hat⟩ := h id t hstore
      rw [storedValues_of_store hstore]
      exact hat.typed hbase

/-- Calls keep what is stored typed, complete or not, in whatever process. -/
theorem leave {env' : Env} (hunicode : env.unicode = env'.unicode) (h : KeepsTyped env w.store)
    (j : ℕ) (c : Call) : KeepsTyped env (leave env' j w c).store := by
  intro id
  apply (h id).leave (Set.mem_univ env') hunicode j c
  exact fun _ _ _ => h.typed_storedValues id

/-- A stored thread belongs to a case, and its values are typed. -/
theorem exists_case (h : KeepsTyped env w.store) {t : Thread} (ht : w.store id = some t) :
    ∃ (R : Run) (st : Stage R.application), R.application.applicationId = id ∧
      R.At env st t ∧ Typed t.values := by
  obtain ⟨R, hid, hbase, st, -, hat⟩ := h id t ht
  exact ⟨R, st, hid, hat, hat.typed hbase⟩

theorem survivors (lives : List Life) (hunicode : ∀ l ∈ lives, env.unicode = l.env.unicode) :
    KeepsTyped env (survivors lives) := by
  apply survivors_induction
  · intro id t ht
    cases ht
  · intro l hl c _ j w hw
    exact hw.leave (hunicode l hl) j c

end KeepsTyped

end Underwriting
