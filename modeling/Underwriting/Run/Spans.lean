import Underwriting.Run.Reachable

/-!
# What a run closes and what it stores

Every execution of a node closes its spans in the process. The spans of a node that returns
are also part of its update, the span of a node that raises is not. `Run.Closes` compares the
two for one move of a case: up to the requests of executions that pause, the spans that a move
closes with success are the ones that it stores, and a span is closed with an error exactly
when the move raises.
-/

namespace Underwriting

open Python

/-- The span belongs to an application. -/
def Span.OfApplication (id : String) (s : Span) : Prop :=
  (s.attributes.lookup "application_id").bind Json.asStr = some id

instance (id : String) (s : Span) : Decidable (s.OfApplication id) :=
  inferInstanceAs (Decidable (_ = _))

/-- The span ends an execution that returns. The request of the human escalation does not: the
execution goes on after it, or it pauses and starts over. -/
def Span.Returns (s : Span) : Prop :=
  s.status ≠ "error" ∧ s.name ≠ "human_escalation_request"

instance (s : Span) : Decidable s.Returns := inferInstanceAs (Decidable (_ ∧ _))

/-- The update holds spans of `k` that were closed with success. -/
def StateUpdate.SpansOf (k : Submission) (u : StateUpdate) : Prop :=
  ∀ s ∈ u.traceSpans, ∃ name attributes, s = k.span name attributes

section SpansOf

variable {k : Submission} {u v : StateUpdate}

theorem Submission.ofApplication_span (name : String) (attributes : List (String × Json)) :
    (k.span name attributes).OfApplication k.application.applicationId := rfl

theorem Submission.status_span (name : String) (attributes : List (String × Json)) :
    (k.span name attributes).status = "ok" := rfl

theorem StateUpdate.spansOf_append (hu : u.SpansOf k) (hv : v.SpansOf k) : (u ++ v).SpansOf k := by
  intro s hs
  rcases List.mem_append.1 hs with hs | hs
  · exact hu s hs
  · exact hv s hs

theorem StateUpdate.spansOf_of_span {name : String} {attributes : List (String × Json)}
    (h : u.traceSpans = [k.span name attributes]) : u.SpansOf k := by
  intro s hs
  rw [h, List.mem_singleton] at hs
  exact ⟨name, attributes, hs⟩

theorem StateUpdate.SpansOf.ofApplication (h : u.SpansOf k) :
    ∀ s ∈ u.traceSpans, s.OfApplication k.application.applicationId := by
  intro s hs
  obtain ⟨name, attributes, rfl⟩ := h s hs
  exact k.ofApplication_span name attributes

theorem StateUpdate.SpansOf.status_ne (h : u.SpansOf k) :
    ∀ s ∈ u.traceSpans, s.status ≠ "error" := by
  intro s hs
  obtain ⟨name, attributes, rfl⟩ := h s hs
  rw [k.status_span]
  decide

end SpansOf

namespace Run

variable {env : Env} {R : Run}

theorem spansOf_received : (R.received env).SpansOf R.submission :=
  StateUpdate.spansOf_of_span rfl

theorem spansOf_extracted (x : ExtractedFinancials) :
    (R.extracted env x).SpansOf R.submission :=
  StateUpdate.spansOf_append spansOf_received (StateUpdate.spansOf_of_span rfl)

theorem spansOf_evaluated (x : ExtractedFinancials) :
    (R.evaluated env x).SpansOf R.submission := by
  apply StateUpdate.spansOf_append
  · exact StateUpdate.spansOf_append (spansOf_extracted x) (StateUpdate.spansOf_of_span rfl)
  · exact StateUpdate.spansOf_of_span rfl

theorem spansOf_escalationUpdate (payload : List (String × Json)) (res : EscalationResolution) :
    (escalationUpdate env R.submission payload res).SpansOf R.submission :=
  StateUpdate.spansOf_append (StateUpdate.spansOf_of_span rfl) (StateUpdate.spansOf_of_span rfl)

theorem spansOf_resolved (x : ExtractedFinancials) (resolution : Option EscalationResolution) :
    (R.resolved env x resolution).SpansOf R.submission := by
  cases resolution with
  | none => exact spansOf_evaluated x
  | some res =>
      exact StateUpdate.spansOf_append (spansOf_evaluated x) (spansOf_escalationUpdate _ res)

theorem spansOf_conclusion (decision : Decision) (outcome : DecisionOutcome) :
    (explainabilityUpdate env R.submission decision ++
      outputUpdate env R.submission outcome).SpansOf R.submission :=
  StateUpdate.spansOf_append (StateUpdate.spansOf_of_span rfl) (StateUpdate.spansOf_of_span rfl)

theorem spansOf_written (p : Progress env R.application) :
    (R.written env p).SpansOf R.submission := by
  cases p with
  | extracting => exact spansOf_received
  | scoring x h => exact spansOf_extracted x
  | awaiting x h => exact spansOf_evaluated x
  | explaining c => exact spansOf_resolved c.extracted c.resolution
  | completed c rationale =>
      apply StateUpdate.spansOf_append
      · exact StateUpdate.spansOf_append (spansOf_resolved _ _) (StateUpdate.spansOf_of_span rfl)
      · exact StateUpdate.spansOf_of_span rfl

/-! ## Moves -/

/-- A move of a case that has stored the spans `stored` closes `spans`. -/
structure Closes (stored : List Span) (r : Runtime) (o : R.Outcome env) (spans : List Span) :
    Prop where
  closed : o.2.2.spans = r.spans ++ spans
  own : ∀ s ∈ spans, s.OfApplication R.application.applicationId
  returned : (R.written env o.2.1).traceSpans.filter Span.Returns =
    stored.filter Span.Returns ++ spans.filter Span.Returns
  raised : (∃ s ∈ spans, s.status = "error") ↔ ∃ e, o.1 = .error e

/-- A move that is preceded by the update of a node. -/
theorem Closes.noted {stored spans : List Span} {r r' : Runtime} {o : R.Outcome env}
    {u : StateUpdate} (hu : u.SpansOf R.submission)
    (h : Closes (stored ++ u.traceSpans) r' o spans) (hr : r'.spans = r.spans ++ u.traceSpans) :
    Closes stored r o (u.traceSpans ++ spans) where
  closed := by rw [h.closed, hr, List.append_assoc]
  own s hs := (List.mem_append.1 hs).elim (hu.ofApplication s) (h.own s)
  returned := by rw [h.returned, List.filter_append, List.filter_append, List.append_assoc]
  raised := by
    rw [← h.raised]
    constructor
    · rintro ⟨s, hs, herror⟩
      rcases List.mem_append.1 hs with hs | hs
      · exact absurd herror (hu.status_ne s hs)
      · exact ⟨s, hs, herror⟩
    · rintro ⟨s, hs, herror⟩
      exact ⟨s, List.mem_append_right _ hs, herror⟩

/-- A move that fails in a node. -/
theorem Closes.of_failed {stored : List Span} {r : Runtime} {p : Progress env R.application}
    {e : Exn} {name : String} (hstored : stored = (R.written env p).traceSpans) :
    @Closes env R stored r (.error e, p, R.submission.failed name r)
      [⟨name, [("application_id", .str R.application.applicationId)], "error"⟩] where
  closed := rfl
  own s hs := by
    rw [List.mem_singleton] at hs
    rw [hs]
    rfl
  returned := by simp [hstored, Span.Returns]
  raised := iff_of_true ⟨_, List.mem_singleton_self _, rfl⟩ ⟨e, rfl⟩

/-- A move that ends with the update of a node. -/
theorem Closes.of_noted {stored : List Span} {r : Runtime} {p : Progress env R.application}
    {u : StateUpdate} (hu : u.SpansOf R.submission)
    (hstored : (R.written env p).traceSpans.filter Span.Returns =
      stored.filter Span.Returns ++ u.traceSpans.filter Span.Returns) :
    @Closes env R stored r (.ok (), p, r.noted u) u.traceSpans where
  closed := rfl
  own := hu.ofApplication
  returned := hstored
  raised := by
    apply iff_of_false
    · rintro ⟨s, hs, herror⟩
      exact hu.status_ne s hs herror
    · rintro ⟨e, he⟩
      cases he

theorem Closes.congr {stored spans : List Span} {r r' : Runtime} {o : R.Outcome env}
    (h : Closes stored r' o spans) (hr : r'.spans = r.spans) : Closes stored r o spans :=
  ⟨by rw [h.closed, hr], h.own, h.returned, h.raised⟩

theorem closes_explain (c : Settled env R.application) (r : Runtime) :
    ∃ spans, Closes (R.resolved env c.extracted c.resolution).traceSpans r (R.explain env c r)
      spans := by
  have huntouched := writeRationale_untouched env R.application c.extracted (R.effective env c) r
  rcases hw : writeRationale env R.application c.extracted (R.effective env c) r with
    ⟨e | rationale, r'⟩
  · rw [hw] at huntouched
    rw [explain_of_error hw]
    exact ⟨_, (Closes.of_failed (p := .explaining c) rfl).congr huntouched.spans⟩
  · rw [hw] at huntouched
    rw [explain_of_ok hw]
    refine ⟨_, (Closes.of_noted (spansOf_conclusion _ _) ?_).congr huntouched.spans⟩
    rw [← List.filter_append]
    exact congrArg (List.filter _) (List.append_assoc _ _ _)

theorem closes_unscored (x : ExtractedFinancials) (h : Unscorable env.arithmetic R.application x)
    (r : Runtime) :
    ∃ spans, Closes (R.extracted env x).traceSpans r (R.unscored env x h r) spans := by
  have huntouched := getCreditReport_untouched env R.application.applicantFullName r
  exact ⟨_, (Closes.of_failed (p := .scoring x h) rfl).congr huntouched.spans⟩

theorem closes_appraise (x : ExtractedFinancials) (r : Runtime) :
    ∃ spans, Closes (R.received env).traceSpans r (R.appraise env x r) spans := by
  by_cases hscorable : Unscorable env.arithmetic R.application x
  · rw [appraise_of_unscorable hscorable]
    obtain ⟨spans, hcloses⟩ := closes_unscored x hscorable
      (r.noted (extractionUpdate env R.submission x))
    exact ⟨_, Closes.noted (u := extractionUpdate env R.submission x)
      (StateUpdate.spansOf_of_span rfl) hcloses rfl⟩
  let u := extractionUpdate env R.submission x ++
    (riskUpdate env R.submission (riskFor env R.application x) ++
      policyUpdate env R.submission (policyFor env R.application x))
  have hu : u.SpansOf R.submission := by
    apply StateUpdate.spansOf_append (StateUpdate.spansOf_of_span rfl)
    exact StateUpdate.spansOf_append (StateUpdate.spansOf_of_span rfl)
      (StateUpdate.spansOf_of_span rfl)
  have hspans : (R.appraised env x r).spans = r.spans ++ u.traceSpans := by
    have huntouched := getCreditReport_untouched env R.application.applicantFullName
      (r.noted (extractionUpdate env R.submission x))
    have hreport := huntouched.spans
    simp only [appraised, Runtime.noted] at hreport ⊢
    rw [hreport, List.append_assoc]
    rfl
  have hevaluated : (R.received env).traceSpans ++ u.traceSpans =
      (R.evaluated env x).traceSpans := rfl
  by_cases h : NeedsHuman env R.application x
  · rw [appraise_of_needsHuman hscorable h]
    refine ⟨_, Closes.noted hu (Closes.of_noted (StateUpdate.spansOf_of_span rfl) ?_) hspans⟩
    rw [hevaluated]
    exact (List.append_nil _).symm
  · rw [appraise_of_not_needsHuman hscorable h]
    obtain ⟨spans, hcloses⟩ := closes_explain (.automatic x h) (R.appraised env x r)
    exact ⟨_, Closes.noted hu hcloses hspans⟩

theorem closes_extract (r : Runtime) :
    ∃ spans, Closes (R.received env).traceSpans r (R.extract env r) spans := by
  have huntouched := readDocument_untouched env R.application r
  rcases hread : readDocument env R.application r with ⟨e | x, r'⟩
  · rw [hread] at huntouched
    rw [extract_of_error hread]
    exact ⟨_, (Closes.of_failed (p := .extracting) rfl).congr huntouched.spans⟩
  · rw [hread] at huntouched
    rw [extract_of_ok hread]
    obtain ⟨spans, hcloses⟩ := closes_appraise (R := R) x r'
    exact ⟨spans, hcloses.congr huntouched.spans⟩

theorem closes_begin (r : Runtime) : ∃ spans, Closes [] r (R.begin env r) spans := by
  obtain ⟨spans, hcloses⟩ := @closes_extract env R (r.noted (intakeUpdate env R.submission))
  exact ⟨_, Closes.noted (u := intakeUpdate env R.submission) (StateUpdate.spansOf_of_span rfl)
    hcloses rfl⟩

theorem closes_resume (res : EscalationResolution) (r : Runtime) (p : Progress env R.application) :
    ∃ spans, Closes (R.written env p).traceSpans r (R.resume env res r p) spans := by
  cases p with
  | extracting => exact closes_extract r
  | scoring x h => exact closes_unscored x h r
  | awaiting x h =>
      obtain ⟨spans, hcloses⟩ := closes_explain (.reviewed x h res)
        (r.noted (escalationUpdate env R.submission (R.payload env x) res))
      exact ⟨_, Closes.noted (spansOf_escalationUpdate _ res) hcloses rfl⟩
  | explaining c => exact closes_explain c r
  | completed c rationale =>
      refine ⟨[], (List.append_nil _).symm, by simp, (List.append_nil _).symm, ?_⟩
      simp [resume]

end Run

end Underwriting
