import Underwriting.Guarantees.TrailGrammar
import Underwriting.Run.Spans

/-!
# The spans of failed executions

The trace that is stored of an application is meant to show every execution of its nodes. A
node that raises closes its span with an error, but it returns no update, so the span never
reaches the stored trace. What has been stored stays, and the stored trace accounts for every
execution that has returned; the ones that have raised are missing. So the trace is complete
as long as no call for the application has been left by an exception of a node.
-/

namespace Underwriting

open Python ApplicationService

/-- The spans that executions for an application have closed, in order. -/
def closedFor (id : String) (r : Runtime) : List Span := r.spans.filter (Span.OfApplication id)

/-- The trace that is stored of an application after these calls. -/
def persisted (env : Env) (calls : List Call) (id : String) : List Span :=
  (storedValues (run env calls .init) id).traceSpans

/-- The span that a node closes last. -/
def Node.finalSpan (n : Node) : String := n.spanNames.getLastD ""

/-- The span ends an execution of the node that has returned or raised. -/
def Node.Ends (n : Node) (s : Span) : Prop :=
  s.name = n.finalSpan ∨ s.name ∈ n.spanNames ∧ s.status = "error"

instance (n : Node) (s : Span) : Decidable (n.Ends s) := inferInstanceAs (Decidable (_ ∨ _))

/-- The number of executions of the node that have returned or raised, by their spans. -/
def Node.executions (n : Node) (spans : List Span) : ℕ := spans.countP n.Ends

/-- Nothing stored is lost, every failed execution has left a span with an error in the stored
trace, and the stored trace has as many executions of each node as there were. -/
structure FailuresTraced (env : Env) (calls : List Call) (id : String) : Prop where
  kept : ∀ before, before <+: calls → persisted env before id <+: persisted env calls id
  recorded : ∀ s ∈ closedFor id (run env calls .init).runtime, s.status = "error" →
    ∃ s' ∈ persisted env calls id, s'.name = s.name ∧ s'.status = "error"
  counted : ∀ n : Node, n.executions (persisted env calls id) =
    n.executions (closedFor id (run env calls .init).runtime)

/-- The call is left by an exception that one of its nodes has raised. -/
def NodeRaises (env : Env) (w : World) : Call → Prop
  | .start a => ∃ e, (startApplication env a w).1 = .error e ∧ e.isControl = false
  | .resolve id res => ∃ e, (resolveEscalation env id res w).1 = .error e ∧ e.isControl = false
  | .get _ | .rationale _ => False

/-- Some call for the application has been left by an exception of a node. -/
def HasFailed (env : Env) (calls : List Call) (id : String) : Prop :=
  ∃ before c, before ++ [c] <+: calls ∧ c.applicationId = id ∧
    NodeRaises env (run env before .init) c

/-! ## Counting -/

theorem Node.finalSpan_ne (n : Node) : n.finalSpan ≠ "human_escalation_request" := by
  cases n <;> simp [finalSpan, spanNames]

/-- Without errors the spans that end an execution are among the returning ones. -/
theorem Node.executions_eq (n : Node) {spans : List Span} (h : ∀ s ∈ spans, s.status ≠ "error") :
    n.executions spans = n.executions (spans.filter Span.Returns) := by
  rw [executions, executions, List.countP_filter]
  apply List.countP_congr
  intro s hs
  have hstatus := h s hs
  have hrequest : s.name = n.finalSpan → s.name ≠ "human_escalation_request" := by
    intro hname
    rw [hname]
    exact n.finalSpan_ne
  simp only [Ends, Span.Returns, hstatus, and_false, or_false, not_false_eq_true, ne_eq, true_and,
    Bool.and_eq_true, decide_eq_true_eq]
  exact (and_iff_left_of_imp hrequest).symm

section Filter

variable {id : String} {r r' : Runtime} {spans : List Span}

theorem closedFor_own (h : r'.spans = r.spans ++ spans) (hown : ∀ s ∈ spans, s.OfApplication id) :
    closedFor id r' = closedFor id r ++ spans := by
  have hself : spans.filter (Span.OfApplication id) = spans := by
    rw [List.filter_eq_self]
    intro s hs
    exact decide_eq_true (hown s hs)
  rw [closedFor, h, List.filter_append, hself, closedFor]

theorem closedFor_other {id' : String} (h : r'.spans = r.spans ++ spans)
    (hown : ∀ s ∈ spans, s.OfApplication id) (hne : id' ≠ id) :
    closedFor id' r' = closedFor id' r := by
  have hnil : spans.filter (Span.OfApplication id') = [] := by
    rw [List.filter_eq_nil_iff]
    intro s hs hother
    have hsame := (hown s hs).symm.trans (of_decide_eq_true hother)
    exact hne (Option.some.inj hsame).symm
  rw [closedFor, h, List.filter_append, hnil, List.append_nil, closedFor]

end Filter

/-! ## One call -/

/-- From `w` to `w'` a call for `id` closes `spans` and stores those that return. -/
structure Traces (w w' : World) (id : String) (raises : Prop) (spans : List Span) : Prop where
  closed : w'.runtime.spans = w.runtime.spans ++ spans
  own : ∀ s ∈ spans, s.OfApplication id
  returned : (storedValues w' id).traceSpans.filter Span.Returns =
    (storedValues w id).traceSpans.filter Span.Returns ++ spans.filter Span.Returns
  raised : (∃ s ∈ spans, s.status = "error") ↔ raises
  kept : (storedValues w id).traceSpans <+: (storedValues w' id).traceSpans
  status : (∀ s ∈ (storedValues w id).traceSpans, s.status ≠ "error") →
    ∀ s ∈ (storedValues w' id).traceSpans, s.status ≠ "error"
  others : ∀ id', id' ≠ id → w'.store id' = w.store id'

theorem Traces.refl (w : World) (id : String) {raises : Prop} (h : ¬ raises) :
    Traces w w id raises [] where
  closed := (List.append_nil _).symm
  own := by simp
  returned := (List.append_nil _).symm
  raised := by simpa using h
  kept := List.prefix_rfl
  status hstatus := hstatus
  others _ _ := rfl

section Calls

variable {env : Env} {w : World} {R : Run}

theorem Run.Closes.traces {stored spans : List Span} {r : Runtime} {o : R.Outcome env}
    (h : Run.Closes stored r o spans) (hr : r.spans = w.runtime.spans)
    (hstored : (storedValues w R.application.applicationId).traceSpans =
      R.base.traceSpans ++ stored)
    (hkept : stored <+: (R.written env o.2.1).traceSpans) {raises : Prop}
    (hraises : raises ↔ ∃ e, o.1 = .error e) :
    Traces w (Run.served o w).2 R.application.applicationId raises spans := by
  have hthread : (storedValues (Run.served o w).2 R.application.applicationId).traceSpans =
      R.base.traceSpans ++ (R.written env o.2.1).traceSpans := by
    rw [storedValues_of_store (Run.store_served o w)]
    rfl
  refine ⟨?_, h.own, ?_, ?_, ?_, ?_, ?_⟩
  · rw [Run.runtime_served, h.closed, hr]
  · rw [hthread, hstored, List.filter_append, List.filter_append, h.returned, List.append_assoc]
  · rw [h.raised, hraises]
  · rw [hthread, hstored]
    exact (List.prefix_append_right_inj _).2 hkept
  · intro hstatus s hs
    rw [hthread, List.mem_append] at hs
    rcases hs with hs | hs
    · apply hstatus
      rw [hstored]
      exact List.mem_append_left _ hs
    · exact (Run.spansOf_written o.2.1).status_ne s hs
  · intro id' hne
    exact Run.store_served_of_ne o w hne

/-- What a call returns or raises is what its move does. -/
theorem Run.served_raises_iff {o : R.Outcome env}
    (ho : ∀ e, o.1 = .error e → e.isControl = false) :
    (∃ e, (Run.served o w).1 = .error e ∧ e.isControl = false) ↔ ∃ e, o.1 = .error e := by
  obtain ⟨out, p, r⟩ := o
  cases out with
  | error e => exact iff_of_true ⟨e, rfl, ho e rfl⟩ ⟨e, rfl⟩
  | ok _ =>
      apply iff_of_false
      · rintro ⟨e, he, -⟩
        cases he
      · rintro ⟨e, he⟩
        cases he

theorem Run.resume_isControl {res : EscalationResolution} {r : Runtime}
    {p : Progress env R.application} {e : Exn} (h : (R.resume env res r p).1 = .error e) :
    e.isControl = false := by
  cases p with
  | extracting => exact extract_isControl h
  | scoring x hx => exact unscored_isControl hx h
  | awaiting x hx => exact explain_isControl h
  | explaining c => exact explain_isControl h
  | completed c rationale => cases h

/-- A refusal is no failure of a node. -/
theorem not_nodeRaises_of_refused {id : String} {res : EscalationResolution} {e : Exn}
    (h : resolveEscalation env id res w = (.error e, w)) (hcontrol : e.isControl = true) :
    ¬ NodeRaises env w (.resolve id res) := by
  rintro ⟨e', he', hfree⟩
  rw [h] at he'
  cases he'
  cases hcontrol.symm.trans hfree

theorem exec_traces (hw : Sound env (fun _ => True) w) (c : Call) :
    ∃ spans, Traces w (exec env w c) c.applicationId (NodeRaises env w c) spans := by
  cases c with
  | get id =>
      rw [exec_get]
      exact ⟨[], .refl w id not_false⟩
  | rationale id =>
      rw [exec_rationale]
      exact ⟨[], .refl w id not_false⟩
  | start a =>
      obtain ⟨R, rfl, hcorr, hbase⟩ := hw.exists_run a
      have hstart := startApplication_eq R hcorr hbase hw.bureau
      obtain ⟨spans, hcloses⟩ := @Run.closes_begin env R (w.runtime.launched R.submission)
      refine ⟨spans, ?_⟩
      rw [exec, hstart]
      apply hcloses.traces rfl
      · rw [← hbase, List.append_nil]
      · exact List.nil_prefix
      · rw [NodeRaises, hstart]
        exact Run.served_raises_iff fun e he => Run.extract_isControl he
  | resolve id res =>
      cases hstore : w.store id with
      | none =>
          have hrefused := @resolveEscalation_of_unknown env w id res hstore
          rw [exec, hrefused]
          exact ⟨[], .refl w id (not_nodeRaises_of_refused hrefused rfl)⟩
      | some t =>
          obtain ⟨R, p, -, rfl, rfl⟩ := hw.threads id t hstore
          cases hdue : R.due env p with
          | none =>
              have hrefused := @resolveEscalation_of_finished env w _ _ res hstore hdue
              rw [exec, hrefused]
              exact ⟨[], .refl w _ (not_nodeRaises_of_refused hrefused rfl)⟩
          | some node =>
              have hsome : (R.due env p).isSome = true := by rw [hdue]; rfl
              have hresolve := resolveEscalation_eq res hstore hsome hw.bureau
              obtain ⟨spans, hcloses⟩ := Run.closes_resume res
                (w.runtime.resolving R.application.applicationId res) p
              refine ⟨spans, ?_⟩
              rw [exec, hresolve]
              apply hcloses.traces rfl
              · rw [storedValues_of_store hstore]
                rfl
              · exact (Run.extends_resume res _ p).traceSpans
              · rw [NodeRaises, hresolve]
                exact Run.served_raises_iff fun e he => Run.resume_isControl he

end Calls

/-! ## All calls -/

/-- The stored trace has the spans that were closed by executions that have returned, and a
span was closed with an error when some execution has failed. -/
structure Reconciled (id : String) (failed : Prop) (w : World) : Prop where
  returned : (storedValues w id).traceSpans.filter Span.Returns =
    (closedFor id w.runtime).filter Span.Returns
  status : ∀ s ∈ (storedValues w id).traceSpans, s.status ≠ "error"
  failures : (∃ s ∈ closedFor id w.runtime, s.status = "error") ↔ failed

theorem Reconciled.own {id : String} {failed raises : Prop} {w w' : World} {spans : List Span}
    (h : Reconciled id failed w) (htraces : Traces w w' id raises spans) :
    Reconciled id (failed ∨ raises) w' := by
  have hclosed := closedFor_own htraces.closed htraces.own
  refine ⟨?_, htraces.status h.status, ?_⟩
  · rw [htraces.returned, h.returned, hclosed, List.filter_append]
  · rw [hclosed, ← h.failures, ← htraces.raised]
    simp only [List.mem_append, or_and_right, exists_or]

theorem Reconciled.other {id id' : String} {failed raises : Prop} {w w' : World}
    {spans : List Span} (h : Reconciled id' failed w) (htraces : Traces w w' id raises spans)
    (hne : id' ≠ id) : Reconciled id' failed w' := by
  have hstored : storedValues w' id' = storedValues w id' := by
    rw [storedValues, storedValues, htraces.others id' hne]
  have hclosed := closedFor_other htraces.closed htraces.own hne
  exact ⟨by rw [hstored, hclosed, h.returned], by rw [hstored]; exact h.status,
    by rw [hclosed, h.failures]⟩

section Runs

variable (env : Env) (calls : List Call) (id : String)

theorem hasFailed_append_iff (c : Call) :
    HasFailed env (calls ++ [c]) id ↔ HasFailed env calls id ∨
      c.applicationId = id ∧ NodeRaises env (run env calls .init) c := by
  constructor
  · rintro ⟨before, c', hprefix, hid, hraises⟩
    rcases List.prefix_concat_iff.1 hprefix with heq | hprefix
    · obtain ⟨rfl, hc⟩ := List.append_inj' heq rfl
      obtain rfl := List.singleton_inj.1 hc
      exact .inr ⟨hid, hraises⟩
    · exact .inl ⟨before, c', hprefix, hid, hraises⟩
  · rintro (⟨before, c', hprefix, hid, hraises⟩ | ⟨hid, hraises⟩)
    · exact ⟨before, c', hprefix.trans (List.prefix_append _ _), hid, hraises⟩
    · exact ⟨calls, c, List.prefix_rfl, hid, hraises⟩

theorem run_append_singleton (c : Call) :
    run env (calls ++ [c]) .init = exec env (run env calls .init) c := by
  rw [run_append]
  rfl

theorem reconciled_run : Reconciled id (HasFailed env calls id) (run env calls .init) := by
  induction calls using List.reverseRecOn with
  | nil =>
      have hclosed : closedFor id World.init.runtime = [] := rfl
      have hstored : (storedValues .init id).traceSpans = [] := rfl
      rw [run_nil]
      refine ⟨by rw [hclosed, hstored], by simp [hstored], ?_⟩
      apply iff_of_false
      · simp [hclosed]
      · rintro ⟨before, c, hprefix, -⟩
        simp at hprefix
  | append_singleton calls c ih =>
      obtain ⟨spans, htraces⟩ := exec_traces (sound_run env calls) c
      rw [run_append_singleton, hasFailed_append_iff]
      by_cases hid : c.applicationId = id
      · subst hid
        rw [and_iff_right rfl]
        exact ih.own htraces
      · rw [or_iff_left fun h => hid h.1]
        exact ih.other htraces (Ne.symm hid)

theorem persisted_prefix {before : List Call} (h : before <+: calls) :
    persisted env before id <+: persisted env calls id := by
  obtain ⟨later, rfl⟩ := h
  induction later using List.reverseRecOn with
  | nil => simp
  | append_singleton later c ih =>
      obtain ⟨spans, htraces⟩ := exec_traces (sound_run env (before ++ later)) c
      apply ih.trans
      rw [persisted, persisted, ← List.append_assoc, run_append_singleton]
      by_cases hid : c.applicationId = id
      · subst hid
        exact htraces.kept
      · rw [storedValues, storedValues, htraces.others id (Ne.symm hid)]

/-- No span of a failed execution is stored. -/
theorem not_failuresTraced (h : HasFailed env calls id) :
    (∃ s ∈ closedFor id (run env calls .init).runtime, s.status = "error") ∧
      (∀ s ∈ persisted env calls id, s.status ≠ "error") ∧ ¬ FailuresTraced env calls id := by
  have hreconciled := reconciled_run env calls id
  have hclosed := hreconciled.failures.2 h
  refine ⟨hclosed, hreconciled.status, ?_⟩
  intro htraced
  obtain ⟨s, hs, herror⟩ := hclosed
  obtain ⟨s', hs', -, herror'⟩ := htraced.recorded s hs herror
  exact hreconciled.status s' hs' herror'

theorem failures_traced_iff : FailuresTraced env calls id ↔ ¬ HasFailed env calls id := by
  constructor
  · intro htraced hfailed
    exact (not_failuresTraced env calls id hfailed).2.2 htraced
  · intro hnone
    have hreconciled := reconciled_run env calls id
    have hclosed : ∀ s ∈ closedFor id (run env calls .init).runtime, s.status ≠ "error" := by
      intro s hs herror
      exact hnone (hreconciled.failures.1 ⟨s, hs, herror⟩)
    refine ⟨fun before => persisted_prefix env calls id, ?_, ?_⟩
    · intro s hs herror
      exact absurd herror (hclosed s hs)
    · intro n
      rw [persisted, n.executions_eq hreconciled.status, n.executions_eq hclosed,
        hreconciled.returned]

end Runs

/-- A submission whose extraction fails stores the span of the intake only. -/
theorem failed_extraction_untraced :
    (persisted silentEnv [.start sampleApplication] "app_1").map Span.name = ["intake"] ∧
      (∃ s ∈ closedFor "app_1" (run silentEnv [.start sampleApplication] .init).runtime,
        s.status = "error") ∧
      (∀ s ∈ persisted silentEnv [.start sampleApplication] "app_1", s.status ≠ "error") ∧
      ¬ FailuresTraced silentEnv [.start sampleApplication] "app_1" := by
  have hfailed : HasFailed silentEnv [.start sampleApplication] "app_1" := by
    obtain ⟨e, r', hbegin⟩ := @Run.begin_raises silentEnv (.first silentEnv sampleApplication)
      (scripted_none none sampleApplication)
      (Runtime.init.launched (Run.first silentEnv sampleApplication).submission)
    refine ⟨[], .start sampleApplication, List.prefix_rfl, rfl, e, ?_, ?_⟩
    · rw [run_nil, startApplication_init, hbegin]
      rfl
    · exact Run.extract_isControl (congrArg Prod.fst hbegin)
  have hstored : (persisted silentEnv [.start sampleApplication] "app_1").map Span.name =
      ["intake"] := by
    rw [persisted, storedValues_of_store run_start_silent]
    rfl
  exact ⟨hstored, not_failuresTraced _ _ _ hfailed⟩

end Underwriting
