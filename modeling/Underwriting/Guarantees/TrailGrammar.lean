import Underwriting.Guarantees.PendingNodes
import Underwriting.Run.Emission
import Underwriting.Run.Fresh

/-!
# The grammar of trail and trace

A node that returns appends its events and its spans, and a node that pauses or raises
appends nothing, so it appends them once however often it is executed. What a fresh run has
stored is therefore what the nodes it has been through append, one after another along the
edges of the graph. There are two ways through the graph, and the routing edge says which
of them a run takes.
-/

namespace Underwriting

open Python ApplicationService

/-! ## The two ways through the graph -/

/-- The actions that a node appends to the trail. -/
def Node.actions : Node → List String
  | .intake => ["application_received"]
  | .documentExtractionAgent => ["financials_extracted"]
  | .riskScoringAgent => ["risk_scored"]
  | .policyComplianceAgent => ["policy_evaluated"]
  | .humanEscalation => ["escalation_requested", "escalation_resolved"]
  | .explainabilityAgent => ["rationale_generated"]
  | .decisionOutput => ["decision_finalized"]

/-- The names of the spans that a node appends to the trace. -/
def Node.spanNames : Node → List String
  | .intake => ["intake"]
  | .documentExtractionAgent => ["document_extraction_agent"]
  | .riskScoringAgent => ["risk_scoring_agent"]
  | .policyComplianceAgent => ["policy_compliance_agent"]
  | .humanEscalation => ["human_escalation_request", "human_escalation_resume"]
  | .explainabilityAgent => ["explainability_agent"]
  | .decisionOutput => ["decision_output"]

def nodesToGate : List Node :=
  [.intake, .documentExtractionAgent, .riskScoringAgent, .policyComplianceAgent]

/-- The nodes of a run in order, with the human escalation or without it. -/
def nodeOrder (routed : Bool) : List Node :=
  nodesToGate ++ (if routed then [.humanEscalation] else []) ++
    [.explainabilityAgent, .decisionOutput]

/-- The actions of a complete trail. -/
def trailWord (routed : Bool) : List String :=
  ["application_received", "financials_extracted", "risk_scored", "policy_evaluated"] ++
    (if routed then ["escalation_requested", "escalation_resolved"] else []) ++
    ["rationale_generated", "decision_finalized"]

/-- The span names of a complete trace. -/
def traceWord (routed : Bool) : List String :=
  ["intake", "document_extraction_agent", "risk_scoring_agent", "policy_compliance_agent"] ++
    (if routed then ["human_escalation_request", "human_escalation_resume"] else []) ++
    ["explainability_agent", "decision_output"]

theorem flatMap_actions (routed : Bool) :
    (nodeOrder routed).flatMap Node.actions = trailWord routed := by
  cases routed <;> rfl

theorem flatMap_spanNames (routed : Bool) :
    (nodeOrder routed).flatMap Node.spanNames = traceWord routed := by
  cases routed <;> rfl

/-- The policy check has sent the run to the human escalation. -/
def Routed (v : UnderwritingState) : Bool :=
  v.policyResult.isSome && routeAfterPolicy v = .humanEscalation

/-! ## The way of a case -/

section Walk

variable {env : Env} {a : LoanApplication} {c : String}

/-- The nodes that the run of a case has been through. -/
def Progress.visited : Progress env a → List Node
  | .extracting => [.intake]
  | .scoring _ _ => [.intake, .documentExtractionAgent]
  | .awaiting _ _ => nodesToGate
  | .explaining s => nodesToGate ++ (if s.resolution.isSome then [.humanEscalation] else [])
  | .completed s _ => nodeOrder s.resolution.isSome

theorem routed_iff (p : Progress env a) :
    Routed ((Run.fresh a c).thread env p).values = true ↔ p.Escalated := by
  have hslices := @slices_fresh env a c p
  cases hx : p.appraised with
  | none =>
      have hpolicy := hslices.policyResult
      rw [hx] at hpolicy
      simp [Routed, hpolicy, Progress.Escalated, hx]
  | some x =>
      have hrisk := hslices.riskAssessment
      have hpolicy := hslices.policyResult
      rw [hx] at hrisk hpolicy
      have hroute := routeAfterPolicy_eq hrisk hpolicy
      simp only [Routed, hpolicy, Option.map_some, Option.isSome_some, Bool.true_and,
        decide_eq_true_eq, Progress.Escalated, hx, Option.mem_def, Option.some.injEq,
        exists_eq_left', hroute]
      by_cases hneeds : NeedsHuman env a x
      · exact iff_of_true (if_pos hneeds) hneeds
      · refine iff_of_false ?_ hneeds
        rw [NeedsHuman] at hneeds
        rw [if_neg hneeds]
        simp

/-- A settled case has been routed to a reviewer when it has a resolution. -/
theorem routed_settled {p : Progress env a} {s : Settled env a}
    (hx : p.appraised = some s.extracted) :
    Routed ((Run.fresh a c).thread env p).values = s.resolution.isSome := by
  rw [Bool.eq_iff_iff, routed_iff, s.gated, Progress.Escalated, hx]
  simp

/-- The thread has been through these nodes, and its next node is the one that follows. -/
structure Walked (t : Thread) (visited : List Node) : Prop where
  ahead : visited ++ t.next.toList <+: nodeOrder (Routed t.values)
  ended : t.next = none → visited = nodeOrder (Routed t.values)
  actions : t.values.auditTrail.map AuditEvent.action = visited.flatMap Node.actions
  spanNames : t.values.traceSpans.map Span.name = visited.flatMap Node.spanNames

theorem walked_fresh (p : Progress env a) :
    Walked ((Run.fresh a c).thread env p) p.visited := by
  cases p with
  | extracting =>
      refine ⟨⟨_, rfl⟩, fun h => ?_, rfl, rfl⟩
      cases h
  | scoring x hx =>
      refine ⟨⟨_, rfl⟩, fun h => ?_, rfl, rfl⟩
      cases h
  | awaiting x hx =>
      have hrouted : Routed ((Run.fresh a c).thread env (.awaiting x hx)).values = true :=
        (routed_iff _).2 ⟨x, rfl, hx⟩
      refine ⟨?_, fun h => ?_, rfl, rfl⟩
      · rw [hrouted]
        exact ⟨_, rfl⟩
      · cases h
  | explaining s =>
      have hrouted := @routed_settled env a c (.explaining s) s rfl
      obtain ⟨x, resolution, hgated⟩ := s
      refine ⟨?_, fun h => ?_, ?_, ?_⟩
      · rw [hrouted]
        exact ⟨[.decisionOutput], by simp [Progress.visited, nodeOrder, Run.thread, Run.due]⟩
      · cases h
      · cases resolution <;> rfl
      · cases resolution <;> rfl
  | completed s rationale =>
      have hrouted := @routed_settled env a c (.completed s rationale) s rfl
      obtain ⟨x, resolution, hgated⟩ := s
      refine ⟨?_, fun _ => ?_, ?_, ?_⟩
      · rw [hrouted]
        exact ⟨[], by simp [Progress.visited, Run.thread, Run.due]⟩
      · rw [hrouted]
        rfl
      · cases resolution <;> rfl
      · cases resolution <;> rfl

end Walk

/-! ## The grammar -/

/-- The trail and the trace of a thread are the beginning of the words of its way, event by
event, the trail is complete exactly when the run is reported completed, and all events
belong to the run. -/
structure TrailGrammar (a : LoanApplication) (t : Thread) : Prop where
  trail : t.values.auditTrail.map AuditEvent.action <+: trailWord (Routed t.values)
  trace : t.values.traceSpans.map Span.name <+: traceWord (Routed t.values)
  aligned : t.values.traceSpans.length = t.values.auditTrail.length
  whole : t.values.auditTrail.map AuditEvent.action = trailWord (Routed t.values) ↔
    (summarize a.applicationId t).status = "completed"
  ownRun : ∀ e ∈ t.values.auditTrail, e.OfRun a.applicationId t.values.correlationId

theorem Node.length_spanNames (n : Node) : n.spanNames.length = n.actions.length := by
  cases n <;> rfl

theorem Node.actions_ne_nil (n : Node) : n.actions ≠ [] := by
  cases n <;> simp [Node.actions]

section Grammar

variable {t : Thread} {visited : List Node} (h : Walked t visited)

include h

theorem Walked.trail :
    t.values.auditTrail.map AuditEvent.action <+: trailWord (Routed t.values) := by
  rw [h.actions, ← flatMap_actions]
  exact ((List.prefix_append visited _).trans h.ahead).flatMap Node.actions

theorem Walked.trace : t.values.traceSpans.map Span.name <+: traceWord (Routed t.values) := by
  rw [h.spanNames, ← flatMap_spanNames]
  exact ((List.prefix_append visited _).trans h.ahead).flatMap Node.spanNames

theorem Walked.aligned : t.values.traceSpans.length = t.values.auditTrail.length := by
  have hactions := congrArg List.length h.actions
  have hspans := congrArg List.length h.spanNames
  rw [List.length_map] at hactions hspans
  rw [hactions, hspans]
  simp only [List.length_flatMap, Node.length_spanNames]

/-- As long as a node is due the trail is not complete. -/
theorem Walked.whole_iff :
    t.values.auditTrail.map AuditEvent.action = trailWord (Routed t.values) ↔ t.next = none := by
  constructor
  · intro hwhole
    cases hnext : t.next with
    | none => rfl
    | some n =>
        have hlength := (h.ahead.flatMap Node.actions).length_le
        rw [flatMap_actions, ← hwhole, h.actions, hnext] at hlength
        have hpos := List.length_pos_iff.2 n.actions_ne_nil
        simp only [Option.toList_some, List.flatMap_append, List.flatMap_singleton,
          List.length_append] at hlength
        omega
  · intro hnext
    rw [h.actions, ← flatMap_actions, h.ended hnext]

end Grammar

theorem trailGrammar_fresh {env : Env} {a : LoanApplication} {c : String} (p : Progress env a) :
    TrailGrammar a ((Run.fresh a c).thread env p) := by
  have hwalked := @walked_fresh env a c p
  refine ⟨hwalked.trail, hwalked.trace, hwalked.aligned, ?_, ?_⟩
  · rw [hwalked.whole_iff]
    exact (Run.reports_completed_iff (R := Run.fresh a c)).symm
  · rw [(Run.holds_thread (R := Run.fresh a c) p).correlationId]
    exact Run.ofRun_written (R := Run.fresh a c) p

/-! ## Trails only grow -/

/-- The second update begins with the events and the spans of the first. -/
structure StateUpdate.Extends (u v : StateUpdate) : Prop where
  auditTrail : u.auditTrail <+: v.auditTrail
  traceSpans : u.traceSpans <+: v.traceSpans

namespace StateUpdate

variable {u v w : StateUpdate}

theorem Extends.refl (u : StateUpdate) : u.Extends u :=
  ⟨List.prefix_refl _, List.prefix_refl _⟩

theorem Extends.trans (h : u.Extends v) (h' : v.Extends w) : u.Extends w :=
  ⟨h.auditTrail.trans h'.auditTrail, h.traceSpans.trans h'.traceSpans⟩

theorem extends_append (u v : StateUpdate) : u.Extends (u ++ v) :=
  ⟨List.prefix_append _ _, List.prefix_append _ _⟩

theorem Extends.append (h : u.Extends v) (w : StateUpdate) : u.Extends (v ++ w) :=
  h.trans (extends_append v w)

end StateUpdate

namespace Run

variable {env : Env} {R : Run}

theorem extends_resolved (x : ExtractedFinancials) (res : Option EscalationResolution) :
    (R.evaluated env x).Extends (R.resolved env x res) := by
  cases res with
  | none => exact .refl _
  | some res => exact StateUpdate.extends_append _ _

theorem extends_evaluated (x : ExtractedFinancials) :
    (R.received env).Extends (R.evaluated env x) :=
  ((StateUpdate.extends_append _ _).append _).append _

theorem extends_explain (c : Settled env R.application) (r : Runtime) :
    (R.resolved env c.extracted c.resolution).Extends
      (R.written env (R.explain env c r).2.1) := by
  rcases hw : writeRationale env R.application c.extracted (R.effective env c) r with
    ⟨e | rationale, r'⟩
  · rw [explain_of_error hw]
    exact .refl _
  · rw [explain_of_ok hw]
    exact (StateUpdate.extends_append _ _).append _

theorem extends_extract (r : Runtime) :
    (R.received env).Extends (R.written env (R.extract env r).2.1) := by
  rcases hread : readDocument env R.application r with ⟨e | x, r'⟩
  · rw [extract_of_error hread]
    exact .refl _
  · rw [extract_of_ok hread]
    by_cases hx : Unscorable env.arithmetic R.application x
    · rw [appraise_of_unscorable hx]
      exact StateUpdate.extends_append _ _
    by_cases h : NeedsHuman env R.application x
    · rw [appraise_of_needsHuman hx h]
      exact extends_evaluated x
    · rw [appraise_of_not_needsHuman hx h]
      exact (extends_evaluated x).trans (extends_explain (.automatic x h) _)

/-- A resume value loses nothing, whatever is tried again. -/
theorem extends_resume (res : EscalationResolution) (r : Runtime) (p : Progress env R.application) :
    (R.written env p).Extends (R.written env (R.resume env res r p).2.1) := by
  cases p with
  | extracting => exact extends_extract r
  | scoring x h => exact .refl _
  | awaiting x h =>
      exact (extends_resolved x (some res)).trans (extends_explain (.reviewed x h res) _)
  | explaining c => exact extends_explain c r
  | completed c rationale => exact .refl _

end Run

/-! ## Every moment of a run -/

theorem trail_grammar (env : Env) (before later : List Call) (a : LoanApplication)
    (honce : a.applicationId ∉ submittedIds (before ++ later)) :
    ∃ t, storedAfter env before a later = some t ∧ TrailGrammar a t ∧
      ∀ prior, prior <+: later → ∀ t', storedAfter env before a prior = some t' →
        t'.values.auditTrail <+: t.values.auditTrail ∧
          t'.values.traceSpans <+: t.values.traceSpans := by
  obtain ⟨hbefore, hlater⟩ := (not_mem_submittedIds_append before later).1 honce
  have hfresh := store_of_not_submitted env hbefore
  obtain ⟨c, p, hstore, -⟩ := store_run_fresh (P := fun _ => True) (fun _ _ => trivial)
    (fun _ _ _ _ _ => trivial) hfresh hlater
  refine ⟨_, hstore, trailGrammar_fresh p, ?_⟩
  rintro prior ⟨rest, rfl⟩ t' ht'
  obtain ⟨hprior, hrest⟩ := (not_mem_submittedIds_append prior rest).1 hlater
  obtain ⟨c', p', rfl, -⟩ := exists_slices hfresh hprior ht'
  obtain ⟨p'', hstore', hextends⟩ := (sound_moment env before a prior).store_run_case
    (R := Run.fresh a c') (P := fun q =>
      ((Run.fresh a c').written env p').Extends ((Run.fresh a c').written env q))
    (fun res r q hq => hq.trans (Run.extends_resume res r q)) rest ht' (.refl _) hrest
  rw [← run_append] at hstore'
  rw [Option.some.inj (hstore.symm.trans hstore')]
  exact ⟨hextends.auditTrail, hextends.traceSpans⟩

theorem trail_grammar_escalated :
    ∃ t, storedAfter sampleEnv [] escalatedApplication
        [.resolve "app_1" sampleResolution] = some t ∧
      TrailGrammar escalatedApplication t ∧
      ∀ prior, prior <+: [.resolve "app_1" sampleResolution] → ∀ t',
        storedAfter sampleEnv [] escalatedApplication prior = some t' →
          t'.values.auditTrail <+: t.values.auditTrail ∧
            t'.values.traceSpans <+: t.values.traceSpans :=
  trail_grammar sampleEnv [] [.resolve "app_1" sampleResolution] escalatedApplication
    (by simp [submittedIds])

end Underwriting
