import Underwriting.Run.Progress

/-!
# The graph moves a case

The service runs the graph from the entry on a submission and from the pending node on a
resume value. Both leave the thread of the case that `Run.begin` and `Run.resume` lead to,
with the same result and the same process: `invoke_eq`, `resume_eq`. The proof goes along
the edges from the last node to the first, one node at a time.
-/

namespace Underwriting

open Python DurableGraph.Graph

namespace Run

variable {env : Env} {R : Run}

/-- An outcome as the graph runtime gives it. -/
def Outcome.embed (o : R.Outcome env) : Except Exn Unit × Thread × Runtime :=
  (o.1, R.thread env o.2.1, o.2.2)

/-! ## The values along a run -/

theorem holds_received : R.submission.Holds (R.base.merge (R.received env)) := ⟨rfl, rfl, rfl⟩

theorem holds_extracted (x : ExtractedFinancials) :
    R.submission.Holds (R.base.merge (R.extracted env x)) := ⟨rfl, rfl, rfl⟩

theorem holds_scored (x : ExtractedFinancials) :
    R.submission.Holds (R.base.merge (R.scored env x)) := ⟨rfl, rfl, rfl⟩

theorem holds_evaluated (x : ExtractedFinancials) :
    R.submission.Holds (R.base.merge (R.evaluated env x)) := ⟨rfl, rfl, rfl⟩

theorem holds_resolved (x : ExtractedFinancials) (res : Option EscalationResolution) :
    R.submission.Holds (R.base.merge (R.resolved env x res)) := by
  cases res <;> exact ⟨rfl, rfl, rfl⟩

theorem holds_explained (c : Settled env R.application) (rationale : Rationale) :
    R.submission.Holds (R.base.merge (R.explained env c rationale)) := by
  obtain ⟨x, res, h⟩ := c
  cases res <;> exact ⟨rfl, rfl, rfl⟩

/-- Whatever a thread has been through, its values belong to the submission. -/
theorem holds_thread (p : Progress env R.application) :
    R.submission.Holds (R.thread env p).values := by
  cases p with
  | extracting => exact holds_received
  | scoring x h => exact holds_extracted x
  | awaiting x h => exact holds_evaluated x
  | explaining c => exact holds_resolved c.extracted c.resolution
  | completed c rationale =>
      obtain ⟨hid, hcorr, happ⟩ := @holds_explained env R c rationale
      exact ⟨hid, hcorr, happ⟩

theorem resolved_riskAssessment (x : ExtractedFinancials) (res : Option EscalationResolution) :
    (R.base.merge (R.resolved env x res)).riskAssessment =
      some (riskFor env R.application x).modelDump := by
  cases res <;> rfl

theorem resolved_policyResult (x : ExtractedFinancials) (res : Option EscalationResolution) :
    (R.base.merge (R.resolved env x res)).policyResult =
      some (policyFor env R.application x).modelDump := by
  cases res <;> rfl

/-- The resolution in the values is the one of the case, else the stale one. -/
theorem resolved_escalationResolution (c : Settled env R.application) :
    (R.base.merge (R.resolved env c.extracted c.resolution)).escalationResolution =
      (R.effective env c).map EscalationResolution.modelDump := by
  obtain ⟨x, res, h⟩ := c
  cases res with
  | none => exact R.base_resolution
  | some res => rfl

theorem explained_decision (c : Settled env R.application) (rationale : Rationale) :
    (R.base.merge (R.explained env c rationale)).decision =
      some (R.decision env c rationale).modelDump := by
  obtain ⟨x, res, h⟩ := c
  cases res <;> rfl

/-! ## Node by node -/

section Drive

variable {n : ℕ} {node node' : Node} {v : Option Json} {s : UnderwritingState}
  {u w : StateUpdate} {r r' : Runtime}

/-- A node that returns adds its update to what has been written. -/
theorem drive_of_node (hnode : runNode env node v (s.merge w) r = (.ok u, r'))
    (hedge : nextNode node (s.merge (w ++ u)) = some node') :
    (graph env).drive (n + 1) node v (s.merge w) r =
      (graph env).drive n node' none (s.merge (w ++ u)) r' := by
  rw [UnderwritingState.merge_append] at hedge ⊢
  exact drive_of_edge hnode hedge

theorem drive_of_last (hnode : runNode env node v (s.merge w) r = (.ok u, r'))
    (hedge : nextNode node (s.merge (w ++ u)) = none) :
    (graph env).drive (n + 1) node v (s.merge w) r =
      (.ok (), ⟨s.merge (w ++ u), none, []⟩, r') := by
  rw [UnderwritingState.merge_append] at hedge ⊢
  exact drive_of_end hnode hedge

end Drive

theorem drive_explain (c : Settled env R.application) (v : Option Json) (n : ℕ) (r : Runtime) :
    (graph env).drive (n + 2) .explainabilityAgent v
        (R.base.merge (R.resolved env c.extracted c.resolution)) r =
      (R.explain env c r).embed := by
  have hnode : runNode env .explainabilityAgent v
      (R.base.merge (R.resolved env c.extracted c.resolution)) r = _ :=
    explainabilityNode_apply (holds_resolved c.extracted c.resolution)
      (resolved_riskAssessment c.extracted c.resolution)
      (resolved_policyResult c.extracted c.resolution) (resolved_escalationResolution c) r
  rcases hw : writeRationale env R.application c.extracted (R.effective env c) r with
    ⟨e | rationale, r'⟩
  · rw [hw] at hnode
    have hraise := raises_writeRationale env _ _ _ _ _ _ hw
    rw [explain_of_error hw]
    exact drive_of_raise hnode (Exn.interruptPayload_eq_none hraise)
  · rw [hw] at hnode
    rw [explain_of_ok hw, Runtime.noted_append]
    exact (drive_of_node hnode rfl).trans (drive_of_last
      (decisionOutputNode_apply (holds_explained c rationale) (explained_decision c rationale) _)
      rfl)

/-- The policy node sends the case to the reviewer or on to its explanation. -/
theorem routeAfterPolicy_evaluated (x : ExtractedFinancials) :
    routeAfterPolicy (R.base.merge (R.evaluated env x)) =
      if NeedsHuman env R.application x then .humanEscalation else .explainabilityAgent :=
  routeAfterPolicy_eq rfl rfl

/-- Figures that cannot be scored stop the case where it is. -/
theorem drive_unscored (x : ExtractedFinancials) (h : Unscorable env.arithmetic R.application x)
    (v : Option Json) (n : ℕ) (r : Runtime) (hbureau : (r.breakers .creditBureau).state = .closed) :
    (graph env).drive (n + 1) .riskScoringAgent v (R.base.merge (R.extracted env x)) r =
      (R.unscored env x h r).embed := by
  obtain ⟨r', hreport, -⟩ := getCreditReport_of_closed env R.application.applicantFullName r hbureau
  have hnode : runNode env .riskScoringAgent v (R.base.merge (R.extracted env x)) r = _ :=
    riskScoringNode_apply (holds_extracted x) rfl hreport
  rw [if_pos h] at hnode
  rw [unscored, hreport]
  exact drive_of_raise hnode rfl

theorem drive_appraise (x : ExtractedFinancials) (n : ℕ) (r : Runtime)
    (hbureau : (r.breakers .creditBureau).state = .closed) :
    (graph env).drive (n + 4) .riskScoringAgent none (R.base.merge (R.extracted env x))
        (r.noted (extractionUpdate env R.submission x)) =
      (R.appraise env x r).embed := by
  by_cases hscorable : Unscorable env.arithmetic R.application x
  · rw [appraise_of_unscorable hscorable]
    exact drive_unscored x hscorable none (n + 3) _ hbureau
  obtain ⟨r', hreport, -⟩ := getCreditReport_of_closed env R.application.applicantFullName
    (r.noted (extractionUpdate env R.submission x)) hbureau
  have hrisk : runNode env .riskScoringAgent none (R.base.merge (R.extracted env x))
      (r.noted (extractionUpdate env R.submission x)) = _ :=
    riskScoringNode_apply (holds_extracted x) rfl hreport
  rw [if_neg hscorable] at hrisk
  have hpolicy (r₁ : Runtime) :
      runNode env .policyComplianceAgent none (R.base.merge (R.scored env x)) r₁ = _ :=
    policyComplianceNode_apply (holds_scored x) rfl rfl r₁
  have happraised : R.appraised env x r =
      (r'.noted (riskUpdate env R.submission (riskFor env R.application x))).noted
        (policyUpdate env R.submission (policyFor env R.application x)) := by
    rw [appraised, hreport, Runtime.noted_append]
  refine (drive_of_node hrisk rfl).trans ((drive_of_node (hpolicy _) rfl).trans ?_)
  change (graph env).drive (n + 2) (routeAfterPolicy (R.base.merge (R.evaluated env x))) none
    (R.base.merge (R.evaluated env x)) _ = _
  rw [routeAfterPolicy_evaluated]
  by_cases hhuman : NeedsHuman env R.application x
  · rw [if_pos hhuman, appraise_of_needsHuman hscorable hhuman, happraised]
    exact drive_of_interrupt (humanEscalationNode_none (holds_evaluated x) rfl rfl _) rfl
  · rw [if_neg hhuman, appraise_of_not_needsHuman hscorable hhuman, happraised]
    exact drive_explain (.automatic x hhuman) none n _

theorem drive_extract (v : Option Json) (n : ℕ) (r : Runtime)
    (hbureau : (r.breakers .creditBureau).state = .closed) :
    (graph env).drive (n + 5) .documentExtractionAgent v (R.base.merge (R.received env)) r =
      (R.extract env r).embed := by
  have hnode : runNode env .documentExtractionAgent v (R.base.merge (R.received env)) r = _ :=
    documentExtractionNode_apply holds_received r
  rcases hread : readDocument env R.application r with ⟨e | x, r'⟩
  · rw [hread] at hnode
    have hraise := raises_readDocument env _ _ _ _ hread
    rw [extract_of_error hread]
    exact drive_of_raise hnode (Exn.interruptPayload_eq_none hraise)
  · rw [hread] at hnode
    have hbureau' : (r'.breakers .creditBureau).state = .closed := by
      have huntouched := readDocument_untouched env R.application r
      rw [hread] at huntouched
      rw [huntouched.breakers .creditBureau (by decide)]
      exact hbureau
    rw [extract_of_ok hread]
    exact (drive_of_node hnode rfl).trans (drive_appraise x n r' hbureau')

/-! ## The two ways to run the graph -/

/-- A submission moves the case as `begin` says. -/
theorem invoke_eq (r : Runtime) (hbureau : (r.breakers .creditBureau).state = .closed) :
    (graph env).invoke recursionLimit
        (ApplicationService.initialState R.application R.submission.correlationId) R.base r =
      (R.begin env r).embed := by
  have hholds : R.submission.Holds (R.base.merge
      (ApplicationService.initialState R.application R.submission.correlationId)) := ⟨rfl, rfl, rfl⟩
  have hnode : runNode env .intake none (R.base.merge
      (ApplicationService.initialState R.application R.submission.correlationId)) r = _ :=
    intakeNode_apply hholds r
  refine (drive_of_node hnode rfl).trans ?_
  exact drive_extract none 19 (r.noted (intakeUpdate env R.submission)) hbureau

theorem resume_eq (p : Progress env R.application) (res : EscalationResolution) (r : Runtime)
    (hbureau : (r.breakers .creditBureau).state = .closed) :
    (graph env).resume recursionLimit res.modelDump (R.thread env p) r =
      (R.resume env res r p).embed := by
  cases p with
  | extracting => exact drive_extract none 20 r hbureau
  | scoring x h => exact drive_unscored x h none 24 r hbureau
  | awaiting x h =>
      have hnode : runNode env .humanEscalation (some res.modelDump)
          (R.base.merge (R.evaluated env x)) r = _ :=
        humanEscalationNode_some (holds_evaluated x) rfl rfl res r
      refine (drive_of_node hnode rfl).trans ?_
      exact drive_explain (.reviewed x h res) none 22 _
  | explaining c => exact drive_explain c none 23 r
  | completed c rationale => rfl

end Run

end Underwriting
