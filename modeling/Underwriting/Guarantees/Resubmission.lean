import Underwriting.Run.Replies

/-!
# Submitting an id again

A submission is merged into whatever is stored under its id and overwrites only some of the
keys. So a later run can report, and decide by, what an earlier run has left there.
`resubmission_independent_iff` says that it always reports something of it: the audit trail and
the spans of the earlier run at least. `findings_independent_iff` is about the outcome and what
it rests on: they are those of an empty store if and only if no key of an earlier run remains
that the new run does not write itself. The other half concerns the earlier run: its stored
result is final as long as nobody submits its id again.
-/

namespace Underwriting

open Python ApplicationService

/-! ## What is reported -/

/-- The route of a thread, once its risk and policy slices are there. -/
def Thread.route (t : Thread) : Option Node :=
  if t.values.riskAssessment.isSome ∧ t.values.policyResult.isSome then
    some (routeAfterPolicy t.values)
  else none

/-- Everything that is reported of a thread, up to the generated ids, and its route. -/
structure Report where
  summary : ApplicationSummary
  route : Option Node

def report (id : String) (t : Thread) : Report :=
  let summary := summarize id t
  { summary := { summary with auditTrail := summary.auditTrail.map AuditEvent.anonymous }
    route := Thread.route t }

/-- The part of it that says what has become of the run. -/
structure Findings where
  status : String
  route : Option Node
  riskTier : Option (Option Json)
  policyResult : Option Json
  outcome : Option (Option Json)
  approvedAmount : Option (Option Json)
  adverseActionReasons : Option (Option Json)
  decidedBy : Option (Option Json)
  escalationResolution : Option Json

def findings (id : String) (t : Thread) : Findings :=
  let summary := summarize id t
  { status := summary.status
    route := Thread.route t
    riskTier := summary.riskAssessment.map (·.get? "risk_tier")
    policyResult := summary.policyResult
    outcome := summary.decision.map (·.get? "outcome")
    approvedAmount := summary.decision.map (·.get? "approved_amount")
    adverseActionReasons := summary.decision.map (·.get? "adverse_action_reasons")
    decidedBy := summary.decision.map (·.get? "decided_by")
    escalationResolution := summary.escalationResolution }

/-- The same process over an empty store. -/
def World.emptied (w : World) : World := { w with store := fun _ => none }

/-- A submission raises as over an empty store, and what is observed of its thread is the same. -/
structure IndependentUpTo {β : Type} (observe : String → Thread → β) (env : Env) (w : World)
    (a : LoanApplication) : Prop where
  raised : (startApplication env a w).1.map (fun _ => ()) =
    (startApplication env a w.emptied).1.map fun _ => ()
  reported :
    ((startApplication env a w).2.store a.applicationId).map (observe a.applicationId) =
      ((startApplication env a w.emptied).2.store a.applicationId).map (observe a.applicationId)

/-- A submission raises and reports the same as over an empty store. -/
def Independent : Env → World → LoanApplication → Prop := IndependentUpTo report

/-! ## What is left of an earlier run -/

/-- The run of a submission over an empty store. -/
def soloRun (env : Env) (w : World) (a : LoanApplication) : Run :=
  .fresh a s!"corr_{env.uuid w.runtime.uuids}"

/-- The run of a submission over what is stored under its id. -/
def overRun (env : Env) (w : World) (a : LoanApplication) (stale : Option EscalationResolution)
    (h : (storedValues w a.applicationId).escalationResolution =
      stale.map EscalationResolution.modelDump) : Run :=
  ⟨⟨a, s!"corr_{env.uuid w.runtime.uuids}"⟩, storedValues w a.applicationId, stale, h⟩

/-- What the chat model makes of the submitted document, and the process after that. -/
def reading (env : Env) (w : World) (a : LoanApplication) :
    Except Exn ExtractedFinancials × Runtime :=
  readDocument env a ((w.runtime.launched (soloRun env w a).submission).noted
    (intakeUpdate env (soloRun env w a).submission))

/-- There are no figures that can be scored. -/
def Unassessed (env : Env) (w : World) (a : LoanApplication) : Prop :=
  ∀ x, (reading env w a).1 = .ok x → Unscorable env.arithmetic a x

/-- What the chat model writes as the rationale of an application that no reviewer sees. -/
def explanation (env : Env) (w : World) (a : LoanApplication) (x : ExtractedFinancials) :
    Except Exn Rationale × Runtime :=
  writeRationale env a x none ((soloRun env w a).appraised env x (reading env w a).2)

/-- Nothing of an earlier run is stored that the new one does not overwrite. A resolution is
never overwritten by a submission. Without figures that can be scored the assessments and the
decision are not overwritten either, and the decision is only overwritten by a run that needs no
reviewer and gets its rationale. -/
def StaleFree (env : Env) (w : World) (a : LoanApplication) : Prop :=
  (storedValues w a.applicationId).escalationResolution = none ∧
  (Unassessed env w a →
    (storedValues w a.applicationId).riskAssessment = none ∧
      (storedValues w a.applicationId).policyResult = none ∧
      (storedValues w a.applicationId).decision = none) ∧
  ∀ x, (reading env w a).1 = .ok x →
    (NeedsHuman env a x ∨ ∃ e, (explanation env w a x).1 = .error e) →
      (storedValues w a.applicationId).decision = none

/-! ## Two stores -/

theorem findings_congr {id : String} {t t' : Thread} (hnext : t.next = t'.next)
    (hstatus : t.values.status = t'.values.status)
    (hrisk : t.values.riskAssessment = t'.values.riskAssessment)
    (hpolicy : t.values.policyResult = t'.values.policyResult)
    (hdecision : t.values.decision = t'.values.decision)
    (hresolution : t.values.escalationResolution = t'.values.escalationResolution) :
    findings id t = findings id t' := by
  simp only [findings, summarize, Thread.route, routeAfterPolicy, hnext, hstatus, hrisk, hpolicy,
    hdecision, hresolution]

/-- A thread has the findings of one without a decision if it has none, and is like it
elsewhere. -/
theorem findings_eq_iff_of_undecided {id : String} {t t' : Thread}
    (hnone : t'.values.decision = none)
    (hnext : t.next = t'.next) (hstatus : t.values.status = t'.values.status)
    (hrisk : t.values.riskAssessment = t'.values.riskAssessment)
    (hpolicy : t.values.policyResult = t'.values.policyResult)
    (hresolution : t.values.escalationResolution = t'.values.escalationResolution) :
    findings id t = findings id t' ↔ t.values.decision = none := by
  constructor
  · intro hfindings
    have houtcome : t.values.decision.map (·.get? "outcome") =
        t'.values.decision.map (·.get? "outcome") := congrArg Findings.outcome hfindings
    rw [hnone] at houtcome
    exact Option.map_eq_none_iff.1 houtcome
  · intro hdecision
    exact findings_congr hnext hstatus hrisk hpolicy (hdecision.trans hnone.symm) hresolution

section Runs

variable {env : Env} {k : Submission} {base : UnderwritingState}
  {hbase : base.escalationResolution = Option.map EscalationResolution.modelDump none}
  {id : String} {x : ExtractedFinancials}

/-- A case that has not been scored. -/
def Unscored {env : Env} {a : LoanApplication} : Progress env a → Prop
  | .extracting | .scoring _ _ => True
  | .awaiting _ _ | .explaining _ | .completed _ _ => False

/-- Before the scoring everything an earlier run has assessed is found. -/
theorem findings_unscored_iff {p : Progress env k.application} (hp : Unscored p) :
    findings id (Run.thread env ⟨k, base, none, hbase⟩ p) =
        findings id (Run.thread env ⟨k, .blank, none, rfl⟩ p) ↔
      base.riskAssessment = none ∧ base.policyResult = none ∧ base.decision = none := by
  cases p with
  | awaiting | explaining | completed => exact hp.elim
  | extracting | scoring =>
      constructor
      · intro h
        have hrisk : base.riskAssessment.map (·.get? "risk_tier") = none :=
          congrArg Findings.riskTier h
        have hpolicy : base.policyResult = none := congrArg Findings.policyResult h
        have hdecision : base.decision.map (·.get? "outcome") = none :=
          congrArg Findings.outcome h
        exact ⟨Option.map_eq_none_iff.1 hrisk, hpolicy, Option.map_eq_none_iff.1 hdecision⟩
      · rintro ⟨hrisk, hpolicy, hdecision⟩
        exact findings_congr rfl rfl hrisk hpolicy hdecision hbase

/-- Before the case is completed the decision of an earlier run is found. -/
theorem findings_awaiting_iff {h : NeedsHuman env k.application x} :
    findings id (Run.thread env ⟨k, base, none, hbase⟩ (.awaiting x h)) =
        findings id (Run.thread env ⟨k, .blank, none, rfl⟩ (.awaiting x h)) ↔
      base.decision = none :=
  findings_eq_iff_of_undecided rfl rfl rfl rfl rfl hbase

theorem findings_explaining_iff {h : ¬ NeedsHuman env k.application x} :
    findings id (Run.thread env ⟨k, base, none, hbase⟩ (.explaining (.automatic x h))) =
        findings id (Run.thread env ⟨k, .blank, none, rfl⟩ (.explaining (.automatic x h))) ↔
      base.decision = none :=
  findings_eq_iff_of_undecided rfl rfl rfl rfl rfl hbase

theorem findings_completed {h : ¬ NeedsHuman env k.application x} (rationale : Rationale) :
    findings id (Run.thread env ⟨k, base, none, hbase⟩ (.completed (.automatic x h) rationale)) =
      findings id
        (Run.thread env ⟨k, .blank, none, rfl⟩ (.completed (.automatic x h) rationale)) :=
  findings_congr rfl rfl rfl rfl rfl hbase

end Runs

/-- A submission leaves the stored resolution alone. -/
theorem begin_escalationResolution {env : Env} (R : Run) (r : Runtime) :
    (R.thread env (R.begin env r).2.1).values.escalationResolution =
      R.base.escalationResolution := by
  rcases R.begin_cases env r with ⟨e, r₁, r₂, -, h⟩ | ⟨x, r₁, -, ⟨hx, r₂, h⟩ | ⟨-, hcases⟩⟩
  · rw [h]
    rfl
  · rw [h]
    rfl
  · rcases hcases with ⟨hhuman, r₂, h⟩ | ⟨hhuman, e, r₂, r₃, -, h⟩ |
      ⟨hhuman, rationale, r₂, r₃, -, h⟩
    · rw [h]
      rfl
    · rw [h]
      rfl
    · rw [h]
      rfl

section Observed

variable {β : Type} {observe : String → Thread → β} {env : Env} {w : World} {a : LoanApplication}

/-- The two submissions in terms of the moves of the two runs. -/
theorem independentUpTo_iff {stale : Option EscalationResolution}
    {hstale : (storedValues w a.applicationId).escalationResolution =
      stale.map EscalationResolution.modelDump}
    (hbureau : (w.runtime.breakers .creditBureau).state = .closed)
    {o : (overRun env w a stale hstale).Outcome env} {o' : (soloRun env w a).Outcome env}
    (ho : (overRun env w a stale hstale).begin env
      (w.runtime.launched (soloRun env w a).submission) = o)
    (ho' : (soloRun env w a).begin env (w.runtime.launched (soloRun env w a).submission) = o') :
    IndependentUpTo observe env w a ↔ o.1 = o'.1 ∧
      observe a.applicationId ((overRun env w a stale hstale).thread env o.2.1) =
        observe a.applicationId ((soloRun env w a).thread env o'.2.1) := by
  have hstart : startApplication env a w = Run.served o w :=
    (@startApplication_eq env w (overRun env w a stale hstale) rfl rfl hbureau).trans
      (congrArg (Run.served · w) ho)
  have hsolo : startApplication env a w.emptied = Run.served o' w.emptied :=
    (@startApplication_eq env w.emptied (soloRun env w a) rfl rfl hbureau).trans
      (congrArg (Run.served · w.emptied) ho')
  have hraised {R' : Run} (o : R'.Outcome env) (w' : World) :
      (Run.served o w').1.map (fun _ => ()) = o.1 := by
    obtain ⟨out, p, r⟩ := o
    cases out <;> rfl
  have hstored : (startApplication env a w).2.store a.applicationId =
      some ((overRun env w a stale hstale).thread env o.2.1) := by
    rw [hstart]
    exact Run.store_served o w
  have hstored' : (startApplication env a w.emptied).2.store a.applicationId =
      some ((soloRun env w a).thread env o'.2.1) := by
    rw [hsolo]
    exact Run.store_served o' w.emptied
  constructor
  · rintro ⟨h₁, h₂⟩
    rw [hstart, hsolo, hraised, hraised] at h₁
    rw [hstored, hstored', Option.map_some, Option.map_some, Option.some.injEq] at h₂
    exact ⟨h₁, h₂⟩
  · rintro ⟨h₁, h₂⟩
    refine ⟨?_, ?_⟩
    · rw [hstart, hsolo, hraised, hraised]
      exact h₁
    · rw [hstored, hstored', Option.map_some, Option.map_some, h₂]

/-- A run over a stored resolution reports it. -/
theorem not_independent_of_stale {res : EscalationResolution}
    (hobserve : ∀ t t', observe a.applicationId t = observe a.applicationId t' →
      t.values.escalationResolution = t'.values.escalationResolution)
    (hbureau : (w.runtime.breakers .creditBureau).state = .closed)
    (hstale : (storedValues w a.applicationId).escalationResolution = some res.modelDump) :
    ¬ IndependentUpTo observe env w a := by
  let R := overRun env w a (some res) hstale
  let r := w.runtime.launched (soloRun env w a).submission
  intro h
  have hreport := ((independentUpTo_iff hbureau (rfl : R.begin env r = _) rfl).1 h).2
  have hover : (R.thread env (R.begin env r).2.1).values.escalationResolution =
      some res.modelDump := (begin_escalationResolution R r).trans hstale
  have hsolo : ((soloRun env w a).thread env
      ((soloRun env w a).begin env r).2.1).values.escalationResolution = none :=
    begin_escalationResolution (soloRun env w a) r
  cases hover.symm.trans ((hobserve _ _ hreport).trans hsolo)

end Observed

/-! ## The whole report -/

theorem auditTrail_thread {env : Env} (R : Run) (p : Progress env R.application) :
    (R.thread env p).values.auditTrail = R.base.auditTrail ++ (R.written env p).auditTrail := rfl

/-- A stored thread has an audit trail: the intake has been recorded. -/
theorem auditTrail_thread_ne_nil {env : Env} (R : Run) (p : Progress env R.application) :
    (R.thread env p).values.auditTrail ≠ [] := by
  rw [auditTrail_thread]
  apply List.append_ne_nil_of_right_ne_nil
  cases p with
  | extracting | scoring | awaiting => exact List.cons_ne_nil _ _
  | explaining c | completed c rationale =>
      obtain ⟨x, resolution, h⟩ := c
      cases resolution <;> exact List.cons_ne_nil _ _

/-- Both runs write the same after what they were started over. -/
theorem thread_overRun {env : Env} {w : World} {a : LoanApplication}
    (hnone : (storedValues w a.applicationId).escalationResolution =
      Option.map EscalationResolution.modelDump none) (p : Progress env a) :
    (overRun env w a none hnone).thread env p =
      { (soloRun env w a).thread env p with
        values := (storedValues w a.applicationId).merge ((soloRun env w a).written env p) } := by
  cases p <;> rfl

/-- Without a stored resolution the two submissions go the same way, and only what they were
started over is compared. -/
theorem independentUpTo_iff_of_none {β : Type} {observe : String → Thread → β} {env : Env}
    {w : World} {a : LoanApplication} (hbureau : (w.runtime.breakers .creditBureau).state = .closed)
    (hnone : (storedValues w a.applicationId).escalationResolution =
      Option.map EscalationResolution.modelDump none) :
    IndependentUpTo observe env w a ↔
      let p := ((soloRun env w a).begin env
        (w.runtime.launched (soloRun env w a).submission)).2.1
      observe a.applicationId { (soloRun env w a).thread env p with
        values := (storedValues w a.applicationId).merge ((soloRun env w a).written env p) } =
          observe a.applicationId ((soloRun env w a).thread env p) := by
  have hover : (overRun env w a none hnone).begin env
      (w.runtime.launched (soloRun env w a).submission) =
        (soloRun env w a).begin env (w.runtime.launched (soloRun env w a).submission) := rfl
  rw [independentUpTo_iff hbureau hover rfl, and_iff_right rfl]
  exact iff_of_eq (congrArg (observe _ · = _) (thread_overRun hnone _))

/-- Nothing of an earlier run is reported if there is none. -/
theorem independent_iff_of_none {env : Env} {w : World} {a : LoanApplication}
    (hw : Sound env (fun _ => True) w)
    (hnone : (storedValues w a.applicationId).escalationResolution =
      Option.map EscalationResolution.modelDump none) :
    Independent env w a ↔ w.store a.applicationId = none := by
  rw [Independent, independentUpTo_iff_of_none hw.bureau hnone]
  generalize ((soloRun env w a).begin env
    (w.runtime.launched (soloRun env w a).submission)).2.1 = p
  dsimp only
  constructor
  · intro hreport
    have htrail := congrArg (fun rep => rep.summary.auditTrail.length) hreport
    change (((storedValues w a.applicationId).auditTrail ++
      ((soloRun env w a).written env p).auditTrail).map AuditEvent.anonymous).length =
        (([] ++ ((soloRun env w a).written env p).auditTrail).map AuditEvent.anonymous).length
      at htrail
    simp only [List.length_map, List.length_append, List.length_nil, Nat.zero_add,
      Nat.add_eq_right, List.length_eq_zero_iff] at htrail
    cases hstore : w.store a.applicationId with
    | none => rfl
    | some t =>
        obtain ⟨R, p', -, -, rfl⟩ := hw.threads _ t hstore
        rw [storedValues_of_store hstore] at htrail
        exact absurd htrail (auditTrail_thread_ne_nil R p')
  · intro hstore
    have hblank : storedValues w a.applicationId = .blank := by
      rw [storedValues, hstore]
      rfl
    rw [hblank]
    rfl

/-- A submission reports what it would report on an empty store when its id is new, and never
when it is not. -/
theorem resubmission_independent_iff (env : Env) (calls : List Call) (a : LoanApplication) :
    Independent env (run env calls .init) a ↔
      (run env calls .init).store a.applicationId = none := by
  have hsound := sound_run env calls
  generalize run env calls .init = w at hsound
  obtain ⟨stale, hstale⟩ := hsound.exists_stale a.applicationId
  cases stale with
  | none => exact independent_iff_of_none hsound hstale
  | some res =>
      refine iff_of_false (not_independent_of_stale (fun t t' h => ?_) hsound.bureau hstale) ?_
      · exact congrArg (·.summary.escalationResolution) h
      · intro hstore
        rw [storedValues, hstore] at hstale
        cases hstale

/-! ## The findings -/

section StaleFree

variable {env : Env} {w : World} {a : LoanApplication}
  (hnone : (storedValues w a.applicationId).escalationResolution = none)

include hnone

/-- Without figures that can be scored nothing is overwritten. -/
theorem staleFree_of_unassessed (h : Unassessed env w a) :
    StaleFree env w a ↔ (storedValues w a.applicationId).riskAssessment = none ∧
      (storedValues w a.applicationId).policyResult = none ∧
      (storedValues w a.applicationId).decision = none := by
  constructor
  · rintro ⟨-, hunassessed, -⟩
    exact hunassessed h
  · intro hblank
    exact ⟨hnone, fun _ => hblank, fun _ _ _ => hblank.2.2⟩

/-- With them only the decision may remain. -/
theorem staleFree_of_scorable {x : ExtractedFinancials} (hread : (reading env w a).1 = .ok x)
    (hscorable : ¬ Unscorable env.arithmetic a x) :
    StaleFree env w a ↔ ((NeedsHuman env a x ∨ ∃ e, (explanation env w a x).1 = .error e) →
      (storedValues w a.applicationId).decision = none) := by
  constructor
  · rintro ⟨-, -, hdecision⟩
    exact hdecision x hread
  · intro h
    refine ⟨hnone, fun hunassessed => absurd (hunassessed x hread) hscorable, fun x' hx' => ?_⟩
    rw [hread] at hx'
    cases hx'
    exact h

end StaleFree

/-- A submission that finds no resolution has the findings of one on an empty store if nothing
else is left. -/
theorem findingsIndependent_iff_of_none {env : Env} {w : World} {a : LoanApplication}
    (hbureau : (w.runtime.breakers .creditBureau).state = .closed)
    (hnone : (storedValues w a.applicationId).escalationResolution =
      Option.map EscalationResolution.modelDump none) :
    IndependentUpTo findings env w a ↔ StaleFree env w a := by
  rw [independentUpTo_iff_of_none hbureau hnone]
  rcases (soloRun env w a).begin_cases env
      (w.runtime.launched (soloRun env w a).submission) with
    ⟨e, r₁, r₂, hread, hsolo⟩ | ⟨x, r₁, hread, ⟨hx, r₂, hsolo⟩ | ⟨hx, hcases⟩⟩
  · have hunassessed : Unassessed env w a := by
      intro x hx
      cases hx.symm.trans (congrArg Prod.fst hread)
    rw [hsolo, staleFree_of_unassessed hnone hunassessed]
    exact @findings_unscored_iff env _ _ hnone _ .extracting trivial
  · have hunassessed : Unassessed env w a := by
      intro x' hx'
      cases hx'.symm.trans (congrArg Prod.fst hread)
      exact hx
    rw [hsolo, staleFree_of_unassessed hnone hunassessed]
    exact @findings_unscored_iff env _ _ hnone _ (.scoring x hx) trivial
  have hr₁ : (reading env w a).2 = r₁ := congrArg Prod.snd hread
  rw [staleFree_of_scorable hnone (congrArg Prod.fst hread) hx]
  rcases hcases with ⟨hhuman, r₂, hsolo⟩ | ⟨hhuman, e, r₂, r₃, hwrite, hsolo⟩ |
    ⟨hhuman, rationale, r₂, r₃, hwrite, hsolo⟩
  · rw [hsolo]
    exact (@findings_awaiting_iff env _ _ hnone _ _ _).trans
      ⟨fun h _ => h, fun h => h (.inl hhuman)⟩
  · have hunwritten : (explanation env w a x).1 = .error e := by
      rw [explanation, hr₁]
      exact congrArg Prod.fst hwrite
    rw [hsolo]
    exact (@findings_explaining_iff env _ _ hnone _ _ _).trans
      ⟨fun h _ => h, fun h => h (.inr ⟨e, hunwritten⟩)⟩
  · have hwritten : (explanation env w a x).1 = .ok rationale := by
      rw [explanation, hr₁]
      exact congrArg Prod.fst hwrite
    rw [hsolo]
    refine iff_of_true (@findings_completed env _ _ hnone _ _ _ rationale) fun h => ?_
    rcases h with h | ⟨e, he⟩
    · exact absurd h hhuman
    · rw [hwritten] at he
      cases he

theorem findings_independent_iff (env : Env) (calls : List Call) (a : LoanApplication) :
    IndependentUpTo findings env (run env calls .init) a ↔
      StaleFree env (run env calls .init) a := by
  have hsound := sound_run env calls
  generalize run env calls .init = w at hsound
  obtain ⟨stale, hstale⟩ := hsound.exists_stale a.applicationId
  cases stale with
  | none => exact findingsIndependent_iff_of_none hsound.bureau hstale
  | some res =>
      refine iff_of_false (not_independent_of_stale (fun t t' h => ?_) hsound.bureau hstale) ?_
      · exact congrArg Findings.escalationResolution h
      · intro h
        rw [StaleFree, hstale] at h
        cases h.1

/-- A completed run reports whose resolution its explanation has read. -/
theorem findings_decidedBy {env : Env} {R : Run} {id : String} (c : Settled env R.application)
    (rationale : Rationale) :
    (findings id (R.thread env (.completed c rationale))).decidedBy =
      some (some (.str (decidedBy (R.effective env c)))) := by
  obtain ⟨x, resolution, hgated⟩ := c
  cases resolution <;> rfl

/-- The answer of a reviewer to `escalatedApplication` decides, and is reported as part of, a
run of `sampleApplication` that no reviewer has seen. -/
theorem resolution_survives_resubmission :
    ∃ w, w = run sampleEnv [.start escalatedApplication, .resolve "app_1" sampleResolution] .init ∧
      ¬ Independent sampleEnv w sampleApplication ∧
      ∃ t t₀, (startApplication sampleEnv sampleApplication w).2.store "app_1" = some t ∧
        (startApplication sampleEnv sampleApplication w.emptied).2.store "app_1" = some t₀ ∧
        (findings "app_1" t).decidedBy = some (some (.str "human_reviewer:reviewer_1")) ∧
        (findings "app_1" t₀).decidedBy = some (some (.str "explainability_agent")) := by
  have hid : escalatedApplication.applicationId = "app_1" := rfl
  have hbureau := (sound_run sampleEnv
    [.start escalatedApplication, .resolve "app_1" sampleResolution]).bureau
  obtain ⟨rationale, hstore, hready⟩ := run_resolve_completes (replies_sample escalatedApplication)
    needsHuman_escalated sampleResolution
  rw [hid] at hstore hready
  refine ⟨_, rfl, ?_⟩
  generalize run sampleEnv [.start escalatedApplication, .resolve "app_1" sampleResolution] .init =
    w at hstore hready hbureau
  have hstale : (storedValues w sampleApplication.applicationId).escalationResolution =
      some sampleResolution.modelDump :=
    congrArg UnderwritingState.escalationResolution (storedValues_of_store hstore)
  obtain ⟨rationale', hover, -⟩ := startApplication_completes
    (overRun sampleEnv w sampleApplication (some sampleResolution) hstale) rfl rfl hbureau hready
    (replies_sample _) not_needsHuman_sample
  obtain ⟨rationale'', hsolo, -⟩ := startApplication_completes (w := w.emptied)
    (soloRun sampleEnv w sampleApplication) rfl rfl hbureau hready
    (replies_sample _) not_needsHuman_sample
  exact ⟨not_independent_of_stale (fun _ _ h => congrArg (·.summary.escalationResolution) h) hbureau
    hstale, _, _, hover, hsolo,
    findings_decidedBy _ _, findings_decidedBy _ _⟩

/-! ## Final results -/

/-- A finished thread is touched by submissions of its id only. -/
theorem Sound.store_exec_of_finished {env : Env} {B : UnderwritingState → Prop} {w : World}
    (hw : Sound env B w) (c : Call) {id : String} {t : Thread} (ht : w.store id = some t)
    (hnext : t.next = none) (hno : id ∉ submittedIds [c]) :
    (Underwriting.exec env w c).store id = some t := by
  rcases hw.exec_cases c with ⟨heq, -⟩ | ⟨R, rfl, -, -, heq⟩ |
    ⟨R, p, res, rfl, -, hstore, hdue, heq⟩
  · rw [heq]
    exact ht
  · have hid : id ≠ R.application.applicationId := by
      rintro rfl
      exact hno (by simp [submittedIds])
    rw [heq, Run.store_served_of_ne _ w hid]
    exact ht
  · have hid : id ≠ R.application.applicationId := by
      rintro rfl
      rw [ht, Option.some.injEq] at hstore
      have hnone : R.due env p = none := by
        rw [hstore] at hnext
        exact hnext
      rw [hnone] at hdue
      cases hdue
    rw [heq, Run.store_served_of_ne _ w hid]
    exact ht

theorem store_run_of_finished {env : Env} {id : String} {t : Thread} (hnext : t.next = none)
    (later : List Call) {w : World} (hw : Sound env (fun _ => True) w)
    (ht : w.store id = some t) (hno : id ∉ submittedIds later) :
    (run env later w).store id = some t := by
  induction later generalizing w with
  | nil => exact ht
  | cons c later ih =>
      have hsplit : submittedIds (c :: later) = submittedIds [c] ++ submittedIds later :=
        submittedIds_append [c] later
      rw [hsplit, List.mem_append, not_or] at hno
      rw [run_cons]
      exact ih (hw.exec c fun _ _ => trivial) (hw.store_exec_of_finished c ht hnext hno.1) hno.2

theorem final_unless_resubmitted (env : Env) (calls later : List Call) (id : String) (t : Thread)
    (ht : (run env calls .init).store id = some t)
    (hcompleted : (summarize id t).status = "completed") (hno : id ∉ submittedIds later) :
    (run env later (run env calls .init)).store id = some t := by
  have hsound := sound_run env calls
  obtain ⟨R, p, -, rfl, rfl⟩ := hsound.threads id t ht
  obtain ⟨c, rationale, rfl⟩ := Run.exists_completed hcompleted
  exact store_run_of_finished rfl later hsound ht hno

theorem final_after_other_calls :
    ∃ t, (run sampleEnv [.start sampleApplication] .init).store "app_1" = some t ∧
      (run sampleEnv [.resolve "app_1" sampleResolution, .get "app_1", .rationale "app_1"]
        (run sampleEnv [.start sampleApplication] .init)).store "app_1" = some t := by
  obtain ⟨rationale, hstore, -⟩ :=
    run_start_completes (replies_sample sampleApplication) not_needsHuman_sample
  exact ⟨_, hstore, final_unless_resubmitted sampleEnv [.start sampleApplication] _ "app_1" _
    hstore rfl (by simp [submittedIds])⟩

/-- Submitting `escalatedApplication` under the id of a completed run replaces what is stored
there and opens the case again. -/
theorem completed_run_replaced :
    ∃ t t', (run sampleEnv [.start sampleApplication] .init).store "app_1" = some t ∧
      (summarize "app_1" t).status = "completed" ∧
      (run sampleEnv [.start escalatedApplication]
        (run sampleEnv [.start sampleApplication] .init)).store "app_1" = some t' ∧
      (summarize "app_1" t').status = "awaiting_escalation" ∧
      t'.values.application ≠ t.values.application ∧
      t'.values.policyResult ≠ t.values.policyResult := by
  have hid : sampleApplication.applicationId = "app_1" := rfl
  have hbureau := (sound_run sampleEnv [.start sampleApplication]).bureau
  obtain ⟨rationale, hstore, hready⟩ :=
    run_start_completes (replies_sample sampleApplication) not_needsHuman_sample
  rw [hid] at hstore
  change ∃ t t', _ ∧ _ ∧ (startApplication sampleEnv escalatedApplication
    (run sampleEnv [.start sampleApplication] .init)).2.store "app_1" = some t' ∧ _
  generalize run sampleEnv [.start sampleApplication] .init = w at hstore hready hbureau
  have hstale : (storedValues w escalatedApplication.applicationId).escalationResolution = none :=
    congrArg UnderwritingState.escalationResolution (storedValues_of_store hstore)
  obtain ⟨hover, -⟩ := startApplication_awaits
    (overRun sampleEnv w escalatedApplication none hstale)
    rfl rfl hbureau hready (replies_sample _) needsHuman_escalated
  refine ⟨_, _, hstore, rfl, hover, rfl, fun happlication => ?_, fun hpolicy => ?_⟩
  · have hsame : escalatedApplication = sampleApplication :=
      LoanApplication.modelDump_injective happlication
    have hamount : (400000 : ℚ) = 15000 := congrArg LoanApplication.requestedAmount hsame
    norm_num at hamount
  · have hsame : policyFor sampleEnv escalatedApplication sampleExtraction =
        policyFor sampleEnv sampleApplication sampleExtraction :=
      PolicyResult.modelDump_injective (Option.some.inj hpolicy)
    have hblocked := blocked_escalated sampleEnv
    rw [hsame] at hblocked
    exact not_needsHuman_sample (.inr hblocked)

end Underwriting
