import Underwriting.Guarantees.TrailGrammar
import Underwriting.Run.Resolutions
import Underwriting.Run.Resumption

/-!
# What a crash cannot do

The server may be killed in the middle of any call, between any two nodes, and come back under
other settings or with another model. Nothing of a case is lost or done twice: what is stored
is what the nodes it has been through append, each once and in the order of the graph, and the
node that is due is the one that follows. A final decision is accounted for: the extraction is a
reply that some process has received, the assessment is the one that some process has made of
it, the resolution is there exactly when that assessment asked for it, and the decision follows
from these.
-/

namespace Underwriting

open Python

/-! ## The way to a stage -/

/-- The nodes that a case has been through. -/
def Stage.visited {a : LoanApplication} : Stage a → List Node
  | .submitted => []
  | .received => [.intake]
  | .extracted _ => [.intake, .documentExtractionAgent]
  | .scored _ _ => [.intake, .documentExtractionAgent, .riskScoringAgent]
  | .evaluated f => nodesToGate ++ if f.resolution.isSome then [.humanEscalation] else []
  | .explained f _ _ =>
      nodesToGate ++ (if f.resolution.isSome then [.humanEscalation] else []) ++
        [.explainabilityAgent]
  | .completed f _ _ => nodeOrder f.resolution.isSome

namespace Run

variable {env : Env} {R : Run}

/-- The values of a filed case tell where the gate sends it. -/
theorem routed_filed {v : UnderwritingState} {f : File R.application}
    (hrisk : v.riskAssessment = some f.risk.modelDump)
    (hpolicy : v.policyResult = some f.policy.modelDump) :
    Underwriting.Routed v = decide (Flagged R.application f.extracted f.risk) := by
  have hroute : routeAfterPolicy v =
      if Flagged R.application f.extracted f.risk then .humanEscalation
      else .explainabilityAgent := routeAfterPolicy_eq hrisk hpolicy
  rw [Underwriting.Routed, hpolicy, Option.isSome_some, Bool.true_and, hroute]
  by_cases h : Flagged R.application f.extracted f.risk
  · rw [if_pos h]
    simp [h]
  · rw [if_neg h]
    simp [h]

theorem routed_closed {v : UnderwritingState} {f : File R.application} (hclosed : ¬ f.Open)
    (hrisk : v.riskAssessment = some f.risk.modelDump)
    (hpolicy : v.policyResult = some f.policy.modelDump) :
    Underwriting.Routed v = f.resolution.isSome := by
  rw [routed_filed hrisk hpolicy, Bool.eq_iff_iff, f.isSome_resolution_iff hclosed,
    decide_eq_true_eq]

/-- What is written at a stage is what the nodes on the way to it append. -/
theorem actions_writtenAt (st : Stage R.application) :
    (R.writtenAt env st).auditTrail.map AuditEvent.action = st.visited.flatMap Node.actions := by
  cases st with
  | submitted | received | extracted | scored => rfl
  | evaluated f | explained f | completed f =>
      obtain ⟨x, risk, resolution, hgated⟩ := f
      cases resolution <;> rfl

theorem spanNames_writtenAt (st : Stage R.application) :
    (R.writtenAt env st).traceSpans.map Span.name = st.visited.flatMap Node.spanNames := by
  cases st with
  | submitted | received | extracted | scored => rfl
  | evaluated f | explained f | completed f =>
      obtain ⟨x, risk, resolution, hgated⟩ := f
      cases resolution <;> rfl

/-- A fresh case at a stage has walked to it. -/
theorem At.walked {st : Stage R.application} {t : Thread} (hbase : R.base = .blank)
    (h : R.At env st t) : Walked t st.visited := by
  obtain ⟨hvalues, hnext, -⟩ := h
  have hactions : t.values.auditTrail.map AuditEvent.action = st.visited.flatMap Node.actions := by
    rw [hvalues, hbase, ← @actions_writtenAt env R]
    rfl
  have hspans : t.values.traceSpans.map Span.name = st.visited.flatMap Node.spanNames := by
    rw [hvalues, hbase, ← @spanNames_writtenAt env R]
    rfl
  suffices hway : st.visited ++ st.due.toList <+: nodeOrder (Underwriting.Routed t.values) ∧
      (st.due = none → st.visited = nodeOrder (Underwriting.Routed t.values)) by
    rw [← hnext] at hway
    exact ⟨hway.1, hway.2, hactions, hspans⟩
  rw [hvalues]
  cases st with
  | submitted | received | extracted | scored =>
      refine ⟨⟨_, rfl⟩, fun hdue => ?_⟩
      cases hdue
  | evaluated f =>
      refine ⟨?_, fun hdue => ?_⟩
      · by_cases hopen : f.Open
        · have hrouted : Underwriting.Routed (R.base.merge (R.writtenAt env (.evaluated f))) = _ :=
            routed_filed (f := f) (filed_riskAssessment f) (filed_policyResult f)
          rw [hrouted, Stage.due_of_open hopen, Stage.visited, hopen.2, decide_eq_true hopen.1]
          exact ⟨_, rfl⟩
        · have hrouted : Underwriting.Routed (R.base.merge (R.writtenAt env (.evaluated f))) = _ :=
            routed_closed hopen (filed_riskAssessment f) (filed_policyResult f)
          rw [hrouted, Stage.due_of_not_open hopen, Stage.visited]
          exact ⟨[.decisionOutput], by simp [nodeOrder]⟩
      · cases hdue
  | explained f hclosed rationale =>
      have hrouted : Underwriting.Routed
          (R.base.merge (R.writtenAt env (.explained f hclosed rationale))) = _ :=
        routed_closed hclosed (filed_riskAssessment f) (filed_policyResult f)
      refine ⟨?_, fun hdue => ?_⟩
      · rw [hrouted]
        exact ⟨[], by simp [Stage.visited, Stage.due, nodeOrder]⟩
      · cases hdue
  | completed f hclosed rationale =>
      have hrouted : Underwriting.Routed
          (R.base.merge (R.writtenAt env (.completed f hclosed rationale))) = _ :=
        routed_closed hclosed (filed_riskAssessment f) (filed_policyResult f)
      rw [hrouted]
      exact ⟨⟨[], by simp [Stage.visited, Stage.due]⟩, fun _ => rfl⟩

theorem ofRun_filed (f : File R.application) : (R.filed env f).OfRun R.submission := by
  have hscored : (R.scoredAs env f.extracted f.risk).OfRun R.submission :=
    StateUpdate.ofRun_append (StateUpdate.ofRun_append ofRun_received
      (StateUpdate.ofRun_of_event rfl)) (StateUpdate.ofRun_of_event rfl)
  have hchecked := StateUpdate.ofRun_append hscored
    (StateUpdate.ofRun_of_event (u := policyUpdate env R.submission f.policy) rfl)
  cases h : f.resolution with
  | none =>
      rw [filed_of_none f h]
      exact hchecked
  | some res =>
      simp only [filed, h]
      exact StateUpdate.ofRun_append hchecked (ofRun_escalationUpdate _ res)

theorem ofRun_writtenAt (st : Stage R.application) : (R.writtenAt env st).OfRun R.submission := by
  have hdecided (f : File R.application) (rationale : Rationale) :
      (R.decidedAs env f rationale).OfRun R.submission :=
    StateUpdate.ofRun_append (ofRun_filed f) (StateUpdate.ofRun_of_event rfl)
  cases st with
  | submitted => exact fun _ he => nomatch he
  | received => exact ofRun_received
  | extracted x => exact StateUpdate.ofRun_append ofRun_received (StateUpdate.ofRun_of_event rfl)
  | scored x risk =>
      exact StateUpdate.ofRun_append (StateUpdate.ofRun_append ofRun_received
        (StateUpdate.ofRun_of_event rfl)) (StateUpdate.ofRun_of_event rfl)
  | evaluated f => exact ofRun_filed f
  | explained f hclosed rationale => exact hdecided f rationale
  | completed f hclosed rationale =>
      exact StateUpdate.ofRun_append (hdecided f rationale) (StateUpdate.ofRun_of_event rfl)

end Run

/-! ## Where the facts of a case come from -/

section Sources

variable (E : Set Env)

/-- Some process has received the extraction as a reply to the prompt about the application. -/
def WasRead (a : LoanApplication) (x : ExtractedFinancials) : Prop :=
  ∃ env ∈ E, ∃ n reply, env.chat n (extractionPrompt env a) = .ok reply ∧
    validateExtraction reply = .ok x

/-- Some process has made the assessment, under its settings. -/
def WasAssessed (a : LoanApplication) (x : ExtractedFinancials) (risk : RiskAssessment) : Prop :=
  ∃ env ∈ E, risk = riskFor env a x

/-- Some process has received the rationale as a reply to the payload. -/
def WasExplained (payload : Json) (rationale : Rationale) : Prop :=
  ∃ env ∈ E, ∃ n reply, env.chat n (rationaleMessages payload) = .ok reply ∧
    acceptRationale reply = .ok rationale

/-- Everything on file at a stage comes from some process. -/
def Run.Accounted (R : Run) : Stage R.application → Prop
  | .submitted | .received => True
  | .extracted x => WasRead E R.application x
  | .scored x risk => WasRead E R.application x ∧ WasAssessed E R.application x risk
  | .evaluated f =>
      WasRead E R.application f.extracted ∧ WasAssessed E R.application f.extracted f.risk
  | .explained f _ rationale | .completed f _ rationale =>
      WasRead E R.application f.extracted ∧ WasAssessed E R.application f.extracted f.risk ∧
        WasExplained E (rationalePayload R.application f.risk f.policy (R.reads f)) rationale

variable {E} {env : Env} {R : Run}

theorem Run.Step.accounted {st st' : Stage R.application} (henv : env ∈ E)
    (h : R.Step env st st') (hst : R.Accounted E st) : R.Accounted E st' := by
  cases h with
  | receive => trivial
  | extract hchat hvalid => exact ⟨env, henv, _, _, hchat, hvalid⟩
  | score => exact ⟨hst, env, henv, rfl⟩
  | evaluate => exact hst
  | review hopen res => exact hst
  | explain hclosed hchat haccept => exact ⟨hst.1, hst.2, env, henv, _, _, hchat, haccept⟩
  | conclude => exact hst

theorem Run.Reaches.accounted {st : Stage R.application} (h : R.Reaches E st) :
    R.Accounted E st := by
  induction h with
  | refl => trivial
  | tail _ hstep ih =>
      obtain ⟨env, henv, hstep⟩ := hstep
      exact hstep.accounted henv ih

end Sources

/-! ## Through all lives -/

section Lives

variable {u : Unicode} {lives : List Life} {id : String} {t : Thread}

/-- A run over blank values is a fresh one. -/
theorem Run.eq_fresh {R : Run} (hbase : R.base = .blank) :
    R = .fresh R.application R.submission.correlationId := by
  obtain ⟨k, base, stale, hstale⟩ := R
  subst hbase
  cases stale with
  | none => rfl
  | some res => cases hstale

/-- The thread of an application that has been submitted once. -/
theorem exists_case (hunicode : ∀ l ∈ lives, l.env.unicode = u)
    (honce : (lives.flatMap Life.submittedIds).count id ≤ 1) (ht : survivors lives id = some t) :
    ∃ env, env.unicode = u ∧ ∃ (a : LoanApplication) (c : String) (st : Stage a),
      a.applicationId = id ∧ a ∈ started lives ∧
        (Run.fresh a c).Accounted (environments lives) st ∧ (Run.fresh a c).At env st t := by
  cases lives with
  | nil => cases ht
  | cons l lives =>
      have hhost := hunicode l List.mem_cons_self
      have hunicode' : ∀ l' ∈ l :: lives, l.env.unicode = l'.env.unicode :=
        fun l' hl' => hhost.trans (hunicode l' hl').symm
      have hkeeps := keeps_survivors_once (l :: lives) hunicode' honce
      obtain ⟨R, hid, ⟨hstarted, hbase⟩, hkept⟩ := hkeeps t ht
      rw [Run.eq_fresh hbase] at hkept
      obtain ⟨st, hreaches, hat⟩ := hkept
      exact ⟨l.env, hhost, _, _, st, hid, hstarted, hreaches.accounted, hat⟩

/-- The thread of one that is complete. -/
theorem exists_completed (hunicode : ∀ l ∈ lives, l.env.unicode = u)
    (honce : (lives.flatMap Life.submittedIds).count id ≤ 1) (ht : survivors lives id = some t)
    (hend : t.next = none) :
    ∃ env, env.unicode = u ∧ ∃ (a : LoanApplication) (c : String) (f : File a)
      (hclosed : ¬ f.Open) (rationale : Rationale), a.applicationId = id ∧ a ∈ started lives ∧
        (Run.fresh a c).Accounted (environments lives) (.completed f hclosed rationale) ∧
        (Run.fresh a c).At env (.completed f hclosed rationale) t := by
  obtain ⟨env, henv, a, c, st, hid, hstarted, haccounted, hat⟩ := exists_case hunicode honce ht
  have hdue := hat.next
  rw [hend] at hdue
  cases st with
  | completed f hclosed rationale =>
      exact ⟨env, henv, a, c, f, hclosed, rationale, hid, hstarted, haccounted, hat⟩
  | submitted | received | extracted | scored | evaluated | explained => cases hdue

/-- A process that is killed when the policy has been checked, before the reviewer is asked. -/
def killedLife : Life := ⟨sampleEnv, [], some (.start escalatedApplication, 4)⟩

theorem stored_killed : survivors [killedLife] "app_1" ≠ none := by
  have hstore : survivors [killedLife] = (leave sampleEnv 4 ⟨fun _ => none, .init⟩
      (.start escalatedApplication)).store := rfl
  rw [hstore, store_leave_start, show "app_1" = escalatedApplication.applicationId from rfl,
    Function.update_self]
  exact Option.some_ne_none _

/-- A process whose model never answers. -/
def outageLife : Life :=
  ⟨.scripted .default sampleDigest none none, [.resolve "app_1" sampleResolution], none⟩

theorem stored_outage : survivors [killedLife, outageLife] "app_1" ≠ none := by
  rw [show [killedLife, outageLife] = [killedLife] ++ [outageLife] from rfl, survivors_snoc,
    outageLife, Life.last_of_not_killed]
  exact store_calls_ne_none recursionLimit _ stored_killed

/-- A process in which a reviewer decides, twice if need be. -/
def reviewingLife : Life :=
  ⟨sampleEnv, [.resolve "app_1" sampleResolution, .resolve "app_1" sampleResolution], none⟩

/-- A kill, then an outage, then a review. -/
def troubledLives : List Life := [killedLife, outageLife, reviewingLife]

theorem forall_troubledLives {P : Life → Prop} (hkilled : P killedLife) (houtage : P outageLife)
    (hreviewing : P reviewingLife) : ∀ l ∈ troubledLives, P l := by
  simp [troubledLives, hkilled, houtage, hreviewing]

theorem unicode_troubled : ∀ l ∈ troubledLives, l.env.unicode = .ascii :=
  forall_troubledLives rfl rfl rfl

theorem scores_troubled :
    ∀ l ∈ [killedLife, outageLife], l.env.Scores sampleEnv.arithmetic .univ := by
  have hsample := (usable_sample.usableFrom .univ 0).scores
  have hsilent : outageLife.env.Scores sampleEnv.arithmetic .univ := by
    rintro n a - reply x ⟨⟩
  simp [killedLife, hsample, hsilent]

theorem exists_reviewed : ∃ t, survivors troubledLives "app_1" = some t ∧ t.next = none := by
  have hunicode : ∀ l ∈ [killedLife, outageLife], l.env.unicode = sampleEnv.unicode := by
    simp [killedLife, outageLife, sampleEnv, Env.scripted]
  have hno : "app_1" ∉ submittedIds ([] ++ []) := by simp [submittedIds]
  have hcalls : SubmitsOnly .univ ([] ++ .resolve "app_1" sampleResolution :: [] ++
      .resolve "app_1" sampleResolution :: []) := fun _ _ => Set.mem_univ _
  have hpast : SubmitsOnly .univ ([] : List Call) := fun _ _ => Set.mem_univ _
  have husable := usable_sample.usableFrom .univ
  have hhealthy := healthy_process hunicode (fun _ _ _ _ => Set.mem_univ _) scores_troubled
    (husable 0).scores hpast (by rintro ⟨⟩)
  have hfinished := finished_of_two_resolutions hhealthy (husable _) hcalls hno
  have hlives : troubledLives = [killedLife, outageLife] ++ [reviewingLife] := rfl
  have hsome : survivors troubledLives "app_1" ≠ none := by
    rw [hlives, survivors_snoc, reviewingLife, Life.last_of_not_killed]
    exact store_calls_ne_none recursionLimit _ stored_outage
  obtain ⟨t, ht⟩ := Option.ne_none_iff_exists'.1 hsome
  exact ⟨t, ht, hfinished t ht⟩

/-- Kills lose no update and repeat none. -/
theorem crash_exactly_once (hunicode : ∀ l ∈ lives, l.env.unicode = u)
    (honce : (lives.flatMap Life.submittedIds).count id ≤ 1) (ht : survivors lives id = some t) :
    ∃ visited, Walked t visited ∧ visited.Nodup ∧
      ∀ e ∈ t.values.auditTrail, e.OfRun id t.values.correlationId := by
  obtain ⟨env, -, a, c, st, rfl, -, -, hat⟩ := exists_case hunicode honce ht
  have hwalked := hat.walked rfl
  refine ⟨st.visited, hwalked, ?_, ?_⟩
  · have hnodup (routed : Bool) : (nodeOrder routed).Nodup := by cases routed <;> decide
    exact (hnodup _).sublist ((List.prefix_append _ _).trans hwalked.ahead).sublist
  · have hholds := @Run.holds_writtenAt env (.fresh a c) st
    rw [hat.values, hholds.correlationId]
    exact @Run.ofRun_writtenAt env (.fresh a c) st

theorem crash_exactly_once_killed : ∃ t, survivors troubledLives "app_1" = some t ∧
    ∃ visited, Walked t visited ∧ visited.Nodup ∧
      ∀ e ∈ t.values.auditTrail, e.OfRun "app_1" t.values.correlationId := by
  obtain ⟨t, ht, -⟩ := exists_reviewed
  exact ⟨t, ht, crash_exactly_once unicode_troubled (by decide) ht⟩

/-- A fresh run reads its own resolution only. -/
theorem Run.reads_fresh {a : LoanApplication} (c : String) (f : File a) :
    (Run.fresh a c).reads f = f.resolution := Option.or_none

/-- The resolution of a completed case was handed to some process. -/
theorem resolution_handed {env : Env} {a : LoanApplication} {c : String} {f : File a}
    {hclosed : ¬ f.Open} {rationale : Rationale} (ht : survivors lives id = some t)
    (hat : (Run.fresh a c).At env (.completed f hclosed rationale) t) :
    ∀ res ∈ f.resolution, res ∈ handed lives id := by
  intro res hres
  have hfiled := @Run.filed_escalationResolution env (.fresh a c) f
  rw [Run.reads_fresh, Option.mem_def.1 hres] at hfiled
  have hvalues : t.values.escalationResolution = some res.modelDump := by
    rw [hat.values]
    exact hfiled
  obtain ⟨res', hres', hdump⟩ := resolution_asked lives id t ht _ hvalues
  rwa [EscalationResolution.modelDump_injective hdump]

/-- A final decision is accounted for, from what the server was asked for. -/
theorem decision_accounted (hunicode : ∀ l ∈ lives, l.env.unicode = u)
    (honce : (lives.flatMap Life.submittedIds).count id ≤ 1) (ht : survivors lives id = some t)
    (hend : t.next = none) :
    ∃ (a : LoanApplication) (x : ExtractedFinancials) (risk : RiskAssessment)
      (resolution : Option EscalationResolution) (rationale : Rationale),
      a.applicationId = id ∧ a ∈ started lives ∧ WasRead (environments lives) a x ∧
      WasAssessed (environments lives) a x risk ∧
      (resolution.isSome = true ↔ Flagged a x risk) ∧ (∀ res ∈ resolution, res ∈ handed lives id) ∧
      WasExplained (environments lives)
        (rationalePayload a risk (evaluatePolicy a x risk) resolution) rationale ∧
      t.values.application = a.modelDump ∧
      t.values.extractedFinancials = some x.modelDump ∧
      t.values.riskAssessment = some risk.modelDump ∧
      t.values.policyResult = some (evaluatePolicy a x risk).modelDump ∧
      t.values.escalationResolution = resolution.map EscalationResolution.modelDump ∧
      t.values.decision =
        some (decisionOf a risk (evaluatePolicy a x risk) resolution rationale).modelDump := by
  obtain ⟨env, -, a, c, f, hclosed, rationale, rfl, hstarted, haccounted, hat⟩ :=
    exists_completed hunicode honce ht hend
  obtain ⟨hread, hassessed, hexplained⟩ := haccounted
  have hhanded := resolution_handed ht hat
  have hresolution := @Run.filed_escalationResolution env (.fresh a c) f
  have hdecision := @Run.decidedAs_decision env (.fresh a c) f rationale
  rw [Run.reads_fresh] at hexplained hresolution
  rw [Run.decided, Run.reads_fresh] at hdecision
  refine ⟨a, f.extracted, f.risk, f.resolution, rationale, rfl, hstarted, hread, hassessed,
    f.isSome_resolution_iff hclosed, hhanded, hexplained, ?_⟩
  rw [hat.values]
  refine ⟨(@Run.holds_writtenAt env (.fresh a c) _).application, ?_,
    @Run.filed_riskAssessment env (.fresh a c) f, @Run.filed_policyResult env (.fresh a c) f,
    hresolution, hdecision⟩
  obtain ⟨x, risk, resolution, hgated⟩ := f
  cases resolution <;> rfl

theorem decision_accounted_killed : ∃ t, survivors troubledLives "app_1" = some t ∧
    ∃ (a : LoanApplication) (x : ExtractedFinancials) (risk : RiskAssessment)
      (resolution : Option EscalationResolution) (rationale : Rationale),
      a.applicationId = "app_1" ∧ a ∈ started troubledLives ∧
      WasRead (environments troubledLives) a x ∧
      WasAssessed (environments troubledLives) a x risk ∧
      (resolution.isSome = true ↔ Flagged a x risk) ∧
      (∀ res ∈ resolution, res ∈ handed troubledLives "app_1") ∧
      WasExplained (environments troubledLives)
        (rationalePayload a risk (evaluatePolicy a x risk) resolution) rationale ∧
      t.values.application = a.modelDump ∧
      t.values.extractedFinancials = some x.modelDump ∧
      t.values.riskAssessment = some risk.modelDump ∧
      t.values.policyResult = some (evaluatePolicy a x risk).modelDump ∧
      t.values.escalationResolution = resolution.map EscalationResolution.modelDump ∧
      t.values.decision =
        some (decisionOf a risk (evaluatePolicy a x risk) resolution rationale).modelDump := by
  obtain ⟨t, ht, hend⟩ := exists_reviewed
  exact ⟨t, ht, decision_accounted unicode_troubled (by decide) ht hend⟩

/-- Whatever has happened to the server and whatever the process has already been through, as soon
as its model replies to what is submitted and its breaker lets calls through again, at most two
resolutions complete a case, unless a model has read figures that cannot be scored. -/
theorem two_resolutions_complete {env : Env} {A : Set LoanApplication}
    (hunicode : ∀ l ∈ lives, l.env.unicode = env.unicode)
    (hsubmits : ∀ l ∈ lives, SubmitsOnly A l.asked)
    (hscores : ∀ l ∈ lives, l.env.Scores env.arithmetic A) (past before between after : List Call)
    (res₁ res₂ : EscalationResolution)
    (hcalls : SubmitsOnly A (past ++ (before ++ .resolve id res₁ :: between ++
      .resolve id res₂ :: after)))
    (husable : UsableFrom env A (process env (survivors lives) past).runtime.chatCalls)
    (hadmits : (process env (survivors lives) past).runtime.Admits env)
    (hstored : (process env (survivors lives) past).store id ≠ none)
    (hno : id ∉ submittedIds (between ++ after)) :
    ∃ t, (process env (survivors lives) (past ++ (before ++ .resolve id res₁ :: between ++
        .resolve id res₂ :: after))).store id = some t ∧
      (ApplicationService.summarize id t).status = "completed" ∧
      t.values.decision.isSome = true := by
  obtain ⟨hpast, hlater⟩ := submitsOnly_append.1 hcalls
  have hhealthy := healthy_process hunicode hsubmits hscores husable.scores hpast hadmits
  have hfinished := finished_of_two_resolutions hhealthy husable hlater hno
  have hkept := (hhealthy.leave_calls husable hlater).kept id
  have hsome := @store_calls_ne_none env _ _ recursionLimit (before ++ .resolve id res₁ ::
    between ++ .resolve id res₂ :: after) hstored
  obtain ⟨t, ht⟩ := Option.ne_none_iff_exists'.1 hsome
  obtain ⟨R, rfl, -, st, -, hat⟩ := hkept t ht
  have hdue := hat.next
  rw [hfinished t ht] at hdue
  refine ⟨t, by rw [process, List.foldl_append]; exact ht, ?_⟩
  cases st with
  | completed f hclosed rationale =>
      have hdecision := @Run.decidedAs_decision env R f rationale
      constructor
      · rw [ApplicationService.summarize, hfinished t ht, hat.values]
        rfl
      · rw [hat.values]
        exact Option.isSome_iff_exists.2 ⟨_, hdecision⟩
  | submitted | received | extracted | scored | evaluated | explained => cases hdue

theorem two_resolutions_complete_killed :
    ∃ t, (process sampleEnv (survivors [killedLife, outageLife]) ([] ++ ([] ++
        .resolve "app_1" sampleResolution :: [] ++
        .resolve "app_1" sampleResolution :: []))).store "app_1" = some t ∧
      (ApplicationService.summarize "app_1" t).status = "completed" ∧
      t.values.decision.isSome = true :=
  @two_resolutions_complete [killedLife, outageLife] "app_1" sampleEnv .univ
    (by simp [killedLife, outageLife, sampleEnv, Env.scripted]) (fun _ _ _ _ => Set.mem_univ _)
    scores_troubled [] [] [] [] sampleResolution sampleResolution (fun _ _ => Set.mem_univ _)
    (usable_sample.usableFrom _ _) (by rintro ⟨⟩) stored_outage (by simp [submittedIds])

end Lives

/-! ## Histories with the same answers -/

/-- A file that has been offered one resolution has taken it exactly when the gate stops it. -/
theorem File.resolution_eq {a : LoanApplication} (f : File a) (hclosed : ¬ f.Open)
    {res : EscalationResolution} (hres : ∀ r ∈ f.resolution, r = res) :
    f.resolution = if Flagged a f.extracted f.risk then some res else none := by
  have hiff := f.isSome_resolution_iff hclosed
  cases hresolution : f.resolution with
  | none =>
      rw [hresolution] at hiff
      rw [if_neg fun h => by cases hiff.2 h]
  | some r =>
      rw [hresolution] at hiff
      rw [if_pos (hiff.1 rfl), hres r hresolution]

/-- What the server is deployed with. -/
structure Deployment where
  unicode : Unicode
  settings : Settings
  nameDigest : String → ℕ
  answer : List Message → Content

/-- The environment has this deployment, and its model answers a prompt always alike, if it does
not fail. The clock, the generated ids and the failures are its own. -/
structure Env.Runs (env : Env) (d : Deployment) : Prop where
  unicode : env.unicode = d.unicode
  settings : env.settings = d.settings
  nameDigest : env.nameDigest = d.nameDigest
  chat : ∀ n messages reply, env.chat n messages = .ok reply → reply = d.answer messages

section Deployment

variable {d : Deployment} {E : Set Env} {a : LoanApplication}

theorem Env.Runs.riskFor_eq {env env' : Env} (h : env.Runs d) (h' : env'.Runs d)
    (a : LoanApplication) (x : ExtractedFinancials) : riskFor env a x = riskFor env' a x := by
  have hname (name : String) : scoreFromName env name = scoreFromName env' name := by
    simp only [scoreFromName, normalizedName, h.unicode, h'.unicode, h.nameDigest, h'.nameDigest]
  have hreport : fetchReport env a.applicantFullName = fetchReport env' a.applicantFullName := by
    simp only [fetchReport, hname]
  rw [riskFor, riskFor, h.settings, h'.settings, hreport]

variable (hd : ∀ env ∈ E, env.Runs d)

include hd

/-- The facts on file are functions of the application. -/
theorem WasRead.unique {E' : Set Env} (hd' : ∀ env ∈ E', env.Runs d) {x x' : ExtractedFinancials}
    (h : WasRead E a x) (h' : WasRead E' a x') : x = x' := by
  obtain ⟨env, henv, n, reply, hchat, hvalid⟩ := h
  obtain ⟨env', henv', n', reply', hchat', hvalid'⟩ := h'
  have hreply := (hd env henv).chat _ _ _ hchat
  have hreply' := (hd' env' henv').chat _ _ _ hchat'
  rw [extractionPrompt, (hd env henv).unicode] at hreply
  rw [extractionPrompt, (hd' env' henv').unicode, ← hreply] at hreply'
  rw [hreply', hvalid] at hvalid'
  exact Except.ok.inj hvalid'

theorem WasAssessed.unique {E' : Set Env} (hd' : ∀ env ∈ E', env.Runs d)
    {x : ExtractedFinancials} {risk risk' : RiskAssessment} (h : WasAssessed E a x risk)
    (h' : WasAssessed E' a x risk') : risk = risk' := by
  obtain ⟨env, henv, rfl⟩ := h
  obtain ⟨env', henv', rfl⟩ := h'
  exact (hd env henv).riskFor_eq (hd' env' henv') a x

theorem WasExplained.unique {E' : Set Env} (hd' : ∀ env ∈ E', env.Runs d) {payload : Json}
    {rationale rationale' : Rationale} (h : WasExplained E payload rationale)
    (h' : WasExplained E' payload rationale') : rationale = rationale' := by
  obtain ⟨env, henv, n, reply, hchat, haccept⟩ := h
  obtain ⟨env', henv', n', reply', hchat', haccept'⟩ := h'
  have hreply := (hd env henv).chat _ _ _ hchat
  rw [(hd' env' henv').chat _ _ _ hchat', ← hreply, haccept] at haccept'
  exact Except.ok.inj haccept'

/-- Two completed files of one application hold the same when they have been offered one
resolution. -/
theorem file_unique {E' : Set Env} (hd' : ∀ env ∈ E', env.Runs d) {c c' : String} {f f' : File a}
    {hclosed : ¬ f.Open} {hclosed' : ¬ f'.Open} {rationale rationale' : Rationale}
    (h : (Run.fresh a c).Accounted E (.completed f hclosed rationale))
    (h' : (Run.fresh a c').Accounted E' (.completed f' hclosed' rationale'))
    {res : EscalationResolution} (hres : ∀ r ∈ f.resolution, r = res)
    (hres' : ∀ r ∈ f'.resolution, r = res) : f = f' ∧ rationale = rationale' := by
  obtain ⟨hread, hassessed, hexplained⟩ := h
  obtain ⟨hread', hassessed', hexplained'⟩ := h'
  have hextracted := hread.unique hd hd' hread'
  rw [hextracted] at hassessed
  have hrisk := hassessed.unique hd hd' hassessed'
  have hresolution := f.resolution_eq hclosed hres
  have hresolution' := f'.resolution_eq hclosed' hres'
  have hfile : f = f' := by
    obtain ⟨x, risk, resolution, hgated⟩ := f
    obtain ⟨x', risk', resolution', hgated'⟩ := f'
    subst hextracted hrisk
    obtain rfl : resolution = resolution' := hresolution.trans hresolution'.symm
    rfl
  subst hfile
  exact ⟨rfl, hexplained.unique hd hd' hexplained'⟩

end Deployment

/-- The record under any correlation id. -/
def UnderwritingState.anonymous (s : UnderwritingState) : UnderwritingState :=
  { s with correlationId := "", auditTrail := s.auditTrail.map AuditEvent.anonymous }

/-- A correlation id occurs in its own field and in that of the events only. -/
theorem Run.anonymous_completed {env : Env} {a : LoanApplication} (c c' : String) (f : File a)
    (h : ¬ f.Open) (rationale : Rationale) :
    ((Run.fresh a c).base.merge ((Run.fresh a c).writtenAt env
        (.completed f h rationale))).anonymous =
      ((Run.fresh a c').base.merge ((Run.fresh a c').writtenAt env
        (.completed f h rationale))).anonymous := by
  obtain ⟨x, risk, resolution, hgated⟩ := f
  cases resolution <;> rfl

/-- Two histories of one deployment, whose model answers a prompt always alike when it answers at
all, end a case with the same record, however often the server is killed or the model fails in
either of them, when one application is submitted and one resolution is offered. Correlation ids
are drawn anew. -/
theorem crash_transparent {d : Deployment} {lives lives' : List Life}
    (hd : ∀ l ∈ lives, l.env.Runs d) (hd' : ∀ l ∈ lives', l.env.Runs d) {id : String}
    (honce : (lives.flatMap Life.submittedIds).count id ≤ 1)
    (honce' : (lives'.flatMap Life.submittedIds).count id ≤ 1) {a : LoanApplication}
    (hstarted : ∀ b ∈ started lives ∪ started lives', b.applicationId = id → b = a)
    {res : EscalationResolution} (hhanded : ∀ r ∈ handed lives id ∪ handed lives' id, r = res)
    {t t' : Thread} (ht : survivors lives id = some t) (ht' : survivors lives' id = some t')
    (hend : t.next = none) (hend' : t'.next = none) :
    t.values.anonymous = t'.values.anonymous := by
  have hE : ∀ env ∈ environments lives, env.Runs d := by
    rintro env ⟨l, hl, rfl⟩
    exact hd l hl
  have hE' : ∀ env ∈ environments lives', env.Runs d := by
    rintro env ⟨l, hl, rfl⟩
    exact hd' l hl
  obtain ⟨env, hunicode, b, c, f, hclosed, rationale, hid, hb, haccounted, hat⟩ :=
    exists_completed (fun l hl => (hd l hl).unicode) honce ht hend
  obtain ⟨env', hunicode', b', c', f', hclosed', rationale', hid', hb', haccounted', hat'⟩ :=
    exists_completed (fun l hl => (hd' l hl).unicode) honce' ht' hend'
  obtain rfl : b = a := hstarted b (.inl hb) hid
  obtain rfl : b' = b := hstarted b' (.inr hb') hid'
  have hres : ∀ r ∈ f.resolution, r = res :=
    fun r hr => hhanded r (.inl (resolution_handed ht hat r hr))
  have hres' : ∀ r ∈ f'.resolution, r = res :=
    fun r hr => hhanded r (.inr (resolution_handed ht' hat' r hr))
  obtain ⟨rfl, rfl⟩ := file_unique hE hE' haccounted haccounted' hres hres'
  rw [hat.values, hat'.values, Run.writtenAt_congr (hunicode.trans hunicode'.symm)]
  exact Run.anonymous_completed c c' f hclosed rationale

/-- The application and the resolution in a process that nothing happens to. -/
def untroubledLife : Life :=
  ⟨sampleEnv, [.start escalatedApplication, .resolve "app_1" sampleResolution], none⟩

def sampleDeployment : Deployment :=
  ⟨sampleEnv.unicode, sampleEnv.settings, sampleEnv.nameDigest,
    fun messages => (sampleEnv.chat 0 messages).toOption.getD ⟨"", none⟩⟩

theorem runs_sample : sampleEnv.Runs sampleDeployment := by
  refine ⟨rfl, rfl, rfl, fun n messages reply hchat => ?_⟩
  change reply = (sampleEnv.chat n messages).toOption.getD _
  rw [hchat]
  rfl

theorem runs_outage : outageLife.env.Runs sampleDeployment := by
  refine ⟨rfl, rfl, rfl, fun n messages reply hchat => ?_⟩
  obtain ⟨e, he⟩ : ∃ e, outageLife.env.chat n messages = .error e := by
    cases hjson : (humanContent messages).json <;> simp [outageLife, Env.scripted, hjson]
  rw [he] at hchat
  cases hchat

theorem crash_transparent_killed :
    ∃ t t', survivors troubledLives "app_1" = some t ∧
      survivors [untroubledLife] "app_1" = some t' ∧ t.values.anonymous = t'.values.anonymous := by
  obtain ⟨t, ht, hend⟩ := exists_reviewed
  obtain ⟨rationale, hstore, -⟩ := run_resolve_completes (replies_sample escalatedApplication)
    needsHuman_escalated sampleResolution
  rw [← survivors_singleton] at hstore
  have hstarted : ∀ b ∈ started troubledLives ∪ started [untroubledLife],
      b.applicationId = "app_1" → b = escalatedApplication := by
    simp [started, troubledLives, killedLife, outageLife, reviewingLife, untroubledLife, Life.asked]
  have hhanded : ∀ r ∈ handed troubledLives "app_1" ∪ handed [untroubledLife] "app_1",
      r = sampleResolution := by
    simp [handed, troubledLives, killedLife, outageLife, reviewingLife, untroubledLife, Life.asked]
  refine ⟨t, _, ht, hstore, ?_⟩
  exact crash_transparent (forall_troubledLives runs_sample runs_outage runs_sample)
    (by simpa [untroubledLife] using runs_sample) (by decide) (by decide) hstarted hhanded ht hstore
    hend rfl

end Underwriting
