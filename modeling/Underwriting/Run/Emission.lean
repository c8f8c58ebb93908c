import Underwriting.Run.Reachable

/-!
# What a run gives to the audit logger

The trail of a run is what its nodes return; the audit logger is given an event inside the
node that records it. The two differ for the node that pauses: it has emitted its request
when it is abandoned, and when it is resumed it starts over and emits the request once more.
`Run.emitted` is what a case has emitted so far. Every move of a case emits what is missing
there and nothing else, `Run.emits_begin` and `Run.emits_resume`, and only a case that has
been with a reviewer has emitted anything else than its trail.
-/

namespace Underwriting

open Python

theorem audited_launched (r : Runtime) (k : Submission) :
    audited (r.launched k).log = audited r.log := by
  rw [Runtime.launched, audited_append, audited_of_logger_ne (by simp [auditLogger]),
    List.append_nil]

theorem audited_resolving (r : Runtime) (id : String) (res : EscalationResolution) :
    audited (r.resolving id res).log = audited r.log := by
  rw [Runtime.resolving, audited_append, audited_of_logger_ne (by simp [auditLogger]),
    List.append_nil]

namespace Run

variable (env : Env) (R : Run)

/-- The request that the human escalation emits each time it is executed. -/
def requested (x : ExtractedFinancials) : List AuditEvent :=
  (escalationRequest env R.submission (R.payload env x)).auditTrail

/-- What a case has emitted when it has passed the gate. -/
def passed (x : ExtractedFinancials) : Option EscalationResolution → List AuditEvent
  | none => (R.evaluated env x).auditTrail
  | some res => (R.evaluated env x).auditTrail ++ R.requested env x ++
      (escalationUpdate env R.submission (R.payload env x) res).auditTrail

/-- Everything the run has emitted so far. -/
def emitted : Progress env R.application → List AuditEvent
  | .extracting => (R.received env).auditTrail
  | .scoring x _ => (R.extracted env x).auditTrail
  | .awaiting x _ => (R.evaluated env x).auditTrail ++ R.requested env x
  | .explaining c => R.passed env c.extracted c.resolution
  | .completed c rationale => R.passed env c.extracted c.resolution ++
      (explainabilityUpdate env R.submission (R.decision env c rationale) ++
        outputUpdate env R.submission (R.decision env c rationale).outcome).auditTrail

/-- The case has been handed to a reviewer. -/
def Routed : Progress env R.application → Prop
  | .extracting | .scoring _ _ => False
  | .awaiting _ _ => True
  | .explaining c | .completed c _ => c.resolution.isSome = true

variable {env} {R}

/-! ## Emitted and returned -/

theorem emitted_eq_written {p : Progress env R.application} (h : ¬ R.Routed env p) :
    R.emitted env p = (R.written env p).auditTrail := by
  cases p with
  | extracting => rfl
  | scoring x hx => rfl
  | awaiting x hx => exact absurd trivial h
  | explaining c =>
      obtain ⟨x, resolution, hgated⟩ := c
      cases resolution with
      | none => rfl
      | some res => exact absurd rfl h
  | completed c rationale =>
      obtain ⟨x, resolution, hgated⟩ := c
      cases resolution with
      | none => exact (List.append_assoc _ _ _).symm
      | some res => exact absurd rfl h

/-- The request of a case that went to a reviewer is one event too many. -/
theorem length_emitted {p : Progress env R.application} (h : R.Routed env p) :
    (R.emitted env p).length = (R.written env p).auditTrail.length + 1 := by
  cases p with
  | extracting => exact absurd h id
  | scoring x hx => exact absurd h id
  | awaiting x hx => rfl
  | explaining c =>
      obtain ⟨x, resolution, hgated⟩ := c
      cases resolution with
      | none => cases h
      | some res => rfl
  | completed c rationale =>
      obtain ⟨x, resolution, hgated⟩ := c
      cases resolution with
      | none => cases h
      | some res => rfl

theorem map_emitted_eq_iff (p : Progress env R.application) :
    (R.emitted env p).map AuditEvent.toJson = (R.written env p).auditTrail.map AuditEvent.toJson ↔
      ¬ R.Routed env p := by
  constructor
  · intro h hrouted
    have hlength := congrArg List.length h
    rw [List.length_map, List.length_map, length_emitted hrouted] at hlength
    omega
  · intro h
    rw [emitted_eq_written h]

/-! ## Moves -/

/-- A move from a case that has emitted `sofar` emits the rest of what its outcome has. -/
def Emits (sofar : List AuditEvent) (r : Runtime) (o : R.Outcome env) : Prop :=
  ∃ events : List AuditEvent, R.emitted env o.2.1 = sofar ++ events ∧
    audited o.2.2.log = audited r.log ++ events.map AuditEvent.toJson

theorem emits_explain (c : Settled env R.application) (r : Runtime) :
    Emits (R.passed env c.extracted c.resolution) r (R.explain env c r) := by
  have huntouched := writeRationale_untouched env R.application c.extracted (R.effective env c) r
  rcases hw : writeRationale env R.application c.extracted (R.effective env c) r with
    ⟨e | rationale, r'⟩
  · rw [hw] at huntouched
    rw [explain_of_error hw]
    exact ⟨[], (List.append_nil _).symm, huntouched.audited.trans (List.append_nil _).symm⟩
  · rw [hw] at huntouched
    rw [explain_of_ok hw]
    refine ⟨_, rfl, ?_⟩
    rw [Runtime.audited_noted, huntouched.audited]

/-- Figures that cannot be scored emit nothing. -/
theorem emits_unscored (x : ExtractedFinancials) (h : Unscorable env.arithmetic R.application x)
    (r : Runtime) : Emits (R.extracted env x).auditTrail r (R.unscored env x h r) := by
  have huntouched := getCreditReport_untouched env R.application.applicantFullName r
  exact ⟨[], (List.append_nil _).symm, huntouched.audited.trans (List.append_nil _).symm⟩

/-- What an extraction is followed by up to the gate. -/
theorem audited_appraised (x : ExtractedFinancials) (r : Runtime) :
    ∃ events : List AuditEvent,
      (R.evaluated env x).auditTrail = (R.received env).auditTrail ++ events ∧
      audited (R.appraised env x r).log = audited r.log ++ events.map AuditEvent.toJson := by
  have huntouched := getCreditReport_untouched env R.application.applicantFullName
    (r.noted (extractionUpdate env R.submission x))
  refine ⟨(extractionUpdate env R.submission x).auditTrail ++
    (riskUpdate env R.submission (riskFor env R.application x) ++
      policyUpdate env R.submission (policyFor env R.application x)).auditTrail, ?_, ?_⟩
  · simp only [evaluated, scored, extracted, StateUpdate.append_auditTrail, List.append_assoc]
  · rw [appraised, Runtime.audited_noted, huntouched.audited, Runtime.audited_noted,
      List.map_append, List.append_assoc]

theorem emits_appraise (x : ExtractedFinancials) (r : Runtime) :
    Emits (R.received env).auditTrail r (R.appraise env x r) := by
  by_cases hscorable : Unscorable env.arithmetic R.application x
  · rw [appraise_of_unscorable hscorable]
    obtain ⟨events, hemitted, haudited⟩ := emits_unscored x hscorable
      (r.noted (extractionUpdate env R.submission x))
    refine ⟨(extractionUpdate env R.submission x).auditTrail ++ events, ?_, ?_⟩
    · rw [hemitted, ← List.append_assoc]
      rfl
    · rw [haudited, Runtime.audited_noted, List.map_append, List.append_assoc]
  obtain ⟨events, hevents, haudited⟩ := @audited_appraised env R x r
  by_cases h : NeedsHuman env R.application x
  · rw [appraise_of_needsHuman hscorable h]
    refine ⟨events ++ R.requested env x, ?_, ?_⟩
    · rw [emitted, hevents, List.append_assoc]
    · rw [Runtime.audited_noted, haudited, List.map_append, List.append_assoc]
      rfl
  · rw [appraise_of_not_needsHuman hscorable h]
    obtain ⟨events', hemitted, haudited'⟩ :=
      emits_explain (.automatic x h) (R.appraised env x r)
    refine ⟨events ++ events', ?_, ?_⟩
    · rw [hemitted, ← List.append_assoc, ← hevents]
      rfl
    · rw [haudited', haudited, List.map_append, List.append_assoc]

theorem emits_extract (r : Runtime) : Emits (R.received env).auditTrail r (R.extract env r) := by
  have huntouched := readDocument_untouched env R.application r
  rcases hread : readDocument env R.application r with ⟨e | x, r'⟩
  · rw [hread] at huntouched
    rw [extract_of_error hread]
    exact ⟨[], (List.append_nil _).symm, huntouched.audited.trans (List.append_nil _).symm⟩
  · rw [hread] at huntouched
    rw [extract_of_ok hread]
    obtain ⟨events, hemitted, haudited⟩ := @emits_appraise env R x r'
    exact ⟨events, hemitted, by rw [haudited, huntouched.audited]⟩

/-- A submission emits everything the case has emitted. -/
theorem emits_begin (r : Runtime) : Emits [] r (R.begin env r) := by
  obtain ⟨events, hemitted, haudited⟩ :=
    @emits_extract env R (r.noted (intakeUpdate env R.submission))
  refine ⟨(R.received env).auditTrail ++ events, hemitted, ?_⟩
  rw [begin, haudited, Runtime.audited_noted, List.map_append, List.append_assoc]
  rfl

theorem emits_resume (res : EscalationResolution) (r : Runtime) (p : Progress env R.application) :
    Emits (R.emitted env p) r (R.resume env res r p) := by
  cases p with
  | extracting => exact emits_extract r
  | scoring x h => exact emits_unscored x h r
  | awaiting x h =>
      obtain ⟨events, hemitted, haudited⟩ := @emits_explain env R (.reviewed x h res)
        (r.noted (escalationUpdate env R.submission (R.payload env x) res))
      refine
        ⟨(escalationUpdate env R.submission (R.payload env x) res).auditTrail ++ events, ?_, ?_⟩
      · rw [← List.append_assoc]
        exact hemitted
      · rw [resume_awaiting, haudited, Runtime.audited_noted, List.map_append, List.append_assoc]
  | explaining c => exact emits_explain c r
  | completed c rationale =>
      exact ⟨[], (List.append_nil _).symm, (List.append_nil _).symm⟩

/-! ## Reviewers -/

theorem routed_explain {c : Settled env R.application} {r : Runtime} :
    R.Routed env (R.explain env c r).2.1 ↔ c.resolution.isSome = true := by
  rw [explain]
  split <;> rfl

theorem due_explain_ne (c : Settled env R.application) (r : Runtime) :
    R.due env (R.explain env c r).2.1 ≠ some .humanEscalation := by
  rw [explain]
  split
  · exact (Option.some_ne_none _).symm
  · simp [due]

theorem routed_of_due {p : Progress env R.application} (h : R.due env p = some .humanEscalation) :
    R.Routed env p := by
  cases p with
  | awaiting x hx => trivial
  | extracting => cases h
  | scoring x hx => cases h
  | explaining c => cases h
  | completed c rationale => cases h

/-- An extraction hands its case to a reviewer by suspending it. -/
theorem routed_extract_iff (r : Runtime) :
    R.Routed env (R.extract env r).2.1 ↔
      R.due env (R.extract env r).2.1 = some .humanEscalation := by
  refine ⟨fun h => ?_, routed_of_due⟩
  rcases hread : readDocument env R.application r with ⟨e | x, r'⟩
  · rw [extract_of_error hread] at h
    exact h.elim
  · rw [extract_of_ok hread] at h ⊢
    by_cases hscorable : Unscorable env.arithmetic R.application x
    · rw [appraise_of_unscorable hscorable] at h
      exact h.elim
    by_cases hhuman : NeedsHuman env R.application x
    · rw [appraise_of_needsHuman hscorable hhuman]
      rfl
    · rw [appraise_of_not_needsHuman hscorable hhuman, routed_explain] at h
      cases h

/-- A case that has been handed to a reviewer stays so, and any other case is handed to one
by being suspended. -/
theorem routed_resume_iff (res : EscalationResolution) (r : Runtime)
    (p : Progress env R.application) :
    R.Routed env (R.resume env res r p).2.1 ↔
      R.Routed env p ∨ R.due env (R.resume env res r p).2.1 = some .humanEscalation := by
  cases p with
  | extracting => exact (routed_extract_iff r).trans (or_iff_right id).symm
  | scoring x h => exact iff_of_false id (by simp [Routed, resume, unscored, due])
  | awaiting x h =>
      refine iff_of_true ?_ (.inl trivial)
      rw [resume_awaiting, routed_explain]
      rfl
  | explaining c =>
      have hdue := due_explain_ne c r
      rw [resume, routed_explain, or_iff_left hdue]
      rfl
  | completed c rationale =>
      exact (or_iff_left (Option.some_ne_none _).symm).symm

end Run

/-! ## Events of a run -/

/-- The event belongs to the run `correlationId` of an application. -/
def AuditEvent.OfRun (applicationId correlationId : String) (e : AuditEvent) : Prop :=
  e.applicationId = applicationId ∧ e.correlationId = correlationId

instance (applicationId correlationId : String) (e : AuditEvent) :
    Decidable (e.OfRun applicationId correlationId) :=
  inferInstanceAs (Decidable (_ ∧ _))

/-- All events of the update belong to the run of `k`. -/
def StateUpdate.OfRun (k : Submission) (u : StateUpdate) : Prop :=
  ∀ e ∈ u.auditTrail, e.OfRun k.application.applicationId k.correlationId

section OfRun

variable {env : Env} {k : Submission} {u v : StateUpdate}

theorem StateUpdate.ofRun_append (hu : u.OfRun k) (hv : v.OfRun k) : (u ++ v).OfRun k := by
  intro e he
  rcases List.mem_append.1 he with he | he
  · exact hu e he
  · exact hv e he

theorem StateUpdate.ofRun_of_event {actor action : String} {details : List (String × Json)}
    (h : u.auditTrail = [k.event env actor action details]) : u.OfRun k := by
  intro e he
  rw [h, List.mem_singleton] at he
  rw [he]
  exact ⟨rfl, rfl⟩

theorem ofRun_escalationRequest (payload : List (String × Json)) :
    (escalationRequest env k payload).OfRun k := StateUpdate.ofRun_of_event rfl

theorem ofRun_escalationUpdate (payload : List (String × Json)) (res : EscalationResolution) :
    (escalationUpdate env k payload res).OfRun k :=
  StateUpdate.ofRun_append (ofRun_escalationRequest payload) (StateUpdate.ofRun_of_event rfl)

theorem ofRun_conclusion (decision : Decision) (outcome : DecisionOutcome) :
    (explainabilityUpdate env k decision ++ outputUpdate env k outcome).OfRun k :=
  StateUpdate.ofRun_append (StateUpdate.ofRun_of_event rfl) (StateUpdate.ofRun_of_event rfl)

end OfRun

namespace Run

variable {env : Env} {R : Run}

theorem ofRun_received : (R.received env).OfRun R.submission :=
  StateUpdate.ofRun_append (fun _ he => nomatch he) (StateUpdate.ofRun_of_event rfl)

theorem ofRun_extracted (x : ExtractedFinancials) : (R.extracted env x).OfRun R.submission :=
  StateUpdate.ofRun_append ofRun_received (StateUpdate.ofRun_of_event rfl)

theorem ofRun_evaluated (x : ExtractedFinancials) : (R.evaluated env x).OfRun R.submission := by
  refine StateUpdate.ofRun_append (StateUpdate.ofRun_append (ofRun_extracted x) ?_) ?_ <;>
    exact StateUpdate.ofRun_of_event rfl

theorem ofRun_written (p : Progress env R.application) : (R.written env p).OfRun R.submission := by
  have hresolved (x : ExtractedFinancials) (resolution : Option EscalationResolution) :
      (R.resolved env x resolution).OfRun R.submission := by
    cases resolution with
    | none => exact ofRun_evaluated x
    | some res => exact StateUpdate.ofRun_append (ofRun_evaluated x) (ofRun_escalationUpdate _ res)
  cases p with
  | extracting => exact ofRun_received
  | scoring x h => exact ofRun_extracted x
  | awaiting x h => exact ofRun_evaluated x
  | explaining c => exact hresolved c.extracted c.resolution
  | completed c rationale =>
      exact StateUpdate.ofRun_append (StateUpdate.ofRun_append (hresolved _ _)
        (StateUpdate.ofRun_of_event rfl)) (StateUpdate.ofRun_of_event rfl)

theorem ofRun_emitted (p : Progress env R.application) :
    ∀ e ∈ R.emitted env p,
      e.OfRun R.application.applicationId R.submission.correlationId := by
  have hrequested (x : ExtractedFinancials) :
      (R.evaluated env x ++ escalationRequest env R.submission (R.payload env x)).OfRun
        R.submission :=
    StateUpdate.ofRun_append (ofRun_evaluated x) (ofRun_escalationRequest _)
  have hpassed (x : ExtractedFinancials) (resolution : Option EscalationResolution) :
      ∀ e ∈ R.passed env x resolution,
        e.OfRun R.application.applicationId R.submission.correlationId := by
    cases resolution with
    | none => exact ofRun_evaluated x
    | some res =>
        exact StateUpdate.ofRun_append (hrequested x) (ofRun_escalationUpdate _ res)
  cases p with
  | extracting => exact ofRun_received
  | scoring x h => exact ofRun_extracted x
  | awaiting x h => exact hrequested x
  | explaining c => exact hpassed c.extracted c.resolution
  | completed c rationale =>
      intro e he
      rcases List.mem_append.1 he with he | he
      · exact hpassed _ _ e he
      · exact ofRun_conclusion _ _ e he

/-- The intake leaves an event of the run in its trail. -/
theorem exists_ofRun_written (p : Progress env R.application) :
    ∃ e ∈ (R.written env p).auditTrail,
      e.OfRun R.application.applicationId R.submission.correlationId := by
  have hne : ∃ e rest, (R.written env p).auditTrail = e :: rest := by
    cases p with
    | extracting => exact ⟨_, _, rfl⟩
    | scoring x h => exact ⟨_, _, rfl⟩
    | awaiting x h => exact ⟨_, _, rfl⟩
    | explaining c =>
        obtain ⟨x, resolution, hgated⟩ := c
        cases resolution <;> exact ⟨_, _, rfl⟩
    | completed c rationale =>
        obtain ⟨x, resolution, hgated⟩ := c
        cases resolution <;> exact ⟨_, _, rfl⟩
  obtain ⟨e, rest, h⟩ := hne
  have hmem : e ∈ (R.written env p).auditTrail := by
    rw [h]
    exact List.mem_cons_self
  exact ⟨e, hmem, ofRun_written p e hmem⟩

end Run

end Underwriting
