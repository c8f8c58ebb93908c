import Underwriting.Guarantees.PendingNodes
import Underwriting.Run.Emission

/-!
# Audit fidelity

An event names its application and the correlation id of its run, so what the audit logger
has been given for a run can be compared with what the stored trail holds of it. In every
reachable state the two agree exactly for the runs that have never been suspended. A run
that is suspended has emitted a request that its trail does not show, and once it is resumed
the request has been emitted twice for one entry of the trail.
-/

namespace Underwriting

open Python ApplicationService

/-! ## Entries of a run -/

/-- The entry of the audit logger belongs to the run `correlationId` of an application. -/
def EntryOfRun (applicationId correlationId : String) (entry : Json) : Prop :=
  (entry.get? "application_id").bind Json.asStr = some applicationId ∧
    (entry.get? "correlation_id").bind Json.asStr = some correlationId

instance (applicationId correlationId : String) (entry : Json) :
    Decidable (EntryOfRun applicationId correlationId entry) :=
  inferInstanceAs (Decidable (_ ∧ _))

/-- What the audit logger has been given for a run, in order. -/
def emittedFor (applicationId correlationId : String) (r : Runtime) : List Json :=
  (audited r.log).filter (EntryOfRun applicationId correlationId)

/-- What the stored trail holds of a run. -/
def trailFor (applicationId correlationId : String) (t : Thread) : List Json :=
  (t.values.auditTrail.filter (AuditEvent.OfRun applicationId correlationId)).map AuditEvent.toJson

theorem entryOfRun_toJson (applicationId correlationId : String) (e : AuditEvent) :
    EntryOfRun applicationId correlationId e.toJson ↔ e.OfRun applicationId correlationId := by
  simp only [EntryOfRun, AuditEvent.OfRun, AuditEvent.toJson_applicationId,
    AuditEvent.toJson_correlationId, Option.some.injEq]

theorem filter_map_toJson (applicationId correlationId : String) (events : List AuditEvent) :
    (events.map AuditEvent.toJson).filter (EntryOfRun applicationId correlationId) =
      (events.filter (AuditEvent.OfRun applicationId correlationId)).map AuditEvent.toJson := by
  rw [List.filter_map]
  congr 1
  refine List.filter_congr fun e _ => ?_
  simp only [Function.comp_apply, entryOfRun_toJson]

section Filter

variable {applicationId correlationId : String} {events : List AuditEvent}

theorem filter_eq_self_of_ofRun (h : ∀ e ∈ events, e.OfRun applicationId correlationId) :
    events.filter (AuditEvent.OfRun applicationId correlationId) = events := by
  rw [List.filter_eq_self]
  intro e he
  exact decide_eq_true (h e he)

theorem filter_eq_nil_of_ofRun {applicationId' correlationId' : String}
    (h : ∀ e ∈ events, e.OfRun applicationId correlationId)
    (hne : ¬ (applicationId = applicationId' ∧ correlationId = correlationId')) :
    events.filter (AuditEvent.OfRun applicationId' correlationId') = [] := by
  rw [List.filter_eq_nil_iff]
  intro e he hrun
  obtain ⟨h₁, h₂⟩ := h e he
  obtain ⟨h₁', h₂'⟩ := of_decide_eq_true hrun
  exact hne ⟨h₁.symm.trans h₁', h₂.symm.trans h₂'⟩

end Filter

/-! ## Moves and the entries of a run -/

namespace Run

variable {env : Env} {R : Run} {sofar : List AuditEvent} {r r₀ : Runtime} {o : R.Outcome env}

/-- What a move emits is about its own run. -/
theorem exists_events_of_emits (h : Emits sofar r o) : ∃ events,
    (∀ e ∈ events, e.OfRun R.application.applicationId R.submission.correlationId) ∧
      R.emitted env o.2.1 = sofar ++ events ∧
      audited o.2.2.log = audited r.log ++ events.map AuditEvent.toJson := by
  obtain ⟨events, hemitted, haudited⟩ := h
  refine ⟨events, ?_, hemitted, haudited⟩
  intro e he
  apply ofRun_emitted o.2.1 e
  rw [hemitted]
  exact List.mem_append_right _ he

/-- A move emits for its own run what the case has emitted since. -/
theorem emittedFor_own (h : Emits sofar r o) (hr : audited r.log = audited r₀.log)
    (hsofar : emittedFor R.application.applicationId R.submission.correlationId r₀ =
      sofar.map AuditEvent.toJson) :
    emittedFor R.application.applicationId R.submission.correlationId o.2.2 =
      (R.emitted env o.2.1).map AuditEvent.toJson := by
  obtain ⟨events, hevents, hemitted, haudited⟩ := exists_events_of_emits h
  rw [emittedFor] at hsofar ⊢
  rw [haudited, hr, List.filter_append, hsofar, filter_map_toJson, filter_eq_self_of_ofRun hevents,
    hemitted, List.map_append]

/-- A move emits nothing for another run. -/
theorem emittedFor_other (h : Emits sofar r o) (hr : audited r.log = audited r₀.log)
    {applicationId correlationId : String}
    (hne : ¬ (R.application.applicationId = applicationId ∧
      R.submission.correlationId = correlationId)) :
    emittedFor applicationId correlationId o.2.2 = emittedFor applicationId correlationId r₀ := by
  obtain ⟨events, hevents, -, haudited⟩ := exists_events_of_emits h
  rw [emittedFor, emittedFor, haudited, hr, List.filter_append, filter_map_toJson,
    filter_eq_nil_of_ofRun hevents hne, List.map_nil, List.append_nil]

/-- The trail of a thread holds of its current run what the run has written. -/
theorem trailFor_own (p : Progress env R.application)
    (hbase : R.base.auditTrail.filter
      (AuditEvent.OfRun R.application.applicationId R.submission.correlationId) = []) :
    trailFor R.application.applicationId R.submission.correlationId (R.thread env p) =
      (R.written env p).auditTrail.map AuditEvent.toJson := by
  have hthread : (R.thread env p).values.auditTrail =
      R.base.auditTrail ++ (R.written env p).auditTrail := rfl
  rw [trailFor, hthread, List.filter_append, hbase, List.nil_append,
    filter_eq_self_of_ofRun (ofRun_written p)]

/-- Of another run it holds what it held before. -/
theorem trailFor_other (p : Progress env R.application) {applicationId correlationId : String}
    (hne : ¬ (R.application.applicationId = applicationId ∧
      R.submission.correlationId = correlationId)) :
    trailFor applicationId correlationId (R.thread env p) =
      (R.base.auditTrail.filter (AuditEvent.OfRun applicationId correlationId)).map
        AuditEvent.toJson := by
  have hthread : (R.thread env p).values.auditTrail =
      R.base.auditTrail ++ (R.written env p).auditTrail := rfl
  rw [trailFor, hthread, List.filter_append, filter_eq_nil_of_ofRun (ofRun_written p) hne,
    List.append_nil]

end Run

/-! ## Generated ids -/

/-- The correlation id that the `n`-th generated id gives. -/
def correlationIdOf (env : Env) (n : ℕ) : String := s!"corr_{env.uuid n}"

theorem correlationIdOf_injective (env : Env) : Function.Injective (correlationIdOf env) := by
  intro m n h
  have hlist : "corr_".toList ++ (env.uuid m).toList = "corr_".toList ++ (env.uuid n).toList := by
    rw [← String.toList_append, ← String.toList_append]
    exact congrArg String.toList h
  exact env.uuid.injective (String.toList_injective (List.append_cancel_left hlist))

/-- No event of a run that has not been started is emitted or stored. -/
structure Numbered (env : Env) (w : World) : Prop where
  emitted : ∀ n, w.runtime.uuids ≤ n → ∀ id, emittedFor id (correlationIdOf env n) w.runtime = []
  stored : ∀ n, w.runtime.uuids ≤ n → ∀ id id' t, w.store id' = some t →
    t.values.auditTrail.filter (AuditEvent.OfRun id (correlationIdOf env n)) = []

section Numbered

variable {env : Env} {w : World}

theorem numbered_init (env : Env) : Numbered env .init :=
  ⟨fun _ _ _ => rfl, fun _ _ _ _ _ h => nomatch h⟩

theorem Numbered.served (hw : Numbered env w) {R : Run} {sofar : List AuditEvent} {r : Runtime}
    {o : R.Outcome env} (hemits : Run.Emits sofar r o)
    (hr : audited r.log = audited w.runtime.log) (hmono : w.runtime.uuids ≤ o.2.2.uuids)
    (hrun : ∀ n, o.2.2.uuids ≤ n → R.submission.correlationId ≠ correlationIdOf env n)
    (hbase : ∀ n, o.2.2.uuids ≤ n → ∀ id,
      R.base.auditTrail.filter (AuditEvent.OfRun id (correlationIdOf env n)) = []) :
    Numbered env (Run.served o w).2 := by
  constructor
  · intro n hn id
    rw [Run.runtime_served, Run.emittedFor_other hemits hr fun h => hrun n hn h.2]
    exact hw.emitted n (hmono.trans hn) id
  · intro n hn id id' t ht
    by_cases hid : id' = R.application.applicationId
    · rw [hid, Run.store_served, Option.some.injEq] at ht
      subst ht
      have hthread : (R.thread env o.2.1).values.auditTrail =
          R.base.auditTrail ++ (R.written env o.2.1).auditTrail := rfl
      rw [hthread, List.filter_append, hbase n hn id, List.nil_append]
      exact filter_eq_nil_of_ofRun (Run.ofRun_written o.2.1) fun h => hrun n hn h.2
    · rw [Run.store_served_of_ne o w hid] at ht
      exact hw.stored n (hmono.trans hn) id id' t ht

/-- The run of a stored thread has been started. -/
theorem Numbered.correlationId_ne (hw : Numbered env w) {R : Run} {p : Progress env R.application}
    {id : String} (hstore : w.store id = some (R.thread env p)) {n : ℕ}
    (hn : w.runtime.uuids ≤ n) : R.submission.correlationId ≠ correlationIdOf env n := by
  intro h
  have hnone := hw.stored n hn R.application.applicationId _ _ hstore
  obtain ⟨e, he, hrun⟩ := Run.exists_ofRun_written p
  rw [h] at hrun
  have hmem : e ∈ (R.thread env p).values.auditTrail := List.mem_append_right _ he
  exact List.filter_eq_nil_iff.1 hnone e hmem (decide_eq_true hrun)

theorem Numbered.storedValues (hw : Numbered env w) {n : ℕ} (hn : w.runtime.uuids ≤ n)
    (id id' : String) : (storedValues w id').auditTrail.filter
      (AuditEvent.OfRun id (correlationIdOf env n)) = [] := by
  cases hstore : w.store id' with
  | none =>
      rw [ApplicationService.storedValues, hstore]
      rfl
  | some t =>
      rw [storedValues_of_store hstore]
      exact hw.stored n hn id id' t hstore

theorem Numbered.exec (hw : Numbered env w) (hsound : Sound env (fun _ => True) w) (c : Call) :
    Numbered env (exec env w c) := by
  rcases hsound.exec_cases c with ⟨heq, -⟩ | ⟨R, -, hcorr, hbase, heq⟩ |
    ⟨R, p, res, -, -, hstore, -, heq⟩
  · rw [heq]
    exact hw
  · rw [heq]
    have huuids : (R.begin env (w.runtime.launched R.submission)).2.2.uuids = w.runtime.uuids + 1 :=
      (Run.steady_begin _).uuids
    refine hw.served (Run.emits_begin _) (audited_launched _ _) (by omega) (fun n hn h => ?_)
      fun n hn id => ?_
    · have hsame := correlationIdOf_injective env (hcorr.symm.trans h)
      omega
    · rw [hbase]
      exact hw.storedValues (by omega) id _
  · rw [heq]
    have huuids : (R.resume env res (w.runtime.resolving R.application.applicationId res)
        p).2.2.uuids = w.runtime.uuids := (Run.steady_resume res _ p).uuids
    refine hw.served (Run.emits_resume res _ p) (audited_resolving _ _ _) huuids.ge
      (fun n hn => hw.correlationId_ne hstore (by omega)) fun n hn id => ?_
    have hnone := hw.stored n (by omega) id _ _ hstore
    have hthread : (R.thread env p).values.auditTrail =
        R.base.auditTrail ++ (R.written env p).auditTrail := rfl
    rw [hthread, List.filter_append, List.append_eq_nil_iff] at hnone
    exact hnone.1

theorem numbered_run (env : Env) (calls : List Call) : Numbered env (run env calls .init) := by
  refine (run_induction env (I := fun w => Sound env (fun _ => True) w ∧ Numbered env w)
    (fun w c h => ?_) calls ⟨sound_init env _, numbered_init env⟩).2
  exact ⟨h.1.exec c fun _ _ => trivial, h.2.exec h.1 c⟩

end Numbered

/-! ## One run through all calls -/

/-- The run of a submission is suspended in this world. -/
def PausedAt (k : Submission) (w : World) : Prop :=
  ∃ t payload, w.store k.application.applicationId = some t ∧
    t.values.correlationId = k.correlationId ∧ Suspended t payload

/-- What is known of a run that has or has not been suspended so far: it is the current run of
its thread, or a later one has taken the thread over and nothing of the run changes. -/
inductive Traced (env : Env) (k : Submission) (paused : Prop) (w : World) : Prop
  | current (R : Run) (p : Progress env R.application) (hk : R.submission = k)
      (hstore : w.store R.application.applicationId = some (R.thread env p))
      (hemitted : emittedFor R.application.applicationId R.submission.correlationId w.runtime =
        (R.emitted env p).map AuditEvent.toJson)
      (hbase : R.base.auditTrail.filter
        (AuditEvent.OfRun R.application.applicationId R.submission.correlationId) = [])
      (hpaused : R.Routed env p ↔ paused)
  | superseded (t : Thread) (hstore : w.store k.application.applicationId = some t)
      (hne : t.values.correlationId ≠ k.correlationId)
      (hexact : emittedFor k.application.applicationId k.correlationId w.runtime =
        trailFor k.application.applicationId k.correlationId t ↔ ¬ paused)

theorem Run.exists_suspended_iff {env : Env} {R : Run} (p : Progress env R.application) :
    (∃ payload, Suspended (R.thread env p) payload) ↔ R.due env p = some .humanEscalation := by
  constructor
  · intro h
    obtain ⟨payload, hsuspended⟩ := h
    exact hsuspended.1
  · intro h
    cases p with
    | awaiting x hhuman => exact ⟨_, (suspended_awaiting_iff x hhuman _).2 rfl⟩
    | extracting => cases h
    | scoring x hx => cases h
    | explaining c => cases h
    | completed c rationale => cases h

theorem Run.correlationId_thread {env : Env} {R : Run} (p : Progress env R.application) :
    (R.thread env p).values.correlationId = R.submission.correlationId := by
  cases p with
  | extracting => rfl
  | scoring x h => rfl
  | awaiting x h => rfl
  | explaining c =>
      obtain ⟨x, resolution, hgated⟩ := c
      cases resolution <;> rfl
  | completed c rationale =>
      obtain ⟨x, resolution, hgated⟩ := c
      cases resolution <;> rfl

theorem Run.pausedAt_iff {env : Env} {R : Run} {w : World} {p : Progress env R.application}
    (hstore : w.store R.application.applicationId = some (R.thread env p)) :
    PausedAt R.submission w ↔ R.due env p = some .humanEscalation := by
  rw [← exists_suspended_iff p]
  constructor
  · rintro ⟨t, payload, ht, -, hsuspended⟩
    rw [hstore, Option.some.injEq] at ht
    subst ht
    exact ⟨payload, hsuspended⟩
  · rintro ⟨payload, hsuspended⟩
    exact ⟨_, payload, hstore, correlationId_thread p, hsuspended⟩

namespace Traced

variable {env : Env} {k : Submission} {paused : Prop} {w w' : World}

theorem exact (h : Traced env k paused w) :
    ∃ t, w.store k.application.applicationId = some t ∧
      (emittedFor k.application.applicationId k.correlationId w.runtime =
        trailFor k.application.applicationId k.correlationId t ↔ ¬ paused) := by
  cases h with
  | current R p hk hstore hemitted hbase hpaused =>
      subst hk
      refine ⟨_, hstore, ?_⟩
      rw [hemitted, Run.trailFor_own p hbase, Run.map_emitted_eq_iff, hpaused]
  | superseded t hstore hne hexact => exact ⟨t, hstore, hexact⟩

theorem paused_of_pausedAt (h : Traced env k paused w) (hat : PausedAt k w) : paused := by
  obtain ⟨t, payload, ht, hcorr, hsuspended⟩ := hat
  cases h with
  | current R p hk hstore hemitted hbase hpaused =>
      subst hk
      rw [hstore, Option.some.injEq] at ht
      subst ht
      exact hpaused.1 (Run.routed_of_due ((Run.exists_suspended_iff p).1 ⟨payload, hsuspended⟩))
  | superseded t' hstore hne hexact =>
      rw [hstore, Option.some.injEq] at ht
      subst ht
      exact absurd hcorr hne

theorem of_iff {paused' : Prop} (h : Traced env k paused w) (hiff : paused ↔ paused') :
    Traced env k paused' w := by
  rw [← propext hiff]
  exact h

/-- A call that neither touches the thread nor emits anything for the run. -/
theorem frame (h : Traced env k paused w)
    (hstore : w'.store k.application.applicationId = w.store k.application.applicationId)
    (hemitted : emittedFor k.application.applicationId k.correlationId w'.runtime =
      emittedFor k.application.applicationId k.correlationId w.runtime) :
    Traced env k (paused ∨ PausedAt k w') w' := by
  have hframed : Traced env k paused w' := by
    cases h with
    | current R p hk hstore' hemitted' hbase hpaused =>
        subst hk
        exact .current R p rfl (hstore.trans hstore') (hemitted.trans hemitted') hbase hpaused
    | superseded t hstore' hne hexact =>
        exact .superseded t (hstore.trans hstore') hne (by rw [hemitted]; exact hexact)
  exact hframed.of_iff (or_iff_left_of_imp hframed.paused_of_pausedAt).symm

/-- Another run takes the thread over or goes on with it. -/
theorem taken (h : Traced env k paused w) {t : Thread}
    (ht : w'.store k.application.applicationId = some t)
    (hne : t.values.correlationId ≠ k.correlationId)
    (hemitted : emittedFor k.application.applicationId k.correlationId w'.runtime =
      emittedFor k.application.applicationId k.correlationId w.runtime)
    (htrail : ∀ t', w.store k.application.applicationId = some t' →
      trailFor k.application.applicationId k.correlationId t =
        trailFor k.application.applicationId k.correlationId t') :
    Traced env k (paused ∨ PausedAt k w') w' := by
  obtain ⟨t', ht', hexact⟩ := h.exact
  have hsuperseded : Traced env k paused w' :=
    .superseded t ht hne (by rw [hemitted, htrail t' ht']; exact hexact)
  exact hsuperseded.of_iff (or_iff_left_of_imp hsuperseded.paused_of_pausedAt).symm

/-- A submission starts another run. -/
theorem begin (h : Traced env k paused w) {R : Run}
    (hne : R.submission.correlationId ≠ k.correlationId)
    (hbase : R.base = storedValues w R.application.applicationId)
    (hw' : w' = (Run.served (R.begin env (w.runtime.launched R.submission)) w).2) :
    Traced env k (paused ∨ PausedAt k w') w' := by
  subst hw'
  have hemitted : emittedFor k.application.applicationId k.correlationId
      (R.begin env (w.runtime.launched R.submission)).2.2 =
      emittedFor k.application.applicationId k.correlationId w.runtime :=
    Run.emittedFor_other (Run.emits_begin _) (audited_launched _ _) fun h' => hne h'.2
  by_cases hid : k.application.applicationId = R.application.applicationId
  · refine h.taken (by rw [hid]; exact Run.store_served _ w) ?_ hemitted fun t' ht' => ?_
    · rw [Run.correlationId_thread]
      exact hne
    · rw [Run.trailFor_other _ fun h' => hne h'.2, hbase, ← hid, storedValues_of_store ht']
      rfl
  · exact h.frame (Run.store_served_of_ne _ w hid) hemitted

/-- A resolution moves the run itself. -/
theorem resume_current {R : Run} {p : Progress env R.application} (res : EscalationResolution)
    (hstore : w.store R.application.applicationId = some (R.thread env p))
    (hdue : (R.due env p).isSome = true)
    (hbureau : (w.runtime.breakers .creditBureau).state = .closed)
    (hemitted : emittedFor R.application.applicationId R.submission.correlationId w.runtime =
      (R.emitted env p).map AuditEvent.toJson)
    (hbase : R.base.auditTrail.filter
      (AuditEvent.OfRun R.application.applicationId R.submission.correlationId) = [])
    (hpaused : R.Routed env p ↔ paused)
    (hw' : w' = (resolveEscalation env R.application.applicationId res w).2) :
    Traced env R.submission (paused ∨ PausedAt R.submission w') w' := by
  rw [resolveEscalation_eq res hstore hdue hbureau] at hw'
  subst hw'
  have hemits := Run.emits_resume res (w.runtime.resolving R.application.applicationId res) p
  refine .current R _ rfl (Run.store_served _ w)
    (Run.emittedFor_own hemits (audited_resolving _ _ _) hemitted) hbase ?_
  rw [Run.routed_resume_iff, hpaused, Run.pausedAt_iff (Run.store_served _ w)]

/-- A resolution moves the run itself, a later run or a run of another application. -/
theorem resume (h : Traced env k paused w)
    (hbureau : (w.runtime.breakers .creditBureau).state = .closed) {R : Run}
    {p : Progress env R.application} (res : EscalationResolution)
    (hstore : w.store R.application.applicationId = some (R.thread env p))
    (hdue : (R.due env p).isSome = true)
    (hw' : w' = (resolveEscalation env R.application.applicationId res w).2) :
    Traced env k (paused ∨ PausedAt k w') w' := by
  subst hw'
  by_cases hid : k.application.applicationId = R.application.applicationId
  · cases h with
    | current R₀ p₀ hk hstore₀ hemitted hbase hpaused =>
        subst hk
        have hthread : R₀.thread env p₀ = R.thread env p := by
          rw [hid, hstore, Option.some.injEq] at hstore₀
          exact hstore₀.symm
        have hdue₀ : (R₀.due env p₀).isSome = true := by
          have hnext : R₀.due env p₀ = R.due env p := congrArg (·.next) hthread
          rw [hnext]
          exact hdue
        exact resume_current res hstore₀ hdue₀ hbureau hemitted hbase hpaused (by rw [hid])
    | superseded t hstore' hne hexact =>
        have hthread : t = R.thread env p := by
          rw [hid, hstore, Option.some.injEq] at hstore'
          exact hstore'.symm
        have hne' : R.submission.correlationId ≠ k.correlationId := by
          rw [hthread, Run.correlationId_thread] at hne
          exact hne
        rw [resolveEscalation_eq res hstore hdue hbureau]
        refine taken (.superseded t hstore' hne hexact) (by rw [hid]; exact Run.store_served _ w)
          ?_ ?_ fun t' ht' => ?_
        · rw [Run.correlationId_thread]
          exact hne'
        · exact Run.emittedFor_other (Run.emits_resume res _ p) (audited_resolving _ _ _)
            fun h' => hne' h'.2
        · rw [hid, hstore, Option.some.injEq] at ht'
          rw [← ht', Run.trailFor_other _ fun h' => hne' h'.2,
            Run.trailFor_other _ fun h' => hne' h'.2]
  · rw [resolveEscalation_eq res hstore hdue hbureau]
    exact h.frame (Run.store_served_of_ne _ w hid)
      (Run.emittedFor_other (Run.emits_resume res _ p) (audited_resolving _ _ _)
        fun h' => hid h'.1.symm)

theorem exec (h : Traced env k paused w) (hsound : Sound env (fun _ => True) w)
    (hk : ∃ n < w.runtime.uuids, k.correlationId = correlationIdOf env n) (c : Call) :
    Traced env k (paused ∨ PausedAt k (Underwriting.exec env w c)) (Underwriting.exec env w c) := by
  rcases hsound.exec_cases c with ⟨heq, -⟩ | ⟨R, -, hcorr, hbase, heq⟩ |
    ⟨R, p, res, hc, -, hstore, hdue, -⟩
  · rw [heq]
    exact h.frame rfl rfl
  · refine h.begin (fun hsame => ?_) hbase heq
    obtain ⟨n, hn, hcorr'⟩ := hk
    have hsame' := correlationIdOf_injective env ((hcorr.symm.trans hsame).trans hcorr')
    omega
  · subst hc
    exact h.resume hsound.bureau res hstore hdue rfl

end Traced

/-! ## All runs -/

/-- The run that submitting `a` after these calls starts. -/
def nextRun (env : Env) (calls : List Call) (a : LoanApplication) : Submission :=
  ⟨a, correlationIdOf env (run env calls .init).runtime.uuids⟩

/-- The run has been suspended at some time up to now. -/
def HasPaused (env : Env) (before : List Call) (a : LoanApplication) (after : List Call) : Prop :=
  ∃ calls, calls <+: after ∧
    PausedAt (nextRun env before a) (run env (before ++ .start a :: calls) .init)

section Runs

variable {env : Env} {before after : List Call} {a : LoanApplication}

theorem hasPaused_append_iff (c : Call) :
    HasPaused env before a (after ++ [c]) ↔ HasPaused env before a after ∨
      PausedAt (nextRun env before a) (run env (before ++ .start a :: (after ++ [c])) .init) := by
  constructor
  · rintro ⟨calls, hprefix, hpaused⟩
    rcases List.prefix_concat_iff.1 hprefix with rfl | hprefix
    · exact .inr hpaused
    · exact .inl ⟨calls, hprefix, hpaused⟩
  · rintro (⟨calls, hprefix, hpaused⟩ | hpaused)
    · exact ⟨calls, hprefix.trans (List.prefix_append _ _), hpaused⟩
    · exact ⟨_, List.prefix_rfl, hpaused⟩

theorem Sound.uuids_le_exec {w : World} (hw : Sound env (fun _ => True) w) (c : Call) :
    w.runtime.uuids ≤ (Underwriting.exec env w c).runtime.uuids := by
  rcases hw.exec_cases c with ⟨heq, -⟩ | ⟨R, -, -, -, heq⟩ | ⟨R, p, res, -, -, -, -, heq⟩
  · rw [heq]
  · rw [heq]
    have huuids : (R.begin env (w.runtime.launched R.submission)).2.2.uuids = w.runtime.uuids + 1 :=
      (Run.steady_begin _).uuids
    exact (Nat.le_succ _).trans huuids.ge
  · rw [heq]
    have huuids : (R.resume env res (w.runtime.resolving R.application.applicationId res)
        p).2.2.uuids = w.runtime.uuids := (Run.steady_resume res _ p).uuids
    exact huuids.ge

/-- A submission is traced from the start. -/
theorem traced_start {w : World} (hsound : Sound env (fun _ => True) w) (hnumbered : Numbered env w)
    (a : LoanApplication) :
    Traced env ⟨a, correlationIdOf env w.runtime.uuids⟩
        (PausedAt ⟨a, correlationIdOf env w.runtime.uuids⟩ (exec env w (.start a)))
        (exec env w (.start a)) ∧
      (exec env w (.start a)).runtime.uuids = w.runtime.uuids + 1 := by
  obtain ⟨R, happlication, hcorr, hbase⟩ := hsound.exists_run a
  subst happlication
  have hk : R.submission = ⟨R.application, correlationIdOf env w.runtime.uuids⟩ := by
    rw [correlationIdOf, ← hcorr]
  rw [← hk, exec_start_eq R hcorr hbase hsound.bureau]
  refine ⟨?_, (Run.steady_begin _).uuids⟩
  refine .current R _ rfl (Run.store_served _ w)
    (Run.emittedFor_own (Run.emits_begin _) (audited_launched _ _) ?_) ?_ ?_
  · rw [hcorr]
    exact hnumbered.emitted _ le_rfl _
  · rw [hbase, hcorr]
    exact hnumbered.storedValues le_rfl _ _
  · rw [Run.pausedAt_iff (Run.store_served _ w)]
    exact Run.routed_extract_iff _

theorem traced_run (env : Env) (before after : List Call) (a : LoanApplication) :
    Traced env (nextRun env before a) (HasPaused env before a after)
        (run env (before ++ .start a :: after) .init) ∧
      (run env before .init).runtime.uuids <
        (run env (before ++ .start a :: after) .init).runtime.uuids := by
  induction after using List.reverseRecOn with
  | nil =>
      obtain ⟨htraced, huuids⟩ :=
        traced_start (sound_run env before) (numbered_run env before) a
      have hrun : run env (before ++ [.start a]) .init =
          exec env (run env before .init) (.start a) := run_append env before [.start a] .init
      rw [hrun]
      refine ⟨htraced.of_iff ?_, huuids ▸ Nat.lt_succ_self _⟩
      rw [← hrun]
      constructor
      · intro h
        exact ⟨[], List.prefix_rfl, h⟩
      · rintro ⟨calls, hprefix, h⟩
        rw [List.prefix_nil.1 hprefix] at h
        exact h
  | append_singleton after c ih =>
      obtain ⟨htraced, huuids⟩ := ih
      have hsound := sound_run env (before ++ .start a :: after)
      have hrun : run env (before ++ .start a :: (after ++ [c])) .init =
          exec env (run env (before ++ .start a :: after) .init) c := by
        rw [← List.cons_append, ← List.append_assoc, run_append]
        rfl
      refine ⟨?_, ?_⟩
      · refine Traced.of_iff ?_ (hasPaused_append_iff c).symm
        rw [hrun]
        exact htraced.exec hsound ⟨_, huuids, rfl⟩ c
      · rw [hrun]
        exact huuids.trans_le (hsound.uuids_le_exec c)

theorem audit_exact_iff (env : Env) (before after : List Call) (a : LoanApplication) :
    ∃ t, (run env (before ++ .start a :: after) .init).store a.applicationId = some t ∧
      (emittedFor a.applicationId (nextRun env before a).correlationId
          (run env (before ++ .start a :: after) .init).runtime =
        trailFor a.applicationId (nextRun env before a).correlationId t ↔
        ¬ HasPaused env before a after) :=
  (traced_run env before after a).1.exact

end Runs

/-! ## The request -/

/-- How many requests for a reviewer are among the entries. -/
def requests (entries : List Json) : ℕ :=
  entries.countP fun entry => (entry.get? "action").bind Json.asStr = some "escalation_requested"

theorem requests_map_toJson (events : List AuditEvent) :
    requests (events.map AuditEvent.toJson) =
      events.countP fun e => e.action = "escalation_requested" := by
  rw [requests, List.countP_map]
  refine List.countP_congr fun e _ => ?_
  simp only [Function.comp_apply, AuditEvent.toJson_action, Option.some.injEq]

namespace Run

variable {env : Env} {R : Run}

theorem requests_emitted_awaiting (x : ExtractedFinancials) (h : NeedsHuman env R.application x) :
    requests ((R.emitted env (.awaiting x h)).map AuditEvent.toJson) = 1 ∧
      requests ((R.written env (.awaiting x h)).auditTrail.map AuditEvent.toJson) = 0 := by
  rw [requests_map_toJson, requests_map_toJson]
  constructor
  · simp [emitted, evaluated, scored, extracted, received, ApplicationService.initialState,
      intakeUpdate, extractionUpdate, riskUpdate, policyUpdate, requested, escalationRequest,
      Submission.event, auditEvent]
  · simp [written, evaluated, scored, extracted, received, ApplicationService.initialState,
      intakeUpdate, extractionUpdate, riskUpdate, policyUpdate, Submission.event, auditEvent]

theorem requests_emitted_completed (x : ExtractedFinancials) (h : NeedsHuman env R.application x)
    (res : EscalationResolution) (rationale : Rationale) :
    requests ((R.emitted env (.completed (.reviewed x h res) rationale)).map
        AuditEvent.toJson) = 2 ∧
      requests ((R.written env (.completed (.reviewed x h res) rationale)).auditTrail.map
        AuditEvent.toJson) = 1 := by
  rw [requests_map_toJson, requests_map_toJson]
  constructor
  · simp [emitted, passed, Settled.reviewed, evaluated, scored, extracted, received,
      ApplicationService.initialState, intakeUpdate, extractionUpdate, riskUpdate, policyUpdate,
      requested, escalationRequest, escalationUpdate, escalationResume, explainabilityUpdate,
      outputUpdate, Submission.event, auditEvent]
  · simp [written, concluded, explained, resolved, Settled.reviewed, evaluated, scored, extracted,
      received, ApplicationService.initialState, intakeUpdate, extractionUpdate, riskUpdate,
      policyUpdate, escalationRequest, escalationUpdate, escalationResume, explainabilityUpdate,
      outputUpdate, Submission.event, auditEvent]

/-- What the first submission has emitted when its case waits for a reviewer. -/
theorem emittedFor_first_awaiting {a : LoanApplication} {x : ExtractedFinancials}
    (hreplies : Replies env a x) (h : NeedsHuman env a x) :
    emittedFor a.applicationId (correlationIdOf env 0) (run env [.start a] .init).runtime =
      ((first env a).emitted env (.awaiting x h)).map AuditEvent.toJson := by
  obtain ⟨r', hbegin, -⟩ := begin_awaits (R := first env a) hreplies
    (r := Runtime.init.launched (first env a).submission) rfl h
  have hemits : Emits [] (Runtime.init.launched (first env a).submission)
      ((.ok (), .awaiting x h, r') : (first env a).Outcome env) := by
    rw [← hbegin]
    exact emits_begin _
  have hrun : (run env [.start a] .init).runtime = r' := by
    have hstart := startApplication_init env a
    rw [hbegin] at hstart
    exact congrArg (fun o => o.2.runtime) hstart
  rw [hrun]
  exact emittedFor_own (R := first env a) hemits (audited_launched .init _) rfl

/-- What a resolution makes of it. -/
theorem emittedFor_reviewed {w : World} {x : ExtractedFinancials}
    {h : NeedsHuman env R.application x} {res : EscalationResolution} {rationale : Rationale}
    {r' : Runtime}
    (hresume : R.resume env res (w.runtime.resolving R.application.applicationId res)
      (.awaiting x h) = (.ok (), .completed (.reviewed x h res) rationale, r'))
    (hemitted : emittedFor R.application.applicationId R.submission.correlationId w.runtime =
      (R.emitted env (.awaiting x h)).map AuditEvent.toJson) :
    emittedFor R.application.applicationId R.submission.correlationId r' =
      (R.emitted env (.completed (.reviewed x h res) rationale)).map AuditEvent.toJson := by
  have hemits : Emits (R.emitted env (.awaiting x h))
      (w.runtime.resolving R.application.applicationId res)
      ((.ok (), .completed (.reviewed x h res) rationale, r') : R.Outcome env) := by
    rw [← hresume]
    exact emits_resume res _ _
  exact emittedFor_own hemits (audited_resolving _ _ _) hemitted

end Run

/-- A suspended run has emitted a request that its trail does not show, and when it has been
resumed the request has been emitted twice. -/
theorem request_emitted_before_trail :
    (∃ t, (run sampleEnv [.start escalatedApplication] .init).store "app_1" = some t ∧
      (∃ payload, Suspended t payload) ∧
      requests (emittedFor "app_1" (correlationIdOf sampleEnv 0)
        (run sampleEnv [.start escalatedApplication] .init).runtime) = 1 ∧
      requests (trailFor "app_1" (correlationIdOf sampleEnv 0) t) = 0) ∧
    ∃ t, (run sampleEnv [.start escalatedApplication, .resolve "app_1" sampleResolution]
        .init).store "app_1" = some t ∧
      requests (emittedFor "app_1" (correlationIdOf sampleEnv 0)
        (run sampleEnv [.start escalatedApplication, .resolve "app_1" sampleResolution]
          .init).runtime) = 2 ∧
      requests (trailFor "app_1" (correlationIdOf sampleEnv 0) t) = 1 := by
  have hreplies := replies_sample escalatedApplication
  obtain ⟨hstore, hready⟩ := run_start_awaits hreplies needsHuman_escalated
  have hbureau := (sound_run sampleEnv [.start escalatedApplication]).bureau
  have hemitted := Run.emittedFor_first_awaiting hreplies needsHuman_escalated
  have hrun : run sampleEnv [.start escalatedApplication, .resolve "app_1" sampleResolution] .init =
      (resolveEscalation sampleEnv "app_1" sampleResolution
        (run sampleEnv [.start escalatedApplication] .init)).2 := rfl
  rw [hrun]
  generalize run sampleEnv [.start escalatedApplication] .init = w at hstore hready hbureau hemitted
  let R : Run := .first sampleEnv escalatedApplication
  obtain ⟨rationale, r', hresume, -⟩ := Run.resume_completes (R := R)
    (r := w.runtime.resolving "app_1" sampleResolution) hreplies hready needsHuman_escalated
    sampleResolution
  have hresolve : resolveEscalation sampleEnv "app_1" sampleResolution w =
      Run.served (R.resume sampleEnv sampleResolution
        (w.runtime.resolving "app_1" sampleResolution) (.awaiting _ needsHuman_escalated)) w :=
    @resolveEscalation_eq sampleEnv w R _ sampleResolution hstore rfl hbureau
  rw [hresume] at hresolve
  have hemitted' := Run.emittedFor_reviewed (R := R) hresume hemitted
  rw [hresolve]
  constructor
  · have hrequests := Run.requests_emitted_awaiting (R := R) _ needsHuman_escalated
    refine ⟨_, hstore, ⟨_, (Run.suspended_awaiting_iff (R := R) _ needsHuman_escalated _).2 rfl⟩,
      (congrArg requests hemitted).trans hrequests.1, ?_⟩
    exact (congrArg requests (Run.trailFor_own (R := R) _ rfl)).trans hrequests.2
  · have hrequests := Run.requests_emitted_completed (R := R) _ needsHuman_escalated
      sampleResolution rationale
    refine ⟨_, Run.store_served (R := R) _ w, (congrArg requests hemitted').trans hrequests.1, ?_⟩
    exact (congrArg requests (Run.trailFor_own (R := R) _ rfl)).trans hrequests.2

end Underwriting
