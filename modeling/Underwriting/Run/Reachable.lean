import Underwriting.Run.Refinement

/-!
# Reachable worlds

In every world that a sequence of calls leads to, the bureau's breaker is closed and every
stored thread is the thread of a case: `Sound`. So each call of the service is one move of
a case, `startApplication_eq` and `resolveEscalation_eq`, and an invariant of all runs
needs to be checked for these two moves only.

`Sound env B w` also keeps a property `B` of the values that the runs were started over.
It is trivial for arbitrary calls, and it says that these values are blank when no id is
submitted twice: `sound_of_nodup`.
-/

namespace Underwriting

open Python ApplicationService

/-! ## One call, one move -/

/-- The process once the start of a run has been logged. -/
def Runtime.launched (r : Runtime) (k : Submission) : Runtime :=
  { r with
    uuids := r.uuids + 1
    log := r.log ++ [⟨"underwriting.service.application_service", "INFO",
      "application_run_starting", [("application_id", .str k.application.applicationId),
        ("correlation_id", .str k.correlationId)]⟩] }

/-- The process once a resolution has been logged. -/
def Runtime.resolving (r : Runtime) (id : String) (res : EscalationResolution) : Runtime :=
  { r with
    log := r.log ++ [⟨"underwriting.service.application_service", "INFO",
      "escalation_resolving", [("application_id", .str id),
        ("reviewer_id", .str res.reviewerId)]⟩] }

/-- What the service answers to a move, and what it stores. -/
def Run.served {env : Env} {R : Run} (o : R.Outcome env) (w : World) :
    Except Exn ApplicationSummary × World :=
  (o.1.map fun _ => summarize R.application.applicationId (R.thread env o.2.1),
    ⟨Function.update w.store R.application.applicationId (some (R.thread env o.2.1)), o.2.2⟩)

@[simp] theorem Run.store_served {env : Env} {R : Run} (o : R.Outcome env) (w : World) :
    (Run.served o w).2.store R.application.applicationId = some (R.thread env o.2.1) :=
  Function.update_self _ _ _

theorem Run.store_served_of_ne {env : Env} {R : Run} (o : R.Outcome env) (w : World)
    {id : String} (h : id ≠ R.application.applicationId) :
    (Run.served o w).2.store id = w.store id :=
  Function.update_of_ne h _ _

@[simp] theorem Run.runtime_served {env : Env} {R : Run} (o : R.Outcome env) (w : World) :
    (Run.served o w).2.runtime = o.2.2 := rfl

theorem storedValues_of_store {w : World} {id : String} {t : Thread}
    (h : w.store id = some t) : storedValues w id = t.values := by
  rw [storedValues, h]
  rfl

theorem getApplication_of_store {w : World} {id : String} {t : Thread}
    (h : w.store id = some t) : getApplication id w = (.ok (summarize id t), w) := by
  simp only [getApplication, Py.bind_apply, Py.state_apply, h]
  rfl

theorem keeps_getApplication (I : World → Prop) (id : String) :
    Py.Keeps I (getApplication id) := by
  refine Py.keeps_bind Py.keeps_state fun w => ?_
  split
  · exact Py.keeps_raise _
  · exact Py.keeps_pure _

theorem keeps_getRationale (I : World → Prop) (id : String) : Py.Keeps I (getRationale id) := by
  refine Py.keeps_bind (keeps_getApplication I id) fun summary => ?_
  split
  · exact Py.keeps_raise _
  · exact Py.keeps_bind (Py.keeps_lift _) fun _ => Py.keeps_bind (Py.keeps_lift _) fun _ =>
      Py.keeps_bind (Py.keeps_lift _) fun _ => Py.keeps_bind (Py.keeps_lift _) fun _ =>
        Py.keeps_pure _

/-- Reading never writes. -/
theorem exec_get (env : Env) (w : World) (id : String) : exec env w (.get id) = w :=
  keeps_getApplication (· = w) id w rfl

theorem exec_rationale (env : Env) (w : World) (id : String) : exec env w (.rationale id) = w :=
  keeps_getRationale (· = w) id w rfl

theorem onThread_getApplication {R : Run} {env : Env} {w : World} {o : R.Outcome env}
    {call : Runtime → Except Exn Unit × Thread × Runtime} (h : call w.runtime = o.embed) :
    (onThread R.application.applicationId call >>= fun _ =>
      getApplication R.application.applicationId) w = R.served o w := by
  have hthread : onThread R.application.applicationId call w =
      (o.1, ⟨Function.update w.store R.application.applicationId (some (R.thread env o.2.1)),
        o.2.2⟩) := by
    simp only [onThread, h]
    rfl
  obtain ⟨out, p, r⟩ := o
  cases out with
  | error e => exact Py.bind_of_error hthread
  | ok _ =>
      rw [Py.bind_of_ok hthread]
      exact getApplication_of_store (Function.update_self _ _ _)

theorem startApplication_apply (env : Env) (a : LoanApplication) (w : World) :
    startApplication env a w =
      (onThread a.applicationId ((graph env).invoke recursionLimit
          (initialState a s!"corr_{env.uuid w.runtime.uuids}")
          (storedValues w a.applicationId)) >>= fun _ =>
        getApplication a.applicationId)
        ⟨w.store, w.runtime.launched ⟨a, s!"corr_{env.uuid w.runtime.uuids}"⟩⟩ := (rfl)

theorem startApplication_eq {env : Env} {w : World} (R : Run)
    (hcorr : R.submission.correlationId = s!"corr_{env.uuid w.runtime.uuids}")
    (hbase : R.base = storedValues w R.application.applicationId)
    (hbureau : (w.runtime.breakers .creditBureau).state = .closed) :
    startApplication env R.application w =
      R.served (R.begin env (w.runtime.launched R.submission)) w := by
  rw [startApplication_apply, ← hcorr, ← hbase]
  exact onThread_getApplication (Run.invoke_eq _ hbureau)

/-- The run of a fresh submission. -/
abbrev Run.fresh (a : LoanApplication) (correlationId : String) : Run :=
  ⟨⟨a, correlationId⟩, .blank, none, rfl⟩

/-- A submission under an id that nothing is stored under. -/
theorem startApplication_fresh (env : Env) {a : LoanApplication} {w : World}
    (hbureau : (w.runtime.breakers .creditBureau).state = .closed)
    (hfresh : w.store a.applicationId = none) :
    startApplication env a w = Run.served ((Run.fresh a s!"corr_{env.uuid w.runtime.uuids}").begin
      env (w.runtime.launched ⟨a, s!"corr_{env.uuid w.runtime.uuids}"⟩)) w := by
  have hbase : storedValues w a.applicationId = .blank := by
    rw [storedValues, hfresh]
    rfl
  exact startApplication_eq (Run.fresh a _) rfl hbase.symm hbureau

/-- A thread with a pending node is resumed. -/
theorem resolveEscalation_of_due {env : Env} {w : World} {id : String} {t : Thread}
    (res : EscalationResolution) (hstore : w.store id = some t) (hnext : t.next.isSome = true) :
    resolveEscalation env id res w =
      (onThread id ((graph env).resume recursionLimit res.modelDump t) >>= fun _ =>
        getApplication id) ⟨w.store, w.runtime.resolving id res⟩ := by
  have hpending : t.next.isNone = false := by rw [Option.isNone_eq_false_iff, hnext]
  simp only [resolveEscalation, Py.bind_apply, Py.state_apply, hstore, hpending]
  rfl

theorem resolveEscalation_eq {env : Env} {w : World} {R : Run}
    {p : Progress env R.application} (res : EscalationResolution)
    (hstore : w.store R.application.applicationId = some (R.thread env p))
    (hdue : (R.due env p).isSome = true)
    (hbureau : (w.runtime.breakers .creditBureau).state = .closed) :
    resolveEscalation env R.application.applicationId res w =
      R.served (R.resume env res (w.runtime.resolving R.application.applicationId res) p) w := by
  rw [resolveEscalation_of_due res hstore hdue]
  exact onThread_getApplication (Run.resume_eq p res _ hbureau)

/-- A finished thread is not awaiting anything. -/
theorem resolveEscalation_of_finished {env : Env} {w : World} {id : String} {t : Thread}
    (res : EscalationResolution) (hstore : w.store id = some t) (hnext : t.next = none) :
    resolveEscalation env id res w = (.error (.applicationNotAwaitingEscalationError id), w) := by
  simp only [resolveEscalation, Py.bind_apply, Py.state_apply, hstore, hnext]
  rfl

theorem resolveEscalation_of_unknown {env : Env} {w : World} {id : String}
    (res : EscalationResolution) (hstore : w.store id = none) :
    resolveEscalation env id res w = (.error (.applicationNotFoundError id), w) := by
  simp only [resolveEscalation, Py.bind_apply, Py.state_apply, hstore]
  rfl

/-! ## The world after a call -/

theorem exec_start_eq {env : Env} {w : World} (R : Run)
    (hcorr : R.submission.correlationId = s!"corr_{env.uuid w.runtime.uuids}")
    (hbase : R.base = storedValues w R.application.applicationId)
    (hbureau : (w.runtime.breakers .creditBureau).state = .closed) :
    exec env w (.start R.application) =
      (R.served (R.begin env (w.runtime.launched R.submission)) w).2 := by
  rw [exec, startApplication_eq R hcorr hbase hbureau]

theorem exec_resolve_eq {env : Env} {w : World} {R : Run} {p : Progress env R.application}
    (res : EscalationResolution)
    (hstore : w.store R.application.applicationId = some (R.thread env p))
    (hdue : (R.due env p).isSome = true)
    (hbureau : (w.runtime.breakers .creditBureau).state = .closed) :
    exec env w (.resolve R.application.applicationId res) =
      (R.served (R.resume env res
        (w.runtime.resolving R.application.applicationId res) p) w).2 := by
  rw [exec, resolveEscalation_eq res hstore hdue hbureau]

theorem exec_resolve_of_finished {env : Env} {w : World} {id : String} {t : Thread}
    (res : EscalationResolution) (hstore : w.store id = some t) (hnext : t.next = none) :
    exec env w (.resolve id res) = w := by
  rw [exec, resolveEscalation_of_finished res hstore hnext]

theorem exec_resolve_of_unknown {env : Env} {w : World} {id : String}
    (res : EscalationResolution) (hstore : w.store id = none) :
    exec env w (.resolve id res) = w := by
  rw [exec, resolveEscalation_of_unknown res hstore]

/-! ## What a call depends on -/

theorem snd_onThread_getApplication (id : String)
    (call : Runtime → Except Exn Unit × Thread × Runtime) (w : World) :
    ((onThread id call >>= fun _ => getApplication id) w).2 =
      ⟨Function.update w.store id (some (call w.runtime).2.1), (call w.runtime).2.2⟩ := by
  have hthread : onThread id call w = ((call w.runtime).1,
      ⟨Function.update w.store id (some (call w.runtime).2.1), (call w.runtime).2.2⟩) := rfl
  rcases hout : (call w.runtime).1 with e | a
  · rw [hout] at hthread
    rw [Py.bind_of_error hthread]
  · rw [hout] at hthread
    rw [Py.bind_of_ok hthread]
    exact keeps_getApplication (· = _) id _ rfl

theorem exec_start (env : Env) (a : LoanApplication) (w : World) :
    exec env w (.start a) =
      let k : Submission := ⟨a, s!"corr_{env.uuid w.runtime.uuids}"⟩
      let result := (graph env).invoke recursionLimit (initialState a k.correlationId)
        (storedValues w a.applicationId) (w.runtime.launched k)
      ⟨Function.update w.store a.applicationId (some result.2.1), result.2.2⟩ := by
  rw [exec, startApplication_apply, snd_onThread_getApplication]

/-- A call reads the process and what is stored under its id, and it writes only there. -/
theorem exec_local (env : Env) (c : Call) (r : Runtime) (t : Option Thread) :
    ∃ t' r', ∀ store : String → Option Thread, store c.applicationId = t →
      exec env ⟨store, r⟩ c = ⟨Function.update store c.applicationId t', r'⟩ := by
  -- A call that changes nothing writes back what is stored.
  have hkept (h : ∀ store, store c.applicationId = t → exec env ⟨store, r⟩ c = ⟨store, r⟩) :
      ∃ t' r', ∀ store : String → Option Thread, store c.applicationId = t →
        exec env ⟨store, r⟩ c = ⟨Function.update store c.applicationId t', r'⟩ := by
    refine ⟨t, r, fun store ht => ?_⟩
    rw [h store ht, ← ht, Function.update_eq_self]
  cases c with
  | start a =>
      let k : Submission := ⟨a, s!"corr_{env.uuid r.uuids}"⟩
      let result := (graph env).invoke recursionLimit (initialState a k.correlationId)
        (t.elim .blank (·.values)) (r.launched k)
      refine ⟨some result.2.1, result.2.2, fun store h => ?_⟩
      have hvalues : storedValues ⟨store, r⟩ a.applicationId = t.elim .blank (·.values) := by
        rw [← h]
        rfl
      rw [exec_start, hvalues]
      rfl
  | get id => exact hkept fun store _ => exec_get env _ id
  | resolve id res =>
      cases t with
      | none =>
          exact hkept fun store h => exec_resolve_of_unknown res h
      | some t =>
          cases hnext : t.next with
          | none =>
              exact hkept fun store h => exec_resolve_of_finished res h hnext
          | some node =>
              let result := (graph env).resume recursionLimit res.modelDump t (r.resolving id res)
              refine ⟨some result.2.1, result.2.2, fun store h => ?_⟩
              rw [exec, resolveEscalation_of_due res h (by rw [hnext]; rfl),
                snd_onThread_getApplication]
              rfl
  | rationale id => exact hkept fun store _ => exec_rationale env _ id

/-- So it does the same in two worlds that agree there. -/
theorem exec_congr (env : Env) (c : Call) {w₁ w₂ : World} (hruntime : w₁.runtime = w₂.runtime)
    (hstore : w₁.store c.applicationId = w₂.store c.applicationId) :
    ∃ t r, exec env w₁ c = ⟨Function.update w₁.store c.applicationId t, r⟩ ∧
      exec env w₂ c = ⟨Function.update w₂.store c.applicationId t, r⟩ := by
  obtain ⟨t, r, h⟩ := exec_local env c w₁.runtime (w₁.store c.applicationId)
  refine ⟨t, r, h w₁.store rfl, ?_⟩
  rw [hruntime] at h
  exact h w₂.store hstore.symm

/-- A submission depends on the stored values only in so far as its input keeps them. -/
theorem exec_start_congr (env : Env) (a : LoanApplication) {w₁ w₂ : World}
    (hruntime : w₁.runtime = w₂.runtime)
    (hvalues : ∀ c, (storedValues w₁ a.applicationId).merge (initialState a c) =
      (storedValues w₂ a.applicationId).merge (initialState a c)) :
    ∃ t r, exec env w₁ (.start a) = ⟨Function.update w₁.store a.applicationId t, r⟩ ∧
      exec env w₂ (.start a) = ⟨Function.update w₂.store a.applicationId t, r⟩ := by
  have hinvoke : (graph env).invoke recursionLimit
        (initialState a s!"corr_{env.uuid w₁.runtime.uuids}") (storedValues w₁ a.applicationId) =
      (graph env).invoke recursionLimit (initialState a s!"corr_{env.uuid w₁.runtime.uuids}")
        (storedValues w₂ a.applicationId) := by
    funext r
    exact congrArg (fun s => (graph env).drive recursionLimit .intake none s r) (hvalues _)
  refine ⟨_, _, exec_start env a w₁, ?_⟩
  simp only [exec_start, ← hruntime, ← hinvoke]

/-! ## What a move does to the process -/

namespace Run

variable {env : Env} {R : Run}

/-- The relation holds between the process before and after each part of a move of `R`, and so
before and after every move. -/
structure Respects (env : Env) (R : Run) (T : Runtime → Runtime → Prop) : Prop where
  refl : ∀ r, T r r
  trans : ∀ {r r' r''}, T r r' → T r' r'' → T r r''
  noted : ∀ r u, T r (r.noted u)
  failed : ∀ r name, T r (R.submission.failed name r)
  read : ∀ r, T r (readDocument env R.application r).2
  report : ∀ r, T r (getCreditReport env R.application.applicantFullName r).2
  write : ∀ x resolution r, T r (writeRationale env R.application x resolution r).2

namespace Respects

variable {T : Runtime → Runtime → Prop} (h : Respects env R T)

include h

theorem explain (c : Settled env R.application) (r : Runtime) : T r (R.explain env c r).2.2 := by
  have hwrite := h.write c.extracted (R.effective env c) r
  rcases hw : writeRationale env R.application c.extracted (R.effective env c) r with
    ⟨e | rationale, r'⟩
  · rw [hw] at hwrite
    rw [explain_of_error hw]
    exact h.trans hwrite (h.failed r' _)
  · rw [hw] at hwrite
    rw [explain_of_ok hw]
    exact h.trans hwrite (h.noted r' _)

theorem appraised (x : ExtractedFinancials) (r : Runtime) : T r (R.appraised env x r) :=
  h.trans (h.trans (h.noted r _) (h.report _)) (h.noted _ _)

theorem unscored (x : ExtractedFinancials) (hx : Unscorable env.arithmetic R.application x)
    (r : Runtime) : T r (R.unscored env x hx r).2.2 := h.trans (h.report r) (h.failed _ _)

theorem appraise (x : ExtractedFinancials) (r : Runtime) : T r (R.appraise env x r).2.2 := by
  by_cases hscorable : Unscorable env.arithmetic R.application x
  · rw [appraise_of_unscorable hscorable]
    exact h.trans (h.noted r _) (h.unscored x hscorable _)
  by_cases hhuman : NeedsHuman env R.application x
  · rw [appraise_of_needsHuman hscorable hhuman]
    exact h.trans (h.appraised x r) (h.noted _ _)
  · rw [appraise_of_not_needsHuman hscorable hhuman]
    exact h.trans (h.appraised x r) (h.explain _ _)

theorem extract (r : Runtime) : T r (R.extract env r).2.2 := by
  have hread := h.read r
  rcases hr : readDocument env R.application r with ⟨e | x, r'⟩
  · rw [hr] at hread
    rw [extract_of_error hr]
    exact h.trans hread (h.failed r' _)
  · rw [hr] at hread
    rw [extract_of_ok hr]
    exact h.trans hread (h.appraise x r')

theorem begin (r : Runtime) : T r (R.begin env r).2.2 :=
  h.trans (h.noted r _) (h.extract _)

theorem resume (res : EscalationResolution) (r : Runtime) (p : Progress env R.application) :
    T r (R.resume env res r p).2.2 := by
  cases p with
  | extracting => exact h.extract r
  | scoring x hx => exact h.unscored x hx r
  | awaiting x hx => exact h.trans (h.noted r _) (h.explain _ _)
  | explaining c => exact h.explain c r
  | completed c rationale => exact h.refl r

end Respects

end Run

/-- From `r` to `r'` the bureau's breaker stays closed and no id is generated. -/
structure Runtime.Steady (r r' : Runtime) : Prop where
  bureau : (r.breakers .creditBureau).state = .closed → (r'.breakers .creditBureau).state = .closed
  uuids : r'.uuids = r.uuids

theorem Runtime.steady_of_untouched {r r' : Runtime} (h : Untouched .llm r r') : r.Steady r' :=
  ⟨fun hclosed => by rw [h.breakers .creditBureau (by decide)]; exact hclosed, h.uuids⟩

namespace Run

variable {env : Env} {R : Run}

theorem respects_steady : Respects env R Runtime.Steady where
  refl _ := ⟨id, rfl⟩
  trans h h' := ⟨fun hclosed => h'.bureau (h.bureau hclosed), h'.uuids.trans h.uuids⟩
  noted _ _ := ⟨id, rfl⟩
  failed _ _ := ⟨id, rfl⟩
  read r := Runtime.steady_of_untouched (readDocument_untouched env R.application r)
  report r := by
    refine ⟨fun hclosed => ?_, (getCreditReport_untouched env _ r).uuids⟩
    obtain ⟨r', hreport, hclosed'⟩ :=
      getCreditReport_of_closed env R.application.applicantFullName r hclosed
    rw [hreport]
    exact hclosed'
  write x resolution r :=
    Runtime.steady_of_untouched (writeRationale_untouched env R.application x resolution r)

theorem steady_begin (r : Runtime) : r.Steady (R.begin env r).2.2 := respects_steady.begin r

theorem steady_resume (res : EscalationResolution) (r : Runtime) (p : Progress env R.application) :
    r.Steady (R.resume env res r p).2.2 := respects_steady.resume res r p

theorem escalationResolution_resolved (x : ExtractedFinancials)
    (res : Option EscalationResolution) :
    (R.base.merge (R.resolved env x res)).escalationResolution =
      (res.or R.stale).map EscalationResolution.modelDump := by
  cases res with
  | none => exact R.base_resolution
  | some res => rfl

/-- The resolution a thread holds is a dump, so a later run can read it. -/
theorem exists_resolution (p : Progress env R.application) :
    ∃ stale : Option EscalationResolution, (R.thread env p).values.escalationResolution =
      stale.map EscalationResolution.modelDump := by
  cases p with
  | extracting => exact ⟨R.stale, R.base_resolution⟩
  | scoring x h => exact ⟨R.stale, R.base_resolution⟩
  | awaiting x h => exact ⟨R.stale, R.base_resolution⟩
  | explaining c => exact ⟨_, escalationResolution_resolved c.extracted c.resolution⟩
  | completed c rationale => exact ⟨_, escalationResolution_resolved c.extracted c.resolution⟩

end Run

/-! ## Sound worlds -/

/-- Every stored thread is the thread of a case over values with the property `B`. -/
structure Sound (env : Env) (B : UnderwritingState → Prop) (w : World) : Prop where
  bureau : (w.runtime.breakers .creditBureau).state = .closed
  threads : ∀ id t, w.store id = some t → ∃ (R : Run) (p : Progress env R.application),
    B R.base ∧ R.application.applicationId = id ∧ t = R.thread env p

section Sound

variable {env : Env} {B : UnderwritingState → Prop} {w : World}

theorem sound_init (env : Env) (B : UnderwritingState → Prop) : Sound env B World.init :=
  ⟨rfl, fun _ _ h => nomatch h⟩

theorem Sound.served (hw : Sound env B w) {R : Run} (hB : B R.base) {o : R.Outcome env}
    (hbureau : (o.2.2.breakers .creditBureau).state = .closed) :
    Sound env B (Run.served o w).2 := by
  refine ⟨hbureau, fun id t ht => ?_⟩
  by_cases hid : id = R.application.applicationId
  · subst hid
    have ht' : some (R.thread env o.2.1) = some t := (Run.store_served o w).symm.trans ht
    exact ⟨R, o.2.1, hB, rfl, (Option.some.inj ht').symm⟩
  · have ht' : w.store id = some t := (Run.store_served_of_ne o w hid).symm.trans ht
    exact hw.threads id t ht'

/-- The resolution that is stored under an id is a dump. -/
theorem Sound.exists_stale (hw : Sound env B w) (id : String) :
    ∃ stale : Option EscalationResolution, (storedValues w id).escalationResolution =
      stale.map EscalationResolution.modelDump := by
  cases hstore : w.store id with
  | none => exact ⟨none, by rw [storedValues, hstore]; rfl⟩
  | some t =>
      obtain ⟨R, p, -, -, rfl⟩ := hw.threads _ t hstore
      obtain ⟨stale, hstale⟩ := Run.exists_resolution p
      exact ⟨stale, by rw [storedValues, hstore]; exact hstale⟩

/-- The run that a submission starts in this world. -/
theorem Sound.exists_run (hw : Sound env B w) (a : LoanApplication) :
    ∃ R : Run, R.application = a ∧
      R.submission.correlationId = s!"corr_{env.uuid w.runtime.uuids}" ∧
      R.base = storedValues w a.applicationId := by
  obtain ⟨stale, hstale⟩ := hw.exists_stale a.applicationId
  exact ⟨⟨⟨a, _⟩, _, stale, hstale⟩, rfl, rfl, rfl⟩

/-- A call reads, or it starts a run, or it moves a case that is due. -/
theorem Sound.exec_cases (hw : Sound env B w) (c : Call) :
    (exec env w c = w ∧ ∀ a, c ≠ .start a) ∨
    (∃ R : Run, c = .start R.application ∧
      R.submission.correlationId = s!"corr_{env.uuid w.runtime.uuids}" ∧
      R.base = storedValues w R.application.applicationId ∧
      exec env w c = (Run.served (R.begin env (w.runtime.launched R.submission)) w).2) ∨
    (∃ (R : Run) (p : Progress env R.application) (res : EscalationResolution),
      c = .resolve R.application.applicationId res ∧ B R.base ∧
      w.store R.application.applicationId = some (R.thread env p) ∧
      (R.due env p).isSome = true ∧
      exec env w c = (Run.served (R.resume env res
        (w.runtime.resolving R.application.applicationId res) p) w).2) := by
  cases c with
  | start a =>
      obtain ⟨R, rfl, hcorr, hbase⟩ := hw.exists_run a
      exact .inr (.inl ⟨R, rfl, hcorr, hbase, exec_start_eq R hcorr hbase hw.bureau⟩)
  | get id => exact .inl ⟨exec_get env w id, fun _ h => nomatch h⟩
  | resolve id res =>
      cases hstore : w.store id with
      | none =>
          exact .inl ⟨exec_resolve_of_unknown res hstore, fun _ h => nomatch h⟩
      | some t =>
          obtain ⟨R, p, hB, rfl, rfl⟩ := hw.threads id t hstore
          cases hdue : R.due env p with
          | none =>
              exact .inl ⟨exec_resolve_of_finished res hstore hdue, fun _ h => nomatch h⟩
          | some node =>
              have hsome : (R.due env p).isSome = true := by rw [hdue]; rfl
              exact .inr (.inr ⟨R, p, res, rfl, hB, hstore, hsome,
                exec_resolve_eq res hstore hsome hw.bureau⟩)
  | rationale id => exact .inl ⟨exec_rationale env w id, fun _ h => nomatch h⟩

theorem Sound.exec (hw : Sound env B w) (c : Call)
    (hB : ∀ a, c = .start a → B (storedValues w a.applicationId)) : Sound env B (exec env w c) := by
  rcases hw.exec_cases c with ⟨heq, -⟩ | ⟨R, rfl, -, hbase, heq⟩ |
    ⟨R, p, res, rfl, hbase, -, -, heq⟩
  · rw [heq]
    exact hw
  · rw [heq]
    exact hw.served (hbase ▸ hB _ rfl) ((Run.steady_begin _).bureau hw.bureau)
  · rw [heq]
    exact hw.served hbase ((Run.steady_resume res _ p).bureau hw.bureau)

theorem sound_run (env : Env) (calls : List Call) :
    Sound env (fun _ => True) (run env calls .init) :=
  run_induction env (fun _ c hw => hw.exec c fun _ _ => trivial) calls (sound_init env _)

end Sound

/-! ## Ids that are submitted once -/

/-- The ids that a sequence of calls submits. -/
def submittedIds (calls : List Call) : List String :=
  calls.filterMap fun
    | .start a => some a.applicationId
    | _ => none

theorem mem_submittedIds_start {id : String} {a : LoanApplication} :
    id ∈ submittedIds [.start a] ↔ id = a.applicationId := by
  simp [submittedIds]

theorem submittedIds_append (calls calls' : List Call) :
    submittedIds (calls ++ calls') = submittedIds calls ++ submittedIds calls' :=
  List.filterMap_append

/-- A call stores no new thread unless it is a submission. -/
theorem Sound.store_exec {env : Env} {B : UnderwritingState → Prop} {w : World}
    (hw : Sound env B w) (c : Call) {id : String}
    (h : (Underwriting.exec env w c).store id ≠ none) :
    w.store id ≠ none ∨ id ∈ submittedIds [c] := by
  rcases hw.exec_cases c with ⟨heq, -⟩ | ⟨R, rfl, -, -, heq⟩ | ⟨R, p, res, rfl, -, hstore, -, heq⟩
  · rw [heq] at h
    exact .inl h
  · by_cases hid : id = R.application.applicationId
    · exact .inr (mem_submittedIds_start.2 hid)
    · rw [heq] at h
      rw [Run.store_served_of_ne _ w hid] at h
      exact .inl h
  · by_cases hid : id = R.application.applicationId
    · rw [hid, hstore]
      exact .inl (Option.some_ne_none _)
    · rw [heq] at h
      rw [Run.store_served_of_ne _ w hid] at h
      exact .inl h

/-- Nothing is stored under an id that has not been submitted. -/
theorem store_of_not_submitted (env : Env) {calls : List Call} {id : String}
    (h : id ∉ submittedIds calls) : (run env calls .init).store id = none := by
  induction calls using List.reverseRecOn with
  | nil => rfl
  | append_singleton calls c ih =>
      rw [submittedIds_append, List.mem_append, not_or] at h
      by_contra hstored
      rw [run_append] at hstored
      rcases (sound_run env calls).store_exec c hstored with hstored' | hmem
      · exact hstored' (ih h.1)
      · exact h.2 hmem

/-- When no id is submitted twice, every run was started over blank values. -/
theorem sound_of_nodup (env : Env) (calls : List Call) (hnodup : (submittedIds calls).Nodup) :
    Sound env (· = .blank) (run env calls .init) ∧
      ∀ id, (run env calls .init).store id ≠ none → id ∈ submittedIds calls := by
  induction calls using List.reverseRecOn with
  | nil => exact ⟨sound_init env _, fun id h => absurd rfl h⟩
  | append_singleton calls c ih =>
      rw [submittedIds_append] at hnodup
      obtain ⟨hsound, hids⟩ := ih hnodup.of_append_left
      have hfresh (a : LoanApplication) (hc : c = .start a) :
          storedValues (run env calls .init) a.applicationId = .blank := by
        have hnot : a.applicationId ∉ submittedIds calls := fun hmem =>
          (List.nodup_append.1 hnodup).2.2 _ hmem _ (by simp [submittedIds, hc]) rfl
        have hnone : (run env calls .init).store a.applicationId = none := by
          by_contra hsome
          exact hnot (hids _ hsome)
        rw [storedValues, hnone]
        rfl
      rw [run_append]
      refine ⟨hsound.exec c hfresh, fun id h => ?_⟩
      rw [submittedIds_append, List.mem_append]
      exact (hsound.store_exec c h).imp (hids id) fun hmem => hmem

/-! ## What is reported of a case -/

/-- Only a completed case reports that it is completed. -/
theorem Run.exists_completed {env : Env} {R : Run} {p : Progress env R.application} {id : String}
    (h : (summarize id (R.thread env p)).status = "completed") :
    ∃ c rationale, p = .completed c rationale := by
  cases p with
  | completed c rationale => exact ⟨c, rationale, rfl⟩
  | extracting => exact absurd h (by simp [summarize, thread, due])
  | scoring x hx => exact absurd h (by simp [summarize, thread, due])
  | awaiting x hx => exact absurd h (by simp [summarize, thread, due])
  | explaining c => exact absurd h (by simp [summarize, thread, due])

theorem Run.reports_completed_iff {env : Env} {R : Run} {p : Progress env R.application}
    {id : String} :
    (summarize id (R.thread env p)).status = "completed" ↔ (R.thread env p).next = none := by
  constructor
  · intro h
    obtain ⟨c, rationale, rfl⟩ := exists_completed h
    rfl
  · intro h
    cases p with
    | completed c rationale => rfl
    | extracting => cases h
    | scoring x hx => cases h
    | awaiting x hx => cases h
    | explaining c => cases h

/-! ## One case through the calls -/

/-- A resolution moves the case that is stored; only a completed case is left where it is. -/
theorem exec_resolve_case {env : Env} {R : Run} {w : World} {p : Progress env R.application}
    (hstore : w.store R.application.applicationId = some (R.thread env p))
    (hbureau : (w.runtime.breakers .creditBureau).state = .closed) (res : EscalationResolution) :
    (exec env w (.resolve R.application.applicationId res)).store R.application.applicationId =
        some (R.thread env (R.resume env res
          (w.runtime.resolving R.application.applicationId res) p).2.1) ∧
      ((exec env w (.resolve R.application.applicationId res)).runtime.breakers
        .creditBureau).state = .closed ∧
      ((R.due env p).isSome = true →
        (exec env w (.resolve R.application.applicationId res)).runtime =
          (R.resume env res (w.runtime.resolving R.application.applicationId res) p).2.2) := by
  cases hdue : R.due env p with
  | none =>
      rw [exec_resolve_of_finished res hstore hdue]
      refine ⟨?_, hbureau, fun h => by cases h⟩
      cases p with
      | completed c rationale => exact hstore
      | extracting => cases hdue
      | scoring x h => cases hdue
      | awaiting x h => cases hdue
      | explaining c => cases hdue
  | some node =>
      have hsome : (R.due env p).isSome = true := by rw [hdue]; rfl
      rw [exec_resolve_eq res hstore hsome hbureau]
      exact ⟨Run.store_served _ w, (Run.steady_resume res _ p).bureau hbureau, fun _ => rfl⟩

section Cases

variable {env : Env} {B : UnderwritingState → Prop} {w : World} {R : Run}

/-- A call that does not submit the id of a case leaves the case or resumes it. -/
theorem Sound.store_exec_case (hw : Sound env B w) {p : Progress env R.application}
    (hstore : w.store R.application.applicationId = some (R.thread env p)) (c : Call)
    (hno : R.application.applicationId ∉ submittedIds [c]) :
    ∃ p', (Underwriting.exec env w c).store R.application.applicationId =
        some (R.thread env p') ∧ (p' = p ∨ ∃ res r, p' = (R.resume env res r p).2.1) := by
  rcases hw.exec_cases c with ⟨heq, -⟩ | ⟨R', rfl, -, -, heq⟩ | ⟨R', p', res, rfl, -, -, -, heq⟩
  · rw [heq]
    exact ⟨p, hstore, .inl rfl⟩
  · have hid : R.application.applicationId ≠ R'.application.applicationId := fun h =>
      hno (by simp [submittedIds, h])
    rw [heq, Run.store_served_of_ne _ w hid]
    exact ⟨p, hstore, .inl rfl⟩
  · by_cases hid : R.application.applicationId = R'.application.applicationId
    · rw [← hid]
      exact ⟨_, (exec_resolve_case hstore hw.bureau res).1, .inr ⟨res, _, rfl⟩⟩
    · rw [heq, Run.store_served_of_ne _ w hid]
      exact ⟨p, hstore, .inl rfl⟩

theorem not_mem_submittedIds_append {id : String} (calls calls' : List Call) :
    id ∉ submittedIds (calls ++ calls') ↔ id ∉ submittedIds calls ∧ id ∉ submittedIds calls' := by
  rw [submittedIds_append, List.mem_append, not_or]

/-- What resume values keep of a case holds of it as long as its id is not submitted again. -/
theorem Sound.store_run_case {P : Progress env R.application → Prop}
    (hstep : ∀ res r p, P p → P (R.resume env res r p).2.1) (later : List Call)
    (hw : Sound env (fun _ => True) w) {p : Progress env R.application}
    (hstore : w.store R.application.applicationId = some (R.thread env p)) (hp : P p)
    (hno : R.application.applicationId ∉ submittedIds later) :
    ∃ p', (run env later w).store R.application.applicationId = some (R.thread env p') ∧ P p' := by
  induction later generalizing w p with
  | nil => exact ⟨p, hstore, hp⟩
  | cons c later ih =>
      obtain ⟨hc, hlater⟩ := (not_mem_submittedIds_append [c] later).1 hno
      obtain ⟨p', hstore', hp'⟩ := hw.store_exec_case hstore c hc
      have hkept : P p' := by
        rcases hp' with rfl | ⟨res, r, rfl⟩
        · exact hp
        · exact hstep res r p hp
      rw [run_cons]
      exact ih (hw.exec c fun _ _ => trivial) hstore' hkept hlater

/-- The submission of a fresh id. -/
theorem store_exec_start_fresh (env : Env) {a : LoanApplication}
    (hbureau : (w.runtime.breakers .creditBureau).state = .closed)
    (hfresh : w.store a.applicationId = none) :
    (exec env w (.start a)).store a.applicationId =
      some ((Run.fresh a s!"corr_{env.uuid w.runtime.uuids}").thread env
        ((Run.fresh a s!"corr_{env.uuid w.runtime.uuids}").begin env
          (w.runtime.launched ⟨a, s!"corr_{env.uuid w.runtime.uuids}"⟩)).2.1) := by
  rw [exec, startApplication_fresh env hbureau hfresh]
  exact Run.store_served (R := Run.fresh a _) _ w

/-- What the submission of a fresh id establishes and resume values keep. -/
theorem store_run_fresh {a : LoanApplication} {P : Progress env a → Prop}
    (hbegin : ∀ c r, P ((Run.fresh a c).begin env r).2.1)
    (hstep : ∀ c res r p, P p → P ((Run.fresh a c).resume env res r p).2.1)
    {before later : List Call} (hfresh : (run env before .init).store a.applicationId = none)
    (hno : a.applicationId ∉ submittedIds later) :
    ∃ c p, (run env (.start a :: later) (run env before .init)).store a.applicationId =
      some ((Run.fresh a c).thread env p) ∧ P p := by
  have hsound := sound_run env before
  generalize run env before .init = w at hfresh hsound
  have hstore := store_exec_start_fresh env hsound.bureau hfresh
  exact ⟨_, (hsound.exec (.start a) fun _ _ => trivial).store_run_case (R := Run.fresh a _)
    (hstep _) later hstore (hbegin _ _) hno⟩

end Cases

end Underwriting
