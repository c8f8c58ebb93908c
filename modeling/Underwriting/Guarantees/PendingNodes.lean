import Underwriting.Guarantees.DecisionTable

/-!
# Pending nodes

A node that raises stays pending, and the service takes every pending node for a pause. The
nodes that can raise are the two that ask the chat model and the risk scoring, which has no
assessment for figures whose ratio is no number. In every reachable state the reported status,
the reported escalation and what a resolution does are exact for precisely those threads that
no exception has left pending, and with a model whose replies are always usable and whose
figures are finite there is no other thread.
-/

namespace Underwriting

open Python ApplicationService

/-- The thread is suspended at the `interrupt()` of the human escalation. -/
def Suspended (t : Thread) (payload : Json) : Prop :=
  t.next = some .humanEscalation ∧ t.interrupts = [payload]

/-- An exception has left a node pending: one is due that does not wait for a reviewer. -/
def LeftPending (t : Thread) : Prop := ∃ n, t.next = some n ∧ n ≠ .humanEscalation

/-- The summary reports a pause exactly for a suspended thread, with its payload. -/
structure StatusExact (t : Thread) (summary : ApplicationSummary) : Prop where
  status : summary.status = "awaiting_escalation" ↔ ∃ payload, Suspended t payload
  pending : ∀ payload, summary.pendingEscalation = some payload ↔ Suspended t payload
  nonnull : summary.pendingEscalation ≠ some .null

namespace Run

variable {env : Env} {R : Run}

theorem not_leftPending_iff (p : Progress env R.application) :
    ¬ LeftPending (R.thread env p) ↔ Parked p := by
  cases p <;> simp [LeftPending, thread, due, Parked]

theorem suspended_awaiting_iff (x : ExtractedFinancials) (h : NeedsHuman env R.application x)
    (payload : Json) :
    Suspended (R.thread env (.awaiting x h)) payload ↔ .obj (R.payload env x) = payload := by
  simp [Suspended, thread, due, interrupts]

theorem not_suspended_of_not_awaiting {p : Progress env R.application} {payload : Json}
    (h : R.due env p ≠ some .humanEscalation) : ¬ Suspended (R.thread env p) payload :=
  fun hsuspended => h hsuspended.1

theorem statusExact_iff (p : Progress env R.application) :
    StatusExact (R.thread env p) (summarize R.application.applicationId (R.thread env p)) ↔
      ¬ LeftPending (R.thread env p) := by
  rw [not_leftPending_iff]
  cases p with
  | extracting | scoring | explaining =>
      -- Any due node is reported as a pause.
      refine iff_of_false (fun hexact => ?_) not_false
      obtain ⟨payload, hnext, -⟩ := hexact.status.1 rfl
      cases hnext
  | awaiting x h =>
      have hpending : (summarize R.application.applicationId
          (R.thread env (.awaiting x h))).pendingEscalation = some (.obj (R.payload env x)) := rfl
      refine iff_of_true ⟨?_, fun payload => ?_, ?_⟩ trivial
      · exact iff_of_true rfl ⟨_, (suspended_awaiting_iff x h _).2 rfl⟩
      · rw [hpending, suspended_awaiting_iff, Option.some.injEq]
      · rw [hpending]
        simp
  | completed c rationale =>
      have hsuspended (payload : Json) :
          ¬ Suspended (R.thread env (.completed c rationale)) payload :=
        not_suspended_of_not_awaiting (Option.some_ne_none _).symm
      have hstatus : (summarize R.application.applicationId
          (R.thread env (.completed c rationale))).status = "completed" := rfl
      have hpending : (summarize R.application.applicationId
          (R.thread env (.completed c rationale))).pendingEscalation = none := rfl
      refine iff_of_true ⟨?_, fun payload => ?_, ?_⟩ trivial
      · rw [hstatus]
        exact iff_of_false (by decide) fun ⟨payload, h⟩ => hsuspended payload h
      · rw [hpending]
        exact iff_of_false (Option.some_ne_none _).symm (hsuspended payload)
      · rw [hpending]
        exact (Option.some_ne_none _).symm

end Run

/-! ## A usable model -/

/-- The chat model is not cut off and no thread is left pending. -/
structure Untroubled (env : Env) (w : World) : Prop where
  sound : Sound env (fun _ => True) w
  ready : w.runtime.ModelReady
  parked : ∀ id t, w.store id = some t → ¬ LeftPending t

theorem Untroubled.served {env : Env} {w w' : World} (hw : Untroubled env w)
    (hsound : Sound env (fun _ => True) w') {R : Run} {o : R.Outcome env}
    (ho : Run.Parked o.2.1 ∧ o.2.2.ModelReady) (hw' : w' = (Run.served o w).2) :
    Untroubled env w' := by
  subst hw'
  refine ⟨hsound, ho.2, fun id t ht => ?_⟩
  by_cases hid : id = R.application.applicationId
  · rw [hid, Run.store_served, Option.some.injEq] at ht
    subst ht
    exact (Run.not_leftPending_iff _).2 ho.1
  · rw [Run.store_served_of_ne o w hid] at ht
    exact hw.parked id t ht

theorem Untroubled.exec {env : Env} (husable : Usable env) {w : World} (hw : Untroubled env w)
    (c : Call) : Untroubled env (exec env w c) := by
  have hsound := hw.sound.exec c fun _ _ => trivial
  rcases hw.sound.exec_cases c with ⟨heq, -⟩ | ⟨R, -, -, -, heq⟩ |
    ⟨R, p, res, -, -, hstore, -, heq⟩
  · rw [heq]
    exact hw
  · exact hw.served hsound
      (Run.begin_parks (r := w.runtime.launched R.submission) husable hw.ready) heq
  · have hparked : Run.Parked p := (Run.not_leftPending_iff p).1 (hw.parked _ _ hstore)
    exact hw.served hsound
      (Run.resume_parks (r := w.runtime.resolving R.application.applicationId res) husable hw.ready
        res hparked) heq

theorem untroubled_run {env : Env} (husable : Usable env) (calls : List Call) :
    Untroubled env (run env calls .init) :=
  run_induction env (fun _ c hw => hw.exec husable c) calls
    ⟨sound_init env _, rfl, fun _ _ h => nomatch h⟩

/-! ## The reported status -/

theorem status_exact_iff (env : Env) (calls : List Call) (id : String) (t : Thread)
    (ht : (run env calls .init).store id = some t) :
    (getApplication id (run env calls .init)).1 = .ok (summarize id t) ∧
      (StatusExact t (summarize id t) ↔ ¬ LeftPending t) ∧ (Usable env → ¬ LeftPending t) := by
  obtain ⟨R, p, -, rfl, rfl⟩ := (sound_run env calls).threads id t ht
  refine ⟨?_, Run.statusExact_iff p, fun husable => ?_⟩
  · rw [getApplication_of_store ht]
  · exact (untroubled_run husable calls).parked _ _ ht

theorem status_exact_sample :
    ∃ t, (run sampleEnv [.start sampleApplication] .init).store "app_1" = some t ∧
      StatusExact t (summarize "app_1" t) := by
  obtain ⟨rationale, hstore, -⟩ :=
    run_start_completes (replies_sample sampleApplication) not_needsHuman_sample
  obtain ⟨-, hiff, hparked⟩ :=
    status_exact_iff sampleEnv [.start sampleApplication] "app_1" _ hstore
  exact ⟨_, hstore, hiff.2 (hparked usable_sample)⟩

/-- A model that never answers. -/
def silentEnv : Env := .scripted .default sampleDigest none none

theorem run_start_silent :
    (run silentEnv [.start sampleApplication] .init).store "app_1" =
      some ((Run.first silentEnv sampleApplication).thread silentEnv .extracting) :=
  run_start_raises (scripted_none none sampleApplication)

/-- After a submission whose extraction has failed the service reports a pause, although no
reviewer is asked. -/
theorem paused_without_reviewer :
    ∃ t, (run silentEnv [.start sampleApplication] .init).store "app_1" = some t ∧
      (summarize "app_1" t).status = "awaiting_escalation" ∧
      (summarize "app_1" t).pendingEscalation = none ∧ ∀ payload, ¬ Suspended t payload :=
  ⟨_, run_start_silent, rfl, rfl, fun _ h => nomatch h.1⟩

/-! ## The effect of a resolution -/

/-- What a resolution may do: settle a suspended thread, or refuse and change nothing. -/
structure ResolveExact (env : Env) (w : World) (id : String) (res : EscalationResolution) :
    Prop where
  returns : ∀ summary, (resolveEscalation env id res w).1 = .ok summary →
    (∃ t payload, w.store id = some t ∧ Suspended t payload) ∧
    ∃ (t : Thread) (d : Decision), (resolveEscalation env id res w).2.store id = some t ∧
      t.values.escalationResolution = some res.modelDump ∧ t.values.decision = some d.modelDump ∧
      (d.outcome = .approved ↔ res.approve = true) ∧
      d.decidedBy = s!"human_reviewer:{res.reviewerId}"
  refuses : ∀ id', (resolveEscalation env id res w).1 = .error (.applicationNotFoundError id') ∨
      (resolveEscalation env id res w).1 = .error (.applicationNotAwaitingEscalationError id') →
    (resolveEscalation env id res w).2.store = w.store
  awaiting : ∀ t, w.store id = some t → (∀ payload, ¬ Suspended t payload) →
    (resolveEscalation env id res w).1 = .error (.applicationNotAwaitingEscalationError id)

namespace Run

variable {env : Env} {R : Run}

/-- What a move raises is not one of the service's refusals. -/
theorem explain_isControl {c : Settled env R.application} {r : Runtime} {e : Exn}
    (h : (R.explain env c r).1 = .error e) : e.isControl = false := by
  rcases hw : writeRationale env R.application c.extracted (R.effective env c) r with
    ⟨e' | rationale, r'⟩
  · rw [explain_of_error hw] at h
    cases h
    exact raises_writeRationale env _ _ _ _ _ _ hw
  · rw [explain_of_ok hw] at h
    cases h

theorem unscored_isControl {x : ExtractedFinancials} {r : Runtime}
    (hx : Unscorable env.arithmetic R.application x) {e : Exn}
    (h : (R.unscored env x hx r).1 = .error e) : e.isControl = false := by
  cases h
  rfl

theorem extract_isControl {r : Runtime} {e : Exn} (h : (R.extract env r).1 = .error e) :
    e.isControl = false := by
  rcases hread : readDocument env R.application r with ⟨e' | x, r'⟩
  · rw [extract_of_error hread] at h
    cases h
    exact raises_readDocument env _ _ _ _ hread
  · rw [extract_of_ok hread] at h
    by_cases hx : Unscorable env.arithmetic R.application x
    · rw [appraise_of_unscorable hx] at h
      exact unscored_isControl hx h
    by_cases hhuman : NeedsHuman env R.application x
    · rw [appraise_of_needsHuman hx hhuman] at h
      cases h
    · rw [appraise_of_not_needsHuman hx hhuman] at h
      exact explain_isControl h

/-- An explanation that returns has completed its case. -/
theorem completed_of_returns {c : Settled env R.application} {r : Runtime} {w : World}
    {summary : ApplicationSummary} (h : (Run.served (R.explain env c r) w).1 = .ok summary) :
    ∃ rationale, (R.explain env c r).2.1 = .completed c rationale := by
  rcases hw : writeRationale env R.application c.extracted (R.effective env c) r with
    ⟨e | rationale, r'⟩
  · rw [explain_of_error hw] at h
    cases h
  · exact ⟨rationale, by rw [explain_of_ok hw]⟩

theorem served_ne_refusal {o : R.Outcome env} {w : World} {e : Exn} (hcontrol : e.isControl = true)
    (ho : ∀ e', o.1 = .error e' → e'.isControl = false) : (Run.served o w).1 ≠ .error e := by
  intro h
  rcases o with ⟨e' | _, p, r⟩
  · have heq : Except.error e' = (Except.error e : Except Exn ApplicationSummary) := h
    rw [Except.error.injEq] at heq
    have hfalse := ho e' rfl
    rw [heq, hcontrol] at hfalse
    cases hfalse
  · cases h

end Run

namespace ResolveExact

variable {env : Env} {w : World}

/-- A refusal that changes nothing is exact for an unknown id and for a finished thread. -/
theorem of_refused {id : String} {res : EscalationResolution} {e : Exn}
    (hresolve : resolveEscalation env id res w = (.error e, w))
    (hawaiting : ∀ t, w.store id = some t → e = .applicationNotAwaitingEscalationError id) :
    ResolveExact env w id res := by
  refine ⟨fun summary h => ?_, fun _ _ => ?_, fun t ht _ => ?_⟩
  · rw [hresolve] at h
    cases h
  · rw [hresolve]
  · rw [hresolve, hawaiting t ht]

variable {R : Run} {res : EscalationResolution}

/-- A thread that a failure has left pending is moved on instead of being refused. -/
theorem not_of_due {p : Progress env R.application} {o : R.Outcome env}
    (hstore : w.store R.application.applicationId = some (R.thread env p))
    (hdue : R.due env p ≠ some .humanEscalation)
    (hresolve : resolveEscalation env R.application.applicationId res w = Run.served o w)
    (ho : ∀ e, o.1 = .error e → e.isControl = false) :
    ¬ ResolveExact env w R.application.applicationId res := by
  intro hexact
  have hrefused := hexact.awaiting _ hstore fun _ => Run.not_suspended_of_not_awaiting hdue
  rw [hresolve] at hrefused
  exact Run.served_ne_refusal rfl ho hrefused

theorem of_awaiting {x : ExtractedFinancials} {h : NeedsHuman env R.application x}
    (hstore : w.store R.application.applicationId = some (R.thread env (.awaiting x h)))
    (hbureau : (w.runtime.breakers .creditBureau).state = .closed) :
    ResolveExact env w R.application.applicationId res := by
  have hresolve := resolveEscalation_eq res hstore rfl hbureau
  rw [Run.resume_awaiting] at hresolve
  have hsuspended := (Run.suspended_awaiting_iff x h _).2 rfl
  refine ⟨fun summary hok => ⟨⟨_, _, hstore, hsuspended⟩, ?_⟩, fun id' hrefused => ?_,
    fun t ht hnot => ?_⟩
  · rw [hresolve] at hok ⊢
    obtain ⟨rationale, hcompleted⟩ := Run.completed_of_returns hok
    refine ⟨R.thread env (.completed (.reviewed x h res) rationale),
      R.decision env (.reviewed x h res) rationale, ?_, rfl, rfl, ?_, rfl⟩
    · rw [Run.store_served, hcompleted]
    · exact decisionFor_some_approved_iff env R.application x res rationale
  · rw [hresolve] at hrefused
    rcases hrefused with hrefused | hrefused
    · exact absurd hrefused (Run.served_ne_refusal rfl fun _ => Run.explain_isControl)
    · exact absurd hrefused (Run.served_ne_refusal rfl fun _ => Run.explain_isControl)
  · rw [hstore, Option.some.injEq] at ht
    subst ht
    exact absurd hsuspended (hnot _)

end ResolveExact

theorem resolve_exact_iff (env : Env) (calls : List Call) (id : String)
    (res : EscalationResolution) :
    ResolveExact env (run env calls .init) id res ↔
      ∀ t, (run env calls .init).store id = some t → ¬ LeftPending t := by
  have hsound := sound_run env calls
  generalize run env calls .init = w at hsound
  cases hstore : w.store id with
  | none =>
      exact iff_of_true (.of_refused (resolveEscalation_of_unknown res hstore) fun t ht =>
        nomatch hstore.symm.trans ht) fun t ht => nomatch ht
  | some t =>
      obtain ⟨R, p, -, rfl, rfl⟩ := hsound.threads id t hstore
      have hparked : (∀ t, some (R.thread env p) = some t → ¬ LeftPending t) ↔ Run.Parked p := by
        rw [← Run.not_leftPending_iff]
        exact ⟨fun h => h _ rfl, fun h t ht => Option.some.inj ht ▸ h⟩
      rw [hparked]
      cases p with
      | extracting =>
          have hresolve := resolveEscalation_eq res hstore rfl hsound.bureau
          exact iff_of_false (ResolveExact.not_of_due hstore (by simp [Run.due]) hresolve
            fun _ => Run.extract_isControl)
            not_false
      | scoring x h =>
          have hresolve := resolveEscalation_eq res hstore rfl hsound.bureau
          exact iff_of_false (ResolveExact.not_of_due hstore (by simp [Run.due]) hresolve
            fun _ => Run.unscored_isControl h)
            not_false
      | awaiting x h => exact iff_of_true (.of_awaiting hstore hsound.bureau) trivial
      | explaining c =>
          have hresolve := resolveEscalation_eq res hstore rfl hsound.bureau
          exact iff_of_false (ResolveExact.not_of_due hstore (by simp [Run.due]) hresolve
            fun _ => Run.explain_isControl)
            not_false
      | completed c rationale =>
          exact iff_of_true (.of_refused (resolveEscalation_of_finished res hstore rfl)
            fun _ _ => rfl)
            trivial

/-- A resolution for a submission whose extraction has failed is not refused: the extraction
is tried again. -/
theorem resolution_not_refused :
    ∃ t, (run silentEnv [.start sampleApplication] .init).store "app_1" = some t ∧
      (∀ payload, ¬ Suspended t payload) ∧
      (resolveEscalation silentEnv "app_1" sampleResolution
          (run silentEnv [.start sampleApplication] .init)).1 ≠
        .error (.applicationNotAwaitingEscalationError "app_1") ∧
      ¬ ResolveExact silentEnv (run silentEnv [.start sampleApplication] .init) "app_1"
        sampleResolution := by
  have hbureau := (sound_run silentEnv [.start sampleApplication]).bureau
  have hresolve := resolveEscalation_eq (R := Run.first silentEnv sampleApplication)
    (p := .extracting) sampleResolution run_start_silent rfl hbureau
  have hpending (payload : Json) : ¬ Suspended ((Run.first silentEnv sampleApplication).thread
      silentEnv .extracting) payload :=
    Run.not_suspended_of_not_awaiting (by simp [Run.due])
  refine ⟨_, run_start_silent, hpending, ?_, ?_⟩
  · intro hrefused
    have hserved := (congrArg Prod.fst hresolve).symm.trans hrefused
    exact Run.served_ne_refusal rfl (fun _ => Run.extract_isControl) hserved
  · exact ResolveExact.not_of_due run_start_silent (by simp [Run.due]) hresolve
      fun _ => Run.extract_isControl

end Underwriting
