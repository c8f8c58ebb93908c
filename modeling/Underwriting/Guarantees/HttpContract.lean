import Underwriting.Guarantees.CrashSafety
import Underwriting.Guarantees.Interleaving

/-!
# The HTTP contract

`Contract` says what a request may be answered and what it may leave stored, given what is
stored when its endpoint runs. Its cases are the routes' documented answers and one more for
submissions and resolutions: a node of the graph has raised, the thread is stored nonetheless,
and the answer is the server's own. No envelope ever rejects what the service returns, and no
rationale lacks a field, because stored slices are typed.
-/

namespace Underwriting

open Python ApplicationService Api Api.Server

namespace Api

def stateReply (status : ℕ) (applicationId : String) (t : Thread) : Reply :=
  ⟨status, .applicationState (.of (summarize applicationId t))⟩

def rationaleReply (applicationId : String) (d : Decision) : Reply :=
  ⟨200, .rationale ⟨applicationId, d.outcome.value, d.rationale, d.adverseActionReasons,
    d.decidedBy⟩⟩

inductive Contract : Option Store → Route → Option Reply → Option Store → Prop
  | healthz {store} : Contract store .healthz (some ⟨200, .health ⟨"ok", none⟩⟩) store
  | notReady :
      Contract none .readyz (some ⟨503, .detail "service not yet initialized"⟩) none
  | ready {store : Store} : Contract (some store) .readyz
      (some ⟨200, .health ⟨"ok", some "checkpointer and chat model initialized"⟩⟩) (some store)
  | noService {route c} (h : route.call = some c) : Contract none route none none
  | rejectedApplication {store} : Contract store (.submitApplication none) (some rejected) store
  | submitted {store a t} : Contract (some store) (.submitApplication (some a))
      (some (stateReply 201 a.applicationId t))
      (some (Function.update store a.applicationId (some t)))
  | submissionFailed {store a t} : Contract (some store) (.submitApplication (some a)) none
      (some (Function.update store a.applicationId (some t)))
  | found {store id t} (h : store id = some t) :
      Contract (some store) (.getApplication id) (some (stateReply 200 id t)) (some store)
  | unknown {store id} (h : store id = none) :
      Contract (some store) (.getApplication id) (some (notFound id)) (some store)
  | rejectedResolution {store id} :
      Contract store (.resolveEscalation id none) (some rejected) store
  | resolutionUnknown {store id res} (h : store id = none) :
      Contract (some store) (.resolveEscalation id (some res)) (some (notFound id)) (some store)
  | resolutionRefused {store id res t} (h : store id = some t) (hnext : t.next = none) :
      Contract (some store) (.resolveEscalation id (some res)) (some (notAwaitingEscalation id))
        (some store)
  | resolved {store id res t t' n} (h : store id = some t) (hnext : t.next = some n) :
      Contract (some store) (.resolveEscalation id (some res)) (some (stateReply 200 id t'))
        (some (Function.update store id (some t')))
  | resolutionFailed {store id res t t' n} (h : store id = some t) (hnext : t.next = some n) :
      Contract (some store) (.resolveEscalation id (some res)) none
        (some (Function.update store id (some t')))
  | rationaleUnknown {store id} (h : store id = none) :
      Contract (some store) (.getRationale id) (some (notFound id)) (some store)
  | undecided {store id t} (h : store id = some t) (hnone : t.values.decision = none) :
      Contract (some store) (.getRationale id) (some (decisionNotAvailable id)) (some store)
  | explained {store id t} {d : Decision} (h : store id = some t)
      (hd : t.values.decision = some d.modelDump) :
      Contract (some store) (.getRationale id) (some (rationaleReply id d)) (some store)

/-! ## The slices of a summary -/

theorem isDict_of_dumpOf {α : Type} {dump : α → Json} {value : Option Json}
    (hdump : ∀ a, ∃ entries, dump a = .obj entries) (h : DumpOf dump value) : IsDict value := by
  obtain ⟨x, rfl⟩ := h
  intro j hj
  obtain ⟨a, -, rfl⟩ := Option.map_eq_some_iff.1 hj
  exact hdump a

section Slices

variable {env : Env} {w : World} {id : String} {t : Thread}

/-- The summary of a stored thread fits its envelope. -/
theorem sliced_summarize (h : KeepsTyped env w.store) (ht : w.store id = some t) :
    Sliced (summarize id t) := by
  obtain ⟨R, st, -, hat, htyped⟩ := h.exists_case ht
  constructor
  · have happ : t.values.application = R.application.modelDump := by
      rw [hat.values]
      exact (Run.holds_writtenAt st).application
    rintro j ⟨⟩
    exact ⟨_, happ⟩
  · exact isDict_of_dumpOf (fun _ => ⟨_, rfl⟩) htyped.extractedFinancials
  · exact isDict_of_dumpOf (fun _ => ⟨_, rfl⟩) htyped.riskAssessment
  · exact isDict_of_dumpOf (fun _ => ⟨_, rfl⟩) htyped.policyResult
  · exact isDict_of_dumpOf (fun _ => ⟨_, rfl⟩) htyped.decision
  · intro j hj
    rw [summarize] at hj
    dsimp only at hj
    split at hj
    · rcases hat.interrupts with hnil | ⟨f, -, -, hone⟩
      · rw [hnil] at hj
        cases hj
      · rw [hone] at hj
        cases hj
        exact ⟨_, rfl⟩
    · cases hj
  · exact isDict_of_dumpOf (fun _ => ⟨_, rfl⟩) htyped.escalationRequest
  · exact isDict_of_dumpOf (fun _ => ⟨_, rfl⟩) htyped.escalationResolution

theorem modelValidate_summarize (h : KeepsTyped env w.store) (ht : w.store id = some t) :
    ApplicationStateResponse.modelValidate (summarize id t) = .ok (.of (summarize id t)) :=
  ApplicationStateResponse.modelValidate_of_sliced (sliced_summarize h ht)

end Slices

/-! ## One request -/

section Dispatch

variable {env : Env} {w : World} {id : String} {t : Thread}

theorem exceptionHandler_of_not_isRefusal {e : Exn} (h : e.isRefusal = false) :
    exceptionHandler (.service e) = none := by
  cases e <;> first | rfl | cases h

/-- A call whose result validates is answered with it. -/
theorem dispatch_served {α β : Type} {m : ServiceM α} {validate : α → Except Exn β}
    {reply : β → Reply} {route : Route} {a : α} {b : β} {w' : World}
    (hroute : endpoint env route = served m validate reply) (hm : m w = (.ok a, w'))
    (hvalid : validate a = .ok b) : dispatch env route (some w) = (some (reply b), some w') :=
  dispatch_of_ok (by rw [hroute]; exact served_of_ok hm hvalid)

/-- A call that returns the thread it has stored is answered with the envelope of its summary. -/
theorem dispatch_stored {m : ServiceM ApplicationSummary} {route : Route} {status : ℕ}
    (hroute : endpoint env route = served m ApplicationStateResponse.modelValidate
      fun r => ⟨status, .applicationState r⟩)
    (hkeeps : KeepsTyped env (m w).2.store) (ht : (m w).2.store id = some t)
    (hok : (m w).1 = .ok (summarize id t)) :
    (dispatch env route (some w)).1 = some (stateReply status id t) := by
  have hm : m w = (.ok (summarize id t), (m w).2) := Prod.ext hok rfl
  rw [dispatch_served hroute hm (modelValidate_summarize hkeeps ht)]
  rfl

/-- One that raises no refusal is answered by the server. -/
theorem dispatch_raised {α β : Type} {m : ServiceM α} {validate : α → Except Exn β}
    {reply : β → Reply} {route : Route} {e : Exn}
    (hroute : endpoint env route = served m validate reply) (herror : (m w).1 = .error e)
    (hrefusal : e.isRefusal = false) : (dispatch env route (some w)).1 = none := by
  have hm : m w = (.error e, (m w).2) := Prod.ext herror rfl
  rw [dispatch_of_error (by rw [hroute]; exact served_of_error hm)]
  exact exceptionHandler_of_not_isRefusal hrefusal

/-- A call that is refused is answered by an exception handler and leaves the world. -/
theorem dispatch_refused {α β : Type} {m : ServiceM α} {validate : α → Except Exn β}
    {reply : β → Reply} {route : Route} {e : Exn}
    (hroute : endpoint env route = served m validate reply) (hm : m w = (.error e, w)) :
    dispatch env route (some w) = (exceptionHandler (.service e), some w) :=
  dispatch_of_error (by rw [hroute]; exact served_of_error hm)

theorem store_leave_start_eq {a : LoanApplication}
    (ht : (leave env recursionLimit w (.start a)).store a.applicationId = some t) :
    (leave env recursionLimit w (.start a)).store =
      Function.update w.store a.applicationId (some t) := by
  rw [store_leave_start, Function.update_self, Option.some.injEq] at ht
  rw [store_leave_start, ht]

theorem store_leave_resolve_eq {n : Node} {t' : Thread} {res : EscalationResolution}
    (hstore : w.store id = some t) (hnext : t.next = some n)
    (ht : (leave env recursionLimit w (.resolve id res)).store id = some t') :
    (leave env recursionLimit w (.resolve id res)).store =
      Function.update w.store id (some t') := by
  rw [store_leave_resolve hstore hnext, Function.update_self, Option.some.injEq] at ht
  rw [store_leave_resolve hstore hnext, ht]

/-- A stored decision has every field of the rationale. -/
theorem getRationale_of_decided {d : Decision} (hstore : w.store id = some t)
    (hd : t.values.decision = some d.modelDump) :
    ApplicationService.getRationale id w = (.ok ⟨id, .str d.outcome.value, .str d.rationale,
      .ofStrings d.adverseActionReasons, .str d.decidedBy⟩, w) := by
  have hdecision : (summarize id t).decision = some d.modelDump := hd
  rw [ApplicationService.getRationale, Py.bind_of_ok (getApplication_of_store hstore), hdecision]
  rfl

variable (hkeeps : KeepsTyped env w.store)

include hkeeps

theorem submission_contract (a : LoanApplication) :
    Contract (some w.store) (.submitApplication (some a))
      (dispatch env (.submitApplication (some a)) (some w)).1
      ((dispatch env (.submitApplication (some a)) (some w)).2.map World.store) := by
  obtain ⟨t, ht, hanswers⟩ := startApplication_answers a (hkeeps a.applicationId)
  have hkept := hkeeps.leave (rfl : env.unicode = env.unicode) recursionLimit (.start a)
  rw [dispatch_world, Route.call, Option.elim_some, Option.map_some, store_leave_start_eq ht]
  rw [← snd_startApplication] at ht hkept
  rcases hanswers with hok | ⟨e, herror, hrefusal⟩
  · rw [dispatch_stored (endpoint_submitApplication a) hkept ht hok]
    exact .submitted
  · rw [dispatch_raised (endpoint_submitApplication a) herror hrefusal]
    exact .submissionFailed

theorem fetch_contract (id : String) : Contract (some w.store) (.getApplication id)
    (dispatch env (.getApplication id) (some w)).1
    ((dispatch env (.getApplication id) (some w)).2.map World.store) := by
  cases hstore : w.store id with
  | none =>
      have hget : ApplicationService.getApplication id w =
          (.error (.applicationNotFoundError id), w) := by
        simp only [ApplicationService.getApplication, Py.bind_apply, Py.state_apply, hstore]
        rfl
      rw [dispatch_refused (endpoint_getApplication id) hget]
      exact .unknown hstore
  | some t =>
      rw [dispatch_served (endpoint_getApplication id) (getApplication_of_store hstore)
        (modelValidate_summarize hkeeps hstore)]
      exact .found hstore

theorem resolution_contract (id : String) (res : EscalationResolution) :
    Contract (some w.store) (.resolveEscalation id (some res))
      (dispatch env (.resolveEscalation id (some res)) (some w)).1
      ((dispatch env (.resolveEscalation id (some res)) (some w)).2.map World.store) := by
  cases hstore : w.store id with
  | none =>
      rw [dispatch_refused (endpoint_resolveEscalation id res)
        (resolveStored_of_unknown hstore)]
      exact .resolutionUnknown hstore
  | some t =>
      cases hnext : t.next with
      | none =>
          rw [dispatch_refused (endpoint_resolveEscalation id res)
            (resolveStored_of_finished hstore hnext)]
          exact .resolutionRefused hstore hnext
      | some n =>
          obtain ⟨t', ht, hanswers⟩ :=
            @resolveStored_answers env w id t res _ _ (hkeeps id) hstore hnext
          have hkept := hkeeps.leave (rfl : env.unicode = env.unicode) recursionLimit
            (.resolve id res)
          rw [dispatch_world, Route.call, Option.elim_some, Option.map_some,
            store_leave_resolve_eq hstore hnext ht]
          rw [← snd_resolveStored] at ht hkept
          rcases hanswers with hok | ⟨e, herror, hrefusal⟩
          · rw [dispatch_stored (endpoint_resolveEscalation id res) hkept ht hok]
            exact .resolved hstore hnext
          · rw [dispatch_raised (endpoint_resolveEscalation id res) herror hrefusal]
            exact .resolutionFailed hstore hnext

theorem rationale_contract (id : String) : Contract (some w.store) (.getRationale id)
    (dispatch env (.getRationale id) (some w)).1
    ((dispatch env (.getRationale id) (some w)).2.map World.store) := by
  cases hstore : w.store id with
  | none =>
      have hget : ApplicationService.getRationale id w =
          (.error (.applicationNotFoundError id), w) := by
        apply Py.bind_of_error
        simp only [ApplicationService.getApplication, Py.bind_apply, Py.state_apply, hstore]
        rfl
      rw [dispatch_refused (endpoint_getRationale id) hget]
      exact .rationaleUnknown hstore
  | some t =>
      obtain ⟨-, -, -, -, htyped⟩ := hkeeps.exists_case hstore
      obtain ⟨d, hd⟩ := htyped.decision
      cases d with
      | none =>
          have hdecision : (summarize id t).decision = none := hd
          have hget : ApplicationService.getRationale id w =
              (.error (.decisionNotAvailableError id), w) := by
            rw [ApplicationService.getRationale, Py.bind_of_ok (getApplication_of_store hstore),
              hdecision]
            rfl
          rw [dispatch_refused (endpoint_getRationale id) hget]
          exact .undecided hstore hd
      | some d =>
          rw [dispatch_served (endpoint_getRationale id) (getRationale_of_decided hstore hd)
            (RationaleResponse.modelValidate_of_strings _ _ _ _ _)]
          exact .explained hstore hd

/-- Every request keeps to the contract. -/
theorem dispatch_contract (route : Route) : Contract (some w.store) route
    (dispatch env route (some w)).1 ((dispatch env route (some w)).2.map World.store) := by
  cases route with
  | healthz => exact .healthz
  | readyz => exact .ready
  | submitApplication body =>
      cases body with
      | none => exact .rejectedApplication
      | some a => exact submission_contract hkeeps a
  | getApplication id => exact fetch_contract hkeeps id
  | resolveEscalation id body =>
      cases body with
      | none => exact .rejectedResolution
      | some res => exact resolution_contract hkeeps id res
  | getRationale id => exact rationale_contract hkeeps id

end Dispatch

/-- Before the service is there, only the health checks and rejected bodies are answered. -/
theorem dispatch_contract_none {env : Env} (route : Route) :
    Contract none route (dispatch env route none).1
      ((dispatch env route none).2.map World.store) := by
  cases route with
  | healthz => exact .healthz
  | readyz => exact .notReady
  | submitApplication body =>
      cases body with
      | none => exact .rejectedApplication
      | some a => exact .noService rfl
  | getApplication id => exact .noService rfl
  | resolveEscalation id body =>
      cases body with
      | none => exact .rejectedResolution
      | some res => exact .noService rfl
  | getRationale id => exact .noService rfl

end Api

/-! ## Every schedule -/

section Schedules

variable {host : Host} {lives : List Life}

theorem KeepsTyped.last {env env' : Env} {store : Store} (h : KeepsTyped env store)
    (hunicode : env.unicode = env'.unicode) (calls : List Call) :
    KeepsTyped env ((⟨env', calls, none⟩ : Life).last store).store := by
  rw [Life.last_of_not_killed]
  induction calls using List.reverseRecOn with
  | nil => exact h
  | append_singleton calls c ih =>
      rw [List.foldl_append]
      exact ih.leave hunicode recursionLimit c

theorem keepsTyped_after (hdisk : host.disk = survivors lives)
    (hunicode : ∀ l ∈ lives, host.env.unicode = l.env.unicode) (events : List Event) :
    ∀ w ∈ (after host events).service, KeepsTyped host.env w.store := by
  intro w hw
  rw [world_after events w hw, hdisk]
  exact (KeepsTyped.survivors lives hunicode).last rfl _

/-- Whatever the server has lived through and however its requests are interleaved, a request
that is answered has been answered by the contract, given what is stored at one moment between
its arrival and the answer. What is stored then has come of the calls served before, one after
another, and the answer carries the id under which the request was let in unless an exception
has left the application. -/
theorem http_contract (hdisk : host.disk = survivors lives)
    (hunicode : ∀ l ∈ lives, host.env.unicode = l.env.unicode) (events : List Event) {i : ℕ}
    {request : Request} {context : Option String} {response : Api.Response}
    (htask : (after host events).tasks i = some ⟨request, context, .answered response⟩) :
    ∃ correlationId reply before later, events = before ++ .handle i :: later ∧
      Entered host before i request correlationId ∧ response = respond correlationId reply ∧
      Contract ((after host before).service.map World.store) request.route reply
        ((after host (before ++ [.handle i])).service.map World.store) ∧
      ∀ w ∈ (after host before).service,
        w = (⟨host.env, callsFrom host .init before, none⟩ : Life).last (survivors lives) := by
  obtain ⟨correlationId, before, later, hevents, hentered, rfl, hservice⟩ := exists_moment htask
  refine ⟨correlationId, _, before, later, hevents, hentered, rfl, ?_, ?_⟩
  · rw [hservice]
    have hkeeps := keepsTyped_after hdisk hunicode before
    cases hworld : (after host before).service with
    | none => exact dispatch_contract_none request.route
    | some w => exact dispatch_contract (hkeeps w hworld) request.route
  · rw [← hdisk]
    exact world_after before

/-- The default settings of the lifespan. -/
def sampleLifespan : LifespanSettings :=
  ⟨"credit-underwriting-decision-graph", "INFO", "./data/checkpoints.sqlite", none, none⟩

/-- A server over a case that a kill and an outage have left due for review. -/
def troubledHost : Host :=
  ⟨sampleEnv, sampleLifespan, survivors [killedLife, outageLife], sampleEnv.uuid⟩

def reviewRequest : Request := ⟨none, .resolveEscalation "app_1" (some sampleResolution)⟩

def submissionRequest : Request :=
  ⟨some "gateway_1", .submitApplication (some { sampleApplication with applicationId := "app_2" })⟩

/-- A review and a submission that are handled in the reverse order of their arrival. -/
def interleaved : List Event :=
  [.arrive 0 reviewRequest, .enter 0, .arrive 1 submissionRequest, .enter 1, .handle 1, .handle 0,
    .leave 0, .leave 1]

theorem scheduled_review : Scheduled ([.startup] ++ interleaved) 0 reviewRequest := by
  refine ⟨[.startup], interleaved.tail, rfl, by simp, ?_⟩
  simp [interleaved, List.cons_sublist_cons']

theorem scheduled_submission : Scheduled ([.startup] ++ interleaved) 1 submissionRequest := by
  refine ⟨[.startup] ++ interleaved.take 2, interleaved.drop 3, rfl, by simp [interleaved], ?_⟩
  simp [interleaved]

theorem unicode_troubledHost :
    ∀ l ∈ [killedLife, outageLife], troubledHost.env.unicode = l.env.unicode := by
  simp [killedLife, outageLife, troubledHost, sampleEnv, Env.scripted]

theorem http_contract_interleaved : ∃ context response,
    (after troubledHost ([.startup] ++ interleaved)).tasks 0 =
        some ⟨reviewRequest, context, .answered response⟩ ∧
      ∃ correlationId reply before later,
        [.startup] ++ interleaved = before ++ .handle 0 :: later ∧
        Entered troubledHost before 0 reviewRequest correlationId ∧
        response = respond correlationId reply ∧
        Contract ((after troubledHost before).service.map World.store) reviewRequest.route reply
          ((after troubledHost (before ++ [.handle 0])).service.map World.store) ∧
        ∀ w ∈ (after troubledHost before).service,
          w = (⟨sampleEnv, callsFrom troubledHost .init before, none⟩ : Life).last
            (survivors [killedLife, outageLife]) := by
  obtain ⟨context, response, htask⟩ := @answered_of_scheduled troubledHost _ _ _ scheduled_review
  exact ⟨context, response, htask, http_contract rfl unicode_troubledHost _ htask⟩

/-! ## A model that replies -/

namespace Api

/-- What a request is answered by the application. -/
theorem Contract.status {store : Store} {route : Route} {reply : Reply} {store' : Option Store}
    (h : Contract (some store) route (some reply) store') :
    reply.status ∈ [200, 201, 404, 409, 422] := by
  cases h <;> simp [stateReply, rationaleReply, rejected, notFound, notAwaitingEscalation,
    decisionNotAvailable]

/-- When the model replies usably and nothing is cut off, no exception leaves the application. -/
theorem exists_reply {env : Env} {A : Set LoanApplication} {n : ℕ} {w : World}
    (hkeeps : KeepsTyped env w.store) (hw : w.Healthy env A n) (husable : UsableFrom env A n)
    {route : Route} (hroute : ∀ a, route = .submitApplication (some a) → a ∈ A) :
    ∃ reply, (dispatch env route (some w)).1 = some reply := by
  have hkept (c : Call) := hkeeps.leave (rfl : env.unicode = env.unicode) recursionLimit c
  have hcontract := dispatch_contract hkeeps route
  generalize (dispatch env route (some w)).2.map World.store = store' at hcontract
  rcases hreply : (dispatch env route (some w)).1 with - | reply
  · rw [hreply] at hcontract
    -- Only a submission or a resolution can go unanswered.
    rcases route with - | - | (- | a) | id | ⟨id, - | res⟩ | id
    · cases hcontract
    · cases hcontract
    · cases hcontract
    · obtain ⟨t, ht, hanswers⟩ := startApplication_answers a (hkeeps a.applicationId)
      have hkept := hkept (.start a)
      rw [← snd_startApplication] at ht hkept
      rw [dispatch_stored (endpoint_submitApplication a) hkept ht
        (hanswers.eq_ok (hw.startApplication_returns husable (hroute a rfl)))] at hreply
      cases hreply
    · cases hcontract
    · cases hcontract
    · cases hcontract with
      | resolutionFailed hstore hnext =>
          obtain ⟨t, ht, hanswers⟩ := resolveStored_answers (hkeeps id) hstore hnext
          have hkept := hkept (.resolve id res)
          rw [← snd_resolveStored] at ht hkept
          rw [dispatch_stored (endpoint_resolveEscalation id res) hkept ht
            (hanswers.eq_ok (hw.resolveStored_returns husable hstore hnext res))] at hreply
          cases hreply
    · cases hcontract
  · exact ⟨reply, rfl⟩

/-- A service that is set up stays, and goes on to serve the calls of the schedule. -/
theorem service_append {past : List Event} {w : World} (hw : (after host past).service = some w)
    (events : List Event) : (after host (past ++ events)).service =
      some ((callsFrom host (after host past) events).foldl
        (Underwriting.leave host.env recursionLimit) w) := by
  induction events using List.reverseRecOn with
  | nil => rw [List.append_nil, hw, callsFrom, List.foldl_nil]
  | append_singleton events e ih =>
      have hafter : events.foldl (step host) (after host past) = after host (past ++ events) :=
        List.foldl_append.symm
      rw [← List.append_assoc, after_snoc, callsFrom_snoc, hafter]
      rcases service_step_cases (after host (past ++ events)) e with
        ⟨hcall, hservice, -⟩ | hwrites
      · rw [hservice, hcall, Option.toList_none, List.append_nil]
        exact ih
      · cases hwrites with
        | startup hnone hservice hlines =>
            rw [ih] at hnone
            cases hnone
        | @handle _ i request _ _ _ _ htask hservice hlines =>
            have hcall : (after host (past ++ events)).callOf (.handle i) = request.route.call := by
              rw [callOf, ih, htask]
            rw [hservice, ih, dispatch_world, List.foldl_append, hcall]
            cases request.route.call with
            | none => rfl
            | some c => rfl

/-- The requests that arrive submit applications of `A` only. -/
def RequestsOnly (A : Set LoanApplication) (events : List Event) : Prop :=
  ∀ i request a, .arrive i request ∈ events → request.route = .submitApplication (some a) → a ∈ A

theorem RequestsOnly.append_left {A : Set LoanApplication} {events more : List Event}
    (h : RequestsOnly A (events ++ more)) : RequestsOnly A events :=
  fun i request a harrived => h i request a (List.mem_append_left _ harrived)

theorem RequestsOnly.submitsOnly {A : Set LoanApplication} {events : List Event}
    (h : RequestsOnly A events) : SubmitsOnly A (callsFrom host .init events) := by
  intro a hc
  obtain ⟨i, request, harrived, hcall⟩ := exists_arrive hc
  refine h i request a harrived ?_
  cases hroute : request.route with
  | submitApplication body =>
      rw [hroute] at hcall
      cases body with
      | none => cases hcall
      | some a' =>
          cases hcall
          rfl
  | resolveEscalation id body =>
      rw [hroute] at hcall
      cases body <;> cases hcall
  | healthz | readyz | getApplication | getRationale =>
      rw [hroute] at hcall
      cases hcall

/-- A request whose endpoint has not run by then is answered later. -/
theorem exists_later {past events before later : List Event} {i : ℕ} (hlate : .handle i ∉ past)
    (hevents : past ++ events = before ++ .handle i :: later) :
    ∃ between, before = past ++ between := by
  rcases List.append_eq_append_iff.1 hevents with ⟨between, hbefore, -⟩ | ⟨between, hpast, hrest⟩
  · exact ⟨between, hbefore⟩
  · cases between with
    | nil => exact ⟨[], by rw [hpast, List.append_nil, List.append_nil]⟩
    | cons e between =>
        rw [List.cons_append, List.cons.injEq] at hrest
        rw [hpast, ← hrest.1] at hlate
        exact absurd (List.mem_append_right _ List.mem_cons_self) hlate

end Api

/-- A server that is healthy answers every request that is still to be handled. -/
theorem exists_answer {A : Set LoanApplication} {n : ℕ} (hdisk : host.disk = survivors lives)
    (hunicode : ∀ l ∈ lives, host.env.unicode = l.env.unicode) {past events : List Event}
    (hrequests : RequestsOnly A (past ++ events)) {w : World}
    (hservice : (after host past).service = some w) (hhealthy : w.Healthy host.env A n)
    (husable : UsableFrom host.env A n) {i : ℕ} {request : Request} {context : Option String}
    {response : Api.Response} (hlate : .handle i ∉ past)
    (htask : (after host (past ++ events)).tasks i =
      some ⟨request, context, .answered response⟩) :
    response.reply.status ∈ [200, 201, 404, 409, 422] ∧
      ∃ correlationId, Entered host (past ++ events) i request correlationId ∧
        response.correlationId = some correlationId := by
  have hroute (a : LoanApplication) : request.route = .submitApplication (some a) → a ∈ A :=
    hrequests i request a (arrive_mem_of_task htask)
  obtain ⟨correlationId, before, later, hevents, hentered, rfl, -⟩ := exists_moment htask
  obtain ⟨between, rfl⟩ := exists_later hlate hevents
  have hcalls := service_append hservice between
  have hbetween : SubmitsOnly A (callsFrom host (after host past) between) := by
    rw [hevents] at hrequests
    have hsubmits : SubmitsOnly A (callsFrom host .init (past ++ between)) :=
      hrequests.append_left.submitsOnly
    rw [callsFrom_append] at hsubmits
    exact (submitsOnly_append.1 hsubmits).2
  have hkeeps := keepsTyped_after hdisk hunicode _ _ hcalls
  have hcontract := dispatch_contract hkeeps request.route
  obtain ⟨reply, hreply⟩ :=
    exists_reply hkeeps (hhealthy.leave_calls husable hbetween) husable hroute
  rw [hreply] at hcontract
  rw [hcalls, hreply]
  obtain ⟨before', later', heq, harrived, hid⟩ := hentered
  exact ⟨hcontract.status, correlationId,
    ⟨before', later' ++ .handle i :: later, by rw [hevents, heq]; simp, harrived, hid⟩, rfl⟩

/-- A started server is healthy as long as it does not cut the model off. -/
theorem healthy_after {A : Set LoanApplication} (hdisk : host.disk = survivors lives)
    (hunicode : ∀ l ∈ lives, host.env.unicode = l.env.unicode)
    (hsubmits : ∀ l ∈ lives, SubmitsOnly A l.asked)
    (hscores : ∀ l ∈ lives, l.env.Scores host.env.arithmetic A)
    (hself : host.env.Scores host.env.arithmetic A) {past : List Event}
    (hrequests : RequestsOnly A past) {w : World} (hservice : (after host past).service = some w)
    (hadmits : w.runtime.Admits host.env) : w.Healthy host.env A w.runtime.chatCalls := by
  have hprocess : w = process host.env (survivors lives) (callsFrom host .init past) := by
    rw [world_after past w hservice, Life.last_of_not_killed, hdisk]
  subst hprocess
  exact healthy_process (fun l hl => (hunicode l hl).symm) hsubmits hscores hself
    hrequests.submitsOnly hadmits

/-- Once the model replies usably to what is submitted and its breaker lets calls through, whatever
has happened before, the server answers every request whose task is given its turns, itself and with
its id: it needs no restart, and it does not matter how requests are interleaved. No model may have
read figures that cannot be scored. -/
theorem no_server_error {A : Set LoanApplication} (hdisk : host.disk = survivors lives)
    (hunicode : ∀ l ∈ lives, host.env.unicode = l.env.unicode)
    (hsubmits : ∀ l ∈ lives, SubmitsOnly A l.asked)
    (hscores : ∀ l ∈ lives, l.env.Scores host.env.arithmetic A) (past events : List Event)
    (hrequests : RequestsOnly A (past ++ events)) {w : World}
    (hservice : (after host past).service = some w)
    (husable : UsableFrom host.env A w.runtime.chatCalls) (hadmits : w.runtime.Admits host.env)
    {i : ℕ} {request : Request} (hscheduled : Scheduled (past ++ events) i request)
    (hlate : .handle i ∉ past) :
    ∃ context response, (after host (past ++ events)).tasks i =
        some ⟨request, context, .answered response⟩ ∧
      response.reply.status ∈ [200, 201, 404, 409, 422] ∧
      ∃ correlationId, Entered host (past ++ events) i request correlationId ∧
        response.correlationId = some correlationId := by
  have hhealthy := healthy_after hdisk hunicode hsubmits hscores husable.scores
    hrequests.append_left hservice hadmits
  obtain ⟨context, response, htask⟩ := @answered_of_scheduled host _ _ _ hscheduled
  exact ⟨context, response, htask,
    exists_answer hdisk hunicode hrequests hservice hhealthy husable hlate htask⟩

theorem no_server_error_interleaved :
    ∃ context response, (after troubledHost ([.startup] ++ interleaved)).tasks 1 =
        some ⟨submissionRequest, context, .answered response⟩ ∧
      response.reply.status ∈ [200, 201, 404, 409, 422] ∧
      ∃ correlationId, Entered troubledHost ([.startup] ++ interleaved) 1 submissionRequest
          correlationId ∧
        response.correlationId = some correlationId :=
  no_server_error rfl unicode_troubledHost (fun _ _ _ _ => Set.mem_univ _) scores_troubled
    [.startup] interleaved (fun _ _ _ _ _ => Set.mem_univ _) rfl (usable_sample.usableFrom _ _)
    (by rintro ⟨⟩) scheduled_submission (by simp)

end Schedules

end Underwriting
