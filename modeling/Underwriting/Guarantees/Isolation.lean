import Underwriting.Guarantees.Offline

/-!
# Isolation between applications

Applications under different ids share the breaker of the chat model and nothing else. In a
sequence of submissions to the offline model each result is compared with the result of the
same submission in a fresh process: all of them agree if and only if the breaker lets every
readable document through. A process that is only given readable documents keeps the breaker
closed; one unreadable document opens it, and the next applicant is turned away.
-/

namespace Underwriting

open Python ApplicationService

/-! ## Results -/

/-- A summary up to generated ids. -/
def ApplicationSummary.anonymous (summary : ApplicationSummary) : ApplicationSummary :=
  { summary with auditTrail := summary.auditTrail.map fun e => { e with correlationId := "" } }

/-- What a call returns up to generated ids; `none` stands for an error. -/
def result : Except Exn ApplicationSummary → Option ApplicationSummary
  | .ok summary => some summary.anonymous
  | .error _ => none

/-- The submission has the result, and stores the run, that it would have as the only one in
a fresh process. -/
structure Isolated (env : Env) (w : World) (a : LoanApplication) : Prop where
  returned : result (startApplication env a w).1 = result (startApplication env a .init).1
  stored : ((startApplication env a w).2.store a.applicationId).map
      (fun t => (summarize a.applicationId t).anonymous) =
    ((startApplication env a .init).2.store a.applicationId).map
      fun t => (summarize a.applicationId t).anonymous

/-- The process after submissions, one after another. -/
def submitted (env : Env) (as : List LoanApplication) : World := run env (as.map .start) .init

def IsolatedRun (env : Env) (as : List LoanApplication) : Prop :=
  ∀ before a after, as = before ++ a :: after → Isolated env (submitted env before) a

/-! ## One submission -/

section Step

variable {env : Env} {a : LoanApplication}

/-- Two runs of one application differ by the correlation id of their events. -/
theorem anonymous_thread (p : Progress env a) (c c' : String) :
    (summarize a.applicationId ((Run.fresh a c).thread env p)).anonymous =
      (summarize a.applicationId ((Run.fresh a c').thread env p)).anonymous := by
  cases p with
  | extracting => rfl
  | scoring x h => rfl
  | awaiting x h => rfl
  | explaining c =>
      obtain ⟨x, resolution, hgated⟩ := c
      cases resolution <;> rfl
  | completed c rationale =>
      obtain ⟨x, resolution, hgated⟩ := c
      cases resolution <;> rfl

/-- Two served moves to the same case, both of which return or both of which raise, have the
same result. -/
theorem isolated_of_served {w : World} {c c' : String} {o : (Run.fresh a c).Outcome env}
    {o' : (Run.fresh a c').Outcome env} (hover : startApplication env a w = Run.served o w)
    (hsolo : startApplication env a .init = Run.served o' .init)
    (hreturns : o.1.toBool = o'.1.toBool) (hcase : o.2.1 = o'.2.1) : Isolated env w a := by
  obtain ⟨out, p, r⟩ := o
  obtain ⟨out', p', r'⟩ := o'
  obtain rfl : p = p' := hcase
  constructor
  · rw [hover, hsolo]
    cases out <;> cases out'
    · rfl
    · cases hreturns
    · cases hreturns
    · exact congrArg some (anonymous_thread p c c')
  · have hstored : (Run.served (R := .fresh a c) (out, p, r) w).2.store a.applicationId =
        some ((Run.fresh a c).thread env p) := Run.store_served (R := .fresh a c) _ w
    have hstored' : (Run.served (R := .fresh a c') (out', p, r') .init).2.store a.applicationId =
        some ((Run.fresh a c').thread env p) := Run.store_served (R := .fresh a c') _ .init
    rw [hover, hsolo, hstored, hstored']
    exact congrArg some (anonymous_thread p c c')

/-- A submission that is refused leaves its document unread. -/
theorem startApplication_refused {w : World}
    (hbureau : (w.runtime.breakers .creditBureau).state = .closed)
    (hfresh : w.store a.applicationId = none) (h : ¬ w.runtime.AdmitsWithin env .llm 3) :
    ∃ e c, (startApplication env a w).1 = .error e ∧
      (startApplication env a w).2.store a.applicationId =
        some ((Run.fresh a c).thread env .extracting) := by
  have hlaunched : ¬ (w.runtime.launched ⟨a, s!"corr_{env.uuid w.runtime.uuids}"⟩).AdmitsWithin
      env .llm 3 := h
  obtain ⟨e, r', hbegin⟩ := begin_of_not_admits (a := a) s!"corr_{env.uuid w.runtime.uuids}"
    hlaunched
  have hstart := startApplication_fresh env hbureau hfresh
  rw [hbegin] at hstart
  refine ⟨e, s!"corr_{env.uuid w.runtime.uuids}", ?_, ?_⟩
  · rw [hstart]
    rfl
  · rw [hstart]
    exact Run.store_served (R := .fresh a _) _ w

/-- It is not isolated when a fresh process reads the document. -/
theorem not_isolated_of_unread {w : World} {c c' : String} {o : (Run.fresh a c').Outcome env}
    {x : ExtractedFinancials}
    (hstored : (startApplication env a w).2.store a.applicationId =
      some ((Run.fresh a c).thread env .extracting))
    (hsolo : startApplication env a .init = Run.served o .init)
    (hx : Progress.extraction o.2.1 = some x) : ¬ Isolated env w a := by
  intro hisolated
  have hsame := hisolated.stored
  have hstored' : (Run.served o .init).2.store a.applicationId =
      some ((Run.fresh a c').thread env o.2.1) := Run.store_served (R := .fresh a c') _ .init
  rw [hstored, hsolo, hstored', Option.map_some, Option.map_some, Option.some.injEq] at hsame
  have hextracted : none = ((Run.fresh a c').thread env o.2.1).values.extractedFinancials :=
    congrArg ApplicationSummary.extractedFinancials hsame
  have hslices : Slices env a o.2.1 ((Run.fresh a c').thread env o.2.1).values := slices_fresh _
  rw [hslices.extractedFinancials, hx] at hextracted
  cases hextracted

theorem startApplication_returns {w : World} (hreadable : a.IsReadable env.unicode)
    (hscorable : a.IsScorable env)
    (hbureau : (w.runtime.breakers .creditBureau).state = .closed)
    (hfresh : w.store a.applicationId = none)
    (h : w.runtime.AdmitsWithin env.offline .llm 3) :
    ∃ summary, (startApplication env.offline a w).1 = .ok summary := by
  obtain ⟨x, out, p, hends, hiff⟩ := exists_offline_ends hreadable
  obtain ⟨r', hbegin, -⟩ := hends.begins s!"corr_{env.offline.uuid w.runtime.uuids}"
    (w.runtime.launched _) h
  obtain ⟨rfl, -⟩ := hends.parks (hiff.1 hscorable)
  rw [startApplication_fresh env.offline hbureau hfresh, hbegin]
  exact ⟨_, rfl⟩

/-- A readable submission is isolated if and only if the breaker lets it through. -/
theorem isolated_offline_iff {env : Env} {w : World}
    (hbureau : (w.runtime.breakers .creditBureau).state = .closed)
    (hfresh : w.store a.applicationId = none) :
    Isolated env.offline w a ↔
      (a.IsReadable env.unicode → w.runtime.AdmitsWithin env.offline .llm 3) := by
  have hover := startApplication_fresh env.offline hbureau hfresh
  have hsolo := startApplication_fresh env.offline (a := a) (w := .init) rfl rfl
  by_cases hreadable : a.IsReadable env.unicode
  · obtain ⟨x, out, p, hends, -⟩ := exists_offline_ends hreadable
    obtain ⟨r₀, hbegin₀, -⟩ := hends.begins s!"corr_{env.offline.uuid World.init.runtime.uuids}"
      (World.init.runtime.launched _) (Runtime.admitsWithin_of_closed rfl)
    rw [hbegin₀] at hsolo
    constructor
    · intro hisolated _
      by_contra hrefuses
      obtain ⟨e, c, -, hstored⟩ := startApplication_refused (a := a) hbureau hfresh hrefuses
      exact not_isolated_of_unread hstored hsolo hends.extraction hisolated
    · intro hadmits
      obtain ⟨r', hbegin, -⟩ := hends.begins s!"corr_{env.offline.uuid w.runtime.uuids}"
        (w.runtime.launched _) (hadmits hreadable)
      rw [hbegin] at hover
      exact isolated_of_served hover hsolo rfl rfl
  · refine iff_of_true ?_ fun h => absurd h hreadable
    obtain ⟨e, r', hbegin⟩ := begin_offline_raises env hreadable _ _
    obtain ⟨e₀, r₀, hbegin₀⟩ := begin_offline_raises env hreadable _ _
    rw [hbegin] at hover
    rw [hbegin₀] at hsolo
    exact isolated_of_served hover hsolo rfl rfl

end Step

/-! ## Sequences of submissions -/

section Submissions

variable {env : Env} {before after as : List LoanApplication} {a : LoanApplication}

theorem submittedIds_map_start (as : List LoanApplication) :
    submittedIds (as.map .start) = as.map LoanApplication.applicationId := by
  rw [submittedIds, List.filterMap_map]
  exact congrFun (List.filterMap_eq_map (f := LoanApplication.applicationId)) as

theorem submitted_append (env : Env) (before : List LoanApplication) (a : LoanApplication) :
    submitted env (before ++ [a]) = (startApplication env a (submitted env before)).2 := by
  rw [submitted, List.map_append, run_append]
  rfl

theorem bureau_submitted (env : Env) (as : List LoanApplication) :
    ((submitted env as).runtime.breakers .creditBureau).state = .closed :=
  (sound_run env (as.map .start)).bureau

/-- Nothing is stored under the next id. -/
theorem fresh_submitted (env : Env)
    (hnodup : ((before ++ a :: after).map LoanApplication.applicationId).Nodup) :
    (submitted env before).store a.applicationId = none := by
  rw [List.map_append, List.map_cons] at hnodup
  obtain ⟨hbefore, -, hdisjoint⟩ := List.nodup_append.1 hnodup
  rw [← submittedIds_map_start] at hbefore
  obtain ⟨-, hids⟩ := sound_of_nodup env (before.map .start) hbefore
  by_contra hstored
  have hmem := hids a.applicationId hstored
  rw [submittedIds_map_start] at hmem
  exact hdisjoint _ hmem _ (List.mem_cons_self ..) rfl

/-- Readable submissions keep the breaker of the chat model closed. -/
theorem ready_submitted (hnodup : (as.map LoanApplication.applicationId).Nodup)
    (hreadable : ∀ a ∈ as, a.IsReadable env.unicode) :
    (submitted env.offline as).runtime.ModelReady := by
  induction as using List.reverseRecOn with
  | nil => rfl
  | append_singleton before a ih =>
      have hready := ih (by rw [List.map_append] at hnodup; exact hnodup.of_append_left)
        fun b hb => hreadable b (List.mem_append_left _ hb)
      obtain ⟨x, out, p, hends, -⟩ := exists_offline_ends (hreadable a (by simp))
      obtain ⟨r', hbegin, hready'⟩ := hends.begins
        s!"corr_{env.offline.uuid (submitted env.offline before).runtime.uuids}"
        ((submitted env.offline before).runtime.launched _) (Runtime.admitsWithin_of_closed hready)
      rw [submitted_append, startApplication_fresh env.offline (bureau_submitted _ before)
        (fresh_submitted _ hnodup), hbegin]
      exact hready'

theorem isolated_iff (env : Env) (as : List LoanApplication)
    (hnodup : (as.map LoanApplication.applicationId).Nodup) :
    (IsolatedRun env.offline as ↔ ∀ before a after, as = before ++ a :: after →
      a.IsReadable env.unicode →
        (submitted env.offline before).runtime.AdmitsWithin env.offline .llm 3) ∧
    ((∀ a ∈ as, a.IsReadable env.unicode) → IsolatedRun env.offline as) := by
  have hstep (before : List LoanApplication) (a : LoanApplication) (after : List LoanApplication)
      (has : as = before ++ a :: after) :=
    @isolated_offline_iff a env _ (bureau_submitted env.offline before)
      (fresh_submitted env.offline (has ▸ hnodup))
  have hiff : IsolatedRun env.offline as ↔ ∀ before a after, as = before ++ a :: after →
      a.IsReadable env.unicode →
        (submitted env.offline before).runtime.AdmitsWithin env.offline .llm 3 := by
    constructor
    · intro h before a after has
      exact (hstep before a after has).1 (h before a after has)
    · intro h before a after has
      exact (hstep before a after has).2 (h before a after has)
  refine ⟨hiff, fun hreadable => hiff.2 fun before a after has _ => ?_⟩
  subst has
  rw [List.map_append] at hnodup
  exact Runtime.admitsWithin_of_closed (ready_submitted hnodup.of_append_left
    fun b hb => hreadable b (List.mem_append_left _ hb))

end Submissions

/-- `sampleApplication` once more, by another applicant. -/
def otherApplication : LoanApplication := { sampleApplication with applicationId := "app_3" }

theorem isReadable_sample : sampleApplication.IsReadable .ascii := by
  have hnone : ∀ label ∈ moneyLabels, moneyFigure .ascii
      (sanitized .ascii sampleApplication.rawFinancialDocumentText) label = none := by
    decide +kernel
  intro label hlabel figure hfigure
  rw [hnone label hlabel] at hfigure
  cases hfigure

/-- The document has no debt, so its figures can be scored. -/
theorem isScorable_sample : sampleApplication.IsScorable sampleEnv := by
  have hnone : moneyFigure .ascii (sanitized .ascii sampleApplication.rawFinancialDocumentText)
      "EXISTING_MONTHLY_DEBT" = none := by
    decide +kernel
  intro reply x hreply hvalid hx
  obtain ⟨gross, net, debt, -, -, hdebt, hfrom⟩ := mockDocumentExtraction_cases hreply hvalid
  rw [parseMoneyField, show sampleEnv.unicode = .ascii from rfl, hnone, Except.ok.injEq] at hdebt
  have hinfinite := hx.2
  rw [hfrom.debt, ← hdebt, Option.getD_none,
    Arithmetic.isInf_eq_false_of_lt (by norm_num)] at hinfinite
  cases hinfinite

theorem isolated_sample : IsolatedRun sampleEnv.offline [sampleApplication, otherApplication] := by
  have hreadable : ∀ a ∈ [sampleApplication, otherApplication], a.IsReadable .ascii := by
    intro a ha
    rcases List.mem_pair.1 ha with rfl | rfl
    · exact isReadable_sample
    · exact isReadable_sample
  exact (isolated_iff sampleEnv _ (by decide)).2 hreadable

/-- An unreadable document opens the breaker of a model that has not failed before. -/
theorem begin_offline_opens {env : Env} {a : LoanApplication} (h : ¬ a.IsReadable env.unicode)
    (c : String) {r : Runtime} (hnew : r.breakers .llm = .new "llm" 3 15) :
    ∃ e r', (Run.fresh a c).begin env.offline r = (.error e, .extracting, r') ∧
      r'.breakers .llm = ⟨"llm", 3, 15, .opened, 3, env.clock r.ticks⟩ ∧
      r'.ticks = r.ticks + 1 := by
  obtain ⟨e, he⟩ := mockDocumentExtraction_of_not_readable h
  have hchat (n : ℕ) : ∃ e, env.offline.chat n (extractionPrompt env.offline a) = .error e :=
    ⟨e, (chat_extraction_offline n).trans he⟩
  obtain ⟨log, hsafe⟩ := sanitizeUntrustedText_apply env.offline a.rawFinancialDocumentText
    "raw_financial_document_text" (r.noted (intakeUpdate env.offline ⟨a, c⟩))
  obtain ⟨e', r', hinvoke, hopened, hticks⟩ := invokeChat_opens
    (r := { r.noted (intakeUpdate env.offline ⟨a, c⟩) with log := log }) hchat hnew
  have hread : readDocument env.offline a (r.noted (intakeUpdate env.offline ⟨a, c⟩)) =
      (.error e', r') := by
    rw [readDocument, Py.bind_of_ok hsafe]
    exact Py.bind_of_error hinvoke
  exact ⟨e', _, Run.extract_of_error (R := .fresh a c) hread, hopened, hticks⟩

/-- A fresh process that is given an unreadable document refuses the attempts of the next
submission when less than the recovery timeout has passed. -/
theorem not_admits_after_unreadable {env : Env} {a : LoanApplication}
    (h : ¬ a.IsReadable env.unicode) (hcold : ∀ k < 3, env.clock (1 + k) - env.clock 0 < 15) :
    ¬ (submitted env.offline [a]).runtime.AdmitsWithin env.offline .llm 3 := by
  have hstart := startApplication_fresh env.offline (a := a) (w := .init) rfl rfl
  obtain ⟨e, r', hbegin, hopened, hticks⟩ := begin_offline_opens h
    s!"corr_{env.offline.uuid World.init.runtime.uuids}" (r := World.init.runtime.launched _) rfl
  have hsubmitted : (submitted env.offline [a]).runtime = r' := by
    rw [hbegin] at hstart
    exact congrArg (fun o => o.2.runtime) hstart
  intro hadmits
  rw [hsubmitted, Runtime.AdmitsWithin, hopened, hticks] at hadmits
  obtain ⟨k, hk, hcooled⟩ := hadmits rfl
  exact absurd hcooled (not_le.2 (hcold k hk))

/-- After the document with the lone comma the next applicant gets an error, although the
same submission returns in a fresh process. -/
theorem comma_document_refuses_next :
    (∃ e, (startApplication sampleEnv.offline sampleApplication
      (submitted sampleEnv.offline [commaApplication])).1 = .error e) ∧
    (∃ summary, (startApplication sampleEnv.offline sampleApplication .init).1 = .ok summary) ∧
    ¬ IsolatedRun sampleEnv.offline [commaApplication, sampleApplication] := by
  have hnodup :
      ([commaApplication, sampleApplication].map LoanApplication.applicationId).Nodup := by
    decide
  have hcold (k : ℕ) (hk : k < 3) : sampleEnv.clock (1 + k) - sampleEnv.clock 0 < 15 := by
    have hlt : (k : ℚ) < 3 := by exact_mod_cast hk
    change ((1 + k : ℕ) : ℚ) - ((0 : ℕ) : ℚ) < 15
    push_cast
    linarith
  have hrefuses := not_admits_after_unreadable not_isReadable_comma hcold
  have hbureau := bureau_submitted sampleEnv.offline [commaApplication]
  have hfresh := @fresh_submitted [commaApplication] [] _ sampleEnv.offline hnodup
  refine ⟨?_, ?_, fun hisolated => ?_⟩
  · obtain ⟨e, -, hrefused, -⟩ := startApplication_refused hbureau hfresh hrefuses
    exact ⟨e, hrefused⟩
  · exact startApplication_returns isReadable_sample isScorable_sample rfl rfl
      (Runtime.admitsWithin_of_closed rfl)
  · have hstep := hisolated [commaApplication] sampleApplication [] rfl
    exact hrefuses ((isolated_offline_iff hbureau hfresh).1 hstep isReadable_sample)

end Underwriting
