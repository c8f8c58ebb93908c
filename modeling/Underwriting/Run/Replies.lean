import Underwriting.Run.Reachable

/-!
# Usable and unusable replies

When the model's breaker is closed and its next reply is usable, the request that waits for
it succeeds at the first attempt and leaves the breaker closed. When no reply to a prompt is
usable, the request raises, whatever the retry and the breaker do. Both are lifted to whole
moves: what a submission and a resolution do to a case.
-/

namespace Underwriting

open Python Python.Py ApplicationService

/-- The chat model is not cut off. -/
abbrev Runtime.ModelReady (r : Runtime) : Prop := (r.breakers .llm).state = .closed

/-! ## One invocation -/

theorem invokeChat_of_ok {env : Env} {messages : List Message} {r : Runtime} {reply : Content}
    (hready : r.ModelReady) (hchat : env.chat r.chatCalls messages = .ok reply) :
    ∃ r', invokeChat env messages r = (.ok reply, r') ∧ r'.ModelReady := by
  have hinner : innerInvoke env messages r =
      (.ok reply, { r with chatCalls := r.chatCalls + 1 }) := by
    simp only [innerInvoke, bind_apply, state_apply, modify_apply, lift_apply, hchat]
  have hcall := call_of_closed env (d := .llm) hready hinner hready
  exact ⟨_, withRetry_of_ok 3 hcall,
    congrArg CircuitBreaker.state (Function.update_self Dependency.llm _ r.breakers)⟩

theorem fails_call (env : Env) (d : Dependency) {α : Type} {fn : PyM α} (hfn : Fails fn) :
    Fails (CircuitBreaker.call env d fn) := by
  refine fails_bind_right _ fun _ => fails_bind_right _ fun b => ?_
  split
  · exact fails_raise _
  · exact fails_tryElse hfn (fun e => fails_bind_right _ fun _ => fails_raise e) _

theorem fails_withRetry {α : Type} {fn : PyM α} (hfn : Fails fn) (n : ℕ) :
    Fails (withRetry n fn) := by
  rw [withRetry]
  induction n - 1 with
  | zero => exact hfn
  | succ n ih => exact fails_tryElse hfn (fun _ => ih) _

theorem fails_invokeChat {env : Env} {messages : List Message}
    (hchat : ∀ n, ∃ e, env.chat n messages = .error e) : Fails (invokeChat env messages) := by
  refine fails_withRetry (fails_call env .llm fun r => ?_) 3
  obtain ⟨e, he⟩ := hchat r.chatCalls
  refine ⟨e, { r with chatCalls := r.chatCalls + 1 }, ?_⟩
  simp only [innerInvoke, bind_apply, state_apply, modify_apply, lift_apply, he]

/-! ## The two requests -/

theorem sanitizeUntrustedText_apply (env : Env) (text source : String) (r : Runtime) :
    ∃ log, sanitizeUntrustedText env text source r =
      (.ok (sanitized env.unicode text), { r with log := log }) := by
  unfold sanitizeUntrustedText
  split
  · exact ⟨_, rfl⟩
  · exact ⟨r.log, rfl⟩

/-- The prompt that asks for the financials of an application. -/
def extractionPrompt (env : Env) (a : LoanApplication) : List Message :=
  extractionMessages (sanitized env.unicode a.rawFinancialDocumentText)

theorem readDocument_of_ok {env : Env} {a : LoanApplication} {r : Runtime} {reply : Content}
    {x : ExtractedFinancials} (hready : r.ModelReady)
    (hchat : env.chat r.chatCalls (extractionPrompt env a) = .ok reply)
    (hvalid : validateExtraction reply = .ok x) :
    ∃ r', readDocument env a r = (.ok x, r') ∧ r'.ModelReady := by
  obtain ⟨log, hsafe⟩ := sanitizeUntrustedText_apply env a.rawFinancialDocumentText
    "raw_financial_document_text" r
  have hready' : { r with log := log : Runtime }.ModelReady := hready
  obtain ⟨r', hinvoke, hready''⟩ := invokeChat_of_ok hready' hchat
  refine ⟨r', ?_, hready''⟩
  rw [readDocument, bind_of_ok hsafe]
  exact (bind_of_ok hinvoke).trans (by rw [hvalid, lift_apply])

theorem fails_readDocument {env : Env} {a : LoanApplication}
    (hchat : ∀ n, ∃ e, env.chat n (extractionPrompt env a) = .error e) :
    Fails (readDocument env a) := by
  intro r
  obtain ⟨log, hsafe⟩ := sanitizeUntrustedText_apply env a.rawFinancialDocumentText
    "raw_financial_document_text" r
  rw [readDocument, bind_of_ok hsafe]
  exact fails_bind_left (fails_invokeChat hchat) _ _

/-- The prompt that asks for the rationale of a case. -/
def rationalePrompt (env : Env) (a : LoanApplication) (x : ExtractedFinancials)
    (resolution : Option EscalationResolution) : List Message :=
  rationaleMessages (rationalePayload a (riskFor env a x) (policyFor env a x) resolution)

theorem writeRationale_of_ok {env : Env} {a : LoanApplication} {x : ExtractedFinancials}
    {resolution : Option EscalationResolution} {r : Runtime} {reply : Content}
    (hready : r.ModelReady)
    (hchat : env.chat r.chatCalls (rationalePrompt env a x resolution) = .ok reply)
    (hnonempty : 1 ≤ reply.text.toList.length) :
    ∃ r', writeRationale env a x resolution r = (.ok ⟨reply.text, hnonempty⟩, r') ∧
      r'.ModelReady := by
  obtain ⟨r', hinvoke, hready'⟩ := invokeChat_of_ok hready hchat
  refine ⟨r', (bind_of_ok hinvoke).trans ?_, hready'⟩
  rw [acceptRationale, dif_pos hnonempty, lift_apply]

/-! ## Moves -/

/-- To an application the model always replies with the extraction `x`, whose figures can be
scored, and it always writes a rationale. -/
structure Replies (env : Env) (a : LoanApplication) (x : ExtractedFinancials) : Prop where
  scorable : ¬ Unscorable env.arithmetic a x
  extraction : ∀ n, ∃ reply, env.chat n (extractionPrompt env a) = .ok reply ∧
    validateExtraction reply = .ok x
  rationale : ∀ n resolution, ∃ reply, env.chat n (rationalePrompt env a x resolution) = .ok reply ∧
    1 ≤ reply.text.toList.length

/-- Every reply of the model can be used: a document yields a valid extraction with finite
figures, and a payload a rationale that is not empty. -/
structure Usable (env : Env) : Prop where
  extraction : ∀ n text, ∃ reply x, env.chat n (extractionMessages text) = .ok reply ∧
    validateExtraction reply = .ok x ∧ x.Finite env.arithmetic
  rationale : ∀ n payload, ∃ reply, env.chat n (rationaleMessages payload) = .ok reply ∧
    1 ≤ reply.text.toList.length

namespace Run

variable {env : Env} {R : Run} {x : ExtractedFinancials} {r : Runtime}

theorem modelReady_appraised (hready : r.ModelReady) : (R.appraised env x r).ModelReady := by
  have huntouched := getCreditReport_untouched env R.application.applicantFullName
    (r.noted (extractionUpdate env R.submission x))
  rw [Runtime.ModelReady, appraised, Runtime.noted_breakers, huntouched.breakers .llm (by decide)]
  exact hready

theorem modelReady_unscored (hx : Unscorable env.arithmetic R.application x)
    (hready : r.ModelReady) : (R.unscored env x hx r).2.2.ModelReady := by
  have huntouched := getCreditReport_untouched env R.application.applicantFullName r
  exact (congrArg CircuitBreaker.state (huntouched.breakers .llm (by decide))).trans hready

/-- The explanation of a case completes it. -/
theorem explain_completes {c : Settled env R.application}
    (hrationale : ∀ n, ∃ reply, env.chat n
        (rationalePrompt env R.application c.extracted (R.effective env c)) = .ok reply ∧
      1 ≤ reply.text.toList.length) (hready : r.ModelReady) :
    ∃ rationale r', R.explain env c r = (.ok (), .completed c rationale, r') ∧ r'.ModelReady := by
  obtain ⟨reply, hchat, hnonempty⟩ := hrationale r.chatCalls
  obtain ⟨r', hwrite, hready'⟩ := writeRationale_of_ok hready hchat hnonempty
  exact ⟨_, _, explain_of_ok hwrite, hready'⟩

/-- A submission reaches the reviewer's gate. -/
theorem begin_appraises (hreplies : Replies env R.application x) (hready : r.ModelReady) :
    ∃ r', R.begin env r = R.appraise env x r' ∧ r'.ModelReady := by
  have hready' : (r.noted (intakeUpdate env R.submission)).ModelReady := hready
  obtain ⟨reply, hchat, hvalid⟩ := hreplies.extraction r.chatCalls
  obtain ⟨r', hread, hready''⟩ := readDocument_of_ok hready' hchat hvalid
  exact ⟨r', extract_of_ok hread, hready''⟩

theorem begin_awaits (hreplies : Replies env R.application x) (hready : r.ModelReady)
    (h : NeedsHuman env R.application x) :
    ∃ r', R.begin env r = (.ok (), .awaiting x h, r') ∧ r'.ModelReady := by
  obtain ⟨r', hbegin, hready'⟩ := begin_appraises hreplies hready
  refine ⟨_, hbegin.trans (appraise_of_needsHuman hreplies.scorable h), ?_⟩
  exact modelReady_appraised hready'

theorem begin_completes (hreplies : Replies env R.application x) (hready : r.ModelReady)
    (h : ¬ NeedsHuman env R.application x) :
    ∃ rationale r', R.begin env r =
      (.ok (), .completed (.automatic x h) rationale, r') ∧ r'.ModelReady := by
  obtain ⟨r', hbegin, hready'⟩ := begin_appraises hreplies hready
  obtain ⟨rationale, r'', hexplain, hready''⟩ := explain_completes
    (c := .automatic x h) (fun n => hreplies.rationale n _) (modelReady_appraised hready')
  have hgate := hbegin.trans (appraise_of_not_needsHuman hreplies.scorable h)
  exact ⟨rationale, r'', hgate.trans hexplain, hready''⟩

/-- A resolution completes a suspended case. -/
theorem resume_completes (hreplies : Replies env R.application x) (hready : r.ModelReady)
    (h : NeedsHuman env R.application x) (res : EscalationResolution) :
    ∃ rationale r', R.resume env res r (.awaiting x h) =
      (.ok (), .completed (.reviewed x h res) rationale, r') ∧ r'.ModelReady :=
  explain_completes (c := .reviewed x h res) (fun n => hreplies.rationale n _)
    (r := r.noted (escalationUpdate env R.submission (R.payload env x) res)) hready

/-! A model whose every reply is usable never leaves a failed node behind. -/

/-- The case is completed or waits for a reviewer. -/
def Parked : Progress env R.application → Prop
  | .awaiting _ _ | .completed _ _ => True
  | .extracting | .scoring _ _ | .explaining _ => False

theorem explain_parks (husable : Usable env) (c : Settled env R.application)
    (hready : r.ModelReady) :
    Parked (R.explain env c r).2.1 ∧ (R.explain env c r).2.2.ModelReady := by
  obtain ⟨rationale, r', hexplain, hready'⟩ :=
    explain_completes (c := c) (fun n => husable.rationale n _) hready
  rw [hexplain]
  exact ⟨trivial, hready'⟩

theorem extract_parks (husable : Usable env) (hready : r.ModelReady) :
    Parked (R.extract env r).2.1 ∧ (R.extract env r).2.2.ModelReady := by
  obtain ⟨reply, x, hchat, hvalid, hfinite⟩ := husable.extraction r.chatCalls
    (sanitized env.unicode R.application.rawFinancialDocumentText)
  have hscorable := hfinite.scorable R.application
  obtain ⟨r', hread, hready'⟩ := readDocument_of_ok hready hchat hvalid
  rw [extract_of_ok hread]
  by_cases h : NeedsHuman env R.application x
  · rw [appraise_of_needsHuman hscorable h]
    exact ⟨trivial, modelReady_appraised hready'⟩
  · rw [appraise_of_not_needsHuman hscorable h]
    exact explain_parks husable _ (modelReady_appraised hready')

theorem begin_parks (husable : Usable env) (hready : r.ModelReady) :
    Parked (R.begin env r).2.1 ∧ (R.begin env r).2.2.ModelReady :=
  extract_parks (r := r.noted (intakeUpdate env R.submission)) husable hready

theorem resume_parks (husable : Usable env) (hready : r.ModelReady) (res : EscalationResolution)
    {p : Progress env R.application} (hparked : Parked p) :
    Parked (R.resume env res r p).2.1 ∧ (R.resume env res r p).2.2.ModelReady := by
  cases p with
  | extracting => exact hparked.elim
  | scoring x h => exact hparked.elim
  | awaiting x h =>
      exact explain_parks (r := r.noted (escalationUpdate env R.submission (R.payload env x) res))
        husable _ hready
  | explaining c => exact hparked.elim
  | completed c rationale => exact ⟨trivial, hready⟩

/-- Without a reply to the extraction prompt a submission raises and is due again. -/
theorem begin_raises (hchat : ∀ n, ∃ e, env.chat n (extractionPrompt env R.application) = .error e)
    (r : Runtime) : ∃ e r', R.begin env r = (.error e, .extracting, r') := by
  obtain ⟨e, r', hread⟩ := fails_readDocument hchat (r.noted (intakeUpdate env R.submission))
  exact ⟨e, _, extract_of_error hread⟩

end Run

/-! ## Submissions -/

section Submissions

variable {env : Env} {x : ExtractedFinancials} {w : World}

theorem startApplication_completes (R : Run)
    (hcorr : R.submission.correlationId = s!"corr_{env.uuid w.runtime.uuids}")
    (hbase : R.base = storedValues w R.application.applicationId)
    (hbureau : (w.runtime.breakers .creditBureau).state = .closed) (hready : w.runtime.ModelReady)
    (hreplies : Replies env R.application x) (h : ¬ NeedsHuman env R.application x) :
    ∃ rationale,
      (startApplication env R.application w).2.store R.application.applicationId =
        some (R.thread env (.completed (.automatic x h) rationale)) ∧
      (startApplication env R.application w).2.runtime.ModelReady := by
  obtain ⟨rationale, r', hbegin, hready'⟩ :=
    Run.begin_completes (r := w.runtime.launched R.submission) hreplies hready h
  rw [startApplication_eq R hcorr hbase hbureau, hbegin]
  exact ⟨rationale, Run.store_served _ w, hready'⟩

theorem startApplication_awaits (R : Run)
    (hcorr : R.submission.correlationId = s!"corr_{env.uuid w.runtime.uuids}")
    (hbase : R.base = storedValues w R.application.applicationId)
    (hbureau : (w.runtime.breakers .creditBureau).state = .closed) (hready : w.runtime.ModelReady)
    (hreplies : Replies env R.application x) (h : NeedsHuman env R.application x) :
    (startApplication env R.application w).2.store R.application.applicationId =
        some (R.thread env (.awaiting x h)) ∧
      (startApplication env R.application w).2.runtime.ModelReady := by
  obtain ⟨r', hbegin, hready'⟩ :=
    Run.begin_awaits (r := w.runtime.launched R.submission) hreplies hready h
  rw [startApplication_eq R hcorr hbase hbureau, hbegin]
  exact ⟨Run.store_served _ w, hready'⟩

end Submissions

/-! ## The first submission -/

/-- The run that the first submission to a fresh process starts. -/
def Run.first (env : Env) (a : LoanApplication) : Run := .fresh a s!"corr_{env.uuid 0}"

theorem startApplication_init (env : Env) (a : LoanApplication) :
    startApplication env a .init = Run.served
      ((Run.first env a).begin env (Runtime.init.launched (Run.first env a).submission)) .init :=
  startApplication_eq (Run.first env a) rfl rfl rfl

section First

variable {env : Env} {a : LoanApplication} {x : ExtractedFinancials}

theorem run_start (w : World) : run env [.start a] w = (startApplication env a w).2 := by
  rw [run_cons, run_nil, exec]

theorem run_start_completes (hreplies : Replies env a x) (h : ¬ NeedsHuman env a x) :
    ∃ rationale,
      (run env [.start a] .init).store a.applicationId =
        some ((Run.first env a).thread env (.completed (.automatic x h) rationale)) ∧
      (run env [.start a] .init).runtime.ModelReady := by
  obtain ⟨rationale, r', hbegin, hready⟩ := Run.begin_completes (R := Run.first env a)
    (r := Runtime.init.launched (Run.first env a).submission) hreplies rfl h
  rw [run_start, startApplication_init, hbegin]
  exact ⟨rationale, Run.store_served (R := Run.first env a) _ _, hready⟩

theorem run_start_awaits (hreplies : Replies env a x) (h : NeedsHuman env a x) :
    (run env [.start a] .init).store a.applicationId =
        some ((Run.first env a).thread env (.awaiting x h)) ∧
      (run env [.start a] .init).runtime.ModelReady := by
  obtain ⟨r', hbegin, hready⟩ := Run.begin_awaits (R := Run.first env a)
    (r := Runtime.init.launched (Run.first env a).submission) hreplies rfl h
  rw [run_start, startApplication_init, hbegin]
  exact ⟨Run.store_served (R := Run.first env a) _ _, hready⟩

/-- A resolution completes what the first submission has left to a reviewer. -/
theorem run_resolve_completes (hreplies : Replies env a x) (h : NeedsHuman env a x)
    (res : EscalationResolution) :
    ∃ rationale,
      (run env [.start a, .resolve a.applicationId res] .init).store a.applicationId =
        some ((Run.first env a).thread env (.completed (.reviewed x h res) rationale)) ∧
      (run env [.start a, .resolve a.applicationId res] .init).runtime.ModelReady := by
  obtain ⟨hstore, hready⟩ := run_start_awaits hreplies h
  have hbureau := (sound_run env [.start a]).bureau
  have hrun : run env [.start a, .resolve a.applicationId res] .init =
      (resolveEscalation env a.applicationId res (run env [.start a] .init)).2 := rfl
  rw [hrun]
  generalize run env [.start a] .init = w at hstore hready hbureau
  obtain ⟨rationale, r', hresume, hready'⟩ := Run.resume_completes (R := Run.first env a) hreplies
    (r := w.runtime.resolving a.applicationId res) hready h res
  have hresolve : resolveEscalation env a.applicationId res w =
      Run.served ((Run.first env a).resume env res
        (w.runtime.resolving a.applicationId res) (.awaiting x h)) w :=
    @resolveEscalation_eq env w (Run.first env a) (.awaiting x h) res hstore rfl hbureau
  rw [hresolve, hresume]
  exact ⟨rationale, Run.store_served (R := Run.first env a) _ _, hready'⟩

theorem run_start_raises
    (hchat : ∀ n, ∃ e, env.chat n (extractionPrompt env a) = .error e) :
    (run env [.start a] .init).store a.applicationId =
      some ((Run.first env a).thread env .extracting) := by
  obtain ⟨e, r', hbegin⟩ := Run.begin_raises (R := Run.first env a) hchat
    (Runtime.init.launched (Run.first env a).submission)
  rw [run_start, startApplication_init, hbegin]
  exact Run.store_served (R := Run.first env a) _ _

end First

/-! ## A scripted model -/

/-- Generated ids that are pairwise different. -/
def numberedIds : ℕ ↪ String where
  toFun n := String.ofList (List.replicate n 'f')
  inj' m n h := by simpa using congrArg (fun s => s.toList.length) h

/-- An environment whose model gives one reply to a document and one to a payload; `none`
stands for an error of the provider. -/
def Env.scripted (settings : Settings) (nameDigest : String → ℕ)
    (extraction rationale : Option Content) : Env where
  unicode := .ascii
  arithmetic := .double
  settings := settings
  chat _ messages :=
    ((humanContent messages).json.elim extraction fun _ => rationale).elim
      (.error (.providerError "the provider is unavailable")) .ok
  chat_raises n messages e h := by
    cases hjson : (humanContent messages).json with
    | none => cases extraction <;> rw [hjson] at h <;> cases h; rfl
    | some _ => cases rationale <;> rw [hjson] at h <;> cases h; rfl
  clock n := n
  uuid := numberedIds
  nameDigest := nameDigest

section Scripted

variable {settings : Settings} {nameDigest : String → ℕ} {reply rationale : Content}
  {x : ExtractedFinancials}

theorem validateExtraction_modelDump (text : String) (x : ExtractedFinancials) :
    validateExtraction ⟨text, some x.modelDump⟩ = .ok x :=
  ExtractedFinancials.modelValidate_modelDump x

theorem replies_scripted (hvalid : validateExtraction reply = .ok x) (hfinite : x.Finite .double)
    (hnonempty : 1 ≤ rationale.text.toList.length) (a : LoanApplication) :
    Replies (.scripted settings nameDigest (some reply) (some rationale)) a x :=
  ⟨hfinite.scorable a, fun _ => ⟨reply, rfl, hvalid⟩, fun _ _ => ⟨rationale, rfl, hnonempty⟩⟩

theorem usable_scripted (hvalid : validateExtraction reply = .ok x) (hfinite : x.Finite .double)
    (hnonempty : 1 ≤ rationale.text.toList.length) :
    Usable (.scripted settings nameDigest (some reply) (some rationale)) :=
  ⟨fun _ _ => ⟨reply, x, rfl, hvalid, hfinite⟩, fun _ _ => ⟨rationale, rfl, hnonempty⟩⟩

theorem scripted_none (script : Option Content) (a : LoanApplication) (n : ℕ) :
    ∃ e, (Env.scripted settings nameDigest none script).chat n
      (extractionPrompt (.scripted settings nameDigest none script) a) = .error e :=
  ⟨_, rfl⟩

end Scripted

/-- `make_application` of the test suite. -/
def sampleApplication : LoanApplication where
  applicationId := "app_1"
  applicantFullName := "Alex B. Approved"
  requestedAmount := 15000
  loanPurpose := .auto
  employmentStatus := .employedFullTime
  statedAnnualIncome := 62400
  statedMonthlyDebt := 400
  rawFinancialDocumentText := "EMPLOYER: Riverside Retail Co."
  name_length := by decide
  name_stripped := by decide
  amount_range := by norm_num
  income_range := by norm_num
  debt_range := by norm_num
  text_length := by decide

/-- What a model reads off a pay stub of the test suite. -/
def sampleExtraction : ExtractedFinancials where
  monthlyGrossIncome := 5200
  monthlyNetIncome := 3900
  existingMonthlyDebtPayments := 400
  employerName := some "Riverside Retail Co."
  payFrequency := some "biweekly"
  extractionConfidence := 0.95
  sourceExcerpts := []
  gross_nonneg := by norm_num
  net_nonneg := by norm_num
  debt_nonneg := by norm_num
  confidence_range := by norm_num

/-- The first 32 bits of the SHA-256 digests of the normalized names in the samples. -/
def nameDigests : List (String × ℕ) :=
  [("alex b. approved", 518146497),
    ("dana r. applicant", 2361577750),
    ("jordan j. renamed", 79610005),
    ("applicant 74", 1778649394),
    ("applicant 81", 2905948008)]

def sampleDigest (name : String) : ℕ := (nameDigests.lookup name).getD 0

def sampleResolution : EscalationResolution where
  reviewerId := "reviewer_1"
  approve := true
  notes := ""
  reviewer_length := by decide
  notes_length := by decide

/-- A model that reads the same pay stub off every document. -/
def sampleEnv : Env :=
  .scripted .default sampleDigest (some ⟨"", some sampleExtraction.modelDump⟩)
    (some ⟨"Approved.", none⟩)

theorem finite_sample : sampleExtraction.Finite .double := by
  constructor <;> apply Arithmetic.isInf_eq_false_of_lt <;> norm_num [sampleExtraction]

theorem replies_sample (a : LoanApplication) : Replies sampleEnv a sampleExtraction :=
  replies_scripted (validateExtraction_modelDump _ _) finite_sample (by decide) a

theorem usable_sample : Usable sampleEnv :=
  usable_scripted (validateExtraction_modelDump _ _) finite_sample (by decide)

theorem not_needsHuman_sample :
    ¬ NeedsHuman sampleEnv sampleApplication sampleExtraction := by decide +kernel

/-- `sampleApplication` with an amount far beyond five stated annual incomes. -/
def escalatedApplication : LoanApplication :=
  { sampleApplication with requestedAmount := 400000, amount_range := by norm_num }

theorem blocked_escalated (env : Env) :
    (policyFor env escalatedApplication sampleExtraction).passed = false := by
  rw [policyFor_passed_eq_false_iff]
  refine .inl ?_
  norm_num [escalatedApplication, sampleApplication]

theorem needsHuman_escalated : NeedsHuman sampleEnv escalatedApplication sampleExtraction :=
  .inr (blocked_escalated sampleEnv)

end Underwriting
