import Underwriting.Guarantees.PendingNodes
import Underwriting.Infrastructure.Admission
import Underwriting.Run.Fresh
import Underwriting.Service.Offline

/-!
# Submissions to the offline model

With the mock model and closed breakers a fresh submission ends as it should, completed or
with a reviewer, if and only if its document is readable and its figures can be scored, which
they always can where arithmetic is exact. An unreadable document raises on every attempt, and
the attempts are counted by a breaker that all submissions share; figures that cannot be scored
raise once the document has been read.
-/

namespace Underwriting

open Python ApplicationService

/-- The mock model can read the document of an application. -/
def LoanApplication.IsReadable (u : Unicode) (a : LoanApplication) : Prop :=
  Readable u (sanitized u a.rawFinancialDocumentText)

/-- The figures that the mock model reads are not beyond what can be scored. -/
def LoanApplication.IsScorable (env : Env) (a : LoanApplication) : Prop :=
  ∀ reply x, mockDocumentExtraction env.unicode
      (sanitized env.unicode a.rawFinancialDocumentText) = .ok reply →
    validateExtraction reply = .ok x → ¬ Unscorable env.arithmetic a x

theorem not_unscorable_exact (a : LoanApplication) (x : ExtractedFinancials) :
    ¬ Unscorable .exact a x := by
  intro h
  cases h.1

theorem LoanApplication.isScorable_of_exact {env : Env} (h : env.arithmetic = .exact)
    (a : LoanApplication) : a.IsScorable env := by
  intro reply x _ _
  rw [h]
  exact not_unscorable_exact a x

theorem LoanApplication.isScorable_iff {env : Env} {a : LoanApplication} {reply : Content}
    {x : ExtractedFinancials} (hreply : mockDocumentExtraction env.unicode
      (sanitized env.unicode a.rawFinancialDocumentText) = .ok reply)
    (hvalid : validateExtraction reply = .ok x) :
    a.IsScorable env ↔ ¬ Unscorable env.arithmetic a x := by
  constructor
  · intro h
    exact h reply x hreply hvalid
  · intro h reply' x' hreply' hvalid'
    obtain rfl := Except.ok.inj (hreply.symm.trans hreply')
    obtain rfl := Except.ok.inj (hvalid.symm.trans hvalid')
    exact h

/-! ## A model that always replies the same -/

section Constant

variable {env : Env} {a : LoanApplication} {reply : Content} {x : ExtractedFinancials} {r : Runtime}

theorem readDocument_of_admits
    (hreply : ∀ n, env.chat n (extractionPrompt env a) = .ok reply)
    (hvalid : validateExtraction reply = .ok x) (h : r.AdmitsWithin env .llm 3) :
    ∃ r', readDocument env a r = (.ok x, r') ∧ r'.ModelReady := by
  obtain ⟨log, hsafe⟩ := sanitizeUntrustedText_apply env a.rawFinancialDocumentText
    "raw_financial_document_text" r
  have hadmits : Runtime.AdmitsWithin env .llm 3 { r with log := log } := h
  obtain ⟨reply', r', hinvoke, rfl, hready⟩ := invokeChat_of_admits
    (P := (· = reply)) (fun n => ⟨reply, hreply n, rfl⟩) hadmits
  refine ⟨r', ?_, hready⟩
  rw [readDocument, Py.bind_of_ok hsafe]
  exact (Py.bind_of_ok hinvoke).trans (by rw [hvalid, Py.lift_apply])

theorem readDocument_of_not_admits (h : ¬ r.AdmitsWithin env .llm 3) :
    ∃ e r', readDocument env a r = (.error e, r') := by
  obtain ⟨log, hsafe⟩ := sanitizeUntrustedText_apply env a.rawFinancialDocumentText
    "raw_financial_document_text" r
  have hrefuses : ¬ Runtime.AdmitsWithin env .llm 3 { r with log := log } := h
  obtain ⟨e, r', hinvoke⟩ := @invokeChat_of_not_admits env (extractionPrompt env a) _ hrefuses
  refine ⟨e, r', ?_⟩
  rw [readDocument, Py.bind_of_ok hsafe]
  exact Py.bind_of_error hinvoke

/-- Where a fresh submission comes to whose document is read: it depends on the application
alone. -/
structure Ends (env : Env) (a : LoanApplication) (x : ExtractedFinancials)
    (out : Except Exn Unit) (p : Progress env a) : Prop where
  extraction : p.extraction = some x
  parks : ¬ Unscorable env.arithmetic a x → out = .ok () ∧ ∀ c, Run.Parked (R := .fresh a c) p
  raises : Unscorable env.arithmetic a x → ∃ e, out = .error e
  begins : ∀ c r, Runtime.AdmitsWithin env .llm 3 r →
    ∃ r', (Run.fresh a c).begin env r = (out, p, r') ∧ r'.ModelReady

/-- An attempt that is let through reads the document. -/
theorem begin_of_admits (hreply : ∀ n, env.chat n (extractionPrompt env a) = .ok reply)
    (hvalid : validateExtraction reply = .ok x) (c : String) (h : r.AdmitsWithin env .llm 3) :
    ∃ r', (Run.fresh a c).begin env r = (Run.fresh a c).appraise env x r' ∧ r'.ModelReady := by
  obtain ⟨r', hread, hready⟩ := readDocument_of_admits hreply hvalid
    (r := r.noted (intakeUpdate env ⟨a, c⟩)) h
  exact ⟨r', Run.extract_of_ok (R := .fresh a c) hread, hready⟩

theorem exists_ends {text : Content}
    (hreply : ∀ n, env.chat n (extractionPrompt env a) = .ok reply)
    (hvalid : validateExtraction reply = .ok x)
    (htext : ∀ n, env.chat n (rationalePrompt env a x none) = .ok text)
    (hnonempty : 1 ≤ text.text.toList.length) : ∃ out p, Ends env a x out p := by
  have hbegin (c : String) {r : Runtime} (h : r.AdmitsWithin env .llm 3) :=
    begin_of_admits hreply hvalid c h
  by_cases hx : Unscorable env.arithmetic a x
  · refine ⟨.error unscored, .scoring x hx, rfl, fun h => absurd hx h, fun _ => ⟨_, rfl⟩,
      fun c r hadmits => ?_⟩
    obtain ⟨r', hr', hready⟩ := hbegin c hadmits
    have hunscored := Run.appraise_of_unscorable (R := .fresh a c) (r := r') hx
    exact ⟨_, hr'.trans hunscored, Run.modelReady_unscored (R := .fresh a c) hx hready⟩
  by_cases hhuman : NeedsHuman env a x
  · refine ⟨.ok (), .awaiting x hhuman, rfl, fun _ => ⟨rfl, fun _ => trivial⟩,
      fun h => absurd h hx, fun c r hadmits => ?_⟩
    obtain ⟨r', hr', hready⟩ := hbegin c hadmits
    have happraise := Run.appraise_of_needsHuman (R := .fresh a c) (r := r') hx hhuman
    exact ⟨_, hr'.trans happraise, Run.modelReady_appraised (R := .fresh a c) hready⟩
  · refine ⟨.ok (), .completed (.automatic x hhuman) ⟨text.text, hnonempty⟩, rfl,
      fun _ => ⟨rfl, fun _ => trivial⟩, fun h => absurd h hx, fun c r hadmits => ?_⟩
    obtain ⟨r', hr', hready⟩ := hbegin c hadmits
    have happraised : ((Run.fresh a c).appraised env x r').ModelReady :=
      Run.modelReady_appraised hready
    obtain ⟨r'', hwrite, hready'⟩ := writeRationale_of_ok happraised (htext _) hnonempty
    have happraise := Run.appraise_of_not_needsHuman (R := .fresh a c) (r := r') hx hhuman
    have hexplain := Run.explain_of_ok (R := .fresh a c) (c := .automatic x hhuman) hwrite
    exact ⟨_, (hr'.trans happraise).trans hexplain, hready'⟩

end Constant

section Offline

variable {env : Env} {a : LoanApplication}

/-! ## Replies -/

theorem chat_extraction_offline (n : ℕ) :
    env.offline.chat n (extractionPrompt env.offline a) = mockDocumentExtraction env.unicode
      (sanitized env.unicode a.rawFinancialDocumentText) := by
  rw [env.chat_offline, extractionPrompt, mockChat_extraction, env.unicode_offline]

theorem chat_rationale_offline (n : ℕ) (x : ExtractedFinancials)
    (resolution : Option EscalationResolution) :
    env.offline.chat n (rationalePrompt env.offline a x resolution) =
      mockExplainabilityRationale (some (rationalePayload a (riskFor env.offline a x)
        (policyFor env.offline a x) resolution)) := by
  rw [env.chat_offline, rationalePrompt, mockChat_rationale]

/-- Where a readable submission comes to when the breaker lets one of its attempts through. -/
theorem exists_offline_ends (h : a.IsReadable env.unicode) :
    ∃ x out p, Ends env.offline a x out p ∧
      (a.IsScorable env ↔ ¬ Unscorable env.offline.arithmetic a x) := by
  obtain ⟨reply, x, hreply, hvalid⟩ := mockDocumentExtraction_of_readable h
  obtain ⟨text, htext, hnonempty⟩ := mockExplainabilityRationale_of_payload a
    (riskFor env.offline a x) (policyFor env.offline a x) none
  obtain ⟨out, p, hends⟩ := exists_ends (fun n => (chat_extraction_offline n).trans hreply) hvalid
    (fun n => (chat_rationale_offline n x none).trans htext) hnonempty
  exact ⟨x, out, p, hends, LoanApplication.isScorable_iff hreply hvalid⟩

/-- An unreadable submission raises, whatever the breaker does. -/
theorem begin_offline_raises (env : Env) (h : ¬ a.IsReadable env.unicode) (c : String)
    (r : Runtime) :
    ∃ e r', (Run.fresh a c).begin env.offline r = (.error e, .extracting, r') := by
  obtain ⟨e, he⟩ := mockDocumentExtraction_of_not_readable h
  exact Run.begin_raises (R := .fresh a c) (fun n => ⟨e, (chat_extraction_offline n).trans he⟩) r

theorem begin_of_not_admits {env : Env} {r : Runtime} (c : String)
    (h : ¬ r.AdmitsWithin env .llm 3) :
    ∃ e r', (Run.fresh a c).begin env r = (.error e, .extracting, r') := by
  have hnoted : ¬ (r.noted (intakeUpdate env ⟨a, c⟩)).AdmitsWithin env .llm 3 := h
  obtain ⟨e, r', hread⟩ := readDocument_of_not_admits (a := a) hnoted
  exact ⟨e, _, Run.extract_of_error (R := .fresh a c) hread⟩

end Offline

/-! ## No crash -/

/-- The submission raises nothing and leaves the run suspended at the reviewer's gate or
completed with a decision. -/
def Concludes (env : Env) (w : World) (a : LoanApplication) : Prop :=
  ∃ summary t, (startApplication env a w).1 = .ok summary ∧
    (startApplication env a w).2.store a.applicationId = some t ∧
    ((∃ payload, Suspended t payload) ∨
      summary.status = "completed" ∧ ∃ d : Decision, t.values.decision = some d.modelDump)

theorem Run.concludes_of_parked {env : Env} {R : Run} {p : Progress env R.application}
    (h : Parked p) :
    (∃ payload, Suspended (R.thread env p) payload) ∨
      (summarize R.application.applicationId (R.thread env p)).status = "completed" ∧
        ∃ d : Decision, (R.thread env p).values.decision = some d.modelDump := by
  cases p with
  | awaiting x hx => exact .inl ⟨_, (suspended_awaiting_iff x hx _).2 rfl⟩
  | completed c rationale => exact .inr ⟨rfl, R.decision env c rationale, rfl⟩
  | extracting => exact h.elim
  | scoring x hx => exact h.elim
  | explaining c => exact h.elim

theorem offline_concludes_iff (env : Env) (w : World) (a : LoanApplication)
    (hfresh : w.store a.applicationId = none)
    (hclosed : ∀ d, (w.runtime.breakers d).state = .closed) :
    (Concludes env.offline w a ↔ a.IsReadable env.unicode ∧ a.IsScorable env) ∧
      (env.arithmetic = .exact → a.IsScorable env) := by
  refine ⟨?_, fun hexact => LoanApplication.isScorable_of_exact hexact a⟩
  have hstart := startApplication_fresh env.offline (hclosed .creditBureau) hfresh
  by_cases hreadable : a.IsReadable env.unicode
  · obtain ⟨x, out, p, hends, hscorable⟩ := exists_offline_ends hreadable
    obtain ⟨r', hbegin, -⟩ := hends.begins s!"corr_{env.offline.uuid w.runtime.uuids}"
      (w.runtime.launched _) (Runtime.admitsWithin_of_closed (hclosed .llm))
    rw [hbegin] at hstart
    rw [and_iff_right hreadable, hscorable]
    constructor
    · rintro ⟨summary, t, hok, -, -⟩ hx
      obtain ⟨e, rfl⟩ := hends.raises hx
      rw [hstart] at hok
      cases hok
    · intro hx
      obtain ⟨rfl, hparked⟩ := hends.parks hx
      rw [Concludes, hstart]
      exact ⟨_, _, rfl, Run.store_served (R := .fresh a _) _ w,
        Run.concludes_of_parked (hparked _)⟩
  · refine iff_of_false ?_ fun h => hreadable h.1
    rintro ⟨summary, t, hok, -, -⟩
    obtain ⟨e, r', hbegin⟩ := begin_offline_raises env hreadable
      s!"corr_{env.offline.uuid w.runtime.uuids}" (w.runtime.launched _)
    rw [hstart, hbegin] at hok
    cases hok

/-- A pay stub with figures. -/
def stubText : String :=
  "PAY_FREQUENCY: monthly\nGROSS_PAY_PER_PERIOD: $5,200.00\n" ++
    "NET_PAY_PER_PERIOD: $3,900.00\nEXISTING_MONTHLY_DEBT: $400.00"

theorem length_stubText : 1 ≤ stubText.toList.length ∧ stubText.toList.length ≤ 20000 := by
  decide +kernel

def stubApplication : LoanApplication :=
  { sampleApplication with
    rawFinancialDocumentText := stubText
    text_length := length_stubText }

theorem isReadable_stub : stubApplication.IsReadable .ascii := by
  have hdigit : ∀ label ∈ moneyLabels, (moneyFigure .ascii
      (sanitized .ascii stubApplication.rawFinancialDocumentText) label).any
        (·.any (· ≠ ',')) = true := by
    decide +kernel
  intro label hlabel figure hfigure
  have hany := hdigit label hlabel
  rw [hfigure, Option.any_some] at hany
  obtain ⟨c, hc, hne⟩ := List.any_eq_true.1 hany
  exact ⟨c, hc, of_decide_eq_true hne⟩

/-- `sampleEnv` with exact arithmetic. -/
def exactEnv : Env := { sampleEnv with arithmetic := .exact }

theorem offline_concludes_sample : Concludes exactEnv.offline .init stubApplication := by
  have hclosed (d : Dependency) : (Runtime.init.breakers d).state = .closed := by cases d <;> rfl
  obtain ⟨hiff, hscorable⟩ := offline_concludes_iff exactEnv .init stubApplication rfl hclosed
  exact hiff.2 ⟨isReadable_stub, hscorable rfl⟩

/-- `sampleApplication` with a document whose gross pay is a lone comma. -/
def commaApplication : LoanApplication :=
  { sampleApplication with
    applicationId := "app_2"
    rawFinancialDocumentText := "GROSS_PAY_PER_PERIOD: ,"
    text_length := by decide }

theorem not_isReadable_comma : ¬ commaApplication.IsReadable .ascii := by
  have hfigure : moneyFigure .ascii (sanitized .ascii commaApplication.rawFinancialDocumentText)
      "GROSS_PAY_PER_PERIOD" = some [','] := by
    decide +kernel
  intro h
  obtain ⟨c, hc, hne⟩ := h _ (by simp [moneyLabels]) _ hfigure
  exact hne (List.mem_singleton.1 hc)

/-- The lone comma is a valid document, and submitting it raises. -/
theorem comma_document_raises :
    (∃ e, (startApplication sampleEnv.offline commaApplication .init).1 = .error e) ∧
      ¬ Concludes sampleEnv.offline .init commaApplication := by
  obtain ⟨e, r', hbegin⟩ := begin_offline_raises sampleEnv not_isReadable_comma _ _
  have hraises : (startApplication sampleEnv.offline commaApplication .init).1 = .error e := by
    rw [startApplication_fresh _ rfl rfl, hbegin]
    rfl
  refine ⟨⟨e, hraises⟩, ?_⟩
  rintro ⟨summary, t, hok, -⟩
  cases hraises.symm.trans hok

end Underwriting
