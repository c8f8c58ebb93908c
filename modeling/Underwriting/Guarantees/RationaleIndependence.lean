import Underwriting.Guarantees.Resubmission

/-!
# The rationale does not reach the decision

Two processes with the same history serve the same application and the same resolutions.
Their chat models reply alike to the extraction prompt of the application and arbitrarily to
every other prompt. Then the two cases stay alike: until the gate is passed they are the same
case in the same process, and from then on they were given the same extraction and the same
resolution. The rationale is asked for after the gate only, so all that it can delay is the
completion, and all that it can change is its own text: `rationale_cannot_influence`.

The calls are those for the application itself. Other applications share the breaker of the
chat model, which counts the failures of their rationales too.
-/

namespace Underwriting

open Python ApplicationService

/-! ## Two models -/

/-- The inner chat model of an environment. -/
structure ChatModel where
  invoke : ℕ → List Message → Except Exn Content
  raises : ∀ n messages e, invoke n messages = .error e → e.isControl = false

def Env.withModel (env : Env) (m : ChatModel) : Env :=
  { env with chat := m.invoke, chat_raises := m.raises }

section Reading

variable {env : Env} {m₁ m₂ : ChatModel} {messages : List Message} {a : LoanApplication}

theorem invokeChat_withModel (h : ∀ n, m₁.invoke n messages = m₂.invoke n messages) :
    invokeChat (env.withModel m₁) messages = invokeChat (env.withModel m₂) messages := by
  have hinner : innerInvoke (env.withModel m₁) messages =
      innerInvoke (env.withModel m₂) messages := by
    funext r
    simp only [innerInvoke, Py.bind_apply, Py.state_apply, Py.modify_apply, Py.lift_apply]
    have hreply : (env.withModel m₁).chat r.chatCalls messages =
        (env.withModel m₂).chat r.chatCalls messages := h r.chatCalls
    rw [hreply]
  rw [invokeChat, hinner]
  rfl

/-- Models that reply alike to the extraction prompt read the same from the document. -/
theorem readDocument_withModel
    (h : ∀ n, m₁.invoke n (extractionPrompt env a) = m₂.invoke n (extractionPrompt env a)) :
    readDocument (env.withModel m₁) a = readDocument (env.withModel m₂) a := by
  funext r
  obtain ⟨log, hsafe⟩ := sanitizeUntrustedText_apply (env.withModel m₁)
    a.rawFinancialDocumentText "raw_financial_document_text" r
  have hsafe' : sanitizeUntrustedText (env.withModel m₂) a.rawFinancialDocumentText
      "raw_financial_document_text" r = _ := hsafe
  have hinvoke : invokeChat (env.withModel m₁) (extractionPrompt env a) =
      invokeChat (env.withModel m₂) (extractionPrompt env a) := invokeChat_withModel h
  rw [readDocument, Py.bind_of_ok hsafe, readDocument, Py.bind_of_ok hsafe']
  exact congrFun (congrArg (· >>= fun reply => Py.lift (validateExtraction reply)) hinvoke) _

end Reading

/-! ## Two cases -/

/-- What a case has been given once it has passed the gate. -/
def Progress.basis {env : Env} {a : LoanApplication} :
    Progress env a → Option (ExtractedFinancials × Option EscalationResolution)
  | .extracting | .scoring _ _ | .awaiting _ _ => none
  | .explaining c | .completed c _ => some (c.extracted, c.resolution)

/-- Two cases of an application, each in its process. Before the gate is passed nothing tells
them apart. -/
inductive Alike {e₁ e₂ : Env} {a : LoanApplication} :
    Progress e₁ a × Runtime → Progress e₂ a × Runtime → Prop where
  | unread (r : Runtime) : Alike (.extracting, r) (.extracting, r)
  | unscored (x : ExtractedFinancials) (h₁ : Unscorable e₁.arithmetic a x)
      (h₂ : Unscorable e₂.arithmetic a x) (r : Runtime) :
      Alike (.scoring x h₁, r) (.scoring x h₂, r)
  | unreviewed (x : ExtractedFinancials) (h₁ : NeedsHuman e₁ a x) (h₂ : NeedsHuman e₂ a x)
      (r : Runtime) : Alike (.awaiting x h₁, r) (.awaiting x h₂, r)
  | settled {p₁ : Progress e₁ a} {p₂ : Progress e₂ a} (b : ExtractedFinancials ×
      Option EscalationResolution) (h₁ : p₁.basis = some b) (h₂ : p₂.basis = some b)
      (r₁ r₂ : Runtime) : Alike (p₁, r₁) (p₂, r₂)

/-- Either both cases are due, or both are settled. -/
theorem Alike.due_or_settled {e₁ e₂ : Env} (R : Run) {p₁ : Progress e₁ R.application}
    {p₂ : Progress e₂ R.application} {r₁ r₂ : Runtime} (h : Alike (p₁, r₁) (p₂, r₂)) :
    (R.due e₁ p₁).isSome = true ∧ (R.due e₂ p₂).isSome = true ∨
      ∃ b, p₁.basis = some b ∧ p₂.basis = some b := by
  cases h with
  | unread => exact .inl ⟨rfl, rfl⟩
  | unscored => exact .inl ⟨rfl, rfl⟩
  | unreviewed => exact .inl ⟨rfl, rfl⟩
  | settled b h₁ h₂ => exact .inr ⟨b, h₁, h₂⟩

namespace Run

variable {env : Env} {R : Run}

theorem basis_explain (c : Settled env R.application) (r : Runtime) :
    (R.explain env c r).2.1.basis = some (c.extracted, c.resolution) := by
  rcases hw : writeRationale env R.application c.extracted (R.effective env c) r with
    ⟨e | rationale, r'⟩
  · rw [explain_of_error hw]
    rfl
  · rw [explain_of_ok hw]
    rfl

/-- A resume value does not change what a settled case was given. -/
theorem basis_resume {p : Progress env R.application}
    {b : ExtractedFinancials × Option EscalationResolution} (h : p.basis = some b)
    (res : EscalationResolution) (r : Runtime) : (R.resume env res r p).2.1.basis = some b := by
  cases p with
  | extracting => cases h
  | scoring x hx => cases h
  | awaiting x hx => cases h
  | explaining c => exact (basis_explain c r).trans h
  | completed c rationale => exact h

section Moves

variable {m₁ m₂ : ChatModel}

/-- Without an assessment two cases are alike. -/
theorem alike_unscored {x : ExtractedFinancials}
    (h₁ : Unscorable (env.withModel m₁).arithmetic R.application x)
    (h₂ : Unscorable (env.withModel m₂).arithmetic R.application x) (r : Runtime) :
    Alike (R.unscored (env.withModel m₁) x h₁ r).2 (R.unscored (env.withModel m₂) x h₂ r).2 :=
  .unscored x h₁ h₂ _

theorem alike_appraise (x : ExtractedFinancials) (r : Runtime) :
    Alike (R.appraise (env.withModel m₁) x r).2 (R.appraise (env.withModel m₂) x r).2 := by
  by_cases hx₁ : Unscorable (env.withModel m₁).arithmetic R.application x
  · have hx₂ : Unscorable (env.withModel m₂).arithmetic R.application x := hx₁
    rw [appraise_of_unscorable hx₁, appraise_of_unscorable hx₂]
    exact alike_unscored hx₁ hx₂ _
  have hx₂ : ¬ Unscorable (env.withModel m₂).arithmetic R.application x := hx₁
  by_cases h₁ : NeedsHuman (env.withModel m₁) R.application x
  · have h₂ : NeedsHuman (env.withModel m₂) R.application x := h₁
    rw [appraise_of_needsHuman hx₁ h₁, appraise_of_needsHuman hx₂ h₂]
    exact .unreviewed x h₁ h₂ _
  · have h₂ : ¬ NeedsHuman (env.withModel m₂) R.application x := h₁
    rw [appraise_of_not_needsHuman hx₁ h₁, appraise_of_not_needsHuman hx₂ h₂]
    exact .settled (x, none) (basis_explain _ _) (basis_explain _ _) _ _

theorem alike_extract (hread : readDocument (env.withModel m₁) R.application =
      readDocument (env.withModel m₂) R.application) (r : Runtime) :
    Alike (R.extract (env.withModel m₁) r).2 (R.extract (env.withModel m₂) r).2 := by
  have hsame := congrFun hread r
  rcases hread₁ : readDocument (env.withModel m₁) R.application r with ⟨e | x, r'⟩
  · have hread₂ := hsame.symm.trans hread₁
    rw [extract_of_error hread₁, extract_of_error hread₂]
    exact .unread _
  · have hread₂ := hsame.symm.trans hread₁
    rw [extract_of_ok hread₁, extract_of_ok hread₂]
    exact alike_appraise x r'

theorem alike_begin (hread : readDocument (env.withModel m₁) R.application =
      readDocument (env.withModel m₂) R.application) (r : Runtime) :
    Alike (R.begin (env.withModel m₁) r).2 (R.begin (env.withModel m₂) r).2 :=
  alike_extract hread _

/-- Resume values keep alike cases alike. -/
theorem alike_resume (hread : readDocument (env.withModel m₁) R.application =
      readDocument (env.withModel m₂) R.application) (res : EscalationResolution)
    {o₁ : Progress (env.withModel m₁) R.application × Runtime}
    {o₂ : Progress (env.withModel m₂) R.application × Runtime} (h : Alike o₁ o₂)
    (resolving : Runtime → Runtime) :
    Alike (R.resume _ res (resolving o₁.2) o₁.1).2 (R.resume _ res (resolving o₂.2) o₂.1).2 := by
  cases h with
  | unread r => exact alike_extract hread _
  | unscored x h₁ h₂ r => exact alike_unscored h₁ h₂ _
  | unreviewed x h₁ h₂ r =>
      exact .settled (x, some res) (basis_explain _ _) (basis_explain _ _) _ _
  | settled b h₁ h₂ r₁ r₂ =>
      exact .settled b (basis_resume h₁ res _) (basis_resume h₂ res _) _ _

end Moves

end Run

/-! ## Two processes -/

/-- Two worlds that store alike cases of a run. -/
structure AlikeWorlds (e₁ e₂ : Env) (R : Run) (w₁ w₂ : World) : Prop where
  bureau₁ : (w₁.runtime.breakers .creditBureau).state = .closed
  bureau₂ : (w₂.runtime.breakers .creditBureau).state = .closed
  stored : ∃ (p₁ : Progress e₁ R.application) (p₂ : Progress e₂ R.application),
    w₁.store R.application.applicationId = some (R.thread e₁ p₁) ∧
    w₂.store R.application.applicationId = some (R.thread e₂ p₂) ∧
    Alike (p₁, w₁.runtime) (p₂, w₂.runtime)

section Worlds

variable {env : Env} {m₁ m₂ : ChatModel} {R : Run} {w₁ w₂ : World}

theorem AlikeWorlds.resolve (hread : readDocument (env.withModel m₁) R.application =
      readDocument (env.withModel m₂) R.application)
    (h : AlikeWorlds (env.withModel m₁) (env.withModel m₂) R w₁ w₂) (res : EscalationResolution) :
    AlikeWorlds (env.withModel m₁) (env.withModel m₂) R
      (exec (env.withModel m₁) w₁ (.resolve R.application.applicationId res))
      (exec (env.withModel m₂) w₂ (.resolve R.application.applicationId res)) := by
  obtain ⟨hbureau₁, hbureau₂, p₁, p₂, hstore₁, hstore₂, halike⟩ := h
  obtain ⟨hstore₁', hbureau₁', hruntime₁⟩ := exec_resolve_case hstore₁ hbureau₁ res
  obtain ⟨hstore₂', hbureau₂', hruntime₂⟩ := exec_resolve_case hstore₂ hbureau₂ res
  refine ⟨hbureau₁', hbureau₂', _, _, hstore₁', hstore₂', ?_⟩
  rcases halike.due_or_settled R with ⟨hdue₁, hdue₂⟩ | ⟨b, hbasis₁, hbasis₂⟩
  · rw [hruntime₁ hdue₁, hruntime₂ hdue₂]
    exact Run.alike_resume hread res halike (·.resolving R.application.applicationId res)
  · exact .settled b (Run.basis_resume hbasis₁ res _) (Run.basis_resume hbasis₂ res _) _ _

/-- A submission under a fresh id starts alike cases in processes with one history. -/
theorem alikeWorlds_start {a : LoanApplication} {w : World}
    (hread : readDocument (env.withModel m₁) a = readDocument (env.withModel m₂) a)
    (hbureau : (w.runtime.breakers .creditBureau).state = .closed)
    (hfresh : w.store a.applicationId = none) :
    AlikeWorlds (env.withModel m₁) (env.withModel m₂)
      (.fresh a s!"corr_{env.uuid w.runtime.uuids}")
      (exec (env.withModel m₁) w (.start a)) (exec (env.withModel m₂) w (.start a)) := by
  let R : Run := .fresh a s!"corr_{env.uuid w.runtime.uuids}"
  have hexec (m : ChatModel) : exec (env.withModel m) w (.start a) =
      (Run.served (R.begin (env.withModel m) (w.runtime.launched R.submission)) w).2 :=
    congrArg Prod.snd (startApplication_fresh (env.withModel m) hbureau hfresh)
  rw [hexec, hexec]
  refine ⟨(Run.steady_begin _).bureau hbureau, (Run.steady_begin _).bureau hbureau, _, _,
    Run.store_served _ w, Run.store_served _ w, ?_⟩
  exact Run.alike_begin (R := R) hread _

theorem alikeWorlds_run (hread : readDocument (env.withModel m₁) R.application =
      readDocument (env.withModel m₂) R.application) (resolutions : List EscalationResolution)
    (h : AlikeWorlds (env.withModel m₁) (env.withModel m₂) R w₁ w₂) :
    AlikeWorlds (env.withModel m₁) (env.withModel m₂) R
      (run (env.withModel m₁) (resolutions.map (.resolve R.application.applicationId)) w₁)
      (run (env.withModel m₂) (resolutions.map (.resolve R.application.applicationId)) w₂) := by
  induction resolutions generalizing w₁ w₂ with
  | nil => exact h
  | cons res resolutions ih => exact ih (h.resolve hread res)

end Worlds

/-! ## Completed runs -/

/-- Two threads that took the same route and hold the same values, except that their
decisions may differ in the rationale. -/
structure SameButRationale (t₁ t₂ : Thread) : Prop where
  route : t₁.route = t₂.route
  values : { t₁.values with decision := none } = { t₂.values with decision := none }
  decision : ∃ d₁ d₂ : Decision, t₁.values.decision = some d₁.modelDump ∧
    t₂.values.decision = some d₂.modelDump ∧ d₁.outcome = d₂.outcome ∧
    d₁.approvedAmount = d₂.approvedAmount ∧
    d₁.adverseActionReasons = d₂.adverseActionReasons ∧ d₁.decidedBy = d₂.decidedBy

/-- Completed cases that were given the same differ in their rationale. -/
theorem sameButRationale_of_basis {env : Env} {m₁ m₂ : ChatModel} {R : Run}
    {c₁ : Settled (env.withModel m₁) R.application}
    {c₂ : Settled (env.withModel m₂) R.application}
    (hextracted : c₁.extracted = c₂.extracted) (hresolution : c₁.resolution = c₂.resolution)
    (ρ₁ ρ₂ : Rationale) :
    SameButRationale (R.thread (env.withModel m₁) (.completed c₁ ρ₁))
      (R.thread (env.withModel m₂) (.completed c₂ ρ₂)) := by
  obtain ⟨x, resolution, hgated₁⟩ := c₁
  obtain ⟨x', resolution', hgated₂⟩ := c₂
  obtain rfl : x = x' := hextracted
  obtain rfl : resolution = resolution' := hresolution
  cases resolution with
  | none => exact ⟨rfl, rfl, _, _, rfl, rfl, rfl, rfl, rfl, rfl⟩
  | some res => exact ⟨rfl, rfl, _, _, rfl, rfl, rfl, rfl, rfl, rfl⟩

theorem rationale_cannot_influence (env₀ env : Env) (m₁ m₂ : ChatModel) (calls : List Call)
    (a : LoanApplication) (resolutions : List EscalationResolution) (t₁ t₂ : Thread)
    (hfresh : (run env₀ calls .init).store a.applicationId = none)
    (hsame : ∀ n, m₁.invoke n (extractionPrompt env a) = m₂.invoke n (extractionPrompt env a))
    (hstore₁ : (run (env.withModel m₁)
      (.start a :: resolutions.map (.resolve a.applicationId))
        (run env₀ calls .init)).store a.applicationId = some t₁)
    (hstore₂ : (run (env.withModel m₂)
      (.start a :: resolutions.map (.resolve a.applicationId))
        (run env₀ calls .init)).store a.applicationId = some t₂)
    (hcompleted₁ : (summarize a.applicationId t₁).status = "completed")
    (hcompleted₂ : (summarize a.applicationId t₂).status = "completed") :
    SameButRationale t₁ t₂ := by
  have hbureau := (sound_run env₀ calls).bureau
  generalize run env₀ calls .init = w at hfresh hbureau hstore₁ hstore₂
  have hread := readDocument_withModel hsame
  have hstart := alikeWorlds_start hread hbureau hfresh
  obtain ⟨-, -, p₁, p₂, hp₁, hp₂, halike⟩ :=
    alikeWorlds_run (R := .fresh a _) hread resolutions hstart
  obtain rfl := Option.some.inj (hstore₁.symm.trans hp₁)
  obtain rfl := Option.some.inj (hstore₂.symm.trans hp₂)
  obtain ⟨c₁, ρ₁, rfl⟩ := Run.exists_completed hcompleted₁
  obtain ⟨c₂, ρ₂, rfl⟩ := Run.exists_completed hcompleted₂
  cases halike with
  | settled b h₁ h₂ =>
      have hbasis : (c₁.extracted, c₁.resolution) = (c₂.extracted, c₂.resolution) :=
        Option.some.inj (h₁.trans h₂.symm)
      exact sameButRationale_of_basis (congrArg Prod.fst hbasis) (congrArg Prod.snd hbasis) ρ₁ ρ₂

/-- The model of `sampleEnv` with the given rationale. -/
def sampleModel (rationale : String) : ChatModel :=
  let script := Env.scripted .default sampleDigest (some ⟨"", some sampleExtraction.modelDump⟩)
    (some ⟨rationale, none⟩)
  ⟨script.chat, script.chat_raises⟩

theorem sampleModel_extraction (env : Env) (a : LoanApplication) (rationale rationale' : String)
    (n : ℕ) : (sampleModel rationale).invoke n (extractionPrompt env a) =
      (sampleModel rationale').invoke n (extractionPrompt env a) := rfl

theorem sampleModel_completes (rationale : String) (h : 1 ≤ rationale.toList.length) :
    ∃ t, (run (sampleEnv.withModel (sampleModel rationale))
      [.start escalatedApplication, .resolve "app_1" sampleResolution] .init).store "app_1" =
        some t ∧ (summarize "app_1" t).status = "completed" := by
  have hreplies : Replies (sampleEnv.withModel (sampleModel rationale)) escalatedApplication
      sampleExtraction := replies_scripted (validateExtraction_modelDump _ _) finite_sample h _
  obtain ⟨ρ, hstore, -⟩ := run_resolve_completes hreplies (.inr (blocked_escalated _))
    sampleResolution
  exact ⟨_, hstore, rfl⟩

theorem same_but_rationale_escalated :
    ∃ t₁ t₂, (run (sampleEnv.withModel (sampleModel "Approved."))
        [.start escalatedApplication, .resolve "app_1" sampleResolution] .init).store "app_1" =
          some t₁ ∧
      (run (sampleEnv.withModel (sampleModel "Granted."))
        [.start escalatedApplication, .resolve "app_1" sampleResolution] .init).store "app_1" =
          some t₂ ∧ SameButRationale t₁ t₂ := by
  obtain ⟨t₁, hstore₁, hcompleted₁⟩ := sampleModel_completes "Approved." (by decide)
  obtain ⟨t₂, hstore₂, hcompleted₂⟩ := sampleModel_completes "Granted." (by decide)
  exact ⟨t₁, t₂, hstore₁, hstore₂, rationale_cannot_influence sampleEnv sampleEnv _ _ []
    escalatedApplication [sampleResolution] t₁ t₂ rfl
    (sampleModel_extraction sampleEnv escalatedApplication _ _) hstore₁ hstore₂ hcompleted₁
    hcompleted₂⟩

end Underwriting
