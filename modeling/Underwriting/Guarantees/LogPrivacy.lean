import Underwriting.Run.Reading
import Underwriting.Run.Replies

/-!
# Names in the log

Two submissions that differ in the applicant's name do the same up to the request to the
credit bureau, and the record of that request holds the name. The log is only appended to, so
the two runs log the same if and only if the names are equal or the bureau is never asked:
the document has not been read by the time the calls end or the id is submitted again.
-/

namespace Underwriting

open Python ApplicationService

/-- A name that an application accepts. -/
abbrev ApplicantName :=
  {name : String // (1 ≤ name.toList.length ∧ name.toList.length ≤ 200) ∧
    strip name.toList = name.toList}

/-- The application under another name. -/
def LoanApplication.named (a : LoanApplication) (name : ApplicantName) : LoanApplication :=
  { a with
    applicantFullName := name.val
    name_length := name.property.1
    name_stripped := name.property.2 }

/-! ## The log of a call -/

section Log

variable {env : Env}

/-- A move only appends to the log. -/
theorem Run.respects_log_growth (env : Env) (R : Run) :
    R.Respects env fun r r' => r.log <+: r'.log where
  refl _ := List.prefix_rfl
  trans h h' := h.trans h'
  noted _ _ := List.prefix_append _ _
  failed _ _ := List.prefix_rfl
  read r := (blind_readDocument env _).log_grows r
  report r := (blind_getCreditReport env _).log_grows r
  write x resolution r := (blind_writeRationale env _ x resolution).log_grows r

theorem Sound.log_prefix_exec {B : UnderwritingState → Prop} {w : World} (hw : Sound env B w)
    (c : Call) : w.runtime.log <+: (Underwriting.exec env w c).runtime.log := by
  rcases hw.exec_cases c with ⟨heq, -⟩ | ⟨R, -, -, -, heq⟩ | ⟨R, p, res, -, -, -, -, heq⟩
  · rw [heq]
  · have hlaunched : w.runtime.log <+: (w.runtime.launched R.submission).log :=
      List.prefix_append _ _
    rw [heq]
    exact hlaunched.trans ((Run.respects_log_growth env _).begin _)
  · have hresolving : w.runtime.log <+:
        (w.runtime.resolving R.application.applicationId res).log := List.prefix_append _ _
    rw [heq]
    exact hresolving.trans ((Run.respects_log_growth env _).resume res _ p)

theorem Sound.log_prefix_run {w : World} (hw : Sound env (fun _ => True) w) (calls : List Call) :
    w.runtime.log <+: (run env calls w).runtime.log := by
  induction calls generalizing w with
  | nil => exact List.prefix_rfl
  | cons c calls ih =>
      exact (hw.log_prefix_exec c).trans (ih (hw.exec c fun _ _ => trivial))

/-- The record of a request to the bureau. -/
def bureauRequest (applicantFullName : String) : LogRecord :=
  ⟨"underwriting.infrastructure.credit_bureau", "INFO", "credit_bureau_request",
    [("applicant", .str applicantFullName)]⟩

theorem bureauRequest_injective {name₁ name₂ : String}
    (h : bureauRequest name₁ = bureauRequest name₂) : name₁ = name₂ := by
  simpa [bureauRequest] using h

theorem log_prefix_requestReport (env : Env) (name : String) (r : Runtime) :
    r.log ++ [bureauRequest name] <+: (requestReport env name r).2.log := by
  have hrest : Blind (CircuitBreaker.call env .creditBureau (pure (fetchReport env name)) >>=
      fun report => bureauLog "credit_bureau_response" [("applicant", .str name),
        ("credit_band", .str report.creditBand.value)] >>= fun _ => pure report) :=
    blind_bind (blind_call env .creditBureau (blind_pure _)) fun _ =>
      blind_bind (blind_emit _) fun _ => blind_pure _
  exact hrest.log_grows { r with log := r.log ++ [bureauRequest name] }

/-- The name goes into the log before anything else the bureau does. -/
theorem log_prefix_getCreditReport (env : Env) (name : String) (r : Runtime) :
    r.log ++ [bureauRequest name] <+: (getCreditReport env name r).2.log := by
  have hfirst := log_prefix_requestReport env name r
  have hblind := blind_requestReport env name
  rw [getCreditReport, withRetry, retryAgain, Py.tryElse]
  rcases hout : requestReport env name r with ⟨e | report, r'⟩
  · rw [hout] at hfirst
    exact hfirst.trans ((blind_retryAgain hblind 1).log_grows r')
  · rw [hout] at hfirst
    exact hfirst

/-- When the document has been read, so does an extraction. -/
theorem Run.log_prefix_extract {R : Run} {r r' : Runtime} {x : ExtractedFinancials}
    (h : readDocument env R.application r = (.ok x, r')) :
    (r'.noted (extractionUpdate env R.submission x)).log ++
      [bureauRequest R.application.applicantFullName] <+: (R.extract env r).2.2.log := by
  have hgrows := respects_log_growth env R
  have hreport := log_prefix_getCreditReport env R.application.applicantFullName
    (r'.noted (extractionUpdate env R.submission x))
  rw [extract_of_ok h]
  by_cases hx : Unscorable env.arithmetic R.application x
  · rw [appraise_of_unscorable hx]
    exact hreport.trans (hgrows.failed _ _)
  have happraised := hreport.trans (hgrows.noted _ (riskUpdate env R.submission
    (riskFor env R.application x) ++ policyUpdate env R.submission (policyFor env R.application x)))
  refine happraised.trans ?_
  by_cases hhuman : NeedsHuman env R.application x
  · rw [appraise_of_needsHuman hx hhuman]
    exact hgrows.noted (R.appraised env x r') _
  · rw [appraise_of_not_needsHuman hx hhuman]
    exact hgrows.explain _ (R.appraised env x r')

end Log

/-! ## Two names -/

/-- The logs differ for good: they have one beginning and go on with different records. -/
def Diverged (r₁ r₂ : Runtime) : Prop :=
  ∃ l record₁ record₂, record₁ ≠ record₂ ∧ l ++ [record₁] <+: r₁.log ∧ l ++ [record₂] <+: r₂.log

theorem Diverged.grow {r₁ r₂ r₁' r₂' : Runtime} (h : Diverged r₁ r₂) (h₁ : r₁.log <+: r₁'.log)
    (h₂ : r₂.log <+: r₂'.log) : Diverged r₁' r₂' := by
  obtain ⟨l, record₁, record₂, hne, hprefix₁, hprefix₂⟩ := h
  exact ⟨l, record₁, record₂, hne, hprefix₁.trans h₁, hprefix₂.trans h₂⟩

theorem Diverged.log_ne {r₁ r₂ : Runtime} (h : Diverged r₁ r₂) : r₁.log ≠ r₂.log := by
  obtain ⟨l, record₁, record₂, hne, hprefix₁, hprefix₂⟩ := h
  intro hlog
  rw [hlog] at hprefix₁
  have heq : l ++ [record₁] = l ++ [record₂] :=
    List.IsPrefix.eq_of_length (List.prefix_of_prefix_length_le hprefix₁ hprefix₂ (by simp))
      (by simp)
  exact hne (List.singleton_inj.1 (List.append_cancel_left heq))

/-- The run of the application under another name. -/
def Run.named (R : Run) (name : ApplicantName) : Run :=
  { R with submission := ⟨R.application.named name, R.submission.correlationId⟩ }

section Names

variable {env : Env} {R : Run} {name₁ name₂ : ApplicantName}

theorem Run.diverged_extract (hne : name₁ ≠ name₂) {r : Runtime} (h : Reads env R.application r) :
    Diverged ((R.named name₁).extract env r).2.2 ((R.named name₂).extract env r).2.2 := by
  obtain ⟨x, hx⟩ := h
  have hread : readDocument env R.application r = (.ok x, (readDocument env R.application r).2) :=
    Prod.ext hx rfl
  have hextract₁ := log_prefix_extract (R := R.named name₁) hread
  have hextract₂ := log_prefix_extract (R := R.named name₂) hread
  refine ⟨_, _, _, ?_, hextract₁, hextract₂⟩
  exact fun heq => hne (Subtype.ext (bureauRequest_injective heq))

/-- A document that cannot be read leaves the process the same under both names. -/
theorem Run.extract_of_not_reads {r : Runtime} (h : ¬ Reads env R.application r) :
    ∃ e r', ∀ name, (R.named name).extract env r = (.error e, .extracting, r') := by
  rcases hread : readDocument env R.application r with ⟨e | x, r'⟩
  · exact ⟨e, R.submission.failed "document_extraction_agent" r', fun name =>
      extract_of_error (R := R.named name) hread⟩
  · exact absurd ⟨x, congrArg Prod.fst hread⟩ h

/-- Two worlds that differ in the name of an application whose document has not been read. -/
structure Unread (env : Env) (R : Run) (name₁ name₂ : ApplicantName) (w₁ w₂ : World) : Prop where
  sound₁ : Sound env (fun _ => True) w₁
  sound₂ : Sound env (fun _ => True) w₂
  runtime : w₁.runtime = w₂.runtime
  stored₁ : w₁.store R.application.applicationId = some ((R.named name₁).thread env .extracting)
  stored₂ : w₂.store R.application.applicationId = some ((R.named name₂).thread env .extracting)
  others : ∀ id, id ≠ R.application.applicationId → w₁.store id = w₂.store id

/-- The first submission, or a resumed extraction, when the document cannot be read. -/
theorem unread_served {w₁ w₂ : World} {e : Exn} {r' : Runtime} {o₁ : (R.named name₁).Outcome env}
    {o₂ : (R.named name₂).Outcome env} (ho₁ : o₁ = (.error e, .extracting, r'))
    (ho₂ : o₂ = (.error e, .extracting, r'))
    (hsound₁ : Sound env (fun _ => True) (Run.served o₁ w₁).2)
    (hsound₂ : Sound env (fun _ => True) (Run.served o₂ w₂).2)
    (hothers : ∀ id, id ≠ R.application.applicationId → w₁.store id = w₂.store id) :
    Unread env R name₁ name₂ (Run.served o₁ w₁).2 (Run.served o₂ w₂).2 := by
  subst ho₁ ho₂
  refine ⟨hsound₁, hsound₂, rfl, Run.store_served _ w₁, Run.store_served _ w₂, fun id hid => ?_⟩
  have hid₁ : id ≠ (R.named name₁).application.applicationId := hid
  have hid₂ : id ≠ (R.named name₂).application.applicationId := hid
  rw [Run.store_served_of_ne _ w₁ hid₁, Run.store_served_of_ne _ w₂ hid₂]
  exact hothers id hid

/-- The submissions themselves, in one world. -/
theorem start_named (hne : name₁ ≠ name₂) {w : World} {a : LoanApplication}
    (hw : Sound env (fun _ => True) w) :
    Reads env a w.runtime ∧ Diverged (exec env w (.start (a.named name₁))).runtime
        (exec env w (.start (a.named name₂))).runtime ∨
      ¬ Reads env a w.runtime ∧ ∃ R : Run, R.application = a ∧
        Unread env R name₁ name₂ (exec env w (.start (a.named name₁)))
          (exec env w (.start (a.named name₂))) := by
  obtain ⟨R, rfl, hcorr, hbase⟩ := hw.exists_run a
  let r := (w.runtime.launched R.submission).noted (intakeUpdate env R.submission)
  have hexec (name : ApplicantName) : exec env w (.start (R.application.named name)) =
      (Run.served ((R.named name).extract env r) w).2 :=
    exec_start_eq (R.named name) hcorr hbase hw.bureau
  have hsound (name : ApplicantName) :=
    hw.exec (.start (R.application.named name)) fun _ _ => trivial
  have hreads : Reads env R.application w.runtime ↔ Reads env R.application r := reads_congr rfl
  by_cases h : Reads env R.application r
  · refine .inl ⟨hreads.2 h, ?_⟩
    rw [hexec, hexec]
    exact Run.diverged_extract hne h
  · refine .inr ⟨fun h' => h (hreads.1 h'), R, rfl, ?_⟩
    obtain ⟨e, r', hextract⟩ := Run.extract_of_not_reads h
    have hsound₁ := hsound name₁
    have hsound₂ := hsound name₂
    rw [hexec] at hsound₁ hsound₂ ⊢
    rw [hexec]
    exact unread_served (hextract name₁) (hextract name₂) hsound₁ hsound₂ fun _ _ => rfl

namespace Unread

variable {w₁ w₂ : World}

/-- A resumed extraction. -/
theorem resolve (hne : name₁ ≠ name₂) (h : Unread env R name₁ name₂ w₁ w₂)
    (res : EscalationResolution) :
    Reads env R.application w₁.runtime ∧
        Diverged (exec env w₁ (.resolve R.application.applicationId res)).runtime
          (exec env w₂ (.resolve R.application.applicationId res)).runtime ∨
      ¬ Reads env R.application w₁.runtime ∧ Unread env R name₁ name₂
        (exec env w₁ (.resolve R.application.applicationId res))
        (exec env w₂ (.resolve R.application.applicationId res)) := by
  let r := w₁.runtime.resolving R.application.applicationId res
  have hexec₁ : exec env w₁ (.resolve R.application.applicationId res) =
      (Run.served ((R.named name₁).extract env r) w₁).2 :=
    exec_resolve_eq (R := R.named name₁) res h.stored₁ rfl h.sound₁.bureau
  have hexec₂ : exec env w₂ (.resolve R.application.applicationId res) =
      (Run.served ((R.named name₂).extract env r) w₂).2 := by
    have heq := exec_resolve_eq (R := R.named name₂) res h.stored₂ rfl h.sound₂.bureau
    rw [← h.runtime] at heq
    exact heq
  have hreads : Reads env R.application w₁.runtime ↔ Reads env R.application r := reads_congr rfl
  have hsound₁ := h.sound₁.exec (.resolve R.application.applicationId res) fun _ _ => trivial
  have hsound₂ := h.sound₂.exec (.resolve R.application.applicationId res) fun _ _ => trivial
  rw [hexec₁] at hsound₁ ⊢
  rw [hexec₂] at hsound₂ ⊢
  by_cases hr : Reads env R.application r
  · exact .inl ⟨hreads.2 hr, Run.diverged_extract hne hr⟩
  · obtain ⟨e, r', hextract⟩ := Run.extract_of_not_reads hr
    exact .inr ⟨fun h' => hr (hreads.1 h'),
      unread_served (hextract name₁) (hextract name₂) hsound₁ hsound₂ h.others⟩

/-- The id is submitted again: nothing is left of the name. -/
theorem resubmit (h : Unread env R name₁ name₂ w₁ w₂) {a : LoanApplication}
    (ha : a.applicationId = R.application.applicationId) :
    exec env w₁ (.start a) = exec env w₂ (.start a) := by
  obtain ⟨t, r, hexec₁, hexec₂⟩ := exec_start_congr env a h.runtime (by
    intro c
    rw [ha, storedValues_of_store h.stored₁, storedValues_of_store h.stored₂]
    rfl)
  rw [hexec₁, hexec₂]
  congr 1
  funext id
  by_cases hid : id = a.applicationId
  · rw [hid, Function.update_self, Function.update_self]
  · rw [Function.update_of_ne hid, Function.update_of_ne hid]
    exact h.others id (ha ▸ hid)

/-- A call about another application does the same in both worlds. -/
theorem exec_other (h : Unread env R name₁ name₂ w₁ w₂) {c : Call}
    (hc : c.applicationId ≠ R.application.applicationId) :
    Unread env R name₁ name₂ (exec env w₁ c) (exec env w₂ c) := by
  have hsound₁ := h.sound₁.exec c fun _ _ => trivial
  have hsound₂ := h.sound₂.exec c fun _ _ => trivial
  obtain ⟨t, r, hexec₁, hexec₂⟩ := exec_congr env c h.runtime (h.others _ hc)
  rw [hexec₁] at hsound₁ ⊢
  rw [hexec₂] at hsound₂ ⊢
  refine ⟨hsound₁, hsound₂, rfl, ?_, ?_, fun id hid => ?_⟩
  · exact (Function.update_of_ne hc.symm _ _).trans h.stored₁
  · exact (Function.update_of_ne hc.symm _ _).trans h.stored₂
  · by_cases hid' : id = c.applicationId
    · simp only [hid', Function.update_self]
    · exact (Function.update_of_ne hid' _ _).trans
        ((h.others id hid).trans (Function.update_of_ne hid' _ _).symm)

end Unread

/-! ## Later calls -/

/-- One call leaves the document unread in two worlds that go on alike, or it asks and they
diverge, or it submits the id again and they are the same from then on. -/
theorem Unread.exec_cases {w₁ w₂ : World} (hne : name₁ ≠ name₂)
    (h : Unread env R name₁ name₂ w₁ w₂) (c : Call) :
    (R.application.applicationId ∈ submittedIds [c] ∧ exec env w₁ c = exec env w₂ c) ∨
    (R.application.applicationId ∉ submittedIds [c] ∧ Rereads env R.application w₁ c ∧
      Diverged (exec env w₁ c).runtime (exec env w₂ c).runtime) ∨
    (R.application.applicationId ∉ submittedIds [c] ∧ ¬ Rereads env R.application w₁ c ∧
      Unread env R name₁ name₂ (exec env w₁ c) (exec env w₂ c)) := by
  by_cases hid : c.applicationId = R.application.applicationId
  · cases c with
    | start a => exact .inl ⟨mem_submittedIds_start.2 hid.symm, h.resubmit hid⟩
    | get id =>
        rw [exec_get, exec_get]
        exact .inr (.inr ⟨List.not_mem_nil, not_rereads_of_ne_resolve fun _ => Call.noConfusion, h⟩)
    | resolve id res =>
        obtain rfl : id = R.application.applicationId := hid
        rcases h.resolve hne res with ⟨hreads, hdiverged⟩ | ⟨hreads, hunread⟩
        · exact .inr (.inl ⟨List.not_mem_nil, ⟨⟨res, rfl⟩, ⟨_, h.stored₁, rfl⟩, hreads⟩, hdiverged⟩)
        · exact .inr (.inr ⟨List.not_mem_nil, fun hrereads => hreads hrereads.2.2, hunread⟩)
    | rationale id =>
        rw [exec_rationale, exec_rationale]
        exact .inr (.inr ⟨List.not_mem_nil, not_rereads_of_ne_resolve fun _ => Call.noConfusion, h⟩)
  · refine .inr (.inr ⟨fun hmem => ?_, not_rereads_of_ne_resolve ?_, h.exec_other hid⟩)
    · cases c with
      | start a => exact hid (mem_submittedIds_start.1 hmem).symm
      | get id => cases hmem
      | resolve id res => cases hmem
      | rationale id => cases hmem
    · rintro res rfl
      exact hid rfl

theorem Unread.log_run_eq_iff {w₁ w₂ : World} (hne : name₁ ≠ name₂) (later : List Call)
    (h : Unread env R name₁ name₂ w₁ w₂) :
    (run env later w₁).runtime.log = (run env later w₂).runtime.log ↔
      NeverRead env R.application w₁ later := by
  induction later generalizing w₁ w₂ with
  | nil => exact iff_of_true (congrArg Runtime.log h.runtime) trivial
  | cons c later ih =>
      rw [run_cons, run_cons]
      rcases h.exec_cases hne c with ⟨hid, heq⟩ | ⟨hid, hrereads, hdiverged⟩ |
        ⟨hid, hrereads, hunread⟩
      · rw [heq]
        exact iff_of_true rfl (neverRead_of_resubmission hid later)
      · rw [neverRead_cons_iff hid]
        have hsound₁ := h.sound₁.exec c fun _ _ => trivial
        have hsound₂ := h.sound₂.exec c fun _ _ => trivial
        exact iff_of_false
          (hdiverged.grow (hsound₁.log_prefix_run later) (hsound₂.log_prefix_run later)).log_ne
          fun hnever => hnever.1 hrereads
      · rw [neverRead_cons_iff hid, ih hunread]
        exact (and_iff_right hrereads).symm

end Names

/-- Two submissions that differ in the name, followed by the same calls, log the same if and
only if the names are equal or the document is never read before the id is submitted again. -/
theorem logs_equal_iff (env : Env) (before later : List Call) (a : LoanApplication)
    (name₁ name₂ : ApplicantName) :
    (run env (before ++ .start (a.named name₁) :: later) .init).runtime.log =
        (run env (before ++ .start (a.named name₂) :: later) .init).runtime.log ↔
      name₁ = name₂ ∨ ¬ Reads env a (run env before .init).runtime ∧
        NeverRead env a (run env (before ++ [.start (a.named name₁)]) .init) later := by
  have hsound := sound_run env before
  rw [run_append, run_append, run_append, run_cons, run_cons, run_cons]
  generalize run env before .init = w at hsound ⊢
  by_cases hne : name₁ = name₂
  · rw [hne]
    exact iff_of_true rfl (.inl rfl)
  · rw [or_iff_right hne]
    rcases start_named hne hsound (a := a) with ⟨hreads, hdiverged⟩ | ⟨hreads, R, rfl, hunread⟩
    · have hsound₁ := hsound.exec (.start (a.named name₁)) fun _ _ => trivial
      have hsound₂ := hsound.exec (.start (a.named name₂)) fun _ _ => trivial
      exact iff_of_false
        (hdiverged.grow (hsound₁.log_prefix_run later) (hsound₂.log_prefix_run later)).log_ne
        fun h => h.1 hreads
    · rw [hunread.log_run_eq_iff hne later]
      exact (and_iff_right hreads).symm

/-- Two names to which the bureau gives the score 756. -/
def sampleName₁ : ApplicantName := ⟨"Applicant 74", by decide⟩

def sampleName₂ : ApplicantName := ⟨"Applicant 81", by decide⟩

/-- One submission is enough to tell them apart in the log. -/
theorem name_logged :
    scoreFromName sampleEnv sampleName₁.val = scoreFromName sampleEnv sampleName₂.val ∧
      (run sampleEnv [.start (sampleApplication.named sampleName₁)] .init).runtime.log ≠
        (run sampleEnv [.start (sampleApplication.named sampleName₂)] .init).runtime.log := by
  refine ⟨by decide +kernel, ?_⟩
  obtain ⟨reply, hchat, hvalid⟩ := (replies_sample sampleApplication).extraction 0
  obtain ⟨r', hread, -⟩ := readDocument_of_ok (r := .init) rfl hchat hvalid
  rcases start_named (show sampleName₁ ≠ sampleName₂ by decide)
    (sound_init sampleEnv _) (a := sampleApplication) with ⟨-, hdiverged⟩ | ⟨hreads, -⟩
  · exact hdiverged.log_ne
  · exact absurd ⟨_, congrArg Prod.fst hread⟩ hreads

end Underwriting
