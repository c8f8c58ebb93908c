import Underwriting.Infrastructure.Breaker
import Underwriting.Run.Lives
import Underwriting.Service.Records

/-!
# Taking a case up

In a process that reaches the model and the bureau, and whose model gives usable replies, the
node that is due returns, whatever process has left it due: `node_returns`. So a run that may
execute as many nodes as are left of a case goes on until a reviewer is asked or the case is
completed, `drive_rests`, and calls leave the process as ready as it was.
-/

namespace Underwriting

open Python DurableGraph.Graph ApplicationService

/-- No usable reply about an application of `A` leaves figures that cannot be scored. -/
def Env.Scores (arithmetic : Arithmetic) (A : Set LoanApplication) (env : Env) : Prop :=
  ∀ n, ∀ a ∈ A, ∀ reply x, env.chat n (extractionPrompt env a) = .ok reply →
    validateExtraction reply = .ok x → ¬ Unscorable arithmetic a x

/-- From the call number `n` on, every reply of the model about an application of `A` can be
used, and none before or after leaves figures that cannot be scored. -/
structure UsableFrom (env : Env) (A : Set LoanApplication) (n : ℕ) : Prop where
  scores : env.Scores env.arithmetic A
  extraction : ∀ k ≥ n, ∀ a ∈ A, ∃ reply x,
    env.chat k (extractionPrompt env a) = .ok reply ∧ validateExtraction reply = .ok x
  rationale : ∀ k ≥ n, ∀ a ∈ A, ∀ risk policy resolution, ∃ reply,
    env.chat k (rationaleMessages (rationalePayload a risk policy resolution)) = .ok reply ∧
      1 ≤ reply.text.toList.length

theorem Usable.usableFrom {env : Env} (h : Usable env) (A : Set LoanApplication) (n : ℕ) :
    UsableFrom env A n := by
  constructor
  · intro k a _ reply x hchat hvalid
    obtain ⟨reply', x', hchat', hvalid', hfinite⟩ :=
      h.extraction k (sanitized env.unicode a.rawFinancialDocumentText)
    change env.chat k (extractionPrompt env a) = _ at hchat'
    rw [hchat, Except.ok.injEq] at hchat'
    rw [← hchat', hvalid, Except.ok.injEq] at hvalid'
    rw [hvalid']
    exact hfinite.scorable a
  · intro k _ a _
    obtain ⟨reply, x, hchat, hvalid, -⟩ := h.extraction k _
    exact ⟨reply, x, hchat, hvalid⟩
  · exact fun k _ _ _ _ _ _ => h.rationale k _

theorem Env.Scores.of_mem {env : Env} {arithmetic : Arithmetic} {A : Set LoanApplication}
    {a : LoanApplication} (h : env.Scores arithmetic A) (ha : a ∈ A) :
    env.Scores arithmetic {a} := by
  rintro n a' rfl
  exact h n a' ha

theorem UsableFrom.of_mem {env : Env} {A : Set LoanApplication} {n : ℕ} {a : LoanApplication}
    (h : UsableFrom env A n) (ha : a ∈ A) : UsableFrom env {a} n := by
  refine ⟨h.scores.of_mem ha, ?_, ?_⟩
  · rintro k hk a' rfl
    exact h.extraction k hk a' ha
  · rintro k hk a' rfl
    exact h.rationale k hk a' ha

/-- If the model is cut off, its cooldown is over whenever the clock is read from now on. -/
def Runtime.Admits (env : Env) (r : Runtime) : Prop :=
  (r.breakers .llm).state = .opened →
    ∀ k ≥ r.ticks, (r.breakers .llm).cooledDown (env.clock k)

/-- The counters of the process have not gone back. -/
structure Runtime.Later (r₀ r : Runtime) : Prop where
  ticks : r₀.ticks ≤ r.ticks
  chatCalls : r₀.chatCalls ≤ r.chatCalls

theorem Runtime.Later.closed (r₀ : Runtime) : Closed r₀.Later where
  emit _ _ hr := ⟨hr.ticks, hr.chatCalls⟩
  breakers _ hr := ⟨hr.ticks, hr.chatCalls⟩
  clock hr := ⟨hr.ticks.trans (Nat.le_succ _), hr.chatCalls⟩
  chat hr := ⟨hr.ticks, hr.chatCalls.trans (Nat.le_succ _)⟩
  spans _ hr := ⟨hr.ticks, hr.chatCalls⟩
  uuids hr := ⟨hr.ticks, hr.chatCalls⟩

theorem Runtime.Later.of_node {env : Env} {n : Node} {v : Option Json} {s : UnderwritingState}
    {out : Except Exn StateUpdate} {r r' : Runtime} (hnode : runNode env n v s r = (out, r')) :
    r.Later r' :=
  ((Runtime.Later.closed r).lasting env).of_node ⟨le_rfl, le_rfl⟩ hnode

/-- Neither the model nor the bureau is cut off, and `n` calls of the model have been made. -/
structure Runtime.Ready (env : Env) (n : ℕ) (r : Runtime) : Prop where
  asked : n ≤ r.chatCalls
  model : r.Admits env
  bureau : (r.breakers .creditBureau).state = .closed

theorem Runtime.Ready.of_untouched {env : Env} {n : ℕ} {d : Dependency} {r r' : Runtime}
    (h : r.Ready env n) (hlater : r.Later r') (huntouched : Untouched d r r')
    (hd : (r'.breakers d).state = .closed) : r'.Ready env n := by
  refine ⟨h.asked.trans hlater.chatCalls, fun hopened k hk => ?_, ?_⟩
  · cases d with
    | llm =>
        rw [hd] at hopened
        cases hopened
    | creditBureau =>
        rw [huntouched.breakers .llm (by decide)] at hopened ⊢
        exact h.model hopened k (hlater.ticks.trans hk)
  · cases d with
    | llm =>
        rw [huntouched.breakers .creditBureau (by decide)]
        exact h.bureau
    | creditBureau => exact hd

theorem Runtime.Ready.noted {env : Env} {n : ℕ} {r : Runtime} (h : r.Ready env n)
    (u : StateUpdate) : (r.noted u).Ready env n :=
  ⟨h.asked, h.model, h.bureau⟩

/-- A model that is not cut off is asked, and a reply closes its breaker. -/
theorem invokeChat_of_admits_reply {env : Env} {messages : List Message} {r : Runtime}
    {reply : Content} (hadmits : r.Admits env)
    (hchat : env.chat r.chatCalls messages = .ok reply) :
    ∃ r', invokeChat env messages r = (.ok reply, r') ∧ r'.ModelReady := by
  let r₁ := CircuitBreaker.admission env .llm r
  have hstate : (r₁.breakers .llm).state ≠ .opened := by
    rw [CircuitBreaker.admission_breaker, Ne, CircuitBreaker.refresh_state_eq_opened_iff]
    exact fun h => h.2 (hadmits h.1 _ le_rfl)
  have hcalls : r₁.chatCalls = r.chatCalls := by
    by_cases hopened : (r.breakers .llm).state = .opened
    · simp [r₁, CircuitBreaker.admission, maybeTransitionToHalfOpen, getBreaker, monotonic,
        setBreaker, resilienceLog, emit, Py.bind_apply, hopened, hadmits hopened _ le_rfl]
    · simp [r₁, CircuitBreaker.admission, maybeTransitionToHalfOpen, getBreaker, Py.bind_apply,
        hopened]
  have hinner : innerInvoke env messages r₁ =
      (.ok reply, { r₁ with chatCalls := r₁.chatCalls + 1 }) := by
    simp only [innerInvoke, Py.bind_apply, Py.state_apply, Py.modify_apply, Py.lift_apply, hcalls,
      hchat]
  obtain ⟨r', hcall, -, hbreakers⟩ :=
    CircuitBreaker.call_admitted env .llm r (innerInvoke env messages) hstate
  rw [hinner] at hcall hbreakers
  refine ⟨r', withRetry_of_ok 3 hcall, ?_⟩
  rw [Runtime.ModelReady, hbreakers, Function.update_self]
  rfl

theorem readDocument_of_admits_reply {env : Env} {a : LoanApplication} {r : Runtime}
    {reply : Content} {x : ExtractedFinancials} (hadmits : r.Admits env)
    (hchat : env.chat r.chatCalls (extractionPrompt env a) = .ok reply)
    (hvalid : validateExtraction reply = .ok x) :
    ∃ r', readDocument env a r = (.ok x, r') ∧ r'.ModelReady := by
  obtain ⟨log, hsafe⟩ := sanitizeUntrustedText_apply env a.rawFinancialDocumentText
    "raw_financial_document_text" r
  have hadmits' : { r with log := log : Runtime }.Admits env := hadmits
  obtain ⟨r', hinvoke, hready⟩ := invokeChat_of_admits_reply hadmits' hchat
  refine ⟨r', ?_, hready⟩
  rw [readDocument, Py.bind_of_ok hsafe]
  exact (Py.bind_of_ok hinvoke).trans (by rw [hvalid, Py.lift_apply])

/-- At most this many nodes are left of a case, the pauses apart. -/
def Stage.left {a : LoanApplication} : Stage a → ℕ
  | .submitted => 7
  | .received => 6
  | .extracted _ => 5
  | .scored _ _ => 4
  | .evaluated f => if f.Open then 3 else 2
  | .explained _ _ _ => 1
  | .completed _ _ _ => 0

theorem Stage.left_le {a : LoanApplication} (st : Stage a) : st.left ≤ 7 := by
  cases st with
  | evaluated f =>
      rw [left]
      split <;> decide
  | submitted | received | extracted | scored | explained | completed => simp [left]

/-- The escalation is due for an open file only. -/
theorem Stage.due_eq_humanEscalation_iff {a : LoanApplication} {st : Stage a} :
    st.due = some .humanEscalation ↔ ∃ f, st = .evaluated f ∧ f.Open := by
  constructor
  · intro hdue
    cases st with
    | evaluated f =>
        by_cases h : f.Open
        · exact ⟨f, rfl, h⟩
        · rw [due_of_not_open h] at hdue
          cases hdue
    | submitted | received | extracted | scored | explained | completed => cases hdue
  · rintro ⟨f, rfl, h⟩
    exact due_of_open h

/-- Nothing is left to do, or the reviewer has to decide. -/
def Stage.Rests {a : LoanApplication} : Stage a → Prop
  | .evaluated f => f.Open
  | .completed _ _ _ => True
  | _ => False

namespace Run

variable {env : Env} {R : Run} {r : Runtime} {i : ℕ}

/-- Every step leaves less to do. -/
theorem Step.left_lt {st st' : Stage R.application} (h : R.Step env st st') :
    st'.left < st.left := by
  cases h with
  | receive | extract | score | conclude => simp [Stage.left]
  | evaluate =>
      simp only [Stage.left]
      split <;> decide
  | review hopen res =>
      rw [Stage.left, Stage.left, if_pos hopen, if_neg (File.not_open_review _ hopen res)]
      decide
  | explain hclosed =>
      rw [Stage.left, Stage.left, if_neg hclosed]
      decide

/-- If the case is due for scoring, it can be scored. -/
def ScorableAt (env : Env) (R : Run) (st : Stage R.application) : Prop :=
  ∀ x, st = .extracted x → ¬ Unscorable env.arithmetic R.application x

theorem scorableAt_submitted : ScorableAt env R .submitted := by
  rintro x ⟨⟩

theorem Step.scorableAt {host : Env} {st st' : Stage R.application} (h : R.Step env st st')
    (hscores : env.Scores host.arithmetic {R.application}) : ScorableAt host R st' := by
  rintro x rfl
  cases h with
  | extract hchat hvalid => exact hscores _ _ rfl _ _ hchat hvalid

theorem Reaches.scorableAt {host : Env} {E : Set Env} {st : Stage R.application}
    (h : R.Reaches E st) (hscores : ∀ e ∈ E, e.Scores host.arithmetic {R.application}) :
    ScorableAt host R st := by
  cases h with
  | refl => exact scorableAt_submitted
  | tail _ hlast =>
      obtain ⟨e, he, hstep⟩ := hlast
      exact hstep.scorableAt (hscores e he)

/-! ## The nodes that ask someone -/

theorem extraction_returns (husable : UsableFrom env {R.application} i) (hready : r.Ready env i)
    (v : Option Json) :
    ∃ u r', runNode env .documentExtractionAgent v
      (R.base.merge (R.writtenAt env .received)) r = (.ok u, r') ∧ r'.Ready env i := by
  obtain ⟨reply, x, hchat, hvalid⟩ := husable.extraction r.chatCalls hready.asked
    R.application rfl
  obtain ⟨r', hread, hmodel⟩ := readDocument_of_admits_reply hready.model hchat hvalid
  have huntouched := readDocument_untouched env R.application r
  have hnode : runNode env .documentExtractionAgent v
      (R.base.merge (R.writtenAt env .received)) r = _ :=
    documentExtractionNode_apply holds_received r
  rw [hread] at hnode huntouched
  have hlater : r.Later r' := ⟨(Runtime.Later.of_node hnode).ticks,
    (Runtime.Later.of_node hnode).chatCalls⟩
  exact ⟨_, _, hnode, (hready.of_untouched hlater huntouched hmodel).noted _⟩

theorem scoring_returns (hready : r.Ready env i) (v : Option Json) {x : ExtractedFinancials}
    (hscorable : ¬ Unscorable env.arithmetic R.application x) :
    ∃ u r', runNode env .riskScoringAgent v
      (R.base.merge (R.writtenAt env (.extracted x))) r = (.ok u, r') ∧ r'.Ready env i := by
  obtain ⟨r', hreport, hbureau⟩ := getCreditReport_of_closed env R.application.applicantFullName r
    hready.bureau
  have huntouched := getCreditReport_untouched env R.application.applicantFullName r
  have hnode : runNode env .riskScoringAgent v (R.base.merge (R.writtenAt env (.extracted x))) r =
      _ := riskScoringNode_apply (holds_extracted x) rfl hreport
  rw [if_neg (show ¬ Unscorable env.arithmetic R.submission.application x from hscorable)] at hnode
  have hlater : r.Later r' := ⟨(Runtime.Later.of_node hnode).ticks,
    (Runtime.Later.of_node hnode).chatCalls⟩
  rw [hreport] at huntouched
  exact ⟨_, _, hnode, (hready.of_untouched hlater huntouched hbureau).noted _⟩

theorem invokeChat_untouched (env : Env) (messages : List Message) (r : Runtime) :
    Untouched .llm r (invokeChat env messages r).2 :=
  keeps_invokeChat env messages r (.refl _ r)

theorem explainability_returns (husable : UsableFrom env {R.application} i) (hready : r.Ready env i)
    (v : Option Json) (f : File R.application) :
    ∃ u r', runNode env .explainabilityAgent v
      (R.base.merge (R.writtenAt env (.evaluated f))) r = (.ok u, r') ∧ r'.Ready env i := by
  obtain ⟨reply, hchat, hnonempty⟩ := husable.rationale r.chatCalls hready.asked
    R.application rfl f.risk f.policy (R.reads f)
  obtain ⟨r', hinvoke, hmodel⟩ := invokeChat_of_admits_reply hready.model hchat
  have huntouched := invokeChat_untouched env (rationaleMessages
    (rationalePayload R.application f.risk f.policy (R.reads f))) r
  have hnode : runNode env .explainabilityAgent v
      (R.base.merge (R.writtenAt env (.evaluated f))) r = _ :=
    explainabilityNode_eq (holds_filed f) (filed_riskAssessment f) (filed_policyResult f)
      (filed_escalationResolution f) r
  rw [hinvoke] at hnode huntouched
  simp only [dif_pos hnonempty] at hnode
  have hlater : r.Later r' := ⟨(Runtime.Later.of_node hnode).ticks,
    (Runtime.Later.of_node hnode).chatCalls⟩
  exact ⟨_, _, hnode, (hready.of_untouched hlater huntouched hmodel).noted _⟩

/-- The node that is due returns, unless it is the escalation and has no resolution. -/
theorem node_returns (husable : UsableFrom env {R.application} i) (hready : r.Ready env i)
    {st : Stage R.application} (hscorable : ScorableAt env R st) {n : Node}
    (hdue : st.due = some n) {v : Option Json}
    (hv : ∀ f, st = .evaluated f → f.Open → ∃ res : EscalationResolution, v = some res.modelDump) :
    ∃ u r', runNode env n v (R.base.merge (R.writtenAt env st)) r = (.ok u, r') ∧
      r'.Ready env i := by
  cases st with
  | submitted =>
      cases hdue
      have hholds : R.submission.Holds (R.base.merge (R.writtenAt env .submitted)) :=
        ⟨rfl, rfl, rfl⟩
      exact ⟨_, _, intakeNode_apply hholds r, hready.noted _⟩
  | received =>
      cases hdue
      exact extraction_returns husable hready v
  | extracted x =>
      cases hdue
      exact scoring_returns hready v (hscorable x rfl)
  | scored x risk =>
      cases hdue
      have hholds : R.submission.Holds (R.base.merge (R.writtenAt env (.scored x risk))) :=
        ⟨rfl, rfl, rfl⟩
      exact ⟨_, _, @policyComplianceNode_apply env R.submission _ x risk hholds rfl rfl r,
        hready.noted _⟩
  | evaluated f =>
      by_cases hopen : f.Open
      · obtain ⟨res, rfl⟩ := hv f rfl hopen
        rw [Stage.due_of_open hopen] at hdue
        cases hdue
        exact ⟨_, _, humanEscalationNode_some (holds_filed f) (filed_riskAssessment f)
          (filed_policyResult f) res r, hready.noted _⟩
      · rw [Stage.due_of_not_open hopen] at hdue
        cases hdue
        exact explainability_returns husable hready v f
  | explained f h rationale =>
      cases hdue
      exact ⟨_, _, decisionOutputNode_apply (holds_decidedAs f rationale)
        (decidedAs_decision f rationale) r, hready.noted _⟩
  | completed f h rationale => cases hdue

/-! ## Whole runs -/

/-- A node that returns hands a case on, one step further. -/
theorem drive_of_returns {st : Stage R.application} {n : Node} {v : Option Json} {r' : Runtime}
    {u : StateUpdate} (k : ℕ) (hdue : st.due = some n)
    (hv : ∀ x ∈ v, ∃ res : EscalationResolution, x = res.modelDump)
    (hnode : runNode env n v (R.base.merge (R.writtenAt env st)) r = (.ok u, r')) :
    ∃ st', R.Step env st st' ∧
      (graph env).drive (k + 1) n v (R.base.merge (R.writtenAt env st)) r =
        match st'.due with
        | none => (.ok (), ⟨R.base.merge (R.writtenAt env st'), none, []⟩, r')
        | some m => (graph env).drive k m none (R.base.merge (R.writtenAt env st')) r' := by
  rcases node_cases r hdue hv with hdelivers | ⟨f, -, -, hinterrupt⟩
  · rw [hnode] at hdelivers
    obtain ⟨st', hstep, hmerge, hedge⟩ := hdelivers
    refine ⟨st', hstep, ?_⟩
    rw [← hmerge] at hedge ⊢
    cases hnext : st'.due with
    | none =>
        rw [hnext] at hedge
        exact drive_of_end hnode hedge
    | some m =>
        rw [hnext] at hedge
        exact drive_of_edge hnode hedge
  · rw [hnode] at hinterrupt
    cases hinterrupt

/-- Where a run comes to rest. -/
structure Comes (env : Env) (i : ℕ) (R : Run) (st : Stage R.application)
    (o : Except Exn Unit × Thread × Runtime) (st' : Stage R.application) : Prop where
  steps : Relation.ReflTransGen (R.Step env) st st'
  returns : o.1 = .ok ()
  at_rest : st'.Rests
  thread : R.At env st' o.2.1
  ready : o.2.2.Ready env i

theorem drive_rests (husable : UsableFrom env {R.application} i) (k : ℕ)
    {st : Stage R.application} {n : Node} (hready : r.Ready env i)
    (hscorable : ScorableAt env R st) (hleft : st.left ≤ k) (hdue : st.due = some n) :
    ∃ st', R.Comes env i st
      ((graph env).drive k n none (R.base.merge (R.writtenAt env st)) r) st' := by
  induction k generalizing st n r with
  | zero =>
      cases st with
      | completed f h rationale => cases hdue
      | submitted | received | extracted | scored | explained => simp [Stage.left] at hleft
      | evaluated f =>
          simp only [Stage.left] at hleft
          split at hleft <;> omega
  | succ k ih =>
      by_cases hopen : ∃ f, st = .evaluated f ∧ f.Open
      · obtain ⟨f, rfl, hopen⟩ := hopen
        rw [Stage.due_of_open hopen] at hdue
        cases hdue
        have hpause : (graph env).node .humanEscalation none
            (R.base.merge (R.writtenAt env (.evaluated f))) r = _ := humanEscalationNode_none
          (holds_filed f) (filed_riskAssessment f) (filed_policyResult f) r
        have hdrive := drive_of_interrupt (k := k) hpause rfl
        refine ⟨.evaluated f, .refl, ?_, hopen, ?_, ?_⟩
        · rw [hdrive]
        · rw [hdrive]
          exact ⟨rfl, (Stage.due_of_open hopen).symm, .inr ⟨f, rfl, hopen, rfl⟩⟩
        · rw [hdrive]
          exact hready.noted _
      · obtain ⟨u, r', hnode, hready'⟩ := node_returns husable hready hscorable hdue
          (v := none) fun f hf hf' => absurd ⟨f, hf, hf'⟩ hopen
        obtain ⟨st₁, hstep, hdrive⟩ := drive_of_returns k hdue (by simp) hnode
        have hlt := hstep.left_lt
        cases hnext : st₁.due with
        | none =>
            rw [hnext] at hdrive
            refine ⟨st₁, .single hstep, ?_, ?_, ?_, ?_⟩
            · rw [hdrive]
            · cases st₁ with
              | completed f h rationale => trivial
              | submitted | received | extracted | scored | evaluated | explained => cases hnext
            · rw [hdrive]
              exact ⟨rfl, hnext.symm, .inl rfl⟩
            · rw [hdrive]
              exact hready'
        | some m =>
            rw [hnext] at hdrive
            obtain ⟨st', hcomes⟩ := ih hready' (hstep.scorableAt husable.scores) (by omega) hnext
            rw [hdrive]
            exact ⟨st', hcomes.steps.head hstep, hcomes.returns, hcomes.at_rest, hcomes.thread,
              hcomes.ready⟩

theorem left_le_of_steps {st st' : Stage R.application}
    (h : Relation.ReflTransGen (R.Step env) st st') : st'.left ≤ st.left := by
  induction h with
  | refl => exact le_refl _
  | tail _ hstep ih => exact hstep.left_lt.le.trans ih

/-- Past the gate, only a completed case is at rest. -/
theorem due_of_left_le {st : Stage R.application} (h : st.Rests) (hleft : st.left ≤ 2) :
    st.due = none := by
  cases st with
  | completed f hclosed rationale => rfl
  | evaluated f =>
      rw [Stage.left, if_pos (show f.Open from h)] at hleft
      omega
  | submitted | received | extracted | scored | explained => exact h.elim

/-- A resolution takes an open file to the end of its case. -/
theorem drive_review (husable : UsableFrom env {R.application} i) {f : File R.application}
    (hopen : f.Open) (hready : r.Ready env i) (res : EscalationResolution) :
    ∃ st', R.Comes env i (.evaluated f) ((graph env).drive recursionLimit .humanEscalation
      (some res.modelDump) (R.base.merge (R.writtenAt env (.evaluated f))) r) st' ∧
        st'.due = none := by
  have hdue := Stage.due_of_open hopen
  have hv : ∀ x ∈ some res.modelDump, ∃ res : EscalationResolution, x = res.modelDump := by
    rintro x ⟨⟩
    exact ⟨res, rfl⟩
  have hscorable : ScorableAt env R (.evaluated f) := by
    rintro x ⟨⟩
  obtain ⟨u, r', hnode, hready'⟩ := node_returns husable hready hscorable hdue
    (v := some res.modelDump) fun _ _ _ => ⟨res, rfl⟩
  obtain ⟨st₁, hstep, hdrive⟩ := drive_of_returns 24 hdue hv hnode
  have hleft : st₁.left ≤ 2 := by
    have hlt := hstep.left_lt
    rw [Stage.left, if_pos hopen] at hlt
    omega
  have hnext : ∃ m, st₁.due = some m := by
    cases hstep with
    | review h res' => exact ⟨_, rfl⟩
    | explain h => exact absurd hopen h
  obtain ⟨m, hm⟩ := hnext
  rw [hm] at hdrive
  obtain ⟨st', hcomes⟩ := drive_rests husable 24 hready' (hstep.scorableAt husable.scores)
    (by omega) hm
  rw [recursionLimit, hdrive]
  refine ⟨st', ⟨hcomes.steps.head hstep, hcomes.returns, hcomes.at_rest, hcomes.thread,
    hcomes.ready⟩, ?_⟩
  exact due_of_left_le hcomes.at_rest ((left_le_of_steps hcomes.steps).trans hleft)

/-- A resolution brings a case to rest, and a case that is at rest to its end. -/
theorem deliver_rests (husable : UsableFrom env {R.application} i) {st : Stage R.application}
    {t : Thread} (hat : R.At env st t) (hready : r.Ready env i) (hscorable : ScorableAt env R st)
    (res : EscalationResolution) :
    ∃ st', R.Comes env i st ((graph env).deliver recursionLimit res.modelDump t r) st' ∧
      (st.Rests → st'.due = none) := by
  have hnext := hat.next
  cases hdue : st.due with
  | none =>
      rw [hdue] at hnext
      have hdeliver : (graph env).deliver recursionLimit res.modelDump t r = (.ok (), t, r) := by
        rw [deliver, hnext]
      rw [hdeliver]
      refine ⟨st, ⟨.refl, rfl, ?_, hat, hready⟩, fun _ => hdue⟩
      cases st with
      | completed f h rationale => trivial
      | submitted | received | extracted | scored | evaluated | explained => cases hdue
  | some n =>
      rw [hdue] at hnext
      rw [deliver_of_next hnext, hat.values]
      by_cases hn : n = .humanEscalation
      · subst hn
        obtain ⟨f, rfl, hopen⟩ := Stage.due_eq_humanEscalation_iff.1 hdue
        obtain ⟨st', hcomes, hend⟩ := drive_review husable hopen hready res
        exact ⟨st', hcomes, fun _ => hend⟩
      · rw [drive_congr fun r => congrFun (runNode_congr hn (some res.modelDump) none _) r]
        obtain ⟨st', hcomes⟩ := drive_rests husable recursionLimit hready hscorable
          (st.left_le.trans (by decide)) hdue
        refine ⟨st', hcomes, fun hrests => ?_⟩
        cases st with
        | evaluated f =>
            rw [Stage.due_of_open hrests, Option.some.injEq] at hdue
            exact absurd hdue.symm hn
        | completed f h rationale => cases hdue
        | submitted | received | extracted | scored | explained => exact hrests.elim

end Run

/-! ## A process whose model replies -/

/-- Every stored thread belongs to the case of an application of `A`, whose figures can be scored,
and nothing is cut off. -/
structure World.Healthy (env : Env) (A : Set LoanApplication) (i : ℕ) (w : World) : Prop where
  kept : ∀ id, Keeps env {e | e.Scores env.arithmetic A} (fun a _ => a ∈ A) id w.store
  ready : w.runtime.Ready env i

/-- The thread under the id waits for a reviewer or is finished. -/
def AtRest (id : String) (store : Store) : Prop :=
  ∀ t, store id = some t → t.next = none ∨ t.next = some .humanEscalation

def Finished (id : String) (store : Store) : Prop :=
  ∀ t, store id = some t → t.next = none

section Process

variable {env : Env} {A : Set LoanApplication} {w : World} {id : String} {i : ℕ}

theorem Run.next_of_rests {R : Run} {st : Stage R.application} {t : Thread} (hat : R.At env st t)
    (h : st.Rests) : t.next = none ∨ t.next = some .humanEscalation := by
  rw [hat.next]
  cases st with
  | completed f hclosed rationale => exact .inl rfl
  | evaluated f => exact .inr (Stage.due_of_open h)
  | submitted | received | extracted | scored | explained => exact h.elim

theorem Run.rests_of_next {R : Run} {st : Stage R.application} {t : Thread} (hat : R.At env st t)
    (h : t.next = none ∨ t.next = some .humanEscalation) : st.Rests := by
  rw [hat.next] at h
  rcases h with h | h
  · cases st with
    | completed f hclosed rationale => trivial
    | submitted | received | extracted | scored | evaluated | explained => cases h
  · obtain ⟨f, rfl, hopen⟩ := Stage.due_eq_humanEscalation_iff.1 h
    exact hopen

/-- A resolution answers, leaves the process ready, and brings the case to rest or to its end. -/
theorem World.Healthy.deliver (hw : w.Healthy env A i) (husable : UsableFrom env A i) {t : Thread}
    (hstore : w.store id = some t) (res : EscalationResolution) :
    ((graph env).deliver recursionLimit res.modelDump t
        (w.runtime.resolving id res)).2.2.Ready env i ∧
      (((graph env).deliver recursionLimit res.modelDump t
          (w.runtime.resolving id res)).2.1.next = none ∨
        ((graph env).deliver recursionLimit res.modelDump t
          (w.runtime.resolving id res)).2.1.next = some .humanEscalation) ∧
      (t.next = none ∨ t.next = some .humanEscalation →
        ((graph env).deliver recursionLimit res.modelDump t
          (w.runtime.resolving id res)).2.1.next = none) := by
  obtain ⟨R, -, hA, st, hreaches, hat⟩ := hw.kept id t hstore
  have hscorable : Run.ScorableAt env R st :=
    hreaches.scorableAt fun e he => he.of_mem hA
  have hready : (w.runtime.resolving id res).Ready env i :=
    ⟨hw.ready.asked, hw.ready.model, hw.ready.bureau⟩
  obtain ⟨st', hcomes, hend⟩ := Run.deliver_rests (husable.of_mem hA) hat hready hscorable res
  refine ⟨hcomes.ready, Run.next_of_rests hcomes.thread hcomes.at_rest, fun hrests => ?_⟩
  rw [hcomes.thread.next]
  exact hend (Run.rests_of_next hat hrests)

theorem World.Healthy.leave (hw : w.Healthy env A i) (husable : UsableFrom env A i) {c : Call}
    (hc : SubmitsOnly A [c]) : (leave env recursionLimit w c).Healthy env A i := by
  refine ⟨fun id => ?_, ?_⟩
  · apply (hw.kept id).leave husable.scores rfl _ c
    rintro a rfl -
    exact hc a List.mem_cons_self
  cases c with
  | get id => exact hw.ready
  | rationale id => exact hw.ready
  | start a =>
      let k : Submission := ⟨a, s!"corr_{env.uuid w.runtime.uuids}"⟩
      obtain ⟨R, hsubmission, hbase⟩ := (hw.kept a.applicationId).exists_run k
      have hready : (w.runtime.launched k).Ready env i :=
        ⟨hw.ready.asked, hw.ready.model, hw.ready.bureau⟩
      have hleft : (Stage.submitted : Stage R.application).left ≤ recursionLimit :=
        (Stage.left_le _).trans (by decide)
      have hA : R.application ∈ A := by
        rw [Run.application, hsubmission]
        exact hc a List.mem_cons_self
      obtain ⟨st', hcomes⟩ := Run.drive_rests (husable.of_mem hA) recursionLimit hready
        Run.scorableAt_submitted hleft rfl
      have hresult : (Underwriting.leave env recursionLimit w (.start a)).runtime =
          ((graph env).drive recursionLimit .intake none
            (R.base.merge (R.writtenAt env .submitted)) (w.runtime.launched k)).2.2 := by
        rw [Run.writtenAt, Run.application, hsubmission, hbase]
        rfl
      rw [hresult]
      exact hcomes.ready
  | resolve id res =>
      cases hstore : w.store id with
      | none =>
          rw [leave_resolve_of_unknown hstore]
          exact hw.ready
      | some t =>
          cases hnext : t.next with
          | none =>
              rw [leave_resolve_of_finished hstore hnext]
              exact hw.ready
          | some n =>
              rw [leave_resolve_of_due hstore hnext]
              exact (hw.deliver husable hstore res).1

theorem World.Healthy.leave_calls (hw : w.Healthy env A i) (husable : UsableFrom env A i)
    {calls : List Call} (hcalls : SubmitsOnly A calls) :
    (calls.foldl (Underwriting.leave env recursionLimit) w).Healthy env A i := by
  induction calls generalizing w with
  | nil => exact hw
  | cons c calls ih =>
      obtain ⟨hc, hcalls⟩ := submitsOnly_cons.1 hcalls
      exact ih (hw.leave husable hc) hcalls

/-! ## One case through the calls -/

/-- What happens to the thread under an id when it is not submitted again. -/
theorem store_leave_cases (j : ℕ) (c : Call) (hno : id ∉ submittedIds [c]) :
    (leave env j w c).store id = w.store id ∨
      ∃ res t, c = .resolve id res ∧ w.store id = some t ∧ (leave env j w c).store id =
        some ((graph env).deliver j res.modelDump t (w.runtime.resolving id res)).2.1 := by
  cases c with
  | get id' => exact .inl rfl
  | rationale id' => exact .inl rfl
  | start a =>
      rw [mem_submittedIds_start] at hno
      rw [store_leave_start, Function.update_of_ne hno]
      exact .inl rfl
  | resolve id' res =>
      cases hstore : w.store id' with
      | none =>
          rw [leave_resolve_of_unknown hstore]
          exact .inl rfl
      | some t =>
          cases hnext : t.next with
          | none =>
              rw [leave_resolve_of_finished hstore hnext]
              exact .inl rfl
          | some n =>
              rw [store_leave_resolve hstore hnext]
              by_cases hid : id = id'
              · subst hid
                rw [Function.update_self]
                exact .inr ⟨res, t, rfl, hstore, rfl⟩
              · rw [Function.update_of_ne hid]
                exact .inl rfl

/-- A resolution of the id brings its case to rest. -/
theorem World.Healthy.atRest (hw : w.Healthy env A i) (husable : UsableFrom env A i)
    (res : EscalationResolution) :
    AtRest id (Underwriting.leave env recursionLimit w (.resolve id res)).store := by
  intro t ht
  cases hstore : w.store id with
  | none =>
      rw [leave_resolve_of_unknown hstore, hstore] at ht
      cases ht
  | some t₀ =>
      cases hnext : t₀.next with
      | none =>
          rw [leave_resolve_of_finished hstore hnext, hstore] at ht
          cases ht
          exact .inl hnext
      | some n =>
          rw [store_leave_resolve hstore hnext, Function.update_self] at ht
          cases ht
          exact (hw.deliver husable hstore res).2.1

/-- And a case at rest to its end. -/
theorem World.Healthy.finished (hw : w.Healthy env A i) (husable : UsableFrom env A i)
    (hrest : AtRest id w.store) (res : EscalationResolution) :
    Finished id (Underwriting.leave env recursionLimit w (.resolve id res)).store := by
  intro t ht
  cases hstore : w.store id with
  | none =>
      rw [leave_resolve_of_unknown hstore, hstore] at ht
      cases ht
  | some t₀ =>
      cases hnext : t₀.next with
      | none =>
          rw [leave_resolve_of_finished hstore hnext, hstore] at ht
          cases ht
          exact hnext
      | some n =>
          rw [store_leave_resolve hstore hnext, Function.update_self] at ht
          cases ht
          exact (hw.deliver husable hstore res).2.2 (hrest t₀ hstore)

theorem World.Healthy.atRest_calls (hw : w.Healthy env A i) (husable : UsableFrom env A i)
    (hrest : AtRest id w.store) {calls : List Call} (hcalls : SubmitsOnly A calls)
    (hno : id ∉ submittedIds calls) :
    AtRest id (calls.foldl (Underwriting.leave env recursionLimit) w).store := by
  induction calls generalizing w with
  | nil => exact hrest
  | cons c calls ih =>
      obtain ⟨hc, hno⟩ := (not_mem_submittedIds_append [c] calls).1 hno
      obtain ⟨hsubmits, hcalls⟩ := submitsOnly_cons.1 hcalls
      refine ih (hw.leave husable hsubmits) ?_ hcalls hno
      intro t ht
      rcases store_leave_cases recursionLimit c hc with heq | ⟨res, t₀, -, hstore, heq⟩
      · rw [heq] at ht
        exact hrest t ht
      · rw [heq] at ht
        cases ht
        exact (hw.deliver husable hstore res).2.1

theorem World.Healthy.finished_calls (hw : w.Healthy env A i) (husable : UsableFrom env A i)
    (hend : Finished id w.store) {calls : List Call} (hcalls : SubmitsOnly A calls)
    (hno : id ∉ submittedIds calls) :
    Finished id (calls.foldl (Underwriting.leave env recursionLimit) w).store := by
  induction calls generalizing w with
  | nil => exact hend
  | cons c calls ih =>
      obtain ⟨hc, hno⟩ := (not_mem_submittedIds_append [c] calls).1 hno
      obtain ⟨hsubmits, hcalls⟩ := submitsOnly_cons.1 hcalls
      refine ih (hw.leave husable hsubmits) ?_ hcalls hno
      intro t ht
      rcases store_leave_cases recursionLimit c hc with heq | ⟨res, t₀, -, hstore, heq⟩
      · rw [heq] at ht
        exact hend t ht
      · rw [heq] at ht
        cases ht
        exact (hw.deliver husable hstore res).2.2 (.inl (hend t₀ hstore))

/-- A thread that is stored stays stored. -/
theorem store_leave_ne_none (j : ℕ) (c : Call) (h : w.store id ≠ none) :
    (leave env j w c).store id ≠ none := by
  cases c with
  | get id' => exact h
  | rationale id' => exact h
  | start a =>
      rw [store_leave_start]
      by_cases hid : id = a.applicationId
      · rw [hid, Function.update_self]
        exact Option.some_ne_none _
      · rw [Function.update_of_ne hid]
        exact h
  | resolve id' res =>
      have hno : id ∉ submittedIds [.resolve id' res] := by simp [submittedIds]
      rcases store_leave_cases j (.resolve id' res) hno with heq | ⟨_, _, _, _, heq⟩
      · rw [heq]
        exact h
      · rw [heq]
        exact Option.some_ne_none _

theorem store_calls_ne_none (j : ℕ) (calls : List Call) (h : w.store id ≠ none) :
    (calls.foldl (leave env j) w).store id ≠ none := by
  induction calls generalizing w with
  | nil => exact h
  | cons c calls ih => exact ih (store_leave_ne_none j c h)

end Process

section Lives

variable {env : Env} {id : String}

/-- The bureau is never cut off: its breaker is closed when a process starts, and no request
fails. -/
theorem lasting_bureau (env : Env) :
    Lasting env fun r => (r.breakers .creditBureau).state = .closed where
  emit _ _ hr := hr
  spans _ hr := hr
  uuids hr := hr
  chat messages r hr := by
    have huntouched := Run.invokeChat_untouched env messages r
    exact (congrArg CircuitBreaker.state
      (huntouched.breakers .creditBureau (by decide))).trans hr
  report name r hr := by
    obtain ⟨r', hreport, hbureau⟩ := getCreditReport_of_closed env name r hr
    rw [hreport]
    exact hbureau

/-- The process over what is stored after it has served some calls. -/
abbrev process (env : Env) (store : Store) (past : List Call) : World :=
  past.foldl (leave env recursionLimit) ⟨store, .init⟩

/-- A process that does not cut the model off is healthy from its last call of the model on. -/
theorem healthy_process {A : Set LoanApplication} {lives : List Life}
    (hunicode : ∀ l ∈ lives, l.env.unicode = env.unicode)
    (hsubmits : ∀ l ∈ lives, SubmitsOnly A l.asked)
    (hscores : ∀ l ∈ lives, l.env.Scores env.arithmetic A) (hself : env.Scores env.arithmetic A)
    {past : List Call} (hpast : SubmitsOnly A past)
    (hadmits : (process env (survivors lives) past).runtime.Admits env) :
    (process env (survivors lives) past).Healthy env A
      (process env (survivors lives) past).runtime.chatCalls := by
  refine ⟨fun id => ?_, le_rfl, hadmits, (lasting_bureau env).leave_calls rfl _ past⟩
  have hlast (P : Life → Prop) (hlives : ∀ l ∈ lives, P l) (hself : P ⟨env, past, none⟩) :
      ∀ l ∈ lives ++ [⟨env, past, none⟩], P l := by
    intro l hl
    rcases List.mem_append.1 hl with hl | hl
    · exact hlives l hl
    · rw [List.mem_singleton.1 hl]
      exact hself
  have hkeeps : Keeps env {e | e.Scores env.arithmetic A} (fun a _ => a ∈ A) id
      (survivors (lives ++ [⟨env, past, none⟩])) := by
    apply keeps_survivors _ (hlast (fun l => l.env.Scores env.arithmetic A) hscores hself)
    · exact hlast _ (fun l hl => (hunicode l hl).symm) rfl
    · exact hlast _ hsubmits (by simpa [Life.asked] using hpast)
  rwa [survivors_snoc, Life.last_of_not_killed] at hkeeps

/-- In a process whose model replies, two resolutions finish a case, whatever it has been through
before and whatever else the process does. -/
theorem finished_of_two_resolutions {A : Set LoanApplication} {w : World} {i : ℕ}
    (hw : w.Healthy env A i) (husable : UsableFrom env A i) {before between after : List Call}
    {res₁ res₂ : EscalationResolution}
    (hcalls : SubmitsOnly A (before ++ .resolve id res₁ :: between ++ .resolve id res₂ :: after))
    (hno : id ∉ submittedIds (between ++ after)) :
    Finished id ((before ++ .resolve id res₁ :: between ++ .resolve id res₂ :: after).foldl
      (leave env recursionLimit) w).store := by
  obtain ⟨hbetween, hafter⟩ := (not_mem_submittedIds_append between after).1 hno
  obtain ⟨hfirst, hlast⟩ := submitsOnly_append.1 hcalls
  obtain ⟨hbefore, hmiddle⟩ := submitsOnly_append.1 hfirst
  obtain ⟨hasks₁, hmiddle⟩ := submitsOnly_cons.1 hmiddle
  obtain ⟨hasks₂, hlast⟩ := submitsOnly_cons.1 hlast
  rw [List.foldl_append, List.foldl_append, List.foldl_cons, List.foldl_cons]
  have hfound := hw.leave_calls husable hbefore
  have hasked := hfound.leave husable hasks₁
  have hrest := hasked.atRest_calls husable (hfound.atRest husable res₁) hmiddle hbetween
  have hsecond := hasked.leave_calls husable hmiddle
  have hend := hsecond.finished husable hrest res₂
  exact (hsecond.leave husable hasks₂).finished_calls husable hend hlast hafter

end Lives

end Underwriting
