import Underwriting.Run.Lives

/-!
# Where a resolution comes from

Only the escalation writes a resolution, and it writes the one it was resumed with:
`runNode_resolves`. So whatever the server has lived through, a resolution on file under an id
was handed to some process for this id: `resolution_asked`.
-/

namespace Underwriting

open Python Py ApplicationService DurableGraph.Graph

/-! ## One node -/

/-- A resolution in the update is the one that the node was resumed with. -/
def Resolves (v : Option Json) (u : StateUpdate) : Prop :=
  ∀ j, u.escalationResolution = some j → ∃ x ∈ v, ∃ res, EscalationResolution.modelValidate x =
    .ok res ∧ j = res.modelDump

theorem Resolves.of_none {v : Option Json} {u : StateUpdate} (h : u.escalationResolution = none) :
    Resolves v u := by
  intro j hj
  rw [h] at hj
  cases hj

/-- What a span returns is what its body returns. -/
theorem returns_startSpan {α : Type} (P : α → Prop) {name applicationId : String}
    {body : PyM (α × List (String × Json))} (h : Returns (fun out => P out.1) body) :
    Returns (fun out => P out.1) (startSpan name applicationId body) :=
  returns_tryElse h (fun e => returns_bind_right _ fun _ => returns_raise e)
    fun _ hout => returns_bind_right _ fun _ => returns_pure hout

theorem returns_interrupt (v : Option Json) (payload : Json) :
    Returns (fun x => x ∈ v) (interrupt v payload) := by
  cases v with
  | none => exact returns_raise _
  | some x => exact returns_pure rfl

theorem humanEscalationNode_resolves (env : Env) (v : Option Json) (s : UnderwritingState) :
    Returns (Resolves v) (humanEscalationNode env v s) := by
  refine returns_bind_right _ fun risk => returns_bind_right _ fun policy =>
    returns_bind_right _ fun request => returns_bind (returns_interrupt v _) fun x hx => ?_
  have hvalidated : Returns (fun out : (EscalationResolution × AuditEvent) × _ =>
      EscalationResolution.modelValidate x = .ok out.1.1)
      (startSpan "human_escalation_resume" s.applicationId do
        let resolution ← Py.lift (EscalationResolution.modelValidate x)
        let audit ← recordAuditEvent env s.applicationId s.correlationId
          s!"human_reviewer:{resolution.reviewerId}" "escalation_resolved"
          [("approve", .bool resolution.approve), ("notes", .str resolution.notes)]
        pure ((resolution, audit), [("approve", .bool resolution.approve)])) := by
    apply returns_startSpan fun out : EscalationResolution × AuditEvent =>
      EscalationResolution.modelValidate x = .ok out.1
    refine returns_bind (P := fun res => EscalationResolution.modelValidate x = .ok res)
      (returns_lift fun _ hres => hres) fun res hres => ?_
    exact returns_bind_right _ fun audit => returns_pure hres
  refine returns_bind hvalidated fun out hout => returns_pure ?_
  intro j hj
  cases hj
  exact ⟨x, hx, out.1.1, hout, rfl⟩

theorem runNode_resolves (env : Env) (n : Node) (v : Option Json) (s : UnderwritingState) :
    Returns (Resolves v) (runNode env n v s) := by
  cases n with
  | humanEscalation => exact humanEscalationNode_resolves env v s
  | decisionOutput =>
      exact returns_bind_right _ fun _ => returns_bind_right _ fun _ =>
        returns_pure (.of_none rfl)
  | intake | documentExtractionAgent | riskScoringAgent | policyComplianceAgent
  | explainabilityAgent => exact returns_bind_right _ fun _ => returns_pure (.of_none rfl)

/-! ## Whole calls -/

/-- The resolution on file, if there is one, is one of `P`. -/
def ResolvedBy (P : Set EscalationResolution) (t : Thread) : Prop :=
  ∀ j, t.values.escalationResolution = some j → ∃ res ∈ P, j = res.modelDump

theorem maintains_resolvedBy (env : Env) (P : Set EscalationResolution) :
    (graph env).Maintains (fun x => ∃ res ∈ P, x = res.modelDump) (fun t _ => ResolvedBy P t) where
  returned := by
    intro n s ps r v u r' hs hv hnode j hj
    change (s.merge u).escalationResolution = some j at hj
    cases hu : u.escalationResolution with
    | none =>
        rw [UnderwritingState.merge, hu] at hj
        exact hs j hj
    | some j' =>
        obtain ⟨x, hx, res, hvalid, hdump⟩ := runNode_resolves env n v s _ _ _ hnode j' hu
        obtain ⟨res', hres', hasked⟩ := hv x hx
        rw [hasked, EscalationResolution.modelValidate_modelDump, Except.ok.injEq] at hvalid
        rw [UnderwritingState.merge, hu] at hj
        refine ⟨res', hres', ?_⟩
        rw [← Option.some.inj hj, hdump, hvalid]
  interrupted := fun hs _ _ _ => hs
  raised := fun hs _ _ => hs
  stopped := fun hs => hs

/-! ## Through all lives -/

/-- The resolutions that the server has been handed for an id. -/
def handed (lives : List Life) (id : String) : Set EscalationResolution :=
  {res | ∃ l ∈ lives, .resolve id res ∈ l.asked}

theorem resolvedBy_update {P : String → Set EscalationResolution} {store : Store} {id' : String}
    {t' : Thread} (h : ∀ id t, store id = some t → ResolvedBy (P id) t)
    (h' : ResolvedBy (P id') t') :
    ∀ id t, Function.update store id' (some t') id = some t → ResolvedBy (P id) t := by
  intro id t ht
  by_cases hid : id = id'
  · subst hid
    rw [Function.update_self, Option.some.injEq] at ht
    rwa [← ht]
  · rw [Function.update_of_ne hid] at ht
    exact h id t ht

theorem resolution_asked (lives : List Life) :
    ∀ id t, survivors lives id = some t → ResolvedBy (handed lives id) t := by
  apply survivors_induction (I := fun store =>
    ∀ id t, store id = some t → ResolvedBy (handed lives id) t)
  · intro id t ht
    cases ht
  · intro l hl c hc j w hw
    cases c with
    | get id => exact hw
    | rationale id => exact hw
    | start a =>
        rw [store_leave_start]
        apply resolvedBy_update hw
        apply (maintains_resolvedBy l.env (handed lives a.applicationId)).invoke
        -- What is submitted holds no resolution.
        change ResolvedBy _ ⟨(storedValues w a.applicationId).merge _, _, _⟩
        cases hstore : w.store a.applicationId with
        | none =>
            rw [storedValues, hstore]
            intro j hj
            cases hj
        | some t =>
            rw [storedValues_of_store hstore]
            exact hw _ t hstore
    | resolve id res =>
        cases hstore : w.store id with
        | none =>
            rw [leave_resolve_of_unknown hstore]
            exact hw
        | some t =>
            cases hnext : t.next with
            | none =>
                rw [leave_resolve_of_finished hstore hnext]
                exact hw
            | some n =>
                rw [store_leave_resolve hstore hnext]
                exact resolvedBy_update hw ((maintains_resolvedBy l.env (handed lives id)).deliver j
                  (hw id t hstore) ⟨res, ⟨l, hl, hc⟩, rfl⟩)

end Underwriting
