import Underwriting.Run.Resumption
import Underwriting.Service.Records

/-!
# What the service answers

A process serves the threads that earlier processes have left. `resolveStored` resolves such a
thread; on the threads of one process it is the service's own `resolveEscalation`. A
submission or a resolution answers with the summary of the thread it leaves, or it raises what
a node has raised: never one of the three exceptions by which the service refuses a call.
-/

namespace Underwriting

open Python DurableGraph.Graph

/-- The exceptions by which the service refuses a call. -/
def Exn.isRefusal : Exn → Bool
  | applicationNotFoundError _ | applicationNotAwaitingEscalationError _
  | decisionNotAvailableError _ => true
  | _ => false

theorem Exn.isRefusal_of_isControl {e : Exn} (h : e.isControl = false) : e.isRefusal = false := by
  cases e <;> first | rfl | cases h

namespace ApplicationService

/-- `resolve_escalation` over a thread that another process may have left. -/
def resolveStored (env : Env) (applicationId : String) (resolution : EscalationResolution) :
    ServiceM ApplicationSummary := do
  let w ← Py.state
  match w.store applicationId with
  | none => Py.raise (.applicationNotFoundError applicationId)
  | some t =>
      if t.next.isNone then
        Py.raise (.applicationNotAwaitingEscalationError applicationId)
      else do
        onRuntime <| Py.modify (Runtime.resolving · applicationId resolution)
        onThread applicationId <| (graph env).deliver recursionLimit resolution.modelDump t
        getApplication applicationId

end ApplicationService

open ApplicationService

section Answers

variable {env : Env} {A : Set LoanApplication} {w : World} {id : String} {t : Thread}
  {res : EscalationResolution} {i : ℕ}

theorem onThread_getApplication_apply (id : String)
    (call : Runtime → Except Exn Unit × Thread × Runtime) (w : World) :
    (onThread id call >>= fun _ => getApplication id) w =
      ((call w.runtime).1.map fun _ => summarize id (call w.runtime).2.1,
        ⟨Function.update w.store id (some (call w.runtime).2.1), (call w.runtime).2.2⟩) := by
  have hthread : onThread id call w = ((call w.runtime).1,
      ⟨Function.update w.store id (some (call w.runtime).2.1), (call w.runtime).2.2⟩) := rfl
  rcases hout : (call w.runtime).1 with e | a
  · rw [hout] at hthread
    rw [Py.bind_of_error hthread]
    rfl
  · rw [hout] at hthread
    rw [Py.bind_of_ok hthread]
    exact getApplication_of_store (Function.update_self _ _ _)

theorem resolveStored_of_unknown (hstore : w.store id = none) :
    resolveStored env id res w = (.error (.applicationNotFoundError id), w) := by
  simp only [resolveStored, Py.bind_apply, Py.state_apply, hstore]
  rfl

theorem resolveStored_of_finished (hstore : w.store id = some t) (hnext : t.next = none) :
    resolveStored env id res w = (.error (.applicationNotAwaitingEscalationError id), w) := by
  simp only [resolveStored, Py.bind_apply, Py.state_apply, hstore, hnext]
  rfl

theorem resolveStored_of_due {n : Node} (hstore : w.store id = some t) (hnext : t.next = some n) :
    resolveStored env id res w =
      (onThread id ((graph env).deliver recursionLimit res.modelDump t) >>= fun _ =>
        getApplication id) ⟨w.store, w.runtime.resolving id res⟩ := by
  have hpending : t.next.isNone = false := by rw [hnext, Option.isNone_some]
  simp only [resolveStored, Py.bind_apply, Py.state_apply, hstore, hpending]
  rfl

/-- On the threads that complete calls leave, a resolution is the service's own. -/
theorem Sound.resolveStored_eq {B : UnderwritingState → Prop} (hw : Sound env B w)
    (id : String) (res : EscalationResolution) :
    resolveStored env id res w = resolveEscalation env id res w := by
  cases hstore : w.store id with
  | none => rw [resolveStored_of_unknown hstore, resolveEscalation_of_unknown res hstore]
  | some t =>
      cases hnext : t.next with
      | none =>
          rw [resolveStored_of_finished hstore hnext,
            resolveEscalation_of_finished res hstore hnext]
      | some n =>
          obtain ⟨R, p, -, -, rfl⟩ := hw.threads _ _ hstore
          have hdeliver : (graph env).deliver recursionLimit res.modelDump (R.thread env p) =
              (graph env).resume recursionLimit res.modelDump (R.thread env p) := by
            funext r
            apply deliver_eq_resume
            intro m hm hinterrupts r
            have hm' : m ≠ .humanEscalation := by
              rintro rfl
              cases p with
              | awaiting x h => exact List.cons_ne_nil _ _ hinterrupts
              | extracting => cases hm
              | scoring x h => cases hm
              | explaining c => cases hm
              | completed c rationale => cases hm
            exact congrFun (runNode_congr hm' _ _ _) r
          rw [resolveStored_of_due hstore hnext, hdeliver,
            resolveEscalation_of_due res hstore (by rw [hnext]; rfl)]

/-! ## What is stored -/

theorem snd_startApplication (a : LoanApplication) :
    (startApplication env a w).2 = leave env recursionLimit w (.start a) := by
  rw [leave, ← exec_start, exec]

theorem snd_resolveStored (id : String) (res : EscalationResolution) :
    (resolveStored env id res w).2 = leave env recursionLimit w (.resolve id res) := by
  cases hstore : w.store id with
  | none => rw [resolveStored_of_unknown hstore, leave_resolve_of_unknown hstore]
  | some t =>
      cases hnext : t.next with
      | none => rw [resolveStored_of_finished hstore hnext, leave_resolve_of_finished hstore hnext]
      | some n =>
          rw [resolveStored_of_due hstore hnext, snd_onThread_getApplication,
            leave_resolve_of_due hstore hnext]

/-- A call continues the log with plain records, complete or not. -/
theorem logs_leave (j : ℕ) (c : Call) : Logs w.runtime (leave env j w c).runtime :=
  ((Logs.closed w.runtime).lasting env).leave (.refl _) j c

/-! ## What is raised -/

/-- A node of a case raises no refusal. -/
theorem Run.raises_drive {R : Run} {st : Stage R.application} {n : Node} {v : Option Json}
    {s : UnderwritingState} {ps : List Json} {r : Runtime} (k : ℕ)
    (hat : R.At env st ⟨s, some n, ps⟩) (hreaches : R.Reaches Set.univ st)
    (hv : ∀ x ∈ v, ∃ res : EscalationResolution, x = res.modelDump) {e : Exn}
    (he : ((graph env).drive k n v s r).1 = .error e) : e.isRefusal = false := by
  have hmaintains :=
    Run.maintains_kept (R := R) (Set.mem_univ env) (rfl : env.unicode = env.unicode)
  refine hmaintains.raises_drive (E := fun e => e.isRefusal = false) rfl ?_ k
    ⟨st, hreaches, hat⟩ hv he
  rintro n s ps r v e r' ⟨st, -, hat⟩ hv hnode hpayload
  obtain rfl : s = R.base.merge (R.writtenAt env st) := hat.values
  rcases node_cases r hat.next.symm hv with hdelivers | ⟨f, -, -, hinterrupt⟩
  · rw [show runNode env n v _ r = _ from hnode] at hdelivers
    exact Exn.isRefusal_of_isControl hdelivers
  · rw [show runNode env n v _ r = _ from hnode] at hinterrupt
    cases hinterrupt
    cases hpayload

/-- What a call answers when it has stored the thread `t`. -/
def Answers (id : String) (t : Thread) (out : Except Exn ApplicationSummary) : Prop :=
  out = .ok (summarize id t) ∨ ∃ e, out = .error e ∧ e.isRefusal = false

theorem Answers.of_map {out : Except Exn Unit} (h : ∀ e, out = .error e → e.isRefusal = false) :
    Answers id t (out.map fun _ => summarize id t) := by
  cases out with
  | ok _ => exact .inl rfl
  | error e => exact .inr ⟨e, rfl, h e rfl⟩

theorem startApplication_answers {B : LoanApplication → UnderwritingState → Prop}
    (a : LoanApplication)
    (hkeeps : Keeps env Set.univ B a.applicationId w.store) :
    ∃ t, (leave env recursionLimit w (.start a)).store a.applicationId = some t ∧
      Answers a.applicationId t (startApplication env a w).1 := by
  obtain ⟨R, hsubmission, hbase⟩ :=
    hkeeps.exists_run ⟨a, s!"corr_{env.uuid w.runtime.uuids}"⟩
  rw [store_leave_start, Function.update_self, startApplication_apply,
    onThread_getApplication_apply]
  refine ⟨_, rfl, .of_map fun e he => ?_⟩
  have hat : R.At env .submitted ⟨(storedValues w a.applicationId).merge
      (initialState a s!"corr_{env.uuid w.runtime.uuids}"), some .intake, []⟩ :=
    ⟨by rw [Run.writtenAt, hbase, Run.application, hsubmission], rfl, .inl rfl⟩
  exact Run.raises_drive (v := none) recursionLimit hat .refl (by simp) he

theorem resolveStored_answers {B : LoanApplication → UnderwritingState → Prop} {n : Node}
    (hkeeps : Keeps env Set.univ B id w.store) (hstore : w.store id = some t)
    (hnext : t.next = some n) :
    ∃ t', (leave env recursionLimit w (.resolve id res)).store id = some t' ∧
      Answers id t' (resolveStored env id res w).1 := by
  obtain ⟨R, -, -, st, hreaches, hat⟩ := hkeeps t hstore
  rw [store_leave_resolve hstore hnext, Function.update_self, resolveStored_of_due hstore hnext,
    onThread_getApplication_apply]
  refine ⟨_, rfl, .of_map fun e he => ?_⟩
  rw [deliver_of_next hnext] at he
  obtain ⟨s, next, ps⟩ := t
  obtain rfl : next = some n := hnext
  refine Run.raises_drive _ hat hreaches ?_ he
  rintro x ⟨⟩
  exact ⟨res, rfl⟩

/-! ## What returns -/

theorem Answers.eq_ok {out : Except Exn ApplicationSummary} (h : Answers id t out)
    (hok : ∃ s, out = .ok s) : out = .ok (summarize id t) := by
  rcases h with h | ⟨e, herror, -⟩
  · exact h
  · obtain ⟨s, hs⟩ := hok
    rw [herror] at hs
    cases hs

/-- When the model replies usably and nothing is cut off, a submission returns. -/
theorem World.Healthy.startApplication_returns (hw : w.Healthy env A i)
    (husable : UsableFrom env A i) {a : LoanApplication} (ha : a ∈ A) :
    ∃ s, (startApplication env a w).1 = .ok s := by
  let k : Submission := ⟨a, s!"corr_{env.uuid w.runtime.uuids}"⟩
  obtain ⟨R, hsubmission, hbase⟩ := (hw.kept a.applicationId).exists_run k
  have hready : (w.runtime.launched k).Ready env i :=
    ⟨hw.ready.asked, hw.ready.model, hw.ready.bureau⟩
  have hleft : (Stage.submitted : Stage R.application).left ≤ recursionLimit :=
    (Stage.left_le _).trans (by decide)
  have hA : R.application ∈ A := by
    rw [Run.application, hsubmission]
    exact ha
  obtain ⟨st', hcomes⟩ := Run.drive_rests (husable.of_mem hA) recursionLimit hready
    Run.scorableAt_submitted hleft rfl
  have hreturns := hcomes.returns
  rw [Run.writtenAt, Run.application, hsubmission, hbase] at hreturns
  rw [startApplication_apply, onThread_getApplication_apply]
  exact ⟨_, congrArg (Except.map _) hreturns⟩

/-- And so does a resolution of a thread that is due. -/
theorem World.Healthy.resolveStored_returns (hw : w.Healthy env A i)
    (husable : UsableFrom env A i) {n : Node} (hstore : w.store id = some t)
    (hnext : t.next = some n) (res : EscalationResolution) :
    ∃ s, (resolveStored env id res w).1 = .ok s := by
  obtain ⟨R, -, hA, st, hreaches, hat⟩ := hw.kept id t hstore
  have hscorable : Run.ScorableAt env R st :=
    hreaches.scorableAt fun e he => he.of_mem hA
  have hready : (w.runtime.resolving id res).Ready env i :=
    ⟨hw.ready.asked, hw.ready.model, hw.ready.bureau⟩
  obtain ⟨st', hcomes, -⟩ := Run.deliver_rests (husable.of_mem hA) hat hready hscorable res
  rw [resolveStored_of_due hstore hnext, onThread_getApplication_apply]
  exact ⟨_, congrArg (Except.map _) hcomes.returns⟩

end Answers

end Underwriting
